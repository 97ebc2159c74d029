import OWalkie.Relay.Basic

/-!
# Module chains and repeater sessions

The frame context that the generator and DSP stages share, `processModuleChain`, and the private
chain (`AudioProcessor`) with which a client in repeater mode is recorded.  A stage is any type with
an `AudioModule` instance; randomness is part of its state.  Samples and levels are exact: `ℤ` for
`int16`, `ℚ` for `float64`.
-/

namespace OWalkie

/-! ## The frame context -/

structure AudioModuleControl where
  txActive : Bool
  txStart : Bool
  txEOF : Bool
  multiClientMix : Bool
  signalByte : Option ℚ
  deriving DecidableEq

structure AudioProcessContext where
  mixed : List ℚ
  avgSignalByte : ℚ
  activeSpeakers : ℕ
  noiseLevelDB : ℚ
  control : AudioModuleControl
  emitFrame : Bool
  dropFrame : Bool := false
  squelchHissJustEnded : Bool := false
  queueSynthSilenceTail : Bool := false

/-- A pipeline stage; `process` is given the time that the stage reads from the clock. -/
class AudioModule (M : Type) where
  process : M → ℤ → AudioProcessContext → M × AudioProcessContext

variable {M : Type} [AudioModule M]

/-- Run the stages in order and stop at the first that drops the frame. -/
def processModuleChain (now : ℤ) :
    List M → AudioProcessContext → List M × AudioProcessContext × Bool
  | [], ctx => ([], ctx, false)
  | mod :: mods, ctx =>
    let (mod, ctx) := AudioModule.process mod now ctx
    if ctx.dropFrame then (mod :: mods, ctx, true)
    else
      let (mods, ctx, dropped) := processModuleChain now mods ctx
      (mod :: mods, ctx, dropped)

/-- What `buildChannelModuleSets` and the noise block of the configuration give a new chain. -/
structure ModuleSet (M : Type) where
  generators : List M
  dspMods : List M
  noiseFloor : ℚ

/-! ## Samples -/

/-- The conversion of a `float64` in range to `int16`. -/
def toInt16 (v : ℚ) : ℤ := v.num.tdiv v.den

def hardClipFloat (v threshold : ℚ) : ℤ :=
  if threshold < v then toInt16 threshold
  else if v < -threshold then toInt16 (-threshold)
  else toInt16 v

/-- A frame of `packetSamples` samples that starts with `pcm`. -/
def frameOf (p : MixerParams) (pcm : List ℤ) : List ℤ :=
  pcm.take p.packetSamples ++ List.replicate (p.packetSamples - pcm.length) 0

/-- The clipped output of a chain. -/
def clipFrame (p : MixerParams) (mixed : List ℚ) : List ℤ :=
  (List.range p.packetSamples).map fun i => hardClipFloat (mixed.getD i 0) 15000

/-! ## The private chain of a repeater -/

structure AudioProcessor (M : Type) where
  generators : List M
  dspMods : List M
  noiseLevelDB : ℚ
  lastSignal : ℚ := 255
  lastTxActive : Bool := false

def newAudioProcessor (mods : ModuleSet M) : AudioProcessor M where
  generators := mods.generators
  dspMods := mods.dspMods
  noiseLevelDB := mods.noiseFloor

/-- `audioProcessor.process`; `none` when nothing is emitted. -/
def AudioProcessor.process (p : MixerParams) (now : ℤ) (input : List ℤ) (signalByte : ℚ)
    (active : Bool) (proc : AudioProcessor M) : AudioProcessor M × Option (List ℤ) :=
  let lastSignal := if active then signalByte else proc.lastSignal
  let ctx : AudioProcessContext :=
    { mixed := (frameOf p (if active then input else [])).map (↑)
      avgSignalByte := lastSignal
      activeSpeakers := if active then 1 else 0
      noiseLevelDB := proc.noiseLevelDB
      control :=
        { txActive := active
          txStart := active && !proc.lastTxActive
          txEOF := !active && proc.lastTxActive
          multiClientMix := false
          signalByte := if active then some lastSignal else none }
      emitFrame := active }
  let proc := { proc with lastSignal := lastSignal, lastTxActive := active }
  let (generators, ctx, dropped) := processModuleChain now proc.generators ctx
  let proc := { proc with generators := generators, noiseLevelDB := ctx.noiseLevelDB }
  if dropped then (proc, none)
  else
    let (dspMods, ctx, dropped) := processModuleChain now proc.dspMods ctx
    let proc := { proc with dspMods := dspMods, noiseLevelDB := ctx.noiseLevelDB }
    if dropped || !ctx.emitFrame then (proc, none) else (proc, some (clipFrame p ctx.mixed))

structure RepeaterSession (M : Type) where
  processor : AudioProcessor M
  bufferPCM : List ℤ := []
  lastPacket : Option ℤ := none
  collecting : Bool := false
  lastSignal : ℚ := 255
  eofMarked : Bool := false

/-- `processRepeaterCapture` for one session. -/
def processRepeaterCapture (p : MixerParams) (mods : ModuleSet M) (moduleNow now : ℤ)
    (pcm : List ℤ) (signalByte : ℚ) (st : Option (RepeaterSession M)) : RepeaterSession M :=
  let st := st.getD { processor := newAudioProcessor mods }
  let (processor, out) := st.processor.process p moduleNow pcm signalByte true
  { st with
    processor := processor
    bufferPCM := st.bufferPCM ++ out.getD []
    eofMarked := false
    collecting := true
    lastPacket := some now
    lastSignal := signalByte }

/-- `markRepeaterEOF` for the entry of the session. -/
def markRepeaterEOF (st : Option (RepeaterSession M)) : Option (RepeaterSession M) :=
  st.map fun st => { st with eofMarked := true }

/-- The rounds that let a chain play its tail; they end with the first that emits nothing. -/
def drainTail (p : MixerParams) (moduleNow : ℤ) (signal : ℚ) :
    ℕ → AudioProcessor M → AudioProcessor M × List ℤ
  | 0, proc => (proc, [])
  | rounds + 1, proc =>
    match proc.process p moduleNow [] signal false with
    | (proc, none) => (proc, [])
    | (proc, some out) =>
      let (proc, rest) := drainTail p moduleNow signal rounds proc
      (proc, out ++ rest)

/-- The number of silent ticks after a synthesized burst. -/
def synthesizedBurstSilenceTicks (p : MixerParams) : ℤ :=
  match p.squelch with
  | some squelch =>
    if 0 < squelch.synthSilenceTailPackets then squelch.synthSilenceTailPackets
    else max (p.jitterMinPackets + 2) 4
  | none => max (p.jitterMinPackets + 2) 4

/-- `processRepeaterFinalization` for one session, with the recording that is played back to it. -/
def processRepeaterFinalization (p : MixerParams) (moduleNow now : ℤ) (isRepeater : Bool) :
    Option (RepeaterSession M) → Option (RepeaterSession M) × Option (List ℤ)
  | none => (none, none)
  | some st =>
    if isRepeater = false then (none, none)
    else if st.collecting = false then (some st, none)
    else if st.eofMarked = false ∧ sub now st.lastPacket < 2 * p.packetDur then (some st, none)
    else
      let (processor, tail) := drainTail p moduleNow st.lastSignal 16 st.processor
      let padding := List.replicate ((synthesizedBurstSilenceTicks p).toNat * p.packetSamples) 0
      (some { st with
          processor := processor
          bufferPCM := []
          collecting := false
          eofMarked := false }, some (st.bufferPCM ++ tail ++ padding))

end OWalkie
