import OWalkie.Lib.Run
import OWalkie.Relay.Jitter
import OWalkie.Relay.Modules

/-!
# The mixer loop of a channel

`runLoop` takes packets, EOF markers and ticks one at a time.  What it keeps for one session (stream
state, EOF mark, decoder) is a `Speaker`, with one function for each of the three cases; a tick
mixes every speaker on its own and hands the sum to the module chain (`MixCore.broadcast`).
`Mixer.step` is one round of the loop.
-/

namespace OWalkie

/-! ## Codecs -/

/-- `opus.NewDecoder` and `Decode`; a decode that fails is `none`. -/
class OpusDecoder (D : Type) where
  newDecoder : Option D
  decode : D → List UInt8 → D × Option (List ℤ)

/-- `Encode`; an encode that fails is `none`. -/
class OpusEncoder (E : Type) where
  encode : E → List ℤ → E × Option (List UInt8)

/-! ## One stream -/

def jitterAdaptConcealThreshold : ℕ := 4

def jitterAdaptStableDecreaseTicks : ℕ := 80

structure SpeakerStreamState where
  jitter : SpeakerJitterBuffer
  lastPacketAt : Option ℤ := none
  lastSignal : ℚ := 0
  lastPCM : List ℤ := []
  missCount : ℕ := 0
  txEOFPending : Bool := false
  decoderFlushPending : Bool := false
  eofAt : Option ℤ := none
  jitterAdaptConcealStreak : ℕ := 0
  jitterAdaptStableTicks : ℕ := 0

namespace SpeakerStreamState

/-- `newSpeakerStreamState`. -/
def new (jitterMinPackets : ℕ) : SpeakerStreamState where
  jitter := SpeakerJitterBuffer.new jitterMinPackets

def adaptJitterOnTick (freshFromUDP usedConceal : Bool) (floor ceil : ℤ)
    (st : SpeakerStreamState) : SpeakerStreamState :=
  let ceil := if ceil < floor then floor else ceil
  let cur := st.jitter.minStart
  if usedConceal then
    let streak := st.jitterAdaptConcealStreak + 1
    let st := { st with jitterAdaptStableTicks := 0, jitterAdaptConcealStreak := streak }
    if jitterAdaptConcealThreshold ≤ streak then
      { st with
        jitter :=
          if cur < ceil then st.jitter.setMinStartClamped (cur + 1) floor ceil else st.jitter
        jitterAdaptConcealStreak := 0 }
    else st
  else if freshFromUDP then
    let ticks := st.jitterAdaptStableTicks + 1
    let st := { st with jitterAdaptConcealStreak := 0, jitterAdaptStableTicks := ticks }
    if jitterAdaptStableDecreaseTicks ≤ ticks then
      { st with
        jitter :=
          if floor < cur then st.jitter.setMinStartClamped (cur - 1) floor ceil else st.jitter
        jitterAdaptStableTicks := 0 }
    else st
  else st

/-- The test of `maybeFlushDecoderAfterEOF`. -/
def FlushDue (p : MixerParams) (now : ℤ) (st : SpeakerStreamState) : Prop :=
  st.decoderFlushPending = true ∧ st.jitter.pendingCount = 0 ∧
    ¬ (st.eofAt.isSome = true ∧ sub now st.eofAt < 5 * p.packetDur)

instance (p : MixerParams) (now : ℤ) (st : SpeakerStreamState) : Decidable (st.FlushDue p now) := by
  unfold FlushDue
  infer_instance

/-- What `maybeFlushDecoderAfterEOF` leaves of the stream state when it drops the decoder. -/
def flush (st : SpeakerStreamState) : SpeakerStreamState :=
  { st with lastPCM := [], missCount := 0, decoderFlushPending := false, eofAt := none }

/-- Start a short burst that has paused before it reached the start threshold. -/
def forceStartPaused (p : MixerParams) (now : ℤ) (st : SpeakerStreamState) : SpeakerStreamState :=
  if 0 < st.jitter.pendingCount ∧ st.jitter.isStarted = false ∧
      p.packetDur < sub now st.lastPacketAt then
    { st with jitter := st.jitter.forceStartFromMinSeq }
  else st

/-- A decoded frame becomes the stream's last frame. -/
def fresh (now : ℤ) (pkt : AudioPacket) (frame : List ℤ) (st : SpeakerStreamState) :
    SpeakerStreamState :=
  { st with
    lastPCM := frame
    missCount := 0
    lastPacketAt := some now
    lastSignal := pkt.signalStrength.toNat }

/-- The concealment of a missing frame, with the frame that it repeats. -/
def conceal (p : MixerParams) (now : ℤ) (st : SpeakerStreamState) : SpeakerStreamState × List ℤ :=
  let decay := p.concealDecay ^ (st.missCount + 1)
  let decay := if p.hangoverDur < sub now st.lastPacketAt then
    decay * (8 / 10) ^ (st.missCount + 1) else decay
  let decay := min (max decay 0) 1
  ({ st with missCount := st.missCount + 1 }, st.lastPCM.map fun x => toInt16 (x * decay))

end SpeakerStreamState

/-- What one iteration over `states` works on: the entries of one session. -/
structure Stream (D : Type) where
  st : SpeakerStreamState
  eofMarked : Bool
  decoder : Option D

/-- What one iteration hands to the rest of the tick: whether it raises `txEOF`, whether it dropped
the decoder, the packet it gave to the decoder, and the frame to be mixed with its signal byte. -/
structure SpeakerTick where
  txEOF : Bool := false
  flushed : Bool := false
  played : Option AudioPacket := none
  frame : Option (List ℤ × ℚ) := none

namespace Stream

variable {D : Type} [OpusDecoder D]

/-- `maybeFlushDecoderAfterEOF`. -/
def maybeFlushDecoderAfterEOF (p : MixerParams) (now : ℤ) (v : Stream D) : Stream D :=
  if v.st.FlushDue p now then { v with st := v.st.flush, decoder := none } else v

/-- The part of the iteration before the decoder is looked up, with the packet it pulls. -/
def pull (p : MixerParams) (now : ℤ) (v : Stream D) : Stream D × Option AudioPacket :=
  let v := { v with st := { v.st with txEOFPending := false } }
  let v := v.maybeFlushDecoderAfterEOF p now
  let st := v.st.forceStartPaused p now
  ({ v with st := { st with jitter := st.jitter.pop.2 } }, st.jitter.pop.1)

/-- Decode the packet, if there is one; a decode that fails or gives no sample is a gap. -/
def decode (p : MixerParams) (now : ℤ) (dec : D) (pkt : Option AudioPacket) (v : Stream D) :
    Stream D × Option (List ℤ) :=
  match pkt with
  | none => ({ v with decoder := some dec }, none)
  | some pkt =>
    match OpusDecoder.decode dec pkt.opus with
    | (dec, none) => ({ v with decoder := some dec }, none)
    | (dec, some []) => ({ v with decoder := some dec }, none)
    | (dec, some pcm) =>
      ({ v with st := v.st.fresh now pkt (frameOf p pcm), decoder := some dec },
        some (frameOf p pcm))

/-- The stream is concealed in a tick that decodes nothing. -/
def Conceals (p : MixerParams) (now : ℤ) (v : Stream D) : Prop :=
  v.eofMarked = false ∧ sub now v.st.lastPacketAt ≤ p.eofTimeoutDur ∧ v.st.lastPCM ≠ []

instance (p : MixerParams) (now : ℤ) (v : Stream D) : Decidable (v.Conceals p now) := by
  unfold Conceals
  infer_instance

/-- The rest of the iteration: concealment or implicit EOF, adaptation, the frame to be mixed. -/
def finish (p : MixerParams) (now : ℤ) (frame : Option (List ℤ)) (v : Stream D) :
    Stream D × Option (List ℤ × ℚ) :=
  let usedConceal := frame.isNone && decide (v.Conceals p now)
  let v' : Stream D :=
    if frame.isSome then v
    else if v.Conceals p now then { v with st := (v.st.conceal p now).1 }
    else if p.eofTimeoutDur < sub now v.st.lastPacketAt then { v with eofMarked := true }
    else v
  let v' : Stream D :=
    if p.jitterAdaptEnabled && !v'.eofMarked then
      { v' with
        st := v'.st.adaptJitterOnTick frame.isSome usedConceal p.jitterMinPackets
          p.jitterMaxPackets }
    else v'
  let out := match frame with
    | some frame => some frame
    | none => if v.Conceals p now then some (v.st.conceal p now).2 else none
  (v', out.map fun frame => (frame, v.st.lastSignal))

/-- One iteration of the loop over `states` in `mixAndBroadcast`. -/
def mix (p : MixerParams) (now : ℤ) (isRepeater : Bool) (v : Stream D) : Stream D × SpeakerTick :=
  let txEOF := v.st.txEOFPending && !isRepeater
  let flushed := decide (v.st.FlushDue p now)
  let (v, pkt) := v.pull p now
  match v.decoder.orElse fun _ => OpusDecoder.newDecoder with
  | none => (v, { txEOF := txEOF, flushed := flushed })
  | some dec =>
    let (v, fresh) := v.decode p now dec pkt
    let (v, frame) := v.finish p now fresh
    (v, { txEOF := txEOF, flushed := flushed, played := pkt, frame := frame })

end Stream

/-! ## One session in the maps of the loop -/

/-- The entries `states[sid]`, `eofMarked[sid]` and `decoders[sid]`. -/
structure Speaker (D : Type) where
  st : Option SpeakerStreamState := none
  eofMarked : Bool := false
  decoder : Option D := none

namespace Speaker

variable {D : Type}

/-- The case of `runLoop` for a packet of the session; the clock is read at `now` and again at
`now'`. -/
def onPacket (p : MixerParams) (pkt : AudioPacket) (now now' : ℤ) (sp : Speaker D) : Speaker D :=
  let st := sp.st.getD (.new p.jitterMinPackets)
  let prev := st.lastPacketAt
  let stale := prev.isSome && decide (3 * p.packetDur < sub now prev) && !st.jitter.isStarted &&
    decide (0 < st.jitter.pendingCount)
  let decoder := if stale then none else sp.decoder
  let st :=
    if stale then { st with jitter := st.jitter.reset, lastPCM := [], missCount := 0 } else st
  { st := some { st with
      jitter := st.jitter.push pkt
      lastPacketAt := some now
      lastSignal := pkt.signalStrength.toNat }
    eofMarked := sp.eofMarked && !(prev.isSome && decide (3 * p.packetDur < sub now' prev))
    decoder := decoder }

/-- The case of `runLoop` for an EOF marker of the session. -/
def onEOF (now : ℤ) (sp : Speaker D) : Speaker D :=
  { sp with
    eofMarked := true
    st := sp.st.map fun st =>
      { st with
        jitter := st.jitter.forceStartFromMinSeq
        decoderFlushPending := true
        eofAt := some now
        txEOFPending := true } }

/-- The session's part in the loop of `mixAndBroadcast`. -/
def mix [OpusDecoder D] (p : MixerParams) (now : ℤ) (isRepeater : Bool) (sp : Speaker D) :
    Speaker D × SpeakerTick :=
  match sp.st with
  | none => (sp, {})
  | some st =>
    let (v, tick) := Stream.mix p now isRepeater ⟨st, sp.eofMarked, sp.decoder⟩
    ({ st := some v.st, eofMarked := v.eofMarked, decoder := v.decoder }, tick)

/-- `cleanupStreamStates` removes the stream state of the session. -/
def Removed (p : MixerParams) (now : ℤ) (present : Bool) (sp : Speaker D) : Prop :=
  ∃ st ∈ sp.st, present = false ∨ p.eofTimeoutDur < sub now st.lastPacketAt

instance (p : MixerParams) (now : ℤ) (present : Bool) (sp : Speaker D) :
    Decidable (sp.Removed p now present) := by
  unfold Removed
  infer_instance

/-- The session's part in `cleanupStreamStates`. -/
def cleanup (p : MixerParams) (now : ℤ) (present : Bool) (sp : Speaker D) : Speaker D :=
  if sp.Removed p now present then {} else sp

end Speaker

/-! ## The mix -/

/-- The fields of the mixer that a tick reads and writes beside the speakers. -/
structure MixCore (E M : Type) where
  encoder : E
  seq : ℕ := 0
  noiseLevelDB : ℚ
  lastSignal : ℚ := 255
  generators : List M
  dspMods : List M
  lastSingleSpeaker : SessionID := 0
  lastSingleSpeakerAt : Option ℤ := none
  synthSilenceRemain : ℤ := 0
  lastTxActive : Bool := false

/-- A frame that is remembered, sent to the channel and noted for the receive session. -/
structure MixedFrame where
  exclude : SessionID
  opus : List UInt8
  seq : ℕ
  signal : ℤ
  deriving DecidableEq

/-- What a tick hands to the module chain, and the frame that it sends. -/
structure TickOutput where
  control : Option AudioModuleControl := none
  frame : Option MixedFrame := none
  deriving DecidableEq

/-- A speaker that is heard in a tick, with its frame and signal byte. -/
structure Heard where
  sid : SessionID
  pcm : List ℤ
  signal : ℚ

namespace MixCore

variable {E M : Type} [OpusEncoder E] [AudioModule M]

/-- How long after the last single speaker its tail is kept from it. -/
def tailGrace (p : MixerParams) : ℤ :=
  let packetMs := p.packetDur.tdiv millisecond
  match p.squelch with
  | some squelch => max squelch.tailMaxMs (packetMs * 2) * millisecond
  | none => packetMs * 2 * millisecond

/-- The session that `broadcastMixed` leaves out. -/
def excluded (p : MixerParams) (now : ℤ) (active : List SessionID) (c : MixCore E M) : SessionID :=
  match active with
  | [sid] => sid
  | [] =>
    if c.lastSingleSpeaker ≠ 0 ∧ sub now c.lastSingleSpeakerAt ≤ tailGrace p then
      c.lastSingleSpeaker
    else 0
  | _ => 0

/-- Encode a frame and send it, unless the encoder gives nothing. -/
def send (p : MixerParams) (now : ℤ) (active : List SessionID) (pcm : List ℤ) (signal : ℤ)
    (c : MixCore E M) : MixCore E M × Option MixedFrame :=
  match OpusEncoder.encode c.encoder pcm with
  | (encoder, none) => ({ c with encoder := encoder }, none)
  | (encoder, some []) => ({ c with encoder := encoder }, none)
  | (encoder, some opus) =>
    let c := { c with encoder := encoder, seq := u32 (c.seq + 1) }
    (c, some
      { exclude := c.excluded p now active
        opus := opus
        seq := c.seq
        signal := signal })

def emitEncodedSilenceFrame (p : MixerParams) (now : ℤ) (active : List SessionID)
    (c : MixCore E M) : MixCore E M × Option MixedFrame :=
  c.send p now active (List.replicate p.packetSamples 0) (toInt16 (min (max c.lastSignal 0) 255))

/-- The sum of the frames that are heard. -/
def mixed (p : MixerParams) (heard : List Heard) : List ℚ :=
  (List.range p.packetSamples).map fun i => (heard.map fun h => ((h.pcm.getD i 0 : ℤ) : ℚ)).sum

/-- The tick after the loop over the speakers, up to the test for the silence tail, with the control
event and the average signal. -/
def account (now : ℤ) (heard : List Heard) (txEOF : Bool) (c : MixCore E M) :
    MixCore E M × AudioModuleControl × ℚ :=
  let signalSum := if heard = [] then c.lastSignal else (heard.map (·.signal)).sum
  let txActive := !heard.isEmpty
  let avgSignal := signalSum / max heard.length 1
  ({ c with
      lastSignal := if heard = [] then c.lastSignal else signalSum / heard.length
      lastTxActive := txActive
      lastSingleSpeaker := match heard with
        | [] => c.lastSingleSpeaker
        | [h] => h.sid
        | _ => 0
      lastSingleSpeakerAt := if heard.length = 1 then some now else c.lastSingleSpeakerAt },
    { txActive := txActive
      txStart := txActive && !c.lastTxActive
      txEOF := txEOF || !txActive && c.lastTxActive
      multiClientMix := decide (1 < heard.length)
      signalByte := if txActive then some avgSignal else none }, avgSignal)

/-- The module chain and what follows it. -/
def produce (p : MixerParams) (now moduleNow : ℤ) (heard : List Heard)
    (control : AudioModuleControl) (avgSignal : ℚ) (c : MixCore E M) :
    MixCore E M × Option MixedFrame :=
  let ctx : AudioProcessContext :=
    { mixed := mixed p heard
      avgSignalByte := avgSignal
      activeSpeakers := heard.length
      noiseLevelDB := c.noiseLevelDB
      control := control
      emitFrame := control.txActive }
  let (generators, ctx, dropped) := processModuleChain moduleNow c.generators ctx
  let c := { c with generators := generators, noiseLevelDB := ctx.noiseLevelDB }
  if dropped then (c, none)
  else
    let (dspMods, ctx, dropped) := processModuleChain moduleNow c.dspMods ctx
    let c := { c with dspMods := dspMods, noiseLevelDB := ctx.noiseLevelDB }
    if dropped then (c, none)
    else
      let c := if ctx.queueSynthSilenceTail then
        { c with synthSilenceRemain := c.synthSilenceRemain + synthesizedBurstSilenceTicks p }
      else c
      if ctx.emitFrame then
        c.send p now (heard.map (·.sid)) (clipFrame p ctx.mixed) (toInt16 ctx.avgSignalByte)
      else (c, none)

/-- The tick after the loop over the speakers. -/
def broadcast (p : MixerParams) (now moduleNow : ℤ) (heard : List Heard) (txEOF : Bool)
    (c : MixCore E M) : MixCore E M × TickOutput :=
  let (c, control, avgSignal) := c.account now heard txEOF
  if 0 < c.synthSilenceRemain then
    let (c, frame) := c.emitEncodedSilenceFrame p now (heard.map (·.sid))
    ({ c with synthSilenceRemain := c.synthSilenceRemain - 1 }, { frame := frame })
  else
    let (c, frame) := c.produce p now moduleNow heard control avgSignal
    (c, { control := some control, frame := frame })

end MixCore

/-! ## The loop -/

structure Mixer (D E M : Type) where
  clock : ℤ := 0
  /-- the keys of `states` -/
  keys : List SessionID := []
  speaker : SessionID → Speaker D := fun _ => {}
  repeater : SessionID → Option (RepeaterSession M) := fun _ => none
  core : MixCore E M

/-- What a tick reads from outside the loop: the order in which it meets `states`, the clients in
repeater mode, as read in the loop and again at the end, the participants, and the time that passes
before the modules and before the cleanup. -/
structure TickInput where
  order : List SessionID
  isRepeater : SessionID → Bool := fun _ => false
  isRepeater' : SessionID → Bool := fun _ => false
  present : SessionID → Bool := fun _ => true
  moduleDt : ℕ := 0
  cleanupDt : ℕ := 0

inductive LoopEvent (E : Type) where
  | elapse (dt : ℕ)
  /-- the loop takes a packet; `dt` passes between its two readings of the clock -/
  | packet (pkt : AudioPacket) (dt : ℕ)
  /-- the loop takes an EOF marker; the loop does not see its sequence number -/
  | eof (sid : SessionID) (seq : ℕ)
  | tick (t : TickInput)
  /-- `removeParticipant` deletes the decoder of the session -/
  | dropDecoder (sid : SessionID)
  | clearRepeaterState (sid : SessionID)
  /-- the loop panics and starts again; without a new encoder only its own maps are new -/
  | restart (encoder : Option E)

namespace Mixer

variable {D E M : Type} [OpusDecoder D] [OpusEncoder E] [AudioModule M]

def new (mods : ModuleSet M) (encoder : E) : Mixer D E M where
  core :=
    { encoder := encoder
      noiseLevelDB := mods.noiseFloor
      generators := mods.generators
      dspMods := mods.dspMods }

def setSpeaker (s : Mixer D E M) (sid : SessionID) (sp : Speaker D) : Mixer D E M :=
  { s with speaker := Function.update s.speaker sid sp }

/-- What the session's iteration hands to the tick. -/
def speakerTick (p : MixerParams) (t : TickInput) (s : Mixer D E M) (sid : SessionID) :
    SpeakerTick :=
  ((s.speaker sid).mix p s.clock (t.isRepeater sid)).2

/-- The speakers that are heard, in iteration order. -/
def heard (p : MixerParams) (t : TickInput) (s : Mixer D E M) : List Heard :=
  t.order.filterMap fun sid =>
    if t.isRepeater sid then none
    else (s.speakerTick p t sid).frame.map fun f => ⟨sid, f.1, f.2⟩

/-- An EOF marker is pending for a speaker that is not in repeater mode. -/
def txEOF (p : MixerParams) (t : TickInput) (s : Mixer D E M) : Bool :=
  t.order.any fun sid => (s.speakerTick p t sid).txEOF

/-- The repeater sessions after the loop over the speakers and `processRepeaterFinalization`. -/
def mixRepeater (p : MixerParams) (mods : ModuleSet M) (t : TickInput) (s : Mixer D E M)
    (sid : SessionID) : Option (RepeaterSession M) × Option (List ℤ) :=
  let st := match t.isRepeater sid, (s.speakerTick p t sid).frame with
    | true, some f =>
      some (processRepeaterCapture p mods (s.clock + t.moduleDt) s.clock f.1 f.2 (s.repeater sid))
    | _, _ => s.repeater sid
  processRepeaterFinalization p (s.clock + t.moduleDt) s.clock (t.isRepeater' sid) st

/-- `mixAndBroadcast`, `cleanupStreamStates`. -/
def tick (p : MixerParams) (mods : ModuleSet M) (t : TickInput) (s : Mixer D E M) :
    Mixer D E M × TickOutput :=
  let now := s.clock
  let cleanupNow := now + t.moduleDt + t.cleanupDt
  let (core, out) := s.core.broadcast p now (now + t.moduleDt) (s.heard p t) (s.txEOF p t)
  let mixed := fun sid => ((s.speaker sid).mix p now (t.isRepeater sid)).1
  ({ clock := cleanupNow
     keys := s.keys.filter fun sid => !decide ((mixed sid).Removed p cleanupNow (t.present sid))
     speaker := fun sid => (mixed sid).cleanup p cleanupNow (t.present sid)
     repeater := fun sid => (s.mixRepeater p mods t sid).1
     core := core }, out)

/-- `resetAfterLoopFailure`, with the empty maps of the next `runLoop`. -/
def restart (encoder : Option E) (s : Mixer D E M) : Mixer D E M :=
  match encoder with
  | none => { s with keys := [], speaker := fun sid => { decoder := (s.speaker sid).decoder } }
  | some encoder =>
    { s with
      keys := []
      speaker := fun _ => {}
      repeater := fun _ => none
      core := { s.core with encoder := encoder, synthSilenceRemain := 0, lastTxActive := false } }

def step (p : MixerParams) (mods : ModuleSet M) (s : Mixer D E M) :
    LoopEvent E → Mixer D E M × List TickOutput
  | .elapse dt => ({ s with clock := s.clock + dt }, [])
  | .packet pkt dt =>
    ({ s with
        clock := s.clock + dt
        keys := if (s.speaker pkt.sessionID).st.isSome then s.keys else pkt.sessionID :: s.keys
        speaker := Function.update s.speaker pkt.sessionID
          ((s.speaker pkt.sessionID).onPacket p pkt s.clock (s.clock + dt)) }, [])
  | .eof sid _ =>
    ({ s with
        speaker := Function.update s.speaker sid ((s.speaker sid).onEOF s.clock)
        repeater := Function.update s.repeater sid (markRepeaterEOF (s.repeater sid)) }, [])
  | .tick t =>
    if t.order.Perm s.keys then ((s.tick p mods t).1, [(s.tick p mods t).2]) else (s, [])
  | .dropDecoder sid => (s.setSpeaker sid { s.speaker sid with decoder := none }, [])
  | .clearRepeaterState sid => ({ s with repeater := Function.update s.repeater sid none }, [])
  | .restart encoder => (s.restart encoder, [])

/-! ### What a round does to one session -/

/-- The round works on the entries of `S`. -/
def Touches (s : Mixer D E M) (S : SessionID) : LoopEvent E → Prop
  | .packet pkt _ => pkt.sessionID = S
  | .eof sid _ => sid = S
  | .tick t => t.order.Perm s.keys
  | .dropDecoder sid => sid = S
  | .restart _ => True
  | _ => False

/-- The entries of `S` after a round. -/
inductive SpeakerStep (p : MixerParams) (s : Mixer D E M) (S : SessionID) :
    LoopEvent E → Speaker D → Prop
  | packet (pkt : AudioPacket) (dt : ℕ) (hS : pkt.sessionID = S) :
    SpeakerStep p s S (.packet pkt dt) ((s.speaker S).onPacket p pkt s.clock (s.clock + dt))
  | eof (seq : ℕ) : SpeakerStep p s S (.eof S seq) ((s.speaker S).onEOF s.clock)
  | tick (t : TickInput) (hperm : t.order.Perm s.keys) :
    SpeakerStep p s S (.tick t) (((s.speaker S).mix p s.clock (t.isRepeater S)).1.cleanup p
      (s.clock + t.moduleDt + t.cleanupDt) (t.present S))
  | dropDecoder : SpeakerStep p s S (.dropDecoder S) { s.speaker S with decoder := none }
  | restart (encoder : Option E) (decoder : Option D) :
    SpeakerStep p s S (.restart encoder) { decoder := decoder }
  | same (x : LoopEvent E) (hno : ¬ s.Touches S x) : SpeakerStep p s S x (s.speaker S)

theorem speakerStep (p : MixerParams) (mods : ModuleSet M) (s : Mixer D E M) (S : SessionID)
    (x : LoopEvent E) : SpeakerStep p s S x ((step p mods s x).1.speaker S) := by
  cases x with
  | elapse dt => exact .same _ id
  | packet pkt dt =>
    simp only [step]
    by_cases hS : pkt.sessionID = S
    · subst hS
      rw [Function.update_self]
      exact .packet pkt dt rfl
    · rw [Function.update_of_ne (Ne.symm hS)]
      exact .same (.packet pkt dt) hS
  | eof sid seq =>
    simp only [step]
    by_cases hS : sid = S
    · subst hS
      rw [Function.update_self]
      exact .eof seq
    · rw [Function.update_of_ne (Ne.symm hS)]
      exact .same (.eof sid seq) hS
  | tick t =>
    by_cases hperm : t.order.Perm s.keys
    · simp only [step, if_pos hperm]
      exact .tick t hperm
    · simp only [step, if_neg hperm]
      exact .same (.tick t) hperm
  | dropDecoder sid =>
    simp only [step, setSpeaker]
    by_cases hS : sid = S
    · subst hS
      rw [Function.update_self]
      exact .dropDecoder
    · rw [Function.update_of_ne (Ne.symm hS)]
      exact .same (.dropDecoder sid) hS
  | clearRepeaterState sid => exact .same _ id
  | restart encoder => cases encoder <;> exact .restart _ _

end Mixer

/-! ## A silent channel -/

/-- A codec whose packets all stand for 20 ms of silence. -/
structure SilentCodec where
  deriving DecidableEq

instance : OpusDecoder SilentCodec where
  newDecoder := some ⟨⟩
  decode dec _ := (dec, some (List.replicate 160 0))

instance : OpusEncoder SilentCodec where
  encode enc _ := (enc, some [1])

instance : AudioModule Empty where
  process mod := nomatch mod

/-- No modules at all. -/
def noModules : ModuleSet Empty where
  generators := []
  dspMods := []
  noiseFloor := -30

/-- A mixer with the silent codec and no modules. -/
abbrev silentMixer : Mixer SilentCodec SilentCodec Empty := Mixer.new noModules ⟨⟩

/-- A round of the loop of such a mixer. -/
abbrev silentStep (p : MixerParams) (s : Mixer SilentCodec SilentCodec Empty)
    (e : LoopEvent SilentCodec) : Mixer SilentCodec SilentCodec Empty × List TickOutput :=
  s.step p noModules e

/-- A packet of session 1. -/
def packetOfOne (seq : ℕ) : LoopEvent SilentCodec :=
  .packet { sessionID := 1, seq := seq, signalStrength := 200, opus := [1], srcAddr := ⟨0, 7001⟩ } 0

/-- A tick that finds the stream state of session 1 only. -/
def tickOfOne : LoopEvent SilentCodec := .tick { order := [1] }

end OWalkie
