import OWalkie.Relay.Modules

/-!
# The DSP stages of a channel

`squelchDSPModule` and `popsModule`, which decide on their own whether a frame is emitted, and the
chain that `buildChannelModuleSets` makes of the names in `modules.dsp.chain` (`DspChain`).  A name
that stands there twice is one stage that runs twice.  Random numbers are streams in the state.  The
other stages (`ShapingStage`) only change samples, and ask for a frame only while somebody talks.
-/

namespace OWalkie

/-! ## Random numbers -/

/-- The draws of `rand.Intn`, in their order. -/
structure Rand where
  draws : ℕ → ℕ
  used : ℕ := 0

def Rand.intn (r : Rand) (n : ℕ) : ℕ × Rand :=
  (r.draws r.used % n, { r with used := r.used + 1 })

def randomDurationMs (minMs maxMs : ℤ) (r : Rand) : ℤ × Rand :=
  if maxMs ≤ minMs then (minMs * millisecond, r)
  else
    let (k, r) := r.intn (maxMs - minMs + 1).toNat
    ((minMs + k) * millisecond, r)

/-- Somebody is heard on the frame. -/
def AudioProcessContext.active (ctx : AudioProcessContext) : Bool :=
  ctx.control.txActive || decide (0 < ctx.activeSpeakers)

/-- The signal byte that the stages go by. -/
def AudioProcessContext.signal (ctx : AudioProcessContext) : ℚ :=
  ctx.control.signalByte.getD ctx.avgSignalByte

/-! ## Squelch -/

/-- An enabled `modules.dsp.squelch` block that `validateConfig` has passed. -/
structure SquelchDSPConfig where
  thresholdPercent : ℚ
  squelchMinMs : ℤ
  squelchMaxMs : ℤ
  tailMinMs : ℤ
  tailMaxMs : ℤ
  synthSilenceTailPackets : ℤ := 0
  /-- `NoiseGain * dbToLinear(TailNoiseDB)` -/
  noiseAmplitude : ℚ
  edgeImpulseLinear : ℚ := 0
  thresholdPercent_mem : 0 ≤ thresholdPercent ∧ thresholdPercent ≤ 100
  squelchMs : 0 < squelchMinMs ∧ squelchMinMs ≤ squelchMaxMs
  tailMs : 0 < tailMinMs ∧ tailMinMs ≤ tailMaxMs
  synthSilenceTailPackets_nonneg : 0 ≤ synthSilenceTailPackets

/-- The part of the block that the mixer reads. -/
def SquelchDSPConfig.tail (cfg : SquelchDSPConfig) : SquelchTail where
  tailMaxMs := cfg.tailMaxMs
  synthSilenceTailPackets := cfg.synthSilenceTailPackets

structure SquelchDSPModule where
  cfg : SquelchDSPConfig
  frameDuration : ℤ
  /-- the samples of `white.next()`, in their order -/
  white : ℕ → ℚ
  whiteUsed : ℕ := 0
  rand : Rand
  squelchBurstRemain : ℤ := 0
  squelchLatched : Bool := false
  lastActive : Bool := false

namespace SquelchDSPModule

/-- Add noise to every sample. -/
def addHiss (mixed : List ℚ) (m : SquelchDSPModule) : SquelchDSPModule × List ℚ :=
  ({ m with whiteUsed := m.whiteUsed + mixed.length },
    mixed.mapIdx fun i x => x + m.white (m.whiteUsed + i) * m.cfg.noiseAmplitude)

def addEdgeImpulseSample (idx : ℕ) (mixed : List ℚ) (m : SquelchDSPModule) :
    SquelchDSPModule × List ℚ :=
  if m.cfg.edgeImpulseLinear ≤ 0 ∨ mixed.length ≤ idx then (m, mixed)
  else
    let (k, rand) := m.rand.intn 2
    ({ m with rand := rand },
      mixed.modify idx fun x => x + (if k = 0 then -1 else 1) * m.cfg.edgeImpulseLinear)

/-- Draw the length of a burst, unless one is going on. -/
def startBurst (minMs maxMs : ℤ) (m : SquelchDSPModule) : SquelchDSPModule × Bool :=
  if m.squelchBurstRemain ≤ 0 then
    let (d, rand) := randomDurationMs minMs maxMs m.rand
    ({ m with squelchBurstRemain := d, rand := rand }, true)
  else (m, false)

/-- The noise of one frame of a burst, with the opening click on its first. -/
def burst (started : Bool) (mixed : List ℚ) (m : SquelchDSPModule) : SquelchDSPModule × List ℚ :=
  let (m, mixed) := m.addHiss mixed
  if started then m.addEdgeImpulseSample 0 mixed else (m, mixed)

/-- The branch of `Process` for a frame on which nobody is heard. -/
def processIdle (ctx : AudioProcessContext) (m : SquelchDSPModule) :
    SquelchDSPModule × AudioProcessContext :=
  let txEOF := ctx.control.txEOF || m.lastActive
  let (m, started) :=
    if txEOF then m.startBurst m.cfg.tailMinMs m.cfg.tailMaxMs else (m, false)
  let m : SquelchDSPModule := { m with lastActive := false }
  if 0 < m.squelchBurstRemain then
    let afterDec := m.squelchBurstRemain - m.frameDuration
    let (m, mixed) := m.burst started ctx.mixed
    if afterDec ≤ 0 then
      let (m, mixed) := m.addEdgeImpulseSample (mixed.length - 1) mixed
      ({ m with squelchBurstRemain := 0 },
        { ctx with
          mixed := mixed
          squelchHissJustEnded := true
          queueSynthSilenceTail := true
          emitFrame := true })
    else
      ({ m with squelchBurstRemain := afterDec }, { ctx with mixed := mixed, emitFrame := true })
  else ({ m with squelchLatched := false }, { ctx with emitFrame := false })

/-- The branch of `Process` for a weak signal: a short burst, then the gate. -/
def processWeak (ctx : AudioProcessContext) (m : SquelchDSPModule) :
    SquelchDSPModule × AudioProcessContext :=
  if m.squelchLatched then (m, { ctx with dropFrame := true })
  else
    let (m, started) := m.startBurst m.cfg.squelchMinMs m.cfg.squelchMaxMs
    let afterDec := m.squelchBurstRemain - m.frameDuration
    let (m, mixed) := m.burst started ctx.mixed
    let m : SquelchDSPModule := { m with squelchBurstRemain := afterDec }
    let (m, mixed) := if 0 < afterDec ∧ afterDec ≤ m.frameDuration then
      m.addEdgeImpulseSample (mixed.length - 1) mixed else (m, mixed)
    if afterDec ≤ 0 then
      ({ m with squelchLatched := true }, { ctx with mixed := mixed, dropFrame := true })
    else (m, { ctx with mixed := mixed })

/-- `Process`. -/
def process (ctx : AudioProcessContext) (m : SquelchDSPModule) :
    SquelchDSPModule × AudioProcessContext :=
  if ctx.active = false then m.processIdle ctx
  else
    let m := { m with lastActive := true }
    if ctx.signal / 255 * 100 ≤ m.cfg.thresholdPercent then m.processWeak ctx
    else ({ m with squelchLatched := false, squelchBurstRemain := 0 }, ctx)

end SquelchDSPModule

/-! ## Pops -/

structure PopsModule where
  /-- `injectClick(ctx, 1.0)` -/
  click : List ℚ → List ℚ
  /-- the click of the glitch of that number, with its random frequency and amplitude -/
  glitch : ℕ → List ℚ → List ℚ
  glitches : ℕ := 0
  glitchMaxMs : ℤ
  glitchAmpMax : ℚ
  frameDuration : ℤ
  rand : Rand
  glitchRemain : ℤ := 0
  lastActive : Bool := false

namespace PopsModule

def scheduleNextGlitch (m : PopsModule) : PopsModule :=
  if m.glitchMaxMs ≤ 0 then { m with glitchRemain := 0 }
  else
    let (d, rand) := randomDurationMs 1 m.glitchMaxMs m.rand
    { m with glitchRemain := d, rand := rand }

def processRandomGlitchClicks (mixed : List ℚ) (m : PopsModule) : PopsModule × List ℚ :=
  if m.glitchMaxMs ≤ 0 ∨ mixed = [] ∨ m.glitchAmpMax ≤ 0 then (m, mixed)
  else if m.glitchRemain ≤ 0 then
    ({ m with glitches := m.glitches + 1 }.scheduleNextGlitch, m.glitch m.glitches mixed)
  else ({ m with glitchRemain := m.glitchRemain - m.frameDuration }, mixed)

/-- `Process`. -/
def process (ctx : AudioProcessContext) (m : PopsModule) : PopsModule × AudioProcessContext :=
  let txStart := ctx.control.txStart || ctx.active && !m.lastActive
  let txEOF := ctx.control.txEOF || !ctx.active && m.lastActive
  let (m, ctx) := if txStart then
    (m.scheduleNextGlitch, { ctx with mixed := m.click ctx.mixed, emitFrame := true })
  else (m, ctx)
  let (m, mixed) := if ctx.active then m.processRandomGlitchClicks ctx.mixed else (m, ctx.mixed)
  let ctx := { ctx with mixed := mixed }
  let ctx := if txEOF then { ctx with mixed := m.click ctx.mixed, emitFrame := true } else ctx
  ({ m with lastActive := ctx.active }, ctx)

end PopsModule

/-! ## The chain -/

/-- `clicks`, `noise`, `filter`, `dispersion`, `compressor` or `distortion`: how the samples change
and which noise level is set is left open. -/
structure ShapingStage where
  shape : ℕ → AudioProcessContext → List ℚ
  noiseLevel : ℕ → AudioProcessContext → ℚ
  asksFrame : ℕ → AudioProcessContext → Bool
  frames : ℕ := 0

def ShapingStage.process (ctx : AudioProcessContext) (m : ShapingStage) :
    ShapingStage × AudioProcessContext :=
  ({ m with frames := m.frames + 1 },
    { ctx with
      mixed := m.shape m.frames ctx
      noiseLevelDB := m.noiseLevel m.frames ctx
      emitFrame := ctx.emitFrame || ctx.active && m.asksFrame m.frames ctx })

inductive DspName where
  | pops
  | squelch
  | clicks
  | noise
  | filter
  | dispersion
  | compressor
  | distortion
  deriving DecidableEq

/-- `order` holds the names of `modules.dsp.chain` whose stage is enabled. -/
structure DspChain where
  order : List DspName
  pops : PopsModule
  squelch : SquelchDSPModule
  shaping : DspName → ShapingStage

namespace DspChain

def stage (ctx : AudioProcessContext) (c : DspChain) : DspName → DspChain × AudioProcessContext
  | .pops => ({ c with pops := (c.pops.process ctx).1 }, (c.pops.process ctx).2)
  | .squelch => ({ c with squelch := (c.squelch.process ctx).1 }, (c.squelch.process ctx).2)
  | name =>
    ({ c with shaping := Function.update c.shaping name ((c.shaping name).process ctx).1 },
      ((c.shaping name).process ctx).2)

/-- Run the stages of that order and stop at the first that drops the frame. -/
def run : List DspName → AudioProcessContext → DspChain → DspChain × AudioProcessContext
  | [], ctx, c => (c, ctx)
  | name :: names, ctx, c =>
    let (c, ctx) := c.stage ctx name
    if ctx.dropFrame then (c, ctx) else run names ctx c

instance : AudioModule DspChain where
  process c _ ctx := c.run c.order ctx

/-- The module set of a channel without generators. -/
def moduleSet (c : DspChain) (noiseFloor : ℚ) : ModuleSet DspChain where
  generators := []
  dspMods := [c]
  noiseFloor := noiseFloor

end DspChain

/-! ## A chain with a squelch alone -/

/-- Bursts of 20 ms. -/
def shortSquelch : SquelchDSPConfig where
  thresholdPercent := 5
  squelchMinMs := 20
  squelchMaxMs := 20
  tailMinMs := 20
  tailMaxMs := 20
  noiseAmplitude := 1200
  thresholdPercent_mem := by norm_num
  squelchMs := by norm_num
  tailMs := by norm_num
  synthSilenceTailPackets_nonneg := le_rfl

/-- A channel with 20 ms packets whose only stage is such a squelch. -/
def squelchChain : DspChain where
  order := [.squelch]
  pops :=
    { click := id
      glitch := fun _ => id
      glitchMaxMs := 0
      glitchAmpMax := 0
      frameDuration := 20 * millisecond
      rand := { draws := fun _ => 0 } }
  squelch :=
    { cfg := shortSquelch
      frameDuration := 20 * millisecond
      white := fun _ => 0
      rand := { draws := fun _ => 0 } }
  shaping := fun _ =>
    { shape := fun _ ctx => ctx.mixed
      noiseLevel := fun _ ctx => ctx.noiseLevelDB
      asksFrame := fun _ _ => false }

end OWalkie
