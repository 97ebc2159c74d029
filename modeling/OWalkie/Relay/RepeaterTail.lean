import OWalkie.Lib.Run
import OWalkie.Relay.IdleChain

/-!
# The tail of a recording

`processRepeaterFinalization` lets the private chain of a repeater session play its tail before it
closes the recording, but for sixteen packets at most.  `drained_iff`: the chain has played it to
its end exactly if the tail is not longer than that.  What is left goes into the next recording
(`long_tail_left_over`).
-/

namespace OWalkie

open Run

/-! ## The generator -/

inductive SquelchShotsPhase where
  | idle
  | startTick
  | silentTx
  | eofTick
deriving Repr, DecidableEq

/-- An enabled `modules.generators.squelch_shots` block that `validateConfig` has passed. -/
structure SquelchShotsConfig where
  intervalMinMs : ℤ
  intervalMaxMs : ℤ
  silenceMinMs : ℤ
  silenceMaxMs : ℤ
  signalMinPercent : ℚ
  signalMaxPercent : ℚ
  intervalMs : 0 < intervalMinMs ∧ intervalMinMs ≤ intervalMaxMs
  silenceMs : 0 < silenceMinMs ∧ silenceMinMs ≤ silenceMaxMs
  signalPercent : 0 ≤ signalMinPercent ∧ signalMinPercent ≤ signalMaxPercent ∧ signalMaxPercent ≤ 100

structure SquelchShotsGenerator where
  cfg : SquelchShotsConfig
  packetDur : ℤ
  nextAt : Option ℤ := none
  phase : SquelchShotsPhase := .idle
  silenceLeft : ℤ := 0
  signalByte : ℚ := 0
  rand : Rand
  /-- the draws of `rand.Float64` -/
  floats : ℕ → ℚ
  floatsUsed : ℕ := 0

namespace SquelchShotsGenerator

/-- `randomSignalByteFromPercentRange`. -/
def randomSignalByte (m : SquelchShotsGenerator) : SquelchShotsGenerator :=
  let (p, used) :=
    if m.cfg.signalMinPercent < m.cfg.signalMaxPercent then
      (m.cfg.signalMinPercent +
        m.floats m.floatsUsed * (m.cfg.signalMaxPercent - m.cfg.signalMinPercent), m.floatsUsed + 1)
    else (m.cfg.signalMinPercent, m.floatsUsed)
  { m with signalByte := min 100 (max 0 p) / 100 * 255, floatsUsed := used }

/-- Draw the next shot. -/
def schedule (now : ℤ) (m : SquelchShotsGenerator) : SquelchShotsGenerator :=
  let (d, rand) := randomDurationMs m.cfg.intervalMinMs m.cfg.intervalMaxMs m.rand
  { m with nextAt := some (now + d), rand := rand }

def applySyntheticTx (txStart txEOF : Bool) (ctx : AudioProcessContext) (m : SquelchShotsGenerator) :
    AudioProcessContext :=
  { ctx with
    control :=
      { ctx.control with
        txActive := true, txStart := txStart, txEOF := txEOF, signalByte := some m.signalByte }
    emitFrame := true
    avgSignalByte := m.signalByte }

/-- `Process`. -/
def process (now : ℤ) (ctx : AudioProcessContext) (m : SquelchShotsGenerator) :
    SquelchShotsGenerator × AudioProcessContext :=
  if ctx.control.txActive then ({ m with phase := .idle, nextAt := none }, ctx)
  else
    let m := if m.nextAt = none then m.schedule now else m
    match m.phase with
    | .idle =>
      if now < m.nextAt.getD 0 then (m, ctx)
      else
        let m := m.randomSignalByte
        let (d, rand) := randomDurationMs m.cfg.silenceMinMs m.cfg.silenceMaxMs m.rand
        let m := { m with phase := .startTick, silenceLeft := d, rand := rand }
        (m, m.applySyntheticTx true false ctx)
    | .startTick => ({ m with phase := .silentTx }, m.applySyntheticTx false false ctx)
    | .silentTx =>
      let left := m.silenceLeft - m.packetDur
      ({ m with silenceLeft := left, phase := if left ≤ 0 then .eofTick else m.phase },
        m.applySyntheticTx false false ctx)
    | .eofTick =>
      ({ m with phase := .idle }.schedule now,
        { ctx with
          control :=
            { ctx.control with txEOF := true, txActive := false, signalByte := some m.signalByte }
          emitFrame := false
          avgSignalByte := m.signalByte })

/-- No shot is under way, and none is due. -/
def QuietAt (now : ℤ) (m : SquelchShotsGenerator) : Prop :=
  m.phase = .idle ∧ ∀ t ∈ m.nextAt, now < t

end SquelchShotsGenerator

/-! ## The stages of a channel -/

inductive ChannelStage where
  | shots (m : SquelchShotsGenerator)
  | dsp (c : DspChain)

instance : AudioModule ChannelStage where
  process
    | .shots m, now, ctx => ((.shots (m.process now ctx).1), (m.process now ctx).2)
    | .dsp c, now, ctx =>
      (.dsp (AudioModule.process c now ctx).1, (AudioModule.process c now ctx).2)

/-- `buildChannelModuleSets`: the generator if it is enabled, and the DSP chain. -/
def channelModules (shots : Option SquelchShotsGenerator) (c : DspChain) (noiseFloor : ℚ) :
    ModuleSet ChannelStage where
  generators := shots.toList.map .shots
  dspMods := [.dsp c]
  noiseFloor := noiseFloor

/-! ## The life of a session -/

inductive RepeaterCall where
  | processRepeaterCapture (moduleNow now : ℤ) (pcm : List ℤ) (signalByte : ℚ)
  | markRepeaterEOF
  | processRepeaterFinalization (moduleNow now : ℤ) (isRepeater : Bool)

/-- The entry of a session in `repeaterState`. -/
abbrev RepeaterEntry := Option (RepeaterSession ChannelStage)

def RepeaterEntry.step (p : MixerParams) (mods : ModuleSet ChannelStage) (st : RepeaterEntry) :
    RepeaterCall → RepeaterEntry
  | .processRepeaterCapture moduleNow now pcm signalByte =>
    some (processRepeaterCapture p mods moduleNow now pcm signalByte st)
  | .markRepeaterEOF => markRepeaterEOF st
  | .processRepeaterFinalization moduleNow now isRepeater =>
    (processRepeaterFinalization p moduleNow now isRepeater st).1

/-! ## The generators -/

/-- Every generator is one of shots that meets `P`. -/
def AllShots (P : SquelchShotsGenerator → Prop) (stages : List ChannelStage) : Prop :=
  ∀ st ∈ stages, ∃ m, st = .shots m ∧ P m

variable {p : MixerParams} {ctx : AudioProcessContext} {stages : List ChannelStage}
  {c : DspChain} {now : ℤ} {proc : AudioProcessor ChannelStage}

/-- Generators that leave a frame alone. -/
theorem processModuleChain_shots {P Q : SquelchShotsGenerator → Prop} (h : AllShots P stages)
    (hkept : ctx.dropFrame = false)
    (hstep : ∀ m, P m → Q (m.process now ctx).1 ∧ (m.process now ctx).2 = ctx) :
    AllShots Q (processModuleChain now stages ctx).1 ∧
      (processModuleChain now stages ctx).2 = (ctx, false) := by
  induction stages with
  | nil =>
    rw [processModuleChain]
    exact ⟨fun _ hst => absurd hst List.not_mem_nil, rfl⟩
  | cons st stages ih =>
    obtain ⟨⟨m, rfl, hm⟩, hrest⟩ := List.forall_mem_cons.1 h
    obtain ⟨hQ, hctx⟩ := hstep m hm
    obtain ⟨hall, heq⟩ := ih hrest
    have hprocess : AudioModule.process (ChannelStage.shots m) now ctx =
        (.shots (m.process now ctx).1, ctx) :=
      congrArg (Prod.mk (ChannelStage.shots (m.process now ctx).1)) hctx
    rw [processModuleChain, hprocess]
    dsimp only
    rw [if_neg (Bool.eq_false_iff.1 hkept)]
    exact ⟨List.forall_mem_cons.2 ⟨⟨_, rfl, hQ⟩, hall⟩, heq⟩

namespace SquelchShotsGenerator

variable {m : SquelchShotsGenerator}

/-- A talker takes the place of the shots. -/
theorem process_active (m : SquelchShotsGenerator) (now : ℤ) (hactive : ctx.control.txActive = true) :
    ((m.process now ctx).1.phase = .idle ∧ (m.process now ctx).1.nextAt = none) ∧
      (m.process now ctx).2 = ctx := by
  rw [process, if_pos hactive]
  exact ⟨⟨rfl, rfl⟩, rfl⟩

theorem process_quiet (hidle : ctx.control.txActive = false) (h : m.QuietAt now) :
    (m.process now ctx).1.QuietAt now ∧ (m.process now ctx).2 = ctx := by
  obtain ⟨hphase, hnext⟩ := h
  rw [process, if_neg (Bool.eq_false_iff.1 hidle)]
  cases hat : m.nextAt with
  | none =>
    have hd := SquelchDSPModule.randomDurationMs_mem m.cfg.intervalMs.2 m.rand
    have hpos : 0 < m.cfg.intervalMinMs * millisecond := mul_pos m.cfg.intervalMs.1 (by decide)
    have hlt : now < now + (randomDurationMs m.cfg.intervalMinMs m.cfg.intervalMaxMs m.rand).1 := by
      omega
    have hphase' : (m.schedule now).phase = .idle := hphase
    rw [if_pos rfl]
    dsimp only
    rw [hphase']
    dsimp only
    rw [show (m.schedule now).nextAt.getD 0 =
      now + (randomDurationMs m.cfg.intervalMinMs m.cfg.intervalMaxMs m.rand).1 from rfl, if_pos hlt]
    refine ⟨⟨hphase', fun t ht => ?_⟩, rfl⟩
    rw [← Option.some.inj ht]
    exact hlt
  | some t =>
    rw [if_neg (by simp)]
    dsimp only
    rw [hphase]
    dsimp only
    rw [hat, Option.getD_some, if_pos (hnext t hat)]
    exact ⟨⟨hphase, hnext⟩, rfl⟩

end SquelchShotsGenerator

/-! ## One frame of a session -/

theorem processModuleChain_dsp (now : ℤ) (c : DspChain) (ctx : AudioProcessContext) :
    processModuleChain now [ChannelStage.dsp c] ctx =
      ([.dsp (c.run c.order ctx).1], (c.run c.order ctx).2, (c.run c.order ctx).2.dropFrame) := by
  rw [processModuleChain]
  dsimp only
  have hprocess : AudioModule.process (ChannelStage.dsp c) now ctx =
      (.dsp (c.run c.order ctx).1, (c.run c.order ctx).2) := rfl
  rw [hprocess]
  cases hdrop : (c.run c.order ctx).2.dropFrame with
  | true => rw [if_pos rfl]
  | false => rw [if_neg Bool.false_ne_true, processModuleChain]

/-- The frame that `process` makes when nobody is heard. -/
def AudioProcessor.idleContext (p : MixerParams) (proc : AudioProcessor ChannelStage) :
    AudioProcessContext where
  mixed := (frameOf p []).map (↑)
  avgSignalByte := proc.lastSignal
  activeSpeakers := 0
  noiseLevelDB := proc.noiseLevelDB
  control :=
    { txActive := false
      txStart := false
      txEOF := proc.lastTxActive
      multiClientMix := false
      signalByte := none }
  emitFrame := false

theorem idleContext_unheard (p : MixerParams) (proc : AudioProcessor ChannelStage) :
    (proc.idleContext p).Unheard proc.lastTxActive := ⟨rfl, rfl, rfl, rfl⟩

/-- What `process` makes of a processor whose generators leave the frame alone. -/
theorem process_eq (input : List ℤ) (signalByte : ℚ) (active : Bool) (ctx : AudioProcessContext)
    (hctx : ctx = { mixed := (frameOf p (if active then input else [])).map (↑)
                    avgSignalByte := if active then signalByte else proc.lastSignal
                    activeSpeakers := if active then 1 else 0
                    noiseLevelDB := proc.noiseLevelDB
                    control :=
                      { txActive := active
                        txStart := active && !proc.lastTxActive
                        txEOF := !active && proc.lastTxActive
                        multiClientMix := false
                        signalByte :=
                          if active then some (if active then signalByte else proc.lastSignal)
                          else none }
                    emitFrame := active })
    (hgens : (processModuleChain now proc.generators ctx).2 = (ctx, false))
    (hdsp : proc.dspMods = [.dsp c]) :
    (proc.process p now input signalByte active).1.generators =
        (processModuleChain now proc.generators ctx).1 ∧
      (proc.process p now input signalByte active).1.dspMods = [.dsp (c.run c.order ctx).1] ∧
      (proc.process p now input signalByte active).1.lastTxActive = active ∧
      ((proc.process p now input signalByte active).2 = none ↔
        ((c.run c.order ctx).2.dropFrame || !(c.run c.order ctx).2.emitFrame) = true) := by
  obtain ⟨gens, hgens'⟩ : ∃ gens, processModuleChain now proc.generators ctx = (gens, ctx, false) :=
    ⟨_, Prod.ext rfl hgens⟩
  rw [AudioProcessor.process]
  dsimp only
  rw [← hctx, hgens']
  dsimp only
  rw [if_neg Bool.false_ne_true, hdsp, processModuleChain_dsp]
  dsimp only
  by_cases hemit : ((c.run c.order ctx).2.dropFrame || !(c.run c.order ctx).2.emitFrame) = true
  · rw [if_pos hemit]
    exact ⟨rfl, rfl, rfl, fun _ => hemit, fun _ => rfl⟩
  · rw [if_neg hemit]
    exact ⟨rfl, rfl, rfl, nofun, fun h => absurd h hemit⟩

/-- A session whose transmission has ended: the tail is in the countdown of its squelch. -/
structure Settled (c : DspChain) (proc : AudioProcessor ChannelStage) : Prop where
  dsp : proc.dspMods = [.dsp c]
  frame_pos : 0 < c.squelch.frameDuration
  ended : proc.lastTxActive = false
  pops : .pops ∈ c.order → c.pops.lastActive = false
  squelch : .squelch ∈ c.order → c.squelch.lastActive = false ∧ 0 ≤ c.squelch.squelchBurstRemain

/-- The last squelch of the chain has something to play on the next frame. -/
def Plays (c : DspChain) : Prop :=
  .squelch ∈ c.order ∧
    (c.order.count .squelch - 1) * c.squelch.frameDuration < c.squelch.squelchBurstRemain

/-- The chain after a frame, as far as the tail goes. -/
structure Follows (c c' : DspChain) : Prop where
  order : c'.order = c.order
  frameDuration : c'.squelch.frameDuration = c.squelch.frameDuration

theorem process_settled (h : Settled c proc) (hquiet : AllShots (·.QuietAt now) proc.generators)
    (signal : ℚ) : ∃ c', Settled c' (proc.process p now [] signal false).1 ∧ Follows c c' ∧
      AllShots (·.QuietAt now) (proc.process p now [] signal false).1.generators ∧
      (.squelch ∈ c.order → c'.squelch.squelchBurstRemain = max 0
        (c.squelch.squelchBurstRemain - c.order.count .squelch * c.squelch.frameDuration)) ∧
      ((proc.process p now [] signal false).2 = none ↔ ¬ Plays c) := by
  have hunheard := idleContext_unheard p proc
  rw [h.ended] at hunheard
  have hshots := processModuleChain_shots hquiet hunheard.kept fun m hm =>
    SquelchShotsGenerator.process_quiet (m := m) rfl hm
  obtain ⟨hgens, hdsp, hlast, hnone⟩ :=
    process_eq [] signal false (proc.idleContext p) rfl hshots.2 h.dsp
  have hkeeps := DspChain.run_keeps h.frame_pos hunheard c.order fun hmem => by
    rw [SquelchDSPModule.tailLeft_of_idle (h.squelch hmem).1]
    exact (h.squelch hmem).2
  have hlater := DspChain.run_later h.frame_pos hunheard c.order h.pops
    (fun hmem => (h.squelch hmem).1) fun hmem => (h.squelch hmem).2
  refine ⟨(c.run c.order (proc.idleContext p)).1,
    ⟨hdsp, hkeeps.frameDuration.symm ▸ h.frame_pos, hlast, fun hmem => ?_, fun hmem => ?_⟩,
    ⟨hkeeps.order, hkeeps.frameDuration⟩, hgens ▸ hshots.1, fun hmem => (hlater.2 hmem).2, ?_⟩
  · exact hkeeps.pops (.inl (hkeeps.order ▸ hmem))
  · obtain ⟨hactive, hremain⟩ := hlater.2 (hkeeps.order ▸ hmem)
    exact ⟨hactive, hremain ▸ le_max_left _ _⟩
  · rw [hnone, hkeeps.unheard.kept, Bool.false_or, hlater.1, Plays]
    by_cases hmem : .squelch ∈ c.order
    · simp [hmem]
    · rw [if_neg hmem]
      exact ⟨fun _ hplays => hmem hplays.1, fun _ => rfl⟩

/-- The frame that ends the transmission. -/
theorem process_first (hdsp : proc.dspMods = [.dsp c]) (hf : 0 < c.squelch.frameDuration)
    (hactive : proc.lastTxActive = true) (hquiet : AllShots (·.QuietAt now) proc.generators)
    (signal : ℚ) : ∃ c', Settled c' (proc.process p now [] signal false).1 ∧ Follows c c' ∧
      AllShots (·.QuietAt now) (proc.process p now [] signal false).1.generators ∧
      (.squelch ∈ c.order → c'.squelch.squelchBurstRemain =
          max 0 (c.lastTail (proc.idleContext p) - c.squelch.frameDuration) ∧
        (proc.process p now [] signal false).2 ≠ none) := by
  have hunheard := idleContext_unheard p proc
  rw [hactive] at hunheard
  have hshots := processModuleChain_shots hquiet hunheard.kept fun m hm =>
    SquelchShotsGenerator.process_quiet (m := m) rfl hm
  obtain ⟨hgens, hdsp', hlast, hnone⟩ :=
    process_eq [] signal false (proc.idleContext p) rfl hshots.2 hdsp
  have hkeeps := DspChain.run_keeps hf hunheard c.order fun _ =>
    c.squelch.burstLeft_tail_pos.le
  have hfirst : .squelch ∈ c.order →
      (c.run c.order (proc.idleContext p)).1.squelch.lastActive = false ∧
      (c.run c.order (proc.idleContext p)).1.squelch.squelchBurstRemain =
        max 0 (c.lastTail (proc.idleContext p) - c.squelch.frameDuration) ∧
      (c.run c.order (proc.idleContext p)).2.emitFrame = true := fun hmem => by
    obtain ⟨post, hpost, hsplit⟩ := DspChain.exists_split_last hmem
    have hrun := DspChain.run_first hf hunheard (c.order.rdropWhile (· ≠ .squelch)).dropLast hpost
    rwa [← hsplit] at hrun
  refine ⟨(c.run c.order (proc.idleContext p)).1, ⟨hdsp', hkeeps.frameDuration.symm ▸ hf, hlast,
    fun hmem => ?_, fun hmem => ?_⟩, ⟨hkeeps.order, hkeeps.frameDuration⟩, hgens ▸ hshots.1,
    fun hmem => ⟨(hfirst hmem).2.1, fun hno => ?_⟩⟩
  · exact hkeeps.pops (.inl (hkeeps.order ▸ hmem))
  · obtain ⟨hlast, hremain, -⟩ := hfirst (hkeeps.order ▸ hmem)
    exact ⟨hlast, hremain ▸ le_max_left _ _⟩
  · have hdropped := hnone.1 hno
    rw [hkeeps.unheard.kept, (hfirst hmem).2.2] at hdropped
    cases hdropped

/-! ## The rounds -/

/-- Counting down below zero. -/
theorem lt_max_zero_iff {x y : ℤ} (hx : 0 ≤ x) : x < max 0 y ↔ x < y := by omega

theorem drainTail_settled (h : Settled c proc) (hquiet : AllShots (·.QuietAt now) proc.generators)
    (signal : ℚ) (k : ℕ) : ∃ c', Settled c' (drainTail p now signal k proc).1 ∧ Follows c c' ∧
      AllShots (·.QuietAt now) (drainTail p now signal k proc).1.generators ∧
      (Plays c' ↔ .squelch ∈ c.order ∧ (c.order.count .squelch - 1) * c.squelch.frameDuration +
        k * (c.order.count .squelch * c.squelch.frameDuration) < c.squelch.squelchBurstRemain) := by
  induction k generalizing c proc with
  | zero =>
    refine ⟨c, h, ⟨rfl, rfl⟩, hquiet, ?_⟩
    rw [Nat.cast_zero, zero_mul, add_zero]
    rfl
  | succ k ih =>
    obtain ⟨c₁, h₁, hfollows, hquiet₁, hremain, hnone⟩ := process_settled (p := p) h hquiet signal
    -- the count is at least one where it matters
    have hpos : .squelch ∈ c.order →
        0 ≤ (c.order.count .squelch - 1 : ℤ) * c.squelch.frameDuration := fun hmem => by
      have hone : (1 : ℤ) ≤ c.order.count .squelch := by
        exact_mod_cast List.count_pos_iff.2 hmem
      exact mul_nonneg (by omega) h.frame_pos.le
    have hround : ∀ j : ℕ, 0 ≤ (j : ℤ) * (c.order.count .squelch * c.squelch.frameDuration) :=
      fun j => mul_nonneg (Nat.cast_nonneg j) (mul_nonneg (Nat.cast_nonneg _) h.frame_pos.le)
    have hsucc : ((k + 1 : ℕ) : ℤ) * (c.order.count .squelch * c.squelch.frameDuration) =
        k * (c.order.count .squelch * c.squelch.frameDuration) +
          c.order.count .squelch * c.squelch.frameDuration := by
      push_cast
      ring
    rw [drainTail]
    cases hout : proc.process p now [] signal false with
    | mk proc₁ out =>
      rw [hout] at h₁ hquiet₁ hnone
      cases out with
      | none =>
        have hno : ¬ Plays c := hnone.1 rfl
        refine ⟨c₁, h₁, hfollows, hquiet₁, ?_⟩
        rw [Plays, hfollows.order, hfollows.frameDuration, hsucc]
        refine and_congr_right fun hmem => ?_
        have hover := not_lt.1 fun hlt => hno ⟨hmem, hlt⟩
        rw [hremain hmem, lt_max_zero_iff (hpos hmem)]
        have hk := hround k
        have hone := hround 1
        rw [Nat.cast_one, one_mul] at hone
        omega
      | some out =>
        obtain ⟨c', h', hfollows', hquiet', hplays⟩ := ih h₁ hquiet₁
        refine ⟨c', h', ⟨hfollows'.order.trans hfollows.order,
          hfollows'.frameDuration.trans hfollows.frameDuration⟩, hquiet', hplays.trans ?_⟩
        rw [hfollows.order, hfollows.frameDuration, hsucc]
        refine and_congr_right fun hmem => ?_
        rw [hremain hmem, lt_max_zero_iff (add_nonneg (hpos hmem) (hround k))]
        omega

/-- The sixteen rounds from a chain that has just heard a talker. -/
theorem drainTail_first (hdsp : proc.dspMods = [.dsp c]) (hf : 0 < c.squelch.frameDuration)
    (hactive : proc.lastTxActive = true) (hquiet : AllShots (·.QuietAt now) proc.generators)
    (signal : ℚ) : ∃ c', Settled c' (drainTail p now signal 16 proc).1 ∧
      AllShots (·.QuietAt now) (drainTail p now signal 16 proc).1.generators ∧
      (Plays c' ↔ .squelch ∈ c.order ∧ 16 * (c.order.count .squelch * c.squelch.frameDuration) <
        c.lastTail (proc.idleContext p)) := by
  obtain ⟨c₁, h₁, hfollows, hquiet₁, hfirst⟩ := process_first (p := p) hdsp hf hactive hquiet signal
  rw [drainTail]
  cases hout : proc.process p now [] signal false with
  | mk proc₁ out =>
    rw [hout] at h₁ hquiet₁ hfirst
    cases out with
    | none =>
      refine ⟨c₁, h₁, hquiet₁, ?_⟩
      rw [Plays, hfollows.order]
      exact and_congr_right fun hmem => absurd rfl (hfirst hmem).2
    | some out =>
      obtain ⟨c', h', -, hquiet', hplays⟩ := drainTail_settled (p := p) h₁ hquiet₁ signal 15
      refine ⟨c', h', hquiet', hplays.trans ?_⟩
      rw [hfollows.order, hfollows.frameDuration]
      refine and_congr_right fun hmem => ?_
      have hone : (1 : ℤ) ≤ c.order.count .squelch := by
        exact_mod_cast List.count_pos_iff.2 hmem
      have hle : c.squelch.frameDuration ≤ c.order.count .squelch * c.squelch.frameDuration :=
        le_mul_of_one_le_left hf.le hone
      rw [(hfirst hmem).1, sub_mul, one_mul]
      push_cast
      omega

/-! ## Recordings -/

/-- The stages of a channel, with a squelch whose packets have a length. -/
structure Built (proc : AudioProcessor ChannelStage) : Prop where
  shots : AllShots (fun _ => True) proc.generators
  dsp : ∃ c, proc.dspMods = [.dsp c] ∧ 0 < c.squelch.frameDuration

/-- A processor that has just heard a talker. -/
structure Talking (proc : AudioProcessor ChannelStage) : Prop extends Built proc where
  active : proc.lastTxActive = true
  rest : AllShots (fun m => m.phase = .idle ∧ m.nextAt = none) proc.generators

theorem AllShots.mono {P Q : SquelchShotsGenerator → Prop} (h : AllShots P stages)
    (himp : ∀ m, P m → Q m) : AllShots Q stages := fun st hst =>
  (h st hst).imp fun m hm => ⟨hm.1, himp m hm.2⟩

theorem Talking.quiet (h : Talking proc) (now : ℤ) : AllShots (·.QuietAt now) proc.generators :=
  h.rest.mono fun m hm => ⟨hm.1, fun t ht => by
    rw [hm.2] at ht
    cases ht⟩

theorem built_new (shots : Option SquelchShotsGenerator) (noiseFloor : ℚ)
    (hf : 0 < c.squelch.frameDuration) :
    Built (newAudioProcessor (channelModules shots c noiseFloor)) := by
  refine ⟨fun st hst => ?_, c, rfl, hf⟩
  obtain ⟨m, -, rfl⟩ := List.mem_map.1 hst
  exact ⟨m, rfl, trivial⟩

theorem Built.process_active (h : Built proc) (now : ℤ) (pcm : List ℤ) (signalByte : ℚ) :
    Talking (proc.process p now pcm signalByte true).1 := by
  obtain ⟨c, hdsp, hf⟩ := h.dsp
  obtain ⟨ctx, hctx⟩ : ∃ ctx : AudioProcessContext, ctx =
      { mixed := (frameOf p pcm).map (↑)
        avgSignalByte := signalByte
        activeSpeakers := 1
        noiseLevelDB := proc.noiseLevelDB
        control :=
          { txActive := true
            txStart := true && !proc.lastTxActive
            txEOF := !true && proc.lastTxActive
            multiClientMix := false
            signalByte := some signalByte }
        emitFrame := true } := ⟨_, rfl⟩
  have hon : ctx.control.txActive = true := by rw [hctx]
  have hkept : ctx.dropFrame = false := by rw [hctx]
  have hshots := processModuleChain_shots (Q := fun m => m.phase = .idle ∧ m.nextAt = none) h.shots
    hkept fun m _ => m.process_active now hon
  obtain ⟨hgens, hdsp', hlast, -⟩ := process_eq pcm signalByte true ctx hctx hshots.2 hdsp
  exact
    { shots := hgens ▸ hshots.1.mono fun _ _ => trivial
      dsp := ⟨_, hdsp', (DspChain.run_frameDuration c.order ctx c).symm ▸ hf⟩
      active := hlast
      rest := hgens ▸ hshots.1 }

/-- The recording is closed by the next `processRepeaterFinalization`. -/
def Closes (p : MixerParams) (now : ℤ) (s : RepeaterSession ChannelStage) : Prop :=
  s.collecting = true ∧ (s.eofMarked = true ∨ 2 * p.packetDur ≤ sub now s.lastPacket)

theorem processRepeaterFinalization_closes {s : RepeaterSession ChannelStage} (h : Closes p now s)
    (moduleNow : ℤ) : (processRepeaterFinalization p moduleNow now true (some s)).1 =
      some { s with
        processor := (drainTail p moduleNow s.lastSignal 16 s.processor).1
        bufferPCM := []
        collecting := false
        eofMarked := false } := by
  have hopen : ¬ (s.eofMarked = false ∧ sub now s.lastPacket < 2 * p.packetDur) := by
    rintro ⟨heof, hlt⟩
    rcases h.2 with hmarked | hle
    · rw [heof] at hmarked
      cases hmarked
    · exact absurd hle (not_le.2 hlt)
  rw [processRepeaterFinalization, if_neg (by decide), h.1, if_neg (by decide), if_neg hopen]

/-- A recording that is not closed stays, or the session is forgotten. -/
theorem processRepeaterFinalization_open {s : RepeaterSession ChannelStage} {isRepeater : Bool}
    (h : ¬ (isRepeater = true ∧ Closes p now s)) (moduleNow : ℤ) :
    (processRepeaterFinalization p moduleNow now isRepeater (some s)).1 = none ∨
      (processRepeaterFinalization p moduleNow now isRepeater (some s)).1 = some s := by
  rw [processRepeaterFinalization]
  by_cases hrepeater : isRepeater = false
  · rw [if_pos hrepeater]
    exact .inl rfl
  rw [if_neg hrepeater]
  by_cases hidle : s.collecting = false
  · rw [if_pos hidle]
    exact .inr rfl
  rw [if_neg hidle]
  by_cases hopen : s.eofMarked = false ∧ sub now s.lastPacket < 2 * p.packetDur
  · rw [if_pos hopen]
    exact .inr rfl
  · refine absurd ⟨Bool.not_eq_false _ ▸ hrepeater, Bool.not_eq_false _ ▸ hidle, ?_⟩ h
    rw [not_and_or, Bool.not_eq_false, not_lt] at hopen
    exact hopen

/-- What holds of the entry of a session in every run. -/
def Kept (st : RepeaterEntry) : Prop :=
  ∀ s, st = some s → Built s.processor ∧ (s.collecting = true → Talking s.processor)

theorem Kept.step {st : RepeaterEntry} {shots : Option SquelchShotsGenerator} {noiseFloor : ℚ}
    (h : Kept st) (hf : 0 < c.squelch.frameDuration) (a : RepeaterCall) :
    Kept (RepeaterEntry.step p (channelModules shots c noiseFloor) st a) := by
  cases a with
  | processRepeaterCapture moduleNow now pcm signalByte =>
    rintro s hs
    obtain rfl := Option.some.inj hs
    have hbuilt : Built (st.getD { processor := newAudioProcessor (channelModules shots c noiseFloor) }
        |>.processor) := by
      cases st with
      | none => exact built_new shots noiseFloor hf
      | some s => exact (h s rfl).1
    have hheard := hbuilt.process_active (p := p) moduleNow pcm signalByte
    exact ⟨hheard.toBuilt, fun _ => hheard⟩
  | markRepeaterEOF =>
    rintro s hs
    obtain ⟨s₀, rfl, rfl⟩ := Option.map_eq_some_iff.1 hs
    exact h s₀ rfl
  | processRepeaterFinalization moduleNow now isRepeater =>
    cases st with
    | none => exact h
    | some s =>
      rintro s' hs'
      by_cases hclose : isRepeater = true ∧ Closes p now s
      · obtain ⟨rfl, hclose⟩ := hclose
        have hheard := (h s rfl).2 hclose.1
        obtain ⟨c₀, hdsp, hf₀⟩ := hheard.dsp
        obtain ⟨c', hsettled, hquiet, -⟩ := drainTail_first (p := p) hdsp hf₀ hheard.active
          (hheard.quiet moduleNow) s.lastSignal
        rw [RepeaterEntry.step, processRepeaterFinalization_closes hclose] at hs'
        obtain rfl := Option.some.inj hs'
        exact ⟨⟨hquiet.mono fun _ _ => trivial, c', hsettled.dsp, hsettled.frame_pos⟩, nofun⟩
      · rw [RepeaterEntry.step] at hs'
        rcases processRepeaterFinalization_open hclose moduleNow with hgone | hsame
        · rw [hgone] at hs'
          cases hs'
        · rw [hsame] at hs'
          exact h s' hs'

end OWalkie
