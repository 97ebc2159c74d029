import Mathlib.Data.List.DropRight
import OWalkie.Relay.SquelchTail

/-!
# A chain behind a transmission

What the DSP chain of a channel does with frames on which nobody is heard, whatever the order of its
stages and however often one is named.  Of the first of them, which ends the transmission, the last
squelch of the chain decides how long the tail is (`run_first`); from then on the frames are emitted
as long as that squelch has something to play (`run_later`).
-/

namespace OWalkie

/-- A frame on which nobody is heard and which no stage has dropped. -/
structure AudioProcessContext.Unheard (txEOF : Bool) (ctx : AudioProcessContext) : Prop where
  active : ctx.active = false
  txStart : ctx.control.txStart = false
  eof : ctx.control.txEOF = txEOF
  kept : ctx.dropFrame = false

variable {txEOF : Bool} {ctx ctx' : AudioProcessContext}

/-- A stage that leaves the control and the speakers alone and does not drop the frame. -/
theorem AudioProcessContext.Unheard.congr (h : ctx.Unheard txEOF)
    (hcontrol : ctx'.control = ctx.control) (hspeakers : ctx'.activeSpeakers = ctx.activeSpeakers)
    (hdrop : ctx'.dropFrame = ctx.dropFrame) : ctx'.Unheard txEOF := by
  refine ⟨?_, by rw [hcontrol, h.txStart], by rw [hcontrol, h.eof], by rw [hdrop, h.kept]⟩
  rw [AudioProcessContext.active, hcontrol, hspeakers]
  exact h.active

/-! ## The stages -/

namespace SquelchDSPModule

variable {m : SquelchDSPModule} {mixed : List ℚ}

theorem addEdgeImpulseSample_keeps (idx : ℕ) (mixed : List ℚ) (m : SquelchDSPModule) :
    (m.addEdgeImpulseSample idx mixed).1.frameDuration = m.frameDuration ∧
      (m.addEdgeImpulseSample idx mixed).1.lastActive = m.lastActive := by
  rw [addEdgeImpulseSample]
  split_ifs <;> exact ⟨rfl, rfl⟩

theorem burst_keeps (started : Bool) (mixed : List ℚ) (m : SquelchDSPModule) :
    (m.burst started mixed).1.frameDuration = m.frameDuration ∧
      (m.burst started mixed).1.lastActive = m.lastActive := by
  rw [burst]
  cases started with
  | false => exact ⟨rfl, rfl⟩
  | true => exact addEdgeImpulseSample_keeps _ _ _

theorem startBurst_keeps (minMs maxMs : ℤ) (m : SquelchDSPModule) :
    (m.startBurst minMs maxMs).1.frameDuration = m.frameDuration := by
  obtain ⟨rand, heq⟩ := m.startBurst_eq minMs maxMs
  rw [heq]

/-- No frame changes the length of a frame. -/
theorem process_frameDuration (ctx : AudioProcessContext) (m : SquelchDSPModule) :
    (m.process ctx).1.frameDuration = m.frameDuration := by
  have hidle : (m.processIdle ctx).1.frameDuration = m.frameDuration := by
    rw [processIdle]
    dsimp only
    split_ifs <;>
      simp only [(addEdgeImpulseSample_keeps _ _ _).1, (burst_keeps _ _ _).1, startBurst_keeps]
  have hweak :
      ({ m with lastActive := true }.processWeak ctx).1.frameDuration = m.frameDuration := by
    rw [processWeak]
    dsimp only
    split_ifs <;>
      simp only [(addEdgeImpulseSample_keeps _ _ _).1, (burst_keeps _ _ _).1, startBurst_keeps]
  rw [process]
  dsimp only
  split_ifs
  · exact hidle
  · exact hweak
  · rfl

/-- Nobody is heard: the tail goes on, or the gate keeps the frame back. -/
theorem process_unheard (hf : 0 < m.frameDuration) (h : ctx.Unheard txEOF)
    (hleft : 0 ≤ m.tailLeft txEOF) :
    (m.process ctx).1.frameDuration = m.frameDuration ∧ (m.process ctx).1.lastActive = false ∧
      (m.process ctx).1.squelchBurstRemain = max 0 (m.tailLeft txEOF - m.frameDuration) ∧
      (m.process ctx).2.emitFrame = decide (0 < m.tailLeft txEOF) ∧
      (m.process ctx).2.Unheard txEOF := by
  have heof := h.eof
  subst heof
  obtain ⟨rand, hstart⟩ := m.startTail_eq ctx.control.txEOF
  have hprocess : m.process ctx = m.processIdle ctx := if_pos h.active
  obtain ⟨m₂, mixed₂, hburst⟩ : ∃ m₂ mixed₂,
      burst ((ctx.control.txEOF || m.lastActive) && decide (m.squelchBurstRemain ≤ 0)) ctx.mixed
        { m with
          squelchBurstRemain := m.tailLeft ctx.control.txEOF, rand := rand, lastActive := false } =
        (m₂, mixed₂) := ⟨_, _, rfl⟩
  obtain ⟨hframe, hactive⟩ : m₂.frameDuration = m.frameDuration ∧ m₂.lastActive = false := by
    have := burst_keeps ((ctx.control.txEOF || m.lastActive) && decide (m.squelchBurstRemain ≤ 0))
      ctx.mixed { m with
        squelchBurstRemain := m.tailLeft ctx.control.txEOF, rand := rand, lastActive := false }
    rwa [hburst] at this
  rw [hprocess, processIdle_eq hstart rfl hburst]
  by_cases hpos : 0 < m.tailLeft ctx.control.txEOF
  · rw [if_pos hpos, decide_eq_true hpos]
    by_cases hlast : m.tailLeft ctx.control.txEOF - m.frameDuration ≤ 0
    · obtain ⟨hframe', hactive'⟩ := m₂.addEdgeImpulseSample_keeps (mixed₂.length - 1) mixed₂
      rw [if_pos hlast, max_eq_left hlast]
      exact ⟨hframe'.trans hframe, hactive'.trans hactive, rfl, rfl, h.congr rfl rfl rfl⟩
    · rw [if_neg hlast, max_eq_right (not_le.1 hlast).le]
      exact ⟨hframe, hactive, rfl, rfl, h.congr rfl rfl rfl⟩
  · rw [if_neg hpos, decide_eq_false hpos, max_eq_left (by omega)]
    exact ⟨rfl, rfl, le_antisymm (not_lt.1 hpos) hleft, rfl, h.congr rfl rfl rfl⟩

/-- Behind such a frame the countdown is not below zero. -/
theorem tailLeft_nonneg {m : SquelchDSPModule} (hlast : m.lastActive = false)
    (hremain : 0 ≤ m.squelchBurstRemain) (txEOF : Bool) : 0 ≤ m.tailLeft txEOF := by
  cases txEOF with
  | true => exact m.burstLeft_tail_pos.le
  | false =>
    rw [tailLeft_of_idle hlast]
    exact hremain

end SquelchDSPModule

theorem PopsModule.process_unheard (m : PopsModule) (h : ctx.Unheard txEOF) :
    (m.process ctx).1.lastActive = false ∧
      (m.process ctx).2.emitFrame = (ctx.emitFrame || (txEOF || m.lastActive)) ∧
      (m.process ctx).2.Unheard txEOF := by
  have hactive := h.active
  have heof := h.eof
  subst heof
  rw [PopsModule.process]
  simp only [hactive, h.txStart, Bool.false_and, Bool.or_self, Bool.not_false, Bool.true_and,
    Bool.false_eq_true, if_false]
  by_cases hend : (ctx.control.txEOF || m.lastActive) = true
  · rw [if_pos hend, hend, Bool.or_true]
    exact ⟨hactive, rfl, h.congr rfl rfl rfl⟩
  · rw [if_neg hend, Bool.eq_false_iff.2 hend, Bool.or_false]
    exact ⟨hactive, rfl, h.congr rfl rfl rfl⟩

theorem ShapingStage.process_unheard (m : ShapingStage) (h : ctx.Unheard txEOF) :
    (m.process ctx).2.emitFrame = ctx.emitFrame ∧ (m.process ctx).2.Unheard txEOF := by
  rw [ShapingStage.process]
  dsimp only
  rw [h.active, Bool.false_and, Bool.or_false]
  exact ⟨rfl, h.congr rfl rfl rfl⟩

/-! ## The chain -/

namespace DspChain

variable {c : DspChain}

theorem run_cons {name : DspName} {names : List DspName}
    (h : (c.stage ctx name).2.dropFrame = false) :
    c.run (name :: names) ctx = (c.stage ctx name).1.run names (c.stage ctx name).2 := by
  rw [run]
  exact if_neg (Bool.eq_false_iff.1 h)

theorem run_frameDuration (names : List DspName) (ctx : AudioProcessContext) (c : DspChain) :
    (c.run names ctx).1.squelch.frameDuration = c.squelch.frameDuration := by
  induction names generalizing c ctx with
  | nil => rfl
  | cons name names ih =>
    have hstage : (c.stage ctx name).1.squelch.frameDuration = c.squelch.frameDuration := by
      cases name with
      | squelch => exact c.squelch.process_frameDuration ctx
      | _ => rfl
    rw [run]
    dsimp only
    split_ifs
    · exact hstage
    · exact (ih _ _).trans hstage

/-- What one stage does with a frame on which nobody is heard. -/
structure StageStep (txEOF : Bool) (name : DspName) (c : DspChain) (ctx : AudioProcessContext)
    (c' : DspChain) (ctx' : AudioProcessContext) : Prop where
  order : c'.order = c.order
  frameDuration : c'.squelch.frameDuration = c.squelch.frameDuration
  unheard : ctx'.Unheard txEOF
  pops : name = .pops ∨ c.pops.lastActive = false → c'.pops.lastActive = false
  other : name ≠ .squelch → c'.squelch = c.squelch ∧ (ctx.emitFrame = true → ctx'.emitFrame = true)
  quiet : name ≠ .squelch → txEOF = false → (name = .pops → c.pops.lastActive = false) →
    ctx'.emitFrame = ctx.emitFrame
  squelch : name = .squelch → c'.squelch.lastActive = false ∧
    c'.squelch.squelchBurstRemain = max 0 (c.squelch.tailLeft txEOF - c.squelch.frameDuration) ∧
    ctx'.emitFrame = decide (0 < c.squelch.tailLeft txEOF)

theorem stage_unheard (hf : 0 < c.squelch.frameDuration) (h : ctx.Unheard txEOF) (name : DspName)
    (hleft : name = .squelch → 0 ≤ c.squelch.tailLeft txEOF) :
    StageStep txEOF name c ctx (c.stage ctx name).1 (c.stage ctx name).2 := by
  cases name with
  | pops =>
    obtain ⟨hlast, hemit, hctx⟩ := c.pops.process_unheard h
    refine ⟨rfl, rfl, hctx, fun _ => hlast, fun _ => ⟨rfl, fun hon => ?_⟩, fun _ heof hlast => ?_,
      nofun⟩
    · exact hemit.trans (by rw [hon, Bool.true_or])
    · exact hemit.trans (by rw [heof, hlast rfl, Bool.or_self, Bool.or_false])
  | squelch =>
    obtain ⟨hframe, hlast, hremain, hemit, hctx⟩ := c.squelch.process_unheard hf h (hleft rfl)
    exact ⟨rfl, hframe, hctx, fun hpops => hpops.resolve_left nofun, fun hne => absurd rfl hne,
      fun hne => absurd rfl hne, fun _ => ⟨hlast, hremain, hemit⟩⟩
  | clicks | noise | filter | dispersion | compressor | distortion =>
    obtain ⟨hemit, hctx⟩ := ShapingStage.process_unheard _ h
    exact ⟨rfl, rfl, hctx, fun hpops => hpops.resolve_left nofun, fun _ => ⟨rfl, hemit.trans⟩,
      fun _ _ _ => hemit, nofun⟩

/-- Behind a squelch the countdown is not below zero, and the other stages leave it alone. -/
theorem StageStep.left_nonneg {name : DspName} {c' : DspChain}
    (h : StageStep txEOF name c ctx c' ctx')
    (hleft : name ≠ .squelch → 0 ≤ c.squelch.tailLeft txEOF) : 0 ≤ c'.squelch.tailLeft txEOF := by
  by_cases hname : name = .squelch
  · obtain ⟨hlast, hremain, -⟩ := h.squelch hname
    exact SquelchDSPModule.tailLeft_nonneg hlast (hremain ▸ le_max_left _ _) txEOF
  · rw [(h.other hname).1]
    exact hleft hname

/-- What the stages of that order keep of a chain on a frame on which nobody is heard. -/
structure RunKeeps (txEOF : Bool) (names : List DspName) (c c' : DspChain)
    (ctx' : AudioProcessContext) : Prop where
  order : c'.order = c.order
  frameDuration : c'.squelch.frameDuration = c.squelch.frameDuration
  unheard : ctx'.Unheard txEOF
  pops : .pops ∈ names ∨ c.pops.lastActive = false → c'.pops.lastActive = false

theorem run_keeps (hf : 0 < c.squelch.frameDuration) (h : ctx.Unheard txEOF) (names : List DspName)
    (hleft : .squelch ∈ names → 0 ≤ c.squelch.tailLeft txEOF) :
    RunKeeps txEOF names c (c.run names ctx).1 (c.run names ctx).2 := by
  induction names generalizing c ctx with
  | nil => exact ⟨rfl, rfl, h, fun hpops => hpops.resolve_left List.not_mem_nil⟩
  | cons name names ih =>
    have hstage := stage_unheard hf h name fun heq => hleft (heq ▸ List.mem_cons_self)
    rw [run_cons hstage.unheard.kept]
    have hrest := ih (hstage.frameDuration.symm ▸ hf) hstage.unheard fun hmem =>
      hstage.left_nonneg fun _ => hleft (List.mem_cons_of_mem _ hmem)
    refine ⟨hrest.order.trans hstage.order, hrest.frameDuration.trans hstage.frameDuration,
      hrest.unheard, fun hpops => hrest.pops ?_⟩
    rcases hpops with hmem | hlast
    · rcases List.mem_cons.1 hmem with heq | hmem
      · exact .inr (hstage.pops (.inl heq.symm))
      · exact .inl hmem
    · exact .inr (hstage.pops (.inr hlast))

/-- The stages behind the last squelch leave its tail alone and keep a frame that it asks for. -/
theorem run_others (hf : 0 < c.squelch.frameDuration) (h : ctx.Unheard txEOF) {names : List DspName}
    (hnone : .squelch ∉ names) : (c.run names ctx).1.squelch = c.squelch ∧
      (ctx.emitFrame = true → (c.run names ctx).2.emitFrame = true) := by
  induction names generalizing c ctx with
  | nil => exact ⟨rfl, id⟩
  | cons name names ih =>
    rw [List.mem_cons, not_or] at hnone
    have hstage := stage_unheard hf h name fun heq => absurd heq.symm hnone.1
    obtain ⟨hsame, hemit⟩ := hstage.other (Ne.symm hnone.1)
    rw [run_cons hstage.unheard.kept]
    obtain ⟨hsame', hemit'⟩ := ih (hsame.symm ▸ hf) hstage.unheard hnone.2
    exact ⟨hsame'.trans hsame, fun hon => hemit' (hemit hon)⟩

theorem run_append (hf : 0 < c.squelch.frameDuration) (h : ctx.Unheard txEOF)
    {names names' : List DspName} (hleft : .squelch ∈ names → 0 ≤ c.squelch.tailLeft txEOF) :
    c.run (names ++ names') ctx = (c.run names ctx).1.run names' (c.run names ctx).2 := by
  induction names generalizing c ctx with
  | nil => rfl
  | cons name names ih =>
    have hstage := stage_unheard hf h name fun heq => hleft (heq ▸ List.mem_cons_self)
    rw [List.cons_append, run_cons hstage.unheard.kept, run_cons hstage.unheard.kept]
    exact ih (hstage.frameDuration.symm ▸ hf) hstage.unheard fun hmem =>
      hstage.left_nonneg fun _ => hleft (List.mem_cons_of_mem _ hmem)

/-- On the frame that ends the transmission the last squelch has a tail to play. -/
theorem run_first (hf : 0 < c.squelch.frameDuration) (h : ctx.Unheard true) (pre : List DspName)
    {post : List DspName} (hpost : .squelch ∉ post) :
    (c.run (pre ++ .squelch :: post) ctx).1.squelch.lastActive = false ∧
      (c.run (pre ++ .squelch :: post) ctx).1.squelch.squelchBurstRemain =
        max 0 ((c.run pre ctx).1.squelch.tailLength - c.squelch.frameDuration) ∧
      (c.run (pre ++ .squelch :: post) ctx).2.emitFrame = true := by
  have hpos : ∀ m : SquelchDSPModule, 0 < m.tailLeft true := fun m => m.burstLeft_tail_pos
  have hpre := run_keeps hf h pre fun _ => (hpos _).le
  have hf' : 0 < (c.run pre ctx).1.squelch.frameDuration := hpre.frameDuration.symm ▸ hf
  have hstage := stage_unheard hf' hpre.unheard .squelch fun _ => (hpos _).le
  obtain ⟨hlast, hremain, hemit⟩ := hstage.squelch rfl
  obtain ⟨hsame, hkept⟩ := run_others (hstage.frameDuration.symm ▸ hf') hstage.unheard hpost
  rw [run_append hf h fun _ => (hpos _).le, run_cons hstage.unheard.kept, hsame]
  refine ⟨hlast, ?_, hkept (hemit.trans (decide_eq_true (hpos _)))⟩
  rw [hremain, hpre.frameDuration]
  rfl

/-- The frames behind it are emitted as long as the last squelch has something to play. -/
theorem run_later (hf : 0 < c.squelch.frameDuration) (h : ctx.Unheard false) (names : List DspName)
    (hpops : .pops ∈ names → c.pops.lastActive = false)
    (hlast : .squelch ∈ names → c.squelch.lastActive = false)
    (hremain : .squelch ∈ names → 0 ≤ c.squelch.squelchBurstRemain) :
    (c.run names ctx).2.emitFrame = (if .squelch ∈ names then
        decide ((names.count .squelch - 1) * c.squelch.frameDuration < c.squelch.squelchBurstRemain)
      else ctx.emitFrame) ∧
    (.squelch ∈ names → (c.run names ctx).1.squelch.lastActive = false ∧
      (c.run names ctx).1.squelch.squelchBurstRemain =
        max 0 (c.squelch.squelchBurstRemain - names.count .squelch * c.squelch.frameDuration)) := by
  induction names generalizing c ctx with
  | nil => exact ⟨rfl, nofun⟩
  | cons name names ih =>
    have hstage := stage_unheard hf h name fun heq => by
      rw [SquelchDSPModule.tailLeft_of_idle (hlast (heq ▸ List.mem_cons_self))]
      exact hremain (heq ▸ List.mem_cons_self)
    have hf' : 0 < (c.stage ctx name).1.squelch.frameDuration := hstage.frameDuration.symm ▸ hf
    have hpops' : .pops ∈ names → (c.stage ctx name).1.pops.lastActive = false := fun hmem =>
      hstage.pops (.inr (hpops (List.mem_cons_of_mem _ hmem)))
    rw [run_cons hstage.unheard.kept]
    by_cases hname : name = .squelch
    · subst hname
      have hzero := hremain List.mem_cons_self
      obtain ⟨hlast', hremain', hemit'⟩ := hstage.squelch rfl
      rw [SquelchDSPModule.tailLeft_of_idle (hlast List.mem_cons_self)] at hremain' hemit'
      have hrest := ih hf' hstage.unheard hpops' (fun _ => hlast') fun _ => hremain' ▸ le_max_left _ _
      rw [hstage.frameDuration, hremain'] at hrest
      rw [if_pos List.mem_cons_self, List.count_cons_self, Nat.cast_add, Nat.cast_one,
        add_sub_cancel_right, add_mul, one_mul]
      by_cases hmem : .squelch ∈ names
      · have hone : (1 : ℤ) ≤ names.count .squelch := by
          exact_mod_cast List.count_pos_iff.2 hmem
        have hle : 0 ≤ (names.count .squelch - 1 : ℤ) * c.squelch.frameDuration :=
          mul_nonneg (by omega) hf.le
        rw [sub_mul, one_mul] at hle
        rw [if_pos hmem, sub_mul, one_mul] at hrest
        refine ⟨hrest.1.trans (decide_eq_decide.2 ?_), fun _ => ⟨(hrest.2 hmem).1, ?_⟩⟩
        · omega
        · rw [(hrest.2 hmem).2]
          omega
      · rw [if_neg hmem] at hrest
        obtain ⟨hsame, -⟩ := run_others hf' hstage.unheard hmem
        rw [List.count_eq_zero_of_not_mem hmem, Nat.cast_zero, zero_mul, zero_add, hsame]
        exact ⟨hrest.1.trans hemit', fun _ => ⟨hlast', hremain'⟩⟩
    · obtain ⟨hsame, -⟩ := hstage.other hname
      have hemit := hstage.quiet hname rfl fun heq => hpops (heq ▸ List.mem_cons_self)
      have hrest := ih hf' hstage.unheard hpops'
        (fun hmem => hsame.symm ▸ hlast (List.mem_cons_of_mem _ hmem))
        fun hmem => hsame.symm ▸ hremain (List.mem_cons_of_mem _ hmem)
      have hmem : .squelch ∈ name :: names ↔ .squelch ∈ names := by
        rw [List.mem_cons, or_iff_right (Ne.symm hname)]
      rw [hsame, hemit] at hrest
      rw [List.count_cons_of_ne hname]
      simp only [hmem]
      exact hrest

/-! ## The length of the tail -/

/-- What the last squelch of the chain has to play on the frame that ends a transmission: what is
left of a burst, or a new draw. -/
def lastTail (ctx : AudioProcessContext) (c : DspChain) : ℤ :=
  (c.run (c.order.rdropWhile (· ≠ .squelch)).dropLast ctx).1.squelch.tailLength

theorem exists_split_last {names : List DspName} (h : .squelch ∈ names) :
    ∃ post, .squelch ∉ post ∧
      names = (names.rdropWhile (· ≠ .squelch)).dropLast ++ .squelch :: post := by
  induction names using List.reverseRecOn with
  | nil => cases h
  | append_singleton names name ih =>
    by_cases hname : name = .squelch
    · subst hname
      refine ⟨[], List.not_mem_nil, ?_⟩
      rw [List.rdropWhile_concat_neg _ _ _ (by simp), List.dropLast_concat]
    · have hmem : .squelch ∈ names := by
        rw [List.mem_append, List.mem_singleton] at h
        exact h.resolve_right (Ne.symm hname)
      obtain ⟨post, hpost, hsplit⟩ := ih hmem
      refine ⟨post ++ [name], ?_, ?_⟩
      · rw [List.mem_append, List.mem_singleton, not_or]
        exact ⟨hpost, Ne.symm hname⟩
      · rw [List.rdropWhile_concat_pos _ _ _ (by simpa using hname), ← List.cons_append,
          ← List.append_assoc, ← hsplit]

end DspChain

end OWalkie
