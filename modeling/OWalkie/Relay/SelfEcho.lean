import OWalkie.Relay.SilenceTail

/-!
# A sole speaker and its own tail

In a channel where only one session sends audio, every frame is either sent while that session is
heard, and then excludes it, or belongs to its tail.  A frame of the tail excludes it only while the
grace period after its last frame lasts; `self_excluded` asks that nothing is emitted later.
-/

namespace OWalkie

open Run

/-! ## Silent chains -/

/-- A frame on which nobody is heard and for which no stage has asked. -/
structure AudioProcessContext.Idle (txEOF : Bool) (ctx : AudioProcessContext) : Prop where
  txActive : ctx.control.txActive = false
  txStart : ctx.control.txStart = false
  eof : ctx.control.txEOF = txEOF
  activeSpeakers : ctx.activeSpeakers = 0
  emitFrame : ctx.emitFrame = false

theorem AudioProcessContext.Idle.active {txEOF : Bool} {ctx : AudioProcessContext}
    (h : ctx.Idle txEOF) : ctx.active = false := by
  simp [AudioProcessContext.active, h.txActive, h.activeSpeakers]

theorem PopsModule.process_idle {ctx : AudioProcessContext} {m : PopsModule}
    (h : ctx.Idle false) (hlast : m.lastActive = false) :
    (m.process ctx).1.lastActive = false ∧ (m.process ctx).2.Idle false := by
  have hprocess : m.process ctx = ({ m with lastActive := false }, ctx) := by
    simp [PopsModule.process, h.active, h.txStart, h.eof, hlast]
  rw [hprocess]
  exact ⟨rfl, h⟩

theorem SquelchDSPModule.process_idle {ctx : AudioProcessContext} {m : SquelchDSPModule}
    (h : ctx.Idle false) (hlast : m.lastActive = false) (hburst : m.squelchBurstRemain ≤ 0) :
    (m.process ctx).1.lastActive = false ∧ (m.process ctx).1.squelchBurstRemain ≤ 0 ∧
      (m.process ctx).2.Idle false := by
  have hno : ¬ 0 < m.squelchBurstRemain := not_lt.2 hburst
  simp only [SquelchDSPModule.process, h.active, if_true, SquelchDSPModule.processIdle, h.eof,
    hlast, Bool.or_self, Bool.false_eq_true, if_false, hno, true_and]
  exact ⟨hburst, h.txActive, h.txStart, h.eof, h.activeSpeakers, rfl⟩

theorem ShapingStage.process_idle {txEOF : Bool} {ctx : AudioProcessContext} {m : ShapingStage}
    (h : ctx.Idle txEOF) : (m.process ctx).2.Idle txEOF := by
  refine ⟨h.txActive, h.txStart, h.eof, h.activeSpeakers, ?_⟩
  simp [ShapingStage.process, h.emitFrame, h.active]

namespace DspChain

/-- Nothing in the chain asks for a frame on which nobody is heard: the stages that end a
transmission have played their end, and no other end is announced to them. -/
structure Silent (txEOF : Bool) (c : DspChain) : Prop where
  pops : .pops ∈ c.order → txEOF = false ∧ c.pops.lastActive = false
  squelch : .squelch ∈ c.order →
    txEOF = false ∧ c.squelch.lastActive = false ∧ c.squelch.squelchBurstRemain ≤ 0

instance (txEOF : Bool) (c : DspChain) : Decidable (c.Silent txEOF) :=
  decidable_of_iff ((.pops ∈ c.order → txEOF = false ∧ c.pops.lastActive = false) ∧
      (.squelch ∈ c.order →
        txEOF = false ∧ c.squelch.lastActive = false ∧ c.squelch.squelchBurstRemain ≤ 0))
    ⟨fun h => ⟨h.1, h.2⟩, fun h => ⟨h.1, h.2⟩⟩

variable {txEOF : Bool} {ctx : AudioProcessContext} {c : DspChain}

theorem stage_order (name : DspName) : (c.stage ctx name).1.order = c.order := by
  cases name <;> rfl

theorem Silent.stage (h : c.Silent txEOF) {name : DspName} (hname : name ∈ c.order)
    (hctx : ctx.Idle txEOF) :
    (c.stage ctx name).1.Silent txEOF ∧ (c.stage ctx name).2.Idle txEOF := by
  cases name with
  | pops =>
    obtain ⟨rfl, hlast⟩ := h.pops hname
    obtain ⟨hlast', hctx'⟩ := PopsModule.process_idle hctx hlast
    exact ⟨⟨fun _ => ⟨rfl, hlast'⟩, h.squelch⟩, hctx'⟩
  | squelch =>
    obtain ⟨rfl, hlast, hburst⟩ := h.squelch hname
    obtain ⟨hlast', hburst', hctx'⟩ := SquelchDSPModule.process_idle hctx hlast hburst
    exact ⟨⟨h.pops, fun _ => ⟨rfl, hlast', hburst'⟩⟩, hctx'⟩
  | clicks | noise | filter | dispersion | compressor | distortion =>
    exact ⟨⟨h.pops, h.squelch⟩, ShapingStage.process_idle hctx⟩

/-- A silent chain asks for nothing, and stays silent. -/
theorem Silent.run (h : c.Silent txEOF) {names : List DspName} (hnames : names ⊆ c.order)
    (hctx : ctx.Idle txEOF) :
    (c.run names ctx).1.Silent txEOF ∧ (c.run names ctx).2.Idle txEOF := by
  induction names generalizing c ctx with
  | nil => exact ⟨h, hctx⟩
  | cons name names ih =>
    obtain ⟨hname, hrest⟩ := List.cons_subset.1 hnames
    obtain ⟨hstage, hctx'⟩ := h.stage hname hctx
    unfold DspChain.run
    dsimp only
    split_ifs
    · exact ⟨hstage, hctx'⟩
    · exact ih hstage (by rwa [stage_order]) hctx'

theorem processModuleChain_idle (now : ℤ) {chains : List DspChain}
    (h : ∀ c ∈ chains, c.Silent txEOF) (hctx : ctx.Idle txEOF) :
    (processModuleChain now chains ctx).2.1.Idle txEOF := by
  induction chains generalizing ctx with
  | nil => exact hctx
  | cons c chains ih =>
    obtain ⟨hc, hrest⟩ := List.forall_mem_cons.1 h
    have hrun : (AudioModule.process c now ctx).2.Idle txEOF :=
      (hc.run (List.Subset.refl _) hctx).2
    unfold processModuleChain
    dsimp only
    split_ifs
    · exact hrun
    · exact ih hrest hrun

end DspChain

/-! ## What a tick sends -/

namespace MixCore

section

variable {E M : Type} [OpusEncoder E] {p : MixerParams} {now : ℤ} {active : List SessionID}
  {c : MixCore E M}

theorem send_exclude {pcm : List ℤ} {signal : ℤ} {f : MixedFrame}
    (h : f ∈ (c.send p now active pcm signal).2) : f.exclude = c.excluded p now active := by
  unfold send at h
  split at h
  · cases h
  · cases h
  · cases h
    rfl

end

variable {E M : Type} [OpusEncoder E] [AudioModule M] {p : MixerParams} {now moduleNow : ℤ}
  {heard : List Heard} {txEOF : Bool} {c : MixCore E M}

theorem produce_exclude {control : AudioModuleControl} {avgSignal : ℚ} {f : MixedFrame}
    (h : f ∈ (c.produce p now moduleNow heard control avgSignal).2) :
    f.exclude = c.excluded p now (heard.map (·.sid)) := by
  unfold produce at h
  dsimp only at h
  split_ifs at h <;> first | cases h | (rw [send_exclude h]; rfl)

/-- A frame leaves out the session that the speakers of its tick and the last single speaker
determine. -/
theorem broadcast_exclude {f : MixedFrame}
    (h : f ∈ (c.broadcast p now moduleNow heard txEOF).2.frame) :
    f.exclude = (c.account now heard txEOF).1.excluded p now (heard.map (·.sid)) := by
  unfold broadcast at h
  dsimp only at h
  split_ifs at h
  · exact send_exclude h
  · exact produce_exclude h

/-- The last single speaker is as it was, and there is still no generator if there was none. -/
structure Continues (c c' : MixCore E M) : Prop where
  lastSingleSpeaker : c'.lastSingleSpeaker = c.lastSingleSpeaker
  lastSingleSpeakerAt : c'.lastSingleSpeakerAt = c.lastSingleSpeakerAt
  generators : c.generators = [] → c'.generators = []

omit [AudioModule M] in
theorem Continues.send {c c' : MixCore E M} (h : Continues c c') (p : MixerParams) (now : ℤ)
    (active : List SessionID) (pcm : List ℤ) (signal : ℤ) :
    Continues c (c'.send p now active pcm signal).1 := by
  obtain ⟨hsingle, hat, hgen⟩ := h
  unfold MixCore.send
  split <;> exact ⟨hsingle, hat, hgen⟩

theorem continues_produce (p : MixerParams) (now moduleNow : ℤ) (heard : List Heard)
    (control : AudioModuleControl) (avgSignal : ℚ) (c : MixCore E M) :
    Continues c (c.produce p now moduleNow heard control avgSignal).1 := by
  have hchain : ∀ ctx, c.generators = [] →
      (processModuleChain moduleNow c.generators ctx).1 = [] := by
    intro ctx hgen
    rw [hgen]
    rfl
  unfold produce
  dsimp only
  split_ifs <;>
    first
    | exact ⟨rfl, rfl, hchain _⟩
    | (apply Continues.send; exact ⟨rfl, rfl, hchain _⟩)

/-- After the speakers are counted a tick only sends. -/
theorem continues_broadcast (p : MixerParams) (now moduleNow : ℤ) (heard : List Heard)
    (txEOF : Bool) (c : MixCore E M) :
    Continues (c.account now heard txEOF).1 (c.broadcast p now moduleNow heard txEOF).1 := by
  unfold broadcast
  dsimp only
  split_ifs
  · obtain ⟨hsingle, hat, hgen⟩ := Continues.send (c := (c.account now heard txEOF).1)
      ⟨rfl, rfl, id⟩ p now (heard.map (·.sid)) (List.replicate p.packetSamples 0)
      (toInt16 (min (max (c.account now heard txEOF).1.lastSignal 0) 255))
    exact ⟨hsingle, hat, hgen⟩
  · exact continues_produce _ _ _ _ _ _ _

theorem produce_frame_eq_none {control : AudioModuleControl} {avgSignal : ℚ}
    (h : ∀ ctx ∈ c.chainContext p moduleNow heard control avgSignal, ctx.emitFrame = false) :
    (c.produce p now moduleNow heard control avgSignal).2 = none := by
  unfold produce
  unfold chainContext at h
  dsimp only at h ⊢
  split_ifs at h ⊢ <;> simp_all

omit [OpusEncoder E] in
theorem chainContext_idle {c : MixCore E DspChain} {control : AudioModuleControl} {avgSignal : ℚ}
    (hgen : c.generators = []) (hsilent : ∀ ch ∈ c.dspMods, ch.Silent control.txEOF)
    (hactive : control.txActive = false) (hstart : control.txStart = false)
    {ctx : AudioProcessContext}
    (hctx : ctx ∈ c.chainContext p moduleNow [] control avgSignal) : ctx.emitFrame = false := by
  unfold chainContext at hctx
  simp only [hgen, processModuleChain, Bool.false_eq_true, if_false] at hctx
  split_ifs at hctx
  · cases hctx
  · cases hctx
    exact (DspChain.processModuleChain_idle moduleNow hsilent
      ⟨hactive, hstart, rfl, rfl, hactive⟩).emitFrame

/-- A tick on which nobody is heard sends nothing once the silence tail is over and the chain is
silent. -/
theorem broadcast_frame_of_silent {c : MixCore E DspChain} (hrem : ¬ 0 < c.synthSilenceRemain)
    (hgen : c.generators = []) (hsilent : ∀ ch ∈ c.dspMods, ch.Silent (txEOF || c.lastTxActive)) :
    (c.broadcast p now moduleNow [] txEOF).2.frame = none := by
  have hproduce : ((c.account now [] txEOF).1.produce p now moduleNow []
      (c.account now [] txEOF).2.1 (c.account now [] txEOF).2.2).2 = none :=
    produce_frame_eq_none fun ctx hctx => chainContext_idle hgen hsilent rfl rfl hctx
  unfold broadcast
  dsimp only
  rw [account_synthSilenceRemain, if_neg hrem]
  exact hproduce

end MixCore

namespace Mixer

variable {D E : Type} [OpusDecoder D] [OpusEncoder E] {p : MixerParams} {mods : ModuleSet DspChain}
  {A : SessionID} {s : Mixer D E DspChain}

/-- Only `A` has a stream state, and there are no generators. -/
structure OnlySpeaker (A : SessionID) (s : Mixer D E DspChain) : Prop where
  keys : s.keys = [] ∨ s.keys = [A]
  state : (s.speaker A).st = none → s.keys = []
  generators : s.core.generators = []
  single : s.core.lastSingleSpeakerAt.isSome = true → s.core.lastSingleSpeaker = A

/-- A packet that the loop takes is one of `A`. -/
def FromOnly (A : SessionID) : LoopEvent E → Prop
  | .packet pkt _ => pkt.sessionID = A
  | _ => True

/-- A tick on which `A` is not heard comes within the grace period after its last frame, or finds
the silence tail at its end and the chain silent. -/
def TailCovered (p : MixerParams) (s : Mixer D E DspChain) : LoopEvent E → Prop
  | .tick t => t.order.Perm s.keys → s.heard p t = [] →
      s.core.lastSingleSpeakerAt.isSome = true ∧
          sub s.clock s.core.lastSingleSpeakerAt ≤ MixCore.tailGrace p ∨
        ¬ 0 < s.core.synthSilenceRemain ∧
          ∀ ch ∈ s.core.dspMods, ch.Silent (s.txEOF p t || s.core.lastTxActive)
  | _ => True

omit [OpusEncoder E] in
theorem OnlySpeaker.heard (h : s.OnlySpeaker A) {t : TickInput} (hperm : t.order.Perm s.keys) :
    s.heard p t = [] ∨ ∃ hd, hd.sid = A ∧ s.heard p t = [hd] := by
  have horder : t.order = [] ∨ t.order = [A] := by
    rcases h.keys with hkeys | hkeys
    · exact Or.inl (List.perm_nil.1 (hkeys ▸ hperm))
    · exact Or.inr (List.perm_singleton.1 (hkeys ▸ hperm))
  unfold Mixer.heard
  rcases horder with horder | horder
  · simp [horder]
  · rw [horder]
    cases hhd : (if t.isRepeater A then none
      else (s.speakerTick p t A).frame.map fun f => (⟨A, f.1, f.2⟩ : Heard)) with
    | none => exact Or.inl (by simp [hhd])
    | some hd =>
      refine Or.inr ⟨hd, ?_, by simp [hhd]⟩
      split_ifs at hhd
      obtain ⟨f, -, rfl⟩ := Option.map_eq_some_iff.1 hhd
      rfl

omit [OpusEncoder E] in
/-- Counting the speakers of a tick notes `A` or nobody. -/
theorem OnlySpeaker.account (h : s.OnlySpeaker A) {t : TickInput} (hperm : t.order.Perm s.keys) :
    (s.accounted p t).1.lastSingleSpeakerAt.isSome = true →
      (s.accounted p t).1.lastSingleSpeaker = A := by
  rcases h.heard (p := p) hperm with hheard | ⟨hd, hsid, hheard⟩
  · simpa [accounted, MixCore.account, hheard] using h.single
  · simp [accounted, MixCore.account, hheard, hsid]

omit [OpusEncoder E] in
theorem st_of_mix {now : ℤ} {isRepeater : Bool} {sp : Speaker D}
    (h : (sp.mix p now isRepeater).1.st = none) : sp.st = none := by
  unfold Speaker.mix at h
  split at h
  · exact h
  · cases h

theorem OnlySpeaker.tick (h : s.OnlySpeaker A) {t : TickInput} (hperm : t.order.Perm s.keys) :
    (s.tick p mods t).1.OnlySpeaker A := by
  have hcore := MixCore.continues_broadcast p s.clock (s.clock + t.moduleDt) (s.heard p t)
    (s.txEOF p t) s.core
  by_cases hrem : ((s.speaker A).mix p s.clock (t.isRepeater A)).1.Removed p
      (s.clock + t.moduleDt + t.cleanupDt) (t.present A)
  · have hkeys : (s.tick p mods t).1.keys = [] := by
      rcases h.keys with hkeys | hkeys <;> simp [Mixer.tick, hkeys, hrem]
    refine ⟨Or.inl hkeys, fun _ => hkeys, hcore.generators h.generators, fun hat => ?_⟩
    refine hcore.lastSingleSpeaker.trans (h.account hperm ?_)
    rw [← hat]
    exact congrArg Option.isSome hcore.lastSingleSpeakerAt.symm
  · have hkeys : (s.tick p mods t).1.keys = s.keys := by
      rcases h.keys with hkeys | hkeys <;> simp [Mixer.tick, hkeys, hrem]
    refine ⟨hkeys ▸ h.keys, fun hnone => ?_, hcore.generators h.generators, fun hat => ?_⟩
    · simp only [Mixer.tick, Speaker.cleanup, if_neg hrem] at hnone
      rw [hkeys]
      exact h.state (st_of_mix hnone)
    · refine hcore.lastSingleSpeaker.trans (h.account hperm ?_)
      rw [← hat]
      exact congrArg Option.isSome hcore.lastSingleSpeakerAt.symm

theorem OnlySpeaker.step (h : s.OnlySpeaker A) {x : LoopEvent E} (hx : FromOnly A x) :
    (next (Mixer.step p mods) s x).OnlySpeaker A := by
  cases x with
  | elapse dt => exact ⟨h.keys, h.state, h.generators, h.single⟩
  | packet pkt dt =>
    obtain rfl : pkt.sessionID = A := hx
    refine ⟨?_, fun hnone => ?_, h.generators, h.single⟩
    · cases hst : (s.speaker pkt.sessionID).st with
      | none => simp [next, Mixer.step, hst, h.state hst]
      | some st => simpa [next, Mixer.step, hst] using h.keys
    · simp [next, Mixer.step, Speaker.onPacket] at hnone
  | eof sid seq =>
    refine ⟨h.keys, fun hnone => h.state ?_, h.generators, h.single⟩
    simp only [next, Mixer.step, Function.update_apply] at hnone
    split_ifs at hnone with hA
    · subst hA
      simpa [Speaker.onEOF] using hnone
    · exact hnone
  | tick t =>
    by_cases hperm : t.order.Perm s.keys
    · simp only [next, Mixer.step, if_pos hperm]
      exact h.tick hperm
    · simp only [next, Mixer.step, if_neg hperm]
      exact h
  | dropDecoder sid =>
    refine ⟨h.keys, fun hnone => h.state ?_, h.generators, h.single⟩
    simp only [next, Mixer.step, setSpeaker, Function.update_apply] at hnone
    split_ifs at hnone with hA
    · subst hA
      exact hnone
    · exact hnone
  | clearRepeaterState sid => exact ⟨h.keys, h.state, h.generators, h.single⟩
  | restart encoder =>
    cases encoder <;> exact ⟨Or.inl rfl, fun _ => rfl, h.generators, h.single⟩

/-- A frame of a covered tick leaves `A` out. -/
theorem OnlySpeaker.excluded (h : s.OnlySpeaker A) (hA : A ≠ 0) {t : TickInput}
    (hperm : t.order.Perm s.keys) (hcover : s.TailCovered p (.tick t : LoopEvent E))
    {f : MixedFrame} (hf : f ∈ (s.tick p mods t).2.frame) : f.exclude = A := by
  have hbroadcast : (s.tick p mods t).2 = (s.core.broadcast p s.clock (s.clock + t.moduleDt)
    (s.heard p t) (s.txEOF p t)).2 := rfl
  rw [hbroadcast] at hf
  have hexclude := MixCore.broadcast_exclude hf
  rcases h.heard (p := p) hperm with hheard | ⟨hd, hsid, hheard⟩
  · rcases hcover hperm hheard with ⟨hat, hgrace⟩ | ⟨hrem, hsilent⟩
    · rw [hexclude, hheard]
      simp [MixCore.excluded, MixCore.account, h.single hat, hA, hgrace]
    · rw [hheard, MixCore.broadcast_frame_of_silent hrem h.generators hsilent] at hf
      cases hf
  · rw [hexclude, hheard]
    simpa [MixCore.excluded] using hsid

instance (A : SessionID) : ∀ x : LoopEvent E, Decidable (FromOnly A x)
  | .packet _ _ => inferInstanceAs (Decidable (_ = _))
  | .elapse _ | .eof _ _ | .tick _ | .dropDecoder _ | .clearRepeaterState _ | .restart _ =>
    isTrue trivial

instance (p : MixerParams) (s : Mixer D E DspChain) :
    ∀ x : LoopEvent E, Decidable (s.TailCovered p x)
  | .tick _ => inferInstanceAs (Decidable (_ → _ → _ ∧ _ ∨ _ ∧ _))
  | .elapse _ | .packet _ _ | .eof _ _ | .dropDecoder _ | .clearRepeaterState _ | .restart _ =>
    isTrue trivial

end Mixer

end OWalkie
