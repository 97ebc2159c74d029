import OWalkie.Lib.Countdown
import OWalkie.Relay.Confluence

/-!
# The depth of the jitter buffer

`adaptJitterOnTick` raises `minStart` after enough concealed ticks and lowers it after enough fresh
ones.  Its two counters are streaks (`isStreak_conceal`, `isStreak_stable`), and a tick can change
the depth only when one of them is full (`depth_step`).  `depth_hysteresis` reads the past of every
change from that.
-/

namespace OWalkie

open Run

/-- What happens to the stream state of a speaker between two adaptations, and an adaptation. -/
inductive DepthOp where
  | tick (freshFromUDP usedConceal : Bool)
  | push (pkt : AudioPacket)
  | pop
  | forceStartFromMinSeq
  | reset
  deriving DecidableEq

namespace DepthOp

/-- A tick that had to conceal. -/
def concealed : DepthOp → Bool
  | tick _ usedConceal => usedConceal
  | _ => false

/-- A tick that has decoded a packet. -/
def fresh : DepthOp → Bool
  | tick freshFromUDP usedConceal => freshFromUDP && !usedConceal
  | _ => false

theorem not_fresh_of_concealed {op : DepthOp} (h : op.concealed = true) : op.fresh = false := by
  cases op with
  | tick freshFromUDP usedConceal =>
    have : usedConceal = true := h
    simp [fresh, this]
  | _ => rfl

end DepthOp

namespace SpeakerJitterBuffer

variable {b : SpeakerJitterBuffer}

theorem minStart_setMinStartClamped (n floor ceil : ℤ) :
    (b.setMinStartClamped n floor ceil).minStart = clampDepth n floor ceil := by
  simp only [setMinStartClamped]
  split_ifs with h
  · exact h.symm
  · exact (trimFrom_frame _ _).1

theorem clampDepth_of_mem {n floor ceil : ℤ} (hfloor : floor ≤ n) (hceil : n ≤ ceil) :
    clampDepth n floor ceil = n := by
  unfold clampDepth
  dsimp only
  split_ifs <;> omega

theorem minStart_pop (b : SpeakerJitterBuffer) : b.pop.2.minStart = b.minStart := by
  cases h : b.slot with
  | none =>
    obtain ⟨started, -, hpop⟩ := pop_eq_of_no_slot h
    rw [hpop]
  | some q =>
    obtain ⟨pkt, -, hpop⟩ := pop_of_slot h
    rw [hpop]
    rfl

theorem minStart_forceStart (b : SpeakerJitterBuffer) :
    b.forceStartFromMinSeq.minStart = b.minStart := by
  unfold forceStartFromMinSeq
  cases b.minSeq <;> rfl

end SpeakerJitterBuffer

namespace SpeakerStreamState

open SpeakerJitterBuffer

/-- The buffering depth. -/
def depth (st : SpeakerStreamState) : ℤ := st.jitter.minStart

/-- One step of a stream state that is adapted between `floor` and `ceil`. -/
def depthStep (floor ceil : ℤ) (st : SpeakerStreamState) : DepthOp → SpeakerStreamState
  | .tick freshFromUDP usedConceal => st.adaptJitterOnTick freshFromUDP usedConceal floor ceil
  | .push pkt => { st with jitter := st.jitter.push pkt }
  | .pop => { st with jitter := st.jitter.pop.2 }
  | .forceStartFromMinSeq => { st with jitter := st.jitter.forceStartFromMinSeq }
  | .reset => { st with jitter := st.jitter.reset }

variable {floor ceil : ℤ} {st : SpeakerStreamState} {op : DepthOp}

/-! ## The two streaks -/

/-- The concealed tick that makes the streak full. -/
def ConcealFull (st : SpeakerStreamState) (op : DepthOp) : Prop :=
  op.concealed = true ∧ jitterAdaptConcealThreshold ≤ st.jitterAdaptConcealStreak + 1

/-- The fresh tick that makes the stable period full. -/
def StableFull (st : SpeakerStreamState) (op : DepthOp) : Prop :=
  op.fresh = true ∧ jitterAdaptStableDecreaseTicks ≤ st.jitterAdaptStableTicks + 1

/-- Both counters after a step. -/
theorem counters_depthStep (floor ceil : ℤ) (st : SpeakerStreamState) (op : DepthOp) :
    (depthStep floor ceil st op).jitterAdaptConcealStreak =
        (if op.concealed = true then
          if jitterAdaptConcealThreshold ≤ st.jitterAdaptConcealStreak + 1 then 0
          else st.jitterAdaptConcealStreak + 1
        else if op.fresh = true then 0 else st.jitterAdaptConcealStreak) ∧
      (depthStep floor ceil st op).jitterAdaptStableTicks =
        (if op.concealed = true then 0
        else if op.fresh = true then
          if jitterAdaptStableDecreaseTicks ≤ st.jitterAdaptStableTicks + 1 then 0
          else st.jitterAdaptStableTicks + 1
        else st.jitterAdaptStableTicks) := by
  cases op with
  | tick freshFromUDP usedConceal =>
    simp only [depthStep, adaptJitterOnTick, DepthOp.concealed, DepthOp.fresh]
    cases usedConceal
    · cases freshFromUDP
      · exact ⟨rfl, rfl⟩
      · simp only [Bool.false_eq_true, if_false, if_true, Bool.not_false, Bool.and_self]
        split_ifs <;> exact ⟨rfl, rfl⟩
    · simp only [if_true]
      split_ifs <;> exact ⟨rfl, rfl⟩
  | _ => exact ⟨rfl, rfl⟩

theorem isStreak_conceal (floor ceil : ℤ) :
    IsStreak (depthStep floor ceil) jitterAdaptConcealStreak (fun _ op => op.concealed = true)
      fun st op => op.fresh = true ∨ ConcealFull st op where
  clears st op h := by
    rw [(counters_depthStep floor ceil st op).1]
    rcases h with hfresh | ⟨hconcealed, hfull⟩
    · have hconcealed : op.concealed = false := by
        by_contra hne
        rw [DepthOp.not_fresh_of_concealed (Bool.eq_true_of_not_eq_false hne)] at hfresh
        cases hfresh
      simp [hconcealed, hfresh]
    · rw [if_pos hconcealed, if_pos hfull]
  counts st op hconcealed hclear := by
    have hfull : ¬ jitterAdaptConcealThreshold ≤ st.jitterAdaptConcealStreak + 1 :=
      fun h => hclear (Or.inr ⟨hconcealed, h⟩)
    rw [(counters_depthStep floor ceil st op).1, if_pos hconcealed, if_neg hfull]
  rest st op hconcealed hclear := by
    have hfresh : ¬ op.fresh = true := fun h => hclear (Or.inl h)
    rw [(counters_depthStep floor ceil st op).1, if_neg hconcealed, if_neg hfresh]

theorem isStreak_stable (floor ceil : ℤ) :
    IsStreak (depthStep floor ceil) jitterAdaptStableTicks (fun _ op => op.fresh = true)
      fun st op => op.concealed = true ∨ StableFull st op where
  clears st op h := by
    rw [(counters_depthStep floor ceil st op).2]
    rcases h with hconcealed | ⟨hfresh, hfull⟩
    · rw [if_pos hconcealed]
    · split_ifs <;> rfl
  counts st op hfresh hclear := by
    have hconcealed : ¬ op.concealed = true := fun h => hclear (Or.inl h)
    have hfull : ¬ jitterAdaptStableDecreaseTicks ≤ st.jitterAdaptStableTicks + 1 :=
      fun h => hclear (Or.inr ⟨hfresh, h⟩)
    rw [(counters_depthStep floor ceil st op).2, if_neg hconcealed, if_pos hfresh, if_neg hfull]
  rest st op hfresh hclear := by
    have hconcealed : ¬ op.concealed = true := fun h => hclear (Or.inl h)
    rw [(counters_depthStep floor ceil st op).2, if_neg hconcealed, if_neg hfresh]

/-! ## One step -/

/-- The depth lies between the floor and the ceiling. -/
def InRange (floor ceil : ℤ) (st : SpeakerStreamState) : Prop :=
  floor ≤ st.depth ∧ st.depth ≤ ceil

/-- What a step does to the depth: a full streak moves it by one, up to the limits. -/
theorem depth_step (h : st.InRange floor ceil) (op : DepthOp) :
    (depthStep floor ceil st op).depth = st.depth ∨
      (ConcealFull st op ∧ st.depth < ceil ∧
        (depthStep floor ceil st op).depth = st.depth + 1) ∨
      StableFull st op ∧ floor < st.depth ∧
        (depthStep floor ceil st op).depth = st.depth - 1 := by
  obtain ⟨hfloor, hceil⟩ := h
  have hle : ¬ ceil < floor := by omega
  cases op with
  | push pkt => exact Or.inl (push_frame st.jitter pkt).1
  | pop => exact Or.inl (minStart_pop st.jitter)
  | forceStartFromMinSeq => exact Or.inl (minStart_forceStart st.jitter)
  | reset => exact Or.inl rfl
  | tick freshFromUDP usedConceal =>
    unfold depth at *
    simp only [depthStep, adaptJitterOnTick, if_neg hle]
    cases usedConceal with
    | true =>
      rw [if_pos rfl]
      split_ifs with hfull hlt
      · refine Or.inr (Or.inl ⟨⟨rfl, hfull⟩, hlt, ?_⟩)
        rw [minStart_setMinStartClamped, clampDepth_of_mem (by omega) (by omega)]
      · exact Or.inl rfl
      · exact Or.inl rfl
    | false =>
      cases freshFromUDP with
      | false => exact Or.inl rfl
      | true =>
        simp only [Bool.false_eq_true, if_false, if_true]
        split_ifs with hfull hlt
        · refine Or.inr (Or.inr ⟨⟨rfl, hfull⟩, hlt, ?_⟩)
          rw [minStart_setMinStartClamped, clampDepth_of_mem (by omega) (by omega)]
        · exact Or.inl rfl
        · exact Or.inl rfl

theorem InRange.step (h : st.InRange floor ceil) (op : DepthOp) :
    (depthStep floor ceil st op).InRange floor ceil := by
  obtain ⟨hfloor, hceil⟩ := h
  unfold InRange
  rcases depth_step ⟨hfloor, hceil⟩ op with heq | ⟨-, hlt, heq⟩ | ⟨-, hlt, heq⟩
  all_goals
    rw [heq]
    constructor <;> omega

/-! ## The past of a change -/

theorem inRange_new {floor : ℕ} (hone : 1 ≤ floor) (hceil : floor ≤ ceil) :
    (new floor).InRange floor ceil := by
  have hdepth : (new floor).depth = floor := if_neg (by omega)
  unfold InRange
  rw [hdepth]
  exact ⟨le_rfl, hceil⟩

/-- No step along the run changes the depth. -/
def Steady (floor ceil : ℤ) : SpeakerStreamState → List DepthOp → Prop :=
  Along (depthStep floor ceil) fun st op => (depthStep floor ceil st op).depth = st.depth

/-- Where neither streak becomes full the depth stays. -/
theorem steady_of_not_full (h : st.InRange floor ceil) {ops : List DepthOp}
    (hops : Along (depthStep floor ceil) (fun st op => ¬ ConcealFull st op ∧ ¬ StableFull st op)
      st ops) : Steady floor ceil st ops := by
  refine Along.imp_of_invariant (I := InRange floor ceil) (fun _ op h _ => h.step op) ?_ h hops
  rintro st op hrange ⟨hconceal, hstable⟩
  rcases depth_step hrange op with heq | ⟨hfull, -⟩ | ⟨hfull, -⟩
  · exact heq
  · exact absurd hfull hconceal
  · exact absurd hfull hstable

/-- A full streak of concealed ticks: at least four since the depth last changed, the last one just
now, and no fresh one among or after them. -/
theorem rise_window (hrange : st.InRange floor ceil) (hzero : st.jitterAdaptConcealStreak = 0)
    (ops : List DepthOp) (hfull : ConcealFull (after (depthStep floor ceil) st ops) op) :
    ∃ pre mid, ops = pre ++ mid ∧
      Steady floor ceil (after (depthStep floor ceil) st pre) mid ∧
        (∀ o ∈ mid ++ [op], o.fresh = false) ∧ 4 ≤ (mid ++ [op]).countP DepthOp.concealed := by
  obtain ⟨pre, mid, rfl, hmid, hcount⟩ := (isStreak_conceal floor ceil).exists_window hzero ops
  have hpre := invariant (I := InRange floor ceil) (fun _ op h => h.step op) hrange pre
  refine ⟨pre, mid, rfl, ?_, ?_, ?_⟩
  · refine steady_of_not_full hpre fun before o behind heq => ?_
    have hnot := hmid before o behind heq
    exact ⟨fun h => hnot (Or.inr h), fun h => hnot (Or.inl h.1)⟩
  · intro o ho
    rcases List.mem_append.1 ho with ho | ho
    · obtain ⟨before, behind, heq⟩ := List.append_of_mem ho
      exact Bool.eq_false_of_not_eq_true fun h => hmid before o behind heq (Or.inl h)
    · rw [List.mem_singleton.1 ho]
      exact DepthOp.not_fresh_of_concealed hfull.1
  · rw [stepsMeeting_eq_countP] at hcount
    have hfour : 4 ≤ jitterAdaptConcealStreak (after (depthStep floor ceil) st (pre ++ mid)) + 1 :=
      hfull.2
    rw [List.countP_append, List.countP_singleton, if_pos hfull.1]
    omega

/-- A full stable period: at least eighty fresh ticks since the depth last changed, the last one
just now, and no concealed one among or after them. -/
theorem fall_window (hrange : st.InRange floor ceil) (hzero : st.jitterAdaptStableTicks = 0)
    (ops : List DepthOp) (hfull : StableFull (after (depthStep floor ceil) st ops) op) :
    ∃ pre mid, ops = pre ++ mid ∧
      Steady floor ceil (after (depthStep floor ceil) st pre) mid ∧
        (∀ o ∈ mid ++ [op], o.concealed = false) ∧ 80 ≤ (mid ++ [op]).countP DepthOp.fresh := by
  obtain ⟨pre, mid, rfl, hmid, hcount⟩ := (isStreak_stable floor ceil).exists_window hzero ops
  have hpre := invariant (I := InRange floor ceil) (fun _ op h => h.step op) hrange pre
  refine ⟨pre, mid, rfl, ?_, ?_, ?_⟩
  · refine steady_of_not_full hpre fun before o behind heq => ?_
    have hnot := hmid before o behind heq
    exact ⟨fun h => hnot (Or.inl h.1), fun h => hnot (Or.inr h)⟩
  · intro o ho
    rcases List.mem_append.1 ho with ho | ho
    · obtain ⟨before, behind, heq⟩ := List.append_of_mem ho
      exact Bool.eq_false_of_not_eq_true fun h => hmid before o behind heq (Or.inl h)
    · rw [List.mem_singleton.1 ho]
      refine Bool.eq_false_of_not_eq_true fun h => ?_
      have hfresh := hfull.1
      rw [DepthOp.not_fresh_of_concealed h] at hfresh
      cases hfresh
  · rw [stepsMeeting_eq_countP] at hcount
    have heighty : 80 ≤ jitterAdaptStableTicks (after (depthStep floor ceil) st (pre ++ mid)) + 1 :=
      hfull.2
    rw [List.countP_append, List.countP_singleton, if_pos hfull.1]
    omega

/-- The depth stays between the floor and the ceiling and changes by at most one at a step.  A rise
comes with the fourth concealed tick since the last change, at least, without a fresh one among or
after them; a fall with the eightieth fresh tick, at least, without a concealed one. -/
theorem depth_hysteresis {floor ceil : ℕ} (hone : 1 ≤ floor) (hceil : floor ≤ ceil)
    (ops : List DepthOp) (op : DepthOp) :
    let st := after (depthStep floor ceil) (new floor) ops
    let st' := depthStep floor ceil st op
    (floor ≤ st.depth ∧ st.depth ≤ ceil) ∧ |st'.depth - st.depth| ≤ 1 ∧
      (st.depth < st'.depth → op.concealed = true ∧ ∃ pre mid, ops = pre ++ mid ∧
        Steady floor ceil (after (depthStep floor ceil) (new floor) pre) mid ∧
          (∀ o ∈ mid ++ [op], o.fresh = false) ∧
            4 ≤ (mid ++ [op]).countP DepthOp.concealed) ∧
      (st'.depth < st.depth → op.fresh = true ∧ ∃ pre mid, ops = pre ++ mid ∧
        Steady floor ceil (after (depthStep floor ceil) (new floor) pre) mid ∧
          (∀ o ∈ mid ++ [op], o.concealed = false) ∧
            80 ≤ (mid ++ [op]).countP DepthOp.fresh) := by
  intro st st'
  have hnew : (new floor).InRange floor ceil := inRange_new hone (by omega)
  have hrange : st.InRange floor ceil :=
    invariant (I := InRange floor ceil) (fun _ op h => h.step op) hnew ops
  have hstep : st'.depth = st.depth ∨
      (ConcealFull st op ∧ st.depth < ceil ∧ st'.depth = st.depth + 1) ∨
        StableFull st op ∧ floor < st.depth ∧ st'.depth = st.depth - 1 := depth_step hrange op
  refine ⟨hrange, ?_, fun hrise => ?_, fun hfall => ?_⟩
  · rw [abs_le]
    rcases hstep with heq | ⟨-, -, heq⟩ | ⟨-, -, heq⟩
    all_goals
      rw [heq]
      constructor <;> omega
  · rcases hstep with heq | ⟨hfull, -⟩ | ⟨-, -, heq⟩
    · omega
    · exact ⟨hfull.1, rise_window hnew rfl ops hfull⟩
    · omega
  · rcases hstep with heq | ⟨-, -, heq⟩ | ⟨hfull, -⟩
    · omega
    · omega
    · exact ⟨hfull.1, fall_window hnew rfl ops hfull⟩

/-- Three concealed ticks with an idle one and a pop among them. -/
def threeConcealed : List DepthOp :=
  [.tick false true, .pop, .tick false true, .tick false false, .tick false true]

/-- The fourth one raises the depth from 2. -/
theorem depth_hysteresis_fourth :
    ∃ pre mid : List DepthOp, threeConcealed = pre ++ mid ∧
      Steady 2 10 (after (depthStep 2 10) (new 2) pre) mid ∧
        (∀ o ∈ mid ++ [DepthOp.tick false true], o.fresh = false) ∧
          4 ≤ (mid ++ [DepthOp.tick false true]).countP DepthOp.concealed :=
  ((@depth_hysteresis 2 10 (by decide) (by decide) threeConcealed
    (.tick false true)).2.2.1 (by decide)).2

end SpeakerStreamState

end OWalkie
