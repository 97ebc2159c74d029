import Mathlib.Tactic
import OWalkie.Lib.Run

/-!
# Countdowns and streaks

A counter in the state of a machine that is set to `n`, is counted down by certain steps and may be
cleared by others (`IsCountdown`).  It runs after those runs that have set it fewer than `n`
counting steps ago and have not cleared it since (`IsCountdown.pos_iff`).  A streak counts up
instead (`IsStreak`): its value is the number of counting steps in the end of the run that no step
has cleared (`IsStreak.exists_window`).
-/

namespace Run

variable {σ α : Type*}

/-! ## Counting steps -/

/-- The number of steps of the run from `s` along `as` that meet `P`. -/
def stepsMeeting (step : σ → α → σ) (P : σ → α → Prop) [∀ s a, Decidable (P s a)] :
    σ → List α → ℕ
  | _, [] => 0
  | s, a :: as => (if P s a then 1 else 0) + stepsMeeting step P (step s a) as

section

variable {step : σ → α → σ} {P : σ → α → Prop} [∀ s a, Decidable (P s a)]

theorem stepsMeeting_append (s : σ) (as bs : List α) : stepsMeeting step P s (as ++ bs) =
    stepsMeeting step P s as + stepsMeeting step P (after step s as) bs := by
  induction as generalizing s with
  | nil => simp [stepsMeeting]
  | cons a as ih =>
    simp only [List.cons_append, stepsMeeting, after_cons, ih]
    omega

theorem stepsMeeting_snoc (s : σ) (as : List α) (a : α) : stepsMeeting step P s (as ++ [a]) =
    stepsMeeting step P s as + if P (after step s as) a then 1 else 0 := by
  rw [stepsMeeting_append]
  rfl

/-- Steps that are told by their action alone. -/
theorem stepsMeeting_eq_countP (p : α → Bool) (s : σ) (as : List α) :
    stepsMeeting step (fun _ a => p a = true) s as = as.countP p := by
  induction as generalizing s with
  | nil => rfl
  | cons a as ih =>
    rw [stepsMeeting, ih, List.countP_cons]
    omega

end

/-! ## The counter -/

/-- `r` counts down from `n`: a step that meets `Arms` finds it at rest and sets it, one that meets
`Clears` clears it, one that meets `Counts` takes one off while it runs, and nothing else changes
it. -/
structure IsCountdown (step : σ → α → σ) (r : σ → ℤ) (n : ℤ) (Arms Counts Clears : σ → α → Prop) :
    Prop where
  arms : ∀ s a, 0 ≤ r s → Arms s a → r s = 0 ∧ r (step s a) = n
  clears : ∀ s a, Clears s a → r (step s a) = 0
  counts : ∀ s a, 0 < r s → Counts s a → ¬ Clears s a → r (step s a) = r s - 1
  rest : ∀ s a, ¬ Arms s a → ¬ Clears s a → (0 < r s → ¬ Counts s a) → r (step s a) = r s

/-- The counter was set in the past, fewer than `n` counting steps ago, and not cleared since. -/
def Armed (step : σ → α → σ) (n : ℤ) (Arms Counts Clears : σ → α → Prop)
    [∀ s a, Decidable (Counts s a)] (s : σ) (as : List α) : Prop :=
  ∃ pre a post, as = pre ++ a :: post ∧ Arms (after step s pre) a ∧
    Along step (fun t b => ¬ Clears t b) (step (after step s pre) a) post ∧
    (stepsMeeting step Counts (step (after step s pre) a) post : ℤ) < n

namespace IsCountdown

variable {step : σ → α → σ} {r : σ → ℤ} {n : ℤ} {Arms Counts Clears : σ → α → Prop}
  [∀ s a, Decidable (Counts s a)]

/-- The counter never falls below zero. -/
theorem nonneg (h : IsCountdown step r n Arms Counts Clears) (hn : 0 < n) {s : σ} (hs : 0 ≤ r s)
    (as : List α) : 0 ≤ r (after step s as) := by
  refine invariant (I := fun s => 0 ≤ r s) (fun s a hs => ?_) hs as
  by_cases ha : Arms s a
  · rw [(h.arms s a hs ha).2]
    exact hn.le
  by_cases hcl : Clears s a
  · rw [h.clears s a hcl]
  by_cases hc : 0 < r s ∧ Counts s a
  · rw [h.counts s a hc.1 hc.2 hcl]
    omega
  · rw [h.rest s a ha hcl fun hpos hcount => hc ⟨hpos, hcount⟩]
    exact hs

/-- What is left `k` counting steps after the counter was set. -/
theorem left_of_armed (h : IsCountdown step r n Arms Counts Clears) {s : σ} (hs : r s = n)
    {as : List α} (has : Along step (fun t b => ¬ Clears t b) s as)
    (hk : (stepsMeeting step Counts s as : ℤ) < n) :
    r (after step s as) = n - stepsMeeting step Counts s as := by
  induction as using List.reverseRecOn with
  | nil => simp [stepsMeeting, hs]
  | append_singleton as a ih =>
    obtain ⟨hinit, hlast⟩ := along_snoc_iff.1 has
    rw [stepsMeeting_snoc] at hk ⊢
    rw [after_snoc]
    have hle : (stepsMeeting step Counts s as : ℤ) < n := by
      split_ifs at hk <;> push_cast at hk <;> omega
    have hleft := ih hinit hle
    have hpos : 0 < r (after step s as) := by omega
    by_cases hc : Counts (after step s as) a
    · rw [h.counts _ _ hpos hc hlast, hleft, if_pos hc]
      push_cast
      omega
    · have harm : ¬ Arms (after step s as) a := fun ha => by
        have := (h.arms _ _ hpos.le ha).1
        omega
      rw [h.rest _ _ harm hlast fun _ => hc, hleft, if_neg hc]
      simp

/-- The counter runs if and only if it is armed. -/
theorem pos_iff (h : IsCountdown step r n Arms Counts Clears) (hn : 0 < n) {s : σ} (hs : r s = 0)
    (as : List α) : 0 < r (after step s as) ↔ Armed step n Arms Counts Clears s as := by
  constructor
  · induction as using List.reverseRecOn with
    | nil =>
      intro hpos
      exact absurd hs (by simpa using hpos.ne')
    | append_singleton as a ih =>
      rw [after_snoc]
      intro hpos
      by_cases ha : Arms (after step s as) a
      · exact ⟨as, a, [], rfl, ha, along_nil, by simpa [stepsMeeting] using hn⟩
      have hcl : ¬ Clears (after step s as) a := fun hc => by
        rw [h.clears _ _ hc] at hpos
        exact absurd hpos (lt_irrefl 0)
      have hbefore : 0 < r (after step s as) := by
        by_contra hle
        rw [h.rest _ _ ha hcl fun hp => absurd hp hle] at hpos
        exact hle hpos
      obtain ⟨pre, b, post, rfl, hb, hpost, hk⟩ := ih hbefore
      refine ⟨pre, b, post ++ [a], by simp, hb, along_snoc_iff.2 ⟨hpost, ?_⟩, ?_⟩
      · rwa [after_append, after_cons] at hcl
      have hleft := h.left_of_armed (h.arms _ _ (h.nonneg hn hs.ge pre) hb).2 hpost hk
      rw [stepsMeeting_snoc]
      rw [after_append, after_cons] at hpos hbefore hcl
      split_ifs with hc
      · rw [h.counts _ _ hbefore hc hcl] at hpos
        push_cast
        omega
      · simpa using hk
  · rintro ⟨pre, a, post, rfl, ha, hpost, hk⟩
    have hset := (h.arms _ _ (h.nonneg hn hs.ge pre) ha).2
    rw [after_append, after_cons, h.left_of_armed hset hpost hk]
    omega

end IsCountdown

/-! ## The streak -/

/-- `r` counts up: a step that meets `Clears` sets it to zero, any other step that meets `Counts`
adds one, and nothing else changes it. -/
structure IsStreak (step : σ → α → σ) (r : σ → ℕ) (Counts Clears : σ → α → Prop) : Prop where
  clears : ∀ s a, Clears s a → r (step s a) = 0
  counts : ∀ s a, Counts s a → ¬ Clears s a → r (step s a) = r s + 1
  rest : ∀ s a, ¬ Counts s a → ¬ Clears s a → r (step s a) = r s

/-- The value of a streak is what the end of the run behind the last clearing has counted. -/
theorem IsStreak.exists_window {step : σ → α → σ} {r : σ → ℕ} {Counts Clears : σ → α → Prop}
    [∀ s a, Decidable (Counts s a)] (h : IsStreak step r Counts Clears) {s : σ} (hs : r s = 0)
    (as : List α) : ∃ pre mid, as = pre ++ mid ∧
      Along step (fun t b => ¬ Clears t b) (after step s pre) mid ∧
        stepsMeeting step Counts (after step s pre) mid = r (after step s as) := by
  induction as using List.reverseRecOn with
  | nil => exact ⟨[], [], rfl, along_nil, hs.symm⟩
  | append_singleton as a ih =>
    by_cases hclear : Clears (after step s as) a
    · refine ⟨as ++ [a], [], by simp, along_nil, ?_⟩
      rw [after_snoc, h.clears _ a hclear]
      rfl
    · obtain ⟨pre, mid, rfl, hmid, hcount⟩ := ih
      rw [after_append] at hclear hcount
      refine ⟨pre, mid ++ [a], by simp, along_snoc_iff.2 ⟨hmid, hclear⟩, ?_⟩
      rw [stepsMeeting_snoc, hcount, after_snoc, after_append]
      split_ifs with hc
      · exact (h.counts _ a hc hclear).symm
      · exact (h.rest _ a hc hclear).symm

end Run
