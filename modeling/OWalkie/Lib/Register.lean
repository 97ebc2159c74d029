import Mathlib.Order.Basic
import OWalkie.Lib.Run

/-!
# Registers

A part of the state of a machine that some steps write and every other step leaves alone
(`IsRegister`).  After a run it holds what the run wrote last (`IsRegister.after`); the value of one
write is still there if and only if the last write after it was of the same value
(`IsRegister.eq_iff`).  A register of the time of the last event tells whether there was an event
at `t` or later (`IsRegister.recent_iff`).
-/

namespace Run

variable {σ α β : Type*} {step : σ → α → σ}

/-- `write` gives the value that a step writes to the register `get`. -/
def IsRegister (step : σ → α → σ) (get : σ → Option β) (write : σ → α → Option β) : Prop :=
  ∀ s a, get (step s a) = (write s a).or (get s)

variable (step) in
/-- The value that a run writes last. -/
def lastWrite (write : σ → α → Option β) : σ → List α → Option β
  | _, [] => none
  | s, a :: as => (lastWrite write (step s a) as).or (write s a)

variable {get : σ → Option β} {write write' : σ → α → Option β} {s : σ}

/-- Two ways to write that agree along the run write the same last. -/
theorem lastWrite_congr {as : List α} (h : Along step (fun t a => write t a = write' t a) s as) :
    lastWrite step write s as = lastWrite step write' s as := by
  induction as generalizing s with
  | nil => rfl
  | cons a as ih => rw [lastWrite, lastWrite, ih h.tail, h.head]

/-- Writes that do not look at the state. -/
theorem lastWrite_of_action (w : α → Option β) (s : σ) (as : List α) :
    lastWrite step (fun _ a => w a) s as = as.reverse.findSome? w := by
  induction as generalizing s with
  | nil => rfl
  | cons a as ih =>
    rw [lastWrite, ih, List.reverse_cons, List.findSome?_append, List.findSome?_singleton]

theorem IsRegister.after (h : IsRegister step get write) (s : σ) (as : List α) :
    get (after step s as) = (lastWrite step write s as).or (get s) := by
  induction as generalizing s with
  | nil => rfl
  | cons a as ih => rw [after_cons, ih, h, lastWrite, Option.or_assoc]

theorem IsRegister.eq_iff (h : IsRegister step get write) {a : α} {v : β}
    (hv : write s a = some v) (as : List α) :
    get (Run.after step s (a :: as)) = some v ↔
      ∀ w ∈ lastWrite step write (step s a) as, w = v := by
  rw [after_cons, h.after, h, hv]
  cases lastWrite step write (step s a) as <;> simp

/-- The time of the last event is `t` or later if and only if that of some event is. -/
theorem IsRegister.recent_iff [Preorder β] {clock : σ → β} {E : σ → α → Prop}
    [∀ s a, Decidable (E s a)]
    (h : IsRegister step get fun s a => if E s a then some (clock s) else none)
    (mono : ∀ s a, clock s ≤ clock (step s a)) (hnone : get s = none) (as : List α) (t : β) :
    (∃ u ∈ get (Run.after step s as), t ≤ u) ↔
      ∃ pre a post, as = pre ++ a :: post ∧ E (Run.after step s pre) a ∧
        t ≤ clock (Run.after step s pre) := by
  have hsince : ∀ as, (∃ pre a post, as = pre ++ a :: post ∧ E (Run.after step s pre) a ∧
      t ≤ clock (Run.after step s pre)) ↔
        Since step (fun s a => E s a ∧ t ≤ clock s) (fun _ _ => False) s as := by
    simp [Since, Along]
  rw [hsince]
  induction as using List.reverseRecOn with
  | nil => simp [hnone, not_since_nil]
  | append_singleton as a ih =>
    rw [after_snoc, h, since_snoc_iff]
    by_cases hE : E (Run.after step s as) a
    · have hle : Since step (fun s a => E s a ∧ t ≤ clock s) (fun _ _ => False) s as →
          t ≤ clock (Run.after step s as) := fun hsome =>
        hsome.holds (I := fun _ => True) (J := fun s => t ≤ clock s) (fun _ _ _ => trivial)
          (fun s a _ hE => hE.2.trans (mono s a)) (fun s a _ ht _ => ht.trans (mono s a)) trivial
      simp only [hE, if_true, Option.some_or, Option.mem_some_iff, exists_eq_left', true_and,
        not_false_iff, and_true]
      exact ⟨Or.inl, fun hor => hor.elim id hle⟩
    · simp only [hE, if_false, Option.none_or, false_and, false_or, not_false_iff, and_true, ih]

end Run
