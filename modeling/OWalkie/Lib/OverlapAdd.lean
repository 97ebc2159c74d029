import Mathlib.Data.List.GetD
import Mathlib.Tactic

/-!
# Signals that are added at a delay

A list of samples as a signal that is zero behind its end (`ofList`), a signal that starts later
(`delay`), and the sum of signals that each start at their own position (`overlapAdd`).
-/

namespace OverlapAdd

variable {K : Type*} [AddCommMonoid K]

/-- The samples of a list, and zero behind them. -/
def ofList (ys : List K) (t : ℕ) : K := ys.getD t 0

/-- The signal `d` samples later. -/
def delay (d : ℕ) (x : ℕ → K) (t : ℕ) : K := if d ≤ t then x (t - d) else 0

/-- The sum of signals, each of which starts at its own position. -/
def overlapAdd (rs : List (ℕ × List K)) (t : ℕ) : K :=
  (rs.map fun r => delay r.1 (ofList r.2) t).sum

@[simp] theorem ofList_nil (t : ℕ) : ofList ([] : List K) t = 0 := rfl

theorem ofList_of_length_le {ys : List K} {t : ℕ} (h : ys.length ≤ t) : ofList ys t = 0 :=
  List.getD_eq_default _ _ h

theorem ofList_of_lt {ys : List K} {t : ℕ} (h : t < ys.length) : ofList ys t = ys[t] :=
  List.getD_eq_getElem _ _ h

theorem ofList_append_left {xs : List K} (ys : List K) {t : ℕ} (h : t < xs.length) :
    ofList (xs ++ ys) t = ofList xs t := List.getD_append _ _ _ _ h

theorem ofList_append_right {xs : List K} (ys : List K) {t : ℕ} (h : xs.length ≤ t) :
    ofList (xs ++ ys) t = ofList ys (t - xs.length) := List.getD_append_right _ _ _ _ h

theorem ofList_drop (ys : List K) (n t : ℕ) : ofList (ys.drop n) t = ofList ys (n + t) := by
  rw [ofList, ofList, List.getD_eq_getElem?_getD, List.getD_eq_getElem?_getD, List.getElem?_drop]

theorem delay_of_lt {d t : ℕ} (h : t < d) (x : ℕ → K) : delay d x t = 0 := if_neg (not_le.2 h)

theorem delay_of_le {d t : ℕ} (h : d ≤ t) (x : ℕ → K) : delay d x t = x (t - d) := if_pos h

/-- Both the signal and the time are counted from a later position. -/
theorem delay_add_add (n d t : ℕ) (x : ℕ → K) : delay (n + d) x (n + t) = delay d x t := by
  rw [delay, delay, Nat.add_sub_add_left]
  simp only [Nat.add_le_add_iff_left]

/-- The first sample, and the rest one sample later. -/
theorem delay_ofList_cons (d : ℕ) (y : K) (ys : List K) (t : ℕ) : delay d (ofList (y :: ys)) t =
    (if t = d then y else 0) + delay (d + 1) (ofList ys) t := by
  rcases lt_trichotomy t d with hlt | rfl | hlt
  · rw [delay_of_lt hlt, delay_of_lt (by omega), if_neg hlt.ne, add_zero]
  · rw [delay_of_le le_rfl, delay_of_lt (by omega), if_pos rfl, add_zero, Nat.sub_self]
    rfl
  · rw [delay_of_le hlt.le, delay_of_le hlt, if_neg hlt.ne', zero_add,
      show t - d = t - (d + 1) + 1 by omega]
    rfl

/-- A signal that has ended. -/
theorem delay_ofList_of_length_le {d t : ℕ} {ys : List K} (h : d + ys.length ≤ t) :
    delay d (ofList ys) t = 0 := by
  rw [delay_of_le (by omega), ofList_of_length_le (by omega)]

theorem delay_ofList_nil (d t : ℕ) : delay d (ofList ([] : List K)) t = 0 := by
  rw [delay]
  split <;> rfl

/-- More on one sample of a list. -/
theorem ofList_modify_add {xs : List K} {i : ℕ} (hi : i < xs.length) (y : K) (t : ℕ) :
    ofList (xs.modify i fun z => z + y) t = ofList xs t + if t = i then y else 0 := by
  rw [ofList, ofList, List.getD_eq_getElem?_getD, List.getD_eq_getElem?_getD, List.getElem?_modify]
  by_cases heq : i = t
  · subst heq
    simp [List.getElem?_eq_getElem hi]
  · simp [heq, Ne.symm heq]

@[simp] theorem overlapAdd_nil (t : ℕ) : overlapAdd ([] : List (ℕ × List K)) t = 0 := rfl

theorem overlapAdd_append (rs rs' : List (ℕ × List K)) (t : ℕ) :
    overlapAdd (rs ++ rs') t = overlapAdd rs t + overlapAdd rs' t := by
  rw [overlapAdd, List.map_append, List.sum_append]
  rfl

theorem overlapAdd_singleton (d : ℕ) (ys : List K) (t : ℕ) :
    overlapAdd [(d, ys)] t = delay d (ofList ys) t := add_zero _

/-- Signals that start later, at a later time. -/
theorem overlapAdd_map_add (n : ℕ) (rs : List (ℕ × List K)) (t : ℕ) :
    overlapAdd (rs.map fun r => (n + r.1, r.2)) (n + t) = overlapAdd rs t := by
  induction rs with
  | nil => rfl
  | cons r rs ih =>
    show delay (n + r.1) (ofList r.2) (n + t) + overlapAdd _ (n + t) = _
    rw [ih, delay_add_add]
    rfl

/-- Signals that start later, before they do. -/
theorem overlapAdd_map_add_of_lt {n t : ℕ} (h : t < n) (rs : List (ℕ × List K)) :
    overlapAdd (rs.map fun r => (n + r.1, r.2)) t = 0 := by
  induction rs with
  | nil => rfl
  | cons r rs ih =>
    show delay (n + r.1) (ofList r.2) t + overlapAdd _ t = 0
    rw [ih, delay_of_lt (by omega), add_zero]

end OverlapAdd
