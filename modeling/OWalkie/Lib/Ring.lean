import Mathlib.Data.List.DropRight
import Mathlib.Data.List.Rotate
import Mathlib.Tactic

/-!
# Circular buffers

`Holds buf rd xs` says that the cells of `buf` from `rd` on, read around the end, start with `xs`.
Writing the cell behind them appends (`Holds.push`), moving the read position removes from the front
(`Holds.drop`), and overwriting the oldest cell of a full buffer does both (`Holds.slide`).
-/

variable {α : Type*}

/-- Read from `rd` around the end, the buffer starts with `xs`. -/
def Holds (buf : List α) (rd : ℕ) (xs : List α) : Prop := xs <+: buf.rotate rd

/-! ### The last entries of a list -/

theorem length_rtake (xs : List α) (n : ℕ) : (xs.rtake n).length = min n xs.length := by
  rw [List.rtake, List.length_drop]
  omega

theorem rtake_of_length_le {xs : List α} {n : ℕ} (h : xs.length ≤ n) : xs.rtake n = xs := by
  rw [List.rtake, Nat.sub_eq_zero_of_le h, List.drop_zero]

/-- What has gone in front does not come back. -/
theorem rtake_rtake_append (xs ys : List α) (n : ℕ) :
    (xs.rtake n ++ ys).rtake n = (xs ++ ys).rtake n := by
  rw [List.rtake, List.length_append, length_rtake, List.rtake, List.rtake, List.length_append,
    ← List.drop_append_of_le_length (Nat.sub_le _ _), List.drop_drop]
  congr 1
  omega

/-- One more entry: the oldest one goes if there were `n`. -/
theorem rtake_snoc {n : ℕ} (hn : 0 < n) (xs : List α) (x : α) : (xs ++ [x]).rtake n =
    (if (xs.rtake n).length = n then (xs.rtake n).tail else xs.rtake n) ++ [x] := by
  obtain ⟨m, rfl⟩ := Nat.exists_eq_add_of_lt hn
  rw [Nat.zero_add, List.rtake_concat_succ, length_rtake, List.rtake, List.rtake]
  split
  · rw [List.tail_drop]
    congr 2
    omega
  · rw [Nat.sub_eq_zero_of_le (by omega), Nat.sub_eq_zero_of_le (by omega)]

/-! ### Positions -/

theorem wrap_of_lt {n r u : ℕ} (h : r % n + u < n) :
    (r + u) / n = r / n ∧ (r + u) % n = r % n + u := by
  have hdiv := Nat.mod_add_div r n
  exact (Nat.div_mod_unique (by omega)).2 ⟨by omega, h⟩

theorem wrap_of_le {n r u : ℕ} (h : n ≤ r % n + u) (hlt : r % n + u < 2 * n) :
    (r + u) / n = r / n + 1 ∧ (r + u) % n = r % n + u - n := by
  have hdiv := Nat.mod_add_div r n
  have hsucc : n * (r / n + 1) = n * (r / n) + n := Nat.mul_succ n (r / n)
  exact (Nat.div_mod_unique (by omega)).2 ⟨by omega, by omega⟩

namespace Holds

variable {buf xs ys : List α} {rd : ℕ}

theorem length_le (h : Holds buf rd xs) : xs.length ≤ buf.length :=
  (List.IsPrefix.length_le h).trans (List.length_rotate buf rd).le

theorem nil (buf : List α) (rd : ℕ) : Holds buf rd [] := List.nil_prefix

theorem mod_iff : Holds buf (rd % buf.length) xs ↔ Holds buf rd xs := by
  rw [Holds, List.rotate_mod, Holds]

/-- The `i`-th entry from the read position on. -/
theorem getElem? (h : Holds buf rd xs) {i : ℕ} (hi : i < xs.length) :
    buf[(rd + i) % buf.length]? = xs[i]? := by
  have hpos : 0 < buf.length := (Nat.zero_le i).trans_lt (hi.trans_le h.length_le)
  rw [List.getElem?_eq_getElem (Nat.mod_lt _ hpos), List.getElem?_eq_getElem hi,
    List.IsPrefix.getElem h hi, List.getElem_rotate]
  congr 2
  rw [Nat.add_comm]

/-- Writing a cell, as seen from the read position. -/
theorem rotate_set (buf : List α) (rd : ℕ) {k : ℕ} (hk : k < buf.length) (x : α) :
    (buf.set ((rd + k) % buf.length) x).rotate rd = (buf.rotate rd).set k x := by
  apply List.ext_getElem
  · simp
  · intro i hi hi'
    rw [List.length_rotate, List.length_set] at hi
    rw [List.getElem_rotate, List.getElem_set, List.getElem_set, List.getElem_rotate]
    simp only [List.length_set]
    have hiff : (rd + k) % buf.length = (i + rd) % buf.length ↔ k = i := by
      rw [Nat.add_comm i rd]
      refine ⟨fun heq => ?_, fun heq => by rw [heq]⟩
      have := Nat.ModEq.add_left_cancel' rd heq
      rwa [Nat.ModEq, Nat.mod_eq_of_lt hk, Nat.mod_eq_of_lt hi] at this
    split_ifs with h₁ h₂ h₂
    · rfl
    · exact absurd (hiff.1 h₁) h₂
    · exact absurd (hiff.2 h₂) h₁
    · rfl

/-- Writing the first cell behind the entries appends to them. -/
theorem push (h : Holds buf rd xs) (hlt : xs.length < buf.length) (x : α) :
    Holds (buf.set ((rd + xs.length) % buf.length) x) rd (xs ++ [x]) := by
  obtain ⟨rest, hrest⟩ := h
  rw [Holds, rotate_set buf rd hlt, ← hrest, List.set_append_right _ _ le_rfl, Nat.sub_self]
  cases rest with
  | nil =>
    have := congrArg List.length hrest
    rw [List.append_nil, List.length_rotate] at this
    omega
  | cons y rest => exact ⟨rest, by simp⟩

/-- Moving the read position forward removes from the front. -/
theorem drop (h : Holds buf rd (xs ++ ys)) : Holds buf (rd + xs.length) ys := by
  obtain ⟨rest, hrest⟩ := h
  rw [Holds, ← List.rotate_rotate, ← hrest, List.append_assoc, List.rotate_append_length_eq,
    List.append_assoc]
  exact List.prefix_append ys _

theorem tail {x : α} (h : Holds buf rd (x :: xs)) : Holds buf (rd + 1) xs := by
  have hsplit : Holds buf rd ([x] ++ xs) := h
  exact hsplit.drop

/-- In a full buffer, writing the oldest cell removes it from the front and appends. -/
theorem slide {y : α} (h : Holds buf rd (y :: xs)) (hfull : xs.length + 1 = buf.length) (x : α) :
    Holds (buf.set (rd % buf.length) x) (rd + 1) (xs ++ [x]) := by
  have hpush := h.tail.push (by omega) x
  have hcell : (rd + 1 + xs.length) % buf.length = rd % buf.length := by
    rw [show rd + 1 + xs.length = rd + buf.length by omega, Nat.add_mod_right]
  rwa [hcell] at hpush

/-- A full buffer holds all its cells. -/
theorem eq_rotate (h : Holds buf rd xs) (hfull : xs.length = buf.length) : xs = buf.rotate rd :=
  List.IsPrefix.eq_of_length h (hfull.trans (List.length_rotate buf rd).symm)

end Holds
