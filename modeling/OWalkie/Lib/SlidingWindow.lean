import Mathlib.Tactic

/-!
# Sliding windows

A list of times in order, from which every new entry drops the ones before its cutoff at the front
(`push`).  It always holds exactly the entries since the cutoff of the last one (`foldl_push`); how
many these are at most follows from the gaps between the entries (`length_filter_le`).
-/

namespace SlidingWindow

section order

variable {α : Type*} [LinearOrder α] {cutoff : α → α}

/-- The new entry `t` comes in, and those before its cutoff go. -/
def push (cutoff : α → α) (w : List α) (t : α) : List α := w.dropWhile (· < cutoff t) ++ [t]

/-- In a list in order, what is dropped at the front is all there is to drop. -/
theorem dropWhile_lt {w : List α} (h : w.Pairwise (· ≤ ·)) (c : α) :
    w.dropWhile (· < c) = w.filter (c ≤ ·) := by
  induction w with
  | nil => rfl
  | cons x w ih =>
    obtain ⟨hx, hw⟩ := List.pairwise_cons.1 h
    by_cases hlt : x < c
    · rw [List.dropWhile_cons_of_pos (by simpa using hlt),
        List.filter_cons_of_neg (by simpa using hlt), ih hw]
    · have hall : ∀ y ∈ x :: w, decide (c ≤ y) = true := by
        intro y hy
        rcases List.mem_cons.1 hy with rfl | hy
        · simpa using hlt
        · simpa using (not_lt.1 hlt).trans (hx y hy)
      rw [List.dropWhile_cons_of_neg (by simpa using hlt), List.filter_eq_self.2 hall]

/-- The window after a run of entries. -/
theorem foldl_push (mono : Monotone cutoff) (le : ∀ t, cutoff t ≤ t) {ts : List α} {t : α}
    (h : (ts ++ [t]).Pairwise (· ≤ ·)) :
    (ts ++ [t]).foldl (push cutoff) [] = (ts ++ [t]).filter (cutoff t ≤ ·) := by
  induction ts using List.reverseRecOn generalizing t with
  | nil => simp [push, le t]
  | append_singleton us u ih =>
    obtain ⟨hsorted, -, hlast⟩ := List.pairwise_append.1 h
    have hut : u ≤ t := hlast u (by simp) t (by simp)
    have hall : ∀ x, (decide (cutoff t ≤ x) && decide (cutoff u ≤ x)) = decide (cutoff t ≤ x) := by
      intro x
      have himp : cutoff t ≤ x → cutoff u ≤ x := (mono hut).trans
      by_cases hx : cutoff t ≤ x <;> simp [hx, himp]
    rw [List.foldl_append, ih hsorted]
    show push cutoff _ t = _
    rw [push, dropWhile_lt (hsorted.sublist List.filter_sublist), List.filter_filter,
      List.filter_append, List.filter_append]
    simp [hall, le t]

end order

/-! ## How many entries a window holds -/

section gaps

variable {α : Type*} [AddCommGroup α] [LinearOrder α] [IsOrderedAddMonoid α]

/-- Between the entries at `i` and `i + m` lie the gaps from `i` on. -/
theorem sum_gaps_le {ts : List α} {gap : ℕ → α}
    (hgap : ∀ i (hi : i + 1 < ts.length), ts[i] + gap i ≤ ts[i + 1]) (i m : ℕ)
    (hm : i + m < ts.length) : ts[i] + ∑ j ∈ Finset.range m, gap (i + j) ≤ ts[i + m] := by
  induction m with
  | zero => simp
  | succ m ih =>
    rw [Finset.sum_range_succ, ← add_assoc]
    exact (add_le_add_left (ih (by omega)) _).trans (hgap (i + m) hm)

theorem sorted_of_gaps {ts : List α} {gap : ℕ → α} (hpos : ∀ i, 0 ≤ gap i)
    (hgap : ∀ i (hi : i + 1 < ts.length), ts[i] + gap i ≤ ts[i + 1]) :
    ts.Pairwise (· ≤ ·) := by
  rw [List.pairwise_iff_getElem]
  intro i j hi hj hij
  obtain ⟨m, rfl⟩ := Nat.exists_eq_add_of_lt hij
  have hsum := sum_gaps_le hgap i (m + 1) (by omega)
  have hnonneg : 0 ≤ ∑ j ∈ Finset.range (m + 1), gap (i + j) :=
    Finset.sum_nonneg fun j _ => hpos (i + j)
  exact (le_add_of_nonneg_right hnonneg).trans hsum

/-- When `m` gaps are longer than the window, it never holds more than `m` entries. -/
theorem length_filter_le {ts : List α} {gap : ℕ → α} (mono : Monotone gap)
    (hpos : ∀ i, 0 ≤ gap i) (hgap : ∀ i (hi : i + 1 < ts.length), ts[i] + gap i ≤ ts[i + 1])
    {width : α} {m : ℕ} (hm : width < ∑ j ∈ Finset.range m, gap j) (hne : ts ≠ []) :
    (ts.filter (ts.getLast hne - width ≤ ·)).length ≤ m := by
  by_contra hlong
  have hdrop := dropWhile_lt (sorted_of_gaps hpos hgap) (ts.getLast hne - width)
  have hsplit := List.takeWhile_append_dropWhile (p := (· < ts.getLast hne - width)) (l := ts)
  rw [hdrop] at hsplit
  have hlen := congrArg List.length hsplit
  rw [List.length_append] at hlen
  -- the entry `m` places before the last one is still in the window
  have hi : ts.length - 1 - m < ts.length := by omega
  have hmem : ts.getLast hne - width ≤ ts[ts.length - 1 - m] := by
    have hget : ts[ts.length - 1 - m] ∈ ts.filter (ts.getLast hne - width ≤ ·) := by
      rw [List.getElem_of_eq hsplit.symm hi, List.getElem_append_right (by omega)]
      exact List.getElem_mem _
    simpa using (List.mem_filter.1 hget).2
  have hsum := sum_gaps_le hgap (ts.length - 1 - m) m (by omega)
  have hlast : ts[ts.length - 1 - m + m] = ts.getLast hne := by
    rw [List.getLast_eq_getElem]
    congr 1
    omega
  have hshift : ∑ j ∈ Finset.range m, gap j ≤
      ∑ j ∈ Finset.range m, gap (ts.length - 1 - m + j) :=
    Finset.sum_le_sum fun j _ => mono (Nat.le_add_left j _)
  rw [hlast] at hsum
  have hfar : ts[ts.length - 1 - m] + width < ts.getLast hne :=
    (add_lt_add_right (hm.trans_le hshift) _).trans_le hsum
  exact absurd hmem (not_le.2 (lt_sub_iff_add_lt.2 hfar))

end gaps

end SlidingWindow
