import Mathlib.Tactic

/-!
# A stream in blocks

`Blocks n fill xs blocks` says that `blocks` are `xs` cut into consecutive blocks of length `n`, the
last of which is filled up with `fill`.  There is only one such cut (`Blocks.unique`), and blocks
that are whole may be taken off in front (`Blocks.append_iff`).
-/

variable {α : Type*}

/-- The blocks of length `n` of the stream `xs`, the last one filled up with `fill`. -/
structure Blocks (n : ℕ) (fill : α) (xs : List α) (blocks : List (List α)) : Prop where
  whole : ∀ b ∈ blocks, b.length = n
  covers : ∃ k < n, blocks.flatten = xs ++ List.replicate k fill

namespace Blocks

variable {n : ℕ} {fill : α} {xs : List α} {blocks blocks' : List (List α)}

theorem length_flatten (h : ∀ b ∈ blocks, b.length = n) :
    blocks.flatten.length = blocks.length * n := by
  rw [List.length_flatten, List.map_congr_left h, List.map_const', List.sum_replicate, smul_eq_mul]

theorem nil (hn : 0 < n) (fill : α) : Blocks n fill [] [] :=
  ⟨fun _ hb => absurd hb List.not_mem_nil, 0, hn, rfl⟩

/-- A last block. -/
theorem single (hne : xs ≠ []) (hle : xs.length ≤ n) (fill : α) :
    Blocks n fill xs [xs ++ List.replicate (n - xs.length) fill] := by
  have hpos := List.length_pos_iff.2 hne
  refine ⟨fun b hb => ?_, n - xs.length, by omega, List.append_nil _⟩
  rw [List.mem_singleton.1 hb, List.length_append, List.length_replicate]
  omega

theorem append_iff {front : List (List α)} (hfront : ∀ b ∈ front, b.length = n) :
    Blocks n fill (front.flatten ++ xs) (front ++ blocks) ↔ Blocks n fill xs blocks := by
  constructor
  · rintro ⟨hwhole, k, hk, hcovers⟩
    refine ⟨fun b hb => hwhole b (List.mem_append_right _ hb), k, hk, ?_⟩
    rw [List.flatten_append, List.append_assoc] at hcovers
    exact List.append_cancel_left hcovers
  · rintro ⟨hwhole, k, hk, hcovers⟩
    refine ⟨fun b hb => ?_, k, hk, ?_⟩
    · rcases List.mem_append.1 hb with hb | hb
      · exact hfront b hb
      · exact hwhole b hb
    · rw [List.flatten_append, hcovers, List.append_assoc]

theorem length_le (h : Blocks n fill xs blocks) : xs.length ≤ blocks.flatten.length := by
  obtain ⟨k, -, hcovers⟩ := h.covers
  rw [hcovers, List.length_append]
  omega

/-- Lists of blocks of one length are told apart by what they contain. -/
theorem eq_of_flatten (hn : 0 < n) (h : ∀ b ∈ blocks, b.length = n)
    (h' : ∀ b ∈ blocks', b.length = n) (heq : blocks.flatten = blocks'.flatten) :
    blocks = blocks' := by
  have hlen : blocks.length = blocks'.length := by
    have := congrArg List.length heq
    rw [length_flatten h, length_flatten h'] at this
    exact Nat.eq_of_mul_eq_mul_right hn this
  induction blocks generalizing blocks' with
  | nil => exact (List.length_eq_zero_iff.1 hlen.symm).symm
  | cons b blocks ih =>
    cases blocks' with
    | nil => cases hlen
    | cons b' blocks' =>
      have hb := h b List.mem_cons_self
      have hb' := h' b' List.mem_cons_self
      rw [List.flatten_cons, List.flatten_cons] at heq
      obtain ⟨rfl, hrest⟩ := List.append_inj heq (hb.trans hb'.symm)
      rw [ih (fun c hc => h c (List.mem_cons_of_mem _ hc))
        (fun c hc => h' c (List.mem_cons_of_mem _ hc)) hrest (Nat.succ.inj hlen)]

/-- There is only one way to cut a stream into blocks. -/
theorem unique (h : Blocks n fill xs blocks) (h' : Blocks n fill xs blocks') : blocks = blocks' := by
  obtain ⟨hwhole, k, hk, hcovers⟩ := h
  obtain ⟨hwhole', k', hk', hcovers'⟩ := h'
  have hlen := congrArg List.length hcovers
  have hlen' := congrArg List.length hcovers'
  rw [length_flatten hwhole, List.length_append, List.length_replicate] at hlen
  rw [length_flatten hwhole', List.length_append, List.length_replicate] at hlen'
  have hmod : (xs.length + k) % n = (xs.length + k') % n := by
    rw [← hlen, ← hlen', Nat.mul_mod_left, Nat.mul_mod_left]
  have hkk : k = k' := by
    have := Nat.ModEq.add_left_cancel' xs.length hmod
    rwa [Nat.ModEq, Nat.mod_eq_of_lt hk, Nat.mod_eq_of_lt hk'] at this
  refine eq_of_flatten (by omega) hwhole hwhole' ?_
  rw [hcovers, hcovers', hkk]

end Blocks
