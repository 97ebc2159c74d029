import OWalkie.Lib.Text

/-!
# Searching a text for a pattern

`search` returns the text from the first occurrence of the pattern.  Which characters count as the
same is a parameter.  In a text around a borderless pattern the search finds the pattern, unless the
text before it has an occurrence of its own (`search_append`).
-/

namespace OWalkie

namespace Text

section search

variable {α : Type} (same : α → α → Bool)

/-- The text begins with the pattern. -/
@[grind =]
def startsWith : List α → List α → Bool
  | [], _ => true
  | _ :: _, [] => false
  | p :: pat, c :: s => same p c && startsWith pat s

/-- The text from the first occurrence of the pattern. -/
@[grind =]
def search (pat : List α) : List α → Option (List α)
  | [] => if startsWith same pat [] then some [] else none
  | c :: s => if startsWith same pat (c :: s) then some (c :: s) else search pat s

/-- No proper end of the pattern is the beginning of an occurrence of it. -/
def Borderless (pat : List α) : Prop :=
  ∀ k < pat.length, 0 < k → startsWith same (pat.drop k) pat = false

variable {same} {pat s t : List α}

theorem startsWith_append_of_le (h : pat.length ≤ s.length) :
    startsWith same pat (s ++ t) = startsWith same pat s := by
  induction pat generalizing s with
  | nil => cases s <;> rfl
  | cons p pat ih =>
    cases s with
    | nil => simp at h
    | cons c s =>
      rw [List.cons_append, startsWith, startsWith, ih (Nat.le_of_succ_le_succ h)]

/-- A pattern that is longer than the text before `t` goes on in `t`. -/
theorem startsWith_append (h : s.length ≤ pat.length) (hst : startsWith same pat (s ++ t) = true) :
    startsWith same (pat.drop s.length) t = true := by
  induction s generalizing pat with
  | nil => exact hst
  | cons c s ih =>
    cases pat with
    | nil => simp at h
    | cons p pat =>
      rw [List.cons_append, startsWith, Bool.and_eq_true] at hst
      exact ih (Nat.le_of_succ_le_succ h) hst.2

theorem startsWith_self (hrefl : ∀ c ∈ pat, same c c = true) :
    startsWith same pat (pat ++ t) = true := by
  induction pat with
  | nil => rfl
  | cons p pat ih =>
    rw [List.cons_append, startsWith, hrefl p List.mem_cons_self,
      ih fun c hc => hrefl c (List.mem_cons_of_mem _ hc), Bool.and_true]

theorem search_of_startsWith (h : startsWith same pat s = true) : search same pat s = some s := by
  cases s with
  | nil => rw [search, if_pos h]
  | cons c s => rw [search, if_pos h]

theorem length_le_of_startsWith (h : startsWith same pat s = true) : pat.length ≤ s.length := by
  induction pat generalizing s with
  | nil => exact Nat.zero_le _
  | cons p pat ih =>
    cases s with
    | nil => cases h
    | cons c s =>
      rw [startsWith, Bool.and_eq_true] at h
      exact Nat.succ_le_succ (ih h.2)

theorem search_eq_some {u : List α} (h : search same pat s = some u) :
    u <:+ s ∧ startsWith same pat u = true := by
  induction s with
  | nil =>
    rw [search] at h
    split_ifs at h with hst
    obtain rfl := Option.some.inj h
    exact ⟨List.suffix_rfl, hst⟩
  | cons c s ih =>
    rw [search] at h
    split_ifs at h with hst
    · obtain rfl := Option.some.inj h
      exact ⟨List.suffix_rfl, hst⟩
    · exact ⟨(ih h).1.trans (List.suffix_cons c s), (ih h).2⟩

/-- A text with the pattern in it has an occurrence. -/
theorem search_isSome_append (hrefl : ∀ c ∈ pat, same c c = true) (s t : List α) :
    (search same pat (s ++ (pat ++ t))).isSome = true := by
  induction s with
  | nil =>
    rw [List.nil_append, search_of_startsWith (startsWith_self hrefl)]
    rfl
  | cons c s ih =>
    rw [List.cons_append, search]
    split_ifs
    · rfl
    · exact ih

/-- An occurrence in the text before is found first. -/
theorem search_append_of_some {u : List α} (h : search same pat s = some u) :
    search same pat (s ++ t) = some (u ++ t) := by
  induction s with
  | nil =>
    rw [search] at h
    split_ifs at h with hst
    obtain rfl := Option.some.inj h
    have hnil : pat = [] := List.length_eq_zero_iff.1 (Nat.le_zero.1 (length_le_of_startsWith hst))
    rw [hnil]
    exact search_of_startsWith (by cases t <;> rfl)
  | cons c s ih =>
    rw [search] at h
    split_ifs at h with hst
    · obtain rfl := Option.some.inj h
      apply search_of_startsWith
      rw [startsWith_append_of_le (length_le_of_startsWith hst), hst]
    · obtain ⟨hsuff, hu⟩ := search_eq_some h
      have hlen := (length_le_of_startsWith hu).trans hsuff.length_le
      rw [List.cons_append, search, if_neg, ih h]
      rw [← List.cons_append, startsWith_append_of_le (Nat.le_succ_of_le hlen)]
      exact hst

/-- A borderless pattern is found behind a text without an occurrence. -/
theorem search_append (hborder : Borderless same pat) (hrefl : ∀ c ∈ pat, same c c = true)
    (h : search same pat s = none) : search same pat (s ++ (pat ++ t)) = some (pat ++ t) := by
  induction s with
  | nil => exact search_of_startsWith (startsWith_self hrefl)
  | cons c s ih =>
    rw [search] at h
    split_ifs at h with hst
    rw [List.cons_append, search, if_neg, ih h]
    intro hearly
    rw [← List.cons_append] at hearly
    rcases Nat.lt_or_ge (c :: s).length pat.length with hlt | hge
    · -- the occurrence would reach into the pattern
      have hrest := startsWith_append hlt.le hearly
      rw [startsWith_append_of_le (by rw [List.length_drop]; omega)] at hrest
      rw [hborder _ hlt (Nat.succ_pos _)] at hrest
      cases hrest
    · rw [startsWith_append_of_le hge] at hearly
      exact hst hearly

/-- Characters that cannot begin an occurrence may be dropped from the beginning of the text. -/
theorem search_dropWhile {p : α → Bool} (h : ∀ c s, p c = true → startsWith same pat (c :: s) = false)
    (s : List α) : search same pat (s.dropWhile p) = search same pat s := by
  induction s with
  | nil => rfl
  | cons c s ih =>
    by_cases hc : p c = true
    · rw [List.dropWhile_cons_of_pos hc, ih, search, if_neg (by rw [h c s hc]; simp)]
    · rw [List.dropWhile_cons_of_neg hc]

end search

end Text

end OWalkie
