import Mathlib.Data.List.DropRight
import Mathlib.Tactic

/-!
# Text

Trimming, and the numbers that a text spells out.  A text is a list of characters; which characters
are blank and which are digits is a parameter, since the standard libraries differ in both.
-/

namespace OWalkie

namespace Text

/-- The text without the characters of `p` at either end. -/
def trim (p : Char → Bool) (s : List Char) : List Char := (s.dropWhile p).rdropWhile p

/-- The text after the last `c`; the whole text when there is none. -/
def afterLast (c : Char) (s : List Char) : List Char := s.rtakeWhile (· ≠ c)

/-- The value of an ASCII digit. -/
def asciiDigit (c : Char) : Option ℕ :=
  if '0' ≤ c ∧ c ≤ '9' then some (c.toNat - '0'.toNat) else none

theorem isDigit_bounds {c : Char} (h : c.isDigit = true) : 48 ≤ c.toNat ∧ c.toNat ≤ 57 := by
  simp only [Char.isDigit, Bool.and_eq_true, decide_eq_true_eq] at h
  exact h

/-- An optional sign, and what follows it. -/
def sign : List Char → ℤ × List Char
  | '-' :: s => (-1, s)
  | '+' :: s => (1, s)
  | s => (1, s)

/-- The number that the digits spell, unless one of them is none. -/
def natOf (digit : Char → Option ℕ) (ds : List Char) : Option ℕ :=
  ds.foldlM (fun n c => (digit c).map fun d => 10 * n + d) 0

/-- The number that the whole text spells: a sign, and at least one digit. -/
def intOf (digit : Char → Option ℕ) (s : List Char) : Option ℤ :=
  let (sgn, ds) := sign s
  if ds = [] then none else (natOf digit ds).map fun n => sgn * n

/-- The value, if it fits in a signed integer of `w` bits. -/
def fits (w : ℕ) (n : ℤ) : Option ℤ := if -2 ^ (w - 1) ≤ n ∧ n < 2 ^ (w - 1) then some n else none

theorem dropWhile_append {p : Char → Bool} {c : Char} {t : List Char} (hc : p c = false)
    (s : List Char) : (s ++ c :: t).dropWhile p = s.dropWhile p ++ c :: t := by
  rw [List.dropWhile_append]
  split_ifs with h
  · rw [List.isEmpty_iff.1 h, List.dropWhile_cons_of_neg (by simp [hc]), List.nil_append]
  · rfl

theorem rdropWhile_append {p : Char → Bool} {s t : List Char} (hs : s.rdropWhile p = s) :
    (s ++ t).rdropWhile p = s ++ t.rdropWhile p := by
  induction t using List.reverseRecOn with
  | nil => rw [List.append_nil, List.rdropWhile_nil, List.append_nil, hs]
  | append_singleton t c ih =>
    rw [← List.append_assoc, List.rdropWhile_concat, List.rdropWhile_concat]
    split_ifs
    · exact ih
    · rw [List.append_assoc]

/-- What is trimmed around a text that neither begins nor ends with a character of `p`. -/
theorem trim_append {p : Char → Bool} {m : List Char} (hne : m ≠ [])
    (hhead : ∀ c ∈ m.head?, p c = false) (hlast : ∀ c ∈ m.getLast?, p c = false)
    (s t : List Char) : trim p (s ++ (m ++ t)) = s.dropWhile p ++ (m ++ t.rdropWhile p) := by
  obtain ⟨c, m, rfl⟩ := List.exists_cons_of_ne_nil hne
  have hkeep : (s.dropWhile p ++ c :: m).rdropWhile p = s.dropWhile p ++ c :: m := by
    rw [List.rdropWhile_eq_self_iff]
    intro hall hend
    rw [List.getLast_append_of_ne_nil _ hne,
      hlast _ (List.getLast?_eq_some_getLast hne)] at hend
    cases hend
  rw [trim, List.cons_append, dropWhile_append (hhead c rfl), ← List.cons_append,
    ← List.append_assoc, rdropWhile_append hkeep, List.append_assoc]

theorem dropWhile_rdropWhile {p : Char → Bool} {s : List Char} (hs : s.dropWhile p = s) :
    (s.rdropWhile p).dropWhile p = s.rdropWhile p := by
  obtain ⟨t, ht⟩ := s.rdropWhile_prefix p
  generalize s.rdropWhile p = r at ht
  subst ht
  cases r with
  | nil => rfl
  | cons c r =>
    rw [List.dropWhile_eq_self_iff] at hs
    exact List.dropWhile_cons_of_neg (hs (by simp))

theorem trim_trim (p : Char → Bool) (s : List Char) : trim p (trim p s) = trim p s := by
  rw [trim, trim, dropWhile_rdropWhile (List.dropWhile_idempotent p s),
    List.rdropWhile_idempotent]

/-- Trimming before or after a map that keeps the trimmed characters apart. -/
theorem trim_map {p : Char → Bool} {f : Char → Char} (hf : ∀ c, p (f c) = p c) (s : List Char) :
    trim p (s.map f) = (trim p s).map f := by
  have hcomp : p ∘ f = p := funext hf
  simp only [trim, List.rdropWhile, List.dropWhile_map, ← List.map_reverse, hcomp]

end Text

end OWalkie
