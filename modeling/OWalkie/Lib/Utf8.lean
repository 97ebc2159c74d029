import OWalkie.Lib.Search

/-!
# UTF-8

The bytes of a text.  The bytes of a character outside ASCII are all outside ASCII, so that looking
for an ASCII pattern in the bytes is looking for it in the text (`search_utf8`).
-/

namespace OWalkie

namespace Text

def utf8 (s : List Char) : List UInt8 := s.flatMap String.utf8EncodeChar

@[simp] theorem utf8_append (s t : List Char) : utf8 (s ++ t) = utf8 s ++ utf8 t :=
  List.flatMap_append

theorem utf8_cons (c : Char) (s : List Char) :
    utf8 (c :: s) = String.utf8EncodeChar c ++ utf8 s := rfl

theorem utf8EncodeChar_of_ascii {c : Char} (h : c.toNat < 128) :
    String.utf8EncodeChar c = [UInt8.ofNat c.toNat] := by
  have hle : c.val.toNat ≤ 127 := Nat.le_of_lt_succ h
  rw [String.utf8EncodeChar]
  exact if_pos hle

theorem utf8EncodeChar_of_not_ascii {c : Char} (h : 128 ≤ c.toNat) {b : UInt8}
    (hb : b ∈ String.utf8EncodeChar c) : 128 ≤ b.toNat := by
  have hbyte : ∀ n : ℕ, 128 ≤ n → n < 256 → 128 ≤ (UInt8.ofNat n).toNat := by
    intro n hlo hhi
    rw [UInt8.toNat_ofNat', Nat.mod_eq_of_lt hhi]
    exact hlo
  have hgt : ¬ c.val.toNat ≤ 127 := not_le.2 h
  rw [String.utf8EncodeChar] at hb
  simp only [if_neg hgt] at hb
  split_ifs at hb <;> simp only [List.mem_cons, List.not_mem_nil, or_false] at hb
  · rcases hb with rfl | rfl <;> exact hbyte _ (by omega) (by omega)
  · rcases hb with rfl | rfl | rfl <;> exact hbyte _ (by omega) (by omega)
  · rcases hb with rfl | rfl | rfl | rfl <;> exact hbyte _ (by omega) (by omega)

theorem ofNat_inj {m n : ℕ} (hm : m < 256) (hn : n < 256) (h : UInt8.ofNat m = UInt8.ofNat n) :
    m = n := by
  have := congrArg UInt8.toNat h
  rwa [UInt8.toNat_ofNat', UInt8.toNat_ofNat', Nat.mod_eq_of_lt hm, Nat.mod_eq_of_lt hn] at this

/-- The bytes of an ASCII text, one for each character. -/
theorem utf8_of_ascii {s : List Char} (h : ∀ c ∈ s, c.toNat < 128) :
    utf8 s = s.map fun c => UInt8.ofNat c.toNat := by
  induction s with
  | nil => rfl
  | cons c s ih =>
    rw [utf8_cons, utf8EncodeChar_of_ascii (h c List.mem_cons_self),
      ih fun d hd => h d (List.mem_cons_of_mem _ hd)]
    rfl

section ascii

variable {pat : List Char}

theorem startsWith_utf8 (hascii : ∀ c ∈ pat, c.toNat < 128) (s : List Char) :
    startsWith (· == ·) (utf8 pat) (utf8 s) = startsWith (· == ·) pat s := by
  induction pat generalizing s with
  | nil => cases s <;> rfl
  | cons p pat ih =>
    have hp := hascii p List.mem_cons_self
    have hrest := ih fun c hc => hascii c (List.mem_cons_of_mem _ hc)
    rw [utf8_cons, utf8EncodeChar_of_ascii hp]
    cases s with
    | nil => rfl
    | cons c s =>
      rw [utf8_cons]
      rcases Nat.lt_or_ge c.toNat 128 with hc | hc
      · rw [utf8EncodeChar_of_ascii hc, List.cons_append, List.nil_append, List.cons_append,
          List.nil_append, startsWith, startsWith, hrest]
        congr 1
        rw [Bool.eq_iff_iff, beq_iff_eq, beq_iff_eq]
        constructor
        · intro heq
          have hcode := ofNat_inj (by omega) (by omega) heq
          rw [← Char.ofNat_toNat p, hcode, Char.ofNat_toNat]
        · rintro rfl
          rfl
      · have hne : (p == c) = false := by
          rw [beq_eq_false_iff_ne]
          rintro rfl
          omega
        obtain ⟨b, bs, hbs⟩ := List.exists_cons_of_ne_nil (String.utf8EncodeChar_ne_nil (c := c))
        have hb := utf8EncodeChar_of_not_ascii hc (b := b) (by rw [hbs]; exact List.mem_cons_self)
        have hneb : (UInt8.ofNat p.toNat == b) = false := by
          rw [beq_eq_false_iff_ne]
          rintro rfl
          rw [UInt8.toNat_ofNat', Nat.mod_eq_of_lt (by omega)] at hb
          omega
        rw [hbs, List.cons_append, List.nil_append, List.cons_append, startsWith, startsWith, hneb,
          hne, Bool.false_and, Bool.false_and]

/-- Characters that cannot begin an occurrence are passed over. -/
theorem search_append_of_forall {α : Type} {same : α → α → Bool} {pat s : List α}
    (h : ∀ c ∈ s, ∀ t, startsWith same pat (c :: t) = false) (t : List α) :
    search same pat (s ++ t) = search same pat t := by
  induction s with
  | nil => rfl
  | cons c s ih =>
    rw [List.cons_append, search, if_neg (by rw [h c List.mem_cons_self]; simp),
      ih fun d hd => h d (List.mem_cons_of_mem _ hd)]

theorem search_utf8 (hascii : ∀ c ∈ pat, c.toNat < 128) (hne : pat ≠ []) (s : List Char) :
    search (· == ·) (utf8 pat) (utf8 s) = (search (· == ·) pat s).map utf8 := by
  obtain ⟨p, pat', rfl⟩ := List.exists_cons_of_ne_nil hne
  have hp := hascii p List.mem_cons_self
  induction s with
  | nil =>
    rw [utf8_cons, utf8EncodeChar_of_ascii hp]
    rfl
  | cons c s ih =>
    have hstarts := startsWith_utf8 hascii (c :: s)
    by_cases hst : startsWith (· == ·) (p :: pat') (c :: s) = true
    · rw [search_of_startsWith hst, search_of_startsWith (hstarts.trans hst), Option.map_some]
    · rw [search, if_neg hst, ← ih, utf8_cons c s]
      rcases Nat.lt_or_ge c.toNat 128 with hc | hc
      · rw [utf8_cons c s, utf8EncodeChar_of_ascii hc] at hstarts
        rw [utf8EncodeChar_of_ascii hc, List.cons_append, search, if_neg]
        · rfl
        · rw [← List.cons_append, hstarts]
          exact hst
      · apply search_append_of_forall
        intro b hb t
        have hlarge := utf8EncodeChar_of_not_ascii hc hb
        have hneb : (UInt8.ofNat p.toNat == b) = false := by
          rw [beq_eq_false_iff_ne]
          rintro rfl
          rw [UInt8.toNat_ofNat', Nat.mod_eq_of_lt (by omega)] at hlarge
          omega
        rw [utf8_cons, utf8EncodeChar_of_ascii hp, List.cons_append, startsWith, hneb,
          Bool.false_and]

end ascii

end Text

end OWalkie
