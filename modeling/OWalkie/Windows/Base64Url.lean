import Mathlib.Data.List.DropRight
import OWalkie.Lib.Base64

/-!
# The base64 codec of the Windows client

`Base64UrlEncode` writes standard base64, replaces two characters and cuts the padding off;
`Base64UrlDecode` undoes this in the other order.  The bits that the code shifts and masks are
divisions and remainders (`sextet_eq`), so that encoding is `Base64.encodeUrl` and decoding takes
the groups of four back to bytes.
-/

namespace OWalkie

namespace Windows

def kTable : List UInt8 := Base64.alphabet

def pad : UInt8 := '='.toUInt8

/-- `kTable[(n >> k) & 0x3F]`. -/
def sextet (n k : ℕ) : UInt8 := kTable.getD ((n >>> k) &&& 0x3F) 0

/-- The groups of three bytes, and what remains of one or two. -/
def encodeGroups : List UInt8 → List UInt8
  | a :: b :: c :: rest =>
    let n := a.toNat <<< 16 ||| b.toNat <<< 8 ||| c.toNat
    sextet n 18 :: sextet n 12 :: sextet n 6 :: sextet n 0 :: encodeGroups rest
  | [a, b] =>
    let n := a.toNat <<< 16 ||| b.toNat <<< 8
    [sextet n 18, sextet n 12, sextet n 6, pad]
  | [a] =>
    let n := a.toNat <<< 16
    [sextet n 18, sextet n 12, pad, pad]
  | [] => []

def toUrl (c : UInt8) : UInt8 :=
  if c = '+'.toUInt8 then '-'.toUInt8 else if c = '/'.toUInt8 then '_'.toUInt8 else c

def Base64UrlEncode (data : List UInt8) : List UInt8 :=
  ((encodeGroups data).map toUrl).rdropWhile (· = pad)

def fromUrl (c : UInt8) : UInt8 :=
  if c = '-'.toUInt8 then '+'.toUInt8 else if c = '_'.toUInt8 then '/'.toUInt8 else c

/-- `map[c]`; `none` is `-1`. -/
def charValue (c : UInt8) : Option ℕ := kTable.idxOf? c

/-- `map[c]`, or `0` for the padding. -/
def charOrPad (c : UInt8) : Option ℕ := if c = pad then some 0 else charValue c

/-- One group of four characters. -/
def decodeGroup (c₀ c₁ c₂ c₃ : UInt8) : Option (List UInt8) := do
  let v₀ ← charValue c₀
  let v₁ ← charValue c₁
  let v₂ ← charOrPad c₂
  let v₃ ← charOrPad c₃
  let n := v₀ <<< 18 ||| v₁ <<< 12 ||| v₂ <<< 6 ||| v₃
  return UInt8.ofNat ((n >>> 16) &&& 0xFF) ::
    ((if c₂ ≠ pad then [UInt8.ofNat ((n >>> 8) &&& 0xFF)] else []) ++
      if c₃ ≠ pad then [UInt8.ofNat (n &&& 0xFF)] else [])

def decodeGroups : List UInt8 → Option (List UInt8)
  | c₀ :: c₁ :: c₂ :: c₃ :: rest => do
    let bytes ← decodeGroup c₀ c₁ c₂ c₃
    let more ← decodeGroups rest
    return bytes ++ more
  | _ => some []

/-- `while (s.size() % 4 != 0) s.push_back('=')`. -/
def padded (s : List UInt8) : List UInt8 := s ++ List.replicate ((4 - s.length % 4) % 4) pad

def Base64UrlDecode (input : List UInt8) : Option (List UInt8) :=
  decodeGroups (padded (input.map fromUrl))

/-! ## Encoding -/

theorem shiftRight_and (n k j : ℕ) : (n >>> k) &&& (2 ^ j - 1) = n / 2 ^ k % 2 ^ j := by
  rw [Nat.and_two_pow_sub_one_eq_mod, Nat.shiftRight_eq_div_pow]

theorem sextet_eq (n k : ℕ) : sextet n k = kTable.getD (n / 2 ^ k % 64) 0 :=
  congrArg (kTable.getD · 0) (shiftRight_and n k 6)

theorem bytes_eq (a b c : UInt8) : a.toNat <<< 16 ||| b.toNat <<< 8 ||| c.toNat =
    a.toNat * 65536 + b.toNat * 256 + c.toNat := by
  have hb := b.toNat_lt
  have hc := c.toNat_lt
  rw [Nat.shiftLeft_eq, Nat.shiftLeft_eq,
    or_eq_add (k := 16) (a := a.toNat * 2 ^ 16) (by omega) (by omega),
    or_eq_add (k := 8) (by omega) (by omega)]

/-- The characters of the URL-safe alphabet are those of the table after the replacement. -/
theorem toUrl_kTable : ∀ i < 64, toUrl (kTable.getD i 0) = Base64.urlAlphabet.getD i 0 := by
  decide +kernel

/-- A sextet of a group that is `i`. -/
theorem toUrl_sextet {n k i : ℕ} (h : n / 2 ^ k % 64 = i) :
    toUrl (sextet n k) = Base64.urlAlphabet.getD i 0 := by
  rw [sextet_eq, h, toUrl_kTable i (by omega)]

theorem padded_append {s t : List UInt8} (h : s.length = 4) : padded (s ++ t) = s ++ padded t := by
  rw [padded, padded, List.append_assoc, List.length_append, h, Nat.add_mod_left]

/-- The padded text, in the URL-safe alphabet. -/
theorem map_encodeGroups (data : List UInt8) :
    (encodeGroups data).map toUrl = padded (Base64.encodeUrl data) := by
  induction data using encodeGroups.induct with
  | case1 a b c rest ih =>
    have ha := a.toNat_lt
    have hb := b.toNat_lt
    have hc := c.toNat_lt
    have hgroup : Base64.encodeUrl (a :: b :: c :: rest) =
        Base64.encodeUrl [a, b, c] ++ Base64.encodeUrl rest := rfl
    rw [hgroup, padded_append rfl, ← ih]
    simp only [encodeGroups, bytes_eq, List.map_cons, Base64.encodeUrl, Base64.sextets,
      List.map_nil, List.cons_append, List.nil_append]
    rw [toUrl_sextet (i := a.toNat / 4) (by omega),
      toUrl_sextet (i := a.toNat % 4 * 16 + b.toNat / 16) (by omega),
      toUrl_sextet (i := b.toNat % 16 * 4 + c.toNat / 64) (by omega),
      toUrl_sextet (i := c.toNat % 64) (by omega)]
  | case2 a b =>
    have ha := a.toNat_lt
    have hb := b.toNat_lt
    have hbytes := bytes_eq a b 0
    rw [show (0 : UInt8).toNat = 0 from rfl, Nat.or_zero, add_zero] at hbytes
    simp only [encodeGroups, hbytes, List.map_cons, List.map_nil]
    rw [toUrl_sextet (i := a.toNat / 4) (by omega),
      toUrl_sextet (i := a.toNat % 4 * 16 + b.toNat / 16) (by omega),
      toUrl_sextet (i := b.toNat % 16 * 4) (by omega)]
    rfl
  | case3 a =>
    have ha := a.toNat_lt
    have hbytes : a.toNat <<< 16 = a.toNat * 65536 := Nat.shiftLeft_eq _ _
    simp only [encodeGroups, hbytes, List.map_cons, List.map_nil]
    rw [toUrl_sextet (i := a.toNat / 4) (by omega),
      toUrl_sextet (i := a.toNat % 4 * 16) (by omega)]
    rfl
  | case4 => rfl

theorem pad_notMem_encodeUrl (data : List UInt8) : pad ∉ Base64.encodeUrl data := by
  intro h
  exact absurd (Base64.mem_encodeUrl h) (by decide +kernel)

theorem rdropWhile_padded {s : List UInt8} (h : pad ∉ s) : (padded s).rdropWhile (· = pad) = s := by
  have hpads : ∀ k, (s ++ List.replicate k pad).rdropWhile (· = pad) = s := by
    intro k
    induction k with
    | zero =>
      rw [List.replicate_zero, List.append_nil, List.rdropWhile_eq_self_iff]
      intro hne hlast
      exact h (of_decide_eq_true hlast ▸ List.getLast_mem hne)
    | succ k ih =>
      rw [List.replicate_succ', ← List.append_assoc, List.rdropWhile_concat_pos _ _ _ (by decide),
        ih]
  exact hpads _

/-- The encoder writes URL-safe base64 without padding. -/
theorem base64UrlEncode_eq (data : List UInt8) : Base64UrlEncode data = Base64.encodeUrl data := by
  rw [Base64UrlEncode, map_encodeGroups, rdropWhile_padded (pad_notMem_encodeUrl data)]

/-! ## Decoding -/

/-- The value of a character of the URL-safe alphabet, back in the standard one. -/
theorem charValue_urlAlphabet : ∀ i < 64,
    charValue (fromUrl (Base64.urlAlphabet.getD i 0)) = some i ∧
      fromUrl (Base64.urlAlphabet.getD i 0) ≠ pad := by
  decide +kernel

/-- The character of a sextet, back in the standard alphabet. -/
def char (i : ℕ) : UInt8 := fromUrl (Base64.urlAlphabet.getD i 0)

theorem charValue_char {i : ℕ} (h : i < 64) : charValue (char i) = some i :=
  (charValue_urlAlphabet i h).1

theorem char_ne_pad {i : ℕ} (h : i < 64) : char i ≠ pad := (charValue_urlAlphabet i h).2

theorem charOrPad_char {i : ℕ} (h : i < 64) : charOrPad (char i) = some i := by
  rw [charOrPad, if_neg (char_ne_pad h), charValue_char h]

theorem charOrPad_pad : charOrPad pad = some 0 := rfl

theorem sextets_eq {v₀ v₁ v₂ v₃ : ℕ} (h₁ : v₁ < 64) (h₂ : v₂ < 64) (h₃ : v₃ < 64) :
    v₀ <<< 18 ||| v₁ <<< 12 ||| v₂ <<< 6 ||| v₃ = v₀ * 262144 + v₁ * 4096 + v₂ * 64 + v₃ := by
  rw [Nat.shiftLeft_eq, Nat.shiftLeft_eq, Nat.shiftLeft_eq,
    or_eq_add (k := 18) (a := v₀ * 2 ^ 18) (by omega) (by omega),
    or_eq_add (k := 12) (b := v₂ * 2 ^ 6) (by omega) (by omega),
    or_eq_add (k := 6) (by omega) (by omega)]

theorem ofNat_and {n k : ℕ} {b : UInt8} (h : n / 2 ^ k % 256 = b.toNat) :
    UInt8.ofNat ((n >>> k) &&& 0xFF) = b := by
  rw [show (n >>> k) &&& 0xFF = n / 2 ^ k % 256 from shiftRight_and n k 8, h, UInt8.ofNat_toNat]

theorem ofNat_low {n : ℕ} {b : UInt8} (h : n % 256 = b.toNat) : UInt8.ofNat (n &&& 0xFF) = b := by
  rw [show n &&& 0xFF = n % 256 from Nat.and_two_pow_sub_one_eq_mod n 8, h, UInt8.ofNat_toNat]

theorem decodeGroup_three (a b c : UInt8) : decodeGroup (char (a.toNat / 4))
    (char (a.toNat % 4 * 16 + b.toNat / 16)) (char (b.toNat % 16 * 4 + c.toNat / 64))
    (char (c.toNat % 64)) = some [a, b, c] := by
  have ha := a.toNat_lt
  have hb := b.toNat_lt
  have hc := c.toNat_lt
  rw [decodeGroup, charValue_char (by omega), charValue_char (by omega),
    charOrPad_char (by omega), charOrPad_char (by omega)]
  simp only [Option.bind_eq_bind, Option.bind_some, Option.pure_def]
  rw [if_pos (char_ne_pad (by omega)), if_pos (char_ne_pad (by omega)),
    sextets_eq (by omega) (by omega) (by omega), ofNat_and (b := a) (by omega),
    ofNat_and (b := b) (by omega), ofNat_low (b := c) (by omega)]
  rfl

theorem decodeGroup_two (a b : UInt8) : decodeGroup (char (a.toNat / 4))
    (char (a.toNat % 4 * 16 + b.toNat / 16)) (char (b.toNat % 16 * 4)) pad = some [a, b] := by
  have ha := a.toNat_lt
  have hb := b.toNat_lt
  rw [decodeGroup, charValue_char (by omega), charValue_char (by omega),
    charOrPad_char (by omega), charOrPad_pad]
  simp only [Option.bind_eq_bind, Option.bind_some, Option.pure_def]
  rw [if_pos (char_ne_pad (by omega)), if_neg (by decide),
    sextets_eq (by omega) (by omega) (by omega), ofNat_and (b := a) (by omega),
    ofNat_and (b := b) (by omega)]
  rfl

theorem decodeGroup_one (a : UInt8) :
    decodeGroup (char (a.toNat / 4)) (char (a.toNat % 4 * 16)) pad pad = some [a] := by
  have ha := a.toNat_lt
  rw [decodeGroup, charValue_char (by omega), charValue_char (by omega), charOrPad_pad]
  simp only [Option.bind_eq_bind, Option.bind_some, Option.pure_def]
  rw [if_neg (by decide), sextets_eq (by omega) (by omega) (by omega),
    ofNat_and (b := a) (by omega)]
  rfl

theorem decodeGroups_encodeUrl (data : List UInt8) :
    decodeGroups (padded ((Base64.encodeUrl data).map fromUrl)) = some data := by
  induction data using encodeGroups.induct with
  | case1 a b c rest ih =>
    have hgroup : (Base64.encodeUrl (a :: b :: c :: rest)).map fromUrl =
        [char (a.toNat / 4), char (a.toNat % 4 * 16 + b.toNat / 16),
          char (b.toNat % 16 * 4 + c.toNat / 64), char (c.toNat % 64)] ++
        (Base64.encodeUrl rest).map fromUrl := rfl
    rw [hgroup, padded_append rfl]
    simp only [List.cons_append, List.nil_append]
    rw [decodeGroups, decodeGroup_three, ih]
    rfl
  | case2 a b =>
    show decodeGroups [char (a.toNat / 4), char (a.toNat % 4 * 16 + b.toNat / 16),
      char (b.toNat % 16 * 4), pad] = _
    rw [decodeGroups, decodeGroup_two]
    rfl
  | case3 a =>
    show decodeGroups [char (a.toNat / 4), char (a.toNat % 4 * 16), pad, pad] = _
    rw [decodeGroups, decodeGroup_one]
    rfl
  | case4 => rfl

/-- Decoding gives back every byte string. -/
theorem base64UrlDecode_encode (data : List UInt8) :
    Base64UrlDecode (Base64UrlEncode data) = some data := by
  rw [base64UrlEncode_eq, Base64UrlDecode, decodeGroups_encodeUrl]

/-- The decoder accepts nothing but the two alphabets and padding. -/
theorem mem_of_decodeGroups {s data : List UInt8} (h : decodeGroups s = some data)
    (hlen : s.length % 4 = 0) {c : UInt8} (hc : c ∈ s) : c = pad ∨ c ∈ kTable := by
  have hvalue {c : UInt8} {v : ℕ} (hv : charValue c = some v) : c ∈ kTable := by
    by_contra hnot
    rw [charValue, List.idxOf?_eq_none_iff.2 hnot] at hv
    cases hv
  have hpad {c : UInt8} {v : ℕ} (hv : charOrPad c = some v) : c = pad ∨ c ∈ kTable := by
    unfold charOrPad at hv
    split_ifs at hv with heq
    · exact Or.inl heq
    · exact Or.inr (hvalue hv)
  induction s using decodeGroups.induct generalizing data with
  | case1 c₀ c₁ c₂ c₃ rest ih =>
    rw [decodeGroups] at h
    obtain ⟨bytes, hgroup, h⟩ := Option.bind_eq_some_iff.1 h
    obtain ⟨more, hrest, -⟩ := Option.bind_eq_some_iff.1 h
    obtain ⟨v₀, h₀, hgroup⟩ := Option.bind_eq_some_iff.1 hgroup
    obtain ⟨v₁, h₁, hgroup⟩ := Option.bind_eq_some_iff.1 hgroup
    obtain ⟨v₂, h₂, hgroup⟩ := Option.bind_eq_some_iff.1 hgroup
    obtain ⟨v₃, h₃, -⟩ := Option.bind_eq_some_iff.1 hgroup
    simp only [List.mem_cons] at hc
    rcases hc with rfl | rfl | rfl | rfl | hc
    · exact Or.inr (hvalue h₀)
    · exact Or.inr (hvalue h₁)
    · exact hpad h₂
    · exact hpad h₃
    · apply ih hrest _ hc
      simp only [List.length_cons] at hlen
      omega
  | case2 s hs =>
    match s, hs with
    | [], _ => cases hc
    | [_], _ => simp at hlen
    | [_, _], _ => simp at hlen
    | [_, _, _], _ => simp at hlen
    | c₀ :: c₁ :: c₂ :: c₃ :: rest, hs => exact absurd rfl (hs c₀ c₁ c₂ c₃ rest)

theorem length_padded (s : List UInt8) : (padded s).length % 4 = 0 := by
  rw [padded, List.length_append, List.length_replicate]
  omega

/-- A text with a byte outside the URL-safe alphabets is not decoded. -/
theorem base64UrlDecode_eq_none {input : List UInt8} {c : UInt8} (hc : c ∈ input)
    (hpad : fromUrl c ≠ pad) (htable : fromUrl c ∉ kTable) : Base64UrlDecode input = none := by
  cases h : Base64UrlDecode input with
  | none => rfl
  | some data =>
    have hmem : fromUrl c ∈ padded (input.map fromUrl) :=
      List.mem_append_left _ (List.mem_map_of_mem hc)
    rcases mem_of_decodeGroups h (length_padded _) hmem with heq | htab
    · exact absurd heq hpad
    · exact absurd htab htable

end Windows

end OWalkie
