import OWalkie.Lib.Bytes

/-!
# Base64

The sextets that a byte string is written with, three bytes in four sextets, and the URL-safe
alphabet without padding.
-/

namespace OWalkie

namespace Base64

/-- The sextets of a byte string, the last ones filled up with zero bits. -/
def sextets : List UInt8 → List ℕ
  | a :: b :: c :: rest =>
    a.toNat / 4 :: (a.toNat % 4 * 16 + b.toNat / 16) :: (b.toNat % 16 * 4 + c.toNat / 64) ::
      c.toNat % 64 :: sextets rest
  | [a, b] => [a.toNat / 4, a.toNat % 4 * 16 + b.toNat / 16, b.toNat % 16 * 4]
  | [a] => [a.toNat / 4, a.toNat % 4 * 16]
  | [] => []

theorem sextets_lt {data : List UInt8} : ∀ i ∈ sextets data, i < 64 := by
  induction data using sextets.induct with
  | case1 a b c rest ih =>
    have ha := a.toNat_lt
    have hb := b.toNat_lt
    have hc := c.toNat_lt
    intro i hi
    simp only [sextets, List.mem_cons] at hi
    rcases hi with rfl | rfl | rfl | rfl | hi
    · omega
    · omega
    · omega
    · omega
    · exact ih i hi
  | case2 a b =>
    have ha := a.toNat_lt
    have hb := b.toNat_lt
    intro i hi
    simp only [sextets, List.mem_cons, List.not_mem_nil, or_false] at hi
    omega
  | case3 a =>
    have ha := a.toNat_lt
    intro i hi
    simp only [sextets, List.mem_cons, List.not_mem_nil, or_false] at hi
    omega
  | case4 => simp [sextets]

/-- The alphabet with `+` and `/`. -/
def alphabet : List UInt8 :=
  "ABCDEFGHIJKLMNOPQRSTUVWXYZabcdefghijklmnopqrstuvwxyz0123456789+/".toList.map Char.toUInt8

/-- The URL-safe alphabet. -/
def urlAlphabet : List UInt8 :=
  "ABCDEFGHIJKLMNOPQRSTUVWXYZabcdefghijklmnopqrstuvwxyz0123456789-_".toList.map Char.toUInt8

/-- URL-safe base64 without padding. -/
def encodeUrl (data : List UInt8) : List UInt8 := (sextets data).map (urlAlphabet.getD · 0)

theorem mem_encodeUrl {data : List UInt8} {c : UInt8} (h : c ∈ encodeUrl data) :
    c ∈ urlAlphabet := by
  obtain ⟨i, hi, rfl⟩ := List.mem_map.1 h
  have hmem : ∀ i < 64, urlAlphabet.getD i 0 ∈ urlAlphabet := by decide +kernel
  exact hmem i (sextets_lt i hi)

end Base64

end OWalkie
