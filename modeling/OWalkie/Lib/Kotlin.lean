import OWalkie.Lib.Text

/-!
# Texts in Kotlin and in C++

What the two standard libraries take for white space, and how they read a number from a text.
-/

namespace OWalkie

/-! ## Kotlin -/

namespace Kotlin

/-- `Char.isWhitespace()`: the controls U+0009 to U+000D and U+001C to U+001F, and the separators of
Unicode. -/
def isWhitespace (c : Char) : Bool :=
  (9 ≤ c.toNat && c.toNat ≤ 13) || (28 ≤ c.toNat && c.toNat ≤ 32) ||
    [0xA0, 0x1680, 0x2028, 0x2029, 0x202F, 0x205F, 0x3000].contains c.toNat ||
    (0x2000 ≤ c.toNat && c.toNat ≤ 0x200A)

/-- `CharSequence.trim()`. -/
def trim (s : List Char) : List Char := Text.trim isWhitespace s

def isBlank (s : List Char) : Bool := s.all isWhitespace

/-- What `equals(ignoreCase = true)` compares for a letter of ASCII: four other letters have one as
their capital or small letter. -/
def foldCase (c : Char) : Char :=
  if c.toNat = 0x212A then 'k'
  else if c.toNat = 0x130 ∨ c.toNat = 0x131 then 'i'
  else if c.toNat = 0x17F then 's'
  else c.toLower

/-- `equals(ignoreCase = true)` with a character of ASCII. -/
def equalsIgnoreCase (c d : Char) : Bool := foldCase c == foldCase d

/-- `String.toIntOrNull()`; `digit` is `Character.digit` in base ten, which knows the decimal digits
of all scripts. -/
def toIntOrNull (digit : Char → Option ℕ) (s : List Char) : Option ℤ :=
  (Text.intOf digit s).bind (Text.fits 32)

theorem code_of_isWhitespace {c : Char} (h : isWhitespace c = true) :
    c.toNat < 33 ∨ c.toNat = 160 ∨ 0x1680 ≤ c.toNat ∧ c.toNat ≤ 0x205F ∨ c.toNat = 0x3000 := by
  simp only [isWhitespace, Bool.or_eq_true, Bool.and_eq_true, decide_eq_true_eq,
    List.contains_eq_mem, List.mem_cons, List.not_mem_nil, or_false] at h
  omega

theorem toLower_of_isWhitespace {c : Char} (h : isWhitespace c = true) : c.toLower = c := by
  have hcode := code_of_isWhitespace h
  refine dif_neg ?_
  rintro ⟨hlo, hhi⟩
  have hlo' : 65 ≤ c.toNat := hlo
  have hhi' : c.toNat ≤ 90 := hhi
  omega

theorem foldCase_of_isWhitespace {c : Char} (h : isWhitespace c = true) : foldCase c = c := by
  have hcode := code_of_isWhitespace h
  rw [foldCase, if_neg (by omega), if_neg (by omega), if_neg (by omega),
    toLower_of_isWhitespace h]

end Kotlin

/-! ## C++ -/

namespace Cpp

/-- `std::isspace` in the "C" locale. -/
def isspace (c : Char) : Bool := (9 ≤ c.toNat && c.toNat ≤ 13) || c.toNat == 32

/-- `std::stoi`, or its exception. -/
def stoi (s : List Char) : Option ℤ :=
  let (sgn, s) := Text.sign (s.dropWhile isspace)
  let ds := s.takeWhile Char.isDigit
  if ds = [] then none else (Text.natOf Text.asciiDigit ds).bind fun n => Text.fits 32 (sgn * n)

end Cpp

end OWalkie
