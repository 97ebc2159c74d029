import OWalkie.Clients.SignalClipboard
import OWalkie.Lib.Balanced
import OWalkie.Lib.JsonGrammar
import OWalkie.Lib.Utf8

/-!
# Objects in the text of the clipboard

`extractBalancedJsonObject` of Android works on the UTF-16 units of a text, that of Windows on its
bytes.  `extracts_object`: both cut out the text of any JSON object, whatever stands around it.
-/

namespace OWalkie

open Braces

/-! ## UTF-16 -/

namespace Text

def utf16EncodeChar (c : Char) : List UInt16 :=
  if c.toNat < 0x10000 then [UInt16.ofNat c.toNat]
  else
    [UInt16.ofNat (0xD800 + (c.toNat - 0x10000) / 0x400),
      UInt16.ofNat (0xDC00 + (c.toNat - 0x10000) % 0x400)]

def utf16 (s : List Char) : List UInt16 := s.flatMap utf16EncodeChar

end Text

/-! ## The two functions -/

def utf16Marks : Marks UInt16 where
  quote := 34
  backslash := 92
  opening := 123
  closing := 125

def utf8Marks : Marks UInt8 where
  quote := 34
  backslash := 92
  opening := 123
  closing := 125

/-- `extractBalancedJsonObject` of `SignalSequenceClipboard`. -/
def extractBalancedJsonObject (s : List UInt16) (openIndex : ℕ) : Option (List UInt16) :=
  utf16Marks.extractBalanced s openIndex

/-- `ExtractBalancedJsonObject` of the main frame: an empty text if there is none. -/
def ExtractBalancedJsonObject (s : List UInt8) (openIndex : ℕ) : List UInt8 :=
  (utf8Marks.extractBalanced s openIndex).getD []

/-! ## The encodings -/

/-- Two small numbers that are one unit. -/
theorem ofNat16_inj {m n : ℕ} (hm : m < 65536) (hn : n < 65536)
    (h : UInt16.ofNat m = UInt16.ofNat n) :
    m = n := by
  have := congrArg UInt16.toNat h
  rwa [UInt16.toNat_ofNat', UInt16.toNat_ofNat', Nat.mod_eq_of_lt hm, Nat.mod_eq_of_lt hn] at this

theorem char_eq {c d : Char} (h : c.toNat = d.toNat) : c = d := by
  rw [← Char.ofNat_toNat c, h, Char.ofNat_toNat]

theorem utf16_other {c : Char} {u : UInt16} (hu : u ∈ Text.utf16EncodeChar c) {d : Char}
    (hd : d.toNat < 128) (h : u = UInt16.ofNat d.toNat) : c = d := by
  have hlt : c.toNat < 0x110000 := by
    have := c.valid
    have hval : c.toNat = c.val.toNat := rfl
    rcases this with hlo | ⟨-, hhi⟩ <;> omega
  rw [Text.utf16EncodeChar] at hu
  split_ifs at hu with hsmall
  · rw [List.mem_singleton.1 hu] at h
    exact char_eq (ofNat16_inj hsmall (by omega) h)
  · -- a surrogate is no character of ASCII
    rcases List.mem_cons.1 hu with rfl | hu
    · have := ofNat16_inj (by omega) (by omega) h
      omega
    · rw [List.mem_singleton.1 hu] at h
      have := ofNat16_inj (by omega) (by omega) h
      omega

theorem encodes_utf16 : Encodes utf16Marks Text.utf16EncodeChar where
  nodup := by decide
  quote := rfl
  backslash := rfl
  opening := rfl
  closing := rfl
  ne_nil c := by
    rw [Text.utf16EncodeChar]
    split_ifs <;> exact List.cons_ne_nil _ _
  others c hq hb ho hc u hu :=
    ⟨fun h => hq (utf16_other hu (d := '"') (by decide) h),
      fun h => hb (utf16_other hu (d := '\\') (by decide) h),
      fun h => ho (utf16_other hu (d := '\x7b') (by decide) h),
      fun h => hc (utf16_other hu (d := '\x7d') (by decide) h)⟩

theorem utf8_other {c : Char} {u : UInt8} (hu : u ∈ String.utf8EncodeChar c) {d : Char}
    (hd : d.toNat < 128) (h : u = UInt8.ofNat d.toNat) : c = d := by
  rcases Nat.lt_or_ge c.toNat 128 with hc | hc
  · rw [Text.utf8EncodeChar_of_ascii hc] at hu
    rw [List.mem_singleton.1 hu] at h
    exact char_eq (Text.ofNat_inj (by omega) (by omega) h)
  · have hlarge := Text.utf8EncodeChar_of_not_ascii hc hu
    rw [h, UInt8.toNat_ofNat', Nat.mod_eq_of_lt (by omega)] at hlarge
    omega

theorem encodes_utf8 : Encodes utf8Marks String.utf8EncodeChar where
  nodup := by decide
  quote := rfl
  backslash := rfl
  opening := rfl
  closing := rfl
  ne_nil c := String.utf8EncodeChar_ne_nil
  others c hq hb ho hc u hu :=
    ⟨fun h => hq (utf8_other hu (d := '"') (by decide) h),
      fun h => hb (utf8_other hu (d := '\\') (by decide) h),
      fun h => ho (utf8_other hu (d := '\x7b') (by decide) h),
      fun h => hc (utf8_other hu (d := '\x7d') (by decide) h)⟩

/-- Between any texts, the text of a JSON object is cut out as it is, by both clients. -/
theorem extracts_object {d : List Char} (hd : Json.IsObject d) :
    (∀ before after : List UInt16,
      extractBalancedJsonObject (before ++ Text.utf16 d ++ after) before.length =
        some (Text.utf16 d)) ∧
    ∀ before after : List UInt8,
      ExtractBalancedJsonObject (before ++ Text.utf8 d ++ after) before.length = Text.utf8 d := by
  have hcut : extract d = some d := by
    have := hd.extract []
    rwa [List.append_nil] at this
  refine ⟨fun before after => encodes_utf16.extractBalanced_eq hcut before after,
    fun before after => ?_⟩
  show (utf8Marks.extractBalanced (before ++ d.flatMap String.utf8EncodeChar ++ after) _).getD [] = _
  rw [encodes_utf8.extractBalanced_eq hcut before after]
  rfl

/-- An object with a brace for a name and a quote for a value. -/
def bracesInside : List Char :=
  ['\x7b', '"', '\x7d', '"', ':', '"', '\\', '"', '"', '\x7d']

theorem isObject_bracesInside : Json.IsObject bracesInside := by
  have hname : Json.IsString ['"', '\x7d', '"'] :=
    ⟨['\x7d'], .unescaped (by decide) (by decide) (by decide) .nil, rfl⟩
  have hvalue : Json.IsString ['"', '\\', '"', '"'] :=
    ⟨['\\', '"'], .escaped List.mem_cons_self .nil, rfl⟩
  have hws : Json.IsWs [] := fun c hc => absurd hc List.not_mem_nil
  exact ⟨_, .inr (.last hws hname hws hws (.string hvalue) hws), rfl⟩

theorem extracts_object_bracesInside :
    extractBalancedJsonObject (Text.utf16 ['a', '\x7b'] ++ Text.utf16 bracesInside ++ [0xD800]) 2 =
        some (Text.utf16 bracesInside) ∧
      ExtractBalancedJsonObject (Text.utf8 ['a', '\x7b'] ++ Text.utf8 bracesInside ++ [0xFF]) 2 =
        Text.utf8 bracesInside :=
  ⟨(extracts_object isObject_bracesInside).1 (Text.utf16 ['a', '\x7b']) [0xD800],
    (extracts_object isObject_bracesInside).2 (Text.utf8 ['a', '\x7b']) [0xFF]⟩

end OWalkie
