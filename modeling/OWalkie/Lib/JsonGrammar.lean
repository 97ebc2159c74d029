import OWalkie.Lib.JsonText

/-!
# The grammar of JSON

The texts of RFC 8259, as predicates.  The braces of a value are balanced (`IsValue.neutral`), so
that the text of an object is cut out as it is (`IsObject.extract`).
-/

namespace OWalkie

namespace Json

open Braces

/-- `ws` -/
def IsWs (t : List Char) : Prop := ∀ c ∈ t, c = ' ' ∨ c = '\t' ∨ c = '\n' ∨ c = '\r'

/-- `1*DIGIT` -/
def IsDigits (t : List Char) : Prop := t ≠ [] ∧ ∀ c ∈ t, c.isDigit = true

/-- `int` -/
def IsInt (t : List Char) : Prop := t = ['0'] ∨ IsDigits t ∧ t.head? ≠ some '0'

/-- `[ frac ]` -/
def IsFrac (t : List Char) : Prop := t = [] ∨ ∃ ds, t = '.' :: ds ∧ IsDigits ds

/-- `[ exp ]` -/
def IsExp (t : List Char) : Prop :=
  t = [] ∨ ∃ e sign ds, t = e :: (sign ++ ds) ∧ (e = 'e' ∨ e = 'E') ∧
    (sign = [] ∨ sign = ['+'] ∨ sign = ['-']) ∧ IsDigits ds

/-- `number` -/
def IsNumber (t : List Char) : Prop :=
  ∃ sign int frac exp, t = sign ++ (int ++ (frac ++ exp)) ∧ (sign = [] ∨ sign = ['-']) ∧
    IsInt int ∧ IsFrac frac ∧ IsExp exp

def isHex (c : Char) : Bool := c.isDigit || ('a' ≤ c && c ≤ 'f') || ('A' ≤ c && c ≤ 'F')

/-- `*char` -/
inductive IsChars : List Char → Prop
  | nil : IsChars []
  | unescaped {c : Char} {t : List Char} (hcode : 0x20 ≤ c.toNat) (hquote : c ≠ '"')
      (hbackslash : c ≠ '\\') : IsChars t → IsChars (c :: t)
  | escaped {c : Char} {t : List Char} (hc : c ∈ ['"', '\\', '/', 'b', 'f', 'n', 'r', 't']) :
      IsChars t → IsChars ('\\' :: c :: t)
  | unicode {a b c d : Char} {t : List Char} (hhex : ∀ x ∈ [a, b, c, d], isHex x = true) :
      IsChars t → IsChars ('\\' :: 'u' :: a :: b :: c :: d :: t)

/-- `string` -/
def IsString (t : List Char) : Prop := ∃ chars, IsChars chars ∧ t = '"' :: chars ++ ['"']

mutual

/-- `value` -/
inductive IsValue : List Char → Prop
  | null : IsValue "null".toList
  | bool (b : Bool) : IsValue (toString b).toList
  | number {t : List Char} (h : IsNumber t) : IsValue t
  | string {t : List Char} (h : IsString t) : IsValue t
  | emptyArray {w : List Char} (hw : IsWs w) : IsValue ('[' :: w ++ [']'])
  | array {t : List Char} (h : IsElems t) : IsValue ('[' :: t ++ [']'])
  | emptyObject {w : List Char} (hw : IsWs w) : IsValue ('\x7b' :: w ++ ['\x7d'])
  | object {t : List Char} (h : IsMembers t) : IsValue ('\x7b' :: t ++ ['\x7d'])

/-- `value *( value-separator value )` -/
inductive IsElems : List Char → Prop
  | last {w v w' : List Char} (hw : IsWs w) (hv : IsValue v) (hw' : IsWs w') :
      IsElems (w ++ (v ++ w'))
  | cons {w v w' t : List Char} (hw : IsWs w) (hv : IsValue v) (hw' : IsWs w') (h : IsElems t) :
      IsElems (w ++ (v ++ (w' ++ ',' :: t)))

/-- `member *( value-separator member )` -/
inductive IsMembers : List Char → Prop
  | last {w k w' u v u' : List Char} (hw : IsWs w) (hk : IsString k) (hw' : IsWs w') (hu : IsWs u)
      (hv : IsValue v) (hu' : IsWs u') : IsMembers (w ++ (k ++ (w' ++ ':' :: (u ++ (v ++ u')))))
  | cons {w k w' u v u' t : List Char} (hw : IsWs w) (hk : IsString k) (hw' : IsWs w')
      (hu : IsWs u) (hv : IsValue v) (hu' : IsWs u') (h : IsMembers t) :
      IsMembers (w ++ (k ++ (w' ++ ':' :: (u ++ (v ++ (u' ++ ',' :: t))))))

end

/-- `object` -/
def IsObject (t : List Char) : Prop :=
  ∃ body, (IsWs body ∨ IsMembers body) ∧ t = '\x7b' :: body ++ ['\x7d']

/-! ## Balance -/

variable {t : List Char}

theorem IsWs.neutral (h : IsWs t) : Neutral t :=
  neutral_of_plain fun c hc => by
    rcases h c hc with rfl | rfl | rfl | rfl <;> decide

theorem IsDigits.plain (h : IsDigits t) : ∀ c ∈ t, Plain c :=
  fun c hc => plain_of_isDigit (h.2 c hc)

theorem plain_minus : Plain '-' := ⟨by decide, by decide, by decide⟩

theorem IsNumber.plain (h : IsNumber t) : ∀ c ∈ t, Plain c := by
  obtain ⟨sign, int, frac, exp, rfl, hsign, hint, hfrac, hexp⟩ := h
  have hsign' : ∀ c ∈ sign, Plain c := by
    rcases hsign with rfl | rfl
    · exact List.forall_mem_nil Plain
    · exact List.forall_mem_singleton.2 plain_minus
  have hint' : ∀ c ∈ int, Plain c := by
    rcases hint with rfl | ⟨hint, -⟩
    · exact List.forall_mem_singleton.2 ⟨by decide, by decide, by decide⟩
    · exact hint.plain
  have hfrac' : ∀ c ∈ frac, Plain c := by
    rcases hfrac with rfl | ⟨ds, rfl, hds⟩
    · exact List.forall_mem_nil Plain
    · exact List.forall_mem_cons.2 ⟨⟨by decide, by decide, by decide⟩, hds.plain⟩
  have hexp' : ∀ c ∈ exp, Plain c := by
    rcases hexp with rfl | ⟨e, esign, ds, rfl, he, hesign, hds⟩
    · exact List.forall_mem_nil Plain
    · refine List.forall_mem_cons.2 ⟨?_, List.forall_mem_append.2 ⟨?_, hds.plain⟩⟩
      · rcases he with rfl | rfl <;> decide
      · rcases hesign with rfl | rfl | rfl
        · exact List.forall_mem_nil Plain
        · exact List.forall_mem_singleton.2 ⟨by decide, by decide, by decide⟩
        · exact List.forall_mem_singleton.2 plain_minus
  simp only [List.forall_mem_append]
  exact ⟨hsign', hint', hfrac', hexp'⟩

/-- A hexadecimal digit is no quote and no backslash. -/
theorem ne_of_isHex {c : Char} (h : isHex c = true) : c ≠ '"' ∧ c ≠ '\\' := by
  constructor <;> rintro rfl <;> exact absurd h (by decide)

theorem IsChars.inside (h : IsChars t) : Inside t := by
  induction h with
  | nil => exact inside_of_plain fun c hc => absurd hc List.not_mem_nil
  | unescaped _ hquote hbackslash _ ih => exact (inside_char hquote hbackslash).append ih
  | escaped _ _ ih => exact (inside_escaped _).append ih
  | @unicode a b c d t hhex _ ih =>
    have hdigits : Inside [a, b, c, d] := inside_of_plain fun x hx => ne_of_isHex (hhex x hx)
    exact (inside_escaped 'u').append (hdigits.append ih)

theorem IsString.neutral (h : IsString t) : Neutral t := by
  obtain ⟨chars, hchars, rfl⟩ := h
  exact neutral_string hchars.inside

theorem plain_colon : Plain ':' := ⟨by decide, by decide, by decide⟩

theorem neutral_cons {c : Char} (hc : Plain c) (h : Neutral t) : Neutral (c :: t) :=
  (neutral_char hc).append h

theorem neutral_brackets (h : Neutral t) : Neutral ('[' :: t ++ [']']) :=
  neutral_cons ⟨by decide, by decide, by decide⟩
    (h.append (neutral_char ⟨by decide, by decide, by decide⟩))

mutual

theorem IsValue.neutral : ∀ {t : List Char}, IsValue t → Neutral t
  | _, .null => neutral_null
  | _, .bool b => neutral_bool b
  | _, .number h => neutral_of_plain h.plain
  | _, .string h => h.neutral
  | _, .emptyArray hw => neutral_brackets hw.neutral
  | _, .array h => neutral_brackets h.neutral
  | _, .emptyObject hw => neutral_braces hw.neutral
  | _, .object h => neutral_braces h.neutral

theorem IsElems.neutral : ∀ {t : List Char}, IsElems t → Neutral t
  | _, .last hw hv hw' => hw.neutral.append (hv.neutral.append hw'.neutral)
  | _, .cons hw hv hw' h =>
    hw.neutral.append (hv.neutral.append (hw'.neutral.append (neutral_cons plain_comma h.neutral)))

theorem IsMembers.neutral : ∀ {t : List Char}, IsMembers t → Neutral t
  | _, .last hw hk hw' hu hv hu' =>
    hw.neutral.append (hk.neutral.append (hw'.neutral.append
      (neutral_cons plain_colon (hu.neutral.append (hv.neutral.append hu'.neutral)))))
  | _, .cons hw hk hw' hu hv hu' h =>
    hw.neutral.append (hk.neutral.append (hw'.neutral.append
      (neutral_cons plain_colon (hu.neutral.append (hv.neutral.append
        (hu'.neutral.append (neutral_cons plain_comma h.neutral)))))))

end

/-- The text of an object is cut out, whatever follows. -/
theorem IsObject.extract (h : IsObject t) (rest : List Char) :
    Braces.extract (t ++ rest) = some t := by
  obtain ⟨body, hbody, rfl⟩ := h
  have hneutral : Neutral body := hbody.elim IsWs.neutral IsMembers.neutral
  have hcut := extract_braces hneutral rest
  rwa [List.append_assoc]

end Json

end OWalkie
