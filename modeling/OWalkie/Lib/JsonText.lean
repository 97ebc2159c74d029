import Mathlib.Data.Bool.AllAny
import OWalkie.Lib.Braces
import OWalkie.Lib.Nlohmann

/-!
# The texts of JSON values

`render` prints a value as org.json and nlohmann::json print it; what differs between them is a
`Layout`.  Strings are escaped, so that the braces in a text are neutral (`extract_render`).
`ReadAs` says what a reader may make of the text.
-/

namespace OWalkie

namespace Json

open Braces

/-- How a library lays a text out. -/
structure Layout where
  /-- A slash is escaped. -/
  slash : Bool
  float : ℚ → List Char
  /-- What stands before a member at the depth. -/
  gap : ℕ → List Char
  colon : List Char
  float_plain : ∀ q, ∀ c ∈ float q, Plain c
  gap_plain : ∀ depth, ∀ c ∈ gap depth, Plain c
  colon_plain : ∀ c ∈ colon, Plain c

variable (l : Layout)

def escape (c : Char) : List Char :=
  if c = '"' ∨ c = '\\' ∨ l.slash = true ∧ c = '/' then ['\\', c]
  else if c = '\t' then ['\\', 't']
  else if c = '\n' then ['\\', 'n']
  else if c = '\r' then ['\\', 'r']
  else if c.toNat = 8 then ['\\', 'b']
  else if c.toNat = 12 then ['\\', 'f']
  else if c.toNat < 32 then
    ['\\', 'u', '0', '0', Nat.digitChar (c.toNat / 16), Nat.digitChar (c.toNat % 16)]
  else [c]

def renderString (s : String) : List Char := '"' :: s.toList.flatMap (escape l) ++ ['"']

mutual

def render (depth : ℕ) : Json → List Char
  | .null => "null".toList
  | .bool b => (toString b).toList
  | .int n => (toString n).toList
  | .float q => l.float q
  | .str s => renderString l s
  | .arr elems =>
    '[' :: renderElems (depth + 1) [] elems ++ (if elems.isEmpty then [] else l.gap depth) ++ [']']
  | .obj members =>
    '\x7b' :: (renderMembers (depth + 1) [] members ++
      (if members.isEmpty then [] else l.gap depth)) ++ ['\x7d']

/-- The elements of an array, the first one behind `sep`. -/
def renderElems (depth : ℕ) (sep : List Char) : List Json → List Char
  | [] => []
  | e :: elems => sep ++ l.gap depth ++ render depth e ++ renderElems depth [','] elems

def renderMembers (depth : ℕ) (sep : List Char) : List (String × Json) → List Char
  | [] => []
  | (k, v) :: members =>
    sep ++ l.gap depth ++ renderString l k ++ l.colon ++ render depth v ++
      renderMembers depth [','] members

end

/-! ## Neutral texts -/

theorem inside_escape (c : Char) : Inside (escape l c) := by
  have hhex : ∀ n < 16, Nat.digitChar n ≠ '"' ∧ Nat.digitChar n ≠ '\\' := by decide
  unfold escape
  split_ifs with h₁ h₂ h₃ h₄ h₅ h₆ h₇
  · exact inside_escaped c
  · exact inside_escaped 't'
  · exact inside_escaped 'n'
  · exact inside_escaped 'r'
  · exact inside_escaped 'b'
  · exact inside_escaped 'f'
  · apply (inside_escaped 'u').append
    apply inside_of_plain
    intro x hx
    simp only [List.mem_cons, List.not_mem_nil, or_false] at hx
    rcases hx with rfl | rfl | rfl | rfl
    · decide
    · decide
    · exact hhex _ (by omega)
    · exact hhex _ (by omega)
  · exact inside_char (fun h => h₁ (Or.inl h)) fun h => h₁ (Or.inr (Or.inl h))

theorem neutral_renderString (s : String) : Neutral (renderString l s) := by
  apply neutral_string
  induction s.toList with
  | nil => exact fun d => Passes.nil _
  | cons c s ih =>
    rw [List.flatMap_cons]
    exact (inside_escape l c).append ih

theorem plain_of_isDigit {c : Char} (h : c.isDigit = true) : Plain c := by
  refine ⟨?_, ?_, ?_⟩
  all_goals
    rintro rfl
    exact absurd h (by decide)

theorem plain_repr (n : ℕ) : ∀ c ∈ n.repr.toList, Plain c := by
  intro c hc
  rw [Nat.repr, String.toList_ofList] at hc
  exact plain_of_isDigit (Nat.isDigit_of_mem_toDigits (by decide) (by decide) hc)

theorem neutral_int (n : ℤ) : Neutral (toString n).toList := by
  cases n with
  | ofNat n => exact neutral_of_plain (plain_repr n)
  | negSucc n =>
    have htext : (toString (Int.negSucc n)).toList = '-' :: (n + 1).repr.toList := by
      show ("-" ++ (n + 1).repr).toList = _
      rw [String.toList_append]
      rfl
    rw [htext]
    apply neutral_of_plain
    intro c hc
    rcases List.mem_cons.1 hc with rfl | hc
    · exact ⟨by decide, by decide, by decide⟩
    · exact plain_repr _ c hc

theorem neutral_null : Neutral "null".toList :=
  neutral_of_plain (List.all_iff_forall_prop.1 (by decide))

theorem neutral_char {c : Char} (h : Plain c) : Neutral [c] :=
  neutral_of_plain fun x hx => by rwa [List.mem_singleton.1 hx]

theorem neutral_nil : Neutral [] := fun _ _ => Passes.nil _

theorem neutral_gap (empty : Bool) (depth : ℕ) :
    Neutral (if empty then [] else l.gap depth) := by
  split_ifs
  · exact neutral_nil
  · exact neutral_of_plain (l.gap_plain depth)

theorem plain_comma : Plain ',' := ⟨by decide, by decide, by decide⟩

theorem neutral_bool (b : Bool) : Neutral (toString b).toList := by
  cases b with
  | false => exact neutral_of_plain (List.all_iff_forall_prop.1 (by decide))
  | true => exact neutral_of_plain (List.all_iff_forall_prop.1 (by decide))

mutual

theorem neutral_render (depth : ℕ) : ∀ j, Neutral (render l depth j)
  | .null => neutral_null
  | .bool b => neutral_bool b
  | .int n => neutral_int n
  | .float q => neutral_of_plain (l.float_plain q)
  | .str s => neutral_renderString l s
  | .arr elems => by
    have hbody := neutral_renderElems (depth + 1) [] neutral_nil elems
    have hopen : Neutral ['['] := neutral_char ⟨by decide, by decide, by decide⟩
    have hclose : Neutral [']'] := neutral_char ⟨by decide, by decide, by decide⟩
    exact ((hopen.append hbody).append (neutral_gap l elems.isEmpty depth)).append hclose
  | .obj members => by
    have hbody := neutral_renderMembers (depth + 1) [] neutral_nil members
    exact neutral_braces (hbody.append (neutral_gap l members.isEmpty depth))

theorem neutral_renderElems (depth : ℕ) (sep : List Char) (hsep : Neutral sep) :
    ∀ elems, Neutral (renderElems l depth sep elems)
  | [] => neutral_nil
  | e :: elems => by
    have hgap : Neutral (l.gap depth) := neutral_of_plain (l.gap_plain depth)
    have hrest := neutral_renderElems depth [','] (neutral_char plain_comma) elems
    exact ((hsep.append hgap).append (neutral_render depth e)).append hrest

theorem neutral_renderMembers (depth : ℕ) (sep : List Char) (hsep : Neutral sep) :
    ∀ members, Neutral (renderMembers l depth sep members)
  | [] => neutral_nil
  | (k, v) :: members => by
    have hgap : Neutral (l.gap depth) := neutral_of_plain (l.gap_plain depth)
    have hcolon : Neutral l.colon := neutral_of_plain l.colon_plain
    have hrest := neutral_renderMembers depth [','] (neutral_char plain_comma) members
    exact ((((hsep.append hgap).append (neutral_renderString l k)).append hcolon).append
      (neutral_render depth v)).append hrest

end

/-- The text of an object in a longer text is cut out. -/
theorem extract_render (depth : ℕ) (members : List (String × Json)) (rest : List Char) :
    extract (render l depth (.obj members) ++ rest) = some (render l depth (.obj members)) := by
  have hbody := (neutral_renderMembers l (depth + 1) [] neutral_nil members).append
    (neutral_gap l members.isEmpty depth)
  have hcut := extract_braces hbody rest
  rw [render]
  rwa [List.append_assoc]

/-! ## Reading back -/

/-- What is read of a printed value: the members in any order, a number in any spelling. -/
inductive ReadAs : Json → Json → Prop
  | null : ReadAs .null .null
  | bool (b : Bool) : ReadAs (.bool b) (.bool b)
  | int (n : ℤ) : ReadAs (.int n) (.int n)
  | float {q : ℚ} {v : Json} : Nlohmann.getDouble v = some q → ReadAs (.float q) v
  | str (s : String) : ReadAs (.str s) (.str s)
  | arr {elems elems' : List Json} : List.Forall₂ ReadAs elems elems' →
      ReadAs (.arr elems) (.arr elems')
  | obj {members members' : List (String × Json)} :
      (∀ key, Option.Rel ReadAs (lookup key members) (lookup key members')) →
      ReadAs (.obj members) (.obj members')

mutual

theorem ReadAs.refl : ∀ j, ReadAs j j
  | .null => .null
  | .bool b => .bool b
  | .int n => .int n
  | .float _ => .float rfl
  | .str s => .str s
  | .arr elems => .arr (ReadAs.refl_elems elems)
  | .obj members => .obj fun key => ReadAs.refl_lookup key members

theorem ReadAs.refl_elems : ∀ elems, List.Forall₂ ReadAs elems elems
  | [] => .nil
  | e :: elems => .cons (ReadAs.refl e) (ReadAs.refl_elems elems)

theorem ReadAs.refl_lookup (key : String) :
    ∀ members, Option.Rel ReadAs (lookup key members) (lookup key members)
  | [] => .none
  | (k, v) :: members => by
    have hrest := ReadAs.refl_lookup key members
    rw [lookup]
    cases h : lookup key members with
    | some w => rwa [h] at hrest
    | none =>
      simp only
      split_ifs
      · exact .some (ReadAs.refl v)
      · exact .none

end

section find

variable {members : List (String × Json)} {j v : Json}

theorem ReadAs.find (h : ReadAs (.obj members) j) {key : String}
    (hkey : lookup key members = some v) :
    ∃ w, Nlohmann.find key j = some w ∧ ReadAs v w := by
  cases h with
  | obj hmembers =>
    have hrel := hmembers key
    rw [hkey] at hrel
    cases hrel' : lookup key _ with
    | none =>
      rw [hrel'] at hrel
      cases hrel
    | some w =>
      rw [hrel'] at hrel
      cases hrel with
      | some hvw => exact ⟨w, hrel', hvw⟩

theorem ReadAs.find_none (h : ReadAs (.obj members) j) {key : String}
    (hkey : lookup key members = none) :
    Nlohmann.find key j = none := by
  cases h with
  | obj hmembers =>
    have hrel := hmembers key
    rw [hkey] at hrel
    cases hrel' : lookup key _ with
    | none => exact hrel'
    | some w =>
      rw [hrel'] at hrel
      cases hrel

end find

end Json

end OWalkie
