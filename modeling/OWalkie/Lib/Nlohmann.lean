import OWalkie.Lib.Json

/-!
# Reading JSON the way of nlohmann::json

`get<T>()` and `value(key, default)` for the types in use; `none` is the exception that they throw.
Numbers convert as `static_cast` converts them, and an integer type takes a Boolean too.
-/

namespace OWalkie

namespace Json

/-- The value of the key; the last member with it counts. -/
def lookup (key : String) : List (String × Json) → Option Json
  | [] => none
  | (k, v) :: members =>
    match lookup key members with
    | some w => some w
    | none => if k = key then some v else none

end Json

namespace Nlohmann

/-- The integer part of a number. -/
def truncate (q : ℚ) : ℤ := q.num.tdiv q.den

def getInt : Json → Option ℤ
  | .int n => some (n.bmod (2 ^ 32))
  | .float q => some (truncate q)
  | .bool b => some (if b then 1 else 0)
  | _ => none

def getUnsigned : Json → Option ℕ
  | .int n => some (n % 2 ^ 32).toNat
  | .float q => some (truncate q % 2 ^ 32).toNat
  | .bool b => some (if b then 1 else 0)
  | _ => none

def getDouble : Json → Option ℚ
  | .int n => some n
  | .float q => some q
  | _ => none

def getBool : Json → Option Bool
  | .bool b => some b
  | _ => none

def getString : Json → Option String
  | .str s => some s
  | _ => none

def find (key : String) : Json → Option Json
  | .obj members => Json.lookup key members
  | _ => none

def contains (key : String) (v : Json) : Bool := (find key v).isSome

/-- `v.value(key, default)`. -/
def value {α : Type} (get : Json → Option α) (key : String) (dflt : α) : Json → Option α
  | .obj members =>
    match Json.lookup key members with
    | some v => get v
    | none => some dflt
  | _ => none

theorem value_of_find {α : Type} {get : Json → Option α} {key : String} {dflt : α} {v w : Json}
    (h : find key v = some w) : value get key dflt v = get w := by
  cases v with
  | obj members =>
    have hlookup : Json.lookup key members = some w := h
    rw [value, hlookup]
  | _ => cases h

theorem value_of_find_none {α : Type} {get : Json → Option α} {key : String} {dflt : α}
    {members : List (String × Json)} (h : find key (.obj members) = none) :
    value get key dflt (.obj members) = some dflt := by
  have hlookup : Json.lookup key members = none := h
  rw [value, hlookup]

theorem isSome_value_iff {α : Type} {get : Json → Option α} {key : String} {dflt : α} {v : Json} :
    (value get key dflt v).isSome ↔
      (∃ members, v = .obj members) ∧ ∀ w, find key v = some w → (get w).isSome := by
  cases v with
  | obj members =>
    cases hfind : find key (.obj members) with
    | none => simp [value_of_find_none hfind]
    | some w => simp [value_of_find hfind]
  | _ => simp [value]

/-- A value other than the default is that of the member. -/
theorem find_of_value {α : Type} {get : Json → Option α} {key : String} {dflt a : α} {v : Json}
    (h : value get key dflt v = some a) (hne : a ≠ dflt) :
    ∃ w, find key v = some w ∧ get w = some a := by
  cases v with
  | obj members =>
    cases hfind : find key (.obj members) with
    | none =>
      rw [value_of_find_none hfind] at h
      exact absurd (Option.some.inj h).symm hne
    | some w => exact ⟨w, rfl, by rwa [value_of_find hfind] at h⟩
  | _ => cases h

theorem getInt_of_fits {n : ℤ} (h : -2 ^ 31 ≤ n ∧ n < 2 ^ 31) : getInt (.int n) = some n := by
  have hmod : n.bmod (2 ^ 32) = n := Int.bmod_eq_of_le (by omega) (by omega)
  rw [getInt, hmod]

theorem getUnsigned_of_fits {n : ℕ} (h : n < 2 ^ 32) : getUnsigned (.int n) = some n := by
  have hmod : (n : ℤ) % 2 ^ 32 = n := Int.emod_eq_of_lt (by omega) (by omega)
  rw [getUnsigned, hmod, Int.toNat_natCast]

end Nlohmann

end OWalkie
