import OWalkie.Lib.Kotlin
import OWalkie.Lib.Nlohmann

/-!
# Reading JSON the way of org.json

The `opt` and `get` functions of `JSONObject` for the types in use.  They convert a value of another
type where they can; the conversions that go through a text are parameters (`Coercions`).
-/

namespace OWalkie

namespace OrgJson

/-- The conversions between texts and other values. -/
structure Coercions where
  /-- `String.valueOf` of a value that is no string. -/
  text : Json → String
  /-- `Double.valueOf` of a text. -/
  double : String → Option ℚ

/-- `opt(name)`. -/
def opt (name : String) : Json → Option Json
  | .obj members => Json.lookup name members
  | _ => none

def has (name : String) (json : Json) : Bool := (opt name json).isSome

def optJSONObject (name : String) (json : Json) : Option Json :=
  match opt name json with
  | some (.obj members) => some (.obj members)
  | _ => none

def optJSONArray (name : String) (json : Json) : Option (List Json) :=
  match opt name json with
  | some (.arr elems) => some elems
  | _ => none

/-- `optString(name, "")`. -/
def optString (coerce : Coercions) (name : String) (json : Json) : String :=
  match opt name json with
  | some (.str s) => s
  | some v => coerce.text v
  | none => ""

/-- A number, brought into the range of an `Int` as Java converts a `double`. -/
def saturate (n : ℤ) : ℤ := max (-2 ^ 31) (min n (2 ^ 31 - 1))

/-- `Number.intValue()`; an integer beyond a `long` was read as a `double`. -/
def intValue : Json → Option ℤ
  | .int n => some (if -2 ^ 63 ≤ n ∧ n < 2 ^ 63 then n.bmod (2 ^ 32) else saturate n)
  | .float q => some (saturate (Nlohmann.truncate q))
  | _ => none

/-- `JSON.toInteger`. -/
def toInteger (coerce : Coercions) : Json → Option ℤ
  | .str s => (coerce.double s).map fun q => saturate (Nlohmann.truncate q)
  | v => intValue v

/-- `JSON.toDouble`. -/
def toDouble (coerce : Coercions) : Json → Option ℚ
  | .int n => some n
  | .float q => some q
  | .str s => coerce.double s
  | _ => none

def optInt (coerce : Coercions) (name : String) (fallback : ℤ) (json : Json) : ℤ :=
  ((opt name json).bind (toInteger coerce)).getD fallback

/-- `getInt(name)`; `none` is the exception. -/
def getInt (coerce : Coercions) (name : String) (json : Json) : Option ℤ :=
  (opt name json).bind (toInteger coerce)

def getDouble (coerce : Coercions) (name : String) (json : Json) : Option ℚ :=
  (opt name json).bind (toDouble coerce)

/-- `JSON.toBoolean`. -/
def toBoolean : Json → Option Bool
  | .bool b => some b
  | .str s =>
    if s.toList.map Kotlin.foldCase = "true".toList then some true
    else if s.toList.map Kotlin.foldCase = "false".toList then some false
    else none
  | _ => none

def optBoolean (name : String) (fallback : Bool) (json : Json) : Bool :=
  ((opt name json).bind toBoolean).getD fallback

def isNull (name : String) (json : Json) : Bool :=
  match opt name json with
  | some .null => true
  | some _ => false
  | none => true

/-- A number that fits into an `Int` is read as it is. -/
theorem intValue_of_fits {n : ℤ} (h : -2 ^ 31 ≤ n ∧ n < 2 ^ 31) : intValue (.int n) = some n := by
  rw [intValue, if_pos (by omega), Int.bmod_eq_of_le (by omega) (by omega)]

theorem opt_eq_find (name : String) (json : Json) : opt name json = Nlohmann.find name json := by
  cases json <;> rfl

end OrgJson

end OWalkie
