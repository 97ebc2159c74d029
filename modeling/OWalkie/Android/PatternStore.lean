import Mathlib.Data.List.ReduceOption
import OWalkie.Clients.SignalClipboard
import OWalkie.Lib.Run

/-!
# The stores of custom signals

`RogerPatternStore` and `CallingPatternStore` keep the signals of the user as a JSON text in the
preferences, which every operation reads and writes anew.  `keeps_iff`: ids and names stay
different, and what was saved is selected, exactly if no new id and no new name of a signal is one
in use.
-/

namespace OWalkie

open Run Signal Json

structure RogerPattern where
  id : String
  name : String
  points : List Point
  builtIn : Bool
  repeatCount : Option ℤ := none
deriving DecidableEq

/-- The parts of Android and of org.json that the stores use. -/
structure Platform (T : Type) where
  coerce : OrgJson.Coercions
  /-- the character that `equals(ignoreCase = true)` compares -/
  fold : Char → Char
  /-- `R.string.roger_no_signal_option` -/
  noSignal : String
  /-- `JSONArray.toString()` -/
  toText : List Json → T
  /-- `JSONArray(raw)`, or its exception -/
  JSONArray : T → Option (List Json)
  reads : ∀ elems, ∃ elems', JSONArray (toText elems) = some elems' ∧
    List.Forall₂ ReadAs elems elems'

/-! ## One signal -/

/-- A point of a stored signal, unless the loop goes on with the next one. -/
def loadPoint (coerce : OrgJson.Coercions) (pt : Json) : Option Point :=
  match pt with
  | .obj _ =>
    match OrgJson.getDouble coerce "freqHz" pt with
    | none => none -- `NaN`
    | some freq =>
      let dur := OrgJson.optInt coerce "durationMs" (-1) pt
      if dur ≤ 0 ∨ freq < 0 then none else some ⟨freq, dur⟩
  | _ => none

def savePoint (p : Point) : Json :=
  .obj [("freqHz", .float p.freqHz), ("durationMs", .int p.durationMs)]

/-- What the two loops of `loadCustomPatterns` share. -/
def loadPattern (coerce : OrgJson.Coercions) (repeatCount : Option ℤ) (o : Json) :
    Option RogerPattern :=
  let id := OrgJson.optString coerce "id" o
  let name := OrgJson.optString coerce "name" o
  if OrgJson.optBoolean "builtIn" false o then none
  else
    match OrgJson.optJSONArray "points" o with
    | none => none
    | some ptsArr =>
      let pts := ptsArr.filterMap (loadPoint coerce)
      if id = "" ∨ pts = [] then none
      else
        some
          { id := id
            name := name
            points := pts
            builtIn := false
            repeatCount := repeatCount }

/-- What the two loops of `saveCustomPatterns` share. -/
def savePattern (p : RogerPattern) : List (String × Json) :=
  [("id", .str p.id), ("name", .str p.name), ("builtIn", .bool p.builtIn),
    ("points", .arr (p.points.map savePoint))]

namespace RogerPatternStore

def loadItem (coerce : OrgJson.Coercions) : Json → Option (Option RogerPattern)
  | .obj members => some (loadPattern coerce none (.obj members))
  | _ => some none

def saveItem (p : RogerPattern) : Json := .obj (savePattern p)

def builtInPatterns (noSignal : String) : List RogerPattern :=
  [⟨"none", noSignal, [], true, none⟩,
    ⟨"variant_1", "Вариант 1", [⟨890, 20⟩, ⟨670, 20⟩, ⟨890, 45⟩, ⟨1000, 28⟩], true, none⟩,
    ⟨"variant_2", "Вариант 2", [⟨1000, 88⟩, ⟨800, 64⟩], true, none⟩,
    ⟨"variant_3", "Вариант 3", [⟨1330, 68⟩, ⟨1600, 56⟩], true, none⟩]

end RogerPatternStore

namespace CallingPatternStore

/-- An element that is no object is an exception, which drops all signals. -/
def loadItem (coerce : OrgJson.Coercions) : Json → Option (Option RogerPattern)
  | .obj members =>
    let o := Json.obj members
    let rc :=
      if OrgJson.has "repeatCount" o ∧ OrgJson.isNull "repeatCount" o = false then
        some (max 1 (OrgJson.optInt coerce "repeatCount" 1 o))
      else none
    some (loadPattern coerce rc o)
  | _ => none

def saveItem (p : RogerPattern) : Json :=
  .obj (savePattern p ++ [("repeatCount", .int ((p.repeatCount.map (max 1)).getD 1))])

def builtInPatterns : List RogerPattern :=
  [⟨"call_variant_1", "Вариант 1", [⟨2300, 70⟩, ⟨1850, 70⟩, ⟨1450, 70⟩], true, some 9⟩,
    ⟨"call_variant_2", "Вариант 2",
      [⟨1150, 35⟩, ⟨1350, 35⟩, ⟨1550, 35⟩, ⟨1750, 35⟩, ⟨1550, 35⟩, ⟨1350, 35⟩], true, some 14⟩,
    ⟨"call_variant_3", "Вариант 3", [⟨2000, 60⟩, ⟨1000, 60⟩], true, some 32⟩]

end CallingPatternStore

/-! ## The stores -/

inductive SignalKind where
  | roger
  | calling
deriving DecidableEq

namespace SignalKind

def loadItem : SignalKind → OrgJson.Coercions → Json → Option (Option RogerPattern)
  | .roger => RogerPatternStore.loadItem
  | .calling => CallingPatternStore.loadItem

def saveItem : SignalKind → RogerPattern → Json
  | .roger => RogerPatternStore.saveItem
  | .calling => CallingPatternStore.saveItem

def builtInPatterns (noSignal : String) : SignalKind → List RogerPattern
  | .roger => RogerPatternStore.builtInPatterns noSignal
  | .calling => CallingPatternStore.builtInPatterns

/-- The repeat count of a signal that the store saves anew. -/
def repeats (repeatCount : ℤ) : SignalKind → Option ℤ
  | .roger => none
  | .calling => some (max 1 repeatCount)

/-- The signal after `updateCustomPattern`; that of `RogerPatternStore` keeps its repeat count. -/
def updated (name : String) (points : List Point) (repeatCount : ℤ) (old : RogerPattern) :
    SignalKind → RogerPattern
  | .roger => { old with name := name, points := points }
  | .calling => { old with name := name, points := points, repeatCount := some (max 1 repeatCount) }

theorem builtInPatterns_ne (noSignal : String) (k : SignalKind) :
    k.builtInPatterns noSignal ≠ [] := by
  cases k <;> exact List.cons_ne_nil _ _

end SignalKind

/-- What the editor hands over. -/
structure EditorSignal where
  name : String
  points : List Point
  repeatCount : ℤ
  points_ne : points ≠ []
  points_ok : ∀ p ∈ points, 0 ≤ p.freqHz ∧ 0 < p.durationMs ∧ p.durationMs < 2 ^ 31
  repeat_lt : repeatCount < 2 ^ 31

structure Prefs (T : Type) where
  customItems : Option T := none
  selectedId : Option String := none

inductive StoreAction where
  | saveCustomPattern (now : ℤ) (signal : EditorSignal)
  | updateCustomPattern (patternId : String) (signal : EditorSignal)
  | deleteCustomPattern (patternId : String)
  | setSelectedPattern (patternId : String)

/-- `"custom_${System.currentTimeMillis()}"` -/
def newId (now : ℤ) : String := "custom_" ++ toString now

namespace PatternStore

variable {T : Type} (k : SignalKind) (env : Platform T)

/-- What `equals(ignoreCase = true)` compares of a name. -/
def nameKey (name : String) : List Char := name.toList.map env.fold

def cleaned (name : String) : String := .ofList (Kotlin.trim name.toList)

def loadCustomPatterns (s : Prefs T) : List RogerPattern :=
  match s.customItems with
  | none => []
  | some raw =>
    (do
      let arr ← env.JSONArray raw
      let out ← arr.mapM (k.loadItem env.coerce)
      some (out.reduceOption.filter fun p : RogerPattern => p.builtIn = false ∧ p.points ≠ [])).getD []

def saveCustomPatterns (items : List RogerPattern) (s : Prefs T) : Prefs T :=
  { s with customItems := some (env.toText (items.map k.saveItem)) }

def getAllPatterns (s : Prefs T) : List RogerPattern :=
  k.builtInPatterns env.noSignal ++ loadCustomPatterns k env s

def getSelectedPattern (s : Prefs T) : RogerPattern :=
  ((getAllPatterns k env s).find? fun p => some p.id = s.selectedId).getD
    ((k.builtInPatterns env.noSignal).head (k.builtInPatterns_ne env.noSignal))

def setSelectedPattern (patternId : String) (s : Prefs T) : Prefs T :=
  { s with selectedId := some patternId }

def saveCustomPattern (now : ℤ) (signal : EditorSignal) (s : Prefs T) : Prefs T × RogerPattern :=
  let custom := loadCustomPatterns k env s
  let existingIdx := custom.findIdx? fun p => nameKey env p.name = nameKey env (cleaned signal.name)
  let pattern : RogerPattern :=
    { id := ((existingIdx.bind (custom[·]?)).map (·.id)).getD (newId now)
      name := cleaned signal.name
      points := signal.points
      builtIn := false
      repeatCount := k.repeats signal.repeatCount }
  let custom :=
    match existingIdx with
    | some i => custom.set i pattern
    | none => custom ++ [pattern]
  (setSelectedPattern pattern.id (saveCustomPatterns k env custom s), pattern)

def updateCustomPattern (patternId : String) (signal : EditorSignal) (s : Prefs T) :
    Prefs T × Bool :=
  if cleaned signal.name = "" ∨ signal.points = [] then (s, false)
  else
    let custom := loadCustomPatterns k env s
    match custom.findIdx? fun p => p.id = patternId with
    | none => (s, false)
    | some i =>
      let custom := custom.modify i fun old =>
        k.updated (cleaned signal.name) signal.points signal.repeatCount old
      (setSelectedPattern patternId (saveCustomPatterns k env custom s), true)

def deleteCustomPattern (patternId : String) (s : Prefs T) : Prefs T × Bool :=
  let custom := loadCustomPatterns k env s
  if custom.all fun p => p.id ≠ patternId then (s, false)
  else
    let s' := saveCustomPatterns k env (custom.filter fun p => p.id ≠ patternId) s
    if s.selectedId = some patternId then
      (setSelectedPattern
        ((k.builtInPatterns env.noSignal).head (k.builtInPatterns_ne env.noSignal)).id s', true)
    else (s', true)

def step (s : Prefs T) : StoreAction → Prefs T
  | .saveCustomPattern now signal => (saveCustomPattern k env now signal s).1
  | .updateCustomPattern patternId signal => (updateCustomPattern k env patternId signal s).1
  | .deleteCustomPattern patternId => (deleteCustomPattern k env patternId s).1
  | .setSelectedPattern patternId => setSelectedPattern patternId s

/-! ## What the stores promise -/

/-- Ids and names, up to case, are different. -/
structure Distinct (custom : List RogerPattern) : Prop where
  ids : (custom.map (·.id)).Nodup
  names : (custom.map fun p => nameKey env p.name).Nodup

/-- After a save or an update that succeeded its signal is selected. -/
def Selects (s : Prefs T) : StoreAction → Prop
  | .saveCustomPattern now signal =>
    getSelectedPattern k env (saveCustomPattern k env now signal s).1 =
        (saveCustomPattern k env now signal s).2 ∧
      (saveCustomPattern k env now signal s).2.name = cleaned signal.name ∧
      (saveCustomPattern k env now signal s).2.points = signal.points ∧
      (saveCustomPattern k env now signal s).2.repeatCount = k.repeats signal.repeatCount
  | .updateCustomPattern patternId signal =>
    (updateCustomPattern k env patternId signal s).2 = true →
      getSelectedPattern k env (updateCustomPattern k env patternId signal s).1 =
        { id := patternId
          name := cleaned signal.name
          points := signal.points
          builtIn := false
          repeatCount := k.repeats signal.repeatCount }
  | _ => True

/-- What an operation has to keep. -/
def Keeps (s : Prefs T) (a : StoreAction) : Prop :=
  Distinct env (loadCustomPatterns k env (step k env s a)) ∧ Selects k env s a

/-- The operation takes no id and no name that another signal has. -/
def Unused (s : Prefs T) : StoreAction → Prop
  | .saveCustomPattern now signal =>
    (∃ p ∈ loadCustomPatterns k env s, nameKey env p.name = nameKey env (cleaned signal.name)) ∨
      ∀ p ∈ loadCustomPatterns k env s, p.id ≠ newId now
  | .updateCustomPattern patternId signal =>
    cleaned signal.name = "" ∨ (∀ p ∈ loadCustomPatterns k env s, p.id ≠ patternId) ∨
      ∀ p ∈ loadCustomPatterns k env s, p.id ≠ patternId →
        nameKey env p.name ≠ nameKey env (cleaned signal.name)
  | _ => True

instance (s : Prefs T) : ∀ a, Decidable (Unused k env s a)
  | .saveCustomPattern _ _ => inferInstanceAs (Decidable (_ ∨ _))
  | .updateCustomPattern _ _ => inferInstanceAs (Decidable (_ ∨ _ ∨ _))
  | .deleteCustomPattern _ => inferInstanceAs (Decidable True)
  | .setSelectedPattern _ => inferInstanceAs (Decidable True)

end PatternStore

/-! ## What is saved is read back -/

/-- The repeat counts that a store keeps. -/
def SignalKind.Takes : SignalKind → Option ℤ → Prop
  | .roger, rc => rc = none
  | .calling, rc => ∃ n, rc = some n ∧ 1 ≤ n ∧ n < 2 ^ 31

theorem SignalKind.takes_repeats (k : SignalKind) {n : ℤ} (h : n < 2 ^ 31) :
    k.Takes (k.repeats n) := by
  cases k with
  | roger => rfl
  | calling => exact ⟨max 1 n, rfl, le_max_left _ _, max_lt (by decide) h⟩

/-- A signal that a store can read back. -/
structure Stored (k : SignalKind) (p : RogerPattern) : Prop where
  id_ne : p.id ≠ ""
  custom : p.builtIn = false
  points_ne : p.points ≠ []
  points_ok : ∀ q ∈ p.points, 0 ≤ q.freqHz ∧ 0 < q.durationMs ∧ q.durationMs < 2 ^ 31
  repeats : k.Takes p.repeatCount

section reading

variable (coerce : OrgJson.Coercions) {e : Json}

theorem loadPoint_saved {p : Point} (h : ReadAs (savePoint p) e)
    (hp : 0 ≤ p.freqHz ∧ 0 < p.durationMs ∧ p.durationMs < 2 ^ 31) :
    loadPoint coerce e = some p := by
  have hfreqKey : lookup "freqHz" [("freqHz", .float p.freqHz), ("durationMs", .int p.durationMs)] =
      some (.float p.freqHz) := by simp [lookup]
  have hdurKey : lookup "durationMs"
      [("freqHz", .float p.freqHz), ("durationMs", .int p.durationMs)] =
        some (.int p.durationMs) := by simp [lookup]
  obtain ⟨freq, hfreq, hfreqRead⟩ := h.find hfreqKey
  obtain ⟨dur, hdur, hdurRead⟩ := h.find hdurKey
  cases hdurRead
  have hdouble : OrgJson.getDouble coerce "freqHz" e = some p.freqHz := by
    rw [OrgJson.getDouble, OrgJson.opt_eq_find, hfreq]
    cases hfreqRead with
    | float hq => cases freq <;> simp_all [Nlohmann.getDouble, OrgJson.toDouble]
  have hint : OrgJson.optInt coerce "durationMs" (-1) e = p.durationMs := by
    rw [OrgJson.optInt, OrgJson.opt_eq_find, hdur, Option.bind_some,
      show OrgJson.toInteger coerce (.int p.durationMs) = some p.durationMs from
        OrgJson.intValue_of_fits (by omega)]
    rfl
  have hrange : ¬ (p.durationMs ≤ 0 ∨ p.freqHz < 0) :=
    not_or.2 ⟨not_le.2 hp.2.1, not_lt.2 hp.1⟩
  cases h with
  | obj _ => simp only [loadPoint, hdouble, hint, if_neg hrange]

theorem loadPoints_saved {points : List Point} {elems : List Json}
    (h : List.Forall₂ ReadAs (points.map savePoint) elems)
    (hp : ∀ p ∈ points, 0 ≤ p.freqHz ∧ 0 < p.durationMs ∧ p.durationMs < 2 ^ 31) :
    elems.filterMap (loadPoint coerce) = points := by
  induction points generalizing elems with
  | nil =>
    cases h
    rfl
  | cons p points ih =>
    rw [List.map_cons] at h
    cases h with
    | cons hpoint hrest =>
      rw [List.filterMap_cons_some (loadPoint_saved coerce hpoint (hp p List.mem_cons_self)),
        ih hrest fun q hq => hp q (List.mem_cons_of_mem _ hq)]

/-- The members of a signal, among others. -/
structure Shows (members : List (String × Json)) (p : RogerPattern) : Prop where
  id : lookup "id" members = some (.str p.id)
  name : lookup "name" members = some (.str p.name)
  builtIn : lookup "builtIn" members = some (.bool p.builtIn)
  points : lookup "points" members = some (.arr (p.points.map savePoint))

variable {members : List (String × Json)} {p : RogerPattern} {k : SignalKind}

theorem optString_of_read (h : ReadAs (.obj members) e) {key text : String}
    (hkey : lookup key members = some (.str text)) : OrgJson.optString coerce key e = text := by
  obtain ⟨w, hw, hread⟩ := h.find hkey
  cases hread
  rw [OrgJson.optString, OrgJson.opt_eq_find, hw]

theorem loadPattern_saved (h : ReadAs (.obj members) e) (hshows : Shows members p)
    (hp : Stored k p) (rc : Option ℤ) :
    loadPattern coerce rc e = some { p with repeatCount := rc } := by
  obtain ⟨builtIn, hbuiltIn, hbuiltInRead⟩ := h.find hshows.builtIn
  obtain ⟨arr, harr, harrRead⟩ := h.find hshows.points
  cases hbuiltInRead
  cases harrRead with
  | arr helems =>
    have hcustom : OrgJson.optBoolean "builtIn" false e = false := by
      rw [OrgJson.optBoolean, OrgJson.opt_eq_find, hbuiltIn, hp.custom]
      rfl
    have hpoints := loadPoints_saved coerce helems hp.points_ok
    rw [loadPattern, hcustom, OrgJson.optJSONArray, OrgJson.opt_eq_find, harr]
    simp only [Bool.false_eq_true, if_false, hpoints, optString_of_read coerce h hshows.id,
      optString_of_read coerce h hshows.name, hp.id_ne, hp.points_ne, or_self]
    rw [← hp.custom]

theorem shows_savePattern (p : RogerPattern) (rc : List (String × Json))
    (hrc : rc = [] ∨ ∃ v, rc = [("repeatCount", v)]) : Shows (savePattern p ++ rc) p := by
  rcases hrc with rfl | ⟨v, rfl⟩ <;> constructor <;> simp [savePattern, lookup]

/-- A signal comes back as it was. -/
theorem loadItem_saved (h : ReadAs (k.saveItem p) e) (hp : Stored k p) :
    k.loadItem coerce e = some (some p) := by
  cases k with
  | roger =>
    have hshows : Shows (savePattern p) p := by
      simpa using shows_savePattern p [] (.inl rfl)
    have hload := loadPattern_saved coerce h hshows hp none
    cases h with
    | obj _ =>
      show some (loadPattern coerce none _) = _
      rw [hload, ← show p.repeatCount = none from hp.repeats]
  | calling =>
    obtain ⟨n, hn, hpos, hlt⟩ := hp.repeats
    have hkey : lookup "repeatCount" (savePattern p ++
        [("repeatCount", .int ((p.repeatCount.map (max 1)).getD 1))]) = some (.int n) := by
      simp [savePattern, lookup, hn, max_eq_right hpos]
    obtain ⟨w, hw, hwRead⟩ := h.find hkey
    cases hwRead
    have hload := loadPattern_saved coerce h
      (shows_savePattern p _ (.inr ⟨_, rfl⟩)) hp (some n)
    have hint : OrgJson.toInteger coerce (.int n) = some n :=
      OrgJson.intValue_of_fits (by omega)
    cases h with
    | obj hmembers =>
      rw [SignalKind.loadItem, CallingPatternStore.loadItem]
      simp only [OrgJson.has, OrgJson.isNull, OrgJson.optInt, OrgJson.opt_eq_find, hw,
        Option.isSome_some, and_self, if_true, Option.bind_some, hint, Option.getD_some,
        max_eq_right hpos, hload]
      rw [← hn]

end reading

namespace PatternStore

variable {T : Type} {k : SignalKind} {env : Platform T} {custom : List RogerPattern}

theorem mapM_loadItem {arr : List Json} (h : List.Forall₂ ReadAs (custom.map k.saveItem) arr)
    (hs : ∀ p ∈ custom, Stored k p) : arr.mapM (k.loadItem env.coerce) = some (custom.map some) := by
  induction custom generalizing arr with
  | nil =>
    cases h
    rfl
  | cons p custom ih =>
    rw [List.map_cons] at h
    cases h with
    | cons hitem hrest =>
      rw [List.mapM_cons, loadItem_saved env.coerce hitem (hs p List.mem_cons_self),
        ih hrest fun q hq => hs q (List.mem_cons_of_mem _ hq)]
      rfl

/-- What was written is read back. -/
theorem load_saveCustomPatterns (env : Platform T) (hs : ∀ p ∈ custom, Stored k p) (s : Prefs T) :
    loadCustomPatterns k env (saveCustomPatterns k env custom s) = custom := by
  obtain ⟨arr, harr, hread⟩ := env.reads (custom.map k.saveItem)
  have hall : (custom.filter fun p => p.builtIn = false ∧ p.points ≠ []) = custom :=
    List.filter_eq_self.2 fun p hp => decide_eq_true ⟨(hs p hp).custom, (hs p hp).points_ne⟩
  have hsome : (custom.map some).reduceOption = custom := by
    rw [List.reduceOption, List.filterMap_map]
    exact List.filterMap_some
  show (env.JSONArray (env.toText (custom.map k.saveItem)) >>= _).getD [] = custom
  rw [harr]
  show (arr.mapM (k.loadItem env.coerce) >>= _).getD [] = custom
  rw [mapM_loadItem hread hs]
  show ((custom.map some).reduceOption.filter _) = custom
  rw [hsome, hall]

@[simp] theorem load_setSelectedPattern (id : String) (s : Prefs T) :
    loadCustomPatterns k env (setSelectedPattern id s) = loadCustomPatterns k env s := rfl

/-! ## Ids and names -/

theorem split_of_findIdx? {P : RogerPattern → Bool} {i : ℕ} (h : custom.findIdx? P = some i) :
    ∃ pre old post, custom = pre ++ old :: post ∧ P old = true ∧ custom[i]? = some old ∧
      (∀ x, custom.set i x = pre ++ x :: post) ∧
      ∀ f, custom.modify i f = pre ++ f old :: post := by
  induction custom generalizing i with
  | nil => cases h
  | cons p custom ih =>
    rw [List.findIdx?_cons] at h
    by_cases hp : P p = true
    · rw [if_pos hp] at h
      cases h
      exact ⟨[], p, custom, rfl, hp, rfl, fun _ => rfl, fun _ => rfl⟩
    · rw [if_neg hp] at h
      obtain ⟨j, hj, rfl⟩ := Option.map_eq_some_iff.1 h
      obtain ⟨pre, old, post, rfl, hold, hget, hset, hmodify⟩ := ih hj
      refine ⟨p :: pre, old, post, rfl, hold, hget, fun x => ?_, fun f => ?_⟩
      · rw [List.set_cons_succ, hset, List.cons_append]
      · rw [List.modify_succ_cons, hmodify, List.cons_append]

variable {pre post : List RogerPattern} {old x : RogerPattern}

theorem mem_middle {q : RogerPattern} : q ∈ pre ++ x :: post ↔ q = x ∨ q ∈ pre ++ post := by
  rw [List.mem_append, List.mem_cons, List.mem_append, or_left_comm]

/-- A signal in the place of another one with its id. -/
theorem distinct_replace (h : Distinct env (pre ++ old :: post)) (hid : x.id = old.id) :
    Distinct env (pre ++ x :: post) ↔
      ∀ q ∈ pre ++ post, nameKey env q.name ≠ nameKey env x.name := by
  have hids : ((pre ++ x :: post).map (·.id)).Nodup := by
    have := h.ids
    rw [List.map_append, List.map_cons] at this ⊢
    rwa [hid]
  have hrest : ((pre ++ post).map fun p => nameKey env p.name).Nodup := by
    have := h.names
    rw [List.map_append, List.map_cons, List.nodup_middle, List.nodup_cons] at this
    rw [List.map_append]
    exact this.2
  constructor
  · intro hx q hq heq
    have := hx.names
    rw [List.map_append, List.map_cons, List.nodup_middle, List.nodup_cons, ← List.map_append]
      at this
    exact this.1 (List.mem_map.2 ⟨q, hq, heq⟩)
  · intro hx
    refine ⟨hids, ?_⟩
    rw [List.map_append, List.map_cons, List.nodup_middle, List.nodup_cons, ← List.map_append]
    refine ⟨fun hmem => ?_, hrest⟩
    obtain ⟨q, hq, heq⟩ := List.mem_map.1 hmem
    exact hx q hq heq

/-- A further signal. -/
theorem distinct_snoc (h : Distinct env custom)
    (hname : ∀ q ∈ custom, nameKey env q.name ≠ nameKey env x.name) :
    Distinct env (custom ++ [x]) ↔ ∀ q ∈ custom, q.id ≠ x.id := by
  constructor
  · intro hx q hq heq
    have := hx.ids
    rw [List.map_append, List.nodup_append] at this
    exact this.2.2 q.id (List.mem_map.2 ⟨q, hq, rfl⟩) x.id List.mem_cons_self heq
  · intro hx
    constructor
    · rw [List.map_append, List.nodup_append]
      refine ⟨h.ids, List.nodup_singleton _, ?_⟩
      rintro id hid id' hid' rfl
      obtain ⟨q, hq, rfl⟩ := List.mem_map.1 hid
      exact hx q hq (List.mem_singleton.1 hid')
    · rw [List.map_append, List.nodup_append]
      refine ⟨h.names, List.nodup_singleton _, ?_⟩
      rintro key hkey key' hkey' rfl
      obtain ⟨q, hq, rfl⟩ := List.mem_map.1 hkey
      exact hname q hq (List.mem_singleton.1 hkey')

theorem Distinct.filter (h : Distinct env custom) (P : RogerPattern → Bool) :
    Distinct env (custom.filter P) :=
  ⟨(List.filter_sublist.map _).nodup h.ids, (List.filter_sublist.map _).nodup h.names⟩

/-! ## The selected signal -/

/-- The ids of the user's signals begin like `custom_`, and no id of a built-in one does. -/
theorem builtIn_id_ne {b : RogerPattern} (hb : b ∈ k.builtInPatterns env.noSignal) (now : ℤ) :
    b.id ≠ newId now := by
  intro heq
  have hcustom : (newId now).toList.take 2 = ['c', 'u'] := by
    rw [newId, String.toList_append]
    rfl
  have hbuiltIn : b.id.toList.take 2 ≠ ['c', 'u'] := by
    cases k with
    | roger =>
      simp only [SignalKind.builtInPatterns, RogerPatternStore.builtInPatterns, List.mem_cons,
        List.not_mem_nil, or_false] at hb
      rcases hb with rfl | hb
      · show "none".toList.take 2 ≠ ['c', 'u']
        decide
      · rcases hb with rfl | rfl | rfl <;> decide
    | calling =>
      simp only [SignalKind.builtInPatterns, CallingPatternStore.builtInPatterns, List.mem_cons,
        List.not_mem_nil, or_false] at hb
      rcases hb with rfl | rfl | rfl <;> decide
  exact hbuiltIn (heq ▸ hcustom)

theorem find_of_nodup {p : RogerPattern} (h : (custom.map (·.id)).Nodup) (hp : p ∈ custom) :
    (custom.find? fun q => q.id = p.id) = some p := by
  induction custom with
  | nil => cases hp
  | cons q custom ih =>
    rw [List.map_cons, List.nodup_cons] at h
    rcases List.mem_cons.1 hp with rfl | hp
    · exact List.find?_cons_of_pos (by simp)
    · have hne : q.id ≠ p.id := fun heq => h.1 (heq ▸ List.mem_map.2 ⟨p, hp, rfl⟩)
      rw [List.find?_cons_of_neg (by simpa using hne)]
      exact ih h.2 hp

theorem getSelectedPattern_eq {s : Prefs T} {p : RogerPattern}
    (hids : ((loadCustomPatterns k env s).map (·.id)).Nodup) (hp : p ∈ loadCustomPatterns k env s)
    (hown : ∀ b ∈ k.builtInPatterns env.noSignal, b.id ≠ p.id) (hsel : s.selectedId = some p.id) :
    getSelectedPattern k env s = p := by
  have hbuiltIn : (k.builtInPatterns env.noSignal).find? (fun q => q.id = p.id) = none :=
    List.find?_eq_none.2 fun b hb => by simpa using hown b hb
  rw [getSelectedPattern, getAllPatterns, hsel]
  simp only [Option.some.injEq]
  rw [List.find?_append, hbuiltIn, Option.none_or, find_of_nodup hids hp]
  rfl

/-! ## Every operation -/

variable (k env) in
/-- What holds of the store in every run whose operations keep to unused ids and names. -/
structure WellFormed (s : Prefs T) : Prop where
  distinct : Distinct env (loadCustomPatterns k env s)
  stored : ∀ p ∈ loadCustomPatterns k env s, Stored k p
  own : ∀ p ∈ loadCustomPatterns k env s, ∀ b ∈ k.builtInPatterns env.noSignal, b.id ≠ p.id

variable {s : Prefs T} {now : ℤ} {signal : EditorSignal} {patternId : String}

theorem newId_ne (now : ℤ) : newId now ≠ "" := by
  intro h
  have hlen := congrArg (fun t : String => t.toList.length) h
  rw [newId, String.toList_append, List.length_append] at hlen
  exact absurd hlen (Nat.ne_of_gt (Nat.lt_add_right _ (by decide)))

/-- What the editor hands over, under an id. -/
def edited (k : SignalKind) (id : String) (signal : EditorSignal) : RogerPattern where
  id := id
  name := cleaned signal.name
  points := signal.points
  builtIn := false
  repeatCount := k.repeats signal.repeatCount

theorem stored_edited {id : String} (hid : id ≠ "") (signal : EditorSignal) :
    Stored k (edited k id signal) where
  id_ne := hid
  custom := rfl
  points_ne := signal.points_ne
  points_ok := signal.points_ok
  repeats := k.takes_repeats signal.repeat_lt

/-- The two ways that a signal is saved: in the place of one with its name, or as a further one. -/
theorem saveCustomPattern_cases (k : SignalKind) (env : Platform T) (s : Prefs T) (now : ℤ)
    (signal : EditorSignal) :
    (∃ pre old post, loadCustomPatterns k env s = pre ++ old :: post ∧
        nameKey env old.name = nameKey env (cleaned signal.name) ∧
        saveCustomPattern k env now signal s =
          (setSelectedPattern old.id (saveCustomPatterns k env
            (pre ++ edited k old.id signal :: post) s),
          edited k old.id signal)) ∨
      (∀ q ∈ loadCustomPatterns k env s,
          nameKey env q.name ≠ nameKey env (cleaned signal.name)) ∧
        saveCustomPattern k env now signal s =
          (setSelectedPattern (newId now) (saveCustomPatterns k env
            (loadCustomPatterns k env s ++ [edited k (newId now) signal]) s),
          edited k (newId now) signal) := by
  cases hidx : (loadCustomPatterns k env s).findIdx?
      fun p => nameKey env p.name = nameKey env (cleaned signal.name) with
  | none =>
    refine .inr ⟨fun q hq => by simpa using List.findIdx?_eq_none_iff.1 hidx q hq, ?_⟩
    simp [saveCustomPattern, hidx, edited]
  | some i =>
    obtain ⟨pre, old, post, hcustom, hold, hget, hset, -⟩ := split_of_findIdx? hidx
    refine .inl ⟨pre, old, post, hcustom, of_decide_eq_true hold, ?_⟩
    simp [saveCustomPattern, hidx, hget, hset, edited]

/-- An update fails, or the signal with the id gets the new values. -/
theorem updateCustomPattern_cases (h : WellFormed k env s) (patternId : String)
    (signal : EditorSignal) :
    (cleaned signal.name = "" ∨ ∀ p ∈ loadCustomPatterns k env s, p.id ≠ patternId) ∧
        updateCustomPattern k env patternId signal s = (s, false) ∨
      cleaned signal.name ≠ "" ∧ ∃ pre old post,
        loadCustomPatterns k env s = pre ++ old :: post ∧ old.id = patternId ∧
          updateCustomPattern k env patternId signal s =
            (setSelectedPattern patternId (saveCustomPatterns k env
              (pre ++ edited k patternId signal :: post) s), true) := by
  by_cases hname : cleaned signal.name = ""
  · refine .inl ⟨.inl hname, ?_⟩
    rw [updateCustomPattern, if_pos (.inl hname)]
  have hgo : ¬ (cleaned signal.name = "" ∨ signal.points = []) := not_or.2 ⟨hname, signal.points_ne⟩
  cases hidx : (loadCustomPatterns k env s).findIdx? fun p => p.id = patternId with
  | none =>
    refine .inl ⟨.inr fun p hp => by simpa using List.findIdx?_eq_none_iff.1 hidx p hp, ?_⟩
    simp [updateCustomPattern, hgo, hidx]
  | some i =>
    obtain ⟨pre, old, post, hcustom, hold, -, -, hmodify⟩ := split_of_findIdx? hidx
    obtain rfl : old.id = patternId := of_decide_eq_true hold
    have hstored : Stored k old :=
      h.stored old (hcustom ▸ List.mem_append_right pre List.mem_cons_self)
    have hupdated : k.updated (cleaned signal.name) signal.points signal.repeatCount old =
        edited k old.id signal := by
      cases k with
      | roger =>
        have hrepeats : old.repeatCount = none := hstored.repeats
        simp [SignalKind.updated, edited, SignalKind.repeats, hstored.custom, hrepeats]
      | calling =>
        simp [SignalKind.updated, edited, SignalKind.repeats, hstored.custom]
    refine .inr ⟨hname, pre, old, post, hcustom, rfl, ?_⟩
    simp [updateCustomPattern, hgo, hidx, hmodify, hupdated]

/-- A well-formed store after a signal has been written among the ones it had. -/
theorem written {l : List RogerPattern} {id : String} (h : WellFormed k env s) (hid : id ≠ "")
    (hown : ∀ b ∈ k.builtInPatterns env.noSignal, b.id ≠ id)
    (hl : ∀ p ∈ l, p = edited k id signal ∨ p ∈ loadCustomPatterns k env s)
    (hmem : edited k id signal ∈ l) :
    loadCustomPatterns k env (setSelectedPattern id (saveCustomPatterns k env l s)) = l ∧
      (Distinct env l →
        WellFormed k env (setSelectedPattern id (saveCustomPatterns k env l s)) ∧
          getSelectedPattern k env (setSelectedPattern id (saveCustomPatterns k env l s)) =
            edited k id signal) := by
  have hstored : ∀ p ∈ l, Stored k p := fun p hp => by
    rcases hl p hp with rfl | hp
    · exact stored_edited hid signal
    · exact h.stored p hp
  have hload : loadCustomPatterns k env (setSelectedPattern id (saveCustomPatterns k env l s)) = l :=
    load_saveCustomPatterns env hstored s
  refine ⟨hload, fun hdistinct => ⟨⟨hload.symm ▸ hdistinct, hload.symm ▸ hstored, ?_⟩, ?_⟩⟩
  · rw [hload]
    intro p hp b hb
    rcases hl p hp with rfl | hp
    · exact hown b hb
    · exact h.own p hp b hb
  · exact getSelectedPattern_eq (hload.symm ▸ hdistinct.ids) (hload.symm ▸ hmem) hown rfl

theorem written_in_place (h : WellFormed k env s)
    (hcustom : loadCustomPatterns k env s = pre ++ old :: post) (signal : EditorSignal) :
    loadCustomPatterns k env (setSelectedPattern old.id
        (saveCustomPatterns k env (pre ++ edited k old.id signal :: post) s)) =
          pre ++ edited k old.id signal :: post ∧
      (Distinct env (pre ++ edited k old.id signal :: post) →
        WellFormed k env (setSelectedPattern old.id
            (saveCustomPatterns k env (pre ++ edited k old.id signal :: post) s)) ∧
          getSelectedPattern k env (setSelectedPattern old.id
            (saveCustomPatterns k env (pre ++ edited k old.id signal :: post) s)) =
              edited k old.id signal) := by
  have hold : old ∈ loadCustomPatterns k env s :=
    hcustom ▸ List.mem_append_right pre List.mem_cons_self
  apply written h (h.stored old hold).id_ne (h.own old hold)
  · intro p hp
    rw [hcustom]
    exact (mem_middle.1 hp).imp_right fun hp => mem_middle.2 (.inr hp)
  · exact List.mem_append_right pre List.mem_cons_self

theorem wellFormed_of_load_eq {s' : Prefs T} (h : WellFormed k env s)
    (hload : loadCustomPatterns k env s' = loadCustomPatterns k env s) : WellFormed k env s' :=
  ⟨hload ▸ h.distinct, hload ▸ h.stored, hload ▸ h.own⟩

theorem save_keeps_iff (h : WellFormed k env s) (now : ℤ) (signal : EditorSignal) :
    (Keeps k env s (.saveCustomPattern now signal) ↔
        Unused k env s (.saveCustomPattern now signal)) ∧
      (Keeps k env s (.saveCustomPattern now signal) →
        WellFormed k env (step k env s (.saveCustomPattern now signal))) := by
  rcases saveCustomPattern_cases k env s now signal with
    ⟨pre, old, post, hcustom, hname, heq⟩ | ⟨hname, heq⟩
  · have hold : old ∈ loadCustomPatterns k env s :=
      hcustom ▸ List.mem_append_right pre List.mem_cons_self
    have hbefore : Distinct env (pre ++ old :: post) := hcustom ▸ h.distinct
    have hnames : ∀ q ∈ pre ++ post, nameKey env q.name ≠ nameKey env (cleaned signal.name) :=
      hname ▸ (distinct_replace (x := old) hbefore rfl).1 hbefore
    have hdistinct : Distinct env (pre ++ edited k old.id signal :: post) :=
      (distinct_replace (x := edited k old.id signal) hbefore rfl).2 hnames
    obtain ⟨hload, hwritten⟩ := written_in_place h hcustom signal
    obtain ⟨hformed, hselected⟩ := hwritten hdistinct
    have hstep : step k env s (.saveCustomPattern now signal) = setSelectedPattern old.id
        (saveCustomPatterns k env (pre ++ edited k old.id signal :: post) s) := by
      rw [step, heq]
    have hkeeps : Keeps k env s (.saveCustomPattern now signal) := by
      refine ⟨hstep ▸ hload.symm ▸ hdistinct, ?_⟩
      rw [Selects, heq]
      exact ⟨hselected, rfl, rfl, rfl⟩
    exact ⟨iff_of_true hkeeps (.inl ⟨old, hold, hname⟩), fun _ => hstep ▸ hformed⟩
  · have hmem : ∀ p ∈ loadCustomPatterns k env s ++ [edited k (newId now) signal],
        p = edited k (newId now) signal ∨ p ∈ loadCustomPatterns k env s := by
      intro p hp
      rcases List.mem_append.1 hp with hp | hp
      · exact .inr hp
      · exact .inl (List.mem_singleton.1 hp)
    obtain ⟨hload, hwritten⟩ := written h (newId_ne now) (fun b hb => builtIn_id_ne hb now) hmem
      (List.mem_append_right _ List.mem_cons_self)
    have hiff := distinct_snoc (x := edited k (newId now) signal) h.distinct hname
    have hstep : step k env s (.saveCustomPattern now signal) = setSelectedPattern (newId now)
        (saveCustomPatterns k env
          (loadCustomPatterns k env s ++ [edited k (newId now) signal]) s) := by
      rw [step, heq]
    have hunused : Unused k env s (.saveCustomPattern now signal) ↔
        ∀ q ∈ loadCustomPatterns k env s, q.id ≠ newId now :=
      or_iff_right fun ⟨q, hq, hsame⟩ => hname q hq hsame
    rw [hunused, Keeps, hstep, hload]
    refine ⟨⟨fun hkeeps => hiff.1 hkeeps.1, fun hids => ⟨hiff.2 hids, ?_⟩⟩,
      fun hkeeps => (hwritten hkeeps.1).1⟩
    rw [Selects, heq]
    exact ⟨(hwritten (hiff.2 hids)).2, rfl, rfl, rfl⟩

theorem update_keeps_iff (h : WellFormed k env s) (patternId : String) (signal : EditorSignal) :
    (Keeps k env s (.updateCustomPattern patternId signal) ↔
        Unused k env s (.updateCustomPattern patternId signal)) ∧
      (Keeps k env s (.updateCustomPattern patternId signal) →
        WellFormed k env (step k env s (.updateCustomPattern patternId signal))) := by
  rcases updateCustomPattern_cases h patternId signal with
    ⟨hfails, heq⟩ | ⟨hname, pre, old, post, hcustom, rfl, heq⟩
  · have hstep : step k env s (.updateCustomPattern patternId signal) = s := by rw [step, heq]
    have hselects : Selects k env s (.updateCustomPattern patternId signal) := by
      rw [Selects, heq]
      exact fun hfalse => absurd hfalse Bool.false_ne_true
    rw [Keeps, hstep]
    exact ⟨iff_of_true ⟨h.distinct, hselects⟩ (hfails.imp_right .inl), fun _ => h⟩
  · have hold : old ∈ loadCustomPatterns k env s :=
      hcustom ▸ List.mem_append_right pre List.mem_cons_self
    have hbefore : Distinct env (pre ++ old :: post) := hcustom ▸ h.distinct
    obtain ⟨hload, hwritten⟩ := written_in_place h hcustom signal
    have hiff := distinct_replace (x := edited k old.id signal) hbefore rfl
    have hstep : step k env s (.updateCustomPattern old.id signal) = setSelectedPattern old.id
        (saveCustomPatterns k env (pre ++ edited k old.id signal :: post) s) := by
      rw [step, heq]
    have hothers : ∀ q ∈ pre ++ post, q.id ≠ old.id := by
      have hids := hbefore.ids
      rw [List.map_append, List.map_cons, List.nodup_middle, List.nodup_cons, ← List.map_append]
        at hids
      exact fun q hq hsame => hids.1 (List.mem_map.2 ⟨q, hq, hsame⟩)
    have hunused : Unused k env s (.updateCustomPattern old.id signal) ↔
        ∀ q ∈ pre ++ post, nameKey env q.name ≠ nameKey env (cleaned signal.name) := by
      rw [Unused, hcustom]
      constructor
      · rintro (hblank | hnone | hnames) q hq
        · exact absurd hblank hname
        · exact absurd rfl (hnone old (List.mem_append_right pre List.mem_cons_self))
        · exact hnames q (mem_middle.2 (.inr hq)) (hothers q hq)
      · refine fun hnames => .inr (.inr fun q hq hid => hnames q ?_)
        exact (mem_middle.1 hq).resolve_left fun heq => hid (heq ▸ rfl)
    rw [hunused, Keeps, hstep, hload]
    refine ⟨⟨fun hkeeps => hiff.1 hkeeps.1, fun hnames => ⟨hiff.2 hnames, ?_⟩⟩,
      fun hkeeps => (hwritten hkeeps.1).1⟩
    rw [Selects, heq]
    exact fun _ => (hwritten (hiff.2 hnames)).2

theorem delete_keeps (h : WellFormed k env s) (patternId : String) :
    WellFormed k env (step k env s (.deleteCustomPattern patternId)) := by
  rw [step, deleteCustomPattern]
  split_ifs with hnone hselected
  · exact h
  all_goals
    have hstored : ∀ p ∈ (loadCustomPatterns k env s).filter fun p => p.id ≠ patternId, Stored k p :=
      fun p hp => h.stored p (List.mem_of_mem_filter hp)
    have hload := load_saveCustomPatterns env hstored s
    have hformed : WellFormed k env (saveCustomPatterns k env
        ((loadCustomPatterns k env s).filter fun p => p.id ≠ patternId) s) :=
      ⟨hload.symm ▸ h.distinct.filter _, hload.symm ▸ hstored,
        hload.symm ▸ fun p hp => h.own p (List.mem_of_mem_filter hp)⟩
  · exact wellFormed_of_load_eq hformed rfl
  · exact hformed

/-- One operation on a well-formed store. -/
theorem step_keeps_iff (h : WellFormed k env s) (a : StoreAction) :
    (Keeps k env s a ↔ Unused k env s a) ∧
      (Keeps k env s a → WellFormed k env (step k env s a)) := by
  cases a with
  | saveCustomPattern now signal => exact save_keeps_iff h now signal
  | updateCustomPattern patternId signal => exact update_keeps_iff h patternId signal
  | deleteCustomPattern patternId =>
    have hformed := delete_keeps h patternId
    exact ⟨iff_of_true ⟨hformed.distinct, trivial⟩ trivial, fun _ => hformed⟩
  | setSelectedPattern patternId =>
    have hformed : WellFormed k env (step k env s (.setSelectedPattern patternId)) :=
      wellFormed_of_load_eq h rfl
    exact ⟨iff_of_true ⟨hformed.distinct, trivial⟩ trivial, fun _ => hformed⟩

/-- In every run of a store: all its operations keep ids and names different and select what they
save, exactly if none of them takes an id or a name that another signal has. -/
theorem keeps_iff (k : SignalKind) (env : Platform T) {start : Prefs T}
    (hstart : WellFormed k env start) (as : List StoreAction) :
    Along (step k env) (Keeps k env) start as ↔ Along (step k env) (Unused k env) start as := by
  induction as generalizing start with
  | nil => exact iff_of_true along_nil along_nil
  | cons a as ih =>
    obtain ⟨hiff, hformed⟩ := step_keeps_iff hstart a
    rw [along_cons_iff, along_cons_iff, hiff]
    exact and_congr_right fun hunused => ih (hformed (hiff.2 hunused))

/-- The store of a new installation. -/
theorem wellFormed_empty (k : SignalKind) (env : Platform T) : WellFormed k env {} where
  distinct := ⟨List.nodup_nil, List.nodup_nil⟩
  stored _ hp := absurd hp List.not_mem_nil
  own _ hp := absurd hp List.not_mem_nil

/-- Preferences that hold the elements themselves. -/
def plainPlatform : Platform (List Json) where
  coerce := ⟨fun _ => "", fun _ => none⟩
  fold := Char.toLower
  noSignal := "No signal"
  toText elems := elems
  JSONArray elems := some elems
  reads elems := ⟨elems, rfl, ReadAs.refl_elems elems⟩

/-- A signal of one point. -/
def namedSignal (name : String) : EditorSignal where
  name := name
  points := [⟨881 / 2, 100⟩]
  repeatCount := 3
  points_ne := List.cons_ne_nil _ _
  points_ok p hp := by
    rw [List.mem_singleton.1 hp]
    norm_num
  repeat_lt := by decide

theorem keeps_iff_renamed : Along (step .calling plainPlatform) (Keeps .calling plainPlatform) {}
    [.saveCustomPattern 5 (namedSignal "Siren"), .saveCustomPattern 6 (namedSignal " siren "),
      .saveCustomPattern 6 (namedSignal "Chirp"),
      .updateCustomPattern "custom_6" (namedSignal "Lark")] :=
  (keeps_iff .calling plainPlatform (wellFormed_empty _ _) _).2 (by decide +kernel)

/-- Two signals saved within one millisecond have one id, and two signals can get one name. -/
theorem clashes : ¬ Along (step .roger plainPlatform) (Keeps .roger plainPlatform) {}
      [.saveCustomPattern 5 (namedSignal "Siren"), .saveCustomPattern 5 (namedSignal "Chirp")] ∧
    ¬ Along (step .roger plainPlatform) (Keeps .roger plainPlatform) {}
      [.saveCustomPattern 5 (namedSignal "Siren"), .saveCustomPattern 6 (namedSignal "Chirp"),
        .updateCustomPattern "custom_6" (namedSignal "Siren")] := by
  constructor
  · intro h
    have hids := (h [.saveCustomPattern 5 (namedSignal "Siren")]
      (.saveCustomPattern 5 (namedSignal "Chirp")) [] rfl).1.ids
    exact absurd hids (by decide +kernel)
  · intro h
    have hnames := (h
      [.saveCustomPattern 5 (namedSignal "Siren"), .saveCustomPattern 6 (namedSignal "Chirp")]
      (.updateCustomPattern "custom_6" (namedSignal "Siren")) [] rfl).1.names
    exact absurd hnames (by decide +kernel)

end PatternStore

end OWalkie
