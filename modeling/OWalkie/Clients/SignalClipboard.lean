import OWalkie.Clients.SignalPcm
import OWalkie.Lib.JsonText
import OWalkie.Lib.Kotlin
import OWalkie.Lib.Search
import OWalkie.Lib.Tokener

/-!
# Signals on the clipboard

Both clients copy a signal as a JSON text and look for one in whatever the clipboard holds, first in
the whole text and then from every brace in it.  The whole text is read by nlohmann::json on
Windows, which takes nothing but JSON, and by org.json on Android, which skips comments in front and
ignores what follows.
-/

namespace OWalkie

namespace SignalClipboard

open Signal

deriving instance DecidableEq for Point

/-- `MAGIC_KEY` and `kSignalSequenceMagicKey`. -/
def magicKey : String := "oWalkieSignalSequence"

def formatVersion : ℤ := 1

/-- `Payload`, and `ParsedSignalClip` on Windows. -/
structure Payload where
  name : String
  points : List Point
  repeatCount : ℤ
deriving DecidableEq

/-- The parts of the two JSON libraries that the importers use. -/
structure Readers where
  /-- `nlohmann::json::parse` -/
  parse : List Char → Option Json
  /-- org.json: the object at the beginning of a text. -/
  object : List Char → Option Json
  coerce : OrgJson.Coercions
  /-- `Character.digit` -/
  digit : Char → Option ℕ

/-! ## The exported texts -/

/-- The texts of numbers with a fraction. -/
structure Numbers where
  /-- `JSONObject.numberToString` -/
  org : ℚ → List Char
  /-- nlohmann::json -/
  dump : ℚ → List Char
  org_plain : ∀ q, ∀ c ∈ org q, Braces.Plain c
  dump_plain : ∀ q, ∀ c ∈ dump q, Braces.Plain c

section export_

variable (numbers : Numbers)

/-- `JSONObject.toString()` -/
def orgLayout : Json.Layout where
  slash := true
  float := numbers.org
  gap _ := []
  colon := [':']
  float_plain := numbers.org_plain
  gap_plain _ c hc := by cases hc
  colon_plain c hc := by
    rw [List.mem_singleton.1 hc]
    exact ⟨by decide, by decide, by decide⟩

theorem plain_newline (n : ℕ) : ∀ c ∈ '\n' :: List.replicate n ' ', Braces.Plain c := by
  intro c hc
  rcases List.mem_cons.1 hc with rfl | hc
  · exact ⟨by decide, by decide, by decide⟩
  · rw [List.eq_of_mem_replicate hc]
    exact ⟨by decide, by decide, by decide⟩

/-- `dump(2)` -/
def dumpLayout : Json.Layout where
  slash := false
  float := numbers.dump
  gap depth := '\n' :: List.replicate (2 * depth) ' '
  colon := [':', ' ']
  float_plain := numbers.dump_plain
  gap_plain depth := plain_newline (2 * depth)
  colon_plain c hc := by
    rcases List.mem_cons.1 hc with rfl | hc
    · exact ⟨by decide, by decide, by decide⟩
    · rw [List.mem_singleton.1 hc]
      exact ⟨by decide, by decide, by decide⟩

def pointObject (p : Point) : Json :=
  .obj [("durationMs", .int p.durationMs), ("freqHz", .float p.freqHz)]

/-- What `toJson` prints. -/
def androidEnvelope (name : String) (points : List Point) (includeRepetitions : Bool)
    (repetitions : ℤ) : List (String × Json) :=
  [("version", .int formatVersion), ("signal", .obj [("name", .str name)]),
    ("points", .arr (points.map pointObject))] ++
      if includeRepetitions then [("repetitions", .int (max 1 (min repetitions 500)))] else []

def toJson (name : String) (points : List Point) (includeRepetitions : Bool) (repetitions : ℤ) :
    List Char :=
  Json.render (orgLayout numbers) 0
    (.obj [(magicKey, .obj (androidEnvelope name points includeRepetitions repetitions))])

/-- What `OnCopySequence` prints, its members in the order of a `std::map`. -/
def windowsEnvelope (name : String) (points : List Point) (callKind : Bool) (repeatSpin : ℤ) :
    List (String × Json) :=
  [("points", .arr (points.map pointObject))] ++
    (if callKind then [("repetitions", .int (max 1 repeatSpin))] else []) ++
      [("signal", .obj [("name", .str name)]), ("version", .int formatVersion)]

def OnCopySequence (name : String) (points : List Point) (callKind : Bool) (repeatSpin : ℤ) :
    Option (List Char) :=
  if points = [] then none
  else some (Json.render (dumpLayout numbers) 0
    (.obj [(magicKey, .obj (windowsEnvelope name points callKind repeatSpin))]))

end export_

/-- The texts in braces, from every opening brace on. -/
def fragments : List Char → List (List Char)
  | [] => []
  | c :: s =>
    if c = '\x7b' then (Braces.extract (c :: s)).toList ++ fragments s else fragments s

variable (readers : Readers)

/-! ## The import of Android -/

section android

open OrgJson Kotlin

def parsePoint (coerce : Coercions) (o : Json) : Option Point :=
  match o with
  | .obj _ =>
    if has "freqHz" o = false ∨ has "durationMs" o = false then none
    else do
      let freq ← getDouble coerce "freqHz" o
      let dur ← getInt coerce "durationMs" o
      if freq < 0 ∨ dur ≤ 0 then none else some ⟨freq, dur⟩
  | _ => none

def parsePointsArray (coerce : Coercions) (arr : List Json) : Option (List Point) := do
  let out ← arr.mapM (parsePoint coerce)
  if out = [] then none else some out

def parseIntish (digit : Char → Option ℕ) : Option Json → Option ℤ
  | some (.int n) => intValue (.int n)
  | some (.float q) => intValue (.float q)
  | some (.str s) => toIntOrNull digit (trim s.toList)
  | _ => none

def parseRepetitionsField (digit : Char → Option ℕ) (envelope : Json) : ℤ :=
  if has "repetitions" envelope = false then 1
  else ((parseIntish digit (opt "repetitions" envelope)).map fun n => max n 1).getD 1

/-- `parseNestedEnvelope`, after the text is read. -/
def nestedEnvelope (root : Json) : Option Payload := do
  let envelope ← optJSONObject magicKey root
  let ver ← (opt "version" envelope).bind intValue
  if ver ≠ formatVersion then none
  else
    let signalObj ← optJSONObject "signal" envelope
    let arr ← optJSONArray "points" envelope
    let out ← parsePointsArray readers.coerce arr
    some ⟨optString readers.coerce "name" signalObj, out,
      parseRepetitionsField readers.digit envelope⟩

def parseNestedEnvelope (jsonText : List Char) : Option Payload :=
  (JSONObject readers.object jsonText).bind (nestedEnvelope readers)

def isNumber : Json → Bool
  | .int _ => true
  | .float _ => true
  | _ => false

/-- `parseLegacyFlatEnvelope`, after the text is read. -/
def legacyFlatEnvelope (root : Json) : Option Payload := do
  let magic ← opt magicKey root
  if isNumber magic = false then none
  else
    let arr ← optJSONArray "points" root
    let out ← parsePointsArray readers.coerce arr
    let repeatCount :=
      if has "repeatCount" root then (parseIntish readers.digit (opt "repeatCount" root)).getD 1
      else if has "repetitions" root then
        (parseIntish readers.digit (opt "repetitions" root)).getD 1
      else 1
    some ⟨optString readers.coerce "name" root, out, max repeatCount 1⟩

def parseLegacyFlatEnvelope (jsonText : List Char) : Option Payload :=
  (JSONObject readers.object jsonText).bind (legacyFlatEnvelope readers)

/-- One candidate of `parseFromText`. -/
def parseCandidate (text : List Char) : Option Payload :=
  (parseNestedEnvelope readers text).or (parseLegacyFlatEnvelope readers text)

/-- A candidate that occurs twice fails twice, so that the set of candidates is a list here. -/
def parseFromText (fullText : List Char) : Option Payload :=
  let trimmed := trim fullText
  ((if trimmed = [] then [] else [trimmed]) ++ fragments fullText).findSome?
    (parseCandidate readers)

end android

/-! ## The import of Windows -/

section windows

open Nlohmann

def ParseRepetitionsJsonValue : Json → ℤ
  | .str s => ((Cpp.stoi s.toList).map (max 1)).getD 1
  | .int n => ((getInt (.int n)).map (max 1)).getD 1
  | .float q => max 1 (truncate q)
  | _ => 1

def fillPoint (pt : Json) : Option Point :=
  match pt with
  | .obj _ => do
    let f ← value getDouble "freqHz" (-1) pt
    let d ← value getInt "durationMs" (-1) pt
    if f < 0 ∨ d ≤ 0 then none else some ⟨f, d⟩
  | _ => none

def FillPointsFromJsonArray : Option Json → Option (List Point)
  | some (.arr elems) => do
    let pts ← elems.mapM fillPoint
    if pts = [] then none else some pts
  | _ => none

/-- The name in a `signal` that is an object. -/
def signalName (env : Json) : Option String :=
  match find "signal" env with
  | some (.obj members) => value getString "name" "" (.obj members)
  | _ => some ""

/-- `TryParseSignalSequenceEnvelope`, after the text is read. -/
def signalSequenceEnvelope (j : Json) : Option Payload :=
  match find magicKey j with
  | some (.obj members) =>
    let env := Json.obj members
    do
      let fmtVer ← value getInt "version" (-1) env
      if fmtVer ≠ 1 then none
      else
        let pts ← FillPointsFromJsonArray (find "points" env)
        let name ← signalName env
        some ⟨name, pts, ((find "repetitions" env).map ParseRepetitionsJsonValue).getD 1⟩
  | some magic =>
    if isNumber magic = false then none
    else do
      let markerVer ← getInt magic
      if markerVer < 1 ∨ 2 < markerVer then none
      else
        let pts ← FillPointsFromJsonArray (find "points" j)
        let name ← value getString "name" "" j
        some ⟨name, pts, (((find "repetitions" j).or (find "repeatCount" j)).map
          ParseRepetitionsJsonValue).getD 1⟩
  | none => none

def TryParseSignalSequenceEnvelope (fragment : List Char) : Option Payload :=
  (readers.parse fragment).bind signalSequenceEnvelope

/-- The key in quotes. -/
def needle : List Char := '"' :: magicKey.toList ++ ['"']

def ParseSignalSequenceFromClipboardText (text : List Char) : Option Payload :=
  (TryParseSignalSequenceEnvelope readers text).or
    (((fragments text).filter fun frag => (Text.search (· == ·) needle frag).isSome).findSome?
      (TryParseSignalSequenceEnvelope readers))

end windows

end SignalClipboard

end OWalkie
