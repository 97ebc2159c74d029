import OWalkie.Clients.SignalRoundTrip

/-!
# One signal format, two parsers

The two clients read a document of the format alike but for three points: Android wants a `signal`
in the nested layout, Windows wants a marker of 1 or 2 in the flat one, and of two repetition counts
in the flat layout each takes another.  `same_format_iff` says that there is no fourth one.
-/

namespace OWalkie

namespace SignalClipboard

open Signal Json Nlohmann

/-- An integer that fits into 32 bits. -/
def Int32 (j : Json) : Prop := ∃ n : ℤ, j = .int n ∧ -2 ^ 31 ≤ n ∧ n < 2 ^ 31

/-- A member that is there has the type. -/
def HasType (type : Json → Prop) (key : String) (j : Json) : Prop :=
  ∀ v, find key j = some v → type v

def IsString (j : Json) : Prop := ∃ s, j = .str s

/-- A point of the format. -/
def IsPoint (e : Json) : Prop :=
  (∃ members, e = .obj members) ∧ HasType (fun v => isNumber v = true) "freqHz" e ∧
    HasType Int32 "durationMs" e

def IsPoints (j : Json) : Prop := ∃ elems, j = .arr elems ∧ ∀ e ∈ elems, IsPoint e

/-- The nested layout: the magic key has an envelope. -/
def IsNested (root : Json) : Prop :=
  ∃ env, find magicKey root = some (.obj env) ∧ HasType Int32 "version" (.obj env) ∧
    HasType (fun v => ∃ sig, v = .obj sig ∧ HasType IsString "name" v) "signal" (.obj env) ∧
    HasType IsPoints "points" (.obj env) ∧ HasType Int32 "repetitions" (.obj env)

/-- The flat layout: the magic key has a number. -/
def IsFlat (root : Json) : Prop :=
  ∃ magic m, find magicKey root = some magic ∧ isNumber magic = true ∧ getInt magic = some m ∧
    HasType IsString "name" root ∧ HasType IsPoints "points" root ∧
    HasType Int32 "repetitions" root ∧ HasType Int32 "repeatCount" root

/-- The documents that the two parsers read alike. -/
def Agrees (root : Json) : Prop :=
  match find magicKey root with
  | some (.obj env) =>
    find "version" (.obj env) ≠ some (.int 1) ∨
      FillPointsFromJsonArray (find "points" (.obj env)) = none ∨
      (find "signal" (.obj env)).isSome = true
  | some magic =>
    FillPointsFromJsonArray (find "points" root) = none ∨
      (∃ m, getInt magic = some m ∧ 1 ≤ m ∧ m ≤ 2) ∧
        ∀ a b, find "repetitions" root = some (.int a) → find "repeatCount" root = some (.int b) →
          max 1 a = max 1 b
  | none => True

/-! ## Fields -/

variable {readers : Readers} {root e : Json}

/-- An integer of 32 bits is read alike. -/
theorem int32_read (coerce : OrgJson.Coercions) {v : Json} (h : Int32 v) :
    ∃ n, v = .int n ∧ OrgJson.toInteger coerce v = some n ∧ OrgJson.intValue v = some n ∧
      getInt v = some n := by
  obtain ⟨n, rfl, hn⟩ := h
  exact ⟨n, rfl, OrgJson.intValue_of_fits hn, OrgJson.intValue_of_fits hn, getInt_of_fits hn⟩

theorem number_read (coerce : OrgJson.Coercions) {v : Json} (h : isNumber v = true) :
    ∃ q, OrgJson.toDouble coerce v = some q ∧ getDouble v = some q := by
  cases v with
  | int n => exact ⟨n, rfl, rfl⟩
  | float q => exact ⟨q, rfl, rfl⟩
  | _ => cases h

theorem parsePoint_eq (coerce : OrgJson.Coercions) (h : IsPoint e) :
    parsePoint coerce e = fillPoint e := by
  obtain ⟨⟨members, rfl⟩, hfreq, hdur⟩ := h
  cases hf : find "freqHz" (.obj members) with
  | none =>
    -- Windows reads a frequency that it refuses
    cases hd : find "durationMs" (.obj members) with
    | none =>
      simp [parsePoint, fillPoint, OrgJson.has, OrgJson.opt_eq_find, hf, hd, value_of_find_none hf,
        value_of_find_none hd]
    | some dur =>
      obtain ⟨d, -, -, -, hint⟩ := int32_read coerce (hdur dur hd)
      simp [parsePoint, fillPoint, OrgJson.has, OrgJson.opt_eq_find, hf, value_of_find_none hf,
        value_of_find hd, hint]
  | some freq =>
    obtain ⟨q, hq, hq'⟩ := number_read coerce (hfreq freq hf)
    cases hd : find "durationMs" (.obj members) with
    | none =>
      simp [parsePoint, fillPoint, OrgJson.has, OrgJson.opt_eq_find, hf, hd, value_of_find hf, hq',
        value_of_find_none hd]
    | some dur =>
      obtain ⟨d, -, hinteger, -, hint⟩ := int32_read coerce (hdur dur hd)
      simp [parsePoint, fillPoint, OrgJson.has, OrgJson.getDouble, OrgJson.getInt,
        OrgJson.opt_eq_find, hf, hd, value_of_find hf, value_of_find hd, hq, hq', hinteger, hint]

theorem mapM_parsePoint (coerce : OrgJson.Coercions) {elems : List Json}
    (h : ∀ e ∈ elems, IsPoint e) : elems.mapM (parsePoint coerce) = elems.mapM fillPoint := by
  induction elems with
  | nil => rfl
  | cons e elems ih =>
    rw [List.mapM_cons, List.mapM_cons, parsePoint_eq coerce (h e List.mem_cons_self),
      ih fun e' he' => h e' (List.mem_cons_of_mem _ he')]

/-- Both parsers take the same lists of points. -/
theorem points_eq (coerce : OrgJson.Coercions) (h : HasType IsPoints "points" root) :
    (OrgJson.optJSONArray "points" root).bind (parsePointsArray coerce) =
      FillPointsFromJsonArray (find "points" root) := by
  rw [OrgJson.optJSONArray, OrgJson.opt_eq_find]
  cases hpoints : find "points" root with
  | none => rfl
  | some v =>
    obtain ⟨elems, rfl, helems⟩ := h v hpoints
    show parsePointsArray coerce elems = FillPointsFromJsonArray (some (.arr elems))
    rw [parsePointsArray, FillPointsFromJsonArray, mapM_parsePoint coerce helems]

theorem parseIntish_int32 (digit : Char → Option ℕ) {v : Json} (h : Int32 v) :
    ∃ n, v = .int n ∧ parseIntish digit (some v) = some n ∧
      ParseRepetitionsJsonValue v = max 1 n := by
  obtain ⟨n, rfl, hn⟩ := h
  have hint : OrgJson.intValue (.int n) = some n := OrgJson.intValue_of_fits hn
  have hget : getInt (.int n) = some n := getInt_of_fits hn
  refine ⟨n, rfl, hint, ?_⟩
  rw [ParseRepetitionsJsonValue, hget]
  rfl

theorem name_eq (coerce : OrgJson.Coercions) {members : List (String × Json)}
    (h : HasType IsString "name" (.obj members)) :
    value getString "name" "" (.obj members) =
      some (OrgJson.optString coerce "name" (.obj members)) := by
  rw [OrgJson.optString, OrgJson.opt_eq_find]
  cases hname : find "name" (.obj members) with
  | none => rw [value_of_find_none hname]
  | some v =>
    obtain ⟨s, rfl⟩ := h v hname
    rw [value_of_find hname]
    rfl

/-! ## The nested layout -/

/-- What both parsers make of an envelope with a signal. -/
theorem nested_iff (h : IsNested root) :
    envelope readers root = signalSequenceEnvelope root ↔ Agrees root := by
  obtain ⟨env, hroot, hversion, hsignal, hpoints, hrepetitions⟩ := h
  have hflat : legacyFlatEnvelope readers root = none := by
    simp [legacyFlatEnvelope, OrgJson.opt_eq_find, hroot, isNumber]
  have hversionRead : value getInt "version" (-1) (.obj env) =
      some (((find "version" (.obj env)).bind OrgJson.intValue).getD (-1)) := by
    cases hv : find "version" (.obj env) with
    | none => rw [value_of_find_none hv]; rfl
    | some v =>
      obtain ⟨n, -, -, hvalue, hget⟩ := int32_read readers.coerce (hversion v hv)
      rw [value_of_find hv, hget, Option.bind_some, hvalue]
      rfl
  have hrepeat : parseRepetitionsField readers.digit (.obj env) =
      ((find "repetitions" (.obj env)).map ParseRepetitionsJsonValue).getD 1 := by
    rw [parseRepetitionsField, OrgJson.has, OrgJson.opt_eq_find]
    cases hrep : find "repetitions" (.obj env) with
    | none => rfl
    | some v =>
      obtain ⟨n, -, hintish, hparse⟩ := parseIntish_int32 readers.digit (hrepetitions v hrep)
      rw [hintish, Option.map_some, max_comm, ← hparse]
      rfl
  have hone : find "version" (.obj env) = some (.int 1) ↔
      (find "version" (.obj env)).bind OrgJson.intValue = some 1 := by
    cases hv : find "version" (.obj env) with
    | none => simp
    | some v =>
      obtain ⟨n, rfl, -, hvalue, -⟩ := int32_read readers.coerce (hversion v hv)
      rw [Option.bind_some, hvalue]
      simp
  have harr (g : List Point → Option Payload) :
      ((OrgJson.optJSONArray "points" (.obj env)).bind fun arr =>
        (parsePointsArray readers.coerce arr).bind g) =
          (FillPointsFromJsonArray (find "points" (.obj env))).bind g := by
    rw [← points_eq readers.coerce hpoints, Option.bind_assoc]
  have henvelope : OrgJson.optJSONObject magicKey root = some (.obj env) := by
    rw [OrgJson.optJSONObject, OrgJson.opt_eq_find, hroot]
  rw [envelope, hflat, Option.or_none, Agrees, hroot]
  show nestedEnvelope readers root = signalSequenceEnvelope root ↔
    find "version" (.obj env) ≠ some (.int 1) ∨ _ ∨ _
  rw [Ne, hone, nestedEnvelope, henvelope, signalSequenceEnvelope, hroot]
  simp only [Option.bind_eq_bind, Option.bind_some, hversionRead, OrgJson.opt_eq_find]
  by_cases hv : (find "version" (.obj env)).bind OrgJson.intValue = some 1
  · simp only [hv, Option.getD_some, Option.bind_some, formatVersion, ne_eq, not_true_eq_false,
      if_false, false_or, harr, hrepeat]
    cases hout : FillPointsFromJsonArray (find "points" (.obj env)) with
    | none => simp
    | some pts =>
      cases hs : find "signal" (.obj env) with
      | none =>
        -- only Windows takes an envelope without a signal
        simp [OrgJson.optJSONObject, OrgJson.opt_eq_find, signalName, hs]
      | some v =>
        obtain ⟨sig, rfl, hname⟩ := hsignal v hs
        have hsame := name_eq readers.coerce hname
        simp [OrgJson.optJSONObject, OrgJson.opt_eq_find, signalName, hs, hsame]
  · have hrefuse : ((find "version" (.obj env)).bind OrgJson.intValue).getD (-1) ≠ 1 := by
      cases hvalue : (find "version" (.obj env)).bind OrgJson.intValue with
      | none => decide
      | some n =>
        rw [hvalue] at hv
        exact fun hn => hv (congrArg some hn)
    rw [if_pos hrefuse]
    refine iff_of_true ?_ (Or.inl hv)
    cases hvalue : (find "version" (.obj env)).bind OrgJson.intValue with
    | none => rfl
    | some n =>
      rw [hvalue] at hv
      have hne : n ≠ formatVersion := fun hn => hv (congrArg some hn)
      rw [Option.bind_some, if_pos hne]

/-! ## The flat layout -/

theorem flat_iff (h : IsFlat root) :
    envelope readers root = signalSequenceEnvelope root ↔ Agrees root := by
  obtain ⟨magic, m, hroot, hnumber, hm, hname, hpoints, hrepetitions, hrepeatCount⟩ := h
  obtain ⟨members, rfl⟩ : ∃ members, root = .obj members := by
    cases root with
    | obj members => exact ⟨members, rfl⟩
    | _ => cases hroot
  have hobj : ∀ env, magic ≠ .obj env := by
    rintro env rfl
    cases hnumber
  have hnested : nestedEnvelope readers (.obj members) = none := by
    have hno : OrgJson.optJSONObject magicKey (.obj members) = none := by
      rw [OrgJson.optJSONObject, OrgJson.opt_eq_find, hroot]
      cases magic with
      | obj env => exact absurd rfl (hobj env)
      | _ => rfl
    rw [nestedEnvelope, hno]
    rfl
  have harr (g : List Point → Option Payload) :
      ((OrgJson.optJSONArray "points" (.obj members)).bind fun arr =>
        (parsePointsArray readers.coerce arr).bind g) =
          (FillPointsFromJsonArray (find "points" (.obj members))).bind g := by
    rw [← points_eq readers.coerce hpoints, Option.bind_assoc]
  have hsame := name_eq readers.coerce hname
  have hagrees : Agrees (.obj members) ↔
      FillPointsFromJsonArray (find "points" (.obj members)) = none ∨ (1 ≤ m ∧ m ≤ 2) ∧
        ∀ a b, find "repetitions" (.obj members) = some (.int a) →
          find "repeatCount" (.obj members) = some (.int b) → max 1 a = max 1 b := by
    rw [Agrees, hroot]
    cases magic with
    | obj env => exact absurd rfl (hobj env)
    | _ => simp [hm]
  have hwindows : signalSequenceEnvelope (.obj members) =
      if m < 1 ∨ 2 < m then none
      else (FillPointsFromJsonArray (find "points" (.obj members))).bind fun pts =>
        some ⟨OrgJson.optString readers.coerce "name" (.obj members), pts,
          (((find "repetitions" (.obj members)).or (find "repeatCount" (.obj members))).map
            ParseRepetitionsJsonValue).getD 1⟩ := by
    rw [signalSequenceEnvelope, hroot]
    cases magic with
    | obj env => exact absurd rfl (hobj env)
    | _ => simp [hnumber, hm, hsame]
  have handroid : legacyFlatEnvelope readers (.obj members) =
      (FillPointsFromJsonArray (find "points" (.obj members))).bind fun pts =>
        some ⟨OrgJson.optString readers.coerce "name" (.obj members), pts,
          (((find "repeatCount" (.obj members)).or (find "repetitions" (.obj members))).map
            ParseRepetitionsJsonValue).getD 1⟩ := by
    rw [legacyFlatEnvelope, ← harr]
    simp only [OrgJson.opt_eq_find, OrgJson.has, hroot, Option.bind_eq_bind, Option.bind_some,
      hnumber, Bool.true_eq_false, if_false]
    cases hcount : find "repeatCount" (.obj members) with
    | some v =>
      obtain ⟨n, -, hintish, hparse⟩ := parseIntish_int32 readers.digit (hrepeatCount v hcount)
      simp [hintish, hparse, max_comm]
    | none =>
      cases hrep : find "repetitions" (.obj members) with
      | some v =>
        obtain ⟨n, -, hintish, hparse⟩ := parseIntish_int32 readers.digit (hrepetitions v hrep)
        simp [hintish, hparse, max_comm]
      | none => simp
  rw [envelope, hnested, Option.none_or, handroid, hwindows, hagrees]
  cases hout : FillPointsFromJsonArray (find "points" (.obj members)) with
  | none => simp
  | some pts =>
    by_cases hrange : 1 ≤ m ∧ m ≤ 2
    · rw [if_neg (by omega)]
      cases hcount : find "repeatCount" (.obj members) with
      | none => simp [hrange]
      | some v =>
        cases hrep : find "repetitions" (.obj members) with
        | none => simp [hrange]
        | some w =>
          -- both spellings are there, and each parser takes another one
          obtain ⟨a, rfl, -, ha⟩ := parseIntish_int32 readers.digit (hrepeatCount v hcount)
          obtain ⟨b, rfl, -, hb⟩ := parseIntish_int32 readers.digit (hrepetitions w hrep)
          simp [hrange, ha, hb, eq_comm]
    · rw [if_pos (by omega)]
      simp [hrange]

/-! ## The text -/

variable {text : List Char}

/-- From a brace in the text both clients read the document again, or neither reads an envelope. -/
def Settled (readers : Readers) (root : Json) (frag : List Char) : Prop :=
  OrgJson.JSONObject readers.object frag = some root ∧ readers.parse frag = some root ∨
    parseCandidate readers frag = none ∧ TryParseSignalSequenceEnvelope readers frag = none

/-- From a brace in the text both clients read the same. -/
def SameFragment (readers : Readers) (frag : List Char) : Prop :=
  parseCandidate readers frag =
    if (Text.search (· == ·) needle frag).isSome then TryParseSignalSequenceEnvelope readers frag
    else none

theorem parseFromText_eq
    (hobject : OrgJson.JSONObject readers.object (Kotlin.trim text) = some root) :
    parseFromText readers text =
      (envelope readers root).or ((fragments text).findSome? (parseCandidate readers)) := by
  have hne : Kotlin.trim text ≠ [] := by
    intro hnil
    rw [hnil] at hobject
    cases hobject
  rw [parseFromText]
  show List.findSome? _ ((if _ = [] then [] else [_]) ++ _) = _
  rw [if_neg hne, List.singleton_append, List.findSome?_cons, parseCandidate_eq, hobject,
    Option.bind_some]
  cases envelope readers root <;> rfl

theorem parseSignalSequence_eq (hparse : readers.parse text = some root) :
    ParseSignalSequenceFromClipboardText readers text =
      (signalSequenceEnvelope root).or
        (((fragments text).filter fun frag => (Text.search (· == ·) needle frag).isSome).findSome?
          (TryParseSignalSequenceEnvelope readers)) := by
  rw [ParseSignalSequenceFromClipboardText, TryParseSignalSequenceEnvelope, hparse,
    Option.bind_some]

theorem findSome?_of_same {frags : List (List Char)}
    (h : ∀ frag ∈ frags, SameFragment readers frag) :
    frags.findSome? (parseCandidate readers) =
      (frags.filter fun frag => (Text.search (· == ·) needle frag).isSome).findSome?
        (TryParseSignalSequenceEnvelope readers) := by
  induction frags with
  | nil => rfl
  | cons frag frags ih =>
    have hfirst := h frag List.mem_cons_self
    have hrest := ih fun frag' hmem => h frag' (List.mem_cons_of_mem _ hmem)
    rw [SameFragment] at hfirst
    by_cases hneedle : (Text.search (· == ·) needle frag).isSome = true
    · rw [if_pos hneedle] at hfirst
      rw [List.findSome?_cons, hfirst, hrest,
        List.filter_cons_of_pos (p := fun frag => (Text.search (· == ·) needle frag).isSome) hneedle,
        List.findSome?_cons]
    · rw [if_neg hneedle] at hfirst
      rw [List.findSome?_cons, hfirst, hrest,
        List.filter_cons_of_neg (p := fun frag => (Text.search (· == ·) needle frag).isSome) hneedle]

/-- Where the inner braces hold nothing, the whole text decides. -/
theorem android_of_settled (h : ∀ frag ∈ fragments text, Settled readers root frag) :
    (envelope readers root).or ((fragments text).findSome? (parseCandidate readers)) =
      envelope readers root := by
  cases henvelope : envelope readers root with
  | some payload => rfl
  | none =>
    rw [Option.none_or, List.findSome?_eq_none_iff]
    intro frag hfrag
    rcases h frag hfrag with ⟨hroot, -⟩ | ⟨hnone, -⟩
    · rw [parseCandidate_eq, hroot, Option.bind_some, henvelope]
    · exact hnone

theorem windows_of_settled (h : ∀ frag ∈ fragments text, Settled readers root frag) :
    (signalSequenceEnvelope root).or
        (((fragments text).filter fun frag => (Text.search (· == ·) needle frag).isSome).findSome?
          (TryParseSignalSequenceEnvelope readers)) = signalSequenceEnvelope root := by
  cases henvelope : signalSequenceEnvelope root with
  | some payload => rfl
  | none =>
    rw [Option.none_or, List.findSome?_eq_none_iff]
    intro frag hfrag
    rcases h frag (List.mem_of_mem_filter hfrag) with ⟨-, hroot⟩ | ⟨-, hnone⟩
    · rw [TryParseSignalSequenceEnvelope, hroot, Option.bind_some, henvelope]
    · exact hnone

/-- The importers agree on a text whose document they read alike, and if they refuse the document
they must read the same from its inner braces; where these hold nothing, nothing else is enough. -/
theorem same_format_iff (htyped : IsNested root ∨ IsFlat root)
    (hparse : readers.parse text = some root)
    (hobject : OrgJson.JSONObject readers.object (Kotlin.trim text) = some root) :
    (Agrees root ∧ ((envelope readers root).isSome = true ∨
        ∀ frag ∈ fragments text, SameFragment readers frag) →
      parseFromText readers text = ParseSignalSequenceFromClipboardText readers text) ∧
    ((∀ frag ∈ fragments text, Settled readers root frag) →
      (parseFromText readers text = ParseSignalSequenceFromClipboardText readers text ↔
        Agrees root)) := by
  have hdocument : envelope readers root = signalSequenceEnvelope root ↔ Agrees root := by
    rcases htyped with hnested | hflat
    · exact nested_iff hnested
    · exact flat_iff hflat
  rw [parseFromText_eq hobject, parseSignalSequence_eq hparse]
  constructor
  · rintro ⟨hagrees, haccepted⟩
    rw [← hdocument.2 hagrees]
    cases henvelope : envelope readers root with
    | some payload => rfl
    | none =>
      rw [Option.none_or, Option.none_or]
      rw [henvelope] at haccepted
      rcases haccepted with hcontra | hsame
      · cases hcontra
      · exact findSome?_of_same hsame
  · intro hsettled
    rw [android_of_settled hsettled, windows_of_settled hsettled]
    exact hdocument

/-! ### Two documents -/

def pointMembers : List (String × Json) := [("durationMs", .int 100), ("freqHz", .float (1761 / 2))]

/-- An envelope without a signal. -/
def unnamedEnvelope : List (String × Json) :=
  [("version", .int 1), ("points", .arr [.obj pointMembers])]

def unnamed : List (String × Json) := [(magicKey, .obj unnamedEnvelope)]

/-- The flat layout with both spellings of the repetition count. -/
def flatTwice : List (String × Json) :=
  [(magicKey, .int 1), ("name", .str "Chirp"), ("points", .arr [.obj pointMembers]),
    ("repeatCount", .int 2), ("repetitions", .int 2)]

def compactText (members : List (String × Json)) : List Char :=
  render (orgLayout halfNumbers) 0 (.obj members)

/-- The objects in the two documents. -/
def formatParse (text : List Char) : Option Json :=
  ([unnamed, flatTwice, unnamedEnvelope, pointMembers].find? fun members =>
    compactText members = text).map .obj

def formatReaders : Readers where
  parse := formatParse
  object text := (Braces.extract text).bind formatParse
  coerce := ⟨fun _ => "", fun _ => none⟩
  digit := Text.asciiDigit

theorem hasType_of_find {type : Json → Prop} {key : String} {j w : Json}
    (h : find key j = some w) (hw : type w) : HasType type key j := by
  intro v hv
  rw [h] at hv
  rwa [← Option.some.inj hv]

theorem hasType_of_none {type : Json → Prop} {key : String} {j : Json} (h : find key j = none) :
    HasType type key j := by
  intro v hv
  rw [h] at hv
  cases hv

theorem isPoint_pointMembers : IsPoint (.obj pointMembers) := by
  refine ⟨⟨_, rfl⟩, hasType_of_find (w := .float (1761 / 2)) ?_ rfl,
    hasType_of_find (w := .int 100) ?_ ⟨100, rfl, by decide, by decide⟩⟩
  · simp [find, lookup, pointMembers]
  · simp [find, lookup, pointMembers]

theorem isPoints_pointMembers : IsPoints (.arr [.obj pointMembers]) :=
  ⟨_, rfl, fun e he => by rw [List.mem_singleton.1 he]; exact isPoint_pointMembers⟩

theorem int32_two : Int32 (.int 2) := ⟨2, rfl, by decide, by decide⟩

theorem isNested_unnamed : IsNested (.obj unnamed) := by
  refine ⟨unnamedEnvelope, ?_, hasType_of_find (w := .int 1) ?_ ⟨1, rfl, by decide, by decide⟩,
    hasType_of_none ?_, hasType_of_find ?_ isPoints_pointMembers, hasType_of_none ?_⟩
  all_goals simp [find, lookup, unnamed, unnamedEnvelope]

theorem isFlat_flatTwice : IsFlat (.obj flatTwice) := by
  refine ⟨.int 1, 1, ?_, rfl, rfl, hasType_of_find (w := .str "Chirp") ?_ ⟨_, rfl⟩,
    hasType_of_find ?_ isPoints_pointMembers, hasType_of_find ?_ int32_two,
    hasType_of_find ?_ int32_two⟩
  all_goals simp [find, lookup, flatTwice, magicKey]

theorem agrees_flatTwice : Agrees (.obj flatTwice) := by
  have hroot : find magicKey (.obj flatTwice) = some (.int 1) := by
    simp [find, lookup, flatTwice, magicKey]
  rw [Agrees, hroot]
  refine Or.inr ⟨⟨1, rfl, by decide, by decide⟩, fun a b ha hb => ?_⟩
  have hrep : find "repetitions" (.obj flatTwice) = some (.int 2) := by
    simp [find, lookup, flatTwice, magicKey]
  have hcount : find "repeatCount" (.obj flatTwice) = some (.int 2) := by
    simp [find, lookup, flatTwice, magicKey]
  rw [hrep] at ha
  rw [hcount] at hb
  cases ha
  cases hb
  rfl

theorem formatParse_flatTwice : formatParse (compactText flatTwice) = some (.obj flatTwice) := by
  rw [formatParse, List.find?_cons_of_neg (by decide +kernel), List.find?_cons_of_pos (by simp)]
  rfl

theorem JSONObject_flatTwice :
    OrgJson.JSONObject formatReaders.object (Kotlin.trim (compactText flatTwice)) =
      some (.obj flatTwice) := by
  have htrim : Kotlin.trim (compactText flatTwice) = compactText flatTwice := by
    have htrim := @trim_render (orgLayout halfNumbers) flatTwice [] []
    simp only [List.nil_append, List.append_nil, List.dropWhile_nil, List.rdropWhile_nil] at htrim
    exact htrim
  have hcut := extract_render (orgLayout halfNumbers) 0 flatTwice []
  obtain ⟨body, hbody⟩ := render_eq (orgLayout halfNumbers) flatTwice
  rw [List.append_nil] at hcut
  rw [htrim, compactText, hbody, OrgJson.JSONObject, OrgJson.dropMark_brace, OrgJson.skip_brace,
    ← hbody]
  show (Braces.extract _).bind formatParse = _
  rw [hcut, Option.bind_some]
  exact formatParse_flatTwice

/-- Both clients read the flat document with two equal counts alike. -/
theorem same_format_flatTwice :
    parseFromText formatReaders (compactText flatTwice) =
      ParseSignalSequenceFromClipboardText formatReaders (compactText flatTwice) :=
  (same_format_iff (Or.inr isFlat_flatTwice) formatParse_flatTwice JSONObject_flatTwice).1
    ⟨agrees_flatTwice, Or.inl (by decide +kernel)⟩

/-- An envelope without a signal: only Windows takes it. -/
theorem unnamed_refused : IsNested (.obj unnamed) ∧
    parseFromText formatReaders (compactText unnamed) = none ∧
      ParseSignalSequenceFromClipboardText formatReaders (compactText unnamed) =
        some ⟨"", [⟨1761 / 2, 100⟩], 1⟩ := by
  refine ⟨isNested_unnamed, ?_⟩
  decide +kernel

end SignalClipboard

end OWalkie
