import OWalkie.Clients.SignalClipboard

/-!
# A signal through a clipboard

Either client reads the exported document of either client as the signal (`nested_of_shows`,
`windows_of_shows`), and both cut its text out of a longer one.  Android first reads the whole text,
though, and a comment in front of the signal may take it to another one: `signal_roundtrip_iff`.
-/

namespace OWalkie

namespace SignalClipboard

open Signal Json

/-- A signal in an editor. -/
structure Clip where
  name : String
  points : List Point
  calling : Bool
  repetitions : ℤ

/-- Points and repetitions as the editors allow them. -/
structure Clip.Valid (clip : Clip) : Prop where
  points_ne : clip.points ≠ []
  points : ∀ p ∈ clip.points, 0 ≤ p.freqHz ∧ 0 < p.durationMs ∧ p.durationMs < 2 ^ 31
  repetitions : 1 ≤ clip.repetitions ∧ clip.repetitions ≤ 500

def Clip.payload (clip : Clip) : Payload :=
  ⟨clip.name, clip.points, if clip.calling then clip.repetitions else 1⟩

/-! ## The document -/

/-- The members of an exported envelope. -/
structure Shows (env : List (String × Json)) (clip : Clip) : Prop where
  version : lookup "version" env = some (.int 1)
  signal : lookup "signal" env = some (.obj [("name", .str clip.name)])
  points : lookup "points" env = some (.arr (clip.points.map pointObject))
  repetitions : lookup "repetitions" env =
    if clip.calling then some (.int clip.repetitions) else none

variable {clip : Clip} {env : List (String × Json)} {root : Json}

theorem shows_androidEnvelope (h : clip.Valid) :
    Shows (androidEnvelope clip.name clip.points clip.calling clip.repetitions) clip := by
  have hrep : max 1 (min clip.repetitions 500) = clip.repetitions := by
    have := h.repetitions
    omega
  unfold androidEnvelope
  rw [hrep]
  constructor <;> cases clip.calling <;> simp [lookup, formatVersion]

theorem shows_windowsEnvelope (h : clip.Valid) :
    Shows (windowsEnvelope clip.name clip.points clip.calling clip.repetitions) clip := by
  have hrep : max 1 clip.repetitions = clip.repetitions := max_eq_right h.repetitions.1
  unfold windowsEnvelope
  rw [hrep]
  constructor <;> cases clip.calling <;> simp [lookup, formatVersion]

/-- A point comes back as it was. -/
theorem envReadpoint {p : Point} {o : Json} (h : ReadAs (pointObject p) o)
    (hp : 0 ≤ p.freqHz ∧ 0 < p.durationMs ∧ p.durationMs < 2 ^ 31) (coerce : OrgJson.Coercions) :
    parsePoint coerce o = some p ∧ fillPoint o = some p := by
  have hdurKey : lookup "durationMs"
      [("durationMs", .int p.durationMs), ("freqHz", .float p.freqHz)] =
        some (.int p.durationMs) := by
    simp [lookup]
  have hfreqKey : lookup "freqHz"
      [("durationMs", .int p.durationMs), ("freqHz", .float p.freqHz)] =
        some (.float p.freqHz) := by
    simp [lookup]
  obtain ⟨dur, hdur, hdurRead⟩ := h.find hdurKey
  obtain ⟨freq, hfreq, hfreqRead⟩ := h.find hfreqKey
  cases hdurRead
  have hdouble : Nlohmann.getDouble freq = some p.freqHz := by
    cases hfreqRead with
    | float hq => exact hq
  have htoDouble : OrgJson.toDouble coerce freq = some p.freqHz := by
    cases freq <;> simp_all [Nlohmann.getDouble, OrgJson.toDouble]
  have hint : Nlohmann.getInt (.int p.durationMs) = some p.durationMs :=
    Nlohmann.getInt_of_fits (by omega)
  have htoInteger : OrgJson.toInteger coerce (.int p.durationMs) = some p.durationMs :=
    OrgJson.intValue_of_fits (by omega)
  have hrange : ¬ (p.freqHz < 0 ∨ p.durationMs ≤ 0) :=
    not_or.2 ⟨not_lt.2 hp.1, not_le.2 hp.2.1⟩
  cases h with
  | obj _ =>
    constructor
    · simp [parsePoint, OrgJson.has, OrgJson.getDouble, OrgJson.getInt, OrgJson.opt_eq_find, hdur,
        hfreq, htoDouble, htoInteger, hrange]
    · simp [fillPoint, Nlohmann.value_of_find hdur, Nlohmann.value_of_find hfreq, hdouble, hint,
        hrange]

theorem envReadpoints {points : List Point} {elems : List Json}
    (h : List.Forall₂ ReadAs (points.map pointObject) elems)
    (hp : ∀ p ∈ points, 0 ≤ p.freqHz ∧ 0 < p.durationMs ∧ p.durationMs < 2 ^ 31)
    (coerce : OrgJson.Coercions) :
    elems.mapM (parsePoint coerce) = some points ∧ elems.mapM fillPoint = some points := by
  induction points generalizing elems with
  | nil =>
    cases h
    exact ⟨rfl, rfl⟩
  | cons p points ih =>
    rw [List.map_cons] at h
    cases h with
    | cons hpoint hrest =>
      have hfirst := envReadpoint hpoint (hp p List.mem_cons_self) coerce
      have htail := ih hrest fun q hq => hp q (List.mem_cons_of_mem _ hq)
      constructor
      · rw [List.mapM_cons, hfirst.1, htail.1]
        rfl
      · rw [List.mapM_cons, hfirst.2, htail.2]
        rfl

/-- What both clients find in a document that was exported and read back. -/
structure Found (root : Json) (clip : Clip) (env sig : List (String × Json))
    (elems : List Json) : Prop where
  root : Nlohmann.find magicKey root = some (.obj env)
  version : Nlohmann.find "version" (.obj env) = some (.int 1)
  signal : Nlohmann.find "signal" (.obj env) = some (.obj sig)
  name : Nlohmann.find "name" (.obj sig) = some (.str clip.name)
  points : Nlohmann.find "points" (.obj env) = some (.arr elems)
  android : ∀ coerce, elems.mapM (parsePoint coerce) = some clip.points
  windows : elems.mapM fillPoint = some clip.points
  repetitions : Nlohmann.find "repetitions" (.obj env) =
    if clip.calling then some (.int clip.repetitions) else none

theorem found_of_readAs (hclip : clip.Valid) (henv : Shows env clip)
    (h : ReadAs (.obj [(magicKey, .obj env)]) root) :
    ∃ env' sig elems, Found root clip env' sig elems := by
  have hmagicKey : lookup magicKey [(magicKey, .obj env)] = some (.obj env) := by simp [lookup]
  have hnameKey : lookup "name" [("name", .str clip.name)] = some (.str clip.name) := by
    simp [lookup]
  obtain ⟨_, hroot, hrootRead⟩ := h.find hmagicKey
  cases hrootRead with
  | @obj _ envRead hmembers =>
  have hread : ReadAs (.obj env) (.obj envRead) := .obj hmembers
  obtain ⟨_, hversion, hversionRead⟩ := hread.find henv.version
  obtain ⟨_, hsignal, hsignalRead⟩ := hread.find henv.signal
  obtain ⟨_, hpoints, hpointsRead⟩ := hread.find henv.points
  obtain ⟨_, hname, hnameRead⟩ := hsignalRead.find hnameKey
  have hrep : Nlohmann.find "repetitions" (.obj envRead) =
      if clip.calling then some (.int clip.repetitions) else none := by
    cases hcalling : clip.calling with
    | true =>
      obtain ⟨_, hfind, hint⟩ := hread.find (henv.repetitions.trans (by rw [hcalling]; rfl))
      cases hint
      exact hfind
    | false => exact hread.find_none (henv.repetitions.trans (by rw [hcalling]; rfl))
  cases hversionRead
  cases hnameRead
  cases hsignalRead
  cases hpointsRead with
  | arr helems =>
    exact ⟨_, _, _, hroot, hversion, hsignal, hname, hpoints,
      fun coerce => (envReadpoints helems hclip.points coerce).1,
      (envReadpoints helems hclip.points ⟨fun _ => "", fun _ => none⟩).2, hrep⟩

variable {sig : List (String × Json)} {elems : List Json}

/-- Android reads an exported document. -/
theorem nestedEnvelope_of_found (readers : Readers) (hclip : clip.Valid)
    (h : Found root clip env sig elems) : nestedEnvelope readers root = some clip.payload := by
  have hout : parsePointsArray readers.coerce elems = some clip.points := by
    rw [parsePointsArray, h.android]
    simp [hclip.points_ne]
  have hrepeat : parseRepetitionsField readers.digit (.obj env) = clip.payload.repeatCount := by
    have hint : OrgJson.intValue (.int clip.repetitions) = some clip.repetitions :=
      OrgJson.intValue_of_fits (by have := hclip.repetitions; omega)
    rw [parseRepetitionsField, OrgJson.has, OrgJson.opt_eq_find, h.repetitions, Clip.payload]
    cases clip.calling with
    | false => rfl
    | true => simp [parseIntish, hint, hclip.repetitions.1]
  have hversion : OrgJson.intValue (.int 1) = some 1 := rfl
  simp [nestedEnvelope, OrgJson.optJSONObject, OrgJson.optJSONArray, OrgJson.optString,
    OrgJson.opt_eq_find, h.root, h.version, h.signal, h.name, h.points, hversion, formatVersion,
    hout, hrepeat, Clip.payload]

/-- Windows reads an exported document. -/
theorem signalSequenceEnvelope_of_found (hclip : clip.Valid)
    (h : Found root clip env sig elems) : signalSequenceEnvelope root = some clip.payload := by
  have hout : FillPointsFromJsonArray (some (.arr elems)) = some clip.points := by
    simp [FillPointsFromJsonArray, h.windows, hclip.points_ne]
  have hrepeat : ((Nlohmann.find "repetitions" (.obj env)).map ParseRepetitionsJsonValue).getD 1 =
      clip.payload.repeatCount := by
    have hint : Nlohmann.getInt (.int clip.repetitions) = some clip.repetitions :=
      Nlohmann.getInt_of_fits (by have := hclip.repetitions; omega)
    rw [h.repetitions, Clip.payload]
    cases clip.calling with
    | false => rfl
    | true => simp [ParseRepetitionsJsonValue, hint, hclip.repetitions.1]
  have hversion : Nlohmann.value Nlohmann.getInt "version" (-1) (.obj env) = some 1 := by
    rw [Nlohmann.value_of_find h.version]
    rfl
  have hname : signalName (.obj env) = some clip.name := by
    simp [signalName, h.signal, Nlohmann.value_of_find h.name, Nlohmann.getString]
  simp [signalSequenceEnvelope, h.root, hversion, h.points, hout, hname, hrepeat, Clip.payload]

/-! ## The text -/

variable {l : Layout} {members : List (String × Json)} {before after : List Char}

theorem fragments_append (hbefore : '\x7b' ∉ before) (s : List Char) :
    fragments (before ++ s) = fragments s := by
  induction before with
  | nil => rfl
  | cons c before ih =>
    have hc : c ≠ '\x7b' := fun hc => hbefore (List.mem_cons.2 (Or.inl hc.symm))
    rw [List.cons_append, fragments, if_neg hc]
    exact ih fun hmem => hbefore (List.mem_cons_of_mem _ hmem)

theorem render_eq (l : Layout) (members : List (String × Json)) :
    ∃ t, render l 0 (.obj members) = '\x7b' :: (t ++ ['\x7d']) :=
  ⟨renderMembers l 1 [] members ++ (if members.isEmpty then [] else l.gap 0), by
    rw [render, List.cons_append]⟩

/-- The exported text is the first fragment. -/
theorem fragments_render (l : Layout) (members : List (String × Json)) (after : List Char)
    (hbefore : '\x7b' ∉ before) :
    ∃ rest, fragments (before ++ (render l 0 (.obj members) ++ after)) =
      render l 0 (.obj members) :: rest := by
  obtain ⟨t, ht⟩ := render_eq l members
  have hcut := extract_render l 0 members after
  rw [fragments_append hbefore, ht]
  rw [ht] at hcut
  rw [List.cons_append, fragments, if_pos rfl, ← List.cons_append, hcut]
  exact ⟨_, rfl⟩

theorem dropWhile_render (l : Layout) (members : List (String × Json)) (after : List Char)
    (hbefore : '\x7b' ∉ before) :
    (before ++ (render l 0 (.obj members) ++ after)).dropWhile (· ≠ '\x7b') =
      render l 0 (.obj members) ++ after := by
  obtain ⟨t, ht⟩ := render_eq l members
  rw [List.dropWhile_append_of_pos, ht, List.cons_append, List.dropWhile_cons_of_neg (by decide)]
  intro c hc
  rw [decide_eq_true_iff]
  rintro rfl
  exact hbefore hc

theorem escape_of_letter (l : Layout) {c : Char} (h : c ≠ '"' ∧ c ≠ '\\' ∧ c ≠ '/' ∧ 32 ≤ c.toNat) :
    escape l c = [c] := by
  have hcontrol {d : Char} (hd : d.toNat < 32) : c ≠ d := by
    rintro rfl
    omega
  rw [escape, if_neg, if_neg (hcontrol (by decide)), if_neg (hcontrol (by decide)),
    if_neg (hcontrol (by decide)), if_neg (by omega), if_neg (by omega), if_neg (by omega)]
  rintro (hc | hc | ⟨-, hc⟩)
  · exact h.1 hc
  · exact h.2.1 hc
  · exact h.2.2.1 hc

/-- The quoted key is in the exported text. -/
theorem search_needle (v : Json) :
    (Text.search (· == ·) needle (render l 0 (.obj [(magicKey, v)]))).isSome = true := by
  have hletters : ∀ c ∈ magicKey.toList, c ≠ '"' ∧ c ≠ '\\' ∧ c ≠ '/' ∧ 32 ≤ c.toNat := by
    simp [magicKey]
  have hkey : renderString l magicKey = needle := by
    have hmap : magicKey.toList.flatMap (escape l) = magicKey.toList := by
      rw [List.flatMap_congr fun c hc => escape_of_letter l (hletters c hc)]
      exact List.flatMap_singleton' _
    rw [renderString, hmap, needle]
  have hsplit : ∃ s t, render l 0 (.obj [(magicKey, v)]) = s ++ (needle ++ t) := by
    refine ⟨'\x7b' :: l.gap 1, l.colon ++ (render l 1 v ++ (l.gap 0 ++ ['\x7d'])), ?_⟩
    rw [render, renderMembers, renderMembers, hkey]
    simp
  obtain ⟨s, t, hst⟩ := hsplit
  rw [hst]
  exact Text.search_isSome_append (fun c _ => beq_self_eq_true c) s t

/-! ## The imports -/

/-- A text that either library reads as the exported document. -/
structure ReadBack (readers : Readers) (text : List Char) (printed root : Json) : Prop where
  read : ReadAs printed root
  parse : readers.parse text = some root
  object : ∀ s, readers.object (text ++ s) = some root

/-- nlohmann::json takes an object only from its first brace to the matching one. -/
def Strict (readers : Readers) : Prop :=
  ∀ t members, readers.parse t = some (.obj members) →
    ∃ t', Braces.extract (t.dropWhile (· ≠ '\x7b')) = some t' ∧
      readers.parse t' = some (.obj members)

variable {readers : Readers}

theorem windows_import (hclip : clip.Valid) (henv : Shows env clip) (hstrict : Strict readers)
    (hback : ReadBack readers (render l 0 (.obj [(magicKey, .obj env)]))
      (.obj [(magicKey, .obj env)]) root) (hbefore : '\x7b' ∉ before) :
    ParseSignalSequenceFromClipboardText readers
      (before ++ (render l 0 (.obj [(magicKey, .obj env)]) ++ after)) = some clip.payload := by
  obtain ⟨env', sig, elems, hfound⟩ := found_of_readAs hclip henv hback.read
  have hread := signalSequenceEnvelope_of_found hclip hfound
  have hexport : TryParseSignalSequenceEnvelope readers
      (render l 0 (.obj [(magicKey, .obj env)])) = some clip.payload := by
    rw [TryParseSignalSequenceEnvelope, hback.parse, Option.bind_some, hread]
  obtain ⟨rest, hrest⟩ := fragments_render l [(magicKey, .obj env)] after hbefore
  have hfragment : ((fragments (before ++ (render l 0 (.obj [(magicKey, .obj env)]) ++
      after))).filter fun frag => (Text.search (· == ·) needle frag).isSome).findSome?
        (TryParseSignalSequenceEnvelope readers) = some clip.payload := by
    have hkeep := List.filter_cons_of_pos (search_needle (l := l) (.obj env))
      (p := fun frag => (Text.search (· == ·) needle frag).isSome) (l := rest)
    rw [hrest, hkeep, List.findSome?_cons, hexport]
  rw [ParseSignalSequenceFromClipboardText, hfragment]
  cases hwhole : TryParseSignalSequenceEnvelope readers
      (before ++ (render l 0 (.obj [(magicKey, .obj env)]) ++ after)) with
  | none => rfl
  | some payload =>
    -- the whole text can only be the exported text between blanks
    obtain ⟨j, hj, hpayload⟩ := Option.bind_eq_some_iff.1 hwhole
    obtain ⟨whole, rfl⟩ : ∃ whole, j = .obj whole := by
      cases j with
      | obj whole => exact ⟨whole, rfl⟩
      | _ => cases hpayload
    obtain ⟨t', ht', hparse⟩ := hstrict _ _ hj
    rw [dropWhile_render _ _ _ hbefore, extract_render] at ht'
    obtain rfl := Option.some.inj ht'
    rw [hback.parse] at hparse
    rw [← Option.some.inj hparse, hread] at hpayload
    rw [← Option.some.inj hpayload]
    rfl

/-- What `parseFromText` makes of a document. -/
def envelope (readers : Readers) (root : Json) : Option Payload :=
  (nestedEnvelope readers root).or (legacyFlatEnvelope readers root)

theorem parseCandidate_eq (text : List Char) :
    parseCandidate readers text =
      (OrgJson.JSONObject readers.object text).bind (envelope readers) := by
  rw [parseCandidate, parseNestedEnvelope, parseLegacyFlatEnvelope]
  cases OrgJson.JSONObject readers.object text <;> rfl

/-- What org.json sees of the text before the signal. -/
def front (before : List Char) : List Char :=
  OrgJson.dropMark (before.dropWhile Kotlin.isWhitespace)

/-- The rest of a text in which org.json reads no other signal. -/
def Harmless (readers : Readers) (payload : Payload) (tail : List Char) : Prop :=
  ∀ (s : List Char) (root : Json),
    readers.object (tail ++ s.rdropWhile Kotlin.isWhitespace) = some root →
      envelope readers root = none ∨ envelope readers root = some payload

/-- Behind the blanks and comments in front, org.json stops in the exported text: at its beginning,
at something that is no object, or at a brace behind which it reads no other signal. -/
def Reaches (readers : Readers) (payload : Payload) (before text : List Char) : Prop :=
  ∃ tail, OrgJson.skip .blank (front before ++ text) = .stopped tail ∧
    (tail = text ∨ tail.head? ≠ some '\x7b' ∨ Harmless readers payload tail)

theorem dropMark_append (s t : List Char) :
    OrgJson.dropMark (s ++ (render l 0 (.obj members) ++ t)) =
      OrgJson.dropMark s ++ (render l 0 (.obj members) ++ t) := by
  cases s with
  | nil =>
    obtain ⟨body, hbody⟩ := render_eq l members
    rw [hbody, List.nil_append, List.cons_append, OrgJson.dropMark_brace]
    rfl
  | cons c s =>
    rw [List.cons_append, OrgJson.dropMark, OrgJson.dropMark]
    split_ifs <;> rfl

/-- The first candidate of Android. -/
theorem trim_render (before after : List Char) :
    Kotlin.trim (before ++ (render l 0 (.obj members) ++ after)) =
      before.dropWhile Kotlin.isWhitespace ++
        (render l 0 (.obj members) ++ after.rdropWhile Kotlin.isWhitespace) := by
  obtain ⟨body, hbody⟩ := render_eq l members
  apply Text.trim_append
  · rw [hbody]
    exact List.cons_ne_nil _ _
  · intro c hc
    rw [hbody] at hc
    obtain rfl := Option.some.inj hc
    decide
  · intro c hc
    rw [hbody, ← List.cons_append, List.getLast?_concat] at hc
    obtain rfl := Option.some.inj hc
    decide

section android

variable (hclip : clip.Valid) (henv : Shows env clip)
  (hback : ReadBack readers (render l 0 (.obj [(magicKey, .obj env)]))
    (.obj [(magicKey, .obj env)]) root)

include hclip henv hback

/-- Android reads the exported text and ignores what follows. -/
theorem parseObject_export (s : List Char) :
    (readers.object (render l 0 (.obj [(magicKey, .obj env)]) ++ s)).bind (envelope readers) =
      some clip.payload := by
  obtain ⟨env', sig, elems, hfound⟩ := found_of_readAs hclip henv hback.read
  rw [hback.object, Option.bind_some, envelope, nestedEnvelope_of_found readers hclip hfound]
  rfl

/-- What Android makes of a text with the exported text in it: the whole text goes first. -/
theorem parseFromText_export (hbefore : '\x7b' ∉ before) :
    parseFromText readers (before ++ (render l 0 (.obj [(magicKey, .obj env)]) ++ after)) =
      ((OrgJson.JSONObject readers.object (before.dropWhile Kotlin.isWhitespace ++
        (render l 0 (.obj [(magicKey, .obj env)]) ++ after.rdropWhile Kotlin.isWhitespace))).bind
          (envelope readers)).or (some clip.payload) := by
  obtain ⟨rest, hrest⟩ := fragments_render l [(magicKey, .obj env)] after hbefore
  obtain ⟨body, hbody⟩ := render_eq l [(magicKey, .obj env)]
  have hexport : parseCandidate readers (render l 0 (.obj [(magicKey, .obj env)])) =
      some clip.payload := by
    have hobject := parseObject_export hclip henv hback []
    have hskip : OrgJson.JSONObject readers.object (render l 0 (.obj [(magicKey, .obj env)])) =
        readers.object (render l 0 (.obj [(magicKey, .obj env)])) := by
      rw [OrgJson.JSONObject, hbody, OrgJson.dropMark_brace, OrgJson.skip_brace]
      rfl
    rw [List.append_nil] at hobject
    rw [parseCandidate_eq, hskip, hobject]
  have hne : before.dropWhile Kotlin.isWhitespace ++ (render l 0 (.obj [(magicKey, .obj env)]) ++
      after.rdropWhile Kotlin.isWhitespace) ≠ [] := by
    rw [hbody]
    simp
  rw [parseFromText, trim_render]
  show List.findSome? _ ((if _ = [] then [] else [_]) ++ _) = _
  rw [if_neg hne, hrest, List.singleton_append, List.findSome?_cons, List.findSome?_cons, hexport,
    parseCandidate_eq]
  cases (OrgJson.JSONObject readers.object _).bind (envelope readers) <;> rfl

theorem parseFromText_stopped (hbefore : '\x7b' ∉ before) {tail : List Char}
    (hskip : OrgJson.skip .blank (front before ++ render l 0 (.obj [(magicKey, .obj env)])) =
      .stopped tail) :
    parseFromText readers (before ++ (render l 0 (.obj [(magicKey, .obj env)]) ++ after)) =
      ((if tail.head? = some '\x7b' then
        readers.object (tail ++ after.rdropWhile Kotlin.isWhitespace) else none).bind
          (envelope readers)).or (some clip.payload) := by
  have hhead : (tail ++ after.rdropWhile Kotlin.isWhitespace).head? = tail.head? := by
    obtain ⟨c, tail, rfl⟩ := List.exists_cons_of_ne_nil (OrgJson.ne_nil_of_skip hskip)
    rfl
  rw [parseFromText_export hclip henv hback hbefore, OrgJson.JSONObject, dropMark_append,
    ← List.append_assoc, OrgJson.skip_append]
  rw [front] at hskip
  rw [hskip, ← hhead]

theorem parseFromText_inside (hbefore : '\x7b' ∉ before) {m : OrgJson.Mode}
    (hskip : OrgJson.skip .blank (front before ++ render l 0 (.obj [(magicKey, .obj env)])) =
      .inside m) {s : List Char}
    (hafter : after.rdropWhile Kotlin.isWhitespace = OrgJson.closer m ++ '\x7b' :: s) :
    parseFromText readers (before ++ (render l 0 (.obj [(magicKey, .obj env)]) ++ after)) =
      ((readers.object ('\x7b' :: s)).bind (envelope readers)).or (some clip.payload) := by
  rw [front] at hskip
  have hobject : OrgJson.skip .blank (OrgJson.dropMark (before.dropWhile Kotlin.isWhitespace ++
      (render l 0 (.obj [(magicKey, .obj env)]) ++ after.rdropWhile Kotlin.isWhitespace))) =
        .stopped ('\x7b' :: s) := by
    rw [dropMark_append, ← List.append_assoc, OrgJson.skip_append, hskip, hafter]
    exact OrgJson.skip_closer m s
  rw [parseFromText_export hclip henv hback hbefore, OrgJson.JSONObject_of_skip hobject]
  rfl

end android

/-! ## The round trip -/

/-- The texts that the clients copy. -/
inductive IsExport (numbers : Numbers) (clip : Clip) : List Char → Prop
  | android :
      IsExport numbers clip (toJson numbers clip.name clip.points clip.calling clip.repetitions)
  | windows {text : List Char} :
      OnCopySequence numbers clip.name clip.points clip.calling clip.repetitions = some text →
      IsExport numbers clip text

/-- Both libraries read what either one prints of the signal. -/
structure Faithful (numbers : Numbers) (readers : Readers) (clip : Clip) : Prop where
  android : ∃ root, ReadBack readers
    (toJson numbers clip.name clip.points clip.calling clip.repetitions)
    (.obj [(magicKey,
      .obj (androidEnvelope clip.name clip.points clip.calling clip.repetitions))]) root
  windows : ∀ text,
    OnCopySequence numbers clip.name clip.points clip.calling clip.repetitions = some text →
    ∃ root, ReadBack readers text
      (.obj [(magicKey,
        .obj (windowsEnvelope clip.name clip.points clip.calling clip.repetitions))]) root

variable {numbers : Numbers}

theorem export_data (hclip : clip.Valid) (hfaithful : Faithful numbers readers clip)
    {text : List Char} (h : IsExport numbers clip text) :
    ∃ l env root, text = render l 0 (.obj [(magicKey, .obj env)]) ∧ Shows env clip ∧
      ReadBack readers (render l 0 (.obj [(magicKey, .obj env)])) (.obj [(magicKey, .obj env)])
        root := by
  cases h with
  | android =>
    obtain ⟨root, hroot⟩ := hfaithful.android
    exact ⟨orgLayout numbers, _, root, rfl, shows_androidEnvelope hclip, hroot⟩
  | windows htext =>
    obtain ⟨root, hroot⟩ := hfaithful.windows _ htext
    rw [OnCopySequence, if_neg hclip.points_ne] at htext
    obtain rfl := Option.some.inj htext
    exact ⟨dumpLayout numbers, _, root, rfl, shows_windowsEnvelope hclip, hroot⟩

/-- The exported text reaches both importers through every text that goes on behind it exactly if no
comment in front of it runs over its end, and org.json stops in it at no other signal. -/
theorem signal_roundtrip_iff {clip other : Clip} (hclip : clip.Valid) (hother : other.Valid)
    (hne : other.payload ≠ clip.payload) (hstrict : Strict readers)
    (hfaithful : Faithful numbers readers clip) (hfaithful' : Faithful numbers readers other)
    {text : List Char} (h : IsExport numbers clip text) (hbefore : '\x7b' ∉ before) :
    (∀ after, parseFromText readers (before ++ (text ++ after)) = some clip.payload ∧
      ParseSignalSequenceFromClipboardText readers (before ++ (text ++ after)) =
        some clip.payload) ↔ Reaches readers clip.payload before text := by
  obtain ⟨l, env, root, rfl, henv, hback⟩ := export_data hclip hfaithful h
  constructor
  · intro hall
    cases hskip : OrgJson.skip .blank
        (front before ++ render l 0 (.obj [(magicKey, .obj env)])) with
    | stopped tail =>
      refine ⟨tail, hskip, ?_⟩
      by_cases hhead : tail.head? = some '\x7b'
      · refine Or.inr (Or.inr fun s root' hroot => ?_)
        have hs := (hall s).1
        rw [parseFromText_stopped hclip henv hback hbefore hskip, if_pos hhead, hroot,
          Option.bind_some] at hs
        cases henvelope : envelope readers root' with
        | none => exact Or.inl rfl
        | some payload =>
          rw [henvelope] at hs
          exact Or.inr hs
      · exact Or.inr (Or.inl hhead)
    | inside m =>
      -- the comment goes on up to another signal
      exfalso
      obtain ⟨l', env', root', htext, henv', hback'⟩ :=
        export_data hother hfaithful' IsExport.android
      obtain ⟨body, hbody⟩ := render_eq l' [(magicKey, .obj env')]
      have hread := parseObject_export hother henv' hback' []
      rw [List.append_nil, hbody] at hread
      have hend : (OrgJson.closer m ++ '\x7b' :: (body ++ ['\x7d'])).rdropWhile
          Kotlin.isWhitespace = OrgJson.closer m ++ '\x7b' :: (body ++ ['\x7d']) := by
        rw [← List.cons_append, ← List.append_assoc, List.rdropWhile_concat_neg _ _ _ (by decide)]
      have hs := (hall (OrgJson.closer m ++ '\x7b' :: (body ++ ['\x7d']))).1
      rw [parseFromText_inside hclip henv hback hbefore hskip hend, hread] at hs
      exact hne (Option.some.inj hs)
  · rintro ⟨tail, hskip, htail⟩ after
    refine ⟨?_, windows_import hclip henv hstrict hback hbefore⟩
    rw [parseFromText_stopped hclip henv hback hbefore hskip]
    rcases htail with rfl | hhead | hharmless
    · obtain ⟨body, hbody⟩ := render_eq l [(magicKey, .obj env)]
      rw [if_pos (by rw [hbody]; rfl), parseObject_export hclip henv hback]
      rfl
    · rw [if_neg hhead]
      rfl
    · split_ifs
      · cases hroot : readers.object (tail ++ after.rdropWhile Kotlin.isWhitespace) with
        | none => rfl
        | some root' =>
          rw [Option.bind_some]
          rcases hharmless after root' hroot with hnone | hsome
          · rw [hnone]
            rfl
          · rw [hsome]
            rfl
      · rfl

/-! ### Two signals -/

def chirp : Clip := ⟨"Chirp", [⟨1761 / 2, 100⟩], false, 1⟩

def siren : Clip := ⟨"Siren", [⟨881 / 2, 200⟩, ⟨1761 / 2, 200⟩], true, 3⟩

def numberText (q : ℚ) : List Char := if q = 881 / 2 then "440.5".toList else "880.5".toList

theorem plain_numberText (q : ℚ) : ∀ c ∈ numberText q, Braces.Plain c := by
  have htexts : ∀ c ∈ "440.5".toList ++ "880.5".toList, Braces.Plain c := by
    simp [Braces.Plain]
  intro c hc
  unfold numberText at hc
  split_ifs at hc
  · exact htexts c (List.mem_append_left _ hc)
  · exact htexts c (List.mem_append_right _ hc)

def halfNumbers : Numbers where
  org := numberText
  dump := numberText
  org_plain := plain_numberText
  dump_plain := plain_numberText

/-- The documents whose texts are known. -/
def knownDocuments : List (Layout × List (String × Json)) :=
  [chirp, siren].flatMap fun clip =>
    [(orgLayout halfNumbers, [(magicKey,
      .obj (androidEnvelope clip.name clip.points clip.calling clip.repetitions))]),
    (dumpLayout halfNumbers, [(magicKey,
      .obj (windowsEnvelope clip.name clip.points clip.calling clip.repetitions))])]

def documentText (d : Layout × List (String × Json)) : List Char := render d.1 0 (.obj d.2)

def knownParse (text : List Char) : Option Json :=
  (knownDocuments.find? fun d => documentText d = text).map fun d => .obj d.2

def knownReaders : Readers where
  parse := knownParse
  object text := (Braces.extract text).bind knownParse
  coerce := ⟨fun _ => "", fun _ => none⟩
  digit := Text.asciiDigit

theorem strict_known : Strict knownReaders := by
  intro t members h
  refine ⟨t, ?_, h⟩
  obtain ⟨d, hd, -⟩ := Option.map_eq_some_iff.1 (show knownParse t = _ from h)
  have htext : documentText d = t := by simpa using List.find?_some hd
  have hdrop := dropWhile_render d.1 d.2 [] (List.not_mem_nil : '\x7b' ∉ [])
  have hcut := extract_render d.1 0 d.2 []
  rw [List.nil_append, List.append_nil] at hdrop
  rw [List.append_nil] at hcut
  rw [← htext, documentText, hdrop, hcut]

theorem distinct_known : knownDocuments.Pairwise fun d d' => documentText d ≠ documentText d' := by
  decide +kernel

theorem readBack_known (d : Layout × List (String × Json))
    (front rest : List (Layout × List (String × Json)))
    (hsplit : knownDocuments = front ++ d :: rest) :
    ReadBack knownReaders (documentText d) (.obj d.2) (.obj d.2) := by
  have hfront : ∀ d' ∈ front, documentText d' ≠ documentText d := by
    have hdistinct := distinct_known
    rw [hsplit, List.pairwise_append] at hdistinct
    exact fun d' hd' => hdistinct.2.2 d' hd' d List.mem_cons_self
  have hparse : knownParse (documentText d) = some (.obj d.2) := by
    rw [knownParse, hsplit, List.find?_append,
      List.find?_eq_none.2 fun d' hd' => by simpa using hfront d' hd', Option.none_or,
      List.find?_cons_of_pos (by simp)]
    rfl
  refine ⟨.refl _, hparse, fun s => ?_⟩
  show (Braces.extract (documentText d ++ s)).bind knownParse = _
  rw [documentText, extract_render, Option.bind_some]
  exact hparse

theorem faithful_chirp : Faithful halfNumbers knownReaders chirp where
  android := ⟨_, readBack_known _ [] _ rfl⟩
  windows text h := by
    rw [← Option.some.inj h]
    exact ⟨_, readBack_known (dumpLayout halfNumbers, _) (knownDocuments.take 1) _ rfl⟩

theorem faithful_siren : Faithful halfNumbers knownReaders siren where
  android := ⟨_, readBack_known (orgLayout halfNumbers, _) (knownDocuments.take 2) _ rfl⟩
  windows text h := by
    rw [← Option.some.inj h]
    exact ⟨_, readBack_known (dumpLayout halfNumbers, _) (knownDocuments.take 3) _ rfl⟩

theorem valid_chirp : chirp.Valid where
  points_ne := by decide
  points := by norm_num [chirp]
  repetitions := by decide

theorem valid_siren : siren.Valid where
  points_ne := by decide
  points := by norm_num [siren]
  repetitions := by decide

/-- Between two words both clients read the signal. -/
theorem signal_roundtrip_sentence :
    parseFromText knownReaders ("Mine: ".toList ++ (toJson halfNumbers chirp.name chirp.points
        chirp.calling chirp.repetitions ++ " (try it)".toList)) = some chirp.payload ∧
      ParseSignalSequenceFromClipboardText knownReaders ("Mine: ".toList ++ (toJson halfNumbers
        chirp.name chirp.points chirp.calling chirp.repetitions ++ " (try it)".toList)) =
          some chirp.payload :=
  (signal_roundtrip_iff valid_chirp valid_siren (by decide +kernel) strict_known faithful_chirp
    faithful_siren IsExport.android (by decide)).2
    ⟨"Mine: ".toList ++ toJson halfNumbers chirp.name chirp.points chirp.calling chirp.repetitions,
      by decide +kernel, Or.inr (Or.inl (by decide +kernel))⟩ " (try it)".toList

/-- Behind a number sign Android does not read the signal but the one on the next line. -/
theorem comment_before_signal :
    parseFromText knownReaders ("# ".toList ++ (toJson halfNumbers chirp.name chirp.points
        chirp.calling chirp.repetitions ++ '\n' :: toJson halfNumbers siren.name siren.points
          siren.calling siren.repetitions)) = some siren.payload ∧
      siren.payload ≠ chirp.payload := by
  decide +kernel

end SignalClipboard

end OWalkie
