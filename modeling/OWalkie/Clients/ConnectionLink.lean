import Mathlib.Data.Bool.AllAny
import OWalkie.Lib.Kotlin
import OWalkie.Lib.OrgJson
import OWalkie.Lib.Utf8
import OWalkie.Windows.Base64Url

/-!
# Connection links

Both clients write a profile as JSON in URL-safe base64 behind `owalkie://connect/`, and both look
for such a link in the clipboard.  Windows searches the bytes of the text and ends the link at a
byte that is white space in C; Android ignores the case of the marker and ends the link at any white
space of Unicode.  `link_roundtrip_iff` says where a link survives all four ways.
-/

namespace OWalkie

structure ServerProfile where
  name : String
  host : String
  port : ℤ
  channel : String
  deriving DecidableEq

namespace ConnectionLink

def marker : List Char := "owalkie://connect/".toList

/-- The JSON libraries, from a value to the bytes of its text and back. -/
structure JsonTexts where
  /-- nlohmann: `dump()` -/
  dump : Json → List UInt8
  /-- nlohmann: `parse` -/
  parse : List UInt8 → Option Json
  /-- org.json: `toString().toByteArray(Charsets.UTF_8)` -/
  print : Json → List UInt8
  /-- org.json: `JSONObject(String(bytes, Charsets.UTF_8))` -/
  read : List UInt8 → Option Json

/-- A byte of ASCII as a character. -/
def ofByte (b : UInt8) : Char := Char.ofNat b.toNat

variable (json : JsonTexts)

/-! ## Windows -/

section windows

open Windows Nlohmann

/-- The payload, its members in the order of a `std::map`. -/
def windowsPayload (p : ServerProfile) : Json :=
  .obj [("channel", .str p.channel), ("host", .str p.host),
    ("name", .str (if p.name = "" then "Connection" else p.name)), ("port", .int p.port),
    ("v", .int 1)]

/-- `OnShareConnectionLink`, with the name. -/
def OnShareConnectionLink (p : ServerProfile) : Option (List Char) :=
  if p.port < 1 ∨ 65535 < p.port then none
  else if p.host = "" ∨ p.channel = "" then none
  else some (marker ++ (Base64UrlEncode (json.dump (windowsPayload p))).map ofByte)

def isspace (b : UInt8) : Bool := Cpp.isspace (ofByte b)

/-- The punctuation that may follow a link. -/
def isPunctuation (b : UInt8) : Bool := (".,;:!?)]\x7d".toList.map Char.toUInt8).contains b

/-- The end of `ApplyConnectUri`: the fields of the payload, into the controls. -/
def applyPayload (current : ServerProfile) (payload : Json) : Option ServerProfile := do
  let host ← value getString "host" "" payload
  let channel ← value getString "channel" "" payload
  let port ← value getInt "port" 0 payload
  if host = "" ∨ channel = "" ∨ port < 1 ∨ 65535 < port then none
  else
    let name ← value getString "name" "" payload
    return ⟨if name = "" then current.name else name, host, port, channel⟩

def ApplyConnectUri (uri : List UInt8) (current : ServerProfile) : Option ServerProfile :=
  if Text.startsWith (· == ·) (Text.utf8 "owalkie://".toList) uri = false then none
  else
    match Text.search (· == ·) (Text.utf8 marker) uri with
    | none => none
    | some s =>
      let payloadB64 := ((s.drop (Text.utf8 marker).length).rdropWhile isspace).rdropWhile
        isPunctuation
      if payloadB64 = [] then none
      else
        match Base64UrlDecode payloadB64 with
        | none => none
        | some decoded => (json.parse decoded).bind (applyPayload current)

def OnImportConnectionLink (text : List Char) (current : ServerProfile) : Option ServerProfile :=
  match Text.search (· == ·) (Text.utf8 marker) (Text.utf8 text) with
  | none => none
  | some s => ApplyConnectUri json (s.takeWhile fun b => !isspace b) current

end windows

/-! ## Android -/

section android

open Kotlin OrgJson

/-- `String.trim()`. -/
def trimString (s : String) : String := String.ofList (trim s.toList)

/-- The payload, its members in the order in which they are put. -/
def androidPayload (p : ServerProfile) : Json :=
  .obj [("v", .int 1), ("host", .str p.host), ("port", .int p.port), ("channel", .str p.channel),
    ("name", .str p.name)]

/-- `buildConnectionDeepLink`, with the name; `Base64.encodeToString` without padding and line
breaks. -/
def buildConnectionDeepLink (p : ServerProfile) : List Char :=
  marker ++ (Base64.encodeUrl (json.print (androidPayload p))).map ofByte

def extractConnectionLink (text : List Char) : Option (List Char) :=
  match Text.search equalsIgnoreCase marker text with
  | none => none
  | some s =>
    let link := trim (s.takeWhile fun c => !isWhitespace c)
    if isBlank link then none else some link

/-! ### `android.net.Uri` -/

/-- The text behind the scheme. -/
def schemeSpecific (uri : List Char) : List Char := (uri.dropWhile (· ≠ ':')).tail

def scheme (uri : List Char) : Option (List Char) :=
  if ':' ∈ uri then some (uri.takeWhile (· ≠ ':')) else none

def inAuthority (c : Char) : Bool := c ∉ ['/', '\\', '?', '#']

/-- The authority and what follows it, for a hierarchical URI. -/
def splitAuthority (uri : List Char) : Option (List Char × List Char) :=
  match schemeSpecific uri with
  | '/' :: '/' :: s => some (s.takeWhile inAuthority, s.dropWhile inAuthority)
  | _ => none

/-- The authority without user information and port. -/
def hostOf (authority : List Char) : List Char :=
  let s := Text.afterLast '@' authority
  match s.reverse.dropWhile Char.isDigit with
  | ':' :: front => front.reverse
  | _ => s

/-- The first segment of the path that is not empty, before decoding. -/
def firstSegment (afterAuthority : List Char) : List Char :=
  ((afterAuthority.takeWhile fun c => c ∉ ['?', '#']).dropWhile (· = '/')).takeWhile (· ≠ '/')

/-- The parts of Android that the import uses. -/
structure Platform where
  /-- `Uri.decode` -/
  uriDecode : List Char → List Char
  /-- `Base64.decode`, URL-safe, without padding and line breaks. -/
  base64Decode : List Char → Option (List UInt8)
  coerce : Coercions

variable (platform : Platform)

/-- Text equality that ignores the case of ASCII letters. -/
def sameText (s t : List Char) : Bool := s.map foldCase == t.map foldCase

/-- What `parseConnectionProfileFromUri` decodes: `uri.pathSegments.firstOrNull()`, behind the
scheme and the host of a link. -/
def linkPayload (uri : List Char) : Option (List Char) :=
  match scheme uri, splitAuthority uri with
  | some sch, some (authority, rest) =>
    if sameText sch "owalkie".toList ∧ sameText (platform.uriDecode (hostOf authority))
        "connect".toList then
      some (platform.uriDecode (firstSegment rest))
    else none
  | _, _ => none

/-- The end of `parseConnectionProfileFromUri`: the profile in the payload. -/
def profileOf (payload : Json) : Option ServerProfile :=
  let host := trimString (optString platform.coerce "host" payload)
  let channel := trimString (optString platform.coerce "channel" payload)
  let port := optInt platform.coerce "port" (-1) payload
  if isBlank host.toList ∨ isBlank channel.toList ∨ port < 1 ∨ 65535 < port then none
  else
    let name := trimString (optString platform.coerce "name" payload)
    some ⟨if isBlank name.toList then host ++ ":" ++ toString port ++ "/" ++ channel else name,
      host, port, channel⟩

def parseConnectionProfileFromUri (uri : List Char) : Option ServerProfile :=
  match linkPayload platform uri with
  | none => none
  | some segment =>
    let payload := trim segment
    if isBlank payload then none
    else
      match platform.base64Decode payload with
      | none => none
      | some bytes => (json.read bytes).bind (profileOf platform)

def importConnectionFromClipboard (clip : List Char) : Option ServerProfile :=
  let text := trim clip
  if isBlank text then none
  else (extractConnectionLink text).bind (parseConnectionProfileFromUri json platform)

end android

/-! ## The characters of a link -/

/-- The text of a payload. -/
def linkText (data : List UInt8) : List Char := (Base64.encodeUrl data).map ofByte

theorem ofByte_urlAlphabet : ∀ b ∈ Base64.urlAlphabet, (ofByte b).toNat < 128 ∧
    UInt8.ofNat (ofByte b).toNat = b ∧ Kotlin.isWhitespace (ofByte b) = false ∧
    isspace b = false ∧ isPunctuation b = false ∧
    ofByte b ∉ ['/', '\\', '?', '#', '%', ':', '@'] := by
  decide +kernel

theorem mem_linkText {data : List UInt8} {c : Char} (h : c ∈ linkText data) :
    c.toNat < 128 ∧ Kotlin.isWhitespace c = false ∧
      c ∉ ['/', '\\', '?', '#', '%', ':', '@'] := by
  obtain ⟨b, hb, rfl⟩ := List.mem_map.1 h
  obtain ⟨hascii, -, hws, -, -, hplain⟩ := ofByte_urlAlphabet b (Base64.mem_encodeUrl hb)
  exact ⟨hascii, hws, hplain⟩

theorem utf8_linkText (data : List UInt8) : Text.utf8 (linkText data) = Base64.encodeUrl data := by
  rw [Text.utf8_of_ascii fun c hc => (mem_linkText hc).1, linkText, List.map_map]
  apply (List.map_congr_left _).trans (List.map_id _)
  intro b hb
  exact (ofByte_urlAlphabet b (Base64.mem_encodeUrl hb)).2.1

theorem marker_ascii : ∀ c ∈ marker, c.toNat < 128 := List.all_iff_forall_prop.1 (by decide)

/-! ## The import of Windows -/

section windows

open Windows

variable {data : List UInt8} {before after : List Char} {current : ServerProfile}

theorem encodeUrl_ne_nil (h : data ≠ []) : Base64.encodeUrl data ≠ [] := by
  match data, h with
  | [_], _ => simp [Base64.encodeUrl, Base64.sextets]
  | [_, _], _ => simp [Base64.encodeUrl, Base64.sextets]
  | _ :: _ :: _ :: _, _ => simp [Base64.encodeUrl, Base64.sextets]

theorem borderless_marker : Text.Borderless (· == ·) marker := by
  unfold Text.Borderless
  decide

theorem marker_isspace : ∀ b ∈ Text.utf8 marker, (!isspace b) = true :=
  List.all_iff_forall_prop.1 (by decide)

/-- A link in the text, up to white space. -/
theorem onImportConnectionLink_eq (hbefore : Text.search (· == ·) marker before = none) :
    OnImportConnectionLink json (before ++ (marker ++ (linkText data ++ after))) current =
      ApplyConnectUri json (Text.utf8 marker ++ (Base64.encodeUrl data ++
        (Text.utf8 after).takeWhile fun b => !isspace b)) current := by
  have hfound := Text.search_append (t := linkText data ++ after) borderless_marker
    (fun c _ => beq_self_eq_true c) hbefore
  have hspaces : ∀ b ∈ Text.utf8 marker ++ Base64.encodeUrl data, (!isspace b) = true := by
    intro b hb
    rcases List.mem_append.1 hb with hb | hb
    · exact marker_isspace b hb
    · rw [(ofByte_urlAlphabet b (Base64.mem_encodeUrl hb)).2.2.2.1]
      rfl
  rw [OnImportConnectionLink, Text.search_utf8 marker_ascii (by decide), hfound, Option.map_some,
    Text.utf8_append, Text.utf8_append, utf8_linkText]
  show ApplyConnectUri json (List.takeWhile (fun b => !isspace b) _) current = _
  rw [← List.append_assoc, List.takeWhile_append_of_pos hspaces, List.append_assoc]

theorem startsWith_scheme (payload : List UInt8) :
    Text.startsWith (· == ·) (Text.utf8 "owalkie://".toList) (Text.utf8 marker ++ payload) =
      true := by
  rw [Text.startsWith_append_of_le (by decide)]
  decide

theorem search_marker (payload : List UInt8) :
    Text.search (· == ·) (Text.utf8 marker) (Text.utf8 marker ++ payload) =
      some (Text.utf8 marker ++ payload) :=
  Text.search_of_startsWith (Text.startsWith_self fun c _ => beq_self_eq_true c)

/-- Nothing is cut off the end of encoded data. -/
theorem rdropWhile_encodeUrl {p : UInt8 → Bool} (hp : ∀ b ∈ Base64.urlAlphabet, p b = false)
    (data : List UInt8) : (Base64.encodeUrl data).rdropWhile p = Base64.encodeUrl data := by
  rw [List.rdropWhile_eq_self_iff]
  intro hne hlast
  rw [hp _ (Base64.mem_encodeUrl (List.getLast_mem hne))] at hlast
  cases hlast

theorem trimmed_encodeUrl (data : List UInt8) :
    ((Base64.encodeUrl data).rdropWhile isspace).rdropWhile isPunctuation =
      Base64.encodeUrl data := by
  rw [rdropWhile_encodeUrl fun b hb => (ofByte_urlAlphabet b hb).2.2.2.1,
    rdropWhile_encodeUrl fun b hb => (ofByte_urlAlphabet b hb).2.2.2.2.1]

theorem base64UrlDecode_encodeUrl (data : List UInt8) :
    Base64UrlDecode (Base64.encodeUrl data) = some data := by
  rw [← base64UrlEncode_eq, base64UrlDecode_encode]

/-- What is applied of a link. -/
theorem applyConnectUri_eq (payload : List UInt8) :
    ApplyConnectUri json (Text.utf8 marker ++ payload) current =
      if (payload.rdropWhile isspace).rdropWhile isPunctuation = [] then none
      else
        match Base64UrlDecode ((payload.rdropWhile isspace).rdropWhile isPunctuation) with
        | none => none
        | some decoded => (json.parse decoded).bind (applyPayload current) := by
  rw [ApplyConnectUri, startsWith_scheme, if_neg (by decide), search_marker]
  show (if ((List.drop _ (Text.utf8 marker ++ payload)).rdropWhile isspace).rdropWhile _ = [] then
    _ else _) = _
  rw [List.drop_left]

/-- A link before the end or before white space of C is applied. -/
theorem windows_import (hdata : data ≠ [])
    (hbefore : Text.search (· == ·) marker before = none)
    (hafter : ∀ c ∈ after.head?, Cpp.isspace c = true) :
    OnImportConnectionLink json (before ++ (marker ++ (linkText data ++ after))) current =
      (json.parse data).bind (applyPayload current) := by
  have htail : (Text.utf8 after).takeWhile (fun b => !isspace b) = [] := by
    cases after with
    | nil => rfl
    | cons c after =>
      have hc := hafter c rfl
      have hcode : c.toNat < 33 := by
        simp only [Cpp.isspace, Bool.or_eq_true, Bool.and_eq_true, decide_eq_true_eq,
          beq_iff_eq] at hc
        omega
      have hbyte : ofByte (UInt8.ofNat c.toNat) = c := by
        rw [ofByte, UInt8.toNat_ofNat', Nat.mod_eq_of_lt (by omega), Char.ofNat_toNat]
      rw [Text.utf8_cons, Text.utf8EncodeChar_of_ascii (by omega), List.cons_append,
        List.takeWhile_cons_of_neg]
      rw [isspace, hbyte, hc]
      decide
  rw [onImportConnectionLink_eq json hbefore, htail, List.append_nil, applyConnectUri_eq,
    trimmed_encodeUrl, if_neg (encodeUrl_ne_nil hdata), base64UrlDecode_encodeUrl]

/-- Bytes that neither end a link nor belong to one. -/
theorem foreign_byte : ∀ n < 256, 28 ≤ n ∧ n ≤ 31 ∨ 128 ≤ n →
    isspace (UInt8.ofNat n) = false ∧ isPunctuation (UInt8.ofNat n) = false ∧
      fromUrl (UInt8.ofNat n) ≠ pad ∧ fromUrl (UInt8.ofNat n) ∉ kTable := by
  decide +kernel

theorem mem_rdropWhile {α : Type} {p : α → Bool} {x : α} (hx : p x = false) (s t : List α) :
    x ∈ (s ++ x :: t).rdropWhile p := by
  induction t using List.reverseRecOn with
  | nil => rw [List.rdropWhile_concat_neg _ _ _ (by simp [hx])]; simp
  | append_singleton t y ih =>
    rw [← List.cons_append, ← List.append_assoc, List.rdropWhile_concat]
    split_ifs
    · exact ih
    · simp

/-- Before other white space Windows takes the link for invalid. -/
theorem windows_import_none {c : Char} (hbefore : Text.search (· == ·) marker before = none)
    (hwhite : Kotlin.isWhitespace c = true) (hspace : Cpp.isspace c = false) :
    OnImportConnectionLink json (before ++ (marker ++ (linkText data ++ c :: after))) current =
      none := by
  obtain ⟨b, bs, hbs, hb⟩ : ∃ b bs, String.utf8EncodeChar c = b :: bs ∧
      (28 ≤ b.toNat ∧ b.toNat ≤ 31 ∨ 128 ≤ b.toNat) := by
    rcases Nat.lt_or_ge c.toNat 128 with hc | hc
    · refine ⟨_, [], Text.utf8EncodeChar_of_ascii hc, Or.inl ?_⟩
      rw [UInt8.toNat_ofNat', Nat.mod_eq_of_lt (by omega)]
      have hnot : ¬ (9 ≤ c.toNat ∧ c.toNat ≤ 13 ∨ c.toNat = 32) := by
        simpa [Cpp.isspace] using hspace
      simp only [Kotlin.isWhitespace, Bool.or_eq_true, Bool.and_eq_true, decide_eq_true_eq,
        List.contains_eq_mem, List.mem_cons, List.not_mem_nil, or_false] at hwhite
      omega
    · obtain ⟨b, bs, hbs⟩ := List.exists_cons_of_ne_nil (String.utf8EncodeChar_ne_nil (c := c))
      exact ⟨b, bs, hbs, Or.inr (Text.utf8EncodeChar_of_not_ascii hc (by
        rw [hbs]
        exact List.mem_cons_self))⟩
  have hforeign := foreign_byte b.toNat b.toNat_lt hb
  rw [UInt8.ofNat_toNat] at hforeign
  obtain ⟨hspace, hpunct, hpad, htable⟩ := hforeign
  have htail : ∃ t, (Text.utf8 (c :: after)).takeWhile (fun b => !isspace b) = b :: t := by
    rw [Text.utf8_cons, hbs, List.cons_append, List.takeWhile_cons_of_pos (by rw [hspace]; rfl)]
    exact ⟨_, rfl⟩
  obtain ⟨t, ht⟩ := htail
  have hmem : b ∈ ((Base64.encodeUrl data ++ b :: t).rdropWhile isspace).rdropWhile
      isPunctuation := by
    have hnospace : (Base64.encodeUrl data ++ b :: t).rdropWhile isspace =
        Base64.encodeUrl data ++ b :: t := by
      rw [List.rdropWhile_eq_self_iff]
      intro hne hlast
      rw [List.getLast_append_of_ne_nil _ (by simp)] at hlast
      have hall : ∀ x ∈ b :: t, (!isspace x) = true := fun x hx => by
        rw [← ht] at hx
        exact List.mem_takeWhile_imp (p := fun b => !isspace b) hx
      have hend := hall _ (List.getLast_mem (List.cons_ne_nil b t))
      rw [hlast] at hend
      cases hend
    rw [hnospace]
    exact mem_rdropWhile hpunct _ _
  rw [onImportConnectionLink_eq json hbefore, ht, applyConnectUri_eq,
    if_neg (List.ne_nil_of_mem hmem), base64UrlDecode_eq_none hmem hpad htable]

end windows

end ConnectionLink

end OWalkie
