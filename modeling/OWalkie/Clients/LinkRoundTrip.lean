import Mathlib.Data.Bool.AllAny
import OWalkie.Clients.ConnectionLink

/-!
# A connection link through a clipboard

`android_import` and `windows_import` follow a link through the two importers.  Android's goes wrong
behind another spelling of the marker, whatever the link says (`import_behind_marker`), Windows'
before white space that C does not know (`windows_import_none`); `link_roundtrip_iff` puts the four
ways together.
-/

namespace OWalkie

namespace ConnectionLink

open Kotlin OrgJson Windows

variable (json : JsonTexts) (platform : Platform) {before after : List Char}

/-! ## The clipboard text of Android -/

theorem borderless_marker_ignoreCase : Text.Borderless equalsIgnoreCase marker := by
  unfold Text.Borderless
  decide +kernel

theorem marker_eq : marker = 'o' :: "walkie://connect/".toList := by decide

theorem equalsIgnoreCase_self (c : Char) : equalsIgnoreCase c c = true := beq_self_eq_true _

/-- White space begins no marker. -/
theorem startsWith_whitespace (c : Char) (s : List Char) (h : isWhitespace c = true) :
    Text.startsWith equalsIgnoreCase marker (c :: s) = false := by
  have hc : equalsIgnoreCase 'o' c = false := by
    rw [equalsIgnoreCase, foldCase_of_isWhitespace h, beq_eq_false_iff_ne]
    intro hfold
    rw [← hfold] at h
    exact absurd h (by decide +kernel)
  rw [marker_eq, Text.startsWith, hc, Bool.false_and]

theorem marker_plain : ∀ c ∈ marker, isWhitespace c = false :=
  List.all_iff_forall_prop.1 (by decide)

/-- What `trim` leaves around a link. -/
theorem trim_link (data : List UInt8) :
    trim (before ++ (marker ++ (linkText data ++ after))) =
      before.dropWhile isWhitespace ++
        (marker ++ (linkText data ++ after.rdropWhile isWhitespace)) := by
  have hplain : ∀ c ∈ marker ++ linkText data, isWhitespace c = false := by
    intro c hc
    rcases List.mem_append.1 hc with hc | hc
    · exact marker_plain c hc
    · exact (mem_linkText hc).2.1
  have hne : marker ++ linkText data ≠ [] := by simp [marker_eq]
  have htrim := Text.trim_append hne (fun c hc => hplain c (List.mem_of_mem_head? hc))
    (fun c hc => hplain c (List.mem_of_mem_getLast? hc)) before after
  rwa [List.append_assoc, List.append_assoc] at htrim

theorem isBlank_false {s : List Char} {c : Char} (hc : c ∈ s) (hplain : isWhitespace c = false) :
    isBlank s = false := by
  rw [isBlank, List.all_eq_false]
  exact ⟨c, hc, by simp [hplain]⟩

/-- What is imported from a text with a link, by the link that is extracted. -/
theorem importConnectionFromClipboard_eq (data : List UInt8) :
    importConnectionFromClipboard json platform
        (before ++ (marker ++ (linkText data ++ after))) =
      (extractConnectionLink (before.dropWhile isWhitespace ++
        (marker ++ (linkText data ++ after.rdropWhile isWhitespace)))).bind
          (parseConnectionProfileFromUri json platform) := by
  have hblank : isBlank (before.dropWhile isWhitespace ++
      (marker ++ (linkText data ++ after.rdropWhile isWhitespace))) = false :=
    isBlank_false (c := 'o') (by simp [marker_eq]) (by decide)
  rw [importConnectionFromClipboard, trim_link, hblank]
  rfl

/-! ## The URI of a link -/

theorem splitAuthority_marker (payload : List Char) :
    splitAuthority (marker ++ payload) = some ("connect".toList, '/' :: payload) := by
  rfl

theorem scheme_marker (payload : List Char) :
    scheme (marker ++ payload) = some "owalkie".toList := by
  rw [scheme, if_pos (List.mem_append_left _ (by decide))]
  rfl

theorem firstSegment_payload {payload : List Char} (h : ∀ c ∈ payload, c ∉ ['/', '?', '#']) :
    firstSegment ('/' :: payload) = payload := by
  have hslash : ∀ c ∈ payload, c ≠ '/' := fun c hc hcontra => h c hc (by simp [hcontra])
  have hplain : ∀ c ∈ payload, decide (c ∉ ['?', '#']) = true := fun c hc =>
    decide_eq_true fun hcontra => h c hc (List.mem_cons_of_mem _ hcontra)
  have hpath : payload.dropWhile (· = '/') = payload := by
    cases payload with
    | nil => rfl
    | cons c payload =>
      rw [List.dropWhile_cons_of_neg (by simpa using hslash c List.mem_cons_self)]
  rw [firstSegment, List.takeWhile_cons_of_pos (by decide), List.takeWhile_eq_self_iff.2 hplain,
    List.dropWhile_cons_of_pos (by decide), hpath, List.takeWhile_eq_self_iff.2]
  exact fun c hc => decide_eq_true (hslash c hc)

theorem trim_of_plain {s : List Char} (h : ∀ c ∈ s, isWhitespace c = false) : trim s = s := by
  have hfront : s.dropWhile isWhitespace = s := by
    cases s with
    | nil => rfl
    | cons c s => rw [List.dropWhile_cons_of_neg (by simp [h c List.mem_cons_self])]
  rw [trim, Text.trim, hfront, List.rdropWhile_eq_self_iff]
  intro hne hend
  rw [h _ (List.getLast_mem hne)] at hend
  cases hend

variable {platform} {data : List UInt8}

theorem linkPayload_link (hdecode : ∀ s, '%' ∉ s → platform.uriDecode s = s) :
    linkPayload platform (marker ++ linkText data) = some (linkText data) := by
  have hhost : platform.uriDecode (hostOf "connect".toList) = "connect".toList := by
    rw [hdecode _ (by decide)]
    decide
  have hsegment : platform.uriDecode (linkText data) = linkText data :=
    hdecode _ fun hc => (mem_linkText hc).2.2 (by decide)
  have hfirst : firstSegment ('/' :: linkText data) = linkText data := by
    apply firstSegment_payload
    intro c hc hcontra
    apply (mem_linkText hc).2.2
    revert hcontra
    simp only [List.mem_cons, List.not_mem_nil, or_false]
    tauto
  rw [linkPayload, scheme_marker, splitAuthority_marker]
  show (if sameText _ _ ∧ sameText (platform.uriDecode (hostOf "connect".toList)) _ then
    some (platform.uriDecode (firstSegment ('/' :: linkText data))) else none) = _
  rw [hhost, hfirst, hsegment, if_pos (by decide +kernel)]

theorem linkText_ne_nil (h : data ≠ []) : linkText data ≠ [] := by
  rw [linkText, Ne, List.map_eq_nil_iff]
  exact encodeUrl_ne_nil h

theorem parseConnectionProfileFromUri_link (hdecode : ∀ s, '%' ∉ s → platform.uriDecode s = s)
    (hbase64 : platform.base64Decode (linkText data) = some data) (hdata : data ≠ []) :
    parseConnectionProfileFromUri json platform (marker ++ linkText data) =
      (json.read data).bind (profileOf platform) := by
  obtain ⟨c, hc⟩ := List.exists_mem_of_ne_nil _ (linkText_ne_nil hdata)
  rw [parseConnectionProfileFromUri, linkPayload_link hdecode]
  show (if isBlank (trim (linkText data)) then none else _) = _
  rw [trim_of_plain fun c hc => (mem_linkText hc).2.1, isBlank_false hc (mem_linkText hc).2.1,
    if_neg (by decide), hbase64]

/-- The link is the first one that Android finds, and ends where it should. -/
theorem android_import (hdecode : ∀ s, '%' ∉ s → platform.uriDecode s = s)
    (hbase64 : platform.base64Decode (linkText data) = some data) (hdata : data ≠ [])
    (hbefore : Text.search equalsIgnoreCase marker before = none)
    (hafter : ∀ c ∈ after.head?, isWhitespace c = true) :
    importConnectionFromClipboard json platform (before ++ (marker ++ (linkText data ++ after))) =
      (json.read data).bind (profileOf platform) := by
  have hnone : Text.search equalsIgnoreCase marker (before.dropWhile isWhitespace) = none := by
    rw [Text.search_dropWhile startsWith_whitespace, hbefore]
  have hfound := Text.search_append (t := linkText data ++ after.rdropWhile isWhitespace)
    borderless_marker_ignoreCase (fun c _ => equalsIgnoreCase_self c) hnone
  have hplain : ∀ c ∈ marker ++ linkText data, isWhitespace c = false := by
    intro c hc
    rcases List.mem_append.1 hc with hc | hc
    · exact marker_plain c hc
    · exact (mem_linkText hc).2.1
  have htail : (after.rdropWhile isWhitespace).takeWhile (fun c => !isWhitespace c) = [] := by
    cases hrest : after.rdropWhile isWhitespace with
    | nil => rfl
    | cons c rest =>
      obtain ⟨t, ht⟩ := List.rdropWhile_prefix isWhitespace (l := after)
      rw [List.takeWhile_cons_of_neg]
      rw [hafter c (by rw [← ht, hrest]; rfl)]
      decide
  have hlink : (marker ++ (linkText data ++ after.rdropWhile isWhitespace)).takeWhile
      (fun c => !isWhitespace c) = marker ++ linkText data := by
    rw [← List.append_assoc, List.takeWhile_append_of_pos (fun c hc => by rw [hplain c hc]; rfl),
      htail, List.append_nil]
  have hextract : extractConnectionLink (before.dropWhile isWhitespace ++
      (marker ++ (linkText data ++ after.rdropWhile isWhitespace))) =
        some (marker ++ linkText data) := by
    have hblank : isBlank (marker ++ linkText data) = false :=
      isBlank_false (c := 'o') (by simp [marker_eq]) (by decide)
    rw [extractConnectionLink, hfound]
    show (if isBlank (trim _) = true then none else some (trim _)) = _
    rw [hlink, trim_of_plain hplain, hblank]
    rfl
  rw [importConnectionFromClipboard_eq, hextract]
  exact parseConnectionProfileFromUri_link json hdecode hbase64 hdata

/-! ## Another spelling of the marker in front -/

theorem eq_of_foldCase {c d : Char} (hd : d.toNat < 97) (h : foldCase c = d) : c = d := by
  rw [foldCase] at h
  split_ifs at h
  · rw [← h] at hd
    exact absurd hd (by decide)
  · rw [← h] at hd
    exact absurd hd (by decide)
  · rw [← h] at hd
    exact absurd hd (by decide)
  · delta Char.toLower at h
    split_ifs at h with hcap
    · have hcode : 65 ≤ c.toNat := hcap.1
      have hcap' : c.toNat ≤ 90 := hcap.2
      have hlower : d.toNat = (c.toNat + 32) % 2 ^ 32 := by
        rw [← h]
        rfl
      rw [Nat.mod_eq_of_lt (by omega)] at hlower
      omega
    · exact h

theorem exists_of_startsWith {pat s : List Char}
    (h : Text.startsWith equalsIgnoreCase pat s = true) :
    ∃ m r, s = m ++ r ∧ m.map foldCase = pat.map foldCase := by
  induction pat generalizing s with
  | nil => exact ⟨[], s, rfl, rfl⟩
  | cons p pat ih =>
    cases s with
    | nil => cases h
    | cons c s =>
      rw [Text.startsWith, Bool.and_eq_true, equalsIgnoreCase, beq_iff_eq] at h
      obtain ⟨m, r, rfl, hm⟩ := ih h.2
      exact ⟨c :: m, r, rfl, by rw [List.map_cons, List.map_cons, hm, h.1]⟩

/-- The first segment ends before the next slash. -/
theorem firstSegment_append {w : List Char} (h : ∃ c ∈ w, c ≠ '/') (s t : List Char) :
    firstSegment (w ++ '/' :: s) = firstSegment (w ++ '/' :: t) := by
  have hcut (p : Char → Bool) (hp : p '/' = false) (w s : List Char) :
      (w ++ '/' :: s).takeWhile p = w.takeWhile p := by
    rw [List.takeWhile_append, List.takeWhile_cons_of_neg (by simp [hp]), List.append_nil]
    split_ifs with hall
    · exact ((List.takeWhile_prefix p).eq_of_length hall).symm
    · rfl
  induction w with
  | nil =>
    obtain ⟨c, hc, -⟩ := h
    cases hc
  | cons c w ih =>
    by_cases hend : c ∈ ['?', '#']
    · have hcons (s : List Char) : (c :: s).takeWhile (fun c => decide (c ∉ ['?', '#'])) = [] :=
        List.takeWhile_cons_of_neg fun hplain => of_decide_eq_true hplain hend
      rw [firstSegment, firstSegment, List.cons_append, List.cons_append, hcons, hcons]
    · have hcons (s : List Char) : (c :: s).takeWhile (fun c => decide (c ∉ ['?', '#'])) =
          c :: s.takeWhile fun c => decide (c ∉ ['?', '#']) :=
        List.takeWhile_cons_of_pos (decide_eq_true hend)
      rw [firstSegment, firstSegment, List.cons_append, List.cons_append, hcons, hcons]
      by_cases hslash : c = '/'
      · rw [List.dropWhile_cons_of_pos (by simpa using hslash),
          List.dropWhile_cons_of_pos (by simpa using hslash)]
        apply ih
        obtain ⟨d, hd, hne⟩ := h
        rcases List.mem_cons.1 hd with rfl | hd
        · exact absurd hslash hne
        · exact ⟨d, hd, hne⟩
      · rw [List.dropWhile_cons_of_neg (by simpa using hslash),
          List.dropWhile_cons_of_neg (by simpa using hslash),
          List.takeWhile_cons_of_pos (by simpa using hslash),
          List.takeWhile_cons_of_pos (by simpa using hslash), List.takeWhile_takeWhile,
          List.takeWhile_takeWhile, hcut _ (by decide), hcut _ (by decide)]

/-- The parts of a URI that begins with some spelling of the marker. -/
theorem parts_of_startsWith {u : List Char} (h : Text.startsWith equalsIgnoreCase marker u = true) :
    ∃ sch authority r : List Char, ∀ x, scheme (u ++ x) = some sch ∧
      splitAuthority (u ++ x) = some (authority, '/' :: (r ++ x)) := by
  obtain ⟨m, r, rfl, hm⟩ := exists_of_startsWith h
  have hsplit : marker.map foldCase = "owalkie".toList.map foldCase ++ (':' :: '/' :: '/' ::
      ("connect".toList.map foldCase ++ ['/'])) := by
    decide +kernel
  rw [hsplit] at hm
  obtain ⟨sch, m, rfl, hsch, hm⟩ := List.map_eq_append_iff.1 hm
  obtain ⟨c₁, m, rfl, hc₁, hm⟩ := List.map_eq_cons_iff.1 hm
  obtain ⟨c₂, m, rfl, hc₂, hm⟩ := List.map_eq_cons_iff.1 hm
  obtain ⟨c₃, m, rfl, hc₃, hm⟩ := List.map_eq_cons_iff.1 hm
  obtain ⟨authority, m, rfl, hauthority, hm⟩ := List.map_eq_append_iff.1 hm
  obtain ⟨c₄, m, rfl, hc₄, hm⟩ := List.map_eq_cons_iff.1 hm
  obtain rfl := List.map_eq_nil_iff.1 hm
  obtain rfl := eq_of_foldCase (by decide) hc₁
  obtain rfl := eq_of_foldCase (by decide) hc₂
  obtain rfl := eq_of_foldCase (by decide) hc₃
  obtain rfl := eq_of_foldCase (by decide) hc₄
  have hcolon : ∀ c ∈ sch, decide (c ≠ ':') = true := by
    intro c hc
    have hfold := List.mem_map_of_mem (f := foldCase) hc
    rw [hsch] at hfold
    rw [decide_eq_true_iff]
    rintro rfl
    exact absurd hfold (by decide +kernel)
  have hinside : ∀ c ∈ authority, inAuthority c = true := by
    intro c hc
    have hfold := List.mem_map_of_mem (f := foldCase) hc
    rw [hauthority] at hfold
    rw [inAuthority, decide_eq_true_iff]
    intro hmem
    have hletters : ∀ d ∈ ['/', '\\', '?', '#'], foldCase d ∉ "connect".toList.map foldCase :=
      List.all_iff_forall_prop.1 (by decide +kernel)
    exact hletters c hmem hfold
  refine ⟨sch, authority, r, fun x => ⟨?_, ?_⟩⟩
  · rw [scheme, if_pos (by simp), List.append_assoc, List.append_assoc,
      List.takeWhile_append_of_pos hcolon]
    simp
  · have hrest : schemeSpecific (sch ++ ':' :: '/' :: '/' :: (authority ++ ['/']) ++ r ++ x) =
        '/' :: '/' :: (authority ++ '/' :: (r ++ x)) := by
      rw [schemeSpecific, List.append_assoc, List.append_assoc,
        List.dropWhile_append_of_pos hcolon]
      simp
    rw [splitAuthority, hrest]
    show some (List.takeWhile _ _, List.dropWhile _ _) = _
    rw [List.takeWhile_append_of_pos hinside, List.dropWhile_append_of_pos hinside,
      List.takeWhile_cons_of_neg (by decide), List.dropWhile_cons_of_neg (by decide),
      List.append_nil]

theorem linkPayload_behind {u : List Char}
    (h : Text.startsWith equalsIgnoreCase marker u = true) (s t : List Char) :
    linkPayload platform (u ++ (marker ++ s)) = linkPayload platform (u ++ (marker ++ t)) := by
  obtain ⟨sch, authority, r, hparts⟩ := parts_of_startsWith h
  have hmarker (s : List Char) : '/' :: (r ++ (marker ++ s)) =
      ('/' :: r ++ "owalkie:".toList) ++ '/' :: ("/connect/".toList ++ s) := by
    rw [show marker = "owalkie:".toList ++ '/' :: "/connect/".toList by decide]
    simp
  have hsegment : firstSegment ('/' :: (r ++ (marker ++ s))) =
      firstSegment ('/' :: (r ++ (marker ++ t))) := by
    rw [hmarker, hmarker]
    exact firstSegment_append ⟨'o', by simp, by decide⟩ _ _
  rw [linkPayload, linkPayload, (hparts _).1, (hparts _).1, (hparts _).2, (hparts _).2]
  show (if _ then some (platform.uriDecode (firstSegment _)) else none) =
    if _ then some (platform.uriDecode (firstSegment _)) else none
  rw [hsegment]

/-- Behind another spelling of the marker the import does not depend on the link. -/
theorem import_behind_marker {u : List Char}
    (hbefore : Text.search equalsIgnoreCase marker before = some u) (data data' : List UInt8) :
    importConnectionFromClipboard json platform (before ++ (marker ++ (linkText data ++ after))) =
      importConnectionFromClipboard json platform
        (before ++ (marker ++ (linkText data' ++ after))) := by
  have hfirst : Text.search equalsIgnoreCase marker (before.dropWhile isWhitespace) = some u := by
    rw [Text.search_dropWhile startsWith_whitespace, hbefore]
  obtain ⟨-, hstart⟩ := Text.search_eq_some hfirst
  obtain ⟨c, hc, hplain⟩ : ∃ c ∈ u.head?, isWhitespace c = false := by
    match u, hstart with
    | c :: u, hstart =>
      refine ⟨c, rfl, Bool.eq_false_iff.2 fun hc => ?_⟩
      rw [startsWith_whitespace c u hc] at hstart
      cases hstart
  obtain ⟨u', rfl⟩ : ∃ u', u = c :: u' := ⟨u.tail, (List.cons_head?_tail hc).symm⟩
  have hextract (data : List UInt8) : extractConnectionLink (before.dropWhile isWhitespace ++
      (marker ++ (linkText data ++ after.rdropWhile isWhitespace))) =
        some ((c :: u' ++ (marker ++ (linkText data ++ after.rdropWhile isWhitespace))).takeWhile
          fun c => !isWhitespace c) := by
    have htrim (s : List Char) : trim (s.takeWhile fun c => !isWhitespace c) =
        s.takeWhile fun c => !isWhitespace c :=
      trim_of_plain fun c hc => by
        simpa using List.mem_takeWhile_imp (p := fun c => !isWhitespace c) hc
    have hblank (s : List Char) : isBlank ((c :: u' ++ s).takeWhile fun c => !isWhitespace c) =
        false := by
      apply isBlank_false (c := c) _ hplain
      rw [List.cons_append, List.takeWhile_cons_of_pos (by simp [hplain])]
      exact List.mem_cons_self
    rw [extractConnectionLink, Text.search_append_of_some hfirst]
    show (if isBlank (trim _) = true then none else some (trim _)) = _
    rw [htrim, hblank]
    rfl
  rw [importConnectionFromClipboard_eq, importConnectionFromClipboard_eq, hextract, hextract,
    Option.bind_some, Option.bind_some]
  by_cases hall : ∀ d ∈ c :: u', (!isWhitespace d) = true
  · -- the link is part of what is extracted
    have hmarker : ∀ d ∈ marker, (!isWhitespace d) = true := fun d hd => by
      rw [marker_plain d hd]
      rfl
    rw [List.takeWhile_append_of_pos hall, List.takeWhile_append_of_pos hall,
      List.takeWhile_append_of_pos hmarker, List.takeWhile_append_of_pos hmarker,
      parseConnectionProfileFromUri, parseConnectionProfileFromUri]
    rw [linkPayload_behind hstart]
  · have hcut (s : List Char) : (c :: u' ++ s).takeWhile (fun d => !isWhitespace d) =
        (c :: u').takeWhile fun d => !isWhitespace d := by
      rw [List.takeWhile_append, if_neg]
      intro hlen
      exact hall (List.takeWhile_eq_self_iff.1 ((List.takeWhile_prefix _).eq_of_length hlen))
    rw [hcut, hcut]

/-! ## The profile in a payload -/

/-- A profile that a user can have shared. -/
structure Shareable (p : ServerProfile) : Prop where
  host : p.host ≠ "" ∧ trimString p.host = p.host
  channel : p.channel ≠ "" ∧ trimString p.channel = p.channel
  name : p.name ≠ "" ∧ trimString p.name = p.name
  port : 1 ≤ p.port ∧ p.port ≤ 65535

/-- The text is read as an object with the members of the payload. -/
def Reads (read : List UInt8 → Option Json) (text : List UInt8) (payload : Json) : Prop :=
  ∃ j, read text = some j ∧ ∀ key, Nlohmann.find key j = Nlohmann.find key payload

/-- Both libraries read what either one prints of the profile. -/
structure ReadBack (p : ServerProfile) : Prop where
  dump : json.dump (windowsPayload p) ≠ []
  parse_dump : Reads json.parse (json.dump (windowsPayload p)) (windowsPayload p)
  read_dump : Reads json.read (json.dump (windowsPayload p)) (windowsPayload p)
  print : json.print (androidPayload p) ≠ []
  parse_print : Reads json.parse (json.print (androidPayload p)) (androidPayload p)
  read_print : Reads json.read (json.print (androidPayload p)) (androidPayload p)

/-- The members of a payload that an import reads. -/
structure Fields (payload : Json) (p : ServerProfile) : Prop where
  host : Nlohmann.find "host" payload = some (.str p.host)
  port : Nlohmann.find "port" payload = some (.int p.port)
  channel : Nlohmann.find "channel" payload = some (.str p.channel)
  name : Nlohmann.find "name" payload = some (.str p.name)

variable {p : ServerProfile} {payload : Json}

theorem fields_windowsPayload (hp : Shareable p) : Fields (windowsPayload p) p where
  host := by simp [windowsPayload, Nlohmann.find, Json.lookup]
  port := by simp [windowsPayload, Nlohmann.find, Json.lookup]
  channel := by simp [windowsPayload, Nlohmann.find, Json.lookup]
  name := by simp [windowsPayload, Nlohmann.find, Json.lookup, hp.name.1]

theorem fields_androidPayload : Fields (androidPayload p) p where
  host := by simp [androidPayload, Nlohmann.find, Json.lookup]
  port := by simp [androidPayload, Nlohmann.find, Json.lookup]
  channel := by simp [androidPayload, Nlohmann.find, Json.lookup]
  name := by simp [androidPayload, Nlohmann.find, Json.lookup]

theorem isBlank_of_trimString {s : String} (h : s ≠ "" ∧ trimString s = s) :
    isBlank s.toList = false := by
  rw [Bool.eq_false_iff]
  intro hblank
  have hdrop : s.toList.dropWhile isWhitespace = [] :=
    List.dropWhile_eq_nil_iff.2 (List.all_eq_true.1 hblank)
  apply h.1
  rw [← h.2, trimString, trim, Text.trim, hdrop]
  rfl

theorem applyPayload_eq (hp : Shareable p) (h : Fields payload p) (current : ServerProfile) :
    applyPayload current payload = some p := by
  have hport : Nlohmann.getInt (.int p.port) = some p.port :=
    Nlohmann.getInt_of_fits (by have := hp.port; omega)
  have hrange : ¬ (p.host = "" ∨ p.channel = "" ∨ p.port < 1 ∨ 65535 < p.port) := by
    rintro (hhost | hchannel | hport)
    · exact hp.host.1 hhost
    · exact hp.channel.1 hchannel
    · have := hp.port
      omega
  simp only [applyPayload, Nlohmann.value_of_find h.host, Nlohmann.value_of_find h.channel,
    Nlohmann.value_of_find h.port, Nlohmann.value_of_find h.name, hport, Nlohmann.getString,
    Option.bind_eq_bind, Option.bind_some, if_neg hrange, if_neg hp.name.1]
  rfl

theorem profileOf_eq (hp : Shareable p) (h : Fields payload p) :
    profileOf platform payload = some p := by
  have hhost : trimString (optString platform.coerce "host" payload) = p.host := by
    rw [optString, opt_eq_find, h.host]
    exact hp.host.2
  have hchannel : trimString (optString platform.coerce "channel" payload) = p.channel := by
    rw [optString, opt_eq_find, h.channel]
    exact hp.channel.2
  have hname : trimString (optString platform.coerce "name" payload) = p.name := by
    rw [optString, opt_eq_find, h.name]
    exact hp.name.2
  have hport : optInt platform.coerce "port" (-1) payload = p.port := by
    rw [optInt, opt_eq_find, h.port]
    show (intValue (.int p.port)).getD (-1) = p.port
    rw [intValue_of_fits (by have := hp.port; omega)]
    rfl
  have hrange : ¬ (p.port < 1 ∨ 65535 < p.port) := by
    have := hp.port
    omega
  simp only [profileOf, hhost, hchannel, hname, hport, isBlank_of_trimString hp.host,
    isBlank_of_trimString hp.channel, isBlank_of_trimString hp.name, hrange, or_false,
    Bool.false_eq_true, if_false]

theorem Fields.congr {j : Json} (h : Fields payload p)
    (hread : ∀ key, Nlohmann.find key j = Nlohmann.find key payload) : Fields j p where
  host := (hread _).trans h.host
  port := (hread _).trans h.port
  channel := (hread _).trans h.channel
  name := (hread _).trans h.name

/-! ## The round trip -/

/-- The links of a profile. -/
inductive IsLink (p : ServerProfile) : List Char → Prop
  | windows {link : List Char} : OnShareConnectionLink json p = some link → IsLink p link
  | android : IsLink p (buildConnectionDeepLink json p)

variable {json}

/-- A link carries data that both libraries read as the profile. -/
theorem link_data (platform : Platform) (hp : Shareable p) (hjson : ReadBack json p)
    {link : List Char}
    (h : IsLink json p link) :
    ∃ data, link = marker ++ linkText data ∧ data ≠ [] ∧
      (∀ current, (json.parse data).bind (applyPayload current) = some p) ∧
      (json.read data).bind (profileOf platform) = some p := by
  have himport {payload : Json} {data : List UInt8} (hfields : Fields payload p)
      (hparse : Reads json.parse data payload) (hread : Reads json.read data payload) :
      (∀ current, (json.parse data).bind (applyPayload current) = some p) ∧
        (json.read data).bind (profileOf platform) = some p := by
    obtain ⟨j, hj, hsame⟩ := hparse
    obtain ⟨k, hk, hsame'⟩ := hread
    constructor
    · intro current
      rw [hj, Option.bind_some]
      exact applyPayload_eq hp (hfields.congr hsame) current
    · rw [hk, Option.bind_some]
      exact profileOf_eq hp (hfields.congr hsame')
  cases h with
  | windows hlink =>
    have hport : ¬ (p.port < 1 ∨ 65535 < p.port) := by
      rintro (hlow | hhigh)
      · exact absurd hp.port.1 (not_le.2 hlow)
      · exact absurd hp.port.2 (not_le.2 hhigh)
    have htexts : ¬ (p.host = "" ∨ p.channel = "") := not_or.2 ⟨hp.host.1, hp.channel.1⟩
    rw [OnShareConnectionLink, if_neg hport, if_neg htexts, base64UrlEncode_eq] at hlink
    refine ⟨json.dump (windowsPayload p), (Option.some.inj hlink).symm, hjson.dump, ?_⟩
    exact himport (fields_windowsPayload hp) hjson.parse_dump hjson.read_dump
  | android =>
    refine ⟨json.print (androidPayload p), rfl, hjson.print, ?_⟩
    exact himport fields_androidPayload hjson.parse_print hjson.read_print

/-- The links of all profiles come through all imports exactly if no spelling of the marker stands
before them and no white space behind them that C does not know. -/
theorem link_roundtrip_iff {json : JsonTexts} {platform : Platform}
    (hdecode : ∀ s, '%' ∉ s → platform.uriDecode s = s)
    (hbase64 : ∀ data, platform.base64Decode (linkText data) = some data)
    {profiles : Set ServerProfile} (htwo : profiles.Nontrivial)
    (hshare : ∀ p ∈ profiles, Shareable p) (hjson : ∀ p ∈ profiles, ReadBack json p)
    {before after : List Char} (hbefore : Text.search (· == ·) marker before = none)
    (hafter : ∀ c ∈ after.head?, isWhitespace c = true) (current : ServerProfile) :
    (∀ data, Base64UrlDecode (Base64UrlEncode data) = some data) ∧
    ((∀ p ∈ profiles, ∀ link, IsLink json p link →
        OnImportConnectionLink json (before ++ (link ++ after)) current = some p ∧
          importConnectionFromClipboard json platform (before ++ (link ++ after)) = some p) ↔
      Text.search equalsIgnoreCase marker before = none ∧
        ∀ c ∈ after.head?, Cpp.isspace c = true) := by
  refine ⟨base64UrlDecode_encode, ?_, ?_⟩
  · intro hall
    obtain ⟨p, hp, q, hq, hne⟩ := htwo
    have hlink {p : ServerProfile} (hp : p ∈ profiles) :=
      hall p hp (buildConnectionDeepLink json p) IsLink.android
    constructor
    · by_contra hvariant
      obtain ⟨u, hu⟩ := Option.ne_none_iff_exists'.1 hvariant
      have hsame : importConnectionFromClipboard json platform
          (before ++ (marker ++ (linkText (json.print (androidPayload p)) ++ after))) =
            importConnectionFromClipboard json platform
              (before ++ (marker ++ (linkText (json.print (androidPayload q)) ++ after))) :=
        import_behind_marker json hu _ _
      have himp := (hlink hp).2
      have himq := (hlink hq).2
      rw [buildConnectionDeepLink, List.append_assoc] at himp himq
      rw [linkText, linkText, himp, himq] at hsame
      exact hne (Option.some.inj hsame)
    · by_contra hspace
      push Not at hspace
      obtain ⟨c, hc, hspace⟩ := hspace
      obtain ⟨rest, rfl⟩ : ∃ rest, after = c :: rest := ⟨after.tail, (List.cons_head?_tail hc).symm⟩
      have hnone : OnImportConnectionLink json (before ++
          (marker ++ (linkText (json.print (androidPayload p)) ++ c :: rest))) current = none :=
        windows_import_none json hbefore (hafter c hc) (Bool.eq_false_iff.2 hspace)
      have himp := (hlink hp).1
      rw [buildConnectionDeepLink, List.append_assoc] at himp
      rw [linkText, himp] at hnone
      cases hnone
  · rintro ⟨hvariant, hspace⟩ p hp link hlink
    obtain ⟨data, rfl, hdata, hparse, hread⟩ :=
      link_data platform (hshare p hp) (hjson p hp) hlink
    rw [List.append_assoc, windows_import json hdata hbefore hspace,
      android_import json hdecode (hbase64 data) hdata hvariant hafter]
    exact ⟨hparse current, hread⟩

/-! ### Two profiles -/

def home : ServerProfile := ⟨"Home", "relay.example", 5500, "main"⟩

def work : ServerProfile := ⟨"Work", "10.0.0.7", 6000, "ops"⟩

/-- The compact text of a payload with plain strings. -/
def plainText : Json → List Char
  | .obj members => '\x7b' :: (List.intercalate [','] (members.map fun m =>
      '"' :: m.1.toList ++ '"' :: ':' :: (match m.2 with
        | .str s => '"' :: s.toList ++ ['"']
        | .int n => (toString n).toList
        | _ => []))) ++ ['\x7d']
  | _ => []

/-- The payloads whose texts are known. -/
def knownPayloads : List Json :=
  [windowsPayload home, windowsPayload work, androidPayload home, androidPayload work]

def knownTexts : JsonTexts where
  dump j := Text.utf8 (plainText j)
  parse bytes := knownPayloads.find? fun j => Text.utf8 (plainText j) = bytes
  print j := Text.utf8 (plainText j)
  read bytes := knownPayloads.find? fun j => Text.utf8 (plainText j) = bytes

def plainPlatform : Platform where
  uriDecode s := s
  base64Decode s := Base64UrlDecode (Text.utf8 s)
  coerce := ⟨fun _ => "", fun _ => none⟩

theorem linkText_decode (data : List UInt8) :
    plainPlatform.base64Decode (linkText data) = some data := by
  have hdecode := base64UrlDecode_encode data
  rw [base64UrlEncode_eq] at hdecode
  show Base64UrlDecode (Text.utf8 (linkText data)) = some data
  rw [utf8_linkText, hdecode]

theorem shareable_home : Shareable home where
  host := by decide +kernel
  channel := by decide +kernel
  name := by decide +kernel
  port := by decide

theorem shareable_work : Shareable work where
  host := by decide +kernel
  channel := by decide +kernel
  name := by decide +kernel
  port := by decide

theorem reads_known (payload : Json) (front rest : List Json)
    (hsplit : knownPayloads = front ++ payload :: rest)
    (hfront : ∀ j ∈ front, Text.utf8 (plainText j) ≠ Text.utf8 (plainText payload)) :
    Reads knownTexts.parse (Text.utf8 (plainText payload)) payload ∧
      Reads knownTexts.read (Text.utf8 (plainText payload)) payload := by
  have hfind : (knownPayloads.find? fun j =>
      Text.utf8 (plainText j) = Text.utf8 (plainText payload)) = some payload := by
    rw [hsplit, List.find?_append, List.find?_eq_none.2 fun j hj => by simpa using hfront j hj,
      Option.none_or, List.find?_cons_of_pos (by simp)]
  exact ⟨⟨payload, hfind, fun _ => rfl⟩, ⟨payload, hfind, fun _ => rfl⟩⟩

theorem readBack_home : ReadBack knownTexts home := by
  have hwindows := reads_known (windowsPayload home) [] _ rfl (by simp)
  have handroid := reads_known (androidPayload home) [windowsPayload home, windowsPayload work] _ rfl
    (by decide +kernel)
  exact ⟨by decide +kernel, hwindows.1, hwindows.2, by decide +kernel, handroid.1, handroid.2⟩

theorem readBack_work : ReadBack knownTexts work := by
  have hwindows := reads_known (windowsPayload work) [windowsPayload home] _ rfl (by decide +kernel)
  have handroid := reads_known (androidPayload work)
    [windowsPayload home, windowsPayload work, androidPayload home] _ rfl (by decide +kernel)
  exact ⟨by decide +kernel, hwindows.1, hwindows.2, by decide +kernel, handroid.1, handroid.2⟩

/-- Both clients read the link of `home` in a sentence. -/
theorem link_roundtrip_sentence :
    OnImportConnectionLink knownTexts ("Join: ".toList ++
        (buildConnectionDeepLink knownTexts home ++ " tonight".toList)) work = some home ∧
      importConnectionFromClipboard knownTexts plainPlatform ("Join: ".toList ++
        (buildConnectionDeepLink knownTexts home ++ " tonight".toList)) = some home := by
  have hshare : ∀ p ∈ ({home, work} : Set ServerProfile), Shareable p := by
    rintro p (rfl | rfl)
    · exact shareable_home
    · exact shareable_work
  have hjson : ∀ p ∈ ({home, work} : Set ServerProfile), ReadBack knownTexts p := by
    rintro p (rfl | rfl)
    · exact readBack_home
    · exact readBack_work
  have hafter : ∀ c ∈ " tonight".toList.head?, isWhitespace c = true ∧ Cpp.isspace c = true := by
    rintro c ⟨⟩
    decide
  have hroundtrip := @link_roundtrip_iff knownTexts plainPlatform (fun s _ => rfl) linkText_decode
    {home, work} (Set.nontrivial_pair (by decide)) hshare hjson "Join: ".toList " tonight".toList
    (by decide +kernel) (fun c hc => (hafter c hc).1) work
  exact (hroundtrip.2.2 ⟨by decide +kernel, fun c hc => (hafter c hc).2⟩) home (Set.mem_insert _ _)
    _ IsLink.android

/-- Before a no-break space Windows does not take the link that Android takes. -/
theorem link_before_no_break_space :
    isWhitespace (Char.ofNat 0xA0) = true ∧
    OnImportConnectionLink knownTexts
        (buildConnectionDeepLink knownTexts home ++ [Char.ofNat 0xA0]) work = none ∧
      importConnectionFromClipboard knownTexts plainPlatform
        (buildConnectionDeepLink knownTexts home ++ [Char.ofNat 0xA0]) = some home := by
  decide +kernel

end ConnectionLink

end OWalkie
