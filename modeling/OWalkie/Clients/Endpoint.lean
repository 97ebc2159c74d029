import Mathlib.Data.Bool.AllAny
import OWalkie.Lib.Kotlin

/-!
# Where the clients connect

Three parsers read the host field: `parseServerEndpoint` of Android, `parseHostEndpoint` of the
core's session and the one of its activity probe.  Android dials the port it reads; the core reads a
port as well and dials the port of its parameters.  `same_endpoint_iff` compares what the two
sides leave of the text (`hostValue`, `serverValue`).
-/

namespace OWalkie

namespace Endpoint

/-! ## The parsers -/

/-- The four schemes, in any letter case: whether the scheme is a TLS one, and what follows it.  No
scheme begins another one, so that the order in which a parser tries them makes no difference. -/
def cutScheme (s : List Char) : Bool × List Char :=
  let lowered := s.map Char.toLower
  if "wss://".toList.isPrefixOf lowered then (true, s.drop 6)
  else if "ws://".toList.isPrefixOf lowered then (false, s.drop 5)
  else if "https://".toList.isPrefixOf lowered then (true, s.drop 8)
  else if "http://".toList.isPrefixOf lowered then (false, s.drop 7)
  else (false, s)

/-- The text behind the first `c`. -/
def afterFirst (c : Char) (s : List Char) : List Char := (s.dropWhile (· ≠ c)).tail

structure ParsedHost where
  host : List Char
  port : ℤ
  useTls : Bool

/-- What the core reads an endpoint from: the text behind the scheme, up to the first slash. -/
def hostValue (rawHost : List Char) : List Char := (cutScheme rawHost).2.takeWhile (· ≠ '/')

/-- `parseHostEndpoint` of the session; `none` is the exception of `stoi` behind a bracket. -/
def parseHostEndpoint (rawHost : List Char) (fallbackPort : ℤ) : Option ParsedHost :=
  let useTls := (cutScheme rawHost).1
  let value := hostValue rawHost
  match value with
  | '[' :: inner =>
    if ']' ∈ inner then
      let host := inner.takeWhile (· ≠ ']')
      match afterFirst ']' inner with
      | ':' :: s => (Cpp.stoi s).map fun port => ⟨host, port, useTls⟩
      | _ => some ⟨host, fallbackPort, useTls⟩
    else some ⟨value, fallbackPort, useTls⟩
  | _ =>
    if value.count ':' = 1 then
      match Cpp.stoi (afterFirst ':' value) with
      | some port => some ⟨value.takeWhile (· ≠ ':'), port, useTls⟩
      | none => some ⟨value, fallbackPort, useTls⟩
    else some ⟨value, fallbackPort, useTls⟩

/-- What `connectInternal` resolves and dials, when it comes to that. -/
def connectInternal (host : List Char) (port : ℤ) : Option (List Char × ℤ) :=
  match parseHostEndpoint host port with
  | none => none
  | some parsed =>
    if parsed.host = [] ∨ port < 1 ∨ 65535 < port then none
    else if parsed.useTls then none
    else some (parsed.host, port)

/-- The host of `parseHostEndpoint` of the activity probe. -/
def probeHost (rawHost : List Char) : List Char :=
  let value := hostValue rawHost
  match value with
  | '[' :: inner => if ']' ∈ inner then inner.takeWhile (· ≠ ']') else []
  | _ => if value.count ':' = 1 then value.takeWhile (· ≠ ':') else value

/-- What `checkChannelActivity` resolves and dials, when it comes to that. -/
def checkChannelActivity (host : List Char) (port : ℤ) : Option (List Char × ℤ) :=
  if host = [] ∨ port < 1 ∨ 65535 < port then none
  else if probeHost host = [] then none
  else if (cutScheme host).1 then none
  else some (probeHost host, port)

structure ParsedServerEndpoint where
  host : List Char
  port : ℤ
  wsSecure : Bool
  deriving DecidableEq

section android

open Kotlin

variable (digit : Char → Option ℕ)

/-- What Android reads an endpoint from. -/
def serverValue (rawHost : List Char) : List Char :=
  let value := (cutScheme (trim rawHost)).2
  let value := trim (((value.takeWhile (· ≠ '/')).takeWhile (· ≠ '?')).takeWhile (· ≠ '#'))
  Text.afterLast '@' value

/-- The host and the port in the text. -/
def serverAddress (value : List Char) (fallbackPort : ℤ) : Option (List Char × ℤ) :=
  match value with
  | '[' :: inner =>
    if ']' ∈ inner then
      let ipv6 := trim (inner.takeWhile (· ≠ ']'))
      match afterFirst ']' inner with
      | ':' :: s => (toIntOrNull digit s).map fun port => (ipv6, port)
      | _ => some (ipv6, fallbackPort)
    else none
  | _ =>
    if value.count ':' = 1 then
      match toIntOrNull digit (afterFirst ':' value) with
      | some port => some (value.takeWhile (· ≠ ':'), port)
      | none => some (value, fallbackPort)
    else some (value, fallbackPort)

def parseServerEndpoint (rawHost : List Char) (fallbackPort : ℤ) : Option ParsedServerEndpoint :=
  if isBlank (trim rawHost) then none
  else if isBlank (serverValue rawHost) then none
  else
    match serverAddress digit (serverValue rawHost) fallbackPort with
    | none => none
    | some (host, port) =>
      if isBlank host ∨ port < 1 ∨ 65535 < port then none
      else some ⟨host, port, (cutScheme (trim rawHost)).1⟩

end android

/-! ## Hosts and ports in a text -/

/-- The text at the place of the host: inside the brackets, in front of the only colon, or all. -/
def hostText (value : List Char) : List Char :=
  match value with
  | '[' :: inner => inner.takeWhile (· ≠ ']')
  | _ => if value.count ':' = 1 then value.takeWhile (· ≠ ':') else value

/-- The text at the place of the port, behind the brackets and a colon or behind the only colon. -/
def portText (value : List Char) : Option (List Char) :=
  match value with
  | '[' :: inner =>
    match afterFirst ']' inner with
    | ':' :: s => some s
    | _ => none
  | _ => if value.count ':' = 1 then some (afterFirst ':' value) else none

/-- A bracket that opens the text is closed. -/
def Closed (value : List Char) : Prop :=
  match value with
  | '[' :: inner => ']' ∈ inner
  | _ => True

instance (value : List Char) : Decidable (Closed value) := by
  unfold Closed
  split <;> infer_instance

section texts

variable {value : List Char}

theorem hostText_bare (h : ∀ inner, value ≠ '[' :: inner) :
    hostText value = if value.count ':' = 1 then value.takeWhile (· ≠ ':') else value := by
  unfold hostText
  split
  · next inner => exact absurd rfl (h inner)
  · rfl

theorem portText_bare (h : ∀ inner, value ≠ '[' :: inner) :
    portText value = if value.count ':' = 1 then some (afterFirst ':' value) else none := by
  unfold portText
  split
  · next inner => exact absurd rfl (h inner)
  · rfl

theorem closed_bare (h : ∀ inner, value ≠ '[' :: inner) : Closed value := by
  unfold Closed
  split
  · next inner => exact absurd rfl (h inner)
  · trivial

theorem takeWhile_ne_of_mem {c : Char} (h : c ∈ value) : value.takeWhile (· ≠ c) ≠ value := by
  intro heq
  have := List.takeWhile_eq_self_iff.1 heq c h
  simp at this

end texts

/-! ## What the core dials -/

section core

variable {rawHost : List Char} {port : ℤ}

theorem parseHostEndpoint_useTls {parsed : ParsedHost}
    (h : parseHostEndpoint rawHost port = some parsed) :
    parsed.useTls = (cutScheme rawHost).1 := by
  unfold parseHostEndpoint at h
  dsimp only at h
  split at h
  · split_ifs at h
    · split at h
      · obtain ⟨_, -, rfl⟩ := Option.map_eq_some_iff.1 h
        rfl
      · exact (Option.some.inj h).symm ▸ rfl
    · exact (Option.some.inj h).symm ▸ rfl
  · split_ifs at h
    · split at h <;> exact (Option.some.inj h).symm ▸ rfl
    · exact (Option.some.inj h).symm ▸ rfl

theorem connectInternal_eq_some_iff {host : List Char} {p : ℤ} :
    connectInternal rawHost port = some (host, p) ↔
      (∃ parsed, parseHostEndpoint rawHost port = some parsed ∧ parsed.host = host) ∧
        host ≠ [] ∧ 1 ≤ port ∧ port ≤ 65535 ∧ (cutScheme rawHost).1 = false ∧ port = p := by
  unfold connectInternal
  cases hp : parseHostEndpoint rawHost port with
  | none => simp
  | some parsed =>
    have htls := parseHostEndpoint_useTls hp
    dsimp only
    split_ifs with hbad hsecure
    · refine iff_of_false (by simp) ?_
      rintro ⟨⟨q, hq, rfl⟩, hne, hlo, hhi, -⟩
      obtain rfl := Option.some.inj hq
      rcases hbad with hnil | hlow | hhigh
      · exact hne hnil
      · omega
      · omega
    · refine iff_of_false (by simp) ?_
      rintro ⟨-, -, -, -, hscheme, -⟩
      rw [← htls, hsecure] at hscheme
      cases hscheme
    · push Not at hbad
      have hscheme : (cutScheme rawHost).1 = false := by rw [← htls]; simpa using hsecure
      constructor
      · intro h
        obtain ⟨rfl, rfl⟩ := Prod.mk.inj (Option.some.inj h)
        exact ⟨⟨parsed, rfl, rfl⟩, hbad.1, hbad.2.1, hbad.2.2, hscheme, rfl⟩
      · rintro ⟨⟨q, hq, rfl⟩, -, -, -, -, rfl⟩
        obtain rfl := Option.some.inj hq
        rfl

theorem checkChannelActivity_eq_some_iff {host : List Char} {p : ℤ} (hraw : rawHost ≠ []) :
    checkChannelActivity rawHost port = some (host, p) ↔
      probeHost rawHost = host ∧ host ≠ [] ∧ 1 ≤ port ∧ port ≤ 65535 ∧
        (cutScheme rawHost).1 = false ∧ port = p := by
  unfold checkChannelActivity
  split_ifs with hbad hnil hsecure
  · refine iff_of_false (by simp) ?_
    rintro ⟨-, -, hlo, hhi, -⟩
    rcases hbad with hempty | hlow | hhigh
    · exact hraw hempty
    · omega
    · omega
  · refine iff_of_false (by simp) ?_
    rintro ⟨rfl, hne, -⟩
    exact hne hnil
  · refine iff_of_false (by simp) ?_
    rintro ⟨-, -, -, -, hscheme, -⟩
    rw [hsecure] at hscheme
    cases hscheme
  · push Not at hbad
    constructor
    · intro h
      obtain ⟨rfl, rfl⟩ := Prod.mk.inj (Option.some.inj h)
      exact ⟨rfl, hnil, hbad.2.1, hbad.2.2, by simpa using hsecure, rfl⟩
    · rintro ⟨rfl, -, -, -, -, rfl⟩
      rfl

theorem parseHostEndpoint_bare (hbare : ∀ inner, hostValue rawHost ≠ '[' :: inner) :
    parseHostEndpoint rawHost port =
      if (hostValue rawHost).count ':' = 1 then
        match Cpp.stoi (afterFirst ':' (hostValue rawHost)) with
        | some p => some ⟨(hostValue rawHost).takeWhile (· ≠ ':'), p, (cutScheme rawHost).1⟩
        | none => some ⟨hostValue rawHost, port, (cutScheme rawHost).1⟩
      else some ⟨hostValue rawHost, port, (cutScheme rawHost).1⟩ := by
  unfold parseHostEndpoint
  dsimp only
  split
  · next inner hvalue => exact absurd hvalue (hbare inner)
  · rfl

theorem probeHost_bare (hbare : ∀ inner, hostValue rawHost ≠ '[' :: inner) :
    probeHost rawHost = hostText (hostValue rawHost) := by
  rw [hostText_bare hbare]
  unfold probeHost
  dsimp only
  split
  · next inner hvalue => exact absurd hvalue (hbare inner)
  · rfl

/-- The session and the activity probe read the same host exactly when no bracket stays open and
`stoi` reads the text at the place of the port. -/
theorem core_reads_iff (rawHost : List Char) (port : ℤ) {host : List Char} (hne : host ≠ []) :
    (∃ parsed, parseHostEndpoint rawHost port = some parsed ∧ parsed.host = host) ∧
        probeHost rawHost = host ↔
      Closed (hostValue rawHost) ∧
        (∀ s ∈ portText (hostValue rawHost), (Cpp.stoi s).isSome = true) ∧
        hostText (hostValue rawHost) = host := by
  by_cases hbracket : ∃ inner, hostValue rawHost = '[' :: inner
  · obtain ⟨inner, hvalue⟩ := hbracket
    simp only [parseHostEndpoint, probeHost, hvalue, Closed, portText, hostText]
    by_cases hclosed : ']' ∈ inner
    · simp only [hclosed, if_true, true_and]
      generalize afterFirst ']' inner = rest
      cases rest with
      | nil => simp
      | cons c s =>
        by_cases hc : c = ':'
        · subst hc
          cases hn : Cpp.stoi s <;> simp [hn]
        · simp [hc]
    · -- an open bracket stays in the host of the session, and the probe has none
      simp only [hclosed, if_false, false_and, iff_false, not_and]
      exact fun _ hnil => hne hnil.symm
  · have hbare := not_exists.1 hbracket
    rw [parseHostEndpoint_bare hbare, probeHost_bare hbare, portText_bare hbare]
    simp only [closed_bare hbare, true_and]
    split_ifs with hcolon
    · have hhost := hostText_bare hbare
      rw [if_pos hcolon] at hhost
      cases hn : Cpp.stoi (afterFirst ':' (hostValue rawHost)) with
      | none =>
        -- the session takes all of the text, the probe what is in front of the colon
        have hmem : ':' ∈ hostValue rawHost := List.count_pos_iff.1 (by omega)
        refine iff_of_false ?_ (by simp [hn])
        rintro ⟨⟨parsed, hparsed, rfl⟩, hprobe⟩
        rw [hhost, ← Option.some.inj hparsed] at hprobe
        exact takeWhile_ne_of_mem hmem hprobe
      | some n => simp [hn, hhost]
    · simp [hostText_bare hbare, hcolon]

end core

/-! ## White space around a text -/

section scheme

variable {s : List Char}

/-- A scheme ends before the white space at the end of a text does begin. -/
theorem isPrefixOf_append {pre w : List Char} (hw : ∀ c ∈ w, c ∉ pre) :
    pre.isPrefixOf (s ++ w) = pre.isPrefixOf s := by
  induction pre generalizing s with
  | nil => cases s <;> cases w <;> rfl
  | cons x pre ih =>
    cases s with
    | nil =>
      cases w with
      | nil => rfl
      | cons y w =>
        have hne : x ≠ y := fun heq => hw y List.mem_cons_self (heq ▸ List.mem_cons_self)
        simp [List.isPrefixOf, hne]
    | cons y s =>
      rw [List.cons_append, List.isPrefixOf_cons_cons, List.isPrefixOf_cons_cons,
        ih fun c hc hm => hw c hc (List.mem_cons_of_mem _ hm)]

theorem ne_of_isWhitespace {c : Char} (h : Kotlin.isWhitespace c = true) :
    ∀ x ∈ "wshtp:/".toList, c ≠ x := by
  intro x hx heq
  have hxs : ∀ x ∈ "wshtp:/".toList, 47 ≤ x.toNat ∧ x.toNat ≤ 122 :=
    List.all_iff_forall_prop.1 (by decide)
  have hcode := Kotlin.code_of_isWhitespace h
  have := hxs x hx
  rw [← heq] at this
  omega

/-- A text that begins with white space begins with no scheme. -/
theorem cutScheme_of_isWhitespace {c : Char} (h : Kotlin.isWhitespace c = true) :
    (cutScheme (c :: s)).1 = false := by
  have hno {x : Char} {pre : List Char} (hx : x ∈ "wshtp:/".toList) :
      (x :: pre).isPrefixOf ((c :: s).map Char.toLower) = false := by
    have hne : (x == c) = false := beq_eq_false_iff_ne.2 (Ne.symm (ne_of_isWhitespace h x hx))
    rw [List.map_cons, Kotlin.toLower_of_isWhitespace h, List.isPrefixOf_cons_cons, hne,
      Bool.false_and]
  have hwss : "wss://".toList = 'w' :: "ss://".toList := rfl
  have hws : "ws://".toList = 'w' :: "s://".toList := rfl
  have hhttps : "https://".toList = 'h' :: "ttps://".toList := rfl
  have hhttp : "http://".toList = 'h' :: "ttp://".toList := rfl
  simp only [cutScheme]
  rw [hwss, hws, hhttps, hhttp, hno (by decide), hno (by decide), hno (by decide),
    hno (by decide)]
  rfl

/-- White space behind the text changes nothing about its scheme. -/
theorem cutScheme_append {w : List Char} (hw : ∀ c ∈ w, Kotlin.isWhitespace c = true) :
    (cutScheme (s ++ w)).1 = (cutScheme s).1 := by
  have hpre {pre : List Char} (hsub : ∀ x ∈ pre, x ∈ "wshtp:/".toList) :
      pre.isPrefixOf ((s ++ w).map Char.toLower) = pre.isPrefixOf (s.map Char.toLower) := by
    rw [List.map_append]
    apply isPrefixOf_append
    intro c hc hmem
    obtain ⟨d, hd, rfl⟩ := List.mem_map.1 hc
    rw [Kotlin.toLower_of_isWhitespace (hw d hd)] at hmem
    exact ne_of_isWhitespace (hw d hd) d (hsub d hmem) rfl
  simp only [cutScheme]
  rw [hpre (List.all_iff_forall_prop.1 (by decide)), hpre (List.all_iff_forall_prop.1 (by decide)),
    hpre (List.all_iff_forall_prop.1 (by decide)), hpre (List.all_iff_forall_prop.1 (by decide))]
  split_ifs <;> rfl

/-- The core finds no TLS scheme where Android finds none. -/
theorem cutScheme_of_trim (h : (cutScheme (Kotlin.trim s)).1 = false) :
    (cutScheme s).1 = false := by
  cases s with
  | nil => exact h
  | cons c t =>
    by_cases hc : Kotlin.isWhitespace c = true
    · exact cutScheme_of_isWhitespace hc
    · have htrim : Kotlin.trim (c :: t) = (c :: t).rdropWhile Kotlin.isWhitespace := by
        rw [Kotlin.trim, Text.trim, List.dropWhile_cons_of_neg hc]
      have happend := cutScheme_append (s := (c :: t).rdropWhile Kotlin.isWhitespace)
        (w := (c :: t).rtakeWhile Kotlin.isWhitespace) fun c hc => List.mem_rtakeWhile_imp hc
      rw [List.rdropWhile_append_rtakeWhile, ← htrim] at happend
      rw [happend, h]

end scheme

/-! ## When the clients dial the same endpoint -/

section same

variable (digit : Char → Option ℕ)

/-- The text at the place of the host for Android, which trims what is in brackets and takes a text
with one colon for a host when there is no number behind the colon. -/
def serverHostText (value : List Char) : List Char :=
  match value with
  | '[' :: inner => Kotlin.trim (inner.takeWhile (· ≠ ']'))
  | _ =>
    if ∀ s ∈ portText value, (Kotlin.toIntOrNull digit s).isSome = true then hostText value
    else value

/-- What the core leaves of an input and what Android leaves of it address the same endpoint. -/
structure SameAddress (coreValue serverValue : List Char) (fallbackPort : ℤ) : Prop where
  closed : Closed coreValue
  reads : ∀ s ∈ portText coreValue, (Cpp.stoi s).isSome = true
  host : hostText coreValue = serverHostText digit serverValue
  /-- a port in the text is the fallback port -/
  port : ∀ s ∈ portText serverValue, ∀ n ∈ Kotlin.toIntOrNull digit s, n = fallbackPort

instance (coreValue serverValue : List Char) (fallbackPort : ℤ) :
    Decidable (SameAddress digit coreValue serverValue fallbackPort) :=
  decidable_of_iff (Closed coreValue ∧
    (∀ s ∈ portText coreValue, (Cpp.stoi s).isSome = true) ∧
    hostText coreValue = serverHostText digit serverValue ∧
    ∀ s ∈ portText serverValue, ∀ n ∈ Kotlin.toIntOrNull digit s, n = fallbackPort)
    ⟨fun ⟨hc, hr, hh, hp⟩ => ⟨hc, hr, hh, hp⟩, fun ⟨hc, hr, hh, hp⟩ => ⟨hc, hr, hh, hp⟩⟩

variable {digit} {rawHost : List Char} {fallbackPort : ℤ}

theorem serverHostText_bare {value : List Char} (hbare : ∀ inner, value ≠ '[' :: inner) :
    serverHostText digit value =
      if ∀ s ∈ portText value, (Kotlin.toIntOrNull digit s).isSome = true then hostText value
      else value := by
  unfold serverHostText
  split
  · next inner => exact absurd rfl (hbare inner)
  · rfl

/-- What Android finds in a text that it accepts. -/
theorem serverAddress_reads {value host : List Char} {port : ℤ}
    (h : serverAddress digit value fallbackPort = some (host, port)) :
    host = serverHostText digit value ∧
      (port = fallbackPort ↔
        ∀ s ∈ portText value, ∀ n ∈ Kotlin.toIntOrNull digit s, n = fallbackPort) := by
  by_cases hbracket : ∃ inner, value = '[' :: inner
  · obtain ⟨inner, rfl⟩ := hbracket
    simp only [serverAddress] at h
    split_ifs at h
    simp only [serverHostText, portText]
    split at h
    · next s _ =>
      obtain ⟨n, hn, heq⟩ := Option.map_eq_some_iff.1 h
      obtain ⟨rfl, rfl⟩ := Prod.mk.inj heq
      simp [hn]
    · obtain ⟨rfl, rfl⟩ := Prod.mk.inj (Option.some.inj h)
      simp
  · have hbare := not_exists.1 hbracket
    rw [serverHostText_bare hbare, portText_bare hbare, hostText_bare hbare]
    unfold serverAddress at h
    split at h
    · next inner => exact absurd rfl (hbare inner)
    by_cases hcolon : value.count ':' = 1
    · rw [if_pos hcolon] at h ⊢
      cases hn : Kotlin.toIntOrNull digit (afterFirst ':' value) with
      | none =>
        rw [hn] at h
        obtain ⟨rfl, rfl⟩ := Prod.mk.inj (Option.some.inj h)
        simp [hn]
      | some n =>
        rw [hn] at h
        obtain ⟨rfl, rfl⟩ := Prod.mk.inj (Option.some.inj h)
        simp [hn, hcolon]
    · rw [if_neg hcolon] at h ⊢
      obtain ⟨rfl, rfl⟩ := Prod.mk.inj (Option.some.inj h)
      simp [hcolon]

theorem parseServerEndpoint_eq_some {e : ParsedServerEndpoint}
    (h : parseServerEndpoint digit rawHost fallbackPort = some e) :
    serverAddress digit (serverValue rawHost) fallbackPort = some (e.host, e.port) ∧
      e.host ≠ [] ∧ rawHost ≠ [] ∧ e.wsSecure = (cutScheme (Kotlin.trim rawHost)).1 := by
  unfold parseServerEndpoint at h
  split_ifs at h with hraw hblank
  cases haddr : serverAddress digit (serverValue rawHost) fallbackPort with
  | none =>
    rw [haddr] at h
    cases h
  | some found =>
    obtain ⟨host, port⟩ := found
    rw [haddr] at h
    dsimp only at h
    split_ifs at h with hbad
    obtain rfl := Option.some.inj h
    refine ⟨rfl, ?_, ?_, rfl⟩
    · rintro rfl
      exact hbad (Or.inl rfl)
    · rintro rfl
      exact hraw rfl

/-- For an input that Android accepts, the core's session and its activity probe dial what Android
dials exactly when the two sides read the same host and a port in the text is the fallback port. -/
theorem same_endpoint_iff (hport : 1 ≤ fallbackPort ∧ fallbackPort ≤ 65535)
    {e : ParsedServerEndpoint} (h : parseServerEndpoint digit rawHost fallbackPort = some e)
    (hsecure : e.wsSecure = false) :
    (connectInternal rawHost fallbackPort = some (e.host, e.port) ∧
      checkChannelActivity rawHost fallbackPort = some (e.host, e.port)) ↔
      SameAddress digit (hostValue rawHost) (serverValue rawHost) fallbackPort := by
  obtain ⟨haddr, hne, hraw, hsame⟩ := parseServerEndpoint_eq_some h
  have hscheme : (cutScheme rawHost).1 = false := cutScheme_of_trim (hsame ▸ hsecure)
  obtain ⟨hhost, hfallback⟩ := serverAddress_reads haddr
  have hcore := core_reads_iff rawHost fallbackPort hne
  rw [connectInternal_eq_some_iff, checkChannelActivity_eq_some_iff hraw]
  constructor
  · rintro ⟨⟨hparsed, -, -, -, -, hp⟩, hprobe, -⟩
    obtain ⟨hclosed, hreads, htext⟩ := hcore.1 ⟨hparsed, hprobe⟩
    exact ⟨hclosed, hreads, htext.trans hhost, hfallback.1 hp.symm⟩
  · rintro ⟨hclosed, hreads, htext, hp⟩
    obtain ⟨hparsed, hprobe⟩ := hcore.2 ⟨hclosed, hreads, htext.trans hhost.symm⟩
    have hp := (hfallback.2 hp).symm
    exact ⟨⟨hparsed, hne, hport.1, hport.2, hscheme, hp⟩, hprobe, hne, hport.1, hport.2, hscheme,
      hp⟩

/-- `Character.digit` on ASCII. -/
def westernDigit (c : Char) : Option ℕ := Text.asciiDigit c

theorem accepted_query : parseServerEndpoint westernDigit
    "ws://relay.example:5500?token=1".toList 5500 =
      some ⟨"relay.example".toList, 5500, false⟩ := by
  decide +kernel

/-- A scheme, the fallback port and a query, which only Android takes away. -/
theorem same_endpoint_iff_query :
    connectInternal "ws://relay.example:5500?token=1".toList 5500 =
        some ("relay.example".toList, 5500) ∧
      checkChannelActivity "ws://relay.example:5500?token=1".toList 5500 =
        some ("relay.example".toList, 5500) :=
  (same_endpoint_iff (by decide) accepted_query rfl).2 (by decide +kernel)

/-- White space behind the text, and a fragment; without a port the core keeps a query. -/
example : SameAddress westernDigit (hostValue "relay.example:5500 ".toList)
      (serverValue "relay.example:5500 ".toList) 5500 ∧
    SameAddress westernDigit (hostValue "[::1]:5500#x".toList)
      (serverValue "[::1]:5500#x".toList) 5500 ∧
    ¬ SameAddress westernDigit (hostValue "relay.example?token=1".toList)
      (serverValue "relay.example?token=1".toList) 5500 := by
  decide +kernel

/-- An explicit port 6000 with the fallback port 5500: Android dials 6000 and the core 5500. -/
theorem explicit_port_ignored : ¬ ∀ (rawHost : List Char) (fallbackPort : ℤ)
    (e : ParsedServerEndpoint), 1 ≤ fallbackPort ∧ fallbackPort ≤ 65535 →
    parseServerEndpoint westernDigit rawHost fallbackPort = some e → e.wsSecure = false →
    connectInternal rawHost fallbackPort = some (e.host, e.port) ∧
      checkChannelActivity rawHost fallbackPort = some (e.host, e.port) := by
  intro hall
  have := hall "relay.example:6000".toList 5500 ⟨"relay.example".toList, 6000, false⟩ (by decide)
    (by decide +kernel) rfl
  revert this
  decide +kernel

end same

end Endpoint

end OWalkie
