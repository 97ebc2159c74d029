import OWalkie.Lib.Utf8
import OWalkie.Wire.Welcome

/-!
# Server messages through the C API

`parseServerMessage` turns a text into an event, a failure, or `NoEvent` for an answer that carries
none.  The session drops a message without an event; `owalkie_json_parse_server_message` zeroes the
output and returns `OWALKIE_OK`, and the zero of `owalkie_event_type` is `OWALKIE_EV_CONNECTED`.
`reports_iff` says when the reported type is that of the message.
-/

namespace OWalkie

namespace CApi

open Nlohmann

/-! ## The parser -/

inductive EventType where
  | connecting
  | transportConnected
  | disconnected
  | protocolError
  | welcome
  | rxBroadcastStart
  | rxBroadcastEnd
  | localTxStart
  | localTxEnd
  | pttLocked
  | pttUnlocked
  | txCountdownStart
  | txStop
  | udpTransportReady
  | udpTransportLost
  | connectionFailed
  | connected
  | connectionLost
deriving Repr, DecidableEq

structure Event where
  type : EventType := .connecting
  welcome : WelcomeConfig := {}
  rxBusyMode : Bool := false
  rxEndDelayMs : ℤ := 0
  pttDisplaySec : ℤ := 0
  txStopInfo : String := ""
  protocolError : String := ""
  disconnectCode : ℤ := 0
  disconnectReason : String := ""
deriving Repr, DecidableEq

/-- `catch (...)` around one read. -/
def orProtocol {α : Type} : Option α → Except Result α
  | some a => .ok a
  | none => .error .protocol

def noEventTypes : List String := ["joined", "pong", "udp_registered", "repeater_mode"]

/-- `parseServerMessage` behind the type of the message. -/
def parseMessage (type : String) (root : Json) : Except Result Event :=
  if type = "welcome" then do
    let welcome ← parseWelcome root kProtocolVersion
    return { type := .welcome, welcome := welcome }
  else if type = "rx_broadcast_start" then do
    let busyMode ← orProtocol (value getBool "busyMode" false root)
    return { type := .rxBroadcastStart, rxBusyMode := busyMode }
  else if type = "rx_broadcast_end" then do
    let endDelayMs ← orProtocol (value getInt "endDelayMs" 0 root)
    return { type := .rxBroadcastEnd, rxEndDelayMs := endDelayMs }
  else if type = "ptt_lock" then do
    let displaySec ← orProtocol (value getInt "displaySec" 0 root)
    return { type := .pttLocked, pttDisplaySec := displaySec }
  else if type = "ptt_unlock" then .ok { type := .pttUnlocked }
  else if type = "tx_countdown_start" then .ok { type := .txCountdownStart }
  else if type = "tx_stop" then do
    let info ← orProtocol (value getString "info" "transmit_timeout_reached" root)
    return { type := .txStop, txStopInfo := info }
  else if type ∈ noEventTypes then .error .noEvent
  -- "has_activity", like every type that is not known
  else .error .invalidArg

/-- `parseServerMessage`, on what `json::parse` makes of the text. -/
def parseServerMessage (text : Option Json) : Except Result Event := do
  let root ← orProtocol text
  let type ← orProtocol (value getString "type" "" root)
  parseMessage type root

/-- What `handleWsText` does with a message. -/
inductive WsAction where
  | ignore
  | protocolMismatch
  | handleWelcome (welcome : WelcomeConfig)
  | emitEvent (event : Event)
deriving Repr, DecidableEq

def handleWsText (text : Option Json) : WsAction :=
  match parseServerMessage text with
  | .error .protocol => .protocolMismatch
  | .error _ => .ignore
  | .ok event => if event.type = .welcome then .handleWelcome event.welcome else .emitEvent event

/-! ## The C types -/

inductive OwalkieResult where
  | ok
  | errInvalidArg
  | errAlreadyConnected
  | errNotConnected
  | errProtocol
  | errNetwork
  | errInternal
  | errUnsupported
  | errBufferTooSmall
  | errNotReady
  | errQueueFull
deriving Repr, DecidableEq

def toC : Result → OwalkieResult
  | .ok => .ok
  | .invalidArg => .errInvalidArg
  | .alreadyConnected => .errAlreadyConnected
  | .notConnected => .errNotConnected
  | .protocol => .errProtocol
  | .network => .errNetwork
  | .internal => .errInternal
  | .unsupported => .errUnsupported
  | .bufferTooSmall => .errBufferTooSmall
  | .notReady => .errNotReady
  | .queueFull => .errQueueFull
  | .noEvent => .ok

/-- `owalkie_event_type`; the first is zero. -/
inductive OwalkieEventType where
  | connected
  | disconnected
  | protocolError
  | connectionFailed
  | rxBroadcastStart
  | rxBroadcastEnd
  | pttLocked
  | pttUnlocked
  | txCountdownStart
  | txStop
  | connectionLost
deriving Repr, DecidableEq

/-- A `const char*` of the output: null, the caller's buffer, or the string inside the call. -/
inductive CString where
  | null
  | stringBuf
  | scratch
deriving Repr, DecidableEq

structure OwalkieWelcomeConfig where
  sessionId : ℕ
  protocolVersion : ℤ
  sampleRate : ℤ
  packetMs : ℤ
  opusBitrate : ℤ
  opusComplexity : ℤ
  opusFec : ℤ
  opusDtx : ℤ
  opusApplication : CString
  busyMode : ℤ
  transmitTimeoutSec : ℤ
deriving Repr, DecidableEq

/-- The member of the union that was written last. -/
inductive EventData where
  | zeroed
  | welcome (config : OwalkieWelcomeConfig)
  | rxBroadcastStart (busyMode : ℤ)
  | rxBroadcastEnd (endDelayMs : ℤ)
  | pttLocked (displaySec : ℤ)
  | txStop (info : CString)
  | protocolError (message : CString)
  | disconnected (code : ℤ) (reason : CString)
deriving Repr, DecidableEq

structure OwalkieEvent where
  type : OwalkieEventType
  u : EventData
deriving Repr, DecidableEq

/-- `memset(out_event, 0, sizeof(*out_event))`. -/
def zeroEvent : OwalkieEvent := ⟨.connected, .zeroed⟩

/-! ## The C function -/

def isVisible : EventType → Bool
  | .connected | .disconnected | .protocolError | .connectionFailed | .rxBroadcastStart
  | .rxBroadcastEnd | .pttLocked | .pttUnlocked | .txCountdownStart | .txStop
  | .connectionLost => true
  | _ => false

def toPublic : EventType → OwalkieEventType
  | .connected => .connected
  | .disconnected => .disconnected
  | .protocolError => .protocolError
  | .connectionFailed => .connectionFailed
  | .rxBroadcastStart => .rxBroadcastStart
  | .rxBroadcastEnd => .rxBroadcastEnd
  | .pttLocked => .pttLocked
  | .pttUnlocked => .pttUnlocked
  | .txCountdownStart => .txCountdownStart
  | .txStop => .txStop
  | .connectionLost => .connectionLost
  | _ => .connected

def flag (b : Bool) : ℤ := if b then 1 else 0

def fillWelcomeC (cfg : WelcomeConfig) (opusApplication : CString) : OwalkieWelcomeConfig where
  sessionId := cfg.sessionId
  protocolVersion := cfg.protocolVersion
  sampleRate := cfg.sampleRate
  packetMs := cfg.packetMs
  opusBitrate := cfg.opus.bitrate
  opusComplexity := cfg.opus.complexity
  opusFec := flag cfg.opus.fec
  opusDtx := flag cfg.opus.dtx
  opusApplication := opusApplication
  busyMode := flag cfg.busyMode
  transmitTimeoutSec := cfg.transmitTimeoutSec

/-- The caller's buffer; `none` is a null pointer. -/
abbrev Buffer := Option (List UInt8)

/-- The buffer with the text and its end; `none` where `copyToBuf` returns false. -/
def copyToBuf (src : String) : Buffer → ℕ → Option (List UInt8)
  | none, _ => none
  | some buf, bufSize =>
    let text := Text.utf8 src.toList ++ [0]
    if bufSize = 0 ∨ bufSize < text.length then none else some (text ++ buf.drop text.length)

/-- A call's result, the output, and the buffer behind it. -/
structure Outcome where
  result : OwalkieResult
  outEvent : Option OwalkieEvent
  stringBuf : Buffer
deriving DecidableEq

/-- A text into the buffer, and the member of the union that points there. -/
def putText (type : OwalkieEventType) (text : String) (data : CString → EventData)
    (failed : EventData) (stringBuf : Buffer) (size : ℕ) : Outcome :=
  match copyToBuf text stringBuf size with
  | none => ⟨.errBufferTooSmall, some ⟨type, failed⟩, stringBuf⟩
  | some buf => ⟨.ok, some ⟨type, data .stringBuf⟩, some buf⟩

/-- The `switch` over the type of the event. -/
def fillEvent (ev : Event) (type : OwalkieEventType) (stringBuf : Buffer) (size : ℕ) : Outcome :=
  match ev.type with
  | .welcome | .connected =>
    if stringBuf ≠ none ∧ 0 < size then
      putText type ev.welcome.opus.application (fun p => .welcome (fillWelcomeC ev.welcome p)) .zeroed
        stringBuf size
    else ⟨.ok, some ⟨type, .welcome (fillWelcomeC ev.welcome .scratch)⟩, stringBuf⟩
  | .rxBroadcastStart => ⟨.ok, some ⟨type, .rxBroadcastStart (flag ev.rxBusyMode)⟩, stringBuf⟩
  | .rxBroadcastEnd => ⟨.ok, some ⟨type, .rxBroadcastEnd ev.rxEndDelayMs⟩, stringBuf⟩
  | .pttLocked => ⟨.ok, some ⟨type, .pttLocked ev.pttDisplaySec⟩, stringBuf⟩
  | .txStop => putText type ev.txStopInfo .txStop .zeroed stringBuf size
  | .protocolError => putText type ev.protocolError .protocolError .zeroed stringBuf size
  | .disconnected =>
    if ev.disconnectReason = "" then
      ⟨.ok, some ⟨type, .disconnected ev.disconnectCode .null⟩, stringBuf⟩
    else
      putText type ev.disconnectReason (.disconnected ev.disconnectCode)
        (.disconnected ev.disconnectCode .null) stringBuf size
  | _ => ⟨.ok, some ⟨type, .zeroed⟩, stringBuf⟩

/-- The text of the arguments: up to its end where no length is given. -/
def textOf (jsonText : List UInt8) (jsonLen : ℕ) : List UInt8 :=
  if jsonLen = 0 then jsonText.takeWhile (· ≠ 0) else jsonText.take jsonLen

variable (parse : List UInt8 → Option Json)

/-- `owalkie_json_parse_server_message`; a pointer that is `none` is null. -/
def owalkieJsonParseServerMessage (jsonText : Option (List UInt8)) (jsonLen : ℕ)
    (outEvent : Option OwalkieEvent) (stringBuf : Buffer) (stringBufSize : ℕ) : Outcome :=
  match jsonText, outEvent with
  | some jsonText, some out =>
    match parseServerMessage (parse (textOf jsonText jsonLen)) with
    | .error .noEvent => ⟨.ok, some zeroEvent, stringBuf⟩
    | .error r => ⟨toC r, some out, stringBuf⟩
    | .ok ev =>
      if ev.type = .welcome then fillEvent ev .connected stringBuf stringBufSize
      else if isVisible ev.type = false then ⟨.ok, some zeroEvent, stringBuf⟩
      else fillEvent ev (toPublic ev.type) stringBuf stringBufSize
  | _, _ => ⟨.errInvalidArg, outEvent, stringBuf⟩

/-! ## What a message carries -/

/-- The public event of a message; a welcome has to be accepted. -/
inductive Carries (root : Json) : OwalkieEventType → Prop
  | connected {welcome : WelcomeConfig} (htype : find "type" root = some (.str "welcome"))
      (haccepted : parseWelcome root kProtocolVersion = .ok welcome) : Carries root .connected
  | rxBroadcastStart (htype : find "type" root = some (.str "rx_broadcast_start")) :
      Carries root .rxBroadcastStart
  | rxBroadcastEnd (htype : find "type" root = some (.str "rx_broadcast_end")) :
      Carries root .rxBroadcastEnd
  | pttLocked (htype : find "type" root = some (.str "ptt_lock")) : Carries root .pttLocked
  | pttUnlocked (htype : find "type" root = some (.str "ptt_unlock")) : Carries root .pttUnlocked
  | txCountdownStart (htype : find "type" root = some (.str "tx_countdown_start")) :
      Carries root .txCountdownStart
  | txStop (htype : find "type" root = some (.str "tx_stop")) : Carries root .txStop

/-- A call that returns `OWALKIE_OK` reports the type of the message. -/
def Reports (jsonText : Option (List UInt8)) (jsonLen : ℕ) (outEvent : Option OwalkieEvent)
    (stringBuf : Buffer) (stringBufSize : ℕ) : Prop :=
  let outcome := owalkieJsonParseServerMessage parse jsonText jsonLen outEvent stringBuf stringBufSize
  outcome.result = .ok → ∃ text root ev, jsonText = some text ∧
    parse (textOf text jsonLen) = some root ∧ outcome.outEvent = some ev ∧ Carries root ev.type

section parser

variable {α β : Type} {root : Json} {type : String} {ev : Event}

theorem orProtocol_bind_eq_iff {x : Option α} {f : α → Except Result β} {r : Except Result β}
    (h : r ≠ .error .protocol) : (orProtocol x >>= f) = r ↔ ∃ a, x = some a ∧ f a = r := by
  cases x with
  | none => exact ⟨fun hr => absurd hr.symm h, fun ⟨a, ha, _⟩ => nomatch ha⟩
  | some a => exact ⟨fun hr => ⟨a, rfl, hr⟩, fun ⟨b, hb, hr⟩ => by cases hb; exact hr⟩

theorem parseWelcome_eq (root : Json) (v : ℤ) :
    parseWelcome root v = orProtocol (readWelcome root v) := by
  rw [parseWelcome]
  cases readWelcome root v <;> rfl

theorem parseMessage_of_mem (h : type ∈ noEventTypes) :
    parseMessage type root = .error .noEvent := by
  simp only [noEventTypes, List.mem_cons, List.not_mem_nil, or_false] at h
  rcases h with rfl | rfl | rfl | rfl <;> rfl

/-- The failures besides an exception. -/
theorem error_of_parseMessage {r : Result} (hr : r ≠ .protocol)
    (h : parseMessage type root = .error r) :
    r = .noEvent ∧ type ∈ noEventTypes ∨ r = .invalidArg := by
  have hne : (.error r : Except Result Event) ≠ .error .protocol := by simpa using hr
  rw [parseMessage, parseWelcome_eq] at h
  split_ifs at h with h₁ h₂ h₃ h₄ h₅ h₆ h₇ h₈
  -- the types that carry an event read their fields and return it
  iterate 4
    obtain ⟨_, _, h⟩ := (orProtocol_bind_eq_iff hne).1 h
    cases h
  · obtain ⟨_, _, h⟩ := (orProtocol_bind_eq_iff hne).1 h
    cases h
  · cases h
    exact .inl ⟨rfl, h₈⟩
  · cases h
    exact .inr rfl

theorem carries_of_parseMessage (htype : find "type" root = some (.str type))
    (h : parseMessage type root = .ok ev) :
    Carries root (toPublic ev.type) ∧ (ev.type = .welcome ∨ isVisible ev.type = true) := by
  have hne : (.ok ev : Except Result Event) ≠ .error .protocol := nofun
  rw [parseMessage] at h
  split_ifs at h with h₁ h₂ h₃ h₄ h₅ h₆ h₇ h₈
  · subst type
    rw [parseWelcome_eq, orProtocol_bind_eq_iff hne] at h
    obtain ⟨welcome, hread, ⟨⟩⟩ := h
    exact ⟨.connected htype (by rw [parseWelcome_eq, hread, orProtocol]), .inl rfl⟩
  · subst type
    obtain ⟨busyMode, hread, ⟨⟩⟩ := (orProtocol_bind_eq_iff hne).1 h
    exact ⟨.rxBroadcastStart htype, .inr rfl⟩
  · subst type
    obtain ⟨endDelayMs, hread, ⟨⟩⟩ := (orProtocol_bind_eq_iff hne).1 h
    exact ⟨.rxBroadcastEnd htype, .inr rfl⟩
  · subst type
    obtain ⟨displaySec, hread, ⟨⟩⟩ := (orProtocol_bind_eq_iff hne).1 h
    exact ⟨.pttLocked htype, .inr rfl⟩
  · subst type
    cases h
    exact ⟨.pttUnlocked htype, .inr rfl⟩
  · subst type
    cases h
    exact ⟨.txCountdownStart htype, .inr rfl⟩
  · subst type
    obtain ⟨info, hread, ⟨⟩⟩ := (orProtocol_bind_eq_iff hne).1 h
    exact ⟨.txStop htype, .inr rfl⟩

/-- A message of a known type has it as a member. -/
theorem find_type (htype : value getString "type" "" root = some type) (hne : type ≠ "") :
    find "type" root = some (.str type) := by
  obtain ⟨v, hfind, hget⟩ := find_of_value htype hne
  cases v with
  | str s =>
    cases hget
    exact hfind
  | _ => cases hget

theorem parseServerMessage_eq_iff {text : Option Json} {r : Except Result Event}
    (h : r ≠ .error .protocol) : parseServerMessage text = r ↔
      ∃ root type, text = some root ∧ value getString "type" "" root = some type ∧
        parseMessage type root = r := by
  rw [parseServerMessage, orProtocol_bind_eq_iff h]
  simp only [orProtocol_bind_eq_iff h, exists_and_left]

theorem carries_of_parseServerMessage {text : Option Json} (h : parseServerMessage text = .ok ev) :
    ∃ root, text = some root ∧ Carries root (toPublic ev.type) ∧
      (ev.type = .welcome ∨ isVisible ev.type = true) := by
  obtain ⟨root, type, htext, htype, hmessage⟩ := (parseServerMessage_eq_iff (by nofun)).1 h
  refine ⟨root, htext, carries_of_parseMessage (find_type htype ?_) hmessage⟩
  rintro rfl
  cases hmessage

theorem parseServerMessage_of_mem {text : Option Json} (hroot : text = some root)
    (htype : find "type" root = some (.str type)) (h : type ∈ noEventTypes) :
    parseServerMessage text = .error .noEvent :=
  (parseServerMessage_eq_iff (by decide)).2 ⟨root, type, hroot, by rw [value_of_find htype, getString],
    parseMessage_of_mem h⟩

theorem error_of_parseServerMessage {text : Option Json} {r : Result} (hr : r ≠ .protocol)
    (h : parseServerMessage text = .error r) :
    (r = .noEvent ∧ ∃ root, text = some root ∧
      ∃ type ∈ noEventTypes, find "type" root = some (.str type)) ∨ r = .invalidArg := by
  obtain ⟨root, type, htext, htype, hmessage⟩ :=
    (parseServerMessage_eq_iff (by simpa using hr)).1 h
  refine (error_of_parseMessage hr hmessage).imp_left fun ⟨hnone, hmem⟩ =>
    ⟨hnone, root, htext, type, hmem, find_type htype ?_⟩
  rintro rfl
  exact absurd hmem (by decide)

/-- The event of a message is none of the answers. -/
theorem Carries.type_not_mem {t : OwalkieEventType} (h : Carries root t)
    (htype : find "type" root = some (.str type)) : type ∉ noEventTypes := by
  cases h with
  | _ h =>
    cases htype.symm.trans h
    decide

end parser

/-! ## The C function against the message -/

theorem putText_type (type : OwalkieEventType) (text : String) (data : CString → EventData)
    (failed : EventData) (stringBuf : Buffer) (size : ℕ) :
    ∃ u, (putText type text data failed stringBuf size).outEvent = some ⟨type, u⟩ := by
  rw [putText]
  cases copyToBuf text stringBuf size with
  | none => exact ⟨failed, rfl⟩
  | some buf => exact ⟨data .stringBuf, rfl⟩

/-- The `switch` leaves the type as it was set. -/
theorem fillEvent_type (ev : Event) (type : OwalkieEventType) (stringBuf : Buffer) (size : ℕ) :
    ∃ u, (fillEvent ev type stringBuf size).outEvent = some ⟨type, u⟩ := by
  rw [fillEvent]
  cases ev.type with
  | welcome | connected =>
    dsimp only
    split_ifs
    · exact putText_type ..
    · exact ⟨_, rfl⟩
  | txStop | protocolError => exact putText_type ..
  | disconnected =>
    dsimp only
    split_ifs
    · exact ⟨_, rfl⟩
    · exact putText_type ..
  | _ => exact ⟨_, rfl⟩

variable {text : List UInt8} {jsonLen : ℕ} {stringBuf : Buffer} {size : ℕ}

/-- An event comes out with the public type of what the parser made of it. -/
theorem outEvent_of_ok {ev : Event} (out : OwalkieEvent) (stringBuf : Buffer) (size : ℕ)
    (h : parseServerMessage (parse (textOf text jsonLen)) = .ok ev) :
    ∃ u, (owalkieJsonParseServerMessage parse (some text) jsonLen (some out) stringBuf
      size).outEvent = some ⟨toPublic ev.type, u⟩ := by
  obtain ⟨root, _, _, hvisible⟩ := carries_of_parseServerMessage h
  rw [owalkieJsonParseServerMessage, h]
  by_cases hwelcome : ev.type = .welcome
  · simp only [hwelcome, if_pos]
    exact fillEvent_type ..
  · have hshown := hvisible.resolve_left hwelcome
    simp only [hwelcome, if_false, hshown, Bool.true_eq_false]
    exact fillEvent_type ..

/-- The session does nothing on an answer without an event. -/
theorem handleWsText_ignore {root : Json} {type : String} {text : Option Json}
    (hroot : text = some root) (htype : find "type" root = some (.str type))
    (h : type ∈ noEventTypes) : handleWsText text = .ignore := by
  rw [handleWsText, parseServerMessage_of_mem hroot htype h]

/-- An answer without an event comes out as a connection. -/
theorem noEvent_connected (out : OwalkieEvent)
    (h : parseServerMessage (parse (textOf text jsonLen)) = .error .noEvent) :
    owalkieJsonParseServerMessage parse (some text) jsonLen (some out) stringBuf size =
      ⟨.ok, some zeroEvent, stringBuf⟩ := by
  rw [owalkieJsonParseServerMessage, h]

theorem not_reports {root : Json} {type : String} (out : OwalkieEvent)
    (hroot : parse (textOf text jsonLen) = some root) (htype : find "type" root = some (.str type))
    (hmem : type ∈ noEventTypes) :
    ¬ Reports parse (some text) jsonLen (some out) stringBuf size := by
  rw [Reports, noEvent_connected parse out (parseServerMessage_of_mem hroot htype hmem)]
  intro h
  obtain ⟨_, root', ev, htext, hroot', _, hcarries⟩ := h rfl
  cases htext
  cases hroot.symm.trans hroot'
  exact hcarries.type_not_mem htype hmem

theorem result_ne_ok {r : Result} (out : OwalkieEvent)
    (h : parseServerMessage (parse (textOf text jsonLen)) = .error r) (hr : r ≠ .noEvent) :
    (owalkieJsonParseServerMessage parse (some text) jsonLen (some out) stringBuf size).result ≠
      .ok := by
  have hfailed : r = .protocol ∨ r = .invalidArg := by
    by_contra hnot
    rw [not_or] at hnot
    rcases error_of_parseServerMessage hnot.1 h with hnone | hinvalid
    · exact hr hnone.1
    · exact hnot.2 hinvalid
  rw [owalkieJsonParseServerMessage, h]
  rcases hfailed with rfl | rfl <;> exact nofun

/-- The reported type is the one of the message exactly when the message is none of the four answers
that carry no event. -/
theorem reports_iff (jsonText : Option (List UInt8)) (jsonLen : ℕ) (outEvent : Option OwalkieEvent)
    (stringBuf : Buffer) (stringBufSize : ℕ) :
    Reports parse jsonText jsonLen outEvent stringBuf stringBufSize ↔
      ∀ text root type, jsonText = some text → outEvent ≠ none →
        parse (textOf text jsonLen) = some root → find "type" root = some (.str type) →
        type ∉ noEventTypes := by
  constructor
  · intro h text root type htext hout hroot htype hmem
    obtain ⟨out, rfl⟩ := Option.ne_none_iff_exists'.1 hout
    subst htext
    exact not_reports parse out hroot htype hmem h
  · intro h
    cases jsonText with
    | none => exact fun hok => nomatch hok
    | some text =>
      cases outEvent with
      | none => exact fun hok => nomatch hok
      | some out =>
        cases hparse : parseServerMessage (parse (textOf text jsonLen)) with
        | ok ev =>
          obtain ⟨u, hout⟩ := outEvent_of_ok parse out stringBuf stringBufSize hparse
          obtain ⟨root, hroot, hcarries, _⟩ := carries_of_parseServerMessage hparse
          exact fun _ => ⟨text, root, _, rfl, hroot, hout, hcarries⟩
        | error r =>
          have hr : r ≠ .noEvent := by
            rintro rfl
            obtain ⟨_, root, hroot, type, hmem, htype⟩ | hr :=
              error_of_parseServerMessage (by decide) hparse
            · exact h text root type rfl (Option.some_ne_none _) hroot htype hmem
            · cases hr
          exact fun hok => absurd hok (result_ne_ok parse out hparse hr)

/-! ### An answer to a ping -/

def pong : Json := .obj [("type", .str "pong")]

def pongText : List UInt8 := Text.utf8 "\x7b\"type\":\"pong\"\x7d".toList

/-- A parser of the text of `pong`. -/
def parsePong (text : List UInt8) : Option Json := if text = pongText then some pong else none

/-- The session ignores the answer, and the C API reports a connection. -/
theorem pong_connected :
    handleWsText (some pong) = .ignore ∧
    owalkieJsonParseServerMessage parsePong (some (pongText ++ [0])) 0 (some zeroEvent) none 0 =
        ⟨.ok, some ⟨.connected, .zeroed⟩, none⟩ ∧
      ¬ Reports parsePong (some (pongText ++ [0])) 0 (some zeroEvent) none 0 := by
  have htext : textOf (pongText ++ [0]) 0 = pongText := by decide +kernel
  have hroot : parsePong (textOf (pongText ++ [0]) 0) = some pong := by
    rw [htext, parsePong, if_pos rfl]
  have hmem : "pong" ∈ noEventTypes := by decide
  exact ⟨handleWsText_ignore rfl rfl hmem,
    noEvent_connected parsePong zeroEvent (parseServerMessage_of_mem hroot rfl hmem),
    not_reports parsePong zeroEvent hroot rfl hmem⟩

end CApi

end OWalkie
