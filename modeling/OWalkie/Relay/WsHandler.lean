import OWalkie.Relay.ConfigLoad
import OWalkie.Relay.Hub

/-!
# The WebSocket handlers and their clients

`wsHandler` with all its messages, one handler per connection, over the hub; at the other end of a
connection is `checkChannelActivity`, or a client that may send anything.  The messages of both
directions are kept in order.  `channelHasRecentActivity` reads the time of the last audio under the
lock and the clock after it, so that packets may be routed in between.  An action that its thread
cannot take leaves the state as it is.
-/

namespace OWalkie

/-! ## The messages -/

def scanActivityWindow : ℤ := 10 * second

/-- What `unicode.ToLower` does, as far as channel names rely on it. -/
structure LowerCase where
  lower : Char → Char
  lower_lower : ∀ c, lower (lower c) = lower c
  isSpace_lower : ∀ c, RelayConfig.isSpace (lower c) = RelayConfig.isSpace c

def LowerCase.normalizeChannelName (l : LowerCase) (ch : String) : ChannelName :=
  String.ofList ((Text.trim RelayConfig.isSpace ch.toList).map l.lower)

theorem LowerCase.normalizeChannelName_idem (l : LowerCase) (ch : String) :
    l.normalizeChannelName (l.normalizeChannelName ch) = l.normalizeChannelName ch := by
  simp only [normalizeChannelName, String.toList_ofList, Text.trim_map l.isSpace_lower,
    Text.trim_trim, List.map_map]
  congr 2
  exact funext l.lower_lower

structure WsMessage where
  type : String
  channel : String := ""
  udpPort : ℕ := 0
  repeaterEnabled : Option Bool := none

/-- What the handler or a broadcast writes. -/
inductive WsReply where
  | welcome (sessionID : SessionID)
  | joined (channel : ChannelName)
  | udpRegistered (addr : UDPAddr)
  | pong
  | repeaterMode (enabled : Bool)
  | hasActivity (channel : ChannelName) (active : Bool)
  | error (info : String)
  | channelState (msg : WsServerMessage)
  deriving DecidableEq

/-! ## The state -/

/-- Where `wsHandler` stands, besides its place in the hub's model. -/
inductive WsPc where
  | welcome
  | reading
  /-- in `switchChannel` -/
  | joining
  /-- after `setUDPAddr` of a `udp_hello` -/
  | udpHello (addr : UDPAddr)
  /-- at the start of `channelHasRecentActivity` -/
  | lookUp (channel : ChannelName)
  /-- after its lock, before its clock reading -/
  | lookedUp (channel : ChannelName) (lastAt : Option ℤ)
  /-- it returns after its first message -/
  | returning
  deriving DecidableEq

/-- Where `checkChannelActivity` stands. -/
inductive ProbePc where
  | awaitWelcome
  | ask
  | awaitAnswer
  | network
  | ok (active : Bool)
  deriving DecidableEq

/-- What a run does not change: the remote hosts, and the channel that is asked for where the other
end of a connection is `checkChannelActivity`. -/
structure Peers extends LowerCase where
  host : ConnID → ℕ
  probe : ConnID → Option String

/-- The channel that `checkChannelActivity` asks for. -/
def probeChannel (channel : String) : String := if channel = "" then "global" else channel

def buildHasActivity (channel : String) : WsMessage where
  type := "has_activity"
  channel := channel

structure ScanRelay where
  hub : RelayHub
  channelActivity : ChannelName → Option ℤ := fun _ => none
  handler : ConnID → WsPc := fun _ => .welcome
  inbox : ConnID → List WsMessage := fun _ => []
  outbox : ConnID → List WsReply := fun _ => []
  probe : ConnID → ProbePc := fun _ => .awaitWelcome

inductive ScanAction where
  /-- a step of the hub that no message of a client has asked for -/
  | hub (a : HubAction)
  | welcome (k : ConnID)
  | read (k : ConnID)
  | joined (k : ConnID)
  | udpRegistered (k : ConnID)
  | lookUp (k : ConnID)
  | answer (k : ConnID)
  /-- a mixer, or `syncChannelWsSessionToClient`, writes to the client -/
  | broadcast (k : ConnID) (msg : WsServerMessage)
  /-- a client that is no probe sends a message -/
  | clientSend (k : ConnID) (msg : WsMessage)
  | probeRead (k : ConnID)
  | probeWrite (k : ConnID)
  /-- the deadline, or an error of the connection -/
  | probeFail (k : ConnID)

/-- The connection that the step is a part of. -/
def ScanAction.conn : ScanAction → Option ConnID
  | hub _ => none
  | welcome k | read k | joined k | udpRegistered k | lookUp k | answer k | broadcast k _
  | clientSend k _ | probeRead k | probeWrite k | probeFail k => some k

/-! ## The steps -/

namespace ScanRelay

variable (p : Peers)

def new (unix : ℕ) : ScanRelay where
  hub := .new unix

def setHandler (s : ScanRelay) (k : ConnID) (pc : WsPc) : ScanRelay :=
  { s with handler := Function.update s.handler k pc }

def setProbe (s : ScanRelay) (k : ConnID) (pc : ProbePc) : ScanRelay :=
  { s with probe := Function.update s.probe k pc }

def writeJSON (s : ScanRelay) (k : ConnID) (msg : WsReply) : ScanRelay :=
  { s with outbox := Function.update s.outbox k (s.outbox k ++ [msg]) }

def send (s : ScanRelay) (k : ConnID) (msg : WsMessage) : ScanRelay :=
  { s with inbox := Function.update s.inbox k (s.inbox k ++ [msg]) }

def markChannelActivity (s : ScanRelay) (channel : ChannelName) : ScanRelay :=
  if p.normalizeChannelName channel = "" then s
  else
    { s with channelActivity :=
        Function.update s.channelActivity (p.normalizeChannelName channel) (some s.hub.clock) }

/-- The channel that `routePacket` pushes the packet to. -/
def audioChannel (s : RelayHub) (pkt : AudioPacket) : Option ChannelName :=
  if s.Calling .reader then none
  else
    match s.clients pkt.sessionID with
    | none => none
    | some k =>
      if pkt.opus.isEmpty ∨ p.normalizeChannelName (s.client k).channel = "" then none
      else some (p.normalizeChannelName (s.client k).channel)

/-- `routePacket` has no message behind it; the other steps of the hub that are taken here are those
of the mixers, of the goroutines of a catch-up, and of the handlers between two messages. -/
def hubStep (s : ScanRelay) (a : HubAction) : ScanRelay :=
  let s' := { s with hub := s.hub.step a }
  match a with
  | .setChannel _ _ | .udpHello _ _ | .repeaterMode _ _ => s
  | .removeClient k => if s.handler k = .reading ∨ s.handler k = .returning then s' else s
  | .routePacket pkt =>
    match audioChannel p s.hub pkt with
    | none => s'
    | some channelName => s'.markChannelActivity p channelName
  | _ => s'

/-- `wsHandler` after it has read its first message. -/
def readFirst (s : ScanRelay) (k : ConnID) (initial : WsMessage) : ScanRelay :=
  let initialType := RelayConfig.lowerTrimmed initial.type
  if initialType = "has_activity" then
    s.setHandler k (.lookUp (p.normalizeChannelName initial.channel))
  else if initialType ≠ "" ∧ initialType ≠ "join" then
    (s.writeJSON k (.error "first message must bind channel")).setHandler k .returning
  else
    let initialChannel := p.normalizeChannelName initial.channel
    if initialChannel = "" then
      (s.writeJSON k (.error "channel is required in first message")).setHandler k .returning
    else
      { s with hub := s.hub.step (.setChannel k initialChannel) }.setHandler k .joining

/-- `wsHandler` after it has read another message. -/
def readNext (s : ScanRelay) (k : ConnID) (msg : WsMessage) : ScanRelay :=
  match String.ofList (msg.type.toList.map RelayConfig.toLower) with
  | "join" | "switch_channel" =>
    s.writeJSON k (.error "channel switch is disabled, reconnect with new channel")
  | "udp_hello" =>
    let addr : UDPAddr := ⟨p.host k, msg.udpPort⟩
    if 0 < msg.udpPort ∧ msg.udpPort ≤ 65535 then
      { s with hub := s.hub.step (.udpHello k addr) }.setHandler k (.udpHello addr)
    else s
  | "ping" | "heartbeat" => s.writeJSON k .pong
  | "repeater_mode" =>
    let enabled := msg.repeaterEnabled.getD false
    { s with hub := s.hub.step (.repeaterMode k enabled) }.writeJSON k (.repeaterMode enabled)
  | "has_activity" => s.setHandler k (.lookUp (p.normalizeChannelName msg.channel))
  | _ => s.writeJSON k (.error "unknown message type")

def read (s : ScanRelay) (k : ConnID) : ScanRelay :=
  if s.handler k = .reading then
    match s.inbox k with
    | [] => s
    | msg :: msgs =>
      let s' := { s with inbox := Function.update s.inbox k msgs }
      if (s.hub.client k).pc = .registered then s'.readFirst p k msg
      else if s.hub.Waiting k then s'.readNext p k msg
      else s
  else s

/-- The locked part of `channelHasRecentActivity`. -/
def lookUp (s : ScanRelay) (k : ConnID) : ScanRelay :=
  match s.handler k with
  | .lookUp channel =>
    let name := p.normalizeChannelName channel
    s.setHandler k (.lookedUp channel (if name = "" then none else s.channelActivity name))
  | _ => s

/-- The rest of `channelHasRecentActivity`, and the answer. -/
def answer (s : ScanRelay) (k : ConnID) : ScanRelay :=
  match s.handler k with
  | .lookedUp channel lastAt =>
    let active := lastAt.any fun t => decide (s.hub.clock - t ≤ scanActivityWindow)
    (s.writeJSON k (.hasActivity channel active)).setHandler k
      (if (s.hub.client k).pc = .registered then .returning else .reading)
  | _ => s

/-- `checkChannelActivity` after it has read a message. -/
def probeRead (s : ScanRelay) (k : ConnID) : ScanRelay :=
  match s.outbox k with
  | [] => s
  | msg :: msgs =>
    let s' := { s with outbox := Function.update s.outbox k msgs }
    match s.probe k, msg with
    | .awaitWelcome, .welcome _ => s'.setProbe k .ask
    | .awaitWelcome, _ => s'.setProbe k .network
    | .awaitAnswer, .hasActivity _ active => s'.setProbe k (.ok active)
    | .awaitAnswer, _ => s'
    | _, _ => s

def step (s : ScanRelay) : ScanAction → ScanRelay
  | .hub a => s.hubStep p a
  | .welcome k =>
    if s.handler k = .welcome ∧ (s.hub.client k).pc = .registered then
      (s.writeJSON k (.welcome (s.hub.client k).sessionID)).setHandler k .reading
    else s
  | .read k => s.read p k
  | .joined k =>
    if s.handler k = .joining ∧ (s.hub.client k).pc = .joined then
      (s.writeJSON k (.joined (s.hub.client k).channel)).setHandler k .reading
    else s
  | .udpRegistered k =>
    match s.handler k with
    | .udpHello addr =>
      if s.hub.Waiting k then (s.writeJSON k (.udpRegistered addr)).setHandler k .reading else s
    | _ => s
  | .lookUp k => s.lookUp p k
  | .answer k => s.answer k
  | .broadcast k msg => s.writeJSON k (.channelState msg)
  | .clientSend k msg => if p.probe k = none then s.send k msg else s
  | .probeRead k => if p.probe k = none then s else s.probeRead k
  | .probeWrite k =>
    match p.probe k, s.probe k with
    | some channel, .ask =>
      (s.send k (buildHasActivity (probeChannel channel))).setProbe k .awaitAnswer
    | _, _ => s
  | .probeFail k =>
    match s.probe k with
    | .ok _ => s
    | _ => s.setProbe k .network

end ScanRelay

/-- Only `elapse` moves the clock. -/
theorem RelayHub.clock_step (hub : RelayHub) {a : HubAction}
    (ha : ∀ dt seconds, a ≠ .elapse dt seconds) : (hub.step a).clock = hub.clock := by
  cases a with
  | elapse dt seconds => exact absurd rfl (ha dt seconds)
  | routePacket pkt =>
    simp only [RelayHub.step, RelayHub.routePacket, RelayHub.startCatchUp]
    repeat' split
    all_goals rfl
  | takeSnapshot call =>
    obtain ⟨calls, hcalls⟩ := hub.takeSnapshot_eq call
    simp only [RelayHub.step, hcalls]
    split_ifs <;> rfl
  | _ =>
    simp only [RelayHub.step, RelayHub.addParticipant, RelayHub.udpHello, RelayHub.removeClient,
      RelayHub.removeParticipant, RelayHub.startCatchUp]
    repeat' split
    all_goals rfl

theorem RelayHub.clock_le_step (hub : RelayHub) (a : HubAction) :
    hub.clock ≤ (hub.step a).clock := by
  by_cases ha : ∃ dt seconds, a = .elapse dt seconds
  · obtain ⟨dt, seconds, rfl⟩ := ha
    exact le_add_of_nonneg_right dt.cast_nonneg
  · rw [hub.clock_step fun dt seconds heq => ha ⟨dt, seconds, heq⟩]

namespace ScanRelay

variable (p : Peers)

/-! ## What a step does to a connection -/

section frames

variable {s : ScanRelay} {k : ConnID} {a : ScanAction}

theorem hubStep_conn (s : ScanRelay) (a : HubAction) :
    (s.hubStep p a).handler = s.handler ∧ (s.hubStep p a).inbox = s.inbox ∧
      (s.hubStep p a).outbox = s.outbox ∧ (s.hubStep p a).probe = s.probe := by
  cases a with
  | removeClient k =>
    simp only [hubStep]
    split_ifs <;> exact ⟨rfl, rfl, rfl, rfl⟩
  | routePacket pkt =>
    simp only [hubStep, markChannelActivity]
    split
    · exact ⟨rfl, rfl, rfl, rfl⟩
    · split_ifs <;> exact ⟨rfl, rfl, rfl, rfl⟩
  | _ => exact ⟨rfl, rfl, rfl, rfl⟩

/-- A step leaves every connection alone that it is no part of. -/
theorem step_other (h : a.conn ≠ some k) :
    (s.step p a).handler k = s.handler k ∧ (s.step p a).inbox k = s.inbox k ∧
      (s.step p a).outbox k = s.outbox k ∧ (s.step p a).probe k = s.probe k := by
  cases a with
  | hub a =>
    obtain ⟨hhandler, hinbox, houtbox, hprobe⟩ := s.hubStep_conn p a
    exact ⟨congrFun hhandler k, congrFun hinbox k, congrFun houtbox k, congrFun hprobe k⟩
  | _ k' =>
    have hk : k ≠ k' := fun hk => h (by rw [hk]; rfl)
    simp only [step, read, readFirst, readNext, lookUp, answer, probeRead]
    repeat' split
    all_goals simp [setHandler, setProbe, writeJSON, send, Function.update_of_ne hk]

/-- What the hub may do when no message of a client has asked for it. -/
def Unasked (s : ScanRelay) : HubAction → Prop
  | .setChannel _ _ | .udpHello _ _ | .repeaterMode _ _ => False
  | .removeClient k => s.handler k = .reading ∨ s.handler k = .returning
  | _ => True

theorem hubStep_hub (s : ScanRelay) (a : HubAction) :
    (s.hubStep p a).hub = s.hub ∨ s.Unasked a ∧ (s.hubStep p a).hub = s.hub.step a := by
  cases a with
  | setChannel | udpHello | repeaterMode => exact Or.inl rfl
  | removeClient k =>
    simp only [hubStep]
    split_ifs with h
    · exact Or.inr ⟨h, rfl⟩
    · exact Or.inl rfl
  | routePacket pkt =>
    refine Or.inr ⟨trivial, ?_⟩
    simp only [hubStep, markChannelActivity]
    split
    · rfl
    · split_ifs <;> rfl
  | _ => exact Or.inr ⟨trivial, rfl⟩

/-- What the hub does for a message of another connection. -/
theorem message_of_ne {hub : RelayHub} {k' : ConnID} {b : HubAction} (hk : k ≠ k')
    (hb : (∃ ch, b = .setChannel k' ch) ∨ (∃ addr, b = .udpHello k' addr) ∨
      ∃ enabled, b = .repeaterMode k' enabled) :
    (hub.step b).client k = hub.client k := by
  have hstep := hub.clientStep b k
  generalize (hub.step b).client k = c at hstep
  rcases hb with ⟨x, rfl⟩ | ⟨x, rfl⟩ | ⟨x, rfl⟩ <;> cases hstep <;> first | rfl | exact absurd rfl hk

/-- The client of a connection that a step is no part of: nothing changes it but the hub. -/
theorem client_other (h : a.conn ≠ some k) :
    ((s.step p a).hub.client k) = s.hub.client k ∨
      ∃ b, s.Unasked b ∧ (s.hub.step b).client k = (s.step p a).hub.client k := by
  cases a with
  | hub b =>
    rcases s.hubStep_hub p b with hb | ⟨hasked, hb⟩
    · exact Or.inl (congrArg (fun hub => hub.client k) hb)
    · exact Or.inr ⟨b, hasked, (congrArg (fun hub => hub.client k) hb).symm⟩
  | read k' =>
    have hk : k ≠ k' := fun hk => h (by rw [hk]; rfl)
    refine Or.inl ?_
    simp only [step, read, readFirst, readNext]
    repeat' split
    all_goals first
      | rfl
      | exact message_of_ne hk (Or.inl ⟨_, rfl⟩)
      | exact message_of_ne hk (Or.inr (Or.inl ⟨_, rfl⟩))
      | exact message_of_ne hk (Or.inr (Or.inr ⟨_, rfl⟩))
  | _ k' =>
    refine Or.inl ?_
    simp only [step, lookUp, answer, probeRead]
    repeat' split
    all_goals rfl

end frames

end ScanRelay

end OWalkie
