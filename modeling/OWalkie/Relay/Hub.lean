import Mathlib.Data.Finset.Insert
import Mathlib.Tactic
import OWalkie.Lib.Run
import OWalkie.Relay.Basic

/-!
# The hub of the relay

`relayHub` with one WebSocket handler per connection, the UDP reader, and the latest mixed frame of
every channel.  A connection is its own `client`; the hub knows it by the id that `nextSessionID`
drew for it.  `sendLatestFrameToParticipant` is a call of its own, which the handler, the UDP reader
or a goroutine of `addParticipant` makes: it takes the latest frame first and looks the client up
later.  An action that its goroutine cannot take leaves the state as it is.
-/

namespace OWalkie

/-- A channel name as `normalizeChannelName` leaves it; `""` is no channel. -/
abbrev ChannelName := String

/-- One WebSocket connection. -/
abbrev ConnID := ℕ

def udpKeepaliveSignal : UInt8 := 255

def mixerCatchupFrameMaxAge : ℤ := 500 * millisecond

/-- `nextSessionID`, for the Unix time and the counter that it has read. -/
def nextSessionID (unix count : ℕ) : SessionID := (unix &&& 0xFFFF) <<< 16 ||| (count &&& 0xFFFF)

def AudioPacket.isUDPEOFMarker (pkt : AudioPacket) : Bool :=
  pkt.opus.isEmpty && pkt.signalStrength == 0 && decide (0 < pkt.seq)

/-- The keepalive punch of `routePacket`. -/
def AudioPacket.isKeepalivePunch (pkt : AudioPacket) : Bool :=
  !pkt.isUDPEOFMarker && pkt.opus.isEmpty && pkt.seq == 0 &&
    pkt.signalStrength == udpKeepaliveSignal

/-! ## The state -/

/-- Where the handler of a connection stands: the two readings of `nextSessionID`, `addClient`,
`setChannel` and `addParticipant`, and the parts of `removeClient`. -/
inductive ConnPc where
  | accepted
  | clockRead
  | drawn
  | registered
  | bound
  | joined
  | unregistered
  | leaving (channels : List ChannelName)
  | gone
  deriving DecidableEq

namespace ConnPc

/-- `nextSessionID` has returned. -/
def hasID : ConnPc → Bool
  | accepted | clockRead => false
  | _ => true

/-- Between `addClient` and `removeClient`. -/
def live : ConnPc → Bool
  | registered | bound | joined => true
  | _ => false

end ConnPc

structure Client where
  pc : ConnPc := .accepted
  /-- the Unix time that `nextSessionID` read -/
  unix : ℕ := 0
  /-- the counter that `nextSessionID` read -/
  count : ℕ := 0
  channel : ChannelName := ""
  udpAddr : Option UDPAddr := none
  repeater : Bool := false

def Client.sessionID (c : Client) : SessionID := nextSessionID c.unix c.count

/-- Who makes a call of `sendLatestFrameToParticipant`. -/
inductive Caller where
  | reader
  | handler (k : ConnID)
  | participant
  deriving DecidableEq

/-- A call of `sendLatestFrameToParticipant` that has not returned; `frame` is the payload and the
excluded session of `latestFrameSnapshot`. -/
structure CatchUp where
  caller : Caller
  channel : ChannelName
  sessionID : SessionID
  frame : Option (List UInt8 × SessionID) := none
  deriving DecidableEq

/-- What `rememberLatestFrame` keeps of a mixed frame. -/
structure LatestFrame where
  payload : List UInt8
  lastFrameAt : ℤ
  excludedSession : SessionID

structure RelayHub where
  clock : ℤ := 0
  /-- `time.Now().Unix()` -/
  unix : ℕ
  seq : ℕ := 0
  clients : SessionID → Option ConnID := fun _ => none
  client : ConnID → Client := fun _ => {}
  channels : List ChannelName := []
  participants : ChannelName → Finset SessionID := fun _ => ∅
  lastFrame : ChannelName → Option LatestFrame := fun _ => none
  catchUps : List CatchUp := []

inductive HubAction where
  /-- the monotonic clock and the wall clock go on -/
  | elapse (dt seconds : ℕ)
  | readClock (k : ConnID)
  | drawCount (k : ConnID)
  | addClient (k : ConnID)
  | setChannel (k : ConnID) (ch : ChannelName)
  | addParticipant (k : ConnID)
  | udpHello (k : ConnID) (addr : UDPAddr)
  | repeaterMode (k : ConnID) (enabled : Bool)
  | removeClient (k : ConnID)
  /-- `removeClient` copies the channels, in map order -/
  | copyChannels (k : ConnID) (order : List ChannelName)
  | removeParticipant (k : ConnID)
  | routePacket (pkt : AudioPacket)
  /-- the mixer of the channel remembers a frame -/
  | rememberLatestFrame (ch : ChannelName) (payload : List UInt8) (exclude : SessionID)
  /-- the mixer of the channel is started again -/
  | resetLatestFrame (ch : ChannelName)
  | takeSnapshot (call : CatchUp)
  | sendToClient (call : CatchUp)

/-! ## The steps -/

namespace RelayHub

def new (unix : ℕ) : RelayHub where
  unix := unix

def setClient (s : RelayHub) (k : ConnID) (c : Client) : RelayHub :=
  { s with client := Function.update s.client k c }

/-- The goroutine is inside `sendLatestFrameToParticipant`. -/
def Calling (s : RelayHub) (caller : Caller) : Prop :=
  ∃ call ∈ s.catchUps, call.caller = caller

instance (s : RelayHub) (caller : Caller) : Decidable (s.Calling caller) := by
  unfold Calling
  infer_instance

/-- The handler waits for the next message of its client. -/
def Waiting (s : RelayHub) (k : ConnID) : Prop :=
  (s.client k).pc = .joined ∧ ¬ s.Calling (.handler k)

instance (s : RelayHub) (k : ConnID) : Decidable (s.Waiting k) :=
  inferInstanceAs (Decidable (_ ∧ _))

/-- `getOrCreateChannel(ch).sendLatestFrameToParticipant(sid)`, unless there is no channel. -/
def startCatchUp (s : RelayHub) (caller : Caller) (ch : ChannelName) (sid : SessionID) :
    RelayHub :=
  if ch = "" then s
  else
    { s with
      channels := if ch ∈ s.channels then s.channels else ch :: s.channels
      catchUps := ⟨caller, ch, sid, none⟩ :: s.catchUps }

def addParticipant (s : RelayHub) (k : ConnID) : RelayHub :=
  let c := s.client k
  { s with
    participants :=
      Function.update s.participants c.channel (insert c.sessionID (s.participants c.channel)) }
    |>.startCatchUp .participant c.channel c.sessionID
    |>.setClient k { c with pc := .joined }

def udpHello (s : RelayHub) (k : ConnID) (addr : UDPAddr) : RelayHub :=
  let c := s.client k
  s.setClient k { c with udpAddr := some addr } |>.startCatchUp (.handler k) c.channel c.sessionID

def removeClient (s : RelayHub) (k : ConnID) : RelayHub :=
  let c := s.client k
  match s.clients c.sessionID with
  | some _ =>
    { s with clients := Function.update s.clients c.sessionID none }.setClient k
      { c with pc := .unregistered }
  | none => s.setClient k { c with pc := .gone }

def removeParticipant (s : RelayHub) (k : ConnID) : RelayHub :=
  let c := s.client k
  match c.pc with
  | .leaving [] => s.setClient k { c with pc := .gone }
  | .leaving (ch :: channels) =>
    { s with
      participants := Function.update s.participants ch ((s.participants ch).erase c.sessionID) }
      |>.setClient k { c with pc := .leaving channels }
  | _ => s

/-- The marker of the end of a transmission and the audio go on to the channel's mixer. -/
def routePacket (s : RelayHub) (pkt : AudioPacket) : RelayHub :=
  match s.clients pkt.sessionID with
  | none => s
  | some k =>
    let c := s.client k
    let s := s.setClient k { c with udpAddr := some pkt.srcAddr }
    if pkt.isKeepalivePunch then s.startCatchUp .reader c.channel pkt.sessionID else s

def latestFrameSnapshot (s : RelayHub) (maxAge : ℤ) (ch : ChannelName) :
    Option (List UInt8 × SessionID) :=
  match s.lastFrame ch with
  | none => none
  | some f =>
    if f.payload = [] ∨ 0 < maxAge ∧ maxAge < s.clock - f.lastFrameAt then none
    else some (f.payload, f.excludedSession)

/-- The first part of `sendLatestFrameToParticipant`. -/
def takeSnapshot (s : RelayHub) (call : CatchUp) : RelayHub :=
  let s' := { s with catchUps := s.catchUps.erase call }
  match s.latestFrameSnapshot mixerCatchupFrameMaxAge call.channel with
  | none => s'
  | some (payload, excluded) =>
    if excluded ≠ 0 ∧ excluded = call.sessionID then s'
    else { s' with catchUps := { call with frame := some (payload, excluded) } :: s'.catchUps }

/-- What `sendToClient` writes, and to whom. -/
def sent (s : RelayHub) (call : CatchUp) : Option (ConnID × UDPAddr × List UInt8) :=
  match call.frame, s.clients call.sessionID with
  | some (payload, _), some k => (s.client k).udpAddr.map fun addr => (k, addr, payload)
  | _, _ => none

/-- What `broadcastMixed` writes to the connection: the hub's map holds it, and it passes the tests
of the loop. -/
def broadcastMixed (s : RelayHub) (channel : ChannelName) (excludeSession : SessionID)
    (payload : List UInt8) (k : ConnID) : Option (UDPAddr × List UInt8) :=
  let c := s.client k
  if s.clients c.sessionID ≠ some k then none
  else if c.channel ≠ channel then none
  else if excludeSession ≠ 0 ∧ c.sessionID = excludeSession then none
  else if c.repeater then none
  else c.udpAddr.map fun addr => (addr, payload)

def step (s : RelayHub) : HubAction → RelayHub
  | .elapse dt seconds => { s with clock := s.clock + dt, unix := s.unix + seconds }
  | .readClock k =>
    if (s.client k).pc = .accepted then
      s.setClient k { s.client k with pc := .clockRead, unix := s.unix }
    else s
  | .drawCount k =>
    if (s.client k).pc = .clockRead then
      { s with seq := u32 (s.seq + 1) }.setClient k
        { s.client k with pc := .drawn, count := u32 (s.seq + 1) }
    else s
  | .addClient k =>
    if (s.client k).pc = .drawn then
      { s with clients := Function.update s.clients (s.client k).sessionID (some k) }.setClient k
        { s.client k with pc := .registered }
    else s
  | .setChannel k ch =>
    if (s.client k).pc = .registered ∧ ch ≠ "" then
      s.setClient k { s.client k with pc := .bound, channel := ch }
    else s
  | .addParticipant k => if (s.client k).pc = .bound then s.addParticipant k else s
  | .udpHello k addr =>
    if s.Waiting k ∧ 0 < addr.port ∧ addr.port ≤ 65535 then s.udpHello k addr else s
  | .repeaterMode k enabled =>
    if s.Waiting k then s.setClient k { s.client k with repeater := enabled } else s
  | .removeClient k =>
    if (s.client k).pc = .registered ∨ s.Waiting k then s.removeClient k else s
  | .copyChannels k order =>
    if (s.client k).pc = .unregistered ∧ order.Perm s.channels then
      s.setClient k { s.client k with pc := .leaving order }
    else s
  | .removeParticipant k => s.removeParticipant k
  | .routePacket pkt => if s.Calling .reader then s else s.routePacket pkt
  | .rememberLatestFrame ch payload exclude =>
    if payload = [] then s
    else
      { s with lastFrame := Function.update s.lastFrame ch (some ⟨payload, s.clock, exclude⟩) }
  | .resetLatestFrame ch => { s with lastFrame := Function.update s.lastFrame ch none }
  | .takeSnapshot call =>
    if call ∈ s.catchUps ∧ call.frame = none then s.takeSnapshot call else s
  | .sendToClient call =>
    if call ∈ s.catchUps ∧ call.frame ≠ none then
      { s with catchUps := s.catchUps.erase call }
    else s

/-! ## What a step does to one client -/

section frames

variable (s : RelayHub) (k : ConnID)

@[simp] theorem setClient_self (c : Client) : (s.setClient k c).client k = c :=
  Function.update_self _ _ _

theorem setClient_of_ne {k k' : ConnID} (c : Client) (h : k ≠ k') :
    (s.setClient k' c).client k = s.client k := Function.update_of_ne h _ _

@[simp] theorem setClient_clients (c : Client) : (s.setClient k c).clients = s.clients := rfl

@[simp] theorem setClient_participants (c : Client) :
    (s.setClient k c).participants = s.participants := rfl

@[simp] theorem setClient_channels (c : Client) : (s.setClient k c).channels = s.channels := rfl

@[simp] theorem setClient_catchUps (c : Client) : (s.setClient k c).catchUps = s.catchUps := rfl

variable (caller : Caller) (ch : ChannelName) (sid : SessionID)

@[simp] theorem startCatchUp_client : (s.startCatchUp caller ch sid).client = s.client := by
  unfold startCatchUp
  split_ifs <;> rfl

@[simp] theorem startCatchUp_clients : (s.startCatchUp caller ch sid).clients = s.clients := by
  unfold startCatchUp
  split_ifs <;> rfl

@[simp] theorem startCatchUp_participants :
    (s.startCatchUp caller ch sid).participants = s.participants := by
  unfold startCatchUp
  split_ifs <;> rfl

theorem startCatchUp_maps : (s.startCatchUp caller ch sid).clients = s.clients ∧
    (s.startCatchUp caller ch sid).participants = s.participants ∧
      s.channels ⊆ (s.startCatchUp caller ch sid).channels := by
  refine ⟨startCatchUp_clients _ _ _ _, startCatchUp_participants _ _ _ _, ?_⟩
  unfold startCatchUp
  split_ifs
  · exact List.Subset.refl _
  · exact List.Subset.refl _
  · exact List.subset_cons_self _ _

theorem mem_startCatchUp {call : CatchUp} (h : call ∈ (s.startCatchUp caller ch sid).catchUps) :
    call = ⟨caller, ch, sid, none⟩ ∨ call ∈ s.catchUps := by
  unfold startCatchUp at h
  by_cases hch : ch = ""
  · rw [if_pos hch] at h
    exact Or.inr h
  · rw [if_neg hch] at h
    exact List.mem_cons.1 h

theorem takeSnapshot_eq (call : CatchUp) :
    ∃ calls, s.takeSnapshot call = { s with catchUps := calls } := by
  unfold takeSnapshot
  split
  · exact ⟨_, rfl⟩
  · dsimp only
    split_ifs <;> exact ⟨_, rfl⟩

end frames

/-- The step does nothing to the client of the connection. -/
def Skips (s : RelayHub) (k : ConnID) : HubAction → Prop
  | .readClock k' => k' = k → (s.client k).pc ≠ .accepted
  | .drawCount k' => k' = k → (s.client k).pc ≠ .clockRead
  | .addClient k' => k' = k → (s.client k).pc ≠ .drawn
  | .setChannel k' ch => k' = k → ¬ ((s.client k).pc = .registered ∧ ch ≠ "")
  | .addParticipant k' => k' = k → (s.client k).pc ≠ .bound
  | .udpHello k' addr => k' = k → ¬ (s.Waiting k ∧ 0 < addr.port ∧ addr.port ≤ 65535)
  | .repeaterMode k' _ => k' = k → ¬ s.Waiting k
  | .removeClient k' => k' = k → ¬ ((s.client k).pc = .registered ∨ s.Waiting k)
  | .copyChannels k' order => k' = k →
      ¬ ((s.client k).pc = .unregistered ∧ order.Perm s.channels)
  | .removeParticipant k' => k' = k → ∀ channels, (s.client k).pc ≠ .leaving channels
  | .routePacket pkt => ¬ s.Calling .reader → s.clients pkt.sessionID ≠ some k
  | _ => True

/-- The client of the connection after a step. -/
inductive ClientStep (s : RelayHub) (k : ConnID) : HubAction → Client → Prop
  | readClock (h : (s.client k).pc = .accepted) :
    ClientStep s k (.readClock k) { s.client k with pc := .clockRead, unix := s.unix }
  | drawCount (h : (s.client k).pc = .clockRead) :
    ClientStep s k (.drawCount k) { s.client k with pc := .drawn, count := u32 (s.seq + 1) }
  | addClient (h : (s.client k).pc = .drawn) :
    ClientStep s k (.addClient k) { s.client k with pc := .registered }
  | setChannel (ch : ChannelName) (h : (s.client k).pc = .registered) (hch : ch ≠ "") :
    ClientStep s k (.setChannel k ch) { s.client k with pc := .bound, channel := ch }
  | addParticipant (h : (s.client k).pc = .bound) :
    ClientStep s k (.addParticipant k) { s.client k with pc := .joined }
  | udpHello (addr : UDPAddr) (h : s.Waiting k) (hport : 0 < addr.port ∧ addr.port ≤ 65535) :
    ClientStep s k (.udpHello k addr) { s.client k with udpAddr := some addr }
  | repeaterMode (enabled : Bool) (h : s.Waiting k) :
    ClientStep s k (.repeaterMode k enabled) { s.client k with repeater := enabled }
  | unregister (h : (s.client k).pc = .registered ∨ s.Waiting k)
    (hfound : s.clients (s.client k).sessionID ≠ none) :
    ClientStep s k (.removeClient k) { s.client k with pc := .unregistered }
  | missing (h : (s.client k).pc = .registered ∨ s.Waiting k)
    (hfound : s.clients (s.client k).sessionID = none) :
    ClientStep s k (.removeClient k) { s.client k with pc := .gone }
  | copyChannels (order : List ChannelName) (h : (s.client k).pc = .unregistered)
    (horder : order.Perm s.channels) :
    ClientStep s k (.copyChannels k order) { s.client k with pc := .leaving order }
  | removeParticipant (ch : ChannelName) (channels : List ChannelName)
    (h : (s.client k).pc = .leaving (ch :: channels)) :
    ClientStep s k (.removeParticipant k) { s.client k with pc := .leaving channels }
  | removed (h : (s.client k).pc = .leaving []) :
    ClientStep s k (.removeParticipant k) { s.client k with pc := .gone }
  | routePacket (pkt : AudioPacket) (hreader : ¬ s.Calling .reader)
    (h : s.clients pkt.sessionID = some k) :
    ClientStep s k (.routePacket pkt) { s.client k with udpAddr := some pkt.srcAddr }
  | same (a : HubAction) (h : s.Skips k a) : ClientStep s k a (s.client k)

/-- A step that replaces one client. -/
theorem ClientStep.of_setClient {s s' : RelayHub} {k k' : ConnID} {c : Client} {a : HubAction}
    (hs : s'.client = s.client) (hself : ClientStep s k' a c)
    (hother : k' ≠ k → s.Skips k a) :
    ClientStep s k a ((s'.setClient k' c).client k) := by
  by_cases hk : k = k'
  · subst hk
    rwa [setClient_self]
  · rw [setClient_of_ne _ _ hk, hs]
    exact .same a (hother (Ne.symm hk))

theorem clientStep (s : RelayHub) (a : HubAction) (k : ConnID) :
    ClientStep s k a ((step s a).client k) := by
  cases a with
  | elapse dt seconds => exact .same _ trivial
  | rememberLatestFrame ch payload exclude =>
    simp only [step]
    split_ifs <;> exact .same _ trivial
  | resetLatestFrame ch => exact .same _ trivial
  | readClock k' =>
    simp only [step]
    split_ifs with h
    · exact .of_setClient rfl (.readClock h) fun hk he => absurd he hk
    · exact .same _ fun hk => hk ▸ h
  | drawCount k' =>
    simp only [step]
    split_ifs with h
    · exact .of_setClient rfl (.drawCount h) fun hk he => absurd he hk
    · exact .same _ fun hk => hk ▸ h
  | addClient k' =>
    simp only [step]
    split_ifs with h
    · exact .of_setClient rfl (.addClient h) fun hk he => absurd he hk
    · exact .same _ fun hk => hk ▸ h
  | setChannel k' ch =>
    simp only [step]
    split_ifs with h
    · exact .of_setClient rfl (.setChannel ch h.1 h.2) fun hk he => absurd he hk
    · exact .same _ fun hk => hk ▸ h
  | addParticipant k' =>
    simp only [step, addParticipant]
    split_ifs with h
    · exact .of_setClient (startCatchUp_client _ _ _ _) (.addParticipant h)
        fun hk he => absurd he hk
    · exact .same _ fun hk => hk ▸ h
  | udpHello k' addr =>
    simp only [step, udpHello]
    split_ifs with h
    · rw [startCatchUp_client]
      exact .of_setClient rfl (.udpHello addr h.1 h.2) fun hk he => absurd he hk
    · exact .same _ fun hk => hk ▸ h
  | repeaterMode k' enabled =>
    simp only [step]
    split_ifs with h
    · exact .of_setClient rfl (.repeaterMode enabled h) fun hk he => absurd he hk
    · exact .same _ fun hk => hk ▸ h
  | removeClient k' =>
    simp only [step, removeClient]
    split_ifs with h
    · cases hfound : s.clients (s.client k').sessionID with
      | some j =>
        exact .of_setClient rfl (.unregister h (by simp [hfound])) fun hk he => absurd he hk
      | none => exact .of_setClient rfl (.missing h hfound) fun hk he => absurd he hk
    · exact .same _ fun hk => hk ▸ h
  | copyChannels k' order =>
    simp only [step]
    split_ifs with h
    · exact .of_setClient rfl (.copyChannels order h.1 h.2) fun hk he => absurd he hk
    · exact .same _ fun hk => hk ▸ h
  | removeParticipant k' =>
    simp only [step, removeParticipant]
    split
    · next h => exact .of_setClient rfl (.removed h) fun hk he => absurd he hk
    · next ch channels h =>
      exact .of_setClient rfl (.removeParticipant ch channels h) fun hk he => absurd he hk
    · next hnil hcons =>
      refine .same _ ?_
      rintro rfl channels hpc
      cases channels with
      | nil => exact hnil hpc
      | cons ch channels => exact hcons ch channels hpc
  | routePacket pkt =>
    by_cases h : s.Calling .reader
    · simp only [step, if_pos h]
      exact .same _ fun hno => absurd h hno
    · simp only [step, if_neg h, routePacket]
      cases hfound : s.clients pkt.sessionID with
      | none => exact .same _ (by simp [Skips, hfound])
      | some j =>
        have hclient : ClientStep s k (.routePacket pkt) ((s.setClient j
            { s.client j with udpAddr := some pkt.srcAddr }).client k) := by
          refine .of_setClient rfl (.routePacket pkt h hfound) fun hk _ => ?_
          simpa [hfound] using hk
        dsimp only
        split_ifs
        · rwa [startCatchUp_client]
        · exact hclient
  | takeSnapshot call =>
    simp only [step]
    split_ifs
    · obtain ⟨calls, hcalls⟩ := s.takeSnapshot_eq call
      rw [hcalls]
      exact .same _ trivial
    · exact .same _ trivial
  | sendToClient call =>
    simp only [step]
    split_ifs <;> exact .same _ trivial

/-- An id that has been drawn is kept. -/
theorem sessionID_step {s : RelayHub} {k : ConnID} (a : HubAction)
    (h : (s.client k).pc.hasID = true) :
    ((step s a).client k).pc.hasID = true ∧
      ((step s a).client k).sessionID = (s.client k).sessionID := by
  have hstep := clientStep s a k
  generalize (step s a).client k = c at hstep ⊢
  cases hstep with
  | readClock hpc => simp [hpc, ConnPc.hasID] at h
  | drawCount hpc => simp [hpc, ConnPc.hasID] at h
  | udpHello | repeaterMode | routePacket | same => exact ⟨h, rfl⟩
  | _ => exact ⟨rfl, rfl⟩

/-! ## What a step does to the maps -/

/-- The handler of the connection gets to `removeClient`. -/
def Removes (s : RelayHub) (k : ConnID) (a : HubAction) : Prop :=
  a = .removeClient k ∧ ((s.client k).pc = .registered ∨ s.Waiting k)

/-- The hub's map after a step. -/
def nextClients (s : RelayHub) : HubAction → SessionID → Option ConnID
  | .addClient k =>
    if (s.client k).pc = .drawn then Function.update s.clients (s.client k).sessionID (some k)
    else s.clients
  | .removeClient k =>
    if (s.client k).pc = .registered ∨ s.Waiting k then
      Function.update s.clients (s.client k).sessionID none
    else s.clients
  | _ => s.clients

/-- Whom the map lists after a step it has listed before, or the step adds. -/
theorem nextClients_eq_some {s : RelayHub} {a : HubAction} {sid : SessionID} {k : ConnID}
    (h : s.nextClients a sid = some k) :
    s.clients sid = some k ∧ (∀ k', s.Removes k' a → (s.client k').sessionID ≠ sid) ∨
      a = .addClient k ∧ (s.client k).pc = .drawn ∧ (s.client k).sessionID = sid := by
  cases a with
  | addClient k' =>
    simp only [nextClients] at h
    split_ifs at h with hpc
    · rw [Function.update_apply] at h
      split_ifs at h with hsid
      · obtain rfl := Option.some.inj h
        exact Or.inr ⟨rfl, hpc, hsid.symm⟩
      · exact Or.inl ⟨h, nofun⟩
    · exact Or.inl ⟨h, nofun⟩
  | removeClient k' =>
    simp only [nextClients] at h
    split_ifs at h with hpc
    · rw [Function.update_apply] at h
      split_ifs at h with hsid
      refine Or.inl ⟨h, ?_⟩
      rintro k'' ⟨heq, -⟩
      obtain rfl := HubAction.removeClient.inj heq
      exact Ne.symm hsid
    · refine Or.inl ⟨h, ?_⟩
      rintro k'' ⟨heq, hpc'⟩
      obtain rfl := HubAction.removeClient.inj heq
      exact absurd hpc' hpc
  | _ => exact Or.inl ⟨h, nofun⟩

/-- The participants after a step. -/
def nextParticipants (s : RelayHub) : HubAction → ChannelName → Finset SessionID
  | .addParticipant k =>
    if (s.client k).pc = .bound then
      Function.update s.participants (s.client k).channel
        (insert (s.client k).sessionID (s.participants (s.client k).channel))
    else s.participants
  | .removeParticipant k =>
    match (s.client k).pc with
    | .leaving (ch :: _) =>
      Function.update s.participants ch ((s.participants ch).erase (s.client k).sessionID)
    | _ => s.participants
  | _ => s.participants

theorem removeClient_clients (s : RelayHub) (k : ConnID) :
    (s.removeClient k).clients = Function.update s.clients (s.client k).sessionID none := by
  simp only [removeClient]
  split
  · rfl
  · next hfound => exact (Function.update_eq_self_iff.2 hfound.symm).symm

theorem routePacket_maps (s : RelayHub) (pkt : AudioPacket) :
    (s.routePacket pkt).clients = s.clients ∧
      (s.routePacket pkt).participants = s.participants ∧
        s.channels ⊆ (s.routePacket pkt).channels := by
  unfold routePacket
  split
  · exact ⟨rfl, rfl, List.Subset.refl _⟩
  · dsimp only
    split_ifs
    · exact startCatchUp_maps _ _ _ _
    · exact ⟨rfl, rfl, List.Subset.refl _⟩

/-- Only `addClient` and `removeClient` change the hub's map, only `addParticipant` and
`removeParticipant` the participants, and no channel is ever removed. -/
theorem step_maps (s : RelayHub) (a : HubAction) :
    (step s a).clients = s.nextClients a ∧ (step s a).participants = s.nextParticipants a ∧
      s.channels ⊆ (step s a).channels := by
  cases a with
  | addClient k =>
    simp only [step, nextClients]
    split_ifs <;> exact ⟨rfl, rfl, List.Subset.refl _⟩
  | removeClient k =>
    simp only [step, nextClients]
    split_ifs
    · refine ⟨s.removeClient_clients k, ?_, ?_⟩ <;> simp only [removeClient] <;> split <;>
        first | rfl | exact List.Subset.refl _
    · exact ⟨rfl, rfl, List.Subset.refl _⟩
  | addParticipant k =>
    simp only [step, addParticipant, nextParticipants]
    split_ifs
    · rw [setClient_channels]
      exact startCatchUp_maps _ _ _ _
    · exact ⟨rfl, rfl, List.Subset.refl _⟩
  | removeParticipant k =>
    simp only [step, removeParticipant, nextParticipants]
    split
    · next h => exact ⟨rfl, by simp [h], List.Subset.refl _⟩
    · next ch channels h => exact ⟨rfl, by simp [h], List.Subset.refl _⟩
    · next hnil hcons =>
      refine ⟨rfl, ?_, List.Subset.refl _⟩
      split
      · next ch channels h => exact absurd h (hcons ch channels)
      · rfl
  | elapse dt seconds => exact ⟨rfl, rfl, List.Subset.refl _⟩
  | resetLatestFrame ch => exact ⟨rfl, rfl, List.Subset.refl _⟩
  | rememberLatestFrame ch payload exclude | readClock k | drawCount k | setChannel k ch
    | repeaterMode k enabled | copyChannels k order | sendToClient call =>
    simp only [step]
    split_ifs <;> exact ⟨rfl, rfl, List.Subset.refl _⟩
  | udpHello k addr =>
    simp only [step, udpHello]
    split_ifs
    · exact startCatchUp_maps _ _ _ _
    · exact ⟨rfl, rfl, List.Subset.refl _⟩
  | routePacket pkt =>
    simp only [step]
    by_cases h : s.Calling .reader
    · rw [if_pos h]
      exact ⟨rfl, rfl, List.Subset.refl _⟩
    · rw [if_neg h]
      exact s.routePacket_maps pkt
  | takeSnapshot call =>
    simp only [step]
    split_ifs
    · obtain ⟨calls, hcalls⟩ := s.takeSnapshot_eq call
      rw [hcalls]
      exact ⟨rfl, rfl, List.Subset.refl _⟩
    · exact ⟨rfl, rfl, List.Subset.refl _⟩

/-! ## The first connection -/

/-- Connection 1 is the first that the relay accepts, and it joins a channel. -/
def firstJoins : List HubAction :=
  [.readClock 1, .drawCount 1, .addClient 1, .setChannel 1 "main", .addParticipant 1]

/-- A keepalive punch of that connection, from the port that a NAT has given it. -/
def firstPunch : AudioPacket where
  sessionID := nextSessionID 0 1
  seq := 0
  signalStrength := udpKeepaliveSignal
  opus := []
  srcAddr := ⟨7, 40001⟩

end RelayHub

end OWalkie
