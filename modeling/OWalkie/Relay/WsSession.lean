import OWalkie.Lib.Run
import OWalkie.Relay.Basic

/-!
# The receive session and PTT lock of a channel

One channel with its mixer goroutine, the UDP reader and one WebSocket handler per client.  The
flags under `rxWsMu` change in one step; the messages decided there are written later, one client at
a time, and may interleave with the steps of the other goroutines.  A broadcast takes its list of
clients when it begins and looks at the channel of each when it comes to it.  An action that its
goroutine cannot take leaves the state as it is.
-/

namespace OWalkie

/-! ## The state under `rxWsMu` -/

structure RxWsState where
  rxOutSessionActive : Bool := false
  rxLastOutboundAt : Option ℤ := none
  pttLockServerActive : Bool := false
  lastPttLockDisplaySec : ℤ := 0
  deriving DecidableEq, Repr

namespace RxWsState

def resetRxWsBroadcastState : RxWsState := {}

/-- The locked part of `noteOutboundMixedUDP` and the broadcasts that follow it. -/
def noteOutboundMixedUDP (p : MixerParams) (now : ℤ) (rx : RxWsState) :
    RxWsState × List WsServerMessage :=
  if rx.rxOutSessionActive = false then
    if p.busyMode then
      let ds := if 0 < p.busyTimeout then p.busyTimeout.tdiv second else 0
      ({ rx with
          rxOutSessionActive := true
          lastPttLockDisplaySec := ds
          pttLockServerActive := true
          rxLastOutboundAt := some now },
        [.rxBroadcastStart p.busyMode, .pttLock ds])
    else
      ({ rx with rxOutSessionActive := true, rxLastOutboundAt := some now },
        [.rxBroadcastStart p.busyMode])
  else ({ rx with rxLastOutboundAt := some now }, [])

/-- The test of `probeRxBroadcastWsIdle` before it calls `finishRxBroadcastIdle`. -/
def probeRxBroadcastWsIdle (p : MixerParams) (now : ℤ) (rx : RxWsState) : Bool :=
  rx.rxOutSessionActive && rx.rxLastOutboundAt.isSome &&
    !decide (sub now rx.rxLastOutboundAt < p.eofTimeoutDur)

/-- The locked part of `finishRxBroadcastIdle` and the broadcasts that follow it. -/
def finishRxBroadcastIdle (p : MixerParams) (rx : RxWsState) : RxWsState × List WsServerMessage :=
  let delayMs := max (p.eofTimeoutDur.tdiv millisecond) 0
  if rx.rxOutSessionActive = false then (rx, [])
  else if p.busyMode ∧ rx.pttLockServerActive = true then
    ({ rx with
        rxOutSessionActive := false
        rxLastOutboundAt := none
        pttLockServerActive := false },
      [.rxBroadcastEnd delayMs, .pttUnlock])
  else
    ({ rx with rxOutSessionActive := false, rxLastOutboundAt := none }, [.rxBroadcastEnd delayMs])

/-- The locked part of `notifyBusyTimeoutElapsed` and its `notifyUnlock`. -/
def notifyBusyTimeoutElapsed (p : MixerParams) (rx : RxWsState) : RxWsState × Bool :=
  if p.busyMode ∧ 0 < p.busyTimeout ∧ rx.pttLockServerActive = true then
    ({ rx with pttLockServerActive := false }, true)
  else (rx, false)

/-- What `syncWsSessionStateToClient` decides to write to a client that just joined. -/
def syncWsSessionStateToClient (p : MixerParams) (rx : RxWsState) : List WsServerMessage :=
  (if rx.rxOutSessionActive then [.rxBroadcastStart p.busyMode] else []) ++
    if rx.pttLockServerActive then [.pttLock rx.lastPttLockDisplaySec] else []

end RxWsState

/-! ## The goroutines -/

/-- One call of `broadcastChannelWSJSONExcept`; `visit` holds the clients of the hub that are still
to be looked at, once the call has taken `clientsMu`. -/
structure BroadcastCall where
  except : SessionID
  msg : WsServerMessage
  visit : Option (List SessionID)
  deriving DecidableEq

/-- The UDP reader inside `notifyBusyTimeoutElapsed`. -/
inductive UdpPc where
  | idle
  | snapshot (notifyUnlock : Bool)
  | unlocking (todo : List SessionID)
  deriving DecidableEq

/-- The handler of one connection: `addClient`, `setChannel` and `addParticipant` of
`switchChannel`, `syncWsSessionStateToClient`, and the deferred `removeClient`. -/
inductive HandlerPc where
  | connecting
  | registered
  | bound
  | joined
  | synced
  | left
  | removed
  deriving DecidableEq

/-- `c.getChannel()` is the channel's name. -/
def HandlerPc.channelSet : HandlerPc → Bool
  | connecting | registered => false
  | bound | joined | synced | left | removed => true

structure WsChannel where
  rx : RxWsState := {}
  clients : List SessionID := []
  participants : List SessionID := []
  handler : SessionID → HandlerPc := fun _ => .connecting
  syncing : SessionID → List WsServerMessage := fun _ => []
  mixer : List BroadcastCall := []
  udp : UdpPc := .idle
  sent : SessionID → List WsServerMessage := fun _ => []

namespace WsChannel

/-- One `writeJSON`. -/
def write (s : WsChannel) (c : SessionID) (msg : WsServerMessage) : WsChannel :=
  { s with sent := Function.update s.sent c (s.sent c ++ [msg]) }

def setHandler (s : WsChannel) (c : SessionID) (pc : HandlerPc) : WsChannel :=
  { s with handler := Function.update s.handler c pc }

/-- The client passes the two tests of the broadcast loop. -/
def Addressed (s : WsChannel) (except c : SessionID) : Prop :=
  (s.handler c).channelSet = true ∧ ¬ (except ≠ 0 ∧ c = except)

instance (s : WsChannel) (except c : SessionID) : Decidable (s.Addressed except c) := by
  unfold Addressed
  infer_instance

end WsChannel

inductive WsAction where
  /-- mixer: the locked part after an outbound frame -/
  | noteOutboundMixedUDP (now : ℤ) (exclude : SessionID)
  /-- mixer: the idle test after a tick, with the locked part of `finishRxBroadcastIdle` -/
  | probeRxBroadcastWsIdle (now : ℤ)
  /-- mixer: the next broadcast call takes the clients of the hub, in map order -/
  | mixerBegin (order : List SessionID)
  /-- mixer: the running call looks at its next client, or returns -/
  | mixerVisit
  /-- mixer: `runLoop` panics and `resetAfterLoopFailure` runs -/
  | mixerRestart (encoderOk : Bool)
  /-- UDP reader: the locked part when the busy timeout elapses -/
  | notifyBusyTimeoutElapsed
  /-- UDP reader: copy the participants, in map order -/
  | udpSnapshot (order : List SessionID)
  /-- UDP reader: the next `ptt_unlock` -/
  | udpSend
  | addClient (c : SessionID)
  | setChannel (c : SessionID)
  | addParticipant (c : SessionID)
  /-- handler: read the flags for a client that just joined -/
  | syncRead (c : SessionID)
  /-- handler: write the next message decided by `syncRead` -/
  | syncWrite (c : SessionID)
  | removeClient (c : SessionID)
  | removeParticipant (c : SessionID)
  deriving DecidableEq

namespace WsChannel

/-- The calls that broadcast the messages `msgs`, one after the other. -/
def callsFor (except : SessionID) (msgs : List WsServerMessage) : List BroadcastCall :=
  msgs.map fun msg => ⟨except, msg, none⟩

def mixerBegin (s : WsChannel) (order : List SessionID) : WsChannel :=
  match s.mixer with
  | ⟨except, msg, none⟩ :: rest =>
    if order.Perm s.clients then { s with mixer := ⟨except, msg, some order⟩ :: rest } else s
  | _ => s

def mixerVisit (s : WsChannel) : WsChannel :=
  match s.mixer with
  | ⟨_, _, some []⟩ :: rest => { s with mixer := rest }
  | ⟨except, msg, some (c :: cs)⟩ :: rest =>
    let s' := { s with mixer := ⟨except, msg, some cs⟩ :: rest }
    if s.Addressed except c then s'.write c msg else s'
  | _ => s

def udpSnapshot (s : WsChannel) (order : List SessionID) : WsChannel :=
  match s.udp with
  | .snapshot notifyUnlock =>
    if order.Perm s.participants then
      { s with udp := if notifyUnlock then .unlocking order else .idle }
    else s
  | _ => s

def udpSend (s : WsChannel) : WsChannel :=
  match s.udp with
  | .unlocking [] => { s with udp := .idle }
  | .unlocking (c :: cs) =>
    let s' := { s with udp := .unlocking cs }
    if c ∈ s.clients then s'.write c .pttUnlock else s'
  | _ => s

def syncWrite (s : WsChannel) (c : SessionID) : WsChannel :=
  match s.syncing c with
  | msg :: rest => { s with syncing := Function.update s.syncing c rest }.write c msg
  | [] => s

/-- `resetAfterLoopFailure`: without a new encoder it returns before the flags are reset.  The calls
of the loop that panicked are gone with its stack. -/
def mixerRestart (s : WsChannel) (encoderOk : Bool) : WsChannel :=
  { s with
    mixer := []
    rx := if encoderOk then RxWsState.resetRxWsBroadcastState else s.rx }

def step (p : MixerParams) (s : WsChannel) : WsAction → WsChannel
  | .noteOutboundMixedUDP now exclude =>
    if s.mixer = [] then
      { s with
        rx := (s.rx.noteOutboundMixedUDP p now).1
        mixer := callsFor exclude (s.rx.noteOutboundMixedUDP p now).2 }
    else s
  | .probeRxBroadcastWsIdle now =>
    if s.mixer = [] ∧ s.rx.probeRxBroadcastWsIdle p now = true then
      { s with
        rx := (s.rx.finishRxBroadcastIdle p).1
        mixer := callsFor 0 (s.rx.finishRxBroadcastIdle p).2 }
    else s
  | .mixerBegin order => s.mixerBegin order
  | .mixerVisit => s.mixerVisit
  | .mixerRestart encoderOk => s.mixerRestart encoderOk
  | .notifyBusyTimeoutElapsed =>
    if s.udp = .idle then
      { s with
        rx := (s.rx.notifyBusyTimeoutElapsed p).1
        udp := .snapshot (s.rx.notifyBusyTimeoutElapsed p).2 }
    else s
  | .udpSnapshot order => s.udpSnapshot order
  | .udpSend => s.udpSend
  | .addClient c =>
    if s.handler c = .connecting then { s with clients := c :: s.clients }.setHandler c .registered
    else s
  | .setChannel c => if s.handler c = .registered then s.setHandler c .bound else s
  | .addParticipant c =>
    if s.handler c = .bound then { s with participants := c :: s.participants }.setHandler c .joined
    else s
  | .syncRead c =>
    if s.handler c = .joined then
      { s with
        syncing := Function.update s.syncing c (s.rx.syncWsSessionStateToClient p) }.setHandler
          c .synced
    else s
  | .syncWrite c => s.syncWrite c
  | .removeClient c =>
    if s.handler c = .registered ∨ s.handler c = .synced ∧ s.syncing c = [] then
      { s with clients := s.clients.erase c }.setHandler c .left
    else s
  | .removeParticipant c =>
    if s.handler c = .left then
      { s with participants := s.participants.erase c }.setHandler c .removed
    else s

/-- The client is registered in the hub and its channel is set. -/
def Present (s : WsChannel) (c : SessionID) : Prop :=
  c ∈ s.clients ∧ (s.handler c).channelSet = true

instance (s : WsChannel) (c : SessionID) : Decidable (s.Present c) := by
  unfold Present
  infer_instance

/-- No goroutine has a message left to write. -/
def Quiet (s : WsChannel) : Prop :=
  s.mixer = [] ∧ s.udp = .idle ∧ ∀ c ∈ s.clients, s.syncing c = []

instance (s : WsChannel) : Decidable s.Quiet := by
  unfold Quiet
  infer_instance

end WsChannel

/-! ## What a client has been told -/

/-- The two states of a client that the server switches on and off. -/
inductive Signal where
  | lock
  | receiving
  deriving DecidableEq

namespace Signal

def on : Signal → WsServerMessage → Bool
  | lock, .pttLock _ => true
  | receiving, .rxBroadcastStart _ => true
  | _, _ => false

def off : Signal → WsServerMessage → Bool
  | lock, .pttUnlock => true
  | receiving, .rxBroadcastEnd _ => true
  | _, _ => false

/-- The server's own flag for the signal. -/
def flag : Signal → RxWsState → Bool
  | lock, rx => rx.pttLockServerActive
  | receiving, rx => rx.rxOutSessionActive

theorem off_of_on {sig : Signal} {msg : WsServerMessage} (h : sig.on msg = true) :
    sig.off msg = false := by
  cases sig <;> cases msg <;> simp_all [on, off]

/-- The last message of the kind that `msgs` holds switches the signal on. -/
def told (sig : Signal) (msgs : List WsServerMessage) : Bool :=
  msgs.foldl (fun b msg => if sig.on msg then true else if sig.off msg then false else b) false

theorem told_snoc (sig : Signal) (msgs : List WsServerMessage) (msg : WsServerMessage) :
    sig.told (msgs ++ [msg]) =
      if sig.on msg then true else if sig.off msg then false else sig.told msgs := by
  simp only [told, List.foldl_append, List.foldl_cons, List.foldl_nil]

end Signal

end OWalkie
