import OWalkie.Lib.Run
import OWalkie.Core.SessionState

/-!
# The session registry

`SessionManager` and the C interface over it, called from any number of threads.  Each section under
`mu_` or `g_managedBridgeMu`, each operation on a `sessionOpMu`, each look at `userIntent` or at the
session and each event is one step of a thread.  What the sessions do on their own threads (they
come up, go down, raise events) and how an attempt to connect ends is an input of the run.
-/

namespace OWalkie

inductive Result where
  | ok
  | invalidArg
  | alreadyConnected
  | notConnected
  | notReady
  | protocol
  | network
  | internal
  | unsupported
  | bufferTooSmall
  | queueFull
  | noEvent
deriving Repr, DecidableEq

abbrev SessionId := ℕ

/-! ## The threads -/

/-- The step that `SessionManager::connect` takes next.  From `intentLocked` to `unlock` the thread
holds `sessionOpMu`; `fatal` says that the attempt has ended the session. -/
inductive ConnectPc where
  | find
  | intentFound
  | readyFound
  | lock
  | intentLocked
  | readyLocked
  -- `cancelOngoingConnect`, `haltTransport` and `waitUntilTransportStopped`
  | settle
  | intentSettled
  | readySettled
  -- the wait for the welcome of a connection that is up
  | oldTest
  | oldWait (deadline : ℕ)
  | oldReady
  | reconnectTeardown
  | intentTorn
  | preConnectHook
  | intentHooked
  | reconnectConnect
  -- the wait for the welcome of the new connection
  | newWait (deadline : ℕ)
  | outcome (r : Result)
  | emitFailed (r : Result)
  | unlock (r : Result) (fatal : Bool)
  | returning (r : Result) (fatal : Bool)
deriving Repr, DecidableEq

/-- The step that `takeSessionForTeardown` takes next. -/
inductive TakePc where
  | head
  | find
  | signal
  | tryLock
  | erase
deriving Repr, DecidableEq

/-- Who calls `takeSessionForTeardown`: `releaseSession` for a `connect` with its result,
`disconnect` with the ids that a `disconnectAll` has left, or `haltAndRelease`. -/
inductive TakeCaller where
  | release (timeoutMs : ℤ) (r : Result)
  | disconnect (attempt : ℕ) (rest : Option (List SessionId))
  | haltAndRelease
deriving Repr, DecidableEq

inductive ManagerPc where
  | idle
  -- `owalkie_prepare_connection`, after the section of `prepareConnection`
  | insertBridge (id : SessionId)
  | connect (id : SessionId) (timeoutMs : ℤ) (pc : ConnectPc)
  -- `owalkie_disconnect`
  | eraseBridge (id : SessionId)
  | take (caller : TakeCaller) (id : SessionId) (deadline : ℕ) (pc : TakePc)
  -- the session has been taken
  | close (caller : TakeCaller) (id : SessionId)
  | unlock (caller : TakeCaller) (id : SessionId)
  -- `disconnect` after an attempt that failed
  | retry (attempt : ℕ) (rest : Option (List SessionId)) (id : SessionId)
  -- `disconnectAll`
  | signalAll (left : List SessionId)
  | listIds
deriving Repr, DecidableEq

structure Manager where
  /-- in milliseconds -/
  clock : ℕ := 0
  /-- the keys of `sessions_` -/
  sessions : List SessionId := []
  nextId : SessionId := 1
  userIntent : SessionId → Bool := fun _ => false
  /-- the thread that holds the `sessionOpMu` of the session -/
  sessionOpMu : SessionId → Option ℕ := fun _ => none
  isConnected : SessionId → Bool := fun _ => false
  isSessionReady : SessionId → Bool := fun _ => false
  /-- `Session::disconnect` has been called -/
  disconnected : SessionId → Bool := fun _ => false
  /-- the keys of `g_managedBridges` -/
  bridges : SessionId → Bool := fun _ => false
  pc : ℕ → ManagerPc := fun _ => .idle

inductive ManagerCall where
  | prepareConnection
  | connect (id : SessionId) (timeoutMs : ℤ)
  | disconnect (id : SessionId)
  | haltAndRelease (id : SessionId)
  | disconnectAll
deriving Repr, DecidableEq

inductive ManagerAction where
  | elapse (ms : ℕ)
  | call (k : ℕ) (c : ManagerCall)
  /-- one step of a thread; an attempt to connect ends with the result -/
  | run (k : ℕ) (attempt : Result)
  /-- the connection of a session comes up or goes down -/
  | transport (id : SessionId) (isConnected isSessionReady : Bool)
  /-- a thread of the session raises an event -/
  | event (id : SessionId) (e : Event)
deriving Repr, DecidableEq

/-! ## The steps -/

/-- `connect` gives the session up. -/
def Result.fatal : Result → Bool
  | .invalidArg | .unsupported | .protocol => true
  | _ => false

/-- The events on which the bridge is erased. -/
def Event.endsBridge : Event → Bool
  | .connectionFailed _ | .disconnected | .protocolError _ => true
  | _ => false

namespace Manager

def kMaxManagedSessions : ℕ := 16

def kTeardownWaitMs : ℕ := 15000

def connectTimeout (timeoutMs : ℤ) : ℕ := if 0 < timeoutMs then timeoutMs.toNat else 3500

def isValid (s : Manager) (id : SessionId) : Bool := decide (id ≠ 0 ∧ id ∈ s.sessions)

/-- The event as `makeManagedSessionCallbacks` handles it. -/
def deliver (s : Manager) (id : SessionId) (e : Event) : Manager :=
  if e.endsBridge then { s with bridges := Function.update s.bridges id false } else s

def startTake (s : Manager) (caller : TakeCaller) (id : SessionId) : ManagerPc :=
  .take caller id (s.clock + kTeardownWaitMs) .head

/-- What follows a `disconnect`. -/
def nextDisconnect (s : Manager) : Option (List SessionId) → ManagerPc
  | some (id :: rest) => s.startTake (.disconnect 0 (some rest)) id
  | some [] | none => .idle

/-- One step of `connect`. -/
def connectExec (s : Manager) (k : ℕ) (attempt : Result) (id : SessionId) (timeoutMs : ℤ) :
    ConnectPc → Manager × ManagerPc
  | .find =>
    (s, .connect id timeoutMs
      (if id ∈ s.sessions then .intentFound else .returning .invalidArg false))
  | .intentFound =>
    (s, .connect id timeoutMs
      (if s.userIntent id then .readyFound else .returning .invalidArg false))
  | .readyFound =>
    (s, .connect id timeoutMs (if s.isSessionReady id then .returning .ok false else .lock))
  | .lock =>
    if s.sessionOpMu id = none then
      ({ s with sessionOpMu := Function.update s.sessionOpMu id (some k) },
        .connect id timeoutMs .intentLocked)
    else (s, .connect id timeoutMs .lock)
  | .intentLocked =>
    (s, .connect id timeoutMs (if s.userIntent id then .readyLocked else .unlock .invalidArg false))
  | .readyLocked =>
    (s, .connect id timeoutMs (if s.isSessionReady id then .unlock .ok false else .settle))
  | .settle =>
    ({ s with
        isConnected := Function.update s.isConnected id false
        isSessionReady := Function.update s.isSessionReady id false },
      .connect id timeoutMs .intentSettled)
  | .intentSettled =>
    (s, .connect id timeoutMs
      (if s.userIntent id then .readySettled else .unlock .invalidArg false))
  | .readySettled =>
    (s, .connect id timeoutMs (if s.isSessionReady id then .unlock .ok false else .oldTest))
  | .oldTest =>
    (s, .connect id timeoutMs
      (if s.isConnected id = true ∧ s.isSessionReady id = false then
        .oldWait (s.clock + min (connectTimeout timeoutMs) 2500)
      else .reconnectTeardown))
  | .oldWait deadline =>
    (s, .connect id timeoutMs
      (if s.clock < deadline ∧ s.userIntent id = true then
        if s.isSessionReady id then .unlock .ok false
        else if s.isConnected id then .oldWait deadline else .oldReady
      else .oldReady))
  | .oldReady =>
    (s, .connect id timeoutMs
      (if s.isSessionReady id then .unlock .ok false else .reconnectTeardown))
  | .reconnectTeardown =>
    ({ s with
        isConnected := Function.update s.isConnected id false
        isSessionReady := Function.update s.isSessionReady id false },
      .connect id timeoutMs .intentTorn)
  | .intentTorn =>
    (s, .connect id timeoutMs
      (if s.userIntent id then .preConnectHook else .unlock .invalidArg false))
  | .preConnectHook => (s, .connect id timeoutMs .intentHooked)
  | .intentHooked =>
    (s, .connect id timeoutMs
      (if s.userIntent id then .reconnectConnect else .unlock .invalidArg false))
  | .reconnectConnect =>
    (s, .connect id timeoutMs
      (if attempt = .ok ∧ s.isSessionReady id = false ∧ s.userIntent id = true then
        .newWait (s.clock + min (connectTimeout timeoutMs) 2500)
      else .outcome attempt))
  | .newWait deadline =>
    (s, .connect id timeoutMs
      (if s.clock < deadline ∧ s.userIntent id = true then
        if s.isSessionReady id = false ∧ s.isConnected id = true then .newWait deadline
        else .outcome .ok
      else .outcome .ok))
  | .outcome r =>
    (s, .connect id timeoutMs
      (if r = .ok then
        if s.isSessionReady id then .unlock .ok false else .unlock .network false
      else if r.fatal then .emitFailed r else .unlock r false))
  | .emitFailed r =>
    (s.deliver id (.connectionFailed
        (if r = .invalidArg then "invalid connect parameters" else "connect failed")),
      s.startTake (.release timeoutMs r) id)
  | .unlock r fatal =>
    ({ s with sessionOpMu := Function.update s.sessionOpMu id none },
      .connect id timeoutMs (.returning r fatal))
  | .returning _ _ => (s, .idle)

/-- What follows when `takeSessionForTeardown` has not got the session. -/
def takeFailed (id : SessionId) : TakeCaller → ManagerPc
  | .release timeoutMs r => .connect id timeoutMs (.unlock r true)
  | .disconnect attempt rest => .retry attempt rest id
  | .haltAndRelease => .idle

/-- One step of `takeSessionForTeardown`.  The lock is taken by no thread that does not find it
free, the one that holds it included. -/
def takeExec (s : Manager) (k : ℕ) (caller : TakeCaller) (id : SessionId) (deadline : ℕ) :
    TakePc → Manager × ManagerPc
  | .head =>
    (s, if s.clock < deadline then .take caller id deadline .find else takeFailed id caller)
  | .find => (s, if id ∈ s.sessions then .take caller id deadline .signal else takeFailed id caller)
  | .signal =>
    ({ s with userIntent := Function.update s.userIntent id false },
      .take caller id deadline .tryLock)
  | .tryLock =>
    if s.sessionOpMu id = none then
      ({ s with sessionOpMu := Function.update s.sessionOpMu id (some k) },
        .take caller id deadline .erase)
    else (s, .take caller id deadline .head)
  | .erase =>
    if id ∈ s.sessions then ({ s with sessions := s.sessions.erase id }, .close caller id)
    else
      ({ s with sessionOpMu := Function.update s.sessionOpMu id none }, takeFailed id caller)

/-- One step of a thread: the shared state, and where the thread is then. -/
def exec (s : Manager) (k : ℕ) (attempt : Result) : ManagerPc → Manager × ManagerPc
  | .idle => (s, .idle)
  | .insertBridge id => ({ s with bridges := Function.update s.bridges id true }, .idle)
  | .connect id timeoutMs pc => s.connectExec k attempt id timeoutMs pc
  | .eraseBridge id =>
    ({ s with bridges := Function.update s.bridges id false }, s.startTake (.disconnect 0 none) id)
  | .take caller id deadline pc => s.takeExec k caller id deadline pc
  -- `releaseSession` and `haltAndRelease` take the callbacks away first
  | .close caller id =>
    match caller with
    | .release _ _ =>
      ({ s with disconnected := Function.update s.disconnected id true }, .unlock caller id)
    | .disconnect _ _ =>
      (({ s with disconnected := Function.update s.disconnected id true } : Manager).deliver id
        .disconnected, .unlock caller id)
    | .haltAndRelease => (s, .unlock caller id)
  | .unlock caller id =>
    ({ s with sessionOpMu := Function.update s.sessionOpMu id none },
      match caller with
      | .release timeoutMs r => .connect id timeoutMs (.unlock r true)
      | .disconnect _ rest => s.nextDisconnect rest
      | .haltAndRelease => .idle)
  | .retry attempt rest id =>
    (s, if id ∈ s.sessions ∧ attempt + 1 < 5 then s.startTake (.disconnect (attempt + 1) rest) id
      else s.nextDisconnect rest)
  | .signalAll [] => (s, .listIds)
  | .signalAll (id :: left) =>
    ({ s with userIntent := Function.update s.userIntent id false }, .signalAll left)
  | .listIds => (s, s.nextDisconnect (some s.sessions))

def setPc (s : Manager) (k : ℕ) (pc : ManagerPc) : Manager :=
  { s with pc := Function.update s.pc k pc }

/-- A thread begins a call. -/
def begin (s : Manager) (k : ℕ) : ManagerCall → Manager
  | .prepareConnection =>
    if kMaxManagedSessions ≤ s.sessions.length then s
    else
      { s.setPc k (.insertBridge s.nextId) with
        sessions := s.sessions ++ [s.nextId]
        nextId := s.nextId + 1
        userIntent := Function.update s.userIntent s.nextId true }
  | .connect id timeoutMs => s.setPc k (.connect id timeoutMs .find)
  | .disconnect id => if id = 0 then s else s.setPc k (.eraseBridge id)
  | .haltAndRelease id => s.setPc k (s.startTake .haltAndRelease id)
  | .disconnectAll => s.setPc k (.signalAll s.sessions)

def step (s : Manager) : ManagerAction → Manager
  | .elapse ms => { s with clock := s.clock + ms }
  | .call k c => if s.pc k = .idle then s.begin k c else s
  | .run k attempt =>
    { (s.exec k attempt (s.pc k)).1 with
      pc := Function.update s.pc k (s.exec k attempt (s.pc k)).2 }
  | .transport id isConnected isSessionReady =>
    { s with
      isConnected := Function.update s.isConnected id isConnected
      isSessionReady := Function.update s.isSessionReady id isSessionReady }
  -- a failed attempt is reported by `connect`, and the end by a session that was told to end
  | .event id e =>
    match e with
    | .connectionFailed _ => s
    | .disconnected => if s.disconnected id then s.deliver id e else s
    | _ => s.deliver id e

end Manager

end OWalkie
