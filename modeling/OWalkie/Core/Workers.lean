import OWalkie.Core.SessionManager

/-!
# The worker threads of a session

`wsIoLoop`, `udpReadLoop` and `keepaliveLoop` of one connection after the other, and the thread that
connects the session: `SessionManager::connect` with the waits and the teardown it goes through.
Each load and each store of a flag is a step of its thread.  A worker may stay in the body of its
loop, blocked in a receive, in a sleep or in a callback, for as long as the run says.
-/

namespace OWalkie

/-! ## The threads -/

inductive WorkerKind where
  | wsIo
  | udpRead
  | keepalive
deriving Repr, DecidableEq

/-- The `std::thread` that a worker was started as. -/
inductive WorkerHandle where
  | joinable
  | joined
  | detached
deriving Repr, DecidableEq

/-- Where a worker is in its loop.  `wsIoLoop` reads `stopRequested` at the top, and both flags once
`ioc.run` has returned; the other two read `connected` and `stopRequested` at the top. -/
inductive LoopPc where
  | readConnected
  | readStopRequested
  | testUdpSocket
  | body
  | rereadStopRequested
  | rereadConnected
  | ended
deriving Repr, DecidableEq

/-- A store to the state that the threads share. -/
inductive Store where
  | stopRequested (b : Bool)
  | connected (b : Bool)
  | transportFullyStopped (b : Bool)
  | udpResetRequested (b : Bool)
  | wsStream (b : Bool)
  | udpSocket (b : Bool)
  | sessionId (id : ℕ)
deriving Repr, DecidableEq

structure Worker where
  kind : WorkerKind
  /-- the number of the connection that started it -/
  connection : ℕ
  handle : WorkerHandle := .joinable
  /-- the stores that come before `pc` -/
  stores : List Store := []
  pc : LoopPc
deriving Repr, DecidableEq

/-- The two calls of `waitUntilTransportStoppedInternal`. -/
inductive Waiter where
  | connect
  | reconnectTeardown
deriving Repr, DecidableEq

/-- The three places where the workers are joined. -/
inductive Joiner where
  | wait (w : Waiter)
  | resolved
  | failed
deriving Repr, DecidableEq

/-- What the connecting thread does next. -/
inductive CallPc where
  | idle
  -- `waitUntilTransportStoppedInternal`
  | startWait (w : Waiter)
  | wait (w : Waiter) (deadline : ℕ)
  | pastDeadline (w : Waiter) (deadline : ℕ)
  | detach (w : Waiter)
  | join (j : Joiner) (kinds : List WorkerKind)
  -- `SessionManager::connect`
  | intentSettled
  | readySettled
  | oldTest
  | oldWait (deadline : ℕ)
  | oldReady
  -- `reconnectTeardownInternal`
  | testFullyStopped
  | torn
  | intentTorn
  | intentHooked
  -- `connectInternal`
  | params
  | resolve
  | emplaceWsStream
  | handshake
  | startWs
  | start (kinds : List WorkerKind)
  -- `SessionManager::connect`
  | newTest
  | newWait (deadline : ℕ)
  -- a thread was assigned to while it was joinable
  | terminated
deriving Repr, DecidableEq

structure Transport where
  /-- in milliseconds -/
  clock : ℕ := 0
  connected : Bool := false
  stopRequested : Bool := false
  transportFullyStopped : Bool := true
  udpResetRequested : Bool := false
  wsStream : Bool := false
  udpSocket : Bool := false
  /-- of the welcome -/
  sessionId : ℕ := 0
  workers : List Worker := []
  /-- the connections that have started their threads -/
  connections : ℕ := 0
  /-- of the `connect` that is going on -/
  timeoutMs : ℤ := 0
  /-- the stores of the connecting thread that come before `pc` -/
  stores : List Store := []
  pc : CallPc := .idle
deriving Repr, DecidableEq

/-- What happens in the body of a loop. -/
inductive WorkerEvent where
  /-- the iteration is over -/
  | again
  /-- the connection is found to be lost -/
  | lost
  /-- `ioc.run` throws -/
  | thrown
  | welcome (sessionId : ℕ)
  | protocolError
deriving Repr, DecidableEq

inductive TransportAction where
  | elapse (ms : ℕ)
  /-- `SessionManager::connect`, from where it holds `sessionOpMu` -/
  | connect (timeoutMs : ℤ)
  /-- one step of the connecting thread; the attempt ends with the result -/
  | run (userIntent : Bool) (attempt : Result)
  /-- one step of the worker at the position -/
  | worker (i : ℕ) (e : WorkerEvent)
deriving Repr, DecidableEq

namespace Transport

/-! ## The functions of the session -/

def kConnectTransportWaitMs : ℕ := 800

def waitBudget : Waiter → ℕ
  | .connect => kConnectTransportWaitMs
  | .reconnectTeardown => 3000

def closeSockets : List Store := [.udpResetRequested true]

def cancelOngoingConnect : List Store := .stopRequested true :: closeSockets

def haltTransport : List Store := .stopRequested true :: .connected false :: closeSockets

def signalRecoverableLoss : List Store := .connected false :: haltTransport ++ [.sessionId 0]

def clearTransportState : List Store :=
  [.wsStream false, .udpSocket false, .connected false, .udpResetRequested false]

def allKinds : List WorkerKind := [.wsIo, .udpRead, .keepalive]

def isSessionReady (s : Transport) : Bool := s.connected && decide (s.sessionId ≠ 0)

def store (s : Transport) : Store → Transport
  | .stopRequested b => { s with stopRequested := b }
  | .connected b => { s with connected := b }
  | .transportFullyStopped b => { s with transportFullyStopped := b }
  | .udpResetRequested b => { s with udpResetRequested := b }
  | .wsStream b => { s with wsStream := b }
  | .udpSocket b => { s with udpSocket := b }
  | .sessionId id => { s with sessionId := id }

/-! ## The workers -/

def firstPc : WorkerKind → LoopPc
  | .wsIo => .readStopRequested
  | .udpRead | .keepalive => .readConnected

/-- What a worker does in the body of its loop: the stores, and where it is then.  The WebSocket
handlers run inside `ioc.run`. -/
def bodyExec (s : Transport) : WorkerKind → WorkerEvent → List Store × LoopPc
  | .wsIo, .again => ([], .rereadStopRequested)
  | .wsIo, .thrown => ([], .ended)
  | .wsIo, .lost =>
    if s.stopRequested then ([], .body) else (.connected false :: signalRecoverableLoss, .body)
  | .wsIo, .welcome sessionId => ([.sessionId sessionId], .body)
  | .wsIo, .protocolError => (.connected false :: closeSockets, .body)
  | .udpRead, .again => ([], .readConnected)
  | .udpRead, .lost =>
    if s.stopRequested || s.udpResetRequested then ([], .readConnected)
    else (signalRecoverableLoss, .ended)
  | .keepalive, .again => ([], .readConnected)
  | .keepalive, .lost => (signalRecoverableLoss, .ended)
  | _, _ => ([], .body)

/-- One step of a worker that has no store to make. -/
def loopExec (s : Transport) (kind : WorkerKind) (e : WorkerEvent) : LoopPc → List Store × LoopPc
  | .readConnected => ([], if s.connected then .readStopRequested else .ended)
  | .readStopRequested =>
    ([], if s.stopRequested then .ended else if kind = .udpRead then .testUdpSocket else .body)
  | .testUdpSocket => ([], if s.udpSocket then .body else .ended)
  | .body => s.bodyExec kind e
  | .rereadStopRequested => ([], if s.stopRequested then .ended else .rereadConnected)
  | .rereadConnected => ([], if s.connected then .readStopRequested else .ended)
  | .ended => ([], .ended)

def workerStep (s : Transport) (i : ℕ) (w : Worker) (e : WorkerEvent) : Transport :=
  match w.stores with
  | op :: stores => { s.store op with workers := s.workers.set i { w with stores := stores } }
  | [] =>
    { s with
      workers := s.workers.set i
        { w with
          stores := (s.loopExec w.kind e w.pc).1
          pc := (s.loopExec w.kind e w.pc).2 } }

/-! ## The connecting thread -/

def goto (s : Transport) (stores : List Store) (pc : CallPc) : Transport :=
  { s with
    stores := stores
    pc := pc }

def afterWait : Waiter → CallPc
  | .connect => .intentSettled
  | .reconnectTeardown => .torn

def detachWorkers (s : Transport) : Transport :=
  { s with
    workers := s.workers.map fun w =>
      if w.handle = .joinable then { w with handle := .detached } else w }

/-- The thread of the kind has come to its end, or there is none to be joined. -/
def canJoin (s : Transport) (kind : WorkerKind) : Bool :=
  s.workers.all fun w =>
    decide (w.kind = kind → w.handle = .joinable → w.pc = .ended ∧ w.stores = [])

def joinWorker (s : Transport) (kind : WorkerKind) : Transport :=
  { s with
    workers := s.workers.map fun w =>
      if w.kind = kind ∧ w.handle = .joinable then { w with handle := .joined } else w }

def startWorker (s : Transport) (kind : WorkerKind) (pc : CallPc) : Transport :=
  if s.workers.any (fun w => decide (w.kind = kind ∧ w.handle = .joinable)) then
    s.goto [] .terminated
  else
    { s with
      workers := s.workers ++
        [{ kind := kind, connection := s.connections, pc := firstPc kind }]
      pc := pc }

/-- What follows the joins. -/
def joined (s : Transport) : Joiner → Transport
  | .wait w => s.goto [.transportFullyStopped true] (afterWait w)
  | .resolved => s.goto [.wsStream false] .emplaceWsStream
  | .failed => s.goto clearTransportState .idle

/-- One step of the connecting thread when it has no store to make. -/
def callExec (s : Transport) (userIntent : Bool) (attempt : Result) : CallPc → Transport
  | .idle | .terminated => s
  | .startWait w => s.goto [] (.wait w (s.clock + waitBudget w))
  | .wait w deadline =>
    if s.transportFullyStopped then s.goto [] (.pastDeadline w deadline)
    else if deadline ≤ s.clock then s.goto haltTransport (.pastDeadline w deadline)
    else s
  | .pastDeadline w deadline =>
    if deadline ≤ s.clock then s.goto haltTransport (.detach w)
    else s.goto [] (.join (.wait w) allKinds)
  | .detach w =>
    s.detachWorkers.goto (clearTransportState ++ [.transportFullyStopped true]) (afterWait w)
  | .join j [] => s.joined j
  | .join j (kind :: kinds) =>
    if s.canJoin kind then (s.joinWorker kind).goto [] (.join j kinds) else s
  | .intentSettled => s.goto [] (if userIntent then .readySettled else .idle)
  | .readySettled => s.goto [] (if s.isSessionReady then .idle else .oldTest)
  | .oldTest =>
    if s.connected = true ∧ s.isSessionReady = false then
      s.goto [] (.oldWait (s.clock + min (Manager.connectTimeout s.timeoutMs) 2500))
    else s.goto [.stopRequested false] .testFullyStopped
  | .oldWait deadline =>
    if s.clock < deadline ∧ userIntent = true then
      if s.isSessionReady then s.goto [] .idle
      else if s.connected then s
      else s.goto [] .oldReady
    else s.goto [] .oldReady
  | .oldReady =>
    if s.isSessionReady then s.goto [] .idle else s.goto [.stopRequested false] .testFullyStopped
  | .testFullyStopped =>
    if s.transportFullyStopped then s.goto [] .torn
    else s.goto haltTransport (.startWait .reconnectTeardown)
  | .torn => s.goto (clearTransportState ++ [.sessionId 0]) .intentTorn
  | .intentTorn => s.goto [] (if userIntent then .intentHooked else .idle)
  | .intentHooked =>
    if userIntent then s.goto [.stopRequested false] .params else s.goto [] .idle
  | .params =>
    if attempt.fatal then s.goto [] .idle
    else s.goto [.stopRequested false, .transportFullyStopped false, .sessionId 0] .resolve
  | .resolve =>
    if attempt = .ok then
      if s.wsStream then s.goto [] (.join .resolved allKinds) else s.goto [] .emplaceWsStream
    else s.goto closeSockets (.join .failed allKinds)
  | .emplaceWsStream => s.goto [.wsStream true] .handshake
  | .handshake =>
    if attempt = .ok then s.goto [.udpSocket true, .connected true] .startWs
    else s.goto closeSockets (.join .failed allKinds)
  | .startWs =>
    ({ s with connections := s.connections + 1 } : Transport).startWorker .wsIo
      (.start [.udpRead, .keepalive])
  | .start (kind :: kinds) => s.startWorker kind (.start kinds)
  | .start [] => s.goto [] .newTest
  | .newTest =>
    s.goto [] (if s.isSessionReady = false ∧ userIntent = true then
      .newWait (s.clock + min (Manager.connectTimeout s.timeoutMs) 2500)
    else .idle)
  | .newWait deadline =>
    if s.clock < deadline ∧ userIntent = true ∧ s.isSessionReady = false ∧ s.connected = true then s
    else s.goto [] .idle

def callStep (s : Transport) (userIntent : Bool) (attempt : Result) : Transport :=
  match s.stores with
  | op :: stores => { s.store op with stores := stores }
  | [] => s.callExec userIntent attempt s.pc

def step (s : Transport) : TransportAction → Transport
  | .elapse ms => { s with clock := s.clock + ms }
  | .connect timeoutMs =>
    if s.pc = .idle ∧ s.stores = [] ∧ s.isSessionReady = false then
      { s.goto (cancelOngoingConnect ++ haltTransport) (.startWait .connect) with
        timeoutMs := timeoutMs }
    else s
  | .run userIntent attempt => s.callStep userIntent attempt
  | .worker i e =>
    match s.workers[i]? with
    | some w => s.workerStep i w e
    | none => s

/-- The worker that passes the test of its loop in the step, and so begins an iteration. -/
def iterating (s : Transport) : TransportAction → Option Worker
  | .worker i _ =>
    s.workers[i]?.filter fun w =>
      decide (w.stores = [] ∧ w.pc = .readStopRequested ∧ s.stopRequested = false)
  | _ => none

end Transport

end OWalkie
