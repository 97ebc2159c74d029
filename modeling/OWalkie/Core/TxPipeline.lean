import OWalkie.Lib.Run
import OWalkie.Relay.Basic

/-!
# The uplink pipeline of a session

Applications submit commands to a queue that one worker thread takes from (`txWorkerLoop`), and the
teardown of a transport stops the worker and aborts what is open (`stopTxPipeline`).  Each load with
its branch, each store, each exchange, each section under `txQueueMu` and each datagram is one step
of a thread; the threads take their steps in any order, and the connection may be lost between any
two of them.  Items and transmissions are told apart by the number of the submission.
-/

namespace OWalkie

/-! ## The threads -/

inductive TxSubmitOp where
  | txOpen
  | txPcm
  | txOpus
  | txVoiceEnd
  | txClose
  | txAbort
deriving Repr, DecidableEq

/-- A command in the queue, with its number among the submissions that were accepted. -/
structure TxQueueItem where
  op : TxSubmitOp
  number : ℕ
deriving Repr, DecidableEq

/-- Who calls `txEndInternal`: the watchdog, or the case `Open` or `Close` of `processTxItem`. -/
inductive TxEnding where
  | watchdog
  | reopen (n : ℕ)
  | close (n : ℕ)
deriving Repr, DecidableEq

/-- Where a thread is in `abortTxInternal`. -/
inductive AbortPc where
  | clear
  | exchange
  -- `endLocalTxIfNeeded`
  | localTest
  | localEmit
  | reset
deriving Repr, DecidableEq

/-- The step that the worker takes next. -/
inductive WorkerPc where
  | absent
  | finished
  | waiting
  -- the case `Open`, and `txStartInternal` with `beginLocalTxIfNeeded`
  | openTest (n : ℕ)
  | startTest (n : ℕ)
  | startStore (n : ℕ)
  | beginTest (n : ℕ)
  | beginEmit (n : ℕ)
  | startDone (n : ℕ)
  -- `txEndInternal`
  | endTest (why : TxEnding)
  | endOpen (why : TxEnding)
  | endStore (why : TxEnding)
  -- `sendTxEofBurstInternal` with `endLocalTxIfNeeded`
  | burstTest (why : TxEnding)
  | burst (why : TxEnding) (left : ℕ)
  | localTest (why : TxEnding)
  | localEmit (why : TxEnding)
  | endDone (why : TxEnding)
  -- the cases `Pcm` and `Opus`, with `feedTxPcmInternal` and `sendTxOpusInternal`
  | voiceTest (item : TxQueueItem)
  | voiceFeed (item : TxQueueItem)
  | voiceEnd (n : ℕ)
  | abort (n : ℕ) (pc : AbortPc)
deriving Repr, DecidableEq

/-- Where the teardown is in `stopTxPipeline`. -/
inductive TeardownPc where
  | idle
  | signal
  | join
  | resetRunning
  | resetStop
  | clearQueue
  | abort (pc : AbortPc)
deriving Repr, DecidableEq

/-- Where a caller is in `submitTxInternal`: it has passed the tests before the lock, or it has
pushed its item. -/
inductive ProducerPc where
  | idle
  | checked (op : TxSubmitOp)
  | pushed
deriving Repr, DecidableEq

/-- What the threads show to the application and to the relay. -/
inductive TxOutput where
  | localTxStart
  | localTxEnd
  /-- `feedTxPcmInternal` or `sendTxOpusInternal` with the payload of the item -/
  | fed (n : ℕ)
  /-- an EOF datagram of the transmission that the `Open` with the number `n` started -/
  | eof (n : ℕ)
  /-- the item is taken out of the queue and not processed -/
  | dropped (n : ℕ)
deriving Repr, DecidableEq

structure TxPipeline where
  clock : ℤ
  connected : Bool := true
  stopRequested : Bool := false
  /-- `welcome.sessionId` -/
  sessionId : ℕ
  clientTxOpen : Bool := false
  /-- `sessionState.localTxActive` -/
  localTxActive : Bool := false
  queue : List TxQueueItem := []
  txWorkerStop : Bool := false
  txWorkerRunning : Bool := false
  txOpenAtNs : ℤ := 0
  txLastActivityNs : ℤ := 0
  worker : WorkerPc := .absent
  teardown : TeardownPc := .idle
  producer : ℕ → ProducerPc := fun _ => .idle
  /-- the submissions that were accepted -/
  accepted : List TxSubmitOp := []
  /-- the number of the `Open` that started the last transmission -/
  openedBy : ℕ := 0

inductive TxAction where
  | elapse (dt : ℕ)
  /-- a caller of `submitTx` begins -/
  | submit (k : ℕ) (op : TxSubmitOp)
  /-- a caller has its turn on `txQueueMu` -/
  | push (k : ℕ)
  /-- a caller goes through `ensureTxWorkerStarted` -/
  | ensure (k : ℕ)
  | worker
  | stopTxPipeline
  | teardown
  /-- `connected.store(false)` -/
  | lose
  /-- `stopRequested.store(true)` -/
  | stop
  /-- `welcome = WelcomeConfig{}` -/
  | forgetWelcome
deriving Repr, DecidableEq

/-! ## The steps -/

namespace TxPipeline

def kTxQueueCapacity : ℕ := 48

def kTxOpenWatchdogNs : ℤ := 2 * second

/-- The test of the watchdog, for an empty queue. -/
def watchdogDue (s : TxPipeline) : Bool :=
  s.clientTxOpen && decide (0 < s.txOpenAtNs) &&
    decide (kTxOpenWatchdogNs < s.clock - s.txLastActivityNs)

/-- The case of `processTxItem` for the item. -/
def dispatch (item : TxQueueItem) : WorkerPc :=
  match item.op with
  | .txOpen => .openTest item.number
  | .txPcm | .txOpus => .voiceTest item
  | .txVoiceEnd => .voiceEnd item.number
  | .txClose => .endTest (.close item.number)
  | .txAbort => .abort item.number .clear

/-- One step of `abortTxInternal`: the shared state, the next step if there is one, the output. -/
def abortExec (s : TxPipeline) : AbortPc → TxPipeline × Option AbortPc × List TxOutput
  | .clear => ({ s with queue := [] }, some .exchange, s.queue.map fun item => .dropped item.number)
  | .exchange =>
    ({ s with clientTxOpen := false }, some (if s.clientTxOpen then .localTest else .reset), [])
  | .localTest => (s, some (if s.localTxActive then .localEmit else .reset), [])
  | .localEmit => ({ s with localTxActive := false }, some .reset, [.localTxEnd])
  | .reset => ({ s with txOpenAtNs := 0, txLastActivityNs := 0 }, none, [])

/-- One step of the worker: the shared state, its next step, the output. -/
def workerExec (s : TxPipeline) : WorkerPc → TxPipeline × WorkerPc × List TxOutput
  | .absent => (s, .absent, [])
  | .finished => (s, .finished, [])
  | .waiting =>
    match s.queue with
    | [] =>
      if s.txWorkerStop then (s, .finished, [])
      else if s.watchdogDue then (s, .endTest .watchdog, [])
      else (s, .waiting, [])
    | item :: queue => ({ s with queue := queue }, dispatch item, [])
  | .openTest n => (s, if s.clientTxOpen then .endTest (.reopen n) else .startTest n, [])
  | .startTest n =>
    (s, if s.connected = true ∧ s.sessionId ≠ 0 then .startStore n else .startDone n, [])
  | .startStore n => ({ s with clientTxOpen := true, openedBy := n }, .beginTest n, [])
  | .beginTest n => (s, if s.localTxActive then .startDone n else .beginEmit n, [])
  | .beginEmit n => ({ s with localTxActive := true }, .startDone n, [.localTxStart])
  | .startDone _ =>
    ({ s with txOpenAtNs := s.clock, txLastActivityNs := s.clock }, .waiting, [])
  | .endTest why => (s, if s.connected then .endOpen why else .endDone why, [])
  | .endOpen why => (s, if s.clientTxOpen then .endStore why else .endDone why, [])
  | .endStore why => ({ s with clientTxOpen := false }, .burstTest why, [])
  | .burstTest why => (s, if s.connected then .burst why 3 else .endDone why, [])
  | .burst why 0 => (s, .localTest why, [])
  | .burst why (left + 1) =>
    if s.stopRequested then (s, .localTest why, [])
    else (s, .burst why left, if s.sessionId = 0 then [] else [.eof s.openedBy])
  | .localTest why => (s, if s.localTxActive then .localEmit why else .endDone why, [])
  | .localEmit why => ({ s with localTxActive := false }, .endDone why, [.localTxEnd])
  | .endDone (.reopen n) => (s, .startTest n, [])
  | .endDone _ => ({ s with txOpenAtNs := 0, txLastActivityNs := 0 }, .waiting, [])
  | .voiceTest item => (s, if s.clientTxOpen then .voiceFeed item else .waiting, [])
  | .voiceFeed item =>
    ({ s with txLastActivityNs := s.clock }, .waiting,
      if s.connected = true ∧ s.sessionId ≠ 0 ∧ s.clientTxOpen = true then [.fed item.number]
      else [])
  | .voiceEnd _ => ({ s with txLastActivityNs := s.clock }, .waiting, [])
  | .abort n pc =>
    match s.abortExec pc with
    | (s, some pc, out) => (s, .abort n pc, out)
    | (s, none, out) => (s, .waiting, out)

/-- One step of `stopTxPipeline`. -/
def teardownExec (s : TxPipeline) : TeardownPc → TxPipeline × TeardownPc × List TxOutput
  | .idle => (s, .idle, [])
  | .signal => ({ s with txWorkerStop := true }, .join, [])
  | .join =>
    if s.worker = .absent ∨ s.worker = .finished then
      ({ s with worker := .absent }, .resetRunning, [])
    else (s, .join, [])
  | .resetRunning => ({ s with txWorkerRunning := false }, .resetStop, [])
  | .resetStop => ({ s with txWorkerStop := false }, .clearQueue, [])
  | .clearQueue =>
    ({ s with queue := [] }, .abort .clear, s.queue.map fun item => .dropped item.number)
  | .abort pc =>
    match s.abortExec pc with
    | (s, some pc, out) => (s, .abort pc, out)
    | (s, none, out) => (s, .idle, out)

def setProducer (s : TxPipeline) (k : ℕ) (pc : ProducerPc) : TxPipeline :=
  { s with producer := Function.update s.producer k pc }

/-- The tests of `submitTxInternal` before the lock. -/
def admits (s : TxPipeline) (op : TxSubmitOp) : Bool :=
  op = .txAbort || s.connected && decide (s.sessionId ≠ 0) && !s.stopRequested

/-- The section of `submitTxInternal` under `txQueueMu`, for a `Pcm` once its wait is over. -/
def push (s : TxPipeline) (k : ℕ) (op : TxSubmitOp) : TxPipeline × List TxOutput :=
  if s.txWorkerStop = true ∧ op ≠ .txAbort then (s.setProducer k .idle, [])
  else if op = .txPcm ∧ kTxQueueCapacity ≤ s.queue.length then (s.setProducer k .idle, [])
  else
    ({ s.setProducer k .pushed with
        queue := (if op = .txOpen then [] else s.queue) ++ [⟨op, s.accepted.length⟩]
        accepted := s.accepted ++ [op] },
      if op = .txOpen then s.queue.map fun item => .dropped item.number else [])

def ensureTxWorkerStarted (s : TxPipeline) : TxPipeline :=
  if s.txWorkerRunning then s
  else { s with txWorkerStop := false, worker := .waiting, txWorkerRunning := true }

def step (s : TxPipeline) : TxAction → TxPipeline × List TxOutput
  | .elapse dt => ({ s with clock := s.clock + dt }, [])
  | .submit k op =>
    if s.producer k = .idle ∧ s.admits op = true then (s.setProducer k (.checked op), [])
    else (s, [])
  | .push k =>
    match s.producer k with
    | .checked op => s.push k op
    | _ => (s, [])
  -- the process ends where `txWorkerThread` is assigned while it is joinable
  | .ensure k =>
    if s.producer k = .pushed ∧ (s.txWorkerRunning = true ∨ s.worker = .absent) then
      (s.ensureTxWorkerStarted.setProducer k .idle, [])
    else (s, [])
  | .worker =>
    let (s', pc, out) := s.workerExec s.worker
    ({ s' with worker := pc }, out)
  -- the transport is halted before its teardown stops the pipeline
  | .stopTxPipeline =>
    if s.teardown = .idle ∧ s.connected = false then ({ s with teardown := .signal }, [])
    else (s, [])
  | .teardown =>
    let (s', pc, out) := s.teardownExec s.teardown
    ({ s' with teardown := pc }, out)
  | .lose => ({ s with connected := false }, [])
  | .stop => ({ s with stopRequested := true }, [])
  | .forgetWelcome => ({ s with sessionId := 0 }, [])

theorem step_worker {s : TxPipeline} {pc : WorkerPc} (hpc : s.worker = pc) :
    step s .worker = ({ (s.workerExec pc).1 with worker := (s.workerExec pc).2.1 },
      (s.workerExec pc).2.2) := by
  subst hpc
  rfl

/-- A session that has been welcomed. -/
def welcomed (sessionId : ℕ) (now : ℤ) : TxPipeline where
  clock := now
  sessionId := sessionId

/-- One caller submits a command. -/
def submits (op : TxSubmitOp) : List TxAction := [.submit 0 op, .push 0, .ensure 0]

end TxPipeline

end OWalkie
