import OWalkie.Core.TxPipeline

/-!
# The outgoing transmissions of the Android service

The handlers of `WalkieService` run one after the other on the main thread; the capture loop, the
roger and the call signal are coroutine jobs that run beside it.  They share a few atomic flags and
one TX queue.  Each operation on a flag and each submission to the relay is a step of its thread.  A
job that is cancelled goes on until it reaches a suspension point: the start of its body, and for
the capture loop `withContext` and the look at `isActive`.  What the recorder and the relay answer
is an input of the run.
-/

namespace OWalkie

/-! ## The jobs -/

/-- The step that `completePttReleaseAfterCapture` takes next. -/
inductive CompletePc where
  | pending
  | streaming
  | launch
  | assign (i : ℕ)
deriving Repr, DecidableEq

/-- Where the job of `onPttPress` is.  The flag says that `appendCapturedSamples` is blocking. -/
inductive CapturePc where
  | start
  | withContext
  | recorder
  | noRecorder
  | noRecorderTail
  | complete (pc : CompletePc)
  | testActive
  | testTransmitting
  | testTail
  | read (blocking : Bool)
  | testUplink (blocking : Bool)
  | txOpen (blocking : Bool)
  | opened (blocking : Bool)
  | txPcm (blocking : Bool)
  | captured
  | leftover
  | finallyTail (captureFailed : Bool)
  | failedPending
  | finallyPending
  | finallyUplink
  | txAbort
  | outerFinally
  | clearJob
  | ended
deriving Repr, DecidableEq

inductive RogerPc where
  | start
  | uplink
  | txVoiceEnd
  | stream
  | txClose
  | finallyStreaming
  | ended
deriving Repr, DecidableEq

inductive CallSignalPc where
  | start
  | txOpen
  | stream
  | txClose
  | finallyStreaming
  | ended
deriving Repr, DecidableEq

structure ServiceJob (Pc : Type) where
  /-- the number of the press or call signal that it belongs to -/
  transmission : ℕ
  cancelled : Bool := false
  pc : Pc
deriving Repr, DecidableEq

/-! ## The service -/

/-- What a handler does to the shared fields without a test. -/
inductive FlagOp where
  | transmitting (b : Bool)
  | txLoopRunning (b : Bool)
  | txUplinkOpened (b : Bool)
  | captureTailUntilNs (t : ℕ)
  | pttReleaseCompletionPending (b : Bool)
  | pttReleaseBurstPressBlocked (b : Bool)
  | rogerStreaming (b : Bool)
  | callStreaming (b : Bool)
  | serverPttLocked (b : Bool)
  | txJob (i : Option ℕ)
  | rogerJob (i : Option ℕ)
  | callSignalJob (i : Option ℕ)
  | cancelTxJob
  | cancelRogerJob
  | cancelCallSignalJob
deriving Repr, DecidableEq

/-- What the main thread does next. -/
inductive MainPc where
  | idle
  -- `onPttPress`
  | pressLocked
  | pressTransmitting
  | pressLoop
  | pressBurst
  | burstOpen
  | burstClose
  | pressCas
  | pressActive
  | pressLaunch
  -- `onPttRelease`
  | release
  | releaseGuard (wasHeld : Bool)
  | releaseTail (wasHeld : Bool)
  | releaseTest
  | complete (pc : CompletePc)
  -- `onCallSignal`
  | callLocked
  | callTransmitting
  | callRoger
  | callExchange
  | callLaunch
  -- `forceStopTransmissionFromServer`
  | stopTransmitting
  | stopRoger
  | stopCall
  -- `forceAbortAllOutgoingForPttLock`, with `onRelayPttLock`
  | lockReadRoger
  | lockReadCall
  | lockTransmitting (hadRogerOrCall : Bool)
  | lockRoger (hadRogerOrCall : Bool)
  | lockCall (hadRogerOrCall : Bool)
  | lockTest (hadRogerOrCall : Bool)
  | lockAbort
deriving Repr, DecidableEq

structure WalkieService where
  /-- in nanoseconds -/
  clock : ℕ := 0
  packetMs : ℕ
  serverPttLocked : Bool := false
  transmitting : Bool := false
  txLoopRunning : Bool := false
  txUplinkOpened : Bool := false
  captureTailUntilNs : ℕ := 0
  pttReleaseCompletionPending : Bool := false
  pttReleaseBurstCount : ℕ := 0
  pttReleaseBurstPressBlocked : Bool := false
  rogerStreaming : Bool := false
  callStreaming : Bool := false
  /-- the jobs that were launched, and the position of the one that is held on to -/
  captures : List (ServiceJob CapturePc) := []
  txJob : Option ℕ := none
  rogers : List (ServiceJob RogerPc) := []
  rogerJob : Option ℕ := none
  callSignals : List (ServiceJob CallSignalPc) := []
  callSignalJob : Option ℕ := none
  /-- the transmissions that presses and call signals have begun, and which of them is the latest
  that a press has -/
  transmissions : ℕ := 0
  pressTransmission : ℕ := 0
  /-- the stores of the main thread that come before `main` -/
  stores : List FlagOp := []
  main : MainPc := .idle

/-- What is submitted to the relay; the abort of the PTT lock is of no transmission. -/
structure RelaySubmission where
  transmission : Option ℕ
  op : TxSubmitOp
deriving Repr, DecidableEq

inductive ServiceCall where
  | onPttPress
  | onPttRelease
  | onCallSignal
  | forceStopTransmissionFromServer
  | onRelayPttLock
  | onRelayPttUnlock
deriving Repr, DecidableEq

inductive ServiceAction where
  | elapse (ns : ℕ)
  /-- the decay of the release burst guard -/
  | burstDecay
  | call (c : ServiceCall)
  /-- one step of the main thread; the relay accepts what is submitted -/
  | main (accepted : Bool)
  /-- one step of a job; `more` says that there is a recorder, or another frame -/
  | capture (i : ℕ) (more accepted : Bool)
  | roger (i : ℕ) (more accepted : Bool)
  | callSignal (i : ℕ) (more accepted : Bool)
deriving Repr, DecidableEq

namespace WalkieService

def txMicTailDrainMinMs : ℕ := 80

def txMicTailDrainPacketMultiplier : ℕ := 4

def pttReleaseBurstBlockThreshold : ℕ := 3

def micCaptureTailDrainNs (s : WalkieService) : ℕ :=
  max txMicTailDrainMinMs (s.packetMs * txMicTailDrainPacketMultiplier) * 1000000

/-- `job?.cancel()` -/
def cancel {Pc : Type} (jobs : List (ServiceJob Pc)) : Option ℕ → List (ServiceJob Pc)
  | some i => jobs.modify i fun j => { j with cancelled := true }
  | none => jobs

def store (s : WalkieService) : FlagOp → WalkieService
  | .transmitting b => { s with transmitting := b }
  | .txLoopRunning b => { s with txLoopRunning := b }
  | .txUplinkOpened b => { s with txUplinkOpened := b }
  | .captureTailUntilNs t => { s with captureTailUntilNs := t }
  | .pttReleaseCompletionPending b => { s with pttReleaseCompletionPending := b }
  | .pttReleaseBurstPressBlocked b => { s with pttReleaseBurstPressBlocked := b }
  | .rogerStreaming b => { s with rogerStreaming := b }
  | .callStreaming b => { s with callStreaming := b }
  | .serverPttLocked b => { s with serverPttLocked := b }
  | .txJob i => { s with txJob := i }
  | .rogerJob i => { s with rogerJob := i }
  | .callSignalJob i => { s with callSignalJob := i }
  | .cancelTxJob => { s with captures := cancel s.captures s.txJob }
  | .cancelRogerJob => { s with rogers := cancel s.rogers s.rogerJob }
  | .cancelCallSignalJob => { s with callSignals := cancel s.callSignals s.callSignalJob }

/-- `txJob?.isActive == true` -/
def txJobActive (s : WalkieService) : Bool :=
  match s.txJob.bind (s.captures[·]?) with
  | some j => !j.cancelled && decide (j.pc ≠ .ended)
  | none => false

def submission (transmission : Option ℕ) (op : TxSubmitOp) (accepted : Bool) :
    List RelaySubmission :=
  if accepted then
    [{ transmission := transmission
       op := op }]
  else []

/-! ## The steps of the jobs -/

/-- One step of `completePttReleaseAfterCapture`, and where it is then unless it has returned. -/
def completeExec (s : WalkieService) (transmission : ℕ) :
    CompletePc → WalkieService × Option CompletePc
  | .pending =>
    ({ s with pttReleaseCompletionPending := false },
      if s.pttReleaseCompletionPending then some .streaming else none)
  | .streaming =>
    ({ s with rogerStreaming := true }, if s.rogerStreaming then none else some .launch)
  | .launch =>
    ({ s with
        rogers := s.rogers ++
          [{ transmission := transmission
             pc := .start }] },
      some (.assign s.rogers.length))
  | .assign i => ({ s with rogerJob := some i }, none)

def captureExec (s : WalkieService) (transmission : ℕ) (cancelled more accepted : Bool) :
    CapturePc → WalkieService × CapturePc × List RelaySubmission
  | .start => (s, if cancelled then .ended else .withContext, [])
  | .withContext => (s, if cancelled then .outerFinally else .recorder, [])
  | .recorder => (s, if more then .testActive else .noRecorder, [])
  | .noRecorder => ({ s with transmitting := false }, .noRecorderTail, [])
  | .noRecorderTail => ({ s with captureTailUntilNs := 0 }, .complete .pending, [])
  | .complete pc =>
    ((s.completeExec transmission pc).1,
      match (s.completeExec transmission pc).2 with
      | some pc' => .complete pc'
      | none => .outerFinally, [])
  -- the loop of `runCaptureLoop`
  | .testActive => (s, if cancelled then .captured else .testTransmitting, [])
  | .testTransmitting => (s, if s.transmitting then .read true else .testTail, [])
  | .testTail =>
    (s, if 0 < s.captureTailUntilNs ∧ s.clock < s.captureTailUntilNs then .read true
      else .captured, [])
  -- `appendCapturedSamples`
  | .read blocking =>
    (s, if more then .testUplink blocking else if blocking then .testActive else .leftover, [])
  | .testUplink blocking =>
    (s, if s.txUplinkOpened then .txPcm blocking else .txOpen blocking, [])
  | .txOpen blocking =>
    (s, if accepted then .opened blocking else .finallyTail true,
      submission (some transmission) .txOpen accepted)
  | .opened blocking => ({ s with txUplinkOpened := true }, .txPcm blocking, [])
  | .txPcm blocking => (s, .read blocking, submission (some transmission) .txPcm accepted)
  | .captured => (s, if s.txUplinkOpened then .read false else .finallyTail false, [])
  | .leftover =>
    (s, .finallyTail false,
      if more then submission (some transmission) .txPcm accepted else [])
  | .finallyTail captureFailed =>
    ({ s with captureTailUntilNs := 0 },
      if captureFailed then .failedPending else .finallyPending, [])
  | .failedPending => ({ s with pttReleaseCompletionPending := false }, .finallyUplink, [])
  | .finallyPending =>
    (s, if s.pttReleaseCompletionPending then .complete .pending else .finallyUplink, [])
  | .finallyUplink =>
    ({ s with txUplinkOpened := false }, if s.txUplinkOpened then .txAbort else .outerFinally, [])
  | .txAbort => (s, .outerFinally, submission (some transmission) .txAbort accepted)
  | .outerFinally => ({ s with txLoopRunning := false }, .clearJob, [])
  | .clearJob => ({ s with txJob := none }, .ended, [])
  | .ended => (s, .ended, [])

def rogerExec (s : WalkieService) (transmission : ℕ) (cancelled more accepted : Bool) :
    RogerPc → WalkieService × RogerPc × List RelaySubmission
  | .start => (s, if cancelled then .ended else .uplink, [])
  | .uplink =>
    ({ s with txUplinkOpened := false },
      if s.txUplinkOpened then .txVoiceEnd else .finallyStreaming, [])
  | .txVoiceEnd => (s, .stream, submission (some transmission) .txVoiceEnd accepted)
  | .stream =>
    (s, if more then .stream else .txClose,
      if more then submission (some transmission) .txPcm accepted else [])
  | .txClose => (s, .finallyStreaming, submission (some transmission) .txClose accepted)
  | .finallyStreaming => ({ s with rogerStreaming := false }, .ended, [])
  | .ended => (s, .ended, [])

def callSignalExec (s : WalkieService) (transmission : ℕ) (cancelled more accepted : Bool) :
    CallSignalPc → WalkieService × CallSignalPc × List RelaySubmission
  | .start => (s, if cancelled then .ended else .txOpen, [])
  | .txOpen => (s, .stream, submission (some transmission) .txOpen accepted)
  | .stream =>
    (s, if more then .stream else .txClose,
      if more then submission (some transmission) .txPcm accepted else [])
  | .txClose => (s, .finallyStreaming, submission (some transmission) .txClose accepted)
  | .finallyStreaming => ({ s with callStreaming := false }, .ended, [])
  | .ended => (s, .ended, [])

/-! ## The steps of the main thread -/

def goto (s : WalkieService) (stores : List FlagOp) (main : MainPc) : WalkieService :=
  { s with
    stores := stores
    main := main }

/-- A press or a call signal begins a transmission. -/
def beginTransmission (s : WalkieService) : WalkieService :=
  { s with transmissions := s.transmissions + 1 }

def mainExec (s : WalkieService) (accepted : Bool) :
    MainPc → WalkieService × List RelaySubmission
  | .idle => (s, [])
  | .pressLocked => (s.goto [] (if s.serverPttLocked then .idle else .pressTransmitting), [])
  | .pressTransmitting => (s.goto [] (if s.transmitting then .idle else .pressLoop), [])
  | .pressLoop =>
    (if s.txLoopRunning then s.goto [] .idle
      else s.goto [.cancelRogerJob, .rogerJob none, .rogerStreaming false,
        .cancelCallSignalJob, .callSignalJob none, .callStreaming false, .transmitting true,
        .txUplinkOpened false, .captureTailUntilNs 0, .pttReleaseCompletionPending false]
        .pressBurst, [])
  | .pressBurst =>
    (if s.pttReleaseBurstPressBlocked then s.goto [.transmitting false] .burstOpen
      else s.goto [] .pressCas, [])
  | .burstOpen =>
    (s.beginTransmission.goto [] (if accepted then .burstClose else .idle),
      submission (some (s.transmissions + 1)) .txOpen accepted)
  | .burstClose => (s.goto [] .idle, submission (some s.transmissions) .txClose accepted)
  | .pressCas =>
    (if s.txLoopRunning then s.goto [.transmitting false] .idle
      else { s.goto [] .pressActive with txLoopRunning := true }, [])
  | .pressActive =>
    (if s.txJobActive then s.goto [.txLoopRunning false, .transmitting false] .idle
      else s.goto [] .pressLaunch, [])
  | .pressLaunch =>
    ({ s.beginTransmission.goto [.txJob (some s.captures.length)] .idle with
        captures := s.captures ++
          [{ transmission := s.transmissions + 1
             pc := .start }]
        pressTransmission := s.transmissions + 1 }, [])
  | .release => ({ s.goto [] (.releaseGuard s.transmitting) with transmitting := false }, [])
  | .releaseGuard wasHeld =>
    (if wasHeld = false ∧ s.txLoopRunning = false then s.goto [] .idle
      else
        { s.goto ((if pttReleaseBurstBlockThreshold ≤ s.pttReleaseBurstCount + 1 then
            [.pttReleaseBurstPressBlocked true] else []) ++ [.pttReleaseCompletionPending true])
            (.releaseTail wasHeld) with
          pttReleaseBurstCount := s.pttReleaseBurstCount + 1 }, [])
  | .releaseTail wasHeld =>
    (s.goto (if wasHeld then [.captureTailUntilNs (s.clock + s.micCaptureTailDrainNs)] else [])
      .releaseTest, [])
  | .releaseTest => (s.goto [] (if s.txLoopRunning then .idle else .complete .pending), [])
  | .complete pc =>
    ((s.completeExec s.pressTransmission pc).1.goto []
      (match (s.completeExec s.pressTransmission pc).2 with
        | some pc' => .complete pc'
        | none => .idle), [])
  | .callLocked => (s.goto [] (if s.serverPttLocked then .idle else .callTransmitting), [])
  | .callTransmitting => (s.goto [] (if s.transmitting then .idle else .callRoger), [])
  | .callRoger => (s.goto [] (if s.rogerStreaming then .idle else .callExchange), [])
  | .callExchange =>
    ({ s.goto [] (if s.callStreaming then .idle else .callLaunch) with callStreaming := true }, [])
  | .callLaunch =>
    ({ s.beginTransmission.goto [.callSignalJob (some s.callSignals.length)] .idle with
        callSignals := s.callSignals ++
          [{ transmission := s.transmissions + 1
             pc := .start }] }, [])
  | .stopTransmitting => (s.goto [] (if s.transmitting then .release else .stopRoger), [])
  | .stopRoger =>
    ({ s.goto (if s.rogerStreaming then [.cancelRogerJob, .rogerJob none] else [])
        .stopCall with
        rogerStreaming := false }, [])
  | .stopCall =>
    ({ s.goto (if s.callStreaming then [.cancelCallSignalJob, .callSignalJob none]
        else []) .idle with
        callStreaming := false }, [])
  | .lockReadRoger =>
    (s.goto [] (if s.rogerStreaming then .lockTransmitting true else .lockReadCall), [])
  | .lockReadCall => (s.goto [] (.lockTransmitting s.callStreaming), [])
  | .lockTransmitting hadRogerOrCall =>
    ({ s.goto ((if s.transmitting then
          [.captureTailUntilNs 0, .pttReleaseCompletionPending false] else []) ++
        [.cancelTxJob, .txJob none, .txLoopRunning false]) (.lockRoger hadRogerOrCall) with
        transmitting := false }, [])
  | .lockRoger hadRogerOrCall =>
    ({ s.goto (if s.rogerStreaming then [.cancelRogerJob, .rogerJob none] else [])
        (.lockCall hadRogerOrCall) with
        rogerStreaming := false }, [])
  | .lockCall hadRogerOrCall =>
    ({ s.goto (if s.callStreaming then [.cancelCallSignalJob, .callSignalJob none]
        else []) (.lockTest hadRogerOrCall) with
        callStreaming := false }, [])
  | .lockTest hadRogerOrCall =>
    (if hadRogerOrCall then s.goto [.txUplinkOpened false] .lockAbort
      else s.goto [.serverPttLocked true] .idle, [])
  | .lockAbort => (s.goto [.serverPttLocked true] .idle, submission none .txAbort accepted)

def mainStep (s : WalkieService) (accepted : Bool) : WalkieService × List RelaySubmission :=
  match s.stores with
  | op :: stores => ({ s.store op with stores := stores }, [])
  | [] => s.mainExec accepted s.main

def begin (s : WalkieService) : ServiceCall → WalkieService
  | .onPttPress => s.goto [] .pressLocked
  | .onPttRelease => s.goto [] .release
  | .onCallSignal => s.goto [] .callLocked
  | .forceStopTransmissionFromServer => s.goto [] .stopTransmitting
  | .onRelayPttLock => s.goto [] .lockReadRoger
  | .onRelayPttUnlock => s.goto [.serverPttLocked false] .idle

def setPc {Pc : Type} (jobs : List (ServiceJob Pc)) (i : ℕ) (pc : Pc) : List (ServiceJob Pc) :=
  jobs.modify i fun j => { j with pc := pc }

def step (s : WalkieService) : ServiceAction → WalkieService × List RelaySubmission
  | .elapse ns => ({ s with clock := s.clock + ns }, [])
  | .burstDecay =>
    ({ s with
        pttReleaseBurstCount := 0
        pttReleaseBurstPressBlocked := false }, [])
  | .call c => (if s.main = .idle ∧ s.stores = [] then s.begin c else s, [])
  | .main accepted => s.mainStep accepted
  | .capture i more accepted =>
    match s.captures[i]? with
    | some j =>
      let (s', pc, out) := s.captureExec j.transmission j.cancelled more accepted j.pc
      ({ s' with captures := setPc s.captures i pc }, out)
    | none => (s, [])
  | .roger i more accepted =>
    match s.rogers[i]? with
    | some j =>
      let (s', pc, out) := s.rogerExec j.transmission j.cancelled more accepted j.pc
      ({ s' with rogers := setPc s.rogers i pc }, out)
    | none => (s, [])
  | .callSignal i more accepted =>
    match s.callSignals[i]? with
    | some j =>
      let (s', pc, out) := s.callSignalExec j.transmission j.cancelled more accepted j.pc
      ({ s' with callSignals := setPc s.callSignals i pc }, out)
    | none => (s, [])

end WalkieService

end OWalkie
