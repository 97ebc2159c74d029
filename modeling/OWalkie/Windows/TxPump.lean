import Mathlib.Tactic
import OWalkie.Core.TxFraming

/-!
# The transmit path of the desktop client

Three threads share an `AudioEngine`: the UI thread with the handlers of `MainFrame`, the device
thread that calls `OnCaptureFrames`, and the pump that cuts what was captured into frames and hands
them to the relay.  A step is what a thread does between two points where another one can come in:
a critical section of `mu_`, or the access to an atomic.  Only `CloseCaptureDeviceLocked` waits
while it holds `mu_`, for the callback of the device to return (`ma_device_stop`).
-/

namespace OWalkie

/-- What can happen to the UI thread. -/
inductive UiEvent where
  | beginPttTx
  /-- also `OnTxStop` of the relay -/
  | endPttTx
  | togglePttTx
  | onCallSignalClicked
  | onServerPttLock
  | onServerPttUnlock
  /-- `OnConnectClicked` with a session -/
  | disconnect
  /-- the welcome -/
  | reconfigure (sampleRate packetMs : ℤ)
deriving Repr, DecidableEq

/-- Who stops the capture; `had` is the local of `ForceAbortOutgoingForServerPttLock`. -/
inductive StopCaller where
  | endPttTx
  | forceAbort (had : Bool)
  | disconnect
  | reconfigure (sampleRate packetMs : ℤ)
deriving Repr, DecidableEq

/-- `StreamRogerSignal` and `StreamCallSignal`. -/
inductive StreamedSignal where
  | roger
  | call
deriving Repr, DecidableEq

/-- What a thread does with a frame in the callback of `SetPcmFrameCallback`. -/
inductive FramePc where
  | test
  | txOpen
  | txPcm
deriving Repr, DecidableEq

inductive UiPc where
  | idle
  | handle (ev : UiEvent)
  -- `StartTransmit`
  | startTransmit
  | deviceStart
  | startPump
  | startFailed
  -- `StopTransmit`, and `Reconfigure` from its `close` on
  | stop (c : StopCaller)
  | stopLock (c : StopCaller)
  | close (c : StopCaller)
  | join (c : StopCaller)
  | stopped (c : StopCaller)
  -- `StreamRogerSignal`, `StreamCallSignal`
  | streamSignal (s : StreamedSignal)
  | readPattern (s : StreamedSignal)
  | stream (s : StreamedSignal) (frameSamples : ℕ) (pcmSignal : List ℤ)
  | frame (pc : FramePc) (s : StreamedSignal) (frameSamples : ℕ) (pcmSignal frame : List ℤ)
  | streamEnd (s : StreamedSignal) (ok : Bool)
  | streamed (s : StreamedSignal) (ok : Bool)
  -- the end of `ForceAbortOutgoingForServerPttLock`
  | abort (had : Bool)
deriving Repr, DecidableEq

/-- `TxPumpLoop`. -/
inductive PumpPc where
  | wait
  | frame (pc : FramePc) (framePcm : List ℤ)
  | ended
deriving Repr, DecidableEq

/-- What the threads find at their surroundings. -/
structure TxSurroundings where
  /-- `IsRelaySessionReady` -/
  relayReady : Bool := true
  /-- what `RelayClient::TxOpen` returns -/
  txOpen : Bool := true
  pttReleaseBurstBlocked : Bool := false
  deviceInit : Bool := true
  deviceStart : Bool := true
  rogerPcm : List ℤ := []
  callPcm : List ℤ := []
deriving Repr, DecidableEq

structure DesktopTx where
  surroundings : TxSurroundings := {}
  -- `MainFrame`
  serverPttLocked : Bool := false
  txUplinkOpened : Bool := false
  -- `AudioEngine`
  contextReady : Bool := true
  sampleRate : ℤ := 8000
  packetMs : ℤ := 20
  transmitting : Bool := false
  signalStreaming : Bool := false
  signalStreamAbortRequested : Bool := false
  captureActive : Bool := false
  captureFifo : List ℤ := []
  txPumpStop : Bool := false
  /-- where the thread is that `txPumpThread_` owns -/
  txPumpThread : Option PumpPc := none
  /-- the same for the local of the handler that stops it -/
  pumpJoin : Option PumpPc := none
  /-- `mu_` is held over a wait -/
  locked : Bool := false
  -- the capture device
  deviceRunning : Bool := false
  /-- the samples of a call of `OnCaptureFrames` that has passed its first test -/
  callback : Option (List ℤ) := none
  ui : UiPc := .idle
deriving Repr, DecidableEq

inductive DesktopOutput where
  /-- `StartTransmit` has set `transmitting_` -/
  | started
  | captured (pcm : List ℤ)
  /-- the callback is called with a frame of the pump -/
  | micFrame (frame : List ℤ)
  | signalFrame (frame : List ℤ)
  /-- the capture is stopped and the pump has ended -/
  | stopped
  -- the calls of `RelayClient`
  | txOpen (ok : Bool)
  | txPcm (frame : List ℤ)
  | txClose
  | txAbort
  | disconnect
deriving Repr, DecidableEq

inductive DesktopAction where
  | surroundings (e : TxSurroundings)
  | event (ev : UiEvent)
  | ui
  | pump
  | joinedPump
  | onCaptureFrames (pcm : List ℤ)
  | captureInsert
deriving Repr, DecidableEq

namespace DesktopTx

/-- `FrameSamples`; the products of the settings fit an `int`. -/
def frameSamples (s : DesktopTx) : ℤ := (s.sampleRate * s.packetMs).tdiv 1000

def signalPcm (s : DesktopTx) : StreamedSignal → List ℤ
  | .roger => s.surroundings.rogerPcm
  | .call => s.surroundings.callPcm

/-- The callback of `SetPcmFrameCallback` up to its next step, or to its end. -/
def onPcmFrame (s : DesktopTx) (frame : List ℤ) :
    FramePc → DesktopTx × Option FramePc × List DesktopOutput
  | .test => (s, some (if s.txUplinkOpened = true then .txPcm else .txOpen), [])
  | .txOpen =>
    if s.surroundings.txOpen = true then
      ({ s with txUplinkOpened := true }, some .txPcm, [.txOpen true])
    else (s, none, [.txOpen false])
  | .txPcm => (s, none, [.txPcm frame])

/-- The handler returns to the event loop. -/
def done (s : DesktopTx) (out : List DesktopOutput) : Option (DesktopTx × List DesktopOutput) :=
  some ({ s with ui := .idle }, out)

def goto (s : DesktopTx) (pc : UiPc) : Option (DesktopTx × List DesktopOutput) :=
  some ({ s with ui := pc }, [])

/-- The first step of a handler. -/
def handle (s : DesktopTx) : UiEvent → Option (DesktopTx × List DesktopOutput)
  | .beginPttTx =>
    if s.surroundings.relayReady = false ∨ s.signalStreaming = true ∨ s.transmitting = true then
      s.done []
    else if s.serverPttLocked = true then s.done []
    else if s.surroundings.pttReleaseBurstBlocked = true then s.done []
    else { s with txUplinkOpened := false }.goto .startTransmit
  | .endPttTx =>
    if s.surroundings.relayReady = false ∨ s.transmitting = false then s.done []
    else s.goto (.stop .endPttTx)
  | .togglePttTx =>
    if s.surroundings.relayReady = false then s.done []
    else if s.transmitting = true then s.goto (.handle .endPttTx)
    else s.goto (.handle .beginPttTx)
  | .onCallSignalClicked =>
    if s.surroundings.relayReady = false ∨ s.transmitting = true ∨ s.signalStreaming = true then
      s.done []
    else if s.serverPttLocked = true then s.done []
    else if s.surroundings.txOpen = true then
      some ({ s with txUplinkOpened := true, ui := .streamSignal .call }, [.txOpen true])
    else s.done [.txOpen false]
  | .onServerPttLock =>
    let had := s.transmitting || s.signalStreaming
    if s.transmitting = true then
      { s with signalStreamAbortRequested := true }.goto (.stop (.forceAbort had))
    else { s with signalStreamAbortRequested := true }.goto (.abort had)
  | .onServerPttUnlock => { s with serverPttLocked := false }.done []
  | .disconnect => s.goto (.stop .disconnect)
  | .reconfigure sampleRate packetMs =>
    if s.locked = true then none
    else if s.captureActive = true then
      { s with
        transmitting := false
        txPumpStop := true
        pumpJoin := s.txPumpThread
        txPumpThread := none
        locked := true }.goto (.close (.reconfigure sampleRate packetMs))
    else { s with sampleRate := sampleRate, packetMs := packetMs }.done []

/-- The settings that a stop brings with it. -/
def configure (s : DesktopTx) : StopCaller → DesktopTx
  | .reconfigure sampleRate packetMs => { s with sampleRate := sampleRate, packetMs := packetMs }
  | _ => s

/-- What the caller does when the capture has stopped. -/
def afterStop (s : DesktopTx) : StopCaller → Option (DesktopTx × List DesktopOutput)
  | .endPttTx => some ({ s with ui := .streamSignal .roger }, [.stopped])
  | .forceAbort had => some ({ s with ui := .abort had }, [.stopped])
  | .disconnect => s.done [.stopped, .disconnect]
  | .reconfigure _ _ => s.done [.stopped]

/-- A frame of `StreamGeneratedSignal`: the last one is padded. -/
def signalFrame (frameSamples : ℕ) (pcmSignal : List ℤ) : List ℤ :=
  TxPcm.resize frameSamples (pcmSignal.take frameSamples)

/-- One step of the UI thread, or `none` if it waits. -/
def uiStep (s : DesktopTx) : Option (DesktopTx × List DesktopOutput) :=
  match s.ui with
  | .idle => none
  | .handle ev => s.handle ev
  | .startTransmit =>
    if s.locked = true then none
    else if s.captureActive = true ∨ s.signalStreaming = true ∨ s.contextReady = false then s.done []
    else if s.surroundings.deviceInit = false then s.done []
    else some ({ s with captureFifo := [], transmitting := true, ui := .deviceStart }, [.started])
  | .deviceStart =>
    if s.surroundings.deviceStart = true then { s with deviceRunning := true }.goto .startPump
    else { s with transmitting := false }.goto .startFailed
  | .startFailed => if s.locked = true then none else s.done [.stopped]
  | .startPump =>
    if s.locked = true then none
    else
      match s.txPumpThread with
      | some _ => { s with captureActive := true }.done []
      | none =>
        { s with captureActive := true, txPumpStop := false, txPumpThread := some .wait }.done []
  | .stop c => { s with transmitting := false }.goto (.stopLock c)
  | .stopLock c =>
    if s.locked = true then none
    else { s with
      txPumpStop := true, pumpJoin := s.txPumpThread, txPumpThread := none
      locked := true }.goto (.close c)
  | .close c =>
    -- `ma_device_stop` waits for the thread of the device
    if s.captureActive = true ∧ s.callback.isSome then none
    else { s.configure c with
      captureActive := false
      deviceRunning := s.deviceRunning && !s.captureActive
      captureFifo := []
      locked := false }.goto (.join c)
  | .join c =>
    match s.pumpJoin with
    | none => s.goto (.stopped c)
    | some .ended => { s with pumpJoin := none }.goto (.stopped c)
    | some _ => none
  | .stopped c => s.afterStop c
  | .streamSignal g =>
    if s.transmitting = true ∨ s.signalStreaming = true then s.goto (.streamed g false)
    else { s with signalStreaming := true, signalStreamAbortRequested := false }.goto (.readPattern g)
  | .readPattern g =>
    if s.locked = true then none
    else if s.signalPcm g = [] then s.goto (.streamEnd g (decide (g = .roger)))
    else if s.contextReady = false ∨ s.frameSamples ≤ 0 ∨ s.packetMs ≤ 0 then
      s.goto (.streamEnd g false)
    else s.goto (.stream g s.frameSamples.toNat (s.signalPcm g))
  | .stream g n pcmSignal =>
    if pcmSignal = [] then s.goto (.streamEnd g true)
    else if s.signalStreamAbortRequested = true then
      { s with signalStreamAbortRequested := false }.goto (.streamEnd g false)
    else
      let frame := signalFrame n pcmSignal
      some ({ s with ui := .frame .test g n (pcmSignal.drop n) frame }, [.signalFrame frame])
  | .frame pc g n pcmSignal frame =>
    match s.onPcmFrame frame pc with
    | (s, some pc, out) => some ({ s with ui := .frame pc g n pcmSignal frame }, out)
    | (s, none, out) => some ({ s with ui := .stream g n pcmSignal }, out)
  | .streamEnd g ok => { s with signalStreaming := false }.goto (.streamed g ok)
  | .streamed g ok =>
    -- `EndPttTx` closes in any case, `OnCallSignalClicked` after a signal that was sent
    if g = .roger ∨ ok = true then { s with txUplinkOpened := false }.done [.txClose] else s.done []
  | .abort had =>
    if had = true then { s with txUplinkOpened := false, serverPttLocked := true }.done [.txAbort]
    else { s with serverPttLocked := true }.done []

/-- One step of a pump, or `none` if it waits. -/
def pumpStep (s : DesktopTx) : PumpPc → Option (DesktopTx × PumpPc × List DesktopOutput)
  | .wait =>
    if s.locked = true then none
    else if s.txPumpStop = true then some (s, .ended, [])
    else if s.transmitting = true ∧ 0 < s.frameSamples ∧
        s.frameSamples ≤ TxPcm.castInt s.captureFifo.length then
      let frame := s.frameSamples.toNat
      some ({ s with captureFifo := s.captureFifo.drop frame },
        .frame .test (s.captureFifo.take frame), [.micFrame (s.captureFifo.take frame)])
    else none
  | .frame pc framePcm =>
    match s.onPcmFrame framePcm pc with
    | (s, some pc, out) => some (s, .frame pc framePcm, out)
    | (s, none, out) => some (s, .wait, out)
  | .ended => none

/-- The first test of `OnCaptureFrames`. -/
def onCaptureFrames (s : DesktopTx) (pcm : List ℤ) : DesktopTx :=
  if s.deviceRunning = false ∨ s.callback.isSome then s
  else if s.transmitting = false ∨ pcm = [] then s
  else { s with callback := some pcm }

/-- The rest of `OnCaptureFrames`, or `none` if it waits. -/
def captureInsert (s : DesktopTx) : Option (DesktopTx × List DesktopOutput) :=
  match s.callback with
  | none => none
  | some pcm =>
    if s.locked = true then none
    else if s.transmitting = false then some ({ s with callback := none }, [])
    else some ({ s with captureFifo := s.captureFifo ++ pcm, callback := none }, [.captured pcm])

def step (s : DesktopTx) : DesktopAction → DesktopTx × List DesktopOutput
  | .surroundings e => ({ s with surroundings := e }, [])
  | .event ev => if s.ui = .idle then ({ s with ui := .handle ev }, []) else (s, [])
  | .ui => s.uiStep.getD (s, [])
  | .pump =>
    match s.txPumpThread.bind s.pumpStep with
    | some (s, pc, out) => ({ s with txPumpThread := some pc }, out)
    | none => (s, [])
  | .joinedPump =>
    match s.pumpJoin.bind s.pumpStep with
    | some (s, pc, out) => ({ s with pumpJoin := some pc }, out)
    | none => (s, [])
  | .onCaptureFrames pcm => (s.onCaptureFrames pcm, [])
  | .captureInsert => s.captureInsert.getD (s, [])

theorem onPcmFrame_cases {s s' : DesktopTx} {frame : List ℤ} {pc : FramePc} {next : Option FramePc}
    {out : List DesktopOutput} (h : s.onPcmFrame frame pc = (s', next, out)) :
    (∃ opened, s' = { s with txUplinkOpened := opened }) ∧
      ∀ pc', next = some pc' → pc = .test ∧ pc' ≠ .test ∨ pc = .txOpen ∧ pc' = .txPcm := by
  cases pc with
  | test =>
    cases h
    refine ⟨⟨_, rfl⟩, ?_⟩
    rintro pc' hpc'
    split at hpc' <;> cases hpc' <;> exact Or.inl ⟨rfl, nofun⟩
  | txOpen =>
    simp only [onPcmFrame] at h
    split at h <;> cases h
    · exact ⟨⟨_, rfl⟩, fun pc' hpc' => Or.inr ⟨rfl, (Option.some.inj hpc').symm⟩⟩
    · exact ⟨⟨_, rfl⟩, nofun⟩
  | txPcm =>
    cases h
    exact ⟨⟨_, rfl⟩, nofun⟩

end DesktopTx

end OWalkie
