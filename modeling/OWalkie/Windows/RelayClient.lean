import OWalkie.Core.SessionManager

/-!
# The reconnect loop of the desktop client

`RelayClient` is used from the UI thread, runs its reconnect loop on a thread of its own and gets
the events of its session on the thread that raises them, which may be the one that calls
`SessionManager::connect`.  A thread has a stack of frames and each test, exchange, store, join and
call into the manager is a step of its top frame; what the manager answers and which events it
raises are inputs of the run.  `never_stops_itself`: as long as no event that stops the loop is
raised on the thread of the loop, that thread does not run `StopReconnectLoop`.
-/

namespace OWalkie

open Run

inductive ClientThread where
  | ui
  /-- the thread that the `n`-th `StartReconnectLoop` has created -/
  | reconnect (n : ℕ)
  /-- a thread of the session manager -/
  | session (n : ℕ)
deriving Repr, DecidableEq

/-- A function of `RelayClient` with the step it takes next. -/
inductive RelayFrame where
  -- `StopReconnectLoop`
  | stopExchange
  | stopJoinable
  | stopJoin
  -- `HandleSessionEvent`
  | handle (e : Event)
  | clearManagedSession
  -- `TryReconnect`, with `SessionManager::connect`
  | tryId
  | tryInFlight
  | tryValid
  | managerConnect
  | tryDone
  -- `Disconnect`
  | disconnectId
  | haltAndRelease
  -- `Connect`, with `StartReconnectLoop`
  | prepare (id : SessionId)
  | startExchange
  | startThread
  | startAssign (n : ℕ)
  -- the loop
  | loopTest
  | loopId
  | loopInfo
  | loopInFlight
  | backoff
deriving Repr, DecidableEq

/-- An operation of `std::thread` that throws. -/
inductive ProcessEnd where
  /-- a thread joins itself -/
  | selfJoin
  /-- a thread is assigned to a joinable object -/
  | assignJoinable
  | notJoinable
deriving Repr, DecidableEq

structure RelayClient where
  /-- `sessionId_`, zero without a session -/
  sessionId : SessionId := 0
  reconnectLoopRunning : Bool := false
  connectInFlight : Bool := false
  /-- the thread of `reconnectThread_` while that is joinable -/
  reconnectThread : Option ℕ := none
  /-- how many threads have been created -/
  created : ℕ := 0
  stack : ClientThread → List RelayFrame := fun _ => []
  ended : Option ProcessEnd := none

inductive RelayCall where
  | connect (id : SessionId)
  | disconnect
  | destroy
deriving Repr, DecidableEq

inductive RelayAction where
  /-- the UI thread begins a call; `prepareConnection` will return the id -/
  | call (c : RelayCall)
  /-- a step of a thread, with what the session manager answers in it -/
  | run (t : ClientThread) (answer : Bool)
  /-- a thread of the manager, or one that is in `SessionManager::connect`, raises an event -/
  | event (t : ClientThread) (e : Event)
  /-- `SessionManager::connect` ends, with the result of the attempt if it made one -/
  | connectEnds (t : ClientThread) (attempt : Option Result)
deriving Repr, DecidableEq

/-- `HandleSessionEvent` stops the loop on the event. -/
def Event.stopsLoop : Event → Bool
  | .connectionFailed _ | .disconnected | .protocolError _ => true
  | _ => false

def RelayFrame.stops : RelayFrame → Bool
  | .stopExchange | .stopJoinable | .stopJoin => true
  | _ => false

namespace RelayClient

def setStack (s : RelayClient) (t : ClientThread) (frames : List RelayFrame) : RelayClient :=
  { s with stack := Function.update s.stack t frames }

/-- One step of the top frame of a thread: the shared state, and the frames in its place. -/
def exec (s : RelayClient) (t : ClientThread) (answer : Bool) :
    RelayFrame → RelayClient × List RelayFrame
  | .stopExchange =>
    ({ s with reconnectLoopRunning := false },
      if s.reconnectLoopRunning then [.stopJoinable] else [])
  | .stopJoinable => (s, if s.reconnectThread.isSome then [.stopJoin] else [])
  | .stopJoin =>
    match s.reconnectThread with
    | none => ({ s with ended := some .notJoinable }, [.stopJoin])
    | some n =>
      if t = .reconnect n then ({ s with ended := some .selfJoin }, [.stopJoin])
      else if s.stack (.reconnect n) = [] then ({ s with reconnectThread := none }, [])
      else (s, [.stopJoin])
  | .handle e => (s, if e.stopsLoop then [.stopExchange, .clearManagedSession] else [])
  | .clearManagedSession => ({ s with sessionId := 0 }, [])
  | .tryId => (s, if s.sessionId = 0 then [] else [.tryInFlight])
  | .tryInFlight =>
    ({ s with connectInFlight := true }, if s.connectInFlight then [] else [.tryValid])
  | .tryValid => (s, if answer then [.managerConnect, .tryDone] else [.tryDone])
  | .managerConnect => (s, [.managerConnect])
  | .tryDone => ({ s with connectInFlight := false }, [])
  | .disconnectId => ({ s with sessionId := 0 }, if s.sessionId = 0 then [] else [.haltAndRelease])
  | .haltAndRelease => (s, [])
  | .prepare id =>
    if answer then ({ s with sessionId := id }, [.startExchange, .tryId]) else (s, [])
  | .startExchange =>
    ({ s with reconnectLoopRunning := true },
      if s.reconnectLoopRunning then [] else [.startThread])
  | .startThread =>
    ({ s.setStack (.reconnect s.created) [.loopTest] with created := s.created + 1 },
      [.startAssign s.created])
  | .startAssign n =>
    if s.reconnectThread.isSome then ({ s with ended := some .assignJoinable }, [.startAssign n])
    else ({ s with reconnectThread := some n }, [])
  | .loopTest => (s, if s.reconnectLoopRunning then [.loopId] else [])
  | .loopId => (s, if s.sessionId = 0 then [.loopTest] else [.loopInfo])
  -- `IsConnected() || transportUp`
  | .loopInfo => (s, if answer then [.loopTest] else [.loopInFlight])
  | .loopInFlight => (s, if s.connectInFlight then [.loopTest] else [.tryId, .backoff])
  | .backoff => (s, [.loopTest])

/-- The frames of a call on the UI thread. -/
def callFrames : RelayCall → List RelayFrame
  | .connect id => [.stopExchange, .disconnectId, .prepare id]
  | .disconnect => [.stopExchange, .disconnectId]
  | .destroy => [.stopExchange, .stopExchange, .disconnectId]

/-- The frames that the end of `SessionManager::connect` leaves. -/
def connectFrames : Option Result → List RelayFrame
  | some r =>
    if r.fatal then
      [.handle (.connectionFailed
        (if r = .invalidArg then "invalid connect parameters" else "connect failed"))]
    else []
  | none => []

/-- The thread may raise an event. -/
def mayRaise (s : RelayClient) : ClientThread → Bool
  | .session n => (s.stack (.session n)).isEmpty
  | t => (s.stack t).head? = some .managerConnect

def step (s : RelayClient) (a : RelayAction) : RelayClient :=
  if s.ended.isSome then s
  else
    match a with
    | .call c => if s.stack .ui = [] then s.setStack .ui (callFrames c) else s
    | .run t answer =>
      match s.stack t with
      | [] => s
      | frame :: frames =>
        (s.exec t answer frame).1.setStack t ((s.exec t answer frame).2 ++ frames)
    | .event t e => if s.mayRaise t then s.setStack t (.handle e :: s.stack t) else s
    | .connectEnds t attempt =>
      match s.stack t with
      | .managerConnect :: frames => s.setStack t (connectFrames attempt ++ frames)
      | _ => s

/-! ## The thread of the loop -/

/-- The loop runs `StopReconnectLoop` while its own thread is joinable. -/
def StopsItself (s : RelayClient) : Prop :=
  ∃ n, s.reconnectThread = some n ∧ ∃ frame ∈ s.stack (.reconnect n), frame.stops = true

/-- An event that stops the loop is raised on a thread of a loop, in `SessionManager::connect`. -/
def RaisesOnLoop (s : RelayClient) : RelayAction → Prop
  | .event (.reconnect n) e => s.mayRaise (.reconnect n) = true ∧ e.stopsLoop = true
  | .connectEnds (.reconnect n) (some r) => s.mayRaise (.reconnect n) = true ∧ r.fatal = true
  | _ => False

instance (s : RelayClient) (a : RelayAction) : Decidable (s.RaisesOnLoop a) := by
  unfold RaisesOnLoop
  split <;> exact inferInstance

end RelayClient

/-- The frames that the thread of a loop has when it is not told to stop itself. -/
def RelayFrame.looping : RelayFrame → Bool
  | .tryId | .tryInFlight | .tryValid | .managerConnect | .tryDone | .loopTest | .loopId
  | .loopInfo | .loopInFlight | .backoff => true
  | .handle e => !e.stopsLoop
  | _ => false

namespace RelayClient

/-- No thread of a loop is in `StopReconnectLoop`, or on the way to it. -/
structure LoopInv (s : RelayClient) : Prop where
  looping : ∀ n, ∀ frame ∈ s.stack (.reconnect n), frame.looping = true
  ended : s.ended ≠ some .selfJoin

variable {s : RelayClient} {t : ClientThread} {answer : Bool} {frame : RelayFrame}
  {frames : List RelayFrame}

theorem not_stops_of_looping (h : frame.looping = true) : frame.stops = false := by
  cases frame <;> first | rfl | cases h

theorem exec_looping (h : frame.looping = true) :
    ∀ frame' ∈ (s.exec t answer frame).2, frame'.looping = true := by
  cases frame with
  | handle e =>
    have he : e.stopsLoop = false := by simpa [RelayFrame.looping] using h
    simp [exec, he]
  | tryId | tryInFlight | tryValid | loopTest | loopId | loopInfo | loopInFlight =>
    simp only [exec]
    split_ifs <;> simp [RelayFrame.looping]
  | managerConnect | tryDone | backoff => simp [exec, RelayFrame.looping]
  | _ => cases h

/-- Only `StartReconnectLoop` gives a thread of a loop its frames. -/
theorem exec_stack (s : RelayClient) (t : ClientThread) (answer : Bool) (frame : RelayFrame)
    (n : ℕ) : (s.exec t answer frame).1.stack (.reconnect n) = s.stack (.reconnect n) ∨
      (s.exec t answer frame).1.stack (.reconnect n) = [.loopTest] := by
  cases frame with
  | startThread =>
    by_cases hn : n = s.created
    · refine Or.inr ?_
      rw [hn]
      exact Function.update_self ..
    · exact Or.inl (Function.update_of_ne (by simpa using hn) _ _)
  | stopJoin =>
    simp only [exec]
    split
    · exact Or.inl rfl
    · split_ifs <;> exact Or.inl rfl
  | prepare | startAssign =>
    simp only [exec]
    split_ifs <;> exact Or.inl rfl
  | _ => exact Or.inl rfl

theorem exec_ended (h : s.ended ≠ some .selfJoin)
    (hself : ∀ n, t = .reconnect n → frame ≠ .stopJoin) :
    (s.exec t answer frame).1.ended ≠ some .selfJoin := by
  cases frame with
  | stopJoin =>
    simp only [exec]
    split
    · nofun
    · next n _ =>
      split_ifs with ht
      · exact absurd rfl (hself n ht)
      · exact h
      · exact h
  | prepare | startAssign =>
    simp only [exec]
    split_ifs
    all_goals first | exact h | nofun
  | _ => exact h

/-- Frames of one thread are replaced. -/
theorem LoopInv.setStack (h : LoopInv s)
    (hframes : ∀ n, t = .reconnect n → ∀ frame ∈ frames, frame.looping = true) :
    LoopInv (s.setStack t frames) := by
  refine ⟨fun n => ?_, h.ended⟩
  unfold RelayClient.setStack
  by_cases ht : t = .reconnect n
  · subst ht
    simp only [Function.update_self]
    exact hframes n rfl
  · simp only [Function.update_of_ne (Ne.symm ht)]
    exact h.looping n

theorem LoopInv.step (h : LoopInv s) (a : RelayAction) (hC : ¬ s.RaisesOnLoop a) :
    LoopInv (s.step a) := by
  unfold RelayClient.step
  by_cases hended : s.ended.isSome = true
  · rw [if_pos hended]
    exact h
  rw [if_neg hended]
  cases a with
  | call c =>
    simp only
    split_ifs
    · exact h.setStack nofun
    · exact h
  | run t answer =>
    simp only
    split
    · exact h
    · next frame frames hstack =>
      have hexec : LoopInv (s.exec t answer frame).1 := by
        refine ⟨fun n => ?_, exec_ended h.ended ?_⟩
        · rcases exec_stack s t answer frame n with heq | heq
          · rw [heq]
            exact h.looping n
          · rw [heq]
            simp [RelayFrame.looping]
        · rintro n rfl rfl
          have hlooping := h.looping n .stopJoin (by simp [hstack])
          cases hlooping
      refine hexec.setStack ?_
      rintro n rfl frame' hframe'
      rcases List.mem_append.1 hframe' with hnew | hold
      · exact exec_looping (h.looping n frame (by simp [hstack])) frame' hnew
      · exact h.looping n frame' (by simp [hstack, hold])
  | event t e =>
    simp only
    split_ifs with hraise
    · refine h.setStack ?_
      rintro n rfl frame hframe
      rcases List.mem_cons.1 hframe with rfl | hold
      · have he : ¬ e.stopsLoop = true := fun he => hC ⟨hraise, he⟩
        simpa [RelayFrame.looping] using he
      · exact h.looping n frame hold
    · exact h
  | connectEnds t attempt =>
    simp only
    split
    · next frames hstack =>
      refine h.setStack ?_
      rintro n rfl frame hframe
      rcases List.mem_append.1 hframe with hnew | hold
      · cases attempt with
        | none => cases hnew
        | some r =>
          have hr : r.fatal = false := by
            by_contra hf
            exact hC ⟨by simp [mayRaise, hstack], by simpa using hf⟩
          simp [connectFrames, hr] at hnew
      · exact h.looping n frame (by simp [hstack, hold])
    · exact h

theorem loopInv_init : LoopInv {} := by
  refine ⟨fun n frame hframe => ?_, by simp⟩
  cases hframe

/-- As long as no event that stops the loop is raised on the thread of the loop, that thread does
not run `StopReconnectLoop` and does not join itself. -/
theorem never_stops_itself (as : List RelayAction)
    (h : Along step (fun s a => ¬ s.RaisesOnLoop a) {} as) :
    ¬ (after step {} as).StopsItself ∧ (after step {} as).ended ≠ some .selfJoin := by
  have hinv : LoopInv (after step {} as) :=
    invariant_along (fun _ a hI hC => hI.step a hC) loopInv_init h
  refine ⟨?_, hinv.ended⟩
  rintro ⟨n, -, frame, hframe, hstops⟩
  rw [not_stops_of_looping (hinv.looping n frame hframe)] at hstops
  cases hstops

/-- Otherwise the thread joins itself, unless another thread stops the loop first. -/
theorem joins_itself {n : ℕ} {r : Result}
    (hstack : s.stack (.reconnect n) = .managerConnect :: frames)
    (hthread : s.reconnectThread = some n) (hrunning : s.reconnectLoopRunning = true)
    (hended : s.ended = none) (hr : r.fatal = true) :
    (after step s (.connectEnds (.reconnect n) (some r) ::
      List.replicate 4 (.run (.reconnect n) true))).ended = some .selfJoin := by
  simp [List.replicate, step, hended, hstack, connectFrames, hr, setStack, exec, Event.stopsLoop,
    hthread, hrunning]

/-- The loop gets to its first attempt before the UI thread does, and the attempt ends with
`result`. -/
def firstAttempt (result : Result) : List RelayAction :=
  .call (.connect 1) :: List.replicate 6 (.run .ui true) ++
    List.replicate 6 (.run (.reconnect 0) false) ++
      [.run (.reconnect 0) true, .connectEnds (.reconnect 0) (some result)] ++
        List.replicate 4 (.run (.reconnect 0) false)

theorem never_stops_itself_network :
    (after step {} (firstAttempt .network)).ended ≠ some .selfJoin :=
  (never_stops_itself (firstAttempt .network) (by decide +kernel)).2

/-- `connect` raises `ConnectionFailed` on the thread of the loop, which then joins itself. -/
theorem loop_joins_itself : (after step {} (firstAttempt .unsupported)).ended = some .selfJoin := by
  decide +kernel

end RelayClient

end OWalkie
