import OWalkie.Lib.Run
import OWalkie.Core.SessionState

/-!
# The threads of one connection

The WebSocket thread, the UDP reader, the keepalive thread and the callers of `disconnect` share
five atomics and the state that `emitEvent` folds.  Each load with its branch, each store, each
exchange, the halt and each `emitEvent` is one step of a thread, and the threads take their steps
in any order.

`Up` says that the state, or the last lifecycle event, reports a connection.  Along a run whose
steps are `Guarded`, `Up` holds only while the transport is up or some thread is `Due` to report
the end of the connection; `lifecycle_settles` is what this leaves when all threads are at rest.
-/

namespace OWalkie

/-- The WebSocket thread, the UDP reader, the keepalive thread, and the calls of `disconnect`, one
that a callback makes included. -/
inductive Thread where
  | ws
  | udp
  | keepalive
  | call (n : ℕ)
deriving Repr, DecidableEq

/-- The step that a thread takes next. -/
inductive ThreadPc where
  | idle
  | ended
  -- `onWsAsyncRead` and the handler of `async_write`, with an error
  | ioError (reason : String)
  | ioErrorStore (reason : String)
  -- `signalRecoverableLoss`
  | lossGuard (reason : String)
  | lossStore (reason : String)
  | lossHalt (reason : String)
  | lossExchange (reason : String)
  | lossRxEnd (reason : String)
  | lossEmit (reason : String)
  -- `handleWsText` with a message that does not parse
  | protocolStore
  | protocolEmit
  -- `handleWelcome`, and what follows `handleWsText` in `onWsAsyncRead`
  | welcomeEmit (cfg : WelcomeConfig)
  | connectedEmit (cfg : WelcomeConfig)
  | udpReadyEmit
  | readNext
  -- `disconnectInternal`, and `finalizeTransportTeardown` (`final`)
  | disconnectExchange
  | disconnectHalt (first : Bool)
  | disconnectedExchange (final : Bool)
  | disconnectedEmit (final : Bool)
  | clearTransportState
deriving Repr, DecidableEq

/-- What a thread begins. -/
inductive Path where
  | readError (reason : String)
  | writeError (reason : String)
  | loss (reason : String)
  | protocolError
  | welcome (cfg : WelcomeConfig)
  | disconnect
deriving Repr, DecidableEq

/-- One connection of a session.  `reading` says that an `async_read` is outstanding, and `emitted`
lists the events, the last one first. -/
structure Lifecycle where
  connected : Bool
  stopRequested : Bool
  disconnectStarted : Bool
  disconnectEventEmitted : Bool
  connectionLostSignaled : Bool
  reading : Bool
  sessionState : SessionState
  emitted : List Event
  pc : Thread → ThreadPc

inductive LifecycleAction where
  | start (t : Thread) (path : Path)
  | run (t : Thread)
deriving Repr, DecidableEq

/-- Where a thread is when it has nothing to do: the two loops end with the loss they signal. -/
def Thread.rest : Thread → ThreadPc
  | .udp | .keepalive => .ended
  | .ws | .call _ => .idle

namespace Lifecycle

open Run

/-- The end of `connectInternal`. -/
def begin (sessionState : SessionState) : Lifecycle where
  connected := true
  stopRequested := false
  disconnectStarted := false
  disconnectEventEmitted := false
  connectionLostSignaled := false
  reading := true
  sessionState := sessionState
  emitted := []
  pc := fun _ => .idle

def emitEvent (s : Lifecycle) (e : Event) : Lifecycle :=
  { s with
    sessionState := s.sessionState.applyEventState e
    emitted := e :: s.emitted }

def haltTransport (s : Lifecycle) : Lifecycle :=
  { s with
    stopRequested := true
    connected := false }

/-- One step of a thread: what it does to the shared state, and where the thread is then. -/
def exec (s : Lifecycle) (t : Thread) : ThreadPc → Lifecycle × ThreadPc
  | .idle => (s, .idle)
  | .ended => (s, .ended)
  | .ioError reason => (s, if s.stopRequested then t.rest else .ioErrorStore reason)
  | .ioErrorStore reason => ({ s with connected := false }, .lossGuard reason)
  | .lossGuard reason => (s, if s.disconnectStarted then t.rest else .lossStore reason)
  | .lossStore reason => ({ s with connected := false }, .lossHalt reason)
  | .lossHalt reason => (s.haltTransport, .lossExchange reason)
  | .lossExchange reason =>
    if s.connectionLostSignaled then (s, t.rest)
    else ({ s with connectionLostSignaled := true }, .lossRxEnd reason)
  | .lossRxEnd reason => (s.emitEvent (.rxBroadcastEnd 0), .lossEmit reason)
  | .lossEmit reason => (s.emitEvent (.connectionLost reason), t.rest)
  | .protocolStore => ({ s with connected := false }, .protocolEmit)
  | .protocolEmit => (s.emitEvent (.protocolError "protocol mismatch"), t.rest)
  | .welcomeEmit cfg => (s.emitEvent (.welcome cfg), .connectedEmit cfg)
  | .connectedEmit cfg => (s.emitEvent (.connected cfg), .udpReadyEmit)
  | .udpReadyEmit => (s.emitEvent .udpTransportReady, .readNext)
  | .readNext => ({ s with reading := s.connected && !s.stopRequested }, t.rest)
  | .disconnectExchange =>
    if s.disconnectStarted then (s, .disconnectHalt false)
    else ({ s with disconnectStarted := true }, .disconnectHalt true)
  | .disconnectHalt first =>
    (s.haltTransport, if first then .disconnectedExchange false else t.rest)
  | .disconnectedExchange final =>
    if s.disconnectEventEmitted then (s, if final then t.rest else .clearTransportState)
    else ({ s with disconnectEventEmitted := true }, .disconnectedEmit final)
  | .disconnectedEmit final =>
    (s.emitEvent .disconnected, if final then t.rest else .clearTransportState)
  | .clearTransportState => ({ s with connected := false }, .disconnectedExchange true)

/-- The threads that may begin a path, when they are idle. -/
def CanStart (s : Lifecycle) : Thread → Path → Prop
  | .ws, .readError _ | .ws, .protocolError | .ws, .welcome _ => s.reading = true
  | .ws, .writeError _ => True
  | .udp, .loss _ | .keepalive, .loss _ => True
  | .call _, .disconnect => True
  | _, _ => False

instance (s : Lifecycle) : ∀ t path, Decidable (s.CanStart t path) := by
  intro t path
  unfold CanStart
  split <;> infer_instance

def entry : Path → ThreadPc
  | .readError reason | .writeError reason => .ioError reason
  | .loss reason => .lossGuard reason
  | .protocolError => .protocolStore
  | .welcome cfg => .welcomeEmit cfg
  | .disconnect => .disconnectExchange

/-- The handler of a read uses up the outstanding `async_read`. -/
def keepsReading : Path → Bool
  | .readError _ | .protocolError | .welcome _ => false
  | .writeError _ | .loss _ | .disconnect => true

def goto (s : Lifecycle) (t : Thread) (pc : ThreadPc) : Lifecycle :=
  { s with pc := Function.update s.pc t pc }

def step (s : Lifecycle) : LifecycleAction → Lifecycle
  | .start t path =>
    if s.pc t = .idle ∧ s.CanStart t path then
      { s with reading := s.reading && keepsReading path }.goto t (entry path)
    else s
  | .run t => (s.exec t (s.pc t)).1.goto t (s.exec t (s.pc t)).2

/-- The last of the `Connected`, `ConnectionLost`, `Disconnected` and `ProtocolError` events. -/
def lastLifecycle (s : Lifecycle) : Option Event :=
  s.emitted.find? fun e =>
    e matches .connected _ | .connectionLost _ | .disconnected | .protocolError _

/-- No thread has a step pending. -/
def Quiescent (s : Lifecycle) : Prop :=
  ∀ t, s.pc t = .idle ∨ s.pc t = .ended

/-- What the application is told is that the connection has ended. -/
structure Settled (s : Lifecycle) : Prop where
  connected : s.sessionState.connected = false
  udpReady : s.sessionState.udpReady = false
  last : ∀ cfg, s.lastLifecycle ≠ some (.connected cfg)
  disconnected : s.disconnectStarted = true → s.lastLifecycle = some .disconnected

/-! ## What is pending -/

/-- The state or the last lifecycle event reports a connection. -/
def Up (s : Lifecycle) : Prop :=
  s.sessionState.connected = true ∨ s.sessionState.udpReady = true ∨
    ∃ cfg, s.lastLifecycle = some (.connected cfg)

/-- A thread at this step is about to emit `Disconnected`. -/
def DisconnectDue (s : Lifecycle) : ThreadPc → Prop
  | .disconnectHalt true | .disconnectedExchange _ => s.disconnectEventEmitted = false
  | .disconnectedEmit _ => True
  | _ => False

/-- A thread at this step is about to report the end of the connection. -/
def Due (s : Lifecycle) : ThreadPc → Prop
  | .ioError _ =>
    s.stopRequested = false ∧ s.disconnectStarted = false ∧ s.connectionLostSignaled = false
  | .ioErrorStore _ | .lossGuard _ =>
    s.disconnectStarted = false ∧ s.connectionLostSignaled = false
  | .lossStore _ | .lossHalt _ | .lossExchange _ => s.connectionLostSignaled = false
  | .lossRxEnd _ | .lossEmit _ | .protocolStore | .protocolEmit => True
  | .disconnectExchange => s.disconnectStarted = false
  | pc => s.DisconnectDue pc

def DownDue (s : Lifecycle) : Prop := ∃ t, s.Due (s.pc t)

/-- The condition of a step: a connection is reported only while there is one or its end is due,
and nothing but `Disconnected` is reported after `Disconnected`. -/
def GuardedAt (s : Lifecycle) : ThreadPc → Prop
  | .connectedEmit _ => (s.connected = true ∨ s.DownDue) ∧ Event.disconnected ∉ s.emitted
  | .udpReadyEmit => s.connected = true ∨ s.DownDue
  | .lossEmit _ | .protocolEmit => Event.disconnected ∉ s.emitted
  | _ => True

def Guarded (s : Lifecycle) : LifecycleAction → Prop
  | .start _ _ => True
  | .run t => s.GuardedAt (s.pc t)

/-- What holds of a thread at this step, whatever the other threads do. -/
def PcInv (s : Lifecycle) : ThreadPc → Prop
  | .lossHalt _ | .lossExchange _ | .lossRxEnd _ | .lossEmit _ | .protocolEmit =>
    s.connected = false
  | .disconnectHalt _ => s.disconnectStarted = true
  | .disconnectedExchange _ | .clearTransportState =>
    s.disconnectStarted = true ∧ s.connected = false
  | .disconnectedEmit _ =>
    s.disconnectStarted = true ∧ s.connected = false ∧ s.disconnectEventEmitted = true
  | _ => True

@[simp] theorem pcInv_rest (s : Lifecycle) (t : Thread) : s.PcInv t.rest := by
  cases t <;> trivial

theorem DisconnectDue.due {s : Lifecycle} {pc : ThreadPc} (h : s.DisconnectDue pc) : s.Due pc := by
  cases pc <;> first | exact h | exact h.elim

/-- The atomics only move one way, and an event that has been emitted stays emitted. -/
structure Later (s s' : Lifecycle) : Prop where
  connected : s.connected = false → s'.connected = false
  disconnectStarted : s.disconnectStarted = true → s'.disconnectStarted = true
  disconnectEventEmitted : s.disconnectEventEmitted = true → s'.disconnectEventEmitted = true
  emitted : s.emitted <:+ s'.emitted

theorem PcInv.later {s s' : Lifecycle} (h : s.Later s') {pc : ThreadPc} (hpc : s.PcInv pc) :
    s'.PcInv pc := by
  cases pc with
  | lossHalt | lossExchange | lossRxEnd | lossEmit | protocolEmit => exact h.connected hpc
  | disconnectHalt => exact h.disconnectStarted hpc
  | disconnectedExchange | clearTransportState =>
    exact ⟨h.disconnectStarted hpc.1, h.connected hpc.2⟩
  | disconnectedEmit =>
    exact ⟨h.disconnectStarted hpc.1, h.connected hpc.2.1, h.disconnectEventEmitted hpc.2.2⟩
  | _ => trivial

theorem later_exec (s : Lifecycle) (t : Thread) (pc : ThreadPc) : s.Later (s.exec t pc).1 := by
  cases pc with
  | lossExchange | disconnectExchange | disconnectedExchange =>
    unfold exec
    split_ifs <;> constructor <;> simp
  | _ => constructor <;> simp [exec, haltTransport, emitEvent]

theorem pc_exec (s : Lifecycle) (t : Thread) (pc : ThreadPc) : (s.exec t pc).1.pc = s.pc := by
  cases pc with
  | lossExchange | disconnectExchange | disconnectedExchange =>
    unfold exec
    split_ifs <;> rfl
  | _ => rfl

structure LifecycleInv (s : Lifecycle) : Prop where
  pcs : ∀ t, s.PcInv (s.pc t)
  signaled : s.connectionLostSignaled = true → s.connected = false
  eventEmitted : s.disconnectEventEmitted = true → s.disconnectStarted = true ∧ s.connected = false
  started : s.disconnectStarted = true →
    Event.disconnected ∈ s.emitted ∨ ∃ t, s.DisconnectDue (s.pc t)
  last : Event.disconnected ∈ s.emitted →
    s.lastLifecycle = some .disconnected ∧ s.disconnectEventEmitted = true
  up : s.Up → s.connected = true ∨ s.DownDue

theorem LifecycleInv.eventEmitted_eq_false {s : Lifecycle} (h : s.LifecycleInv)
    (hs : ¬ s.disconnectStarted = true ∨ s.connected = true) :
    s.disconnectEventEmitted = false := by
  rw [← Bool.not_eq_true]
  intro hemitted
  obtain ⟨hstarted, hdown⟩ := h.eventEmitted hemitted
  rcases hs with hs | hconn
  · exact hs hstarted
  · simp [hdown] at hconn

theorem LifecycleInv.signaled_eq_false {s : Lifecycle} (h : s.LifecycleInv)
    (hconn : s.connected = true) : s.connectionLostSignaled = false := by
  rw [← Bool.not_eq_true]
  intro hsignaled
  simp [h.signaled hsignaled] at hconn

/-! ## One step of a thread -/

variable {s : Lifecycle} {t : Thread} {pc : ThreadPc}

theorem pcInv_exec (hpc : s.PcInv pc) : (s.exec t pc).1.PcInv (s.exec t pc).2 := by
  cases pc with
  | ioError | lossGuard | lossExchange =>
    simp only [exec]
    split_ifs
    · exact pcInv_rest _ t
    · exact hpc
  | lossStore | lossHalt | protocolStore => exact rfl
  | lossRxEnd => exact hpc
  | disconnectExchange =>
    simp only [exec]
    split_ifs with hstarted
    · exact hstarted
    · exact rfl
  | disconnectHalt first =>
    cases first with
    | false => exact pcInv_rest _ t
    | true => exact ⟨hpc, rfl⟩
  | disconnectedExchange final =>
    simp only [exec]
    split_ifs
    · exact pcInv_rest _ t
    · exact hpc
    · exact ⟨hpc.1, hpc.2, rfl⟩
  | disconnectedEmit final =>
    cases final with
    | false => exact ⟨hpc.1, hpc.2.1⟩
    | true => exact pcInv_rest _ t
  | clearTransportState => exact ⟨hpc.1, rfl⟩
  | lossEmit | protocolEmit | readNext => exact pcInv_rest _ t
  | _ => trivial

/-- After an event that reports the end of the connection, nothing reports a connection. -/
theorem not_up_emitEvent (s : Lifecycle) {e : Event}
    (he : e matches .connectionLost _ | .disconnected | .protocolError _) :
    ¬ (s.emitEvent e).Up := by
  cases e <;>
    simp_all [Up, emitEvent, SessionState.applyEventState, lastLifecycle]

/-- A thread that is about to report the end of the connection still is, or has just done so. -/
theorem due_exec (h : s.LifecycleInv) (t : Thread) (hdue : s.Due pc) :
    (s.exec t pc).1.Due (s.exec t pc).2 ∨ ¬ (s.exec t pc).1.Up := by
  cases pc with
  | ioError =>
    obtain ⟨hstop, hrest⟩ := hdue
    simp only [exec, hstop]
    exact Or.inl hrest
  | lossGuard =>
    simp only [exec, hdue.1]
    exact Or.inl hdue.2
  | ioErrorStore | lossStore | lossHalt | lossRxEnd | protocolStore => exact Or.inl hdue
  | lossExchange =>
    have hsignaled : s.connectionLostSignaled = false := hdue
    simp only [exec, hsignaled]
    exact Or.inl trivial
  | lossEmit | protocolEmit | disconnectedEmit => exact Or.inr (not_up_emitEvent s rfl)
  | disconnectExchange =>
    have hstarted : s.disconnectStarted = false := hdue
    simp only [exec, hstarted]
    exact Or.inl (h.eventEmitted_eq_false (Or.inl (by simp [hstarted])))
  | disconnectHalt first =>
    cases first with
    | false => exact hdue.elim
    | true => exact Or.inl hdue
  | disconnectedExchange final =>
    have hemitted : s.disconnectEventEmitted = false := hdue
    simp only [exec, hemitted]
    exact Or.inl trivial
  | _ => exact hdue.elim

theorem due_congr {s' : Lifecycle} (hstop : s'.stopRequested = s.stopRequested)
    (hstarted : s'.disconnectStarted = s.disconnectStarted)
    (hemitted : s'.disconnectEventEmitted = s.disconnectEventEmitted)
    (hsignaled : s'.connectionLostSignaled = s.connectionLostSignaled) (q : ThreadPc) :
    s'.Due q ↔ s.Due q := by
  cases q with
  | disconnectHalt first => cases first <;> simp only [Due, DisconnectDue, hemitted]
  | _ => simp only [Due, DisconnectDue, hstop, hstarted, hemitted, hsignaled]

/-- The halt only concerns a thread that has not seen it yet, and that thread leaves the report to
a loss or a `disconnect` that has gone further. -/
theorem due_haltTransport {q : ThreadPc} (hq : s.Due q)
    (h : s.connectionLostSignaled = true ∨ s.disconnectStarted = true) :
    s.haltTransport.Due q := by
  cases q with
  | ioError =>
    obtain ⟨-, hstarted, hsignaled⟩ := hq
    simp [hstarted, hsignaled] at h
  | disconnectHalt first => cases first <;> exact hq
  | _ => exact hq

/-- What one thread does leaves another one due, or takes its report over. -/
theorem due_exec_of_ne (h : s.LifecycleInv) (t : Thread) (hpc : s.PcInv pc) {q : ThreadPc}
    (hq : s.Due q) :
    (s.exec t pc).1.Due q ∨ (s.exec t pc).1.Due (s.exec t pc).2 := by
  cases pc with
  | lossHalt =>
    by_cases hsignaled : s.connectionLostSignaled = true
    · exact Or.inl (due_haltTransport hq (Or.inl hsignaled))
    · have hfalse : s.connectionLostSignaled = false := by simpa using hsignaled
      exact Or.inr hfalse
  | lossExchange =>
    simp only [exec]
    split_ifs
    · exact Or.inl hq
    · exact Or.inr trivial
  | disconnectExchange =>
    simp only [exec]
    split_ifs with hstarted
    · exact Or.inl hq
    · exact Or.inr (h.eventEmitted_eq_false (Or.inl hstarted))
  | disconnectHalt => exact Or.inl (due_haltTransport hq (Or.inr hpc))
  | disconnectedExchange =>
    simp only [exec]
    split_ifs
    · exact Or.inl hq
    · exact Or.inl hq
    · exact Or.inr trivial
  | _ => exact Or.inl ((due_congr rfl rfl rfl rfl q).2 hq)

theorem disconnectDue_exec (t : Thread) (hdue : s.DisconnectDue pc) :
    Event.disconnected ∈ (s.exec t pc).1.emitted ∨
      (s.exec t pc).1.DisconnectDue (s.exec t pc).2 := by
  cases pc with
  | disconnectHalt first =>
    cases first with
    | false => exact hdue.elim
    | true => exact Or.inr hdue
  | disconnectedExchange final =>
    have hemitted : s.disconnectEventEmitted = false := hdue
    simp only [exec, hemitted]
    exact Or.inr trivial
  | disconnectedEmit => exact Or.inl (List.mem_cons_self ..)
  | _ => exact hdue.elim

theorem disconnectDue_congr {s' : Lifecycle}
    (hemitted : s'.disconnectEventEmitted = s.disconnectEventEmitted) (q : ThreadPc) :
    s'.DisconnectDue q ↔ s.DisconnectDue q := by
  cases q with
  | disconnectHalt first => cases first <;> simp only [DisconnectDue, hemitted]
  | _ => simp only [DisconnectDue, hemitted]

theorem disconnectDue_exec_of_ne (t : Thread) (pc : ThreadPc) {q : ThreadPc}
    (hq : s.DisconnectDue q) :
    (s.exec t pc).1.DisconnectDue q ∨ (s.exec t pc).1.DisconnectDue (s.exec t pc).2 := by
  cases pc with
  | disconnectedExchange =>
    simp only [exec]
    split_ifs
    · exact Or.inl hq
    · exact Or.inl hq
    · exact Or.inr trivial
  | lossExchange | disconnectExchange =>
    simp only [exec]
    split_ifs <;> exact Or.inl ((disconnectDue_congr rfl q).2 hq)
  | _ => exact Or.inl ((disconnectDue_congr rfl q).2 hq)

/-- A step that takes the transport down leaves some thread due to report it. -/
theorem connected_exec (h : s.LifecycleInv) (t : Thread) (hconn : s.connected = true) :
    (s.exec t (s.pc t)).1.connected = true ∨ (s.exec t (s.pc t)).1.Due (s.exec t (s.pc t)).2 ∨
      ∃ t', t' ≠ t ∧ (s.exec t (s.pc t)).1.Due (s.pc t') := by
  have hsignaled := h.signaled_eq_false hconn
  have hemitted := h.eventEmitted_eq_false (Or.inr hconn)
  -- a `disconnect` that has started has not come as far as its event
  have hdisconnect : s.disconnectStarted = true → ∃ t', s.DisconnectDue (s.pc t') := by
    intro hstarted
    rcases h.started hstarted with hmem | hdue
    · simp [(h.last hmem).2] at hemitted
    · exact hdue
  have hpc := h.pcs t
  generalize hp : s.pc t = pc at hpc ⊢
  cases pc with
  | ioErrorStore =>
    by_cases hstarted : s.disconnectStarted = true
    · obtain ⟨t', hdue⟩ := hdisconnect hstarted
      refine Or.inr (Or.inr ⟨t', ?_, (due_congr rfl rfl rfl rfl _).2 hdue.due⟩)
      rintro rfl
      simp [hp, DisconnectDue] at hdue
    · have hfalse : s.disconnectStarted = false := by simpa using hstarted
      exact Or.inr (Or.inl ⟨hfalse, hsignaled⟩)
  | lossStore => exact Or.inr (Or.inl hsignaled)
  | protocolStore => exact Or.inr (Or.inl trivial)
  | lossHalt => simp [PcInv, hconn] at hpc
  | clearTransportState => simp [PcInv, hconn] at hpc
  | disconnectHalt first =>
    obtain ⟨t', hdue⟩ := hdisconnect hpc
    by_cases ht : t' = t
    · subst ht
      rw [hp] at hdue
      cases first with
      | false => exact hdue.elim
      | true => exact Or.inr (Or.inl hemitted)
    · exact Or.inr (Or.inr ⟨t', ht, due_haltTransport hdue.due (Or.inr hpc)⟩)
  | lossExchange | disconnectExchange | disconnectedExchange =>
    left
    simp only [exec]
    split_ifs <;> exact hconn
  | _ => exact Or.inl hconn

/-- A connection is reported by a guarded step only while there is one or its end is due. -/
theorem up_exec (h : s.LifecycleInv) (t : Thread) (hguard : s.GuardedAt pc)
    (hup : (s.exec t pc).1.Up) : s.connected = true ∨ s.DownDue := by
  cases pc with
  | connectedEmit => exact hguard.1
  | udpReadyEmit => exact hguard
  | lossEmit | protocolEmit | disconnectedEmit => exact absurd hup (not_up_emitEvent s rfl)
  | lossExchange | disconnectExchange | disconnectedExchange =>
    refine h.up ?_
    simp only [exec] at hup
    split_ifs at hup <;> exact hup
  | _ => exact h.up hup

theorem last_exec (h : s.LifecycleInv) (t : Thread) (hpc : s.PcInv pc) (hguard : s.GuardedAt pc)
    (hmem : Event.disconnected ∈ (s.exec t pc).1.emitted) :
    (s.exec t pc).1.lastLifecycle = some .disconnected ∧
      (s.exec t pc).1.disconnectEventEmitted = true := by
  cases pc with
  | connectedEmit => exact absurd (by simpa [exec, emitEvent] using hmem) hguard.2
  | lossEmit | protocolEmit => exact absurd (by simpa [exec, emitEvent] using hmem) hguard
  | disconnectedEmit => exact ⟨rfl, hpc.2.2⟩
  | lossRxEnd | welcomeEmit | udpReadyEmit =>
    exact h.last (by simpa [exec, emitEvent] using hmem)
  | lossExchange | disconnectExchange | disconnectedExchange =>
    simp only [exec] at hmem ⊢
    split_ifs at hmem ⊢ <;> first | exact h.last hmem | exact ⟨(h.last hmem).1, rfl⟩
  | _ => exact h.last hmem

theorem signaled_exec (h : s.LifecycleInv) (t : Thread) (hpc : s.PcInv pc)
    (hsignaled : (s.exec t pc).1.connectionLostSignaled = true) :
    (s.exec t pc).1.connected = false := by
  refine (later_exec s t pc).connected ?_
  cases pc with
  | lossExchange => exact hpc
  | disconnectExchange | disconnectedExchange =>
    simp only [exec] at hsignaled
    split_ifs at hsignaled <;> exact h.signaled hsignaled
  | _ => exact h.signaled hsignaled

theorem eventEmitted_exec (h : s.LifecycleInv) (t : Thread) (hpc : s.PcInv pc)
    (hemitted : (s.exec t pc).1.disconnectEventEmitted = true) :
    (s.exec t pc).1.disconnectStarted = true ∧ (s.exec t pc).1.connected = false := by
  have hlater := later_exec s t pc
  suffices hs : s.disconnectStarted = true ∧ s.connected = false from
    ⟨hlater.disconnectStarted hs.1, hlater.connected hs.2⟩
  cases pc with
  | disconnectedExchange => exact hpc
  | lossExchange | disconnectExchange =>
    simp only [exec] at hemitted
    split_ifs at hemitted <;> exact h.eventEmitted hemitted
  | _ => exact h.eventEmitted hemitted

theorem started_exec (h : s.LifecycleInv) (t : Thread)
    (hstarted : (s.exec t pc).1.disconnectStarted = true) :
    s.disconnectStarted = true ∨ (s.exec t pc).1.DisconnectDue (s.exec t pc).2 := by
  cases pc with
  | disconnectExchange =>
    by_cases hs : s.disconnectStarted = true
    · exact Or.inl hs
    · simp only [exec, hs]
      exact Or.inr (h.eventEmitted_eq_false (Or.inl hs))
  | lossExchange | disconnectedExchange =>
    simp only [exec] at hstarted
    split_ifs at hstarted <;> exact Or.inl hstarted
  | _ => exact Or.inl hstarted

/-! ## Runs -/

theorem forall_pc_goto {P : ThreadPc → Prop} {s' : Lifecycle} :
    (∀ t', P ((s'.goto t pc).pc t')) ↔ P pc ∧ ∀ t', t' ≠ t → P (s'.pc t') := by
  simp only [goto, Function.forall_update_iff s'.pc (p := fun _ q => P q)]

theorem exists_pc_goto {P : ThreadPc → Prop} {s' : Lifecycle} :
    (∃ t', P ((s'.goto t pc).pc t')) ↔ P pc ∨ ∃ t', t' ≠ t ∧ P (s'.pc t') := by
  simp only [goto, Function.exists_update_iff s'.pc (p := fun _ q => P q)]

/-- One thread takes a step to `pc`.  What some thread was due to do, some thread still is, or the
step has done it. -/
theorem exists_due_goto {P P' : ThreadPc → Prop} {X : Prop} {s' : Lifecycle}
    (hpcs : s'.pc = s.pc) (own : P (s.pc t) → P' pc ∨ X) (other : ∀ q, P q → P' q ∨ P' pc)
    (h : ∃ t', P (s.pc t')) : (∃ t', P' ((s'.goto t pc).pc t')) ∨ X := by
  rw [exists_pc_goto, hpcs]
  obtain ⟨t', hdue⟩ := h
  by_cases ht : t' = t
  · subst ht
    exact (own hdue).imp_left Or.inl
  · rcases other _ hdue with hsame | hnext
    · exact Or.inl (Or.inr ⟨t', ht, hsame⟩)
    · exact Or.inl (Or.inl hnext)

@[simp] theorem due_goto (s' : Lifecycle) (q : ThreadPc) : (s'.goto t pc).Due q ↔ s'.Due q :=
  due_congr rfl rfl rfl rfl q

@[simp] theorem disconnectDue_goto (s' : Lifecycle) (q : ThreadPc) :
    (s'.goto t pc).DisconnectDue q ↔ s'.DisconnectDue q :=
  disconnectDue_congr rfl q

@[simp] theorem pcInv_goto (s' : Lifecycle) (q : ThreadPc) :
    (s'.goto t pc).PcInv q ↔ s'.PcInv q := by
  cases q <;> rfl

theorem downDue_goto (s' : Lifecycle) :
    (s'.goto t pc).DownDue ↔ ∃ t', s'.Due ((s'.goto t pc).pc t') := by
  simp only [DownDue, due_goto]

theorem LifecycleInv.run (h : s.LifecycleInv) (hguard : s.Guarded (.run t)) :
    (s.step (.run t)).LifecycleInv := by
  have hpcs := pc_exec s t (s.pc t)
  have hlater := later_exec s t (s.pc t)
  refine ⟨?_, signaled_exec h t (h.pcs t), eventEmitted_exec h t (h.pcs t), ?_,
    last_exec h t (h.pcs t) hguard, ?_⟩
  · simp only [step, pcInv_goto]
    refine forall_pc_goto.2 ⟨pcInv_exec (h.pcs t), fun t' _ => ?_⟩
    rw [hpcs]
    exact (h.pcs t').later hlater
  · intro hstarted
    simp only [step, disconnectDue_goto]
    rcases started_exec h t hstarted with hs | hnext
    · rcases h.started hs with hmem | hdue
      · exact Or.inl (hlater.emitted.mem hmem)
      · exact (exists_due_goto hpcs (fun hown => (disconnectDue_exec t hown).symm)
          (fun q hq => disconnectDue_exec_of_ne t (s.pc t) hq) hdue).symm
    · exact Or.inr (exists_pc_goto.2 (Or.inl hnext))
  · intro hup
    change (s.exec t (s.pc t)).1.connected = true ∨ _
    rw [step, downDue_goto]
    rcases up_exec h t hguard hup with hconn | hdue
    · rw [exists_pc_goto, hpcs]
      exact connected_exec h t hconn
    · rcases exists_due_goto hpcs (due_exec h t)
        (fun q hq => due_exec_of_ne h t (h.pcs t) hq) hdue with hnext | hdown
      · exact Or.inr hnext
      · exact absurd hup hdown

theorem LifecycleInv.start (h : s.LifecycleInv) (path : Path) :
    (s.step (.start t path)).LifecycleInv := by
  simp only [step]
  split_ifs with hstart
  · have hidle := hstart.1
    refine ⟨?_, h.signaled, h.eventEmitted, ?_, h.last, ?_⟩
    · simp only [pcInv_goto]
      refine forall_pc_goto.2 ⟨by cases path <;> trivial, fun t' _ => ?_⟩
      exact (h.pcs t').later ⟨id, id, id, List.suffix_rfl⟩
    · intro hstarted
      simp only [disconnectDue_goto]
      refine (h.started hstarted).imp_right fun hdue => ?_
      -- an idle thread is due to do nothing
      refine (exists_due_goto (X := False) rfl (fun hown => ?_)
        (fun q hq => Or.inl ((disconnectDue_congr rfl q).2 hq)) hdue).resolve_right id
      rw [hidle] at hown
      exact hown.elim
    · intro hup
      rw [downDue_goto]
      refine (h.up hup).imp_right fun hdue => ?_
      refine (exists_due_goto (X := False) rfl (fun hown => ?_)
        (fun q hq => Or.inl ((due_congr rfl rfl rfl rfl q).2 hq)) hdue).resolve_right id
      rw [hidle] at hown
      exact hown.elim
  · exact h

theorem lifecycleInv_begin (sessionState : SessionState) : (begin sessionState).LifecycleInv where
  pcs _ := trivial
  signaled := nofun
  eventEmitted := nofun
  started := nofun
  last := nofun
  up _ := Or.inl rfl

theorem lifecycleInv_after {sessionState : SessionState} {as : List LifecycleAction}
    (h : Along step Guarded (begin sessionState) as) :
    (after step (begin sessionState) as).LifecycleInv := by
  refine invariant_along (fun s a hI hguard => ?_) (lifecycleInv_begin sessionState) h
  cases a with
  | start t path => exact hI.start path
  | run t => exact hI.run hguard

theorem Quiescent.not_due (h : s.Quiescent) (t : Thread) : ¬ s.Due (s.pc t) := by
  rcases h t with hpc | hpc <;> exact hpc ▸ id

/-- After a run whose steps are guarded, when no step is pending and the transport is down, the
state and the last event say that the connection has ended. -/
theorem lifecycle_settles {sessionState : SessionState} {as : List LifecycleAction}
    (h : Along step Guarded (begin sessionState) as)
    (hquiet : (after step (begin sessionState) as).Quiescent)
    (hdown : (after step (begin sessionState) as).connected = false) :
    (after step (begin sessionState) as).Settled := by
  have hinv := lifecycleInv_after h
  have hnot : ¬ (after step (begin sessionState) as).Up := by
    intro hup
    rcases hinv.up hup with hconn | ⟨t, hdue⟩
    · simp [hdown] at hconn
    · exact hquiet.not_due t hdue
  refine ⟨?_, ?_, fun cfg hlast => hnot (Or.inr (Or.inr ⟨cfg, hlast⟩)), fun hstarted => ?_⟩
  · simpa using fun hconn => hnot (Or.inl hconn)
  · simpa using fun hready => hnot (Or.inr (Or.inl hready))
  · rcases hinv.started hstarted with hmem | ⟨t, hdue⟩
    · exact (hinv.last hmem).1
    · exact absurd hdue.due (hquiet.not_due t)

/-- The relay's welcome is handled, then the UDP reader signals a loss and the user disconnects. -/
def welcomedThenLost : List LifecycleAction :=
  [.start .ws (.welcome { sessionId := 1 }), .run .ws, .run .ws, .run .ws, .run .ws,
    .start .udp (.loss "udp: reset"), .run .udp, .run .udp, .run .udp, .run .udp, .run .udp,
    .run .udp, .start (.call 0) .disconnect, .run (.call 0), .run (.call 0), .run (.call 0),
    .run (.call 0), .run (.call 0), .run (.call 0)]

theorem quiescent_welcomedThenLost :
    (after step (begin {}) welcomedThenLost).Quiescent := by
  intro t
  cases t with
  | udp => exact Or.inr rfl
  | call n => cases n <;> exact Or.inl rfl
  | _ => exact Or.inl rfl

theorem settled_welcomedThenLost : (after step (begin {}) welcomedThenLost).Settled := by
  have hlost : Event.disconnected ∉ (after step (begin {}) (welcomedThenLost.take 11)).emitted := by
    decide
  refine lifecycle_settles ?_ quiescent_welcomedThenLost (by decide)
  simp only [welcomedThenLost, along_cons_iff]
  exact ⟨trivial, trivial, ⟨Or.inl rfl, by decide⟩, Or.inl rfl, trivial, trivial, trivial, trivial,
    trivial, trivial, trivial, hlost, trivial, trivial, trivial, trivial, trivial, trivial,
    trivial, along_nil⟩

/-- The UDP reader signals the loss while `handleWelcome` is between its first two events. -/
def lostWhileWelcomed : List LifecycleAction :=
  [.start .ws (.welcome { sessionId := 1 }), .run .ws, .start .udp (.loss "udp: reset"),
    .run .udp, .run .udp, .run .udp, .run .udp, .run .udp, .run .udp, .run .ws, .run .ws, .run .ws]

/-- The transport is down for good, and the state still says that the session is connected. -/
theorem not_settled_lostWhileWelcomed :
    let s := after step (begin {}) lostWhileWelcomed
    s.Quiescent ∧ s.connected = false ∧ s.sessionState.connected = true ∧
      s.sessionState.udpReady = true ∧
      s.lastLifecycle = some (.connected { sessionId := 1 }) ∧ ¬ s.Settled := by
  refine ⟨fun t => ?_, by decide, by decide, by decide, by decide, fun h => ?_⟩
  · cases t with
    | udp => exact Or.inr rfl
    | _ => exact Or.inl rfl
  · exact absurd h.connected (by decide)

end Lifecycle

end OWalkie
