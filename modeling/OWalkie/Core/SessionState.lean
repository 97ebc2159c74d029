import Mathlib.Data.List.DropRight
import OWalkie.Lib.Register

/-!
# The state that a session shows to its application

`SessionState` is folded from the events of the session (`applyEventState`), and the teardown of a
reconnect resets part of it (`reconnectTeardown`).  A run of a `Session` is a list of
`SessionAction`s; `connection` is what has happened since the last teardown.  `flags_own_iff` says
when every flag that is on was switched on by the connection that is in use.
-/

namespace OWalkie

structure OpusConfig where
  bitrate : ℤ := 12000
  complexity : ℤ := 5
  fec : Bool := true
  dtx : Bool := false
  application : String := "voip"
deriving Repr, DecidableEq

structure WelcomeConfig where
  sessionId : ℕ := 0
  protocolVersion : ℤ := 2
  sampleRate : ℤ := 8000
  packetMs : ℤ := 20
  opus : OpusConfig := {}
  busyMode : Bool := false
  transmitTimeoutSec : ℤ := 60
deriving Repr, DecidableEq

/-- An `Event` with the fields that its type uses. -/
inductive Event where
  | connecting
  | transportConnected
  | disconnected
  | protocolError (message : String)
  | welcome (cfg : WelcomeConfig)
  | rxBroadcastStart (busyMode : Bool)
  | rxBroadcastEnd (delayMs : ℤ)
  | localTxStart
  | localTxEnd
  | pttLocked (displaySec : ℤ)
  | pttUnlocked
  | txCountdownStart
  | txStop (info : String)
  | udpTransportReady
  | udpTransportLost
  | connectionFailed (reason : String)
  | connected (cfg : WelcomeConfig)
  | connectionLost (reason : String)
deriving Repr, DecidableEq

structure SessionState where
  connected : Bool := false
  udpReady : Bool := false
  connectionLost : Bool := false
  receiving : Bool := false
  localTxActive : Bool := false
  pttServerLocked : Bool := false
  pttLockDisplaySec : ℤ := 0
  welcome : WelcomeConfig := {}
  hasWelcome : Bool := false
deriving Repr, DecidableEq

namespace SessionState

def applyEventState (s : SessionState) : Event → SessionState
  | .transportConnected => { s with connected := true }
  | .disconnected | .protocolError _ =>
    { s with
      connected := false
      udpReady := false
      connectionLost := false }
  | .welcome cfg =>
    { s with
      welcome := cfg
      hasWelcome := true }
  | .connected cfg =>
    { s with
      welcome := cfg
      hasWelcome := true
      connected := true
      udpReady := true
      connectionLost := false }
  | .rxBroadcastStart _ => { s with receiving := true }
  | .rxBroadcastEnd _ => { s with receiving := false }
  | .localTxStart => { s with localTxActive := true }
  | .localTxEnd => { s with localTxActive := false }
  | .pttLocked displaySec =>
    { s with
      pttServerLocked := true
      pttLockDisplaySec := displaySec }
  | .pttUnlocked =>
    { s with
      pttServerLocked := false
      pttLockDisplaySec := 0 }
  | .udpTransportReady => { s with udpReady := true }
  | .udpTransportLost => { s with udpReady := false }
  | .connectionLost _ =>
    { s with
      connected := false
      udpReady := false
      connectionLost := true
      receiving := false }
  | .connecting | .txCountdownStart | .txStop _ | .connectionFailed _ => s

def endLocalTxIfNeeded (s : SessionState) : SessionState :=
  if s.localTxActive then s.applyEventState .localTxEnd else s

/-- What `reconnectTeardownInternal` does to the state. -/
def reconnectTeardown (s : SessionState) : SessionState :=
  { s.endLocalTxIfNeeded with
    receiving := false
    localTxActive := false
    connectionLost := false
    connected := false
    udpReady := false }

end SessionState

/-- An event that is emitted, by the connection in use (`own`) or late, by a thread that works for
an earlier one; or the teardown of a reconnect.  What follows it, up to the next one, is the new
connection: `Connecting`, and after the welcome of the relay `Connected`. -/
inductive SessionAction where
  | emit (own : Bool) (event : Event)
  | reconnectTeardown
deriving Repr, DecidableEq

def SessionState.step (s : SessionState) : SessionAction → SessionState
  | .emit _ event => s.applyEventState event
  | .reconnectTeardown => s.reconnectTeardown

namespace SessionAction

open Run SessionState

/-- What has happened since the last teardown. -/
def connection (as : List SessionAction) : List SessionAction :=
  as.rtakeWhile (· ≠ reconnectTeardown)

/-- What had happened up to the last teardown. -/
def before (as : List SessionAction) : List SessionAction :=
  as.rdropWhile (· ≠ reconnectTeardown)

theorem before_append_connection (as : List SessionAction) : before as ++ connection as = as :=
  List.rdropWhile_append_rtakeWhile ..

theorem not_mem_connection (as : List SessionAction) : reconnectTeardown ∉ connection as := by
  intro h
  simpa using List.mem_rtakeWhile_imp h

theorem before_eq (as : List SessionAction) :
    before as = [] ∨ ∃ pre, before as = pre ++ [reconnectTeardown] := by
  rcases List.eq_nil_or_concat (before as) with h | ⟨pre, a, h⟩
  · exact Or.inl h
  · have hlast := List.rdropWhile_last_not (· ≠ reconnectTeardown) as
      (by change before as ≠ []; simp [h])
    have ha : a = reconnectTeardown := by
      change ¬ decide ((before as).getLast _ ≠ reconnectTeardown) = true at hlast
      simpa [h] using hlast
    exact Or.inr ⟨pre, by rw [h, ha, List.concat_eq_append]⟩

end SessionAction

/-! ## Flags -/

/-- The flags that one event switches on and another one off. -/
inductive Flag where
  | pttLock
  | receiving
  | localTx
deriving Repr, DecidableEq

namespace Flag

open Run SessionAction

def get : Flag → SessionState → Bool
  | pttLock, s => s.pttServerLocked
  | receiving, s => s.receiving
  | localTx, s => s.localTxActive

/-- The event of the flag: `some true` switches it on and `some false` off. -/
def switched : Flag → Event → Option Bool
  | pttLock, .pttLocked _ => some true
  | pttLock, .pttUnlocked => some false
  | receiving, .rxBroadcastStart _ => some true
  | receiving, .rxBroadcastEnd _ => some false
  | localTx, .localTxStart => some true
  | localTx, .localTxEnd => some false
  | _, _ => none

/-- The connection has switched the flag on, and nothing has switched it off after that. -/
def Standing (f : Flag) (as : List SessionAction) : Prop :=
  ∃ pre e post, as = pre ++ .emit true e :: post ∧ f.switched e = some true ∧
    ∀ own e', .emit own e' ∈ post → f.switched e' ≠ some false

/-- What an action writes to the flag, and whether it is of the connection in use. -/
def written : Flag → SessionAction → Option (Bool × Bool)
  | receiving, .emit own (.connectionLost _) => some (false, own)
  | f, .emit own e => (f.switched e).map (·, own)
  | pttLock, .reconnectTeardown => none
  | _, .reconnectTeardown => some (false, true)

/-- The last write to the flag. -/
def lastWritten (f : Flag) (as : List SessionAction) : Option (Bool × Bool) :=
  as.reverse.findSome? f.written

theorem switched_of_written {f : Flag} {own own' : Bool} {e : Event}
    (h : f.written (.emit own e) = some (true, own')) : f.switched e = some true ∧ own' = own := by
  cases e <;> cases f <;> simp_all [written, switched]

theorem written_of_switched {f : Flag} {own v : Bool} {e : Event} (h : f.switched e = some v) :
    f.written (.emit own e) = some (v, own) := by
  cases e <;> cases f <;> simp_all [written, switched]

/-- A flag is a register that its events, the loss of the connection and the teardown write. -/
theorem isRegister_get (f : Flag) :
    IsRegister SessionState.step (fun s => some (f.get s))
      (fun _ a => (f.written a).map Prod.fst) := by
  intro s a
  cases a with
  | emit own e => cases e <;> cases f <;> rfl
  | reconnectTeardown =>
    cases f with
    | pttLock =>
      simp only [SessionState.step, SessionState.reconnectTeardown,
        SessionState.endLocalTxIfNeeded]
      split_ifs <;> rfl
    | receiving => rfl
    | localTx => rfl

theorem get_after (f : Flag) (s : SessionState) (as : List SessionAction) :
    f.get (after SessionState.step s as) = ((f.lastWritten as).map Prod.fst).getD (f.get s) := by
  have h := (isRegister_get f).after s as
  rw [lastWrite_of_action] at h
  change _ = (List.findSome? (Option.map Prod.fst ∘ f.written) as.reverse).or _ at h
  rw [← List.map_findSome?] at h
  change _ = ((f.lastWritten as).map Prod.fst).or _ at h
  cases hlast : f.lastWritten as <;> simpa [hlast] using h

theorem standing_of_lastWritten {f : Flag} {as : List SessionAction}
    (h : f.lastWritten as = some (true, true)) (hconn : .reconnectTeardown ∉ as) :
    f.Standing as := by
  obtain ⟨post, a, pre, heq, ha, hpost⟩ := List.findSome?_eq_some_iff.1 h
  have has : as = pre.reverse ++ a :: post.reverse := by
    rw [← as.reverse_reverse, heq]
    simp
  cases a with
  | reconnectTeardown => simp [has] at hconn
  | emit own e =>
    obtain ⟨hon, rfl⟩ := switched_of_written ha
    refine ⟨pre.reverse, e, post.reverse, has, hon, ?_⟩
    intro own' e' hmem hoff
    have hnone := hpost _ (List.mem_reverse.1 hmem)
    rw [written_of_switched hoff] at hnone
    exact Option.some_ne_none _ hnone

theorem Standing.lastWritten_ne_none {f : Flag} {as : List SessionAction} (h : f.Standing as) :
    f.lastWritten as ≠ none := by
  obtain ⟨pre, e, post, rfl, hon, -⟩ := h
  intro hnone
  have := List.findSome?_eq_none_iff.1 hnone (.emit true e) (by simp)
  rw [written_of_switched hon] at this
  exact Option.some_ne_none _ this

/-- One flag: it is on only if the connection has switched it on, unless it was on when the
connection began and nothing has written it since, or a late event has switched it on. -/
theorem own_iff (f : Flag) (as : List SessionAction) :
    (f.get (after SessionState.step {} as) = true → f.Standing (connection as)) ↔
      (f.lastWritten (connection as) = none →
          f.get (after SessionState.step {} (before as)) = false) ∧
        (f.lastWritten (connection as) = some (true, false) → f.Standing (connection as)) := by
  have hget : f.get (after SessionState.step {} as) =
      ((f.lastWritten (connection as)).map Prod.fst).getD
        (f.get (after SessionState.step {} (before as))) := by
    conv_lhs => rw [← before_append_connection as, after_append]
    exact get_after f _ _
  rw [hget]
  rcases hlast : f.lastWritten (connection as) with - | ⟨on, own⟩
  · have hstanding : ¬ f.Standing (connection as) := fun h => h.lastWritten_ne_none hlast
    simp [hstanding]
  · cases on with
    | false => simp
    | true =>
      cases own with
      | false => simp
      | true => simp [standing_of_lastWritten hlast (not_mem_connection as)]

theorem get_before {f : Flag} (hf : f ≠ pttLock) (as : List SessionAction) :
    f.get (after SessionState.step {} (before as)) = false := by
  rcases before_eq as with h | ⟨pre, h⟩
  · rw [h]
    cases f <;> rfl
  · rw [h, after_snoc]
    cases f with
    | pttLock => exact absurd rfl hf
    | receiving => rfl
    | localTx => rfl

/-- Every flag that is on was switched on by the connection in use, if and only if the lock, where
the connection has neither set nor cleared it, was off when it began, and no flag was switched on
last, and only, by a late event. -/
theorem flags_own_iff (as : List SessionAction) :
    (∀ f : Flag, f.get (after SessionState.step {} as) = true → f.Standing (connection as)) ↔
      (pttLock.lastWritten (connection as) = none →
          (after SessionState.step {} (before as)).pttServerLocked = false) ∧
        ∀ f : Flag, f.lastWritten (connection as) = some (true, false) →
          f.Standing (connection as) := by
  constructor
  · intro h
    exact ⟨((own_iff pttLock as).1 (h pttLock)).1, fun f => ((own_iff f as).1 (h f)).2⟩
  · rintro ⟨hlock, hlate⟩ f
    refine (own_iff f as).2 ⟨fun hnone => ?_, hlate f⟩
    by_cases hf : f = pttLock
    · subst hf
      exact hlock hnone
    · exact get_before hf as

/-- A connection on which `ptt_lock` comes is lost, and the next one is welcomed. -/
def lockedThenReconnected : List SessionAction :=
  [.emit true (.connected {}), .emit true (.pttLocked 5), .emit true (.rxBroadcastEnd 0),
    .emit true (.connectionLost "udp timeout"), .reconnectTeardown, .emit true .connecting,
    .emit true (.welcome { sessionId := 2 }), .emit true (.connected { sessionId := 2 }),
    .emit true .udpTransportReady]

/-- The new connection has no `ptt_lock`, and the lock of the old one is still on. -/
theorem lock_survives_reconnect :
    (after SessionState.step {} lockedThenReconnected).pttServerLocked = true ∧
      (after SessionState.step {} lockedThenReconnected).pttLockDisplaySec = 5 ∧
      ¬ pttLock.Standing (connection lockedThenReconnected) :=
  ⟨by decide, by decide, fun h => h.lastWritten_ne_none (by decide)⟩

end Flag

end OWalkie
