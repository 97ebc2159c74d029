import Mathlib.Tactic
import OWalkie.Lib.Run

/-!
# The keepalive loop of a session

`keepaliveLoop` sends UDP keepalives, retransmits one that has not been answered, and signals
`keepalive_lost` when the answer stays out.  One iteration, from a wake-up to the next sleep, is one
step; time passes between the steps, never beyond the end of the sleep, and acknowledgements, the
keepalives of other threads and changes of the profile come at any time.

Where a retransmission that is due can be sent, every loss comes after one if and only if the sleep
that a first keepalive was sent in always ends before the lost timeout (`lost_only_after_rtx`).
`delay_lt_lost_iff` says which jittered delays are that short.
-/

namespace OWalkie

def kNsPerSec : ℕ := 1000000000
def kNsPerMs : ℕ := 1000000
def kUdpKeepaliveRecoveryWindowNs : ℕ := 90 * kNsPerSec
def kWsHeartbeatIntervalNs : ℕ := 30 * kNsPerSec
def kKeepaliveJitterPercent : ℕ := 15

inductive PowerProfile where
  | foreground
  | background
  | activeTx
deriving Repr, DecidableEq

structure KeepaliveTimings where
  idleIntervalNs : ℕ
  recoveryIntervalNs : ℕ
  rtxNs : ℕ
  lostNs : ℕ
  pendingPollMs : ℕ

def keepaliveTimingsFor : PowerProfile → KeepaliveTimings
  | .background =>
    { idleIntervalNs := 50 * kNsPerSec
      recoveryIntervalNs := 12 * kNsPerSec
      rtxNs := 2000 * kNsPerMs
      lostNs := 10000 * kNsPerMs
      pendingPollMs := 700 }
  | .foreground | .activeTx =>
    { idleIntervalNs := 12 * kNsPerSec
      recoveryIntervalNs := 6 * kNsPerSec
      rtxNs := 1000 * kNsPerMs
      lostNs := 8000 * kNsPerMs
      pendingPollMs := 300 }

/-- The delay for a draw of the generator, which is uniform between the two bounds. -/
def jitteredKeepaliveDelayMs (intervalSec draw : ℕ) : ℕ :=
  let baseMs := intervalSec * 1000
  let deltaMs := baseMs * kKeepaliveJitterPercent / 100
  let minMs := max 1000 (baseMs - deltaMs)
  let maxMs := baseMs + deltaMs
  if maxMs ≤ minMs then minMs else minMs + draw % (maxMs - minMs + 1)

def keepaliveIntervalSec (profile : PowerProfile) (inRecovery : Bool) : ℕ :=
  if inRecovery then (keepaliveTimingsFor profile).recoveryIntervalNs / kNsPerSec
  else (keepaliveTimingsFor profile).idleIntervalNs / kNsPerSec

/-- `clock` is the steady clock, and the loop sleeps from `sleptAt` to `wakeAt`; `running` says that
the session is connected and not told to stop.  A time that is 0 is not set.  `resent` counts the
keepalives that have been sent since the one that is not answered. -/
structure Keepalive where
  clock : ℕ
  sleptAt : ℕ
  wakeAt : ℕ
  running : Bool
  sessionId : ℕ
  powerProfile : PowerProfile
  udpRecoveryUntilNs : ℕ
  localTxActive : Bool
  udpSocket : Bool
  lastUdpKeepaliveSentNs : ℕ
  lastUdpKeepalivePendingSinceNs : ℕ
  lastWsHeartbeatSentNs : ℕ
  resent : ℕ
deriving Repr, DecidableEq

/-- What the loop does to the outside. -/
inductive KeepaliveOutput where
  | keepalive
  | wsHeartbeat
  | keepaliveLost
deriving Repr, DecidableEq

/-- `iterate` is an iteration of the loop with the draw for its delay, `sendUdpKeepalive` a
keepalive of another thread. -/
inductive KeepaliveAction where
  | elapse (ns : ℕ)
  | iterate (draw : ℕ)
  | ack
  | sendUdpKeepalive
  | welcome (sessionId : ℕ)
  | setPowerProfile (profile : PowerProfile)
  | enterUdpRecovery
  | setLocalTxActive (active : Bool)
  | setUdpSocket (present : Bool)
  | stop
deriving Repr, DecidableEq

namespace Keepalive

open Run

/-- The threads of a connection have just been started. -/
def begin (now : ℕ) (profile : PowerProfile) : Keepalive where
  clock := now
  sleptAt := now
  wakeAt := now
  running := true
  sessionId := 0
  powerProfile := profile
  udpRecoveryUntilNs := now + kUdpKeepaliveRecoveryWindowNs
  localTxActive := false
  udpSocket := true
  lastUdpKeepaliveSentNs := 0
  lastUdpKeepalivePendingSinceNs := 0
  lastWsHeartbeatSentNs := 0
  resent := 0

def timings (s : Keepalive) : KeepaliveTimings := keepaliveTimingsFor s.powerProfile

def intervalSec (s : Keepalive) : ℕ :=
  keepaliveIntervalSec s.powerProfile (s.clock < s.udpRecoveryUntilNs)

def sendUdpKeepalive (s : Keepalive) : Keepalive × List KeepaliveOutput :=
  if s.udpSocket = false ∨ s.sessionId = 0 then (s, [])
  else
    ({ s with
      lastUdpKeepaliveSentNs := s.clock
      lastUdpKeepalivePendingSinceNs :=
        if s.lastUdpKeepalivePendingSinceNs = 0 then s.clock
        else s.lastUdpKeepalivePendingSinceNs
      resent := if s.lastUdpKeepalivePendingSinceNs = 0 then 0 else s.resent + 1 },
      [.keepalive])

/-- Sends a keepalive if the last one was sent `ns` ago or longer, or none has been sent. -/
def sendIfDue (s : Keepalive) (ns : ℕ) : Keepalive × List KeepaliveOutput :=
  if s.lastUdpKeepaliveSentNs = 0 ∨ ns ≤ s.clock - s.lastUdpKeepaliveSentNs then
    s.sendUdpKeepalive
  else (s, [])

def sendWsHeartbeat (s : Keepalive) : Keepalive × List KeepaliveOutput :=
  if s.lastWsHeartbeatSentNs = 0 ∨ kWsHeartbeatIntervalNs ≤ s.clock - s.lastWsHeartbeatSentNs then
    ({ s with lastWsHeartbeatSentNs := s.clock }, [.wsHeartbeat])
  else (s, [])

def sleep (s : Keepalive) (ms : ℕ) : Keepalive :=
  { s with
    sleptAt := s.clock
    wakeAt := s.clock + ms * kNsPerMs }

/-- An iteration with an unanswered keepalive. -/
def iteratePending (s : Keepalive) : Keepalive × List KeepaliveOutput :=
  if s.timings.lostNs ≤ s.clock - s.lastUdpKeepalivePendingSinceNs then
    ({ s with
      lastUdpKeepalivePendingSinceNs := 0
      running := false },
      [.keepaliveLost])
  else
    let r := s.sendIfDue s.timings.rtxNs
    (r.1.sleep s.timings.pendingPollMs, r.2)

/-- An iteration with nothing pending. -/
def iterateIdle (s : Keepalive) (draw : ℕ) : Keepalive × List KeepaliveOutput :=
  let skipIdleKeepalive := s.localTxActive = true ∨ s.powerProfile = .activeTx
  let r := if skipIdleKeepalive then (s, []) else s.sendIfDue (s.intervalSec * kNsPerSec)
  let hb := r.1.sendWsHeartbeat
  (hb.1.sleep (jitteredKeepaliveDelayMs s.intervalSec draw), r.2 ++ hb.2)

def iterate (s : Keepalive) (draw : ℕ) : Keepalive × List KeepaliveOutput :=
  if s.sessionId = 0 then (s.sleep 1000, [])
  else if s.lastUdpKeepalivePendingSinceNs ≠ 0 then s.iteratePending
  else s.iterateIdle draw

/-- The loop runs and its sleep is over. -/
def Awake (s : Keepalive) : Prop := s.running = true ∧ s.clock = s.wakeAt

instance (s : Keepalive) : Decidable s.Awake := inferInstanceAs (Decidable (_ ∧ _))

def step (s : Keepalive) : KeepaliveAction → Keepalive × List KeepaliveOutput
  | .elapse ns =>
    ({ s with clock := if s.running then min (s.clock + ns) s.wakeAt else s.clock + ns }, [])
  | .iterate draw => if s.Awake then s.iterate draw else (s, [])
  | .ack => ({ s with lastUdpKeepalivePendingSinceNs := 0 }, [])
  | .sendUdpKeepalive => s.sendUdpKeepalive
  | .welcome sessionId => ({ s with sessionId := sessionId }, [])
  | .setPowerProfile profile => ({ s with powerProfile := profile }, [])
  | .enterUdpRecovery =>
    ({ s with udpRecoveryUntilNs := s.clock + kUdpKeepaliveRecoveryWindowNs }, [])
  | .setLocalTxActive active => ({ s with localTxActive := active }, [])
  | .setUdpSocket present => ({ s with udpSocket := present }, [])
  | .stop => ({ s with running := false }, [])

/-! ## Delays -/

/-- The jitter is at most 15 percent. -/
theorem jitteredKeepaliveDelayMs_mem {sec : ℕ} (hsec : 2 ≤ sec) (draw : ℕ) :
    sec * 850 ≤ jitteredKeepaliveDelayMs sec draw ∧
      jitteredKeepaliveDelayMs sec draw ≤ sec * 1150 := by
  have hdelta : sec * 1000 * kKeepaliveJitterPercent / 100 = sec * 150 := by
    unfold kKeepaliveJitterPercent
    omega
  have hmod : draw % (sec * 1150 - sec * 850 + 1) < sec * 1150 - sec * 850 + 1 :=
    Nat.mod_lt _ (by omega)
  have hmin : max 1000 (sec * 1000 - sec * 150) = sec * 850 := by omega
  have hmax : sec * 1000 + sec * 150 = sec * 1150 := by omega
  simp only [jitteredKeepaliveDelayMs, hdelta, hmin, hmax]
  split_ifs <;> omega

theorem keepaliveIntervalSec_eq (profile : PowerProfile) (inRecovery : Bool) :
    keepaliveIntervalSec profile inRecovery =
      match profile, inRecovery with
      | .background, true => 12
      | .background, false => 50
      | _, true => 6
      | _, false => 12 := by
  cases profile <;> cases inRecovery <;> rfl

theorem lostNs_eq (profile : PowerProfile) :
    (keepaliveTimingsFor profile).lostNs =
      (if profile = .background then 10000 else 8000) * kNsPerMs := by
  cases profile <;> rfl

/-- Every delay of a profile is below its lost timeout in the recovery of `Foreground` and
`ActiveTx`, and every other delay is above it. -/
theorem delay_lt_lost_iff (profile : PowerProfile) (inRecovery : Bool) (draw : ℕ) :
    jitteredKeepaliveDelayMs (keepaliveIntervalSec profile inRecovery) draw * kNsPerMs <
        (keepaliveTimingsFor profile).lostNs ↔
      inRecovery = true ∧ profile ≠ .background := by
  rw [lostNs_eq, Nat.mul_lt_mul_right (by decide), keepaliveIntervalSec_eq]
  have h6 := jitteredKeepaliveDelayMs_mem (by decide : 2 ≤ 6) draw
  have h12 := jitteredKeepaliveDelayMs_mem (by decide : 2 ≤ 12) draw
  have h50 := jitteredKeepaliveDelayMs_mem (by decide : 2 ≤ 50) draw
  cases profile <;> cases inRecovery <;> simp <;> omega

theorem clock_sendIfDue (s : Keepalive) (ns : ℕ) : (s.sendIfDue ns).1.clock = s.clock := by
  unfold sendIfDue sendUdpKeepalive
  split_ifs <;> rfl

/-- The sleep after an idle keepalive ends before the lost timeout only in the recovery of
`Foreground` and `ActiveTx`. -/
theorem iterateIdle_wakeAt_lt_iff (s : Keepalive) (draw : ℕ) :
    (s.iterateIdle draw).1.wakeAt < s.clock + s.timings.lostNs ↔
      s.clock < s.udpRecoveryUntilNs ∧ s.powerProfile ≠ .background := by
  have hclock : (s.iterateIdle draw).1.wakeAt =
      s.clock + jitteredKeepaliveDelayMs s.intervalSec draw * kNsPerMs := by
    simp only [iterateIdle, sleep, sendWsHeartbeat]
    split_ifs <;> simp [clock_sendIfDue]
  rw [hclock, Nat.add_lt_add_iff_left, timings, intervalSec, delay_lt_lost_iff, decide_eq_true_iff]

/-- The retransmission interval of a profile and one poll more are below the lost timeout of every
profile. -/
theorem rtx_add_poll_lt_lost (profile profile' : PowerProfile) :
    (keepaliveTimingsFor profile).rtxNs +
        (keepaliveTimingsFor profile).pendingPollMs * kNsPerMs <
      (keepaliveTimingsFor profile').lostNs := by
  cases profile <;> cases profile' <;> decide

theorem rtxNs_pos (profile : PowerProfile) : 0 < (keepaliveTimingsFor profile).rtxNs := by
  cases profile <;> decide

/-! ## The first keepalive that is not answered -/

/-- There is a keepalive that is neither answered nor retransmitted. -/
def Unanswered (s : Keepalive) : Prop :=
  s.lastUdpKeepalivePendingSinceNs ≠ 0 ∧ s.resent = 0

instance (s : Keepalive) : Decidable s.Unanswered := inferInstanceAs (Decidable (_ ∧ _))

/-- A retransmission that is due can be sent. -/
def Sendable (s : Keepalive) : KeepaliveAction → Prop
  | .iterate _ => s.Awake → s.Unanswered →
    s.sessionId ≠ 0 ∧
      (s.lastUdpKeepalivePendingSinceNs + s.timings.rtxNs ≤ s.wakeAt → s.udpSocket = true)
  | _ => True

/-- The sleep that a first keepalive was sent in ends before the lost timeout. -/
def InTime (s : Keepalive) : KeepaliveAction → Prop
  | .iterate _ => s.Awake → s.Unanswered → s.sleptAt ≤ s.lastUdpKeepalivePendingSinceNs →
    s.wakeAt < s.lastUdpKeepalivePendingSinceNs + s.timings.lostNs
  | _ => True

/-- A loss is declared with a keepalive that is not answered and has been retransmitted. -/
def RetransmittedFirst (s : Keepalive) (a : KeepaliveAction) : Prop :=
  KeepaliveOutput.keepaliveLost ∈ (s.step a).2 →
    s.lastUdpKeepalivePendingSinceNs ≠ 0 ∧ 0 < s.resent

instance (s : Keepalive) (a : KeepaliveAction) : Decidable (s.Sendable a) := by
  unfold Sendable
  split <;> infer_instance

instance (s : Keepalive) (a : KeepaliveAction) : Decidable (s.InTime a) := by
  unfold InTime
  split <;> infer_instance

structure KeepaliveInv (s : Keepalive) : Prop where
  slept_le : s.sleptAt ≤ s.clock
  le_wake : s.running = true → s.clock ≤ s.wakeAt
  first : s.Unanswered → s.lastUdpKeepaliveSentNs = s.lastUdpKeepalivePendingSinceNs
  polled : s.Unanswered → s.lastUdpKeepalivePendingSinceNs < s.sleptAt →
    ∀ profile, s.wakeAt < s.lastUdpKeepalivePendingSinceNs + (keepaliveTimingsFor profile).lostNs

theorem KeepaliveInv.sendUdpKeepalive {s : Keepalive} (h : s.KeepaliveInv) :
    s.sendUdpKeepalive.1.KeepaliveInv := by
  unfold Keepalive.sendUdpKeepalive
  split_ifs with hnot hpending
  · exact h
  · -- the first keepalive: it is sent in the sleep that is under way
    exact ⟨h.slept_le, h.le_wake, fun _ => rfl, fun _ hlt => absurd h.slept_le (not_le_of_gt hlt)⟩
  · exact ⟨h.slept_le, h.le_wake, fun hun => absurd hun.2 (Nat.succ_ne_zero _),
      fun hun => absurd hun.2 (Nat.succ_ne_zero _)⟩

theorem KeepaliveInv.sendIfDue {s : Keepalive} (h : s.KeepaliveInv) (ns : ℕ) :
    (s.sendIfDue ns).1.KeepaliveInv := by
  unfold Keepalive.sendIfDue
  split_ifs
  · exact h.sendUdpKeepalive
  · exact h

/-- A sleep keeps the invariant if it ends in time for the keepalive that is unanswered. -/
theorem KeepaliveInv.sleep {s : Keepalive} (h : s.KeepaliveInv) {ms : ℕ}
    (hpoll : s.Unanswered → s.lastUdpKeepalivePendingSinceNs < s.clock → ∀ profile,
      s.clock + ms * kNsPerMs <
        s.lastUdpKeepalivePendingSinceNs + (keepaliveTimingsFor profile).lostNs) :
    (s.sleep ms).KeepaliveInv :=
  ⟨le_rfl, fun _ => Nat.le_add_right .., h.first, hpoll⟩

/-- A keepalive that follows an unanswered one is a retransmission. -/
theorem not_unanswered_sendUdpKeepalive {s : Keepalive}
    (hpending : s.lastUdpKeepalivePendingSinceNs ≠ 0)
    (hsend : s.Unanswered → s.udpSocket = true ∧ s.sessionId ≠ 0) :
    ¬ s.sendUdpKeepalive.1.Unanswered := by
  unfold sendUdpKeepalive
  split_ifs with hnot
  · intro hun
    obtain ⟨hsocket, hid⟩ := hsend hun
    simp [hsocket, hid] at hnot
  · simp [Unanswered, hpending]

theorem KeepaliveInv.iteratePending {s : Keepalive} (h : s.KeepaliveInv) (hawake : s.Awake)
    (hpending : s.lastUdpKeepalivePendingSinceNs ≠ 0) {draw : ℕ}
    (hsend : s.Sendable (.iterate draw)) : s.iteratePending.1.KeepaliveInv := by
  unfold Keepalive.iteratePending
  split_ifs with hlost
  · exact ⟨h.slept_le, nofun, fun hun => absurd rfl hun.1, fun hun => absurd rfl hun.1⟩
  refine (h.sendIfDue _).sleep ?_
  unfold Keepalive.sendIfDue
  split_ifs with hdue
  · -- a retransmission that is due is sent
    intro hun
    refine absurd hun (not_unanswered_sendUdpKeepalive hpending fun hs => ?_)
    obtain ⟨hid, hsocket⟩ := hsend hawake hs
    refine ⟨hsocket ?_, hid⟩
    have hfirst := h.first hs
    have hclock := hawake.2
    have hrtx : 0 < s.timings.rtxNs := rtxNs_pos _
    omega
  · intro hun _ profile
    dsimp only at hun ⊢
    have hfirst := h.first hun
    have hpoll := rtx_add_poll_lt_lost s.powerProfile profile
    change s.timings.rtxNs + s.timings.pendingPollMs * kNsPerMs < _ at hpoll
    omega

/-- A keepalive that follows no unanswered one is unanswered from now on. -/
theorem pending_of_sendIfDue {s : Keepalive} (hpending : s.lastUdpKeepalivePendingSinceNs = 0)
    {ns : ℕ} (hun : (s.sendIfDue ns).1.Unanswered) :
    (s.sendIfDue ns).1.lastUdpKeepalivePendingSinceNs = s.clock := by
  revert hun
  unfold Keepalive.sendIfDue Keepalive.sendUdpKeepalive
  split_ifs
  · exact fun hun => absurd hpending hun.1
  · exact fun _ => rfl
  · exact fun hun => absurd hpending hun.1

theorem sendWsHeartbeat_eq (s : Keepalive) :
    ∃ sent, s.sendWsHeartbeat.1 = { s with lastWsHeartbeatSentNs := sent } := by
  unfold sendWsHeartbeat
  split_ifs
  · exact ⟨s.clock, rfl⟩
  · exact ⟨s.lastWsHeartbeatSentNs, rfl⟩

theorem KeepaliveInv.iterateIdle {s : Keepalive} (h : s.KeepaliveInv)
    (hpending : s.lastUdpKeepalivePendingSinceNs = 0) (draw : ℕ) :
    (s.iterateIdle draw).1.KeepaliveInv := by
  -- whether or not a keepalive is sent, none is unanswered that is older than this iteration
  have hsleep : ∀ r : Keepalive, r.KeepaliveInv → r.clock = s.clock →
      (r.Unanswered → r.lastUdpKeepalivePendingSinceNs = s.clock) →
        ∀ ms, (r.sendWsHeartbeat.1.sleep ms).KeepaliveInv := by
    intro r hr hclock hnew ms
    obtain ⟨sent, hsent⟩ := sendWsHeartbeat_eq r
    rw [hsent]
    have hinv : ({ r with lastWsHeartbeatSentNs := sent } : Keepalive).KeepaliveInv :=
      ⟨hr.slept_le, hr.le_wake, hr.first, hr.polled⟩
    refine hinv.sleep fun hun hlt => ?_
    have hpendingNew := hnew hun
    dsimp only at hlt
    omega
  simp only [Keepalive.iterateIdle]
  split_ifs
  · exact hsleep s h rfl (fun hun => absurd hpending hun.1) _
  · exact hsleep _ (h.sendIfDue _) (clock_sendIfDue s _) (pending_of_sendIfDue hpending) _

theorem KeepaliveInv.step {s : Keepalive} {a : KeepaliveAction} (h : s.KeepaliveInv)
    (hsend : s.Sendable a) : (next Keepalive.step s a).KeepaliveInv := by
  cases a with
  | elapse ns =>
    have hwake := h.le_wake
    have hslept := h.slept_le
    simp only [next, Keepalive.step]
    split_ifs with hrunning
    · have hle := hwake hrunning
      exact ⟨by dsimp only; omega, fun _ => by dsimp only; omega, h.first, h.polled⟩
    · exact ⟨by dsimp only; omega, fun hrun => absurd hrun hrunning, h.first, h.polled⟩
  | iterate draw =>
    simp only [next, Keepalive.step]
    split_ifs with hawake
    · unfold Keepalive.iterate
      split_ifs with hid hpending
      · refine h.sleep fun hun => ?_
        exact absurd hid (hsend hawake hun).1
      · exact h.iteratePending hawake hpending hsend
      · exact h.iterateIdle (by simpa using hpending) draw
    · exact h
  | ack => exact ⟨h.slept_le, h.le_wake, fun hun => absurd rfl hun.1, fun hun => absurd rfl hun.1⟩
  | sendUdpKeepalive => exact h.sendUdpKeepalive
  | stop => exact ⟨h.slept_le, nofun, h.first, h.polled⟩
  | _ => exact ⟨h.slept_le, h.le_wake, h.first, h.polled⟩

theorem keepaliveInv_begin (now : ℕ) (profile : PowerProfile) :
    (begin now profile).KeepaliveInv :=
  ⟨le_rfl, fun _ => le_rfl, fun hun => absurd rfl hun.1, fun hun => absurd rfl hun.1⟩

/-! ## Declaring the loss -/

theorem keepaliveLost_not_mem_sendIfDue (s : Keepalive) (ns : ℕ) :
    KeepaliveOutput.keepaliveLost ∉ (s.sendIfDue ns).2 := by
  unfold sendIfDue sendUdpKeepalive
  split_ifs <;> simp

/-- A loss is declared at the end of a sleep, with a keepalive that has been unanswered for the
lost timeout. -/
theorem keepaliveLost_mem_step_iff (s : Keepalive) (a : KeepaliveAction) :
    KeepaliveOutput.keepaliveLost ∈ (s.step a).2 ↔
      (∃ draw, a = .iterate draw) ∧ s.Awake ∧ s.sessionId ≠ 0 ∧
        s.lastUdpKeepalivePendingSinceNs ≠ 0 ∧
          s.timings.lostNs ≤ s.clock - s.lastUdpKeepalivePendingSinceNs := by
  cases a with
  | iterate draw =>
    have hidle : KeepaliveOutput.keepaliveLost ∉ (s.iterateIdle draw).2 := by
      have hsend := keepaliveLost_not_mem_sendIfDue s (s.intervalSec * kNsPerSec)
      simp only [iterateIdle, sendWsHeartbeat]
      split_ifs <;> simp [hsend]
    have hpoll := keepaliveLost_not_mem_sendIfDue s s.timings.rtxNs
    simp only [step]
    split_ifs with hawake
    · unfold iterate
      split_ifs with hid hpending
      · simp [hid]
      · unfold iteratePending
        split_ifs with hlost
        · simp [hawake, hid, hpending, hlost]
        · simp [hpoll, hlost]
      · simp [hidle, hpending]
    · simp [hawake]
  | sendUdpKeepalive =>
    simp only [step, sendUdpKeepalive]
    split_ifs <;> simp
  | _ => simp [step]

theorem retransmittedFirst_iff {s : Keepalive} {a : KeepaliveAction} (h : s.KeepaliveInv)
    (hsend : s.Sendable a) : s.RetransmittedFirst a ↔ s.InTime a := by
  have hlost := rtx_add_poll_lt_lost s.powerProfile s.powerProfile
  change _ < s.timings.lostNs at hlost
  unfold RetransmittedFirst
  rw [keepaliveLost_mem_step_iff]
  cases a with
  | iterate draw =>
    constructor
    · intro hfirst hawake hun hslept
      by_contra hlate
      have hclock := hawake.2
      have hresent := (hfirst ⟨⟨draw, rfl⟩, hawake, (hsend hawake hun).1, hun.1, by omega⟩).2
      exact hresent.ne' hun.2
    · rintro hin ⟨-, hawake, -, hpending, hage⟩
      refine ⟨hpending, Nat.pos_of_ne_zero fun hresent => ?_⟩
      have hclock := hawake.2
      rcases le_or_gt s.sleptAt s.lastUdpKeepalivePendingSinceNs with hslept | hpolled
      · have hwake := hin hawake ⟨hpending, hresent⟩ hslept
        omega
      · have hwake := h.polled ⟨hpending, hresent⟩ hpolled s.powerProfile
        change _ < _ + s.timings.lostNs at hwake
        omega
  | _ => simp [InTime]

/-- In a run in which a retransmission that is due can be sent, no loss is declared before a
retransmission if and only if the sleep that a first keepalive was sent in ends before the lost
timeout whenever the answer stays out. -/
theorem lost_only_after_rtx {now : ℕ} {profile : PowerProfile} {as : List KeepaliveAction}
    (hsend : Along (next step) Sendable (begin now profile) as) :
    Along (next step) RetransmittedFirst (begin now profile) as ↔
      Along (next step) InTime (begin now profile) as :=
  Along.congr (I := KeepaliveInv) (D := RetransmittedFirst) (fun _ _ hI hs => hI.step hs)
    (fun _ _ hI hs => retransmittedFirst_iff hI hs) (keepaliveInv_begin now profile) hsend

/-- The welcome comes in the first sleep of the loop, and `handleWelcome` sends a keepalive. -/
def welcomed : List KeepaliveAction :=
  [.iterate 0, .welcome 7, .enterUdpRecovery, .sendUdpKeepalive]

/-- That keepalive and its six retransmissions are not answered. -/
def silentRelay : List KeepaliveAction :=
  welcomed ++ (List.replicate 25 [.elapse kNsPerSec, .iterate 0]).flatten

theorem silentRelay_retransmits :
    KeepaliveOutput.keepaliveLost ∈ outputs step (begin 1 .foreground) silentRelay ∧
      Along (next step) RetransmittedFirst (begin 1 .foreground) silentRelay := by
  have hsend : Along (next step) Sendable (begin 1 .foreground) silentRelay := by
    decide +kernel
  exact ⟨by decide +kernel, (lost_only_after_rtx hsend).2 (by decide +kernel)⟩

/-- An idle iteration that sends a keepalive: it is unanswered from now on. -/
theorem iterateIdle_sends {s : Keepalive} (hsocket : s.udpSocket = true) (hid : s.sessionId ≠ 0)
    (hpending : s.lastUdpKeepalivePendingSinceNs = 0) (htx : s.localTxActive = false)
    (hprofile : s.powerProfile ≠ .activeTx)
    (hdue : s.intervalSec * kNsPerSec ≤ s.clock - s.lastUdpKeepaliveSentNs) (draw : ℕ) :
    ∃ heartbeat wake, (s.iterateIdle draw).1 =
      { s with
        lastUdpKeepaliveSentNs := s.clock
        lastUdpKeepalivePendingSinceNs := s.clock
        resent := 0
        lastWsHeartbeatSentNs := heartbeat
        sleptAt := s.clock
        wakeAt := wake } := by
  have hsend : s.sendIfDue (s.intervalSec * kNsPerSec) = s.sendUdpKeepalive :=
    if_pos (Or.inr hdue)
  have hsent : s.sendUdpKeepalive.1 =
      { s with
        lastUdpKeepaliveSentNs := s.clock
        lastUdpKeepalivePendingSinceNs := s.clock
        resent := 0 } := by
    simp [sendUdpKeepalive, hsocket, hid, hpending]
  obtain ⟨heartbeat, hheartbeat⟩ := sendWsHeartbeat_eq s.sendUdpKeepalive.1
  refine ⟨heartbeat, s.clock + jitteredKeepaliveDelayMs s.intervalSec draw * kNsPerMs, ?_⟩
  simp only [iterateIdle]
  rw [if_neg (by simp [htx, hprofile]), hsend, hheartbeat, hsent]
  rfl

/-- Outside the recovery of `Foreground`, an idle keepalive whose answer is lost is the last thing
that is sent before the loss, whatever the delay is. -/
theorem lost_after_idle_keepalive {s : Keepalive} (hawake : s.Awake) (hclock : s.clock ≠ 0)
    (hsocket : s.udpSocket = true) (hid : s.sessionId ≠ 0)
    (hpending : s.lastUdpKeepalivePendingSinceNs = 0) (htx : s.localTxActive = false)
    (hprofile : s.powerProfile ≠ .activeTx)
    (hdue : s.intervalSec * kNsPerSec ≤ s.clock - s.lastUdpKeepaliveSentNs)
    (hlong : ¬ (s.clock < s.udpRecoveryUntilNs ∧ s.powerProfile ≠ .background))
    (draw draw' ns : ℕ) (hns : (s.iterateIdle draw).1.wakeAt ≤ s.clock + ns) :
    ¬ RetransmittedFirst (after (next step) s [.iterate draw, .elapse ns]) (.iterate draw') := by
  have hwake : s.clock + s.timings.lostNs ≤ (s.iterateIdle draw).1.wakeAt :=
    not_lt.1 fun hlt => hlong ((iterateIdle_wakeAt_lt_iff s draw).1 hlt)
  have hiterate : s.step (.iterate draw) = s.iterateIdle draw := by
    simp [step, iterate, hawake, hid, hpending]
  obtain ⟨heartbeat, wake, hsent⟩ :=
    iterateIdle_sends hsocket hid hpending htx hprofile hdue draw
  rw [hsent] at hwake hns
  have hafter : after (next step) s [.iterate draw, .elapse ns] =
      { (s.iterateIdle draw).1 with clock := wake } := by
    simp only [after_cons, after_nil, next, hiterate, hsent]
    simp only [step, hawake.1, ↓reduceIte]
    rw [min_eq_right hns]
  rw [hafter, hsent]
  intro hfirst
  refine absurd (hfirst ((keepaliveLost_mem_step_iff _ _).2
    ⟨⟨draw', rfl⟩, ⟨hawake.1, rfl⟩, hid, hclock, ?_⟩)).2 (lt_irrefl 0)
  exact Nat.le_sub_of_add_le' hwake

/-- Every keepalive is answered until the recovery is over, and then the answer to one is lost. -/
def oneAnswerLost : List KeepaliveAction :=
  welcomed ++ .ack ::
    ((List.replicate 14 [.elapse (14 * kNsPerSec), .iterate 1800, .ack]).flatten ++
      [.elapse (14 * kNsPerSec), .iterate 0, .elapse (14 * kNsPerSec)])

/-- The next iteration ends the session, and nothing has been sent after that keepalive. -/
theorem lost_after_one_answer :
    let s := after (next step) (begin 1 .foreground) oneAnswerLost
    KeepaliveOutput.keepaliveLost ∈ (s.step (.iterate 0)).2 ∧ s.resent = 0 ∧
      s.clock - s.lastUdpKeepalivePendingSinceNs = 10200 * kNsPerMs ∧
      ¬ s.RetransmittedFirst (.iterate 0) := by
  have hlost : KeepaliveOutput.keepaliveLost ∈ ((after (next step) (begin 1 .foreground)
      oneAnswerLost).step (.iterate 0)).2 := by decide +kernel
  have hresent : (after (next step) (begin 1 .foreground) oneAnswerLost).resent = 0 := by
    decide +kernel
  exact ⟨hlost, hresent, by decide +kernel, fun h => (h hlost).2.ne' hresent⟩

end Keepalive

end OWalkie
