import OWalkie.Relay.Basic

/-!
# Admission of uplink packets

The two tests that a packet passes before it is queued for the mixer: the transmit timeout
(`TxState.canAcceptTxPacket`, guarded by `txMu`) and the busy-mode arbitration
(`BusyState.tryAcceptPacket`, guarded by `busyMu`).  Each function here is one locked section.
-/

namespace OWalkie

/-! ## Transmit timeout -/

/-- The maps under `txMu`; a key that is absent from a map of flags reads as `false`. -/
structure TxState where
  txStartedAt : SessionID → Option ℤ := fun _ => none
  txForceStopped : SessionID → Bool := fun _ => false
  txLastStopNoticeAt : SessionID → Option ℤ := fun _ => none
  txCountdownNotified : SessionID → Bool := fun _ => false

/-- What the locked section of `canAcceptTxPacket` decides. -/
structure TxVerdict where
  accept : Bool := true
  shouldNotify : Bool := false
  shouldStartCountdown : Bool := false
  deriving DecidableEq, Repr

namespace TxState

def shouldNotifyTxStopLocked (tx : TxState) (sessionID : SessionID) (now : ℤ) : TxState × Bool :=
  match tx.txLastStopNoticeAt sessionID with
  | some last =>
    if now - last < second then (tx, false)
    else
      ({ tx with
          txLastStopNoticeAt := Function.update tx.txLastStopNoticeAt sessionID (some now) }, true)
  | none =>
    ({ tx with
        txLastStopNoticeAt := Function.update tx.txLastStopNoticeAt sessionID (some now) }, true)

/-- The part of `canAcceptTxPacket` under `txMu`. -/
def canAcceptTxPacket (p : MixerParams) (sessionID : SessionID) (now : ℤ) (tx : TxState) :
    TxState × TxVerdict :=
  if 0 < p.transmitTimeout then
    match tx.txStartedAt sessionID with
    | none =>
      ({ tx with
          txStartedAt := Function.update tx.txStartedAt sessionID (some now)
          txCountdownNotified := Function.update tx.txCountdownNotified sessionID false }, {})
    | some startedAt =>
      if tx.txForceStopped sessionID then
        let (tx, shouldNotify) := tx.shouldNotifyTxStopLocked sessionID now
        (tx, { accept := false, shouldNotify := shouldNotify })
      else if p.transmitTimeout ≤ now - startedAt then
        let tx := { tx with
          txForceStopped := Function.update tx.txForceStopped sessionID true }
        let (tx, shouldNotify) := tx.shouldNotifyTxStopLocked sessionID now
        (tx, { accept := false, shouldNotify := shouldNotify })
      else
        let countdownLead := max (p.transmitTimeout - 5 * second) 0
        if tx.txCountdownNotified sessionID = false ∧ countdownLead ≤ now - startedAt then
          ({ tx with
              txCountdownNotified := Function.update tx.txCountdownNotified sessionID true },
            { shouldStartCountdown := true })
        else (tx, {})
  else (tx, {})

/-- The deletions that `markEOF` and `removeParticipant` make under `txMu`. -/
def clear (tx : TxState) (sessionID : SessionID) : TxState where
  txStartedAt := Function.update tx.txStartedAt sessionID none
  txForceStopped := Function.update tx.txForceStopped sessionID false
  txLastStopNoticeAt := Function.update tx.txLastStopNoticeAt sessionID none
  txCountdownNotified := Function.update tx.txCountdownNotified sessionID false

/-- The deletions that `cleanupStreamStates` makes for the sessions it removes; unlike `clear` it
leaves `txCountdownNotified` alone. -/
def cleanup (tx : TxState) (removed : SessionID → Bool) : TxState where
  txStartedAt sid := if removed sid then none else tx.txStartedAt sid
  txForceStopped sid := if removed sid then false else tx.txForceStopped sid
  txLastStopNoticeAt sid := if removed sid then none else tx.txLastStopNoticeAt sid
  txCountdownNotified := tx.txCountdownNotified

section

variable {p : MixerParams} {tx : TxState} {sid : SessionID} {now : ℤ}

@[simp] theorem shouldNotifyTxStopLocked_txStartedAt :
    (tx.shouldNotifyTxStopLocked sid now).1.txStartedAt = tx.txStartedAt := by
  unfold shouldNotifyTxStopLocked
  split
  · split_ifs <;> rfl
  · rfl

@[simp] theorem shouldNotifyTxStopLocked_txForceStopped :
    (tx.shouldNotifyTxStopLocked sid now).1.txForceStopped = tx.txForceStopped := by
  unfold shouldNotifyTxStopLocked
  split
  · split_ifs <;> rfl
  · rfl

/-- The first packet after the session was cleared starts its clock and is accepted. -/
theorem canAcceptTxPacket_start (hT : 0 < p.transmitTimeout) (h : tx.txStartedAt sid = none) :
    (tx.canAcceptTxPacket p sid now).2 = {} ∧
      (tx.canAcceptTxPacket p sid now).1.txStartedAt =
        Function.update tx.txStartedAt sid (some now) ∧
      (tx.canAcceptTxPacket p sid now).1.txForceStopped = tx.txForceStopped := by
  simp [canAcceptTxPacket, hT, h]

/-- A packet of a session whose clock runs is refused when the session was force-stopped or its time
is up, which force-stops it. -/
theorem canAcceptTxPacket_refuse {t : ℤ} (hT : 0 < p.transmitTimeout)
    (h : tx.txStartedAt sid = some t)
    (hr : tx.txForceStopped sid = true ∨ p.transmitTimeout ≤ now - t) :
    (tx.canAcceptTxPacket p sid now).2.accept = false ∧
      (tx.canAcceptTxPacket p sid now).1.txStartedAt = tx.txStartedAt ∧
      (tx.canAcceptTxPacket p sid now).1.txForceStopped =
        Function.update tx.txForceStopped sid true := by
  unfold canAcceptTxPacket
  rw [if_pos hT, h]
  by_cases hf : tx.txForceStopped sid = true
  · simp only [hf, if_true, shouldNotifyTxStopLocked_txStartedAt,
      shouldNotifyTxStopLocked_txForceStopped, true_and]
    rw [← hf, Function.update_eq_self]
  · have hlate : p.transmitTimeout ≤ now - t := hr.resolve_left hf
    simp [hf, hlate]

theorem canAcceptTxPacket_pass {t : ℤ} (hT : 0 < p.transmitTimeout)
    (h : tx.txStartedAt sid = some t) (hf : tx.txForceStopped sid = false)
    (hlt : now - t < p.transmitTimeout) :
    (tx.canAcceptTxPacket p sid now).2.accept = true ∧
      (tx.canAcceptTxPacket p sid now).2.shouldNotify = false ∧
      (tx.canAcceptTxPacket p sid now).1.txStartedAt = tx.txStartedAt ∧
      (tx.canAcceptTxPacket p sid now).1.txForceStopped = tx.txForceStopped := by
  unfold canAcceptTxPacket
  rw [if_pos hT, h]
  simp only [hf, Bool.false_eq_true, if_false, not_le.2 hlt]
  split_ifs <;> exact ⟨rfl, rfl, rfl, rfl⟩

/-- A check concerns the entries of its own session only. -/
theorem canAcceptTxPacket_of_ne {sid' : SessionID} (h : sid' ≠ sid) :
    (tx.canAcceptTxPacket p sid now).1.txStartedAt sid' = tx.txStartedAt sid' ∧
      (tx.canAcceptTxPacket p sid now).1.txForceStopped sid' = tx.txForceStopped sid' := by
  by_cases hT : 0 < p.transmitTimeout
  · cases ht : tx.txStartedAt sid with
    | none =>
      obtain ⟨-, hs, hf⟩ := canAcceptTxPacket_start hT ht
      rw [hs, hf, Function.update_of_ne h]
      exact ⟨rfl, rfl⟩
    | some t =>
      by_cases hr : tx.txForceStopped sid = true ∨ p.transmitTimeout ≤ now - t
      · obtain ⟨-, hs, hf⟩ := canAcceptTxPacket_refuse hT ht hr
        rw [hs, hf, Function.update_of_ne h]
        exact ⟨rfl, rfl⟩
      · rw [not_or, Bool.not_eq_true, not_le] at hr
        obtain ⟨-, -, hs, hf⟩ := canAcceptTxPacket_pass hT ht hr.1 hr.2
        rw [hs, hf]
        exact ⟨rfl, rfl⟩
  · simp [canAcceptTxPacket, hT]

end

end TxState

/-! ## Busy mode -/

/-- The fields under `busyMu`; `busySessionID = 0` stands for nobody. -/
structure BusyState where
  busySessionID : SessionID := 0
  busyLastPacketAt : Option ℤ := none
  busyExplicitEOF : Bool := false
  busyStartedAt : Option ℤ := none
  busyParallelAllowed : Bool := false
  deriving DecidableEq, Repr

/-- What `tryAcceptPacket` decides. -/
structure BusyVerdict where
  accept : Bool
  notifyBusyTimeoutElapsed : Bool := false
  deriving DecidableEq, Repr

namespace BusyState

/-- The time for which the holder keeps the channel after its last packet or EOF. -/
def hold (p : MixerParams) (b : BusyState) : ℤ :=
  if b.busyExplicitEOF then p.packetDur else p.hangoverDur

def busyWindowExpiredLocked (p : MixerParams) (now : ℤ) (b : BusyState) : Bool :=
  b.busySessionID = 0 || b.hold p < sub now b.busyLastPacketAt

def resetBusyHoldLocked (b : BusyState) : BusyState :=
  { b with
    busySessionID := 0
    busyExplicitEOF := false
    busyStartedAt := none
    busyParallelAllowed := false }

/-- The first test of `tryAcceptPacket`: a holder that is no participant loses the channel. -/
def dropAbsentHolder (b : BusyState) (participants : Finset SessionID) : BusyState :=
  if b.busySessionID ≠ 0 ∧ b.busySessionID ∉ participants then b.resetBusyHoldLocked else b

/-- The rest of `tryAcceptPacket`. -/
def arbitrate (p : MixerParams) (sessionID : SessionID) (now : ℤ) (b : BusyState) :
    BusyState × BusyVerdict :=
  if b.busySessionID = 0 ∨ b.busyWindowExpiredLocked p now = true then
    ({ busySessionID := sessionID
       busyLastPacketAt := some now
       busyExplicitEOF := false
       busyStartedAt := some now
       busyParallelAllowed := false }, { accept := true })
  else
    let elapsed : Bool := decide (0 < p.busyTimeout) && !b.busyParallelAllowed &&
      b.busyStartedAt.isSome && decide (p.busyTimeout ≤ sub now b.busyStartedAt)
    let b := if elapsed then { b with busyParallelAllowed := true } else b
    if b.busyParallelAllowed = true ∨ b.busySessionID = sessionID then
      ({ b with busyLastPacketAt := some now, busyExplicitEOF := false },
        { accept := true, notifyBusyTimeoutElapsed := elapsed })
    else (b, { accept := false, notifyBusyTimeoutElapsed := elapsed })

def tryAcceptPacket (p : MixerParams) (participants : Finset SessionID) (sessionID : SessionID)
    (now : ℤ) (b : BusyState) : BusyState × BusyVerdict :=
  (b.dropAbsentHolder participants).arbitrate p sessionID now

/-- The part of `markBusyEOF` under `busyMu`. -/
def markBusyEOF (p : MixerParams) (sessionID : SessionID) (now : ℤ) (b : BusyState) : BusyState :=
  if p.busyMode = true ∧ b.busySessionID = sessionID then
    { b with busyExplicitEOF := true, busyLastPacketAt := some now }
  else b

/-- The part of `removeParticipant` under `busyMu`. -/
def leave (sessionID : SessionID) (b : BusyState) : BusyState :=
  if b.busySessionID = sessionID then b.resetBusyHoldLocked else b

end BusyState

end OWalkie
