import OWalkie.Core.Keepalive

/-!
# The time between two keepalives

A wake-up of `keepaliveLoop` sends an idle keepalive if it finds the last one a full interval old,
and between two wake-ups the loop sleeps a jittered interval.  A sleep that is shorter than the
interval ends a little too early, and the loop sleeps a second time before it sends.  `spacing_iff`
says that this is the only thing that keeps two keepalives apart for longer than the jitter allows.
-/

namespace OWalkie

namespace Keepalive

open Run

/-! ## The undisturbed loop -/

/-- The loop is outside of the recovery window, nothing is transmitted, and no keepalive stays
unanswered for longer than one poll. -/
structure Undisturbed (s : Keepalive) : Prop where
  running : s.running = true
  welcomed : s.sessionId ≠ 0
  idleProfile : s.powerProfile ≠ .activeTx
  silent : s.localTxActive = false
  socket : s.udpSocket = true
  recovered : s.udpRecoveryUntilNs ≤ s.clock
  answered : s.lastUdpKeepalivePendingSinceNs ≠ 0 →
    s.clock ≤ s.lastUdpKeepalivePendingSinceNs + s.timings.pendingPollMs * kNsPerMs

instance (s : Keepalive) : Decidable s.Undisturbed :=
  decidable_of_iff (s.running = true ∧ s.sessionId ≠ 0 ∧ s.powerProfile ≠ .activeTx ∧
      s.localTxActive = false ∧ s.udpSocket = true ∧ s.udpRecoveryUntilNs ≤ s.clock ∧
      (s.lastUdpKeepalivePendingSinceNs ≠ 0 →
        s.clock ≤ s.lastUdpKeepalivePendingSinceNs + s.timings.pendingPollMs * kNsPerMs))
    ⟨fun ⟨h1, h2, h3, h4, h5, h6, h7⟩ => ⟨h1, h2, h3, h4, h5, h6, h7⟩,
      fun ⟨h1, h2, h3, h4, h5, h6, h7⟩ => ⟨h1, h2, h3, h4, h5, h6, h7⟩⟩

/-- A step between two keepalives: time passes, an answer comes or the loop goes round. -/
def Between (s : Keepalive) (a : KeepaliveAction) : Prop :=
  (match a with
    | .elapse _ | .iterate _ | .ack => True
    | _ => False) ∧
  KeepaliveOutput.keepalive ∉ (s.step a).2 ∧ (next step s a).Undisturbed

instance (s : Keepalive) : ∀ a : KeepaliveAction, Decidable (s.Between a)
  | .elapse _ | .iterate _ | .ack => inferInstanceAs (Decidable (True ∧ _ ∧ _))
  | .sendUdpKeepalive | .welcome _ | .setPowerProfile _ | .enterUdpRecovery | .setLocalTxActive _
  | .setUdpSocket _ | .stop => isFalse fun h => h.1

/-- The times of the last keepalive, of the clock and of the wake-up are in order. -/
structure SentOrder (s : Keepalive) : Prop where
  pending_le : s.lastUdpKeepalivePendingSinceNs ≤ s.lastUdpKeepaliveSentNs
  sent_le : s.lastUdpKeepaliveSentNs ≤ s.clock
  le_wake : s.running = true → s.clock ≤ s.wakeAt

theorem SentOrder.sendUdpKeepalive {s : Keepalive} (h : s.SentOrder) :
    s.sendUdpKeepalive.1.SentOrder := by
  obtain ⟨hpending, hsent, hwake⟩ := h
  unfold Keepalive.sendUdpKeepalive
  split_ifs
  · exact ⟨hpending, hsent, hwake⟩
  · exact ⟨le_rfl, le_rfl, hwake⟩
  · exact ⟨hpending.trans hsent, le_rfl, hwake⟩

theorem SentOrder.sendIfDue {s : Keepalive} (h : s.SentOrder) (ns : ℕ) :
    (s.sendIfDue ns).1.SentOrder := by
  unfold Keepalive.sendIfDue
  split_ifs
  · exact h.sendUdpKeepalive
  · exact h

theorem SentOrder.sleep {s : Keepalive} (h : s.SentOrder) (ms : ℕ) : (s.sleep ms).SentOrder :=
  ⟨h.pending_le, h.sent_le, fun _ => Nat.le_add_right ..⟩

theorem SentOrder.sendWsHeartbeat {s : Keepalive} (h : s.SentOrder) :
    s.sendWsHeartbeat.1.SentOrder := by
  obtain ⟨sent, hsent⟩ := sendWsHeartbeat_eq s
  rw [hsent]
  exact ⟨h.pending_le, h.sent_le, h.le_wake⟩

theorem SentOrder.iterate {s : Keepalive} (h : s.SentOrder) (draw : ℕ) :
    (s.iterate draw).1.SentOrder := by
  unfold Keepalive.iterate
  split_ifs
  · exact h.sleep 1000
  · unfold iteratePending
    split_ifs
    · exact ⟨Nat.zero_le _, h.sent_le, fun hrun => absurd hrun Bool.false_ne_true⟩
    · exact (h.sendIfDue s.timings.rtxNs).sleep _
  · simp only [iterateIdle]
    split_ifs
    · exact h.sendWsHeartbeat.sleep _
    · exact (h.sendIfDue _).sendWsHeartbeat.sleep _

theorem SentOrder.step {s : Keepalive} (h : s.SentOrder) (a : KeepaliveAction) :
    (next Keepalive.step s a).SentOrder := by
  cases a with
  | elapse ns =>
    obtain ⟨hpending, hsent, hwake⟩ := h
    simp only [next, Keepalive.step]
    split_ifs with hrunning
    · have hle := hwake hrunning
      exact ⟨hpending, by dsimp only; omega, fun _ => by dsimp only; omega⟩
    · exact ⟨hpending, by dsimp only; omega, fun hrun => absurd hrun hrunning⟩
  | iterate draw =>
    simp only [next, Keepalive.step]
    split_ifs
    · exact h.iterate draw
    · exact h
  | ack => exact ⟨Nat.zero_le _, h.sent_le, h.le_wake⟩
  | sendUdpKeepalive => exact h.sendUdpKeepalive
  | stop => exact ⟨h.pending_le, h.sent_le, fun hrun => absurd hrun Bool.false_ne_true⟩
  | _ => exact ⟨h.pending_le, h.sent_le, h.le_wake⟩

/-! ## Rounds of the undisturbed loop -/

/-- The idle keepalive is due. -/
def IdleDue (s : Keepalive) : Prop :=
  s.lastUdpKeepaliveSentNs = 0 ∨ s.timings.idleIntervalNs ≤ s.clock - s.lastUdpKeepaliveSentNs

instance (s : Keepalive) : Decidable s.IdleDue := inferInstanceAs (Decidable (_ ∨ _))

variable {s : Keepalive}

theorem Undisturbed.intervalSec_eq (h : s.Undisturbed) :
    s.intervalSec = keepaliveIntervalSec s.powerProfile false := by
  have hrecovered : ¬ s.clock < s.udpRecoveryUntilNs := not_lt.2 h.recovered
  unfold intervalSec
  rw [decide_eq_false hrecovered]

theorem intervalSec_mul (profile : PowerProfile) :
    keepaliveIntervalSec profile false * kNsPerSec = (keepaliveTimingsFor profile).idleIntervalNs := by
  cases profile <;> rfl

/-- An idle round: the keepalive is sent when it is due, and the loop sleeps a jittered interval. -/
theorem Undisturbed.iterateIdle (h : s.Undisturbed)
    (hpending : s.lastUdpKeepalivePendingSinceNs = 0) (draw : ℕ) :
    (KeepaliveOutput.keepalive ∈ (s.iterateIdle draw).2 ↔ s.IdleDue) ∧
      (s.iterateIdle draw).1.clock = s.clock ∧
      (s.iterateIdle draw).1.powerProfile = s.powerProfile ∧
      (s.iterateIdle draw).1.wakeAt =
        s.clock + jitteredKeepaliveDelayMs s.intervalSec draw * kNsPerMs ∧
      (s.iterateIdle draw).1.lastUdpKeepaliveSentNs =
        (if s.IdleDue then s.clock else s.lastUdpKeepaliveSentNs) ∧
      (s.iterateIdle draw).1.lastUdpKeepalivePendingSinceNs =
        (if s.IdleDue then s.clock else 0) := by
  have hactive : ¬ (s.localTxActive = true ∨ s.powerProfile = .activeTx) := by
    rw [h.silent]
    rintro (htx | hprofile)
    · cases htx
    · exact h.idleProfile hprofile
  have hsend : s.sendUdpKeepalive =
      ({ s with
        lastUdpKeepaliveSentNs := s.clock
        lastUdpKeepalivePendingSinceNs := s.clock
        resent := 0 }, [.keepalive]) := by
    simp [sendUdpKeepalive, h.socket, h.welcomed, hpending]
  have hdue : s.sendIfDue (s.intervalSec * kNsPerSec) =
      if s.IdleDue then s.sendUdpKeepalive else (s, []) := by
    rw [h.intervalSec_eq, intervalSec_mul]
    rfl
  have hbeat : ∀ r : Keepalive, KeepaliveOutput.keepalive ∉ r.sendWsHeartbeat.2 := by
    intro r
    unfold sendWsHeartbeat
    split_ifs <;> simp
  simp only [Keepalive.iterateIdle, if_neg hactive, hdue, hsend]
  by_cases hd : s.IdleDue
  · simp only [if_pos hd]
    obtain ⟨sent, hsent⟩ := sendWsHeartbeat_eq { s with
      lastUdpKeepaliveSentNs := s.clock
      lastUdpKeepalivePendingSinceNs := s.clock
      resent := 0 }
    rw [hsent]
    exact ⟨iff_of_true (List.mem_append_left _ List.mem_cons_self) hd, rfl, rfl, rfl, rfl, rfl⟩
  · simp only [if_neg hd]
    obtain ⟨sent, hsent⟩ := sendWsHeartbeat_eq s
    rw [hsent]
    exact ⟨iff_of_false (by simpa using hbeat s) hd, rfl, rfl, rfl, rfl, hpending⟩

/-- With a keepalive that has just been sent and is not answered, the loop polls. -/
theorem Undisturbed.iteratePending (h : s.Undisturbed) (horder : s.SentOrder)
    (hpending : s.lastUdpKeepalivePendingSinceNs ≠ 0) :
    KeepaliveOutput.keepalive ∉ s.iteratePending.2 := by
  have hage := h.answered hpending
  obtain ⟨hle, hsent, -⟩ := horder
  have hpoll := rtx_add_poll_lt_lost s.powerProfile s.powerProfile
  have hrtx : s.timings.pendingPollMs * kNsPerMs < s.timings.rtxNs := by
    unfold timings
    cases s.powerProfile <;> decide
  unfold Keepalive.iteratePending sendIfDue
  split_ifs with hlost hdue
  · simp
  · omega
  · simp

/-! ## Two consecutive keepalives -/

/-- A jittered interval of the profile, in nanoseconds. -/
def idleDelayNs (profile : PowerProfile) (draw : ℕ) : ℕ :=
  jitteredKeepaliveDelayMs (keepaliveIntervalSec profile false) draw * kNsPerMs

/-- The longest jittered interval and one poll. -/
def maxSpacingNs (profile : PowerProfile) : ℕ :=
  (keepaliveTimingsFor profile).idleIntervalNs * 115 / 100 +
    (keepaliveTimingsFor profile).pendingPollMs * kNsPerMs

/-- One jittered interval stays within the spacing and is longer than a poll; two do not. -/
theorem idleDelayNs_bounds (profile : PowerProfile) (draw draw' : ℕ) :
    (keepaliveTimingsFor profile).pendingPollMs * kNsPerMs < idleDelayNs profile draw ∧
      idleDelayNs profile draw ≤ maxSpacingNs profile ∧
      maxSpacingNs profile < idleDelayNs profile draw + idleDelayNs profile draw' ∧
      (keepaliveTimingsFor profile).idleIntervalNs ≤
        idleDelayNs profile draw + idleDelayNs profile draw' := by
  unfold idleDelayNs maxSpacingNs
  rw [keepaliveIntervalSec_eq]
  have h12 := jitteredKeepaliveDelayMs_mem (by decide : 2 ≤ 12) draw
  have h12' := jitteredKeepaliveDelayMs_mem (by decide : 2 ≤ 12) draw'
  have h50 := jitteredKeepaliveDelayMs_mem (by decide : 2 ≤ 50) draw
  have h50' := jitteredKeepaliveDelayMs_mem (by decide : 2 ≤ 50) draw'
  cases profile <;> simp only [keepaliveTimingsFor, kNsPerSec, kNsPerMs] <;> omega

/-- The loop after a keepalive at `sent` that a sleep of `first` follows: it is in that sleep, or in
the next one because the first was shorter than the interval. -/
structure Waiting (profile : PowerProfile) (sent first : ℕ) (s : Keepalive) : Prop where
  undisturbed : s.Undisturbed
  profile_eq : s.powerProfile = profile
  sent_eq : s.lastUdpKeepaliveSentNs = sent
  pending : s.lastUdpKeepalivePendingSinceNs = 0 ∨ s.lastUdpKeepalivePendingSinceNs = sent
  wake : s.wakeAt = sent + first ∨
    (sent ≠ 0 ∧ first < (keepaliveTimingsFor profile).idleIntervalNs ∧
      s.lastUdpKeepalivePendingSinceNs = 0 ∧
        ∃ draw, s.wakeAt = sent + first + idleDelayNs profile draw)

variable {profile : PowerProfile} {sent first : ℕ}

/-- No wake-up finds the keepalive unanswered. -/
theorem Waiting.pending_eq {draw : ℕ} (h : s.Waiting profile sent (idleDelayNs profile draw))
    (hawake : s.Awake) : s.lastUdpKeepalivePendingSinceNs = 0 := by
  by_contra hpending
  have hsent := h.pending.resolve_left hpending
  rcases h.wake with hwake | ⟨-, -, hzero, -⟩
  · have hage := h.undisturbed.answered hpending
    have hpoll := (idleDelayNs_bounds profile draw draw).1
    have hclock := hawake.2
    rw [timings, h.profile_eq] at hage
    omega
  · exact hpending hzero

/-- The second wake-up finds the keepalive due. -/
theorem Waiting.wake_of_not_due {draw : ℕ} (h : s.Waiting profile sent (idleDelayNs profile draw))
    (hawake : s.Awake) (hdue : ¬ s.IdleDue) : sent ≠ 0 ∧ s.wakeAt = sent + idleDelayNs profile draw ∧
      idleDelayNs profile draw < (keepaliveTimingsFor profile).idleIntervalNs := by
  obtain ⟨hsent, hage⟩ := not_or.1 hdue
  rw [h.sent_eq] at hsent hage
  rw [timings, h.profile_eq] at hage
  have hclock := hawake.2
  rcases h.wake with hwake | ⟨-, -, -, draw', hwake⟩
  · exact ⟨hsent, hwake, by omega⟩
  · have htwo := (idleDelayNs_bounds profile draw draw').2.2.2
    omega

theorem Waiting.step {draw : ℕ} (h : s.Waiting profile sent (idleDelayNs profile draw))
    {a : KeepaliveAction} (ha : s.Between a) :
    (next Keepalive.step s a).Waiting profile sent (idleDelayNs profile draw) := by
  obtain ⟨haction, hnone, hnext⟩ := ha
  cases a with
  | elapse ns => exact ⟨hnext, h.profile_eq, h.sent_eq, h.pending, h.wake⟩
  | ack =>
    refine ⟨hnext, h.profile_eq, h.sent_eq, Or.inl rfl, ?_⟩
    rcases h.wake with hwake | ⟨hsent, hshort, -, hwake⟩
    · exact Or.inl hwake
    · exact Or.inr ⟨hsent, hshort, rfl, hwake⟩
  | iterate draw' =>
    by_cases hawake : s.Awake
    · have hpending := h.pending_eq hawake
      have hstep : s.step (.iterate draw') = s.iterateIdle draw' := by
        simp [Keepalive.step, Keepalive.iterate, hawake, h.undisturbed.welcomed, hpending]
      obtain ⟨hsends, -, hprofile, hwake, hlast, hpend⟩ :=
        h.undisturbed.iterateIdle hpending draw'
      rw [hstep] at hnone
      have hdue : ¬ s.IdleDue := fun hd => hnone (hsends.2 hd)
      obtain ⟨hsent, hfirst, hshort⟩ := h.wake_of_not_due hawake hdue
      rw [next, hstep] at hnext ⊢
      rw [if_neg hdue] at hlast hpend
      refine ⟨hnext, hprofile.trans h.profile_eq, hlast.trans h.sent_eq, Or.inl hpend,
        Or.inr ⟨hsent, hshort, hpend, draw', ?_⟩⟩
      rw [hwake, hawake.2, hfirst, h.undisturbed.intervalSec_eq, h.profile_eq]
      rfl
    · have hstep : s.step (.iterate draw') = (s, []) := if_neg hawake
      rw [next, hstep]
      exact h
  | _ => exact haction.elim

/-- What a keepalive leaves: the loop waits. -/
theorem waiting_of_sent (h : s.Undisturbed) (horder : s.SentOrder) {draw : ℕ}
    (hsent : KeepaliveOutput.keepalive ∈ (s.step (.iterate draw)).2)
    (hnext : (next step s (.iterate draw)).Undisturbed) :
    (next step s (.iterate draw)).Waiting s.powerProfile s.clock
      (idleDelayNs s.powerProfile draw) := by
  by_cases hawake : s.Awake
  · have hiterate : s.step (.iterate draw) = s.iterate draw := if_pos hawake
    have hpending : s.lastUdpKeepalivePendingSinceNs = 0 := by
      by_contra hpending
      rw [hiterate, iterate, if_neg h.welcomed, if_pos hpending] at hsent
      exact h.iteratePending horder hpending hsent
    have hstep : s.step (.iterate draw) = s.iterateIdle draw := by
      rw [hiterate, iterate, if_neg h.welcomed, if_neg (by simpa using hpending)]
    obtain ⟨hsends, -, hprofile, hwake, hlast, hpend⟩ := h.iterateIdle hpending draw
    rw [hstep] at hsent
    rw [if_pos (hsends.1 hsent)] at hlast hpend
    rw [next, hstep] at hnext ⊢
    refine ⟨hnext, hprofile, hlast, Or.inr hpend, Or.inl ?_⟩
    rw [hwake, h.intervalSec_eq]
    rfl
  · rw [show s.step (.iterate draw) = (s, []) from if_neg hawake] at hsent
    cases hsent

/-- The next keepalive is in time if and only if the first sleep lasts a full interval. -/
theorem Waiting.clock_sub_le_iff {draw draw' : ℕ}
    (h : s.Waiting profile sent (idleDelayNs profile draw))
    (hsends : KeepaliveOutput.keepalive ∈ (s.step (.iterate draw')).2) :
    s.clock - sent ≤ maxSpacingNs profile ↔
      sent = 0 ∨ (keepaliveTimingsFor profile).idleIntervalNs ≤ idleDelayNs profile draw := by
  by_cases hawake : s.Awake
  · have hpending := h.pending_eq hawake
    have hstep : s.step (.iterate draw') = s.iterateIdle draw' := by
      simp [Keepalive.step, Keepalive.iterate, hawake, h.undisturbed.welcomed, hpending]
    rw [hstep] at hsends
    have hdue := (h.undisturbed.iterateIdle hpending draw').1.1 hsends
    rw [IdleDue, h.sent_eq, timings, h.profile_eq, hawake.2] at hdue
    rw [hawake.2]
    rcases h.wake with hwake | ⟨hne, hshort, -, draw'', hwake⟩
    · have hmax := (idleDelayNs_bounds profile draw draw).2.1
      rw [hwake] at hdue ⊢
      refine iff_of_true (by omega) (hdue.imp_right fun hage => ?_)
      omega
    · have htwo := (idleDelayNs_bounds profile draw draw'').2.2.1
      refine iff_of_false (by omega) ?_
      rintro (hzero | hlong)
      · exact hne hzero
      · omega
  · rw [show s.step (.iterate draw') = (s, []) from if_neg hawake] at hsends
    cases hsends

/-- In a run without disturbance, a keepalive follows the one before it in time if and only if the
sleep behind that one is not shorter than the interval. -/
theorem spacing_iff {now : ℕ} {profile : PowerProfile} {before between : List KeepaliveAction}
    {draw draw' : ℕ} (hs : (after (next step) (begin now profile) before).Undisturbed)
    (hfirst : KeepaliveOutput.keepalive ∈
      ((after (next step) (begin now profile) before).step (.iterate draw)).2)
    (hbetween : Along (next step) Between
      (after (next step) (begin now profile) (before ++ [.iterate draw])) between)
    (hnext : (after (next step) (begin now profile) (before ++ [.iterate draw])).Undisturbed)
    (hsecond : KeepaliveOutput.keepalive ∈
      ((after (next step) (begin now profile) (before ++ .iterate draw :: between)).step
        (.iterate draw')).2) :
    let s := after (next step) (begin now profile) before
    let s' := after (next step) (begin now profile) (before ++ .iterate draw :: between)
    s'.clock - s.clock ≤ maxSpacingNs s.powerProfile ↔
      s.clock = 0 ∨ s.timings.idleIntervalNs ≤ idleDelayNs s.powerProfile draw := by
  intro s s'
  have horder : s.SentOrder :=
    invariant (I := SentOrder) (fun _ a h => h.step a) ⟨le_rfl, Nat.zero_le _, fun _ => le_rfl⟩
      before
  rw [after_snoc] at hbetween hnext
  have hwaiting := waiting_of_sent hs horder hfirst hnext
  have hs' : s' = after (next step) (next step s (.iterate draw)) between := by
    show after _ _ (before ++ .iterate draw :: between) = _
    rw [after_append]
    rfl
  have hafter : s'.Waiting s.powerProfile s.clock (idleDelayNs s.powerProfile draw) := by
    rw [hs']
    exact invariant_along (fun _ a h ha => h.step ha) hwaiting hbetween
  exact hafter.clock_sub_le_iff hsecond

/-- Every keepalive is answered until the recovery is over, and the next one is due. -/
def recovered : List KeepaliveAction :=
  welcomed ++ .ack ::
    ((List.replicate 14 [.elapse (14 * kNsPerSec), .iterate 1800, .ack]).flatten ++
      [.elapse (14 * kNsPerSec)])

/-- The keepalive is answered after a tenth of a second, and the loop wakes up. -/
def oneSleep : List KeepaliveAction :=
  [.elapse (100 * kNsPerMs), .ack, .elapse (14 * kNsPerSec)]

/-- A sleep of the whole interval. -/
theorem spacing_iff_full_sleep :
    (after (next step) (begin 1 .foreground) (recovered ++ .iterate 1800 :: oneSleep)).clock -
        (after (next step) (begin 1 .foreground) recovered).clock ≤ maxSpacingNs .foreground := by
  have hrun : (after (next step) (begin 1 .foreground) recovered).Undisturbed ∧
      KeepaliveOutput.keepalive ∈
        ((after (next step) (begin 1 .foreground) recovered).step (.iterate 1800)).2 ∧
      Along (next step) Between
        (after (next step) (begin 1 .foreground) (recovered ++ [.iterate 1800])) oneSleep ∧
      (after (next step) (begin 1 .foreground) (recovered ++ [.iterate 1800])).Undisturbed ∧
      KeepaliveOutput.keepalive ∈ ((after (next step) (begin 1 .foreground)
        (recovered ++ .iterate 1800 :: oneSleep)).step (.iterate 0)).2 := by
    decide +kernel
  obtain ⟨hs, hfirst, hbetween, hnext, hsecond⟩ := hrun
  exact (spacing_iff hs hfirst hbetween hnext hsecond).2 (Or.inr (by decide))

/-- Two sleeps of 10.2 s keep two keepalives of `Foreground` 20.4 s apart. -/
theorem spacing_doubled :
    ¬ ∀ (now : ℕ) (profile : PowerProfile) (before between : List KeepaliveAction)
      (draw draw' : ℕ), (after (next step) (begin now profile) before).Undisturbed →
      KeepaliveOutput.keepalive ∈
        ((after (next step) (begin now profile) before).step (.iterate draw)).2 →
      Along (next step) Between
        (after (next step) (begin now profile) (before ++ [.iterate draw])) between →
      (after (next step) (begin now profile) (before ++ [.iterate draw])).Undisturbed →
      KeepaliveOutput.keepalive ∈ ((after (next step) (begin now profile)
        (before ++ .iterate draw :: between)).step (.iterate draw')).2 →
      (after (next step) (begin now profile) (before ++ .iterate draw :: between)).clock -
          (after (next step) (begin now profile) before).clock ≤ maxSpacingNs profile := by
  intro hall
  have h := hall 1 .foreground recovered
    (oneSleep ++ [.iterate 0, .elapse (14 * kNsPerSec)]) 0 0
  revert h
  decide +kernel

end Keepalive

end OWalkie
