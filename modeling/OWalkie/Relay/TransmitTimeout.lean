import OWalkie.Relay.Channel

/-!
# The transmit timeout over the life of a channel

A session's transmit clock starts with its first checked packet (`Checks`) and is wound back by an
EOF marker or a departure (`EndsTx`), and by the stream cleanup of a tick (`Sweeps`).  `step_tx`
says what a step does to the clock of one session, `TxInv` what holds of it in every run.
-/

namespace OWalkie

open Run

namespace Channel

/-- The step checks a packet of `S` against the transmit timeout, at the time `now`. -/
def Checks (s : Channel) (a : ChannelAction) (S : SessionID) (now : ℤ) : Prop :=
  a = .reader ∧ s.udp = .txCheck S now

/-- The step ends the transmission of `S`: `markEOF` or `removeParticipant` deletes its entries. -/
def EndsTx (s : Channel) (a : ChannelAction) (S : SessionID) : Prop :=
  a = .reader ∧ s.udp = .eofTx S ∨ a = .handler S ∧ s.session S = .departed

/-- The step is a cleanup that removes the stream state of `S`. -/
def Sweeps (p : MixerParams) (s : Channel) (a : ChannelAction) (S : SessionID) : Prop :=
  a = .mixer ∧ match s.mixer with
    | .sweeping now participants => s.removed p now participants S = true
    | _ => False

/-- A packet of `S` passes the transmit-timeout part of `canAcceptTxPacket`. -/
def PassesTx (p : MixerParams) (s : Channel) (a : ChannelAction) (S : SessionID) : Prop :=
  a = .reader ∧ match s.udp with
    | .txCheck sid now => sid = S ∧ (s.tx.canAcceptTxPacket p S now).2.accept = true
    | _ => False

/-- `canAcceptTxPacket` returns true for a packet of `S`. -/
def AcceptsTxPacket (p : MixerParams) (s : Channel) (a : ChannelAction) (S : SessionID) : Prop :=
  a = .reader ∧ match s.udp with
    | .txCheck sid now => sid = S ∧ p.busyMode = false ∧
        (s.tx.canAcceptTxPacket p S now).2.accept = true
    | .busyCheck sid now => sid = S ∧
        (s.busy.tryAcceptPacket p s.participants S now).2.accept = true
    | _ => False

section decidable

variable (p : MixerParams) (s : Channel) (a : ChannelAction) (S : SessionID)

instance (now : ℤ) : Decidable (s.Checks a S now) := by
  unfold Checks
  infer_instance

instance : Decidable (s.EndsTx a S) := by
  unfold EndsTx
  infer_instance

instance : Decidable (Sweeps p s a S) := by
  unfold Sweeps
  cases s.mixer <;> infer_instance

instance : Decidable (PassesTx p s a S) := by
  unfold PassesTx
  cases s.udp <;> infer_instance

instance : Decidable (AcceptsTxPacket p s a S) := by
  unfold AcceptsTxPacket
  cases s.udp <;> infer_instance

end decidable

variable {p : MixerParams} {s : Channel} {a : ChannelAction} {S : SessionID}

/-! ## One step -/

/-- The transmit clock of `S` and its force-stop flag are the same in both states. -/
def SameTx (s s' : Channel) (S : SessionID) : Prop :=
  s'.tx.txStartedAt S = s.tx.txStartedAt S ∧ s'.tx.txForceStopped S = s.tx.txForceStopped S

/-- `S` has no transmit clock. -/
def NoTx (s : Channel) (S : SessionID) : Prop :=
  s.tx.txStartedAt S = none ∧ s.tx.txForceStopped S = false

theorem sameTx_of_tx_eq {s' : Channel} (h : s'.tx = s.tx) : SameTx s s' S := by
  rw [SameTx, h]
  exact ⟨rfl, rfl⟩

theorem noTx_of_clear {s' : Channel} (h : s'.tx = s.tx.clear S) : NoTx s' S := by
  rw [NoTx, h]
  simp [TxState.clear]

theorem sameTx_of_clear {s' : Channel} {sid : SessionID} (h : s'.tx = s.tx.clear sid)
    (hne : S ≠ sid) : SameTx s s' S := by
  rw [SameTx, h]
  simp [TxState.clear, hne]

/-- What a step does to the transmit clock of `S`: it checks a packet, it deletes the entries at the
end of a transmission or in a cleanup, or it leaves them alone. -/
theorem step_tx (p : MixerParams) (s : Channel) (a : ChannelAction) (S : SessionID) :
    (∃ now, s.Checks a S now ∧ (step p s a).tx = (s.tx.canAcceptTxPacket p S now).1) ∨
      s.EndsTx a S ∧ NoTx (step p s a) S ∨
      Sweeps p s a S ∧ NoTx (step p s a) S ∨
      (∀ now, ¬ s.Checks a S now) ∧ ¬ s.EndsTx a S ∧ ¬ Sweeps p s a S ∧
        SameTx s (step p s a) S := by
  cases a with
  | reader =>
    show (∃ now, s.Checks .reader S now ∧ (s.readerStep p).tx = _) ∨
      s.EndsTx .reader S ∧ NoTx (s.readerStep p) S ∨
      Sweeps p s .reader S ∧ NoTx (s.readerStep p) S ∨
      (∀ now, ¬ s.Checks .reader S now) ∧ ¬ s.EndsTx .reader S ∧ ¬ Sweeps p s .reader S ∧
        SameTx s (s.readerStep p) S
    have hsweep : ¬ Sweeps p s .reader S := by
      rintro ⟨h, -⟩
      cases h
    unfold readerStep
    split
    · next h => exact Or.inr (Or.inr (Or.inr ⟨by simp [Checks, h], by simp [EndsTx, h], hsweep,
        sameTx_of_tx_eq rfl⟩))
    · next h =>
      refine Or.inr (Or.inr (Or.inr ⟨by simp [Checks, h], by simp [EndsTx, h], hsweep,
        sameTx_of_tx_eq ?_⟩))
      split_ifs <;> rfl
    · next sid now h =>
      by_cases hsid : S = sid
      · subst hsid
        exact Or.inl ⟨now, ⟨rfl, h⟩, rfl⟩
      · refine Or.inr (Or.inr (Or.inr ⟨?_, by simp [EndsTx, h], hsweep,
          TxState.canAcceptTxPacket_of_ne hsid⟩))
        rintro now' ⟨-, h'⟩
        rw [h] at h'
        injection h' with h' _
        exact hsid h'.symm
    · next h => exact Or.inr (Or.inr (Or.inr ⟨by simp [Checks, h], by simp [EndsTx, h], hsweep,
        sameTx_of_tx_eq rfl⟩))
    · next h => exact Or.inr (Or.inr (Or.inr ⟨by simp [Checks, h], by simp [EndsTx, h], hsweep,
        sameTx_of_tx_eq rfl⟩))
    · next sid h =>
      by_cases hsid : S = sid
      · subst hsid
        exact Or.inr (Or.inl ⟨Or.inl ⟨rfl, h⟩, noTx_of_clear rfl⟩)
      · refine Or.inr (Or.inr (Or.inr ⟨by simp [Checks, h], ?_, hsweep, sameTx_of_clear rfl hsid⟩))
        rintro (⟨-, h'⟩ | ⟨h', -⟩)
        · rw [h] at h'
          injection h' with h'
          exact hsid h'.symm
        · cases h'
    · next h => exact Or.inr (Or.inr (Or.inr ⟨by simp [Checks, h], by simp [EndsTx, h], hsweep,
        sameTx_of_tx_eq rfl⟩))
    · next h => exact Or.inr (Or.inr (Or.inr ⟨by simp [Checks, h], by simp [EndsTx, h], hsweep,
        sameTx_of_tx_eq (queueStep_tx _ _ _ _)⟩))
  | handler sid =>
    have hcheck : ∀ now, ¬ s.Checks (.handler sid) S now := by
      rintro now ⟨h, -⟩
      cases h
    have hsweep : ¬ Sweeps p s (.handler sid) S := by
      rintro ⟨h, -⟩
      cases h
    by_cases hd : sid = S ∧ s.session S = .departed
    · obtain ⟨rfl, hd⟩ := hd
      refine Or.inr (Or.inl ⟨Or.inr ⟨rfl, hd⟩, noTx_of_clear (s := s) ?_⟩)
      simp [step, handlerStep, hd]
    · have hends : ¬ s.EndsTx (.handler sid) S := by
        rintro (⟨h, -⟩ | ⟨h, hs⟩)
        · cases h
        · injection h with h
          exact hd ⟨h, hs⟩
      refine Or.inr (Or.inr (Or.inr ⟨hcheck, hends, hsweep, ?_⟩))
      show SameTx s (s.handlerStep sid) S
      unfold handlerStep
      split <;> try exact sameTx_of_tx_eq rfl
      next h =>
        refine sameTx_of_clear rfl ?_
        rintro rfl
        exact hd ⟨rfl, h⟩
  | mixer =>
    have hcheck : ∀ now, ¬ s.Checks .mixer S now := by
      rintro now ⟨h, -⟩
      cases h
    have hends : ¬ s.EndsTx .mixer S := by
      rintro (⟨h, -⟩ | ⟨h, -⟩) <;> cases h
    by_cases hr : Sweeps p s .mixer S
    · refine Or.inr (Or.inr (Or.inl ⟨hr, ?_⟩))
      obtain ⟨-, hr⟩ := hr
      show NoTx (s.mixerStep p) S
      unfold mixerStep
      split at hr
      · next h => rw [h]; simp [NoTx, TxState.cleanup, hr]
      · exact hr.elim
    · refine Or.inr (Or.inr (Or.inr ⟨hcheck, hends, hr, ?_⟩))
      show SameTx s (s.mixerStep p) S
      unfold mixerStep
      split
      · exact sameTx_of_tx_eq rfl
      · exact sameTx_of_tx_eq rfl
      · exact sameTx_of_tx_eq rfl
      · next h =>
        have hr' : ¬ s.removed p _ _ S = true := fun hrem => hr ⟨rfl, by rw [h]; exact hrem⟩
        simp [SameTx, TxState.cleanup, hr']
  | _ =>
    refine Or.inr (Or.inr (Or.inr ⟨?_, ?_, ?_,
      sameTx_of_tx_eq (step_admission p s (by simp) (by simp) (by simp)).1⟩))
    · rintro now ⟨h, -⟩
      cases h
    · rintro (⟨h, -⟩ | ⟨h, -⟩) <;> cases h
    · rintro ⟨h, -⟩
      cases h

/-! ## What holds in every run -/

theorem readAt_of_checks {now : ℤ} (h : s.Checks a S now) : s.readAt = now := by
  simp [readAt, h.2]

/-- A packet of `S` has passed the transmit timeout and waits for the busy-mode arbitration. -/
def Passed (s : Channel) (S : SessionID) : Prop :=
  s.udp = .txAccepted S ∨ ∃ now, s.udp = .busyCheck S now

theorem passed_step (h : (step p s a).Passed S) : s.Passed S ∨ PassesTx p s a S := by
  by_cases hreader : a = .reader
  · subst hreader
    replace h : (s.readerStep p).Passed S := h
    unfold readerStep at h
    split at h
    · exact Or.inl h
    · exfalso
      split_ifs at h <;> simp [Passed] at h
    · next sid now hu =>
      right
      simp only [Passed, afterTxCheck] at h
      split_ifs at h with hacc hbusy
      · obtain rfl : sid = S := by simpa using h
        refine ⟨rfl, ?_⟩
        rw [hu]
        exact ⟨rfl, hacc⟩
      · simp at h
      · simp at h
    · next sid hu =>
      left
      obtain rfl : sid = S := by simpa [Passed] using h
      exact Or.inl hu
    · exfalso
      simp only [Passed] at h
      split_ifs at h <;> simp at h
    · simp [Passed] at h
    · simp [Passed] at h
    · next eof stage sid _ =>
      exfalso
      rcases s.queueStep_udp eof stage sid with hq | ⟨stage', hq⟩ <;> simp [Passed, hq] at h
  left
  by_cases hreceive : ∃ eof sid, a = .receive eof sid
  · obtain ⟨eof, sid, rfl⟩ := hreceive
    simp only [step] at h
    split_ifs at h
    · simp [Passed] at h
    · exact h
  · rwa [Passed, step_udp p s hreader fun eof sid ha => hreceive ⟨eof, sid, ha⟩] at h

structure TxInv (p : MixerParams) (s : Channel) : Prop where
  read : s.readAt ≤ s.clock
  started : ∀ S t, s.tx.txStartedAt S = some t → t ≤ s.readAt
  forced : ∀ S, s.tx.txForceStopped S = true →
    ∃ t, s.tx.txStartedAt S = some t ∧ p.transmitTimeout ≤ s.readAt - t
  passed : ∀ S, s.Passed S → s.tx.txForceStopped S = false

theorem txInv_init (p : MixerParams) : TxInv p {} where
  read := le_rfl
  started := by simp
  forced := by simp
  passed := by simp

/-- A packet is refused exactly when the clock of its session has run for the transmit timeout. -/
theorem TxInv.refuses_iff (h : TxInv p s) (hT : 0 < p.transmitTimeout) {now : ℤ}
    (hc : s.Checks a S now) : (s.tx.canAcceptTxPacket p S now).2.accept = false ↔
      ∃ t, s.tx.txStartedAt S = some t ∧ p.transmitTimeout ≤ now - t := by
  rw [← readAt_of_checks hc]
  constructor
  · intro hr
    cases ht : s.tx.txStartedAt S with
    | none =>
      rw [(TxState.canAcceptTxPacket_start hT ht).1] at hr
      cases hr
    | some t =>
      by_cases hf : s.tx.txForceStopped S = true
      · obtain ⟨t', ht', hlate⟩ := h.forced S hf
        rw [ht] at ht'
        obtain rfl := Option.some.inj ht'
        exact ⟨t, rfl, hlate⟩
      · refine ⟨t, rfl, ?_⟩
        by_contra hlt
        rw [(TxState.canAcceptTxPacket_pass hT ht (by simpa using hf) (by omega)).1] at hr
        cases hr
  · rintro ⟨t, ht, hlate⟩
    exact (TxState.canAcceptTxPacket_refuse hT ht (Or.inr hlate)).1

/-- The state of `S` after one of its packets was checked: the clock runs from the first packet, and
the session is force-stopped once the clock has run for the transmit timeout. -/
theorem TxInv.tx_of_checks (h : TxInv p s) (hT : 0 < p.transmitTimeout) {now : ℤ}
    (hc : s.Checks a S now) : ∃ t ≤ now,
      (s.tx.canAcceptTxPacket p S now).1.txStartedAt S = some t ∧
      (s.tx.txStartedAt S = some t ∨ s.tx.txStartedAt S = none ∧ t = now) ∧
      ((s.tx.canAcceptTxPacket p S now).1.txForceStopped S = true ↔
        (s.tx.canAcceptTxPacket p S now).2.accept = false) ∧
      ((s.tx.canAcceptTxPacket p S now).2.accept = false → p.transmitTimeout ≤ now - t) := by
  have hread := readAt_of_checks hc
  cases ht : s.tx.txStartedAt S with
  | none =>
    obtain ⟨hv, hs, hf⟩ := TxState.canAcceptTxPacket_start (p := p) hT ht
    have hf' : s.tx.txForceStopped S = false := by
      by_contra hne
      obtain ⟨t, ht', -⟩ := h.forced S (by simpa using hne)
      rw [ht] at ht'
      cases ht'
    refine ⟨now, le_rfl, by rw [hs, Function.update_self], Or.inr ⟨rfl, rfl⟩, ?_, ?_⟩
    · rw [hv, hf, hf']
      simp
    · rw [hv]
      exact fun h' => nomatch h'
  | some t =>
    have hle := h.started S t ht
    by_cases hr : s.tx.txForceStopped S = true ∨ p.transmitTimeout ≤ now - t
    · obtain ⟨hv, hs, hf⟩ := TxState.canAcceptTxPacket_refuse hT ht hr
      refine ⟨t, by omega, by rw [hs, ht], Or.inl rfl, ?_, fun _ => ?_⟩
      · rw [hv, hf, Function.update_self]
        exact iff_of_true rfl rfl
      · obtain ⟨t', ht', hlate⟩ := (h.refuses_iff hT hc).1 hv
        rw [ht] at ht'
        obtain rfl := Option.some.inj ht'
        exact hlate
    · rw [not_or, Bool.not_eq_true, not_le] at hr
      obtain ⟨hv, -, hs, hf⟩ := TxState.canAcceptTxPacket_pass hT ht hr.1 hr.2
      refine ⟨t, by omega, by rw [hs, ht], Or.inl rfl, ?_, fun h' => ?_⟩
      · rw [hv, hf, hr.1]
        simp
      · rw [hv] at h'
        cases h'

theorem TxInv.step (h : TxInv p s) (hT : 0 < p.transmitTimeout) (a : ChannelAction) :
    TxInv p (step p s a) := by
  obtain ⟨hmono, hle⟩ := readAt_step (p := p) h.read a
  refine ⟨hle, fun S t ht => ?_, fun S hf => ?_, fun S hp => ?_⟩
  · rcases step_tx p s a S with ⟨now, hc, htx⟩ | ⟨-, hn⟩ | ⟨-, hn⟩ | ⟨-, -, -, hs⟩
    · obtain ⟨t', ht', hst, -⟩ := h.tx_of_checks hT hc
      rw [htx, hst] at ht
      obtain rfl := Option.some.inj ht
      rw [readAt_of_checks hc] at hmono
      omega
    · rw [hn.1] at ht
      cases ht
    · rw [hn.1] at ht
      cases ht
    · rw [hs.1] at ht
      exact (h.started S t ht).trans hmono
  · rcases step_tx p s a S with ⟨now, hc, htx⟩ | ⟨-, hn⟩ | ⟨-, hn⟩ | ⟨-, -, -, hs⟩
    · obtain ⟨t, -, hst, -, hiff, hlate⟩ := h.tx_of_checks hT hc
      rw [htx] at hf ⊢
      refine ⟨t, hst, ?_⟩
      have := hlate (hiff.1 hf)
      rw [readAt_of_checks hc] at hmono
      omega
    · rw [hn.2] at hf
      cases hf
    · rw [hn.2] at hf
      cases hf
    · rw [hs.2] at hf
      obtain ⟨t, ht, hlate⟩ := h.forced S hf
      exact ⟨t, by rw [hs.1, ht], by omega⟩
  · rcases step_tx p s a S with ⟨now, hc, htx⟩ | ⟨-, hn⟩ | ⟨-, hn⟩ | ⟨hnc, -, -, hs⟩
    · obtain ⟨t, -, -, -, hiff, -⟩ := h.tx_of_checks hT hc
      rcases passed_step hp with hp' | ⟨-, hp'⟩
      · simp [Passed, hc.2] at hp'
      · rw [hc.2] at hp'
        rw [htx]
        by_contra hne
        have hacc : (s.tx.canAcceptTxPacket p S now).2.accept = true := hp'.2
        rw [hiff.1 (by simpa using hne)] at hacc
        cases hacc
    · exact hn.2
    · exact hn.2
    · rw [hs.2]
      rcases passed_step hp with hp' | ⟨hr, hp'⟩
      · exact h.passed S hp'
      · exfalso
        split at hp'
        · next sid now hu =>
          obtain ⟨rfl, -⟩ := hp'
          exact hnc now ⟨hr, hu⟩
        · exact hp'

theorem txInv_after (hT : 0 < p.transmitTimeout) (as : List ChannelAction) :
    TxInv p (after (Channel.step p) {} as) :=
  invariant (I := TxInv p) (fun _ a hs => hs.step hT a) (txInv_init p) as

/-! ## A fresh transmission -/

/-- A tick with its cleanup. -/
def ticks (decoded : Finset SessionID) : List ChannelAction :=
  [.tick decoded, .mixer, .mixer, .mixer]

/-- A channel with a transmit timeout of one second. -/
def timedChannel (busyMode : Bool) : MixerParams :=
  ServerConfig.params { busyMode := busyMode, transmitTimeoutSec := 1 } none

/-- The step checks a packet of `S` at a time up to `limit`. -/
def ChecksBy (s : Channel) (a : ChannelAction) (S : SessionID) (limit : ℤ) : Prop :=
  ∃ now, s.Checks a S now ∧ now ≤ limit

/-- The step winds back the transmit clock of `S`. -/
def ClearsTx (p : MixerParams) (s : Channel) (a : ChannelAction) (S : SessionID) : Prop :=
  s.EndsTx a S ∨ Sweeps p s a S

/-- The transmit clock of `S` has run since `limit` or longer exactly when a packet of `S` was
checked by then and the clock was not wound back after it. -/
theorem started_by_iff_since (hT : 0 < p.transmitTimeout) (S : SessionID) (limit : ℤ)
    (as : List ChannelAction) :
    (∃ t, (after (Channel.step p) {} as).tx.txStartedAt S = some t ∧ t ≤ limit) ↔
      Since (Channel.step p) (fun s a => s.ChecksBy a S limit) (fun s a => ClearsTx p s a S) {}
        as := by
  induction as using List.reverseRecOn with
  | nil => simp [not_since_nil]
  | append_singleton as a ih =>
    rw [since_snoc_iff, after_snoc, ← ih]
    have hinv := txInv_after hT as
    generalize after (Channel.step p) {} as = s at hinv ⊢
    rcases step_tx p s a S with ⟨now, hc, htx⟩ | ⟨he, hn⟩ | ⟨he, hn⟩ | ⟨hc, he, hsw, hs⟩
    · obtain ⟨t, hle, hst, hold, -⟩ := hinv.tx_of_checks hT hc
      have hclear : ¬ ClearsTx p s a S := by
        obtain ⟨rfl, hu⟩ := hc
        rintro ((⟨-, h⟩ | ⟨h, -⟩) | ⟨h, -⟩)
        · rw [hu] at h
          cases h
        · cases h
        · cases h
      rw [htx, hst]
      constructor
      · rintro ⟨t', ht', hlim⟩
        obtain rfl := Option.some.inj ht'
        rcases hold with ho | ⟨-, rfl⟩
        · exact Or.inr ⟨⟨t, ho, hlim⟩, hclear⟩
        · exact Or.inl ⟨t, hc, hlim⟩
      · rintro (⟨now', hc', hlim⟩ | ⟨⟨t', ht', hlim⟩, -⟩)
        · have : now = now' := by rw [← readAt_of_checks hc, ← readAt_of_checks hc']
          exact ⟨t, rfl, by omega⟩
        · rcases hold with ho | ⟨ho, -⟩
          · rw [ho] at ht'
            exact ⟨t, rfl, by rwa [Option.some.inj ht']⟩
          · rw [ho] at ht'
            cases ht'
    · have hcheck : ¬ s.ChecksBy a S limit := by
        rintro ⟨now, ⟨rfl, hu⟩, -⟩
        rcases he with ⟨-, h⟩ | ⟨h, -⟩
        · rw [hu] at h
          cases h
        · cases h
      have hclear : ClearsTx p s a S := Or.inl he
      simp [hn.1, hcheck, hclear]
    · have hcheck : ¬ s.ChecksBy a S limit := by
        rintro ⟨now, ⟨rfl, hu⟩, -⟩
        cases he.1
      have hclear : ClearsTx p s a S := Or.inr he
      simp [hn.1, hcheck, hclear]
    · have hcheck : ¬ s.ChecksBy a S limit := fun ⟨now, h, _⟩ => hc now h
      have hclear : ¬ ClearsTx p s a S := not_or.2 ⟨he, hsw⟩
      simp [hs.1, hcheck, hclear]

/-- A packet passes the transmit timeout, without a `tx_stop`, exactly when no packet of its session
was checked `transmitTimeout` or longer ago without an EOF marker, a departure or the removal of the
session's stream state since. -/
theorem fresh_packet_passes_iff {as : List ChannelAction} {S : SessionID} {now : ℤ}
    (hT : 0 < p.transmitTimeout) (hcheck : (after (Channel.step p) {} as).udp = .txCheck S now) :
    (((after (Channel.step p) {} as).tx.canAcceptTxPacket p S now).2.accept = true ∧
      ((after (Channel.step p) {} as).tx.canAcceptTxPacket p S now).2.shouldNotify = false) ↔
    ¬ Since (Channel.step p) (fun s a => s.ChecksBy a S (now - p.transmitTimeout))
      (fun s a => ClearsTx p s a S) {} as := by
  rw [← started_by_iff_since hT]
  have hinv := txInv_after hT as
  generalize after (Channel.step p) {} as = s at hinv hcheck ⊢
  have hc : s.Checks .reader S now := ⟨rfl, hcheck⟩
  have hrefuse := hinv.refuses_iff hT hc
  have hiff : (∃ t, s.tx.txStartedAt S = some t ∧ t ≤ now - p.transmitTimeout) ↔
      (s.tx.canAcceptTxPacket p S now).2.accept = false := by
    rw [hrefuse]
    exact exists_congr fun t => and_congr_right fun _ => by omega
  rw [hiff, Bool.not_eq_false]
  refine and_iff_left_of_imp fun hacc => ?_
  cases ht : s.tx.txStartedAt S with
  | none => rw [(TxState.canAcceptTxPacket_start hT ht).1]
  | some t =>
    have hr : ¬ (s.tx.txForceStopped S = true ∨ p.transmitTimeout ≤ now - t) := by
      intro hr
      rw [(TxState.canAcceptTxPacket_refuse hT ht hr).1] at hacc
      cases hacc
    rw [not_or, Bool.not_eq_true, not_le] at hr
    exact (TxState.canAcceptTxPacket_pass hT ht hr.1 hr.2).2.1

/-- A packet of the session is accepted, and a tick decodes it 40 ms later.  The ticks that change
nothing are left out, here and below. -/
def talks (sid : SessionID) (steps : ℕ) : List ChannelAction :=
  arrives false sid steps ++ [.takePacket, .elapse 40000000] ++ ticks {sid}

/-- Session 1 sends for 0.8 s, and its EOF marker is lost.  Two seconds later it sends again. -/
def resumedTx : List ChannelAction :=
  joins 1 ++ (List.replicate 3 (talks 1 3 ++ [.elapse 360000000])).flatten ++ [.elapse 100000000] ++
    ticks ∅ ++ [.elapse 1700000000] ++ arrives false 1 1

theorem fresh_packet_passes_iff_resumed :
    (((after (Channel.step (timedChannel false)) {} resumedTx).tx.canAcceptTxPacket
        (timedChannel false) 1 3000000000).2.accept = true ∧
      ((after (Channel.step (timedChannel false)) {} resumedTx).tx.canAcceptTxPacket
        (timedChannel false) 1 3000000000).2.shouldNotify = false) ↔
    ¬ Since (Channel.step (timedChannel false))
      (fun s a => s.ChecksBy a 1 (3000000000 - (timedChannel false).transmitTimeout))
      (fun s a => ClearsTx (timedChannel false) s a 1) {} resumedTx :=
  fresh_packet_passes_iff (by decide) (by decide)

/-- Session 2 holds the channel; a packet of session 1 is refused by the busy mode. -/
def refusedTx : List ChannelAction :=
  joins 1 ++ joins 2 ++ arrives false 2 5 ++ [.takePacket] ++ arrives false 1 4

/-- Two seconds of ticks without a packet; the first one decodes the packet of session 2. -/
def quietTicks : List ChannelAction :=
  .elapse 40000000 :: ticks {2} ++ (List.replicate 4 (.elapse 500000000 :: ticks ∅)).flatten

/-- After two quiet seconds the next packet of session 1 is refused with a `tx_stop`. -/
theorem stale_clock_stops_fresh_packet :
    let p := timedChannel true
    let s₀ := after (Channel.step p) {} refusedTx
    let s₁ := after (Channel.step p) s₀ quietTicks
    let s₂ := after (Channel.step p) s₁ (arrives false 1 1)
    (∀ eof, .receive eof 1 ∉ quietTicks) ∧
      max p.eofTimeoutDur (2 * p.packetDur) + p.packetDur < s₁.clock - s₀.clock ∧
      s₂.udp = .txCheck 1 s₁.clock ∧
      (s₂.tx.canAcceptTxPacket p 1 s₁.clock).2 = { accept := false, shouldNotify := true } := by
  decide

/-- Session 1 sends at 0, 0.4, 0.8 and 0.98 s, loses its EOF marker and goes on 0.45 s later.  The
last packet was decoded at 1.02 s, so no cleanup has wound the clock back. -/
def shortPause : List ChannelAction :=
  joins 1 ++ (List.replicate 2 (talks 1 3 ++ [.elapse 360000000])).flatten ++ talks 1 3 ++
    [.elapse 140000000] ++ talks 1 3 ++ [.elapse 400000000] ++ ticks ∅ ++ [.elapse 10000000] ++
    arrives false 1 1

example :
    let p := timedChannel false
    let s := after (Channel.step p) {} shortPause
    max p.eofTimeoutDur (2 * p.packetDur) + p.packetDur < 1430000000 - 980000000 ∧
      s.udp = .txCheck 1 1430000000 ∧
      (s.tx.canAcceptTxPacket p 1 1430000000).2 = { accept := false, shouldNotify := true } := by
  decide

/-! ## A force-stopped session -/

/-- A cleanup that removes the stream state of `S` comes before a later check of `S`. -/
def SweptBeforeCheck (p : MixerParams) (s : Channel) (as : List ChannelAction) (S : SessionID) :
    Prop :=
  ∃ pre a post, as = pre ++ a :: post ∧ (∃ now, (after (Channel.step p) s pre).Checks a S now) ∧
    ¬ Along (Channel.step p) (fun t b => ¬ Sweeps p t b S) s pre

theorem passesTx_iff : PassesTx p s a S ↔
    ∃ now, s.Checks a S now ∧ (s.tx.canAcceptTxPacket p S now).2.accept = true := by
  constructor
  · rintro ⟨rfl, h⟩
    split at h
    · next sid now hu =>
      obtain ⟨rfl, hacc⟩ := h
      exact ⟨now, ⟨rfl, hu⟩, hacc⟩
    · exact h.elim
  · rintro ⟨now, ⟨rfl, hu⟩, hacc⟩
    refine ⟨rfl, ?_⟩
    rw [hu]
    exact ⟨rfl, hacc⟩

/-- While a force-stopped session is neither ended nor let through, it stays force-stopped until a
cleanup winds its clock back, and then it has no clock. -/
theorem stopped_or_swept (hT : 0 < p.transmitTimeout) (hinv : TxInv p s)
    (hstop : s.tx.txForceStopped S = true) (as : List ChannelAction)
    (hends : Along (Channel.step p) (fun t b => ¬ t.EndsTx b S) s as)
    (hpass : Along (Channel.step p) (fun t b => ¬ PassesTx p t b S) s as) :
    Along (Channel.step p) (fun t b => ¬ Sweeps p t b S) s as ∧
        (after (Channel.step p) s as).tx.txForceStopped S = true ∨
      ¬ Along (Channel.step p) (fun t b => ¬ Sweeps p t b S) s as ∧
        NoTx (after (Channel.step p) s as) S := by
  induction as using List.reverseRecOn with
  | nil => exact Or.inl ⟨along_nil, hstop⟩
  | append_singleton as a ih =>
    have hinv' : TxInv p (after (Channel.step p) s as) :=
      invariant (I := TxInv p) (fun _ a hs => hs.step hT a) hinv as
    have ih := ih hends.init hpass.init
    have hlast := hpass.last
    have hendslast := hends.last
    rw [along_snoc_iff, after_snoc]
    generalize after (Channel.step p) s as = t at hinv' ih hlast hendslast ⊢
    rcases step_tx p t a S with ⟨now, hc, htx⟩ | ⟨he, -⟩ | ⟨hsw, hn⟩ | ⟨-, -, hsw, hs⟩
    · have hrefused : (t.tx.canAcceptTxPacket p S now).2.accept = false := by
        by_contra hacc
        exact hlast (passesTx_iff.2 ⟨now, hc, by simpa using hacc⟩)
      rcases ih with ⟨hno, -⟩ | ⟨-, hn⟩
      · obtain ⟨_, -, -, -, hiff, -⟩ := hinv'.tx_of_checks hT hc
        refine Or.inl ⟨⟨hno, ?_⟩, by rw [htx, hiff, hrefused]⟩
        obtain ⟨rfl, -⟩ := hc
        rintro ⟨h, -⟩
        cases h
      · rw [(TxState.canAcceptTxPacket_start hT hn.1).1] at hrefused
        cases hrefused
    · exact absurd he hendslast
    · exact Or.inr ⟨fun h => h.2 hsw, hn⟩
    · rcases ih with ⟨hno, hf⟩ | ⟨hyes, hn⟩
      · exact Or.inl ⟨⟨hno, hsw⟩, by rw [hs.2, hf]⟩
      · exact Or.inr ⟨fun h => hyes h.1, by rw [NoTx, hs.1, hs.2]; exact hn⟩

theorem not_passed_of_not_passesTx (hpassed : ¬ s.Passed S) (as : List ChannelAction)
    (hpass : Along (Channel.step p) (fun t b => ¬ PassesTx p t b S) s as) :
    ¬ (after (Channel.step p) s as).Passed S :=
  invariant_along (I := fun t => ¬ t.Passed S)
    (fun _ _ ht hb h => (passed_step h).elim ht hb) hpassed hpass

/-- Once a session was force-stopped, and until its transmission ends, its packets do not pass the
transmit timeout exactly when no cleanup removes its stream state before one of them is checked; and
then none of them is accepted. -/
theorem force_stop_holds_iff {as post : List ChannelAction} {S : SessionID}
    (hT : 0 < p.transmitTimeout)
    (hstop : (after (Channel.step p) {} as).tx.txForceStopped S = true)
    (hends : Along (Channel.step p) (fun s a => ¬ s.EndsTx a S) (after (Channel.step p) {} as)
      post) :
    (Along (Channel.step p) (fun s a => ¬ PassesTx p s a S) (after (Channel.step p) {} as) post ↔
      ¬ SweptBeforeCheck p (after (Channel.step p) {} as) post S) ∧
    (¬ SweptBeforeCheck p (after (Channel.step p) {} as) post S →
      Along (Channel.step p) (fun s a => ¬ AcceptsTxPacket p s a S) (after (Channel.step p) {} as)
        post) := by
  have hinv := txInv_after hT as
  generalize after (Channel.step p) {} as = s at hinv hstop hends ⊢
  have hiff : Along (Channel.step p) (fun s a => ¬ PassesTx p s a S) s post ↔
      ¬ SweptBeforeCheck p s post S := by
    constructor
    · rintro hpass ⟨pre, a, rest, rfl, ⟨now, hc⟩, hswept⟩
      rcases stopped_or_swept hT hinv hstop pre hends.left hpass.left with ⟨h, -⟩ | ⟨-, hn⟩
      · exact hswept h
      · refine hpass pre a rest rfl (passesTx_iff.2 ⟨now, hc, ?_⟩)
        rw [(TxState.canAcceptTxPacket_start hT hn.1).1]
    · intro hno
      induction post using List.reverseRecOn with
      | nil => exact along_nil
      | append_singleton post a ih =>
        have hpass := ih hends.init fun ⟨pre, b, rest, heq, hc, hsw⟩ =>
          hno ⟨pre, b, rest ++ [a], by simp [heq], hc, hsw⟩
        refine along_snoc_iff.2 ⟨hpass, fun hp => ?_⟩
        obtain ⟨now, hc, hacc⟩ := passesTx_iff.1 hp
        have hinv' : TxInv p (after (Channel.step p) s post) :=
          invariant (I := TxInv p) (fun _ a hs => hs.step hT a) hinv post
        rcases stopped_or_swept hT hinv hstop post hends.init hpass with ⟨-, hf⟩ | ⟨hsw, -⟩
        · obtain ⟨t, ht, -⟩ := hinv'.forced S hf
          rw [(TxState.canAcceptTxPacket_refuse hT ht (Or.inl hf)).1] at hacc
          cases hacc
        · exact hno ⟨post, a, [], rfl, ⟨now, hc⟩, hsw⟩
  refine ⟨hiff, fun hno => ?_⟩
  have hpass := hiff.2 hno
  rintro pre a rest rfl
  have hpassed : ¬ s.Passed S := by
    intro h
    rw [hinv.passed S h] at hstop
    cases hstop
  have hpre : ¬ (after (Channel.step p) s pre).Passed S :=
    not_passed_of_not_passesTx hpassed pre hpass.left
  rintro ⟨rfl, hacc⟩
  split at hacc
  · next sid now hu =>
    obtain ⟨rfl, -, hacc⟩ := hacc
    exact hpass pre .reader rest rfl (passesTx_iff.2 ⟨now, ⟨rfl, hu⟩, hacc⟩)
  · next sid now hu =>
    obtain ⟨rfl, -⟩ := hacc
    exact hpre (Or.inr ⟨now, hu⟩)
  · exact hacc

/-- Session 1 sends every 0.4 s and is force-stopped at 1.2 s. -/
def overlongTx : List ChannelAction :=
  joins 1 ++ (List.replicate 3 (talks 1 3 ++ [.elapse 360000000])).flatten ++ arrives false 1 2

/-- The session goes on sending after its stop. -/
def insistingTx : List ChannelAction :=
  [.elapse 10000000] ++ arrives false 1 2 ++ ticks ∅ ++ [.elapse 70000000] ++ ticks ∅ ++
    arrives false 1 3

theorem force_stop_holds_iff_overlong :
    (Along (Channel.step (timedChannel false)) (fun s a => ¬ PassesTx (timedChannel false) s a 1)
        (after (Channel.step (timedChannel false)) {} overlongTx) (arrives false 1 2) ↔
      ¬ SweptBeforeCheck (timedChannel false)
        (after (Channel.step (timedChannel false)) {} overlongTx) (arrives false 1 2) 1) ∧
    (¬ SweptBeforeCheck (timedChannel false)
        (after (Channel.step (timedChannel false)) {} overlongTx) (arrives false 1 2) 1 →
      Along (Channel.step (timedChannel false))
        (fun s a => ¬ AcceptsTxPacket (timedChannel false) s a 1)
        (after (Channel.step (timedChannel false)) {} overlongTx) (arrives false 1 2)) :=
  force_stop_holds_iff (by decide) (by decide) (by decide)

/-- The tick 0.44 s after its last packet was decoded lets the force-stopped session in again. -/
theorem force_stop_forgotten :
    let p := timedChannel false
    let s := after (Channel.step p) {} overlongTx
    s.tx.txForceStopped 1 = true ∧
      Along (Channel.step p) (fun s a => ¬ s.EndsTx a 1) s insistingTx ∧
      ¬ Along (Channel.step p) (fun s a => ¬ AcceptsTxPacket p s a 1) s insistingTx := by
  decide

end Channel

end OWalkie
