import OWalkie.Relay.TransmitTimeout

/-!
# The notices of the transmit timeout

A check of `canAcceptTxPacket` may send its client `tx_countdown_start` or `tx_stop`.
`notices_disciplined`: between two entries in `txStartedAt` a countdown comes first or not at all,
and two stops are at least a second apart although `markEOF`, `removeParticipant` and
`cleanupStreamStates` delete the time of the last one.
-/

namespace OWalkie

open Run

/-- The messages that `canAcceptTxPacket` sends once it has left `txMu`. -/
def TxVerdict.messages (v : TxVerdict) : List WsServerMessage :=
  (if v.shouldStartCountdown then [.txCountdownStart] else []) ++
    if v.shouldNotify then [.txStop "transmit_timeout_reached"] else []

/-- What a check shows of itself, with the time that it has read. -/
inductive TxEvent where
  /-- `txStartedAt` gets an entry -/
  | began (now : ℤ)
  | notice (now : ℤ) (msg : WsServerMessage)
  deriving DecidableEq

namespace TxEvent

def isBegan : TxEvent → Bool
  | began _ => true
  | notice _ _ => false

def isCountdown : TxEvent → Bool
  | notice _ .txCountdownStart => true
  | _ => false

/-- The time of a `tx_stop`. -/
def stopAt : TxEvent → Option ℤ
  | notice now (.txStop _) => some now
  | _ => none

end TxEvent

/-- The times of the `tx_stop` messages. -/
def stopTimes (es : List TxEvent) : List ℤ := es.filterMap TxEvent.stopAt

@[simp] theorem stopTimes_append (es es' : List TxEvent) :
    stopTimes (es ++ es') = stopTimes es ++ stopTimes es' :=
  List.filterMap_append

namespace TxState

def txEvents (p : MixerParams) (sessionID : SessionID) (now : ℤ) (tx : TxState) : List TxEvent :=
  if 0 < p.transmitTimeout ∧ tx.txStartedAt sessionID = none then [.began now]
  else (tx.canAcceptTxPacket p sessionID now).2.messages.map (.notice now)

variable {p : MixerParams} {tx : TxState} {sid : SessionID} {now : ℤ}

/-- The entries of `sid` have the same values in both states. -/
def SameAt (tx tx' : TxState) (sid : SessionID) : Prop :=
  tx'.txStartedAt sid = tx.txStartedAt sid ∧ tx'.txForceStopped sid = tx.txForceStopped sid ∧
    tx'.txLastStopNoticeAt sid = tx.txLastStopNoticeAt sid ∧
    tx'.txCountdownNotified sid = tx.txCountdownNotified sid

/-- `sid` has no clock, is not stopped and has no last stop. -/
def Cleared (tx : TxState) (sid : SessionID) : Prop :=
  tx.txStartedAt sid = none ∧ tx.txForceStopped sid = false ∧ tx.txLastStopNoticeAt sid = none

/-- A stop is notified unless the last one is less than a second old. -/
theorem shouldNotifyTxStopLocked_cases (tx : TxState) (sid : SessionID) (now : ℤ) :
    (tx.shouldNotifyTxStopLocked sid now) = (tx, false) ∨
      (tx.shouldNotifyTxStopLocked sid now) =
        ({ tx with
            txLastStopNoticeAt := Function.update tx.txLastStopNoticeAt sid (some now) }, true) ∧
      ∀ last, tx.txLastStopNoticeAt sid = some last → second ≤ now - last := by
  unfold shouldNotifyTxStopLocked
  split
  · next last hlast =>
    split_ifs with hrecent
    · exact Or.inl rfl
    · refine Or.inr ⟨rfl, fun last' h => ?_⟩
      obtain rfl := Option.some.inj (hlast.symm.trans h)
      omega
  · next hnone =>
    refine Or.inr ⟨rfl, fun last h => ?_⟩
    rw [hnone] at h
    cases h

/-- A check of a session without a clock starts one. -/
theorem txEvents_start (now : ℤ) (hT : 0 < p.transmitTimeout) (h : tx.txStartedAt sid = none) :
    tx.txEvents p sid now = [.began now] ∧
      (tx.canAcceptTxPacket p sid now).1.txStartedAt sid = some now ∧
      (tx.canAcceptTxPacket p sid now).1.txForceStopped sid = tx.txForceStopped sid ∧
      (tx.canAcceptTxPacket p sid now).1.txLastStopNoticeAt sid = tx.txLastStopNoticeAt sid ∧
      (tx.canAcceptTxPacket p sid now).1.txCountdownNotified sid = false := by
  simp [txEvents, canAcceptTxPacket, hT, h]

/-- A check that refuses the packet stops the session, and notifies that a second after the last
time at the earliest. -/
theorem txEvents_refuse {t : ℤ} (hT : 0 < p.transmitTimeout) (h : tx.txStartedAt sid = some t)
    (hr : tx.txForceStopped sid = true ∨ p.transmitTimeout ≤ now - t) :
    (tx.canAcceptTxPacket p sid now).1.txStartedAt sid = some t ∧
      (tx.canAcceptTxPacket p sid now).1.txForceStopped sid = true ∧
      (tx.txEvents p sid now = [] ∧ (tx.canAcceptTxPacket p sid now).1.txLastStopNoticeAt sid =
          tx.txLastStopNoticeAt sid ∨
        tx.txEvents p sid now = [.notice now (.txStop "transmit_timeout_reached")] ∧
          (tx.canAcceptTxPacket p sid now).1.txLastStopNoticeAt sid = some now ∧
          ∀ last, tx.txLastStopNoticeAt sid = some last → second ≤ now - last) := by
  obtain ⟨-, hs, hf⟩ := canAcceptTxPacket_refuse hT h hr
  refine ⟨by rw [hs, h], by rw [hf, Function.update_self], ?_⟩
  unfold txEvents canAcceptTxPacket
  rw [if_pos hT, h]
  by_cases hstopped : tx.txForceStopped sid = true
  · rcases shouldNotifyTxStopLocked_cases tx sid now with hn | ⟨hn, hlast⟩
    · simp [hstopped, hn, TxVerdict.messages]
    · simpa [hstopped, hn, TxVerdict.messages] using hlast
  · have hlate : p.transmitTimeout ≤ now - t := hr.resolve_left hstopped
    rcases shouldNotifyTxStopLocked_cases
      { tx with txForceStopped := Function.update tx.txForceStopped sid true } sid now
      with hn | ⟨hn, hlast⟩
    · simp [hstopped, hlate, hn, TxVerdict.messages]
    · simpa [hstopped, hlate, hn, TxVerdict.messages] using hlast

theorem txCountdownNotified_refuse {t : ℤ} (hT : 0 < p.transmitTimeout)
    (h : tx.txStartedAt sid = some t)
    (hr : tx.txForceStopped sid = true ∨ p.transmitTimeout ≤ now - t) :
    (tx.canAcceptTxPacket p sid now).1.txCountdownNotified = tx.txCountdownNotified := by
  unfold canAcceptTxPacket
  rw [if_pos hT, h]
  by_cases hstopped : tx.txForceStopped sid = true
  · rcases shouldNotifyTxStopLocked_cases tx sid now with hn | ⟨hn, -⟩ <;> simp [hstopped, hn]
  · have hlate : p.transmitTimeout ≤ now - t := hr.resolve_left hstopped
    rcases shouldNotifyTxStopLocked_cases
      { tx with txForceStopped := Function.update tx.txForceStopped sid true } sid now
      with hn | ⟨hn, -⟩ <;> simp [hstopped, hlate, hn]

/-- A check that lets the packet pass starts the countdown if that was not done before. -/
theorem txEvents_pass {t : ℤ} (hT : 0 < p.transmitTimeout) (h : tx.txStartedAt sid = some t)
    (hf : tx.txForceStopped sid = false) (hlt : now - t < p.transmitTimeout) :
    (tx.canAcceptTxPacket p sid now).1.txStartedAt sid = some t ∧
      (tx.canAcceptTxPacket p sid now).1.txForceStopped sid = false ∧
      (tx.canAcceptTxPacket p sid now).1.txLastStopNoticeAt sid = tx.txLastStopNoticeAt sid ∧
      (tx.txEvents p sid now = [] ∧ (tx.canAcceptTxPacket p sid now).1.txCountdownNotified sid =
          tx.txCountdownNotified sid ∨
        tx.txEvents p sid now = [.notice now .txCountdownStart] ∧
          tx.txCountdownNotified sid = false ∧
          (tx.canAcceptTxPacket p sid now).1.txCountdownNotified sid = true) := by
  unfold txEvents canAcceptTxPacket
  rw [if_pos hT, h]
  simp only [hf, Bool.false_eq_true, if_false, not_le.2 hlt, reduceCtorEq, and_false]
  split_ifs with hc
  · exact ⟨h, hf, rfl, Or.inr ⟨rfl, hc.1, Function.update_self ..⟩⟩
  · exact ⟨h, hf, rfl, Or.inl ⟨rfl, rfl⟩⟩

theorem sameAt_shouldNotifyTxStopLocked (tx : TxState) (now : ℤ) {sid' : SessionID}
    (h : sid' ≠ sid) :
    tx.SameAt (tx.shouldNotifyTxStopLocked sid now).1 sid' := by
  rcases shouldNotifyTxStopLocked_cases tx sid now with hn | ⟨hn, -⟩ <;> simp [SameAt, hn, h]

/-- A check leaves the entries of the other sessions alone. -/
theorem sameAt_canAcceptTxPacket {sid' : SessionID} (h : sid' ≠ sid) :
    tx.SameAt (tx.canAcceptTxPacket p sid now).1 sid' := by
  by_cases hT : 0 < p.transmitTimeout
  · unfold canAcceptTxPacket
    rw [if_pos hT]
    cases tx.txStartedAt sid with
    | none => simp [SameAt, h]
    | some t =>
      by_cases hf : tx.txForceStopped sid = true
      · simpa [hf] using sameAt_shouldNotifyTxStopLocked tx now h
      · by_cases hlate : p.transmitTimeout ≤ now - t
        · have hn := sameAt_shouldNotifyTxStopLocked
            { tx with txForceStopped := Function.update tx.txForceStopped sid true } now h
          simpa [hf, hlate, SameAt, h] using hn
        · simp only [hf, hlate, Bool.false_eq_true, if_false]
          split_ifs <;> simp [SameAt, h]
  · simp [canAcceptTxPacket, hT, SameAt]

end TxState

namespace Channel

/-! ## The events of a session in a run -/

/-- What the step shows of a check of a packet of `S`. -/
def txEvents (p : MixerParams) (S : SessionID) (s : Channel) (a : ChannelAction) : List TxEvent :=
  match a, s.udp with
  | .reader, .txCheck sid now => if sid = S then s.tx.txEvents p S now else []
  | _, _ => []

/-- A step of the channel that puts out the events of `S`. -/
def stepTxEvents (p : MixerParams) (S : SessionID) (s : Channel) (a : ChannelAction) :
    Channel × List TxEvent :=
  (step p s a, txEvents p S s a)

@[simp] theorem next_stepTxEvents (p : MixerParams) (S : SessionID) :
    next (stepTxEvents p S) = step p := rfl

variable {p : MixerParams} {s : Channel} {a : ChannelAction} {S : SessionID}

theorem txEvents_of_checks {now : ℤ} (h : s.Checks a S now) :
    txEvents p S s a = s.tx.txEvents p S now := by
  obtain ⟨rfl, hu⟩ := h
  simp [txEvents, hu]

theorem txEvents_of_not_checks (h : ∀ now, ¬ s.Checks a S now) : txEvents p S s a = [] := by
  unfold txEvents
  split
  · next sid now hu =>
    refine if_neg ?_
    rintro rfl
    exact h now ⟨rfl, hu⟩
  · rfl

theorem sameAt_of_tx_eq {s' : Channel} (h : s'.tx = s.tx) : s.tx.SameAt s'.tx S := by
  rw [h]
  exact ⟨rfl, rfl, rfl, rfl⟩

theorem clear_cases (tx : TxState) (sid S : SessionID) :
    (tx.clear sid).Cleared S ∨ tx.SameAt (tx.clear sid) S := by
  by_cases h : S = sid
  · subst h
    left
    simp [TxState.Cleared, TxState.clear]
  · right
    simp [TxState.SameAt, TxState.clear, h]

/-- What a step does to the entries of `S`: it checks one of its packets, it deletes all of them but
the mark of the countdown, or it leaves them alone. -/
theorem step_entries (p : MixerParams) (s : Channel) (a : ChannelAction) (S : SessionID) :
    (∃ now, s.Checks a S now ∧ (step p s a).tx = (s.tx.canAcceptTxPacket p S now).1) ∨
      (∀ now, ¬ s.Checks a S now) ∧
        ((step p s a).tx.Cleared S ∨ s.tx.SameAt (step p s a).tx S) := by
  by_cases hc : ∃ now, s.Checks a S now
  · obtain ⟨now, rfl, hu⟩ := hc
    refine Or.inl ⟨now, ⟨rfl, hu⟩, ?_⟩
    simp [step, readerStep, hu]
  refine Or.inr ⟨not_exists.1 hc, ?_⟩
  cases a with
  | reader =>
    show (s.readerStep p).tx.Cleared S ∨ s.tx.SameAt (s.readerStep p).tx S
    unfold readerStep
    split
    · exact Or.inr (sameAt_of_tx_eq rfl)
    · split_ifs <;> exact Or.inr (sameAt_of_tx_eq rfl)
    · next sid now hu =>
      refine Or.inr (TxState.sameAt_canAcceptTxPacket ?_)
      rintro rfl
      exact hc ⟨now, rfl, hu⟩
    · exact Or.inr (sameAt_of_tx_eq rfl)
    · exact Or.inr (sameAt_of_tx_eq rfl)
    · exact clear_cases _ _ _
    · exact Or.inr (sameAt_of_tx_eq rfl)
    · exact Or.inr (sameAt_of_tx_eq (queueStep_tx _ _ _ _))
  | handler sid =>
    show (s.handlerStep sid).tx.Cleared S ∨ s.tx.SameAt (s.handlerStep sid).tx S
    unfold handlerStep
    split <;> first | exact Or.inr (sameAt_of_tx_eq rfl) | exact clear_cases _ _ _
  | mixer =>
    show (s.mixerStep p).tx.Cleared S ∨ s.tx.SameAt (s.mixerStep p).tx S
    unfold mixerStep
    split
    · exact Or.inr (sameAt_of_tx_eq rfl)
    · exact Or.inr (sameAt_of_tx_eq rfl)
    · exact Or.inr (sameAt_of_tx_eq rfl)
    · next now participants _ =>
      cases hr : s.removed p now participants S with
      | true =>
        left
        simp [TxState.Cleared, TxState.cleanup, hr]
      | false =>
        right
        simp [TxState.SameAt, TxState.cleanup, hr]
  | _ => exact Or.inr (sameAt_of_tx_eq (step_admission p s (by simp) (by simp) (by simp)).1)

/-! ## Lives and stops -/

/-- A countdown comes first or not at all. -/
def CountdownFirst (life : List TxEvent) : Prop :=
  life.Pairwise fun _ e => e.isCountdown = false

/-- What the entries of `S` know of its events up to the time `r`. -/
structure EventsInv (S : SessionID) (tx : TxState) (r : ℤ) (es : List TxEvent) : Prop where
  /-- the time of the last stop is deleted together with the mark of the stop -/
  marked : ∀ t, tx.txLastStopNoticeAt S = some t → tx.txForceStopped S = true
  past : ∀ u ∈ stopTimes es, u ≤ r
  remembered : ∀ u ∈ stopTimes es, ∀ t, tx.txLastStopNoticeAt S = some t → u ≤ t
  /-- a clock without a last stop was started after all stops -/
  forgotten : ∀ u ∈ stopTimes es, tx.txLastStopNoticeAt S = none →
    ∀ t, tx.txStartedAt S = some t → u ≤ t
  spaced : (stopTimes es).Pairwise fun u u' => u + second ≤ u'
  counted : ∀ life, life <:+ es → (∀ e ∈ life, e.isBegan = false) →
    (tx.txStartedAt S).isSome = true → ∀ e ∈ life,
      if e.isCountdown then tx.txCountdownNotified S = true else tx.txForceStopped S = true
  first : ∀ life, life <:+: es → (∀ e ∈ life, e.isBegan = false) → CountdownFirst life

theorem eventsInv_nil : EventsInv S {} 0 [] where
  marked := by simp
  past := by simp [stopTimes]
  remembered := by simp [stopTimes]
  forgotten := by simp [stopTimes]
  spaced := List.Pairwise.nil
  counted := by simp
  first := by
    intro life h _
    rw [List.infix_nil.1 h]
    exact List.Pairwise.nil

variable {tx tx' : TxState} {r r' : ℤ} {es : List TxEvent}

theorem EventsInv.mono (h : EventsInv S tx r es) (hr : r ≤ r') : EventsInv S tx r' es :=
  { h with past := fun u hu => (h.past u hu).trans hr }

theorem EventsInv.sameAt (h : EventsInv S tx r es) (hs : tx.SameAt tx' S) :
    EventsInv S tx' r es := by
  obtain ⟨hstart, hforce, hlast, hcount⟩ := hs
  refine ⟨?_, h.past, ?_, ?_, h.spaced, ?_, h.first⟩
  · rw [hlast, hforce]
    exact h.marked
  · rw [hlast]
    exact h.remembered
  · rw [hlast, hstart]
    exact h.forgotten
  · rw [hstart, hcount, hforce]
    exact h.counted

theorem EventsInv.cleared (h : EventsInv S tx r es) (hc : tx'.Cleared S) :
    EventsInv S tx' r es := by
  obtain ⟨hstart, -, hlast⟩ := hc
  refine ⟨?_, h.past, ?_, ?_, h.spaced, ?_, h.first⟩
  · simp [hlast]
  · simp [hlast]
  · simp [hstart]
  · simp [hstart]

/-- The lives of a longer run: those so far, and the present one with the new event. -/
theorem EventsInv.first_snoc (h : EventsInv S tx r es) {e : TxEvent}
    (hlast : e.isBegan = false → e.isCountdown = true → ∀ life, life <:+ es →
      (∀ e ∈ life, e.isBegan = false) → life = []) :
    ∀ life, life <:+: es ++ [e] → (∀ e ∈ life, e.isBegan = false) → CountdownFirst life := by
  intro life hlife hb
  rcases List.infix_concat_iff.1 hlife with hsuf | hinf
  · rcases List.suffix_concat_iff.1 hsuf with rfl | ⟨life', rfl, hsuf'⟩
    · exact List.Pairwise.nil
    have hb' : ∀ e ∈ life', e.isBegan = false := fun e' he' => hb e' (by simp [he'])
    refine List.pairwise_append.2 ⟨h.first life' hsuf'.isInfix hb', List.pairwise_singleton _ _, ?_⟩
    intro e' he' e'' he''
    obtain rfl : e'' = e := by simpa using he''
    by_contra hcount
    have := hlast (hb e'' (by simp)) (by simpa using hcount) life' hsuf' hb'
    rw [this] at he'
    simp at he'
  · exact h.first life hinf hb

/-- The present life of a longer run. -/
theorem EventsInv.counted_snoc {e : TxEvent} {P : TxEvent → Prop}
    (hold : ∀ life, life <:+ es → (∀ e ∈ life, e.isBegan = false) → ∀ e ∈ life, P e)
    (hnew : e.isBegan = false → P e) :
    ∀ life, life <:+ es ++ [e] → (∀ e ∈ life, e.isBegan = false) → ∀ e ∈ life, P e := by
  intro life hlife hb e' he'
  rcases List.suffix_concat_iff.1 hlife with rfl | ⟨life', rfl, hsuf⟩
  · simp at he'
  rcases List.mem_append.1 he' with hmem | hmem
  · exact hold life' hsuf (fun e'' he'' => hb e'' (by simp [he''])) e' hmem
  · obtain rfl : e' = e := by simpa using hmem
    exact hnew (hb e' he')

variable {now t : ℤ}

theorem EventsInv.start (h : EventsInv S tx now es) (hT : 0 < p.transmitTimeout)
    (hstart : tx.txStartedAt S = none) (hforce : tx.txForceStopped S = false) :
    EventsInv S (tx.canAcceptTxPacket p S now).1 now (es ++ tx.txEvents p S now) := by
  obtain ⟨hev, hstart', hforce', hlast', -⟩ :=
    TxState.txEvents_start now hT hstart
  have hlast : tx.txLastStopNoticeAt S = none := by
    by_contra hne
    obtain ⟨t, ht⟩ := Option.ne_none_iff_exists'.1 hne
    rw [h.marked t ht] at hforce
    cases hforce
  have hstops : stopTimes (es ++ [.began now]) = stopTimes es := by
    simp [stopTimes, TxEvent.stopAt]
  rw [hev]
  refine ⟨?_, ?_, ?_, ?_, ?_, ?_, ?_⟩
  · simp [hlast', hlast]
  · rw [hstops]
    exact h.past
  · simp [hlast', hlast]
  · rw [hstops, hstart']
    intro u hu _ t ht
    obtain rfl := Option.some.inj ht
    exact h.past u hu
  · rw [hstops]
    exact h.spaced
  · intro life hlife hb _ e he
    rcases List.suffix_concat_iff.1 hlife with rfl | ⟨life', rfl, -⟩
    · simp at he
    · have := hb (.began now) (by simp)
      cases this
  · exact h.first_snoc (by simp [TxEvent.isBegan])

theorem EventsInv.refuse (h : EventsInv S tx now es) (hT : second ≤ p.transmitTimeout)
    (hstart : tx.txStartedAt S = some t) (hlate : p.transmitTimeout ≤ now - t) :
    EventsInv S (tx.canAcceptTxPacket p S now).1 now (es ++ tx.txEvents p S now) := by
  have hpos : 0 < p.transmitTimeout := lt_of_lt_of_le (by decide) hT
  obtain ⟨hstart', hforce', hcases⟩ := TxState.txEvents_refuse hpos hstart (Or.inr hlate)
  -- a refusal neither restarts the clock nor touches the mark of the countdown
  have hcount' : (tx.canAcceptTxPacket p S now).1.txCountdownNotified = tx.txCountdownNotified :=
    TxState.txCountdownNotified_refuse hpos hstart (Or.inr hlate)
  have hcounted : ∀ life, life <:+ es → (∀ e ∈ life, e.isBegan = false) → ∀ e ∈ life,
      if e.isCountdown then (tx.canAcceptTxPacket p S now).1.txCountdownNotified S = true
      else (tx.canAcceptTxPacket p S now).1.txForceStopped S = true := by
    intro life hlife hb e he
    have := h.counted life hlife hb (by simp [hstart]) e he
    rw [hcount', hforce']
    split_ifs with hc
    · rwa [if_pos hc] at this
    · rfl
  rcases hcases with ⟨hev, hlast'⟩ | ⟨hev, hlast', hspace⟩
  · rw [hev, List.append_nil]
    refine ⟨fun _ _ => hforce', h.past, ?_, ?_, h.spaced, fun life hlife hb _ => ?_, h.first⟩
    · rw [hlast']
      exact h.remembered
    · rw [hlast', hstart', ← hstart]
      exact h.forgotten
    · exact hcounted life hlife hb
  · have hstops : stopTimes (es ++ [.notice now (.txStop "transmit_timeout_reached")]) =
        stopTimes es ++ [now] := by
      simp [stopTimes, TxEvent.stopAt]
    -- the last stop is remembered, or the clock was started after it and has run for a second
    have hspaced : ∀ u ∈ stopTimes es, u + second ≤ now := by
      intro u hu
      cases hlast : tx.txLastStopNoticeAt S with
      | some last =>
        have := h.remembered u hu last hlast
        have := hspace last hlast
        omega
      | none =>
        have := h.forgotten u hu hlast t hstart
        omega
    rw [hev]
    refine ⟨fun _ _ => hforce', ?_, ?_, ?_, ?_, ?_, ?_⟩
    · rw [hstops]
      intro u hu
      rcases List.mem_append.1 hu with hu | hu
      · exact h.past u hu
      · exact (List.mem_singleton.1 hu).le
    · rw [hstops, hlast']
      intro u hu t' ht'
      obtain rfl := Option.some.inj ht'
      rcases List.mem_append.1 hu with hu | hu
      · exact h.past u hu
      · exact (List.mem_singleton.1 hu).le
    · simp [hlast']
    · rw [hstops]
      refine List.pairwise_append.2 ⟨h.spaced, List.pairwise_singleton _ _, ?_⟩
      intro u hu u' hu'
      obtain rfl := List.mem_singleton.1 hu'
      exact hspaced u hu
    · intro life hlife hb _
      exact EventsInv.counted_snoc hcounted (fun _ => by simpa [TxEvent.isCountdown] using hforce')
        life hlife hb
    · exact h.first_snoc (by simp [TxEvent.isCountdown])

theorem EventsInv.pass (h : EventsInv S tx now es) (hT : 0 < p.transmitTimeout)
    (hstart : tx.txStartedAt S = some t) (hforce : tx.txForceStopped S = false)
    (hlt : now - t < p.transmitTimeout) :
    EventsInv S (tx.canAcceptTxPacket p S now).1 now (es ++ tx.txEvents p S now) := by
  obtain ⟨hstart', hforce', hlast', hcases⟩ := TxState.txEvents_pass hT hstart hforce hlt
  rcases hcases with ⟨hev, hcount'⟩ | ⟨hev, hcount, hcount'⟩
  · rw [hev, List.append_nil]
    refine h.sameAt ⟨?_, ?_, hlast', hcount'⟩
    · rw [hstart', hstart]
    · rw [hforce', hforce]
  · have hstops : stopTimes (es ++ [.notice now .txCountdownStart]) = stopTimes es := by
      simp [stopTimes, TxEvent.stopAt]
    -- nothing was sent in this life: a countdown would be marked, and so would a stop
    have hempty : ∀ life, life <:+ es → (∀ e ∈ life, e.isBegan = false) → life = [] := by
      intro life hlife hb
      refine List.eq_nil_iff_forall_not_mem.2 fun e he => ?_
      have := h.counted life hlife hb (by simp [hstart]) e he
      rw [hcount, hforce] at this
      split_ifs at this
    rw [hev]
    refine ⟨?_, ?_, ?_, ?_, ?_, ?_, ?_⟩
    · rw [hlast', hforce', ← hforce]
      exact h.marked
    · rw [hstops]
      exact h.past
    · rw [hstops, hlast']
      exact h.remembered
    · rw [hstops, hlast', hstart', ← hstart]
      exact h.forgotten
    · rw [hstops]
      exact h.spaced
    · intro life hlife hb _
      refine EventsInv.counted_snoc (fun life' hlife' hb' e he => ?_)
        (fun _ => by simpa [TxEvent.isCountdown] using hcount') life hlife hb
      rw [hempty life' hlife' hb'] at he
      simp at he
    · exact h.first_snoc fun _ _ => hempty

/-! ## The whole run -/

theorem EventsInv.check (h : EventsInv S s.tx s.readAt es) (htx : TxInv p s)
    (hT : second ≤ p.transmitTimeout) (hc : s.Checks a S now) :
    EventsInv S (s.tx.canAcceptTxPacket p S now).1 now (es ++ s.tx.txEvents p S now) := by
  have hpos : 0 < p.transmitTimeout := lt_of_lt_of_le (by decide) hT
  have hread := readAt_of_checks hc
  rw [hread] at h
  have hforced : s.tx.txForceStopped S = true →
      ∃ t, s.tx.txStartedAt S = some t ∧ p.transmitTimeout ≤ now - t := by
    rw [← hread]
    exact htx.forced S
  cases hstart : s.tx.txStartedAt S with
  | none =>
    refine h.start hpos hstart ?_
    by_contra hne
    obtain ⟨t, ht, -⟩ := hforced (by simpa using hne)
    rw [hstart] at ht
    cases ht
  | some t =>
    by_cases hlate : p.transmitTimeout ≤ now - t
    · exact h.refuse hT hstart hlate
    · refine h.pass hpos hstart ?_ (not_le.1 hlate)
      by_contra hne
      obtain ⟨t', ht', hlate'⟩ := hforced (by simpa using hne)
      rw [hstart] at ht'
      obtain rfl := Option.some.inj ht'
      exact hlate hlate'

theorem EventsInv.step (h : EventsInv S s.tx s.readAt es) (htx : TxInv p s)
    (hT : second ≤ p.transmitTimeout) (a : ChannelAction) :
    EventsInv S (step p s a).tx (step p s a).readAt (es ++ txEvents p S s a) := by
  obtain ⟨hmono, -⟩ := readAt_step (p := p) htx.read a
  rcases step_entries p s a S with ⟨now, hc, hstep⟩ | ⟨hno, hentries⟩
  · rw [hstep, txEvents_of_checks hc]
    refine (h.check htx hT hc).mono ?_
    rw [← readAt_of_checks hc]
    exact hmono
  · rw [txEvents_of_not_checks hno, List.append_nil]
    refine EventsInv.mono ?_ hmono
    rcases hentries with hcleared | hsame
    · exact h.cleared hcleared
    · exact h.sameAt hsame

theorem eventsInv_after (hT : second ≤ p.transmitTimeout) (S : SessionID)
    (as : List ChannelAction) :
    EventsInv S (after (Channel.step p) {} as).tx (after (Channel.step p) {} as).readAt
      (outputs (stepTxEvents p S) {} as) := by
  induction as using List.reverseRecOn with
  | nil => exact eventsInv_nil
  | append_singleton as a ih =>
    have htx := txInv_after (lt_of_lt_of_le (by decide) hT) as
    rw [outputs_snoc, after_snoc]
    exact ih.step htx hT a

theorem CountdownFirst.count_le_one {life : List TxEvent} (h : CountdownFirst life) :
    life.countP TxEvent.isCountdown ≤ 1 := by
  cases life with
  | nil => simp
  | cons e life =>
    have htail : life.countP TxEvent.isCountdown = 0 := by
      rw [List.countP_eq_zero]
      intro e' he'
      simpa using (List.pairwise_cons.1 h).1 e' he'
    rw [List.countP_cons, htail]
    split_ifs <;> omega

/-- In every run of a channel with a transmit timeout of a second or more, between two entries of a
session in `txStartedAt` there is at most one `tx_countdown_start` and none after a `tx_stop`, and
any two `tx_stop` messages of the run are a second apart. -/
theorem notices_disciplined (hT : second ≤ p.transmitTimeout) (S : SessionID)
    (as : List ChannelAction) :
    (∀ life, life <:+: outputs (stepTxEvents p S) {} as → (∀ e ∈ life, e.isBegan = false) →
      life.countP TxEvent.isCountdown ≤ 1 ∧
      ∀ stop countdown, [stop, countdown].Sublist life → stop.stopAt.isSome = true →
        countdown.isCountdown = false) ∧
    (stopTimes (outputs (stepTxEvents p S) {} as)).Pairwise fun u u' => u + second ≤ u' := by
  have hinv := eventsInv_after hT S as
  refine ⟨fun life hlife hb => ⟨(hinv.first life hlife hb).count_le_one, ?_⟩, hinv.spaced⟩
  intro stop countdown hsub _
  exact (List.pairwise_cons.1 ((hinv.first life hlife hb).sublist hsub)).1 countdown (by simp)

/-- After its stop the session ends its transmission and is stopped once more in the next one. -/
def stoppedTwice : List ChannelAction :=
  overlongTx ++ arrives true 1 4 ++ arrives false 1 3 ++ [.elapse 1000000000] ++ arrives false 1 2

theorem notices_disciplined_stopped_twice :
    (∀ life, life <:+: outputs (stepTxEvents (timedChannel false) 1) {} stoppedTwice →
      (∀ e ∈ life, e.isBegan = false) →
      life.countP TxEvent.isCountdown ≤ 1 ∧
      ∀ stop countdown, [stop, countdown].Sublist life → stop.stopAt.isSome = true →
        countdown.isCountdown = false) ∧
    (stopTimes (outputs (stepTxEvents (timedChannel false) 1) {} stoppedTwice)).Pairwise
      fun u u' => u + second ≤ u' :=
  notices_disciplined (by decide) 1 stoppedTwice

example : outputs (stepTxEvents (timedChannel false) 1) {} stoppedTwice =
    [.began 0, .notice 400000000 .txCountdownStart,
      .notice 1200000000 (.txStop "transmit_timeout_reached"), .began 1200000000,
      .notice 2200000000 (.txStop "transmit_timeout_reached")] := by
  decide

end Channel

end OWalkie
