import OWalkie.Relay.Channel

/-!
# One talker at a time

Busy mode without a busy timeout.  `BusyState.Holds` is the state of the arbitration while one
session holds the channel, `tryAcceptPacket_of_holds` what it does with a packet then, and
`Channel.Guarded` what is left of the hold after any run; `single_talker` follows.
-/

namespace OWalkie

open Run

namespace BusyState

variable {p : MixerParams} {b : BusyState} {A C : SessionID} {v now : ℤ}
  {participants : Finset SessionID}

/-- `A` holds the channel since its packet or EOF at `v`, and nobody may talk beside it. -/
structure Holds (b : BusyState) (A : SessionID) (v : ℤ) : Prop where
  holder : b.busySessionID = A
  last : b.busyLastPacketAt = some v
  single : b.busyParallelAllowed = false

/-- A packet takes the channel over when the hold has run out; before that, only the holder's own
packets are accepted, and they renew the hold. -/
theorem tryAcceptPacket_of_holds (h : b.Holds A v) (hA : A ≠ 0) (hmem : A ∈ participants)
    (hT : p.busyTimeout = 0) : b.tryAcceptPacket p participants C now =
      if b.hold p < now - v then
        ({ busySessionID := C
           busyLastPacketAt := some now
           busyExplicitEOF := false
           busyStartedAt := some now
           busyParallelAllowed := false }, { accept := true })
      else if A = C then
        ({ b with busyLastPacketAt := some now, busyExplicitEOF := false }, { accept := true })
      else (b, { accept := false }) := by
  obtain ⟨hholder, hlast, hsingle⟩ := h
  have hdrop : b.dropAbsentHolder participants = b := by
    simp [dropAbsentHolder, hholder, hmem]
  simp only [tryAcceptPacket, hdrop, arbitrate, busyWindowExpiredLocked, hholder, hlast, sub_some,
    hA, hT, hsingle, decide_false, Bool.false_or, decide_eq_true_eq, false_or, lt_irrefl,
    Bool.false_and, Bool.false_eq_true, if_false]

/-- Without a busy timeout nobody ever talks beside the holder, and a packet is accepted only by
giving its session the channel. -/
theorem tryAcceptPacket_single (hT : p.busyTimeout = 0) (h : b.busyParallelAllowed = false) :
    (b.tryAcceptPacket p participants C now).1.busyParallelAllowed = false ∧
      ((b.tryAcceptPacket p participants C now).2.accept = true →
        (b.tryAcceptPacket p participants C now).1.Holds C now ∧
          (b.tryAcceptPacket p participants C now).1.busyExplicitEOF = false) := by
  have hdrop : (b.dropAbsentHolder participants).busyParallelAllowed = false := by
    unfold dropAbsentHolder
    split_ifs
    · rfl
    · exact h
  unfold tryAcceptPacket
  generalize b.dropAbsentHolder participants = b at hdrop
  unfold arbitrate
  simp only [hT, lt_irrefl, decide_false, Bool.false_and, Bool.false_eq_true, if_false, hdrop,
    false_or]
  split_ifs with hfree hC
  · exact ⟨rfl, fun _ => ⟨⟨rfl, rfl, rfl⟩, rfl⟩⟩
  · exact ⟨rfl, fun _ => ⟨⟨hC, rfl, rfl⟩, rfl⟩⟩
  · exact ⟨hdrop, fun hacc => nomatch hacc⟩

theorem markBusyEOF_single (h : b.busyParallelAllowed = false) :
    (b.markBusyEOF p C now).busyParallelAllowed = false := by
  unfold markBusyEOF
  split_ifs <;> exact h

theorem leave_single (h : b.busyParallelAllowed = false) :
    (b.leave C).busyParallelAllowed = false := by
  unfold leave
  split_ifs
  · rfl
  · exact h

theorem Holds.markBusyEOF (h : b.Holds A v) (hbusy : p.busyMode = true) :
    (b.markBusyEOF p A now).Holds A now := by
  have : p.busyMode = true ∧ b.busySessionID = A := ⟨hbusy, h.holder⟩
  rw [BusyState.markBusyEOF, if_pos this]
  exact ⟨h.holder, rfl, h.single⟩

theorem markBusyEOF_of_ne (h : b.Holds A v) (hne : C ≠ A) : b.markBusyEOF p C now = b := by
  have : ¬ (p.busyMode = true ∧ b.busySessionID = C) := fun hc => hne (hc.2.symm.trans h.holder)
  rw [BusyState.markBusyEOF, if_neg this]

theorem leave_of_ne (h : b.Holds A v) (hne : C ≠ A) : b.leave C = b := by
  rw [leave, if_neg fun hc => hne (hc.symm.trans h.holder)]

end BusyState

namespace Channel

open BusyState

/-- `tryAcceptPacket` accepts a packet of `A` at the time `t`. -/
def AcceptsBusy (p : MixerParams) (s : Channel) (a : ChannelAction) (A : SessionID) (t : ℤ) :
    Prop :=
  a = .reader ∧ s.udp = .busyCheck A t ∧
    (s.busy.tryAcceptPacket p s.participants A t).2.accept = true

/-- `markBusyEOF` processes an EOF marker of `A`, at the time of the clock. -/
def MarksEof (s : Channel) (a : ChannelAction) (A : SessionID) : Prop :=
  a = .reader ∧ s.udp = .eofBusy A

/-- A packet of `A` is accepted, or an EOF marker of `A` processed, at the time `v`. -/
def Uses (p : MixerParams) (s : Channel) (a : ChannelAction) (A : SessionID) (v : ℤ) : Prop :=
  AcceptsBusy p s a A v ∨ MarksEof s a A ∧ v = s.clock

/-- `A` stops being a participant. -/
def Leaves (s : Channel) (a : ChannelAction) (A : SessionID) : Prop :=
  a = .handler A ∧ s.session A = .unregistered

instance (p : MixerParams) (s : Channel) (a : ChannelAction) (A : SessionID) (t : ℤ) :
    Decidable (AcceptsBusy p s a A t) := by
  unfold AcceptsBusy
  infer_instance

instance (s : Channel) (a : ChannelAction) (A : SessionID) : Decidable (s.MarksEof a A) := by
  unfold MarksEof
  infer_instance

instance (s : Channel) (a : ChannelAction) (A : SessionID) : Decidable (s.Leaves a A) := by
  unfold Leaves
  infer_instance

variable {p : MixerParams} {s : Channel} {a : ChannelAction} {A : SessionID}

/-! ## One step -/

/-- What a step does to the arbitration: a packet is arbitrated, an EOF marker is processed, a
session that has left is taken off, or nothing. -/
theorem step_busy (p : MixerParams) (s : Channel) (a : ChannelAction) :
    (∃ C now, a = .reader ∧ s.udp = .busyCheck C now ∧
      (step p s a).busy = (s.busy.tryAcceptPacket p s.participants C now).1) ∨
    (∃ C, s.MarksEof a C ∧ (step p s a).busy = s.busy.markBusyEOF p C s.clock) ∨
    (∃ C, s.session C = .cleared ∧ (step p s a).busy = s.busy.leave C ∧ a = .handler C) ∨
    ((∀ C now, a = .reader → s.udp ≠ .busyCheck C now) ∧ (∀ C, ¬ s.MarksEof a C) ∧
      (step p s a).busy = s.busy) := by
  by_cases hreader : a = .reader
  · subst hreader
    show (∃ C now, ChannelAction.reader = .reader ∧ s.udp = .busyCheck C now ∧
        (s.readerStep p).busy = _) ∨
      (∃ C, s.MarksEof .reader C ∧ (s.readerStep p).busy = _) ∨
      (∃ C, s.session C = .cleared ∧ (s.readerStep p).busy = _ ∧ _) ∨
      (_ ∧ _ ∧ (s.readerStep p).busy = s.busy)
    by_cases hcheck : ∃ C now, s.udp = .busyCheck C now
    · obtain ⟨C, now, hu⟩ := hcheck
      refine Or.inl ⟨C, now, rfl, hu, ?_⟩
      simp only [readerStep, hu]
    by_cases heof : ∃ C, s.udp = .eofBusy C
    · obtain ⟨C, hu⟩ := heof
      refine Or.inr (Or.inl ⟨C, ⟨rfl, hu⟩, ?_⟩)
      simp only [readerStep, hu]
    refine Or.inr (Or.inr (Or.inr ⟨fun C now _ h => hcheck ⟨C, now, h⟩,
      fun C h => heof ⟨C, h.2⟩, ?_⟩))
    unfold readerStep
    split
    · rfl
    · split_ifs <;> rfl
    · rfl
    · rfl
    · next C now hu => exact absurd ⟨C, now, hu⟩ hcheck
    · rfl
    · next C hu => exact absurd ⟨C, hu⟩ heof
    · exact queueStep_busy _ _ _ _
  have hno : (∀ C now, a = .reader → s.udp ≠ .busyCheck C now) ∧ ∀ C, ¬ s.MarksEof a C :=
    ⟨fun _ _ h => absurd h hreader, fun _ h => hreader h.1⟩
  by_cases hhandler : ∃ C, a = .handler C
  · obtain ⟨C, rfl⟩ := hhandler
    by_cases hc : s.session C = .cleared
    · refine Or.inr (Or.inr (Or.inl ⟨C, hc, ?_, rfl⟩))
      simp [step, handlerStep, hc]
    · refine Or.inr (Or.inr (Or.inr ⟨hno.1, hno.2, ?_⟩))
      simp only [step, handlerStep]
      split <;> first | rfl | exact absurd ‹_› hc
  by_cases hmixer : a = .mixer
  · subst hmixer
    refine Or.inr (Or.inr (Or.inr ⟨hno.1, hno.2, ?_⟩))
    simp only [step, mixerStep]
    split <;> rfl
  · exact Or.inr (Or.inr (Or.inr ⟨hno.1, hno.2,
      (step_admission p s hreader (fun C h => hhandler ⟨C, h⟩) hmixer).2.1⟩))

theorem mem_participants_step (hmem : A ∈ s.participants) (hleave : ¬ s.Leaves a A) :
    A ∈ (step p s a).participants := by
  by_cases hreader : a = .reader
  · subst hreader
    exact (readerStep_participants p s).symm ▸ hmem
  by_cases hhandler : ∃ C, a = .handler C
  · obtain ⟨C, rfl⟩ := hhandler
    simp only [step, handlerStep]
    split
    · exact hmem
    · exact hmem
    · exact Finset.mem_insert_of_mem hmem
    · next hc =>
      refine Finset.mem_erase_of_ne_of_mem ?_ hmem
      rintro rfl
      exact hleave ⟨rfl, hc⟩
    · exact hmem
    · exact hmem
    · exact hmem
    · exact hmem
  by_cases hmixer : a = .mixer
  · subst hmixer
    simp only [step, mixerStep]
    split <;> exact hmem
  · rw [(step_admission p s hreader (fun C h => hhandler ⟨C, h⟩) hmixer).2.2]
    exact hmem

/-- A participant has not begun to leave the channel, or has only left the hub. -/
def ParticipantInv (s : Channel) : Prop :=
  ∀ C ∈ s.participants, s.session C = .joined ∨ s.session C = .unregistered

theorem ParticipantInv.setSession (h : s.ParticipantInv) {s' : Channel} {C : SessionID}
    {pc : SessionPc} (hsession : s'.session = s.session)
    (hmem : ∀ D ∈ s'.participants, D ≠ C → D ∈ s.participants)
    (hC : C ∈ s'.participants → pc = .joined ∨ pc = .unregistered) :
    (s'.setSession C pc).ParticipantInv := by
  intro D hD
  by_cases hDC : D = C
  · subst hDC
    simpa only [Channel.setSession, Function.update_self] using hC hD
  · simp only [Channel.setSession, Function.update_of_ne hDC, hsession]
    exact h D (hmem D hD hDC)

theorem ParticipantInv.step (h : s.ParticipantInv) (a : ChannelAction) :
    (step p s a).ParticipantInv := by
  have same : ∀ {s' : Channel}, s'.session = s.session → s'.participants = s.participants →
      s'.ParticipantInv := by
    intro s' hs hp C hC
    rw [hs]
    exact h C (hp ▸ hC)
  cases a with
  | reader =>
    refine same ?_ (readerStep_participants p s)
    show (s.readerStep p).session = s.session
    unfold readerStep
    split <;> first | rfl | exact queueStep_session _ _ _ _ | (split_ifs <;> rfl)
  | handler C =>
    have stay : ∀ {s' : Channel} {pc}, s.session C ≠ .joined → s.session C ≠ .unregistered →
        s'.session = s.session → s'.participants = s.participants →
          (s'.setSession C pc).ParticipantInv := by
      intro s' pc h1 h2 hs hp
      exact h.setSession hs (fun D hD _ => hp ▸ hD) fun hC => ((h C (hp ▸ hC)).elim h1 h2).elim
    simp only [Channel.step, handlerStep]
    split
    · next hc => exact stay (by simp [hc]) (by simp [hc]) rfl rfl
    · next hc => exact stay (by simp [hc]) (by simp [hc]) rfl rfl
    · exact h.setSession rfl (fun D hD hne => Finset.mem_of_mem_insert_of_ne hD hne)
        fun _ => Or.inl rfl
    · exact h.setSession rfl (fun D hD _ => Finset.mem_of_mem_erase hD)
        fun hC => absurd hC (Finset.notMem_erase _ _)
    · next hc => exact stay (by simp [hc]) (by simp [hc]) rfl rfl
    · next hc => exact stay (by simp [hc]) (by simp [hc]) rfl rfl
    · exact h
    · exact h
  | disconnect C =>
    simp only [Channel.step]
    split_ifs
    · exact h.setSession rfl (fun D hD _ => hD) fun _ => Or.inr rfl
    · exact h
  | elapse dt => exact same rfl rfl
  | receive eof C =>
    simp only [Channel.step]
    split_ifs <;> exact same rfl rfl
  | takePacket =>
    simp only [Channel.step]
    split <;> exact same rfl rfl
  | takeEof =>
    simp only [Channel.step]
    split_ifs <;> exact same rfl rfl
  | tick decoded =>
    simp only [Channel.step]
    split_ifs <;> exact same rfl rfl
  | mixer =>
    simp only [Channel.step, mixerStep]
    split <;> exact same rfl rfl
  | restart => exact same rfl rfl

/-! ## What is left of a hold -/

/-- By the time `u` an EOF marker of `A` was processed in the run, and more than `packetDur` has
passed since `t` and since the last accepted packet or EOF marker of `A`. -/
def HandedOver (p : MixerParams) (s : Channel) (A : SessionID) (t : ℤ) (as : List ChannelAction)
    (u : ℤ) : Prop :=
  ∃ pre post, as = pre ++ post ∧ u ≤ (after (Channel.step p) s pre).clock ∧ p.packetDur < u - t ∧
    ¬ Along (Channel.step p) (fun x b => ¬ x.MarksEof b A) s pre ∧
    Along (Channel.step p) (fun x b => ∀ v, Uses p x b A v → p.packetDur < u - v) s pre

/-- `A` still holds the channel, since its last packet or EOF at `v`. -/
structure HoldsSince (p : MixerParams) (s : Channel) (A : SessionID) (t : ℤ)
    (as : List ChannelAction) (v : ℤ) : Prop where
  holds : (after (Channel.step p) s as).busy.Holds A v
  present : A ∈ (after (Channel.step p) s as).participants
  since : t ≤ v
  read : v ≤ (after (Channel.step p) s as).readAt
  eof : (after (Channel.step p) s as).busy.busyExplicitEOF = true →
    ¬ Along (Channel.step p) (fun x b => ¬ x.MarksEof b A) s as
  last : Along (Channel.step p) (fun x b => ∀ v', Uses p x b A v' → v' ≤ v) s as

/-- What a run leaves of the hold that `A` got at `t`: `A` has left, or has handed the channel over,
or the hold time is up, or `A` still holds the channel. -/
def Guarded (p : MixerParams) (s : Channel) (A : SessionID) (t : ℤ) (as : List ChannelAction) :
    Prop :=
  ¬ Along (Channel.step p) (fun x b => ¬ x.Leaves b A) s as ∨
    (∃ u ≤ (after (Channel.step p) s as).readAt, HandedOver p s A t as u) ∨
    t + p.hangoverDur < (after (Channel.step p) s as).readAt ∨
    ∃ v, HoldsSince p s A t as v

theorem HandedOver.snoc {t u : ℤ} {as : List ChannelAction} (h : HandedOver p s A t as u)
    (a : ChannelAction) : HandedOver p s A t (as ++ [a]) u := by
  obtain ⟨pre, post, rfl, h⟩ := h
  exact ⟨pre, post ++ [a], by simp, h⟩

/-- A hold that has run out at `now` was handed over by then, or its time is up. -/
theorem HoldsSince.expired {t v now : ℤ} {as : List ChannelAction} (h : HoldsSince p s A t as v)
    (hexp : (after (Channel.step p) s as).busy.hold p < now - v)
    (hnow : now ≤ (after (Channel.step p) s as).clock) :
    HandedOver p s A t as now ∨ t + p.hangoverDur < now := by
  have hsince := h.since
  unfold BusyState.hold at hexp
  split_ifs at hexp with he
  · refine Or.inl ⟨as, [], by simp, hnow, by omega, h.eof he, ?_⟩
    intro pre b post heq v' hv'
    have := h.last pre b post heq v' hv'
    omega
  · exact Or.inr (by omega)

theorem Guarded.snoc {t : ℤ} {as : List ChannelAction} (hbusy : p.busyMode = true)
    (hT : p.busyTimeout = 0) (hA : A ≠ 0) (h : Guarded p s A t as)
    (hread : (after (Channel.step p) s as).readAt ≤ (after (Channel.step p) s as).clock)
    (hpart : (after (Channel.step p) s as).ParticipantInv) (a : ChannelAction) :
    Guarded p s A t (as ++ [a]) := by
  obtain ⟨hmono, -⟩ := readAt_step (p := p) hread a
  unfold Guarded
  rw [after_snoc]
  rcases h with h | ⟨u, hu, h⟩ | h | ⟨v, h⟩
  · exact Or.inl fun h' => h h'.init
  · exact Or.inr (Or.inl ⟨u, hu.trans hmono, h.snoc a⟩)
  · exact Or.inr (Or.inr (Or.inl (by omega)))
  by_cases hleave : (after (Channel.step p) s as).Leaves a A
  · exact Or.inl fun h' => h'.last hleave
  right
  have hpresent := mem_participants_step (p := p) h.present hleave
  have hlastread := h.read
  have hsince := h.since
  -- the hold goes on: nothing of `A` is used in the step, or it is used at the time `v'`
  have keep : ∀ v', (step p (after (Channel.step p) s as) a).busy.Holds A v' → v ≤ v' →
      v' ≤ (step p (after (Channel.step p) s as) a).readAt →
      ((step p (after (Channel.step p) s as) a).busy.busyExplicitEOF = true →
        (after (Channel.step p) s as).busy.busyExplicitEOF = true ∨
          (after (Channel.step p) s as).MarksEof a A) →
      (∀ w, Uses p (after (Channel.step p) s as) a A w → w ≤ v') →
      HoldsSince p s A t (as ++ [a]) v' := by
    intro v' hholds hvv hle heof huses
    refine ⟨by rwa [after_snoc], by rwa [after_snoc], by omega, by rwa [after_snoc], ?_, ?_⟩
    · intro he hno
      rw [after_snoc] at he
      rcases heof he with he | he
      · exact h.eof he hno.init
      · exact hno.last he
    · refine along_snoc_iff.2 ⟨?_, huses⟩
      intro pre b post heq w hw
      exact (h.last pre b post heq w hw).trans hvv
  have stay : (step p (after (Channel.step p) s as) a).busy = (after (Channel.step p) s as).busy →
      (∀ w, ¬ Uses p (after (Channel.step p) s as) a A w) → HoldsSince p s A t (as ++ [a]) v := by
    intro hb huses
    rw [hb] at keep
    exact keep v h.holds le_rfl (hlastread.trans hmono) Or.inl fun w hw => absurd hw (huses w)
  rcases step_busy p (after (Channel.step p) s as) a with
    ⟨C, now, rfl, hu, hb⟩ | ⟨C, hC, hb⟩ | ⟨C, hc, hb, rfl⟩ | ⟨hnc, hne, hb⟩
  · -- a packet of `C` is arbitrated
    have hnow : (after (Channel.step p) s as).readAt = now := by simp [readAt, hu]
    rw [tryAcceptPacket_of_holds h.holds hA h.present hT] at hb
    split_ifs at hb with hexp hAC
    · rcases h.expired hexp (by omega) with hover | hlate
      · exact Or.inl ⟨now, by omega, hover.snoc _⟩
      · exact Or.inr (Or.inl (by omega))
    · subst hAC
      refine Or.inr (Or.inr ⟨now, keep now ?_ (by omega) (by omega) ?_ ?_⟩)
      · rw [hb]
        exact ⟨h.holds.holder, rfl, h.holds.single⟩
      · rw [hb]
        intro he
        cases he
      · rintro w (⟨-, hw, -⟩ | ⟨⟨-, hw⟩, -⟩)
        · rw [hu] at hw
          injection hw with _ hw
          exact hw.ge
        · rw [hu] at hw
          cases hw
    · refine Or.inr (Or.inr ⟨v, stay hb ?_⟩)
      rintro w (⟨-, hw, -⟩ | ⟨⟨-, hw⟩, -⟩)
      · rw [hu] at hw
        injection hw with hw _
        exact hAC hw.symm
      · rw [hu] at hw
        cases hw
  · -- an EOF marker of `C` is processed
    obtain ⟨rfl, hu⟩ := hC
    have hclock : (after (Channel.step p) s as).readAt = (after (Channel.step p) s as).clock := by
      simp [readAt, hu]
    by_cases hCA : C = A
    · subst hCA
      refine Or.inr (Or.inr ⟨(after (Channel.step p) s as).clock,
        keep _ ?_ (by omega) (by omega) ?_ ?_⟩)
      · rw [hb]
        exact h.holds.markBusyEOF hbusy
      · exact fun _ => Or.inr ⟨rfl, hu⟩
      · rintro w (⟨-, hw, -⟩ | ⟨-, hw⟩)
        · rw [hu] at hw
          cases hw
        · exact hw.le
    · rw [markBusyEOF_of_ne h.holds hCA] at hb
      refine Or.inr (Or.inr ⟨v, stay hb ?_⟩)
      rintro w (⟨-, hw, -⟩ | ⟨⟨-, hw⟩, -⟩)
      · rw [hu] at hw
        cases hw
      · rw [hu] at hw
        injection hw with hw
        exact hCA hw
  · -- the hold of `C`, which has left, is reset
    have hCA : C ≠ A := by
      rintro rfl
      rcases hpart C h.present with hj | hj <;> rw [hj] at hc <;> cases hc
    rw [leave_of_ne h.holds hCA] at hb
    refine Or.inr (Or.inr ⟨v, stay hb ?_⟩)
    rintro w (⟨hw, -⟩ | ⟨⟨hw, -⟩, -⟩) <;> cases hw
  · refine Or.inr (Or.inr ⟨v, stay hb ?_⟩)
    rintro w (⟨hr, hw, -⟩ | ⟨hw, -⟩)
    · exact hnc A w hr hw
    · exact hne A hw

/-! ## Runs -/

/-- What every run keeps without a busy timeout. -/
structure TalkInv (s : Channel) : Prop where
  read : s.readAt ≤ s.clock
  participants : s.ParticipantInv
  single : s.busy.busyParallelAllowed = false

theorem TalkInv.step (h : s.TalkInv) (hT : p.busyTimeout = 0) (a : ChannelAction) :
    (step p s a).TalkInv := by
  refine ⟨(readAt_step h.read a).2, h.participants.step a, ?_⟩
  rcases step_busy p s a with ⟨C, now, -, -, hb⟩ | ⟨C, -, hb⟩ | ⟨C, -, hb, -⟩ | ⟨-, -, hb⟩
  · rw [hb]
    exact (tryAcceptPacket_single hT h.single).1
  · rw [hb]
    exact markBusyEOF_single h.single
  · rw [hb]
    exact leave_single h.single
  · rw [hb]
    exact h.single

theorem talkInv_after (hT : p.busyTimeout = 0) (as : List ChannelAction) :
    (after (Channel.step p) {} as).TalkInv :=
  invariant (I := TalkInv) (fun _ a hs => hs.step hT a) ⟨le_rfl, by simp [ParticipantInv], rfl⟩ as

/-- The hold of `A` right after one of its packets was accepted. -/
theorem guarded_of_accepts {t : ℤ} (hT : p.busyTimeout = 0) (h : s.TalkInv)
    (hmem : A ∈ s.participants) (hacc : AcceptsBusy p s a A t) :
    Guarded p (step p s a) A t [] := by
  obtain ⟨rfl, hu, hacc⟩ := hacc
  obtain ⟨hholds, heof⟩ := (tryAcceptPacket_single hT h.single).2 hacc
  have hb : (step p s .reader).busy = (s.busy.tryAcceptPacket p s.participants A t).1 := by
    simp only [step, readerStep, hu]
  have hread : t ≤ (step p s .reader).readAt := by
    have hmono := (readAt_step (p := p) h.read .reader).1
    simpa [readAt, hu] using hmono
  refine Or.inr (Or.inr (Or.inr ⟨t, ?_, ?_, le_rfl, hread, ?_, along_nil⟩))
  · rw [after_nil, hb]
    exact hholds
  · have hleave : ¬ s.Leaves .reader A := by
      rintro ⟨h, -⟩
      cases h
    exact mem_participants_step hmem hleave
  · rw [after_nil, hb, heof]
    intro h
    cases h

theorem guarded_after {t : ℤ} (hbusy : p.busyMode = true) (hT : p.busyTimeout = 0) (hA : A ≠ 0)
    (h : s.TalkInv) (hs : Guarded p s A t []) (as : List ChannelAction) : Guarded p s A t as := by
  induction as using List.reverseRecOn with
  | nil => exact hs
  | append_singleton as a ih =>
    have hinv : (after (Channel.step p) s as).TalkInv :=
      invariant (I := TalkInv) (fun _ a hs => hs.step hT a) h as
    exact ih.snoc hbusy hT hA hinv.read hinv.participants a

/-- In busy mode without a busy timeout: after a packet of the participant `A` was accepted at `t`,
a packet of another session is accepted within the hangover time only if `A` left in between, or an
EOF marker of `A` was processed and more than `packetDur` had passed since the last accepted packet
or EOF marker of `A`. -/
theorem single_talker {pre mid : List ChannelAction} {a b : ChannelAction} {A B : SessionID}
    {t t' : ℤ} (hbusy : p.busyMode = true) (hT : p.busyTimeout = 0) (hA : A ≠ 0)
    (hmem : A ∈ (after (Channel.step p) {} pre).participants)
    (hacc : AcceptsBusy p (after (Channel.step p) {} pre) a A t)
    (hother : AcceptsBusy p (after (Channel.step p) {} (pre ++ a :: mid)) b B t') (hne : B ≠ A)
    (hwindow : t' ≤ t + p.hangoverDur) :
    ¬ Along (Channel.step p) (fun s x => ¬ s.Leaves x A) (after (Channel.step p) {} (pre ++ [a]))
        mid ∨
      ∃ u ≤ t', HandedOver p (after (Channel.step p) {} (pre ++ [a])) A t mid u := by
  have hinv := talkInv_after hT pre
  rw [after_append, after_cons] at hother
  rw [after_snoc]
  generalize after (Channel.step p) {} pre = s at hinv hmem hacc hother ⊢
  have hinv' := hinv.step hT a
  have hguard := guarded_after hbusy hT hA hinv' (guarded_of_accepts hT hinv hmem hacc) mid
  have hread : (after (Channel.step p) (step p s a) mid).TalkInv :=
    invariant (I := TalkInv) (fun _ a hs => hs.step hT a) hinv' mid
  obtain ⟨-, hu, hother⟩ := hother
  have ht' : (after (Channel.step p) (step p s a) mid).readAt = t' := by simp [readAt, hu]
  rcases hguard with h | ⟨u, hle, h⟩ | h | ⟨v, h⟩
  · exact Or.inl h
  · exact Or.inr ⟨u, by omega, h⟩
  · omega
  · rw [tryAcceptPacket_of_holds h.holds hA h.present hT] at hother
    split_ifs at hother with hexp hAB
    · have hclock := hread.read
      rcases h.expired hexp (by omega) with hover | hlate
      · exact Or.inr ⟨t', le_rfl, hover⟩
      · omega
    · exact absurd hAB.symm hne

/-- Both sessions have joined, and a packet of session 1 waits for its arbitration. -/
def firstTalker : List ChannelAction := joins 1 ++ joins 2 ++ arrives false 1 3

/-- Session 1 ends its transmission; 30 ms later a packet of session 2 waits for its arbitration. -/
def secondTalker : List ChannelAction :=
  .reader :: arrives true 1 4 ++ .elapse 30000000 :: arrives false 2 3

theorem single_talker_released :
    ¬ Along (Channel.step busyChannel) (fun s x => ¬ s.Leaves x 1)
        (after (Channel.step busyChannel) {} (firstTalker ++ [.reader])) secondTalker ∨
      ∃ u ≤ 30000000, HandedOver busyChannel
        (after (Channel.step busyChannel) {} (firstTalker ++ [.reader])) 1 0 secondTalker u :=
  single_talker (b := .reader) (B := 2) (by decide) (by decide) (by decide) (by decide) (by decide)
    (by decide) (by decide) (by decide)

/-- Session 1 talks between `setChannel` and `addParticipant`, so it is no participant yet when the
packet of session 2 arrives at the same time. -/
theorem two_talkers :
    let p := busyChannel
    let pre := joins 2 ++ [.handler 1, .handler 1] ++ arrives false 1 3
    let mid := .reader :: arrives false 2 3
    AcceptsBusy p (after (Channel.step p) {} pre) .reader 1 0 ∧
      AcceptsBusy p (after (Channel.step p) {} (pre ++ .reader :: mid)) .reader 2 0 ∧
      Along (Channel.step p) (fun s x => ¬ s.Leaves x 1)
        (after (Channel.step p) {} (pre ++ [.reader])) mid ∧
      Along (Channel.step p) (fun s x => ¬ s.MarksEof x 1)
        (after (Channel.step p) {} (pre ++ [.reader])) mid := by
  decide

end Channel

end OWalkie
