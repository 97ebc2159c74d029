import OWalkie.Relay.RepeatedEof

/-!
# The EOF events of a channel

The control events with `txStart` or `txEOF` that the ticks hand to the module chain (`txEvents`).
`repeated_eof_harmless` compares a run with the run in which the loop takes one marker of a session
again: both hand the same events to the chain as long as every step is `Harmless`, and in a run
whose marks fall on the ticks at which the channel goes idle (`OneEdge`) every start is followed by
one EOF.
-/

namespace OWalkie

open Run

/-! ## Control events -/

/-- The control events that tell the module chain of the start or the EOF of a transmission. -/
def txEvents (outs : List TickOutput) : List AudioModuleControl :=
  (outs.filterMap (·.control)).filter fun c => c.txStart || c.txEOF

/-- Every start is followed by exactly one EOF; `active` says that an EOF comes next. -/
def Alternates : Bool → List AudioModuleControl → Prop
  | _, [] => True
  | active, c :: cs => c.txStart = !active ∧ c.txEOF = active ∧ Alternates (!active) cs

instance decidableAlternates : ∀ active cs, Decidable (Alternates active cs)
  | _, [] => isTrue trivial
  | active, _ :: cs =>
    have := decidableAlternates (!active) cs
    inferInstanceAs (Decidable (_ ∧ _ ∧ _))

theorem txEvents_append (outs outs' : List TickOutput) :
    txEvents (outs ++ outs') = txEvents outs ++ txEvents outs' := by
  simp [txEvents]

/-! ## One tick -/

namespace Stream

variable {D : Type} {p : MixerParams} {now : ℤ} {v : Stream D}

/-- The stream has no packet to play in the tick and is not concealed. -/
def Quiet (p : MixerParams) (now : ℤ) (v : Stream D) : Prop :=
  (v.pull p now).2 = none ∧ ¬ v.Conceals p now

instance : Decidable (v.Quiet p now) := by
  unfold Quiet
  infer_instance

theorem conceals_of_pull (h : (v.pull p now).1.Conceals p now) : v.Conceals p now := by
  obtain ⟨hmark, hlast, hpcm⟩ := h
  unfold pull maybeFlushDecoderAfterEOF at hlast hpcm
  dsimp only at hlast hpcm
  rw [SpeakerStreamState.forceStartPaused_lastPacketAt] at hlast
  rw [SpeakerStreamState.forceStartPaused_lastPCM] at hpcm
  rw [pull_eofMarked] at hmark
  split_ifs at hlast hpcm
  · exact (hpcm rfl).elim
  · exact ⟨hmark, hlast, hpcm⟩

theorem Quiet.frame [OpusDecoder D] (isRepeater : Bool) (h : v.Quiet p now) :
    (v.mix p now isRepeater).2.frame = none := by
  obtain ⟨hpull, hconceals⟩ := h
  have hconceals' : ¬ (v.pull p now).1.Conceals p now := fun hc => hconceals (conceals_of_pull hc)
  unfold mix
  dsimp only
  rw [hpull]
  generalize (v.pull p now).1 = w at hconceals'
  cases w.decoder.orElse fun _ => OpusDecoder.newDecoder with
  | none => rfl
  | some dec =>
    have hdec : ¬ ({ w with decoder := some dec } : Stream D).Conceals p now := hconceals'
    dsimp only [decode, finish]
    rw [if_neg hdec]
    rfl

end Stream

namespace MixCore

variable {E M : Type} [OpusEncoder E] [AudioModule M] {p : MixerParams} {now moduleNow : ℤ}
  {heard : List Heard} {c : MixCore E M}

/-- A pending marker makes no difference during the silence tail, or when the channel goes idle. -/
theorem broadcast_congr {txEOF txEOF' : Bool} (h : txEOF' = txEOF ∨ 0 < c.synthSilenceRemain ∨
    c.lastTxActive = true ∧ heard = []) :
    c.broadcast p now moduleNow heard txEOF' = c.broadcast p now moduleNow heard txEOF := by
  rcases h with rfl | hsilence | ⟨hactive, rfl⟩
  · rfl
  · have hsilence' : ∀ b, 0 < (c.account now heard b).1.synthSilenceRemain := fun _ => hsilence
    unfold broadcast
    dsimp only
    rw [if_pos (hsilence' _), if_pos (hsilence' _)]
    rfl
  · have haccount : c.account now [] txEOF' = c.account now [] txEOF := by
      simp [account, hactive]
    unfold broadcast
    rw [haccount]

omit [AudioModule M] in
theorem send_lastTxActive (active : List SessionID) (pcm : List ℤ) (signal : ℤ) :
    (c.send p now active pcm signal).1.lastTxActive = c.lastTxActive := by
  unfold send
  split <;> rfl

theorem produce_lastTxActive (control : AudioModuleControl) (avgSignal : ℚ) :
    (c.produce p now moduleNow heard control avgSignal).1.lastTxActive = c.lastTxActive := by
  unfold produce
  dsimp only
  split_ifs <;> first | rfl | exact send_lastTxActive _ _ _

variable (p now moduleNow heard c) in
/-- The tick remembers whether a speaker is heard; during the silence tail no control event reaches
the module chain. -/
theorem broadcast_control (txEOF : Bool) :
    (c.broadcast p now moduleNow heard txEOF).1.lastTxActive = !heard.isEmpty ∧
      (c.broadcast p now moduleNow heard txEOF).2.control =
        if 0 < c.synthSilenceRemain then none else some (c.account now heard txEOF).2.1 := by
  have hsilence : (c.account now heard txEOF).1.synthSilenceRemain = c.synthSilenceRemain := rfl
  unfold broadcast
  dsimp only
  rw [hsilence]
  split_ifs
  · exact ⟨send_lastTxActive _ _ _, rfl⟩
  · exact ⟨produce_lastTxActive _ _, rfl⟩

end MixCore

/-! ## The loop -/

namespace Mixer

variable {D E M : Type} [OpusDecoder D] {p : MixerParams} {t : TickInput} {s s' : Mixer D E M}
  {S : SessionID}

/-- A marker of the session is pending for the tick. -/
def PendingEof (t : TickInput) (s : Mixer D E M) (sid : SessionID) : Prop :=
  t.isRepeater sid = false ∧ ∃ st ∈ (s.speaker sid).st, st.txEOFPending = true

instance (sid : SessionID) : Decidable (s.PendingEof t sid) := by
  unfold PendingEof
  infer_instance

/-- Every stream that the tick could mix is quiet. -/
def Quiet (p : MixerParams) (t : TickInput) (s : Mixer D E M) : Prop :=
  ∀ sid ∈ t.order, t.isRepeater sid = false → ∀ st ∈ (s.speaker sid).st,
    Stream.Quiet p s.clock ⟨st, (s.speaker sid).eofMarked, (s.speaker sid).decoder⟩

instance : Decidable (s.Quiet p t) := by
  unfold Quiet
  infer_instance

/-- One more pending marker of `S` makes no difference in the tick. -/
def Masked (p : MixerParams) (t : TickInput) (s : Mixer D E M) (S : SessionID) : Prop :=
  t.isRepeater S = true ∨ 0 < s.core.synthSilenceRemain ∨
    (∃ sid ∈ t.order, sid ≠ S ∧ s.PendingEof t sid) ∨ s.core.lastTxActive = true ∧ s.Quiet p t

instance : Decidable (s.Masked p t S) := by
  unfold Masked
  infer_instance

/-- The round finds no difference that one more marker of `S` makes: a packet of `S` is taken only
while the entries of `S` agree, and so is a restart that keeps the decoders; a tick masks a marker
that is pending in one run only, and while the mark is cleared it does not drop the decoder in one
run only. -/
def Harmless (p : MixerParams) (S : SessionID) (s : Mixer D E M × Mixer D E M) :
    LoopEvent E → Prop
  | .packet pkt _ => pkt.sessionID = S → (s.1.speaker S).Agree (s.2.speaker S)
  | .tick t => t.order.Perm s.1.keys →
    ∀ st ∈ (s.1.speaker S).st, ∀ st' ∈ (s.2.speaker S).st,
      (st'.txEOFPending = st.txEOFPending ∨ s.1.Masked p t S) ∧
        (st.FlushDue p s.1.clock → ¬ st'.FlushDue p s.1.clock → (s.1.speaker S).eofMarked = true)
  | .restart none => (s.2.speaker S).decoder = (s.1.speaker S).decoder
  | _ => True

instance [DecidableEq D] (s : Mixer D E M × Mixer D E M) :
    ∀ x : LoopEvent E, Decidable (Harmless p S s x)
  | .packet _ _ => inferInstanceAs (Decidable (_ → _))
  | .tick _ => inferInstanceAs (Decidable (_ → _))
  | .restart none => inferInstanceAs (Decidable (_ = _))
  | .elapse _ | .eof _ _ | .dropDecoder _ | .clearRepeaterState _ | .restart (some _) =>
    isTrue trivial

theorem speakerTick_txEOF {sid : SessionID} :
    (s.speakerTick p t sid).txEOF = true ↔ s.PendingEof t sid := by
  unfold speakerTick Speaker.mix PendingEof
  cases hst : (s.speaker sid).st with
  | none => simp
  | some st => simp [Stream.mix_txEOF, and_comm]

theorem txEOF_iff : s.txEOF p t = true ↔ ∃ sid ∈ t.order, s.PendingEof t sid := by
  simp only [txEOF, List.any_eq_true, speakerTick_txEOF]

theorem heard_of_quiet (h : s.Quiet p t) : s.heard p t = [] := by
  refine List.filterMap_eq_nil_iff.2 fun sid hsid => ?_
  cases hrep : t.isRepeater sid with
  | true => rfl
  | false =>
    simp only [Bool.false_eq_true, if_false, Option.map_eq_none_iff]
    unfold speakerTick Speaker.mix
    cases hst : (s.speaker sid).st with
    | none => rfl
    | some st => exact (h sid hsid hrep st hst).frame _

/-! ### One more marker -/

/-- The second state is the first one with one more marker of `S`. -/
structure RepeatedAt (S : SessionID) (s s' : Mixer D E M) : Prop where
  clock : s'.clock = s.clock
  keys : s'.keys = s.keys
  core : s'.core = s.core
  others : ∀ sid, sid ≠ S → s'.speaker sid = s.speaker sid
  speaker : (s.speaker S).Repeated (s'.speaker S)

namespace RepeatedAt

/-- What the tick makes of `S` in the two states. -/
theorem mix (h : RepeatedAt S s s') (hx : Harmless p S (s, s') (LoopEvent.tick t : LoopEvent E))
    (hperm : t.order.Perm s.keys) :
    (s'.speakerTick p t S).frame = (s.speakerTick p t S).frame ∧
      ((s.speaker S).mix p s.clock (t.isRepeater S)).1.Repeated
        ((s'.speaker S).mix p s'.clock (t.isRepeater S)).1 := by
  unfold speakerTick
  rw [h.clock]
  exact h.speaker.mix fun st hst st' hst' => (hx hperm st hst st' hst').2

theorem heard_eq (h : RepeatedAt S s s')
    (hx : Harmless p S (s, s') (LoopEvent.tick t : LoopEvent E)) (hperm : t.order.Perm s.keys) :
    s'.heard p t = s.heard p t := by
  have hframe : ∀ sid, (s'.speakerTick p t sid).frame = (s.speakerTick p t sid).frame := by
    intro sid
    by_cases hS : sid = S
    · subst hS
      exact (h.mix hx hperm).1
    · unfold speakerTick
      rw [h.others sid hS, h.clock]
  unfold heard
  simp only [hframe]

/-- A round that does the same to the entries of one session. -/
theorem update (h : RepeatedAt S s s') (sid : SessionID) (f : Speaker D → Speaker D)
    (hf : sid = S → (f (s.speaker S)).Repeated (f (s'.speaker S))) :
    (∀ i, i ≠ S → Function.update s'.speaker sid (f (s'.speaker sid)) i =
      Function.update s.speaker sid (f (s.speaker sid)) i) ∧
      (Function.update s.speaker sid (f (s.speaker sid)) S).Repeated
        (Function.update s'.speaker sid (f (s'.speaker sid)) S) := by
  constructor
  · intro i hi
    by_cases hisid : i = sid
    · subst hisid
      rw [Function.update_self, Function.update_self, h.others i hi]
    · rw [Function.update_of_ne hisid, Function.update_of_ne hisid]
      exact h.others i hi
  · by_cases hsid : sid = S
    · subst hsid
      rw [Function.update_self, Function.update_self]
      exact hf rfl
    · rw [Function.update_of_ne (Ne.symm hsid), Function.update_of_ne (Ne.symm hsid)]
      exact h.speaker

variable [OpusEncoder E] [AudioModule M]

/-- The tick hands the same to the channel in both states. -/
theorem broadcast_eq (h : RepeatedAt S s s')
    (hx : Harmless p S (s, s') (LoopEvent.tick t : LoopEvent E)) (hperm : t.order.Perm s.keys) :
    s'.core.broadcast p s'.clock (s'.clock + t.moduleDt) (s'.heard p t) (s'.txEOF p t) =
      s.core.broadcast p s.clock (s.clock + t.moduleDt) (s.heard p t) (s.txEOF p t) := by
  rw [h.core, h.clock, h.heard_eq hx hperm]
  apply MixCore.broadcast_congr
  have hothers : ∀ sid, sid ≠ S → (s'.PendingEof t sid ↔ s.PendingEof t sid) := by
    intro sid hsid
    unfold PendingEof
    rw [h.others sid hsid]
  have hsame : (s'.PendingEof t S ↔ s.PendingEof t S) → s'.txEOF p t = s.txEOF p t := by
    intro hS
    rw [Bool.eq_iff_iff, txEOF_iff, txEOF_iff]
    refine exists_congr fun sid => and_congr_right fun _ => ?_
    by_cases hsid : sid = S
    · rw [hsid]
      exact hS
    · exact hothers sid hsid
  rcases h.speaker with heq | ⟨v, v', hv, hv', -⟩
  · left
    apply hsame
    unfold PendingEof
    rw [heq]
  · have hst : v.st ∈ (s.speaker S).st := by rw [hv]; rfl
    have hst' : v'.st ∈ (s'.speaker S).st := by rw [hv']; rfl
    rcases (hx hperm v.st hst v'.st hst').1 with hpending | hrep | hsilence | ⟨sid, hsid, hne, hp⟩ |
      ⟨hactive, hquiet⟩
    · left
      apply hsame
      unfold PendingEof
      rw [hv, hv']
      simp [Stream.speaker, hpending]
    · left
      apply hsame
      unfold PendingEof
      simp [hrep]
    · exact Or.inr (Or.inl hsilence)
    · left
      rw [txEOF_iff.2 ⟨sid, hsid, hp⟩, txEOF_iff.2 ⟨sid, hsid, (hothers sid hne).2 hp⟩]
    · exact Or.inr (Or.inr ⟨hactive, heard_of_quiet hquiet⟩)

/-- A harmless tick puts out the same in both states and leaves them related. -/
theorem tick (mods : ModuleSet M) (h : RepeatedAt S s s')
    (hx : Harmless p S (s, s') (LoopEvent.tick t : LoopEvent E)) (hperm : t.order.Perm s.keys) :
    (s'.tick p mods t).2 = (s.tick p mods t).2 ∧
      RepeatedAt S (s.tick p mods t).1 (s'.tick p mods t).1 := by
  have hbroadcast := h.broadcast_eq hx hperm
  obtain ⟨-, hmix⟩ := h.mix hx hperm
  have hothers : ∀ sid, sid ≠ S → (s'.speaker sid).mix p s'.clock (t.isRepeater sid) =
      (s.speaker sid).mix p s.clock (t.isRepeater sid) := by
    intro sid hsid
    rw [h.others sid hsid, h.clock]
  have hclock : s'.clock + t.moduleDt + t.cleanupDt = s.clock + t.moduleDt + t.cleanupDt := by
    rw [h.clock]
  have hkeys : ∀ sid ∈ s.keys,
      (!decide (((s'.speaker sid).mix p s'.clock (t.isRepeater sid)).1.Removed p
        (s.clock + t.moduleDt + t.cleanupDt) (t.present sid))) =
      !decide (((s.speaker sid).mix p s.clock (t.isRepeater sid)).1.Removed p
        (s.clock + t.moduleDt + t.cleanupDt) (t.present sid)) := by
    intro sid _
    by_cases hsid : sid = S
    · subst hsid
      rw [decide_eq_decide.2 hmix.removed_iff]
    · rw [hothers sid hsid]
  unfold Mixer.tick
  dsimp only
  rw [hbroadcast]
  refine ⟨rfl, ⟨hclock, ?_, rfl, fun sid hsid => ?_, ?_⟩⟩
  · show s'.keys.filter _ = s.keys.filter _
    rw [h.keys, hclock]
    exact List.filter_congr hkeys
  · show Speaker.cleanup p _ _ _ = Speaker.cleanup p _ _ _
    rw [hclock, hothers sid hsid]
  · show (Speaker.cleanup p _ _ _).Repeated (Speaker.cleanup p _ _ _)
    rw [hclock]
    exact hmix.cleanup

/-- A harmless round puts out the same in both states and leaves them related. -/
theorem step (mods : ModuleSet M) {x : LoopEvent E} (h : RepeatedAt S s s')
    (hx : Harmless p S (s, s') x) : (step p mods s' x).2 = (step p mods s x).2 ∧
      RepeatedAt S (step p mods s x).1 (step p mods s' x).1 := by
  cases x with
  | elapse dt =>
    exact ⟨rfl, ⟨congrArg (· + (dt : ℤ)) h.clock, h.keys, h.core, h.others, h.speaker⟩⟩
  | packet pkt dt =>
    have hkeys : (s'.speaker pkt.sessionID).st.isSome = (s.speaker pkt.sessionID).st.isSome := by
      by_cases hS : pkt.sessionID = S
      · rw [hS]
        exact h.speaker.isSome_eq
      · rw [h.others _ hS]
    obtain ⟨hothers, hS⟩ := h.update pkt.sessionID (·.onPacket p pkt s.clock (s.clock + dt))
      fun hS => h.speaker.onPacket (hx hS)
    unfold Mixer.step
    dsimp only
    rw [h.clock, hkeys, h.keys]
    exact ⟨rfl, ⟨rfl, rfl, h.core, hothers, hS⟩⟩
  | eof sid seq =>
    obtain ⟨hothers, hS⟩ := h.update sid (·.onEOF s.clock) fun _ => h.speaker.onEOF
    unfold Mixer.step
    dsimp only
    rw [h.clock]
    exact ⟨rfl, ⟨rfl, h.keys, h.core, hothers, hS⟩⟩
  | tick t =>
    by_cases hperm : t.order.Perm s.keys
    · have hperm' : t.order.Perm s'.keys := h.keys ▸ hperm
      obtain ⟨hout, hnext⟩ := h.tick mods hx hperm
      simp only [Mixer.step, if_pos hperm, if_pos hperm', hout]
      exact ⟨trivial, hnext⟩
    · have hperm' : ¬ t.order.Perm s'.keys := h.keys ▸ hperm
      simp only [Mixer.step, if_neg hperm, if_neg hperm']
      exact ⟨trivial, h⟩
  | dropDecoder sid =>
    obtain ⟨hothers, hS⟩ := h.update sid (fun sp => { sp with decoder := none })
      fun _ => h.speaker.dropDecoder
    exact ⟨rfl, ⟨h.clock, h.keys, h.core, hothers, hS⟩⟩
  | clearRepeaterState sid => exact ⟨rfl, ⟨h.clock, h.keys, h.core, h.others, h.speaker⟩⟩
  | restart encoder =>
    cases encoder with
    | none =>
      refine ⟨rfl, ⟨h.clock, rfl, h.core, fun sid hsid => ?_, Or.inl ?_⟩⟩
      · show ({ decoder := (s'.speaker sid).decoder } : Speaker D) =
          { decoder := (s.speaker sid).decoder }
        rw [h.others sid hsid]
      · show ({ decoder := (s'.speaker S).decoder } : Speaker D) =
          { decoder := (s.speaker S).decoder }
        rw [show (s'.speaker S).decoder = (s.speaker S).decoder from hx]
    | some encoder =>
      refine ⟨rfl, ⟨h.clock, rfl, ?_, fun sid hsid => rfl, .refl⟩⟩
      show ({ s'.core with encoder := encoder, synthSilenceRemain := 0, lastTxActive := false } :
        MixCore E M) = { s.core with
          encoder := encoder, synthSilenceRemain := 0, lastTxActive := false }
      rw [h.core]

end RepeatedAt

/-! ### After a marker -/

variable [OpusEncoder E] [AudioModule M] {mods : ModuleSet M}

theorem clock_le_step (x : LoopEvent E) : s.clock ≤ (step p mods s x).1.clock := by
  cases x with
  | elapse dt => simp [step]
  | packet pkt dt => simp [step]
  | tick t =>
    simp only [step]
    split_ifs
    · show s.clock ≤ s.clock + t.moduleDt + t.cleanupDt
      omega
    · exact le_rfl
  | restart encoder => cases encoder <;> exact le_rfl
  | _ => exact le_rfl

/-- Only a packet of `S` starts its stream again. -/
theorem ended_step {x : LoopEvent E} (h : (s.speaker S).Ended s.clock)
    (hx : ∀ pkt dt, x = .packet pkt dt → pkt.sessionID ≠ S) :
    ((step p mods s x).1.speaker S).Ended (step p mods s x).1.clock := by
  have hclock : s.clock ≤ (step p mods s x).1.clock := clock_le_step x
  have hstep := speakerStep p mods s S x
  generalize (step p mods s x).1.speaker S = sp at hstep ⊢
  refine Speaker.Ended.mono ?_ hclock
  cases hstep with
  | packet pkt dt hS => exact absurd hS (hx pkt dt rfl)
  | eof seq => exact Speaker.ended_onEOF
  | tick t hperm => exact (h.mix _).cleanup
  | dropDecoder => exact h.dropDecoder
  | restart encoder decoder => exact Speaker.ended_of_st_none rfl
  | same x hno => exact h

/-- The stream of `S` is ended from a marker to the next packet of `S`. -/
theorem ended_until_packet {seq : ℕ} {mid : List (LoopEvent E)}
    (hmid : ∀ pkt dt, LoopEvent.packet pkt dt ∈ mid → pkt.sessionID ≠ S) :
    ((after (next (step p mods)) s (.eof S seq :: mid)).speaker S).Ended
      (after (next (step p mods)) s (.eof S seq :: mid)).clock := by
  induction mid using List.reverseRecOn with
  | nil =>
    show ((step p mods s (.eof S seq)).1.speaker S).Ended s.clock
    simp only [step, Function.update_self]
    exact Speaker.ended_onEOF
  | append_singleton mid x ih =>
    rw [← List.cons_append, after_snoc]
    refine ended_step (ih fun pkt dt hpkt => hmid pkt dt (List.mem_append_left _ hpkt)) ?_
    rintro pkt dt rfl
    exact hmid pkt dt (by simp)

/-- One more marker of `S` while its mark is set. -/
theorem repeatedAt_eof {seq : ℕ} (h : (s.speaker S).Ended s.clock)
    (hmark : (s.speaker S).eofMarked = true) :
    RepeatedAt S s (step p mods s (.eof S seq)).1 := by
  refine ⟨rfl, rfl, rfl, fun sid hsid => ?_, ?_⟩
  · simp only [step, Function.update_of_ne hsid]
  · simp only [step, Function.update_self]
    exact Speaker.repeated_onEOF h hmark

/-! ### Starts and EOFs -/

/-- In this round the channel goes idle when the tick finds a marker pending, and only then; the
silence tail and a restart find it idle. -/
def OneEdge (p : MixerParams) (s : Mixer D E M) : LoopEvent E → Prop
  | .tick t => t.order.Perm s.keys →
    (0 < s.core.synthSilenceRemain → s.core.lastTxActive = false ∧ s.Quiet p t) ∧
      (s.core.synthSilenceRemain ≤ 0 → (∃ sid ∈ t.order, s.PendingEof t sid) →
        s.core.lastTxActive = true ∧ s.Quiet p t)
  | .restart (some _) => s.core.lastTxActive = false
  | _ => True

instance : ∀ x : LoopEvent E, Decidable (OneEdge p s x)
  | .tick _ => inferInstanceAs (Decidable (_ → _))
  | .restart (some _) => inferInstanceAs (Decidable (_ = _))
  | .elapse _ | .packet _ _ | .eof _ _ | .dropDecoder _ | .clearRepeaterState _ | .restart none =>
    isTrue trivial

variable (mods) in
/-- Such a round starts or ends a transmission, with one event, or does neither, with no event. -/
theorem txEvents_step {x : LoopEvent E} (hx : OneEdge p s x) :
    (txEvents (step p mods s x).2 = [] ∧
      (step p mods s x).1.core.lastTxActive = s.core.lastTxActive) ∨
    ∃ c, txEvents (step p mods s x).2 = [c] ∧ c.txStart = (!s.core.lastTxActive) ∧
      c.txEOF = s.core.lastTxActive ∧
      (step p mods s x).1.core.lastTxActive = !s.core.lastTxActive := by
  cases x with
  | tick t =>
    by_cases hperm : t.order.Perm s.keys
    · obtain ⟨hsilent, hpending⟩ := hx hperm
      obtain ⟨hactive, hcontrol⟩ := MixCore.broadcast_control p s.clock (s.clock + t.moduleDt)
        (s.heard p t) s.core (s.txEOF p t)
      have hstep : (step p mods s (.tick t)).1.core = (s.core.broadcast p s.clock
          (s.clock + t.moduleDt) (s.heard p t) (s.txEOF p t)).1 := by
        simp only [step, if_pos hperm, tick]
      have hout : (step p mods s (.tick t)).2 = [(s.core.broadcast p s.clock
          (s.clock + t.moduleDt) (s.heard p t) (s.txEOF p t)).2] := by
        simp only [step, if_pos hperm, tick]
      rw [hstep, hactive, hout]
      by_cases hsilence : 0 < s.core.synthSilenceRemain
      · obtain ⟨hidle, hquiet⟩ := hsilent hsilence
        rw [if_pos hsilence] at hcontrol
        simp only [txEvents, List.filterMap_cons, List.filterMap_nil, hcontrol]
        left
        simp [hidle, heard_of_quiet hquiet]
      · rw [if_neg hsilence] at hcontrol
        simp only [txEvents, List.filterMap_cons, List.filterMap_nil, hcontrol]
        cases heof : s.txEOF p t with
        | true =>
          obtain ⟨hlast, hquiet⟩ := hpending (not_lt.1 hsilence) (txEOF_iff.1 heof)
          simp [MixCore.account, hlast, heard_of_quiet hquiet]
        | false =>
          cases hlast : s.core.lastTxActive <;> cases hheard : (s.heard p t).isEmpty <;>
            simp [MixCore.account, hlast, hheard]
    · simp only [step, if_neg hperm]
      exact Or.inl ⟨rfl, trivial⟩
  | restart encoder =>
    left
    cases encoder with
    | none => exact ⟨rfl, rfl⟩
    | some encoder => exact ⟨rfl, Eq.symm hx⟩
  | _ => exact Or.inl ⟨rfl, rfl⟩

/-- In a run of such rounds every start is followed by exactly one EOF. -/
theorem alternates_outputs {xs : List (LoopEvent E)}
    (h : Along (next (step p mods)) (fun s x => OneEdge p s x) s xs) :
    Alternates s.core.lastTxActive (txEvents (outputs (step p mods) s xs)) := by
  induction xs generalizing s with
  | nil => trivial
  | cons x xs ih =>
    rw [outputs_cons, txEvents_append]
    have hrest := ih h.tail
    rcases txEvents_step mods h.head with ⟨hnone, hsame⟩ | ⟨c, hone, hstart, heof, hflip⟩
    · rw [hnone, List.nil_append, ← hsame]
      exact hrest
    · rw [hone, List.singleton_append]
      refine ⟨hstart, heof, ?_⟩
      rw [← hflip]
      exact hrest

/-! ### Runs -/

/-- One more marker of `S` puts out nothing, and harmless rounds after it put out the same. -/
theorem outputs_repeated_eof {seq : ℕ} {post : List (LoopEvent E)}
    (hended : (s.speaker S).Ended s.clock) (hmark : (s.speaker S).eofMarked = true)
    (hpost : Along (both (next (step p mods))) (Harmless p S)
      (s, next (step p mods) s (.eof S seq)) post) :
    outputs (step p mods) s (.eof S seq :: post) = outputs (step p mods) s post := by
  rw [outputs_cons, show (step p mods s (.eof S seq)).2 = [] from rfl, List.nil_append]
  exact outputs_eq_of_related (fun _ _ _ hrel hx => hrel.step mods hx) (repeatedAt_eof hended hmark)
    hpost

/-- One more marker of `S`, taken after the first one, before the next packet of `S` and while its
mark is set, leaves the control events of the run as they are if the rounds after it are harmless;
and if in the run without it every marker falls on the tick at which the channel goes idle, every
start is followed by exactly one EOF. -/
theorem repeated_eof_harmless {encoder : E} {pre mid post : List (LoopEvent E)} {seq seq' : ℕ}
    (hmid : ∀ pkt dt, LoopEvent.packet pkt dt ∈ mid → pkt.sessionID ≠ S)
    (hmark : ((after (next (step p mods)) (new mods encoder : Mixer D E M)
      (pre ++ .eof S seq :: mid)).speaker S).eofMarked = true)
    (hpost : Along (both (next (step p mods))) (Harmless p S)
      (after (next (step p mods)) (new mods encoder : Mixer D E M) (pre ++ .eof S seq :: mid),
        after (next (step p mods)) (new mods encoder : Mixer D E M)
          (pre ++ .eof S seq :: mid ++ [.eof S seq'])) post) :
    txEvents (outputs (step p mods) (new mods encoder : Mixer D E M)
        (pre ++ .eof S seq :: mid ++ .eof S seq' :: post)) =
      txEvents (outputs (step p mods) (new mods encoder : Mixer D E M)
        (pre ++ .eof S seq :: mid ++ post)) ∧
    (Along (next (step p mods)) (OneEdge p) (new mods encoder : Mixer D E M)
        (pre ++ .eof S seq :: mid ++ post) →
      Alternates false (txEvents (outputs (step p mods) (new mods encoder : Mixer D E M)
        (pre ++ .eof S seq :: mid ++ .eof S seq' :: post)))) := by
  have hended : ((after (next (step p mods)) (new mods encoder : Mixer D E M)
      (pre ++ .eof S seq :: mid)).speaker S).Ended (after (next (step p mods))
        (new mods encoder : Mixer D E M) (pre ++ .eof S seq :: mid)).clock := by
    rw [after_append]
    exact ended_until_packet hmid
  rw [after_snoc] at hpost
  have houtputs : outputs (step p mods) (new mods encoder : Mixer D E M)
      (pre ++ .eof S seq :: mid ++ .eof S seq' :: post) =
        outputs (step p mods) (new mods encoder : Mixer D E M)
          (pre ++ .eof S seq :: mid ++ post) := by
    rw [outputs_append, outputs_append (step p mods) _ (pre ++ .eof S seq :: mid) post,
      outputs_repeated_eof hended hmark hpost]
  refine ⟨by rw [houtputs], fun hedges => ?_⟩
  rw [houtputs]
  exact alternates_outputs hedges

theorem repeated_eof_harmless_untouched :
    let burst : List (LoopEvent SilentCodec) :=
      [packetOfOne 1, tickOfOne] ++ .eof 1 2 :: [.elapse 20000000]
    txEvents (outputs (silentStep shallowChannel) silentMixer
        (burst ++ .eof 1 2 :: [tickOfOne, tickOfOne])) =
      txEvents (outputs (silentStep shallowChannel) silentMixer (burst ++ [tickOfOne, tickOfOne])) ∧
    Alternates false (txEvents (outputs (silentStep shallowChannel) silentMixer
        (burst ++ .eof 1 2 :: [tickOfOne, tickOfOne]))) := by
  have hmid : ∀ pkt dt, LoopEvent.packet pkt dt ∈ [(.elapse 20000000 : LoopEvent SilentCodec)] →
      pkt.sessionID ≠ 1 := by simp
  have hmark : ((after (next (silentStep shallowChannel)) silentMixer
      ([packetOfOne 1, tickOfOne] ++ .eof 1 2 :: [.elapse 20000000])).speaker 1).eofMarked =
        true := by
    decide
  have hpost : Along (both (next (silentStep shallowChannel))) (Harmless shallowChannel 1)
      (after (next (silentStep shallowChannel)) silentMixer
        ([packetOfOne 1, tickOfOne] ++ .eof 1 2 :: [.elapse 20000000]),
      after (next (silentStep shallowChannel)) silentMixer
        ([packetOfOne 1, tickOfOne] ++ .eof 1 2 :: [.elapse 20000000] ++ [.eof 1 2]))
      [tickOfOne, tickOfOne] := by decide
  exact ⟨(repeated_eof_harmless hmid hmark hpost).1,
    (repeated_eof_harmless hmid hmark hpost).2 (by decide)⟩

/-- The marker is repeated after a tick has met the first one: the next tick raises a second EOF. -/
theorem repeated_eof_heard :
    let burst : List (LoopEvent SilentCodec) :=
      [packetOfOne 1, tickOfOne, .eof 1 2, .elapse 20000000, tickOfOne]
    txEvents (outputs (silentStep shallowChannel) silentMixer
        (burst ++ .eof 1 2 :: [.elapse 20000000, tickOfOne])) ≠
      txEvents (outputs (silentStep shallowChannel) silentMixer
        (burst ++ [.elapse 20000000, tickOfOne])) := by
  intro burst h
  have hlength := congrArg List.length h
  revert hlength
  decide

end Mixer

end OWalkie
