import OWalkie.Relay.EofEvents
import OWalkie.Relay.EofMarks
import OWalkie.Relay.MixerOutput

/-!
# A talker that is lost

When no packet of a session comes any more and its queue is empty, the mixer goes on with copies of
its last frame: each is at most as loud as the one before, and the last one is not later than
`eof_timeout_ms` after the last packet.
-/

namespace OWalkie

open Run

/-! ## The volume of a copy -/

namespace SpeakerStreamState

/-- The factor of a copy that is made so long after the last packet. -/
def decay (p : MixerParams) (since : ℤ) (missCount : ℕ) : ℚ :=
  let decay := p.concealDecay ^ (missCount + 1)
  let decay := if p.hangoverDur < since then decay * (8 / 10) ^ (missCount + 1) else decay
  min (max decay 0) 1

theorem conceal_snd (p : MixerParams) (now : ℤ) (st : SpeakerStreamState) :
    (st.conceal p now).2 = st.lastPCM.map fun x : ℤ =>
      toInt16 ((x : ℚ) * decay p (sub now st.lastPacketAt) st.missCount) := by
  have hcast : ∀ xs : List ℤ, (do let x ← xs; pure (x : ℚ)) = xs.map fun x : ℤ => (x : ℚ) := by
    intro xs
    induction xs with
    | nil => rfl
    | cons x xs ih => exact congrArg ((x : ℚ) :: ·) ih
  unfold conceal decay
  dsimp only
  rw [hcast, List.map_map]
  rfl

theorem decay_nonneg (p : MixerParams) (since : ℤ) (k : ℕ) : 0 ≤ decay p since k :=
  le_min (le_max_right _ 0) zero_le_one

theorem decay_le_one (p : MixerParams) (since : ℤ) (k : ℕ) : decay p since k ≤ 1 := min_le_right _ 1

/-- The factor goes down with the number of the copy and with the time. -/
theorem decay_le_decay {p : MixerParams} (hpos : 0 < p.concealDecay) (hle : p.concealDecay ≤ 1)
    {since since' : ℤ} (hsince : since ≤ since') {k k' : ℕ} (hk : k ≤ k') :
    decay p since' k' ≤ decay p since k := by
  have hfast : (8 / 10 : ℚ) ^ (k' + 1) ≤ (8 / 10) ^ (k + 1) :=
    pow_le_pow_of_le_one (by norm_num) (by norm_num) (by omega)
  have hslow : p.concealDecay ^ (k' + 1) ≤ p.concealDecay ^ (k + 1) :=
    pow_le_pow_of_le_one hpos.le hle (by omega)
  have hfast_le : (8 / 10 : ℚ) ^ (k' + 1) ≤ 1 := pow_le_one₀ (by norm_num) (by norm_num)
  have hnonneg : 0 ≤ p.concealDecay ^ (k + 1) := by positivity
  refine min_le_min_right 1 (max_le_max_right 0 ?_)
  split_ifs with h h'
  · exact mul_le_mul hslow hfast (by positivity) hnonneg
  · calc p.concealDecay ^ (k' + 1) * (8 / 10) ^ (k' + 1)
        ≤ p.concealDecay ^ (k + 1) * 1 := mul_le_mul hslow hfast_le (by positivity) hnonneg
      _ = p.concealDecay ^ (k + 1) := mul_one _
  · omega
  · exact hslow

@[simp] theorem adaptJitterOnTick_lastPCM (st : SpeakerStreamState) (fresh usedConceal : Bool)
    (floor ceil : ℤ) : (st.adaptJitterOnTick fresh usedConceal floor ceil).lastPCM = st.lastPCM := by
  obtain ⟨j, streak, ticks, h⟩ := st.adaptJitterOnTick_eq fresh usedConceal floor ceil
  rw [h]

@[simp] theorem adaptJitterOnTick_missCount (st : SpeakerStreamState) (fresh usedConceal : Bool)
    (floor ceil : ℤ) :
    (st.adaptJitterOnTick fresh usedConceal floor ceil).missCount = st.missCount := by
  obtain ⟨j, streak, ticks, h⟩ := st.adaptJitterOnTick_eq fresh usedConceal floor ceil
  rw [h]

end SpeakerStreamState

theorem abs_toInt16 (v : ℚ) : |toInt16 v| = ⌊|v|⌋ := by
  rcases le_total 0 v with hv | hv
  · rw [abs_of_nonneg hv, toInt16_eq_floor hv, abs_of_nonneg (Int.floor_nonneg.2 hv)]
  · have hneg := neg_nonneg.2 hv
    rw [abs_of_nonpos hv, ← abs_neg, ← toInt16_neg, toInt16_eq_floor hneg,
      abs_of_nonneg (Int.floor_nonneg.2 hneg)]

/-- A copy with a smaller factor is not louder. -/
theorem abs_toInt16_mul_le (x : ℤ) {c c' : ℚ} (hc' : 0 ≤ c') (h : c' ≤ c) :
    |toInt16 (x * c')| ≤ |toInt16 (x * c)| := by
  rw [abs_toInt16, abs_toInt16]
  refine Int.floor_le_floor ?_
  rw [abs_mul, abs_mul, abs_of_nonneg hc', abs_of_nonneg (hc'.trans h)]
  exact mul_le_mul_of_nonneg_left h (abs_nonneg _)

/-! ## One tick -/

theorem SpeakerJitterBuffer.keptByTicks_empty :
    KeptByTicks fun b => b.pendingCount = 0 where
  pop h := pendingCount_pop_of_empty h
  forceStart h := by rwa [forceStartFromMinSeq_of_empty h]
  clamp n floor ceil h := by
    have hnone : (SpeakerJitterBuffer.setMinStartClamped _ n floor ceil).AllBuffered
        fun _ _ => False := AllBuffered.setMinStartClamped (AllBuffered.of_pendingCount h) _ _ _
    refine pendingCount_eq_zero_iff.2 fun q hq => ?_
    obtain ⟨pkt, hpkt⟩ := Finmap.mem_iff.1 hq
    exact hnone q pkt hpkt

/-- What a stream state without packets may become: its last frame is copied again or dropped. -/
structure SpeakerStreamState.Lost (st st' : SpeakerStreamState) : Prop where
  empty : st'.jitter.pendingCount = 0
  lastPacketAt : st'.lastPacketAt = st.lastPacketAt
  lastPCM : st'.lastPCM = [] ∨ st'.lastPCM = st.lastPCM ∧ st.missCount ≤ st'.missCount

/-- A copy of the last frame that may be heard at `now`, with the number of the copy. -/
structure SpeakerStreamState.Copy (p : MixerParams) (st : SpeakerStreamState) (k : ℕ) (now : ℤ)
    (pcm : List ℤ) : Prop where
  ne_nil : st.lastPCM ≠ []
  le : st.missCount ≤ k
  intime : sub now st.lastPacketAt ≤ p.eofTimeoutDur
  copy : pcm = st.lastPCM.map fun x : ℤ =>
    toInt16 ((x : ℚ) * decay p (sub now st.lastPacketAt) k)

namespace SpeakerStreamState

variable {p : MixerParams} {now : ℤ} {st st' st'' : SpeakerStreamState}

theorem Lost.trans (h : st.Lost st') (h' : st'.Lost st'') : st.Lost st'' := by
  refine ⟨h'.empty, h'.lastPacketAt.trans h.lastPacketAt, ?_⟩
  rcases h'.lastPCM with hnil | ⟨heq', hle'⟩
  · exact Or.inl hnil
  · rcases h.lastPCM with hnil | ⟨heq, hle⟩
    · exact Or.inl (heq'.trans hnil)
    · exact Or.inr ⟨heq'.trans heq, hle.trans hle'⟩

theorem Copy.of_lost {k : ℕ} {pcm : List ℤ} (h : st.Lost st') (hcopy : st'.Copy p k now pcm) :
    st.Copy p k now pcm := by
  obtain ⟨hne, hle, hintime, heq⟩ := hcopy
  rcases h.lastPCM with hnil | ⟨hpcm, hmiss⟩
  · exact absurd hnil hne
  · rw [h.lastPacketAt] at hintime heq
    exact ⟨hpcm ▸ hne, hmiss.trans hle, hintime, hpcm ▸ heq⟩

theorem Copy.abs_getD {k : ℕ} {pcm : List ℤ} (h : st.Copy p k now pcm) (i : ℕ) :
    |pcm.getD i 0| = |toInt16 (st.lastPCM.getD i 0 * decay p (sub now st.lastPacketAt) k)| := by
  rw [h.copy, List.getD_eq_getElem?_getD, List.getD_eq_getElem?_getD, List.getElem?_map]
  cases st.lastPCM[i]? with
  | none => simp [toInt16]
  | some x => rfl

/-- A copy is not louder than the frame. -/
theorem Copy.abs_le {k : ℕ} {pcm : List ℤ} (h : st.Copy p k now pcm) (i : ℕ) :
    |pcm.getD i 0| ≤ |st.lastPCM.getD i 0| := by
  rw [h.abs_getD]
  have hle := abs_toInt16_mul_le (st.lastPCM.getD i 0) (decay_nonneg p (sub now st.lastPacketAt) k)
    (decay_le_one p (sub now st.lastPacketAt) k)
  have hone : toInt16 ((st.lastPCM.getD i 0 : ℤ) * (1 : ℚ)) = st.lastPCM.getD i 0 := by
    rw [mul_one, toInt16, Rat.num_intCast, Rat.den_intCast]
    simp
  rwa [hone] at hle

/-- Nor than an earlier copy. -/
theorem Copy.abs_le_abs {k k' : ℕ} {now' : ℤ} {pcm pcm' : List ℤ} (hpos : 0 < p.concealDecay)
    (hle : p.concealDecay ≤ 1) (h : st.Copy p k now pcm) (h' : st.Copy p k' now' pcm') (hk : k ≤ k')
    (hnow : now ≤ now') (i : ℕ) : |pcm'.getD i 0| ≤ |pcm.getD i 0| := by
  rw [h.abs_getD, h'.abs_getD]
  refine abs_toInt16_mul_le _ (decay_nonneg p _ k') (decay_le_decay hpos hle ?_ hk)
  cases st.lastPacketAt with
  | none => exact le_rfl
  | some t =>
    rw [sub_some, sub_some]
    omega

end SpeakerStreamState

namespace Stream

variable {D : Type} {p : MixerParams} {now : ℤ} {v : Stream D}

theorem finish_lost (h : v.st.jitter.pendingCount = 0) :
    v.st.Lost (v.finish p now none).1.st := by
  refine ⟨SpeakerJitterBuffer.keptByTicks_empty.finish none h, ?_, Or.inr ⟨?_, ?_⟩⟩ <;>
    simp only [finish] <;> split_ifs <;> simp [SpeakerStreamState.conceal]

theorem finish_copy : ∀ f ∈ (v.finish p now none).2,
    f.1 = (v.st.conceal p now).2 ∧ v.Conceals p now := by
  intro f hf
  obtain ⟨pcm, hpcm, rfl⟩ := Option.map_eq_some_iff.1 hf
  dsimp only at hpcm
  split_ifs at hpcm with hconceals
  · exact ⟨(Option.some.inj hpcm).symm, hconceals⟩

/-- A tick on a stream without packets. -/
theorem mix_lost [OpusDecoder D] (h : v.st.jitter.pendingCount = 0) (isRepeater : Bool) :
    v.st.Lost (v.mix p now isRepeater).1.st ∧
      ∀ f ∈ (v.mix p now isRepeater).2.frame, v.st.Copy p v.st.missCount now f.1 := by
  have hpulled : v.st.Lost (v.pull p now).1.st ∧ (v.pull p now).2 = none ∧
      ((v.pull p now).1.st.lastPCM ≠ [] → (v.pull p now).1.st.missCount = v.st.missCount) := by
    rw [pull_of_empty p now h]
    have hempty := SpeakerJitterBuffer.pendingCount_pop_of_empty h
    split_ifs
    · exact ⟨⟨hempty, rfl, Or.inl rfl⟩, rfl, fun hne => (hne rfl).elim⟩
    · exact ⟨⟨hempty, rfl, Or.inr ⟨rfl, le_rfl⟩⟩, rfl, fun _ => rfl⟩
  obtain ⟨hlost, hnone, hmiss⟩ := hpulled
  unfold mix
  dsimp only
  rw [hnone]
  split
  · exact ⟨hlost, fun _ hf => (Option.not_mem_none _ hf).elim⟩
  · next dec _ =>
    dsimp only [decode]
    generalize (v.pull p now).1 = w at hlost hmiss
    refine ⟨hlost.trans (finish_lost (v := { w with decoder := some dec }) hlost.empty), ?_⟩
    intro f hf
    obtain ⟨hcopy, hconceals⟩ := finish_copy f hf
    obtain ⟨-, hintime, hne⟩ := hconceals
    have hpcm : w.st.lastPCM = v.st.lastPCM := by
      rcases hlost.lastPCM with hnil | ⟨heq, -⟩
      · exact absurd hnil hne
      · exact heq
    refine ⟨hpcm ▸ hne, le_rfl, hlost.lastPacketAt ▸ hintime, ?_⟩
    rw [hcopy, SpeakerStreamState.conceal_snd, hlost.lastPacketAt, hmiss hne, hpcm]

end Stream

/-! ## A run -/

namespace Mixer

variable {D E M : Type} [OpusDecoder D] [OpusEncoder E] [AudioModule M] {p : MixerParams}
  {mods : ModuleSet M} {S : SessionID} {s : Mixer D E M}

/-- A round of the loop, with the frame that it has for the session and the time. -/
def frameStep (p : MixerParams) (mods : ModuleSet M) (S : SessionID) (s : Mixer D E M)
    (e : LoopEvent E) : Mixer D E M × List (ℤ × List ℤ) :=
  ((step p mods s e).1,
    match e with
    | .tick t =>
      if t.order.Perm s.keys then
        (s.speakerTick p t S).frame.toList.map fun f => (s.clock, f.1)
      else []
    | _ => [])

/-- The round takes no packet of the session. -/
def NoPacketOf (S : SessionID) : LoopEvent E → Prop
  | .packet pkt _ => pkt.sessionID ≠ S
  | _ => True

/-- The queue of the session is empty. -/
def QueueEmpty (s : Mixer D E M) (S : SessionID) : Prop :=
  ∀ st ∈ (s.speaker S).st, st.jitter.pendingCount = 0

/-- What a round without a packet of the session makes of its stream state. -/
theorem QueueEmpty.lost (h : s.QueueEmpty S) {e : LoopEvent E} (he : NoPacketOf S e) :
    ∀ st' ∈ ((step p mods s e).1.speaker S).st, ∃ st ∈ (s.speaker S).st, st.Lost st' := by
  intro st' hst'
  have hstep := speakerStep p mods s S e
  generalize (step p mods s e).1.speaker S = sp at hstep hst'
  have hsame : ∀ st ∈ (s.speaker S).st, st.Lost st := fun st hst =>
    ⟨h st hst, rfl, Or.inr ⟨rfl, le_rfl⟩⟩
  cases hstep with
  | packet pkt dt hS => exact absurd hS he
  | eof seq =>
    obtain ⟨st, hst, rfl⟩ := Option.map_eq_some_iff.1 hst'
    refine ⟨st, hst, ?_, rfl, Or.inr ⟨rfl, le_rfl⟩⟩
    exact SpeakerJitterBuffer.keptByTicks_empty.forceStart (h st hst)
  | tick t hperm =>
    have hst'' : st' ∈ ((s.speaker S).mix p s.clock (t.isRepeater S)).1.st := by
      unfold Speaker.cleanup at hst'
      split_ifs at hst'
      · exact (Option.not_mem_none _ hst').elim
      · exact hst'
    unfold Speaker.mix at hst''
    split at hst''
    · next hnone => rw [hnone] at hst''; exact (Option.not_mem_none _ hst'').elim
    · next st hst =>
      refine ⟨st, hst, ?_⟩
      rw [← Option.some.inj hst'']
      exact (Stream.mix_lost (v := ⟨st, (s.speaker S).eofMarked, (s.speaker S).decoder⟩)
        (h st hst) _).1
  | dropDecoder => exact ⟨st', hst', hsame st' hst'⟩
  | restart encoder decoder => exact (Option.not_mem_none _ hst').elim
  | same x hno => exact ⟨st', hst', hsame st' hst'⟩

theorem QueueEmpty.step (h : s.QueueEmpty S) {e : LoopEvent E} (he : NoPacketOf S e) :
    (Mixer.step p mods s e).1.QueueEmpty S := by
  intro st' hst'
  obtain ⟨st, -, hlost⟩ := h.lost he st' hst'
  exact hlost.empty

/-- The frame that a round has for the session. -/
theorem QueueEmpty.copy (h : s.QueueEmpty S) (e : LoopEvent E) :
    ∀ f ∈ (frameStep p mods S s e).2, f.1 = s.clock ∧
      ∃ st ∈ (s.speaker S).st, st.Copy p st.missCount f.1 f.2 := by
  intro f hf
  cases e with
  | tick t =>
    simp only [frameStep] at hf
    split_ifs at hf
    · obtain ⟨frame, hframe, rfl⟩ := List.mem_map.1 hf
      rw [Option.mem_toList] at hframe
      refine ⟨rfl, ?_⟩
      unfold speakerTick Speaker.mix at hframe
      split at hframe
      · exact (Option.not_mem_none _ hframe).elim
      · next st hst =>
        exact ⟨st, hst, (Stream.mix_lost
          (v := ⟨st, (s.speaker S).eofMarked, (s.speaker S).decoder⟩) (h st hst) _).2 frame hframe⟩
    · exact absurd hf List.not_mem_nil
  | _ => exact absurd hf List.not_mem_nil

/-- The frames of a run without a packet of the session. -/
theorem QueueEmpty.copies (h : s.QueueEmpty S) {es : List (LoopEvent E)}
    (hes : ∀ e ∈ es, NoPacketOf S e) :
    ∀ f ∈ outputs (frameStep p mods S) s es, s.clock ≤ f.1 ∧
      ∃ st ∈ (s.speaker S).st, ∃ k, st.Copy p k f.1 f.2 := by
  induction es generalizing s with
  | nil => exact fun f hf => absurd hf List.not_mem_nil
  | cons e es ih =>
    obtain ⟨he, hrest⟩ := List.forall_mem_cons.1 hes
    intro f hf
    rw [outputs_cons, List.mem_append] at hf
    rcases hf with hf | hf
    · obtain ⟨hclock, st, hst, hcopy⟩ := h.copy e f hf
      exact ⟨hclock.ge, st, hst, _, hcopy⟩
    · obtain ⟨hclock, st', hst', k, hcopy⟩ := ih (h.step he) hrest f hf
      obtain ⟨st, hst, hlost⟩ := h.lost he st' hst'
      exact ⟨(clock_le_step e).trans hclock, st, hst, k, hcopy.of_lost hlost⟩

/-- Copies of one talker's last frame get no louder. -/
theorem QueueEmpty.pairwise (hpos : 0 < p.concealDecay) (hle : p.concealDecay ≤ 1)
    (h : s.QueueEmpty S) {es : List (LoopEvent E)} (hes : ∀ e ∈ es, NoPacketOf S e) :
    (outputs (frameStep p mods S) s es).Pairwise
      fun f g => ∀ i, |g.2.getD i 0| ≤ |f.2.getD i 0| := by
  induction es generalizing s with
  | nil => exact List.Pairwise.nil
  | cons e es ih =>
    obtain ⟨he, hrest⟩ := List.forall_mem_cons.1 hes
    rw [outputs_cons, List.pairwise_append]
    refine ⟨?_, ih (h.step he) hrest, ?_⟩
    · unfold frameStep
      cases e with
      | tick t =>
        dsimp only
        split_ifs
        · cases (s.speakerTick p t S).frame <;> simp
        · exact List.Pairwise.nil
      | _ => exact List.Pairwise.nil
    · intro f hf g hg i
      obtain ⟨hf_clock, st, hst, hf_copy⟩ := h.copy e f hf
      obtain ⟨hg_clock, st', hst', k, hg_copy⟩ := (h.step he).copies hrest g hg
      obtain ⟨st'', hst'', hlost⟩ := h.lost he st' hst'
      obtain rfl : st'' = st := Option.some.inj (hst''.symm.trans hst)
      have hg_copy := hg_copy.of_lost hlost
      have hclock : f.1 ≤ g.1 := hf_clock.le.trans ((clock_le_step e).trans hg_clock)
      exact hf_copy.abs_le_abs hpos hle hg_copy hg_copy.le hclock i

end Mixer

open Mixer in
/-- A talker from whom no packet comes any more fades out: the copies of its last frame get no
louder, and none is heard later than `eof_timeout_ms` after its last packet. -/
theorem lost_talker_fades {D E M : Type} [OpusDecoder D] [OpusEncoder E] [AudioModule M]
    (p : MixerParams) (hpos : 0 < p.concealDecay) (hle : p.concealDecay ≤ 1) (mods : ModuleSet M)
    (S : SessionID) (s : Mixer D E M) (hempty : s.QueueEmpty S) (es : List (LoopEvent E))
    (hes : ∀ e ∈ es, NoPacketOf S e) :
    (outputs (frameStep p mods S) s es).Pairwise
        (fun f g => ∀ i, |g.2.getD i 0| ≤ |f.2.getD i 0|) ∧
      ∀ f ∈ outputs (frameStep p mods S) s es, ∃ st ∈ (s.speaker S).st,
        sub f.1 st.lastPacketAt ≤ p.eofTimeoutDur ∧
          ∀ i, |f.2.getD i 0| ≤ |st.lastPCM.getD i 0| := by
  refine ⟨hempty.pairwise hpos hle hes, fun f hf => ?_⟩
  obtain ⟨-, st, hst, k, hcopy⟩ := hempty.copies hes f hf
  exact ⟨st, hst, hcopy.intime, hcopy.abs_le⟩

open Mixer in
theorem lost_talker_fades_after_one :
    (outputs (frameStep shallowChannel noModules 1)
      (after (next (silentStep shallowChannel)) silentMixer [packetOfOne 1, tickOfOne])
      [tickOfOne, .elapse 20000000, tickOfOne]).Pairwise
        fun f g => ∀ i, |g.2.getD i 0| ≤ |f.2.getD i 0| := by
  have hempty : QueueEmpty (after (next (silentStep shallowChannel)) silentMixer
      [packetOfOne 1, tickOfOne]) 1 := by
    unfold QueueEmpty
    decide
  have hquiet : ∀ e ∈ [tickOfOne, .elapse 20000000, tickOfOne], NoPacketOf 1 e := by
    simp [NoPacketOf, tickOfOne]
  have hfades := lost_talker_fades shallowChannel
    (by norm_num [shallowChannel, ServerConfig.params])
    (by norm_num [shallowChannel, ServerConfig.params]) noModules 1 _ hempty _ hquiet
  exact hfades.1

end OWalkie
