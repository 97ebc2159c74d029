import OWalkie.Relay.DecoderFlush

/-!
# One more EOF marker

What one session keeps when the loop takes an EOF marker again.  After a marker and until the next
packet a stream is `Ended`: its flush is due, or it has been flushed and plays nothing.  `Repeated`
relates a stream to the same stream with one more marker, and `Repeated.mix` says that a tick treats
the two alike apart from `txEOF`, unless it flushes only the first one after its mark was cleared.
-/

namespace OWalkie

/-! ## The stream state -/

namespace SpeakerStreamState

variable {p : MixerParams} {now : ℤ} {t : Option ℤ} {pending : Bool} {st : SpeakerStreamState}

/-- The fields that a marker sets, apart from the forced start. -/
def rearm (t : Option ℤ) (pending : Bool) (st : SpeakerStreamState) : SpeakerStreamState :=
  { st with decoderFlushPending := true, eofAt := t, txEOFPending := pending }

theorem adaptJitterOnTick_rearm (fresh usedConceal : Bool) (floor ceil : ℤ) :
    (st.rearm t pending).adaptJitterOnTick fresh usedConceal floor ceil =
      (st.adaptJitterOnTick fresh usedConceal floor ceil).rearm t pending := by
  unfold adaptJitterOnTick rearm
  dsimp only
  split_ifs <;> rfl

/-- The quiet time after a later marker is over only when that after the earlier one is. -/
theorem flushDue_of_rearm {j : SpeakerJitterBuffer} (hpending : st.decoderFlushPending = true)
    (hj : st.jitter.Alike j) (ht : ∀ t₀ ∈ st.eofAt, ∃ t₁ ∈ t, t₀ ≤ t₁)
    (h : ({ st.rearm t pending with jitter := j } : SpeakerStreamState).FlushDue p now) :
    st.FlushDue p now := by
  obtain ⟨-, hcount, hover⟩ := h
  refine ⟨hpending, hj.pendingCount ▸ hcount, ?_⟩
  rintro ⟨hsome, hquiet⟩
  obtain ⟨t₀, hat⟩ := Option.isSome_iff_exists.1 hsome
  obtain ⟨t₁, ht₁, hle⟩ := ht t₀ hat
  apply hover
  rw [Option.mem_def] at ht₁
  subst ht₁
  refine ⟨rfl, ?_⟩
  show now - t₁ < 5 * p.packetDur
  rw [hat, sub_some] at hquiet
  omega

end SpeakerStreamState

namespace Stream

variable {D : Type} {p : MixerParams} {now : ℤ} {t : Option ℤ} {pending : Bool} {v : Stream D}

/-- `rearm` on the state of the stream. -/
def rearm (t : Option ℤ) (pending : Bool) (v : Stream D) : Stream D :=
  { v with st := v.st.rearm t pending }

/-- The stream with one more marker, which has forced the start of its queue to `j`. -/
def again (j : SpeakerJitterBuffer) (t : Option ℤ) (pending : Bool) (v : Stream D) : Stream D :=
  { v with st := { v.st.rearm t pending with jitter := j } }

/-- The stream with one more marker and with the decoder, last frame and miss count that a flush
without the marker has dropped. -/
def unflushed (pcm : List ℤ) (n : ℕ) (t : Option ℤ) (pending : Bool) (dec : Option D)
    (v : Stream D) : Stream D :=
  { v with
    st := { v.st.rearm t pending with lastPCM := pcm, missCount := n }
    decoder := dec }

/-! ## The parts of an iteration -/

theorem pull_of_not_flushDue (h : ¬ v.st.FlushDue p now) : v.pull p now =
    ({ v with st := { v.st with
        txEOFPending := false, jitter := (v.st.forceStartPaused p now).jitter.pop.2 } },
      (v.st.forceStartPaused p now).jitter.pop.1) := by
  have hstay : ({ v with st := { v.st with txEOFPending := false } } :
      Stream D).maybeFlushDecoderAfterEOF p now =
        { v with st := { v.st with txEOFPending := false } } := if_neg h
  unfold pull
  dsimp only
  rw [hstay]
  unfold SpeakerStreamState.forceStartPaused
  split_ifs <;> rfl

/-- A tick that flushes neither stream pulls the same packet from both. -/
theorem pull_rearm {j : SpeakerJitterBuffer} (hj : v.st.jitter.Alike j)
    (h : ¬ v.st.FlushDue p now)
    (h' : ¬ (v.again j t pending).st.FlushDue p now) :
    (v.again j t pending).pull p now =
      ((v.pull p now).1.rearm t false, (v.pull p now).2) := by
  have hpop : ((v.again j t pending).st.forceStartPaused p now).jitter.pop =
      (v.st.forceStartPaused p now).jitter.pop := by
    unfold again SpeakerStreamState.forceStartPaused SpeakerJitterBuffer.isStarted
    dsimp only
    rw [hj.pendingCount, hj.started]
    by_cases hc : 0 < v.st.jitter.pendingCount ∧ v.st.jitter.started = false ∧
        p.packetDur < sub now v.st.lastPacketAt
    · have hc' : 0 < v.st.jitter.pendingCount ∧ v.st.jitter.started = false ∧
          p.packetDur < sub now (v.st.rearm t pending).lastPacketAt := hc
      rw [if_pos hc, if_pos hc', hj.forceStart]
    · have hc' : ¬ (0 < v.st.jitter.pendingCount ∧ v.st.jitter.started = false ∧
          p.packetDur < sub now (v.st.rearm t pending).lastPacketAt) := hc
      rw [if_neg hc, if_neg hc']
      exact hj.pop
  rw [pull_of_not_flushDue h, pull_of_not_flushDue h']
  simp only [hpop]
  rfl

theorem finish_rearm (frame : Option (List ℤ)) :
    (v.rearm t false).finish p now frame =
      ((v.finish p now frame).1.rearm t false, (v.finish p now frame).2) := by
  have hadapt : ∀ (w : Stream D) (fresh usedConceal : Bool),
      (if p.jitterAdaptEnabled && !(w.rearm t false).eofMarked then
        { w.rearm t false with
          st := (w.rearm t false).st.adaptJitterOnTick fresh usedConceal p.jitterMinPackets
            p.jitterMaxPackets }
      else w.rearm t false) =
        (if p.jitterAdaptEnabled && !w.eofMarked then
          { w with
            st := w.st.adaptJitterOnTick fresh usedConceal p.jitterMinPackets p.jitterMaxPackets }
        else w).rearm t false := by
    intro w fresh usedConceal
    cases hc : p.jitterAdaptEnabled && !w.eofMarked with
    | false => simp only [show (w.rearm t false).eofMarked = w.eofMarked from rfl, hc,
        Bool.false_eq_true, if_false]
    | true =>
      simp only [show (w.rearm t false).eofMarked = w.eofMarked from rfl, hc, if_true,
        show (w.rearm t false).st = w.st.rearm t false from rfl,
        SpeakerStreamState.adaptJitterOnTick_rearm]
      rfl
  have hgap : (if frame.isSome then v.rearm t false
      else if v.Conceals p now then
        { v.rearm t false with st := ((v.rearm t false).st.conceal p now).1 }
      else if p.eofTimeoutDur < sub now v.st.lastPacketAt then
        { v.rearm t false with eofMarked := true }
      else v.rearm t false) =
        (if frame.isSome then v
        else if v.Conceals p now then { v with st := (v.st.conceal p now).1 }
        else if p.eofTimeoutDur < sub now v.st.lastPacketAt then { v with eofMarked := true }
        else v).rearm t false := by
    split_ifs <;> rfl
  refine Prod.ext ?_ rfl
  refine Eq.trans ?_ (hadapt _ _ _)
  rw [← hgap]
  rfl

/-- The end of an iteration leaves a marked stream as it is. -/
theorem finish_of_marked (frame : Option (List ℤ)) (h : v.eofMarked = true) :
    v.finish p now frame = (v, frame.map fun frame => (frame, v.st.lastSignal)) := by
  have hconceals : ¬ v.Conceals p now := by
    rintro ⟨hmark, -⟩
    rw [h] at hmark
    cases hmark
  have hset : ({ v with eofMarked := true } : Stream D) = v := by rw [← h]
  unfold finish
  simp only [if_neg hconceals, hset, ite_self, h, Bool.not_true, Bool.and_false,
    Bool.false_eq_true, if_false]
  cases frame <;> rfl

variable (p now) in
theorem pull_of_empty (h : v.st.jitter.pendingCount = 0) : v.pull p now =
    (if v.st.FlushDue p now then
      { v with
        st := { v.st.flush with txEOFPending := false, jitter := v.st.jitter.pop.2 }
        decoder := none }
    else { v with st := { v.st with txEOFPending := false, jitter := v.st.jitter.pop.2 } },
      none) := by
  have hstart : ∀ st : SpeakerStreamState, st.jitter = v.st.jitter →
      st.forceStartPaused p now = st := by
    intro st hst
    refine if_neg ?_
    rw [hst, h]
    simp
  have hpop : v.st.jitter.pop.1 = none := by rw [SpeakerJitterBuffer.pop_of_empty h]
  by_cases hflush : v.st.FlushDue p now
  · have hflushed : ({ v with st := { v.st with txEOFPending := false } } :
        Stream D).maybeFlushDecoderAfterEOF p now =
          { v with st := { v.st.flush with txEOFPending := false }, decoder := none } :=
      if_pos hflush
    unfold pull
    dsimp only
    rw [hflushed, if_pos hflush]
    dsimp only
    rw [hstart { v.st.flush with txEOFPending := false } rfl]
    exact Prod.ext rfl hpop
  · rw [pull_of_not_flushDue hflush, if_neg hflush, hstart v.st rfl, hpop]

theorem finish_eofAt (frame : Option (List ℤ)) :
    (v.finish p now frame).1.st.eofAt = v.st.eofAt := by
  unfold finish
  dsimp only
  split_ifs <;> simp [SpeakerStreamState.conceal]

variable [OpusDecoder D]

theorem decode_rearm (dec : D) (pkt : Option AudioPacket) :
    (v.rearm t false).decode p now dec pkt =
      ((v.decode p now dec pkt).1.rearm t false, (v.decode p now dec pkt).2) := by
  unfold decode
  cases pkt with
  | none => rfl
  | some pkt =>
    dsimp only
    split <;> rfl

theorem mix_txEOF (isRepeater : Bool) :
    (v.mix p now isRepeater).2.txEOF = (v.st.txEOFPending && !isRepeater) := by
  unfold mix
  dsimp only
  split <;> rfl

/-- A tick that flushes neither stream treats them alike. -/
theorem mix_rearm {j : SpeakerJitterBuffer} (isRepeater : Bool) (hj : v.st.jitter.Alike j)
    (h : ¬ v.st.FlushDue p now)
    (h' : ¬ (v.again j t pending).st.FlushDue p now) :
    ((v.again j t pending).mix p now isRepeater).1 = (v.mix p now isRepeater).1.rearm t false ∧
      ((v.again j t pending).mix p now isRepeater).2.frame =
        (v.mix p now isRepeater).2.frame := by
  unfold mix
  dsimp only
  rw [pull_rearm hj h h']
  dsimp only
  have hdecoder : ((v.pull p now).1.rearm t false).decoder = (v.pull p now).1.decoder := rfl
  rw [hdecoder]
  cases (v.pull p now).1.decoder.orElse fun _ => OpusDecoder.newDecoder with
  | none => exact ⟨rfl, rfl⟩
  | some dec =>
    dsimp only
    rw [decode_rearm, finish_rearm]
    exact ⟨rfl, rfl⟩

theorem mix_congr {v' : Stream D} (isRepeater : Bool) (h : v'.pull p now = v.pull p now) :
    (v'.mix p now isRepeater).1 = (v.mix p now isRepeater).1 ∧
      (v'.mix p now isRepeater).2.frame = (v.mix p now isRepeater).2.frame := by
  unfold mix
  dsimp only
  rw [h]
  cases (v.pull p now).1.decoder.orElse fun _ => OpusDecoder.newDecoder <;> exact ⟨rfl, rfl⟩

/-! ## Streams with an empty queue -/

/-- What a tick makes of a marked stream whose queue is empty. -/
def idle (p : MixerParams) (now : ℤ) (v : Stream D) : Stream D where
  st := { (if v.st.FlushDue p now then v.st.flush else v.st) with
    txEOFPending := false, jitter := v.st.jitter.pop.2 }
  eofMarked := true
  decoder :=
    (if v.st.FlushDue p now then none else v.decoder).orElse fun _ => OpusDecoder.newDecoder

/-- A marked stream that pulls no packet only looks its decoder up. -/
theorem mix_of_pull_none (isRepeater : Bool) (hpull : (v.pull p now).2 = none)
    (hmark : v.eofMarked = true) :
    (v.mix p now isRepeater).1 = { (v.pull p now).1 with
        decoder := (v.pull p now).1.decoder.orElse fun _ => OpusDecoder.newDecoder } ∧
      (v.mix p now isRepeater).2.frame = none := by
  have hmark' : (v.pull p now).1.eofMarked = true := (pull_eofMarked v).trans hmark
  unfold mix
  dsimp only
  rw [hpull]
  generalize (v.pull p now).1 = w at hmark'
  cases hdec : w.decoder.orElse fun _ => OpusDecoder.newDecoder with
  | none =>
    have hnone : w.decoder = none := by
      cases hw : w.decoder with
      | none => rfl
      | some dec => rw [hw] at hdec; cases hdec
    refine ⟨?_, rfl⟩
    show w = { w with decoder := none }
    rw [← hnone]
  | some dec =>
    dsimp only [decode]
    rw [finish_of_marked none (v := { w with decoder := some dec }) hmark']
    exact ⟨rfl, rfl⟩

variable (p now) in
theorem mix_of_empty (isRepeater : Bool) (hcount : v.st.jitter.pendingCount = 0)
    (hmark : v.eofMarked = true) :
    (v.mix p now isRepeater).1 = v.idle p now ∧ (v.mix p now isRepeater).2.frame = none := by
  have hpull := pull_of_empty p now hcount
  obtain ⟨hmix, hframe⟩ := mix_of_pull_none isRepeater (by rw [hpull]) hmark
  refine ⟨hmix.trans ?_, hframe⟩
  rw [hpull]
  unfold idle
  split_ifs <;> rw [← hmark]

/-- A marked stream keeps its mark, and after the pull its queue. -/
theorem mix_of_marked (isRepeater : Bool) (hmark : v.eofMarked = true) :
    (v.mix p now isRepeater).1.eofMarked = true ∧
      (v.mix p now isRepeater).1.st.jitter = (v.pull p now).1.st.jitter := by
  have hmark' : (v.pull p now).1.eofMarked = true := (pull_eofMarked v).trans hmark
  unfold mix
  dsimp only
  generalize (v.pull p now).1 = w at hmark' ⊢
  generalize (v.pull p now).2 = pkt
  cases w.decoder.orElse fun _ => OpusDecoder.newDecoder with
  | none => exact ⟨hmark', rfl⟩
  | some dec =>
    have hdec : (w.decode p now dec pkt).1.eofMarked = true :=
      (decode_eofMarked dec pkt w).trans hmark'
    dsimp only
    rw [finish_of_marked _ hdec]
    exact ⟨hdec, (decode_queue dec pkt).1⟩

/-- A tick that does not flush the stream leaves the flush as it is. -/
theorem mix_flush (isRepeater : Bool) (h : ¬ v.st.FlushDue p now) :
    (v.mix p now isRepeater).1.st.decoderFlushPending = v.st.decoderFlushPending ∧
      (v.mix p now isRepeater).1.st.eofAt = v.st.eofAt := by
  unfold mix
  dsimp only
  rw [pull_of_not_flushDue h]
  dsimp only
  cases v.decoder.orElse fun _ => OpusDecoder.newDecoder with
  | none => exact ⟨rfl, rfl⟩
  | some dec =>
    dsimp only
    rw [finish_decoderFlushPending, finish_eofAt]
    exact (decode_queue dec _).2

/-! ## After a marker -/

/-- The queue is empty, and the decoder and the last frame are as a flush leaves them. -/
structure Flushed (v : Stream D) : Prop where
  marked : v.eofMarked = true
  empty : v.st.jitter.pendingCount = 0
  pcm : v.st.lastPCM = []
  miss : v.st.missCount = 0
  eofAt : v.st.decoderFlushPending = false → v.st.eofAt = none
  decoder : v.decoder = none ∨ v.decoder = OpusDecoder.newDecoder

/-- An EOF marker has been taken at some time up to `now`, and no packet since. -/
structure Ended (now : ℤ) (v : Stream D) : Prop where
  marked : v.eofMarked = true
  headed : v.st.jitter.Headed
  pending : v.st.decoderFlushPending = true ∨ v.Flushed
  eofAt : ∀ t ∈ v.st.eofAt, t ≤ now

theorem idle_of_flushDue (h : v.st.FlushDue p now) : v.idle p now =
    { st := { v.st.flush with txEOFPending := false, jitter := v.st.jitter.pop.2 }
      eofMarked := true
      decoder := OpusDecoder.newDecoder } := by
  unfold idle
  rw [if_pos h, if_pos h]
  rfl

theorem idle_of_not_flushDue (h : ¬ v.st.FlushDue p now) : v.idle p now =
    { st := { v.st with txEOFPending := false, jitter := v.st.jitter.pop.2 }
      eofMarked := true
      decoder := v.decoder.orElse fun _ => OpusDecoder.newDecoder } := by
  unfold idle
  rw [if_neg h, if_neg h]

/-- The tick gives a flushed stream a new decoder. -/
theorem Flushed.orElse_decoder (h : v.Flushed) :
    (v.decoder.orElse fun _ => OpusDecoder.newDecoder) = OpusDecoder.newDecoder := by
  rcases h.decoder with hdec | hdec
  · rw [hdec]
    rfl
  · rw [hdec]
    cases (OpusDecoder.newDecoder : Option D) <;> rfl

/-- A tick leaves a stream flushed that it flushes, or that was flushed before. -/
theorem flushed_idle (hcount : v.st.jitter.pendingCount = 0)
    (h : v.Flushed ∨ v.st.FlushDue p now) : (v.idle p now).Flushed := by
  have hpop := SpeakerJitterBuffer.pendingCount_pop_of_empty hcount
  by_cases hflush : v.st.FlushDue p now
  · rw [idle_of_flushDue hflush]
    exact ⟨rfl, hpop, rfl, rfl, fun _ => rfl, Or.inr rfl⟩
  · have hbefore := h.resolve_right hflush
    rw [idle_of_not_flushDue hflush]
    exact ⟨rfl, hpop, hbefore.pcm, hbefore.miss, hbefore.eofAt, Or.inr hbefore.orElse_decoder⟩

theorem Ended.mono {now' : ℤ} (h : v.Ended now) (hnow : now ≤ now') : v.Ended now' :=
  { h with eofAt := fun t ht => (h.eofAt t ht).trans hnow }

theorem Ended.mix (isRepeater : Bool) (h : v.Ended now) : (v.mix p now isRepeater).1.Ended now := by
  by_cases hcount : v.st.jitter.pendingCount = 0
  · rw [(mix_of_empty p now isRepeater hcount h.marked).1]
    have hpop := SpeakerJitterBuffer.pendingCount_pop_of_empty hcount
    refine ⟨rfl, Or.inl hpop, ?_, ?_⟩
    · by_cases hflush : v.st.FlushDue p now
      · exact Or.inr (flushed_idle hcount (Or.inr hflush))
      · rcases h.pending with hpending | hflushed
        · left
          unfold idle
          rw [if_neg hflush]
          exact hpending
        · exact Or.inr (flushed_idle hcount (Or.inl hflushed))
    · unfold idle
      dsimp only
      split_ifs
      · exact fun t ht => nomatch ht
      · exact h.eofAt
  · have hpending : v.st.decoderFlushPending = true :=
      h.pending.resolve_right fun hflushed => hcount hflushed.empty
    have hflush : ¬ v.st.FlushDue p now := fun hdue => hcount hdue.2.1
    obtain ⟨hmark, hjitter⟩ := mix_of_marked (p := p) isRepeater h.marked
    obtain ⟨hpending', hat⟩ := mix_flush isRepeater hflush
    rw [pull_of_not_flushDue hflush] at hjitter
    refine ⟨hmark, ?_, Or.inl (hpending'.trans hpending), hat ▸ h.eofAt⟩
    rw [hjitter]
    apply SpeakerJitterBuffer.Headed.pop
    unfold SpeakerStreamState.forceStartPaused
    split_ifs
    · exact SpeakerJitterBuffer.Headed.forceStartFromMinSeq
    · exact h.headed

/-! ## The same stream with one more marker -/

/-- The stream with one more marker: armed again while its flush is due, or still to be flushed when
it has been flushed without the marker. -/
inductive Repeated (v : Stream D) : Stream D → Prop
  | armed (j : SpeakerJitterBuffer) (t : Option ℤ) (pending : Bool)
      (hpending : v.st.decoderFlushPending = true) (hj : v.st.jitter.Alike j)
      (ht : ∀ t₀ ∈ v.st.eofAt, ∃ t₁ ∈ t, t₀ ≤ t₁) :
      Repeated v (v.again j t pending)
  | flushed (pcm : List ℤ) (n : ℕ) (t : Option ℤ) (pending : Bool) (dec : Option D)
      (h : v.Flushed) (ht : v.st.decoderFlushPending = true → t = v.st.eofAt) :
      Repeated v (v.unflushed pcm n t pending dec)

/-- A tick that flushes only the stream without the marker. -/
theorem repeated_idle_again {j : SpeakerJitterBuffer} (hj : v.st.jitter.Alike j)
    (h : v.st.FlushDue p now) (h' : ¬ (v.again j t pending).st.FlushDue p now) :
    (v.idle p now).Repeated ((v.again j t pending).idle p now) := by
  have hidle : (v.idle p now).Flushed := flushed_idle h.2.1 (Or.inr h)
  rw [idle_of_not_flushDue h',
    show (v.again j t pending).st.jitter.pop = v.st.jitter.pop from hj.pop]
  rw [idle_of_flushDue h] at hidle ⊢
  refine .flushed v.st.lastPCM v.st.missCount t false _ hidle fun hset => ?_
  cases hset

/-- After a tick on a flushed stream the stream with the marker is flushed, too, or still is not. -/
theorem Flushed.idle_unflushed {pcm : List ℤ} {n : ℕ} {dec : Option D} (h : v.Flushed)
    (ht : v.st.decoderFlushPending = true → t = v.st.eofAt) :
    (v.unflushed pcm n t pending dec).idle p now = v.idle p now ∨
      (v.idle p now).Repeated ((v.unflushed pcm n t pending dec).idle p now) := by
  have hdue : v.st.decoderFlushPending = true →
      (v.st.FlushDue p now ↔ (v.unflushed pcm n t pending dec).st.FlushDue p now) := by
    intro hset
    show _ ∧ _ ∧ ¬ (_ ∧ _) ↔ _ ∧ _ ∧ ¬ (t.isSome = true ∧ sub now t < 5 * p.packetDur)
    rw [ht hset, hset]
    exact Iff.rfl
  have hidle : (v.idle p now).Flushed := flushed_idle h.empty (Or.inl h)
  by_cases hdue' : (v.unflushed pcm n t pending dec).st.FlushDue p now
  · left
    rw [idle_of_flushDue hdue']
    cases hset : v.st.decoderFlushPending with
    | true =>
      rw [idle_of_flushDue ((hdue hset).2 hdue')]
      rfl
    | false =>
      have hno : ¬ v.st.FlushDue p now := by
        rintro ⟨hset', -⟩
        rw [hset] at hset'
        cases hset'
      rw [idle_of_not_flushDue hno, h.orElse_decoder]
      simp only [unflushed, SpeakerStreamState.rearm, SpeakerStreamState.flush, h.pcm, h.miss, hset,
        h.eofAt hset]
  · right
    have hno : ¬ v.st.FlushDue p now := fun h => hdue' ((hdue h.1).1 h)
    rw [idle_of_not_flushDue hdue']
    rw [idle_of_not_flushDue hno] at hidle ⊢
    exact .flushed pcm n t false _ hidle ht

/-- A tick treats the two streams alike, unless it flushes only the first one and this one is not
marked any more. -/
theorem Repeated.mix {v' : Stream D} (isRepeater : Bool) (h : v.Repeated v')
    (hflush : v.st.FlushDue p now → ¬ v'.st.FlushDue p now → v.eofMarked = true) :
    (v'.mix p now isRepeater).2.frame = (v.mix p now isRepeater).2.frame ∧
      ((v'.mix p now isRepeater).1 = (v.mix p now isRepeater).1 ∨
        (v.mix p now isRepeater).1.Repeated (v'.mix p now isRepeater).1) := by
  cases h with
  | armed j t pending hpending hj ht =>
    by_cases hdue : v.st.FlushDue p now
    · have hcount' : (v.again j t pending).st.jitter.pendingCount = 0 :=
        hj.pendingCount.trans hdue.2.1
      by_cases hdue' : (v.again j t pending).st.FlushDue p now
      · -- both streams are flushed, and nothing tells them apart afterwards
        have hpull : (v.again j t pending).pull p now = v.pull p now := by
          rw [pull_of_empty p now hdue.2.1, if_pos hdue, pull_of_empty p now hcount', if_pos hdue',
            show (v.again j t pending).st.jitter.pop = v.st.jitter.pop from hj.pop]
          rfl
        obtain ⟨hmix, hframe⟩ := mix_congr isRepeater hpull
        exact ⟨hframe, Or.inl hmix⟩
      · have hmark := hflush hdue hdue'
        obtain ⟨hmix, hframe⟩ := mix_of_empty p now isRepeater hdue.2.1 hmark
        obtain ⟨hmix', hframe'⟩ :=
          mix_of_empty p now (v := v.again j t pending) isRepeater hcount' hmark
        rw [hmix, hmix']
        exact ⟨hframe'.trans hframe.symm, Or.inr (repeated_idle_again hj hdue hdue')⟩
    · have hdue' : ¬ (v.again j t pending).st.FlushDue p now := fun h =>
        hdue (SpeakerStreamState.flushDue_of_rearm hpending hj ht h)
      obtain ⟨hmix, hframe⟩ := mix_rearm isRepeater hj hdue hdue'
      obtain ⟨hpending', hat⟩ := mix_flush isRepeater hdue
      refine ⟨hframe, Or.inr ?_⟩
      rw [hmix]
      exact .armed _ t false (hpending'.trans hpending) .rfl (hat ▸ ht)
  | flushed pcm n t pending dec hflushed ht =>
    obtain ⟨hmix, hframe⟩ := mix_of_empty p now isRepeater hflushed.empty hflushed.marked
    obtain ⟨hmix', hframe'⟩ := mix_of_empty p now (v := v.unflushed pcm n t pending dec) isRepeater
      hflushed.empty hflushed.marked
    rw [hmix, hmix']
    exact ⟨hframe'.trans hframe.symm, hflushed.idle_unflushed ht⟩

end Stream

/-! ## One session -/

deriving instance DecidableEq for SpeakerJitterBuffer, SpeakerStreamState

/-- The entries of a session with the stream `v`. -/
def Stream.speaker {D : Type} (v : Stream D) : Speaker D where
  st := some v.st
  eofMarked := v.eofMarked
  decoder := v.decoder

/-- The stream state without what only the last marker has left in it. -/
def SpeakerStreamState.settled (st : SpeakerStreamState) : SpeakerStreamState :=
  { st with eofAt := none, txEOFPending := false }

namespace Speaker

variable {D : Type} {p : MixerParams} {now : ℤ} {sp sp' : Speaker D}

/-- The two entries differ at most in the time and the `txEOF` of the last marker. -/
def Agree (sp sp' : Speaker D) : Prop :=
  sp'.decoder = sp.decoder ∧ sp'.st.map (·.settled) = sp.st.map (·.settled)

instance [DecidableEq D] : Decidable (sp.Agree sp') := by
  unfold Agree
  infer_instance

theorem st_none_or_speaker (sp : Speaker D) : sp.st = none ∨ ∃ v : Stream D, sp = v.speaker := by
  cases hst : sp.st with
  | none => exact Or.inl rfl
  | some st =>
    refine Or.inr ⟨⟨st, sp.eofMarked, sp.decoder⟩, ?_⟩
    unfold Stream.speaker
    rw [← hst]

theorem speaker_inj {v w : Stream D} (h : v.speaker = w.speaker) : v = w := by
  cases v
  cases w
  simpa [Stream.speaker] using h

theorem onEOF_speaker (v : Stream D) : v.speaker.onEOF now =
    (({ v with eofMarked := true } : Stream D).again v.st.jitter.forceStartFromMinSeq (some now)
      true).speaker := rfl

variable [OpusDecoder D]

/-- The stream of the session has ended by `now`, if there is one. -/
def Ended (now : ℤ) (sp : Speaker D) : Prop := ∀ v : Stream D, sp = v.speaker → v.Ended now

/-- The entries of the session with one more marker. -/
def Repeated (sp sp' : Speaker D) : Prop :=
  sp' = sp ∨ ∃ v v' : Stream D, sp = v.speaker ∧ sp' = v'.speaker ∧ v.Repeated v'

theorem ended_speaker {v : Stream D} (h : v.Ended now) : v.speaker.Ended now :=
  fun _ hw => speaker_inj hw ▸ h

theorem ended_of_st_none (h : sp.st = none) : sp.Ended now := by
  rintro v rfl
  cases h

theorem Ended.mono {now' : ℤ} (h : sp.Ended now) (hnow : now ≤ now') : sp.Ended now' :=
  fun v hv => (h v hv).mono hnow

/-! ### After a marker -/

theorem ended_onEOF : (sp.onEOF now).Ended now := by
  rcases sp.st_none_or_speaker with hst | ⟨v, rfl⟩
  · apply ended_of_st_none
    simp only [onEOF, hst, Option.map_none]
  · rw [onEOF_speaker]
    refine ended_speaker ⟨rfl, .forceStartFromMinSeq, Or.inl rfl, ?_⟩
    rintro t ⟨⟩
    exact le_rfl

theorem Ended.mix (isRepeater : Bool) (h : sp.Ended now) :
    (sp.mix p now isRepeater).1.Ended now := by
  rcases sp.st_none_or_speaker with hst | ⟨v, rfl⟩
  · apply ended_of_st_none
    unfold Speaker.mix
    rw [hst]
    exact hst
  · exact ended_speaker ((h v rfl).mix isRepeater)

theorem Ended.cleanup {present : Bool} {now' : ℤ} (h : sp.Ended now) :
    (sp.cleanup p now' present).Ended now := by
  unfold Speaker.cleanup
  split_ifs
  · exact ended_of_st_none rfl
  · exact h

theorem Ended.dropDecoder (h : sp.Ended now) :
    ({ sp with decoder := none } : Speaker D).Ended now := by
  rcases sp.st_none_or_speaker with hst | ⟨v, rfl⟩
  · exact ended_of_st_none hst
  · obtain ⟨hmark, hheaded, hpending, hat⟩ := h v rfl
    refine ended_speaker (v := { v with decoder := none }) ⟨hmark, hheaded, ?_, hat⟩
    exact hpending.imp_right fun hflushed => { hflushed with decoder := Or.inl rfl }

/-! ### One more marker -/

/-- One more marker, as long as the mark of the first one is still there. -/
theorem repeated_onEOF (h : sp.Ended now) (hmark : sp.eofMarked = true) :
    sp.Repeated (sp.onEOF now) := by
  rcases sp.st_none_or_speaker with hst | ⟨v, rfl⟩
  · left
    unfold onEOF
    rw [hst, ← hmark, Option.map_none, ← hst]
  · obtain ⟨-, hheaded, hpending, hat⟩ := h v rfl
    have hv : ({ v with eofMarked := true } : Stream D) = v := by
      rw [← show v.eofMarked = true from hmark]
    rw [onEOF_speaker, hv]
    refine Or.inr ⟨v, _, rfl, rfl, ?_⟩
    cases hset : v.st.decoderFlushPending with
    | true => exact .armed _ _ _ hset hheaded.alike fun t₀ ht₀ => ⟨now, rfl, hat t₀ ht₀⟩
    | false =>
      have hflushed : v.Flushed := hpending.resolve_left (by rw [hset]; exact Bool.false_ne_true)
      rw [SpeakerJitterBuffer.forceStartFromMinSeq_of_empty hflushed.empty]
      refine .flushed v.st.lastPCM v.st.missCount (some now) true v.decoder hflushed fun ht => ?_
      rw [hset] at ht
      cases ht

theorem Repeated.refl : sp.Repeated sp := Or.inl rfl

theorem Repeated.mix {isRepeater : Bool} (h : sp.Repeated sp')
    (hflush : ∀ st ∈ sp.st, ∀ st' ∈ sp'.st, st.FlushDue p now → ¬ st'.FlushDue p now →
      sp.eofMarked = true) :
    (sp'.mix p now isRepeater).2.frame = (sp.mix p now isRepeater).2.frame ∧
      (sp.mix p now isRepeater).1.Repeated (sp'.mix p now isRepeater).1 := by
  rcases h with rfl | ⟨v, v', rfl, rfl, h⟩
  · exact ⟨rfl, .refl⟩
  · obtain ⟨hframe, hmix⟩ := h.mix isRepeater (hflush v.st rfl v'.st rfl)
    refine ⟨hframe, ?_⟩
    rcases hmix with hmix | hmix
    · exact Or.inl (congrArg Stream.speaker hmix)
    · exact Or.inr ⟨_, _, rfl, rfl, hmix⟩

theorem Repeated.removed_iff {present : Bool} (h : sp.Repeated sp') :
    sp'.Removed p now present ↔ sp.Removed p now present := by
  rcases h with rfl | ⟨v, v', rfl, rfl, h⟩
  · exact Iff.rfl
  · cases h <;> simp [Removed, Stream.speaker, Stream.again, Stream.unflushed,
      SpeakerStreamState.rearm]

theorem Repeated.isSome_eq (h : sp.Repeated sp') : sp'.st.isSome = sp.st.isSome := by
  rcases h with rfl | ⟨v, v', rfl, rfl, -⟩ <;> rfl

theorem Repeated.cleanup {present : Bool} (h : sp.Repeated sp') :
    (sp.cleanup p now present).Repeated (sp'.cleanup p now present) := by
  unfold Speaker.cleanup
  simp only [h.removed_iff]
  split_ifs
  · exact .refl
  · exact h

theorem Repeated.dropDecoder (h : sp.Repeated sp') :
    ({ sp with decoder := none } : Speaker D).Repeated { sp' with decoder := none } := by
  rcases h with rfl | ⟨v, v', rfl, rfl, h⟩
  · exact .refl
  · refine Or.inr ⟨{ v with decoder := none }, { v' with decoder := none }, rfl, rfl, ?_⟩
    cases h with
    | armed j t pending hpending hj ht => exact .armed j t pending hpending hj ht
    | flushed pcm n t pending dec hflushed ht =>
      exact .flushed pcm n t pending none { hflushed with decoder := Or.inl rfl } ht

theorem Repeated.onEOF (h : sp.Repeated sp') : (sp.onEOF now).Repeated (sp'.onEOF now) := by
  rcases h with rfl | ⟨v, v', rfl, rfl, h⟩
  · exact .refl
  · rw [onEOF_speaker, onEOF_speaker]
    cases h with
    | armed j t pending hpending hj ht =>
      left
      rw [show (v.again j t pending).st.jitter.forceStartFromMinSeq =
        v.st.jitter.forceStartFromMinSeq from hj.forceStart]
      rfl
    | flushed pcm n t pending dec hflushed ht =>
      have hempty : v.st.jitter.forceStartFromMinSeq.pendingCount = 0 := by
        rw [SpeakerJitterBuffer.forceStartFromMinSeq_of_empty hflushed.empty]
        exact hflushed.empty
      exact Or.inr ⟨_, _, rfl, rfl, .flushed pcm n (some now) true dec ⟨rfl, hempty, hflushed.pcm,
        hflushed.miss, (fun hset => nomatch hset), hflushed.decoder⟩ fun _ => rfl⟩

omit [OpusDecoder D] in
theorem onPacket_rearm (v : Stream D) (pkt : AudioPacket) (now now' : ℤ) :
    ∃ w : Stream D, v.speaker.onPacket p pkt now now' = w.speaker ∧
      (∀ t pending, (v.rearm t pending).speaker.onPacket p pkt now now' =
        (w.rearm t pending).speaker) ∧
      w.st.decoderFlushPending = v.st.decoderFlushPending ∧ w.st.eofAt = v.st.eofAt := by
  refine ⟨⟨(v.speaker.onPacket p pkt now now').st.getD v.st,
    (v.speaker.onPacket p pkt now now').eofMarked, (v.speaker.onPacket p pkt now now').decoder⟩,
    rfl, fun t pending => ?_, ?_⟩
  · unfold Speaker.onPacket Stream.speaker Stream.rearm SpeakerStreamState.rearm
    dsimp only [Option.getD]
    split_ifs <;> rfl
  · unfold Speaker.onPacket Stream.speaker
    dsimp only [Option.getD]
    split_ifs <;> exact ⟨rfl, rfl⟩

/-- Entries that agree differ in the last marker only. -/
theorem Repeated.of_agree {v v' : Stream D} (h : v.Repeated v')
    (hagree : v.speaker.Agree v'.speaker) : ∃ t pending, v' = v.rearm t pending ∧
      v.st.decoderFlushPending = true ∧ ∀ t₀ ∈ v.st.eofAt, ∃ t₁ ∈ t, t₀ ≤ t₁ := by
  obtain ⟨hdec, hst⟩ := hagree
  cases h with
  | armed j t pending hpending hj ht =>
    have hjitter : j = v.st.jitter := congrArg (·.jitter) (Option.some.inj hst)
    exact ⟨t, pending, by rw [hjitter]; rfl, hpending, ht⟩
  | flushed pcm n t pending dec hflushed ht =>
    have hst := Option.some.inj hst
    have hset : true = v.st.decoderFlushPending := congrArg (·.decoderFlushPending) hst
    have hpcm : pcm = v.st.lastPCM := congrArg (·.lastPCM) hst
    have hn : n = v.st.missCount := congrArg (·.missCount) hst
    have hdec : dec = v.decoder := hdec
    refine ⟨t, pending, by rw [hpcm, hn, hdec]; rfl, hset.symm, fun t₀ ht₀ => ⟨t₀, ?_, le_rfl⟩⟩
    rw [ht hset.symm]
    exact ht₀

theorem Repeated.onPacket {pkt : AudioPacket} {now' : ℤ} (h : sp.Repeated sp')
    (hagree : sp.Agree sp') :
    (sp.onPacket p pkt now now').Repeated (sp'.onPacket p pkt now now') := by
  rcases h with rfl | ⟨v, v', rfl, rfl, h⟩
  · exact .refl
  · obtain ⟨t, pending, rfl, hpending, ht⟩ := Repeated.of_agree h hagree
    obtain ⟨w, hw, hw', hpending', hat⟩ := onPacket_rearm (p := p) v pkt now now'
    rw [hw, hw']
    exact Or.inr ⟨w, _, rfl, rfl, .armed _ t pending (hpending'.trans hpending) .rfl (hat ▸ ht)⟩

end Speaker

end OWalkie
