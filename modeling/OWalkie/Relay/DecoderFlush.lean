import OWalkie.Relay.EofMarks

/-!
# The flush of the uplink decoder

`maybeFlushDecoderAfterEOF` drops the decoder of a session some time after an EOF marker.
`flush_between_transmissions` says when this falls between two transmissions: while the flush is due
(`FlushPending`) the stream holds and takes only packets up to the marker's number.
-/

namespace OWalkie

open Run

/-! ## What a tick keeps of a queue -/

/-- The operations of a tick on a queue keep the property. -/
structure SpeakerJitterBuffer.KeptByTicks (P : SpeakerJitterBuffer → Prop) : Prop where
  pop : ∀ {b : SpeakerJitterBuffer}, P b → P b.pop.2
  forceStart : ∀ {b : SpeakerJitterBuffer}, P b → P b.forceStartFromMinSeq
  clamp : ∀ {b : SpeakerJitterBuffer} (n floor ceil : ℤ), P b →
    P (b.setMinStartClamped n floor ceil)

namespace SpeakerJitterBuffer.KeptByTicks

variable {P : SpeakerJitterBuffer → Prop} {D : Type} {p : MixerParams} {now : ℤ} {v : Stream D}

theorem allBuffered (Q : ℕ → AudioPacket → Prop) : KeptByTicks (AllBuffered Q) :=
  ⟨AllBuffered.pop, AllBuffered.forceStartFromMinSeq, fun n floor ceil h =>
    h.setMinStartClamped n floor ceil⟩

theorem adaptJitterOnTick (hP : KeptByTicks P) {st : SpeakerStreamState} (h : P st.jitter)
    (fresh usedConceal : Bool) (floor ceil : ℤ) :
    P (st.adaptJitterOnTick fresh usedConceal floor ceil).jitter := by
  unfold SpeakerStreamState.adaptJitterOnTick
  dsimp only
  split_ifs <;> first | exact h | exact hP.clamp _ _ _ h

theorem forceStartPaused (hP : KeptByTicks P) {st : SpeakerStreamState} (h : P st.jitter) :
    P (st.forceStartPaused p now).jitter := by
  unfold SpeakerStreamState.forceStartPaused
  split_ifs
  · exact hP.forceStart h
  · exact h

/-- The queue from which an iteration pops. -/
theorem popped (hP : KeptByTicks P) (p : MixerParams) (now : ℤ) (h : P v.st.jitter) :
    P ((({ v with st := { v.st with txEOFPending := false } } :
      Stream D).maybeFlushDecoderAfterEOF p now).st.forceStartPaused p now).jitter := by
  refine hP.forceStartPaused ?_
  unfold Stream.maybeFlushDecoderAfterEOF
  split_ifs <;> exact h

theorem finish (hP : KeptByTicks P) (frame : Option (List ℤ)) (h : P v.st.jitter) :
    P (v.finish p now frame).1.st.jitter := by
  unfold Stream.finish
  dsimp only
  split_ifs <;> first | exact h | (apply hP.adaptJitterOnTick; exact h)

end SpeakerJitterBuffer.KeptByTicks

namespace Stream

variable {D : Type} [OpusDecoder D] {p : MixerParams} {now : ℤ} {v : Stream D}

/-- Decoding leaves the queue, the asked flush and the end of the transmission. -/
theorem decode_queue (dec : D) (pkt : Option AudioPacket) :
    (v.decode p now dec pkt).1.st.jitter = v.st.jitter ∧
      (v.decode p now dec pkt).1.st.decoderFlushPending = v.st.decoderFlushPending ∧
      (v.decode p now dec pkt).1.st.eofAt = v.st.eofAt := by
  unfold decode
  cases pkt with
  | none => exact ⟨rfl, rfl, rfl⟩
  | some pkt =>
    dsimp only
    split <;> exact ⟨rfl, rfl, rfl⟩

/-- An iteration keeps what the operations of a tick keep of a queue. -/
theorem mix_keeps {P : SpeakerJitterBuffer → Prop} (hP : SpeakerJitterBuffer.KeptByTicks P)
    (isRepeater : Bool) (h : P v.st.jitter) : P (v.mix p now isRepeater).1.st.jitter := by
  have hpull : P (v.pull p now).1.st.jitter := hP.pop (hP.popped p now h)
  unfold mix
  dsimp only
  split
  · exact hpull
  · refine hP.finish _ ?_
    rwa [(decode_queue _ _).1]

end Stream

namespace Speaker

variable {D : Type} {p : MixerParams} {now : ℤ} {sp : Speaker D} {P : SpeakerJitterBuffer → Prop}

/-- The queue of the session, if there is one, has the property. -/
def Queue (P : SpeakerJitterBuffer → Prop) (sp : Speaker D) : Prop := ∀ st ∈ sp.st, P st.jitter

theorem Queue.onEOF (hP : SpeakerJitterBuffer.KeptByTicks P) (h : sp.Queue P) :
    (sp.onEOF now).Queue P := by
  intro st hst
  obtain ⟨st₀, hst₀, rfl⟩ := Option.map_eq_some_iff.1 hst
  exact hP.forceStart (h st₀ hst₀)

theorem Queue.cleanup {present : Bool} (h : sp.Queue P) : (sp.cleanup p now present).Queue P := by
  unfold Speaker.cleanup
  split_ifs
  · exact fun st hst => nomatch hst
  · exact h

theorem Queue.mix [OpusDecoder D] (hP : SpeakerJitterBuffer.KeptByTicks P) (h : sp.Queue P)
    (isRepeater : Bool) : (sp.mix p now isRepeater).1.Queue P := by
  unfold Speaker.mix
  cases hst : sp.st with
  | none => exact fun st hst' => by simp [hst] at hst'
  | some st =>
    intro st' hst'
    simp only [Option.mem_def, Option.some.injEq] at hst'
    have hv : P (⟨st, sp.eofMarked, sp.decoder⟩ : Stream D).st.jitter := h st hst
    exact hst' ▸ Stream.mix_keeps hP isRepeater hv

end Speaker

/-! ## One stream -/

/-- Every packet buffered for the stream has a number up to `e`. -/
def SpeakerStreamState.UpTo (e : ℕ) (st : SpeakerStreamState) : Prop :=
  st.jitter.AllBuffered fun _ pkt => pkt.seq ≤ e

namespace Stream

variable {D : Type} {p : MixerParams} {now : ℤ} {e : ℕ} {v : Stream D}

theorem seq_le_of_pull (h : v.st.UpTo e) : ∀ pkt ∈ (v.pull p now).2, pkt.seq ≤ e := by
  intro pkt hpkt
  have hpopped := (SpeakerJitterBuffer.KeptByTicks.allBuffered _).popped p now h
  obtain ⟨-, hle⟩ := SpeakerJitterBuffer.AllBuffered.of_pop hpopped hpkt
  exact hle

theorem pull_decoderFlushPending (h : (v.pull p now).1.st.decoderFlushPending = true) :
    v.st.decoderFlushPending = true := by
  unfold pull maybeFlushDecoderAfterEOF at h
  dsimp only at h
  rw [SpeakerStreamState.forceStartPaused_decoderFlushPending] at h
  split_ifs at h
  · cases h
  · exact h

theorem finish_decoderFlushPending (frame : Option (List ℤ)) :
    (v.finish p now frame).1.st.decoderFlushPending = v.st.decoderFlushPending := by
  unfold finish
  dsimp only
  split_ifs <;> simp [SpeakerStreamState.conceal]

variable [OpusDecoder D]

/-- A stream that holds only packets up to `e` plays only such packets. -/
theorem seq_le_of_played (isRepeater : Bool) (h : v.st.UpTo e) :
    ∀ pkt ∈ (v.mix p now isRepeater).2.played, pkt.seq ≤ e := by
  unfold mix
  dsimp only
  split
  · exact fun pkt hpkt => nomatch hpkt
  · exact seq_le_of_pull h

/-- A tick never asks for a flush. -/
theorem mix_decoderFlushPending (isRepeater : Bool)
    (h : (v.mix p now isRepeater).1.st.decoderFlushPending = true) :
    v.st.decoderFlushPending = true := by
  unfold mix at h
  dsimp only at h
  split at h
  · exact pull_decoderFlushPending h
  · rw [finish_decoderFlushPending, (decode_queue _ _).2.1] at h
    exact pull_decoderFlushPending h

end Stream

/-! ## One session -/

namespace Speaker

variable {D : Type} {p : MixerParams} {e : ℕ} {sp : Speaker D}

/-- A flush of the session's decoder is due. -/
def FlushPending (sp : Speaker D) : Prop := ∃ st ∈ sp.st, st.decoderFlushPending = true

/-- Every packet buffered for the session has a number up to `e`. -/
def UpTo (e : ℕ) (sp : Speaker D) : Prop := ∀ st ∈ sp.st, st.UpTo e

instance (sp : Speaker D) : Decidable sp.FlushPending := by
  unfold FlushPending
  infer_instance

theorem flushPending_of_onPacket {pkt : AudioPacket} {now now' : ℤ}
    (h : (sp.onPacket p pkt now now').FlushPending) : sp.FlushPending := by
  obtain ⟨st, hst, hp⟩ := h
  simp only [onPacket, Option.mem_def, Option.some.injEq] at hst
  cases hsp : sp.st with
  | none =>
    subst hst
    simp [hsp, SpeakerStreamState.new] at hp
  | some st₀ =>
    refine ⟨st₀, hsp, ?_⟩
    subst hst
    simp only [hsp, Option.getD_some] at hp
    split_ifs at hp <;> exact hp

theorem UpTo.onPacket {pkt : AudioPacket} {now now' : ℤ} (h : sp.UpTo e) (hpkt : pkt.seq ≤ e) :
    (sp.onPacket p pkt now now').UpTo e := by
  intro st hst
  simp only [Speaker.onPacket, Option.mem_def, Option.some.injEq] at hst
  subst hst
  refine SpeakerJitterBuffer.AllBuffered.push ?_ hpkt
  split_ifs
  · exact SpeakerJitterBuffer.AllBuffered.reset
  · cases hsp : sp.st with
    | none => exact SpeakerJitterBuffer.AllBuffered.new _
    | some st₀ => exact h st₀ hsp

theorem UpTo.onEOF {now : ℤ} (h : sp.UpTo e) : (sp.onEOF now).UpTo e :=
  Queue.onEOF (.allBuffered _) h

theorem flushPending_of_cleanup {now : ℤ} {present : Bool}
    (h : (sp.cleanup p now present).FlushPending) : sp.FlushPending := by
  unfold cleanup at h
  split_ifs at h
  · obtain ⟨st, hst, -⟩ := h
    cases hst
  · exact h

theorem UpTo.cleanup {now : ℤ} {present : Bool} (h : sp.UpTo e) :
    (sp.cleanup p now present).UpTo e :=
  Queue.cleanup h

variable [OpusDecoder D]

theorem flushPending_of_mix {now : ℤ} {isRepeater : Bool}
    (h : (sp.mix p now isRepeater).1.FlushPending) : sp.FlushPending := by
  unfold mix at h
  cases hst : sp.st with
  | none => simpa [hst] using h
  | some st =>
    simp only [hst] at h
    obtain ⟨st', hst', hp⟩ := h
    simp only [Option.mem_def, Option.some.injEq] at hst'
    subst hst'
    exact ⟨st, hst, Stream.mix_decoderFlushPending isRepeater hp⟩

theorem UpTo.mix {now : ℤ} (h : sp.UpTo e) (isRepeater : Bool) :
    (sp.mix p now isRepeater).1.UpTo e ∧
      ∀ pkt ∈ (sp.mix p now isRepeater).2.played, pkt.seq ≤ e := by
  refine ⟨Queue.mix (.allBuffered _) h isRepeater, ?_⟩
  unfold Speaker.mix
  cases hst : sp.st with
  | none => exact fun pkt hpkt => nomatch hpkt
  | some st =>
    have hv : (⟨st, sp.eofMarked, sp.decoder⟩ : Stream D).st.UpTo e := h st hst
    exact Stream.seq_le_of_played isRepeater hv

end Speaker

/-! ## The loop -/

namespace Mixer

variable {D E M : Type} [OpusDecoder D] {p : MixerParams} {s : Mixer D E M} {S : SessionID} {e : ℕ}

/-- The tick drops the decoder of `S` because of an EOF marker. -/
def Flushes (p : MixerParams) (s : Mixer D E M) (S : SessionID) : LoopEvent E → Prop
  | .tick t => t.order.Perm s.keys ∧ (s.speakerTick p t S).flushed = true
  | _ => False

/-- The round decodes packets of `S` up to the number `e` only. -/
def PlaysUpTo (p : MixerParams) (s : Mixer D E M) (S : SessionID) (e : ℕ) : LoopEvent E → Prop
  | .tick t => t.order.Perm s.keys → ∀ pkt ∈ (s.speakerTick p t S).played, pkt.seq ≤ e
  | _ => True

/-- While a flush of the decoder of `S` is due, the loop takes packets of `S` up to the number `e`
only; otherwise it takes no marker of `S`, as this one would belong to a later transmission. -/
def TakesUpTo (s : Mixer D E M) (S : SessionID) (e : ℕ) : LoopEvent E → Prop
  | .packet pkt _ => pkt.sessionID = S → (s.speaker S).FlushPending → pkt.seq ≤ e
  | .eof sid _ => sid = S → (s.speaker S).FlushPending
  | _ => True

instance : ∀ x : LoopEvent E, Decidable (Flushes p s S x)
  | .tick _ => inferInstanceAs (Decidable (_ ∧ _))
  | .elapse _ | .packet _ _ | .eof _ _ | .dropDecoder _ | .clearRepeaterState _ | .restart _ =>
    isFalse id

instance : ∀ x : LoopEvent E, Decidable (PlaysUpTo p s S e x)
  | .tick _ => inferInstanceAs (Decidable (_ → _))
  | .elapse _ | .packet _ _ | .eof _ _ | .dropDecoder _ | .clearRepeaterState _ | .restart _ =>
    isTrue trivial

instance : ∀ x : LoopEvent E, Decidable (TakesUpTo s S e x)
  | .packet _ _ => inferInstanceAs (Decidable (_ → _))
  | .eof _ _ => inferInstanceAs (Decidable (_ → _))
  | .elapse _ | .tick _ | .dropDecoder _ | .clearRepeaterState _ | .restart _ => isTrue trivial

theorem flushPending_of_flushes {x : LoopEvent E} (h : Flushes p s S x) :
    (s.speaker S).FlushPending := by
  cases x with
  | tick t =>
    obtain ⟨-, hflushed⟩ := h
    unfold speakerTick Speaker.mix at hflushed
    cases hst : (s.speaker S).st with
    | none => simp [hst] at hflushed
    | some st =>
      refine ⟨st, hst, ?_⟩
      simp only [hst, Stream.mix] at hflushed
      split at hflushed <;> exact (of_decide_eq_true hflushed).1
  | _ => exact h.elim

variable [OpusEncoder E] [AudioModule M] {mods : ModuleSet M}

/-- Only an EOF marker of `S` makes a flush of its decoder due. -/
theorem flushPending_step {x : LoopEvent E} (hx : TakesUpTo s S e x)
    (h : ((step p mods s x).1.speaker S).FlushPending) : (s.speaker S).FlushPending := by
  have hstep := speakerStep p mods s S x
  generalize (step p mods s x).1.speaker S = sp at h hstep
  cases hstep with
  | packet pkt dt hS => exact Speaker.flushPending_of_onPacket h
  | eof seq => exact hx rfl
  | tick t hperm => exact Speaker.flushPending_of_mix (Speaker.flushPending_of_cleanup h)
  | dropDecoder => exact h
  | restart encoder decoder =>
    obtain ⟨st, hst, -⟩ := h
    cases hst
  | same x hno => exact h

/-- A round that takes only packets up to `e` keeps the stream of `S` up to `e`, and plays only such
packets. -/
theorem upTo_step {x : LoopEvent E} (hup : (s.speaker S).UpTo e)
    (hpending : (s.speaker S).FlushPending) (htakes : TakesUpTo s S e x) :
    ((step p mods s x).1.speaker S).UpTo e ∧ PlaysUpTo p s S e x := by
  constructor
  · have hstep := speakerStep p mods s S x
    generalize (step p mods s x).1.speaker S = sp at hstep ⊢
    cases hstep with
    | packet pkt dt hS => exact hup.onPacket (htakes hS hpending)
    | eof seq => exact hup.onEOF
    | tick t hperm => exact (hup.mix _).1.cleanup
    | dropDecoder => exact hup
    | restart encoder decoder => exact fun st hst => nomatch hst
    | same x hno => exact hup
  · cases x with
    | tick t => exact fun _ => (hup.mix _).2
    | _ => trivial

/-- As long as the flush asked for at the start of the run is still due, the stream of `S` holds
packets up to `e` only, and only such packets were played. -/
theorem upTo_while_pending {mid : List (LoopEvent E)} (hup : (s.speaker S).UpTo e)
    (htakes : Along (next (step p mods)) (fun s x => TakesUpTo s S e x) s mid)
    (hpending : ((after (next (step p mods)) s mid).speaker S).FlushPending) :
    ((after (next (step p mods)) s mid).speaker S).UpTo e ∧
      Along (next (step p mods)) (fun s x => PlaysUpTo p s S e x) s mid := by
  induction mid using List.reverseRecOn with
  | nil => exact ⟨hup, along_nil⟩
  | append_singleton mid x ih =>
    rw [after_snoc] at hpending ⊢
    have hbefore := flushPending_step htakes.last hpending
    obtain ⟨hup', hplays⟩ := ih htakes.init hbefore
    obtain ⟨hnext, hplay⟩ : ((next (step p mods) (after (next (step p mods)) s mid) x).speaker
        S).UpTo e ∧ PlaysUpTo p (after (next (step p mods)) s mid) S e x :=
      upTo_step hup' hbefore htakes.last
    exact ⟨hnext, along_snoc_iff.2 ⟨hplays, hplay⟩⟩

/-- When a tick drops the decoder of `S` because of the marker `e` or its repetitions, no packet of
a later transmission was decoded since that marker: provided the marker found no such packet in the
buffer, and none was taken while the flush was due. -/
theorem flush_between_transmissions {encoder : E} {pre mid : List (LoopEvent E)} {x : LoopEvent E}
    (hbuffer : ((after (next (step p mods)) (new mods encoder : Mixer D E M) pre).speaker S).UpTo e)
    (htakes : Along (next (step p mods)) (fun s y => TakesUpTo s S e y)
      (after (next (step p mods)) (new mods encoder : Mixer D E M) (pre ++ [.eof S e])) mid)
    (hflush : Flushes p
      (after (next (step p mods)) (new mods encoder : Mixer D E M) (pre ++ .eof S e :: mid)) S x) :
    Along (next (step p mods)) (fun s y => PlaysUpTo p s S e y)
      (after (next (step p mods)) (new mods encoder : Mixer D E M) (pre ++ [.eof S e])) mid := by
  rw [after_append, after_cons] at hflush
  rw [after_snoc] at htakes ⊢
  generalize after (next (step p mods)) (new mods encoder : Mixer D E M) pre = s
    at hbuffer htakes hflush ⊢
  have hup : ((next (step p mods) s (.eof S e)).speaker S).UpTo e := by
    simp only [next, step, Function.update_self]
    exact hbuffer.onEOF
  exact (upTo_while_pending hup htakes (flushPending_of_flushes hflush)).2

theorem flush_between_transmissions_quiet :
    Along (next (silentStep shallowChannel)) (fun s y => PlaysUpTo shallowChannel s 1 2 y)
      (after (next (silentStep shallowChannel)) silentMixer
        ([packetOfOne 1, tickOfOne] ++ [.eof 1 2])) [.eof 1 3, .elapse 100000000] :=
  flush_between_transmissions (x := tickOfOne)
    (by
      have hempty : ∀ st ∈ ((after (next (silentStep shallowChannel)) silentMixer
          [packetOfOne 1, tickOfOne]).speaker 1).st, st.jitter.pendingCount = 0 := by decide
      exact fun st hst => SpeakerJitterBuffer.AllBuffered.of_pendingCount (hempty st hst))
    (by decide) (by decide)

/-- The key is pressed again 20 ms after the marker 2, and a tick 100 ms after the marker meets an
empty queue: it drops the decoder in the middle of the new transmission, whose packets 3 to 6 were
decoded before. -/
theorem flush_in_next_transmission :
    let packets : List (LoopEvent SilentCodec) :=
      [3, 4, 5, 6].flatMap fun seq => [packetOfOne seq, tickOfOne, .elapse 20000000]
    let s := after (next (silentStep shallowChannel)) silentMixer
      [packetOfOne 1, tickOfOne, .eof 1 2, .elapse 20000000]
    ¬ Along (next (silentStep shallowChannel)) (fun s y => PlaysUpTo shallowChannel s 1 2 y) s
        packets ∧
      Flushes shallowChannel (after (next (silentStep shallowChannel)) s packets) 1 tickOfOne := by
  decide

end Mixer

end OWalkie
