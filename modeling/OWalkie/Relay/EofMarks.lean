import OWalkie.Relay.Mixer

/-!
# The EOF mark of a session

`eofMarked` switches concealment and jitter adaptation off.  `eofMarked_step` says which rounds of
the loop can leave it set, and `eofMarked_false_until_eof` that it stays clear from its last
clearing until the session's next EOF marker.
-/

namespace OWalkie

open Run

/-! ## Time -/

theorem sub_mono {now now' : ℤ} (h : now ≤ now') (t : Option ℤ) : sub now t ≤ sub now' t := by
  cases t with
  | none => exact le_rfl
  | some t =>
    simp only [sub_some]
    omega

/-! ## The stream state -/

namespace SpeakerStreamState

variable {p : MixerParams} {now : ℤ} {st : SpeakerStreamState}

/-- The adaptation changes the queue and its own counters only. -/
theorem adaptJitterOnTick_eq (fresh usedConceal : Bool) (floor ceil : ℤ) : ∃ j streak ticks,
    st.adaptJitterOnTick fresh usedConceal floor ceil =
      { st with
        jitter := j, jitterAdaptConcealStreak := streak, jitterAdaptStableTicks := ticks } := by
  unfold adaptJitterOnTick
  dsimp only
  split_ifs <;> exact ⟨_, _, _, rfl⟩

@[simp] theorem adaptJitterOnTick_lastPacketAt (fresh usedConceal : Bool) (floor ceil : ℤ) :
    (st.adaptJitterOnTick fresh usedConceal floor ceil).lastPacketAt = st.lastPacketAt := by
  obtain ⟨j, streak, ticks, h⟩ := st.adaptJitterOnTick_eq fresh usedConceal floor ceil
  rw [h]

@[simp] theorem adaptJitterOnTick_decoderFlushPending (fresh usedConceal : Bool)
    (floor ceil : ℤ) : (st.adaptJitterOnTick fresh usedConceal floor ceil).decoderFlushPending =
      st.decoderFlushPending := by
  obtain ⟨j, streak, ticks, h⟩ := st.adaptJitterOnTick_eq fresh usedConceal floor ceil
  rw [h]

@[simp] theorem adaptJitterOnTick_eofAt (fresh usedConceal : Bool) (floor ceil : ℤ) :
    (st.adaptJitterOnTick fresh usedConceal floor ceil).eofAt = st.eofAt := by
  obtain ⟨j, streak, ticks, h⟩ := st.adaptJitterOnTick_eq fresh usedConceal floor ceil
  rw [h]

/-- A forced start changes the queue only. -/
theorem forceStartPaused_eq (p : MixerParams) (now : ℤ) (st : SpeakerStreamState) :
    ∃ j, st.forceStartPaused p now = { st with jitter := j } := by
  unfold forceStartPaused
  split_ifs <;> exact ⟨_, rfl⟩

@[simp] theorem forceStartPaused_lastPacketAt :
    (st.forceStartPaused p now).lastPacketAt = st.lastPacketAt := by
  obtain ⟨j, h⟩ := forceStartPaused_eq p now st
  rw [h]

@[simp] theorem forceStartPaused_lastPCM :
    (st.forceStartPaused p now).lastPCM = st.lastPCM := by
  obtain ⟨j, h⟩ := forceStartPaused_eq p now st
  rw [h]

@[simp] theorem forceStartPaused_decoderFlushPending :
    (st.forceStartPaused p now).decoderFlushPending = st.decoderFlushPending := by
  obtain ⟨j, h⟩ := forceStartPaused_eq p now st
  rw [h]

end SpeakerStreamState

/-! ## One tick -/

namespace Stream

variable {D : Type} {p : MixerParams} {now : ℤ}

@[simp] theorem maybeFlushDecoderAfterEOF_eofMarked (v : Stream D) :
    (v.maybeFlushDecoderAfterEOF p now).eofMarked = v.eofMarked := by
  unfold maybeFlushDecoderAfterEOF
  split_ifs <;> rfl

@[simp] theorem pull_eofMarked (v : Stream D) : (v.pull p now).1.eofMarked = v.eofMarked := by
  simp [pull]

/-- The end of an iteration sets the mark only for a stream whose last packet is older than the EOF
timeout. -/
theorem finish_eofMarked (frame : Option (List ℤ)) (v : Stream D)
    (h : (v.finish p now frame).1.eofMarked = true) : v.eofMarked = true ∨
      p.eofTimeoutDur < sub now (v.finish p now frame).1.st.lastPacketAt := by
  unfold finish at h ⊢
  dsimp only at h ⊢
  split_ifs at h ⊢ <;> simp_all

variable [OpusDecoder D]

@[simp] theorem decode_eofMarked (dec : D) (pkt : Option AudioPacket) (v : Stream D) :
    (v.decode p now dec pkt).1.eofMarked = v.eofMarked := by
  unfold decode
  split
  · rfl
  · split <;> rfl

theorem mix_eofMarked (isRepeater : Bool) (v : Stream D)
    (h : (v.mix p now isRepeater).1.eofMarked = true) : v.eofMarked = true ∨
      p.eofTimeoutDur < sub now (v.mix p now isRepeater).1.st.lastPacketAt := by
  unfold mix at h ⊢
  dsimp only at h ⊢
  split at h
  · left
    simpa using h
  · rcases finish_eofMarked _ _ h with h | h
    · left
      simpa using h
    · exact Or.inr h

end Stream

/-- A mark that is set by the tick itself is removed with its stream state by the same tick. -/
theorem Speaker.mix_cleanup_eofMarked {D : Type} [OpusDecoder D] {p : MixerParams} {now now' : ℤ}
    {isRepeater present : Bool} {sp : Speaker D} (hnow : now ≤ now')
    (h : ((sp.mix p now isRepeater).1.cleanup p now' present).eofMarked = true) :
    sp.eofMarked = true ∧ ¬ (sp.mix p now isRepeater).1.Removed p now' present := by
  unfold Speaker.cleanup at h
  split_ifs at h with hr
  refine ⟨?_, hr⟩
  unfold Speaker.mix at h hr
  cases hst : sp.st with
  | none => simpa [hst] using h
  | some st =>
    simp only [hst] at h hr
    refine (Stream.mix_eofMarked isRepeater _ h).resolve_right fun hold => hr ?_
    exact ⟨_, rfl, Or.inr (hold.trans_le (sub_mono hnow _))⟩

/-! ## One round of the loop -/

namespace Mixer

variable {D E M : Type} [OpusDecoder D] {p : MixerParams} {s : Mixer D E M} {S : SessionID}

/-- The loop takes an EOF marker of `S`. -/
def TakesEof (e : LoopEvent E) (S : SessionID) : Prop := ∃ seq, e = .eof S seq

/-- The round clears the mark of `S`: a packet more than three packets after the last activity of
its stream state, a tick that removes this state, or a restart. -/
def ClearsMark (p : MixerParams) (s : Mixer D E M) (S : SessionID) : LoopEvent E → Prop
  | .packet pkt dt => pkt.sessionID = S ∧ ∃ st ∈ (s.speaker S).st,
      st.lastPacketAt.isSome = true ∧ 3 * p.packetDur < sub (s.clock + dt) st.lastPacketAt
  | .tick t => t.order.Perm s.keys ∧ ((s.speaker S).mix p s.clock (t.isRepeater S)).1.Removed p
      (s.clock + t.moduleDt + t.cleanupDt) (t.present S)
  | .restart _ => True
  | _ => False

instance : ∀ e : LoopEvent E, Decidable (ClearsMark p s S e)
  | .packet _ _ => inferInstanceAs (Decidable (_ ∧ _))
  | .tick _ => inferInstanceAs (Decidable (_ ∧ _))
  | .restart _ => isTrue trivial
  | .elapse _ | .eof _ _ | .dropDecoder _ | .clearRepeaterState _ => isFalse id

theorem touches_of_clearsMark {e : LoopEvent E} (h : ClearsMark p s S e) : s.Touches S e := by
  cases e with
  | packet pkt dt => exact h.1
  | tick t => exact h.1
  | restart encoder => trivial
  | _ => exact h.elim

variable [OpusEncoder E] [AudioModule M] {mods : ModuleSet M}

/-- A round leaves the mark of `S` set only if it takes a marker of `S`, or if the mark was set and
the round does not clear it. -/
theorem eofMarked_step (e : LoopEvent E) (h : ((step p mods s e).1.speaker S).eofMarked = true) :
    TakesEof e S ∨ (s.speaker S).eofMarked = true ∧ ¬ ClearsMark p s S e := by
  have hstep := speakerStep p mods s S e
  generalize (step p mods s e).1.speaker S = sp at h hstep
  cases hstep with
  | packet pkt dt hS =>
    simp only [Speaker.onPacket, Bool.and_eq_true, Bool.not_eq_true', Bool.and_eq_false_imp,
      decide_eq_false_iff_not] at h
    refine Or.inr ⟨h.1, ?_⟩
    rintro ⟨-, st, hst, hsome, hgap⟩
    rw [Option.mem_def] at hst
    simp only [hst, Option.getD_some] at h
    exact h.2 hsome hgap
  | eof seq => exact Or.inl ⟨seq, rfl⟩
  | tick t hperm =>
    have hnow : s.clock ≤ s.clock + t.moduleDt + t.cleanupDt := by omega
    obtain ⟨hmark, hkeep⟩ := Speaker.mix_cleanup_eofMarked hnow h
    exact Or.inr ⟨hmark, fun hc => hkeep hc.2⟩
  | dropDecoder => exact Or.inr ⟨h, id⟩
  | restart encoder decoder => cases h
  | same e hno => exact Or.inr ⟨h, fun hc => hno (touches_of_clearsMark hc)⟩

/-- From the start of the run, or from a round that clears it, the mark of a session stays clear
until the loop takes the session's next EOF marker. -/
theorem eofMarked_false_until_eof {encoder : E} {pre mid : List (LoopEvent E)}
    (hpre : pre = [] ∨ ∃ pre' e, pre = pre' ++ [e] ∧
      ClearsMark p (after (next (step p mods)) (new mods encoder : Mixer D E M) pre') S e)
    (hmid : ∀ seq, LoopEvent.eof S seq ∉ mid) :
    ((after (next (step p mods)) (new mods encoder : Mixer D E M)
      (pre ++ mid)).speaker S).eofMarked = false := by
  induction mid using List.reverseRecOn with
  | nil =>
    rw [List.append_nil]
    rcases hpre with rfl | ⟨pre', e, rfl, hclear⟩
    · rfl
    · rw [after_snoc]
      by_contra hmark
      rcases eofMarked_step e (by simpa [next] using hmark) with ⟨seq, rfl⟩ | ⟨-, hno⟩
      · exact hclear
      · exact hno hclear
  | append_singleton mid e ih =>
    have hold := ih fun seq hseq => hmid seq (List.mem_append_left _ hseq)
    rw [← List.append_assoc, after_snoc]
    by_contra hmark
    rcases eofMarked_step e (by simpa [next] using hmark) with ⟨seq, rfl⟩ | ⟨hset, -⟩
    · exact hmid seq (by simp)
    · rw [hold] at hset
      cases hset

/-- A channel whose jitter buffers start with their first packet. -/
def shallowChannel : MixerParams := ServerConfig.params { jitterMinPkts := 1 } none

/-- A transmission with its marker, and the first packet of the next one after a pause. -/
def pausedRePress : List (LoopEvent SilentCodec) :=
  [packetOfOne 1, tickOfOne, .eof 1 2, .elapse 80000000, packetOfOne 3]

theorem eofMarked_false_after_pause :
    ((after (next (silentStep shallowChannel)) silentMixer (pausedRePress ++ [tickOfOne])).speaker
      1).eofMarked = false :=
  eofMarked_false_until_eof
    (Or.inr ⟨[packetOfOne 1, tickOfOne, .eof 1 2, .elapse 80000000], packetOfOne 3, rfl, by decide⟩)
    (by simp [tickOfOne])

/-- The key is pressed again 20 ms after the marker 2: packet 3 is played with the mark set. -/
theorem eofMarked_in_quick_rePress :
    let s := after (next (silentStep shallowChannel)) silentMixer
      [packetOfOne 1, tickOfOne, .eof 1 2, .elapse 20000000, packetOfOne 3]
    (s.speakerTick shallowChannel { order := [1] } 1).played.map (·.seq) = some 3 ∧
      (s.speaker 1).eofMarked = true := by
  decide

end Mixer

end OWalkie
