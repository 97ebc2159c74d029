import Mathlib.Data.List.Chain
import OWalkie.Relay.Mixer

/-!
# The playbacks of a repeater session

Every recording of a client in repeater mode is played back to it by a goroutine of its own
(`Playback`), which `processRepeaterFinalization` starts and nothing waits for.
`playbacks_in_turn`: the playbacks of a session follow one another as long as no recording is
finalised while an earlier one is still being played.
-/

namespace OWalkie

open Run

/-! ## One playback -/

/-- A run of `playbackRepeaterAfterDelay`: the frames that are left, the encoder once there is one,
the last sequence number, and the end of the present sleep. -/
structure Playback (E : Type) where
  frames : List (List ℤ)
  encoder : Option E := none
  seq : ℕ := 0
  wakesAt : ℤ

/-- The frames of a recording; the last one is filled up with zeros. -/
def recordedFrames (p : MixerParams) (pcm : List ℤ) : List (List ℤ) :=
  (List.range ((pcm.length + p.packetSamples - 1) / p.packetSamples)).map fun k =>
    frameOf p (pcm.drop (k * p.packetSamples))

namespace Playback

variable {E : Type} [OpusEncoder E]

/-- `go m.playbackRepeaterAfterDelay(sessionID, bufferCopy, packetDur)`. -/
def start (p : MixerParams) (now : ℤ) (pcm : List ℤ) : Playback E where
  frames := recordedFrames p pcm
  wakesAt := now + p.packetDur

/-- The goroutine goes on, unless it sleeps: it makes its encoder (`newEncoder`), or it encodes the
next frame, which is sent unless that fails. -/
def resume (p : MixerParams) (now : ℤ) (newEncoder : Option E) (pb : Playback E) :
    Playback E × Option (List UInt8) :=
  if now < pb.wakesAt then (pb, none)
  else
    match pb.encoder, pb.frames with
    | none, _ =>
      match newEncoder with
      | none => ({ pb with frames := [] }, none)
      | some encoder => ({ pb with encoder := some encoder }, none)
    | some _, [] => (pb, none)
    | some encoder, frame :: frames =>
      match OpusEncoder.encode encoder frame with
      | (encoder, none) => ({ pb with frames := frames, encoder := some encoder }, none)
      | (encoder, some []) => ({ pb with frames := frames, encoder := some encoder }, none)
      | (encoder, some opus) =>
        ({ frames := frames
           encoder := some encoder
           seq := u32 (pb.seq + 1)
           wakesAt := now + p.packetDur }, some opus)

/-- What the goroutine does: it sends its next frame under the next number, or nothing. -/
theorem resume_cases (p : MixerParams) (now : ℤ) (newEncoder : Option E) (pb : Playback E) :
    (pb.resume p now newEncoder).2 = none ∧ (pb.resume p now newEncoder).1.seq = pb.seq ∧
        (pb.frames = [] → (pb.resume p now newEncoder).1.frames = []) ∨
      ∃ opus, (pb.resume p now newEncoder).2 = some opus ∧ pb.frames ≠ [] ∧
        (pb.resume p now newEncoder).1.seq = u32 (pb.seq + 1) := by
  unfold resume
  by_cases hsleep : now < pb.wakesAt
  · simp [hsleep]
  rw [if_neg hsleep]
  cases hframes : pb.frames with
  | nil => cases pb.encoder <;> cases newEncoder <;> simp [hframes]
  | cons frame frames =>
    cases pb.encoder with
    | none => cases newEncoder <;> simp
    | some encoder =>
      dsimp only
      rcases OpusEncoder.encode encoder frame with ⟨encoder', _ | _ | ⟨byte, opus⟩⟩ <;> simp

end Playback

/-! ## A channel with its playbacks -/

/-- A frame that `sendToClient` is given by a playback. -/
structure PlayedFrame where
  sid : SessionID
  /-- the number of the recording among those of the session -/
  recording : ℕ
  seq : ℕ
  opus : List UInt8
  deriving DecidableEq

structure RepeaterChannel (D E M : Type) where
  mixer : Mixer D E M
  /-- the playbacks that were started for the session, the first one first -/
  playing : SessionID → List (Playback E) := fun _ => []

inductive RepeaterAction (E : Type) where
  | loop (x : LoopEvent E)
  /-- the goroutine of a recording goes on; its encoder is made from `newEncoder` -/
  | resume (sid : SessionID) (recording : ℕ) (newEncoder : Option E)

namespace RepeaterChannel

variable {D E M : Type} [OpusDecoder D] [OpusEncoder E] [AudioModule M]

/-- The recording of the session that the round finalises. -/
def finalised (p : MixerParams) (mods : ModuleSet M) (s : Mixer D E M) (sid : SessionID) :
    LoopEvent E → Option (Playback E)
  | .tick t =>
    if t.order.Perm s.keys then
      (s.mixRepeater p mods t sid).2.map (Playback.start p (s.clock + t.moduleDt))
    else none
  | _ => none

def step (p : MixerParams) (mods : ModuleSet M) (s : RepeaterChannel D E M) :
    RepeaterAction E → RepeaterChannel D E M × List PlayedFrame
  | .loop x =>
    ({ mixer := (s.mixer.step p mods x).1
       playing := fun sid => s.playing sid ++ (finalised p mods s.mixer sid x).toList }, [])
  | .resume sid i newEncoder =>
    match (s.playing sid)[i]? with
    | none => (s, [])
    | some pb =>
      let (pb, out) := pb.resume p s.mixer.clock newEncoder
      ({ s with playing := Function.update s.playing sid ((s.playing sid).set i pb) },
        out.toList.map fun opus => ⟨sid, i, pb.seq, opus⟩)

/-- A recording of `S` is finalised while an earlier one is still being played. -/
def Overlaps (p : MixerParams) (mods : ModuleSet M) (s : RepeaterChannel D E M) (S : SessionID) :
    RepeaterAction E → Prop
  | .loop x => (finalised p mods s.mixer S x).isSome = true ∧ ∃ pb ∈ s.playing S, pb.frames ≠ []
  | .resume _ _ _ => False

instance (p : MixerParams) (mods : ModuleSet M) (s : RepeaterChannel D E M) (S : SessionID) :
    DecidablePred (Overlaps p mods s S)
  | .loop _ => inferInstanceAs (Decidable (_ ∧ _))
  | .resume _ _ _ => isFalse id

end RepeaterChannel

/-! ## The frames that a client is sent -/

/-- The frames of the session. -/
def sentTo (S : SessionID) (out : List PlayedFrame) : List PlayedFrame :=
  out.filter fun f => f.sid = S

@[simp] theorem sentTo_append (S : SessionID) (out out' : List PlayedFrame) :
    sentTo S (out ++ out') = sentTo S out ++ sentTo S out' :=
  List.filter_append ..

namespace PlayedFrame

/-- The next frame of the same recording, or the first one of a later recording. -/
def Follows (f f' : PlayedFrame) : Prop :=
  f'.recording = f.recording ∧ f'.seq = u32 (f.seq + 1) ∨ f.recording < f'.recording ∧ f'.seq = 1

instance (f f' : PlayedFrame) : Decidable (Follows f f') := by
  unfold Follows
  infer_instance

end PlayedFrame

variable {E : Type}

/-- The playbacks of a session and the frames that they have sent. -/
structure InTurn (L : List (Playback E)) (sent : List PlayedFrame) : Prop where
  done : ∀ i, i + 1 < L.length → ∀ pb ∈ L[i]?, pb.frames = []
  bound : ∀ f ∈ sent, f.recording < L.length
  chain : sent.IsChain PlayedFrame.Follows
  /-- the last playback has the number of the last frame, if that is one of its own -/
  seq : ∀ pb ∈ L[L.length - 1]?, pb.seq = match sent.getLast? with
    | some f => if f.recording + 1 = L.length then f.seq else 0
    | none => 0

namespace InTurn

variable {L : List (Playback E)} {sent : List PlayedFrame}

theorem nil : InTurn ([] : List (Playback E)) [] where
  done := by simp
  bound := by simp
  chain := List.IsChain.nil
  seq := by simp

/-- Another recording is finalised after the earlier ones have been played. -/
theorem started (h : InTurn L sent) (hdone : ∀ pb ∈ L, pb.frames = []) {pb : Playback E}
    (hseq : pb.seq = 0) : InTurn (L ++ [pb]) sent where
  done := by
    intro i hi pb' hpb'
    rw [List.length_append, List.length_singleton] at hi
    rw [List.getElem?_append_left (by omega)] at hpb'
    exact hdone pb' (List.mem_of_getElem? hpb')
  bound := by
    intro f hf
    have := h.bound f hf
    rw [List.length_append]
    omega
  chain := h.chain
  seq := by
    intro pb' hpb'
    obtain rfl : pb = pb' := by simpa using hpb'
    rw [hseq]
    cases hlast : sent.getLast? with
    | none => rfl
    | some f =>
      have := h.bound f (List.mem_of_getLast? hlast)
      have hne : ¬ f.recording + 1 = (L ++ [pb]).length := by
        rw [List.length_append, List.length_singleton]
        omega
      exact (if_neg hne).symm

/-- A playback goes on without sending anything. -/
theorem silent (h : InTurn L sent) {i : ℕ} {pb pb' : Playback E} (hpb : L[i]? = some pb)
    (hseq : pb'.seq = pb.seq) (hframes : pb.frames = [] → pb'.frames = []) :
    InTurn (L.set i pb') sent where
  done := by
    intro j hj pb₁ hpb₁
    rw [List.length_set] at hj
    by_cases hij : i = j
    · subst hij
      rw [List.getElem?_set_self (by omega)] at hpb₁
      obtain rfl := Option.some.inj hpb₁
      exact hframes (h.done i hj pb hpb)
    · rw [List.getElem?_set_ne hij] at hpb₁
      exact h.done j hj pb₁ hpb₁
  bound := by
    rw [List.length_set]
    exact h.bound
  chain := h.chain
  seq := by
    intro pb₁ hpb₁
    rw [List.length_set] at hpb₁ ⊢
    by_cases hij : i = L.length - 1
    · subst hij
      rw [List.getElem?_set_self (List.getElem?_eq_some_iff.1 hpb).1] at hpb₁
      obtain rfl := Option.some.inj hpb₁
      rw [hseq]
      exact h.seq pb hpb
    · rw [List.getElem?_set_ne hij] at hpb₁
      exact h.seq pb₁ hpb₁

/-- The last playback sends a frame. -/
theorem sends (h : InTurn L sent) {i : ℕ} {pb pb' : Playback E} (hpb : L[i]? = some pb)
    (hlast : i + 1 = L.length) (hseq : pb'.seq = u32 (pb.seq + 1)) {f : PlayedFrame}
    (hrec : f.recording = i) (hfseq : f.seq = pb'.seq) : InTurn (L.set i pb') (sent ++ [f]) where
  done := by
    intro j hj pb₁ hpb₁
    rw [List.length_set] at hj
    rw [List.getElem?_set_ne (by omega)] at hpb₁
    exact h.done j hj pb₁ hpb₁
  bound := by
    intro f' hf'
    rw [List.length_set]
    rcases List.mem_append.1 hf' with hf' | hf'
    · exact h.bound f' hf'
    · obtain rfl := List.mem_singleton.1 hf'
      omega
  chain := by
    refine List.isChain_append.2 ⟨h.chain, List.isChain_singleton _, ?_⟩
    intro f₀ hf₀ f' hf'
    obtain rfl : f = f' := by simpa using hf'
    have hbound := h.bound f₀ (List.mem_of_getLast? hf₀)
    have hold := h.seq pb (by rw [← hlast]; exact hpb)
    rw [Option.mem_def] at hf₀
    rw [hf₀] at hold
    dsimp only at hold
    split_ifs at hold with hown
    · left
      rw [hfseq, hseq, hold]
      exact ⟨by omega, rfl⟩
    · right
      rw [hfseq, hseq, hold]
      exact ⟨by omega, rfl⟩
  seq := by
    intro pb₁ hpb₁
    rw [List.length_set, ← hlast, Nat.add_sub_cancel, List.getElem?_set_self (by omega)] at hpb₁
    obtain rfl := Option.some.inj hpb₁
    rw [List.length_set, List.getLast?_concat]
    dsimp only
    rw [if_pos (by omega), hfseq]

end InTurn

/-! ## The whole run -/

namespace RepeaterChannel

variable {D M : Type} [OpusDecoder D] [AudioModule M] {p : MixerParams} {mods : ModuleSet M}
  {S : SessionID}

theorem finalised_seq {s : Mixer D E M} {x : LoopEvent E} {pb : Playback E}
    (h : finalised p mods s S x = some pb) : pb.seq = 0 := by
  unfold finalised at h
  split at h
  · split_ifs at h
    obtain ⟨pcm, -, rfl⟩ := Option.map_eq_some_iff.1 h
    rfl
  · cases h

variable [OpusEncoder E]

theorem inTurn_step {s : RepeaterChannel D E M} {a : RepeaterAction E} {out : List PlayedFrame}
    (h : InTurn (s.playing S) (sentTo S out)) (ha : ¬ Overlaps p mods s S a) :
    InTurn ((next (step p mods) s a).playing S)
      (sentTo S out ++ sentTo S (step p mods s a).2) := by
  cases a with
  | loop x =>
    show InTurn (s.playing S ++ (finalised p mods s.mixer S x).toList) (sentTo S out ++ [])
    rw [List.append_nil]
    cases hfin : finalised p mods s.mixer S x with
    | none => rwa [Option.toList_none, List.append_nil]
    | some pb =>
      refine h.started (fun pb' hpb' => ?_) (finalised_seq hfin)
      by_contra hne
      exact ha ⟨by rw [hfin]; rfl, pb', hpb', hne⟩
  | resume sid i newEncoder =>
    cases hpb : (s.playing sid)[i]? with
    | none => simpa [next, step, hpb, sentTo] using h
    | some pb =>
      by_cases hsid : S = sid
      · subst hsid
        rcases Playback.resume_cases p s.mixer.clock newEncoder pb with
          ⟨hout, hseq, hframes⟩ | ⟨opus, hout, hframes, hseq⟩
        · have hstep := h.silent hpb hseq hframes
          simpa [next, step, hpb, hout, sentTo] using hstep
        · have hlast : i + 1 = (s.playing S).length := by
            have hi := (List.getElem?_eq_some_iff.1 hpb).1
            by_contra hne
            exact hframes (h.done i (by omega) pb hpb)
          have hstep := h.sends hpb hlast hseq
            (f := ⟨S, i, (pb.resume p s.mixer.clock newEncoder).1.seq, opus⟩) rfl rfl
          simpa [next, step, hpb, hout, sentTo] using hstep
      · have hout : sentTo S (step p mods s (.resume sid i newEncoder)).2 = [] := by
          simp [step, hpb, sentTo, Ne.symm hsid]
        have hplaying : (next (step p mods) s (.resume sid i newEncoder)).playing S =
            s.playing S := by
          simp [next, step, hpb, hsid]
        rw [hout, hplaying, List.append_nil]
        exact h

/-- As long as no recording of a session is finalised while an earlier one is still being played,
the client is sent the recordings one after the other, each from its first frame on, and a frame of
one only when nothing is left of those before it. -/
theorem playbacks_in_turn (mixer : Mixer D E M) {as : List (RepeaterAction E)}
    (h : Along (next (step p mods)) (fun s a => ¬ Overlaps p mods s S a) ⟨mixer, fun _ => []⟩ as) :
    (sentTo S (outputs (step p mods) ⟨mixer, fun _ => []⟩ as)).IsChain PlayedFrame.Follows ∧
      ∀ f ∈ sentTo S (outputs (step p mods) ⟨mixer, fun _ => []⟩ as), ∀ i < f.recording,
        ∀ pb ∈ ((after (next (step p mods)) ⟨mixer, fun _ => []⟩ as).playing S)[i]?,
          pb.frames = [] := by
  have hinv : InTurn ((after (next (step p mods)) ⟨mixer, fun _ => []⟩ as).playing S)
      (sentTo S (outputs (step p mods) ⟨mixer, fun _ => []⟩ as)) := by
    induction as using List.reverseRecOn with
    | nil => exact InTurn.nil
    | append_singleton as a ih =>
      rw [after_snoc, outputs_snoc, sentTo_append]
      exact inTurn_step (ih h.init) h.last
  refine ⟨hinv.chain, fun f hf i hi pb hpb => hinv.done i ?_ pb hpb⟩
  have := hinv.bound f hf
  omega

/-! ## Two recordings in a row -/

/-- A channel with packets of one millisecond. -/
def briefChannel : MixerParams := ServerConfig.params { packetMs := 1 } none

/-- The frames that session 1 is sent in a run of such a channel. -/
def briefSent (as : List (RepeaterAction SilentCodec)) : List PlayedFrame :=
  sentTo 1 (outputs (step briefChannel noModules) ⟨silentMixer, fun _ => []⟩ as)

/-- The playbacks of session 1 after such a run. -/
def briefPlaying (as : List (RepeaterAction SilentCodec)) : List (Playback SilentCodec) :=
  (after (next (step briefChannel noModules)) ⟨silentMixer, fun _ => []⟩ as).playing 1

/-- A tick that finds session 1 in repeater mode. -/
def repeaterTick : RepeaterAction SilentCodec :=
  .loop (.tick { order := [1], isRepeater := fun _ => true, isRepeater' := fun _ => true })

/-- A transmission of one packet is captured and, two packet durations later, finalised. -/
def shortRecording (seq : ℕ) : List (RepeaterAction SilentCodec) :=
  [.loop (packetOfOne seq), .loop (.eof 1 (seq + 1)), repeaterTick, .loop (.elapse 2000000),
    repeaterTick]

/-- The sleep of a playback is over; it makes its encoder. -/
def wakes (recording : ℕ) : List (RepeaterAction SilentCodec) :=
  [.loop (.elapse 1000000), .resume 1 recording (some ⟨⟩)]

/-- The next frame of a playback is due. -/
def plays (recording : ℕ) : List (RepeaterAction SilentCodec) :=
  [.resume 1 recording none, .loop (.elapse 1000000)]

/-- One transmission after the other, the second one when all six frames have been played. -/
def patientRun : List (RepeaterAction SilentCodec) :=
  shortRecording 1 ++ wakes 0 ++ (List.replicate 6 (plays 0)).flatten ++ shortRecording 3 ++
    wakes 1 ++ plays 1

theorem playbacks_in_turn_patient : (briefSent patientRun).IsChain PlayedFrame.Follows ∧
    ∀ f ∈ briefSent patientRun, ∀ i < f.recording, ∀ pb ∈ (briefPlaying patientRun)[i]?,
      pb.frames = [] :=
  playbacks_in_turn silentMixer (by decide +kernel)

/-- The second recording is finalised while five frames of the first one are left. -/
def hastyRun : List (RepeaterAction SilentCodec) :=
  shortRecording 1 ++ wakes 0 ++ plays 0 ++ shortRecording 3 ++ wakes 1 ++ plays 1 ++ plays 0

theorem playbacks_interleave :
    (briefSent hastyRun).map (fun f => (f.recording, f.seq)) = [(0, 1), (1, 1), (0, 2)] ∧
      ¬ (briefSent hastyRun).IsChain PlayedFrame.Follows := by
  decide +kernel

end RepeaterChannel

end OWalkie
