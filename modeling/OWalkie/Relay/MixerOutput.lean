import OWalkie.Relay.Mixer
import OWalkie.Relay.RepeaterTail

/-!
# What a channel sends

The frames that a mixer encodes and the frames that it sends, over whole runs: what it gives to the
encoder is of one length and clipped, the frames are numbered one after the other, also across the
restarts of the loop, and their signal is a byte.
-/

namespace OWalkie

open Run

/-- An encoder together with the frames that it was given. -/
structure Recorder (E : Type) where
  encoder : E
  given : List (List ℤ) := []

instance {E : Type} [OpusEncoder E] : OpusEncoder (Recorder E) where
  encode enc pcm :=
    ({ encoder := (OpusEncoder.encode enc.encoder pcm).1, given := enc.given ++ [pcm] },
      (OpusEncoder.encode enc.encoder pcm).2)

/-- A signal that fits into a byte. -/
def IsByte (v : ℚ) : Prop := 0 ≤ v ∧ v ≤ 255

theorem isByte_toNat (b : UInt8) : IsByte b.toNat := by
  have hlt := b.toNat_lt
  refine ⟨by positivity, ?_⟩
  have hle : b.toNat ≤ 255 := by omega
  exact_mod_cast hle

/-! ## Samples -/

theorem toInt16_eq_floor {v : ℚ} (h : 0 ≤ v) : toInt16 v = ⌊v⌋ := by
  rw [toInt16, Int.tdiv_eq_ediv_of_nonneg (Rat.num_nonneg.2 h)]
  exact (Rat.floor_def v).symm

theorem toInt16_neg (v : ℚ) : toInt16 (-v) = -toInt16 v := by
  rw [toInt16, toInt16, Rat.neg_num, Rat.neg_den, Int.neg_tdiv]

theorem toInt16_mem {v : ℚ} {n : ℤ} (h : 0 ≤ v) (hn : v ≤ n) : 0 ≤ toInt16 v ∧ toInt16 v ≤ n := by
  rw [toInt16_eq_floor h]
  exact ⟨Int.floor_nonneg.2 h, Int.floor_le_iff.2 (by linarith)⟩

/-- Truncation does not make a sample louder. -/
theorem abs_toInt16_le {v : ℚ} {n : ℤ} (h : |v| ≤ n) : |toInt16 v| ≤ n := by
  rcases le_total 0 v with hv | hv
  · rw [abs_of_nonneg hv] at h
    obtain ⟨hpos, hle⟩ := toInt16_mem hv h
    rwa [abs_of_nonneg hpos]
  · rw [abs_of_nonpos hv] at h
    obtain ⟨hpos, hle⟩ := toInt16_mem (neg_nonneg.2 hv) h
    rwa [← abs_neg, ← toInt16_neg, abs_of_nonneg hpos]

theorem abs_hardClipFloat_le (v : ℚ) {n : ℤ} (hn : 0 ≤ n) : |hardClipFloat v n| ≤ n := by
  have hnonneg : (0 : ℚ) ≤ n := by exact_mod_cast hn
  unfold hardClipFloat
  split_ifs with h1 h2
  · exact abs_toInt16_le (abs_of_nonneg hnonneg).le
  · exact abs_toInt16_le (by rw [abs_neg, abs_of_nonneg hnonneg])
  · exact abs_toInt16_le (abs_le.2 ⟨not_lt.1 h2, not_lt.1 h1⟩)

/-- What `mixAndBroadcast` may give to the encoder. -/
structure Encodable (p : MixerParams) (pcm : List ℤ) : Prop where
  length_eq : pcm.length = p.packetSamples
  clipped : ∀ x ∈ pcm, |x| ≤ 15000

theorem encodable_silence (p : MixerParams) : Encodable p (List.replicate p.packetSamples 0) where
  length_eq := List.length_replicate
  clipped x hx := by simp [List.eq_of_mem_replicate hx]

theorem encodable_clipFrame (p : MixerParams) (mixed : List ℚ) : Encodable p (clipFrame p mixed) where
  length_eq := by rw [clipFrame, List.length_map, List.length_range]
  clipped x hx := by
    obtain ⟨i, -, rfl⟩ := List.mem_map.1 hx
    exact abs_hardClipFloat_le _ (by norm_num)

/-! ## Signals -/

namespace SquelchShotsGenerator

theorem isByte_randomSignalByte (m : SquelchShotsGenerator) :
    IsByte m.randomSignalByte.signalByte := by
  unfold randomSignalByte
  have hbyte : ∀ v : ℚ, IsByte (min 100 (max 0 v) / 100 * 255) := by
    intro v
    have hlow : 0 ≤ min 100 (max 0 v) := le_min (by norm_num) (le_max_left 0 v)
    have hhigh := min_le_left 100 (max 0 v)
    exact ⟨by positivity, by linarith⟩
  split_ifs <;> exact hbyte _

@[simp] theorem schedule_signalByte (now : ℤ) (m : SquelchShotsGenerator) :
    (m.schedule now).signalByte = m.signalByte := rfl

theorem isByte_process {m : SquelchShotsGenerator} (h : IsByte m.signalByte) (now : ℤ)
    {ctx : AudioProcessContext} (hctx : IsByte ctx.avgSignalByte) :
    IsByte (m.process now ctx).1.signalByte ∧ IsByte (m.process now ctx).2.avgSignalByte := by
  have hstart : IsByte (if m.nextAt = none then m.schedule now else m).signalByte := by
    split_ifs <;> exact h
  by_cases hactive : ctx.control.txActive = true
  · rw [process, if_pos hactive]
    exact ⟨h, hctx⟩
  · rw [process, if_neg hactive]
    dsimp only
    generalize (if m.nextAt = none then m.schedule now else m) = m at hstart
    cases m.phase with
    | idle =>
      dsimp only
      split_ifs
      · exact ⟨hstart, hctx⟩
      · exact ⟨isByte_randomSignalByte m, isByte_randomSignalByte m⟩
    | startTick => exact ⟨hstart, hstart⟩
    | silentTx => exact ⟨hstart, hstart⟩
    | eofTick => exact ⟨hstart, hstart⟩

end SquelchShotsGenerator

theorem PopsModule.process_avgSignalByte (m : PopsModule) (ctx : AudioProcessContext) :
    (m.process ctx).2.avgSignalByte = ctx.avgSignalByte := by
  simp only [process]
  split_ifs <;> rfl

theorem SquelchDSPModule.process_avgSignalByte (m : SquelchDSPModule) (ctx : AudioProcessContext) :
    (m.process ctx).2.avgSignalByte = ctx.avgSignalByte := by
  simp only [process, processIdle, processWeak]
  split_ifs <;> rfl

theorem DspChain.stage_avgSignalByte (ctx : AudioProcessContext) (c : DspChain) (name : DspName) :
    (c.stage ctx name).2.avgSignalByte = ctx.avgSignalByte := by
  cases name with
  | pops => exact c.pops.process_avgSignalByte ctx
  | squelch => exact c.squelch.process_avgSignalByte ctx
  | _ => rfl

/-- The DSP chain does not touch the signal of a frame. -/
theorem DspChain.run_avgSignalByte (names : List DspName) (ctx : AudioProcessContext)
    (c : DspChain) : (c.run names ctx).2.avgSignalByte = ctx.avgSignalByte := by
  induction names generalizing ctx c with
  | nil => rfl
  | cons name names ih =>
    rw [DspChain.run]
    dsimp only
    split_ifs
    · exact stage_avgSignalByte ctx c name
    · rw [ih, stage_avgSignalByte]

/-- The signal that the stage puts on a frame of its own is a byte. -/
def ChannelStage.SignalIsByte : ChannelStage → Prop
  | .shots m => IsByte m.signalByte
  | .dsp _ => True

theorem processModuleChain_isByte (now : ℤ) {stages : List ChannelStage} {ctx : AudioProcessContext}
    (h : ∀ st ∈ stages, st.SignalIsByte) (hctx : IsByte ctx.avgSignalByte) :
    (∀ st ∈ (processModuleChain now stages ctx).1, st.SignalIsByte) ∧
      IsByte (processModuleChain now stages ctx).2.1.avgSignalByte := by
  induction stages generalizing ctx with
  | nil => exact ⟨h, hctx⟩
  | cons st stages ih =>
    obtain ⟨hst, hrest⟩ := List.forall_mem_cons.1 h
    have hstep : (AudioModule.process st now ctx).1.SignalIsByte ∧
        IsByte (AudioModule.process st now ctx).2.avgSignalByte := by
      cases st with
      | shots m => exact m.isByte_process hst now hctx
      | dsp c => exact ⟨trivial, (c.run_avgSignalByte c.order ctx).symm ▸ hctx⟩
    rw [processModuleChain]
    dsimp only
    split_ifs
    · exact ⟨List.forall_mem_cons.2 ⟨hstep.1, hrest⟩, hstep.2⟩
    · obtain ⟨hstages, hout⟩ := ih hrest hstep.2
      exact ⟨List.forall_mem_cons.2 ⟨hstep.1, hstages⟩, hout⟩

/-! ## One tick -/

namespace MixCore

variable {E : Type} {p : MixerParams} (now moduleNow : ℤ) {heard : List Heard}
  {c : MixCore (Recorder E) ChannelStage}

/-- What the mixer keeps is in range. -/
structure InRange (p : MixerParams) (c : MixCore (Recorder E) ChannelStage) : Prop where
  lastSignal : IsByte c.lastSignal
  generators : ∀ st ∈ c.generators, st.SignalIsByte
  dspMods : ∀ st ∈ c.dspMods, st.SignalIsByte
  given : ∀ pcm ∈ c.encoder.given, Encodable p pcm

/-- The frame is the next one. -/
structure NextFrame (c : MixCore (Recorder E) ChannelStage) (f : MixedFrame) : Prop where
  seq_eq : f.seq = u32 (c.seq + 1)
  signal : 0 ≤ f.signal ∧ f.signal ≤ 255
  opus : f.opus ≠ []

/-- A tick that starts in `c` keeps the ranges, and sends the next frame or none. -/
structure Ticks (p : MixerParams) (c : MixCore (Recorder E) ChannelStage)
    (r : MixCore (Recorder E) ChannelStage × Option MixedFrame) : Prop where
  inRange : r.1.InRange p
  next : ∀ f ∈ r.2, NextFrame c f
  seq_eq : r.1.seq = (r.2.map (·.seq)).getD c.seq

theorem Ticks.of_seq_eq {c' : MixCore (Recorder E) ChannelStage}
    {r : MixCore (Recorder E) ChannelStage × Option MixedFrame} (h : Ticks p c' r)
    (hseq : c'.seq = c.seq) : Ticks p c r where
  inRange := h.inRange
  next f hf := ⟨hseq ▸ (h.next f hf).seq_eq, (h.next f hf).signal, (h.next f hf).opus⟩
  seq_eq := hseq ▸ h.seq_eq

theorem sum_isByte (hheard : ∀ x ∈ heard, IsByte x.signal) :
    0 ≤ (heard.map (·.signal)).sum ∧ (heard.map (·.signal)).sum ≤ heard.length * 255 := by
  induction heard with
  | nil => simp
  | cons x heard ih =>
    obtain ⟨hx, hrest⟩ := List.forall_mem_cons.1 hheard
    obtain ⟨hlow, hhigh⟩ := ih hrest
    rw [List.map_cons, List.sum_cons, List.length_cons]
    push_cast
    exact ⟨add_nonneg hx.1 hlow, by linarith [hx.2]⟩

theorem mean_isByte (hheard : ∀ x ∈ heard, IsByte x.signal) (hne : heard ≠ []) :
    IsByte ((heard.map (·.signal)).sum / heard.length) := by
  have hpos : (0 : ℚ) < heard.length := by exact_mod_cast List.length_pos_iff.2 hne
  obtain ⟨hlow, hhigh⟩ := sum_isByte hheard
  exact ⟨div_nonneg hlow hpos.le, (div_le_iff₀' hpos).2 hhigh⟩

/-- The mean signal of the speakers that are heard is a byte again. -/
theorem InRange.account (h : c.InRange p) (hheard : ∀ x ∈ heard, IsByte x.signal) (txEOF : Bool) :
    (c.account now heard txEOF).1.InRange p ∧ IsByte (c.account now heard txEOF).2.2 ∧
      (c.account now heard txEOF).1.seq = c.seq := by
  unfold MixCore.account
  by_cases hnil : heard = []
  · subst hnil
    refine ⟨⟨h.lastSignal, h.generators, h.dspMods, h.given⟩, ?_, rfl⟩
    simpa using h.lastSignal
  · have hmean := mean_isByte hheard hnil
    have hmax : max heard.length 1 = heard.length := max_eq_left (List.length_pos_iff.2 hnil)
    dsimp only
    simp only [if_neg hnil, hmax]
    exact ⟨⟨hmean, h.generators, h.dspMods, h.given⟩, hmean, trivial⟩

variable [OpusEncoder E]

theorem InRange.send (h : c.InRange p) (active : List SessionID) {pcm : List ℤ}
    (hpcm : Encodable p pcm) {signal : ℤ} (hsignal : 0 ≤ signal ∧ signal ≤ 255) :
    Ticks p c (c.send p now active pcm signal) := by
  have hrange : ∀ seq encoder out, OpusEncoder.encode c.encoder pcm = (encoder, out) →
      InRange p { c with encoder := encoder, seq := seq } := by
    intro seq encoder out hencode
    obtain rfl : (OpusEncoder.encode c.encoder pcm).1 = encoder := congrArg Prod.fst hencode
    refine ⟨h.lastSignal, h.generators, h.dspMods, fun x hx => ?_⟩
    rcases List.mem_append.1 hx with hx | hx
    · exact h.given x hx
    · rwa [List.mem_singleton.1 hx]
  unfold MixCore.send
  split
  · next hencode => exact ⟨hrange _ _ _ hencode, fun _ hf => (Option.not_mem_none _ hf).elim, rfl⟩
  · next hencode => exact ⟨hrange _ _ _ hencode, fun _ hf => (Option.not_mem_none _ hf).elim, rfl⟩
  · next hopus hencode =>
    refine ⟨hrange _ _ _ hencode, fun f hf => ?_, rfl⟩
    cases hf
    exact ⟨rfl, hsignal, hopus⟩

theorem InRange.produce (h : c.InRange p) (control : AudioModuleControl) {avgSignal : ℚ}
    (havg : IsByte avgSignal) :
    Ticks p c (c.produce p now moduleNow heard control avgSignal) := by
  unfold MixCore.produce
  dsimp only
  set ctx : AudioProcessContext :=
    { mixed := mixed p heard
      avgSignalByte := avgSignal
      activeSpeakers := heard.length
      noiseLevelDB := c.noiseLevelDB
      control := control
      emitFrame := control.txActive }
  obtain ⟨hgen, hctx⟩ := processModuleChain_isByte moduleNow h.generators
    (show IsByte ctx.avgSignalByte from havg)
  obtain ⟨hdsp, hctx'⟩ := processModuleChain_isByte moduleNow h.dspMods hctx
  have hsignal := toInt16_mem (n := 255) hctx'.1 hctx'.2
  split_ifs
  · exact ⟨⟨h.lastSignal, hgen, h.dspMods, h.given⟩, fun _ hf => (Option.not_mem_none _ hf).elim, rfl⟩
  · exact ⟨⟨h.lastSignal, hgen, hdsp, h.given⟩, fun _ hf => (Option.not_mem_none _ hf).elim, rfl⟩
  · refine Ticks.of_seq_eq (InRange.send now ?_ _ (encodable_clipFrame p _) hsignal) rfl
    exact ⟨h.lastSignal, hgen, hdsp, h.given⟩
  · refine Ticks.of_seq_eq (InRange.send now ?_ _ (encodable_clipFrame p _) hsignal) rfl
    exact ⟨h.lastSignal, hgen, hdsp, h.given⟩
  · exact ⟨⟨h.lastSignal, hgen, hdsp, h.given⟩, fun _ hf => (Option.not_mem_none _ hf).elim, rfl⟩
  · exact ⟨⟨h.lastSignal, hgen, hdsp, h.given⟩, fun _ hf => (Option.not_mem_none _ hf).elim, rfl⟩

/-- What a tick sends. -/
theorem InRange.broadcast (h : c.InRange p) (hheard : ∀ x ∈ heard, IsByte x.signal)
    (txEOF : Bool) :
    Ticks p c ((c.broadcast p now moduleNow heard txEOF).1,
      (c.broadcast p now moduleNow heard txEOF).2.frame) := by
  obtain ⟨hrange, havg, hseq⟩ := h.account now hheard txEOF
  unfold MixCore.broadcast
  dsimp only
  split_ifs
  · have hsignal : IsByte (min (max (c.account now heard txEOF).1.lastSignal 0) 255) :=
      ⟨le_min (le_max_right _ 0) (by norm_num), min_le_right _ 255⟩
    have hsend := hrange.send now (heard.map (·.sid)) (encodable_silence p)
      (toInt16_mem (n := 255) hsignal.1 hsignal.2)
    exact Ticks.of_seq_eq ⟨⟨hsend.inRange.lastSignal, hsend.inRange.generators,
      hsend.inRange.dspMods, hsend.inRange.given⟩, hsend.next, hsend.seq_eq⟩ hseq
  · refine Ticks.of_seq_eq ?_ hseq
    exact hrange.produce now moduleNow _ havg

end MixCore

/-! ## The speakers -/

section Speakers

variable {D : Type} {p : MixerParams} {now : ℤ}

namespace SpeakerStreamState

@[simp] theorem flush_lastSignal (st : SpeakerStreamState) :
    st.flush.lastSignal = st.lastSignal := rfl

@[simp] theorem forceStartPaused_lastSignal (st : SpeakerStreamState) :
    (st.forceStartPaused p now).lastSignal = st.lastSignal := by
  unfold forceStartPaused
  split_ifs <;> rfl

@[simp] theorem conceal_lastSignal (st : SpeakerStreamState) :
    (st.conceal p now).1.lastSignal = st.lastSignal := rfl

@[simp] theorem adaptJitterOnTick_lastSignal (freshFromUDP usedConceal : Bool) (floor ceil : ℤ)
    (st : SpeakerStreamState) :
    (st.adaptJitterOnTick freshFromUDP usedConceal floor ceil).lastSignal = st.lastSignal := by
  simp only [adaptJitterOnTick]
  split_ifs <;> rfl

end SpeakerStreamState

namespace Stream

variable (p now) in
theorem pull_lastSignal (v : Stream D) : (v.pull p now).1.st.lastSignal = v.st.lastSignal := by
  simp only [pull, maybeFlushDecoderAfterEOF]
  split_ifs <;> simp

variable (p now) in
theorem decode_isByte [OpusDecoder D] {v : Stream D} (h : IsByte v.st.lastSignal) (dec : D)
    (pkt : Option AudioPacket) : IsByte (v.decode p now dec pkt).1.st.lastSignal := by
  unfold decode
  split
  · exact h
  · split
    · exact h
    · exact h
    · exact isByte_toNat _

variable (p now) in
theorem finish_lastSignal (frame : Option (List ℤ)) (v : Stream D) :
    (v.finish p now frame).1.st.lastSignal = v.st.lastSignal ∧
      ∀ f ∈ (v.finish p now frame).2, f.2 = v.st.lastSignal := by
  constructor
  · simp only [finish]
    split_ifs <;> simp
  · intro f hf
    obtain ⟨_, -, rfl⟩ := Option.mem_map.1 hf
    rfl

variable (p now) in
theorem mix_isByte [OpusDecoder D] {v : Stream D} (h : IsByte v.st.lastSignal) (isRepeater : Bool) :
    IsByte (v.mix p now isRepeater).1.st.lastSignal ∧
      ∀ f ∈ (v.mix p now isRepeater).2.frame, IsByte f.2 := by
  rw [← pull_lastSignal p now] at h
  unfold mix
  dsimp only
  split
  · exact ⟨h, fun _ hf => (Option.not_mem_none _ hf).elim⟩
  · next dec _ =>
    have hdecoded := decode_isByte p now h dec (v.pull p now).2
    obtain ⟨hstate, hframe⟩ := finish_lastSignal p now
      ((v.pull p now).1.decode p now dec (v.pull p now).2).2
      ((v.pull p now).1.decode p now dec (v.pull p now).2).1
    exact ⟨hstate ▸ hdecoded, fun f hf => hframe f hf ▸ hdecoded⟩

end Stream

namespace Speaker

/-- The last signal of the session is a byte. -/
def SignalIsByte (sp : Speaker D) : Prop := ∀ st ∈ sp.st, IsByte st.lastSignal

theorem SignalIsByte.mix [OpusDecoder D] {sp : Speaker D} (h : sp.SignalIsByte)
    (isRepeater : Bool) :
    (sp.mix p now isRepeater).1.SignalIsByte ∧
      ∀ f ∈ (sp.mix p now isRepeater).2.frame, IsByte f.2 := by
  unfold Speaker.mix
  split
  · exact ⟨h, fun _ hf => (Option.not_mem_none _ hf).elim⟩
  · next st hst =>
    obtain ⟨hstate, hframe⟩ := Stream.mix_isByte p now
      (v := ⟨st, sp.eofMarked, sp.decoder⟩) (h st hst) isRepeater
    exact ⟨fun st' hst' => Option.some.inj hst' ▸ hstate, hframe⟩

theorem SignalIsByte.cleanup {sp : Speaker D} (h : sp.SignalIsByte) (present : Bool) :
    (sp.cleanup p now present).SignalIsByte := by
  unfold Speaker.cleanup
  split_ifs
  · exact fun _ hst => (Option.not_mem_none _ hst).elim
  · exact h

end Speaker

end Speakers

/-! ## A run -/

namespace Mixer

variable {D E : Type} [OpusDecoder D] {p : MixerParams} {mods : ModuleSet ChannelStage}
  {s : Mixer D (Recorder E) ChannelStage}

structure InRange (p : MixerParams) (s : Mixer D (Recorder E) ChannelStage) : Prop where
  core : s.core.InRange p
  speaker : ∀ sid, (s.speaker sid).SignalIsByte

/-- The loop starts again with an encoder that has not been used. -/
def FreshEncoder : LoopEvent (Recorder E) → Prop
  | .restart (some encoder) => encoder.given = []
  | _ => True

theorem InRange.heard (h : s.InRange p) (t : TickInput) :
    ∀ x ∈ s.heard p t, IsByte x.signal := by
  intro x hx
  obtain ⟨sid, -, hsid⟩ := List.mem_filterMap.1 hx
  split_ifs at hsid
  obtain ⟨f, hf, rfl⟩ := Option.map_eq_some_iff.1 hsid
  exact ((h.speaker sid).mix _).2 f hf

variable [OpusEncoder E]

variable (mods) in
theorem InRange.tick (h : s.InRange p) (t : TickInput) :
    (s.tick p mods t).1.InRange p ∧
      MixCore.Ticks p s.core ((s.tick p mods t).1.core, (s.tick p mods t).2.frame) := by
  have hticks := h.core.broadcast s.clock (s.clock + t.moduleDt) (h.heard t)
    (s.txEOF p t)
  exact ⟨⟨hticks.inRange, fun sid => ((h.speaker sid).mix (t.isRepeater sid)).1.cleanup _⟩, hticks⟩

variable (mods) in
/-- A round that is not a tick sends nothing. -/
theorem InRange.step_of_not_tick (h : s.InRange p) {e : LoopEvent (Recorder E)}
    (he : FreshEncoder e) (hno : ∀ t, e ≠ .tick t) :
    (Mixer.step p mods s e).1.InRange p ∧ (Mixer.step p mods s e).1.core.seq = s.core.seq ∧
      (Mixer.step p mods s e).2 = [] := by
  have hupdate : ∀ {sid : SessionID} {sp : Speaker D}, sp.SignalIsByte →
      ∀ sid', (Function.update s.speaker sid sp sid').SignalIsByte := by
    intro sid sp hsp sid'
    rw [Function.update_apply]
    split_ifs
    · exact hsp
    · exact h.speaker sid'
  cases e with
  | elapse dt => exact ⟨⟨h.core, h.speaker⟩, rfl, rfl⟩
  | packet pkt dt =>
    refine ⟨⟨h.core, hupdate fun st hst => ?_⟩, rfl, rfl⟩
    rw [← Option.some.inj hst]
    exact isByte_toNat _
  | eof sid seq =>
    refine ⟨⟨h.core, hupdate fun st hst => ?_⟩, rfl, rfl⟩
    obtain ⟨st', hst', rfl⟩ := Option.map_eq_some_iff.1 hst
    exact h.speaker sid st' hst'
  | tick t => exact absurd rfl (hno t)
  | dropDecoder sid => exact ⟨⟨h.core, hupdate (h.speaker sid)⟩, rfl, rfl⟩
  | clearRepeaterState sid => exact ⟨⟨h.core, h.speaker⟩, rfl, rfl⟩
  | restart encoder =>
    cases encoder with
    | none => exact ⟨⟨h.core, fun sid _ hst => (Option.not_mem_none _ hst).elim⟩, rfl, rfl⟩
    | some encoder =>
      have hgiven : ∀ pcm ∈ encoder.given, Encodable p pcm := by
        rw [show encoder.given = [] from he]
        simp
      exact ⟨⟨⟨h.core.lastSignal, h.core.generators, h.core.dspMods, hgiven⟩,
        fun sid _ hst => (Option.not_mem_none _ hst).elim⟩, rfl, rfl⟩

/-- The frames that are sent. -/
def frames (outs : List TickOutput) : List MixedFrame := outs.filterMap (·.frame)

/-- What holds of a mixer and of the frames that it has sent. -/
structure Sent (p : MixerParams) (s : Mixer D (Recorder E) ChannelStage) (fs : List MixedFrame) :
    Prop where
  inRange : s.InRange p
  seq_eq : s.core.seq = u32 fs.length
  numbered : fs.map (·.seq) = (List.range fs.length).map fun i => u32 (i + 1)
  wellFormed : ∀ f ∈ fs, (0 ≤ f.signal ∧ f.signal ≤ 255) ∧ f.opus ≠ []

omit [OpusDecoder D] [OpusEncoder E] in
theorem Sent.snoc {s' : Mixer D (Recorder E) ChannelStage} {fs : List MixedFrame}
    (h : Sent p s fs) (hs' : s'.InRange p) {frame : Option MixedFrame}
    (hticks : MixCore.Ticks p s.core (s'.core, frame)) : Sent p s' (fs ++ frame.toList) := by
  cases frame with
  | none =>
    rw [Option.toList_none, List.append_nil]
    exact ⟨hs', hticks.seq_eq.trans h.seq_eq, h.numbered, h.wellFormed⟩
  | some f =>
    have hf := hticks.next f rfl
    have hseq : f.seq = u32 (fs.length + 1) := by
      rw [hf.seq_eq, h.seq_eq, u32, u32, u32, Nat.mod_add_mod]
    rw [Option.toList_some]
    refine ⟨hs', ?_, ?_, ?_⟩
    · rw [List.length_append, List.length_singleton]
      exact hticks.seq_eq.trans hseq
    · rw [List.map_append, h.numbered, List.length_append, List.length_singleton, List.range_succ,
        List.map_append, List.map_singleton, List.map_singleton, hseq]
    · intro g hg
      rcases List.mem_append.1 hg with hg | hg
      · exact h.wellFormed g hg
      · rw [List.mem_singleton.1 hg]
        exact ⟨hf.signal, hf.opus⟩

variable (mods) in
theorem Sent.step {fs : List MixedFrame} (h : Sent p s fs) {e : LoopEvent (Recorder E)}
    (he : FreshEncoder e) :
    Sent p (Mixer.step p mods s e).1 (fs ++ frames (Mixer.step p mods s e).2) := by
  by_cases htick : ∃ t, e = .tick t
  · obtain ⟨t, rfl⟩ := htick
    obtain ⟨hrange, hticks⟩ := h.inRange.tick mods t
    by_cases hperm : t.order.Perm s.keys
    · simp only [Mixer.step, if_pos hperm]
      have hout : frames [(s.tick p mods t).2] = (s.tick p mods t).2.frame.toList := by
        cases hframe : (s.tick p mods t).2.frame <;> simp [frames, hframe]
      exact hout ▸ h.snoc hrange hticks
    · simp only [Mixer.step, if_neg hperm]
      simpa [frames] using h
  · obtain ⟨hrange, hseq, hnone⟩ := h.inRange.step_of_not_tick mods he (not_exists.1 htick)
    rw [hnone, frames, List.filterMap_nil, List.append_nil]
    exact ⟨hrange, hseq.trans h.seq_eq, h.numbered, h.wellFormed⟩

omit [OpusDecoder D] [OpusEncoder E] in
theorem sent_new {shots : Option SquelchShotsGenerator} (hshots : ∀ m ∈ shots, m.signalByte = 0)
    (chain : DspChain) (noiseFloor : ℚ) (encoder : E) :
    Sent (D := D) p (Mixer.new (channelModules shots chain noiseFloor) ⟨encoder, []⟩) [] where
  inRange :=
    { core :=
        { lastSignal := ⟨by norm_num [Mixer.new], by norm_num [Mixer.new]⟩
          generators := by
            intro st hst
            obtain ⟨m, hm, rfl⟩ := List.mem_map.1 hst
            have hzero := hshots m (Option.mem_toList.1 hm)
            exact ⟨hzero.ge, hzero.le.trans (by norm_num)⟩
          dspMods := fun st hst => by rw [List.mem_singleton.1 hst]; trivial
          given := fun _ hpcm => absurd hpcm List.not_mem_nil }
      speaker := fun _ _ hst => (Option.not_mem_none _ hst).elim }
  seq_eq := rfl
  numbered := rfl
  wellFormed := fun _ hf => absurd hf List.not_mem_nil

variable (mods) in
theorem sent_run {fs : List MixedFrame} (h : Sent p s fs) {es : List (LoopEvent (Recorder E))}
    (hes : ∀ e ∈ es, FreshEncoder e) :
    Sent p (after (next (Mixer.step p mods)) s es)
      (fs ++ frames (outputs (Mixer.step p mods) s es)) := by
  induction es generalizing s fs with
  | nil => simpa [frames] using h
  | cons e es ih =>
    obtain ⟨he, hrest⟩ := List.forall_mem_cons.1 hes
    have hrun := ih (h.step mods he) hrest
    rw [outputs_cons, frames, List.filterMap_append, ← List.append_assoc]
    exact hrun

variable (D p mods) in
/-- The mixer of a channel after a run of its loop. -/
abbrev afterLoop (encoder : E) (es : List (LoopEvent (Recorder E))) :
    Mixer D (Recorder E) ChannelStage :=
  after (next (Mixer.step p mods)) (Mixer.new mods ⟨encoder, []⟩) es

variable (D p mods) in
/-- The frames that it has sent in the run. -/
abbrev sentBy (encoder : E) (es : List (LoopEvent (Recorder E))) : List MixedFrame :=
  frames (outputs (Mixer.step (D := D) p mods) (Mixer.new mods ⟨encoder, []⟩) es)

end Mixer

open Mixer in
/-- Over every run of a channel, across the restarts of its loop, the frames that it sends are
numbered one after the other, their signal is a byte, and what the encoder was given is of one
length and clipped. -/
theorem mixed_frames_well_formed (D : Type) {E : Type} [OpusDecoder D] [OpusEncoder E]
    (p : MixerParams) (shots : Option SquelchShotsGenerator) (hshots : ∀ m ∈ shots, m.signalByte = 0)
    (chain : DspChain) (noiseFloor : ℚ) (encoder : E) (es : List (LoopEvent (Recorder E)))
    (hes : ∀ e ∈ es, FreshEncoder e) :
    (sentBy D p (channelModules shots chain noiseFloor) encoder es).map (·.seq) =
        (List.range (sentBy D p (channelModules shots chain noiseFloor) encoder es).length).map
          (fun i => u32 (i + 1)) ∧
      (∀ f ∈ sentBy D p (channelModules shots chain noiseFloor) encoder es,
        (0 ≤ f.signal ∧ f.signal ≤ 255) ∧ f.opus ≠ []) ∧
      ∀ pcm ∈ (afterLoop D p (channelModules shots chain noiseFloor) encoder es).core.encoder.given,
        Encodable p pcm := by
  have hrun := sent_run (channelModules shots chain noiseFloor)
    (sent_new (D := D) (p := p) hshots chain noiseFloor encoder) hes
  rw [List.nil_append] at hrun
  exact ⟨hrun.numbered, hrun.wellFormed, hrun.inRange.core.given⟩

/-- A run in which the loop starts again after its first frame. -/
def restartRun : List (LoopEvent (Recorder SilentCodec)) :=
  [.packet { sessionID := 1, seq := 1, signalStrength := 200, opus := [1], srcAddr := ⟨0, 1⟩ } 0,
    .eof 1 2, .tick { order := [1] }, .restart (some ⟨⟨⟩, []⟩), .tick { order := [] }]

theorem mixed_frames_well_formed_restart :
    ((Mixer.sentBy SilentCodec busyChannel (channelModules none squelchChain 0) ⟨⟩ restartRun).map
      (·.seq)) =
    (List.range (Mixer.sentBy SilentCodec busyChannel (channelModules none squelchChain 0) ⟨⟩
      restartRun).length).map (fun i => u32 (i + 1)) := by
  have hfresh : ∀ e ∈ restartRun, Mixer.FreshEncoder e := by
    simp [restartRun, Mixer.FreshEncoder]
  have hrun := mixed_frames_well_formed SilentCodec busyChannel none (by simp) squelchChain 0 ⟨⟩
    restartRun hfresh
  exact hrun.1

end OWalkie
