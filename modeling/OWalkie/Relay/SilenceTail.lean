import OWalkie.Lib.Countdown
import OWalkie.Relay.DspStages
import OWalkie.Relay.Mixer

/-!
# The silence tail

After a burst of squelch noise the mixer sends a number of zero frames, one a tick, and does not run
the module chain meanwhile.  `synthSilenceRemain` is a countdown over the ticks of the loop
(`isCountdown_synthSilenceRemain`), so the ticks that it takes from the chain are known from the run
(`speech_kept_iff`).
-/

namespace OWalkie

open Run

namespace MixCore

section

variable {E M : Type}

@[simp] theorem send_synthSilenceRemain [OpusEncoder E] (p : MixerParams) (now : ℤ)
    (active : List SessionID) (pcm : List ℤ) (signal : ℤ) (c : MixCore E M) :
    (c.send p now active pcm signal).1.synthSilenceRemain = c.synthSilenceRemain := by
  unfold send
  split <;> rfl

@[simp] theorem account_synthSilenceRemain (now : ℤ) (heard : List Heard) (txEOF : Bool)
    (c : MixCore E M) : (c.account now heard txEOF).1.synthSilenceRemain = c.synthSilenceRemain :=
  rfl

end

variable {E M : Type} [OpusEncoder E] [AudioModule M]

/-- The context that the two halves of the module chain leave, unless a module drops the frame. -/
def chainContext (p : MixerParams) (moduleNow : ℤ) (heard : List Heard)
    (control : AudioModuleControl) (avgSignal : ℚ) (c : MixCore E M) :
    Option AudioProcessContext :=
  let ctx : AudioProcessContext :=
    { mixed := mixed p heard
      avgSignalByte := avgSignal
      activeSpeakers := heard.length
      noiseLevelDB := c.noiseLevelDB
      control := control
      emitFrame := control.txActive }
  let (_, ctx, dropped) := processModuleChain moduleNow c.generators ctx
  if dropped then none
  else
    let (_, ctx, dropped) := processModuleChain moduleNow c.dspMods ctx
    if dropped then none else some ctx

/-- The chain changes the counter only when a module has queued the silence tail. -/
theorem produce_synthSilenceRemain (p : MixerParams) (now moduleNow : ℤ) (heard : List Heard)
    (control : AudioModuleControl) (avgSignal : ℚ) (c : MixCore E M) :
    (c.produce p now moduleNow heard control avgSignal).1.synthSilenceRemain =
      if ∃ ctx ∈ c.chainContext p moduleNow heard control avgSignal,
          ctx.queueSynthSilenceTail = true then
        c.synthSilenceRemain + synthesizedBurstSilenceTicks p
      else c.synthSilenceRemain := by
  unfold produce chainContext
  dsimp only
  split_ifs <;> simp_all

/-- A tick counts the silence tail down, or runs the chain. -/
theorem broadcast_synthSilenceRemain (p : MixerParams) (now moduleNow : ℤ) (heard : List Heard)
    (txEOF : Bool) (c : MixCore E M) :
    (c.broadcast p now moduleNow heard txEOF).1.synthSilenceRemain =
      if 0 < c.synthSilenceRemain then c.synthSilenceRemain - 1
      else ((c.account now heard txEOF).1.produce p now moduleNow heard
        (c.account now heard txEOF).2.1 (c.account now heard txEOF).2.2).1.synthSilenceRemain := by
  unfold broadcast
  dsimp only
  rw [account_synthSilenceRemain]
  split_ifs
  · simp [emitEncodedSilenceFrame]
  · rfl

end MixCore

theorem synthesizedBurstSilenceTicks_pos (p : MixerParams) :
    0 < synthesizedBurstSilenceTicks p := by
  unfold synthesizedBurstSilenceTicks
  split
  · split_ifs <;> omega
  · omega

namespace Mixer

variable {D E M : Type} [OpusDecoder D] [OpusEncoder E] [AudioModule M] (p : MixerParams)
  (mods : ModuleSet M)

/-- The core, the control event and the average signal with which the tick comes to the chain. -/
def accounted (t : TickInput) (s : Mixer D E M) : MixCore E M × AudioModuleControl × ℚ :=
  s.core.account s.clock (s.heard p t) (s.txEOF p t)

/-- The tick runs the chain, and a module queues the silence tail. -/
def QueuesSilenceTail (s : Mixer D E M) : LoopEvent E → Prop
  | .tick t => t.order.Perm s.keys ∧ ¬ 0 < s.core.synthSilenceRemain ∧
      ∃ ctx ∈ (s.accounted p t).1.chainContext p (s.clock + t.moduleDt) (s.heard p t)
        (s.accounted p t).2.1 (s.accounted p t).2.2, ctx.queueSynthSilenceTail = true
  | _ => False

/-- The loop takes a tick. -/
def Ticks (s : Mixer D E M) : LoopEvent E → Prop
  | .tick t => t.order.Perm s.keys
  | _ => False

/-- The loop starts again with a new encoder. -/
def StartsAgain (_ : Mixer D E M) : LoopEvent E → Prop
  | .restart (some _) => True
  | _ => False

instance (s : Mixer D E M) : ∀ x : LoopEvent E, Decidable (s.Ticks x)
  | .tick _ => inferInstanceAs (Decidable (List.Perm _ _))
  | .elapse _ | .packet _ _ | .eof _ _ | .dropDecoder _ | .clearRepeaterState _ | .restart _ =>
    isFalse id

variable {p mods} {s : Mixer D E M}

theorem tick_synthSilenceRemain {t : TickInput} (hperm : t.order.Perm s.keys) :
    (next (step p mods) s (.tick t)).core.synthSilenceRemain =
      if 0 < s.core.synthSilenceRemain then s.core.synthSilenceRemain - 1
      else ((s.accounted p t).1.produce p s.clock (s.clock + t.moduleDt) (s.heard p t)
        (s.accounted p t).2.1 (s.accounted p t).2.2).1.synthSilenceRemain := by
  simp only [next, step, if_pos hperm]
  exact MixCore.broadcast_synthSilenceRemain _ _ _ _ _ _

/-- Only ticks and new starts change the counter. -/
theorem synthSilenceRemain_of_not {x : LoopEvent E} (hx : ¬ s.Ticks x) (hno : ¬ s.StartsAgain x) :
    (next (step p mods) s x).core.synthSilenceRemain = s.core.synthSilenceRemain := by
  cases x with
  | tick t =>
    change ¬ t.order.Perm s.keys at hx
    simp only [next, step, if_neg hx]
  | restart encoder =>
    cases encoder with
    | none => rfl
    | some encoder => exact absurd trivial hno
  | elapse dt => rfl
  | packet pkt dt => rfl
  | eof sid seq => rfl
  | dropDecoder sid => rfl
  | clearRepeaterState sid => rfl

theorem isCountdown_synthSilenceRemain (p : MixerParams) (mods : ModuleSet M) :
    IsCountdown (next (step p mods)) (fun s : Mixer D E M => s.core.synthSilenceRemain)
      (synthesizedBurstSilenceTicks p) (QueuesSilenceTail p) Ticks StartsAgain where
  arms s x hs h := by
    cases x with
    | tick t =>
      obtain ⟨hperm, hpos, hqueue⟩ := h
      have hzero : s.core.synthSilenceRemain = 0 := by omega
      refine ⟨hzero, ?_⟩
      rw [tick_synthSilenceRemain hperm, if_neg hpos, MixCore.produce_synthSilenceRemain,
        if_pos hqueue]
      simp [accounted, hzero]
    | _ => exact h.elim
  clears s x h := by
    cases x with
    | restart encoder =>
      cases encoder with
      | none => exact h.elim
      | some encoder => rfl
    | _ => exact h.elim
  counts s x hpos hx _ := by
    cases x with
    | tick t => rw [tick_synthSilenceRemain hx, if_pos hpos]
    | _ => exact hx.elim
  rest s x harm hno hcount := by
    by_cases hx : s.Ticks x
    · cases x with
      | tick t =>
        have hpos : ¬ 0 < s.core.synthSilenceRemain := fun hpos => hcount hpos hx
        have hqueue := fun h => harm ⟨hx, hpos, h⟩
        rw [tick_synthSilenceRemain hx, if_neg hpos, MixCore.produce_synthSilenceRemain,
          if_neg hqueue]
        rfl
      | _ => exact hx.elim
    · exact synthSilenceRemain_of_not hx hno

/-! ## Speech -/

/-- What the tick puts out is what the module chain makes of the speakers that are heard. -/
def ThroughChain (p : MixerParams) (t : TickInput) (s : Mixer D E M) (out : TickOutput) : Prop :=
  out =
    { control := some (s.accounted p t).2.1
      frame := ((s.accounted p t).1.produce p s.clock (s.clock + t.moduleDt) (s.heard p t)
        (s.accounted p t).2.1 (s.accounted p t).2.2).2 }

instance (p : MixerParams) (t : TickInput) (s : Mixer D E M) (out : TickOutput) :
    Decidable (s.ThroughChain p t out) :=
  inferInstanceAs (Decidable (_ = _))

/-- A tick on which a speaker is heard goes through the module chain. -/
def SpeechKept (p : MixerParams) (mods : ModuleSet M) (s : Mixer D E M) : LoopEvent E → Prop
  | .tick t => t.order.Perm s.keys → s.heard p t ≠ [] → s.ThroughChain p t (s.tick p mods t).2
  | _ => True

/-- The last `synthesizedBurstSilenceTicks` ticks hold one whose chain queued the silence tail, and
the loop has not got a new encoder since. -/
def InSilenceTail (p : MixerParams) (mods : ModuleSet M) (s : Mixer D E M)
    (as : List (LoopEvent E)) : Prop :=
  Armed (next (step p mods)) (synthesizedBurstSilenceTicks p) (QueuesSilenceTail p) Ticks
    StartsAgain s as

/-- A tick goes through the chain if and only if it does not find the silence tail. -/
theorem throughChain_tick_iff (mods : ModuleSet M) (s : Mixer D E M) (t : TickInput) :
    s.ThroughChain p t (s.tick p mods t).2 ↔ ¬ 0 < s.core.synthSilenceRemain := by
  have hout : (s.tick p mods t).2 = (s.core.broadcast p s.clock (s.clock + t.moduleDt)
      (s.heard p t) (s.txEOF p t)).2 := rfl
  have haccount : (s.core.account s.clock (s.heard p t) (s.txEOF p t)).1.synthSilenceRemain =
      s.core.synthSilenceRemain := rfl
  unfold ThroughChain
  rw [hout, MixCore.broadcast]
  dsimp only
  rw [haccount]
  by_cases hpos : 0 < s.core.synthSilenceRemain
  · rw [if_pos hpos]
    simp [hpos]
  · rw [if_neg hpos]
    simp [hpos, accounted]

/-- No tick on which a speaker is heard is taken from the chain if and only if no speaker is heard
on the ticks of a silence tail. -/
theorem speech_kept_iff (p : MixerParams) (mods : ModuleSet M) (encoder : E)
    (as : List (LoopEvent E)) :
    Along (next (step p mods)) (SpeechKept p mods) (Mixer.new mods encoder : Mixer D E M) as ↔
      ∀ pre t post, as = pre ++ .tick t :: post →
        t.order.Perm (after (next (step p mods)) (Mixer.new mods encoder) pre : Mixer D E M).keys →
        (after (next (step p mods)) (Mixer.new mods encoder) pre : Mixer D E M).heard p t ≠ [] →
          ¬ InSilenceTail p mods (Mixer.new mods encoder : Mixer D E M) pre := by
  have hpos : ∀ pre, InSilenceTail p mods (Mixer.new mods encoder : Mixer D E M) pre ↔
      0 < (after (next (step p mods)) (Mixer.new mods encoder) pre :
        Mixer D E M).core.synthSilenceRemain :=
    fun pre => ((isCountdown_synthSilenceRemain p mods).pos_iff
      (synthesizedBurstSilenceTicks_pos p) rfl pre).symm
  constructor
  · intro h pre t post heq hperm hheard
    rw [hpos]
    exact (throughChain_tick_iff mods _ t).1 (h pre (.tick t) post heq hperm hheard)
  · intro h pre x post heq
    cases x with
    | tick t =>
      intro hperm hheard
      have hno := h pre t post heq hperm hheard
      rw [hpos] at hno
      exact (throughChain_tick_iff mods _ t).2 hno
    | _ => exact trivial

instance (p : MixerParams) (mods : ModuleSet M) (s : Mixer D E M) :
    ∀ x : LoopEvent E, Decidable (s.SpeechKept p mods x)
  | .tick _ => inferInstanceAs (Decidable (_ → _ → _))
  | .elapse _ | .packet _ _ | .eof _ _ | .dropDecoder _ | .clearRepeaterState _ | .restart _ =>
    isTrue trivial

/-- Session 1 speaks and ends; its squelch tail queues four silent ticks, and the first of them is
the one on which session 2 is heard. -/
theorem speech_swallowed :
    ¬ Along (next (step (ServerConfig.params { jitterMinPkts := 1 } (some shortSquelch.tail))
        (squelchChain.moduleSet (-30))))
      (SpeechKept (ServerConfig.params { jitterMinPkts := 1 } (some shortSquelch.tail))
        (squelchChain.moduleSet (-30)))
      (Mixer.new (squelchChain.moduleSet (-30)) ⟨⟩ : Mixer SilentCodec SilentCodec DspChain)
      [packetOfOne 1, .elapse 20000000, tickOfOne, .eof 1 2, .elapse 20000000, tickOfOne,
        .packet ⟨2, 1, 200, [1], ⟨0, 7002⟩⟩ 0,
        .elapse 20000000, .tick { order := [2, 1] }] := by
  decide +kernel

end Mixer

end OWalkie
