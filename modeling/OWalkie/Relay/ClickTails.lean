import OWalkie.Lib.OverlapAdd
import OWalkie.Lib.Run
import OWalkie.Relay.Config
import OWalkie.Relay.DspStages

/-!
# The tails of the clicks

`clicksModule` adds random impulses to the frames of an active channel, each with the response of a
band-pass filter to it.  What of a response lies behind the end of its frame goes to `tailBuf`,
which is added to the next frames.  `added_of_room`: what the module adds is the sum of the
responses, each at the position of its impulse, as long as no response passes the end of its frame
while `tailBuf` still holds more than that frame.  It is put behind the rest of the earlier ones
then (`tails_queue_up`).
-/

namespace OWalkie

open Run OverlapAdd

/-! ## The filter -/

structure OnePoleHP where
  alpha : ℚ
  prevX : ℚ := 0
  prevY : ℚ := 0
deriving Repr, DecidableEq

structure OnePoleLP where
  alpha : ℚ
  prevY : ℚ := 0
deriving Repr, DecidableEq

def OnePoleHP.process (f : OnePoleHP) (x : ℚ) : OnePoleHP × ℚ :=
  let y := f.alpha * (f.prevY + x - f.prevX)
  ({ f with prevX := x, prevY := y }, y)

def OnePoleLP.process (f : OnePoleLP) (x : ℚ) : OnePoleLP × ℚ :=
  let y := f.prevY + f.alpha * (x - f.prevY)
  ({ f with prevY := y }, y)

/-- Run the sample through the poles in their order. -/
def throughPoles {F : Type} (process : F → ℚ → F × ℚ) : List F → ℚ → List F × ℚ
  | [], x => ([], x)
  | f :: fs, x =>
    let (f, y) := process f x
    let (fs, y) := throughPoles process fs y
    (f :: fs, y)

structure BandPass where
  hp : List OnePoleHP
  lp : List OnePoleLP
deriving Repr, DecidableEq

namespace BandPass

def processSample (b : BandPass) (x : ℚ) : BandPass × ℚ :=
  let (hp, y) := throughPoles OnePoleHP.process b.hp x
  let (lp, y) := throughPoles OnePoleLP.process b.lp y
  (⟨hp, lp⟩, y)

def reset (b : BandPass) : BandPass where
  hp := b.hp.map fun f => { f with prevX := 0, prevY := 0 }
  lp := b.lp.map fun f => { f with prevY := 0 }

end BandPass

/-- What the code computes with `math.Pow` and `math.Pi`. -/
structure ClickMath where
  dbToLinear : ℚ → ℚ
  /-- the coefficient of a high-pass and of a low-pass pole for a cutoff -/
  hpAlpha : ℚ → ℚ
  lpAlpha : ℚ → ℚ

def newBandPass (M : ClickMath) (lowCut highCut : ℚ) : Option BandPass :=
  let poles := 4
  if lowCut ≤ 0 ∧ highCut ≤ 0 then none
  else some
    { hp := if 0 < lowCut then List.replicate poles { alpha := M.hpAlpha lowCut } else []
      lp := if 0 < highCut then List.replicate poles { alpha := M.lpAlpha highCut } else [] }

/-! ## The module -/

structure ClicksModule where
  M : ClickMath
  packetDur : ℤ
  probWeak : ℚ
  probStrong : ℚ
  gainWeakDB : ℚ
  gainStrongDB : ℚ
  peakLinearAmp : ℚ
  clickBP : Option BandPass
  tailBuf : List ℚ := []
  rapidInterval : ℤ
  rapidRemain : ℤ := 0
  rand : Rand
  /-- the draws of `rand.Float64` -/
  floats : ℕ → ℚ
  floatsUsed : ℕ := 0

def newClicksModule (M : ClickMath) (packetDur : ℤ) (rand : Rand) (floats : ℕ → ℚ)
    (cfg : RelayConfig.ClicksConfig) : ClicksModule where
  M := M
  packetDur := packetDur
  probWeak := cfg.impulseProbAtWeak
  probStrong := cfg.impulseProbAtStrong
  gainWeakDB := cfg.impulseGainAtWeakDB.getD cfg.impulseGainDB
  gainStrongDB := cfg.impulseGainAtStrongDB.getD cfg.impulseGainDB
  peakLinearAmp := min 32767 (max 0 (32767 *
    max (M.dbToLinear (cfg.impulseGainAtWeakDB.getD cfg.impulseGainDB))
      (M.dbToLinear (cfg.impulseGainAtStrongDB.getD cfg.impulseGainDB))))
  clickBP :=
    match cfg.filter with
    | some f => if f.enabled then newBandPass M f.lowCutHz f.highCutHz else none
    | none => none
  rapidInterval := if 0 < cfg.multiClientRapidMs then cfg.multiClientRapidMs * millisecond else 0
  rand := rand
  floats := floats

/-- `mapSignalByteToImpulseProbability` and `mapSignalByteToImpulseGainDB`. -/
def mapSignalByte (signalByte weak strong : ℚ) : ℚ :=
  let pct := signalByte / 255 * 100
  if pct ≤ 10 then weak
  else if 100 ≤ pct then strong
  else weak + (pct - 10) / 90 * (strong - weak)

def clickTailEpsilon : ℚ := 1 / 1000000

def clickTailMaxSamples : ℕ := 6000

def clickTailMinSamples : ℕ := 24

/-- The loop of `injectImpulse` from its round `n` on, with `k` rounds left. -/
def clickLoop (i : ℕ) : ℕ → ℕ → BandPass → ℚ → List ℚ → List ℚ → BandPass × List ℚ × List ℚ
  | 0, _, bp, _, mixed, tailBuf => (bp, mixed, tailBuf)
  | k + 1, n, bp, x, mixed, tailBuf =>
    let (bp, y) := bp.processSample x
    if clickTailMinSamples ≤ n ∧ |y| < clickTailEpsilon then (bp, mixed, tailBuf)
    else if i + n < mixed.length then
      clickLoop i k (n + 1) bp 0 (mixed.modify (i + n) fun z => z + y) tailBuf
    else clickLoop i k (n + 1) bp 0 mixed (tailBuf ++ [y])

namespace ClicksModule

/-- The amplitude of an impulse, before it is limited. -/
def amplitude (m : ClicksModule) (signalByte : ℚ) : ℚ :=
  32767 * m.M.dbToLinear (mapSignalByte signalByte m.gainWeakDB m.gainStrongDB)

def injectImpulse (ctx : AudioProcessContext) (signalByte : ℚ) (m : ClicksModule) :
    ClicksModule × AudioProcessContext :=
  if ctx.mixed = [] then (m, ctx)
  else if m.amplitude signalByte ≤ 0 then (m, ctx)
  else
    let amp := min (m.amplitude signalByte) 32767
    let (i, rand) := m.rand.intn ctx.mixed.length
    let (k, rand) := rand.intn 2
    let inVal := (if k = 0 then -1 else 1) * amp
    match m.clickBP with
    | none =>
      ({ m with rand := rand },
        { ctx with mixed := ctx.mixed.modify i fun z => z + inVal, emitFrame := true })
    | some bp =>
      let (bp, mixed, tailBuf) :=
        clickLoop i clickTailMaxSamples 0 bp.reset inVal ctx.mixed m.tailBuf
      ({ m with rand := rand, clickBP := some bp, tailBuf := tailBuf },
        { ctx with mixed := mixed, emitFrame := true })

def flushClickTail (ctx : AudioProcessContext) (m : ClicksModule) :
    ClicksModule × AudioProcessContext :=
  if m.tailBuf = [] ∨ ctx.mixed = [] then (m, ctx)
  else
    let n := min m.tailBuf.length ctx.mixed.length
    ({ m with tailBuf := m.tailBuf.drop n },
      { ctx with
        mixed := ctx.mixed.mapIdx fun i x => if i < n then x + m.tailBuf.getD i 0 else x
        emitFrame := true })

/-- What `Process` does behind the flush. -/
def maybeInject (ctx : AudioProcessContext) (m : ClicksModule) :
    ClicksModule × AudioProcessContext :=
  if ctx.control.multiClientMix then
    if m.rapidInterval ≤ 0 then m.injectImpulse ctx ctx.signal
    else
      let (m, ctx) :=
        if m.rapidRemain ≤ 0 then
          let (m, ctx) := m.injectImpulse ctx ctx.signal
          ({ m with rapidRemain := m.rapidInterval }, ctx)
        else (m, ctx)
      ({ m with rapidRemain := m.rapidRemain - m.packetDur }, ctx)
  else
    let m := { m with rapidRemain := 0 }
    let p := mapSignalByte ctx.signal m.probWeak m.probStrong
    if p ≤ 0 then (m, ctx)
    else
      let x := m.floats m.floatsUsed
      let m := { m with floatsUsed := m.floatsUsed + 1 }
      if p ≤ x then (m, ctx) else m.injectImpulse ctx ctx.signal

/-- `Process`. -/
def process (ctx : AudioProcessContext) (m : ClicksModule) : ClicksModule × AudioProcessContext :=
  if m.peakLinearAmp ≤ 0 ∨ ctx.mixed = [] then (m, ctx)
  else if ctx.active = false then ({ m with tailBuf := [], rapidRemain := 0 }, ctx)
  else
    let (m, ctx) := m.flushClickTail ctx
    m.maybeInject ctx

end ClicksModule

/-! ## The impulses and their responses -/

/-- The samples that the loop computes from its round `n` on, with `k` rounds left. -/
def BandPass.response : ℕ → ℕ → BandPass → ℚ → List ℚ
  | 0, _, _, _ => []
  | k + 1, n, bp, x =>
    let (bp, y) := bp.processSample x
    if clickTailMinSamples ≤ n ∧ |y| < clickTailEpsilon then [] else y :: response k (n + 1) bp 0

/-- The truncated response of the filter to an impulse. -/
def BandPass.truncatedResponse (bp : BandPass) (x : ℚ) : List ℚ :=
  bp.reset.response clickTailMaxSamples 0 x

namespace ClicksModule

/-- An impulse is due on this frame. -/
def due (ctx : AudioProcessContext) (m : ClicksModule) : Bool :=
  if ctx.control.multiClientMix then decide (m.rapidInterval ≤ 0 ∨ m.rapidRemain ≤ 0)
  else
    let p := mapSignalByte ctx.signal m.probWeak m.probStrong
    decide (0 < p ∧ m.floats m.floatsUsed < p)

/-- The offset and the value of the impulse that is drawn for a frame. -/
def drawn (ctx : AudioProcessContext) (m : ClicksModule) : ℕ × ℚ :=
  (m.rand.draws m.rand.used % ctx.mixed.length,
    (if m.rand.draws (m.rand.used + 1) % 2 = 0 then -1 else 1) * min (m.amplitude ctx.signal) 32767)

/-- The impulse, if its amplitude is positive, with the response of the filter to it. -/
def response (bp : BandPass) (ctx : AudioProcessContext) (m : ClicksModule) :
    List (ℕ × List ℚ) :=
  if 0 < m.amplitude ctx.signal then
    [((m.drawn ctx).1, bp.truncatedResponse (m.drawn ctx).2)]
  else []

/-- The impulses of a frame (at most one), each with the response of the filter. -/
def impulses (ctx : AudioProcessContext) (m : ClicksModule) : List (ℕ × List ℚ) :=
  match m.clickBP with
  | none => []
  | some bp =>
    if 0 < m.peakLinearAmp ∧ ctx.mixed ≠ [] ∧ m.due ctx = true then m.response bp ctx else []

/-- A response that passes the end of its frame finds nothing left of the earlier ones behind it. -/
def Room (ctx : AudioProcessContext) (m : ClicksModule) : Prop :=
  ∀ r ∈ m.impulses ctx, m.tailBuf.length ≤ ctx.mixed.length ∨
    r.1 + r.2.length ≤ ctx.mixed.length

instance (ctx : AudioProcessContext) (m : ClicksModule) : Decidable (m.Room ctx) :=
  inferInstanceAs (Decidable (∀ r ∈ m.impulses ctx, _ ∨ _))

end ClicksModule

/-- The module along a run, with what it has added to the stream and the impulses at their
positions in it. -/
structure ClickRun where
  module : ClicksModule
  added : List ℚ := []
  impulses : List (ℕ × List ℚ) := []

def ClickRun.step (s : ClickRun) (ctx : AudioProcessContext) : ClickRun where
  module := (s.module.process ctx).1
  added := s.added ++ List.zipWith (fun y x => y - x) (s.module.process ctx).2.mixed ctx.mixed
  impulses := s.impulses ++ (s.module.impulses ctx).map fun r => (s.added.length + r.1, r.2)

/-! ## One frame -/

theorem clickLoop_eq (i : ℕ) (k n : ℕ) (bp : BandPass) (x : ℚ) (mixed tailBuf : List ℚ) :
    ∃ bp' mixed', clickLoop i k n bp x mixed tailBuf =
        (bp', mixed', tailBuf ++ (bp.response k n x).drop (mixed.length - (i + n))) ∧
      mixed'.length = mixed.length ∧ ∀ t < mixed.length,
        ofList mixed' t = ofList mixed t + delay (i + n) (ofList (bp.response k n x)) t := by
  induction k generalizing n bp x mixed tailBuf with
  | zero =>
    refine ⟨bp, mixed, ?_, rfl, fun t _ => ?_⟩
    · rw [clickLoop, BandPass.response, List.drop_nil, List.append_nil]
    · rw [BandPass.response, delay_ofList_nil, add_zero]
  | succ k ih =>
    rw [clickLoop, BandPass.response]
    dsimp only
    split_ifs with hend hin
    · refine ⟨(bp.processSample x).1, mixed, ?_, rfl, fun t _ => ?_⟩
      · rw [List.drop_nil, List.append_nil]
      · rw [delay_ofList_nil, add_zero]
    · obtain ⟨bp', mixed', heq, hlen, hadd⟩ := ih (n + 1) (bp.processSample x).1 0
        (mixed.modify (i + n) fun z => z + (bp.processSample x).2) tailBuf
      rw [List.length_modify] at heq hlen hadd
      refine ⟨bp', mixed', ?_, hlen, fun t ht => ?_⟩
      · rw [heq, show mixed.length - (i + n) = mixed.length - (i + (n + 1)) + 1 by omega,
          List.drop_succ_cons]
      · rw [hadd t ht, ofList_modify_add hin, delay_ofList_cons, add_assoc, Nat.add_assoc]
    · obtain ⟨bp', mixed', heq, hlen, hadd⟩ := ih (n + 1) (bp.processSample x).1 0 mixed
        (tailBuf ++ [(bp.processSample x).2])
      refine ⟨bp', mixed', ?_, hlen, fun t ht => ?_⟩
      · rw [heq, Nat.sub_eq_zero_of_le (by omega), Nat.sub_eq_zero_of_le (by omega), List.drop_zero,
          List.drop_zero, List.append_assoc, List.singleton_append]
      · rw [hadd t ht, delay_of_lt (by omega), delay_of_lt (by omega)]

namespace ClicksModule

/-- What happens to a frame and to the module on which the impulses `rs` are added. -/
structure Adds (rs : List (ℕ × List ℚ)) (xs : List ℚ) (m : ClicksModule) (ys : List ℚ)
    (m' : ClicksModule) : Prop where
  length : ys.length = xs.length
  mixed : ∀ t < xs.length, ofList ys t = ofList xs t + overlapAdd rs t
  tail : m'.tailBuf = m.tailBuf ++ rs.flatMap fun r => r.2.drop (xs.length - r.1)
  filter : m'.clickBP.isSome = true
  peak : m'.peakLinearAmp = m.peakLinearAmp

variable {m : ClicksModule} {ctx : AudioProcessContext} {bp : BandPass}

theorem adds_nil (hbp : m.clickBP = some bp) (mixed : List ℚ) : Adds [] mixed m mixed m where
  length := rfl
  mixed t _ := (add_zero _).symm
  tail := (List.append_nil _).symm
  filter := by rw [hbp]; rfl
  peak := rfl

theorem injectImpulse_adds (hbp : m.clickBP = some bp) (hne : ctx.mixed ≠ []) :
    Adds (m.response bp ctx) ctx.mixed m (m.injectImpulse ctx ctx.signal).2.mixed
      (m.injectImpulse ctx ctx.signal).1 := by
  rw [response, injectImpulse, if_neg hne]
  by_cases hamp : m.amplitude ctx.signal ≤ 0
  · rw [if_pos hamp, if_neg (not_lt.2 hamp)]
    exact adds_nil hbp _
  · rw [if_neg hamp, if_pos (not_le.1 hamp)]
    obtain ⟨bp', mixed', heq, hlen, hadd⟩ := clickLoop_eq (m.drawn ctx).1 clickTailMaxSamples 0
      bp.reset (m.drawn ctx).2 ctx.mixed m.tailBuf
    dsimp only
    rw [hbp]
    show Adds _ _ _ (clickLoop (m.drawn ctx).1 clickTailMaxSamples 0 bp.reset (m.drawn ctx).2
      ctx.mixed m.tailBuf).2.1 { m with
        rand := _
        clickBP := some (clickLoop (m.drawn ctx).1 clickTailMaxSamples 0 bp.reset (m.drawn ctx).2
          ctx.mixed m.tailBuf).1
        tailBuf := (clickLoop (m.drawn ctx).1 clickTailMaxSamples 0 bp.reset (m.drawn ctx).2
          ctx.mixed m.tailBuf).2.2 }
    rw [heq]
    refine ⟨hlen, fun t ht => ?_, ?_, rfl, rfl⟩
    · rw [overlapAdd_singleton]
      exact hadd t ht
    · rw [List.flatMap_singleton]
      rfl

/-- The frame behind the flush. -/
theorem flushClickTail_eq (hne : ctx.mixed ≠ []) : ∃ mixed emitFrame,
    m.flushClickTail ctx = ({ m with tailBuf := m.tailBuf.drop ctx.mixed.length },
        { ctx with mixed := mixed, emitFrame := emitFrame }) ∧
      mixed.length = ctx.mixed.length ∧
      ∀ t < ctx.mixed.length, ofList mixed t = ofList ctx.mixed t + ofList m.tailBuf t := by
  rw [flushClickTail]
  by_cases htail : m.tailBuf = []
  · rw [if_pos (.inl htail)]
    refine ⟨ctx.mixed, ctx.emitFrame, ?_, rfl, fun t _ => ?_⟩
    · rw [htail, List.drop_nil, ← htail]
    · rw [htail, ofList_nil, add_zero]
  · rw [if_neg (not_or.2 ⟨htail, hne⟩)]
    refine ⟨_, true, congrArg (fun l => ({ m with tailBuf := l }, _)) ?_, List.length_mapIdx, ?_⟩
    · rcases le_total m.tailBuf.length ctx.mixed.length with hle | hle
      · rw [min_eq_left hle, List.drop_length, List.drop_eq_nil_of_le hle]
      · rw [min_eq_right hle]
    · intro t ht
      rw [ofList_of_lt (by rwa [List.length_mapIdx]), List.getElem_mapIdx, ofList_of_lt ht]
      split_ifs with hn
      · rfl
      · rw [ofList_of_length_le (by omega), add_zero]

theorem maybeInject_adds (ctx : AudioProcessContext) (hbp : m.clickBP = some bp)
    (hne : ctx.mixed ≠ []) :
    Adds (if m.due ctx then m.response bp ctx else []) ctx.mixed m (m.maybeInject ctx).2.mixed
      (m.maybeInject ctx).1 := by
  have hinjected := injectImpulse_adds hbp hne
  have hnone := adds_nil hbp ctx.mixed
  rw [due, maybeInject]
  by_cases hmulti : ctx.control.multiClientMix = true
  · rw [if_pos hmulti, if_pos hmulti]
    by_cases hinterval : m.rapidInterval ≤ 0
    · rw [if_pos hinterval, decide_eq_true (.inl hinterval), if_pos rfl]
      exact hinjected
    · rw [if_neg hinterval]
      by_cases hremain : m.rapidRemain ≤ 0
      · rw [if_pos hremain, decide_eq_true (.inr hremain), if_pos rfl]
        exact { hinjected with }
      · rw [if_neg hremain, decide_eq_false (not_or.2 ⟨hinterval, hremain⟩)]
        exact { hnone with }
  · rw [if_neg hmulti, if_neg hmulti]
    dsimp only
    by_cases hp : mapSignalByte ctx.signal m.probWeak m.probStrong ≤ 0
    · rw [if_pos hp, decide_eq_false fun h => not_lt.2 hp h.1]
      exact { hnone with }
    · rw [if_neg hp]
      by_cases hx : mapSignalByte ctx.signal m.probWeak m.probStrong ≤ m.floats m.floatsUsed
      · rw [if_pos hx, decide_eq_false fun h => not_lt.2 hx h.2]
        exact { hnone with }
      · rw [if_neg hx, decide_eq_true ⟨not_le.1 hp, not_le.1 hx⟩, if_pos rfl]
        exact { injectImpulse_adds
          (m := { m with rapidRemain := 0, floatsUsed := m.floatsUsed + 1 }) hbp hne with }

theorem impulses_eq (hbp : m.clickBP = some bp) : m.impulses ctx =
    if 0 < m.peakLinearAmp ∧ ctx.mixed ≠ [] ∧ m.due ctx = true then m.response bp ctx else [] := by
  rw [impulses, hbp]

/-- What a frame of an active channel does: the tail goes on, and then the impulses are added. -/
theorem process_adds (hbp : m.clickBP = some bp) (hactive : ctx.active = true)
    (hsilent : m.peakLinearAmp ≤ 0 → m.tailBuf = []) : ∃ mixed : List ℚ,
      mixed.length = ctx.mixed.length ∧
      (∀ t < ctx.mixed.length, ofList mixed t = ofList ctx.mixed t + ofList m.tailBuf t) ∧
      Adds (m.impulses ctx) mixed { m with tailBuf := m.tailBuf.drop ctx.mixed.length }
        (m.process ctx).2.mixed (m.process ctx).1 := by
  rw [process, impulses_eq hbp]
  by_cases hoff : m.peakLinearAmp ≤ 0 ∨ ctx.mixed = []
  · have hno : ¬ (0 < m.peakLinearAmp ∧ ctx.mixed ≠ [] ∧ m.due ctx = true) := by
      rintro ⟨hpeak, hne, -⟩
      exact hoff.elim (not_le.2 hpeak) hne
    rw [if_pos hoff, if_neg hno]
    refine ⟨ctx.mixed, rfl, fun t ht => ?_, ?_⟩
    · rcases hoff with hpeak | hempty
      · rw [hsilent hpeak, ofList_nil, add_zero]
      · rw [hempty] at ht
        exact absurd ht (Nat.not_lt_zero t)
    · have hdrop : m.tailBuf.drop ctx.mixed.length = m.tailBuf := by
        rcases hoff with hpeak | hempty
        · rw [hsilent hpeak, List.drop_nil]
        · rw [hempty]
          rfl
      rw [hdrop]
      exact adds_nil hbp _
  obtain ⟨hpeak, hne⟩ := not_or.1 hoff
  obtain ⟨mixed, emitFrame, hflush, hlen, hmixed⟩ := m.flushClickTail_eq hne
  have hne' : mixed ≠ [] := by
    have hpos := List.length_pos_iff.2 hne
    exact List.length_pos_iff.1 (by omega)
  have hrest := maybeInject_adds (m := { m with tailBuf := m.tailBuf.drop ctx.mixed.length })
    { ctx with mixed := mixed, emitFrame := emitFrame } hbp hne'
  have hresponse : response bp { ctx with mixed := mixed, emitFrame := emitFrame }
      { m with tailBuf := m.tailBuf.drop ctx.mixed.length } = m.response bp ctx := by
    rw [response, response, drawn, drawn, hlen]
    rfl
  have hdue' : due { ctx with mixed := mixed, emitFrame := emitFrame }
      { m with tailBuf := m.tailBuf.drop ctx.mixed.length } = m.due ctx := rfl
  rw [hresponse, hdue'] at hrest
  refine ⟨mixed, hlen, hmixed, ?_⟩
  rw [if_neg hoff, if_neg (Bool.eq_false_iff.not.2 (not_not.2 hactive)), hflush]
  by_cases hdue : m.due ctx = true
  · rw [if_pos ⟨not_le.1 hpeak, hne, hdue⟩]
    rwa [if_pos hdue] at hrest
  · rw [if_neg fun h => hdue h.2.2]
    rwa [if_neg hdue] at hrest

end ClicksModule

/-! ## The run -/

namespace ClickRun

/-- What has been added is the sum of the responses, and the tail is what is left of them. -/
structure Aligned (s : ClickRun) : Prop where
  filter : s.module.clickBP.isSome = true
  silent : s.module.peakLinearAmp ≤ 0 → s.module.tailBuf = []
  past : ∀ t < s.added.length, ofList s.added t = overlapAdd s.impulses t
  tail : ∀ t, ofList s.module.tailBuf t = overlapAdd s.impulses (s.added.length + t)

variable {s : ClickRun} {ctx : AudioProcessContext}

theorem ofList_zipWith_sub {xs ys : List ℚ} (h : ys.length = xs.length) {t : ℕ}
    (ht : t < xs.length) :
    ofList (List.zipWith (fun y x => y - x) ys xs) t = ofList ys t - ofList xs t := by
  rw [ofList_of_lt (by rwa [List.length_zipWith, h, min_self]), List.getElem_zipWith,
    ofList_of_lt (h.symm ▸ ht), ofList_of_lt ht]

/-- There is at most one impulse, and it is in the frame. -/
theorem impulses_cases (m : ClicksModule) (ctx : AudioProcessContext) :
    m.impulses ctx = [] ∨ ∃ i ys, m.impulses ctx = [(i, ys)] ∧ i < ctx.mixed.length := by
  rw [ClicksModule.impulses]
  cases m.clickBP with
  | none => exact .inl rfl
  | some bp =>
    dsimp only
    rw [ClicksModule.response]
    split_ifs with hframe
    · have hpos := List.length_pos_iff.2 hframe.2.1
      exact .inr ⟨_, _, rfl, Nat.mod_lt _ hpos⟩
    · exact .inl rfl
    · exact .inl rfl

/-- The rest of the response of a frame goes behind the rest of the earlier ones: that is its place
if there is room. -/
theorem tail_of_room {m : ClicksModule} (hroom : m.Room ctx) (t : ℕ) :
    ofList (m.tailBuf.drop ctx.mixed.length ++
        (m.impulses ctx).flatMap fun r => r.2.drop (ctx.mixed.length - r.1)) t =
      ofList m.tailBuf (ctx.mixed.length + t) +
        overlapAdd (m.impulses ctx) (ctx.mixed.length + t) := by
  rcases impulses_cases m ctx with hnone | ⟨i, ys, hone, hi⟩
  · rw [hnone, List.flatMap_nil, List.append_nil, ofList_drop, overlapAdd_nil, add_zero]
  · have hfits := hroom (i, ys) (hone ▸ List.mem_singleton_self _)
    rw [hone, List.flatMap_singleton, overlapAdd_singleton]
    dsimp only at hfits ⊢
    rcases hfits with htail | hys
    · have hended : m.tailBuf.length ≤ ctx.mixed.length + t := by omega
      rw [List.drop_eq_nil_of_le htail, List.nil_append, ofList_drop, ofList_of_length_le hended,
        zero_add, delay_of_le (by omega)]
      congr 1
      omega
    · rw [List.drop_eq_nil_of_le (show ys.length ≤ ctx.mixed.length - i by omega), List.append_nil,
        ofList_drop, delay_ofList_of_length_le (by omega), add_zero]

theorem Aligned.step (h : s.Aligned) (hactive : ctx.active = true) (hroom : s.module.Room ctx) :
    (s.step ctx).Aligned := by
  obtain ⟨bp, hbp⟩ := Option.isSome_iff_exists.1 h.filter
  obtain ⟨mixed, hlen, hmixed, hadds⟩ := ClicksModule.process_adds hbp hactive h.silent
  have hsame : (s.module.process ctx).2.mixed.length = ctx.mixed.length := hadds.length.trans hlen
  have htail := hadds.tail
  rw [hlen] at htail
  have hadded : (s.step ctx).added.length = s.added.length + ctx.mixed.length := by
    show (s.added ++ List.zipWith _ _ _).length = _
    rw [List.length_append, List.length_zipWith, hsame, min_self]
  refine ⟨hadds.filter, fun hpeak => ?_, fun t ht => ?_, fun t => ?_⟩
  · have hpeak' : s.module.peakLinearAmp ≤ 0 := hadds.peak ▸ hpeak
    refine htail.trans ?_
    rw [h.silent hpeak', ClicksModule.impulses_eq hbp, if_neg fun hon => not_lt.2 hpeak' hon.1,
      List.flatMap_nil, List.append_nil]
    exact List.drop_nil
  · show ofList (s.added ++ _) t = overlapAdd (s.impulses ++ _) t
    rw [overlapAdd_append]
    rcases lt_or_ge t s.added.length with hlt | hge
    · rw [ofList_append_left _ hlt, h.past t hlt, overlapAdd_map_add_of_lt hlt, add_zero]
    · obtain ⟨u, rfl⟩ := Nat.exists_eq_add_of_le hge
      have hu : u < ctx.mixed.length := by omega
      rw [ofList_append_right _ hge, Nat.add_sub_cancel_left, ofList_zipWith_sub hsame hu,
        hadds.mixed u (hlen.symm ▸ hu), hmixed u hu, h.tail u, overlapAdd_map_add]
      ring
  · show ofList (s.module.process ctx).1.tailBuf t = overlapAdd (s.impulses ++ _) _
    rw [htail, hadded, overlapAdd_append, Nat.add_assoc, overlapAdd_map_add, ← h.tail]
    exact tail_of_room hroom t

theorem aligned_start {m : ClicksModule} (hfilter : m.clickBP.isSome = true)
    (htail : m.tailBuf = []) : (ClickRun.mk m [] []).Aligned where
  filter := hfilter
  silent _ := htail
  past t ht := absurd ht (Nat.not_lt_zero t)
  tail t := by rw [htail, ofList_nil, overlapAdd_nil]

end ClickRun

/-- On an active channel, in every run in which no response passes the end of its frame while the
tail holds more than that frame: what has been added to the stream is the sum of the responses, each
at the position of its impulse. -/
theorem ClickRun.added_of_room {m : ClicksModule} (hfilter : m.clickBP.isSome = true)
    (htail : m.tailBuf = []) {frames : List AudioProcessContext}
    (h : Along ClickRun.step (fun s ctx => ctx.active = true ∧ s.module.Room ctx) ⟨m, [], []⟩
      frames) :
    ∀ t < (after ClickRun.step ⟨m, [], []⟩ frames).added.length,
      ofList (after ClickRun.step ⟨m, [], []⟩ frames).added t =
        overlapAdd (after ClickRun.step ⟨m, [], []⟩ frames).impulses t :=
  (invariant_along (fun _ _ hs hstep => hs.step hstep.1 hstep.2)
    (ClickRun.aligned_start hfilter htail) h).past

/-- Clicks on every frame, through a low-pass whose response to them lasts 108 samples; at 8 kHz a
packet of 10 ms has 80. -/
def ping : ClicksModule :=
  newClicksModule ⟨fun _ => 1, fun _ => 1 / 4, fun _ => 1 / 4⟩ (10 * millisecond) ⟨fun _ => 79, 0⟩
    (fun _ => 1 / 2)
    { RelayConfig.defaultClicks with
      impulseProbAtWeak := 1
      impulseProbAtStrong := 1
      impulseGainDB := 0
      filter := some { enabled := true, lowCutHz := 0, highCutHz := 424 } }

def talking : AudioProcessContext where
  mixed := List.replicate 80 0
  avgSignalByte := 255
  activeSpeakers := 1
  noiseLevelDB := 0
  control :=
    { txActive := true, txStart := false, txEOF := false, multiClientMix := false
      signalByte := none }
  emitFrame := true

/-- A click in the middle of each of three packets: the second and the third frame begin with the
tail of the click before. -/
theorem ClickRun.added_of_room_pings :
    (List.range 240).map (ofList (after ClickRun.step
        ⟨{ ping with rand := ⟨fun _ => 40, 0⟩ }, [], []⟩ (List.replicate 3 talking)).added) =
      (List.range 240).map (overlapAdd (after ClickRun.step
        ⟨{ ping with rand := ⟨fun _ => 40, 0⟩ }, [], []⟩ (List.replicate 3 talking)).impulses) := by
  have hroom : Along ClickRun.step (fun s ctx => ctx.active = true ∧ s.module.Room ctx)
      ⟨{ ping with rand := ⟨fun _ => 40, 0⟩ }, [], []⟩ (List.replicate 3 talking) := by
    decide +kernel
  have hlen : (after ClickRun.step ⟨{ ping with rand := ⟨fun _ => 40, 0⟩ }, [], []⟩
      (List.replicate 3 talking)).added.length = 240 := by
    decide +kernel
  refine List.map_congr_left fun t ht => ?_
  exact ClickRun.added_of_room rfl rfl hroom t ((List.mem_range.1 ht).trans_eq hlen.symm)

/-- The response to the second click goes on behind the end of the first one: its second sample is
missing where the third frame starts. -/
theorem tails_queue_up :
    let s := after ClickRun.step ⟨ping, [], []⟩ (List.replicate 3 talking)
    ping.clickBP.isSome = true ∧ ping.tailBuf = [] ∧ talking.active = true ∧
      160 < s.added.length ∧ ofList s.added 160 ≠ overlapAdd s.impulses 160 := by
  decide +kernel

end OWalkie
