import Mathlib.Analysis.SpecialFunctions.Pow.Real
import Mathlib.Analysis.SpecialFunctions.Trigonometric.Basic
import OWalkie.Lib.Energy
import OWalkie.Lib.Run
import OWalkie.Relay.ClickTails
import OWalkie.Relay.ConfigLoad

/-!
# The linear filters of a channel

`dispersionDSPModule`, a row of allpass biquads, and `bandPassModule`.  A biquad with the
coefficients of `allpassBiquadCoefficients` stores what it does not hand on and forgets it, so the
dispersion changes the phases of a signal and keeps its energy (`dispersion_keeps_energy`).  The
poles of the band-pass are passive (`band_pass_adds_no_energy`).  Samples are exact numbers.
-/

namespace OWalkie

open Run Energy RelayConfig

/-! ## Dispersion -/

structure DispersionBiquad (K : Type*) where
  b0 : K
  b1 : K
  b2 : K
  a1 : K
  a2 : K
  s1 : K
  s2 : K

structure DispersionDSPModule (K : Type*) where
  enabled : Bool
  filters : List (DispersionBiquad K)

section Process

variable {K : Type*} [Field K]

def DispersionBiquad.processSample (b : DispersionBiquad K) (x : K) : DispersionBiquad K × K :=
  let result := b.b0 * x + b.s1
  ({ b with s1 := b.b1 * x - b.a1 * result + b.s2, s2 := b.b2 * x - b.a2 * result }, result)

/-- `Process`, which only touches `ctx.Mixed`. -/
def DispersionDSPModule.process (m : DispersionDSPModule K) (mixed : List K) :
    DispersionDSPModule K × List K :=
  if m.enabled = false ∨ m.filters.length = 0 then (m, mixed)
  else
    let (filters, mixed) := block (chain DispersionBiquad.processSample) m.filters mixed
    ({ m with filters := filters }, mixed)

/-- The `n`th frame as the module leaves it. -/
def DispersionDSPModule.processed (m : DispersionDSPModule K) (frames : ℕ → List K) (n : ℕ) :
    List K :=
  ((after (fun m frame => (m.process frame).1) m ((List.range n).map frames)).process (frames n)).2

end Process

open Real in
noncomputable def allpassBiquadCoefficients (sampleRate frequency q : ℝ) : ℝ × ℝ × ℝ × ℝ × ℝ :=
  let omega0 := 2 * π * frequency / sampleRate
  let cosW := cos omega0
  let sinW := sin omega0
  let alpha := sinW / (2 * q)
  let a0 := 1 + alpha
  let b0 := (1 - alpha) / a0
  let b1 := -2 * cosW / a0
  let b2 := (1 + alpha) / a0
  let a1 := -2 * cosW / a0
  let a2 := (1 - alpha) / a0
  (b0, b1, b2, a1, a2)

/-- The frequency of a stage is kept between `dispersionMinHz` and the last one below it. -/
noncomputable def clampHz (nyquist f : ℝ) : ℝ :=
  let f := if f < dispersionMinHz then (dispersionMinHz : ℝ) else f
  if nyquist < f then nyquist else f

noncomputable def newDispersionDSPModule (sampleRate : ℤ) (cfg : DispersionConfig) :
    DispersionDSPModule ℝ :=
  if cfg.enabled = false ∨ cfg.stages ≤ 0 ∨ sampleRate ≤ 0 then { enabled := false, filters := [] }
  else
    let stages := if dispersionMaxStages < cfg.stages then dispersionMaxStages else cfg.stages
    let sr : ℝ := sampleRate
    let nyquist : ℝ := sr / (dispersionNyquistDiv : ℚ)
    let freq := clampHz nyquist cfg.centerHz
    let q : ℝ := if (cfg.resonance : ℝ) < 1 / 100 then 1 / 100 else cfg.resonance
    let spread : ℝ := cfg.spreadOctaves
    let maxLinSpread : ℝ :=
      if 0 ≤ spread then freq - freq * (2 : ℝ) ^ (-spread) else freq * (2 : ℝ) ^ spread - freq
    let inv : ℝ := 1 / stages
    { enabled := true
      filters := (List.range stages.toNat).map fun i =>
        let prop : ℝ := i * inv * 2 - 1
        let fStage :=
          if lowerTrimmed cfg.spreadStyle = "linear" then freq + maxLinSpread * prop
          else freq * (2 : ℝ) ^ (spread * prop)
        let (b0, b1, b2, a1, a2) := allpassBiquadCoefficients sr (clampHz nyquist fStage) q
        { b0 := b0, b1 := b1, b2 := b2, a1 := a1, a2 := a2, s1 := 0, s2 := 0 } }

namespace DispersionBiquad

/-- A biquad with these feedback coefficients passes all frequencies alike. -/
structure Allpass (a1 a2 : ℝ) (b : DispersionBiquad ℝ) : Prop where
  a1_eq : b.a1 = a1
  a2_eq : b.a2 = a2
  b0_eq : b.b0 = a2
  b1_eq : b.b1 = a1
  b2_eq : b.b2 = 1

/-- The triangle of the coefficients for which a biquad is stable. -/
structure Stable (a1 a2 : ℝ) : Prop where
  lt_one : a2 < 1
  neg_lt : -(1 + a2) < a1
  lt_add : a1 < 1 + a2

/-- The energy in the two registers. -/
noncomputable def stored (a1 a2 : ℝ) (b : DispersionBiquad ℝ) : ℝ :=
  ((1 + a2) * (b.s1 ^ 2 + b.s2 ^ 2) - 2 * a1 * b.s1 * b.s2) /
    ((1 - a2) * ((1 + a2) ^ 2 - a1 ^ 2))

variable {a1 a2 : ℝ} {b : DispersionBiquad ℝ}

theorem Stable.pos (h : Stable a1 a2) : 0 < (1 - a2) * ((1 + a2) ^ 2 - a1 ^ 2) := by
  obtain ⟨h1, h2, h3⟩ := h
  have hfactor : (1 + a2) ^ 2 - a1 ^ 2 = (1 + a2 - a1) * (1 + a2 + a1) := by ring
  rw [hfactor]
  exact mul_pos (by linarith) (mul_pos (by linarith) (by linarith))

theorem Allpass.processSample_snd (hb : Allpass a1 a2 b) (x : ℝ) :
    (processSample b x).2 = a2 * x + b.s1 := by
  simp [processSample, hb.b0_eq]

theorem Allpass.processSample_s1 (hb : Allpass a1 a2 b) (x : ℝ) :
    (processSample b x).1.s1 = a1 * x - a1 * (a2 * x + b.s1) + b.s2 := by
  simp [processSample, hb.b0_eq, hb.b1_eq, hb.a1_eq]

theorem Allpass.processSample_s2 (hb : Allpass a1 a2 b) (x : ℝ) :
    (processSample b x).1.s2 = x - a2 * (a2 * x + b.s1) := by
  simp [processSample, hb.b0_eq, hb.b2_eq, hb.a2_eq]

theorem Allpass.keeps (hb : Allpass a1 a2 b) (x : ℝ) : Allpass a1 a2 (processSample b x).1 :=
  ⟨hb.a1_eq, hb.a2_eq, hb.b0_eq, hb.b1_eq, hb.b2_eq⟩

theorem Stable.mul_stored (h : Stable a1 a2) (b : DispersionBiquad ℝ) :
    (1 - a2) * ((1 + a2) ^ 2 - a1 ^ 2) * stored a1 a2 b =
      (1 + a2) * (b.s1 ^ 2 + b.s2 ^ 2) - 2 * a1 * b.s1 * b.s2 :=
  mul_div_cancel₀ _ h.pos.ne'

/-- What comes in is handed on or stored. -/
theorem Allpass.balance (h : Stable a1 a2) (hb : Allpass a1 a2 b) (x : ℝ) :
    (processSample b x).2 ^ 2 + stored a1 a2 (processSample b x).1 = x ^ 2 + stored a1 a2 b := by
  refine mul_left_cancel₀ h.pos.ne' ?_
  rw [mul_add, mul_add _ (x ^ 2), h.mul_stored, h.mul_stored, hb.processSample_snd,
    hb.processSample_s1, hb.processSample_s2]
  ring

theorem Stable.stored_nonneg (h : Stable a1 a2) (b : DispersionBiquad ℝ) : 0 ≤ stored a1 a2 b := by
  refine div_nonneg ?_ h.pos.le
  have hplus := mul_nonneg (by linarith [h.lt_add] : 0 ≤ 1 + a2 - a1) (sq_nonneg (b.s1 + b.s2))
  have hminus := mul_nonneg (by linarith [h.neg_lt] : 0 ≤ 1 + a2 + a1) (sq_nonneg (b.s1 - b.s2))
  linarith

theorem Stable.lossless (h : Stable a1 a2) :
    Lossless processSample (stored a1 a2) (Allpass a1 a2) where
  keeps _ x hb := hb.keeps x
  nonneg b _ := h.stored_nonneg b
  balance _ x hb := (hb.balance h x).le
  balance_eq _ x hb := hb.balance h x

/-- The next two answers show the registers. -/
theorem Allpass.registers_le (h : Stable a1 a2) (hb : Allpass a1 a2 b) (x y : ℝ) :
    (b.s1 ^ 2 + b.s2 ^ 2) / 18 ≤ (processSample b x).2 ^ 2 +
      (processSample (processSample b x).1 y).2 ^ 2 + (x ^ 2 + y ^ 2) := by
  obtain ⟨h1, h2, h3⟩ := h
  have ha1 : a1 ^ 2 ≤ 4 := by nlinarith
  have ha2 : a2 ^ 2 ≤ 1 := by nlinarith
  rw [(hb.keeps x).processSample_snd, hb.processSample_snd, hb.processSample_s1]
  set p := a2 * x + b.s1
  set q := a2 * y + (a1 * x - a1 * p + b.s2)
  have hs1 : b.s1 ^ 2 ≤ 2 * (p ^ 2 + x ^ 2) := by
    have heq : b.s1 = p - a2 * x := by ring
    rw [heq]
    nlinarith [sq_nonneg (p + a2 * x), mul_le_mul_of_nonneg_right ha2 (sq_nonneg x)]
  have hs2 : b.s2 ^ 2 ≤ 4 * (q ^ 2 + y ^ 2 + 4 * x ^ 2 + 4 * p ^ 2) := by
    have heq : b.s2 = q - a2 * y - a1 * x + a1 * p := by ring
    rw [heq]
    nlinarith [sq_nonneg (q + a2 * y), sq_nonneg (q + a1 * x), sq_nonneg (q - a1 * p),
      sq_nonneg (a2 * y - a1 * x), sq_nonneg (a2 * y + a1 * p), sq_nonneg (a1 * x + a1 * p),
      mul_le_mul_of_nonneg_right ha2 (sq_nonneg y), mul_le_mul_of_nonneg_right ha1 (sq_nonneg x),
      mul_le_mul_of_nonneg_right ha1 (sq_nonneg p)]
  linarith [sq_nonneg p, sq_nonneg q, sq_nonneg x, sq_nonneg y]

theorem Stable.stored_le (h : Stable a1 a2) (b : DispersionBiquad ℝ) :
    (1 - a2) * ((1 + a2) ^ 2 - a1 ^ 2) * stored a1 a2 b ≤ 4 * (b.s1 ^ 2 + b.s2 ^ 2) := by
  rw [h.mul_stored]
  have hplus := mul_nonneg (by linarith [h.neg_lt] : 0 ≤ 1 + a2 + a1) (sq_nonneg (b.s1 + b.s2))
  have hminus := mul_nonneg (by linarith [h.lt_add] : 0 ≤ 1 + a2 - a1) (sq_nonneg (b.s1 - b.s2))
  have hbound := mul_nonneg (by linarith [h.lt_one] : 0 ≤ 2 - (1 + a2))
    (add_nonneg (sq_nonneg b.s1) (sq_nonneg b.s2))
  linarith

/-- The two next answers show a share of what is stored. -/
theorem Allpass.forgets (h : Stable a1 a2) (hb : Allpass a1 a2 b) :
    Forgets processSample (stored a1 a2) b := by
  refine ⟨1 - (1 - a2) * ((1 + a2) ^ 2 - a1 ^ 2) / 72, by linarith [h.pos], 2, by norm_num,
    fun x n => ?_⟩
  have hn : Allpass a1 a2 (stateAt processSample b x n) := h.lossless.toPassive.stateAt hb x n
  rw [stateAt_succ, stateAt_succ]
  generalize stateAt processSample b x n = b at hn
  have hfirst := hn.balance h (x n)
  have hsecond := (hn.keeps (x n)).balance h (x (n + 1))
  have hshown := hn.registers_le h (x n) (x (n + 1))
  have hstored := h.stored_le b
  linarith

theorem Allpass.keepsEnergy (h : Stable a1 a2) (hb : Allpass a1 a2 b) (h1 : b.s1 = 0)
    (h2 : b.s2 = 0) : KeepsEnergy processSample b :=
  h.lossless.keepsEnergy hb (by simp [stored, h1, h2]) (hb.forgets h)

end DispersionBiquad

/-! ### Coefficients -/

theorem clampHz_eq (nyquist f : ℝ) :
    clampHz nyquist f = min nyquist (max f (dispersionMinHz : ℚ)) := by
  have hlow : (if f < (dispersionMinHz : ℚ) then ((dispersionMinHz : ℚ) : ℝ) else f) =
      max f (dispersionMinHz : ℚ) := by
    rw [max_comm, max_def_lt]
    split <;> split <;> linarith
  simp only [clampHz, hlow, min_def_lt]

theorem clampHz_pos {nyquist : ℝ} (h : 0 < nyquist) (f : ℝ) : 0 < clampHz nyquist f := by
  rw [clampHz_eq]
  exact lt_min h (lt_max_of_lt_right (by norm_num [dispersionMinHz]))

theorem clampHz_le (nyquist f : ℝ) : clampHz nyquist f ≤ nyquist := by
  rw [clampHz_eq]
  exact min_le_left _ _

/-- The coefficients for a frequency below half the sample rate. -/
theorem allpassBiquadCoefficients_stable {sampleRate frequency q : ℝ} (hrate : 0 < sampleRate)
    (hfreq : 0 < frequency) (hnyquist : 2 * frequency < sampleRate) (hq : 0 < q) :
    ∃ a1 a2, DispersionBiquad.Stable a1 a2 ∧
      allpassBiquadCoefficients sampleRate frequency q = (a2, a1, 1, a1, a2) := by
  have hlow : 0 < 2 * Real.pi * frequency / sampleRate := by positivity
  have hhigh : 2 * Real.pi * frequency / sampleRate < Real.pi := by
    rw [div_lt_iff₀ hrate]
    nlinarith [Real.pi_pos]
  have hsin := Real.sin_pos_of_pos_of_lt_pi hlow hhigh
  have hsq := Real.sin_sq_add_cos_sq (2 * Real.pi * frequency / sampleRate)
  simp only [allpassBiquadCoefficients]
  generalize Real.sin (2 * Real.pi * frequency / sampleRate) = sinW at *
  generalize Real.cos (2 * Real.pi * frequency / sampleRate) = cosW at *
  have halpha : 0 < sinW / (2 * q) := by positivity
  generalize sinW / (2 * q) = alpha at *
  have hcos : -1 < cosW ∧ cosW < 1 := abs_lt_of_sq_lt_sq' (by nlinarith) zero_le_one
  refine ⟨-2 * cosW / (1 + alpha), (1 - alpha) / (1 + alpha), ⟨?_, ?_, ?_⟩, ?_⟩
  · rw [div_lt_one (by linarith)]
    linarith
  · rw [← sub_pos]
    have heq : -2 * cosW / (1 + alpha) - -(1 + (1 - alpha) / (1 + alpha)) =
        2 * (1 - cosW) / (1 + alpha) := by
      field_simp
      ring
    rw [heq]
    exact div_pos (by linarith) (by linarith)
  · rw [← sub_pos]
    have heq : 1 + (1 - alpha) / (1 + alpha) - -2 * cosW / (1 + alpha) =
        2 * (1 + cosW) / (1 + alpha) := by
      field_simp
      ring
    rw [heq]
    exact div_pos (by linarith) (by linarith)
  · rw [div_self (by linarith : 1 + alpha ≠ 0)]

/-- Each stage keeps the energy of its signal. -/
theorem keepsEnergy_newDispersionDSPModule (sampleRate : ℤ) (cfg : DispersionConfig) :
    ∀ b ∈ (newDispersionDSPModule sampleRate cfg).filters,
      KeepsEnergy DispersionBiquad.processSample b := by
  intro b hb
  simp only [newDispersionDSPModule] at hb
  split at hb
  · simp at hb
  · rename_i hon
    obtain ⟨i, -, rfl⟩ := List.mem_map.1 hb
    have hrate : (0 : ℝ) < sampleRate := by
      have : 0 < sampleRate := by omega
      exact_mod_cast this
    have hnyquist : (0 : ℝ) < sampleRate / (dispersionNyquistDiv : ℚ) :=
      div_pos hrate (by norm_num [dispersionNyquistDiv])
    have hq : (0 : ℝ) <
        if (cfg.resonance : ℝ) < 1 / 100 then 1 / 100 else (cfg.resonance : ℝ) := by
      split <;> linarith
    have hbelow : ∀ f : ℝ, 2 * clampHz (sampleRate / (dispersionNyquistDiv : ℚ)) f < sampleRate := by
      intro f
      have hle := clampHz_le (sampleRate / (dispersionNyquistDiv : ℚ)) f
      have hhalf : 2 * ((sampleRate : ℝ) / (dispersionNyquistDiv : ℚ)) < sampleRate := by
        norm_num [dispersionNyquistDiv]
        linarith
      linarith
    obtain ⟨a1, a2, hstable, hcoeff⟩ :=
      allpassBiquadCoefficients_stable hrate (clampHz_pos hnyquist _) (hbelow _) hq
    exact DispersionBiquad.Allpass.keepsEnergy hstable
      ⟨congrArg (·.2.2.2.1) hcoeff, congrArg (·.2.2.2.2) hcoeff, congrArg (·.1) hcoeff,
        congrArg (·.2.1) hcoeff, congrArg (·.2.2.1) hcoeff⟩ rfl rfl

namespace DispersionDSPModule

variable {K : Type*} [Field K]

/-- A module that is off has no filters, and what runs through none is left as it is. -/
theorem process_eq {m : DispersionDSPModule K} (h : m.enabled = true ∨ m.filters = [])
    (mixed : List K) :
    m.process mixed =
      ({ m with filters := (block (chain DispersionBiquad.processSample) m.filters mixed).1 },
        (block (chain DispersionBiquad.processSample) m.filters mixed).2) := by
  obtain ⟨enabled, filters⟩ := m
  unfold process
  split
  · next hoff =>
    have hfilters : filters = [] := by
      rcases h with rfl | hnil
      · exact List.length_eq_zero_iff.1 (hoff.resolve_left (by simp))
      · exact hnil
    subst hfilters
    simp only [block_chain_nil]
  · rfl

theorem processed_eq {m : DispersionDSPModule K} (h : m.enabled = true ∨ m.filters = [])
    (frames : ℕ → List K) (n : ℕ) :
    m.processed frames n = frameAt (chain DispersionBiquad.processSample) m.filters frames n := by
  have hkeeps : ∀ xs, m.enabled = true ∨
      (block (chain DispersionBiquad.processSample) m.filters xs).1 = [] := fun xs =>
    h.imp id fun hnil => by rw [hnil, block_chain_nil]
  have hafter : ∀ n, after (fun m frame => (m.process frame).1) m ((List.range n).map frames) =
      { m with filters := (block (chain DispersionBiquad.processSample) m.filters
        ((List.range n).flatMap frames)).1 } := by
    intro n
    induction n with
    | zero => rfl
    | succ n ih =>
      rw [List.range_succ, List.map_append, List.flatMap_append, after_append, ih, block_append,
        List.flatMap_singleton, List.map_singleton, after_cons, after_nil]
      exact congrArg Prod.fst (process_eq (m := ⟨m.enabled, _⟩) (hkeeps _) (frames n))
  rw [processed, hafter]
  exact congrArg Prod.snd (process_eq (m := ⟨m.enabled, _⟩) (hkeeps _) (frames n))

end DispersionDSPModule

/-- The dispersion changes the phases of a signal and not its energy: whatever its configuration, in
the end all the energy of the frames it is given has come out of it. -/
theorem dispersion_keeps_energy (sampleRate : ℤ) (cfg : DispersionConfig) (packetSamples : ℕ)
    (hpos : 0 < packetSamples) (frames : ℕ → List ℝ)
    (hlen : ∀ n, (frames n).length = packetSamples) (E : ℝ)
    (hE : HasSum (fun n => energy (frames n)) E) :
    HasSum (fun n => energy ((newDispersionDSPModule sampleRate cfg).processed frames n)) E := by
  have hon : (newDispersionDSPModule sampleRate cfg).enabled = true ∨
      (newDispersionDSPModule sampleRate cfg).filters = [] := by
    unfold newDispersionDSPModule
    split
    · exact Or.inr rfl
    · exact Or.inl rfl
  simp only [DispersionDSPModule.processed_eq hon]
  exact (keepsEnergy_chain (keepsEnergy_newDispersionDSPModule sampleRate cfg)).hasSum_frames hpos
    hlen hE

/-- A single stage at 1 kHz, and a frame of two samples before the silence. -/
theorem dispersion_keeps_energy_one :
    HasSum (fun n => energy ((newDispersionDSPModule 48000
      { enabled := true, stages := 1, centerHz := 1000, resonance := 1, spreadOctaves := 0,
        spreadStyle := "octaves" }).processed
      (fun n => if n = 0 then [3, 4] else [0, 0]) n)) 25 := by
  refine dispersion_keeps_energy _ _ 2 (by norm_num) _ (fun n => by split <;> rfl) 25 ?_
  have hone := hasSum_single (f := fun n : ℕ => energy (if n = 0 then [3, 4] else [0, 0] : List ℝ)) 0
    fun n hn => by simp [hn]
  norm_num at hone
  exact hone

/-! ## Band-pass -/

/-- What the constructors of the two poles compute, with the number that stands for `2 * math.Pi`.
-/
def poleMath (twoPi : ℚ) (sr : ℤ) (dbToLinear : ℚ → ℚ) : ClickMath where
  dbToLinear := dbToLinear
  hpAlpha cutoff :=
    let dt := 1 / (sr : ℚ)
    let rc := 1 / (twoPi * cutoff)
    rc / (rc + dt)
  lpAlpha cutoff :=
    let dt := 1 / (sr : ℚ)
    let rc := 1 / (twoPi * cutoff)
    dt / (rc + dt)

structure BandPassModule where
  filter : Option BandPass

namespace BandPassModule

def newBandPassModule (M : ClickMath) (cfg : FilterConfig) : BandPassModule where
  filter := newBandPass M cfg.lowCutHz cfg.highCutHz

/-- `Process`, which only touches `ctx.Mixed`. -/
def process (m : BandPassModule) (mixed : List ℚ) : BandPassModule × List ℚ :=
  match m.filter with
  | none => (m, mixed)
  | some b =>
    let (b, mixed) := block BandPass.processSample b mixed
    ({ filter := some b }, mixed)

end BandPassModule

/-- What a high-pass pole stores. -/
def OnePoleHP.stored (f : OnePoleHP) : ℚ := f.alpha / (1 - f.alpha) * (f.prevY - f.prevX) ^ 2

/-- What a low-pass pole stores. -/
def OnePoleLP.stored (f : OnePoleLP) : ℚ := (1 - f.alpha) / f.alpha * f.prevY ^ 2

theorem OnePoleHP.passive :
    Passive process stored fun f => 0 < f.alpha ∧ f.alpha < 1 where
  keeps _ _ hf := hf
  nonneg f hf := mul_nonneg (div_nonneg hf.1.le (sub_nonneg.2 hf.2.le)) (sq_nonneg _)
  balance f x hf := by
    obtain ⟨hpos, hlt⟩ := hf
    have hone : 1 - f.alpha ≠ 0 := by linarith
    have hnonneg : 0 ≤ f.stored := mul_nonneg (div_nonneg hpos.le (by linarith)) (sq_nonneg _)
    -- what comes out and what is stored then are the share `alpha` of what was there
    have heq : (process f x).2 ^ 2 + stored (process f x).1 = f.alpha * (x ^ 2 + stored f) := by
      simp only [process, stored]
      field_simp
      ring
    rw [heq]
    exact mul_le_of_le_one_left (by positivity) hlt.le

theorem OnePoleLP.passive :
    Passive process stored fun f => 0 < f.alpha ∧ f.alpha < 1 where
  keeps _ _ hf := hf
  nonneg f hf := mul_nonneg (div_nonneg (sub_nonneg.2 hf.2.le) hf.1.le) (sq_nonneg _)
  balance f x hf := by
    obtain ⟨hpos, hlt⟩ := hf
    have hlost : 0 ≤ (1 - f.alpha) * (x - f.prevY) ^ 2 :=
      mul_nonneg (by linarith) (sq_nonneg _)
    have heq : x ^ 2 + stored f =
        (process f x).2 ^ 2 + stored (process f x).1 + (1 - f.alpha) * (x - f.prevY) ^ 2 := by
      simp only [process, stored]
      field_simp
      ring
    linarith

theorem throughPoles_eq_chain {F : Type} (process : F → ℚ → F × ℚ) (fs : List F) (x : ℚ) :
    throughPoles process fs x = chain process fs x := by
  induction fs generalizing x with
  | nil => rfl
  | cons f fs ih => simp only [throughPoles, chain, ih]

namespace BandPass

def stored (b : BandPass) : ℚ := (b.hp.map OnePoleHP.stored).sum + (b.lp.map OnePoleLP.stored).sum

/-- The coefficients of all poles lie between 0 and 1. -/
structure Poles (b : BandPass) : Prop where
  hp : ∀ f ∈ b.hp, 0 < f.alpha ∧ f.alpha < 1
  lp : ∀ f ∈ b.lp, 0 < f.alpha ∧ f.alpha < 1

theorem passive : Passive processSample stored Poles where
  keeps b x hb := by
    simp only [processSample, throughPoles_eq_chain]
    exact ⟨OnePoleHP.passive.chain.keeps _ x hb.hp, OnePoleLP.passive.chain.keeps _ _ hb.lp⟩
  nonneg b hb :=
    add_nonneg (OnePoleHP.passive.chain.nonneg _ hb.hp) (OnePoleLP.passive.chain.nonneg _ hb.lp)
  balance b x hb := by
    have hhp := OnePoleHP.passive.chain.balance b.hp x hb.hp
    have hlp := OnePoleLP.passive.chain.balance b.lp (chain OnePoleHP.process b.hp x).2 hb.lp
    simp only [processSample, throughPoles_eq_chain, stored]
    linarith

end BandPass

theorem poleMath_alpha {twoPi : ℚ} {sr : ℤ} (hpi : 0 < twoPi) (hsr : 0 < sr)
    (dbToLinear : ℚ → ℚ) {cutoff : ℚ} (hcut : 0 < cutoff) :
    (0 < (poleMath twoPi sr dbToLinear).hpAlpha cutoff ∧
      (poleMath twoPi sr dbToLinear).hpAlpha cutoff < 1) ∧
    0 < (poleMath twoPi sr dbToLinear).lpAlpha cutoff ∧
      (poleMath twoPi sr dbToLinear).lpAlpha cutoff < 1 := by
  have hdt : 0 < 1 / (sr : ℚ) := by positivity
  have hrc : 0 < 1 / (twoPi * cutoff) := by positivity
  simp only [poleMath]
  have hsum := add_pos hrc hdt
  exact ⟨⟨div_pos hrc hsum, (div_lt_one hsum).2 (by linarith)⟩,
    div_pos hdt hsum, (div_lt_one hsum).2 (by linarith)⟩

/-- A new band-pass has poles with proper coefficients, and nothing in them. -/
theorem poles_newBandPass {twoPi : ℚ} {sr : ℤ} (hpi : 0 < twoPi) (hsr : 0 < sr)
    {dbToLinear : ℚ → ℚ} {lowCut highCut : ℚ} {b : BandPass}
    (h : newBandPass (poleMath twoPi sr dbToLinear) lowCut highCut = some b) :
    b.Poles ∧ b.stored = 0 := by
  simp only [newBandPass] at h
  split at h
  · cases h
  · obtain rfl := Option.some.inj h
    refine ⟨⟨fun f hf => ?_, fun f hf => ?_⟩, ?_⟩
    · obtain ⟨hcut, hf⟩ := List.mem_ite_nil_right.1 hf
      rw [List.eq_of_mem_replicate hf]
      exact (poleMath_alpha hpi hsr dbToLinear hcut).1
    · obtain ⟨hcut, hf⟩ := List.mem_ite_nil_right.1 hf
      rw [List.eq_of_mem_replicate hf]
      exact (poleMath_alpha hpi hsr dbToLinear hcut).2
    · simp only [BandPass.stored]
      split_ifs <;> simp [OnePoleHP.stored, OnePoleLP.stored]

namespace BandPassModule

/-- The frames run through the filter one after the other. -/
theorem outputs_eq_block (b : BandPass) (frames : List (List ℚ)) :
    outputs process { filter := some b } frames =
      (block BandPass.processSample b frames.flatten).2 := by
  induction frames generalizing b with
  | nil => rfl
  | cons frame frames ih =>
    rw [List.flatten_cons, block_append, outputs_cons]
    exact congrArg (_ ++ ·) (ih _)

theorem outputs_off (frames : List (List ℚ)) :
    outputs process { filter := none } frames = frames.flatten := by
  induction frames with
  | nil => rfl
  | cons frame frames ih =>
    rw [List.flatten_cons, outputs_cons]
    exact congrArg (frame ++ ·) ih

end BandPassModule

/-- Whatever its cutoffs, the filter has never given more energy than it was given. -/
theorem band_pass_adds_no_energy (twoPi : ℚ) (sr : ℤ) (dbToLinear : ℚ → ℚ) (hpi : 0 < twoPi)
    (hsr : 0 < sr) (cfg : FilterConfig) (frames : List (List ℚ)) :
    energy (outputs BandPassModule.process
      (BandPassModule.newBandPassModule (poleMath twoPi sr dbToLinear) cfg) frames) ≤
        energy frames.flatten := by
  unfold BandPassModule.newBandPassModule
  cases hb : newBandPass (poleMath twoPi sr dbToLinear) cfg.lowCutHz cfg.highCutHz with
  | none => rw [BandPassModule.outputs_off]
  | some b =>
    obtain ⟨hpoles, hempty⟩ := poles_newBandPass hpi hsr hb
    rw [BandPassModule.outputs_eq_block]
    have hgiven := BandPass.passive.energy_block hpoles frames.flatten
    have hleft := BandPass.passive.nonneg _ (BandPass.passive.keeps_block hpoles frames.flatten)
    linarith

theorem band_pass_adds_no_energy_two :
    energy (outputs BandPassModule.process
      (BandPassModule.newBandPassModule (poleMath (44 / 7) 48000 fun _ => 1) ⟨true, 300, 3000⟩)
        [[1, 2], [3]]) ≤ energy [1, 2, 3] :=
  band_pass_adds_no_energy _ _ _ (by norm_num) (by norm_num) _ _

end OWalkie
