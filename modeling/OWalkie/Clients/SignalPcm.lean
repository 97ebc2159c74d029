import Mathlib

/-!
# The three signal synthesizers

`generateSignalFromPattern` of Android, `GenerateSignalPcm` of Windows and `generatePcm` of the
core run the same two loops over a list of segments and differ in where the samples go: Android
writes into an array of a size computed beforehand, the other two append.  `renderSegments` is the
loops with the writing as a parameter, and `renderSegments_fst` says that the samples themselves
do not depend on it.
-/

namespace OWalkie

namespace Signal

/-- A segment: `RogerPoint`, `SignalPatternPoint` and `SignalPoint`. -/
structure Point where
  freqHz : ℚ
  durationMs : ℤ

/-- The floating-point part of a synthesizer. -/
structure Oscillator (Φ : Type) where
  /-- `0.0` -/
  zero : Φ
  /-- `2.0 * PI * freqHz / sampleRate` -/
  step : ℚ → ℤ → Φ
  add : Φ → Φ → Φ
  /-- The sample of a phase at position `i` of a segment of `n` samples. -/
  sample : Φ → ℕ → ℕ → Int16

section loops

variable {Φ σ : Type} (osc : Oscillator Φ)

/-- The inner loop. -/
def renderSegment (put : σ → Int16 → σ) (sampleRate : ℤ) (seg : Point) (n : ℕ) (st : σ × Φ) :
    σ × Φ :=
  let step := if seg.freqHz ≤ 0 then osc.zero else osc.step seg.freqHz sampleRate
  (List.range n).foldl (fun st i =>
    (put st.1 (if seg.freqHz ≤ 0 then 0 else osc.sample st.2 i n), osc.add st.2 step)) st

/-- The outer loop; `count` is the number of samples of a segment. -/
def renderSegments (put : σ → Int16 → σ) (sampleRate : ℤ) (count : Point → ℕ)
    (segments : List Point) (st : σ × Φ) : σ × Φ :=
  segments.foldl (fun st seg => renderSegment osc put sampleRate seg (count seg) st) st

end loops

/-! ## Android -/

/-- Arithmetic of a Kotlin `Int`. -/
def toInt (x : ℤ) : ℤ := x.bmod (2 ^ 32)

/-- `sumOf` with `Int` values. -/
def sumOf (f : Point → ℤ) (points : List Point) : ℤ :=
  points.foldl (fun acc p => toInt (acc + f p)) 0

def expandedCallingPoints (points : List Point) (repeatCount : Option ℤ) : List Point :=
  let r := (repeatCount.map (max · 1)).getD 1
  if r ≤ 1 then points else (List.replicate r.toNat points).flatten

def ROGER_TAIL_MS : ℤ := 40

/-- `if (idx < out.size) { out[idx] = …; idx++ }`. -/
def writeSample (st : List Int16 × ℕ) (v : Int16) : List Int16 × ℕ :=
  if st.2 < st.1.length then (st.1.set st.2 v, st.2 + 1) else st

/-- `(sampleRate * durationMs) / 1000`. -/
def msSamples (sampleRate durationMs : ℤ) : ℤ := (toInt (sampleRate * durationMs)).tdiv 1000

def totalSamples (sampleRate : ℤ) (segments : List Point) (appendTail : Bool) : ℤ :=
  toInt (sumOf (fun p => msSamples sampleRate p.durationMs) segments +
    if appendTail then msSamples sampleRate ROGER_TAIL_MS else 0)

def generateSignalFromPattern {Φ : Type} (osc : Oscillator Φ) (sampleRate : ℤ)
    (segments : List Point) (appendTail : Bool) : List Int16 :=
  let out := List.replicate (max (totalSamples sampleRate segments appendTail) 1).toNat 0
  let (out, idx) := (renderSegments osc writeSample sampleRate
    (fun p => (max (msSamples sampleRate p.durationMs) 1).toNat) segments ((out, 0), osc.zero)).1
  if idx = out.length then out else out.take idx

/-! ## Windows and the core -/

def samplesOf (sampleRate : ℤ) (p : Point) : ℕ :=
  (max ((sampleRate * p.durationMs).tdiv 1000) 1).toNat

/-- The points once for each repetition. -/
def repeated (points : List Point) (repeatCount : ℤ) : List Point :=
  (List.replicate (max 1 repeatCount).toNat points).flatten

def kRogerTailMs : ℤ := 40

def AppendSilence (out : List Int16) (sampleRate durationMs : ℤ) : List Int16 :=
  if sampleRate ≤ 0 ∨ durationMs ≤ 0 then out
  else out ++ List.replicate ((sampleRate * durationMs).tdiv 1000).toNat 0

/-- The Windows `SignalPattern`. -/
structure WindowsPattern where
  points : List Point
  appendTail : Bool := false
  repeatCount : ℤ := 1

def GenerateSignalPcm {Φ : Type} (osc : Oscillator Φ) (sampleRate : ℤ) (pattern : WindowsPattern) :
    List Int16 :=
  if sampleRate ≤ 0 ∨ pattern.points = [] then []
  else
    let out := (renderSegments osc (fun out v => out ++ [v]) sampleRate (samplesOf sampleRate)
      (repeated pattern.points pattern.repeatCount) ([], osc.zero)).1
    if pattern.appendTail then AppendSilence out sampleRate kRogerTailMs else out

/-- The `SignalPattern` of the core; its gain is a part of the oscillator. -/
structure CorePattern where
  points : List Point
  tailMs : ℤ := 0
  repeatCount : ℤ := 1

def generatePcm {Φ : Type} (osc : Oscillator Φ) (pattern : CorePattern) (sampleRateHz : ℤ) :
    List Int16 :=
  if sampleRateHz ≤ 0 ∨ pattern.points = [] then []
  else
    let tailSamples :=
      if 0 < pattern.tailMs then (sampleRateHz * pattern.tailMs).tdiv 1000 else 0
    let out := (renderSegments osc (fun out v => out ++ [v]) sampleRateHz (samplesOf sampleRateHz)
      (repeated pattern.points pattern.repeatCount) ([], osc.zero)).1
    if 0 < tailSamples then out ++ List.replicate tailSamples.toNat 0 else out

/-! ## What the loops write -/

section loops

variable {Φ : Type} (osc : Oscillator Φ) (sampleRate : ℤ)

/-- A segment of `n` samples writes `n` values, the same ones wherever it writes them. -/
theorem renderSegment_eq (seg : Point) (n : ℕ) (phase : Φ) :
    ∃ (vals : List Int16) (phase' : Φ), vals.length = n ∧
      ∀ (σ : Type) (put : σ → Int16 → σ) (out : σ),
        renderSegment osc put sampleRate seg n (out, phase) = (vals.foldl put out, phase') := by
  -- the loop over any list of positions, by induction from its end
  have hloop : ∀ is : List ℕ, ∃ (vals : List Int16) (phase' : Φ), vals.length = is.length ∧
      ∀ (σ : Type) (put : σ → Int16 → σ) (out : σ),
        is.foldl (fun st i => (put st.1 (if seg.freqHz ≤ 0 then 0 else osc.sample st.2 i n),
          osc.add st.2 (if seg.freqHz ≤ 0 then osc.zero else osc.step seg.freqHz sampleRate)))
          (out, phase) = (vals.foldl put out, phase') := by
    intro is
    induction is using List.reverseRecOn with
    | nil => exact ⟨[], phase, rfl, fun _ _ _ => rfl⟩
    | append_singleton is i ih =>
      obtain ⟨vals, phase', hlen, heq⟩ := ih
      refine ⟨vals ++ [if seg.freqHz ≤ 0 then 0 else osc.sample phase' i n],
        osc.add phase' (if seg.freqHz ≤ 0 then osc.zero else osc.step seg.freqHz sampleRate), ?_,
        fun σ put out => ?_⟩
      · rw [List.length_append, List.length_append, hlen, List.length_singleton,
          List.length_singleton]
      · rw [List.foldl_append, heq, List.foldl_append, List.foldl_cons, List.foldl_nil,
          List.foldl_cons, List.foldl_nil]
  obtain ⟨vals, phase', hlen, heq⟩ := hloop (List.range n)
  exact ⟨vals, phase', hlen.trans List.length_range, heq⟩

/-- The segments write as many values as their counts add up to. -/
theorem renderSegments_fst (count : Point → ℕ) (segments : List Point) (phase : Φ) :
    ∃ vals : List Int16, vals.length = (segments.map count).sum ∧
      ∀ (σ : Type) (put : σ → Int16 → σ) (out : σ),
        (renderSegments osc put sampleRate count segments (out, phase)).1 = vals.foldl put out := by
  induction segments generalizing phase with
  | nil => exact ⟨[], rfl, fun _ _ _ => rfl⟩
  | cons seg segments ih =>
    obtain ⟨first, phase', hfirst, heq⟩ := renderSegment_eq osc sampleRate seg (count seg) phase
    obtain ⟨vals, hvals, hrest⟩ := ih phase'
    refine ⟨first ++ vals, ?_, fun σ put out => ?_⟩
    · rw [List.length_append, hfirst, hvals, List.map_cons, List.sum_cons]
    · rw [List.foldl_append, ← hrest σ put, ← heq σ put out]
      rfl

end loops

theorem foldl_push (vals out : List Int16) :
    vals.foldl (fun out v => out ++ [v]) out = out ++ vals := by
  induction vals generalizing out with
  | nil => rw [List.foldl_nil, List.append_nil]
  | cons v vals ih => rw [List.foldl_cons, ih, List.append_assoc, List.singleton_append]

/-- Writing into an array whose first cells are done fills the free cells as far as they go. -/
theorem foldl_writeSample (vals done : List Int16) (free : ℕ) :
    vals.foldl writeSample (done ++ List.replicate free 0, done.length) =
      (done ++ vals.take free ++ List.replicate (free - vals.length) 0,
        done.length + min free vals.length) := by
  induction vals generalizing done free with
  | nil => simp
  | cons v vals ih =>
    rw [List.foldl_cons]
    cases free with
    | zero =>
      have hfull : writeSample (done ++ List.replicate 0 0, done.length) v =
          (done ++ List.replicate 0 0, done.length) := by
        rw [writeSample, if_neg (by simp)]
      rw [hfull, ih]
      simp
    | succ free =>
      have hwrite : writeSample (done ++ List.replicate (free + 1) 0, done.length) v =
          ((done ++ [v]) ++ List.replicate free 0, (done ++ [v]).length) := by
        rw [writeSample, if_pos (by simp)]
        simp [List.replicate_succ]
      rw [hwrite, ih]
      simp only [List.length_append, List.length_cons, List.length_nil, List.take_succ_cons,
        List.append_assoc, List.singleton_append, Nat.add_sub_add_right, Prod.mk.injEq, true_and]
      omega

/-- The array of Android, cut to what was written: no zero of it is left behind the samples. -/
theorem generateSignalFromPattern_eq {Φ : Type} (osc : Oscillator Φ) (sampleRate : ℤ)
    (segments : List Point) (appendTail : Bool) : ∃ vals : List Int16,
      vals.length =
        (segments.map fun p => (max (msSamples sampleRate p.durationMs) 1).toNat).sum ∧
      generateSignalFromPattern osc sampleRate segments appendTail =
        vals.take (max (totalSamples sampleRate segments appendTail) 1).toNat := by
  obtain ⟨vals, hlen, hrun⟩ := renderSegments_fst osc sampleRate
    (fun p => (max (msSamples sampleRate p.durationMs) 1).toNat) segments osc.zero
  refine ⟨vals, hlen, ?_⟩
  rw [generateSignalFromPattern, hrun]
  generalize (max (totalSamples sampleRate segments appendTail) 1).toNat = size
  have hwrite := foldl_writeSample vals [] size
  rw [List.nil_append, List.length_nil, Nat.zero_add, List.nil_append] at hwrite
  rw [hwrite]
  show (if min size vals.length = (vals.take size ++ List.replicate (size - vals.length) 0).length
    then _ else _) = _
  split_ifs with hfull
  · rw [List.length_append, List.length_take, List.length_replicate] at hfull
    rw [Nat.sub_eq_zero_of_le (by omega), List.replicate_zero, List.append_nil]
  · rw [List.take_append_of_le_length (by rw [List.length_take]), List.take_take, min_comm size,
      min_assoc, min_self]
    rw [List.take_eq_take_iff]
    omega

/-! ## Kotlin arithmetic -/

theorem toInt_of_fits {x : ℤ} (h : 0 ≤ x ∧ x < 2 ^ 31) : toInt x = x := by
  apply Int.bmod_eq_of_le <;> omega

theorem toInt_lt (x : ℤ) : toInt x < 2 ^ 31 := by
  have := Int.bmod_lt (x := x) (show 0 < 2 ^ 32 by decide)
  exact this

theorem toInt_mul (x y : ℤ) : toInt (toInt x * y) = toInt (x * y) := Int.bmod_mul_bmod

theorem toInt_add (x y : ℤ) : toInt (toInt x + y) = toInt (x + y) := Int.bmod_add_bmod

theorem toInt_sub (x y : ℤ) : toInt (toInt x - y) = toInt (x - y) := Int.bmod_sub_bmod

theorem sumOf_eq (f : Point → ℤ) (points : List Point) :
    sumOf f points = toInt (points.map f).sum := by
  have hfold : ∀ acc, points.foldl (fun acc p => toInt (acc + f p)) (toInt acc) =
      toInt (acc + (points.map f).sum) := by
    induction points with
    | nil => intro acc; rw [List.foldl_nil, List.map_nil, List.sum_nil, add_zero]
    | cons p points ih =>
      intro acc
      rw [List.foldl_cons, toInt_add, ih, List.map_cons, List.sum_cons, add_assoc]
  rw [sumOf, show (0 : ℤ) = toInt 0 from rfl, hfold, zero_add]

/-! ## The shape of a signal -/

/-- The samples of one point. -/
def pointSamples (sampleRate : ℤ) (p : Point) : ℤ := max (sampleRate * p.durationMs / 1000) 1

/-- The number of samples of the segments of a signal. -/
def bodySamples (sampleRate : ℤ) (points : List Point) (repetitions : ℤ) : ℤ :=
  repetitions * (points.map (pointSamples sampleRate)).sum

/-- The samples of the segments, and then `tailMs` of zeros. -/
def HasShape (sampleRate : ℤ) (points : List Point) (repetitions tailMs : ℤ) (pcm : List Int16) :
    Prop :=
  ∃ body : List Int16, (body.length : ℤ) = bodySamples sampleRate points repetitions ∧
    pcm = body ++ List.replicate (sampleRate * tailMs / 1000).toNat 0

/-- A signal that every client can synthesize. -/
structure Playable (sampleRate : ℤ) (points : List Point) (repetitions : ℤ) : Prop where
  rate : sampleRate ∈ [8000, 12000, 16000, 24000, 48000]
  nonempty : points ≠ []
  freq : ∀ p ∈ points, 0 ≤ p.freqHz
  duration : ∀ p ∈ points, 0 < p.durationMs
  fits : ∀ p ∈ points, sampleRate * p.durationMs < 2 ^ 31
  repetitions : 1 ≤ repetitions

section shape

variable {Φ : Type} {sampleRate repetitions : ℤ} {points : List Point}

theorem Playable.rate_le (h : Playable sampleRate points repetitions) :
    8000 ≤ sampleRate ∧ sampleRate ≤ 48000 := by
  have := h.rate
  simp only [List.mem_cons, List.not_mem_nil, or_false] at this
  omega

/-- Already a millisecond is several samples long. -/
theorem Playable.pointSamples_eq (h : Playable sampleRate points repetitions) {p : Point}
    (hp : p ∈ points) :
    pointSamples sampleRate p = sampleRate * p.durationMs / 1000 ∧
      8 ≤ pointSamples sampleRate p ∧ msSamples sampleRate p.durationMs = pointSamples sampleRate p
      := by
  have hrate := h.rate_le
  have hdur := h.duration p hp
  have hlow : 8000 ≤ sampleRate * p.durationMs := by nlinarith
  have hmax : pointSamples sampleRate p = sampleRate * p.durationMs / 1000 :=
    max_eq_left (by omega)
  refine ⟨hmax, by rw [hmax]; omega, ?_⟩
  rw [hmax, msSamples, toInt_of_fits ⟨by omega, h.fits p hp⟩,
    Int.tdiv_eq_ediv_of_nonneg (by omega)]

theorem expandedCallingPoints_eq (h : Playable sampleRate points repetitions) :
    expandedCallingPoints points (some repetitions) = repeated points repetitions := by
  have hreps := h.repetitions
  have hmax : (max repetitions 1).toNat = (max 1 repetitions).toNat := by rw [max_comm]
  unfold expandedCallingPoints repeated
  simp only [Option.map_some, Option.getD_some, hmax]
  split_ifs with hone
  · rw [show (max 1 repetitions).toNat = 1 by omega, List.replicate_one, List.flatten_singleton]
  · rfl

theorem mem_repeated {p : Point} (hp : p ∈ repeated points repetitions) : p ∈ points := by
  obtain ⟨_, hmem, hp⟩ := List.mem_flatten.1 hp
  rwa [List.eq_of_mem_replicate hmem] at hp

/-- The samples of the repeated points. -/
theorem sum_repeated (h : Playable sampleRate points repetitions) :
    ((repeated points repetitions).map (pointSamples sampleRate)).sum =
      bodySamples sampleRate points repetitions := by
  have hreps := h.repetitions
  rw [repeated, List.map_flatten, List.sum_flatten, List.map_replicate, List.map_replicate,
    List.sum_replicate, nsmul_eq_mul, bodySamples, max_eq_right hreps,
    Int.toNat_of_nonneg (by omega)]

theorem bodySamples_pos (h : Playable sampleRate points repetitions) :
    0 < bodySamples sampleRate points repetitions := by
  obtain ⟨p, rest, rfl⟩ := List.exists_cons_of_ne_nil h.nonempty
  have hsum : 0 < ((p :: rest).map (pointSamples sampleRate)).sum := by
    apply List.sum_pos _ _ (by simp)
    intro x hx
    obtain ⟨q, hq, rfl⟩ := List.mem_map.1 hx
    have := (h.pointSamples_eq hq).2.1
    omega
  have hreps := h.repetitions
  exact mul_pos (by omega) hsum

/-- The segments of the two clients in C++. -/
theorem render_push (osc : Oscillator Φ) (h : Playable sampleRate points repetitions) :
    ((renderSegments osc (fun out v => out ++ [v]) sampleRate (samplesOf sampleRate)
      (repeated points repetitions) ([], osc.zero)).1.length : ℤ) =
        bodySamples sampleRate points repetitions := by
  obtain ⟨vals, hlen, hrun⟩ := renderSegments_fst osc sampleRate (samplesOf sampleRate)
    (repeated points repetitions) osc.zero
  rw [hrun, foldl_push, List.nil_append, hlen, ← sum_repeated h, Nat.cast_list_sum, List.map_map]
  congr 1
  apply List.map_congr_left
  intro p hp
  have hrate := h.rate_le
  have hdur := h.duration p (mem_repeated hp)
  have hpos : 0 ≤ sampleRate * p.durationMs := by nlinarith
  rw [Function.comp_apply, samplesOf, Int.tdiv_eq_ediv_of_nonneg hpos, Int.toNat_of_nonneg
    (by omega), pointSamples]

theorem generateSignalPcm_shape (osc : Oscillator Φ) (h : Playable sampleRate points repetitions)
    (appendTail : Bool) : HasShape sampleRate points repetitions
      (if appendTail then kRogerTailMs else 0)
      (GenerateSignalPcm osc sampleRate ⟨points, appendTail, repetitions⟩) := by
  have hrate := h.rate_le
  refine ⟨_, render_push osc h, ?_⟩
  rw [GenerateSignalPcm, if_neg (not_or.2 ⟨by omega, h.nonempty⟩)]
  cases appendTail with
  | false => simp
  | true =>
    have hpos : 0 ≤ sampleRate * kRogerTailMs := mul_nonneg (by omega) (by decide)
    simp only [AppendSilence, if_true]
    rw [if_neg (not_or.2 ⟨by omega, by decide⟩), Int.tdiv_eq_ediv_of_nonneg hpos]

theorem generatePcm_shape (osc : Oscillator Φ) (h : Playable sampleRate points repetitions)
    {tailMs : ℤ} (htail : 0 ≤ tailMs) : HasShape sampleRate points repetitions tailMs
      (generatePcm osc ⟨points, tailMs, repetitions⟩ sampleRate) := by
  have hrate := h.rate_le
  refine ⟨_, render_push osc h, ?_⟩
  rw [generatePcm, if_neg (not_or.2 ⟨by omega, h.nonempty⟩)]
  have hpos : 0 ≤ sampleRate * tailMs := mul_nonneg (by omega) htail
  have hsamples : (if 0 < tailMs then (sampleRate * tailMs).tdiv 1000 else 0) =
      sampleRate * tailMs / 1000 := by
    split_ifs with h0
    · exact Int.tdiv_eq_ediv_of_nonneg hpos
    · rw [show tailMs = 0 by omega, mul_zero, Int.zero_ediv]
  simp only [hsamples]
  split_ifs with h0
  · rfl
  · rw [show (sampleRate * tailMs / 1000).toNat = 0 by omega, List.replicate_zero, List.append_nil]

/-- Android has the samples of the segments, as far as its array goes, and nothing else. -/
theorem generateSignalFromPattern_take (osc : Oscillator Φ)
    (h : Playable sampleRate points repetitions) (appendTail : Bool) : ∃ vals : List Int16,
      (vals.length : ℤ) = bodySamples sampleRate points repetitions ∧
      generateSignalFromPattern osc sampleRate (expandedCallingPoints points (some repetitions))
        appendTail = vals.take (max (toInt (bodySamples sampleRate points repetitions +
          if appendTail then msSamples sampleRate ROGER_TAIL_MS else 0)) 1).toNat := by
  obtain ⟨vals, hlen, heq⟩ := generateSignalFromPattern_eq osc sampleRate
    (expandedCallingPoints points (some repetitions)) appendTail
  rw [expandedCallingPoints_eq h] at hlen heq ⊢
  have hms : ∀ p ∈ repeated points repetitions,
      msSamples sampleRate p.durationMs = pointSamples sampleRate p :=
    fun p hp => (h.pointSamples_eq (mem_repeated hp)).2.2
  refine ⟨vals, ?_, ?_⟩
  · rw [hlen, ← sum_repeated h, Nat.cast_list_sum, List.map_map]
    congr 1
    apply List.map_congr_left
    intro p hp
    have := (h.pointSamples_eq (mem_repeated hp)).2.1
    rw [Function.comp_apply, hms p hp, Int.toNat_of_nonneg (by omega)]
    omega
  · rw [heq, totalSamples, sumOf_eq, List.map_congr_left hms, sum_repeated h, toInt_add]

/-- All three synthesizers give the shape exactly when no tail is requested and the samples can be
counted in a Kotlin `Int`. -/
theorem same_shape_iff (osc oscWindows oscCore : Oscillator Φ)
    (h : Playable sampleRate points repetitions) (appendTail : Bool) :
    (HasShape sampleRate points repetitions (if appendTail then ROGER_TAIL_MS else 0)
        (generateSignalFromPattern osc sampleRate
          (expandedCallingPoints points (some repetitions)) appendTail) ∧
      HasShape sampleRate points repetitions (if appendTail then kRogerTailMs else 0)
        (GenerateSignalPcm oscWindows sampleRate ⟨points, appendTail, repetitions⟩) ∧
      HasShape sampleRate points repetitions (if appendTail then kRogerTailMs else 0)
        (generatePcm oscCore ⟨points, if appendTail then kRogerTailMs else 0, repetitions⟩
          sampleRate)) ↔
      appendTail = false ∧ bodySamples sampleRate points repetitions < 2 ^ 31 := by
  obtain ⟨vals, hlen, heq⟩ := generateSignalFromPattern_take osc h appendTail
  have hrate := h.rate_le
  have hbody := bodySamples_pos h
  rw [and_iff_left ⟨generateSignalPcm_shape oscWindows h appendTail,
    generatePcm_shape oscCore h (by cases appendTail <;> decide)⟩, heq]
  constructor
  · rintro ⟨body, hbodylen, hshape⟩
    have hlength := congrArg List.length hshape
    rw [List.length_take, List.length_append, List.length_replicate] at hlength
    cases appendTail with
    | true =>
      -- the tail would have to come out of the samples of the segments
      have htail : 0 < (sampleRate * ROGER_TAIL_MS / 1000).toNat := by
        rw [ROGER_TAIL_MS]
        omega
      simp only [if_true] at hlength
      omega
    | false =>
      have hwrap := toInt_lt (bodySamples sampleRate points repetitions)
      simp only [Bool.false_eq_true, if_false, add_zero, mul_zero, Int.zero_ediv] at hlength
      exact ⟨rfl, by omega⟩
  · rintro ⟨rfl, hfits⟩
    refine ⟨vals, hlen, ?_⟩
    simp only [Bool.false_eq_true, if_false, add_zero, mul_zero]
    rw [toInt_of_fits ⟨by omega, hfits⟩, List.take_of_length_le (by omega)]
    exact (List.append_nil vals).symm

end shape

/-- A constant tone. -/
def flatTone : Oscillator Unit := ⟨(), fun _ _ => (), fun _ _ => (), fun _ _ _ => 1⟩

theorem playable_tone : Playable 8000 [⟨440, 100⟩, ⟨0, 50⟩] 3 where
  rate := by decide
  nonempty := by decide
  freq := by simp
  duration := by simp
  fits := by simp
  repetitions := by decide

/-- Two segments three times, without a tail. -/
theorem same_shape_iff_tone :
    HasShape 8000 [⟨440, 100⟩, ⟨0, 50⟩] 3 0 (generateSignalFromPattern flatTone 8000
      (expandedCallingPoints [⟨440, 100⟩, ⟨0, 50⟩] (some 3)) false) :=
  ((same_shape_iff flatTone flatTone flatTone playable_tone false).2 ⟨rfl, by decide⟩).1

/-- With a tail Android is 320 samples short. -/
theorem android_drops_tail : ¬ ∀ (sampleRate repetitions : ℤ) (points : List Point),
    Playable sampleRate points repetitions → ∀ appendTail : Bool,
      HasShape sampleRate points repetitions (if appendTail then ROGER_TAIL_MS else 0)
        (generateSignalFromPattern flatTone sampleRate
          (expandedCallingPoints points (some repetitions)) appendTail) := by
  intro hall
  obtain ⟨vals, hlen, heq⟩ := generateSignalFromPattern_take flatTone playable_tone true
  obtain ⟨body, hbody, hshape⟩ := hall _ _ _ playable_tone true
  have hlength := congrArg List.length (heq.symm.trans hshape)
  rw [List.length_take, List.length_append, List.length_replicate] at hlength
  have htail : (8000 * (if true then ROGER_TAIL_MS else 0) / 1000).toNat = 320 := by decide
  omega

end Signal

end OWalkie
