import Mathlib.Analysis.SpecificLimits.Basic
import Mathlib.Tactic.Linarith

/-!
# Filters and the energy of their samples

A filter takes a sample and gives one (`step : σ → K → σ × K`).  `block` runs it over a block of
samples, `chain` puts filters in a row, and `outputAt` is what it answers to an infinite signal.  A
filter with a storage function is `Passive` if a sample's energy is handed on or stored, but never
made, and `Lossless` if none of it is lost.  A lossless filter that forgets what it has stored, as
`Forgets` says, hands on all the energy of its signal in the end (`Lossless.keepsEnergy`), and so
does a row of such filters (`keepsEnergy_chain`).
-/

namespace Energy

variable {σ K : Type*}

/-! ## Running a filter -/

section Blocks

variable (step : σ → K → σ × K)

/-- Run the filter over a block of samples. -/
def block (s : σ) : List K → σ × List K
  | [] => (s, [])
  | x :: xs =>
    let (s, y) := step s x
    let (s, ys) := block s xs
    (s, y :: ys)

/-- Run a sample through filters in their order. -/
def chain : List σ → K → List σ × K
  | [], x => ([], x)
  | f :: fs, x =>
    let (f, y) := step f x
    let (fs, y) := chain fs y
    (f :: fs, y)

/-- The state in which the `n`th sample of a signal is met. -/
def stateAt (s : σ) (x : ℕ → K) (n : ℕ) : σ := (block step s ((List.range n).map x)).1

/-- The answer to the `n`th sample of a signal. -/
def outputAt (s : σ) (x : ℕ → K) (n : ℕ) : K := (step (stateAt step s x n) (x n)).2

/-- What the filter makes of the `n`th frame of a signal that comes in frames. -/
def frameAt (s : σ) (frames : ℕ → List K) (n : ℕ) : List K :=
  (block step (block step s ((List.range n).flatMap frames)).1 (frames n)).2

theorem block_append (s : σ) (xs ys : List K) :
    block step s (xs ++ ys) =
      ((block step (block step s xs).1 ys).1,
        (block step s xs).2 ++ (block step (block step s xs).1 ys).2) := by
  induction xs generalizing s with
  | nil => rfl
  | cons x xs ih => simp only [List.cons_append, block, ih]

@[simp] theorem length_block (s : σ) (xs : List K) : (block step s xs).2.length = xs.length := by
  induction xs generalizing s with
  | nil => rfl
  | cons x xs ih => simp only [block, List.length_cons, ih]

@[simp] theorem stateAt_zero (s : σ) (x : ℕ → K) : stateAt step s x 0 = s := rfl

theorem stateAt_succ (s : σ) (x : ℕ → K) (n : ℕ) :
    stateAt step s x (n + 1) = (step (stateAt step s x n) (x n)).1 := by
  simp only [stateAt, List.range_succ, List.map_append, List.map_cons, List.map_nil, block_append]
  rfl

theorem block_range (s : σ) (x : ℕ → K) (n : ℕ) :
    (block step s ((List.range n).map x)).2 = (List.range n).map (outputAt step s x) := by
  induction n with
  | zero => rfl
  | succ n ih =>
    simp only [List.range_succ, List.map_append, List.map_cons, List.map_nil, block_append, ih]
    rfl

theorem block_chain_nil (xs : List K) : block (chain step) [] xs = ([], xs) := by
  induction xs with
  | nil => rfl
  | cons x xs ih => simp only [block, chain, ih]

theorem stateAt_chain_nil (x : ℕ → K) (n : ℕ) : stateAt (chain step) [] x n = [] := by
  induction n with
  | zero => rfl
  | succ n ih => rw [stateAt_succ, ih]; rfl

theorem outputAt_chain_nil (x : ℕ → K) : outputAt (chain step) [] x = x := by
  funext n
  rw [outputAt, stateAt_chain_nil]
  rfl

theorem stateAt_chain_cons (f : σ) (fs : List σ) (x : ℕ → K) (n : ℕ) :
    stateAt (chain step) (f :: fs) x n =
      stateAt step f x n :: stateAt (chain step) fs (outputAt step f x) n := by
  induction n with
  | zero => rfl
  | succ n ih => simp only [stateAt_succ, ih, chain, outputAt]

/-- A row of filters answers the signal that its first filter makes. -/
theorem outputAt_chain_cons (f : σ) (fs : List σ) (x : ℕ → K) :
    outputAt (chain step) (f :: fs) x = outputAt (chain step) fs (outputAt step f x) := by
  funext n
  simp only [outputAt, stateAt_chain_cons, chain]

end Blocks

/-! ## Storage -/

section Storage

variable [Field K]

/-- The energy of a block. -/
def energy (xs : List K) : K := (xs.map (· ^ 2)).sum

@[simp] theorem energy_nil : energy ([] : List K) = 0 := rfl

@[simp] theorem energy_cons (x : K) (xs : List K) : energy (x :: xs) = x ^ 2 + energy xs := by
  simp [energy]

@[simp] theorem energy_append (xs ys : List K) : energy (xs ++ ys) = energy xs + energy ys := by
  simp [energy]

variable [LinearOrder K] (step : σ → K → σ × K) (store : σ → K) (ok : σ → Prop)

/-- The filter makes no energy: what it hands on, it was given or had stored. -/
structure Passive : Prop where
  keeps : ∀ s x, ok s → ok (step s x).1
  nonneg : ∀ s, ok s → 0 ≤ store s
  balance : ∀ s x, ok s → (step s x).2 ^ 2 + store (step s x).1 ≤ x ^ 2 + store s

/-- Nor does it lose any. -/
structure Lossless : Prop extends Passive step store ok where
  balance_eq : ∀ s x, ok s → (step s x).2 ^ 2 + store (step s x).1 = x ^ 2 + store s

variable {step store ok}

theorem Passive.keeps_block (h : Passive step store ok) {s : σ} (hs : ok s) (xs : List K) :
    ok (block step s xs).1 := by
  induction xs generalizing s with
  | nil => exact hs
  | cons x xs ih => exact ih (h.keeps s x hs)

variable [IsStrictOrderedRing K]

theorem Passive.energy_block (h : Passive step store ok) {s : σ} (hs : ok s) (xs : List K) :
    energy (block step s xs).2 + store (block step s xs).1 ≤ energy xs + store s := by
  induction xs generalizing s with
  | nil => simp [block]
  | cons x xs ih =>
    have hhead := h.balance s x hs
    have hrest := ih (h.keeps s x hs)
    simp only [block, energy_cons]
    linarith

/-- A row of passive filters is passive. -/
theorem Passive.chain (h : Passive step store ok) :
    Passive (chain step) (fun fs => (fs.map store).sum) fun fs => ∀ f ∈ fs, ok f where
  keeps fs x hfs := by
    induction fs generalizing x with
    | nil => simp [Energy.chain]
    | cons f fs ih =>
      rw [List.forall_mem_cons] at hfs
      simp only [Energy.chain, List.forall_mem_cons]
      exact ⟨h.keeps f x hfs.1, ih _ hfs.2⟩
  nonneg fs hfs := List.sum_nonneg fun a ha => by
    obtain ⟨f, hf, rfl⟩ := List.mem_map.1 ha
    exact h.nonneg f (hfs f hf)
  balance fs x hfs := by
    induction fs generalizing x with
    | nil => simp [Energy.chain]
    | cons f fs ih =>
      rw [List.forall_mem_cons] at hfs
      have hhead := h.balance f x hfs.1
      have hrest := ih (step f x).2 hfs.2
      simp only [Energy.chain, List.map_cons, List.sum_cons]
      linarith

end Storage

/-! ## Infinite signals -/

section Signals

open Filter Topology

variable {step : σ → ℝ → σ × ℝ} {store : σ → ℝ} {ok : σ → Prop} {x : ℕ → ℝ} {E : ℝ} {s : σ}

/-- All the energy of a signal is handed on in the end. -/
def KeepsEnergy (step : σ → ℝ → σ × ℝ) (s : σ) : Prop :=
  ∀ x E, HasSum (fun n => x n ^ 2) E → HasSum (fun n => outputAt step s x n ^ 2) E

theorem energy_range (x : ℕ → ℝ) (n : ℕ) :
    energy ((List.range n).map x) = ∑ i ∈ Finset.range n, x i ^ 2 := by
  induction n with
  | zero => rfl
  | succ n ih => simp [List.range_succ, Finset.sum_range_succ, ih]

/-- Two samples later only a share of what was stored is left, next to the energy of the two. -/
def Forgets (step : σ → ℝ → σ × ℝ) (store : σ → ℝ) (s : σ) : Prop :=
  ∃ share < 1, ∃ c, 0 ≤ c ∧ ∀ x : ℕ → ℝ, ∀ n,
    store (stateAt step s x (n + 2)) ≤
      share * store (stateAt step s x n) + c * (x n ^ 2 + x (n + 1) ^ 2)

theorem Passive.stateAt (h : Passive step store ok) (hs : ok s) (x : ℕ → ℝ) (n : ℕ) :
    ok (stateAt step s x n) :=
  h.keeps_block hs _

/-- What is stored dies away with the signal. -/
theorem Passive.tendsto_store (h : Passive step store ok) (hs : ok s) (hf : Forgets step store s)
    (hx : HasSum (fun n => x n ^ 2) E) :
    Tendsto (fun n => store (Energy.stateAt step s x n)) atTop (𝓝 0) := by
  obtain ⟨share, hshare, c, hc, hstep⟩ := hf
  set V := fun n => store (Energy.stateAt step s x n)
  have hV : ∀ n, 0 ≤ V n := fun n => h.nonneg _ (h.stateAt hs x n)
  have hE : ∀ n, ∑ i ∈ Finset.range n, x i ^ 2 ≤ E := fun n =>
    sum_le_hasSum _ (fun i _ => sq_nonneg (x i)) hx
  have hpart : ∀ n, (1 - share) * ∑ i ∈ Finset.range n, V i ≤ V 0 + V 1 + 2 * c * E := by
    intro n
    have hsum : ∀ n, ∑ i ∈ Finset.range (n + 2), V i ≤ V 0 + V 1 +
        share * ∑ i ∈ Finset.range n, V i +
        c * (∑ i ∈ Finset.range n, x i ^ 2 + ∑ i ∈ Finset.range (n + 1), x i ^ 2) := by
      intro n
      induction n with
      | zero =>
        simp only [Finset.sum_range_succ, Finset.range_zero, Finset.sum_empty]
        have := mul_nonneg hc (sq_nonneg (x 0))
        linarith
      | succ n ih =>
        have hn : V (n + 2) ≤ share * V n + c * (x n ^ 2 + x (n + 1) ^ 2) := hstep x n
        rw [Finset.sum_range_succ V (n + 2), Finset.sum_range_succ V n,
          Finset.sum_range_succ (fun i => x i ^ 2) (n + 1)]
        rw [Finset.sum_range_succ (fun i => x i ^ 2) n] at ih ⊢
        linarith
    have hmore : ∑ i ∈ Finset.range n, V i ≤ ∑ i ∈ Finset.range (n + 2), V i :=
      Finset.sum_le_sum_of_subset_of_nonneg (Finset.range_mono (Nat.le_add_right n 2))
        fun i _ _ => hV i
    have hboth : c * (∑ i ∈ Finset.range n, x i ^ 2 + ∑ i ∈ Finset.range (n + 1), x i ^ 2) ≤
        c * (E + E) := mul_le_mul_of_nonneg_left (add_le_add (hE n) (hE (n + 1))) hc
    linarith [hsum n]
  have hsummable : Summable V := summable_of_sum_range_le hV fun n =>
    (le_div_iff₀' (sub_pos.2 hshare)).2 (hpart n)
  exact hsummable.tendsto_atTop_zero

/-- A lossless filter that starts empty and forgets hands on all the energy of a signal. -/
theorem Lossless.keepsEnergy (h : Lossless step store ok) (hs : ok s) (hempty : store s = 0)
    (hf : Forgets step store s) : KeepsEnergy step s := by
  intro x E hx
  have hsum : ∀ n, ∑ i ∈ Finset.range n, outputAt step s x i ^ 2 =
      ∑ i ∈ Finset.range n, x i ^ 2 - store (Energy.stateAt step s x n) := by
    intro n
    induction n with
    | zero => simp [hempty]
    | succ n ih =>
      have hn := h.balance_eq _ (x n) (h.stateAt hs x n)
      rw [Finset.sum_range_succ, Finset.sum_range_succ, ih, stateAt_succ, outputAt]
      linarith
  rw [hasSum_iff_tendsto_nat_of_nonneg fun n => sq_nonneg _]
  have hin := (hasSum_iff_tendsto_nat_of_nonneg (fun n => sq_nonneg (x n)) E).1 hx
  simpa only [hsum, sub_zero] using hin.sub (h.tendsto_store hs hf hx)

theorem keepsEnergy_chain {fs : List σ} (h : ∀ f ∈ fs, KeepsEnergy step f) :
    KeepsEnergy (chain step) fs := by
  induction fs with
  | nil =>
    intro x E hx
    rwa [outputAt_chain_nil]
  | cons f fs ih =>
    rw [List.forall_mem_cons] at h
    intro x E hx
    rw [outputAt_chain_cons]
    exact ih h.2 _ _ (h.1 x E hx)

/-! ### Signals that come in frames -/

/-- The signal whose frames, of `len` samples each, are `frames`. -/
def samples (len : ℕ) (frames : ℕ → List ℝ) (n : ℕ) : ℝ := (frames (n / len)).getD (n % len) 0

variable {len : ℕ} {frames : ℕ → List ℝ}

theorem samples_range (hlen : ∀ n, (frames n).length = len) (n : ℕ) :
    (List.range (n * len)).map (samples len frames) = (List.range n).flatMap frames := by
  induction n with
  | zero => simp
  | succ n ih =>
    rw [Nat.succ_mul, List.range_add, List.map_append, ih, List.range_succ, List.flatMap_append,
      List.flatMap_singleton]
    congr 1
    refine List.ext_getElem (by simp [hlen]) fun i hi _ => ?_
    have hi' : i < len := by simpa using hi
    have hdiv : (n * len + i) / len = n := by
      rw [Nat.mul_comm, Nat.mul_add_div (by omega), Nat.div_eq_of_lt hi', Nat.add_zero]
    have hmod : (n * len + i) % len = i := by
      rw [Nat.mul_comm, Nat.mul_add_mod, Nat.mod_eq_of_lt hi']
    simp [samples, hdiv, hmod, hlen, hi']

theorem block_flatMap_range (n : ℕ) :
    (block step s ((List.range n).flatMap frames)).2 =
      (List.range n).flatMap (frameAt step s frames) := by
  induction n with
  | zero => rfl
  | succ n ih =>
    simp only [List.range_succ, List.flatMap_append, List.flatMap_singleton, block_append, ih]
    rfl

theorem energy_flatMap_range (n : ℕ) :
    energy ((List.range n).flatMap frames) = ∑ i ∈ Finset.range n, energy (frames i) := by
  induction n with
  | zero => rfl
  | succ n ih => simp [List.range_succ, Finset.sum_range_succ, ih]

theorem energy_nonneg (xs : List ℝ) : 0 ≤ energy xs := by
  refine List.sum_nonneg fun a ha => ?_
  obtain ⟨y, -, rfl⟩ := List.mem_map.1 ha
  exact sq_nonneg y

/-- The same of a signal that comes in frames. -/
theorem KeepsEnergy.hasSum_frames (h : KeepsEnergy step s) (hpos : 0 < len)
    (hlen : ∀ n, (frames n).length = len) (hx : HasSum (fun n => energy (frames n)) E) :
    HasSum (fun n => energy (frameAt step s frames n)) E := by
  have hmul : Tendsto (fun n => n * len) atTop atTop :=
    tendsto_id.atTop_mul_const' hpos
  have hsamples : HasSum (fun n => samples len frames n ^ 2) E := by
    rw [hasSum_iff_tendsto_nat_of_nonneg fun n => sq_nonneg _]
    have hin := (hasSum_iff_tendsto_nat_of_nonneg (fun n => energy_nonneg (frames n)) E).1 hx
    have hmono : Monotone fun n => ∑ i ∈ Finset.range n, samples len frames i ^ 2 :=
      fun m n hmn => Finset.sum_le_sum_of_subset_of_nonneg (Finset.range_mono hmn)
        fun i _ _ => sq_nonneg _
    refine (tendsto_iff_tendsto_subseq_of_monotone hmono hmul).2 (hin.congr fun n => ?_)
    rw [Function.comp_apply, ← energy_range, samples_range hlen, energy_flatMap_range]
  have hout := (hasSum_iff_tendsto_nat_of_nonneg (fun n => sq_nonneg _) E).1
    (h (samples len frames) E hsamples)
  rw [hasSum_iff_tendsto_nat_of_nonneg fun n => energy_nonneg _]
  refine (hout.comp hmul).congr fun n => ?_
  rw [Function.comp_apply, ← energy_range, ← block_range, samples_range hlen, block_flatMap_range,
    energy_flatMap_range]

end Signals

end Energy
