import Mathlib.Data.Set.Finite.Basic
import Mathlib.Logic.Function.Basic

/-!
# Loops that may not end

The body of a loop takes its variables to the next round or leaves the loop with a result.  A loop
ends if a measure decreases (`run_of_measure`); a loop whose way is a walk over finitely many places
ends exactly if it never comes back to a place (`halts_iff_noReturn`).
-/

namespace Loop

variable {σ ρ κ : Type*}

/-! ## Walks -/

section Walks

variable (next : κ → Option κ)

/-- The place after that many steps, if the walk gets so far. -/
def walk : ℕ → κ → Option κ
  | 0, c => some c
  | n + 1, c => (next c).bind (walk n)

/-- The walk never comes back to a place. -/
def NoReturn (c : κ) : Prop :=
  ∀ i j, i < j → ∀ a, walk next i c = some a → walk next j c ≠ some a

theorem walk_add (c : κ) (m n : ℕ) :
    walk next (m + n) c = (walk next m c).bind (walk next n) := by
  induction m generalizing c with
  | zero => rw [Nat.zero_add, walk, Option.bind_some]
  | succ m ih =>
    rw [Nat.succ_add, walk, walk]
    cases next c with
    | none => rfl
    | some d => exact ih d

variable {next} {c : κ}

/-- A walk that has ended is not taken up again. -/
theorem walk_none_mono {m n : ℕ} (h : walk next m c = none) (hmn : m ≤ n) :
    walk next n c = none := by
  obtain ⟨k, rfl⟩ := Nat.exists_eq_add_of_le hmn
  rw [walk_add, h, Option.bind_none]

/-- A walk that comes back goes round for ever. -/
theorem walk_period {i p : ℕ} {a : κ} (hi : walk next i c = some a)
    (hp : walk next p a = some a) (k : ℕ) : walk next (i + k * p) c = some a := by
  induction k with
  | zero => rw [Nat.zero_mul, Nat.add_zero, hi]
  | succ k ih => rw [Nat.succ_mul, ← Nat.add_assoc, walk_add, ih, Option.bind_some, hp]

theorem ends_iff_noReturn (hfinite : {a | (next a).isSome}.Finite) :
    (∃ n, walk next n c = none) ↔ NoReturn next c := by
  constructor
  · rintro ⟨n, hn⟩ i j hij a hi hj
    have hp : walk next (j - i) a = some a := by
      have hsplit := walk_add next c i (j - i)
      rwa [Nat.add_sub_cancel' hij.le, hj, hi, Option.bind_some, eq_comm] at hsplit
    have hround := walk_period hi hp n
    have hle : n ≤ i + n * (j - i) :=
      (Nat.le_mul_of_pos_right n (Nat.sub_pos_of_lt hij)).trans (Nat.le_add_left _ _)
    rw [walk_none_mono hn hle] at hround
    cases hround
  · intro hno
    by_contra hgoes
    have hsome : ∀ n, ∃ a, walk next n c = some a := fun n =>
      Option.ne_none_iff_exists'.1 fun hnone => hgoes ⟨n, hnone⟩
    choose place hplace using hsome
    have hinj : Function.Injective place := by
      intro i j hij
      rcases Nat.lt_trichotomy i j with hlt | heq | hgt
      · exact absurd (hij ▸ hplace j) (hno i j hlt _ (hplace i))
      · exact heq
      · exact absurd (hij ▸ hplace i) (hno j i hgt _ (hplace j))
    refine Set.infinite_of_injective_forall_mem hinj (fun n => ?_) hfinite
    have hnext := walk_add next c n 1
    rw [hplace, hplace, Option.bind_some, walk] at hnext
    cases h : next (place n) with
    | none =>
      rw [h] at hnext
      cases hnext
    | some b => exact Option.isSome_iff_exists.2 ⟨b, h⟩

/-- A walk that rises with every step behind which it goes on does not come back. -/
theorem noReturn_of_lt [Preorder κ]
    (h : ∀ n a b, walk next n c = some a → next a = some b → (next b).isSome → a < b) :
    NoReturn next c := by
  have hrise : ∀ k i a b, walk next i c = some a → walk next (i + (k + 1)) c = some b →
      (next b).isSome → a < b := by
    intro k
    induction k with
    | zero =>
      intro i a b hi hj hb
      rw [walk_add, hi, Option.bind_some, walk] at hj
      cases hnext : next a with
      | none => rw [hnext] at hj; cases hj
      | some d =>
        rw [hnext] at hj
        obtain rfl : d = b := Option.some.inj hj
        exact h i a d hi hnext hb
    | succ k ih =>
      intro i a b hi hj hb
      cases hnext : next a with
      | none =>
        rw [walk_add, hi, Option.bind_some, walk, hnext] at hj
        cases hj
      | some d =>
        have hd : walk next (i + 1) c = some d := by
          rw [walk_add, hi, Option.bind_some, walk, hnext]
          rfl
        have hlast : walk next (i + 1 + (k + 1)) c = some b := by
          rw [show i + 1 + (k + 1) = i + (k + 1 + 1) by omega, hj]
        have hgoes : (next d).isSome := by
          rw [walk_add, hd, Option.bind_some, walk] at hlast
          cases hstop : next d with
          | none => rw [hstop] at hlast; cases hlast
          | some e => rfl
        exact (h i a d hi hnext hgoes).trans (ih (i + 1) d b hd hlast hb)
  intro i j hij a hi hj
  obtain ⟨k, rfl⟩ := Nat.exists_eq_add_of_lt hij
  have hgoes : (next a).isSome := by
    rw [Nat.add_assoc, walk_add, hi, Option.bind_some, walk] at hj
    cases hstop : next a with
    | none => rw [hstop] at hj; cases hj
    | some d => rfl
  exact absurd (hrise k i a a hi hj hgoes) (lt_irrefl a)

end Walks

/-! ## Loops -/

section Loops

variable (body : σ → σ ⊕ ρ)

/-- The result after at most that many rounds. -/
def run : ℕ → σ → Option ρ
  | 0, _ => none
  | n + 1, s =>
    match body s with
    | .inl s' => run n s'
    | .inr r => some r

variable {body} {s : σ} {r : ρ}

theorem run_succ_inl {s' : σ} (h : body s = .inl s') (n : ℕ) :
    run body (n + 1) s = run body n s' := by
  rw [run, h]

theorem run_succ_inr (h : body s = .inr r) (n : ℕ) : run body (n + 1) s = some r := by
  rw [run, h]

/-- A loop whose measure decreases ends within as many rounds. -/
theorem run_of_measure (μ : σ → ℕ) (hμ : ∀ s s', body s = .inl s' → μ s' < μ s) {n : ℕ}
    (h : μ s < n) : ∃ r, run body n s = some r := by
  induction n generalizing s with
  | zero => exact absurd h (Nat.not_lt_zero _)
  | succ n ih =>
    cases hbody : body s with
    | inl s' =>
      rw [run_succ_inl hbody]
      exact ih ((hμ s s' hbody).trans_le (Nat.le_of_lt_succ h))
    | inr r => exact ⟨r, run_succ_inr hbody n⟩

/-- What every round keeps holds of the variables with which the loop is left. -/
theorem run_invariant {I : σ → Prop} {Q : ρ → Prop} (keep : ∀ s s', I s → body s = .inl s' → I s')
    (leave : ∀ s r, I s → body s = .inr r → Q r) {n : ℕ} (hs : I s) (h : run body n s = some r) :
    Q r := by
  induction n generalizing s with
  | zero => cases h
  | succ n ih =>
    cases hbody : body s with
    | inl s' => exact ih (keep s s' hs hbody) (run_succ_inl hbody n ▸ h)
    | inr r' =>
      rw [run_succ_inr hbody] at h
      obtain rfl := Option.some.inj h
      exact leave s r' hs hbody

/-- A loop that walks from place to place ends exactly if the walk does. -/
theorem halts_iff_noReturn {next : κ → Option κ} (place : σ → κ)
    (hgo : ∀ s s', body s = .inl s' → next (place s) = some (place s'))
    (hend : ∀ s r, body s = .inr r → next (place s) = none)
    (hfinite : {a | (next a).isSome}.Finite) (s : σ) :
    (∃ n r, run body n s = some r) ↔ NoReturn next (place s) := by
  have hrun : ∀ n s, (∃ r, run body n s = some r) ↔ walk next n (place s) = none := by
    intro n
    induction n with
    | zero => exact fun s => iff_of_false (fun ⟨r, hr⟩ => by cases hr) (by rw [walk]; exact nofun)
    | succ n ih =>
      intro s
      cases hbody : body s with
      | inl s' => rw [run_succ_inl hbody, walk, hgo s s' hbody, Option.bind_some, ih]
      | inr r =>
        rw [run_succ_inr hbody, walk, hend s r hbody]
        exact iff_of_true ⟨r, rfl⟩ rfl
  rw [← ends_iff_noReturn hfinite]
  exact exists_congr fun n => hrun n s

end Loops

end Loop
