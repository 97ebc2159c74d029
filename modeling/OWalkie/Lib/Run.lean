import Mathlib.Data.List.Basic
import Mathlib.Data.List.Induction

/-!
# Runs of a step function

A machine is a total step function; an action that is not enabled leaves the state as it is, so
every list of actions is a run.  `after step s as` is the state reached from `s`,
`Along step C s as` says that every step of the run meets the condition `C` in the state it starts
from, and `Since step E R s as` that a step meeting `E` has been taken and none meeting `R` after
it.  A machine with outputs (`step : σ → α → σ × List ω`) has the output list `outputs step s as`.
`both step` takes one action from two states.
-/

namespace Run

variable {σ τ α ω : Type*}

/-! ## States -/

section States

variable (step : σ → α → σ)

/-- The state reached from `s` by the actions `as`. -/
def after (s : σ) (as : List α) : σ := as.foldl step s

@[simp] theorem after_nil (s : σ) : after step s [] = s := rfl

@[simp] theorem after_cons (s : σ) (a : α) (as : List α) :
    after step s (a :: as) = after step (step s a) as := rfl

theorem after_append (s : σ) (as bs : List α) :
    after step s (as ++ bs) = after step (after step s as) bs :=
  List.foldl_append

@[simp] theorem after_snoc (s : σ) (as : List α) (a : α) :
    after step s (as ++ [a]) = step (after step s as) a := by
  rw [after_append]
  rfl

/-- Every step of the run from `s` along `as` meets `C` in the state it starts from. -/
def Along (C : σ → α → Prop) (s : σ) (as : List α) : Prop :=
  ∀ pre a post, as = pre ++ a :: post → C (after step s pre) a

variable {step} {C : σ → α → Prop} {s : σ}

theorem Along.head {a : α} {as : List α} (h : Along step C s (a :: as)) : C s a :=
  h [] a as rfl

theorem Along.tail {a : α} {as : List α} (h : Along step C s (a :: as)) :
    Along step C (step s a) as := by
  rintro pre b post rfl
  exact h (a :: pre) b post rfl

theorem along_nil : Along step C s [] := by
  intro pre a post h
  simp at h

theorem along_cons_iff {a : α} {as : List α} :
    Along step C s (a :: as) ↔ C s a ∧ Along step C (step s a) as := by
  refine ⟨fun h => ⟨h.head, h.tail⟩, ?_⟩
  rintro ⟨hhead, htail⟩ pre b post heq
  cases pre with
  | nil =>
    obtain ⟨rfl, -⟩ := List.cons.inj heq
    exact hhead
  | cons x pre =>
    obtain ⟨rfl, rfl⟩ := List.cons.inj heq
    exact htail pre b post rfl

instance decidableAlong [∀ s a, Decidable (C s a)] :
    ∀ (s : σ) (as : List α), Decidable (Along step C s as)
  | _, [] => isTrue along_nil
  | s, a :: as =>
    have := decidableAlong (step s a) as
    decidable_of_iff _ along_cons_iff.symm

theorem Along.left {as bs : List α} (h : Along step C s (as ++ bs)) : Along step C s as := by
  rintro pre b post rfl
  exact h pre b (post ++ bs) (by simp)

theorem Along.init {as : List α} {a : α} (h : Along step C s (as ++ [a])) : Along step C s as :=
  h.left

theorem Along.last {as : List α} {a : α} (h : Along step C s (as ++ [a])) :
    C (after step s as) a :=
  h as a [] rfl

/-- A property kept by every step that meets `C` holds after every run whose steps meet `C`. -/
theorem invariant_along {I : σ → Prop} (keep : ∀ s a, I s → C s a → I (step s a))
    {as : List α} (hs : I s) (h : Along step C s as) : I (after step s as) := by
  induction as generalizing s with
  | nil => exact hs
  | cons a as ih => exact ih (keep s a hs h.head) h.tail

/-- A property kept by every step holds after every run. -/
theorem invariant {I : σ → Prop} (keep : ∀ s a, I s → I (step s a)) (hs : I s) (as : List α) :
    I (after step s as) := by
  induction as generalizing s with
  | nil => exact hs
  | cons a as ih => exact ih (keep s a hs)

/-- A condition of the steps that follows from another one and an invariant. -/
theorem Along.imp_of_invariant {I : σ → Prop} {C' : σ → α → Prop}
    (keep : ∀ s a, I s → C s a → I (step s a)) (imp : ∀ s a, I s → C s a → C' s a) {as : List α}
    (hs : I s) (h : Along step C s as) : Along step C' s as := by
  rintro pre a post rfl
  exact imp _ a (invariant_along keep hs h.left) (h pre a post rfl)

/-- Two conditions of the steps that agree wherever an invariant holds. -/
theorem along_congr {I : σ → Prop} {C' : σ → α → Prop} (keep : ∀ s a, I s → I (step s a))
    (iff : ∀ s a, I s → (C s a ↔ C' s a)) (hs : I s) (as : List α) :
    Along step C s as ↔ Along step C' s as :=
  ⟨.imp_of_invariant (fun s a hI _ => keep s a hI) (fun s a hI => (iff s a hI).1) hs,
    .imp_of_invariant (fun s a hI _ => keep s a hI) (fun s a hI => (iff s a hI).2) hs⟩

/-- Two conditions of the steps that agree wherever an invariant holds that the run keeps. -/
theorem Along.congr {I : σ → Prop} {D D' : σ → α → Prop}
    (keep : ∀ s a, I s → C s a → I (step s a)) (iff : ∀ s a, I s → C s a → (D s a ↔ D' s a))
    {as : List α} (hs : I s) (h : Along step C s as) : Along step D s as ↔ Along step D' s as := by
  have hiff : ∀ pre a post, as = pre ++ a :: post →
      (D (after step s pre) a ↔ D' (after step s pre) a) := by
    rintro pre a post rfl
    exact iff _ a (invariant_along keep hs h.left) (h pre a post rfl)
  exact ⟨fun hD pre a post heq => (hiff pre a post heq).1 (hD pre a post heq),
    fun hD' pre a post heq => (hiff pre a post heq).2 (hD' pre a post heq)⟩

/-! ### Events in the past of a run -/

variable (step) in
/-- Some step of the run met `E`, and no later one met `R`. -/
def Since (E R : σ → α → Prop) (s : σ) (as : List α) : Prop :=
  ∃ pre a post, as = pre ++ a :: post ∧ E (after step s pre) a ∧
    Along step (fun t b => ¬ R t b) (step (after step s pre) a) post

variable {E R : σ → α → Prop}

theorem not_since_nil : ¬ Since step E R s [] := by
  rintro ⟨pre, a, post, heq, -⟩
  simp at heq

theorem along_snoc_iff {as : List α} {a : α} :
    Along step C s (as ++ [a]) ↔ Along step C s as ∧ C (after step s as) a := by
  refine ⟨fun h => ⟨h.init, h.last⟩, ?_⟩
  rintro ⟨hinit, hlast⟩ pre b post heq
  rcases List.eq_nil_or_concat post with rfl | ⟨post', x, rfl⟩
  · obtain ⟨rfl, hb⟩ := List.append_inj' heq rfl
    obtain rfl : a = b := by simpa using hb
    exact hlast
  · rw [List.concat_eq_append, ← List.cons_append, ← List.append_assoc] at heq
    exact hinit pre b post' (List.append_inj' heq rfl).1

theorem along_append_iff {as bs : List α} :
    Along step C s (as ++ bs) ↔ Along step C s as ∧ Along step C (after step s as) bs := by
  induction as generalizing s with
  | nil => exact ⟨fun h => ⟨along_nil, h⟩, And.right⟩
  | cons a as ih => rw [List.cons_append, along_cons_iff, ih, along_cons_iff, after_cons, and_assoc]

/-- What one more step does to the past: it meets `E` itself, or it does not meet `R`. -/
theorem since_snoc_iff {as : List α} {a : α} :
    Since step E R s (as ++ [a]) ↔
      E (after step s as) a ∨ Since step E R s as ∧ ¬ R (after step s as) a := by
  constructor
  · rintro ⟨pre, b, post, heq, hE, hpost⟩
    rcases List.eq_nil_or_concat post with rfl | ⟨post', x, rfl⟩
    · obtain ⟨rfl, hb⟩ := List.append_inj' heq rfl
      obtain rfl : a = b := by simpa using hb
      exact Or.inl hE
    · rw [List.concat_eq_append] at heq hpost
      rw [← List.cons_append, ← List.append_assoc] at heq
      obtain ⟨rfl, hx⟩ := List.append_inj' heq rfl
      obtain rfl : a = x := by simpa using hx
      refine Or.inr ⟨⟨pre, b, post', rfl, hE, hpost.init⟩, ?_⟩
      rw [after_append]
      exact hpost.last
  · rintro (hE | ⟨⟨pre, b, post, rfl, hE, hpost⟩, hR⟩)
    · exact ⟨as, a, [], rfl, hE, along_nil⟩
    · refine ⟨pre, b, post ++ [a], by simp, hE, along_snoc_iff.2 ⟨hpost, ?_⟩⟩
      rwa [after_append] at hR

/-- What every step meeting `E` brings about, and every step that does not meet `R` keeps, holds
since then. -/
theorem Since.holds {I J : σ → Prop} (inv : ∀ s a, I s → I (step s a))
    (start : ∀ s a, I s → E s a → J (step s a))
    (keep : ∀ s a, I s → J s → ¬ R s a → J (step s a)) (hs : I s) {as : List α}
    (h : Since step E R s as) : J (after step s as) := by
  obtain ⟨pre, a, post, rfl, hE, hpost⟩ := h
  have hpre := invariant inv hs pre
  rw [after_append, after_cons]
  refine (invariant_along (I := fun t => I t ∧ J t) ?_ ⟨inv _ a hpre, start _ a hpre hE⟩ hpost).2
  rintro t b ⟨hI, hJ⟩ hR
  exact ⟨inv t b hI, keep t b hI hJ hR⟩

end States

/-! ## Outputs -/

section Outputs

variable (step : σ → α → σ × List ω)

/-- The state part of a step with outputs. -/
def next (s : σ) (a : α) : σ := (step s a).1

/-- Everything the machine puts out along the run. -/
def outputs : σ → List α → List ω
  | _, [] => []
  | s, a :: as => (step s a).2 ++ outputs (step s a).1 as

@[simp] theorem outputs_nil (s : σ) : outputs step s [] = [] := rfl

@[simp] theorem outputs_cons (s : σ) (a : α) (as : List α) :
    outputs step s (a :: as) = (step s a).2 ++ outputs step (next step s a) as := rfl

theorem outputs_append (s : σ) (as bs : List α) :
    outputs step s (as ++ bs) = outputs step s as ++ outputs step (after (next step) s as) bs := by
  induction as generalizing s with
  | nil => rfl
  | cons a as ih => simp [ih]

theorem outputs_snoc (s : σ) (as : List α) (a : α) :
    outputs step s (as ++ [a]) = outputs step s as ++ (step (after (next step) s as) a).2 := by
  simp [outputs_append]

variable {step}

/-- What a run puts out comes from one of its steps. -/
theorem exists_step_of_mem_outputs {s : σ} {as : List α} {o : ω} (h : o ∈ outputs step s as) :
    ∃ pre a post, as = pre ++ a :: post ∧ o ∈ (step (after (next step) s pre) a).2 := by
  induction as generalizing s with
  | nil => cases h
  | cons a as ih =>
    rw [outputs_cons, List.mem_append] at h
    rcases h with h | h
    · exact ⟨[], a, as, rfl, h⟩
    · obtain ⟨pre, b, post, rfl, hb⟩ := ih h
      exact ⟨a :: pre, b, post, rfl, hb⟩

/-- A property of the state and of everything that was put out until then. -/
theorem invariant_outputs {I : σ → List ω → Prop} {C : σ → α → Prop}
    (keep : ∀ s a outs, I s outs → C s a → I (next step s a) (outs ++ (step s a).2)) {s : σ}
    {as : List α} (hs : I s []) (h : Along (next step) C s as) :
    I (after (next step) s as) (outputs step s as) := by
  induction as using List.reverseRecOn with
  | nil => exact hs
  | append_singleton as a ih =>
    rw [after_snoc, outputs_snoc]
    exact keep _ a _ (ih h.init) h.last

/-- What goes in at every step comes out or stays in the state, in order; so it does along a run. -/
theorem flow {f : σ → List τ} {input output : ω → List τ}
    (keep : ∀ s a, f s ++ (step s a).2.flatMap input =
      (step s a).2.flatMap output ++ f (next step s a)) (s : σ) (as : List α) :
    f s ++ (outputs step s as).flatMap input =
      (outputs step s as).flatMap output ++ f (after (next step) s as) := by
  induction as generalizing s with
  | nil => exact List.append_nil _
  | cons a as ih =>
    rw [outputs_cons, List.flatMap_append, List.flatMap_append, ← List.append_assoc, keep,
      List.append_assoc, ih, List.append_assoc, after_cons]

/-- What a fold makes of the outputs of a run follows the state if it does at every step. -/
theorem foldlM_outputs {β : Type*} {I : σ → Prop} {C : σ → α → Prop} {f : β → ω → Option β}
    {g : σ → β} (keep : ∀ s a, I s → C s a → I (next step s a))
    (out : ∀ s a, I s → C s a → (step s a).2.foldlM f (g s) = some (g (next step s a))) {s : σ}
    {as : List α} (hs : I s) (h : Along (next step) C s as) :
    (outputs step s as).foldlM f (g s) = some (g (after (next step) s as)) := by
  induction as generalizing s with
  | nil => rfl
  | cons a as ih =>
    rw [outputs_cons, List.foldlM_append, out s a hs h.head]
    exact ih (keep s a hs h.head) h.tail

end Outputs

/-! ## Two runs in lockstep -/

section Lockstep

/-- The same action taken by two machines. -/
def both (step : σ → α → σ) (s : σ × σ) (a : α) : σ × σ := (step s.1 a, step s.2 a)

/-- Two runs put out the same if related states put out the same and stay related. -/
theorem outputs_eq_of_related {step : σ → α → σ × List ω} {R : σ → σ → Prop}
    {C : σ × σ → α → Prop}
    (keep : ∀ s s' a, R s s' → C (s, s') a →
      (step s' a).2 = (step s a).2 ∧ R (next step s a) (next step s' a))
    {s s' : σ} {as : List α} (h : R s s') (hC : Along (both (next step)) C (s, s') as) :
    outputs step s' as = outputs step s as := by
  induction as generalizing s s' with
  | nil => rfl
  | cons a as ih =>
    obtain ⟨hout, hnext⟩ := keep s s' a h hC.head
    rw [outputs_cons, outputs_cons, hout, ih hnext hC.tail]

/-- A machine that puts out the same as another one at every step, from related states to related
states, does so along every run. -/
theorem refines {step : σ → α → σ × List ω} {spec : τ → α → τ × List ω} {R : σ → τ → Prop}
    (keep : ∀ s t a, R s t →
      (step s a).2 = (spec t a).2 ∧ R (next step s a) (next spec t a))
    {s : σ} {t : τ} (h : R s t) (as : List α) :
    outputs step s as = outputs spec t as ∧ R (after (next step) s as) (after (next spec) t as) := by
  induction as generalizing s t with
  | nil => exact ⟨rfl, h⟩
  | cons a as ih =>
    obtain ⟨hout, hnext⟩ := keep s t a h
    obtain ⟨houts, hafter⟩ := ih hnext
    exact ⟨by rw [outputs_cons, outputs_cons, hout, houts], hafter⟩

end Lockstep

end Run
