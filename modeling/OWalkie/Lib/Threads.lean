import Mathlib.Tactic
import OWalkie.Lib.Run

/-!
# Threads with a shared state

A pool of threads is a shared state and the places where the threads are.  `move sh pc` is what a
thread at `pc` does next, or `none` if it is blocked or has ended; a move may start other threads.
Any thread may be the next one to move and a new one may enter at any time, so a run is an
interleaving.  An invariant speaks about the threads as a multiset: it is enough that it survives a
thread that enters and the move of one thread among the others (`invariant_moves`).
-/

namespace Threads

open Run

variable {σ π ω : Type*}

/-- One step of a thread: what it makes of the shared state, where it goes on, the threads that it
starts and what it puts out. -/
structure Move (σ π ω : Type*) where
  shared : σ
  pc : π
  spawned : List π := []
  out : List ω := []

structure Pool (σ π : Type*) where
  shared : σ
  threads : List π
deriving Repr, DecidableEq

inductive Act (π : Type*) where
  /-- a thread enters -/
  | enter (pc : π)
  /-- the `i`-th thread moves, if it can -/
  | run (i : ℕ)
deriving Repr, DecidableEq

variable (move : σ → π → Option (Move σ π ω))

namespace Pool

def step (s : Pool σ π) : Act π → Pool σ π × List ω
  | .enter pc => ({ s with threads := s.threads ++ [pc] }, [])
  | .run i =>
    match s.threads[i]?.bind (move s.shared) with
    | some m => (⟨m.shared, s.threads.set i m.pc ++ m.spawned⟩, m.out)
    | none => (s, [])

/-- No thread can move. -/
def Stuck (s : Pool σ π) : Prop := ∀ pc ∈ s.threads, move s.shared pc = none

/-- The act is the move of a thread that can move. -/
def Moves (s : Pool σ π) : Act π → Prop
  | .enter _ => False
  | .run i => (s.threads[i]?.bind (move s.shared)).isSome

/-- Every thread that enters is at a place where threads may enter. -/
def EntersAt (entry : π → Prop) (_ : Pool σ π) : Act π → Prop
  | .enter pc => entry pc
  | .run _ => True

instance (s : Pool σ π) [∀ pc, Decidable (move s.shared pc = none)] : Decidable (s.Stuck move) :=
  inferInstanceAs (Decidable (∀ pc ∈ s.threads, _))

instance (s : Pool σ π) (a : Act π) : Decidable (s.Moves move a) := by
  cases a <;> unfold Moves <;> exact inferInstance

instance (entry : π → Prop) [DecidablePred entry] (s : Pool σ π) (a : Act π) :
    Decidable (s.EntersAt entry a) := by
  cases a <;> unfold EntersAt <;> exact inferInstance

end Pool

open Pool

variable {move} {s : Pool σ π} {pc : π} {m : Move σ π ω}

theorem split_of_getElem? {ts : List π} {i : ℕ} (h : ts[i]? = some pc) :
    ∃ pre post, ts = pre ++ pc :: post ∧ ∀ x, ts.set i x = pre ++ x :: post := by
  obtain ⟨hlt, hget⟩ := List.getElem?_eq_some_iff.1 h
  refine ⟨ts.take i, ts.drop (i + 1), ?_, fun x => ?_⟩
  · rw [← hget, List.getElem_cons_drop, List.take_append_drop]
  · rw [List.set_eq_take_append_cons_drop, if_pos hlt]

variable (move s) in
/-- What the turn of a thread does: nothing if it cannot move, or one of its moves. -/
theorem run_cases (i : ℕ) :
    (s.step move (.run i) = (s, []) ∧ ¬ s.Moves move (.run i)) ∨
    ∃ pre pc post m, s.threads = pre ++ pc :: post ∧ move s.shared pc = some m ∧
      s.step move (.run i) = (⟨m.shared, pre ++ m.pc :: post ++ m.spawned⟩, m.out) := by
  cases hmove : s.threads[i]?.bind (move s.shared) with
  | none => exact Or.inl ⟨by simp only [step, hmove], by simp [Moves, hmove]⟩
  | some m =>
    obtain ⟨pc, hget, hm⟩ := Option.bind_eq_some_iff.1 hmove
    obtain ⟨pre, post, hsplit, hset⟩ := split_of_getElem? hget
    refine Or.inr ⟨pre, pc, post, m, hsplit, hm, ?_⟩
    simp only [step, hmove, hset]

/-- What survives a thread that enters and every move of a thread holds in every interleaving, also
of what has been put out. -/
theorem invariant_moves {entry : π → Prop} {I : σ → Multiset π → List ω → Prop}
    (enter : ∀ sh ts outs pc, I sh ts outs → entry pc → I sh (pc ::ₘ ts) outs)
    (moves : ∀ sh pc ts outs m, I sh (pc ::ₘ ts) outs → move sh pc = some m →
      I m.shared (m.pc ::ₘ (ts + m.spawned)) (outs ++ m.out))
    {as : List (Act π)} (hs : I s.shared s.threads [])
    (h : Along (next (step move)) (EntersAt entry) s as) :
    I (after (next (step move)) s as).shared (after (next (step move)) s as).threads
      (outputs (step move) s as) := by
  refine invariant_outputs (I := fun s outs => I s.shared s.threads outs) ?_ hs h
  intro s a outs hI hentry
  cases a with
  | enter pc =>
    have hcoe : ((s.threads ++ [pc] : List π) : Multiset π) = pc ::ₘ s.threads := by
      rw [← Multiset.coe_add, ← Multiset.singleton_add, add_comm, Multiset.coe_singleton]
    show I s.shared ((s.threads ++ [pc] : List π) : Multiset π) (outs ++ [])
    rw [hcoe, List.append_nil]
    exact enter _ _ _ _ hI hentry
  | run i =>
    rcases run_cases move s i with ⟨hstep, -⟩ | ⟨pre, pc, post, m, hts, hm, hstep⟩
    · rw [next, hstep, List.append_nil]
      exact hI
    · have hcoe : ∀ x : π, ((pre ++ x :: post : List π) : Multiset π) = x ::ₘ (pre ++ post) :=
        fun x => Multiset.coe_eq_coe.2 List.perm_middle
      rw [hts, hcoe] at hI
      rw [next, hstep]
      show I m.shared ((pre ++ m.pc :: post ++ m.spawned : List π) : Multiset π) (outs ++ m.out)
      rw [← Multiset.coe_add, hcoe, Multiset.cons_add]
      exact moves _ _ _ _ _ hI hm

/-! ## How long the threads can go on by themselves -/

section Measure

variable (shared : σ → ℕ) (weight : π → ℕ)

/-- What is still to be done. -/
def work (s : Pool σ π) : ℕ := shared s.shared + (s.threads.map weight).sum

variable {shared weight}

/-- If every move lowers the work to be done, then the threads take no more steps than that unless
another one enters. -/
theorem length_add_work_le
    (lower : ∀ sh pc m, move sh pc = some m →
      shared m.shared + weight m.pc + (m.spawned.map weight).sum < shared sh + weight pc)
    {as : List (Act π)} (h : Along (next (step move)) (Moves move) s as) :
    as.length + work shared weight (after (next (step move)) s as) ≤ work shared weight s := by
  induction as generalizing s with
  | nil => rw [List.length_nil, Nat.zero_add, after_nil]
  | cons a as ih =>
    have hrest := ih h.tail
    have hhead := h.head
    rw [after_cons, List.length_cons]
    suffices hlt : work shared weight (next (step move) s a) < work shared weight s by omega
    cases a with
    | enter pc => exact hhead.elim
    | run i =>
      rcases run_cases move s i with ⟨-, hno⟩ | ⟨pre, pc, post, m, hts, hm, hstep⟩
      · exact absurd hhead hno
      · have hlower := lower _ _ _ hm
        rw [next, hstep]
        simp only [work, hts, List.map_append, List.map_cons, List.sum_append, List.sum_cons]
        omega

end Measure

end Threads
