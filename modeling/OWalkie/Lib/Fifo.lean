import Mathlib.Data.List.Basic
import Mathlib.Data.List.Induction
import Mathlib.Tactic.Common

/-!
# Bounded queues

What a queue for at most `n` entries answers, told from outside: entries put in, entries got out,
and the two refusals, `full` and `empty`.  `accept` follows the content; a sequence of answers that
it accepts is one of a first-in first-out queue (`Fifo.order`).
-/

namespace Fifo

variable {α : Type*} {n : ℕ}

inductive Op (α : Type*) where
  | put (xs : List α)
  | get (xs : List α)
  /-- nothing fits -/
  | full
  /-- there is nothing -/
  | empty
deriving Repr, DecidableEq

namespace Op

def puts : Op α → List α
  | put xs => xs
  | _ => []

def gets : Op α → List α
  | get xs => xs
  | _ => []

end Op

/-- The content after an answer, if the queue can give it. -/
def accept [DecidableEq α] (n : ℕ) (q : List α) : Op α → Option (List α)
  | .put xs => if q.length + xs.length ≤ n then some (q ++ xs) else none
  | .get xs => if xs <+: q then some (q.drop xs.length) else none
  | .full => if q.length = n then some q else none
  | .empty => if q = [] then some q else none

variable [DecidableEq α] {q q' : List α}

theorem accept_order {op : Op α} (h : accept n q op = some q') :
    q ++ op.puts = op.gets ++ q' := by
  cases op <;> simp only [accept, Option.ite_none_right_eq_some, Option.some.injEq] at h
  case put xs =>
    obtain ⟨-, rfl⟩ := h
    rfl
  case get xs =>
    obtain ⟨⟨rest, rfl⟩, rfl⟩ := h
    simp [Op.puts, Op.gets]
  all_goals
    obtain ⟨-, rfl⟩ := h
    exact List.append_nil q

/-- What has been put in and not got out is the content, in the order in which it was put in. -/
theorem order {ops : List (Op α)} (h : ops.foldlM (accept n) q = some q') :
    q ++ ops.flatMap Op.puts = ops.flatMap Op.gets ++ q' := by
  induction ops generalizing q with
  | nil =>
    obtain rfl : q = q' := Option.some.inj h
    exact List.append_nil q
  | cons op ops ih =>
    rw [List.foldlM_cons] at h
    obtain ⟨q₁, hop, hops⟩ := Option.bind_eq_some_iff.1 h
    rw [List.flatMap_cons, List.flatMap_cons, ← List.append_assoc, accept_order hop,
      List.append_assoc, ih hops, List.append_assoc]

end Fifo
