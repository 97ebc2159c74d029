import Mathlib.Tactic
import OWalkie.Lib.Threads

/-!
# The queue of the short signals

The sounds that answer a key (a switch, a connection) go through `gUiSignalQueue`, which one
detached worker plays.  The worker ends when nothing comes for two seconds; whoever pushes a sound
starts another one unless the flag says that it runs.  The flag is no part of what the mutex guards:
between the worker's store and its end a new worker can start.  `ui_signals_in_order`: the queued
sounds are handed to `PlayOneShotNow` one after the other as they were pushed.  `ui_signals_drain`:
the threads come to rest by themselves, with every sound handed on.  What `PlayOneShotNow` does with
a sound (it returns at once when the device does not open) is left out.
-/

namespace OWalkie

open Run Threads

/-- Where a thread is: the caller of `PlayOneShotHighQuality`, or the worker that
`EnsureUiSignalQueueWorkerStarted` starts. -/
inductive UiSignalPc where
  | playOneShotHighQuality (pcm : List ℤ) (srcRate : ℤ) (useQueue : Bool)
  /-- before the lock -/
  | push (pcm44 : List ℤ)
  | ensureWorkerStarted
  /-- at the top of the loop -/
  | lock
  /-- in `wait_for`, which has given the mutex back -/
  | waiting
  /-- `wait_for` has returned with the mutex -/
  | woken
  /-- the flag is cleared; the mutex is still held -/
  | cleared
  /-- in `PlayOneShotNow`, however it ends -/
  | playing (nextPcm : List ℤ)
  | ended
deriving Repr, DecidableEq

inductive UiSignalOutput where
  | pushed (pcm44 : List ℤ)
  /-- `PlayOneShotNow` is called -/
  | started (pcm : List ℤ)
  /-- it has returned -/
  | finished (pcm : List ℤ)
  /-- played by a thread of its own -/
  | unqueued (pcm44 : List ℤ)
deriving Repr, DecidableEq

structure UiSignalQueue where
  gUiSignalQueue : List (List ℤ) := []
  gUiSignalQueueWorkerRunning : Bool := false
  /-- `gUiSignalQueueMu` is held -/
  locked : Bool := false
deriving Repr, DecidableEq

namespace UiSignalQueue

section model

def kUiSignalPlaybackRate : ℤ := 48000

-- `ResampleLinear` computes with `double`
variable (resampleLinear : List ℤ → ℤ → ℤ → List ℤ)

/-- The sound that `PlayOneShotHighQuality` plays, unless it returns at once. -/
def oneShotPcm (pcm : List ℤ) (srcRate : ℤ) : Option (List ℤ) :=
  if pcm = [] ∨ srcRate ≤ 0 then none
  else
    let pcm44 := resampleLinear pcm srcRate kUiSignalPlaybackRate
    if pcm44 = [] then none else some pcm44

def move (sh : UiSignalQueue) : UiSignalPc → Option (Move UiSignalQueue UiSignalPc UiSignalOutput)
  | .playOneShotHighQuality pcm srcRate useQueue =>
    match oneShotPcm resampleLinear pcm srcRate with
    | none => some { shared := sh, pc := .ended }
    | some pcm44 =>
      if useQueue = true then some { shared := sh, pc := .push pcm44 }
      else some { shared := sh, pc := .ended, out := [.unqueued pcm44] }
  | .push pcm44 =>
    if sh.locked = true then none
    else some
      { shared := { sh with gUiSignalQueue := sh.gUiSignalQueue ++ [pcm44] }
        pc := .ensureWorkerStarted
        out := [.pushed pcm44] }
  | .ensureWorkerStarted =>
    -- the exchange fails if the flag is set
    if sh.gUiSignalQueueWorkerRunning = true then some { shared := sh, pc := .ended }
    else some
      { shared := { sh with gUiSignalQueueWorkerRunning := true }
        pc := .ended
        spawned := [.lock] }
  | .lock =>
    if sh.locked = true then none
    else if sh.gUiSignalQueue = [] then some { shared := sh, pc := .waiting }
    else some { shared := { sh with locked := true }, pc := .woken }
  | .waiting =>
    -- notified, or after two seconds
    if sh.locked = true then none
    else some { shared := { sh with locked := true }, pc := .woken }
  | .woken =>
    match sh.gUiSignalQueue with
    | [] => some { shared := { sh with gUiSignalQueueWorkerRunning := false }, pc := .cleared }
    | nextPcm :: queue => some
      { shared := { sh with gUiSignalQueue := queue, locked := false }
        pc := .playing nextPcm
        out := [.started nextPcm] }
  | .cleared =>
    match sh.gUiSignalQueue with
    | [] => some { shared := { sh with locked := false }, pc := .ended }
    | nextPcm :: queue => some
      { shared := ⟨queue, true, false⟩
        pc := .playing nextPcm
        out := [.started nextPcm] }
  | .playing nextPcm => some { shared := sh, pc := .lock, out := [.finished nextPcm] }
  | .ended => none

end model

/-- Only the calls of `PlayOneShotHighQuality` come from outside. -/
def IsCall : UiSignalPc → Prop
  | .playOneShotHighQuality _ _ _ => True
  | _ => False

instance : DecidablePred IsCall := fun pc => by
  cases pc <;> unfold IsCall <;> exact inferInstance

/-- The workers that can still take a sound from the queue. -/
def Serves : UiSignalPc → Prop
  | .lock | .waiting | .woken | .playing _ => True
  | _ => False

instance : DecidablePred Serves := fun pc => by
  cases pc <;> unfold Serves <;> exact inferInstance

def Holds : UiSignalPc → Prop
  | .woken | .cleared => True
  | _ => False

instance : DecidablePred Holds := fun pc => by
  cases pc <;> unfold Holds <;> exact inferInstance

/-! ## What can be heard -/

def pushedPcm : UiSignalOutput → Option (List ℤ)
  | .pushed pcm44 => some pcm44
  | _ => none

def startedPcm : UiSignalOutput → Option (List ℤ)
  | .started pcm => some pcm
  | _ => none

/-- The output is about a sound of the queue that starts or ends. -/
def Audible : UiSignalOutput → Prop
  | .started _ | .finished _ => True
  | _ => False

instance : DecidablePred Audible := fun o => by
  cases o <;> unfold Audible <;> exact inferInstance

/-- The sounds that went into the queue. -/
def pushed (outs : List UiSignalOutput) : List (List ℤ) := outs.filterMap pushedPcm

def started (outs : List UiSignalOutput) : List (List ℤ) := outs.filterMap startedPcm

/-- When `PlayOneShotNow` starts and ends with the queued sounds. -/
def heard (outs : List UiSignalOutput) : List UiSignalOutput :=
  outs.filter fun o => decide (Audible o)

/-- The sounds one after the other, each from the call to its end. -/
def oneByOne (pcms : List (List ℤ)) : List UiSignalOutput :=
  pcms.flatMap fun pcm => [.started pcm, .finished pcm]

/-! ## The invariant -/

structure QueueInv (sh : UiSignalQueue) (ts : Multiset UiSignalPc) (outs : List UiSignalOutput) :
    Prop where
  one : ts.countP Serves = if sh.gUiSignalQueueWorkerRunning = true then 1 else 0
  lock : ts.countP Holds = if sh.locked = true then 1 else 0
  cleared : .cleared ∈ ts → sh.gUiSignalQueue = []
  served : sh.gUiSignalQueue ≠ [] →
    sh.gUiSignalQueueWorkerRunning = true ∨ .ensureWorkerStarted ∈ ts
  order : started outs ++ sh.gUiSignalQueue = pushed outs
  playing : ∀ pcm, .playing pcm ∈ ts → heard outs ++ [.finished pcm] = oneByOne (started outs)
  silent : (∀ pcm, .playing pcm ∉ ts) → heard outs = oneByOne (started outs)

variable {sh : UiSignalQueue} {pc : UiSignalPc} {ts : Multiset UiSignalPc}
  {outs : List UiSignalOutput}

/-- A worker that serves the queue is the only one. -/
theorem QueueInv.alone (h : QueueInv sh (pc ::ₘ ts) outs) (hpc : Serves pc) :
    sh.gUiSignalQueueWorkerRunning = true ∧ ∀ x ∈ ts, ¬ Serves x := by
  have hone := h.one
  rw [Multiset.countP_cons_of_pos _ hpc] at hone
  split at hone
  · exact ⟨‹_›, Multiset.countP_eq_zero.1 (by omega)⟩
  · omega

/-- The thread with the mutex is the only one. -/
theorem QueueInv.holder (h : QueueInv sh (pc ::ₘ ts) outs) (hpc : Holds pc) :
    sh.locked = true ∧ ∀ x ∈ ts, ¬ Holds x := by
  have hlock := h.lock
  rw [Multiset.countP_cons_of_pos _ hpc] at hlock
  split at hlock
  · exact ⟨‹_›, Multiset.countP_eq_zero.1 (by omega)⟩
  · omega

theorem QueueInv.free (h : QueueInv sh ts outs) (hfree : ¬ sh.locked = true) :
    ∀ x ∈ ts, ¬ Holds x := by
  have hlock := h.lock
  rw [if_neg hfree] at hlock
  exact Multiset.countP_eq_zero.1 hlock

@[simp] theorem pushed_append (a b : List UiSignalOutput) : pushed (a ++ b) = pushed a ++ pushed b :=
  List.filterMap_append

@[simp] theorem started_append (a b : List UiSignalOutput) :
    started (a ++ b) = started a ++ started b :=
  List.filterMap_append

@[simp] theorem heard_append (a b : List UiSignalOutput) : heard (a ++ b) = heard a ++ heard b :=
  List.filter_append ..

@[simp] theorem pushed_singleton (o : UiSignalOutput) : pushed [o] = (pushedPcm o).toList := by
  cases o <;> rfl

@[simp] theorem started_singleton (o : UiSignalOutput) : started [o] = (startedPcm o).toList := by
  cases o <;> rfl

@[simp] theorem heard_singleton (o : UiSignalOutput) : heard [o] = if Audible o then [o] else [] := by
  cases o <;> rfl

@[simp] theorem oneByOne_append (a b : List (List ℤ)) :
    oneByOne (a ++ b) = oneByOne a ++ oneByOne b :=
  List.flatMap_append

/-! ### One move -/

/-- A move that neither changes the queue nor starts or ends a sound. -/
theorem QueueInv.quiet (h : QueueInv sh (pc ::ₘ ts) outs) {sh' : UiSignalQueue} {pc' : UiSignalPc}
    {spawned : List UiSignalPc} {out : List UiSignalOutput}
    (hqueue : sh'.gUiSignalQueue = sh.gUiSignalQueue)
    (hpushed : pushed out = []) (hstarted : started out = []) (hheard : heard out = [])
    (hpc : ∀ pcm, .playing pcm ≠ pc) (hpc' : ∀ pcm, .playing pcm ∉ pc' :: spawned)
    (one : (pc' ::ₘ (ts + spawned)).countP Serves =
      if sh'.gUiSignalQueueWorkerRunning = true then 1 else 0)
    (lock : (pc' ::ₘ (ts + spawned)).countP Holds = if sh'.locked = true then 1 else 0)
    (cleared : .cleared ∈ pc' ::ₘ (ts + spawned) → sh.gUiSignalQueue = [])
    (served : sh.gUiSignalQueue ≠ [] → sh'.gUiSignalQueueWorkerRunning = true ∨
      .ensureWorkerStarted ∈ pc' ::ₘ (ts + spawned)) :
    QueueInv sh' (pc' ::ₘ (ts + spawned)) (outs ++ out) := by
  have hmem : ∀ pcm, .playing pcm ∈ pc' ::ₘ (ts + spawned) ↔ .playing pcm ∈ pc ::ₘ ts := by
    intro pcm
    have hnot := hpc' pcm
    rw [List.mem_cons, not_or] at hnot
    simp only [Multiset.mem_cons, Multiset.mem_add, Multiset.mem_coe, hnot.1, hnot.2, hpc pcm,
      false_or, or_false]
  constructor
  · exact one
  · exact lock
  · rwa [hqueue]
  · rwa [hqueue]
  · rw [started_append, pushed_append, hpushed, hstarted, List.append_nil, List.append_nil, hqueue]
    exact h.order
  · intro pcm hp
    rw [started_append, heard_append, hstarted, hheard, List.append_nil, List.append_nil]
    exact h.playing pcm ((hmem pcm).1 hp)
  · intro hp
    rw [started_append, heard_append, hstarted, hheard, List.append_nil, List.append_nil]
    exact h.silent fun pcm hin => hp pcm ((hmem pcm).2 hin)

/-- A worker takes the first sound from the queue. -/
theorem QueueInv.take (h : QueueInv sh (pc ::ₘ ts) outs) (hserves : Serves pc) (hholds : Holds pc)
    (hpc : ∀ pcm, .playing pcm ≠ pc) {nextPcm : List ℤ} {queue : List (List ℤ)}
    (hqueue : sh.gUiSignalQueue = nextPcm :: queue) :
    QueueInv ⟨queue, true, false⟩ (.playing nextPcm ::ₘ ts) (outs ++ [.started nextPcm]) := by
  have halone := (h.alone hserves).2
  have hholder := (h.holder hholds).2
  have hsilent : ∀ pcm, .playing pcm ∉ pc ::ₘ ts := by
    intro pcm hin
    rcases Multiset.mem_cons.1 hin with heq | hin
    · exact hpc pcm heq
    · exact halone _ hin trivial
  constructor
  · rw [Multiset.countP_cons_of_pos _ trivial, Multiset.countP_eq_zero.2 halone]
    rfl
  · rw [Multiset.countP_cons_of_neg _ id, Multiset.countP_eq_zero.2 hholder]
    rfl
  · intro hin
    rcases Multiset.mem_cons.1 hin with heq | hin
    · cases heq
    · exact (hholder _ hin trivial).elim
  · exact fun _ => Or.inl rfl
  · have horder := h.order
    rw [hqueue] at horder
    simp [← horder, startedPcm, pushedPcm]
  · intro pcm hin
    rcases Multiset.mem_cons.1 hin with heq | hin
    · cases heq
      rw [heard_append, started_append, oneByOne_append, ← h.silent hsilent]
      simp [startedPcm, oneByOne, Audible]
    · exact (halone _ hin trivial).elim
  · exact fun hno => (hno nextPcm (Multiset.mem_cons_self _ _)).elim

/-- The worker has played its sound. -/
theorem QueueInv.finish {pcm : List ℤ} (h : QueueInv sh (.playing pcm ::ₘ ts) outs) :
    QueueInv sh (.lock ::ₘ ts) (outs ++ [.finished pcm]) := by
  obtain ⟨hrunning, halone⟩ := h.alone trivial
  have hlock := h.lock
  rw [Multiset.countP_cons_of_neg _ id] at hlock
  have hother {x : UiSignalPc} (hin : x ∈ UiSignalPc.lock ::ₘ ts) (hne : x ≠ .lock) : x ∈ ts :=
    (Multiset.mem_cons.1 hin).resolve_left hne
  constructor
  · rw [Multiset.countP_cons_of_pos _ trivial, Multiset.countP_eq_zero.2 halone, if_pos hrunning]
  · rwa [Multiset.countP_cons_of_neg _ id]
  · exact fun hin => h.cleared (Multiset.mem_cons_of_mem (hother hin nofun))
  · exact fun _ => Or.inl hrunning
  · simpa [startedPcm, pushedPcm] using h.order
  · exact fun _ hin => (halone _ (hother hin nofun) trivial).elim
  · intro _
    simpa [startedPcm, Audible] using h.playing pcm (Multiset.mem_cons_self _ _)

/-- A caller pushes its sound while no worker looks at the queue. -/
theorem QueueInv.push {pcm44 : List ℤ} (h : QueueInv sh (.push pcm44 ::ₘ ts) outs)
    (hfree : ¬ sh.locked = true) :
    QueueInv { sh with gUiSignalQueue := sh.gUiSignalQueue ++ [pcm44] }
      (.ensureWorkerStarted ::ₘ ts) (outs ++ [.pushed pcm44]) := by
  have hone := h.one
  have hlock := h.lock
  rw [Multiset.countP_cons_of_neg _ id] at hone hlock
  have hmem : ∀ pcm, .playing pcm ∈ UiSignalPc.ensureWorkerStarted ::ₘ ts ↔
      .playing pcm ∈ UiSignalPc.push pcm44 ::ₘ ts := by
    simp
  constructor
  · rwa [Multiset.countP_cons_of_neg _ id]
  · rwa [Multiset.countP_cons_of_neg _ id]
  · intro hin
    have hin : UiSignalPc.cleared ∈ ts := (Multiset.mem_cons.1 hin).resolve_left nofun
    exact (h.free hfree _ (Multiset.mem_cons_of_mem hin) trivial).elim
  · exact fun _ => Or.inr (Multiset.mem_cons_self _ _)
  · simp [← h.order, startedPcm, pushedPcm]
  · intro pcm hin
    simpa [startedPcm, Audible] using h.playing pcm ((hmem pcm).1 hin)
  · intro hno
    simpa [startedPcm, Audible] using h.silent fun pcm hin => hno pcm ((hmem pcm).2 hin)

variable {resampleLinear : List ℤ → ℤ → ℤ → List ℤ}
  {m : Move UiSignalQueue UiSignalPc UiSignalOutput}

theorem queueInv_enter (h : QueueInv sh ts outs) (hpc : IsCall pc) :
    QueueInv sh (pc ::ₘ ts) outs := by
  cases pc <;> try exact hpc.elim
  constructor
  · rw [Multiset.countP_cons_of_neg _ id, h.one]
  · rw [Multiset.countP_cons_of_neg _ id, h.lock]
  · exact fun hin => h.cleared (by simpa using hin)
  · exact fun hne => (h.served hne).imp id (Multiset.mem_cons_of_mem ·)
  · exact h.order
  · exact fun pcm hin => h.playing pcm (by simpa using hin)
  · exact fun hno => h.silent fun pcm hin => hno pcm (Multiset.mem_cons_of_mem hin)

/-- A move of a caller that has not pushed its sound. -/
theorem QueueInv.call (h : QueueInv sh (pc ::ₘ ts) outs) (hpc : IsCall pc) {pc' : UiSignalPc}
    {out : List UiSignalOutput} (hpc' : ¬ Serves pc') (hholds : ¬ Holds pc')
    (hpushed : pushed out = []) (hstarted : started out = []) (hheard : heard out = []) :
    QueueInv sh (pc' ::ₘ (ts + ([] : List UiSignalPc))) (outs ++ out) := by
  have hone := h.one
  have hlock := h.lock
  have hserved := h.served
  have hnot : ¬ Serves pc ∧ ¬ Holds pc ∧ pc ≠ .ensureWorkerStarted ∧
      ∀ pcm, .playing pcm ≠ pc := by
    cases pc <;> simp_all [IsCall, Serves, Holds]
  rw [Multiset.countP_cons_of_neg _ hnot.1] at hone
  rw [Multiset.countP_cons_of_neg _ hnot.2.1] at hlock
  rw [Multiset.mem_cons, or_iff_right hnot.2.2.1.symm] at hserved
  refine h.quiet rfl hpushed hstarted hheard hnot.2.2.2 ?_ ?_ ?_ ?_ ?_
  · rintro pcm hin
    rw [List.mem_singleton] at hin
    exact hpc' (hin ▸ trivial)
  · rwa [Multiset.coe_nil, add_zero, Multiset.countP_cons_of_neg _ hpc']
  · rwa [Multiset.coe_nil, add_zero, Multiset.countP_cons_of_neg _ hholds]
  · intro hin
    rw [Multiset.coe_nil, add_zero] at hin
    rcases Multiset.mem_cons.1 hin with heq | hin
    · exact (hholds (heq ▸ trivial)).elim
    · exact h.cleared (Multiset.mem_cons_of_mem hin)
  · intro hne
    rw [Multiset.coe_nil, add_zero]
    exact (hserved hne).imp id (Multiset.mem_cons_of_mem ·)

theorem queueInv_move (h : QueueInv sh (pc ::ₘ ts) outs)
    (hm : move resampleLinear sh pc = some m) :
    QueueInv m.shared (m.pc ::ₘ (ts + m.spawned)) (outs ++ m.out) := by
  have hone := h.one
  have hlock := h.lock
  have hcleared := h.cleared
  have hserved := h.served
  cases pc with
  | playOneShotHighQuality pcm srcRate useQueue =>
    simp only [move] at hm
    split at hm
    · cases hm
      exact h.call trivial id id rfl rfl rfl
    · split at hm <;> cases hm <;> exact h.call trivial id id rfl rfl rfl
  | push pcm44 =>
    simp only [move] at hm
    split at hm <;> cases hm
    simpa using h.push ‹_›
  | ensureWorkerStarted =>
    simp only [move] at hm
    split at hm <;> cases hm
    · rename_i hrunning
      refine h.quiet rfl rfl rfl rfl nofun (by simp) ?_ ?_ ?_ fun _ => Or.inl hrunning
      · simpa [Multiset.countP_cons, Serves] using hone
      · simpa [Multiset.countP_cons, Holds] using hlock
      · simpa using hcleared
    · rename_i hrunning
      refine h.quiet rfl rfl rfl rfl nofun (by simp) ?_ ?_ ?_ fun _ => Or.inl rfl
      · simpa [Multiset.countP_cons, ← Multiset.cons_zero, Serves, hrunning] using hone
      · simpa [Multiset.countP_cons, ← Multiset.cons_zero, Holds] using hlock
      · simpa using hcleared
  | lock =>
    simp only [move] at hm
    obtain ⟨hrunning, -⟩ := h.alone trivial
    split at hm
    · cases hm
    · rename_i hfree
      split at hm <;> cases hm
      · refine h.quiet rfl rfl rfl rfl nofun (by simp) ?_ ?_ ?_ fun _ => Or.inl hrunning
        · simpa [Multiset.countP_cons, Serves] using hone
        · simpa [Multiset.countP_cons, Holds] using hlock
        · simpa using hcleared
      · refine h.quiet rfl rfl rfl rfl nofun (by simp) ?_ ?_ ?_ fun _ => Or.inl hrunning
        · simpa [Multiset.countP_cons, Serves] using hone
        · simpa [Multiset.countP_cons, Holds, hfree] using hlock
        · simpa using hcleared
  | waiting =>
    simp only [move] at hm
    obtain ⟨hrunning, -⟩ := h.alone trivial
    split at hm <;> cases hm
    rename_i hfree
    refine h.quiet rfl rfl rfl rfl nofun (by simp) ?_ ?_ ?_ fun _ => Or.inl hrunning
    · simpa [Multiset.countP_cons, Serves] using hone
    · simpa [Multiset.countP_cons, Holds, hfree] using hlock
    · simpa using hcleared
  | woken =>
    simp only [move] at hm
    split at hm <;> rename_i hqueue <;> cases hm
    · refine h.quiet rfl rfl rfl rfl nofun (by simp) ?_ ?_ (fun _ => hqueue)
        fun hne => (hne hqueue).elim
      · have hnone := Multiset.countP_eq_zero.2 (h.alone trivial).2
        simpa [Multiset.countP_cons, Serves] using hnone
      · simpa [Multiset.countP_cons, Holds] using hlock
    · obtain ⟨hrunning, -⟩ := h.alone trivial
      simpa [hrunning] using h.take trivial trivial nofun hqueue
  | cleared =>
    have hqueue := hcleared (Multiset.mem_cons_self _ _)
    simp only [move, hqueue] at hm
    cases hm
    have hnone := Multiset.countP_eq_zero.2 (h.holder trivial).2
    refine h.quiet hqueue.symm rfl rfl rfl nofun (by simp) ?_ ?_ (fun _ => hqueue)
      fun hne => (hne hqueue).elim
    · simpa [Multiset.countP_cons, Serves] using hone
    · simpa [Multiset.countP_cons, Holds] using hnone
  | playing pcm =>
    cases hm
    simpa using h.finish
  | ended => cases hm

/-! ## Every interleaving -/

section Runs

variable (resampleLinear)

abbrev After (as : List (Act UiSignalPc)) : Pool UiSignalQueue UiSignalPc :=
  after (next (Pool.step (move resampleLinear))) ⟨{}, []⟩ as

abbrev Outputs (as : List (Act UiSignalPc)) : List UiSignalOutput :=
  outputs (Pool.step (move resampleLinear)) ⟨{}, []⟩ as

/-- Only calls of `PlayOneShotHighQuality` enter. -/
abbrev OnlyCalls (as : List (Act UiSignalPc)) : Prop :=
  Along (next (Pool.step (move resampleLinear))) (Pool.EntersAt IsCall) ⟨{}, []⟩ as

variable {resampleLinear} {as : List (Act UiSignalPc)}

theorem queueInv_after (h : OnlyCalls resampleLinear as) :
    QueueInv (After resampleLinear as).shared (After resampleLinear as).threads
      (Outputs resampleLinear as) := by
  refine invariant_moves (I := QueueInv) (fun _ _ _ _ => queueInv_enter)
    (fun _ _ _ _ _ => queueInv_move) ?_ h
  constructor <;> simp [started, pushed, heard, oneByOne]

/-- What is heard of the queued sounds is an initial part of the sounds as they were pushed, one
after the other. -/
theorem QueueInv.heard_initial (h : QueueInv sh ts outs) :
    heard outs <+: oneByOne (pushed outs) := by
  have hstarted : oneByOne (started outs) <+: oneByOne (pushed outs) := by
    rw [← h.order, oneByOne_append]
    exact List.prefix_append _ _
  by_cases hplaying : ∃ pcm, .playing pcm ∈ ts
  · obtain ⟨pcm, hin⟩ := hplaying
    exact (List.prefix_append _ _).trans (h.playing pcm hin ▸ hstarted)
  · exact h.silent (fun pcm hin => hplaying ⟨pcm, hin⟩) ▸ hstarted

end Runs

end UiSignalQueue

open UiSignalQueue

/-- In every interleaving of the callers and the workers, the queued sounds are handed to
`PlayOneShotNow` one after the other in the order in which they were pushed, none twice and none
left out. -/
theorem ui_signals_in_order (resampleLinear : List ℤ → ℤ → ℤ → List ℤ)
    (as : List (Act UiSignalPc)) (h : OnlyCalls resampleLinear as) :
    heard (Outputs resampleLinear as) <+: oneByOne (pushed (Outputs resampleLinear as)) :=
  (queueInv_after h).heard_initial

/-- Two callers; the second one pushes while the worker of the first one plays. -/
theorem ui_signals_in_order_two :
    heard (Outputs (fun pcm _ _ => pcm)
        [.enter (.playOneShotHighQuality [1] 48000 true),
          .enter (.playOneShotHighQuality [2] 48000 true), .run 0, .run 0, .run 0, .run 1, .run 2,
          .run 2, .run 1, .run 1, .run 2, .run 2, .run 2]) =
      [.started [1], .finished [1], .started [2]] ∧
    heard (Outputs (fun pcm _ _ => pcm)
        [.enter (.playOneShotHighQuality [1] 48000 true),
          .enter (.playOneShotHighQuality [2] 48000 true), .run 0, .run 0, .run 0, .run 1, .run 2,
          .run 2, .run 1, .run 1, .run 2, .run 2, .run 2]) <+:
      oneByOne (pushed (Outputs (fun pcm _ _ => pcm)
        [.enter (.playOneShotHighQuality [1] 48000 true),
          .enter (.playOneShotHighQuality [2] 48000 true), .run 0, .run 0, .run 0, .run 1, .run 2,
          .run 2, .run 1, .run 1, .run 2, .run 2, .run 2])) :=
  ⟨by decide, ui_signals_in_order _ _ (by decide)⟩

namespace UiSignalQueue

/-! ## Coming to rest -/

/-- More for a caller than for the worker that it may start, and more for a queued sound than for
playing it. -/
def weight : UiSignalPc → ℕ
  | .playOneShotHighQuality _ _ _ => 20
  | .push _ => 19
  | .ensureWorkerStarted => 8
  | .playing _ => 7
  | .lock => 6
  | .waiting => 5
  | .woken => 4
  | .cleared => 2
  | .ended => 0

def queued (sh : UiSignalQueue) : ℕ := 10 * sh.gUiSignalQueue.length

variable {sh : UiSignalQueue} {pc : UiSignalPc} {m : Move UiSignalQueue UiSignalPc UiSignalOutput}
  {resampleLinear : List ℤ → ℤ → ℤ → List ℤ}

theorem move_lowers (hm : move resampleLinear sh pc = some m) :
    queued m.shared + weight m.pc + (m.spawned.map weight).sum < queued sh + weight pc := by
  cases pc <;> simp only [move] at hm <;> (try split at hm) <;> (try split at hm) <;>
    cases hm <;> simp_all [queued, weight] <;> omega

/-- A thread that cannot move although the mutex is free has ended. -/
theorem eq_ended_of_stuck (hfree : sh.locked = false) (hm : move resampleLinear sh pc = none) :
    pc = .ended := by
  cases pc <;> simp only [move, hfree] at hm <;> (try split at hm) <;> (try split at hm) <;>
    simp_all

/-- The thread with the mutex can move. -/
theorem move_ne_none_of_holds (hpc : Holds pc) : move resampleLinear sh pc ≠ none := by
  cases pc <;> simp only [Holds] at hpc <;> simp only [move] <;> split <;> simp

/-- When no thread can move, the mutex is free, all have ended and nothing is queued. -/
theorem QueueInv.stuck {ts : List UiSignalPc} {outs : List UiSignalOutput}
    (h : QueueInv sh ts outs) (hstuck : (⟨sh, ts⟩ : Pool _ _).Stuck (move resampleLinear)) :
    (∀ x ∈ ts, x = .ended) ∧ sh.gUiSignalQueue = [] := by
  have hholder : (ts : Multiset UiSignalPc).countP Holds = 0 :=
    Multiset.countP_eq_zero.2 fun x hx hholds => move_ne_none_of_holds hholds (hstuck x hx)
  have hfree : sh.locked = false := by
    have hlock := h.lock
    rw [hholder] at hlock
    cases hl : sh.locked with
    | false => rfl
    | true => simp [hl] at hlock
  have hended : ∀ x ∈ ts, x = .ended := fun x hx => eq_ended_of_stuck hfree (hstuck x hx)
  refine ⟨hended, by_contra fun hne => ?_⟩
  rcases h.served hne with hrunning | hin
  · have hone := h.one
    rw [if_pos hrunning, Multiset.countP_eq_zero.2] at hone
    · omega
    · intro x hx
      rw [hended x hx]
      exact id
  · cases hended _ hin

end UiSignalQueue

/-- From every state the threads take boundedly many steps until another caller comes, and when none
of them can take one, `PlayOneShotNow` has returned from every sound that was pushed. -/
theorem ui_signals_drain (resampleLinear : List ℤ → ℤ → ℤ → List ℤ)
    (as bs : List (Act UiSignalPc)) (h : OnlyCalls resampleLinear as)
    (hbs : Along (next (Pool.step (move resampleLinear))) (Pool.Moves (move resampleLinear))
      (After resampleLinear as) bs) :
    bs.length ≤ work queued weight (After resampleLinear as) ∧
      ((After resampleLinear (as ++ bs)).Stuck (move resampleLinear) →
        heard (Outputs resampleLinear (as ++ bs)) =
          oneByOne (pushed (Outputs resampleLinear (as ++ bs)))) := by
  refine ⟨(Nat.le_add_right _ _).trans (length_add_work_le (fun _ _ _ => move_lowers) hbs), ?_⟩
  intro hstuck
  have hcalls : OnlyCalls resampleLinear (as ++ bs) := by
    refine along_append_iff.2 ⟨h, fun pre a post heq => ?_⟩
    have hmoves := hbs pre a post heq
    cases a with
    | enter pc => exact hmoves.elim
    | run i => trivial
  have hinv := queueInv_after hcalls
  obtain ⟨hended, hqueue⟩ := hinv.stuck hstuck
  have horder := hinv.order
  rw [hqueue, List.append_nil] at horder
  rw [← horder]
  exact hinv.silent fun pcm hin => nomatch hended _ hin

/-- A worker that plays one sound, waits in vain for another one and ends. -/
theorem ui_signals_drain_one :
    heard (Outputs (fun pcm _ _ => pcm)
        ([.enter (.playOneShotHighQuality [1] 48000 true), .run 0, .run 0] ++
          [.run 0, .run 1, .run 1, .run 1, .run 1, .run 1, .run 1, .run 1])) =
      oneByOne (pushed (Outputs (fun pcm _ _ => pcm)
        ([.enter (.playOneShotHighQuality [1] 48000 true), .run 0, .run 0] ++
          [.run 0, .run 1, .run 1, .run 1, .run 1, .run 1, .run 1, .run 1]))) :=
  (ui_signals_drain _ _ _ (by decide) (by decide)).2 (by decide)

end OWalkie
