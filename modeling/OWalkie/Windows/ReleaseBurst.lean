import Mathlib.Tactic
import OWalkie.Lib.Run

/-!
# The guard against quick releases

Three releases in a row block the PTT button of the desktop client until a timer clears the guard.
Every operation takes a new ticket, a release and a rejected press arm a timer with it, and a timer
acts only if its ticket is still the current one.  `guard_never_sticks`: a guard that is not clear
has a timer on the way that clears it.
-/

namespace OWalkie

open Run

def kPttReleaseBurstTimerMs : ℕ := 1000

def kPttReleaseBurstBlockThreshold : ℤ := 3

/-- A detached thread that sleeps, and its `CallAfter`. -/
structure DecayTimer where
  scheduleTicket : UInt64
  dueAt : ℕ
deriving Repr, DecidableEq

/-- The fields of `MainFrame` with the timers that are on the way; `clock` in milliseconds. -/
structure ReleaseBurstGuard where
  pttReleaseBurstTimerTicket : UInt64 := 0
  pttReleaseBurstCount : ℤ := 0
  pttReleaseBurstBlocked : Bool := false
  timers : List DecayTimer := []
  clock : ℕ := 0
deriving Repr, DecidableEq

namespace ReleaseBurstGuard

/-- `fetch_add(1)` on the ticket. -/
def nextTicket (s : ReleaseBurstGuard) : ReleaseBurstGuard :=
  { s with pttReleaseBurstTimerTicket := s.pttReleaseBurstTimerTicket + 1 }

/-- `ArmPttReleaseBurstDecay`, with the ticket that was just taken. -/
def armPttReleaseBurstDecay (s : ReleaseBurstGuard) : ReleaseBurstGuard :=
  { s with timers := s.timers ++
      [⟨s.pttReleaseBurstTimerTicket, s.clock + kPttReleaseBurstTimerMs⟩] }

def clear (s : ReleaseBurstGuard) : ReleaseBurstGuard :=
  { s with pttReleaseBurstCount := 0, pttReleaseBurstBlocked := false }

def resetPttReleaseBurstGuard (s : ReleaseBurstGuard) : ReleaseBurstGuard := s.nextTicket.clear

def extendPttReleaseBurstDecayTimer (s : ReleaseBurstGuard) : ReleaseBurstGuard :=
  s.nextTicket.armPttReleaseBurstDecay

/-- `RecordPttReleaseBurst`; the count is an `int`. -/
def recordPttReleaseBurst (s : ReleaseBurstGuard) : ReleaseBurstGuard :=
  let n := (s.pttReleaseBurstCount + 1).bmod (2 ^ 32)
  { s.nextTicket with
    pttReleaseBurstCount := n
    pttReleaseBurstBlocked :=
      s.pttReleaseBurstBlocked || decide (kPttReleaseBurstBlockThreshold ≤ n) }.armPttReleaseBurstDecay

/-- The guard in `BeginPttTx`: a press while it is closed is rejected. -/
def beginPttTx (s : ReleaseBurstGuard) : ReleaseBurstGuard :=
  if s.pttReleaseBurstBlocked then s.extendPttReleaseBurstDecayTimer else s

/-- The body of the timer. -/
def onDecay (s : ReleaseBurstGuard) (scheduleTicket : UInt64) : ReleaseBurstGuard :=
  if s.pttReleaseBurstTimerTicket ≠ scheduleTicket then s else s.clear

end ReleaseBurstGuard

inductive GuardAction where
  | recordPttReleaseBurst
  | extendPttReleaseBurstDecayTimer
  | beginPttTx
  | resetPttReleaseBurstGuard
  /-- the `i`-th timer on the way, once it is due -/
  | timer (i : ℕ)
  | elapse (ms : ℕ)
deriving Repr, DecidableEq

namespace ReleaseBurstGuard

def step (s : ReleaseBurstGuard) : GuardAction → ReleaseBurstGuard
  | .recordPttReleaseBurst => s.recordPttReleaseBurst
  | .extendPttReleaseBurstDecayTimer => s.extendPttReleaseBurstDecayTimer
  | .beginPttTx => s.beginPttTx
  | .resetPttReleaseBurstGuard => s.resetPttReleaseBurstGuard
  | .timer i =>
    match s.timers[i]? with
    | some t =>
      if t.dueAt ≤ s.clock then
        { s with timers := s.timers.eraseIdx i }.onDecay t.scheduleTicket
      else s
    | none => s
  | .elapse ms => { s with clock := s.clock + ms }

/-- Nothing is counted and nothing is blocked. -/
def IsClear (s : ReleaseBurstGuard) : Prop :=
  s.pttReleaseBurstCount = 0 ∧ s.pttReleaseBurstBlocked = false

/-- A timer with the current ticket is on the way. -/
def HasTimer (s : ReleaseBurstGuard) : Prop :=
  ∃ t ∈ s.timers, t.scheduleTicket = s.pttReleaseBurstTimerTicket

/-- A guard that is not clear has its timer, and no timer is further away than the decay time. -/
structure Guarded (s : ReleaseBurstGuard) : Prop where
  timer : ¬ s.IsClear → s.HasTimer
  due : ∀ t ∈ s.timers, t.dueAt ≤ s.clock + kPttReleaseBurstTimerMs

theorem isClear_clear (s : ReleaseBurstGuard) : s.clear.IsClear := ⟨rfl, rfl⟩

theorem hasTimer_arm (s : ReleaseBurstGuard) : s.armPttReleaseBurstDecay.HasTimer :=
  ⟨_, List.mem_append_right _ (List.mem_singleton_self _), rfl⟩

/-- An operation that arms a timer. -/
theorem guarded_arm {s : ReleaseBurstGuard}
    (h : ∀ t ∈ s.timers, t.dueAt ≤ s.clock + kPttReleaseBurstTimerMs) :
    s.armPttReleaseBurstDecay.Guarded := by
  refine ⟨fun _ => s.hasTimer_arm, fun t ht => ?_⟩
  rcases List.mem_append.1 ht with ht | ht
  · exact h t ht
  · rw [List.mem_singleton.1 ht]
    exact le_rfl

/-- What a timer can do: nothing before it is due, leave, or leave and clear the guard. -/
theorem timer_cases (s : ReleaseBurstGuard) (i : ℕ) :
    s.step (.timer i) = s ∨ ∃ t, s.timers[i]? = some t ∧
      (t.scheduleTicket = s.pttReleaseBurstTimerTicket ∧
          s.step (.timer i) = { s with timers := s.timers.eraseIdx i }.clear ∨
        t.scheduleTicket ≠ s.pttReleaseBurstTimerTicket ∧
          s.step (.timer i) = { s with timers := s.timers.eraseIdx i }) := by
  rw [step]
  cases hi : s.timers[i]? with
  | none => exact .inl rfl
  | some t =>
    dsimp only
    by_cases hdue : t.dueAt ≤ s.clock
    · rw [if_pos hdue]
      refine .inr ⟨t, rfl, ?_⟩
      by_cases hticket : t.scheduleTicket = s.pttReleaseBurstTimerTicket
      · exact .inl ⟨hticket, if_neg (not_not.2 hticket.symm)⟩
      · exact .inr ⟨hticket, if_pos fun heq => hticket heq.symm⟩
    · exact .inl (if_neg hdue)

theorem Guarded.timer_step {s : ReleaseBurstGuard} (h : s.Guarded) (i : ℕ) :
    (s.step (.timer i)).Guarded := by
  have hle : ∀ t ∈ s.timers.eraseIdx i, t.dueAt ≤ s.clock + kPttReleaseBurstTimerMs :=
    fun t ht => h.due t (List.mem_of_mem_eraseIdx ht)
  rcases s.timer_cases i with hstep | ⟨t, hi, ⟨-, hstep⟩ | ⟨hticket, hstep⟩⟩
  · rwa [hstep]
  · rw [hstep]
    exact ⟨fun hno => absurd (isClear_clear _) hno, hle⟩
  · rw [hstep]
    refine ⟨fun hno => ?_, hle⟩
    -- the timer that has left is another one
    obtain ⟨t', ht', hcurrent⟩ := h.timer hno
    obtain ⟨j, hj⟩ := List.mem_iff_getElem?.1 ht'
    refine ⟨t', List.mem_eraseIdx_iff_getElem?.2 ⟨j, fun heq => ?_, hj⟩, hcurrent⟩
    rw [heq, hi] at hj
    exact hticket (Option.some.inj hj ▸ hcurrent)

theorem Guarded.step {s : ReleaseBurstGuard} (h : s.Guarded) (a : GuardAction) :
    (s.step a).Guarded := by
  cases a with
  | recordPttReleaseBurst => exact guarded_arm h.due
  | extendPttReleaseBurstDecayTimer => exact guarded_arm h.due
  | beginPttTx =>
    show s.beginPttTx.Guarded
    rw [beginPttTx]
    split
    · exact guarded_arm h.due
    · exact h
  | resetPttReleaseBurstGuard => exact ⟨fun hno => absurd (isClear_clear _) hno, h.due⟩
  | timer i => exact h.timer_step i
  | elapse ms =>
    refine ⟨h.timer, fun t ht => (h.due t ht).trans ?_⟩
    show s.clock + _ ≤ s.clock + ms + _
    omega

theorem guarded_start : ({} : ReleaseBurstGuard).Guarded :=
  ⟨fun hno => absurd ⟨rfl, rfl⟩ hno, nofun⟩

theorem guarded_after (as : List GuardAction) : (after ReleaseBurstGuard.step {} as).Guarded :=
  invariant (fun _ a h => h.step a) guarded_start as

/-! ## Quiet time -/

/-- No release, no rejected press and no reset: time passes and timers act. -/
def IsQuiet : GuardAction → Prop
  | .timer _ | .elapse _ => True
  | _ => False

/-- Every timer that is due has acted. -/
def Settled (s : ReleaseBurstGuard) : Prop := ∀ t ∈ s.timers, s.clock < t.dueAt

/-- In quiet time no timer is added. -/
theorem mem_timers_of_quiet {s : ReleaseBurstGuard} {quiet : List GuardAction}
    (h : ∀ a ∈ quiet, IsQuiet a) {t : DecayTimer}
    (ht : t ∈ (after ReleaseBurstGuard.step s quiet).timers) : t ∈ s.timers := by
  induction quiet generalizing s with
  | nil => exact ht
  | cons a quiet ih =>
    have hmem := ih (fun b hb => h b (List.mem_cons_of_mem _ hb)) ht
    have ha := h a List.mem_cons_self
    cases a with
    | elapse ms => exact hmem
    | timer i =>
      rcases s.timer_cases i with hstep | ⟨_, -, ⟨-, hstep⟩ | ⟨-, hstep⟩⟩
      · rwa [hstep] at hmem
      · rw [hstep] at hmem
        exact List.mem_of_mem_eraseIdx hmem
      · rw [hstep] at hmem
        exact List.mem_of_mem_eraseIdx hmem
    | _ => exact ha.elim

/-- After the decay time without an operation the guard is clear. -/
theorem isClear_of_quiet {s : ReleaseBurstGuard} (hs : s.Guarded) {quiet : List GuardAction}
    (h : ∀ a ∈ quiet, IsQuiet a)
    (hlong : s.clock + kPttReleaseBurstTimerMs ≤ (after ReleaseBurstGuard.step s quiet).clock)
    (hsettled : (after ReleaseBurstGuard.step s quiet).Settled) :
    (after ReleaseBurstGuard.step s quiet).IsClear := by
  have hguarded : (after ReleaseBurstGuard.step s quiet).Guarded :=
    invariant (fun _ a h => h.step a) hs quiet
  by_contra hno
  obtain ⟨t, ht, -⟩ := hguarded.timer hno
  have hdue := hs.due t (mem_timers_of_quiet h ht)
  have hlate := hsettled t ht
  omega

/-- In every run: a guard that is not clear has a timer with the current ticket on the way, a timer
with another ticket changes nothing but that it leaves, and once the decay time has passed without
an operation and the timers that are due have acted, the count is zero and a press is accepted. -/
theorem guard_never_sticks (as : List GuardAction) :
    let s := after ReleaseBurstGuard.step {} as
    ((s.pttReleaseBurstBlocked = true ∨ 0 < s.pttReleaseBurstCount) → s.HasTimer) ∧
    (∀ i t, s.timers[i]? = some t → t.scheduleTicket ≠ s.pttReleaseBurstTimerTicket →
      s.step (.timer i) = s ∨ s.step (.timer i) = { s with timers := s.timers.eraseIdx i }) ∧
    ∀ quiet, (∀ a ∈ quiet, IsQuiet a) →
      s.clock + kPttReleaseBurstTimerMs ≤ (after ReleaseBurstGuard.step s quiet).clock →
      (after ReleaseBurstGuard.step s quiet).Settled →
      (after ReleaseBurstGuard.step s quiet).pttReleaseBurstCount = 0 ∧
        (after ReleaseBurstGuard.step s quiet).beginPttTx = after ReleaseBurstGuard.step s quiet := by
  intro s
  have hs : s.Guarded := guarded_after as
  refine ⟨fun h => hs.timer fun hclear => ?_, fun i t hi hticket => ?_,
    fun quiet h hlong hsettled => ?_⟩
  · rcases h with hblocked | hcount
    · exact Bool.false_ne_true (hclear.2.symm.trans hblocked)
    · exact hcount.ne' hclear.1
  · rcases s.timer_cases i with hstep | ⟨t', hi', ⟨hcurrent, -⟩ | ⟨-, hstep⟩⟩
    · exact .inl hstep
    · rw [hi] at hi'
      exact absurd (Option.some.inj hi' ▸ hcurrent) hticket
    · exact .inr hstep
  · have hclear := isClear_of_quiet hs h hlong hsettled
    refine ⟨hclear.1, ?_⟩
    rw [beginPttTx, hclear.2]
    rfl

end ReleaseBurstGuard

end OWalkie
