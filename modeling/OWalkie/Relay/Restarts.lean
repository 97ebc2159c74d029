import OWalkie.Lib.Run
import OWalkie.Lib.SlidingWindow
import OWalkie.Relay.Basic

/-!
# Emergency restarts of a mixer

`run` starts the loop of a mixer again whenever it panics, after a delay that doubles up to 2.4 s,
and logs an alert when there are too many restarts.  A lap is one call of `runLoop` that panics,
with the record of the restart and the sleep after it.
-/

namespace OWalkie

open Run

def mixerRestartAlertWindow : ℤ := 60 * second

def mixerRestartAlertThreshold : ℕ := 5

def mixerRestartAlertThrottle : ℤ := 30 * second

structure MixerSupervisor where
  clock : ℤ := 0
  restartDelay : ℤ := 150 * millisecond
  mixerEmergencyRestarts : ℕ := 0
  mixerRestartWindow : List ℤ := []
  mixerRestartLastAlert : Option ℤ := none

/-- A line of the log, with the time that `recordMixerRestartAlert` read. -/
inductive SupervisorLog where
  | alert (now : ℤ) (inWindow lifetimeTotal : ℕ)
  | restart (now : ℤ) (total : ℕ) (restartDelay : ℤ)

/-- How long the loop ran, and how much later than asked for it is started again. -/
structure Lap where
  ran : ℕ
  late : ℕ

namespace MixerSupervisor

def recordMixerRestartAlert (s : MixerSupervisor) (lifetimeTotal : ℕ) :
    MixerSupervisor × List SupervisorLog :=
  let now := s.clock
  let w := s.mixerRestartWindow.dropWhile (· < now - mixerRestartAlertWindow) ++ [now]
  let s' := { s with mixerRestartWindow := w }
  if w.length < mixerRestartAlertThreshold then (s', [])
  else if sub now s.mixerRestartLastAlert < mixerRestartAlertThrottle then (s', [])
  else ({ s' with mixerRestartLastAlert := some now }, [.alert now w.length lifetimeTotal])

/-- One turn of the loop in `run`. -/
def lap (s : MixerSupervisor) (l : Lap) : MixerSupervisor × List SupervisorLog :=
  let s := { s with clock := s.clock + l.ran }
  let total := s.mixerEmergencyRestarts + 1
  let (s, alerts) := recordMixerRestartAlert { s with mixerEmergencyRestarts := total } total
  ({ s with
      clock := s.clock + s.restartDelay + l.late
      restartDelay := if s.restartDelay < 2 * second then s.restartDelay * 2 else s.restartDelay },
    alerts ++ [.restart s.clock total s.restartDelay])

/-! ## One lap -/

/-- The delay before the loop is started again for the `i`-th time, counted from zero. -/
def delayAt (i : ℕ) : ℤ := 150 * millisecond * 2 ^ min i 4

theorem delayAt_succ (i : ℕ) :
    delayAt (i + 1) = if delayAt i < 2 * second then delayAt i * 2 else delayAt i := by
  rcases lt_or_ge i 4 with hi | hi
  · interval_cases i <;> decide
  · have hlong : delayAt i = 2400 * millisecond := by
      rw [delayAt, min_eq_right hi]
      decide
    have hlong' : delayAt (i + 1) = 2400 * millisecond := by
      rw [delayAt, min_eq_right (by omega)]
      decide
    rw [hlong, hlong', if_neg (by decide)]

theorem delayAt_mono : Monotone delayAt := fun i j hij =>
  mul_le_mul_of_nonneg_left
    (pow_le_pow_right₀ one_le_two (min_le_min_right 4 hij)) (by decide)

theorem delayAt_pos (i : ℕ) : 0 < delayAt i := mul_pos (by decide) (pow_pos two_pos _)

/-- The window after a restart at `now`. -/
def windowAt (s : MixerSupervisor) (now : ℤ) : List ℤ :=
  SlidingWindow.push (· - mixerRestartAlertWindow) s.mixerRestartWindow now

/-- The conditions for an alert at `now`. -/
def Alerts (s : MixerSupervisor) (now : ℤ) : Prop :=
  mixerRestartAlertThreshold ≤ (s.windowAt now).length ∧
    mixerRestartAlertThrottle ≤ sub now s.mixerRestartLastAlert

instance (s : MixerSupervisor) (now : ℤ) : Decidable (s.Alerts now) :=
  inferInstanceAs (Decidable (_ ∧ _))

theorem lap_eq (s : MixerSupervisor) (l : Lap) :
    lap s l = ({
      clock := s.clock + l.ran + s.restartDelay + l.late
      restartDelay := if s.restartDelay < 2 * second then s.restartDelay * 2 else s.restartDelay
      mixerEmergencyRestarts := s.mixerEmergencyRestarts + 1
      mixerRestartWindow := s.windowAt (s.clock + l.ran)
      mixerRestartLastAlert :=
        if s.Alerts (s.clock + l.ran) then some (s.clock + l.ran)
        else s.mixerRestartLastAlert },
      (if s.Alerts (s.clock + l.ran) then
        [.alert (s.clock + l.ran) (s.windowAt (s.clock + l.ran)).length
          (s.mixerEmergencyRestarts + 1)]
      else []) ++
        [.restart (s.clock + l.ran) (s.mixerEmergencyRestarts + 1) s.restartDelay]) := by
  by_cases hfew : (s.windowAt (s.clock + l.ran)).length < mixerRestartAlertThreshold
  · have hno : ¬ s.Alerts (s.clock + l.ran) := fun h => absurd h.1 (not_le.2 hfew)
    simp only [windowAt, SlidingWindow.push] at hfew
    simp only [lap, recordMixerRestartAlert, hno, windowAt, SlidingWindow.push, hfew, if_true,
      if_false, List.nil_append]
  by_cases hsoon : sub (s.clock + l.ran) s.mixerRestartLastAlert < mixerRestartAlertThrottle
  · have hno : ¬ s.Alerts (s.clock + l.ran) := fun h => absurd h.2 (not_le.2 hsoon)
    simp only [windowAt, SlidingWindow.push] at hfew
    simp only [lap, recordMixerRestartAlert, hno, windowAt, SlidingWindow.push, hfew, hsoon,
      if_true, if_false, List.nil_append]
  · have hyes : s.Alerts (s.clock + l.ran) := ⟨not_lt.1 hfew, not_lt.1 hsoon⟩
    simp only [windowAt, SlidingWindow.push] at hfew
    simp only [lap, recordMixerRestartAlert, hyes, windowAt, SlidingWindow.push, hfew, hsoon,
      if_true, if_false]

/-! ## The log -/

def restarts (logs : List SupervisorLog) : List ℤ :=
  logs.filterMap fun
    | .restart now _ _ => some now
    | .alert _ _ _ => none

def alerts (logs : List SupervisorLog) : List ℤ :=
  logs.filterMap fun
    | .alert now _ _ => some now
    | .restart _ _ _ => none

/-- The restarts in the minute before `t`, with the one at `t`. -/
def minuteBefore (logs : List SupervisorLog) (t : ℤ) : List ℤ :=
  (restarts logs).filter fun u => t - mixerRestartAlertWindow ≤ u ∧ u ≤ t

theorem restarts_append (logs logs' : List SupervisorLog) :
    restarts (logs ++ logs') = restarts logs ++ restarts logs' := List.filterMap_append

theorem alerts_append (logs logs' : List SupervisorLog) :
    alerts (logs ++ logs') = alerts logs ++ alerts logs' := List.filterMap_append

/-- What the supervisor knows of its log. -/
structure Supervised (s : MixerSupervisor) (logs : List SupervisorLog) : Prop where
  window : s.mixerRestartWindow =
    (restarts logs).foldl (SlidingWindow.push (· - mixerRestartAlertWindow)) []
  total : s.mixerEmergencyRestarts = (restarts logs).length
  delay : s.restartDelay = delayAt (restarts logs).length
  gaps : ∀ i (hi : i + 1 < (restarts logs).length),
    (restarts logs)[i] + delayAt i ≤ (restarts logs)[i + 1]
  past : ∀ i (hi : i < (restarts logs).length), (restarts logs)[i] + delayAt i ≤ s.clock
  lastAlert : s.mixerRestartLastAlert = (alerts logs).getLast?
  restarted : ∀ a ∈ alerts logs, a ∈ restarts logs
  spaced : (alerts logs).Pairwise fun a b => a + mixerRestartAlertThrottle ≤ b
  sound : ∀ now inWindow lifetimeTotal, .alert now inWindow lifetimeTotal ∈ logs →
    mixerRestartAlertThreshold ≤ inWindow ∧ inWindow = (minuteBefore logs now).length ∧
      lifetimeTotal = ((restarts logs).filter (· ≤ now)).length
  complete : ∀ t ∈ restarts logs, mixerRestartAlertThreshold ≤ (minuteBefore logs t).length →
    ∃ a ∈ alerts logs, t - mixerRestartAlertThrottle < a ∧ a ≤ t

theorem supervised_new : Supervised {} [] := by
  constructor <;> simp [restarts, alerts, delayAt]

variable {s : MixerSupervisor} {logs : List SupervisorLog}

theorem Supervised.lt_clock (h : Supervised s logs) {t : ℤ} (ht : t ∈ restarts logs) :
    t < s.clock := by
  obtain ⟨i, hi, rfl⟩ := List.getElem_of_mem ht
  have hpast := h.past i hi
  have hpos := delayAt_pos i
  omega

theorem Supervised.sorted (h : Supervised s logs) (now : ℤ) (hnow : s.clock ≤ now) :
    (restarts logs ++ [now]).Pairwise (· ≤ ·) := by
  rw [List.pairwise_append]
  refine ⟨SlidingWindow.sorted_of_gaps (fun i => (delayAt_pos i).le) h.gaps,
    List.pairwise_singleton _ _, fun t ht u hu => ?_⟩
  rw [List.mem_singleton.1 hu]
  exact (h.lt_clock ht).le.trans hnow

/-- The window after a restart at `now` holds the restarts of the last minute. -/
theorem Supervised.windowAt (h : Supervised s logs) (now : ℤ) (hnow : s.clock ≤ now) :
    s.windowAt now = (restarts logs ++ [now]).filter fun u =>
      now - mixerRestartAlertWindow ≤ u ∧ u ≤ now := by
  have hmono : Monotone fun t : ℤ => t - mixerRestartAlertWindow := fun a b hab =>
    sub_le_sub_right hab _
  have hfold := SlidingWindow.foldl_push hmono
    (fun t => sub_le_self t (by decide)) (h.sorted now hnow)
  rw [MixerSupervisor.windowAt, h.window]
  rw [List.foldl_append] at hfold
  refine hfold.trans (List.filter_congr fun u hu => ?_)
  have hle : u ≤ now := by
    rcases List.mem_append.1 hu with hu | hu
    · exact (h.lt_clock hu).le.trans hnow
    · exact (List.mem_singleton.1 hu).le
  simp [hle]

/-- Later restarts are not in the minute before `t`. -/
theorem minuteBefore_append {logs' : List SupervisorLog} {now t : ℤ}
    (hrestarts : restarts logs' = [now]) (ht : t < now) :
    minuteBefore (logs ++ logs') t = minuteBefore logs t := by
  rw [minuteBefore, restarts_append, hrestarts, List.filter_append, minuteBefore,
    List.filter_cons_of_neg (by simp; omega), List.filter_nil, List.append_nil]

theorem mem_alerts {now : ℤ} {inWindow lifetimeTotal : ℕ}
    (h : .alert now inWindow lifetimeTotal ∈ logs) : now ∈ alerts logs :=
  List.mem_filterMap.2 ⟨_, h, rfl⟩

/-- Every alert is at least the throttle before a time at which the last one is. -/
theorem Supervised.alert_early (h : Supervised s logs) {a now : ℤ} (ha : a ∈ alerts logs)
    (hlast : mixerRestartAlertThrottle ≤ sub now s.mixerRestartLastAlert) :
    a + mixerRestartAlertThrottle ≤ now := by
  rcases List.eq_nil_or_concat (alerts logs) with hnil | ⟨as, z, hconcat⟩
  · rw [hnil] at ha
    cases ha
  rw [List.concat_eq_append] at hconcat
  have hspaced := h.spaced
  rw [h.lastAlert, hconcat, List.getLast?_concat, sub_some] at hlast
  rw [hconcat] at ha hspaced
  rcases List.mem_append.1 ha with ha | ha
  · have hz := (List.pairwise_append.1 hspaced).2.2 a ha z (List.mem_singleton_self z)
    have hpos : 0 ≤ mixerRestartAlertThrottle := by decide
    omega
  · obtain rfl := List.mem_singleton.1 ha
    omega

theorem Supervised.lap (h : Supervised s logs) (l : Lap) :
    Supervised (lap s l).1 (logs ++ (lap s l).2) := by
  rw [lap_eq]
  generalize hnow' : s.clock + (l.ran : ℤ) = now
  have hnow : s.clock ≤ now := by omega
  have hwindow := h.windowAt now hnow
  set out : List SupervisorLog := (if s.Alerts now then
    [.alert now (s.windowAt now).length (s.mixerEmergencyRestarts + 1)] else []) ++
      [.restart now (s.mixerEmergencyRestarts + 1) s.restartDelay] with hout
  have hrestarts : restarts out = [now] := by
    rw [hout]
    split_ifs <;> rfl
  have halerts : alerts out = if s.Alerts now then [now] else [] := by
    rw [hout]
    split_ifs <;> rfl
  have hminute : minuteBefore (logs ++ out) now = s.windowAt now := by
    rw [minuteBefore, restarts_append, hrestarts, hwindow]
  have hlen : (restarts (logs ++ out)).length = (restarts logs).length + 1 := by
    rw [restarts_append, hrestarts, List.length_append, List.length_singleton]
  have hget : ∀ i (hi : i < (restarts logs).length) (_ : i < (restarts (logs ++ out)).length),
      (restarts (logs ++ out))[i] = (restarts logs)[i] := fun i hi _ => by
    simp only [restarts_append]
    exact List.getElem_append_left hi
  have hlast : ∀ _ : (restarts logs).length < (restarts (logs ++ out)).length,
      (restarts (logs ++ out))[(restarts logs).length] = now := fun _ => by
    simp [restarts_append, hrestarts]
  show Supervised _ (logs ++ out)
  constructor
  case window =>
    rw [restarts_append, hrestarts, List.foldl_append, ← h.window]
    rfl
  case total =>
    rw [hlen, ← h.total]
  case delay =>
    rw [hlen, delayAt_succ, ← h.delay]
  case gaps =>
    intro i hi
    rw [hget i (by omega) (by omega)]
    rcases Nat.lt_or_ge (i + 1) (restarts logs).length with hlt | hge
    · rw [hget (i + 1) hlt hi]
      exact h.gaps i hlt
    · have hend : (restarts (logs ++ out))[i + 1] = now := by
        rw [← hlast (by omega)]
        congr 1
        omega
      rw [hend]
      exact (h.past i (by omega)).trans hnow
  case past =>
    intro i hi
    dsimp only
    rcases Nat.lt_or_ge i (restarts logs).length with hlt | hge
    · have hpast := h.past i hlt
      have hpos := delayAt_pos (restarts logs).length
      rw [hget i hlt hi, h.delay]
      omega
    · obtain rfl : i = (restarts logs).length := by omega
      rw [hlast hi, h.delay]
      omega
  case lastAlert =>
    rw [alerts_append, halerts]
    show (if s.Alerts now then some now else s.mixerRestartLastAlert) = _
    by_cases hyes : s.Alerts now
    · rw [if_pos hyes, if_pos hyes, List.getLast?_concat]
    · rw [if_neg hyes, if_neg hyes, List.append_nil, h.lastAlert]
  case restarted =>
    intro a ha
    rw [alerts_append, halerts, List.mem_append] at ha
    rw [restarts_append, hrestarts, List.mem_append]
    rcases ha with ha | ha
    · exact Or.inl (h.restarted a ha)
    · split_ifs at ha
      · exact Or.inr ha
      · cases ha
  case spaced =>
    rw [alerts_append, halerts]
    split_ifs with hyes
    · refine List.pairwise_append.2 ⟨h.spaced, List.pairwise_singleton _ _, fun a ha b hb => ?_⟩
      rw [List.mem_singleton.1 hb]
      exact h.alert_early ha hyes.2
    · rw [List.append_nil]
      exact h.spaced
  case sound =>
    intro at_ inWindow lifetimeTotal hmem
    rcases List.mem_append.1 hmem with hmem | hmem
    · have hearly := (h.lt_clock (h.restarted at_ (mem_alerts hmem))).trans_le hnow
      obtain ⟨hmany, hin, htotal⟩ := h.sound _ _ _ hmem
      rw [minuteBefore_append hrestarts hearly]
      refine ⟨hmany, hin, ?_⟩
      rw [htotal, restarts_append, hrestarts, List.filter_append,
        List.filter_cons_of_neg (by simpa using hearly), List.filter_nil, List.append_nil]
    · have hpast : ∀ u ∈ restarts (logs ++ out), decide (u ≤ now) = true := by
        intro u hu
        rw [restarts_append, hrestarts] at hu
        rcases List.mem_append.1 hu with hu | hu
        · exact decide_eq_true ((h.lt_clock hu).le.trans hnow)
        · exact decide_eq_true (List.mem_singleton.1 hu).le
      rw [hout] at hmem
      split_ifs at hmem with hyes
      · simp only [List.cons_append, List.nil_append, List.mem_cons, SupervisorLog.alert.injEq,
          List.not_mem_nil, reduceCtorEq, or_false] at hmem
        obtain ⟨rfl, rfl, rfl⟩ := hmem
        rw [hminute, List.filter_eq_self.2 hpast, hlen, ← h.total]
        exact ⟨hyes.1, rfl, rfl⟩
      · simp at hmem
  case complete =>
    intro t ht hmany
    rw [restarts_append, hrestarts, List.mem_append, List.mem_singleton] at ht
    rw [alerts_append, halerts]
    rcases ht with ht | rfl
    · rw [minuteBefore_append hrestarts ((h.lt_clock ht).trans_le hnow)] at hmany
      obtain ⟨a, ha, hthrottle⟩ := h.complete t ht hmany
      exact ⟨a, List.mem_append_left _ ha, hthrottle⟩
    · rw [hminute] at hmany
      by_cases hyes : s.Alerts t
      · exact ⟨t, by simp [hyes], sub_lt_self t (by decide), le_rfl⟩
      · have hsoon : sub t s.mixerRestartLastAlert < mixerRestartAlertThrottle :=
          not_le.1 fun hle => hyes ⟨hmany, hle⟩
        rw [h.lastAlert] at hsoon
        cases hz : (alerts logs).getLast? with
        | none =>
          rw [hz] at hsoon
          change maxDuration < mixerRestartAlertThrottle at hsoon
          exact absurd hsoon (by decide)
        | some z =>
          rw [hz, sub_some] at hsoon
          have hmem := List.mem_of_getLast? hz
          have hlt := h.lt_clock (h.restarted z hmem)
          exact ⟨z, List.mem_append_left _ hmem, by omega, by omega⟩

/-! ## Every run -/

theorem supervised_run (laps : List Lap) :
    Supervised (after (next MixerSupervisor.lap) {} laps)
      (outputs MixerSupervisor.lap {} laps) :=
  invariant_outputs (C := fun _ _ => True) (fun _ l _ h _ => h.lap l) supervised_new
    fun _ _ _ _ => trivial

/-- The alerts of a mixer that is restarted again and again: they are never closer than
`mixerRestartAlertThrottle`, each one counts the restarts of the minute before it, of which there
are `mixerRestartAlertThreshold`, and every restart with so many has an alert at it or shortly
before. -/
theorem restart_alerts (laps : List Lap) :
    (alerts (outputs MixerSupervisor.lap {} laps)).Pairwise
        (fun a b => a + mixerRestartAlertThrottle ≤ b) ∧
      (∀ now inWindow lifetimeTotal,
        .alert now inWindow lifetimeTotal ∈ outputs MixerSupervisor.lap {} laps →
          mixerRestartAlertThreshold ≤ inWindow ∧
          inWindow = (minuteBefore (outputs MixerSupervisor.lap {} laps) now).length ∧
          lifetimeTotal = ((restarts (outputs MixerSupervisor.lap {} laps)).filter
            (· ≤ now)).length) ∧
      ∀ t ∈ restarts (outputs MixerSupervisor.lap {} laps),
        mixerRestartAlertThreshold ≤
            (minuteBefore (outputs MixerSupervisor.lap {} laps) t).length →
          ∃ a ∈ alerts (outputs MixerSupervisor.lap {} laps),
            t - mixerRestartAlertThrottle < a ∧ a ≤ t :=
  have h := supervised_run laps
  ⟨h.spaced, h.sound, h.complete⟩

/-- The restarts are as far apart as the delays say, so that the list of the last minute's restarts
does not grow. -/
theorem restart_window_bounded (laps : List Lap) :
    (∀ i (hi : i + 1 < (restarts (outputs MixerSupervisor.lap {} laps)).length),
      (restarts (outputs MixerSupervisor.lap {} laps))[i] + delayAt i ≤
        (restarts (outputs MixerSupervisor.lap {} laps))[i + 1]) ∧
      (after (next MixerSupervisor.lap) {} laps).mixerRestartWindow.length ≤ 29 := by
  have h := supervised_run laps
  refine ⟨h.gaps, ?_⟩
  rw [h.window]
  generalize outputs MixerSupervisor.lap {} laps = logs at h
  rcases List.eq_nil_or_concat (restarts logs) with hnil | ⟨ts, t, hconcat⟩
  · rw [hnil]
    exact Nat.zero_le _
  have hgaps := h.gaps
  have hpos := fun i => (delayAt_pos i).le
  rw [List.concat_eq_append] at hconcat
  simp only [hconcat] at hgaps ⊢
  have hmono : Monotone fun t : ℤ => t - mixerRestartAlertWindow := fun a b hab =>
    sub_le_sub_right hab _
  rw [SlidingWindow.foldl_push hmono (fun t => sub_le_self t (by decide))
    (SlidingWindow.sorted_of_gaps hpos hgaps)]
  have hsum : mixerRestartAlertWindow < ∑ j ∈ Finset.range 29, delayAt j := by decide
  simpa using SlidingWindow.length_filter_le delayAt_mono hpos hgaps hsum (by simp)

end MixerSupervisor

end OWalkie
