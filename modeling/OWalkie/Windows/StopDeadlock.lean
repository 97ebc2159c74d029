import OWalkie.Lib.Run
import OWalkie.Windows.TxPump

/-!
# When a stop never ends

`CloseCaptureDeviceLocked` waits for the callback of the device while it holds `mu_`, and the
callback takes `mu_` once it has found `transmitting_` set.  `ui_stuck_iff`: that is the only way
for the UI thread not to come back to its event loop.
-/

namespace OWalkie

open Run

namespace DesktopTx

/-- A stop holds the mutex and waits for a callback that waits for the mutex. -/
def Deadlocked (s : DesktopTx) : Prop :=
  (∃ c, s.ui = .close c) ∧ s.captureActive = true ∧ s.callback.isSome

/-- What the handlers rely on when they wait. -/
structure WaitInv (s : DesktopTx) : Prop where
  locked : s.locked = true ↔ ∃ c, s.ui = .close c
  positive : ∀ g n pcm, s.ui = .stream g n pcm → 0 < n
  framePositive : ∀ pc g n pcm f, s.ui = .frame pc g n pcm f → 0 < n
  told : ∀ c, s.ui = .close c ∨ s.ui = .join c → s.txPumpStop = true

variable {s s' : DesktopTx} {out : List DesktopOutput}

/-- A step of the UI thread that takes or gives back the mutex only around a stop. -/
theorem waitInv_uiStep (h : WaitInv s) (hstep : s.uiStep = some (s', out)) : WaitInv s' := by
  obtain ⟨h1, h2, h2', h3⟩ := h
  cases hui : s.ui with
  | idle => simp [uiStep, hui] at hstep
  | handle ev =>
    simp only [uiStep, hui] at hstep
    cases ev <;> simp only [handle, done, goto] at hstep <;> (try split at hstep) <;>
      (try split at hstep) <;> (try split at hstep) <;> cases hstep <;> constructor <;> simp_all
  | close c =>
    simp only [uiStep, hui, goto] at hstep
    split at hstep <;> cases hstep
    cases c <;> constructor <;> simp_all [configure]
  | join c =>
    simp only [uiStep, hui, goto] at hstep
    split at hstep <;> cases hstep <;> constructor <;> simp_all
  | stopped c =>
    simp only [uiStep, hui] at hstep
    cases c <;> cases hstep <;> constructor <;> simp_all
  | stream g n pcmSignal =>
    simp only [uiStep, hui, goto] at hstep
    have hpos := h2 g n pcmSignal hui
    (split at hstep) <;> (try split at hstep) <;> cases hstep <;> constructor <;> simp_all
    rintro - - n' - - - - rfl - -
    exact hpos
  | frame pc g n pcmSignal frame =>
    have hpos := h2' pc g n pcmSignal frame hui
    have hlocked : s.locked = false := by simpa [hui] using h1
    rcases hframe : s.onPcmFrame frame pc with ⟨t, _ | pc', out'⟩ <;>
      obtain ⟨⟨opened, rfl⟩, -⟩ := onPcmFrame_cases hframe <;>
      simp only [uiStep, hui, hframe] at hstep <;> cases hstep <;> constructor <;>
      simp [hlocked]
    · exact hpos
    · rintro - - n' - - - - rfl - -
      exact hpos
  | readPattern g =>
    simp only [uiStep, hui, goto] at hstep
    (split at hstep) <;> (try split at hstep) <;> (try split at hstep) <;> cases hstep <;>
      constructor <;> simp_all
  | streamEnd g ok | abort had | streamSignal g | startFailed | deviceStart | stop c | stopLock c =>
    simp only [uiStep, hui, done, goto] at hstep
    (try split at hstep) <;> cases hstep <;> constructor <;> simp_all
  | streamed g ok =>
    simp only [uiStep, hui, done] at hstep
    split at hstep <;> cases hstep <;> constructor <;> simp_all
  | startTransmit =>
    simp only [uiStep, hui, done] at hstep
    (split at hstep) <;> (try split at hstep) <;> (try split at hstep) <;> cases hstep <;>
      constructor <;> simp_all
  | startPump =>
    simp only [uiStep, hui, done] at hstep
    (split at hstep) <;> (try split at hstep) <;> cases hstep <;> constructor <;> simp_all

theorem waitInv_same (h : WaitInv s) (hui : s'.ui = s.ui) (hlocked : s'.locked = s.locked)
    (hstop : s'.txPumpStop = s.txPumpStop) : WaitInv s' := by
  obtain ⟨h1, h2, h3, h4⟩ := h
  constructor <;> rw [hui]
  · rwa [hlocked]
  · exact h2
  · exact h3
  · rwa [hstop]

/-- What a pump leaves alone. -/
theorem pumpStep_same {pc pc' : PumpPc} (out : List DesktopOutput)
    (hstep : s.pumpStep pc = some (s', pc', out)) :
    s'.ui = s.ui ∧ s'.locked = s.locked ∧ s'.txPumpStop = s.txPumpStop ∧
      s'.callback = s.callback ∧ s'.captureActive = s.captureActive ∧
      s'.surroundings = s.surroundings ∧ s'.txPumpThread = s.txPumpThread ∧
      s'.pumpJoin = s.pumpJoin := by
  cases pc with
  | wait =>
    simp only [pumpStep] at hstep
    (split at hstep) <;> (try split at hstep) <;> (try split at hstep) <;> cases hstep <;> simp
  | frame fpc f =>
    rcases hframe : s.onPcmFrame f fpc with ⟨t, _ | pc', out'⟩ <;>
      obtain ⟨⟨opened, rfl⟩, -⟩ := onPcmFrame_cases hframe <;>
      simp only [pumpStep, hframe] at hstep <;> cases hstep <;> simp
  | ended => cases hstep

theorem waitInv_step (h : WaitInv s) (a : DesktopAction) : WaitInv (s.step a).1 := by
  cases a with
  | surroundings e => exact waitInv_same h rfl rfl rfl
  | event ev =>
    obtain ⟨h1, h2, h3, h4⟩ := h
    simp only [step]
    split
    · constructor <;> simp_all
    · exact ⟨h1, h2, h3, h4⟩
  | ui =>
    cases hstep : s.uiStep with
    | none => simpa [step, hstep] using h
    | some r => simpa [step, hstep] using @waitInv_uiStep _ _ r.2 h hstep
  | pump =>
    cases hbind : s.txPumpThread.bind s.pumpStep with
    | none => simpa [step, hbind] using h
    | some r =>
      obtain ⟨pc, -, hstep⟩ := Option.bind_eq_some_iff.1 hbind
      obtain ⟨hui, hlocked, hstop, -⟩ := pumpStep_same r.2.2 hstep
      simp only [step, hbind]
      exact waitInv_same h hui hlocked hstop
  | joinedPump =>
    cases hbind : s.pumpJoin.bind s.pumpStep with
    | none => simpa [step, hbind] using h
    | some r =>
      obtain ⟨pc, -, hstep⟩ := Option.bind_eq_some_iff.1 hbind
      obtain ⟨hui, hlocked, hstop, -⟩ := pumpStep_same r.2.2 hstep
      simp only [step, hbind]
      exact waitInv_same h hui hlocked hstop
  | onCaptureFrames pcm =>
    simp only [step, onCaptureFrames]
    split_ifs <;> exact waitInv_same h rfl rfl rfl
  | captureInsert =>
    simp only [step, captureInsert]
    split
    · exact h
    · split_ifs <;> exact waitInv_same h rfl rfl rfl

theorem waitInv_after (as : List DesktopAction) : WaitInv (after (next step) {} as) :=
  invariant (I := WaitInv) (fun _ a h => waitInv_step h a) (by constructor <;> simp) as

/-! ## A deadlock stays -/

/-- Nothing can be done about it by any of the threads. -/
theorem deadlocked_step (h : s.Deadlocked) (hlocked : s.locked = true) (a : DesktopAction) :
    (s.step a).1.Deadlocked ∧ (s.step a).1.locked = true := by
  obtain ⟨⟨c, hui⟩, hactive, hcallback⟩ := h
  cases a with
  | surroundings e => exact ⟨⟨⟨c, hui⟩, hactive, hcallback⟩, hlocked⟩
  | event ev => simp [step, hui, Deadlocked, hactive, hcallback, hlocked]
  | ui => simp [step, uiStep, hui, Deadlocked, hactive, hcallback, hlocked]
  | pump =>
    cases hbind : s.txPumpThread.bind s.pumpStep with
    | none => simp [step, hbind, hui, Deadlocked, hactive, hcallback, hlocked]
    | some r =>
      obtain ⟨pc, -, hstep⟩ := Option.bind_eq_some_iff.1 hbind
      obtain ⟨hui', hlocked', -, hcallback', hactive', -⟩ := pumpStep_same r.2.2 hstep
      simp only [step, hbind, Deadlocked]
      rw [hui', hlocked', hcallback', hactive']
      exact ⟨⟨⟨c, hui⟩, hactive, hcallback⟩, hlocked⟩
  | joinedPump =>
    cases hbind : s.pumpJoin.bind s.pumpStep with
    | none => simp [step, hbind, hui, Deadlocked, hactive, hcallback, hlocked]
    | some r =>
      obtain ⟨pc, -, hstep⟩ := Option.bind_eq_some_iff.1 hbind
      obtain ⟨hui', hlocked', -, hcallback', hactive', -⟩ := pumpStep_same r.2.2 hstep
      simp only [step, hbind, Deadlocked]
      rw [hui', hlocked', hcallback', hactive']
      exact ⟨⟨⟨c, hui⟩, hactive, hcallback⟩, hlocked⟩
  | onCaptureFrames pcm => simp [step, onCaptureFrames, hui, Deadlocked, hactive, hcallback, hlocked]
  | captureInsert =>
    obtain ⟨pcm, hpcm⟩ := Option.isSome_iff_exists.1 hcallback
    simp [step, captureInsert, hpcm, hui, Deadlocked, hactive, hlocked]

theorem deadlocked_after (h : s.Deadlocked) (hlocked : s.locked = true) (as : List DesktopAction) :
    (after (next step) s as).Deadlocked :=
  (invariant (I := fun t : DesktopTx => t.Deadlocked ∧ t.locked = true)
    (fun _ a ht => deadlocked_step ht.1 ht.2 a) ⟨h, hlocked⟩ as).1

/-! ## Otherwise the handler ends -/

def framePcWeight : FramePc → ℕ
  | .test => 3
  | .txOpen => 2
  | .txPcm => 1

def pumpWeight : PumpPc → ℕ
  | .frame pc _ => framePcWeight pc + 1
  | .wait => 1
  | .ended => 0

/-- The steps that the handler has still to take at most, its waits apart. -/
def uiWeight (s : DesktopTx) : UiPc → ℕ
  | .idle => 0
  | .abort _ | .streamed .. | .startFailed => 1
  | .streamEnd .. => 2
  | .stream _ _ pcmSignal => 3 + 4 * pcmSignal.length
  | .frame pc _ _ pcmSignal _ => 3 + 4 * pcmSignal.length + framePcWeight pc
  | .readPattern g => 4 + 4 * (s.signalPcm g).length
  | .streamSignal g => 5 + 4 * (s.signalPcm g).length
  | .stopped _ => 6 + 4 * s.surroundings.rogerPcm.length
  | .join _ => 7 + 4 * s.surroundings.rogerPcm.length
  | .close _ => 8 + 4 * s.surroundings.rogerPcm.length
  | .stopLock _ => 9 + 4 * s.surroundings.rogerPcm.length
  | .stop _ => 10 + 4 * s.surroundings.rogerPcm.length
  | .startPump => 3
  | .deviceStart => 4
  | .startTransmit => 5
  | .handle .togglePttTx =>
    12 + 4 * (s.surroundings.rogerPcm.length + s.surroundings.callPcm.length)
  | .handle _ => 11 + 4 * (s.surroundings.rogerPcm.length + s.surroundings.callPcm.length)

def weight (s : DesktopTx) : ℕ :=
  s.uiWeight s.ui + s.txPumpThread.elim 0 pumpWeight + s.pumpJoin.elim 0 pumpWeight

theorem uiStep_callback (hstep : s.uiStep = some (s', out)) : s'.callback = s.callback := by
  cases hui : s.ui with
  | handle ev =>
    simp only [uiStep, hui] at hstep
    cases ev <;> simp only [handle, done, goto] at hstep <;> (try split at hstep) <;>
      (try split at hstep) <;> (try split at hstep) <;> cases hstep <;> rfl
  | frame pc g n pcmSignal frame =>
    rcases hframe : s.onPcmFrame frame pc with ⟨t, _ | pc', out'⟩ <;>
      obtain ⟨⟨opened, rfl⟩, -⟩ := onPcmFrame_cases hframe <;>
      simp only [uiStep, hui, hframe] at hstep <;> cases hstep <;> rfl
  | close c =>
    simp only [uiStep, hui, goto] at hstep
    split at hstep <;> cases hstep
    cases c <;> rfl
  | stopped c =>
    simp only [uiStep, hui] at hstep
    cases c <;> cases hstep <;> rfl
  | _ =>
    simp only [uiStep, hui, done, goto] at hstep
    (try split at hstep) <;> (try split at hstep) <;> (try split at hstep) <;> cases hstep <;> rfl

theorem uiStep_lowers (h : WaitInv s) (hstep : s.uiStep = some (s', out)) :
    weight s' < weight s := by
  cases hui : s.ui with
  | handle ev =>
    simp only [uiStep, hui] at hstep
    cases ev <;> simp only [handle, done, goto] at hstep <;> (try split at hstep) <;>
      (try split at hstep) <;> (try split at hstep) <;> cases hstep <;>
      simp [weight, uiWeight, hui, signalPcm] <;> omega
  | frame pc g n pcmSignal frame =>
    rcases hframe : s.onPcmFrame frame pc with ⟨t, _ | pc', out'⟩ <;>
      obtain ⟨⟨opened, rfl⟩, hnext⟩ := onPcmFrame_cases hframe <;>
      simp only [uiStep, hui, hframe] at hstep <;> cases hstep
    · have hpos : 0 < framePcWeight pc := by cases pc <;> decide
      simp only [weight, uiWeight, hui]
      omega
    · have hlt : framePcWeight pc' < framePcWeight pc := by
        rcases hnext pc' rfl with ⟨rfl, hne⟩ | ⟨rfl, rfl⟩
        · cases pc' <;> first | exact (hne rfl).elim | decide
        · decide
      simp only [weight, uiWeight, hui]
      omega
  | stream g n pcmSignal =>
    have hpos := h.positive g n pcmSignal hui
    simp only [uiStep, hui, goto] at hstep
    split at hstep
    · cases hstep
      simp only [weight, uiWeight, hui]
      omega
    split at hstep <;> cases hstep
    · simp only [weight, uiWeight, hui]
      omega
    · have hlen := List.length_pos_iff.2 ‹¬ pcmSignal = []›
      simp only [weight, uiWeight, hui, framePcWeight, List.length_drop]
      omega
  | close c =>
    simp only [uiStep, hui, goto] at hstep
    split at hstep <;> cases hstep
    cases c <;> simp only [weight, uiWeight, hui, configure] <;> omega
  | join c =>
    simp only [uiStep, hui, goto] at hstep
    split at hstep <;> cases hstep <;> rename_i hjoin <;> simp [weight, uiWeight, hui, hjoin]
    omega
  | stopped c =>
    simp only [uiStep, hui] at hstep
    cases c <;> cases hstep <;> simp only [weight, uiWeight, hui, signalPcm] <;> omega
  | readPattern g =>
    simp only [uiStep, hui, goto] at hstep
    (split at hstep) <;> (try split at hstep) <;> (try split at hstep) <;> cases hstep <;>
      simp only [weight, uiWeight, hui] <;> omega
  | startPump =>
    simp only [uiStep, hui, done] at hstep
    (split at hstep) <;> (try split at hstep) <;> cases hstep <;> rename_i hpump <;>
      simp [weight, uiWeight, hui, hpump, pumpWeight]
  | stopLock c =>
    simp only [uiStep, hui, goto] at hstep
    split at hstep <;> cases hstep
    simp only [weight, uiWeight, hui, Option.elim_none]
    omega
  | streamSignal g =>
    simp only [uiStep, hui, goto] at hstep
    split at hstep <;> cases hstep <;> cases g <;> simp only [weight, uiWeight, hui, signalPcm] <;>
      omega
  | _ =>
    simp only [uiStep, hui, done, goto] at hstep
    (try split at hstep) <;> (try split at hstep) <;> (try split at hstep) <;> cases hstep <;>
      simp only [weight, uiWeight, hui] <;> omega

/-- What the UI thread waits for in a handler. -/
theorem uiStep_eq_none (h : WaitInv s) (hstep : s.uiStep = none) :
    s.ui = .idle ∨ s.Deadlocked ∨
      ∃ c pc, s.ui = .join c ∧ s.pumpJoin = some pc ∧ pc ≠ .ended := by
  have hlocked : (∀ c, s.ui ≠ .close c) → s.locked = false := by
    intro hno
    by_contra hne
    obtain ⟨c, hc⟩ := h.locked.1 (by simpa using hne)
    exact hno c hc
  cases hui : s.ui with
  | idle => exact Or.inl rfl
  | handle ev =>
    have hfree := hlocked (by simp [hui])
    simp only [uiStep, hui] at hstep
    cases ev <;> simp only [handle, done, goto, hfree] at hstep <;> (try split at hstep) <;>
      (try split at hstep) <;> (try split at hstep) <;> simp_all
  | frame pc g n pcmSignal frame =>
    simp only [uiStep, hui] at hstep
    split at hstep <;> cases hstep
  | close c =>
    simp only [uiStep, hui, goto] at hstep
    split at hstep
    · exact Or.inr (Or.inl ⟨⟨c, hui⟩, ‹_›⟩)
    · cases hstep
  | join c =>
    simp only [uiStep, hui, goto] at hstep
    split at hstep
    · cases hstep
    · cases hstep
    · rename_i pc hne hjoin
      exact Or.inr (Or.inr ⟨c, pc, rfl, hjoin, hne⟩)
  | stopped c =>
    simp only [uiStep, hui] at hstep
    cases c <;> cases hstep
  | _ =>
    have hfree := hlocked (by simp [hui])
    simp only [uiStep, hui, done, goto, hfree] at hstep
    (try split at hstep) <;> (try split at hstep) <;> (try split at hstep) <;> simp_all

/-- The pump that a handler waits for goes on to its end. -/
theorem joinedPump_lowers (h : WaitInv s) {c : StopCaller} {pc : PumpPc} (hui : s.ui = .join c)
    (hjoin : s.pumpJoin = some pc) (hne : pc ≠ .ended) :
    (s.step .joinedPump).1.callback = s.callback ∧
      weight (s.step .joinedPump).1 < weight s := by
  have hfree : s.locked = false := by
    by_contra hlocked
    obtain ⟨c', hc'⟩ := h.locked.1 (by simpa using hlocked)
    rw [hui] at hc'
    cases hc'
  have htold := h.told c (Or.inr hui)
  obtain ⟨t, pc', out, hstep, hlt⟩ : ∃ t pc' out, s.pumpStep pc = some (t, pc', out) ∧
      pumpWeight pc' < pumpWeight pc := by
    cases pc with
    | wait => exact ⟨s, .ended, [], by simp [pumpStep, hfree, htold], by decide⟩
    | frame fpc f =>
      rcases hframe : s.onPcmFrame f fpc with ⟨t, _ | pc', out⟩ <;>
        obtain ⟨-, hnext⟩ := onPcmFrame_cases hframe
      · exact ⟨t, .wait, out, by simp only [pumpStep, hframe], by
          cases fpc <;> simp [pumpWeight, framePcWeight]⟩
      · refine ⟨t, .frame pc' f, out, by simp only [pumpStep, hframe], ?_⟩
        rcases hnext pc' rfl with ⟨rfl, hne⟩ | ⟨rfl, rfl⟩
        · cases pc' <;> first | exact (hne rfl).elim | simp [pumpWeight, framePcWeight]
        · simp [pumpWeight, framePcWeight]
    | ended => exact (hne rfl).elim
  obtain ⟨hui', -, -, hcallback, -, hsurroundings, hpump, -⟩ := pumpStep_same out hstep
  have hbind : s.pumpJoin.bind s.pumpStep = some (t, pc', out) := by
    rw [hjoin, Option.bind_some, hstep]
  have hrun : (s.step .joinedPump).1 = { t with pumpJoin := some pc' } := by
    simp only [step, hbind]
  rw [hrun]
  refine ⟨hcallback, ?_⟩
  simp only [weight, hui', hui, hpump, hjoin, uiWeight, hsurroundings, Option.elim_some]
  omega

/-- With no callback in the way, the handler ends. -/
theorem exists_idle (h : WaitInv s) (hcallback : s.callback = none) :
    ∃ bs, (after (next step) s bs).ui = .idle := by
  induction hn : weight s using Nat.strong_induction_on generalizing s with
  | _ n ih =>
    subst hn
    cases hstep : s.uiStep with
    | none =>
      rcases uiStep_eq_none h hstep with hidle | ⟨-, -, hsome⟩ | ⟨c, pc, hui, hjoin, hne⟩
      · exact ⟨[], hidle⟩
      · rw [hcallback] at hsome
        cases hsome
      · obtain ⟨hback, hlt⟩ := joinedPump_lowers h hui hjoin hne
        obtain ⟨bs, hbs⟩ := ih _ hlt (waitInv_step h .joinedPump) (hback.trans hcallback) rfl
        exact ⟨.joinedPump :: bs, hbs⟩
    | some r =>
      have hlt := @uiStep_lowers _ _ r.2 h hstep
      have hback := @uiStep_callback _ _ r.2 hstep
      obtain ⟨bs, hbs⟩ := ih _ hlt (@waitInv_uiStep _ _ r.2 h hstep) (hback.trans hcallback) rfl
      refine ⟨.ui :: bs, ?_⟩
      rw [after_cons, next, step, hstep]
      exact hbs

/-- A callback that finds the mutex free returns. -/
theorem captureInsert_returns (hfree : s.locked = false) :
    (s.step .captureInsert).1.callback = none := by
  simp only [step, captureInsert, hfree]
  split
  · assumption
  · split_ifs <;> simp_all

end DesktopTx

open DesktopTx in
/-- The UI thread never comes back to its event loop exactly if a stop waits, with the mutex held,
for a callback of the device that waits for the mutex. -/
theorem ui_stuck_iff (as : List DesktopAction) :
    (∀ bs, (after (next DesktopTx.step) {} (as ++ bs)).ui ≠ .idle) ↔
      (after (next DesktopTx.step) {} as).Deadlocked := by
  have hinv := waitInv_after as
  simp only [after_append]
  generalize after (next DesktopTx.step) {} as = s at hinv
  constructor
  · intro hstuck
    by_contra hgo
    by_cases hlocked : s.locked = true
    · -- the device is not running any more, so the stop goes on and gives the mutex back
      obtain ⟨c, hui⟩ := hinv.locked.1 hlocked
      have hactive : ¬ (s.captureActive = true ∧ s.callback.isSome) := fun h => hgo ⟨⟨c, hui⟩, h⟩
      have hfree : (s.step .ui).1.locked = false := by
        simp [DesktopTx.step, uiStep, hui, hactive, goto]
      have hnext := waitInv_step hinv .ui
      obtain ⟨bs, hbs⟩ := exists_idle (waitInv_step hnext .captureInsert) (captureInsert_returns hfree)
      exact hstuck (.ui :: .captureInsert :: bs) hbs
    · obtain ⟨bs, hbs⟩ := exists_idle (waitInv_step hinv .captureInsert)
        (captureInsert_returns (by simpa using hlocked))
      exact hstuck (.captureInsert :: bs) hbs
  · intro hdead bs
    obtain ⟨⟨c, hc⟩, -⟩ := deadlocked_after hdead (hinv.locked.2 hdead.1) bs
    rw [hc]
    exact nofun

/-- The key is released between the two tests of a callback. -/
example : (after (next DesktopTx.step) {}
    [.event .beginPttTx, .ui, .ui, .ui, .ui, .onCaptureFrames [1], .event .endPttTx, .ui, .ui,
      .ui]).Deadlocked :=
  ⟨⟨.endPttTx, by decide⟩, by decide, by decide⟩

end OWalkie
