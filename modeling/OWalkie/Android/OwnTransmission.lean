import OWalkie.Lib.Run
import OWalkie.Android.WalkieService

/-!
# Transmissions fed by their own jobs

The streaming jobs have no suspension point, so a job that a press, a stop or a lock has cancelled
goes on submitting.  `OwnInv`: as long as every job of the earlier transmissions is over when a
press or a call signal begins one, only jobs of the latest transmission can still submit.
-/

namespace OWalkie

open Run

/-! ## Jobs that are over -/

/-- The job has set `txLoopRunning` back, or never runs. -/
def CapturePc.over (cancelled : Bool) : CapturePc → Bool
  | .start => cancelled
  | .clearJob | .ended => true
  | _ => false

/-- The job makes no more submission, or never runs. -/
def RogerPc.over (cancelled : Bool) : RogerPc → Bool
  | .start => cancelled
  | .finallyStreaming | .ended => true
  | _ => false

/-- The job makes no more submission, or never runs. -/
def CallSignalPc.over (cancelled : Bool) : CallSignalPc → Bool
  | .start => cancelled
  | .finallyStreaming | .ended => true
  | _ => false

namespace MainPc

/-- A press or a call signal begins a transmission there. -/
def begins : MainPc → Bool
  | .burstOpen | .pressLaunch | .callLaunch => true
  | _ => false

/-- A press that may have set `transmitting` already. -/
def inPress : MainPc → Bool
  | .pressBurst | .pressCas | .pressActive | .pressLaunch => true
  | _ => false

/-- `transmitting` is not set there. -/
def quiet : MainPc → Bool
  | .burstOpen | .callRoger | .callExchange | .callLaunch => true
  | _ => false

/-- A press has set `txLoopRunning` and has not launched its job. -/
def looping : MainPc → Bool
  | .pressActive | .pressLaunch => true
  | _ => false

/-- A release has found that the press was held or its capture loop running. -/
def released : MainPc → Bool
  | .releaseGuard wasHeld => wasHeld
  | .releaseTail _ | .releaseTest | .complete _ => true
  | _ => false

end MainPc

/-- The job behind a `cancelTxJob` is taken for ended. -/
def FlagOp.Locks : List FlagOp → Prop
  | [] => True
  | op :: stores => (op = .cancelTxJob → .txLoopRunning false ∈ stores) ∧ Locks stores

namespace WalkieService

def AllOver (s : WalkieService) : Prop :=
  (∀ j ∈ s.captures, j.pc.over j.cancelled = true) ∧
    (∀ j ∈ s.rogers, j.pc.over j.cancelled = true) ∧
      ∀ j ∈ s.callSignals, j.pc.over j.cancelled = true

/-- When a press or a call signal begins a transmission, all jobs are over. -/
def BeginsAlone (s : WalkieService) : ServiceAction → Prop
  | .main _ => s.stores = [] → s.main.begins = true → s.AllOver
  | _ => True

instance (s : WalkieService) (a : ServiceAction) : Decidable (s.BeginsAlone a) := by
  unfold BeginsAlone AllOver
  split <;> exact inferInstance

/-- Between the `txOpen` of a transmission and its own `txClose` or `txAbort`, no job of one that
was begun or opened before it submits anything but a `txOpen`. -/
def FedByOwn (outs : List RelaySubmission) : Prop :=
  ∀ pre mid post n m op, outs = pre ++ ⟨some n, .txOpen⟩ :: (mid ++ ⟨some m, op⟩ :: post) →
    ⟨some n, .txClose⟩ ∉ mid → ⟨some n, .txAbort⟩ ∉ mid → op ≠ .txOpen →
      ¬ (m < n ∨ m ≠ n ∧ ⟨some m, .txOpen⟩ ∈ pre)

/-- A capture loop is not over. -/
def Capturing (s : WalkieService) : Prop :=
  ∃ (i : ℕ) (j : ServiceJob CapturePc), s.captures[i]? = some j ∧
    j.pc.over j.cancelled = false

/-- What the flags say about the latest transmission. -/
structure Control (s : WalkieService) : Prop where
  held : s.transmitting = true → s.main.inPress = true ∨ .transmitting false ∈ s.stores ∨
    s.pressTransmission = s.transmissions
  quiet : s.main.quiet = true → s.transmitting = true → .transmitting false ∈ s.stores
  loop : s.txLoopRunning = true → s.main.looping = true ∨ .txLoopRunning false ∈ s.stores ∨
    s.Capturing
  release : s.main.released = true → s.pressTransmission = s.transmissions
  press : .transmitting true ∈ s.stores → s.main.inPress = true
  noLoop : .txLoopRunning true ∉ s.stores
  locks : FlagOp.Locks s.stores

structure OwnInv (s : WalkieService) : Prop where
  captures : ∀ j ∈ s.captures, j.pc.over j.cancelled = false → j.transmission = s.transmissions
  rogers : ∀ j ∈ s.rogers, j.pc.over j.cancelled = false → j.transmission = s.transmissions
  callSignals : ∀ j ∈ s.callSignals, j.pc.over j.cancelled = false →
    j.transmission = s.transmissions
  press_le : s.pressTransmission ≤ s.transmissions
  capture_le : ∀ j ∈ s.captures, j.transmission ≤ s.pressTransmission
  control : s.Control

variable {s s' : WalkieService} {n : ℕ} {cancelled more accepted : Bool}

/-! ## Steps of the jobs -/

/-- What a step of a job leaves alone, and what it submits. -/
structure JobEffect (s s' : WalkieService) (n : ℕ) (live : Bool) (out : List RelaySubmission) :
    Prop where
  captures : s'.captures = s.captures
  callSignals : s'.callSignals = s.callSignals
  rogers : s'.rogers = s.rogers ∨ live = true ∧
    s'.rogers = s.rogers ++ [{ transmission := n, cancelled := false, pc := .start }]
  transmissions : s'.transmissions = s.transmissions
  pressTransmission : s'.pressTransmission = s.pressTransmission
  main : s'.main = s.main
  stores : s'.stores = s.stores
  transmitting : s'.transmitting = true → s.transmitting = true
  txLoopRunning : s'.txLoopRunning = true → s.txLoopRunning = true
  out : ∀ o ∈ out, live = true ∧ o.transmission = some n

theorem mem_submission {t : Option ℕ} {op : TxSubmitOp} {o : RelaySubmission}
    (h : o ∈ submission t op accepted) : o.transmission = t := by
  unfold submission at h
  split_ifs at h
  · rw [List.mem_singleton.1 h]
  · cases h

theorem captureExec_effect (pc : CapturePc) :
    JobEffect s (s.captureExec n cancelled more accepted pc).1 n (!pc.over cancelled)
      (s.captureExec n cancelled more accepted pc).2.2 := by
  cases pc with
  | complete pc =>
    cases pc <;> constructor <;> simp [captureExec, completeExec, CapturePc.over]
  | txOpen blocking =>
    constructor <;> simp [captureExec, CapturePc.over]
    exact fun o => mem_submission
  | txPcm blocking =>
    constructor <;> simp [captureExec, CapturePc.over]
    exact fun o => mem_submission
  | txAbort =>
    constructor <;> simp [captureExec, CapturePc.over]
    exact fun o => mem_submission
  | leftover =>
    constructor <;> simp [captureExec, CapturePc.over]
    exact fun o _ => mem_submission
  | _ => constructor <;> simp [captureExec, CapturePc.over]

theorem rogerExec_effect (pc : RogerPc) :
    JobEffect s (s.rogerExec n cancelled more accepted pc).1 n (!pc.over cancelled)
      (s.rogerExec n cancelled more accepted pc).2.2 := by
  cases pc with
  | txVoiceEnd =>
    constructor <;> simp [rogerExec, RogerPc.over]
    exact fun o => mem_submission
  | stream =>
    constructor <;> simp [rogerExec, RogerPc.over]
    exact fun o _ => mem_submission
  | txClose =>
    constructor <;> simp [rogerExec, RogerPc.over]
    exact fun o => mem_submission
  | _ => constructor <;> simp [rogerExec, RogerPc.over]

theorem callSignalExec_effect (pc : CallSignalPc) :
    JobEffect s (s.callSignalExec n cancelled more accepted pc).1 n (!pc.over cancelled)
      (s.callSignalExec n cancelled more accepted pc).2.2 := by
  cases pc with
  | txOpen =>
    constructor <;> simp [callSignalExec, CallSignalPc.over]
    exact fun o => mem_submission
  | stream =>
    constructor <;> simp [callSignalExec, CallSignalPc.over]
    exact fun o _ => mem_submission
  | txClose =>
    constructor <;> simp [callSignalExec, CallSignalPc.over]
    exact fun o => mem_submission
  | _ => constructor <;> simp [callSignalExec, CallSignalPc.over]

theorem captureExec_over {pc : CapturePc} (h : pc.over cancelled = true) :
    (s.captureExec n cancelled more accepted pc).2.1.over cancelled = true := by
  cases pc <;> simp_all [captureExec, CapturePc.over]

theorem rogerExec_over {pc : RogerPc} (h : pc.over cancelled = true) :
    (s.rogerExec n cancelled more accepted pc).2.1.over cancelled = true := by
  cases pc <;> simp_all [rogerExec, RogerPc.over]

theorem callSignalExec_over {pc : CallSignalPc} (h : pc.over cancelled = true) :
    (s.callSignalExec n cancelled more accepted pc).2.1.over cancelled = true := by
  cases pc <;> simp_all [callSignalExec, CallSignalPc.over]

/-- A capture loop that comes to its end has set `txLoopRunning` back. -/
theorem captureExec_ends {pc : CapturePc} (h : pc.over cancelled = false)
    (hover : (s.captureExec n cancelled more accepted pc).2.1.over cancelled = true) :
    (s.captureExec n cancelled more accepted pc).1.txLoopRunning = false := by
  cases pc with
  | complete pc =>
    cases pc <;> grind [captureExec, completeExec, CapturePc.over]
  | _ => grind [captureExec, CapturePc.over]

section Jobs

variable {Pc : Type} {jobs : List (ServiceJob Pc)} {j j' : ServiceJob Pc} {i : ℕ} {pc : Pc}

theorem mem_setPc (hj : jobs[i]? = some j) (h : j' ∈ setPc jobs i pc) :
    j' ∈ jobs ∨ j' = { j with pc := pc } := by
  obtain ⟨k, hk⟩ := List.mem_iff_getElem?.1 h
  rw [setPc, List.getElem?_modify] at hk
  split_ifs at hk with heq
  · subst heq
    rw [hj] at hk
    exact Or.inr (Option.some.inj hk).symm
  · exact Or.inl (List.mem_iff_getElem?.2 ⟨k, by simpa using hk⟩)

theorem mem_cancel {o : Option ℕ} (h : j' ∈ cancel jobs o) :
    ∃ j ∈ jobs, j' = j ∨ j' = { j with cancelled := true } := by
  cases o with
  | none => exact ⟨j', h, Or.inl rfl⟩
  | some i =>
    obtain ⟨k, hk⟩ := List.mem_iff_getElem?.1 h
    rw [cancel, List.getElem?_modify] at hk
    obtain ⟨j, hj, heq⟩ := Option.map_eq_some_iff.1 hk
    refine ⟨j, List.mem_iff_getElem?.2 ⟨k, hj⟩, ?_⟩
    split_ifs at heq
    · exact Or.inr heq.symm
    · exact Or.inl heq.symm

end Jobs

theorem Control.of_same {t : WalkieService} (h : s.Control) (hmain : t.main = s.main)
    (hstores : t.stores = s.stores) (htransmissions : t.transmissions = s.transmissions)
    (hpress : t.pressTransmission = s.pressTransmission)
    (htransmitting : t.transmitting = true → s.transmitting = true)
    (hloop : t.txLoopRunning = true → s.txLoopRunning = true)
    (hcapturing : t.txLoopRunning = true → s.Capturing → t.Capturing) : t.Control := by
  constructor
  · rw [hmain, hstores, htransmissions, hpress]
    exact fun ht => h.held (htransmitting ht)
  · rw [hmain, hstores]
    exact fun hq ht => h.quiet hq (htransmitting ht)
  · intro ht
    rw [hmain, hstores]
    exact (h.loop (hloop ht)).imp_right (Or.imp_right (hcapturing ht))
  · rw [hmain, htransmissions, hpress]
    exact h.release
  · rw [hmain, hstores]
    exact h.press
  · rw [hstores]
    exact h.noLoop
  · rw [hstores]
    exact h.locks

/-- A job that is launched by one that is not over belongs to the latest transmission. -/
theorem JobEffect.rogers_inv {live : Bool} {out : List RelaySubmission}
    (he : JobEffect s s' n live out) (h : s.OwnInv) (hn : live = true → n = s.transmissions) :
    ∀ j ∈ s'.rogers, j.pc.over j.cancelled = false → j.transmission = s'.transmissions := by
  intro j hj hover
  rw [he.transmissions]
  rcases he.rogers with heq | ⟨hlive, heq⟩
  · exact h.rogers j (heq ▸ hj) hover
  · rw [heq, List.mem_append, List.mem_singleton] at hj
    rcases hj with hj | rfl
    · exact h.rogers j hj hover
    · exact hn hlive

variable {i : ℕ} {out : List RelaySubmission}

theorem live_of_step {before later : Bool} (h : before = true → later = true)
    (hlater : later = false) : before = false := by
  cases before with
  | false => rfl
  | true => exact absurd (h rfl) (by simp [hlater])

theorem captures_inv {j : ServiceJob CapturePc} {pc : CapturePc} (h : s.OwnInv)
    (hj : s.captures[i]? = some j)
    (he : JobEffect s s' j.transmission (!j.pc.over j.cancelled) out)
    (hover : j.pc.over j.cancelled = true → pc.over j.cancelled = true)
    (hends : j.pc.over j.cancelled = false → pc.over j.cancelled = true →
      s'.txLoopRunning = false) :
    OwnInv { s' with captures := setPc s.captures i pc } := by
  have hlive : j.pc.over j.cancelled = false → j.transmission = s.transmissions :=
    h.captures j (List.mem_of_getElem? hj)
  refine ⟨?_, he.rogers_inv h (by simpa using hlive), ?_, ?_, ?_, ?_⟩
  · intro j' hj' hover'
    dsimp only
    rw [he.transmissions]
    rcases mem_setPc hj hj' with hj' | rfl
    · exact h.captures j' hj' hover'
    · exact hlive (live_of_step hover hover')
  · dsimp only
    rw [he.callSignals, he.transmissions]
    exact h.callSignals
  · dsimp only
    rw [he.pressTransmission, he.transmissions]
    exact h.press_le
  · intro j' hj'
    dsimp only
    rw [he.pressTransmission]
    rcases mem_setPc hj hj' with hj' | rfl
    · exact h.capture_le j' hj'
    · exact h.capture_le j (List.mem_of_getElem? hj)
  · refine h.control.of_same he.main he.stores he.transmissions he.pressTransmission
      he.transmitting he.txLoopRunning ?_
    rintro hloop ⟨k, j', hk, hover'⟩
    by_cases heq : i = k
    · subst heq
      rw [hj] at hk
      obtain rfl := Option.some.inj hk
      refine ⟨i, { j with pc := pc }, by simp [setPc, hj], ?_⟩
      by_contra hne
      rw [show s'.txLoopRunning = true from hloop] at hends
      exact absurd (hends hover' (by simpa using hne)) (by decide)
    · exact ⟨k, j', by simp [setPc, heq, hk], hover'⟩

theorem rogers_inv {j : ServiceJob RogerPc} {pc : RogerPc} (h : s.OwnInv)
    (hj : s.rogers[i]? = some j)
    (he : JobEffect s s' j.transmission (!j.pc.over j.cancelled) out)
    (hover : j.pc.over j.cancelled = true → pc.over j.cancelled = true) :
    OwnInv { s' with rogers := setPc s.rogers i pc } := by
  refine ⟨?_, ?_, ?_, ?_, ?_, ?_⟩
  · dsimp only
    rw [he.captures, he.transmissions]
    exact h.captures
  · intro j' hj' hover'
    dsimp only
    rw [he.transmissions]
    rcases mem_setPc hj hj' with hj' | rfl
    · exact h.rogers j' hj' hover'
    · exact h.rogers j (List.mem_of_getElem? hj) (live_of_step hover hover')
  · dsimp only
    rw [he.callSignals, he.transmissions]
    exact h.callSignals
  · dsimp only
    rw [he.pressTransmission, he.transmissions]
    exact h.press_le
  · dsimp only
    rw [he.captures, he.pressTransmission]
    exact h.capture_le
  · refine h.control.of_same he.main he.stores he.transmissions he.pressTransmission
      he.transmitting he.txLoopRunning ?_
    rintro - ⟨k, j', hk, hover'⟩
    exact ⟨k, j', he.captures ▸ hk, hover'⟩

theorem callSignals_inv {j : ServiceJob CallSignalPc} {pc : CallSignalPc} (h : s.OwnInv)
    (hj : s.callSignals[i]? = some j)
    (he : JobEffect s s' j.transmission (!j.pc.over j.cancelled) out)
    (hover : j.pc.over j.cancelled = true → pc.over j.cancelled = true) :
    OwnInv { s' with callSignals := setPc s.callSignals i pc } := by
  have hlive : j.pc.over j.cancelled = false → j.transmission = s.transmissions :=
    h.callSignals j (List.mem_of_getElem? hj)
  refine ⟨?_, he.rogers_inv h (by simpa using hlive), ?_, ?_, ?_, ?_⟩
  · dsimp only
    rw [he.captures, he.transmissions]
    exact h.captures
  · intro j' hj' hover'
    dsimp only
    rw [he.transmissions]
    rcases mem_setPc hj hj' with hj' | rfl
    · exact h.callSignals j' hj' hover'
    · exact hlive (live_of_step hover hover')
  · dsimp only
    rw [he.pressTransmission, he.transmissions]
    exact h.press_le
  · dsimp only
    rw [he.captures, he.pressTransmission]
    exact h.capture_le
  · refine h.control.of_same he.main he.stores he.transmissions he.pressTransmission
      he.transmitting he.txLoopRunning ?_
    rintro - ⟨k, j', hk, hover'⟩
    exact ⟨k, j', he.captures ▸ hk, hover'⟩

/-! ## Stores of the main thread -/

variable {t : WalkieService} {op : FlagOp} {stores : List FlagOp}

theorem inPress_of_quiet {pc : MainPc} (h : pc.quiet = true) : pc.inPress = false := by
  cases pc <;> first | rfl | cases h

theorem Control.pop (h : s.Control) (hs : s.stores = op :: stores) (ht : t.stores = stores)
    (hmain : t.main = s.main) (htransmissions : t.transmissions = s.transmissions)
    (hpress : t.pressTransmission = s.pressTransmission)
    (htransmitting : t.transmitting = true →
      s.transmitting = true ∧ op ≠ .transmitting false ∨ s.main.inPress = true)
    (hloop : t.txLoopRunning = true → s.txLoopRunning = true ∧ op ≠ .txLoopRunning false)
    (hcapturing : s.Capturing → .txLoopRunning false ∈ stores ∨ t.Capturing) : t.Control := by
  have hmem : ∀ op' ∈ s.stores, op ≠ op' → op' ∈ t.stores := by
    intro op' hop hne
    rw [hs] at hop
    rw [ht]
    exact (List.mem_cons.1 hop).resolve_left hne.symm
  have hsub : ∀ op' ∈ t.stores, op' ∈ s.stores := by
    intro op' hop
    rw [hs]
    exact List.mem_cons_of_mem _ (ht ▸ hop)
  constructor
  · intro htrue
    rw [hmain, htransmissions, hpress]
    rcases htransmitting htrue with ⟨hst, hne⟩ | hin
    · exact (h.held hst).imp_right (Or.imp_left fun hop => hmem _ hop hne)
    · exact Or.inl hin
  · intro hquiet htrue
    rw [hmain] at hquiet
    rcases htransmitting htrue with ⟨hst, hne⟩ | hin
    · exact hmem _ (h.quiet hquiet hst) hne
    · rw [inPress_of_quiet hquiet] at hin
      cases hin
  · intro htrue
    obtain ⟨hst, hne⟩ := hloop htrue
    rw [hmain]
    rcases h.loop hst with hlooping | hop | hcap
    · exact Or.inl hlooping
    · exact Or.inr (Or.inl (hmem _ hop hne))
    · rw [ht]
      exact Or.inr (hcapturing hcap)
  · rw [hmain, htransmissions, hpress]
    exact h.release
  · rw [hmain]
    exact fun hop => h.press (hsub _ hop)
  · exact fun hop => h.noLoop (hsub _ hop)
  · rw [ht]
    have hlocks := h.locks
    rw [hs] at hlocks
    exact hlocks.2

theorem over_of_cancelled_capture {pc : CapturePc} {c : Bool} (h : pc.over true = false) :
    pc.over c = false := by
  cases pc <;> first | exact h | cases h

theorem over_of_cancelled_roger {pc : RogerPc} {c : Bool} (h : pc.over true = false) :
    pc.over c = false := by
  cases pc <;> first | exact h | cases h

theorem over_of_cancelled_callSignal {pc : CallSignalPc} {c : Bool} (h : pc.over true = false) :
    pc.over c = false := by
  cases pc <;> first | exact h | cases h

theorem store_inv (h : s.OwnInv) (hs : s.stores = op :: stores) :
    OwnInv { s.store op with stores := stores } := by
  cases op with
  | cancelTxJob =>
    refine ⟨?_, h.rogers, h.callSignals, h.press_le, ?_, ?_⟩
    · intro j' hj' hover
      obtain ⟨j, hj, rfl | rfl⟩ := mem_cancel hj'
      · exact h.captures _ hj hover
      · exact h.captures j hj (over_of_cancelled_capture hover)
    · intro j' hj'
      obtain ⟨j, hj, rfl | rfl⟩ := mem_cancel hj'
      · exact h.capture_le _ hj
      · exact h.capture_le j hj
    · have hlocks := h.control.locks
      rw [hs] at hlocks
      exact h.control.pop hs rfl rfl rfl rfl (fun ht => Or.inl ⟨ht, by simp⟩)
        (fun hl => ⟨hl, by simp⟩) fun _ => Or.inl (hlocks.1 rfl)
  | cancelRogerJob =>
    refine ⟨h.captures, ?_, h.callSignals, h.press_le, h.capture_le, ?_⟩
    · intro j' hj' hover
      obtain ⟨j, hj, rfl | rfl⟩ := mem_cancel hj'
      · exact h.rogers _ hj hover
      · exact h.rogers j hj (over_of_cancelled_roger hover)
    · exact h.control.pop hs rfl rfl rfl rfl (fun ht => Or.inl ⟨ht, by simp⟩)
        (fun hl => ⟨hl, by simp⟩) Or.inr
  | cancelCallSignalJob =>
    refine ⟨h.captures, h.rogers, ?_, h.press_le, h.capture_le, ?_⟩
    · intro j' hj' hover
      obtain ⟨j, hj, rfl | rfl⟩ := mem_cancel hj'
      · exact h.callSignals _ hj hover
      · exact h.callSignals j hj (over_of_cancelled_callSignal hover)
    · exact h.control.pop hs rfl rfl rfl rfl (fun ht => Or.inl ⟨ht, by simp⟩)
        (fun hl => ⟨hl, by simp⟩) Or.inr
  | transmitting b =>
    refine ⟨h.captures, h.rogers, h.callSignals, h.press_le, h.capture_le, ?_⟩
    refine h.control.pop hs rfl rfl rfl rfl (fun ht => Or.inr ?_) (fun hl => ⟨hl, by simp⟩) Or.inr
    obtain rfl : b = true := ht
    exact h.control.press (hs ▸ List.mem_cons_self)
  | txLoopRunning b =>
    refine ⟨h.captures, h.rogers, h.callSignals, h.press_le, h.capture_le, ?_⟩
    refine h.control.pop hs rfl rfl rfl rfl (fun ht => Or.inl ⟨ht, by simp⟩) (fun hl => ?_) Or.inr
    obtain rfl : b = true := hl
    exact absurd (hs ▸ List.mem_cons_self) h.control.noLoop
  | _ =>
    refine ⟨h.captures, h.rogers, h.callSignals, h.press_le, h.capture_le, ?_⟩
    exact h.control.pop hs rfl rfl rfl rfl (fun ht => Or.inl ⟨ht, by simp⟩)
      (fun hl => ⟨hl, by simp⟩) Or.inr

/-! ## Other steps of the main thread -/

/-- A step that leaves the jobs and the transmissions as they are. -/
structure Move (s t : WalkieService) : Prop where
  captures : t.captures = s.captures
  rogers : t.rogers = s.rogers
  callSignals : t.callSignals = s.callSignals
  transmissions : t.transmissions = s.transmissions
  pressTransmission : t.pressTransmission = s.pressTransmission
  transmitting : t.transmitting = true → s.transmitting = true
  held : t.transmitting = true → s.main.inPress = true →
    t.main.inPress = true ∨ .transmitting false ∈ t.stores
  quiet : t.main.quiet = true → t.transmitting = true →
    s.main.quiet = true ∨ .transmitting false ∈ t.stores
  loop : t.txLoopRunning = true → t.main.looping = true ∨ .txLoopRunning false ∈ t.stores ∨
    s.txLoopRunning = true ∧ s.main.looping = false
  release : t.main.released = true → s.main.released = true ∨
    s.transmitting = true ∧ s.main.inPress = false ∨
      s.txLoopRunning = true ∧ s.main.looping = false
  press : .transmitting true ∈ t.stores → t.main.inPress = true
  noLoop : .txLoopRunning true ∉ t.stores
  locks : FlagOp.Locks t.stores

theorem mainExec_move {pc : MainPc} (hmain : s.main = pc) (hs : s.stores = [])
    (hbegins : pc.begins = false) (hcomplete : ∀ pc', pc ≠ .complete pc') :
    Move s (s.mainExec accepted pc).1 := by
  cases pc
  case' releaseGuard wasHeld => cases wasHeld
  case burstOpen => cases hbegins
  case pressLaunch => cases hbegins
  case callLaunch => cases hbegins
  case complete pc => exact absurd rfl (hcomplete pc)
  all_goals simp only [mainExec]
  all_goals (try split_ifs)
  all_goals refine ⟨rfl, rfl, rfl, rfl, rfl, ?_, ?_, ?_, ?_, ?_, ?_, ?_, ?_⟩
  all_goals simp [WalkieService.goto, MainPc.inPress, MainPc.quiet, MainPc.looping,
    MainPc.released, FlagOp.Locks, *]
  -- a release goes on if the press was held or the capture loop runs
  all_goals simp_all

theorem OwnInv.latest_of_capturing (h : s.OwnInv) (hcap : s.Capturing) :
    s.pressTransmission = s.transmissions := by
  obtain ⟨i, j, hj, hover⟩ := hcap
  have hmem := List.mem_of_getElem? hj
  apply le_antisymm h.press_le
  rw [← h.captures j hmem hover]
  exact h.capture_le j hmem

theorem OwnInv.capturing_of_loop (h : s.OwnInv) (hs : s.stores = [])
    (hlooping : s.main.looping = false) (hl : s.txLoopRunning = true) : s.Capturing := by
  rcases h.control.loop hl with hlooping' | hop | hcap
  · rw [hlooping] at hlooping'
    cases hlooping'
  · rw [hs] at hop
    cases hop
  · exact hcap

theorem OwnInv.latest_of_held (h : s.OwnInv) (hs : s.stores = [])
    (hin : s.main.inPress = false) (ht : s.transmitting = true) :
    s.pressTransmission = s.transmissions := by
  rcases h.control.held ht with hin' | hop | heq
  · rw [hin] at hin'
    cases hin'
  · rw [hs] at hop
    cases hop
  · exact heq

theorem OwnInv.not_held_of_quiet (h : s.OwnInv) (hs : s.stores = [])
    (hquiet : s.main.quiet = true) : ¬ s.transmitting = true := by
  intro ht
  have hop := h.control.quiet hquiet ht
  rw [hs] at hop
  cases hop

theorem Move.inv (hm : Move s t) (h : s.OwnInv) (hs : s.stores = []) : t.OwnInv := by
  refine ⟨?_, ?_, ?_, ?_, ?_, ?_⟩
  · rw [hm.captures, hm.transmissions]
    exact h.captures
  · rw [hm.rogers, hm.transmissions]
    exact h.rogers
  · rw [hm.callSignals, hm.transmissions]
    exact h.callSignals
  · rw [hm.pressTransmission, hm.transmissions]
    exact h.press_le
  · rw [hm.captures, hm.pressTransmission]
    exact h.capture_le
  constructor
  · intro ht
    rw [hm.pressTransmission, hm.transmissions]
    cases hin : s.main.inPress with
    | true => exact (hm.held ht hin).imp_right Or.inl
    | false => exact Or.inr (Or.inr (h.latest_of_held hs hin (hm.transmitting ht)))
  · intro hquiet ht
    rcases hm.quiet hquiet ht with hquiet' | hop
    · exact absurd (hm.transmitting ht) (h.not_held_of_quiet hs hquiet')
    · exact hop
  · intro hl
    rcases hm.loop hl with hlooping | hop | ⟨hl', hnot⟩
    · exact Or.inl hlooping
    · exact Or.inr (Or.inl hop)
    · refine Or.inr (Or.inr ?_)
      rw [Capturing, hm.captures]
      exact h.capturing_of_loop hs hnot hl'
  · intro hrel
    rw [hm.pressTransmission, hm.transmissions]
    rcases hm.release hrel with hrel' | ⟨ht, hin⟩ | ⟨hl, hnot⟩
    · exact h.control.release hrel'
    · exact h.latest_of_held hs hin ht
    · exact h.latest_of_capturing (h.capturing_of_loop hs hnot hl)
  · exact hm.press
  · exact hm.noLoop
  · exact hm.locks

/-- Where no test of the flags lies ahead, the flags need only agree with the jobs. -/
theorem control_of_flags (hquiet : t.main.quiet = false)
    (hheld : t.transmitting = true → t.pressTransmission = t.transmissions)
    (hloop : t.txLoopRunning = true → t.Capturing)
    (hrelease : t.main.released = true → t.pressTransmission = t.transmissions)
    (hpress : .transmitting true ∉ t.stores) (hnoLoop : .txLoopRunning true ∉ t.stores)
    (hlocks : FlagOp.Locks t.stores) : t.Control := by
  refine ⟨?_, ?_, ?_, hrelease, fun hop => absurd hop hpress, hnoLoop, hlocks⟩
  · exact fun ht => Or.inr (Or.inr (hheld ht))
  · intro hq
    rw [hquiet] at hq
    cases hq
  · exact fun hl => Or.inr (Or.inr (hloop hl))

/-- The roger that a release launches belongs to the press that is released. -/
theorem complete_inv {pc : CompletePc} (h : s.OwnInv) (hs : s.stores = [])
    (hmain : s.main = .complete pc) : OwnInv (s.mainExec accepted (.complete pc)).1 := by
  have hlatest : s.pressTransmission = s.transmissions :=
    h.control.release (by rw [hmain]; rfl)
  have hloop : s.txLoopRunning = true → s.Capturing :=
    h.capturing_of_loop hs (by rw [hmain]; rfl)
  have hquiet : (s.mainExec accepted (.complete pc)).1.main.quiet = false := by
    simp only [mainExec, WalkieService.goto]
    split <;> rfl
  have hnil : ∀ op : FlagOp, op ∉ ([] : List FlagOp) := fun _ => List.not_mem_nil
  cases pc with
  | launch =>
    refine ⟨h.captures, ?_, h.callSignals, h.press_le, h.capture_le, ?_⟩
    · intro j hj hover
      rcases List.mem_append.1 hj with hj | hj
      · exact h.rogers j hj hover
      · rw [List.mem_singleton.1 hj]
        exact hlatest
    · exact control_of_flags hquiet (fun _ => hlatest) hloop (fun _ => hlatest) (hnil _) (hnil _)
        trivial
  | _ =>
    refine ⟨h.captures, h.rogers, h.callSignals, h.press_le, h.capture_le, ?_⟩
    exact control_of_flags hquiet (fun _ => hlatest) hloop (fun _ => hlatest) (hnil _) (hnil _)
      trivial

/-! ### The steps that begin a transmission -/

/-- Nothing is asked of jobs that are over. -/
theorem transmission_of_over {Pc : Type} {f : Bool → Pc → Bool} {jobs : List (ServiceJob Pc)}
    {m : ℕ} (hover : ∀ j ∈ jobs, f j.cancelled j.pc = true) :
    ∀ j ∈ jobs, f j.cancelled j.pc = false → j.transmission = m := by
  intro j hj hlive
  rw [hover j hj] at hlive
  cases hlive

theorem burstOpen_inv (h : s.OwnInv) (hs : s.stores = []) (hmain : s.main = .burstOpen)
    (hover : s.AllOver) : OwnInv (s.mainExec accepted .burstOpen).1 := by
  obtain ⟨hcaptures, hrogers, hcalls⟩ := hover
  have hidle : ¬ s.transmitting = true := h.not_held_of_quiet hs (by rw [hmain]; rfl)
  have hloop : s.txLoopRunning = true → s.Capturing :=
    h.capturing_of_loop hs (by rw [hmain]; rfl)
  refine ⟨transmission_of_over hcaptures, transmission_of_over hrogers,
    transmission_of_over hcalls, h.press_le.trans (Nat.le_succ _), h.capture_le, ?_⟩
  refine control_of_flags ?_ (fun ht => absurd ht hidle) hloop ?_ List.not_mem_nil
    List.not_mem_nil trivial
  · cases accepted <;> rfl
  · cases accepted <;> exact fun hrel => nomatch hrel

theorem pressLaunch_inv (h : s.OwnInv) (hover : s.AllOver) :
    OwnInv (s.mainExec accepted .pressLaunch).1 := by
  obtain ⟨hcaptures, hrogers, hcalls⟩ := hover
  refine ⟨?_, transmission_of_over hrogers, transmission_of_over hcalls, le_rfl, ?_, ?_⟩
  · intro j hj hlive
    rcases List.mem_append.1 hj with hj | hj
    · exact transmission_of_over hcaptures j hj hlive
    · rw [List.mem_singleton.1 hj]
      rfl
  · intro j hj
    rcases List.mem_append.1 hj with hj | hj
    · exact ((h.capture_le j hj).trans h.press_le).trans (Nat.le_succ _)
    · rw [List.mem_singleton.1 hj]
      exact le_rfl
  · refine control_of_flags rfl (fun _ => rfl) (fun _ => ?_) (fun _ => rfl) ?_ ?_ ?_
    · exact ⟨s.captures.length, _, List.getElem?_concat_length, rfl⟩
    · simp [mainExec, WalkieService.goto]
    · simp [mainExec, WalkieService.goto]
    · simp [mainExec, WalkieService.goto, FlagOp.Locks]

theorem callLaunch_inv (h : s.OwnInv) (hs : s.stores = []) (hmain : s.main = .callLaunch)
    (hover : s.AllOver) : OwnInv (s.mainExec accepted .callLaunch).1 := by
  obtain ⟨hcaptures, hrogers, hcalls⟩ := hover
  have hidle : ¬ s.transmitting = true := h.not_held_of_quiet hs (by rw [hmain]; rfl)
  have hloop : s.txLoopRunning = true → s.Capturing :=
    h.capturing_of_loop hs (by rw [hmain]; rfl)
  refine ⟨transmission_of_over hcaptures, transmission_of_over hrogers, ?_,
    h.press_le.trans (Nat.le_succ _), h.capture_le, ?_⟩
  · intro j hj hlive
    rcases List.mem_append.1 hj with hj | hj
    · exact transmission_of_over hcalls j hj hlive
    · rw [List.mem_singleton.1 hj]
      rfl
  · refine control_of_flags rfl (fun ht => absurd ht hidle) hloop (fun hrel => nomatch hrel)
      ?_ ?_ ?_
    · simp [mainExec, WalkieService.goto]
    · simp [mainExec, WalkieService.goto]
    · simp [mainExec, WalkieService.goto, FlagOp.Locks]

theorem begins_inv (h : s.OwnInv) (hs : s.stores = []) (hbegins : s.main.begins = true)
    (hover : s.AllOver) : OwnInv (s.mainExec accepted s.main).1 := by
  cases hmain : s.main with
  | burstOpen => exact burstOpen_inv h hs hmain hover
  | pressLaunch => exact pressLaunch_inv h hover
  | callLaunch => exact callLaunch_inv h hs hmain hover
  | _ =>
    rw [hmain] at hbegins
    cases hbegins

/-! ## All steps -/

/-- Everything that is submitted for a transmission is submitted for the latest. -/
def Latest (t : WalkieService) (out : List RelaySubmission) : Prop :=
  ∀ o ∈ out, ∀ n ∈ o.transmission, n = t.transmissions

theorem mainStep_inv (h : s.OwnInv) (hb : s.BeginsAlone (.main accepted)) :
    (s.mainStep accepted).1.OwnInv ∧ Latest (s.mainStep accepted).1 (s.mainStep accepted).2 := by
  unfold mainStep
  split
  · rename_i op stores hs
    exact ⟨store_inv h hs, fun o ho => nomatch ho⟩
  · rename_i hs
    refine ⟨?_, ?_⟩
    · cases hbegins : s.main.begins with
      | true => exact begins_inv h hs hbegins (hb hs hbegins)
      | false =>
        by_cases hcomplete : ∃ pc, s.main = .complete pc
        · obtain ⟨pc, hpc⟩ := hcomplete
          rw [hpc]
          exact complete_inv h hs hpc
        · exact (mainExec_move rfl hs hbegins fun pc hpc => hcomplete ⟨pc, hpc⟩).inv h hs
    · intro o ho n hn
      cases hmain : s.main <;> rw [hmain] at ho
      case burstOpen =>
        rw [mem_submission ho] at hn
        exact (Option.some.inj hn).symm
      case burstClose =>
        rw [mem_submission ho] at hn
        exact (Option.some.inj hn).symm
      case lockAbort =>
        rw [mem_submission ho] at hn
        cases hn
      all_goals cases ho

theorem JobEffect.latest {live : Bool} (he : JobEffect s s' n live out)
    (hn : live = true → n = s.transmissions) (ht : t.transmissions = s'.transmissions) :
    Latest t out := by
  intro o ho m hm
  obtain ⟨hlive, heq⟩ := he.out o ho
  rw [heq] at hm
  rw [ht, he.transmissions, ← hn hlive]
  exact (Option.some.inj hm).symm

theorem begin_move {c : ServiceCall} (hmain : s.main = .idle) : Move s (s.begin c) := by
  cases c <;> refine ⟨rfl, rfl, rfl, rfl, rfl, fun ht => ht, ?_, ?_, ?_, ?_, ?_, ?_, ?_⟩ <;>
    simp [begin, WalkieService.goto, hmain, MainPc.inPress, MainPc.quiet, MainPc.looping,
      MainPc.released, FlagOp.Locks]

theorem step_inv {a : ServiceAction} (h : s.OwnInv) (hb : s.BeginsAlone a) :
    (next step s a).OwnInv ∧ Latest (next step s a) (step s a).2 := by
  cases a with
  | elapse ns =>
    refine ⟨⟨h.captures, h.rogers, h.callSignals, h.press_le, h.capture_le, ?_⟩,
      fun o ho => nomatch ho⟩
    exact h.control.of_same rfl rfl rfl rfl (fun ht => ht) (fun hl => hl) fun _ hcap => hcap
  | burstDecay =>
    refine ⟨⟨h.captures, h.rogers, h.callSignals, h.press_le, h.capture_le, ?_⟩,
      fun o ho => nomatch ho⟩
    exact h.control.of_same rfl rfl rfl rfl (fun ht => ht) (fun hl => hl) fun _ hcap => hcap
  | call c =>
    refine ⟨?_, fun o ho => nomatch ho⟩
    unfold next step
    dsimp only
    split_ifs with hidle
    · exact (begin_move hidle.1).inv h hidle.2
    · exact h
  | main accepted => exact mainStep_inv h hb
  | capture i more accepted =>
    unfold next step
    dsimp only
    split
    · rename_i j hj
      refine ⟨captures_inv h hj (captureExec_effect j.pc) captureExec_over captureExec_ends,
        (captureExec_effect j.pc).latest (fun hlive => ?_) rfl⟩
      exact h.captures j (List.mem_of_getElem? hj) (by simpa using hlive)
    · exact ⟨h, fun o ho => nomatch ho⟩
  | roger i more accepted =>
    unfold next step
    dsimp only
    split
    · rename_i j hj
      refine ⟨rogers_inv h hj (rogerExec_effect j.pc) rogerExec_over,
        (rogerExec_effect j.pc).latest (fun hlive => ?_) rfl⟩
      exact h.rogers j (List.mem_of_getElem? hj) (by simpa using hlive)
    · exact ⟨h, fun o ho => nomatch ho⟩
  | callSignal i more accepted =>
    unfold next step
    dsimp only
    split
    · rename_i j hj
      refine ⟨callSignals_inv h hj (callSignalExec_effect j.pc) callSignalExec_over,
        (callSignalExec_effect j.pc).latest (fun hlive => ?_) rfl⟩
      exact h.callSignals j (List.mem_of_getElem? hj) (by simpa using hlive)
    · exact ⟨h, fun o ho => nomatch ho⟩

theorem init_inv (packetMs : ℕ) : OwnInv { packetMs := packetMs } := by
  refine ⟨?_, ?_, ?_, le_rfl, ?_, ?_⟩
  · simp
  · simp
  · simp
  · simp
  · exact control_of_flags rfl (fun ht => nomatch ht) (fun hl => nomatch hl)
      (fun hrel => nomatch hrel) List.not_mem_nil List.not_mem_nil trivial

theorem mainExec_transmissions_le (pc : MainPc) :
    s.transmissions ≤ (s.mainExec accepted pc).1.transmissions := by
  cases pc with
  | burstOpen => exact Nat.le_succ _
  | pressLaunch => exact Nat.le_succ _
  | callLaunch => exact Nat.le_succ _
  | complete pc => cases pc <;> exact le_rfl
  | _ =>
    simp only [mainExec]
    (try split_ifs) <;> exact le_rfl

theorem transmissions_le (a : ServiceAction) :
    s.transmissions ≤ (next step s a).transmissions := by
  cases a with
  | elapse ns => exact le_rfl
  | burstDecay => exact le_rfl
  | call c =>
    unfold next step
    dsimp only
    split_ifs
    · cases c <;> exact le_rfl
    · exact le_rfl
  | main accepted =>
    change s.transmissions ≤ (s.mainStep accepted).1.transmissions
    unfold mainStep
    split
    · rename_i op stores hs
      cases op <;> exact le_rfl
    · exact mainExec_transmissions_le s.main
  | capture i more accepted =>
    unfold next step
    dsimp only
    split
    · rename_i j hj
      exact (captureExec_effect j.pc).transmissions.ge
    · exact le_rfl
  | roger i more accepted =>
    unfold next step
    dsimp only
    split
    · rename_i j hj
      exact (rogerExec_effect j.pc).transmissions.ge
    · exact le_rfl
  | callSignal i more accepted =>
    unfold next step
    dsimp only
    split
    · rename_i j hj
      exact (callSignalExec_effect j.pc).transmissions.ge
    · exact le_rfl

/-- The transmissions are fed one after the other. -/
structure Successive (s : WalkieService) (outs : List RelaySubmission) : Prop where
  inv : s.OwnInv
  le : ∀ o ∈ outs, ∀ n ∈ o.transmission, n ≤ s.transmissions
  pairwise : outs.Pairwise fun o o' => ∀ n ∈ o.transmission, ∀ m ∈ o'.transmission, n ≤ m

theorem Successive.step {outs : List RelaySubmission} {a : ServiceAction}
    (h : Successive s outs) (hb : s.BeginsAlone a) :
    Successive (next step s a) (outs ++ (s.step a).2) := by
  obtain ⟨hinv, hlatest⟩ := step_inv h.inv hb
  have hle : ∀ o ∈ outs, ∀ n ∈ o.transmission, n ≤ (next WalkieService.step s a).transmissions :=
    fun o ho n hn => (h.le o ho n hn).trans (transmissions_le a)
  refine ⟨hinv, ?_, ?_⟩
  · intro o ho n hn
    rcases List.mem_append.1 ho with ho | ho
    · exact hle o ho n hn
    · exact (hlatest o ho n hn).le
  · rw [List.pairwise_append]
    refine ⟨h.pairwise, ?_, ?_⟩
    · apply List.pairwise_of_forall_mem_list
      intro o ho o' ho' n hn m hm
      rw [hlatest o ho n hn, hlatest o' ho' m hm]
    · intro o ho o' ho' n hn m hm
      rw [hlatest o' ho' m hm]
      exact hle o ho n hn

/-- If all jobs are over whenever a press or a call signal begins a transmission, no job of an
earlier transmission feeds or ends one that is open. -/
theorem fed_by_own_jobs (packetMs : ℕ) (acts : List ServiceAction)
    (h : Along (next step) BeginsAlone { packetMs := packetMs } acts) :
    FedByOwn (outputs step { packetMs := packetMs } acts) := by
  have hinit : Successive { packetMs := packetMs } [] :=
    ⟨init_inv packetMs, by simp, List.Pairwise.nil⟩
  have hsucc := invariant_outputs (fun _ _ _ hs hb => hs.step hb) hinit h
  intro pre mid post n m op heq _ _ _
  have hpairwise := hsucc.pairwise
  rw [heq, List.pairwise_append, List.pairwise_cons] at hpairwise
  obtain ⟨-, ⟨hafter, -⟩, hbefore⟩ := hpairwise
  have hnm : n ≤ m := hafter ⟨some m, op⟩ (by simp) n rfl m rfl
  rintro (hlt | ⟨hne, hopen⟩)
  · omega
  · have hmn : m ≤ n := hbefore _ hopen _ List.mem_cons_self m rfl n rfl
    omega

/-- A handler with the given number of steps. -/
def handled (c : ServiceCall) (steps : ℕ) : List ServiceAction :=
  .call c :: List.replicate steps (.main true)

/-- A call signal is being streamed when the button is pressed, and goes on until its end. -/
def pressDuringCall : List ServiceAction :=
  List.flatten [handled .onCallSignal 6, List.replicate 3 (.callSignal 0 true true),
    handled .onPttPress 18, List.replicate 10 (.capture 0 true true),
    [.callSignal 0 true true, .callSignal 0 false true, .callSignal 0 true true]]

/-- The call signal is streamed to its end before the button is pressed. -/
def pressAfterCall : List ServiceAction :=
  List.flatten [handled .onCallSignal 6, List.replicate 3 (.callSignal 0 true true),
    List.replicate 3 (.callSignal 0 false true), handled .onPttPress 18,
    List.replicate 10 (.capture 0 true true)]

theorem cancelled_call_goes_on : ¬ FedByOwn (outputs step { packetMs := 20 } pressDuringCall) := by
  have hout : outputs step { packetMs := 20 } pressDuringCall =
      [⟨some 1, .txOpen⟩, ⟨some 1, .txPcm⟩, ⟨some 2, .txOpen⟩, ⟨some 2, .txPcm⟩,
        ⟨some 1, .txPcm⟩, ⟨some 1, .txClose⟩] := by
    decide +kernel
  rw [hout]
  intro h
  exact h [⟨some 1, .txOpen⟩, ⟨some 1, .txPcm⟩] [⟨some 2, .txPcm⟩] [⟨some 1, .txClose⟩] 2 1 .txPcm
    rfl (by decide) (by decide) (by decide) (by decide)

theorem fed_by_own_jobs_call_first :
    FedByOwn (outputs step { packetMs := 20 } pressAfterCall) :=
  fed_by_own_jobs 20 pressAfterCall (by decide +kernel)

end WalkieService

end OWalkie
