import OWalkie.Core.TxPipeline

/-!
# The published transmit state

`clientTxOpen` and `sessionState.localTxActive` are changed by different steps of the worker and of
the teardown.  `txEndInternal` clears the first, and `sendTxEofBurstInternal`, which is to clear the
second, returns early when it finds the connection lost; nothing that runs later looks at
`localTxActive` unless `clientTxOpen` is set.  `transmit_state_consistent`: when no loss falls
between the two tests of `connected`, the two agree whenever the worker and the teardown are at
rest, and the events alternate.
-/

namespace OWalkie

open Run

/-- Where a thread stands in a transmission: `clientTxOpen` and `localTxActive` agree, or only the
first is set, or only the second. -/
inductive TxPhase where
  | settled
  | begun
  | ending
deriving DecidableEq

def AbortPc.phase : AbortPc → TxPhase
  | .localTest | .localEmit => .ending
  | .clear | .exchange | .reset => .settled

def WorkerPc.phase : WorkerPc → TxPhase
  | .beginTest _ | .beginEmit _ => .begun
  | .burstTest _ | .burst _ _ | .localTest _ | .localEmit _ => .ending
  | .abort _ pc => pc.phase
  | _ => .settled

def TeardownPc.phase : TeardownPc → TxPhase
  | .abort pc => pc.phase
  | _ => .settled

/-- Where a worker may be that was started without a connection. -/
def WorkerPc.offline : WorkerPc → Bool
  | .startStore _ | .beginTest _ | .beginEmit _ | .endOpen _ | .endStore _ | .burstTest _
  | .burst _ _ | .localTest _ | .localEmit _ => false
  | _ => true

/-- The teardown has joined the worker. -/
def TeardownPc.joined : TeardownPc → Bool
  | .idle | .signal | .join => false
  | _ => true

def WorkerPc.idle : WorkerPc → Bool
  | .absent | .finished | .waiting => true
  | _ => false

/-- The published state after an event of a transmission; a second start and a second end have
none. -/
def TxOutput.publish : Bool → TxOutput → Option Bool
  | false, .localTxStart => some true
  | true, .localTxEnd => some false
  | true, .localTxStart | false, .localTxEnd => none
  | active, .fed _ | active, .eof _ | active, .dropped _ => some active

namespace TxPipeline

/-- The worker is between the tests of `connected` in `txEndInternal` and in
`sendTxEofBurstInternal`, with a transmission to close. -/
def Closing (s : TxPipeline) : Prop :=
  match s.worker with
  | .endOpen _ => s.clientTxOpen = true
  | .endStore _ | .burstTest _ => True
  | _ => False

/-- The connection is not lost while the worker closes a transmission. -/
def Uncut (s : TxPipeline) (a : TxAction) : Prop :=
  a = .lose → ¬ s.Closing

/-- The worker is idle and no step of the teardown is pending. -/
def AtRest (s : TxPipeline) : Prop :=
  s.worker.idle = true ∧ s.teardown = .idle

instance (s : TxPipeline) : Decidable s.Closing := by
  unfold Closing
  cases s.worker <;> exact inferInstance

instance (s : TxPipeline) (a : TxAction) : Decidable (s.Uncut a) :=
  inferInstanceAs (Decidable (_ → _))

instance (s : TxPipeline) : Decidable s.AtRest :=
  inferInstanceAs (Decidable (_ ∧ _))

/-- Every `LocalTxStart` is followed by exactly one `LocalTxEnd` before the next one. -/
def Alternates (outs : List TxOutput) : Prop :=
  ∀ pre mid post, outs = pre ++ .localTxStart :: (mid ++ .localTxStart :: post) →
    .localTxStart ∉ mid → mid.count .localTxEnd = 1

/-! ## The invariant -/

/-- What the worker has found out and no other thread can change. -/
def Found (s : TxPipeline) : WorkerPc → Prop
  | .startTest _ | .endDone (.reopen _) => s.clientTxOpen = true → s.connected = false
  | .startStore _ => s.clientTxOpen = false
  | .endOpen _ => s.clientTxOpen = true → s.connected = true
  | .endStore _ => s.clientTxOpen = true ∧ s.connected = true
  | .burstTest _ => s.connected = true
  | _ => True

/-- The two flags in a phase. -/
def InPhase (s : TxPipeline) : TxPhase → Prop
  | .settled => s.localTxActive = s.clientTxOpen
  | .begun => s.clientTxOpen = true ∧ s.localTxActive = false
  | .ending => s.clientTxOpen = false ∧ s.localTxActive = true

/-- The worker's phase unless the teardown ends the transmission. -/
def phase (s : TxPipeline) : TxPhase :=
  if s.teardown.phase = .ending then .ending else s.worker.phase

structure TransmitInv (s : TxPipeline) : Prop where
  found : s.Found s.worker
  flags : s.InPhase s.phase
  one_ends : s.teardown.phase = .ending → s.worker.phase = .settled
  teardown_idle : s.connected = true → s.teardown = .idle
  joined : s.teardown.joined = true → s.worker.offline = true

variable {s s' : TxPipeline}

/-! ### The worker -/

/-- A step leaves the flags, the connection and the teardown as they are. -/
structure SameFlags (s s' : TxPipeline) : Prop where
  connected : s'.connected = s.connected
  open_eq : s'.clientTxOpen = s.clientTxOpen
  active : s'.localTxActive = s.localTxActive
  teardown : s'.teardown = s.teardown

theorem joined_of_ending {pc : TeardownPc} (h : pc.phase = .ending) : pc.joined = true := by
  cases pc <;> first | rfl | cases h

theorem phase_of_not_ending (h : s.teardown.phase ≠ .ending) : s.phase = s.worker.phase :=
  if_neg h

/-- The teardown does not run past the worker's join while the session is connected. -/
theorem TransmitInv.not_joined_of_connected (h : TransmitInv s) (hc : s.connected = true) :
    s.teardown.joined = false := by
  rw [h.teardown_idle hc]
  rfl

/-- Where only a connected session leads, the teardown waits for the worker. -/
theorem TransmitInv.not_ending_of_online (h : TransmitInv s) (hw : s.worker.offline = false) :
    s.teardown.phase ≠ .ending := by
  intro ht
  have hoff := h.joined (joined_of_ending ht)
  rw [hw] at hoff
  cases hoff

/-- Not both end the transmission. -/
theorem TransmitInv.not_ending_of_ending (h : TransmitInv s) (hw : s.worker.phase = .ending) :
    s.teardown.phase ≠ .ending := by
  intro ht
  have hsettled := h.one_ends ht
  rw [hw] at hsettled
  cases hsettled

/-- The flags where the teardown does not end the transmission. -/
theorem TransmitInv.flags_at (h : TransmitInv s) {pc : WorkerPc} (hpc : s.worker = pc)
    (hne : s.teardown.phase ≠ .ending) : s.InPhase pc.phase := by
  rw [← hpc, ← phase_of_not_ending hne]
  exact h.flags

/-- A step of the worker that changes neither flag and stays in its phase. -/
theorem TransmitInv.move (h : TransmitInv s) {pc : WorkerPc} (hpc : s.worker = pc)
    (hs : SameFlags s s') (hf : s'.Found s'.worker) (hp : s'.worker.phase = pc.phase)
    (hoff : s.connected = false → pc.offline = true → s'.worker.offline = true) :
    TransmitInv s' := by
  subst hpc
  have hphase : s'.phase = s.phase := by
    unfold phase
    rw [hs.teardown, hp]
  refine ⟨hf, ?_, ?_, ?_, ?_⟩
  · have hflags := h.flags
    rw [hphase]
    revert hflags
    cases s.phase <;> simp only [InPhase, hs.open_eq, hs.active] <;> exact id
  · rw [hs.teardown, hp]
    exact h.one_ends
  · rw [hs.connected, hs.teardown]
    exact h.teardown_idle
  · rw [hs.teardown]
    intro hj
    refine hoff ?_ (h.joined hj)
    by_contra hc
    rw [h.not_joined_of_connected (by simpa using hc)] at hj
    cases hj

/-- A step of the worker that changes a flag. -/
theorem TransmitInv.change (h : TransmitInv s) {pc : WorkerPc} (hpc : s.worker = pc)
    (hne : s.teardown.phase ≠ .ending) (hc : s'.connected = s.connected)
    (ht : s'.teardown = s.teardown) (hf : s'.Found s'.worker) (hp : s'.InPhase s'.worker.phase)
    (hoff : pc.offline = true → s'.worker.offline = true) : TransmitInv s' := by
  subst hpc
  rw [← ht] at hne
  refine ⟨hf, ?_, fun hte => absurd hte hne, ?_, ?_⟩
  · rwa [phase_of_not_ending hne]
  · rw [hc, ht]
    exact h.teardown_idle
  · rw [ht]
    exact fun hj => hoff (h.joined hj)

theorem next_worker {pc : WorkerPc} (hpc : s.worker = pc) :
    next step s .worker = { (s.workerExec pc).1 with worker := (s.workerExec pc).2.1 } :=
  congrArg Prod.fst (step_worker hpc)

/-- A step within a phase is a `move`; the steps that change a flag are each a `change`. -/
theorem TransmitInv.worker_step (h : TransmitInv s) : TransmitInv (next step s .worker) := by
  have hfound := h.found
  cases hpc : s.worker with
  | absent | finished | startDone | voiceFeed | voiceEnd =>
    rw [next_worker hpc]
    exact h.move hpc ⟨rfl, rfl, rfl, rfl⟩ trivial rfl fun _ _ => rfl
  | waiting =>
    rw [next_worker hpc]
    simp only [workerExec]
    split
    · split_ifs
      all_goals exact h.move hpc ⟨rfl, rfl, rfl, rfl⟩ trivial rfl fun _ _ => rfl
    · next item queue hq =>
      refine h.move hpc ⟨rfl, rfl, rfl, rfl⟩ ?_ ?_ ?_
      all_goals
        cases hop : item.op <;>
          simp [dispatch, hop, Found, WorkerPc.phase, AbortPc.phase, WorkerPc.offline]
  | openTest n =>
    rw [next_worker hpc]
    simp only [workerExec]
    split_ifs with ho
    · exact h.move hpc ⟨rfl, rfl, rfl, rfl⟩ trivial rfl fun _ _ => rfl
    · exact h.move hpc ⟨rfl, rfl, rfl, rfl⟩ (fun hopen => absurd hopen ho) rfl fun _ _ => rfl
  | startTest n =>
    rw [hpc] at hfound
    rw [next_worker hpc]
    simp only [workerExec]
    split_ifs with hconn
    · have hopen : s.clientTxOpen = false := by
        by_contra ho
        rw [hfound (by simpa using ho)] at hconn
        cases hconn.1
      exact h.move hpc ⟨rfl, rfl, rfl, rfl⟩ hopen rfl fun hdown => by simp [hdown] at hconn
    · exact h.move hpc ⟨rfl, rfl, rfl, rfl⟩ trivial rfl fun _ _ => rfl
  | startStore n =>
    rw [hpc] at hfound
    have hne := h.not_ending_of_online (by rw [hpc]; rfl)
    have hflags : s.InPhase .settled := h.flags_at hpc hne
    rw [next_worker hpc]
    exact h.change hpc hne rfl rfl trivial ⟨rfl, hflags.trans hfound⟩ nofun
  | beginTest n =>
    have hne := h.not_ending_of_online (by rw [hpc]; rfl)
    have hflags : s.InPhase .begun := h.flags_at hpc hne
    rw [next_worker hpc]
    simp only [workerExec, hflags.2]
    exact h.move hpc ⟨rfl, rfl, hflags.2.symm, rfl⟩ trivial rfl nofun
  | beginEmit n =>
    have hne := h.not_ending_of_online (by rw [hpc]; rfl)
    have hflags : s.InPhase .begun := h.flags_at hpc hne
    rw [next_worker hpc]
    exact h.change hpc hne rfl rfl trivial hflags.1.symm nofun
  | endTest why =>
    rw [next_worker hpc]
    simp only [workerExec]
    split_ifs with hconn
    · exact h.move hpc ⟨rfl, rfl, rfl, rfl⟩ (fun _ => hconn) rfl fun hdown => by
        rw [hdown] at hconn
        cases hconn
    · refine h.move hpc ⟨rfl, rfl, rfl, rfl⟩ ?_ rfl fun _ _ => rfl
      cases why with
      | reopen n => exact fun _ => by simpa using hconn
      | watchdog | close => trivial
  | endOpen why =>
    rw [hpc] at hfound
    rw [next_worker hpc]
    simp only [workerExec]
    split_ifs with ho
    · exact h.move hpc ⟨rfl, rfl, rfl, rfl⟩ ⟨ho, hfound ho⟩ rfl nofun
    · refine h.move hpc ⟨rfl, rfl, rfl, rfl⟩ ?_ rfl fun _ _ => rfl
      cases why with
      | reopen n => exact fun hopen => absurd hopen ho
      | watchdog | close => trivial
  | endStore why =>
    rw [hpc] at hfound
    have hne := h.not_ending_of_online (by rw [hpc]; rfl)
    have hflags : s.InPhase .settled := h.flags_at hpc hne
    rw [next_worker hpc]
    exact h.change hpc hne rfl rfl hfound.2 ⟨rfl, hflags.trans hfound.1⟩ nofun
  | burstTest why =>
    rw [hpc] at hfound
    have hconn : s.connected = true := hfound
    rw [next_worker hpc]
    simp only [workerExec, hconn]
    exact h.move hpc ⟨hconn.symm, rfl, rfl, rfl⟩ trivial rfl nofun
  | burst why left =>
    rw [next_worker hpc]
    cases left with
    | zero => exact h.move hpc ⟨rfl, rfl, rfl, rfl⟩ trivial rfl nofun
    | succ left =>
      simp only [workerExec]
      split_ifs
      all_goals exact h.move hpc ⟨rfl, rfl, rfl, rfl⟩ trivial rfl nofun
  | localTest why =>
    have hflags : s.InPhase .ending :=
      h.flags_at hpc (h.not_ending_of_online (by rw [hpc]; rfl))
    rw [next_worker hpc]
    simp only [workerExec, hflags.2]
    exact h.move hpc ⟨rfl, rfl, hflags.2.symm, rfl⟩ trivial rfl nofun
  | localEmit why =>
    have hne := h.not_ending_of_online (by rw [hpc]; rfl)
    have hflags : s.InPhase .ending := h.flags_at hpc hne
    rw [next_worker hpc]
    refine h.change hpc hne rfl rfl ?_ hflags.1.symm nofun
    cases why with
    | reopen n => simp [workerExec, Found, hflags.1]
    | watchdog | close => trivial
  | endDone why =>
    rw [hpc] at hfound
    rw [next_worker hpc]
    cases why with
    | reopen n => exact h.move hpc ⟨rfl, rfl, rfl, rfl⟩ hfound rfl fun _ _ => rfl
    | watchdog | close => exact h.move hpc ⟨rfl, rfl, rfl, rfl⟩ trivial rfl fun _ _ => rfl
  | voiceTest item =>
    rw [next_worker hpc]
    simp only [workerExec]
    split_ifs
    all_goals exact h.move hpc ⟨rfl, rfl, rfl, rfl⟩ trivial rfl fun _ _ => rfl
  | abort n pc =>
    rw [next_worker hpc]
    cases pc with
    | clear | reset => exact h.move hpc ⟨rfl, rfl, rfl, rfl⟩ trivial rfl fun _ _ => rfl
    | exchange =>
      by_cases ho : s.clientTxOpen = true
      · have hne : s.teardown.phase ≠ .ending := by
          intro ht
          have hflags := h.flags
          rw [phase, if_pos ht] at hflags
          rw [hflags.1] at ho
          cases ho
        have hflags : s.InPhase .settled := h.flags_at hpc hne
        simp only [workerExec, abortExec, ho, if_true]
        exact h.change hpc hne rfl rfl trivial ⟨rfl, hflags.trans ho⟩ fun _ => rfl
      · have hclosed : s.clientTxOpen = false := by simpa using ho
        simp only [workerExec, abortExec, hclosed]
        exact h.move hpc ⟨rfl, hclosed.symm, rfl, rfl⟩ trivial rfl fun _ _ => rfl
    | localTest =>
      have hflags : s.InPhase .ending :=
        h.flags_at hpc (h.not_ending_of_ending (by rw [hpc]; rfl))
      simp only [workerExec, abortExec, hflags.2, if_true]
      exact h.move hpc ⟨rfl, rfl, hflags.2.symm, rfl⟩ trivial rfl fun _ _ => rfl
    | localEmit =>
      have hne := h.not_ending_of_ending (by rw [hpc]; rfl)
      have hflags : s.InPhase .ending := h.flags_at hpc hne
      exact h.change hpc hne rfl rfl trivial hflags.1.symm fun _ => rfl

/-! ### The teardown -/

theorem Found.congr {pc : WorkerPc} (hc : s'.connected = s.connected)
    (ho : s'.clientTxOpen = s.clientTxOpen) (hf : s.Found pc) : s'.Found pc := by
  unfold Found at *
  rwa [hc, ho]

/-- Offline, only the two tests before `txStartInternal` count on something. -/
theorem found_of_offline {pc : WorkerPc} (hoff : pc.offline = true)
    (hdown : s.connected = false) : s.Found pc := by
  cases pc with
  | startTest | endDone => unfold Found; split <;> first | trivial | exact fun _ => hdown
  | startStore | endOpen | endStore | burstTest => cases hoff
  | _ => trivial

/-- A step of the teardown that changes neither flag and stays in its phase. -/
theorem TransmitInv.move_teardown (h : TransmitInv s) (hdown : s.connected = false)
    (hc : s'.connected = s.connected) (ho : s'.clientTxOpen = s.clientTxOpen)
    (ha : s'.localTxActive = s.localTxActive) (hw : s'.worker = s.worker)
    (hp : s'.teardown.phase = s.teardown.phase)
    (hj : s'.teardown.joined = true → s.teardown.joined = true) : TransmitInv s' := by
  have hphase : s'.phase = s.phase := by
    unfold phase
    rw [hw, hp]
  refine ⟨?_, ?_, ?_, ?_, ?_⟩
  · rw [hw]
    exact h.found.congr hc ho
  · have hflags := h.flags
    rw [hphase]
    revert hflags
    cases s.phase <;> simp only [InPhase, ho, ha] <;> exact id
  · rw [hw, hp]
    exact h.one_ends
  · rw [hc, hdown]
    intro hup
    cases hup
  · rw [hw]
    exact fun hjoined => h.joined (hj hjoined)

theorem next_teardown {pc : TeardownPc} (hpc : s.teardown = pc) :
    next step s .teardown =
      { (s.teardownExec pc).1 with teardown := (s.teardownExec pc).2.1 } := by
  subst hpc
  rfl

theorem TransmitInv.down (h : TransmitInv s) (ht : s.teardown ≠ .idle) : s.connected = false := by
  by_contra hc
  exact ht (h.teardown_idle (by simpa using hc))

/-- The worker is settled where the teardown finds the transmission open. -/
theorem TransmitInv.settled_of_open (h : TransmitInv s) (hj : s.teardown.joined = true)
    (hp : s.teardown.phase ≠ .ending) (ho : s.clientTxOpen = true) :
    s.worker.phase = .settled := by
  have hoff := h.joined hj
  have hflags : s.InPhase s.worker.phase := h.flags_at rfl hp
  cases hw : s.worker.phase with
  | settled => rfl
  | begun =>
    cases hpc : s.worker with
    | beginTest | beginEmit =>
      rw [hpc] at hoff
      cases hoff
    | abort n pc =>
      rw [hpc] at hw
      cases pc <;> cases hw
    | _ =>
      rw [hpc] at hw
      cases hw
  | ending =>
    rw [hw] at hflags
    rw [hflags.1] at ho
    cases ho

theorem TransmitInv.teardown_step (h : TransmitInv s) : TransmitInv (next step s .teardown) := by
  cases hpc : s.teardown with
  | idle =>
    rw [next_teardown hpc]
    exact h.move rfl ⟨rfl, rfl, rfl, hpc.symm⟩ h.found rfl fun _ => id
  | signal =>
    rw [next_teardown hpc]
    exact h.move_teardown (h.down (by simp [hpc])) rfl rfl rfl rfl (by simp [hpc]; rfl) nofun
  | join =>
    have hdown := h.down (by simp [hpc])
    rw [next_teardown hpc]
    simp only [teardownExec]
    split_ifs with hw
    · have hsettled : s.InPhase .settled := by
        have hflags : s.InPhase s.worker.phase := h.flags_at rfl (by rw [hpc]; nofun)
        rcases hw with hw | hw <;> rwa [hw] at hflags
      exact ⟨trivial, hsettled, nofun, fun hup => by simp [hdown] at hup, fun _ => rfl⟩
    · exact h.move rfl ⟨rfl, rfl, rfl, hpc.symm⟩ h.found rfl fun _ => id
  | resetRunning | resetStop | clearQueue =>
    rw [next_teardown hpc]
    exact h.move_teardown (h.down (by simp [hpc])) rfl rfl rfl rfl (by simp [hpc]; rfl)
      fun _ => by simp [hpc]; rfl
  | abort pc =>
    have hdown := h.down (by simp [hpc])
    have hjoined : s.teardown.joined = true := by rw [hpc]; rfl
    rw [next_teardown hpc]
    cases pc with
    | clear =>
      exact h.move_teardown hdown rfl rfl rfl rfl (by simp [hpc]; rfl) fun _ => hjoined
    | reset =>
      exact h.move_teardown hdown rfl rfl rfl rfl (by simp [hpc]; rfl) fun _ => hjoined
    | exchange =>
      by_cases ho : s.clientTxOpen = true
      · have hw := h.settled_of_open hjoined (by rw [hpc]; nofun) ho
        have hflags : s.InPhase .settled := by
          rw [← hw]
          exact h.flags_at rfl (by rw [hpc]; nofun)
        simp only [teardownExec, abortExec, ho, if_true]
        exact ⟨found_of_offline (h.joined hjoined) hdown, ⟨rfl, hflags.trans ho⟩, fun _ => hw,
          fun hup => by simp [hdown] at hup, fun _ => h.joined hjoined⟩
      · have hclosed : s.clientTxOpen = false := by simpa using ho
        simp only [teardownExec, abortExec, hclosed]
        exact h.move_teardown hdown rfl hclosed.symm rfl rfl (by simp [hpc]; rfl) fun _ => hjoined
    | localTest =>
      have hflags : s.InPhase .ending := by
        have hflags := h.flags
        rwa [phase, if_pos (by rw [hpc]; rfl)] at hflags
      simp only [teardownExec, abortExec, hflags.2, if_true]
      exact h.move_teardown hdown rfl rfl hflags.2.symm rfl (by simp [hpc]; rfl) fun _ => hjoined
    | localEmit =>
      have hflags : s.InPhase .ending := by
        have hflags := h.flags
        rwa [phase, if_pos (by rw [hpc]; rfl)] at hflags
      have hw := h.one_ends (by rw [hpc]; rfl)
      simp only [teardownExec, abortExec]
      refine ⟨h.found.congr rfl rfl, ?_, fun _ => hw, fun hup => by simp [hdown] at hup,
        fun _ => h.joined hjoined⟩
      rw [phase_of_not_ending (by simp [TeardownPc.phase, AbortPc.phase])]
      simp only [hw]
      exact hflags.1.symm

/-! ### The other steps -/

/-- A step that touches none of what the invariant speaks about. -/
theorem TransmitInv.frame (h : TransmitInv s) (hs : SameFlags s s') (hw : s'.worker = s.worker) :
    TransmitInv s' := by
  refine h.move rfl hs ?_ (by rw [hw]) fun _ hoff => by rwa [hw]
  rw [hw]
  exact h.found.congr hs.connected hs.open_eq

theorem push_same (s : TxPipeline) (k : ℕ) (op : TxSubmitOp) :
    SameFlags s (s.push k op).1 ∧ (s.push k op).1.worker = s.worker := by
  unfold push
  split_ifs <;> exact ⟨⟨rfl, rfl, rfl, rfl⟩, rfl⟩

theorem TransmitInv.ensure_step (h : TransmitInv s) (k : ℕ) :
    TransmitInv (next step s (.ensure k)) := by
  simp only [next, step]
  split_ifs with hk
  · unfold ensureTxWorkerStarted
    split_ifs with hrun
    · exact h.frame ⟨rfl, rfl, rfl, rfl⟩ rfl
    · exact h.move (hk.2.resolve_left hrun) ⟨rfl, rfl, rfl, rfl⟩ trivial rfl fun _ _ => rfl
  · exact h

theorem TransmitInv.lose_step (h : TransmitInv s) (huncut : ¬ s.Closing) :
    TransmitInv (next step s .lose) := by
  refine ⟨?_, h.flags, h.one_ends, nofun, h.joined⟩
  have hfound := h.found
  unfold Closing at huncut
  simp only [next, step]
  cases hpc : s.worker with
  | startTest n => exact fun _ => rfl
  | endDone why =>
    cases why with
    | reopen n => exact fun _ => rfl
    | watchdog | close => trivial
  | startStore n =>
    rw [hpc] at hfound
    exact hfound
  | endOpen why =>
    rw [hpc] at huncut
    exact fun ho => absurd ho huncut
  | endStore why | burstTest why =>
    rw [hpc] at huncut
    exact absurd trivial huncut
  | _ => trivial

theorem TransmitInv.step (h : TransmitInv s) (a : TxAction) (hC : s.Uncut a) :
    TransmitInv (next step s a) := by
  cases a with
  | elapse dt => exact h.frame ⟨rfl, rfl, rfl, rfl⟩ rfl
  | submit k op =>
    simp only [next, TxPipeline.step]
    split_ifs
    · exact h.frame ⟨rfl, rfl, rfl, rfl⟩ rfl
    · exact h
  | push k =>
    simp only [next, TxPipeline.step]
    split
    · next op _ =>
      obtain ⟨hs, hw⟩ := s.push_same k op
      exact h.frame hs hw
    · exact h
  | ensure k => exact h.ensure_step k
  | worker => exact h.worker_step
  | stopTxPipeline =>
    simp only [next, TxPipeline.step]
    split_ifs with hidle
    · exact h.move_teardown hidle.2 rfl rfl rfl rfl (by rw [hidle.1]; rfl) nofun
    · exact h
  | teardown => exact h.teardown_step
  | lose => exact h.lose_step (hC rfl)
  | stop | forgetWelcome => exact h.frame ⟨rfl, rfl, rfl, rfl⟩ rfl

theorem transmitInv_welcomed (sessionId : ℕ) (now : ℤ) : TransmitInv (welcomed sessionId now) :=
  ⟨trivial, rfl, nofun, fun _ => rfl, nofun⟩

/-! ### The events -/

/-- A step emits no event of a transmission and publishes nothing. -/
def Quiet (s s' : TxPipeline) (out : List TxOutput) : Prop :=
  s'.localTxActive = s.localTxActive ∧ ∀ o ∈ out, o ≠ .localTxStart ∧ o ≠ .localTxEnd

theorem Quiet.publish {out : List TxOutput} (h : Quiet s s' out) :
    out.foldlM TxOutput.publish s.localTxActive = some s'.localTxActive := by
  obtain ⟨heq, hout⟩ := h
  rw [heq]
  clear heq
  induction out with
  | nil => rfl
  | cons o out ih =>
    have hkeep : TxOutput.publish s.localTxActive o = some s.localTxActive := by
      obtain ⟨hstart, hend⟩ := hout o List.mem_cons_self
      cases o <;> first | exact absurd rfl hstart | exact absurd rfl hend | simp [TxOutput.publish]
    rw [List.foldlM_cons, hkeep]
    exact ih fun o' ho' => hout o' (List.mem_cons_of_mem _ ho')

theorem quiet_dropped {items : List TxQueueItem} (heq : s'.localTxActive = s.localTxActive) :
    Quiet s s' (items.map fun item => .dropped item.number) :=
  ⟨heq, by simp⟩

theorem quiet_nil (heq : s'.localTxActive = s.localTxActive) : Quiet s s' [] :=
  ⟨heq, by simp⟩

theorem abortExec_quiet {pc : AbortPc} (hpc : pc ≠ .localEmit) :
    Quiet s (s.abortExec pc).1 (s.abortExec pc).2.2 := by
  cases pc with
  | clear => exact quiet_dropped rfl
  | localEmit => exact absurd rfl hpc
  | exchange | localTest | reset => exact quiet_nil rfl

/-- The steps of the worker that emit nothing. -/
theorem workerExec_quiet {pc : WorkerPc} (hbegin : ∀ n, pc ≠ .beginEmit n)
    (hend : ∀ why, pc ≠ .localEmit why) (habort : ∀ n, pc ≠ .abort n .localEmit) :
    Quiet s (s.workerExec pc).1 (s.workerExec pc).2.2 := by
  cases pc with
  | beginEmit n => exact absurd rfl (hbegin n)
  | localEmit why => exact absurd rfl (hend why)
  | waiting =>
    simp only [workerExec]
    split <;> (try split_ifs) <;> exact quiet_nil rfl
  | burst why left =>
    cases left with
    | zero => exact quiet_nil rfl
    | succ left =>
      simp only [workerExec]
      split_ifs
      · exact quiet_nil rfl
      · exact quiet_nil rfl
      · exact ⟨rfl, by simp⟩
  | voiceFeed item =>
    simp only [workerExec]
    split_ifs
    · exact ⟨rfl, by simp⟩
    · exact quiet_nil rfl
  | endDone why => cases why <;> exact quiet_nil rfl
  | abort n pc =>
    have hq : Quiet s (s.abortExec pc).1 (s.abortExec pc).2.2 := by
      apply abortExec_quiet
      rintro rfl
      exact habort n rfl
    simp only [workerExec]
    split <;> next heq => rwa [heq] at hq
  | _ => exact quiet_nil rfl

/-- The worker emits `LocalTxStart` only while nothing is published, `LocalTxEnd` only while the
transmission is. -/
theorem TransmitInv.worker_publish (h : TransmitInv s) :
    (TxPipeline.step s .worker).2.foldlM TxOutput.publish s.localTxActive =
      some (next TxPipeline.step s .worker).localTxActive := by
  have hquiet : ∀ {pc}, s.worker = pc → Quiet s (s.workerExec pc).1 (s.workerExec pc).2.2 →
      (TxPipeline.step s .worker).2.foldlM TxOutput.publish s.localTxActive =
        some (next TxPipeline.step s .worker).localTxActive := by
    rintro pc rfl hq
    exact hq.publish
  have hemit : ∀ {pc}, s.worker = pc → s.teardown.phase ≠ .ending →
      (TxPipeline.step s .worker).2 = (s.workerExec pc).2.2 ∧
        (next TxPipeline.step s .worker).localTxActive = (s.workerExec pc).1.localTxActive ∧
          s.InPhase pc.phase := by
    rintro pc rfl hne
    exact ⟨rfl, rfl, h.flags_at rfl hne⟩
  cases hpc : s.worker with
  | beginEmit n =>
    obtain ⟨hout, hactive, -, hoff⟩ :=
      hemit hpc (h.not_ending_of_online (by rw [hpc]; rfl))
    rw [hout, hactive, hoff]
    rfl
  | localEmit why =>
    obtain ⟨hout, hactive, -, hon⟩ :=
      hemit hpc (h.not_ending_of_online (by rw [hpc]; rfl))
    rw [hout, hactive, hon]
    rfl
  | abort n pc =>
    cases pc with
    | localEmit =>
      obtain ⟨hout, hactive, -, hon⟩ :=
        hemit hpc (h.not_ending_of_ending (by rw [hpc]; rfl))
      rw [hout, hactive, hon]
      rfl
    | _ => exact hquiet hpc (workerExec_quiet nofun nofun nofun)
  | _ => exact hquiet hpc (workerExec_quiet nofun nofun nofun)

theorem teardownExec_quiet {pc : TeardownPc} (hpc : pc ≠ .abort .localEmit) :
    Quiet s (s.teardownExec pc).1 (s.teardownExec pc).2.2 := by
  cases pc with
  | join =>
    simp only [teardownExec]
    split_ifs <;> exact quiet_nil rfl
  | clearQueue => exact quiet_dropped rfl
  | abort pc =>
    have hq : Quiet s (s.abortExec pc).1 (s.abortExec pc).2.2 := by
      apply abortExec_quiet
      rintro rfl
      exact hpc rfl
    simp only [teardownExec]
    split <;> next heq => rwa [heq] at hq
  | _ => exact quiet_nil rfl

theorem TransmitInv.teardown_publish (h : TransmitInv s) :
    (TxPipeline.step s .teardown).2.foldlM TxOutput.publish s.localTxActive =
      some (next TxPipeline.step s .teardown).localTxActive := by
  by_cases hpc : s.teardown = .abort .localEmit
  · have hflags := h.flags
    rw [phase, if_pos (by rw [hpc]; rfl)] at hflags
    simp only [next, TxPipeline.step, hpc, teardownExec, abortExec, hflags.2]
    rfl
  · exact Quiet.publish (teardownExec_quiet (s := s) hpc)

theorem TransmitInv.publish (h : TransmitInv s) (a : TxAction) :
    (TxPipeline.step s a).2.foldlM TxOutput.publish s.localTxActive =
      some (next TxPipeline.step s a).localTxActive := by
  cases a with
  | worker => exact h.worker_publish
  | teardown => exact h.teardown_publish
  | submit k op =>
    simp only [next, TxPipeline.step]
    split_ifs <;> rfl
  | push k =>
    simp only [next, TxPipeline.step]
    split
    · next op _ =>
      apply Quiet.publish
      unfold push
      split_ifs
      all_goals first | exact quiet_nil rfl | exact quiet_dropped rfl
    · rfl
  | ensure k =>
    simp only [next, TxPipeline.step]
    split_ifs
    · unfold ensureTxWorkerStarted
      split_ifs <;> rfl
    · rfl
  | stopTxPipeline =>
    simp only [next, TxPipeline.step]
    split_ifs <;> rfl
  | elapse | lose | stop | forgetWelcome => rfl

theorem publish_without_start {mid : List TxOutput} (hmid : .localTxStart ∉ mid) :
    (∀ b, mid.foldlM TxOutput.publish false = some b → b = false ∧ mid.count .localTxEnd = 0) ∧
      (mid.foldlM TxOutput.publish true = some false → mid.count .localTxEnd = 1) := by
  induction mid with
  | nil => exact ⟨fun b hb => ⟨(Option.some.inj hb).symm, rfl⟩, nofun⟩
  | cons o mid ih =>
    obtain ⟨hoff, hon⟩ := ih fun h => hmid (List.mem_cons_of_mem _ h)
    cases o with
    | localTxStart => exact absurd List.mem_cons_self hmid
    | localTxEnd =>
      refine ⟨nofun, fun h => ?_⟩
      rw [List.count_cons_self, (hoff false h).2]
    | fed n | eof n | dropped n =>
      have hcount : ∀ {o : TxOutput}, o ≠ .localTxEnd →
          (o :: mid).count .localTxEnd = mid.count .localTxEnd := fun ho =>
        List.count_cons_of_ne ho
      rw [hcount (by simp)]
      exact ⟨hoff, hon⟩

/-- Events that can be published one after the other alternate. -/
theorem alternates_of_publish {outs : List TxOutput} {b b' : Bool}
    (h : outs.foldlM TxOutput.publish b = some b') : Alternates outs := by
  rintro pre mid post rfl hmid
  rw [List.foldlM_append, Option.bind_eq_bind, Option.bind_eq_some_iff] at h
  obtain ⟨c, -, hstart⟩ := h
  cases c with
  | true => cases hstart
  | false =>
    have hrest : (mid ++ .localTxStart :: post).foldlM TxOutput.publish true = some b' := hstart
    rw [List.foldlM_append, Option.bind_eq_bind, Option.bind_eq_some_iff] at hrest
    obtain ⟨d, hd, hnext⟩ := hrest
    cases d with
    | true => cases hnext
    | false => exact (publish_without_start hmid).2 hd

theorem TransmitInv.agree_at_rest (h : TransmitInv s) (hrest : s.AtRest) :
    s.localTxActive = s.clientTxOpen := by
  obtain ⟨hidle, htear⟩ := hrest
  have hflags : s.InPhase s.worker.phase := h.flags_at rfl (by rw [htear]; nofun)
  cases hpc : s.worker with
  | absent | finished | waiting =>
    rw [hpc] at hflags
    exact hflags
  | _ =>
    rw [hpc] at hidle
    cases hidle

/-- What is published is what the events say. -/
theorem published_eq (sessionId : ℕ) (now : ℤ) {as : List TxAction}
    (h : Along (next step) Uncut (welcomed sessionId now) as) :
    (outputs step (welcomed sessionId now) as).foldlM TxOutput.publish false =
      some (after (next step) (welcomed sessionId now) as).localTxActive :=
  foldlM_outputs (fun _ a hI hC => hI.step a hC) (fun _ a hI _ => hI.publish a)
    (transmitInv_welcomed sessionId now) h

theorem transmit_state_consistent (sessionId : ℕ) (now : ℤ) (as : List TxAction)
    (h : Along (next step) Uncut (welcomed sessionId now) as) :
    ((after (next step) (welcomed sessionId now) as).AtRest →
      (after (next step) (welcomed sessionId now) as).localTxActive =
        (after (next step) (welcomed sessionId now) as).clientTxOpen) ∧
      Alternates (outputs step (welcomed sessionId now) as) := by
  have hinv : TransmitInv (after (next step) (welcomed sessionId now) as) :=
    invariant_along (fun _ a hI hC => hI.step a hC) (transmitInv_welcomed sessionId now) h
  exact ⟨hinv.agree_at_rest, alternates_of_publish (published_eq sessionId now h)⟩

/-- A transmission is opened and closed, and the connection is lost after `m` steps of the worker
in the close. -/
def closeAndLose (m : ℕ) : List TxAction :=
  submits .txOpen ++ List.replicate 7 .worker ++ submits .txClose ++ List.replicate m .worker ++
    [.lose] ++ List.replicate 12 .worker

/-- Between the burst and its last datagram the loss does no harm. -/
theorem transmit_state_consistent_lost_in_burst :
    (after (next step) (welcomed 7 0) (closeAndLose 6)).localTxActive =
      (after (next step) (welcomed 7 0) (closeAndLose 6)).clientTxOpen :=
  (transmit_state_consistent 7 0 (closeAndLose 6) (by decide +kernel)).1 (by decide +kernel)

/-- The connection is lost after `txEndInternal` has tested it. -/
theorem close_cut_by_loss :
    (after (next step) (welcomed 7 0) (closeAndLose 2)).AtRest ∧
      (after (next step) (welcomed 7 0) (closeAndLose 2)).localTxActive = true ∧
        (after (next step) (welcomed 7 0) (closeAndLose 2)).clientTxOpen = false := by
  decide +kernel

end TxPipeline

end OWalkie
