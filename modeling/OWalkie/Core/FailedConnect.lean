import OWalkie.Core.SessionManager

/-!
# Connects that fail for good

`connect` gives a session up with `releaseSession` while it holds the `sessionOpMu` that
`takeSessionForTeardown` waits for, so the release always runs into its deadline and the session
stays registered.  `ManagerInv` is the discipline of the lock: only its holder erases a session, and
a session whose `connect` has passed the look at `userIntent` under the lock is registered.
-/

namespace OWalkie

open Run

namespace Manager

/-- What the steps of the lock protocol are about. -/
def registry (s : Manager) := (s.sessions, s.nextId, s.userIntent, s.sessionOpMu)

/-- Ids are given out once, and a session that is not registered is not wanted. -/
structure Registered (s : Manager) : Prop where
  nodup : s.sessions.Nodup
  fresh : ∀ id ∈ s.sessions, id < s.nextId
  quit : ∀ id < s.nextId, id ∉ s.sessions → s.userIntent id = false

/-- What a `connect` relies on. -/
def ConnectInv (s : Manager) (k : ℕ) (id : SessionId) : ConnectPc → Prop
  | .find | .returning _ false => True
  | .intentFound | .readyFound | .lock | .returning _ true => id < s.nextId
  | .intentLocked => id < s.nextId ∧ s.sessionOpMu id = some k
  | .unlock _ fatal => s.sessionOpMu id = some k ∧ (fatal = true → id ∈ s.sessions)
  | _ => id ∈ s.sessions ∧ s.sessionOpMu id = some k

/-- What a thread in `takeSessionForTeardown` relies on. -/
def TakeInv (s : Manager) (k : ℕ) (id : SessionId) : TakePc → Prop
  | .head | .find => True
  | .signal => id < s.nextId
  | .tryLock => id < s.nextId ∧ s.userIntent id = false
  | .erase => id < s.nextId ∧ s.userIntent id = false ∧ s.sessionOpMu id = some k

def ThreadInv (s : Manager) (k : ℕ) : ManagerPc → Prop
  | .connect id _ pc => s.ConnectInv k id pc
  | .take (.release _ _) id _ pc => pc ≠ .erase ∧ id ∈ s.sessions ∧ s.sessionOpMu id = some k
  | .take _ id _ pc => s.TakeInv k id pc
  | .close (.release _ _) _ | .unlock (.release _ _) _ => False
  | .close _ id | .unlock _ id =>
    id < s.nextId ∧ id ∉ s.sessions ∧ s.sessionOpMu id = some k
  | .idle | .insertBridge _ | .eraseBridge _ | .retry _ _ _ | .signalAll _ | .listIds => True

structure ManagerInv (s : Manager) : Prop where
  registered : s.Registered
  threads : ∀ k, s.ThreadInv k (s.pc k)

/-- What a step of the thread `j` leaves to the others. -/
structure Guarantee (s s' : Manager) (j : ℕ) : Prop where
  registered : s'.Registered
  nextId : s.nextId ≤ s'.nextId
  intent : ∀ id < s.nextId, s.userIntent id = false → s'.userIntent id = false
  mutex : ∀ id k, k ≠ j → s.sessionOpMu id = some k → s'.sessionOpMu id = some k
  kept : ∀ id k, k ≠ j → s.sessionOpMu id = some k → id ∈ s.sessions → id ∈ s'.sessions
  gone : ∀ id < s.nextId, id ∉ s.sessions → id ∉ s'.sessions

variable {s s' : Manager} {j k : ℕ} {id : SessionId}

/-! ## What a step does to the registry -/

theorem Guarantee.of_registry (h : s.Registered) (hr : s'.registry = s.registry) :
    Guarantee s s' j := by
  simp only [registry, Prod.mk.injEq] at hr
  obtain ⟨hs, hn, hu, hm⟩ := hr
  refine ⟨⟨?_, ?_, ?_⟩, ?_, ?_, ?_, ?_, ?_⟩
  · rw [hs]
    exact h.nodup
  · rw [hs, hn]
    exact h.fresh
  · rw [hs, hn, hu]
    exact h.quit
  · rw [hn]
  · rw [hu]
    exact fun _ _ hq => hq
  · rw [hm]
    exact fun _ _ _ ho => ho
  · rw [hs]
    exact fun _ _ _ _ hid => hid
  · rw [hs]
    exact fun _ _ hid => hid

theorem Guarantee.lock (h : s.Registered) (hfree : s.sessionOpMu id = none) :
    Guarantee s { s with sessionOpMu := Function.update s.sessionOpMu id (some j) } j := by
  refine ⟨⟨h.nodup, h.fresh, h.quit⟩, le_rfl, fun _ _ hq => hq, fun id' k hk ho => ?_,
    fun _ _ _ _ hid => hid, fun _ _ hid => hid⟩
  refine (Function.update_of_ne ?_ _ _).trans ho
  rintro rfl
  rw [hfree] at ho
  cases ho

theorem Guarantee.unlock (h : s.Registered) (hown : s.sessionOpMu id = some j) :
    Guarantee s { s with sessionOpMu := Function.update s.sessionOpMu id none } j := by
  refine ⟨⟨h.nodup, h.fresh, h.quit⟩, le_rfl, fun _ _ hq => hq, fun id' k hk ho => ?_,
    fun _ _ _ _ hid => hid, fun _ _ hid => hid⟩
  refine (Function.update_of_ne ?_ _ _).trans ho
  rintro rfl
  rw [hown] at ho
  exact hk (Option.some.inj ho).symm

theorem Guarantee.signal (h : s.Registered) :
    Guarantee s { s with userIntent := Function.update s.userIntent id false } j := by
  have hkeep : ∀ id', s.userIntent id' = false →
      Function.update s.userIntent id false id' = false := by
    intro id' hq
    rw [Function.update_apply]
    split_ifs
    · rfl
    · exact hq
  exact ⟨⟨h.nodup, h.fresh, fun id' hlt hid => hkeep id' (h.quit id' hlt hid)⟩, le_rfl,
    fun id' _ hq => hkeep id' hq, fun _ _ _ ho => ho, fun _ _ _ _ hid => hid, fun _ _ hid => hid⟩

theorem Guarantee.erase (h : s.Registered) (hquit : s.userIntent id = false)
    (hown : s.sessionOpMu id = some j) :
    Guarantee s { s with sessions := s.sessions.erase id } j := by
  refine ⟨⟨h.nodup.erase id, fun id' hid => h.fresh id' (List.mem_of_mem_erase hid), ?_⟩, le_rfl,
    fun _ _ hq => hq, fun _ _ _ ho => ho, ?_,
    fun id' _ hid hid' => hid (List.mem_of_mem_erase hid')⟩
  · intro id' hlt hid
    by_cases heq : id' = id
    · rw [heq]
      exact hquit
    · exact h.quit id' hlt fun hmem => hid ((List.mem_erase_of_ne heq).2 hmem)
  · intro id' k hk ho hid
    refine (List.mem_erase_of_ne ?_).2 hid
    rintro rfl
    rw [hown] at ho
    exact hk (Option.some.inj ho).symm

/-- A new session is registered. -/
theorem Guarantee.register (h : s.Registered)
    (hs : s'.sessions = s.sessions ++ [s.nextId]) (hn : s'.nextId = s.nextId + 1)
    (hu : s'.userIntent = Function.update s.userIntent s.nextId true)
    (hm : s'.sessionOpMu = s.sessionOpMu) : Guarantee s s' j := by
  have hnew : s.nextId ∉ s.sessions := fun hmem => lt_irrefl _ (h.fresh _ hmem)
  have hold : ∀ id < s.nextId, id ∈ s'.sessions → id ∈ s.sessions := by
    intro id hlt hid
    rw [hs] at hid
    rcases List.mem_append.1 hid with hid | hid
    · exact hid
    · obtain rfl := List.mem_singleton.1 hid
      exact absurd hlt (lt_irrefl _)
  have hintent : ∀ id < s.nextId, s'.userIntent id = s.userIntent id := by
    intro id hlt
    rw [hu, Function.update_of_ne hlt.ne]
  refine ⟨⟨?_, ?_, ?_⟩, by rw [hn]; exact Nat.le_succ _, ?_, ?_, ?_, ?_⟩
  · rw [hs]
    exact List.nodup_append.2 ⟨h.nodup, List.pairwise_singleton _ _, fun a ha b hb heq => hnew (by
      rw [← List.mem_singleton.1 hb, ← heq]
      exact ha)⟩
  · intro id hid
    rw [hs] at hid
    rw [hn]
    rcases List.mem_append.1 hid with hid | hid
    · exact Nat.lt_succ_of_lt (h.fresh id hid)
    · obtain rfl := List.mem_singleton.1 hid
      exact Nat.lt_succ_self _
  · intro id hlt hid
    rw [hn] at hlt
    have hne : id ≠ s.nextId := by
      rintro rfl
      apply hid
      rw [hs]
      exact List.mem_append_right _ (List.mem_singleton_self _)
    have hlt' : id < s.nextId := lt_of_le_of_ne (Nat.lt_succ_iff.1 hlt) hne
    rw [hintent id hlt']
    exact h.quit id hlt' fun hmem => hid (by rw [hs]; exact List.mem_append_left _ hmem)
  · intro id hlt hq
    rw [hintent id hlt, hq]
  · rw [hm]
    exact fun _ _ _ ho => ho
  · intro id _ _ _ hid
    rw [hs]
    exact List.mem_append_left _ hid
  · exact fun id hlt hid hid' => hid (hold id hlt hid')

/-! ## The threads -/

/-- What a thread relies on survives the steps of the others. -/
theorem ThreadInv.stable {pc : ManagerPc} (hg : Guarantee s s' j) (hk : k ≠ j)
    (h : s.ThreadInv k pc) : s'.ThreadInv k pc := by
  have hlt : ∀ {id}, id < s.nextId → id < s'.nextId := fun hid => hid.trans_le hg.nextId
  have hheld : ∀ {id}, id ∈ s.sessions ∧ s.sessionOpMu id = some k →
      id ∈ s'.sessions ∧ s'.sessionOpMu id = some k :=
    fun hid => ⟨hg.kept _ k hk hid.2 hid.1, hg.mutex _ k hk hid.2⟩
  cases pc with
  | connect id timeoutMs pc =>
    cases pc with
    | find => trivial
    | intentFound | readyFound | lock => exact hlt h
    | intentLocked => exact ⟨hlt h.1, hg.mutex id k hk h.2⟩
    | unlock r fatal => exact ⟨hg.mutex id k hk h.1, fun hf => hg.kept id k hk h.1 (h.2 hf)⟩
    | returning r fatal =>
      cases fatal with
      | false => trivial
      | true => exact hlt h
    | _ => exact hheld h
  | take caller id deadline pc =>
    have htake : s.TakeInv k id pc → s'.TakeInv k id pc := by
      intro ht
      cases pc with
      | head | find => trivial
      | signal => exact hlt ht
      | tryLock => exact ⟨hlt ht.1, hg.intent id ht.1 ht.2⟩
      | erase => exact ⟨hlt ht.1, hg.intent id ht.1 ht.2.1, hg.mutex id k hk ht.2.2⟩
    cases caller with
    | release timeoutMs r => exact ⟨h.1, hheld h.2⟩
    | disconnect | haltAndRelease => exact htake h
  | close caller id | unlock caller id =>
    cases caller with
    | release => exact h.elim
    | disconnect | haltAndRelease =>
      exact ⟨hlt h.1, hg.gone id h.1 h.2.1, hg.mutex id k hk h.2.2⟩
  | _ => trivial

theorem deliver_registry (s : Manager) (id : SessionId) (e : Event) :
    (s.deliver id e).registry = s.registry := by
  unfold deliver
  split_ifs <;> rfl

theorem deliver_sessions (s : Manager) (id : SessionId) (e : Event) :
    (s.deliver id e).sessions = s.sessions :=
  congrArg Prod.fst (deliver_registry s id e)

theorem deliver_pc (s : Manager) (id : SessionId) (e : Event) : (s.deliver id e).pc = s.pc := by
  unfold deliver
  split_ifs <;> rfl

/-- A step of a thread keeps to the discipline, and the thread has what it relies on after it. -/
def Follows (s : Manager) (k : ℕ) (r : Manager × ManagerPc) : Prop :=
  Guarantee s r.1 k ∧ r.1.ThreadInv k r.2

/-- A step that changes neither a lock nor a registration. -/
theorem follows_of_registry {pc : ManagerPc} (h : s.Registered) (hr : s'.registry = s.registry)
    (hpc : s.ThreadInv k pc) : Follows s k (s', pc) :=
  ⟨.of_registry h hr, hpc.stable (.of_registry h hr) (Nat.succ_ne_self k).symm⟩

/-- A thread gives up the lock that it holds. -/
theorem follows_unlock {pc : ManagerPc} (h : s.Registered) (hown : s.sessionOpMu id = some k)
    (hpc : ({ s with sessionOpMu := Function.update s.sessionOpMu id none } : Manager).ThreadInv k
      pc) :
    Follows s k ({ s with sessionOpMu := Function.update s.sessionOpMu id none }, pc) :=
  ⟨.unlock h hown, hpc⟩

theorem startTake_inv (s : Manager) (k : ℕ) (caller : TakeCaller) (id : SessionId)
    (h : ∀ timeoutMs r, caller = .release timeoutMs r →
      id ∈ s.sessions ∧ s.sessionOpMu id = some k) : s.ThreadInv k (s.startTake caller id) := by
  cases caller with
  | release timeoutMs r => exact ⟨nofun, h timeoutMs r rfl⟩
  | disconnect | haltAndRelease => trivial

theorem nextDisconnect_inv (s : Manager) (k : ℕ) (rest : Option (List SessionId)) :
    s.ThreadInv k (s.nextDisconnect rest) := by
  rcases rest with _ | _ | ⟨id, rest⟩ <;> trivial

theorem connect_follows (h : s.Registered) (attempt : Result) (timeoutMs : ℤ) {pc : ConnectPc}
    (hpc : s.ConnectInv k id pc) : Follows s k (s.connectExec k attempt id timeoutMs pc) := by
  cases pc with
  | find =>
    refine follows_of_registry h rfl ?_
    split_ifs with hid
    · exact h.fresh id hid
    · trivial
  | intentFound =>
    refine follows_of_registry h rfl ?_
    split_ifs
    · exact hpc
    · trivial
  | readyFound =>
    refine follows_of_registry h rfl ?_
    split_ifs
    · trivial
    · exact hpc
  | lock =>
    simp only [connectExec]
    split_ifs with hfree
    · exact ⟨.lock h hfree, hpc, Function.update_self ..⟩
    · exact follows_of_registry h rfl hpc
  | intentLocked =>
    refine follows_of_registry h rfl ?_
    split_ifs with hwanted
    · refine ⟨?_, hpc.2⟩
      by_contra hid
      rw [h.quit id hpc.1 hid] at hwanted
      cases hwanted
    · exact ⟨hpc.2, nofun⟩
  | settle | reconnectTeardown => exact follows_of_registry h rfl hpc
  | preConnectHook => exact follows_of_registry h rfl hpc
  | readyLocked | intentSettled | readySettled | oldTest | oldReady | intentTorn | intentHooked
  | reconnectConnect =>
    refine follows_of_registry h rfl ?_
    split_ifs <;> first | exact hpc | exact ⟨hpc.2, nofun⟩
  | oldWait | newWait | outcome =>
    refine follows_of_registry h rfl ?_
    split_ifs <;> first | exact hpc | exact ⟨hpc.2, nofun⟩
  | emitFailed r =>
    exact follows_of_registry h (deliver_registry ..) (startTake_inv s k _ id fun _ _ _ => hpc)
  | unlock r fatal =>
    refine follows_unlock h hpc.1 ?_
    cases fatal with
    | false => trivial
    | true => exact h.fresh id (hpc.2 rfl)
  | returning => exact follows_of_registry h rfl trivial

/-- `releaseSession` never gets the session: the `connect` that calls it holds the lock. -/
theorem release_follows (h : s.Registered) {timeoutMs : ℤ} {r : Result} {deadline : ℕ} {pc : TakePc}
    (hpc : s.ThreadInv k (.take (.release timeoutMs r) id deadline pc)) :
    Follows s k (s.takeExec k (.release timeoutMs r) id deadline pc) := by
  obtain ⟨hne, hid, hown⟩ := hpc
  cases pc with
  | head =>
    refine follows_of_registry h rfl ?_
    split_ifs
    · exact ⟨nofun, hid, hown⟩
    · exact ⟨hown, fun _ => hid⟩
  | find =>
    refine follows_of_registry h rfl ?_
    rw [if_pos hid]
    exact ⟨nofun, hid, hown⟩
  | signal => exact ⟨.signal h, nofun, hid, hown⟩
  | tryLock =>
    have hlocked : s.sessionOpMu id ≠ none := by simp [hown]
    simp only [takeExec, if_neg hlocked]
    exact follows_of_registry h rfl ⟨nofun, hid, hown⟩
  | erase => exact absurd rfl hne

theorem takeFailed_inv (s : Manager) (k : ℕ) {caller : TakeCaller} (id : SessionId)
    (hcaller : ∀ timeoutMs r, caller ≠ .release timeoutMs r) :
    s.ThreadInv k (takeFailed id caller) := by
  cases caller with
  | release timeoutMs r => exact absurd rfl (hcaller timeoutMs r)
  | disconnect | haltAndRelease => trivial

theorem threadInv_take {caller : TakeCaller} {deadline : ℕ} {pc : TakePc}
    (hcaller : ∀ timeoutMs r, caller ≠ .release timeoutMs r) :
    s.ThreadInv k (.take caller id deadline pc) ↔ s.TakeInv k id pc := by
  cases caller with
  | release timeoutMs r => exact absurd rfl (hcaller timeoutMs r)
  | disconnect | haltAndRelease => rfl

theorem threadInv_close {caller : TakeCaller}
    (hcaller : ∀ timeoutMs r, caller ≠ .release timeoutMs r) :
    s.ThreadInv k (.close caller id) ↔
      id < s.nextId ∧ id ∉ s.sessions ∧ s.sessionOpMu id = some k := by
  cases caller with
  | release timeoutMs r => exact absurd rfl (hcaller timeoutMs r)
  | disconnect | haltAndRelease => rfl

theorem take_follows (h : s.Registered) {caller : TakeCaller} {deadline : ℕ} {pc : TakePc}
    (hcaller : ∀ timeoutMs r, caller ≠ .release timeoutMs r) (hpc : s.TakeInv k id pc) :
    Follows s k (s.takeExec k caller id deadline pc) := by
  have hfailed : ∀ s' : Manager, s'.ThreadInv k (takeFailed id caller) :=
    fun s' => takeFailed_inv s' k id hcaller
  cases pc with
  | head =>
    refine follows_of_registry h rfl ?_
    split_ifs
    · exact (threadInv_take hcaller).2 trivial
    · exact hfailed s
  | find =>
    refine follows_of_registry h rfl ?_
    split_ifs with hid
    · exact (threadInv_take hcaller).2 (h.fresh id hid)
    · exact hfailed s
  | signal => exact ⟨.signal h, (threadInv_take hcaller).2 ⟨hpc, Function.update_self ..⟩⟩
  | tryLock =>
    simp only [takeExec]
    split_ifs with hfree
    · exact ⟨.lock h hfree, (threadInv_take hcaller).2 ⟨hpc.1, hpc.2, Function.update_self ..⟩⟩
    · exact follows_of_registry h rfl ((threadInv_take hcaller).2 trivial)
  | erase =>
    simp only [takeExec]
    split_ifs with hid
    · exact ⟨.erase h hpc.2.1 hpc.2.2,
        (threadInv_close hcaller).2 ⟨hpc.1, h.nodup.not_mem_erase, hpc.2.2⟩⟩
    · exact follows_unlock h hpc.2.2 (hfailed _)

theorem exec_follows (h : s.Registered) (attempt : Result) {pc : ManagerPc}
    (hpc : s.ThreadInv k pc) : Follows s k (s.exec k attempt pc) := by
  cases pc with
  | idle | insertBridge => exact follows_of_registry h rfl trivial
  | connect id timeoutMs pc => exact connect_follows h attempt timeoutMs hpc
  | eraseBridge id => exact follows_of_registry h rfl trivial
  | take caller id deadline pc =>
    cases caller with
    | release timeoutMs r => exact release_follows h hpc
    | disconnect | haltAndRelease => exact take_follows h nofun hpc
  | close caller id =>
    cases caller with
    | release => exact hpc.elim
    | disconnect attempt' rest =>
      exact follows_of_registry h (deliver_registry _ id _) hpc
    | haltAndRelease => exact follows_of_registry h rfl hpc
  | unlock caller id =>
    cases caller with
    | release => exact hpc.elim
    | disconnect attempt' rest => exact follows_unlock h hpc.2.2 (nextDisconnect_inv _ k rest)
    | haltAndRelease => exact follows_unlock h hpc.2.2 trivial
  | retry attempt' rest id =>
    refine follows_of_registry h rfl ?_
    split_ifs
    · trivial
    · exact nextDisconnect_inv s k rest
  | signalAll left =>
    cases left with
    | nil => exact follows_of_registry h rfl trivial
    | cons id left => exact ⟨.signal h, trivial⟩
  | listIds => exact follows_of_registry h rfl (nextDisconnect_inv s k _)

/-! ## The steps -/

theorem ManagerInv.other (h : ManagerInv s) (hr : s'.registry = s.registry) (hpc : s'.pc = s.pc) :
    ManagerInv s' := by
  refine ⟨(Guarantee.of_registry (j := 0) h.registered hr).registered, fun k => ?_⟩
  rw [hpc]
  exact (follows_of_registry h.registered hr (h.threads k)).2

/-- A step of one thread. -/
theorem ManagerInv.thread {pc : ManagerPc} (h : ManagerInv s) (hf : Follows s k (s', pc)) :
    ManagerInv { s' with pc := Function.update s.pc k pc } := by
  have hr : ({ s' with pc := Function.update s.pc k pc } : Manager).registry = s'.registry := rfl
  refine ⟨(Guarantee.of_registry (j := 0) hf.1.registered hr).registered, fun k' => ?_⟩
  by_cases hk : k' = k
  · subst hk
    simp only [Function.update_self]
    exact (follows_of_registry hf.1.registered hr hf.2).2
  · simp only [Function.update_of_ne hk]
    exact (follows_of_registry hf.1.registered hr ((h.threads k').stable hf.1 hk)).2

theorem begin_follows (h : s.Registered) (c : ManagerCall) (hidle : s.pc k = .idle) :
    ∃ s' pc, s.begin k c = { s' with pc := Function.update s.pc k pc } ∧
      Follows s k (s', pc) := by
  cases c with
  | prepareConnection =>
    by_cases hfull : kMaxManagedSessions ≤ s.sessions.length
    · exact ⟨s, .idle, by simp [begin, hfull, ← hidle], follows_of_registry h rfl trivial⟩
    · refine ⟨{ s with
          sessions := s.sessions ++ [s.nextId]
          nextId := s.nextId + 1
          userIntent := Function.update s.userIntent s.nextId true }, .insertBridge s.nextId,
        by simp [begin, hfull, setPc], .register h rfl rfl rfl rfl, trivial⟩
  | connect id timeoutMs => exact ⟨s, _, rfl, follows_of_registry h rfl trivial⟩
  | disconnect id =>
    by_cases hid : id = 0
    · exact ⟨s, .idle, by simp [begin, hid, ← hidle], follows_of_registry h rfl trivial⟩
    · exact ⟨s, .eraseBridge id, by simp [begin, hid, setPc], follows_of_registry h rfl trivial⟩
  | haltAndRelease id => exact ⟨s, _, rfl, follows_of_registry h rfl trivial⟩
  | disconnectAll => exact ⟨s, _, rfl, follows_of_registry h rfl trivial⟩

theorem ManagerInv.step (h : ManagerInv s) (a : ManagerAction) : ManagerInv (s.step a) := by
  cases a with
  | elapse ms => exact h.other rfl rfl
  | call k c =>
    simp only [Manager.step]
    split_ifs with hidle
    · obtain ⟨s', pc, heq, hf⟩ := begin_follows h.registered c hidle
      rw [heq]
      exact h.thread hf
    · exact h
  | run k attempt => exact h.thread (exec_follows h.registered attempt (h.threads k))
  | transport id isConnected isSessionReady => exact h.other rfl rfl
  | event id e =>
    have hdeliver : ManagerInv (s.deliver id e) :=
      h.other (deliver_registry s id e) (deliver_pc s id e)
    simp only [Manager.step]
    split
    · exact h
    · split_ifs
      · exact hdeliver
      · exact h
    · exact hdeliver

theorem managerInv_init : ManagerInv {} :=
  ⟨⟨List.nodup_nil, nofun, fun _ _ _ => rfl⟩, fun _ => trivial⟩

theorem managerInv_after (as : List ManagerAction) : ManagerInv (after step {} as) :=
  invariant (fun _ a h => h.step a) managerInv_init as

/-! ## What becomes of the session -/

/-- A thread that has taken the session for its teardown erases it. -/
def Erases (id : SessionId) (s : Manager) (a : ManagerAction) : Prop :=
  ∃ j attempt caller deadline, a = .run j attempt ∧ s.pc j = .take caller id deadline .erase

/-- The thread gives `sessionOpMu` back at the end of a `connect`. -/
def EndsConnect (k : ℕ) (s : Manager) (a : ManagerAction) : Prop :=
  ∃ attempt id timeoutMs r fatal, a = .run k attempt ∧
    s.pc k = .connect id timeoutMs (.unlock r fatal)

/-- The session is not registered, and takes none of the places. -/
def Released (s : Manager) (id : SessionId) : Prop :=
  s.isValid id = false ∧ s.sessions.count id = 0

instance (s : Manager) (id : SessionId) : Decidable (s.Released id) :=
  inferInstanceAs (Decidable (_ ∧ _))

theorem released_iff : Released s id ↔ id ∉ s.sessions := by
  unfold Released isValid
  rw [List.count_eq_zero]
  refine ⟨fun hr => hr.2, fun hid => ⟨?_, hid⟩⟩
  simp [hid]

theorem connectExec_sessions (s : Manager) (k : ℕ) (attempt : Result) (id : SessionId)
    (timeoutMs : ℤ) (pc : ConnectPc) :
    (s.connectExec k attempt id timeoutMs pc).1.sessions = s.sessions := by
  cases pc with
  | lock =>
    simp only [connectExec]
    split_ifs <;> rfl
  | emitFailed r => exact deliver_sessions ..
  | _ => rfl

theorem exec_sessions (s : Manager) (k : ℕ) (attempt : Result) {pc : ManagerPc}
    (hpc : ∀ caller id deadline, pc ≠ .take caller id deadline .erase) :
    (s.exec k attempt pc).1.sessions = s.sessions := by
  cases pc with
  | connect id timeoutMs pc => exact connectExec_sessions s k attempt id timeoutMs pc
  | take caller id deadline pc =>
    cases pc with
    | tryLock =>
      simp only [exec, takeExec]
      split_ifs <;> rfl
    | erase => exact absurd rfl (hpc caller id deadline)
    | _ => rfl
  | close caller id =>
    cases caller with
    | disconnect => exact deliver_sessions ..
    | _ => rfl
  | signalAll left => cases left <;> rfl
  | _ => rfl

theorem begin_sessions (k : ℕ) (c : ManagerCall) (hid : id < s.nextId) :
    id ∈ (s.begin k c).sessions ↔ id ∈ s.sessions := by
  cases c with
  | prepareConnection =>
    simp only [begin]
    split_ifs
    · rfl
    · simp [hid.ne]
  | disconnect id' =>
    simp only [begin]
    split_ifs <;> rfl
  | _ => rfl

/-- A session that has been registered stays so until a thread erases it. -/
theorem mem_sessions_step (h : ManagerInv s) (hid : id < s.nextId) (a : ManagerAction) :
    id ∈ (s.step a).sessions ↔ id ∈ s.sessions ∧ ¬ Erases id s a := by
  cases a with
  | run j attempt =>
    by_cases hpc : ∃ caller id' deadline, s.pc j = .take caller id' deadline .erase
    · obtain ⟨caller, id', deadline, hpc⟩ := hpc
      have herases : Erases id s (.run j attempt) ↔ id' = id := by
        constructor
        · rintro ⟨j', attempt', caller', deadline', heq, hpc'⟩
          cases heq
          rw [hpc] at hpc'
          cases hpc'
          rfl
        · rintro rfl
          exact ⟨j, attempt, caller, deadline, rfl, hpc⟩
      have hsessions : (s.step (.run j attempt)).sessions = s.sessions.erase id' := by
        simp only [step, hpc, exec, takeExec]
        split_ifs with hmem
        · rfl
        · exact (List.erase_of_not_mem hmem).symm
      rw [hsessions, h.registered.nodup.mem_erase_iff, herases, and_comm, ne_comm]
    · have hno : ¬ Erases id s (.run j attempt) := by
        rintro ⟨j', attempt', caller, deadline, heq, hpc'⟩
        cases heq
        exact hpc ⟨caller, id, deadline, hpc'⟩
      have hsessions : (s.step (.run j attempt)).sessions = s.sessions :=
        exec_sessions s j attempt fun caller id' deadline heq => hpc ⟨caller, id', deadline, heq⟩
      rw [hsessions]
      exact (and_iff_left hno).symm
  | call k c =>
    have hno : ¬ Erases id s (.call k c) := by
      rintro ⟨j, attempt, caller, deadline, heq, -⟩
      cases heq
    rw [and_iff_left hno]
    simp only [step]
    split_ifs
    · exact begin_sessions k c hid
    · rfl
  | event id' e =>
    have hno : ¬ Erases id s (.event id' e) := by
      rintro ⟨j, attempt, caller, deadline, heq, -⟩
      cases heq
    have hdeliver := deliver_sessions s id' e
    rw [and_iff_left hno]
    simp only [step]
    split
    · rfl
    · split_ifs
      · rw [hdeliver]
      · rfl
    · rw [hdeliver]
  | elapse | transport =>
    refine (and_iff_left ?_).symm
    rintro ⟨j, attempt, caller, deadline, heq, -⟩
    cases heq

theorem nextDisconnect_ne (s : Manager) (rest : Option (List SessionId)) (id : SessionId)
    (timeoutMs : ℤ) (pc : ConnectPc) : s.nextDisconnect rest ≠ .connect id timeoutMs pc := by
  rcases rest with _ | _ | ⟨id', rest⟩ <;> nofun

theorem takeExec_ne_returning {caller : TakeCaller} {id' : SessionId} {deadline : ℕ} {pc : TakePc}
    {timeoutMs : ℤ} {r : Result} :
    (s.takeExec k caller id' deadline pc).2 ≠ .connect id timeoutMs (.returning r true) := by
  have hfailed : takeFailed id' caller ≠ .connect id timeoutMs (.returning r true) := by
    cases caller <;> nofun
  cases pc with
  | head | find =>
    simp only [takeExec]
    split_ifs
    · nofun
    · exact hfailed
  | signal => nofun
  | tryLock =>
    simp only [takeExec]
    split_ifs <;> nofun
  | erase =>
    simp only [takeExec]
    split_ifs
    · nofun
    · exact hfailed

/-- A `connect` that has failed for good returns after it has given the lock back. -/
theorem exec_returning {attempt r : Result} {timeoutMs : ℤ} {pc : ManagerPc}
    (h : (s.exec k attempt pc).2 = .connect id timeoutMs (.returning r true)) :
    pc = .connect id timeoutMs (.unlock r true) := by
  cases pc with
  | connect id' timeoutMs' pc =>
    cases pc with
    | unlock r' fatal =>
      simp only [exec, connectExec, ManagerPc.connect.injEq, ConnectPc.returning.injEq] at h
      obtain ⟨rfl, rfl, rfl, rfl⟩ := h
      rfl
    | lock =>
      simp only [exec, connectExec] at h
      split_ifs at h <;> cases h
    | settle | reconnectTeardown | preConnectHook | emitFailed | returning => cases h
    | _ =>
      simp only [exec, connectExec, ManagerPc.connect.injEq] at h
      have hpc := h.2.2
      split_ifs at hpc <;> cases hpc
  | take caller id' deadline pc => exact absurd h takeExec_ne_returning
  | unlock caller id' =>
    cases caller with
    | disconnect attempt' rest => exact (nextDisconnect_ne _ _ _ _ _ h).elim
    | release | haltAndRelease => cases h
  | retry attempt' rest id' =>
    simp only [exec] at h
    split_ifs at h
    · cases h
    · exact (nextDisconnect_ne _ _ _ _ _ h).elim
  | signalAll left => cases left <;> cases h
  | listIds => exact (nextDisconnect_ne _ _ _ _ _ h).elim
  | close caller id' => cases caller <;> cases h
  | idle | insertBridge | eraseBridge => cases h

theorem begin_returning {c : ManagerCall} {timeoutMs : ℤ} {r : Result} (hidle : s.pc k = .idle) :
    (s.begin k c).pc k ≠ .connect id timeoutMs (.returning r true) := by
  cases c with
  | prepareConnection =>
    simp only [begin]
    split_ifs
    · rw [hidle]
      nofun
    · simp [setPc]
  | disconnect id' =>
    simp only [begin]
    split_ifs
    · rw [hidle]
      nofun
    · simp [setPc]
  | connect | haltAndRelease | disconnectAll => simp [begin, setPc, startTake]

theorem begin_pc_of_ne {c : ManagerCall} (hk : k ≠ j) : (s.begin j c).pc k = s.pc k := by
  have hset : ∀ pc, (s.setPc j pc).pc k = s.pc k := fun pc => Function.update_of_ne hk _ _
  cases c with
  | prepareConnection =>
    simp only [begin]
    split_ifs
    · rfl
    · exact hset _
  | disconnect id' =>
    simp only [begin]
    split_ifs
    · rfl
    · exact hset _
  | connect | haltAndRelease | disconnectAll => exact hset _

/-- How a thread gets to the return of such a `connect`. -/
theorem step_returning {timeoutMs : ℤ} {r : Result} {a : ManagerAction}
    (h : (s.step a).pc k = .connect id timeoutMs (.returning r true)) :
    s.pc k = .connect id timeoutMs (.returning r true) ∨
      ∃ attempt, a = .run k attempt ∧ s.pc k = .connect id timeoutMs (.unlock r true) := by
  cases a with
  | run j attempt =>
    by_cases hj : k = j
    · subst hj
      simp only [step, Function.update_self] at h
      exact Or.inr ⟨attempt, rfl, exec_returning h⟩
    · simp only [step, Function.update_of_ne hj] at h
      exact Or.inl h
  | call j c =>
    simp only [step] at h
    split_ifs at h with hidle
    · by_cases hj : k = j
      · subst hj
        exact absurd h (begin_returning hidle)
      · exact Or.inl (by rwa [begin_pc_of_ne hj] at h)
    · exact Or.inl h
  | event id' e =>
    have hdeliver := deliver_pc s id' e
    simp only [step] at h
    split at h
    · exact Or.inl h
    · split_ifs at h
      · exact Or.inl (by rwa [hdeliver] at h)
      · exact Or.inl h
    · exact Or.inl (by rwa [hdeliver] at h)
  | elapse | transport => exact Or.inl h

/-- A `connect` that has failed for good has released its session when it returns if and only if
another thread has taken the session since the `connect` gave its lock back. -/
theorem failed_connect_released_iff (as : List ManagerAction) (k : ℕ) (id : SessionId)
    (timeoutMs : ℤ) (r : Result)
    (hreturn : (after step {} as).pc k = .connect id timeoutMs (.returning r true)) :
    Released (after step {} as) id ↔ Since step (Erases id) (EndsConnect k) {} as := by
  rw [released_iff]
  induction as using List.reverseRecOn generalizing timeoutMs r with
  | nil => cases hreturn
  | append_singleton as a ih =>
    have hinv := managerInv_after as
    rw [after_snoc] at hreturn ⊢
    rw [since_snoc_iff]
    rcases step_returning hreturn with hbefore | ⟨attempt, rfl, hunlock⟩
    · -- the thread waits to return
      have hlt : id < (after step {} as).nextId := by
        have hthread := hinv.threads k
        rwa [hbefore] at hthread
      have hends : ¬ EndsConnect k (after step {} as) a := by
        rintro ⟨attempt, id', timeoutMs', r', fatal, -, hpc⟩
        rw [hbefore] at hpc
        cases hpc
      rw [mem_sessions_step hinv hlt, not_and_or, not_not, ih timeoutMs r hbefore, or_comm]
      exact or_congr_right (and_iff_left hends).symm
    · -- the thread gives the lock back
      have hthread := hinv.threads k
      rw [hunlock] at hthread
      have hid : id ∈ (after step {} as).sessions := hthread.2 rfl
      have hends : EndsConnect k (after step {} as) (.run k attempt) :=
        ⟨attempt, id, timeoutMs, r, true, rfl, hunlock⟩
      have herases : ¬ Erases id (after step {} as) (.run k attempt) := by
        rintro ⟨j, attempt', caller, deadline, heq, hpc⟩
        cases heq
        rw [hunlock] at hpc
        cases hpc
      rw [mem_sessions_step hinv (hinv.registered.fresh id hid)]
      constructor
      · exact fun hnot => absurd ⟨hid, herases⟩ hnot
      · rintro (he | ⟨-, hr⟩)
        · exact absurd he herases
        · exact absurd hends hr

/-- A session is prepared, and the attempt to connect it ends with `Unsupported`. -/
def unsupportedConnect : List ManagerAction :=
  [.call 0 .prepareConnection, .run 0 .ok, .call 0 (.connect 1 0)] ++
    List.replicate 17 (.run 0 .unsupported) ++ [.elapse 15000, .run 0 .ok, .run 0 .ok]

theorem failed_connect_released_iff_unsupported :
    ¬ Since step (Erases 1) (EndsConnect 0) {} unsupportedConnect := by
  intro herased
  have hreleased := (failed_connect_released_iff unsupportedConnect 0 1 0 .unsupported
    (by decide +kernel)).2 herased
  exact absurd hreleased (by decide +kernel)

/-- After fifteen seconds `connect` returns, and the session is still registered. -/
theorem failed_connect_stays_registered :
    (after step {} unsupportedConnect).pc 0 = .connect 1 0 (.returning .unsupported true) ∧
      (after step {} unsupportedConnect).isValid 1 = true ∧
        (after step {} unsupportedConnect).sessions.length = 1 := by
  decide +kernel

end Manager

end OWalkie
