import OWalkie.Core.FailedConnect

/-!
# The bridges of the registered sessions

`g_managedBridges` holds the callbacks of a session of the C interface, and the bridge is erased
when one of three events is delivered or `owalkie_disconnect` begins; the session is erased by a
teardown only.  `registered_has_bridge`: as long as no `ConnectionFailed` or `ProtocolError` of a
registered session is delivered and no `owalkie_disconnect` gives up, every registered session has
its bridge unless a disconnect of it is in progress.
-/

namespace OWalkie

open Run

/-- The thread is in `owalkie_disconnect` of the session. -/
def ManagerPc.disconnects (id : SessionId) : ManagerPc → Bool
  | .eraseBridge id' | .take (.disconnect _ none) id' _ _ | .close (.disconnect _ none) id'
  | .unlock (.disconnect _ none) id' | .retry _ none id' => id' = id
  | _ => false

namespace Manager

/-- A registered session loses its bridge and stays registered: an event that ends the bridge is
delivered, or `owalkie_disconnect` gives up after five attempts. -/
def LosesBridge (s : Manager) : ManagerAction → Prop
  | .event id (.protocolError _) => id ∈ s.sessions
  | .run k _ =>
    match s.pc k with
    | .connect id _ (.emitFailed _) => id ∈ s.sessions
    | .retry attempt none id => id ∈ s.sessions ∧ 5 ≤ attempt + 1
    | _ => False
  | _ => False

instance (s : Manager) (a : ManagerAction) : Decidable (s.LosesBridge a) := by
  unfold LosesBridge
  split
  · exact inferInstance
  · split <;> exact inferInstance
  · exact inferInstance

/-- The call that prepares the session has returned, and no disconnect of it is in progress. -/
def Settled (s : Manager) (id : SessionId) : Prop :=
  ∀ k, s.pc k ≠ .insertBridge id ∧ (s.pc k).disconnects id = false

/-- The session has its bridge, or a thread is about to insert it, or one disconnects the
session. -/
def Covered (s : Manager) (id : SessionId) : Prop :=
  s.bridges id = true ∨ ∃ k, s.pc k = .insertBridge id ∨ (s.pc k).disconnects id = true

structure BridgeInv (s : Manager) : Prop where
  manager : s.ManagerInv
  told : ∀ id, s.disconnected id = true → id < s.nextId ∧ id ∉ s.sessions
  covered : ∀ id ∈ s.sessions, s.Covered id

variable {s s' : Manager} {k : ℕ} {id : SessionId} {attempt : Result} {pc : ManagerPc}

/-! ## One step of a thread -/

theorem deliver_bridges_of_ne {e : Event} {id' : SessionId} (hne : id ≠ id') :
    (s.deliver id' e).bridges id = s.bridges id := by
  unfold deliver
  split_ifs
  · exact Function.update_of_ne hne _ _
  · rfl

/-- The steps of a thread that take a bridge away. -/
theorem exec_bridges (h : s.bridges id = true) :
    (s.exec k attempt pc).1.bridges id = true ∨ pc = .eraseBridge id ∨
      (∃ timeoutMs r, pc = .connect id timeoutMs (.emitFailed r)) ∨
        ∃ caller, pc = .close caller id := by
  cases pc with
  | insertBridge id' =>
    refine Or.inl ?_
    simp only [exec, Function.update_apply]
    split_ifs
    · rfl
    · exact h
  | connect id' timeoutMs pc =>
    cases pc with
    | lock =>
      refine Or.inl ?_
      simp only [exec, connectExec]
      split_ifs <;> exact h
    | emitFailed r =>
      by_cases hid : id = id'
      · exact Or.inr (Or.inr (Or.inl ⟨timeoutMs, r, by rw [hid]⟩))
      · refine Or.inl ?_
        simp only [exec, connectExec, deliver_bridges_of_ne hid]
        exact h
    | _ => exact Or.inl h
  | eraseBridge id' =>
    by_cases hid : id = id'
    · exact Or.inr (Or.inl (by rw [hid]))
    · exact Or.inl ((Function.update_of_ne hid _ _).trans h)
  | take caller id' deadline pc =>
    refine Or.inl ?_
    cases pc with
    | tryLock | erase =>
      simp only [exec, takeExec]
      split_ifs <;> exact h
    | _ => exact h
  | close caller id' =>
    cases caller with
    | disconnect attempt' rest =>
      by_cases hid : id = id'
      · exact Or.inr (Or.inr (Or.inr ⟨_, by rw [hid]⟩))
      · refine Or.inl ?_
        simp only [exec, deliver_bridges_of_ne hid]
        exact h
    | release | haltAndRelease => exact Or.inl h
  | signalAll left => exact Or.inl (by cases left <;> exact h)
  | _ => exact Or.inl h

/-- A thread leaves the disconnect of a session that is still registered only to give up. -/
theorem exec_disconnects (hpc : s.ThreadInv k pc) (hid : id ∈ s.sessions)
    (hd : pc.disconnects id = true) :
    (s.exec k attempt pc).2.disconnects id = true ∨ ∃ n, pc = .retry n none id ∧ 5 ≤ n + 1 := by
  cases pc with
  | eraseBridge id' => exact Or.inl hd
  | take caller id' deadline pc =>
    cases caller with
    | disconnect n rest =>
      cases rest with
      | none =>
        refine Or.inl ?_
        cases pc with
        | signal => exact hd
        | head | find | tryLock | erase =>
          simp only [exec, takeExec]
          split_ifs <;> exact hd
      | some rest => cases hd
    | release | haltAndRelease => cases hd
  | close caller id' =>
    cases caller with
    | disconnect n rest =>
      cases rest with
      | none => exact Or.inl hd
      | some rest => cases hd
    | release | haltAndRelease => cases hd
  | unlock caller id' =>
    cases caller with
    | disconnect n rest =>
      cases rest with
      | none =>
        obtain rfl : id' = id := by simpa [ManagerPc.disconnects] using hd
        exact absurd hid hpc.2.1
      | some rest => cases hd
    | release | haltAndRelease => cases hd
  | retry n rest id' =>
    cases rest with
    | none =>
      obtain rfl : id' = id := by simpa [ManagerPc.disconnects] using hd
      simp only [exec]
      split_ifs with hretry
      · exact Or.inl hd
      · exact Or.inr ⟨n, rfl, by by_contra hlt; exact hretry ⟨hid, by omega⟩⟩
    | some rest => cases hd
  | idle | insertBridge | connect | signalAll | listIds => cases hd

theorem deliver_disconnected (s : Manager) (id : SessionId) (e : Event) :
    (s.deliver id e).disconnected = s.disconnected := by
  unfold deliver
  split_ifs <;> rfl

/-- `Session::disconnect` is called on a session that has been taken. -/
theorem exec_disconnected (h : (s.exec k attempt pc).1.disconnected id = true) :
    s.disconnected id = true ∨ ∃ caller, pc = .close caller id := by
  have hupdate : ∀ {id'}, Function.update s.disconnected id' true id = true →
      s.disconnected id = true ∨ id = id' := by
    intro id' hu
    by_cases hid : id = id'
    · exact Or.inr hid
    · exact Or.inl (by rwa [Function.update_of_ne hid] at hu)
  cases pc with
  | connect id' timeoutMs pc =>
    refine Or.inl ?_
    cases pc with
    | lock =>
      simp only [exec, connectExec] at h
      split_ifs at h <;> exact h
    | emitFailed r =>
      simp only [exec, connectExec, deliver_disconnected] at h
      exact h
    | _ => exact h
  | take caller id' deadline pc =>
    refine Or.inl ?_
    cases pc with
    | tryLock | erase =>
      simp only [exec, takeExec] at h
      split_ifs at h <;> exact h
    | _ => exact h
  | close caller id' =>
    cases caller with
    | release timeoutMs r =>
      exact (hupdate h).imp_right fun hid => ⟨_, by rw [hid]⟩
    | disconnect n rest =>
      simp only [exec, deliver_disconnected] at h
      exact (hupdate h).imp_right fun hid => ⟨_, by rw [hid]⟩
    | haltAndRelease => exact Or.inl h
  | signalAll left => exact Or.inl (by cases left <;> exact h)
  | _ => exact Or.inl h

theorem close_gone {caller : TakeCaller} (h : s.ThreadInv k (.close caller id)) :
    id < s.nextId ∧ id ∉ s.sessions := by
  cases caller with
  | release => exact h.elim
  | disconnect | haltAndRelease => exact ⟨h.1, h.2.1⟩

theorem mem_of_mem_exec (h : id ∈ (s.exec k attempt pc).1.sessions) : id ∈ s.sessions := by
  by_cases hpc : ∃ caller id' deadline, pc = .take caller id' deadline .erase
  · obtain ⟨caller, id', deadline, rfl⟩ := hpc
    simp only [exec, takeExec] at h
    split_ifs at h
    · exact List.mem_of_mem_erase h
    · exact h
  · rwa [exec_sessions s k attempt fun caller id' deadline heq =>
      hpc ⟨caller, id', deadline, heq⟩] at h

/-! ## The steps -/

theorem BridgeInv.run_step (h : BridgeInv s) (hC : ¬ s.LosesBridge (.run k attempt)) :
    BridgeInv (s.step (.run k attempt)) := by
  have hthread := h.manager.threads k
  have hfollows := exec_follows h.manager.registered attempt hthread
  refine ⟨h.manager.step _, ?_, ?_⟩
  · intro id htold
    rcases exec_disconnected (s := s) htold with hold | ⟨caller, hclose⟩
    · obtain ⟨hlt, hid⟩ := h.told id hold
      exact ⟨hlt.trans_le hfollows.1.nextId, hfollows.1.gone id hlt hid⟩
    · rw [hclose] at hthread
      obtain ⟨hlt, hid⟩ := close_gone hthread
      exact ⟨hlt.trans_le hfollows.1.nextId, hfollows.1.gone id hlt hid⟩
  · intro id hid'
    have hid : id ∈ s.sessions := mem_of_mem_exec (s := s) hid'
    rcases h.covered id hid with hb | ⟨j, hj⟩
    · have hexec : (s.exec k attempt (s.pc k)).1.bridges id = true ∨ _ := exec_bridges hb
      rcases hexec with hb | hpc | ⟨timeoutMs, r, hpc⟩ | ⟨caller, hpc⟩
      · exact Or.inl hb
      · refine Or.inr ⟨k, Or.inr ?_⟩
        simp only [step, Function.update_self, hpc]
        exact decide_eq_true rfl
      · refine absurd ?_ hC
        simp only [LosesBridge, hpc]
        exact hid
      · rw [hpc] at hthread
        exact absurd hid (close_gone hthread).2
    · by_cases hjk : j = k
      · subst hjk
        rcases hj with hinsert | hd
        · refine Or.inl ?_
          simp only [step, hinsert, exec, Function.update_self]
        · have hexec : (s.exec j attempt (s.pc j)).2.disconnects id = true ∨ _ :=
            exec_disconnects hthread hid hd
          rcases hexec with hd | ⟨n, hretry, hlast⟩
          · refine Or.inr ⟨j, Or.inr ?_⟩
            simp only [step, Function.update_self]
            exact hd
          · refine absurd ?_ hC
            simp only [LosesBridge, hretry]
            exact ⟨hid, hlast⟩
      · refine Or.inr ⟨j, ?_⟩
        simp only [step, Function.update_of_ne hjk]
        exact hj

theorem begin_bridges (k : ℕ) (c : ManagerCall) : (s.begin k c).bridges = s.bridges ∧
    (s.begin k c).disconnected = s.disconnected := by
  cases c with
  | prepareConnection | disconnect =>
    simp only [begin]
    split_ifs <;> exact ⟨rfl, rfl⟩
  | connect | haltAndRelease | disconnectAll => exact ⟨rfl, rfl⟩

/-- A session that a call registers is about to get its bridge. -/
theorem begin_registers {c : ManagerCall} (hid' : id ∈ (s.begin k c).sessions)
    (hid : id ∉ s.sessions) : (s.begin k c).pc k = .insertBridge id := by
  cases c with
  | prepareConnection =>
    simp only [begin] at hid' ⊢
    split_ifs at hid' ⊢
    · exact absurd hid' hid
    · rcases List.mem_append.1 hid' with hold | hnew
      · exact absurd hold hid
      · rw [List.mem_singleton.1 hnew]
        exact Function.update_self ..
  | disconnect id' =>
    simp only [begin] at hid'
    split_ifs at hid' <;> exact absurd hid' hid
  | connect | haltAndRelease | disconnectAll => exact absurd hid' hid

theorem BridgeInv.call_step (h : BridgeInv s) (c : ManagerCall) (hidle : s.pc k = .idle) :
    BridgeInv (s.begin k c) := by
  have hmanager : ManagerInv (s.begin k c) := by
    have hstep := h.manager.step (.call k c)
    simp only [step] at hstep
    rwa [if_pos hidle] at hstep
  obtain ⟨hbridges, hdisc⟩ := begin_bridges (s := s) k c
  refine ⟨hmanager, ?_, ?_⟩
  · rw [hdisc]
    intro id htold
    obtain ⟨hlt, hid⟩ := h.told id htold
    obtain ⟨s', pc, heq, hf⟩ := begin_follows h.manager.registered c hidle
    rw [heq]
    exact ⟨hlt.trans_le hf.1.nextId, hf.1.gone id hlt hid⟩
  · intro id hid'
    by_cases hid : id ∈ s.sessions
    · rcases h.covered id hid with hb | ⟨j, hj⟩
      · exact Or.inl (by rwa [hbridges])
      · refine Or.inr ⟨j, ?_⟩
        have hjk : j ≠ k := by
          rintro rfl
          rw [hidle] at hj
          rcases hj with hj | hj <;> cases hj
        rwa [begin_pc_of_ne hjk]
    · exact Or.inr ⟨k, Or.inl (begin_registers hid' hid)⟩

/-- What a session that is no longer registered raises. -/
theorem BridgeInv.deliver (h : BridgeInv s) {e : Event} (hgone : id ∉ s.sessions) :
    BridgeInv (s.deliver id e) := by
  have hmanager : ManagerInv (s.deliver id e) :=
    h.manager.other (deliver_registry s id e) (deliver_pc s id e)
  unfold Manager.deliver at hmanager ⊢
  split_ifs at hmanager ⊢
  · refine ⟨hmanager, h.told, fun id' hid' => ?_⟩
    have hne : id' ≠ id := by
      rintro rfl
      exact hgone hid'
    rcases h.covered id' hid' with hb | hj
    · exact Or.inl ((Function.update_of_ne hne _ _).trans hb)
    · exact Or.inr hj
  · exact h

theorem BridgeInv.step (h : BridgeInv s) (a : ManagerAction) (hC : ¬ s.LosesBridge a) :
    BridgeInv (s.step a) := by
  have hmanager := h.manager.step a
  cases a with
  | elapse | transport => exact ⟨hmanager, h.told, h.covered⟩
  | call k c =>
    simp only [Manager.step]
    split_ifs with hidle
    · exact h.call_step c hidle
    · exact h
  | run k attempt => exact h.run_step hC
  | event id e =>
    simp only [Manager.step]
    cases e with
    | connectionFailed => exact h
    | disconnected =>
      simp only
      split_ifs with htold
      · exact h.deliver (h.told id htold).2
      · exact h
    | protocolError => exact h.deliver hC
    | _ => exact h

theorem bridgeInv_init : BridgeInv {} :=
  ⟨managerInv_init, nofun, nofun⟩

/-- As long as nothing takes a bridge away from a registered session, every valid id has its
bridge. -/
theorem registered_has_bridge (as : List ManagerAction)
    (h : Along step (fun s a => ¬ s.LosesBridge a) {} as) (id : SessionId)
    (hvalid : (after step {} as).isValid id = true) (hsettled : (after step {} as).Settled id) :
    (after step {} as).bridges id = true := by
  have hinv : BridgeInv (after step {} as) :=
    invariant_along (fun _ a hI hC => hI.step a hC) bridgeInv_init h
  have hid : id ∈ (after step {} as).sessions := (of_decide_eq_true hvalid).2
  rcases hinv.covered id hid with hb | ⟨k, hinsert | hd⟩
  · exact hb
  · exact absurd hinsert (hsettled k).1
  · rw [(hsettled k).2] at hd
    cases hd

/-- A thread that begins no call stays idle. -/
theorem idle_of_no_call {as : List ManagerAction} (h : ∀ c, .call k c ∉ as) :
    (after step {} as).pc k = .idle := by
  induction as using List.reverseRecOn with
  | nil => rfl
  | append_singleton as a ih =>
    have hidle := ih fun c hc => h c (List.mem_append_left _ hc)
    rw [after_snoc]
    cases a with
    | run j attempt =>
      by_cases hj : k = j
      · subst hj
        simp only [step, hidle, exec, Function.update_self]
      · simp only [step, Function.update_of_ne hj]
        exact hidle
    | call j c =>
      have hj : k ≠ j := by
        rintro rfl
        exact h c (by simp)
      simp only [step]
      split_ifs
      · rw [begin_pc_of_ne hj, hidle]
      · exact hidle
    | event id' e =>
      simp only [step]
      split
      · exact hidle
      · split_ifs
        · rw [deliver_pc, hidle]
        · exact hidle
      · rw [deliver_pc, hidle]
    | elapse | transport => exact hidle

/-- A session is prepared and connected. -/
def connectOnce : List ManagerAction :=
  [.call 0 .prepareConnection, .run 0 .ok, .call 0 (.connect 1 0)] ++
    List.replicate 15 (.run 0 .ok) ++ [.transport 1 true true] ++ List.replicate 4 (.run 0 .ok)

/-- The relay sends a message of another protocol version. -/
def protocolMismatch : List ManagerAction :=
  connectOnce ++ [.transport 1 false false, .event 1 (.protocolError "protocol mismatch")]

theorem settled_of_idle {as : List ManagerAction} (hzero : (after step {} as).pc 0 = .idle)
    (hcalls : ∀ k c, k ≠ 0 → .call k c ∉ as) (id : SessionId) :
    (after step {} as).Settled id := by
  intro k
  have hidle : (after step {} as).pc k = .idle := by
    by_cases hk : k = 0
    · rw [hk, hzero]
    · exact idle_of_no_call fun c => hcalls k c hk
  rw [hidle]
  exact ⟨nofun, rfl⟩

theorem registered_has_bridge_connected : (after step {} connectOnce).bridges 1 = true :=
  registered_has_bridge connectOnce (by decide +kernel) 1 (by decide +kernel)
    (settled_of_idle (by decide +kernel) (by simp +contextual [connectOnce]) 1)

/-- The bridge is erased and the session is still valid, so a later `connect` of it reports
nothing. -/
theorem bridge_lost_to_protocol_error :
    (after step {} protocolMismatch).isValid 1 = true ∧
      (after step {} protocolMismatch).Settled 1 ∧
        (after step {} protocolMismatch).bridges 1 = false :=
  ⟨by decide +kernel,
    settled_of_idle (by decide +kernel) (by simp +contextual [protocolMismatch, connectOnce]) 1,
    by decide +kernel⟩

end Manager

end OWalkie
