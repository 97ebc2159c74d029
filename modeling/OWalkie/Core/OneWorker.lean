import Mathlib.Data.List.Nodup
import OWalkie.Core.Workers

/-!
# One worker of each kind

`waitUntilTransportStopped` joins the workers only if `transportFullyStopped` is set before its
deadline; a connection that was lost does not set it, so the workers are detached, and the flags
that tell them to stop are set back by the connect that follows.  `WorkersInv`: as long as every
detached worker has ended when the next ones are started, all workers of earlier connections have.
-/

namespace OWalkie

open Run

/-- The kinds of workers that may still be joinable when the connecting thread is there. -/
def CallPc.mayBeJoinable : CallPc → List WorkerKind
  | .join (.wait .connect) kinds => kinds
  | .idle | .startWait .connect | .wait .connect _ | .pastDeadline .connect _ | .detach .connect
  | .start _ | .newTest | .newWait _ | .terminated => Transport.allKinds
  | _ => []

/-- The kinds of workers that are still to be started for the latest connection. -/
def CallPc.toStart : CallPc → List WorkerKind
  | .start kinds => kinds
  | _ => []

/-- The connection that a worker was started for, and the kind. -/
def Worker.origin (w : Worker) : ℕ × WorkerKind := (w.connection, w.kind)

namespace Transport

/-- When a connection starts its threads, those that were detached have left their loops. -/
def DetachedEnded (s : Transport) : TransportAction → Prop
  | .run _ _ =>
    s.pc = .startWs → s.stores = [] → ∀ w ∈ s.workers, w.handle = .detached → w.pc = .ended
  | _ => True

instance (s : Transport) (a : TransportAction) : Decidable (s.DetachedEnded a) := by
  unfold DetachedEnded
  split <;> exact inferInstance

/-- A worker that begins an iteration was started by the latest connection that has started its
threads. -/
def LatestIterates (s : Transport) (a : TransportAction) : Prop :=
  ∀ w ∈ s.iterating a, w.connection = s.connections

instance (s : Transport) (a : TransportAction) : Decidable (s.LatestIterates a) :=
  match h : s.iterating a with
  | none => isTrue fun w hw => by simp [h] at hw
  | some w =>
    if hw : w.connection = s.connections then
      isTrue fun v hv => by rw [h] at hv; exact Option.some.inj hv ▸ hw
    else isFalse fun hall => hw (hall w h)

structure WorkersInv (s : Transport) : Prop where
  old : ∀ w ∈ s.workers, w.connection ≠ s.connections → w.pc = .ended
  joined : ∀ w ∈ s.workers, w.handle = .joined → w.pc = .ended
  joinable : ∀ w ∈ s.workers, w.handle = .joinable → w.kind ∈ s.pc.mayBeJoinable

/-- Every connection starts each kind of worker once. -/
structure StartedOnce (s : Transport) : Prop where
  le : ∀ w ∈ s.workers, w.connection ≤ s.connections
  fresh : ∀ w ∈ s.workers, w.connection = s.connections → w.kind ∉ s.pc.toStart
  toStart : s.pc.toStart.Nodup
  nodup : (s.workers.map Worker.origin).Nodup

variable {s : Transport} {userIntent : Bool} {attempt : Result} {pc : CallPc}

@[simp] theorem store_workers (op : Store) : (s.store op).workers = s.workers := by
  cases op <;> rfl

@[simp] theorem store_connections (op : Store) : (s.store op).connections = s.connections := by
  cases op <;> rfl

@[simp] theorem store_pc (op : Store) : (s.store op).pc = s.pc := by
  cases op <;> rfl

theorem mem_allKinds (kind : WorkerKind) : kind ∈ allKinds := by
  cases kind <;> decide

/-! ## One step of the connecting thread -/

/-- What a step of the connecting thread does to the workers. -/
inductive CallEffect (s : Transport) : CallPc → Transport → Prop where
  | stay (pc : CallPc) : CallEffect s pc s
  | goto (pc : CallPc) (stores : List Store) (pc' : CallPc)
      (joinable : pc.mayBeJoinable ⊆ pc'.mayBeJoinable) (toStart : pc'.toStart = []) :
      CallEffect s pc (s.goto stores pc')
  | detach (w : Waiter) (stores : List Store) (pc' : CallPc) (toStart : pc'.toStart = []) :
      CallEffect s (.detach w) (s.detachWorkers.goto stores pc')
  | join (j : Joiner) (kind : WorkerKind) (kinds : List WorkerKind) (ended : s.canJoin kind) :
      CallEffect s (.join j (kind :: kinds)) ((s.joinWorker kind).goto [] (.join j kinds))
  | startWs :
      CallEffect s .startWs
        (({ s with connections := s.connections + 1 } : Transport).startWorker .wsIo
          (.start [.udpRead, .keepalive]))
  | start (kind : WorkerKind) (kinds : List WorkerKind) :
      CallEffect s (.start (kind :: kinds)) (s.startWorker kind (.start kinds))

theorem callExec_effect : CallEffect s pc (s.callExec userIntent attempt pc) := by
  cases pc with
  | idle => exact .stay _
  | terminated => exact .stay _
  | startWait w => cases w <;> exact .goto _ _ _ (fun _ h => h) rfl
  | wait w deadline =>
    simp only [callExec]
    split_ifs
    · cases w <;> exact .goto _ _ _ (fun _ h => h) rfl
    · cases w <;> exact .goto _ _ _ (fun _ h => h) rfl
    · exact .stay _
  | pastDeadline w deadline =>
    simp only [callExec]
    split_ifs
    · cases w <;> exact .goto _ _ _ (fun _ h => h) rfl
    · cases w <;> exact .goto _ _ _ (fun _ h => by simp_all [CallPc.mayBeJoinable]) rfl
  | detach w => cases w <;> exact .detach _ _ _ rfl
  | join j kinds =>
    cases kinds with
    | nil =>
      have hnil : (CallPc.join j []).mayBeJoinable = [] := by
        rcases j with (_ | _) | _ | _ <;> rfl
      rcases j with (_ | _) | _ | _ <;> exact .goto _ _ _ (hnil ▸ List.nil_subset _) rfl
    | cons kind kinds =>
      simp only [callExec]
      split_ifs with hjoin
      · exact .join j kind kinds hjoin
      · exact .stay _
  | startWs => exact .startWs
  | start kinds =>
    cases kinds with
    | nil => exact .goto _ _ _ (fun _ h => h) rfl
    | cons kind kinds => exact .start kind kinds
  | newTest =>
    simp only [callExec]
    split_ifs <;> exact .goto _ _ _ (fun _ h => h) rfl
  | newWait deadline =>
    simp only [callExec]
    split_ifs
    · exact .stay _
    · exact .goto _ _ _ (fun _ h => h) rfl
  -- no worker can be joined on the way from the wait to the new threads
  | _ =>
    simp only [callExec]
    try split_ifs
    all_goals first
      | exact .stay _
      | exact .goto _ _ _ (List.nil_subset _) rfl

/-! ## The workers of earlier connections -/

theorem WorkersInv.goto {stores : List Store} (h : s.WorkersInv)
    (hsub : s.pc.mayBeJoinable ⊆ pc.mayBeJoinable) : (s.goto stores pc).WorkersInv :=
  ⟨h.old, h.joined, fun w hw hj => hsub (h.joinable w hw hj)⟩

theorem detachWorkers_inv {stores : List Store} (h : s.WorkersInv) :
    (s.detachWorkers.goto stores pc).WorkersInv := by
  have hmem : ∀ v ∈ s.detachWorkers.workers, v.handle ≠ .joinable ∧
      ∃ v' ∈ s.workers, v'.pc = v.pc ∧ v'.connection = v.connection ∧
        (v.handle = .joined → v'.handle = .joined) := by
    intro v hv
    obtain ⟨v', hv', rfl⟩ := List.mem_map.1 hv
    split_ifs with hj
    · exact ⟨by simp, v', hv', rfl, rfl, by simp⟩
    · exact ⟨hj, v', hv', rfl, rfl, fun h => h⟩
  refine ⟨?_, ?_, ?_⟩
  · intro v hv hne
    obtain ⟨-, v', hv', hpc, hconn, -⟩ := hmem v hv
    rw [← hpc]
    exact h.old v' hv' (hconn ▸ hne)
  · intro v hv hjoined
    obtain ⟨-, v', hv', hpc, -, hhandle⟩ := hmem v hv
    rw [← hpc]
    exact h.joined v' hv' (hhandle hjoined)
  · intro v hv hj
    exact absurd hj (hmem v hv).1

theorem joinWorker_inv {j : Joiner} {kind : WorkerKind} {kinds : List WorkerKind}
    (h : s.WorkersInv) (hpc : s.pc = .join j (kind :: kinds)) (hjoin : s.canJoin kind) :
    ((s.joinWorker kind).goto [] (.join j kinds)).WorkersInv := by
  have hended : ∀ v ∈ s.workers, v.kind = kind → v.handle = .joinable → v.pc = .ended := by
    intro v hv hkind hj
    have := List.all_eq_true.1 hjoin v hv
    exact (of_decide_eq_true this hkind hj).1
  refine ⟨?_, ?_, ?_⟩
  · intro v hv hne
    obtain ⟨v', hv', rfl⟩ := List.mem_map.1 hv
    split_ifs at hne ⊢ with hk
    · exact h.old v' hv' hne
    · exact h.old v' hv' hne
  · intro v hv hjoined
    obtain ⟨v', hv', rfl⟩ := List.mem_map.1 hv
    split_ifs at hjoined ⊢ with hk
    · exact hended v' hv' hk.1 hk.2
    · exact h.joined v' hv' hjoined
  · intro v hv hj
    obtain ⟨v', hv', rfl⟩ := List.mem_map.1 hv
    split_ifs at hj ⊢ with hk
    have hmem := h.joinable v' hv' hj
    rw [hpc] at hmem
    have hne : v'.kind ≠ kind := fun heq => hk ⟨heq, hj⟩
    rcases j with (_ | _) | _ | _
    · exact (List.mem_cons.1 hmem).resolve_left hne
    · exact hmem
    · exact hmem
    · exact hmem

theorem startWorker_inv {kind : WorkerKind} {kinds : List WorkerKind}
    (hold : ∀ w ∈ s.workers, w.connection ≠ s.connections → w.pc = .ended)
    (hjoined : ∀ w ∈ s.workers, w.handle = .joined → w.pc = .ended) :
    (s.startWorker kind (.start kinds)).WorkersInv := by
  unfold startWorker
  split_ifs
  · exact ⟨hold, hjoined, fun w _ _ => mem_allKinds w.kind⟩
  · refine ⟨?_, ?_, fun w _ _ => mem_allKinds w.kind⟩
    · intro w hw hne
      rcases List.mem_append.1 hw with hw | hw
      · exact hold w hw hne
      · obtain rfl := List.mem_singleton.1 hw
        exact absurd rfl hne
    · intro w hw hj
      rcases List.mem_append.1 hw with hw | hw
      · exact hjoined w hw hj
      · obtain rfl := List.mem_singleton.1 hw
        cases hj

/-- No worker is joinable when a connection starts its threads. -/
theorem WorkersInv.all_ended (h : s.WorkersInv) (hpc : s.pc = .startWs)
    (hdetached : ∀ w ∈ s.workers, w.handle = .detached → w.pc = .ended) :
    ∀ w ∈ s.workers, w.pc = .ended := by
  intro w hw
  cases hhandle : w.handle with
  | joinable =>
    have hmem := h.joinable w hw hhandle
    rw [hpc] at hmem
    cases hmem
  | joined => exact h.joined w hw hhandle
  | detached => exact hdetached w hw hhandle

theorem callStep_inv (h : s.WorkersInv) (hd : s.DetachedEnded (.run userIntent attempt)) :
    (s.callStep userIntent attempt).WorkersInv := by
  unfold callStep
  split
  · exact ⟨by simpa using h.old, by simpa using h.joined, by simpa using h.joinable⟩
  · rename_i hstores
    have heffect : CallEffect s s.pc (s.callExec userIntent attempt s.pc) := callExec_effect
    generalize hpc : s.pc = pc, s.callExec userIntent attempt s.pc = s' at heffect ⊢
    cases heffect with
    | stay => exact h
    | goto _ stores pc' hsub => exact h.goto (hpc ▸ hsub)
    | detach _ stores pc' => exact detachWorkers_inv h
    | join j kind kinds hjoin => exact joinWorker_inv h hpc hjoin
    | startWs =>
      have hended := h.all_ended hpc (hd hpc hstores)
      exact startWorker_inv (fun w hw _ => hended w hw) (fun w hw _ => hended w hw)
    | start kind kinds => exact startWorker_inv h.old h.joined

theorem WorkersInv.set {t : Transport} {i : ℕ} {w w' : Worker} (h : s.WorkersInv)
    (hw : w ∈ s.workers) (hworkers : t.workers = s.workers.set i w') (hkind : w'.kind = w.kind)
    (hconn : w'.connection = w.connection) (hhandle : w'.handle = w.handle)
    (hended : w.pc = .ended → w'.pc = .ended) (hconns : t.connections = s.connections)
    (hpc : t.pc = s.pc) : t.WorkersInv := by
  have hmem : ∀ v ∈ t.workers, v ∈ s.workers ∨ v = w' := by
    rw [hworkers]
    exact fun v hv => List.mem_or_eq_of_mem_set hv
  refine ⟨?_, ?_, ?_⟩
  · intro v hv hne
    rw [hconns] at hne
    rcases hmem v hv with hv | rfl
    · exact h.old v hv hne
    · exact hended (h.old w hw (hconn ▸ hne))
  · intro v hv hjoined
    rcases hmem v hv with hv | rfl
    · exact h.joined v hv hjoined
    · exact hended (h.joined w hw (hhandle ▸ hjoined))
  · intro v hv hj
    rw [hpc]
    rcases hmem v hv with hv | rfl
    · exact h.joinable v hv hj
    · rw [hkind]
      exact h.joinable w hw (hhandle ▸ hj)

/-- A worker that has left its loop does not come back. -/
theorem workerStep_inv {i : ℕ} {w : Worker} {e : WorkerEvent} (h : s.WorkersInv)
    (hw : s.workers[i]? = some w) : (s.workerStep i w e).WorkersInv := by
  have hmem : w ∈ s.workers := List.mem_of_getElem? hw
  unfold workerStep
  split
  · exact h.set hmem rfl rfl rfl rfl (fun hpc => hpc) (store_connections _) (store_pc _)
  · refine h.set hmem rfl rfl rfl rfl (fun hpc => ?_) rfl rfl
    rw [hpc]
    rfl

theorem step_inv {a : TransportAction} (h : s.WorkersInv) (hd : s.DetachedEnded a) :
    (s.step a).WorkersInv := by
  cases a with
  | elapse ms => exact ⟨h.old, h.joined, h.joinable⟩
  | connect timeoutMs =>
    unfold step
    dsimp only
    split_ifs with hidle
    · exact ⟨h.old, h.joined, fun w _ _ => mem_allKinds w.kind⟩
    · exact h
  | run userIntent attempt => exact callStep_inv h hd
  | worker i e =>
    unfold step
    dsimp only
    split
    · rename_i w hw
      exact workerStep_inv h hw
    · exact h

theorem latestIterates_of_inv {a : TransportAction} (h : s.WorkersInv) : s.LatestIterates a := by
  intro w hw
  cases a with
  | worker i e =>
    obtain ⟨hget, htest⟩ := Option.filter_eq_some_iff.1 hw
    have hpc : w.pc = .readStopRequested := (of_decide_eq_true htest).2.1
    by_contra hne
    have hended := h.old w (List.mem_of_getElem? hget) hne
    rw [hpc] at hended
    cases hended
  | _ => cases hw

theorem init_inv : WorkersInv {} := by
  constructor <;> simp

/-- If every worker that was detached has left its loop when a connection starts its threads, no
worker of an earlier connection begins another iteration. -/
theorem one_worker_of_each_kind (acts : List TransportAction)
    (h : Along step DetachedEnded {} acts) : Along step LatestIterates {} acts :=
  h.imp_of_invariant (I := WorkersInv) (fun _ _ => step_inv)
    (fun _ _ hinv _ => latestIterates_of_inv hinv) init_inv

/-- A connection is made and all three workers are in the body of their loops. -/
def connectedRun : List TransportAction :=
  .connect 0 :: List.replicate 40 (.run true .ok) ++
    [.worker 0 .again, .worker 1 .again, .worker 1 .again, .worker 1 .again, .worker 2 .again,
      .worker 2 .again, .worker 0 (.welcome 7), .worker 0 .again, .run true .ok, .run true .ok]

/-- The WebSocket finds the connection lost, and the two workers that are not in a receive end. -/
def lostRun : List TransportAction :=
  .worker 0 .lost :: List.replicate 8 (.worker 0 .again) ++ [.worker 2 .again, .worker 2 .again]

/-- A connect that meets no `transportFullyStopped`, with what happens during its wait. -/
def reconnectRun (during : List TransportAction) : List TransportAction :=
  .connect 0 :: List.replicate 7 (.run true .ok) ++ during ++
    .elapse kConnectTransportWaitMs :: List.replicate 43 (.run true .ok)

/-- A receive that takes longer than the wait goes on to read for the next connection. -/
theorem reader_survives_wait :
    (after step {} (connectedRun ++ lostRun ++ reconnectRun [])).pc = .newWait 3300 ∧
      ¬ Along step LatestIterates {} (connectedRun ++ lostRun ++ reconnectRun [] ++
        [.worker 1 .again, .worker 1 .again, .worker 1 .again]) := by
  decide +kernel

theorem one_worker_of_each_kind_in_time :
    Along step LatestIterates {} (connectedRun ++ lostRun ++
      reconnectRun [.worker 1 .again, .worker 1 .again] ++ [.worker 4 .again, .worker 4 .again]) :=
  one_worker_of_each_kind _ (by decide +kernel)

/-! ## Workers in their loops -/

theorem StartedOnce.goto {stores : List Store} (h : s.StartedOnce) (hpc : pc.toStart = []) :
    (s.goto stores pc).StartedOnce := by
  refine ⟨h.le, ?_, ?_, h.nodup⟩
  · intro w _ _
    simp [Transport.goto, hpc]
  · simp [Transport.goto, hpc]

/-- A step that leaves every worker its kind and its connection. -/
theorem StartedOnce.map {t : Transport} (h : s.StartedOnce)
    (hmap : t.workers.map Worker.origin = s.workers.map Worker.origin)
    (hconns : t.connections = s.connections) (hpc : t.pc = s.pc) : t.StartedOnce := by
  have hmem : ∀ w ∈ t.workers, ∃ v ∈ s.workers, v.connection = w.connection ∧ v.kind = w.kind := by
    intro w hw
    have hpair := List.mem_map_of_mem (f := Worker.origin) hw
    rw [hmap, List.mem_map] at hpair
    obtain ⟨v, hv, heq⟩ := hpair
    exact ⟨v, hv, (Prod.mk.inj heq).1, (Prod.mk.inj heq).2⟩
  refine ⟨?_, ?_, hpc ▸ h.toStart, hmap ▸ h.nodup⟩
  · intro w hw
    obtain ⟨v, hv, hconn, -⟩ := hmem w hw
    rw [hconns, ← hconn]
    exact h.le v hv
  · intro w hw heq
    obtain ⟨v, hv, hconn, hkind⟩ := hmem w hw
    rw [hpc, ← hkind]
    exact h.fresh v hv (by rw [hconn, heq, hconns])

theorem startWorker_startedOnce {kind : WorkerKind} {kinds : List WorkerKind}
    (hle : ∀ w ∈ s.workers, w.connection ≤ s.connections)
    (hfresh : ∀ w ∈ s.workers, w.connection = s.connections → w.kind ∉ kind :: kinds)
    (hnew : (kind :: kinds).Nodup)
    (hnodup : (s.workers.map Worker.origin).Nodup) :
    (s.startWorker kind (.start kinds)).StartedOnce := by
  unfold startWorker
  split_ifs
  · exact ⟨hle, fun _ _ _ => List.not_mem_nil, List.nodup_nil, hnodup⟩
  · refine ⟨?_, ?_, hnew.of_cons, ?_⟩
    · intro w hw
      rcases List.mem_append.1 hw with hw | hw
      · exact hle w hw
      · obtain rfl := List.mem_singleton.1 hw
        exact le_rfl
    · intro w hw hconn
      rcases List.mem_append.1 hw with hw | hw
      · exact fun hmem => hfresh w hw hconn (List.mem_cons_of_mem _ hmem)
      · obtain rfl := List.mem_singleton.1 hw
        exact hnew.notMem
    · rw [List.map_append]
      apply hnodup.append (List.nodup_singleton _)
      intro p hp hp'
      obtain ⟨w, hw, rfl⟩ := List.mem_map.1 hp
      obtain ⟨hconn, hkind⟩ := Prod.mk.inj (List.mem_singleton.1 hp')
      exact hfresh w hw hconn (hkind ▸ List.mem_cons_self)

theorem map_origin {f : Worker → Worker} (hf : ∀ w, (f w).origin = w.origin)
    (workers : List Worker) : (workers.map f).map Worker.origin = workers.map Worker.origin := by
  rw [List.map_map]
  exact List.map_congr_left fun w _ => hf w

theorem set_origin {workers : List Worker} {i : ℕ} {v w : Worker} (hw : workers[i]? = some w)
    (hv : v.origin = w.origin) :
    (workers.set i v).map Worker.origin = workers.map Worker.origin := by
  rw [List.map_set, hv]
  apply List.ext_getElem?
  intro n
  rw [List.getElem?_set]
  split_ifs <;> simp_all

theorem callStep_startedOnce (h : s.StartedOnce) :
    (s.callStep userIntent attempt).StartedOnce := by
  unfold callStep
  split
  · exact h.map (by simp) (by simp) (by simp)
  · have heffect : CallEffect s s.pc (s.callExec userIntent attempt s.pc) := callExec_effect
    generalize hpc : s.pc = pc, s.callExec userIntent attempt s.pc = s' at heffect ⊢
    cases heffect with
    | stay => exact h
    | goto _ stores pc' _ hnone => exact h.goto hnone
    | detach _ stores pc' hnone =>
      refine StartedOnce.goto (h.map (map_origin (fun w => ?_) _) rfl rfl) hnone
      split_ifs <;> rfl
    | join j kind kinds hjoin =>
      refine StartedOnce.goto (h.map (map_origin (fun w => ?_) _) rfl rfl) rfl
      split_ifs <;> rfl
    | startWs =>
      refine startWorker_startedOnce (fun w hw => (h.le w hw).trans (Nat.le_succ _)) ?_ (by decide)
        h.nodup
      intro w hw heq
      have := h.le w hw
      dsimp only at heq
      omega
    | start kind kinds =>
      refine startWorker_startedOnce h.le (fun w hw heq => ?_) ?_ h.nodup
      · have := h.fresh w hw heq
        rwa [hpc] at this
      · have := h.toStart
        rwa [hpc] at this

theorem step_startedOnce {a : TransportAction} (h : s.StartedOnce) : (s.step a).StartedOnce := by
  cases a with
  | elapse ms => exact h.map rfl rfl rfl
  | connect timeoutMs =>
    unfold step
    dsimp only
    split_ifs with hidle
    · have hgoto : (s.goto (cancelOngoingConnect ++ haltTransport)
          (.startWait .connect)).StartedOnce := h.goto rfl
      exact hgoto.map rfl rfl rfl
    · exact h
  | run userIntent attempt => exact callStep_startedOnce h
  | worker i e =>
    unfold step
    dsimp only
    split
    · rename_i w hw
      unfold workerStep
      split
      · exact h.map (set_origin hw rfl) (store_connections _) (store_pc _)
      · exact h.map (set_origin hw rfl) rfl rfl
    · exact h

/-- Two workers of one kind are never in their loops at the same time, as long as every worker that
was detached has left its loop when a connection starts its threads. -/
theorem running_unique {acts : List TransportAction} (h : Along step DetachedEnded {} acts)
    {i j : ℕ} {v w : Worker} (hv : (after step {} acts).workers[i]? = some v)
    (hw : (after step {} acts).workers[j]? = some w) (hkind : v.kind = w.kind)
    (hvrun : v.pc ≠ .ended) (hwrun : w.pc ≠ .ended) : i = j := by
  have hinv : (after step {} acts).WorkersInv :=
    invariant_along (fun _ _ => step_inv) init_inv h
  have honce : (after step {} acts).StartedOnce :=
    invariant (fun _ _ => step_startedOnce) (by constructor <;> simp [CallPc.toStart]) acts
  have hvconn : v.connection = (after step {} acts).connections := by
    by_contra hne
    exact hvrun (hinv.old v (List.mem_of_getElem? hv) hne)
  have hwconn : w.connection = (after step {} acts).connections := by
    by_contra hne
    exact hwrun (hinv.old w (List.mem_of_getElem? hw) hne)
  have hlt : i < (after step {} acts).workers.length := (List.getElem?_eq_some_iff.1 hv).1
  refine (List.getElem?_inj (by simpa using hlt) honce.nodup).1 ?_
  rw [List.getElem?_map, List.getElem?_map, hv, hw, Option.map_some, Option.map_some,
    Worker.origin, Worker.origin, hvconn, hwconn, hkind]

end Transport

end OWalkie
