import OWalkie.Core.TxPipeline

/-!
# The order of the uplink queue

On a session that stays connected, with no `Abort` and no pause for the watchdog, the commands that
are pending (the one that the worker processes, then the queue) are in the order of their numbers,
and the `Open` or `Close` in front of a pending voice command is pending itself or has set
`clientTxOpen`.  An `Open` takes everything out of the queue, so what it discards is neither fed nor
ended; `uplink_in_order` says that nothing else is lost, and that what is fed is fed in order and
before the burst of its transmission.
-/

namespace OWalkie

open Run

namespace TxSubmitOp

def voice : TxSubmitOp → Bool
  | .txPcm | .txOpus => true
  | .txOpen | .txVoiceEnd | .txClose | .txAbort => false

/-- The command starts or ends a transmission. -/
def control : TxSubmitOp → Bool
  | .txOpen | .txClose => true
  | .txPcm | .txOpus | .txVoiceEnd | .txAbort => false

theorem not_control {op : TxSubmitOp} (h : op.voice = true) : op.control = false := by
  cases op <;> first | rfl | cases h

end TxSubmitOp

/-- The last command before `j` that starts or ends a transmission has the number `c`. -/
structure LastControl (ops : List TxSubmitOp) (c j : ℕ) : Prop where
  lt : c < j
  control : ∃ op, ops[c]? = some op ∧ op.control = true
  last : ∀ d, c < d → d < j → ∀ op, ops[d]? = some op → op.control = false

/-- The command `j` carries voice, and comes after the `Open` with the number `i` and before the
`Close` that matches it. -/
structure VoiceOf (ops : List TxSubmitOp) (i j : ℕ) : Prop where
  opened : ops[i]? = some .txOpen
  voice : ∃ op, ops[j]? = some op ∧ op.voice = true
  last : LastControl ops i j

instance (ops : List TxSubmitOp) (c j : ℕ) : Decidable (LastControl ops c j) :=
  decidable_of_iff
    (c < j ∧ (∃ op ∈ ops[c]?, op.control = true) ∧
      ∀ d < j, c < d → ∀ op ∈ ops[d]?, op.control = false)
    ⟨fun ⟨hlt, hc, hl⟩ => ⟨hlt, hc, fun d hcd hdj op hop => hl d hdj hcd op hop⟩,
      fun h => ⟨h.lt, h.control, fun d hdj hcd op hop => h.last d hcd hdj op hop⟩⟩

instance (ops : List TxSubmitOp) (i j : ℕ) : Decidable (VoiceOf ops i j) :=
  decidable_of_iff
    (ops[i]? = some .txOpen ∧ (∃ op ∈ ops[j]?, op.voice = true) ∧ LastControl ops i j)
    ⟨fun ⟨ho, hv, hl⟩ => ⟨ho, hv, hl⟩, fun h => ⟨h.opened, h.voice, h.last⟩⟩

/-! ## Accepted and pending commands -/

section Order

variable {ops : List TxSubmitOp} {op : TxSubmitOp} {c d i j : ℕ}

theorem lt_length_of_getElem? {n : ℕ} (h : ops[n]? = some op) : n < ops.length :=
  (List.getElem?_eq_some_iff.1 h).1

theorem getElem?_append_of_lt {n : ℕ} (h : n < ops.length) :
    (ops ++ [op])[n]? = ops[n]? :=
  List.getElem?_append_left h

theorem lastControl_append_iff (hj : j ≤ ops.length) :
    LastControl (ops ++ [op]) c j ↔ LastControl ops c j := by
  constructor
  · rintro ⟨hlt, ⟨o, ho, hcontrol⟩, hlast⟩
    rw [getElem?_append_of_lt (by omega)] at ho
    refine ⟨hlt, ⟨o, ho, hcontrol⟩, fun d hcd hdj o' ho' => hlast d hcd hdj o' ?_⟩
    rwa [getElem?_append_of_lt (by omega)]
  · rintro ⟨hlt, ⟨o, ho, hcontrol⟩, hlast⟩
    refine ⟨hlt, ⟨o, ?_, hcontrol⟩, fun d hcd hdj o' ho' => hlast d hcd hdj o' ?_⟩
    · rwa [getElem?_append_of_lt (by omega)]
    · rwa [getElem?_append_of_lt (by omega)] at ho'

/-- The last command that starts or ends a transmission, once one more command is accepted. -/
theorem LastControl.of_append (h : LastControl (ops ++ [op]) c (ops.length + 1)) :
    c = ops.length ∧ op.control = true ∨ op.control = false ∧ LastControl ops c ops.length := by
  have hlast : (ops ++ [op])[ops.length]? = some op := by simp
  have hlt := h.lt
  rcases Nat.lt_succ_iff_lt_or_eq.1 hlt with hc | rfl
  · have hop := h.last ops.length hc (Nat.lt_succ_self _) op hlast
    refine Or.inr ⟨hop, (lastControl_append_iff le_rfl).1 ⟨hc, h.control, ?_⟩⟩
    exact fun d hcd hd => h.last d hcd (by omega)
  · obtain ⟨o, ho, hcontrol⟩ := h.control
    rw [hlast] at ho
    obtain rfl := Option.some.inj ho
    exact Or.inl ⟨rfl, hcontrol⟩

theorem voiceOf_append_iff (hj : j < ops.length) :
    VoiceOf (ops ++ [op]) i j ↔ VoiceOf ops i j := by
  constructor
  · rintro ⟨hopen, hvoice, hlast⟩
    have hij := hlast.lt
    rw [getElem?_append_of_lt (by omega)] at hopen
    rw [getElem?_append_of_lt hj] at hvoice
    exact ⟨hopen, hvoice, (lastControl_append_iff hj.le).1 hlast⟩
  · rintro ⟨hopen, hvoice, hlast⟩
    have hij := hlast.lt
    refine ⟨?_, ?_, (lastControl_append_iff hj.le).2 hlast⟩
    · rwa [getElem?_append_of_lt (by omega)]
    · rwa [getElem?_append_of_lt hj]

end Order

/-- The pending commands in order.  `before_voice` speaks of the voice commands that are pending
and of the next command that will be accepted. -/
structure Ordered (ops : List TxSubmitOp) (pending : List TxQueueItem) (isOpen : Bool) : Prop where
  increasing : pending.Pairwise fun p q => p.number < q.number
  accepted : ∀ p ∈ pending, ops[p.number]? = some p.op
  before_voice : ∀ c j, j = ops.length ∨ (∃ p ∈ pending, p.number = j ∧ p.op.voice = true) →
    LastControl ops c j → (∃ p ∈ pending, p.number = c) ∨
      (∀ p ∈ pending, c < p.number) ∧ (isOpen = true ↔ ops[c]? = some .txOpen)

namespace Ordered

variable {ops : List TxSubmitOp} {op : TxSubmitOp} {head : TxQueueItem}
  {pending queue : List TxQueueItem} {isOpen isOpen' : Bool} {i : ℕ}

theorem lt_length (h : Ordered ops pending isOpen) {p : TxQueueItem} (hp : p ∈ pending) :
    p.number < ops.length :=
  lt_length_of_getElem? (h.accepted p hp)

theorem head_lt (h : Ordered ops (head :: queue) isOpen) {p : TxQueueItem} (hp : p ∈ queue) :
    head.number < p.number :=
  (List.pairwise_cons.1 h.increasing).1 p hp

theorem head_le (h : Ordered ops (head :: queue) isOpen) {p : TxQueueItem}
    (hp : p ∈ head :: queue) : head.number ≤ p.number := by
  rcases List.mem_cons.1 hp with rfl | hp
  · exact le_rfl
  · exact (h.head_lt hp).le

theorem nil : Ordered [] [] false := by
  refine ⟨List.Pairwise.nil, by simp, ?_⟩
  intro c j _ hc
  obtain ⟨op, hop, -⟩ := hc.control
  cases hop

/-- A command is accepted, and what is kept of the pending ones are the first of them. -/
theorem push (h : Ordered ops pending isOpen) {kept : List TxQueueItem} (hkept : kept <+: pending)
    (hall : op ≠ .txOpen → kept = pending) :
    Ordered (ops ++ [op]) (kept ++ [⟨op, ops.length⟩]) isOpen := by
  obtain ⟨rest, rfl⟩ := hkept
  have hlt : ∀ p ∈ kept, p.number < ops.length := fun p hp =>
    h.lt_length (List.mem_append_left rest hp)
  -- what was in front of the next command is so still
  have hnext : ∀ c, LastControl ops c ops.length → op ≠ .txOpen →
      (∃ p ∈ kept ++ [⟨op, ops.length⟩], p.number = c) ∨
        (∀ p ∈ kept ++ [⟨op, ops.length⟩], c < p.number) ∧
          (isOpen = true ↔ (ops ++ [op])[c]? = some .txOpen) := by
    intro c hc hop
    rw [getElem?_append_of_lt hc.lt]
    rcases h.before_voice c ops.length (Or.inl rfl) hc with ⟨p, hp, hpc⟩ | ⟨hlate, hiff⟩
    · rw [← hall hop] at hp
      exact Or.inl ⟨p, List.mem_append_left _ hp, hpc⟩
    · refine Or.inr ⟨fun p hp => ?_, hiff⟩
      rcases List.mem_append.1 hp with hp | hp
      · exact hlate p (List.mem_append_left rest hp)
      · obtain rfl := List.mem_singleton.1 hp
        exact hc.lt
  refine ⟨?_, ?_, ?_⟩
  · refine List.pairwise_append.2
      ⟨(List.pairwise_append.1 h.increasing).1, List.pairwise_singleton _ _, fun p hp q hq => ?_⟩
    obtain rfl := List.mem_singleton.1 hq
    exact hlt p hp
  · intro p hp
    rcases List.mem_append.1 hp with hp | hp
    · rw [getElem?_append_of_lt (hlt p hp)]
      exact h.accepted p (List.mem_append_left rest hp)
    · obtain rfl := List.mem_singleton.1 hp
      simp
  · rintro c j (rfl | ⟨p, hp, rfl, hvoice⟩) hc
    · rw [List.length_append, List.length_singleton] at hc
      rcases hc.of_append with ⟨rfl, -⟩ | ⟨hplain, hc⟩
      · exact Or.inl ⟨_, List.mem_append_right _ (List.mem_singleton_self _), rfl⟩
      · apply hnext c hc
        rintro rfl
        cases hplain
    · rcases List.mem_append.1 hp with hp | hp
      · have hpl := hlt p hp
        rw [lastControl_append_iff hpl.le] at hc
        rw [getElem?_append_of_lt (hc.lt.trans hpl)]
        rcases h.before_voice c p.number (Or.inr ⟨p, List.mem_append_left rest hp, rfl, hvoice⟩) hc
          with ⟨q, hq, rfl⟩ | ⟨hlate, hiff⟩
        · rcases List.mem_append.1 hq with hq | hq
          · exact Or.inl ⟨q, List.mem_append_left _ hq, rfl⟩
          · have := (List.pairwise_append.1 h.increasing).2.2 p hp q hq
            have := hc.lt
            omega
        · refine Or.inr ⟨fun q hq => ?_, hiff⟩
          rcases List.mem_append.1 hq with hq | hq
          · exact hlate q (List.mem_append_left rest hq)
          · obtain rfl := List.mem_singleton.1 hq
            exact hc.lt.trans hpl
      · obtain rfl := List.mem_singleton.1 hp
        apply hnext c ((lastControl_append_iff le_rfl).1 hc)
        rintro rfl
        cases hvoice

/-- While a command that starts or ends a transmission is processed, `clientTxOpen` is free. -/
theorem set_open (h : Ordered ops (head :: queue) isOpen) (hhead : head.op.control = true) :
    Ordered ops (head :: queue) isOpen' := by
  refine ⟨h.increasing, h.accepted, fun c j hj hc => ?_⟩
  rcases h.before_voice c j hj hc with hpending | ⟨hlate, -⟩
  · exact Or.inl hpending
  · exfalso
    have hchead := hlate head List.mem_cons_self
    have hj' : head.number < j := by
      rcases hj with rfl | ⟨p, hp, rfl, hvoice⟩
      · exact h.lt_length List.mem_cons_self
      · rcases List.mem_cons.1 hp with rfl | hp
        · rw [TxSubmitOp.not_control hvoice] at hhead
          cases hhead
        · exact h.head_lt hp
    have hplain := hc.last _ hchead hj' _ (h.accepted head List.mem_cons_self)
    rw [hhead] at hplain
    cases hplain

/-- The command at the head is processed. -/
theorem finish (h : Ordered ops (head :: queue) isOpen)
    (hopen : head.op.control = true → (isOpen = true ↔ head.op = .txOpen)) :
    Ordered ops queue isOpen := by
  refine ⟨(List.pairwise_cons.1 h.increasing).2,
    fun p hp => h.accepted p (List.mem_cons_of_mem _ hp), fun c j hj hc => ?_⟩
  have hj' : j = ops.length ∨ ∃ p ∈ head :: queue, p.number = j ∧ p.op.voice = true := by
    rcases hj with hj | ⟨p, hp, heq, hvoice⟩
    · exact Or.inl hj
    · exact Or.inr ⟨p, List.mem_cons_of_mem _ hp, heq, hvoice⟩
  rcases h.before_voice c j hj' hc with ⟨p, hp, rfl⟩ | ⟨hlate, hiff⟩
  · rcases List.mem_cons.1 hp with rfl | hp
    · obtain ⟨op, hop, hcontrol⟩ := hc.control
      have hacc := h.accepted p List.mem_cons_self
      rw [hacc] at hop
      obtain rfl := Option.some.inj hop
      refine Or.inr ⟨fun q hq => h.head_lt hq, ?_⟩
      rw [hopen hcontrol, hacc, Option.some.injEq]
    · exact Or.inl ⟨p, hp, rfl⟩
  · exact Or.inr ⟨fun p hp => hlate p (List.mem_cons_of_mem _ hp), hiff⟩

/-- The transmission of a voice command is open when the worker gets to it. -/
theorem open_of_voiceOf (h : Ordered ops (head :: queue) isOpen) (hv : VoiceOf ops i head.number) :
    isOpen = true := by
  obtain ⟨op, hop, hvoice⟩ := hv.voice
  have hacc := h.accepted head List.mem_cons_self
  rw [hacc] at hop
  obtain rfl := Option.some.inj hop
  rcases h.before_voice i head.number (Or.inr ⟨head, List.mem_cons_self, rfl, hvoice⟩) hv.last
    with ⟨p, hp, rfl⟩ | ⟨-, hiff⟩
  · have := h.head_le hp
    have := hv.last.lt
    omega
  · exact hiff.2 hv.opened

end Ordered

/-! ## A steady session -/

/-- The item on whose behalf the worker ends a transmission. -/
def TxEnding.item : TxEnding → Option TxQueueItem
  | .watchdog => none
  | .reopen n => some ⟨.txOpen, n⟩
  | .close n => some ⟨.txClose, n⟩

/-- The item that the worker has taken out of the queue. -/
def WorkerPc.item : WorkerPc → Option TxQueueItem
  | .absent | .finished | .waiting => none
  | .openTest n | .startTest n | .startStore n | .beginTest n | .beginEmit n | .startDone n =>
    some ⟨.txOpen, n⟩
  | .endTest why | .endOpen why | .endStore why | .burstTest why | .burst why _ | .localTest why
  | .localEmit why | .endDone why => why.item
  | .voiceTest item | .voiceFeed item => some item
  | .voiceEnd n => some ⟨.txVoiceEnd, n⟩
  | .abort n _ => some ⟨.txAbort, n⟩

/-- The worker has set `clientTxOpen` and not yet finished the `Open`. -/
def WorkerPc.begun : WorkerPc → Bool
  | .beginTest _ | .beginEmit _ | .startDone _ => true
  | _ => false

namespace TxPipeline

/-- The commands that are accepted, not discarded and not finished, in the order of the worker. -/
def pending (s : TxPipeline) : List TxQueueItem := s.worker.item.toList ++ s.queue

/-- The connection stays, no `Abort` is submitted, and the worker does not wait for the watchdog. -/
def Steady (s : TxPipeline) : TxAction → Prop
  | .lose | .stop | .forgetWelcome => False
  | .submit _ op => op ≠ .txAbort
  | .worker => s.worker = .waiting → s.queue = [] → s.watchdogDue = false
  | .elapse _ | .push _ | .ensure _ | .stopTxPipeline | .teardown => True

instance (s : TxPipeline) (a : TxAction) : Decidable (s.Steady a) := by
  unfold Steady
  cases a <;> exact inferInstance

/-- What the worker knows at each step on a steady session. -/
def Processing (s : TxPipeline) : WorkerPc → Prop
  | .startTest _ | .startStore _ => s.clientTxOpen = false
  | .beginTest n | .beginEmit n | .startDone n => s.clientTxOpen = true ∧ s.openedBy = n
  | .endTest why | .endOpen why => why ≠ .watchdog
  | .endStore why => why ≠ .watchdog ∧ s.clientTxOpen = true
  | .burstTest why | .burst why _ | .localTest why | .localEmit why =>
    s.clientTxOpen = false ∧ ∃ p ∈ why.item, s.openedBy < p.number
  | .endDone why => why ≠ .watchdog ∧ s.clientTxOpen = false
  | .voiceTest item => item.op.voice = true
  | .voiceFeed item => item.op.voice = true ∧ s.clientTxOpen = true
  | .abort _ _ => False
  | .absent | .finished | .waiting | .openTest _ | .voiceEnd _ => True

/-- The session is connected and nothing stops or aborts it. -/
structure Up (s : TxPipeline) : Prop where
  connected : s.connected = true
  sessionId : s.sessionId ≠ 0
  running : s.stopRequested = false
  working : s.txWorkerStop = false
  teardown : s.teardown = .idle
  producers : ∀ k, s.producer k ≠ .checked .txAbort
  accepted : ∀ op ∈ s.accepted, op ≠ .txAbort

structure Ready (s : TxPipeline) : Prop where
  up : s.Up
  order : Ordered s.accepted s.pending s.clientTxOpen
  processing : s.Processing s.worker
  opened : s.clientTxOpen = true → s.openedBy < s.accepted.length ∧
    ∀ p ∈ s.pending, s.openedBy ≤ p.number ∧ (s.openedBy = p.number → s.worker.begun = true)

/-- What a step does to the pending commands. -/
inductive Effect (s s' : TxPipeline) (out : List TxOutput) : Prop where
  | stay (hpending : s'.pending = s.pending) (haccepted : s'.accepted = s.accepted)
      (hfed : ∀ n, .fed n ∉ out)
      (heof : ∀ i, .eof i ∈ out → ∃ p ∈ s.pending.head?, p.op.control = true ∧ i < p.number)
  | accept (op : TxSubmitOp) (kept rest : List TxQueueItem) (hpending : s.pending = kept ++ rest)
      (hrest : op ≠ .txOpen → rest = [])
      (hpending' : s'.pending = kept ++ [⟨op, s.accepted.length⟩])
      (haccepted : s'.accepted = s.accepted ++ [op])
      (hout : out = rest.map fun p => .dropped p.number)
  | finish (head : TxQueueItem) (hpending : s.pending = head :: s'.pending)
      (haccepted : s'.accepted = s.accepted)
      (hout : out = [.fed head.number] ∨ out = [] ∧ ∀ i, ¬ VoiceOf s.accepted i head.number)

variable {s s' : TxPipeline}

theorem dispatch_item (item : TxQueueItem) : (dispatch item).item = some item := by
  obtain ⟨op, n⟩ := item
  cases op <;> rfl

theorem pending_eq {pc : WorkerPc} {head : TxQueueItem} (hpc : s.worker = pc)
    (hitem : pc.item = some head) : s.pending = head :: s.queue := by
  unfold pending
  rw [hpc, hitem]
  rfl

theorem pending_idle {pc : WorkerPc} (hpc : s.worker = pc) (hitem : pc.item = none) :
    s.pending = s.queue := by
  unfold pending
  rw [hpc, hitem]
  rfl

/-- The state of the connection, of the callers and of what they have submitted. -/
def link (s : TxPipeline) :=
  (s.connected, s.sessionId, s.stopRequested, s.txWorkerStop, s.teardown, s.producer, s.accepted)

theorem Up.of_link (h : s.Up) (hl : s'.link = s.link) : s'.Up := by
  simp only [link, Prod.mk.injEq] at hl
  obtain ⟨hc, hid, hr, hw, ht, hp, ha⟩ := hl
  exact ⟨hc ▸ h.connected, hid ▸ h.sessionId, hr ▸ h.running, hw ▸ h.working, ht ▸ h.teardown,
    hp ▸ h.producers, ha ▸ h.accepted⟩

theorem accepted_of_link (hl : s'.link = s.link) : s'.accepted = s.accepted := by
  simp only [link, Prod.mk.injEq] at hl
  exact hl.2.2.2.2.2.2

/-- A step leads to a ready state, with one of the effects. -/
def Advances (s : TxPipeline) (r : TxPipeline × List TxOutput) : Prop :=
  Ready r.1 ∧ Effect s r.1 r.2

theorem Effect.quiet {out : List TxOutput} (ha : s'.accepted = s.accepted)
    (hpending : s'.pending = s.pending) (hout : ∀ o ∈ out, o = .localTxStart ∨ o = .localTxEnd) :
    Effect s s' out := by
  refine .stay hpending ha ?_ ?_
  all_goals
    intro n hn
    rcases hout _ hn with h | h <;> cases h

/-- A step that neither touches the transmission nor what is pending. -/
theorem Ready.frame (h : Ready s) (hup : s'.Up) (ha : s'.accepted = s.accepted)
    (hpending : s'.pending = s.pending) (ho : s'.clientTxOpen = s.clientTxOpen)
    (hb : s'.openedBy = s.openedBy) (hbegun : s.worker.begun = true → s'.worker.begun = true)
    (hproc : s'.Processing s'.worker) : Ready s' := by
  refine ⟨hup, ?_, hproc, ?_⟩
  · rw [ha, hpending, ho]
    exact h.order
  · rw [ha, hpending, ho, hb]
    intro hopen
    obtain ⟨hlt, hle⟩ := h.opened hopen
    exact ⟨hlt, fun p hp => ⟨(hle p hp).1, fun heq => hbegun ((hle p hp).2 heq)⟩⟩

theorem Processing.congr {pc : WorkerPc} (ho : s'.clientTxOpen = s.clientTxOpen)
    (hb : s'.openedBy = s.openedBy) (h : s.Processing pc) : s'.Processing pc := by
  unfold Processing at *
  rwa [ho, hb]

/-- The worker sets `clientTxOpen` for its item. -/
theorem Ready.sets (h : Ready s) {head : TxQueueItem} (hl : s'.link = s.link)
    (hhead : s.pending = head :: s.queue) (hpending : s'.pending = s.pending)
    (hcontrol : head.op.control = true) (hproc : s'.Processing s'.worker)
    (hopened : s'.clientTxOpen = true → s'.openedBy = head.number ∧ s'.worker.begun = true) :
    Ready s' := by
  have ha := accepted_of_link hl
  have horder := h.order
  rw [hhead] at horder
  refine ⟨h.up.of_link hl, ?_, hproc, ?_⟩
  · rw [ha, hpending, hhead]
    exact horder.set_open hcontrol
  · rw [ha, hpending, hhead]
    intro hopen
    obtain ⟨heq, hbegun⟩ := hopened hopen
    rw [heq]
    exact ⟨horder.lt_length List.mem_cons_self, fun p hp => ⟨horder.head_le hp, fun _ => hbegun⟩⟩

/-- The worker is done with its item. -/
theorem Ready.finishes (h : Ready s) {head : TxQueueItem} {out : List TxOutput}
    (hl : s'.link = s.link) (hhead : s.pending = head :: s.queue) (hw : s'.worker = .waiting)
    (hq : s'.queue = s.queue) (ho : s'.clientTxOpen = s.clientTxOpen)
    (hb : s'.openedBy = s.openedBy)
    (hcontrol : head.op.control = true → (s.clientTxOpen = true ↔ head.op = .txOpen))
    (hout : out = [.fed head.number] ∨ out = [] ∧ ∀ i, ¬ VoiceOf s.accepted i head.number) :
    Advances s (s', out) := by
  have ha := accepted_of_link hl
  have hpending : s'.pending = s.queue := by
    rw [pending_idle hw rfl, hq]
  have horder := h.order
  rw [hhead] at horder
  refine ⟨⟨h.up.of_link hl, ?_, ?_, ?_⟩, .finish head ?_ ha hout⟩
  · rw [ha, hpending, ho]
    exact horder.finish hcontrol
  · simp only [hw]
    trivial
  · simp only
    rw [ha, hpending, ho, hb]
    intro hopen
    obtain ⟨hlt, hle⟩ := h.opened hopen
    rw [hhead] at hle
    refine ⟨hlt, fun p hp => ?_⟩
    have hheadle := (hle head List.mem_cons_self).1
    have hlate := horder.head_lt hp
    exact ⟨by omega, fun heq => by omega⟩
  · rw [hpending, hhead]

theorem Ready.not_voiceOf (h : Ready s) {head : TxQueueItem} (hhead : s.pending = head :: s.queue)
    (hop : head.op.voice = false) (i : ℕ) : ¬ VoiceOf s.accepted i head.number := by
  intro hv
  obtain ⟨op, hacc, hvoice⟩ := hv.voice
  have horder := h.order
  rw [hhead] at horder
  rw [horder.accepted head List.mem_cons_self] at hacc
  obtain rfl := Option.some.inj hacc
  rw [hop] at hvoice
  cases hvoice

theorem control_of_mem_item {why : TxEnding} {p : TxQueueItem} (hp : p ∈ why.item) :
    p.op.control = true := by
  cases why <;> simp [TxEnding.item] at hp <;> subst hp <;> rfl

theorem exists_item {why : TxEnding} (hwhy : why ≠ .watchdog) : ∃ p, why.item = some p := by
  cases why with
  | watchdog => exact absurd rfl hwhy
  | reopen n | close n => exact ⟨_, rfl⟩

/-- The worker takes a step with its item that does not touch the transmission, and emits no more
than an event. -/
theorem Ready.keeps (h : Ready s) {pc : WorkerPc} {out : List TxOutput} (hpc : s.worker = pc)
    (hl : s'.link = s.link) (hpending : s'.pending = s.pending)
    (ho : s'.clientTxOpen = s.clientTxOpen) (hb : s'.openedBy = s.openedBy)
    (hbegun : pc.begun = true → s'.worker.begun = true) (hproc : s'.Processing s'.worker)
    (hout : ∀ o ∈ out, o = .localTxStart ∨ o = .localTxEnd) : Advances s (s', out) := by
  subst hpc
  exact ⟨h.frame (h.up.of_link hl) (accepted_of_link hl) hpending ho hb hbegun hproc,
    .quiet (accepted_of_link hl) hpending hout⟩

/-- The transmission that is being ended was opened before the item that ends it. -/
theorem Ready.openedBy_lt (h : Ready s) {head : TxQueueItem} (hhead : s.pending = head :: s.queue)
    (hopen : s.clientTxOpen = true) (hbegun : s.worker.begun = false) :
    s.openedBy < head.number := by
  obtain ⟨hle, heq⟩ := (h.opened hopen).2 head (by simp [hhead])
  refine lt_of_le_of_ne hle fun hnum => ?_
  rw [heq hnum] at hbegun
  cases hbegun

/-- A voice command that the worker finds no open transmission for belongs to none. -/
theorem Ready.not_voiceOf_of_closed (h : Ready s) {head : TxQueueItem}
    (hhead : s.pending = head :: s.queue) (hclosed : s.clientTxOpen = false) (i : ℕ) :
    ¬ VoiceOf s.accepted i head.number := by
  intro hv
  have horder := h.order
  rw [hhead] at horder
  rw [horder.open_of_voiceOf hv] at hclosed
  cases hclosed

theorem Ready.worker_advances (h : Ready s) (hC : s.Steady .worker) :
    Advances s (step s .worker) := by
  have hproc := h.processing
  have hsame : s.worker.item.toList ++ s.queue = s.pending := rfl
  cases hpc : s.worker with
  | absent | finished =>
    rw [hpc] at hsame
    rw [step_worker hpc]
    exact h.keeps hpc rfl hsame rfl rfl nofun trivial nofun
  | waiting =>
    rw [hpc] at hsame
    rw [step_worker hpc]
    cases hq : s.queue with
    | nil =>
      simp only [workerExec, hq, h.up.working, hC hpc hq]
      exact h.keeps hpc rfl (hsame.trans (by simp)) rfl rfl nofun trivial nofun
    | cons item queue =>
      simp only [workerExec, hq]
      have hpend : (dispatch item).item.toList ++ queue = s.pending := by
        rw [dispatch_item, ← hsame, hq]
        rfl
      have habort : item.op ≠ .txAbort := by
        have hacc := h.order.accepted item (by rw [← hsame, hq]; exact List.mem_cons_self)
        exact h.up.accepted _ (List.mem_of_getElem? hacc)
      refine h.keeps hpc rfl hpend rfl rfl nofun ?_ nofun
      cases hop : item.op <;> simp [dispatch, hop, Processing, TxSubmitOp.voice] at habort ⊢
  | openTest n =>
    rw [hpc] at hsame
    rw [step_worker hpc]
    simp only [workerExec]
    split_ifs with ho
    · exact h.keeps hpc rfl hsame rfl rfl nofun nofun nofun
    · exact h.keeps hpc rfl hsame rfl rfl nofun (by simpa [Processing] using ho) nofun
  | startTest n =>
    rw [hpc] at hsame hproc
    rw [step_worker hpc]
    simp only [workerExec, if_pos (And.intro h.up.connected h.up.sessionId)]
    exact h.keeps hpc rfl hsame rfl rfl nofun hproc nofun
  | startStore n =>
    have hhead := pending_eq hpc rfl
    rw [hpc] at hsame
    rw [step_worker hpc]
    exact ⟨h.sets rfl hhead hsame rfl ⟨rfl, rfl⟩ fun _ => ⟨rfl, rfl⟩, .quiet rfl hsame nofun⟩
  | beginTest n =>
    rw [hpc] at hsame hproc
    rw [step_worker hpc]
    simp only [workerExec]
    split_ifs
    all_goals exact h.keeps hpc rfl hsame rfl rfl (fun _ => rfl) hproc nofun
  | beginEmit n =>
    rw [hpc] at hsame hproc
    rw [step_worker hpc]
    exact h.keeps hpc rfl hsame rfl rfl (fun _ => rfl) hproc (by simp [workerExec])
  | startDone n =>
    rw [hpc] at hproc
    rw [step_worker hpc]
    exact h.finishes rfl (pending_eq hpc rfl) rfl rfl rfl rfl (fun _ => by simp [hproc.1])
      (Or.inr ⟨rfl, h.not_voiceOf (pending_eq hpc rfl) rfl⟩)
  | endTest why =>
    rw [hpc] at hsame hproc
    rw [step_worker hpc]
    simp only [workerExec, if_pos h.up.connected]
    exact h.keeps hpc rfl hsame rfl rfl nofun hproc nofun
  | endOpen why =>
    rw [hpc] at hsame hproc
    rw [step_worker hpc]
    simp only [workerExec]
    split_ifs with ho
    · exact h.keeps hpc rfl hsame rfl rfl nofun ⟨hproc, ho⟩ nofun
    · exact h.keeps hpc rfl hsame rfl rfl nofun ⟨hproc, by simpa using ho⟩ nofun
  | endStore why =>
    rw [hpc] at hsame hproc
    obtain ⟨head, hitem⟩ := exists_item hproc.1
    have hhead := pending_eq hpc hitem
    have hlt := h.openedBy_lt hhead hproc.2 (by rw [hpc]; rfl)
    rw [step_worker hpc]
    refine ⟨h.sets rfl hhead hsame (control_of_mem_item hitem) ⟨rfl, head, hitem, hlt⟩ nofun,
      .quiet rfl hsame nofun⟩
  | burstTest why =>
    rw [hpc] at hsame hproc
    rw [step_worker hpc]
    simp only [workerExec, if_pos h.up.connected]
    exact h.keeps hpc rfl hsame rfl rfl nofun hproc nofun
  | burst why left =>
    rw [hpc] at hsame hproc
    rw [step_worker hpc]
    cases left with
    | zero => exact h.keeps hpc rfl hsame rfl rfl nofun hproc nofun
    | succ left =>
      obtain ⟨head, hitem, hlt⟩ := hproc.2
      have hrun : ¬ s.stopRequested = true := by simp [h.up.running]
      simp only [workerExec, if_neg hrun, if_neg h.up.sessionId]
      refine ⟨h.frame (h.up.of_link rfl) rfl hsame rfl rfl (by simp [hpc, WorkerPc.begun]) hproc,
        .stay hsame rfl (by simp) fun i hi => ?_⟩
      obtain rfl : i = s.openedBy := by simpa using hi
      refine ⟨head, ?_, control_of_mem_item hitem, hlt⟩
      rw [pending_eq hpc hitem]
      rfl
  | localTest why =>
    rw [hpc] at hsame hproc
    rw [step_worker hpc]
    simp only [workerExec]
    split_ifs
    · exact h.keeps hpc rfl hsame rfl rfl nofun hproc nofun
    · refine h.keeps hpc rfl hsame rfl rfl nofun ⟨?_, hproc.1⟩ nofun
      rintro rfl
      obtain ⟨p, hp, -⟩ := hproc.2
      cases hp
  | localEmit why =>
    rw [hpc] at hsame hproc
    rw [step_worker hpc]
    refine h.keeps hpc rfl hsame rfl rfl nofun ⟨?_, hproc.1⟩ (by simp [workerExec])
    rintro rfl
    obtain ⟨p, hp, -⟩ := hproc.2
    cases hp
  | endDone why =>
    rw [hpc] at hsame hproc
    rw [step_worker hpc]
    cases why with
    | watchdog => exact absurd rfl hproc.1
    | reopen n => exact h.keeps hpc rfl hsame rfl rfl nofun hproc.2 nofun
    | close n =>
      exact h.finishes rfl (pending_eq hpc rfl) rfl rfl rfl rfl (fun _ => by simp [hproc.2])
        (Or.inr ⟨rfl, h.not_voiceOf (pending_eq hpc rfl) rfl⟩)
  | voiceTest item =>
    rw [hpc] at hsame hproc
    rw [step_worker hpc]
    simp only [workerExec]
    split_ifs with ho
    · exact h.keeps hpc rfl hsame rfl rfl nofun ⟨hproc, ho⟩ nofun
    · exact h.finishes rfl (pending_eq hpc rfl) rfl rfl rfl rfl
        (by simp [TxSubmitOp.not_control hproc])
        (Or.inr ⟨rfl, h.not_voiceOf_of_closed (pending_eq hpc rfl) (by simpa using ho)⟩)
  | voiceFeed item =>
    rw [hpc] at hsame hproc
    rw [step_worker hpc]
    simp only [workerExec, if_pos (And.intro h.up.connected (And.intro h.up.sessionId hproc.2))]
    exact h.finishes rfl (pending_eq hpc rfl) rfl rfl rfl rfl
      (by simp [TxSubmitOp.not_control hproc.1]) (Or.inl rfl)
  | voiceEnd n =>
    rw [step_worker hpc]
    exact h.finishes rfl (pending_eq hpc rfl) rfl rfl rfl rfl nofun
      (Or.inr ⟨rfl, h.not_voiceOf (pending_eq hpc rfl) rfl⟩)
  | abort n pc =>
    rw [hpc] at hproc
    exact absurd hproc id

/-! ### The callers -/

theorem Up.setProducer (h : s.Up) (k : ℕ) (pc : ProducerPc) (hpc : pc ≠ .checked .txAbort) :
    (s.setProducer k pc).Up := by
  refine ⟨h.connected, h.sessionId, h.running, h.working, h.teardown, fun k' => ?_, h.accepted⟩
  unfold TxPipeline.setProducer
  simp only [Function.update_apply]
  split_ifs
  · exact hpc
  · exact h.producers k'

/-- A caller takes a step that leaves the queue as it is. -/
theorem Ready.setProducer (h : Ready s) (k : ℕ) (pc : ProducerPc)
    (hpc : pc ≠ .checked .txAbort) : Advances s (s.setProducer k pc, []) :=
  ⟨h.frame (h.up.setProducer k pc hpc) rfl rfl rfl rfl id (h.processing.congr rfl rfl),
    .quiet rfl rfl nofun⟩

/-- A command is accepted while the first of the pending ones are kept. -/
theorem Ready.accepts (h : Ready s) {op : TxSubmitOp} (kept rest : List TxQueueItem)
    (hpending : s.pending = kept ++ rest) (hrest : op ≠ .txOpen → rest = [])
    (hup : s'.Up) (ha : s'.accepted = s.accepted ++ [op])
    (hpending' : s'.pending = kept ++ [⟨op, s.accepted.length⟩])
    (ho : s'.clientTxOpen = s.clientTxOpen) (hb : s'.openedBy = s.openedBy)
    (hw : s'.worker = s.worker) :
    Advances s (s', rest.map fun p => .dropped p.number) := by
  refine ⟨⟨hup, ?_, ?_, ?_⟩, .accept op kept rest hpending hrest hpending' ha rfl⟩
  · rw [ha, hpending', ho]
    refine h.order.push ⟨rest, hpending.symm⟩ fun hne => ?_
    rw [hpending, hrest hne, List.append_nil]
  · rw [hw]
    exact h.processing.congr ho hb
  · rw [ha, hpending', ho, hb, hw, List.length_append, List.length_singleton]
    intro hopen
    obtain ⟨hlt, hle⟩ := h.opened hopen
    refine ⟨by omega, fun p hp => ?_⟩
    rcases List.mem_append.1 hp with hp | hp
    · exact hle p (by rw [hpending]; exact List.mem_append_left rest hp)
    · obtain rfl := List.mem_singleton.1 hp
      exact ⟨hlt.le, fun heq => absurd heq (by simp only; omega)⟩

theorem Up.accept (h : s.Up) (k : ℕ) {op : TxSubmitOp} (hop : op ≠ .txAbort)
    (queue : List TxQueueItem) :
    ({ s.setProducer k .pushed with
        queue := queue
        accepted := s.accepted ++ [op] } : TxPipeline).Up := by
  have hset := h.setProducer k .pushed nofun
  refine ⟨hset.connected, hset.sessionId, hset.running, hset.working, hset.teardown,
    hset.producers, fun o ho => ?_⟩
  rcases List.mem_append.1 ho with ho | ho
  · exact h.accepted o ho
  · obtain rfl := List.mem_singleton.1 ho
    exact hop

theorem Ready.push_advances (h : Ready s) (k : ℕ) {op : TxSubmitOp} (hop : op ≠ .txAbort) :
    Advances s (s.push k op) := by
  unfold push
  split_ifs with hstop hfull hopen
  · exact h.setProducer k .idle nofun
  · exact h.setProducer k .idle nofun
  · subst hopen
    exact h.accepts s.worker.item.toList s.queue rfl (fun hne => absurd rfl hne)
      (h.up.accept k hop _) rfl rfl rfl rfl rfl
  · exact h.accepts s.pending [] (List.append_nil _).symm (fun _ => rfl)
      (h.up.accept k hop _) rfl (List.append_assoc _ _ _).symm rfl rfl rfl

theorem Ready.ensure_advances (h : Ready s) (k : ℕ) : Advances s (step s (.ensure k)) := by
  simp only [step]
  split_ifs with hk
  · unfold ensureTxWorkerStarted
    split_ifs with hrun
    · exact h.setProducer k .idle nofun
    · have hpending := pending_idle (hk.2.resolve_left hrun) rfl
      have hlink : ({ s with
          txWorkerStop := false
          worker := .waiting
          txWorkerRunning := true } : TxPipeline).link = s.link := by
        simp [link, h.up.working]
      have hstarted := h.frame (h.up.of_link hlink) rfl hpending.symm rfl rfl
        (by simp [hk.2.resolve_left hrun, WorkerPc.begun]) trivial
      exact ⟨(hstarted.setProducer k .idle nofun).1, .quiet rfl hpending.symm nofun⟩
  · exact ⟨h, .quiet rfl rfl nofun⟩

theorem Ready.advances (h : Ready s) (a : TxAction) (hC : s.Steady a) :
    Advances s (step s a) := by
  cases a with
  | elapse dt =>
    exact ⟨h.frame (h.up.of_link rfl) rfl rfl rfl rfl id (h.processing.congr rfl rfl),
      .quiet rfl rfl nofun⟩
  | submit k op =>
    simp only [step]
    split_ifs
    · exact h.setProducer k (.checked op) (by simpa [Steady] using hC)
    · exact ⟨h, .quiet rfl rfl nofun⟩
  | push k =>
    simp only [step]
    split
    · next op hop =>
      apply h.push_advances k
      rintro rfl
      exact h.up.producers k hop
    · exact ⟨h, .quiet rfl rfl nofun⟩
  | ensure k => exact h.ensure_advances k
  | worker => exact h.worker_advances hC
  | stopTxPipeline =>
    simp only [step]
    split_ifs with hidle
    · rw [h.up.connected] at hidle
      cases hidle.2
    · exact ⟨h, .quiet rfl rfl nofun⟩
  | teardown =>
    simp only [step, h.up.teardown, teardownExec]
    have hlink : ({ s with teardown := .idle } : TxPipeline).link = s.link := by
      simp [link, h.up.teardown]
    exact ⟨h.frame (h.up.of_link hlink) rfl rfl rfl rfl id (h.processing.congr rfl rfl),
      .quiet rfl rfl nofun⟩
  | lose | stop | forgetWelcome => exact absurd hC id

theorem ready_welcomed {sessionId : ℕ} (hid : sessionId ≠ 0) (now : ℤ) :
    Ready (welcomed sessionId now) :=
  ⟨⟨rfl, hid, rfl, rfl, rfl, nofun, nofun⟩, .nil, trivial, nofun⟩

/-! ### What is fed and what is ended -/

/-- The numbers of the commands that are fed, in order. -/
def fedNumbers (outs : List TxOutput) : List ℕ :=
  outs.filterMap fun o => match o with
    | .fed n => some n
    | _ => none

theorem fedNumbers_append (outs out : List TxOutput) :
    fedNumbers (outs ++ out) = fedNumbers outs ++ fedNumbers out :=
  List.filterMap_append

theorem mem_fedNumbers {outs : List TxOutput} {n : ℕ} : n ∈ fedNumbers outs ↔ .fed n ∈ outs := by
  unfold fedNumbers
  rw [List.mem_filterMap]
  constructor
  · rintro ⟨o, ho, heq⟩
    cases o <;> simp at heq
    subst heq
    exact ho
  · exact fun h => ⟨_, h, rfl⟩

theorem fedNumbers_eq_nil {out : List TxOutput} (h : ∀ n, .fed n ∉ out) : fedNumbers out = [] := by
  rw [List.eq_nil_iff_forall_not_mem]
  exact fun n hn => h n (mem_fedNumbers.1 hn)

/-- What has become of the accepted commands.  `ended`: a burst has a command that ends the
transmission, and the voice in front of that is dealt with. -/
structure Delivered (s : TxPipeline) (outs : List TxOutput) : Prop where
  kept : ∀ i j, VoiceOf s.accepted i j →
    (∃ p ∈ s.pending, p.number = j) ∨ .fed j ∈ outs ∨ .dropped j ∈ outs
  fed_lt : ∀ n, .fed n ∈ outs → n < s.accepted.length ∧ ∀ p ∈ s.pending, n < p.number
  in_order : (fedNumbers outs).Pairwise (· < ·)
  ended : ∀ pre i post, outs = pre ++ .eof i :: post →
    ∃ c op, i < c ∧ s.accepted[c]? = some op ∧ op.control = true ∧
      ∀ j, j < c → VoiceOf s.accepted i j → .fed j ∈ pre ∨ .dropped j ∈ pre

theorem eof_of_append {outs out pre post : List TxOutput} {i : ℕ}
    (h : outs ++ out = pre ++ .eof i :: post) :
    (∃ post', outs = pre ++ .eof i :: post') ∨
      ∃ pre', pre = outs ++ pre' ∧ out = pre' ++ .eof i :: post := by
  rcases List.append_eq_append_iff.1 h with ⟨pre', hpre, hout⟩ | ⟨rest, houts, hrest⟩
  · exact Or.inr ⟨pre', hpre, hout⟩
  · cases rest with
    | nil =>
      rw [List.append_nil] at houts
      exact Or.inr ⟨[], by rw [houts, List.append_nil], hrest.symm⟩
    | cons o rest =>
      obtain ⟨rfl, -⟩ := List.cons.inj hrest
      exact Or.inl ⟨rest, houts⟩

theorem Delivered.stay {outs out : List TxOutput} (h : Delivered s outs) (hs : Ready s)
    (hpending : s'.pending = s.pending) (ha : s'.accepted = s.accepted)
    (hfed : ∀ n, .fed n ∉ out)
    (heof : ∀ i, .eof i ∈ out → ∃ p ∈ s.pending.head?, p.op.control = true ∧ i < p.number) :
    Delivered s' (outs ++ out) := by
  refine ⟨?_, ?_, ?_, ?_⟩
  · intro i j hv
    rw [ha] at hv
    rw [hpending]
    rcases h.kept i j hv with hp | hf | hd
    · exact Or.inl hp
    · exact Or.inr (Or.inl (List.mem_append_left out hf))
    · exact Or.inr (Or.inr (List.mem_append_left out hd))
  · intro n hn
    rw [ha, hpending]
    rcases List.mem_append.1 hn with hn | hn
    · exact h.fed_lt n hn
    · exact absurd hn (hfed n)
  · rw [fedNumbers_append, fedNumbers_eq_nil hfed, List.append_nil]
    exact h.in_order
  · intro pre i post heq
    rw [ha]
    rcases eof_of_append heq with ⟨post', houts⟩ | ⟨pre', rfl, hout⟩
    · exact h.ended pre i post' houts
    · -- the command that ends the transmission is at the head, so nothing before it is pending
      obtain ⟨head, hhead, hcontrol, hlt⟩ := heof i (by simp [hout])
      obtain ⟨queue, hqueue⟩ := List.head?_eq_some_iff.1 hhead
      have horder := hs.order
      rw [hqueue] at horder
      refine ⟨head.number, head.op, hlt, horder.accepted head List.mem_cons_self, hcontrol, ?_⟩
      intro j hj hv
      rcases h.kept i j hv with ⟨p, hp, rfl⟩ | hf | hd
      · rw [hqueue] at hp
        have := horder.head_le hp
        omega
      · exact Or.inl (List.mem_append_left pre' hf)
      · exact Or.inr (List.mem_append_left pre' hd)

theorem Delivered.accept {outs : List TxOutput} {op : TxSubmitOp} {kept rest : List TxQueueItem}
    (h : Delivered s outs) (hpending : s.pending = kept ++ rest)
    (hpending' : s'.pending = kept ++ [⟨op, s.accepted.length⟩])
    (ha : s'.accepted = s.accepted ++ [op]) :
    Delivered s' (outs ++ rest.map fun p => .dropped p.number) := by
  have hnew : (⟨op, s.accepted.length⟩ : TxQueueItem) ∈ s'.pending := by
    rw [hpending']
    exact List.mem_append_right _ (List.mem_singleton_self _)
  refine ⟨?_, ?_, ?_, ?_⟩
  · intro i j hv
    rw [ha] at hv
    obtain ⟨o, ho, -⟩ := hv.voice
    have hj : j < s.accepted.length + 1 := by simpa using lt_length_of_getElem? ho
    rcases Nat.lt_succ_iff_lt_or_eq.1 hj with hj | rfl
    · rcases h.kept i j ((voiceOf_append_iff hj).1 hv) with ⟨p, hp, rfl⟩ | hf | hd
      · rw [hpending] at hp
        rcases List.mem_append.1 hp with hp | hp
        · exact Or.inl ⟨p, by rw [hpending']; exact List.mem_append_left _ hp, rfl⟩
        · exact Or.inr (Or.inr (List.mem_append_right _ (List.mem_map_of_mem hp)))
      · exact Or.inr (Or.inl (List.mem_append_left _ hf))
      · exact Or.inr (Or.inr (List.mem_append_left _ hd))
    · exact Or.inl ⟨_, hnew, rfl⟩
  · intro n hn
    have hold : .fed n ∈ outs := by
      rcases List.mem_append.1 hn with hn | hn
      · exact hn
      · simp at hn
    obtain ⟨hlt, hlate⟩ := h.fed_lt n hold
    rw [ha, hpending', List.length_append, List.length_singleton]
    refine ⟨by omega, fun p hp => ?_⟩
    rcases List.mem_append.1 hp with hp | hp
    · exact hlate p (by rw [hpending]; exact List.mem_append_left rest hp)
    · obtain rfl := List.mem_singleton.1 hp
      exact hlt
  · have hnone : fedNumbers (rest.map fun p => .dropped p.number) = [] :=
      fedNumbers_eq_nil (by simp)
    rw [fedNumbers_append, hnone, List.append_nil]
    exact h.in_order
  · intro pre i post heq
    rcases eof_of_append heq with ⟨post', houts⟩ | ⟨pre', -, hout⟩
    · obtain ⟨c, o, hic, hc, hcontrol, hdone⟩ := h.ended pre i post' houts
      have hlt := lt_length_of_getElem? hc
      refine ⟨c, o, hic, ?_, hcontrol, fun j hj hv => hdone j hj ?_⟩
      · rw [ha, getElem?_append_of_lt hlt, hc]
      · rw [ha] at hv
        exact (voiceOf_append_iff (hj.trans hlt)).1 hv
    · have hmem : TxOutput.eof i ∈ rest.map fun p => .dropped p.number := by simp [hout]
      simp at hmem

theorem Delivered.finish {outs out : List TxOutput} {head : TxQueueItem} (h : Delivered s outs)
    (hs : Ready s) (hpending : s.pending = head :: s'.pending) (ha : s'.accepted = s.accepted)
    (hout : out = [.fed head.number] ∨ out = [] ∧ ∀ i, ¬ VoiceOf s.accepted i head.number) :
    Delivered s' (outs ++ out) := by
  have horder := hs.order
  rw [hpending] at horder
  refine ⟨?_, ?_, ?_, ?_⟩
  · intro i j hv
    rw [ha] at hv
    rcases h.kept i j hv with ⟨p, hp, rfl⟩ | hf | hd
    · rw [hpending] at hp
      rcases List.mem_cons.1 hp with rfl | hp
      · rcases hout with rfl | ⟨-, hno⟩
        · exact Or.inr (Or.inl (List.mem_append_right outs (List.mem_singleton_self _)))
        · exact absurd hv (hno i)
      · exact Or.inl ⟨p, hp, rfl⟩
    · exact Or.inr (Or.inl (List.mem_append_left out hf))
    · exact Or.inr (Or.inr (List.mem_append_left out hd))
  · intro n hn
    rw [ha]
    rcases List.mem_append.1 hn with hn | hn
    · obtain ⟨hlt, hlate⟩ := h.fed_lt n hn
      exact ⟨hlt, fun p hp => hlate p (by rw [hpending]; exact List.mem_cons_of_mem _ hp)⟩
    · rcases hout with rfl | ⟨rfl, -⟩
      · obtain rfl : n = head.number := by simpa using hn
        exact ⟨horder.lt_length List.mem_cons_self, fun p hp => horder.head_lt hp⟩
      · cases hn
  · rw [fedNumbers_append]
    rcases hout with rfl | ⟨rfl, -⟩
    · refine List.pairwise_append.2 ⟨h.in_order, List.pairwise_singleton _ _, fun n hn m hm => ?_⟩
      obtain rfl := List.mem_singleton.1 hm
      exact (h.fed_lt n (mem_fedNumbers.1 hn)).2 head (by simp [hpending])
    · exact List.pairwise_append.2 ⟨h.in_order, List.Pairwise.nil, by simp [fedNumbers]⟩
  · intro pre i post heq
    rw [ha]
    rcases eof_of_append heq with ⟨post', houts⟩ | ⟨pre', -, hpre⟩
    · exact h.ended pre i post' houts
    · rcases hout with rfl | ⟨rfl, -⟩
      · have hmem : TxOutput.eof i ∈ [TxOutput.fed head.number] := by simp [hpre]
        simp at hmem
      · simp at hpre

theorem Delivered.advances {outs out : List TxOutput} (h : Delivered s outs) (hs : Ready s)
    (he : Effect s s' out) : Delivered s' (outs ++ out) := by
  cases he with
  | stay hpending ha hfed heof => exact h.stay hs hpending ha hfed heof
  | accept op kept rest hpending hrest hpending' ha hout =>
    rw [hout]
    exact h.accept hpending hpending' ha
  | finish head hpending ha hout => exact h.finish hs hpending ha hout

theorem delivered_welcomed (sessionId : ℕ) (now : ℤ) : Delivered (welcomed sessionId now) [] := by
  refine ⟨?_, by simp, List.Pairwise.nil, by simp⟩
  intro i j hv
  obtain ⟨op, hop, -⟩ := hv.voice
  cases hop

/-! ### What is discarded -/

theorem workerExec_dropped {pc : WorkerPc} {n : ℕ} (h : .dropped n ∈ (s.workerExec pc).2.2) :
    ∃ m pc', pc = .abort m pc' := by
  cases pc with
  | waiting =>
    simp only [workerExec] at h
    split at h
    · split_ifs at h <;> cases h
    · cases h
  | beginEmit | localEmit => simp [workerExec] at h
  | burst why left =>
    cases left with
    | zero => cases h
    | succ left =>
      simp only [workerExec] at h
      split_ifs at h <;> simp at h
  | endDone why => cases why <;> cases h
  | voiceFeed item =>
    simp only [workerExec] at h
    split_ifs at h <;> simp at h
  | abort m pc => exact ⟨m, pc, rfl⟩
  | _ => cases h

/-- On a steady session only an `Open` takes commands out of the queue. -/
theorem Ready.discards (h : Ready s) {a : TxAction} {n : ℕ} (hd : .dropped n ∈ (step s a).2) :
    ∃ k, a = .push k ∧ s.producer k = .checked .txOpen ∧ ∃ p ∈ s.queue, p.number = n := by
  cases a with
  | push k =>
    simp only [step] at hd
    split at hd
    · next op hop =>
      unfold push at hd
      split_ifs at hd with hstop hfull hopen
      · cases hd
      · cases hd
      · subst hopen
        exact ⟨k, rfl, hop, by simpa using hd⟩
      · cases hd
    · cases hd
  | worker =>
    obtain ⟨m, pc, hpc⟩ := workerExec_dropped (s := s) hd
    have hproc := h.processing
    rw [hpc] at hproc
    exact absurd hproc id
  | teardown =>
    simp only [step, h.up.teardown, teardownExec] at hd
    cases hd
  | submit | ensure | stopTxPipeline =>
    simp only [step] at hd
    split_ifs at hd <;> cases hd
  | elapse | lose | stop | forgetWelcome => cases hd

/-- An `Open` was accepted while the command `j` was in the queue. -/
def Discarded (s : TxPipeline) (as : List TxAction) (j : ℕ) : Prop :=
  ∃ pre k post, as = pre ++ .push k :: post ∧
    (after (next step) s pre).producer k = .checked .txOpen ∧
      ∃ p ∈ (after (next step) s pre).queue, p.number = j

/-- On a steady session the commands are fed in the order of their submission; a voice command of a
transmission is fed before the burst of that transmission, and is fed or still pending, unless an
`Open` discarded it from the queue. -/
theorem uplink_in_order (sessionId : ℕ) (now : ℤ) (as : List TxAction) (hid : sessionId ≠ 0)
    (h : Along (next step) Steady (welcomed sessionId now) as) :
    (fedNumbers (outputs step (welcomed sessionId now) as)).Pairwise (· < ·) ∧
      ∀ i j, VoiceOf (after (next step) (welcomed sessionId now) as).accepted i j →
        Discarded (welcomed sessionId now) as j ∨
          ((∃ p ∈ (after (next step) (welcomed sessionId now) as).pending, p.number = j) ∨
              .fed j ∈ outputs step (welcomed sessionId now) as) ∧
            ∀ pre post, outputs step (welcomed sessionId now) as = pre ++ .eof i :: post →
              .fed j ∈ pre := by
  have hready := ready_welcomed hid now
  have hdel : Ready (after (next step) (welcomed sessionId now) as) ∧
      Delivered (after (next step) (welcomed sessionId now) as)
        (outputs step (welcomed sessionId now) as) :=
    invariant_outputs (I := fun s outs => Ready s ∧ Delivered s outs)
      (fun s a outs hI hC => ⟨(hI.1.advances a hC).1, hI.2.advances hI.1 (hI.1.advances a hC).2⟩)
      ⟨hready, delivered_welcomed sessionId now⟩ h
  -- what is dropped is discarded by an `Open`
  have hdiscard : ∀ j, .dropped j ∈ outputs step (welcomed sessionId now) as →
      Discarded (welcomed sessionId now) as j := by
    intro j hj
    obtain ⟨pre, a, post, rfl, hd⟩ := exists_step_of_mem_outputs hj
    have hpre : Ready (after (next step) (welcomed sessionId now) pre) :=
      invariant_along (fun s a hI hC => (hI.advances a hC).1) hready h.left
    obtain ⟨k, rfl, hopen, hp⟩ := hpre.discards hd
    exact ⟨pre, k, post, rfl, hopen, hp⟩
  refine ⟨hdel.2.in_order, fun i j hv => ?_⟩
  by_cases hdropped : .dropped j ∈ outputs step (welcomed sessionId now) as
  · exact Or.inl (hdiscard j hdropped)
  · refine Or.inr ⟨?_, fun pre post heq => ?_⟩
    · rcases hdel.2.kept i j hv with hp | hf | hd
      · exact Or.inl hp
      · exact Or.inr hf
      · exact absurd hd hdropped
    · obtain ⟨c, op, hic, hc, hcontrol, hdone⟩ := hdel.2.ended pre i post heq
      have hjc : j < c := by
        by_contra hle
        rcases Nat.lt_or_eq_of_le (not_lt.1 hle) with hlt | rfl
        · rw [hv.last.last c hic hlt op hc] at hcontrol
          cases hcontrol
        · obtain ⟨o, ho, hvoice⟩ := hv.voice
          rw [hc] at ho
          obtain rfl := Option.some.inj ho
          rw [TxSubmitOp.not_control hvoice] at hcontrol
          cases hcontrol
      rcases hdone j hjc hv with hf | hd
      · exact hf
      · exact absurd (by rw [heq]; exact List.mem_append_left _ hd) hdropped

/-- One press after the other; the second `Open` comes after `m` steps of the worker. -/
def pressAgain (m : ℕ) : List TxAction :=
  submits .txOpen ++ List.replicate 7 .worker ++ submits .txPcm ++ submits .txClose ++
    List.replicate m .worker ++ submits .txOpen ++ List.replicate 25 .worker

/-- When the worker is quick, the voice of the first press is fed. -/
theorem uplink_in_order_quick :
    (Discarded (welcomed 7 0) (pressAgain 5) 1 ∨
      ((∃ p ∈ (after (next step) (welcomed 7 0) (pressAgain 5)).pending, p.number = 1) ∨
          .fed 1 ∈ outputs step (welcomed 7 0) (pressAgain 5)) ∧
        ∀ pre post, outputs step (welcomed 7 0) (pressAgain 5) = pre ++ .eof 0 :: post →
          .fed 1 ∈ pre) ∧ .eof 0 ∈ outputs step (welcomed 7 0) (pressAgain 5) :=
  ⟨(uplink_in_order 7 0 (pressAgain 5) (by decide) (by decide +kernel)).2 0 1 (by decide +kernel),
    by decide +kernel⟩

/-- When it is not, the second `Open` takes the voice and the `Close` of the first press out of the
queue; the burst of the first transmission is sent without it. -/
theorem open_discards_voice :
    Along (next step) Steady (welcomed 7 0) (pressAgain 0) ∧
      VoiceOf (after (next step) (welcomed 7 0) (pressAgain 0)).accepted 0 1 ∧
        .eof 0 ∈ outputs step (welcomed 7 0) (pressAgain 0) ∧
          .fed 1 ∉ outputs step (welcomed 7 0) (pressAgain 0) := by
  decide +kernel

end TxPipeline

end OWalkie
