import OWalkie.Core.TxFraming
import OWalkie.Core.TxPipeline

/-!
# The commands of one transmission on their way to the encoder

`TxPipeline` tells the commands in the queue apart by their numbers.  Here they have their payloads,
and one caller submits them: `submitTxInternal` refuses a `Pcm` that finds the queue full, and
`txWorkerLoop` processes an item or, on an empty queue, lets its watchdog end the transmission.
`fed_in_order`: as long as neither happens, the worker processes the commands in their order.
-/

namespace OWalkie

open Run TxPcm

def TxVoice.isPcm : TxVoice → Bool
  | .txPcm _ => true
  | _ => false

/-- The queue and the worker, and what the caller has still to submit. -/
structure TxFeed (E : Type) where
  clock : ℤ
  tx : TxPcm E
  unsent : List TxVoice
  txQueue : List TxVoice := []
  /-- what the worker has taken out of the queue -/
  item : Option TxVoice := none
  txOpenAtNs : ℤ := 0
  txLastActivityNs : ℤ := 0

inductive TxFeedAction where
  | elapse (dt : ℕ)
  /-- the next command has its turn on `txQueueMu`, a `Pcm` once its wait is over -/
  | submitTxInternal
  /-- the worker looks at the queue, or processes its item -/
  | txWorkerLoop
deriving Repr, DecidableEq

namespace TxFeed

/-! ## The steps -/

section model

variable {E : Type} (encode : E → List ℤ → E × Option (List UInt8)) (s : TxFeed E)

/-- The tests of `submitTxInternal` before the lock. -/
def admits (item : TxVoice) : Bool :=
  item = .txAbort ||
    s.tx.connected && decide (s.tx.sessionId ≠ 0 ∧ item ≠ .txPcm [] ∧ item ≠ .txOpus [])

/-- The caller ignores the result. -/
def submit (item : TxVoice) : TxFeed E :=
  if s.admits item = false then s
  -- QueueFull
  else if item.isPcm = true ∧ TxPipeline.kTxQueueCapacity ≤ s.txQueue.length then s
  else { s with txQueue := (if item = .txOpen then [] else s.txQueue) ++ [item] }

/-- The test of the watchdog, for an empty queue. -/
def watchdogDue : Bool :=
  s.tx.clientTxOpen && decide (0 < s.txOpenAtNs) &&
    decide (TxPipeline.kTxOpenWatchdogNs < s.clock - s.txLastActivityNs)

/-- What `processTxItem` does besides. -/
def stamp : TxVoice → TxFeed E
  | .txOpen => { s with txOpenAtNs := s.clock, txLastActivityNs := s.clock }
  | .txPcm _ | .txOpus _ =>
    if s.tx.clientTxOpen = true then { s with txLastActivityNs := s.clock } else s
  | .txVoiceEnd => { s with txLastActivityNs := s.clock }
  | .txClose => { s with txOpenAtNs := 0, txLastActivityNs := 0 }
  | .txAbort => { s with txQueue := [], txOpenAtNs := 0, txLastActivityNs := 0 }

def step : TxFeedAction → TxFeed E × List TxPcmOutput
  | .elapse dt => ({ s with clock := s.clock + dt }, [])
  | .submitTxInternal =>
    match s.unsent with
    | [] => (s, [])
    | item :: unsent => ({ s with unsent := unsent }.submit item, [])
  | .txWorkerLoop =>
    match s.item with
    | some item =>
      let (tx, out) := processTxItem encode s.tx item
      ({ s.stamp item with tx := tx, item := none }, out)
    | none =>
      match s.txQueue with
      | item :: txQueue => ({ s with txQueue := txQueue, item := some item }, [])
      | [] =>
        if s.watchdogDue then
          let (_, tx, out) := txEndInternal encode s.tx
          ({ s with tx := tx, txOpenAtNs := 0, txLastActivityNs := 0 }, out)
        else (s, [])

end model

variable {E : Type} {encode : E → List ℤ → E × Option (List UInt8)} {s : TxFeed E}

/-- The caller begins, with nothing in the queue. -/
def submitting (tx : TxPcm E) (now : ℤ) (commands : List TxVoice) : TxFeed E where
  clock := now
  tx := tx
  unsent := commands

/-- A `Pcm` finds room in the queue, and on an empty queue the watchdog is not due. -/
def InTime (s : TxFeed E) : TxFeedAction → Prop
  | .elapse _ => True
  | .submitTxInternal => s.unsent.head?.any TxVoice.isPcm = true →
      s.txQueue.length < TxPipeline.kTxQueueCapacity
  | .txWorkerLoop => s.item = none → s.txQueue = [] → s.watchdogDue = false

instance (s : TxFeed E) (a : TxFeedAction) : Decidable (s.InTime a) := by
  unfold InTime
  cases a <;> infer_instance

/-- The worker is done with every command. -/
structure Done (s : TxFeed E) : Prop where
  unsent : s.unsent = []
  txQueue : s.txQueue = []
  item : s.item = none

/-! ## In order -/

/-- What a caller may submit that opens at most once, at the beginning, and does not abort. -/
structure OneTransmission (commands : List TxVoice) : Prop where
  opens : .txOpen ∉ commands.tail
  payload : ∀ item ∈ commands, item ≠ .txPcm [] ∧ item ≠ .txOpus []
  noAbort : .txAbort ∉ commands

/-- No command changes the session. -/
theorem processTxItem_session (encode : E → List ℤ → E × Option (List UInt8)) (tx : TxPcm E)
    (item : TxVoice) : (processTxItem encode tx item).1.connected = tx.connected ∧
      (processTxItem encode tx item).1.sessionId = tx.sessionId := by
  have hend (tx : TxPcm E) : (txEndInternal encode tx).2.1.connected = tx.connected ∧
      (txEndInternal encode tx).2.1.sessionId = tx.sessionId := by
    have hflush := flush_same encode tx
    simp only [txEndInternal, sendTxEofBurstInternal]
    split_ifs <;> simp [hflush.connected, hflush.sessionId]
  have hstart (tx : TxPcm E) : (txStartInternal tx).2.connected = tx.connected ∧
      (txStartInternal tx).2.sessionId = tx.sessionId := by
    unfold txStartInternal
    split_ifs <;> exact ⟨rfl, rfl⟩
  cases item with
  | txOpen =>
    simp only [processTxItem]
    split_ifs
    · exact ⟨(hstart _).1.trans (hend tx).1, (hstart _).2.trans (hend tx).2⟩
    · exact hstart tx
  | txPcm pcm =>
    have hencode := encodeFrame_same encode { tx with txPcmBuffer := tx.txPcmBuffer ++ pcm }
    simp only [processTxItem, feedTxPcmInternal]
    split_ifs
    all_goals try exact ⟨rfl, rfl⟩
    split
    all_goals
      next heq =>
        rw [heq] at hencode
        exact ⟨hencode.connected, hencode.sessionId⟩
  | txOpus opusBytes =>
    simp only [processTxItem]
    split_ifs <;> exact ⟨rfl, rfl⟩
  | txVoiceEnd =>
    simp only [processTxItem]
    split_ifs
    · exact ⟨(flush_same encode tx).connected, (flush_same encode tx).sessionId⟩
    · exact ⟨rfl, rfl⟩
  | txClose => exact hend tx
  | txAbort => exact ⟨rfl, rfl⟩

/-- The worker has processed the first commands, and the others are on their way to it. -/
structure Fed (encode : E → List ℤ → E × Option (List UInt8)) (tx₀ : TxPcm E)
    (commands done : List TxVoice) (s : TxFeed E) (outs : List TxPcmOutput) : Prop where
  whole : commands = done ++ (s.item.toList ++ s.txQueue ++ s.unsent)
  tx : s.tx = after (next (processTxItem encode)) tx₀ done
  outs : outs = outputs (processTxItem encode) tx₀ done
  connected : s.tx.connected = true
  sessionId : s.tx.sessionId ≠ 0

variable {tx₀ : TxPcm E} {commands done : List TxVoice} {outs : List TxPcmOutput}

/-- A command that has not been submitted is accepted, behind what is in the queue. -/
theorem Fed.submit_eq (h : Fed encode tx₀ commands done s outs) (hone : OneTransmission commands)
    {item : TxVoice} {unsent : List TxVoice} (hunsent : s.unsent = item :: unsent)
    (hroom : item.isPcm = true → s.txQueue.length < TxPipeline.kTxQueueCapacity) :
    ({ s with unsent := unsent }.submit item) =
      { s with unsent := unsent, txQueue := s.txQueue ++ [item] } := by
  have hwhole := h.whole
  rw [hunsent] at hwhole
  have hmem : item ∈ commands := by rw [hwhole]; simp
  obtain ⟨hpcm, hopus⟩ := hone.payload item hmem
  have hadmits : ({ s with unsent := unsent } : TxFeed E).admits item = true := by
    simp [admits, h.connected, h.sessionId, hpcm, hopus]
  have hqueue : (if item = .txOpen then [] else s.txQueue) = s.txQueue := by
    split_ifs with hopen
    · -- an `Open` comes first, so that nothing is in the queue yet
      subst hopen
      cases hfront : done ++ (s.item.toList ++ s.txQueue) with
      | nil => exact (List.append_eq_nil_iff.1 (List.append_eq_nil_iff.1 hfront).2).2.symm
      | cons first front =>
        rw [← List.append_assoc, hfront] at hwhole
        exact absurd (by rw [hwhole]; simp) hone.opens
    · rfl
  rw [submit, if_neg (by rw [hadmits]; decide), if_neg fun hfull => ?_]
  · show { s with unsent := unsent, txQueue := _ } = _
    rw [hqueue]
  · have hlt := hroom hfull.1
    have hle : TxPipeline.kTxQueueCapacity ≤ s.txQueue.length := hfull.2
    omega

theorem Fed.step (h : Fed encode tx₀ commands done s outs) (hone : OneTransmission commands)
    {a : TxFeedAction} (ha : s.InTime a) : ∃ done', Fed encode tx₀ commands done'
      (next (TxFeed.step encode) s a) (outs ++ (TxFeed.step encode s a).2) := by
  cases a with
  | elapse dt => exact ⟨done, h.whole, h.tx, by simp [TxFeed.step, h.outs], h.connected, h.sessionId⟩
  | submitTxInternal =>
    refine ⟨done, ?_⟩
    cases hunsent : s.unsent with
    | nil =>
      simp only [next, TxFeed.step, hunsent, List.append_nil]
      exact h
    | cons item unsent =>
      have hroom : item.isPcm = true → s.txQueue.length < TxPipeline.kTxQueueCapacity :=
        fun hpcm => ha (by rw [hunsent]; exact hpcm)
      have hsubmit := h.submit_eq hone hunsent hroom
      simp only [next, TxFeed.step, hunsent, List.append_nil]
      rw [hsubmit]
      refine ⟨?_, h.tx, h.outs, h.connected, h.sessionId⟩
      rw [h.whole, hunsent]
      simp
  | txWorkerLoop =>
    cases hitem : s.item with
    | some item =>
      -- the command at the head is processed
      obtain ⟨hconnected, hid⟩ := processTxItem_session encode s.tx item
      have hnext : next (TxFeed.step encode) s .txWorkerLoop =
          { s.stamp item with tx := (processTxItem encode s.tx item).1, item := none } := by
        simp only [next, TxFeed.step, hitem]
      have hout : (TxFeed.step encode s .txWorkerLoop).2 = (processTxItem encode s.tx item).2 := by
        simp only [TxFeed.step, hitem]
      have hwhole := h.whole
      rw [hitem] at hwhole
      have habort : item ≠ .txAbort := by
        rintro rfl
        exact hone.noAbort (by rw [hwhole]; simp)
      have hstamp : (s.stamp item).txQueue = s.txQueue ∧ (s.stamp item).unsent = s.unsent := by
        cases item with
        | txPcm _ | txOpus _ =>
          rw [stamp]
          split_ifs <;> exact ⟨rfl, rfl⟩
        | txAbort => exact absurd rfl habort
        | _ => exact ⟨rfl, rfl⟩
      rw [hnext, hout]
      refine ⟨done ++ [item], ?_, ?_, ?_, hconnected.trans h.connected, ?_⟩
      · rw [hwhole]
        simp [hstamp.1, hstamp.2]
      · rw [after_snoc, ← h.tx]
        rfl
      · rw [outputs_snoc, ← h.outs, ← h.tx]
      · exact fun hzero => h.sessionId (hid.symm.trans hzero)
    | none =>
      refine ⟨done, ?_⟩
      cases hqueue : s.txQueue with
      | nil =>
        have hdue := ha hitem hqueue
        simp only [next, TxFeed.step, hitem, hqueue, hdue, Bool.false_eq_true, if_false,
          List.append_nil]
        exact h
      | cons item txQueue =>
        simp only [next, TxFeed.step, hitem, hqueue, List.append_nil]
        refine ⟨?_, h.tx, h.outs, h.connected, h.sessionId⟩
        rw [h.whole, hitem, hqueue]
        simp

/-- The frames so far are the first of those that all the commands give. -/
theorem Fed.frames (h : Fed encode tx₀ commands done s outs) :
    framesOf outs <+: framesOf (outputs (processTxItem encode) tx₀ commands) := by
  rw [h.outs, h.whole, outputs_append, framesOf_append]
  exact List.prefix_append _ _

theorem Fed.frames_of_done (h : Fed encode tx₀ commands done s outs) (hdone : s.Done) :
    framesOf outs = framesOf (outputs (processTxItem encode) tx₀ commands) := by
  have hwhole := h.whole
  rw [hdone.unsent, hdone.txQueue, hdone.item] at hwhole
  rw [h.outs, hwhole]
  simp

/-- In every run without a refused `Pcm` and without the watchdog, the worker has processed the
first commands in their order, and the rest is on its way. -/
theorem fed_in_order (hconnected : tx₀.connected = true) (hid : tx₀.sessionId ≠ 0) (now : ℤ)
    (hone : OneTransmission commands) {as : List TxFeedAction}
    (h : Along (next (TxFeed.step encode)) InTime (submitting tx₀ now commands) as) :
    ∃ done, Fed encode tx₀ commands done
      (after (next (TxFeed.step encode)) (submitting tx₀ now commands) as)
      (outputs (TxFeed.step encode) (submitting tx₀ now commands) as) :=
  invariant_outputs (I := fun s outs => ∃ done, Fed encode tx₀ commands done s outs)
    (fun _ _ _ ⟨_, hfed⟩ ha => hfed.step hone ha)
    ⟨[], by simp [submitting], rfl, rfl, hconnected, hid⟩ h

end TxFeed

end OWalkie
