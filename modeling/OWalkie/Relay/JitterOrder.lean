import OWalkie.Lib.Run
import OWalkie.Relay.Jitter

/-!
# Progress and order of the jitter buffer

Runs of a `speakerJitterBuffer` under its operations.  `pop_progress_iff` says exactly when `pop`
plays a packet although `head` or later is buffered; `played_increasing` says when the sequence
numbers that a run plays increase: `head` must not be set behind what it has passed (`Ahead`).
-/

namespace OWalkie

open Run

/-- The operations on a speaker's jitter buffer. -/
inductive JitterOp where
  | push (pkt : AudioPacket)
  | pop
  | forceStartFromMinSeq
  | setMinStartClamped (n floor ceil : ℤ)
  | reset
  deriving DecidableEq

namespace SpeakerJitterBuffer

/-- One operation, with the packet that it plays. -/
def apply (b : SpeakerJitterBuffer) : JitterOp → SpeakerJitterBuffer × List AudioPacket
  | .push pkt => (b.push pkt, [])
  | .pop => (b.pop.2, b.pop.1.toList)
  | .forceStartFromMinSeq => (b.forceStartFromMinSeq, [])
  | .setMinStartClamped n floor ceil => (b.setMinStartClamped n floor ceil, [])
  | .reset => (b.reset, [])

/-- The buffer after the operations `ops`. -/
def runOps (b : SpeakerJitterBuffer) (ops : List JitterOp) : SpeakerJitterBuffer :=
  after (next apply) b ops

/-- The sequence numbers of the packets that the operations `ops` play, in order. -/
def playedSeqs (b : SpeakerJitterBuffer) (ops : List JitterOp) : List ℕ :=
  (outputs apply b ops).map (·.seq)

/-! ## Progress -/

/-- No late packet blocks the playout: `head` itself is buffered, or every buffered number is above
`head`, or some buffered number is more than half of `maxKeep` above it. -/
def Unblocked (b : SpeakerJitterBuffer) : Prop :=
  b.head ∈ b.packets ∨ (∀ q ∈ b.packets.keys, b.head < q) ∨
    ∃ q ∈ b.packets.keys, b.farGap q = true

instance (b : SpeakerJitterBuffer) : Decidable b.Unblocked := by
  unfold Unblocked
  infer_instance

theorem slot_isSome_iff {b : SpeakerJitterBuffer} {q : ℕ} (hs : b.started = true)
    (hq : q ∈ b.packets) : b.slot.isSome = true ↔ b.Unblocked := by
  obtain ⟨lo, hlo⟩ := exists_minSeq hq
  have hr : b.Unblocked ↔ b.head ∈ b.packets ∨ b.Restarts := by
    simp [Unblocked, Restarts, hs]
  rw [hr]
  unfold slot
  by_cases hh : b.head ∈ b.packets
  · simp [hs, hh]
  · by_cases hb : b.Restarts <;> simp [hh, hb, hlo]

theorem pop_isSome_eq (b : SpeakerJitterBuffer) : b.pop.1.isSome = b.slot.isSome := by
  cases h : b.slot with
  | none =>
    rw [(pop_of_no_slot h).1]
    rfl
  | some q =>
    obtain ⟨pkt, -, hpop⟩ := pop_of_slot h
    rw [hpop]
    rfl

/-- A started buffer that holds a packet at or after `head` plays one exactly when no late packet
blocks it. -/
theorem pop_progress_iff (jitterMinPackets : ℕ) (ops : List JitterOp)
    (hs : (runOps (new jitterMinPackets) ops).started = true)
    (hp : ∃ q ∈ (runOps (new jitterMinPackets) ops).packets,
      (runOps (new jitterMinPackets) ops).head ≤ q) :
    (runOps (new jitterMinPackets) ops).pop.1.isSome = true ↔
      (runOps (new jitterMinPackets) ops).Unblocked := by
  obtain ⟨q, hq, -⟩ := hp
  rw [pop_isSome_eq]
  exact slot_isSome_iff hs hq

/-- An audio packet of session 1. -/
def samplePacket (seq : ℕ) : AudioPacket :=
  { sessionID := 1, seq := seq, signalStrength := 200, opus := [1], srcAddr := ⟨0, 7001⟩ }

/-- A lost packet 6 is skipped. -/
theorem pop_progress_skip :
    (runOps (new 1) [.push (samplePacket 5), .pop, .push (samplePacket 7)]).pop.1.isSome = true :=
  (pop_progress_iff 1 [.push (samplePacket 5), .pop, .push (samplePacket 7)] (by decide)
    ⟨7, by decide, by decide⟩).2 (by decide)

/-- After 5 is played, the late packet 3 and the packet 7 are buffered while `head` is 6: `pop`
returns nothing. -/
theorem pop_blocked_by_late_packet :
    ¬ ∀ (jitterMinPackets : ℕ) (ops : List JitterOp),
      (∀ pkt, .push pkt ∈ ops → pkt.seq < 2 ^ 31) →
      (runOps (new jitterMinPackets) ops).started = true →
      (∃ q ∈ (runOps (new jitterMinPackets) ops).packets,
        (runOps (new jitterMinPackets) ops).head ≤ q) →
      (runOps (new jitterMinPackets) ops).pop.1.isSome = true := by
  intro h
  have := h 1 [.push (samplePacket 5), .pop, .push (samplePacket 3), .push (samplePacket 7)]
    (by simp [samplePacket]) (by decide) ⟨7, by decide, by decide⟩
  revert this
  decide

/-! ## Packets stay under their own number -/

/-- Every packet is stored under its own sequence number. -/
def WellKeyed (b : SpeakerJitterBuffer) : Prop := b.AllBuffered fun q pkt => pkt.seq = q

theorem wellKeyed_reset (b : SpeakerJitterBuffer) : b.reset.WellKeyed := AllBuffered.reset

theorem WellKeyed.apply {b : SpeakerJitterBuffer} (h : b.WellKeyed) (op : JitterOp) :
    (next SpeakerJitterBuffer.apply b op).WellKeyed := by
  cases op with
  | push pkt => exact AllBuffered.push h rfl
  | pop => exact AllBuffered.pop h
  | forceStartFromMinSeq => exact AllBuffered.forceStartFromMinSeq h
  | setMinStartClamped n floor ceil => exact AllBuffered.setMinStartClamped h n floor ceil
  | reset => exact wellKeyed_reset b

/-! ## Order -/

/-- The operation sets `head` to the smallest number: it starts the buffer, or `pop` does not find
`head` and skips forward or gives up a far gap. -/
def SetsHead (b : SpeakerJitterBuffer) : JitterOp → Prop
  | .push pkt => b.started = false ∧ pkt.seq ∉ b.packets ∧ b.minStart ≤ b.pendingCount + 1
  | .pop => ¬ (b.started = true ∧ b.head ∈ b.packets) ∧ b.Restarts
  | .forceStartFromMinSeq => True
  | .setMinStartClamped _ _ _ | .reset => False

instance (b : SpeakerJitterBuffer) (op : JitterOp) : Decidable (b.SetsHead op) := by
  cases op <;> unfold SetsHead <;> infer_instance

/-- The numbers that are buffered when the operation looks for the smallest one. -/
def numbers (b : SpeakerJitterBuffer) : JitterOp → Finset ℕ
  | .push pkt => insert pkt.seq b.packets.keys
  | _ => b.packets.keys

/-- A buffer, and the highest position to which a `pop` that took a packet has moved its `head`. -/
structure Playout where
  buffer : SpeakerJitterBuffer
  passed : ℕ := 0

namespace Playout

def apply (s : Playout) (op : JitterOp) : Playout × List AudioPacket :=
  ({ buffer := (s.buffer.apply op).1
     passed :=
      if op = .pop ∧ s.buffer.pop.2.pendingCount < s.buffer.pendingCount then
        max s.passed s.buffer.pop.2.head
      else s.passed },
    (s.buffer.apply op).2)

/-- Where the operation sets `head`, no number is buffered that `head` has passed. -/
def Ahead (s : Playout) (op : JitterOp) : Prop :=
  s.buffer.SetsHead op → ∀ q ∈ s.buffer.numbers op, s.passed ≤ q

instance (s : Playout) (op : JitterOp) : Decidable (s.Ahead op) := by
  unfold Ahead
  infer_instance

theorem outputs_apply (s : Playout) (ops : List JitterOp) :
    outputs apply s ops = outputs SpeakerJitterBuffer.apply s.buffer ops := by
  induction ops generalizing s with
  | nil => rfl
  | cons op ops ih =>
    rw [outputs_cons, outputs_cons, ih]
    rfl

end Playout

variable {b : SpeakerJitterBuffer}

/-- The position that `pop` reads is `head`, or the smallest number that `head` is set to. -/
theorem slot_cases {q : ℕ} (h : b.slot = some q) :
    b.started = true ∧ q = b.head ∨ b.SetsHead .pop ∧ q ∈ b.numbers .pop := by
  unfold slot at h
  split_ifs at h with hhead hr
  · exact Or.inl ⟨hhead.1, (Option.some.inj h).symm⟩
  · exact Or.inr ⟨⟨hhead, hr⟩, Finmap.mem_keys.2 (minSeq_eq_some_iff.1 h).1⟩

/-- A `push` that leaves the buffer started has moved `head` forward, or has set it to the smallest
number at most. -/
theorem head_push {pkt : AudioPacket} (hseq : b.AllBuffered fun q _ => q < 2 ^ 31)
    (hpkt : pkt.seq < 2 ^ 31) (hs : (b.push pkt).started = true) :
    b.started = true ∧ b.head ≤ (b.push pkt).head ∨
      b.SetsHead (.push pkt) ∧ ∃ lo ∈ b.numbers (.push pkt), lo ≤ (b.push pkt).head := by
  by_cases hdup : pkt.seq ∈ b.packets
  · rw [push_of_mem hdup] at hs ⊢
    exact Or.inl ⟨hs, le_rfl⟩
  have hbound : ∀ q ∈ (b.stored pkt).startFull.packets, q < 2 ^ 31 := by
    intro q hq
    rw [(startFull_frame _).1] at hq
    rcases Finmap.mem_insert.1 hq with rfl | hq
    · exact hpkt
    · obtain ⟨p, hp⟩ := Finmap.mem_iff.1 hq
      exact hseq q p hp
  rw [push_of_notMem hdup] at hs ⊢
  obtain ⟨hstarted, hle⟩ := head_le_trim hs hbound
  by_cases hfull : b.started = false ∧ b.minStart ≤ (b.stored pkt).pendingCount
  · obtain ⟨lo, hlo⟩ := exists_minSeq (b := b.stored pkt) (Finmap.mem_insert.2 (Or.inl rfl))
    rw [startFull_of_le (b := b.stored pkt) hfull.1 hfull.2 hlo] at hle ⊢
    rw [pendingCount_stored hdup] at hfull
    refine Or.inr ⟨⟨hfull.1, hdup, by exact_mod_cast hfull.2⟩, lo, ?_, hle⟩
    rw [numbers, ← keys_stored, Finmap.mem_keys]
    exact (minSeq_eq_some_iff.1 hlo).1
  · have hstay : (b.stored pkt).startFull = b.stored pkt := if_neg hfull
    rw [hstay] at hstarted hle ⊢
    exact Or.inl ⟨hstarted, hle⟩

/-- What a run keeps: `head` is not behind what it has passed, and the packet played last is right
behind that. -/
structure Playout.Inv (s : Playout) (outs : List AudioPacket) : Prop where
  keyed : s.buffer.AllBuffered fun q pkt => pkt.seq = q ∧ q < 2 ^ 31
  ahead : s.buffer.started = true → s.passed ≤ s.buffer.head
  played : ∀ pkt ∈ outs, pkt.seq < s.passed
  last : 0 < s.passed → ∃ pkt ∈ outs, pkt.seq + 1 = s.passed
  increasing : (outs.map (·.seq)).Pairwise (· < ·)

namespace Playout.Inv

variable {s : Playout} {outs : List AudioPacket}

theorem bounded (h : s.Inv outs) : s.buffer.AllBuffered fun q _ => q < 2 ^ 31 :=
  fun q pkt hq => (h.keyed q pkt hq).2

theorem mem_lt (h : s.Inv outs) : ∀ q ∈ s.buffer.packets, q < 2 ^ 31 := by
  intro q hq
  obtain ⟨pkt, hpkt⟩ := Finmap.mem_iff.1 hq
  exact h.bounded q pkt hpkt

/-- An operation that plays nothing. -/
theorem quiet (h : s.Inv outs) {op : JitterOp} (hop : op ≠ .pop)
    (hkeyed : (s.buffer.apply op).1.AllBuffered fun q pkt => pkt.seq = q ∧ q < 2 ^ 31)
    (hahead : (s.buffer.apply op).1.started = true → s.passed ≤ (s.buffer.apply op).1.head) :
    (next Playout.apply s op).Inv (outs ++ (Playout.apply s op).2) := by
  have hpassed : (next Playout.apply s op).passed = s.passed := if_neg fun hc => hop hc.1
  have hout : (Playout.apply s op).2 = [] := by
    cases op with
    | pop => exact absurd rfl hop
    | _ => rfl
  rw [hout, List.append_nil]
  exact ⟨hkeyed, fun hs => hpassed ▸ hahead hs, fun pkt hp => hpassed ▸ h.played pkt hp,
    hpassed ▸ h.last, h.increasing⟩

theorem pop (h : s.Inv outs) (hahead : s.Ahead .pop) :
    (next Playout.apply s .pop).Inv (outs ++ (Playout.apply s .pop).2) := by
  cases hs : s.buffer.slot with
  | none =>
    obtain ⟨started, hstarted, hpop⟩ := pop_eq_of_no_slot hs
    have hnext : next Playout.apply s .pop =
        { buffer := { s.buffer with started := started }, passed := s.passed } := by
      simp [next, Playout.apply, SpeakerJitterBuffer.apply, hpop, pendingCount]
    have hout : (Playout.apply s .pop).2 = [] := by
      simp [Playout.apply, SpeakerJitterBuffer.apply, hpop]
    rw [hnext, hout, List.append_nil]
    exact ⟨h.keyed, fun hst => h.ahead (hstarted hst), h.played, h.last, h.increasing⟩
  | some q =>
    obtain ⟨pkt, hpkt, hpop⟩ := pop_of_slot hs
    obtain ⟨hseq, hlt⟩ := h.keyed q pkt hpkt
    have hpassed : s.passed ≤ q := by
      rcases slot_cases hs with ⟨hst, rfl⟩ | ⟨hsets, hq⟩
      · exact h.ahead hst
      · exact hahead hsets q hq
    have hwrap : u32 (q + 1) = q + 1 := by
      unfold u32
      omega
    have hcount := pendingCount_erase (Finmap.mem_iff.2 ⟨pkt, hpkt⟩)
    have hnext : next Playout.apply s .pop =
        { buffer := s.buffer.played q, passed := q + 1 } := by
      have hfewer : (s.buffer.played q).pendingCount < s.buffer.pendingCount := by
        show (s.buffer.packets.erase q).keys.card < s.buffer.packets.keys.card
        omega
      simp only [next, Playout.apply, SpeakerJitterBuffer.apply, hpop, hfewer, true_and, if_true]
      rw [show (s.buffer.played q).head = q + 1 from hwrap, max_eq_right (by omega)]
    have hout : (Playout.apply s .pop).2 = [pkt] := by
      simp [Playout.apply, SpeakerJitterBuffer.apply, hpop]
    rw [hnext, hout]
    refine ⟨fun r p hr => h.keyed r p (AllBuffered.lookup_of_lookup_erase hr), fun _ => hwrap.ge,
      ?_, fun _ => ⟨pkt, by simp, congrArg (· + 1) hseq⟩, ?_⟩
    · intro p hp
      show p.seq < q + 1
      rcases List.mem_append.1 hp with hp | hp
      · have := h.played p hp
        omega
      · rw [List.mem_singleton.1 hp, hseq]
        exact Nat.lt_succ_self q
    · rw [List.map_append, List.pairwise_append]
      refine ⟨h.increasing, List.pairwise_singleton _ _, ?_⟩
      intro l hl r hr
      obtain ⟨p, hp, rfl⟩ := List.mem_map.1 hl
      rw [List.map_singleton, List.mem_singleton, hseq] at hr
      have := h.played p hp
      omega

theorem step (h : s.Inv outs) {op : JitterOp} (hseq : ∀ pkt, op = .push pkt → pkt.seq < 2 ^ 31)
    (hahead : s.Ahead op) :
    (next Playout.apply s op).Inv (outs ++ (Playout.apply s op).2) := by
  cases op with
  | pop => exact h.pop hahead
  | push pkt =>
    have hpkt := hseq pkt rfl
    refine h.quiet (by simp) (AllBuffered.push h.keyed ⟨rfl, hpkt⟩) fun hs => ?_
    rcases head_push h.bounded hpkt hs with ⟨hst, hle⟩ | ⟨hsets, lo, hlo, hle⟩
    · exact (h.ahead hst).trans hle
    · exact (hahead hsets lo hlo).trans hle
  | forceStartFromMinSeq =>
    refine h.quiet (by simp) (AllBuffered.forceStartFromMinSeq h.keyed) fun hs => ?_
    simp only [SpeakerJitterBuffer.apply, forceStartFromMinSeq] at hs ⊢
    cases hlo : s.buffer.minSeq with
    | none =>
      rw [hlo] at hs
      exact h.ahead hs
    | some lo => exact hahead trivial lo (Finmap.mem_keys.2 (minSeq_eq_some_iff.1 hlo).1)
  | setMinStartClamped n floor ceil =>
    refine h.quiet (by simp) (AllBuffered.setMinStartClamped h.keyed n floor ceil) fun hs => ?_
    simp only [SpeakerJitterBuffer.apply, setMinStartClamped] at hs ⊢
    split_ifs at hs ⊢ with hsame
    · exact h.ahead hs
    · obtain ⟨hst, hle⟩ := head_le_trim hs h.mem_lt
      exact (h.ahead hst).trans hle
  | reset => exact h.quiet (by simp) AllBuffered.reset fun hs => (Bool.false_ne_true hs).elim

end Playout.Inv

section run

variable {ops : List JitterOp} {op : JitterOp}

theorem Playout.inv_after (b : SpeakerJitterBuffer)
    (hseq : ∀ pkt, .push pkt ∈ ops → pkt.seq < 2 ^ 31)
    (hahead : Along (next Playout.apply) Playout.Ahead { buffer := b.reset } ops) :
    (after (next Playout.apply) { buffer := b.reset } ops).Inv
      (outputs SpeakerJitterBuffer.apply b.reset ops) := by
  have hinit : Playout.Inv { buffer := b.reset } [] :=
    ⟨AllBuffered.reset, fun hs => (nomatch hs), by simp, fun hp => (nomatch hp),
      List.Pairwise.nil⟩
  have hboth : Along (next Playout.apply) (fun s op =>
      (∀ pkt, op = .push pkt → pkt.seq < 2 ^ 31) ∧ s.Ahead op) { buffer := b.reset } ops := by
    rintro pre op post rfl
    exact ⟨fun pkt hop => hseq pkt (by simp [hop]), hahead pre op post rfl⟩
  rw [← Playout.outputs_apply { buffer := b.reset }]
  exact invariant_outputs (I := Playout.Inv) (fun s op outs hs hc => hs.step hc.1 hc.2) hinit hboth

/-- Between two resets, the sequence numbers that a run plays increase strictly as long as `head` is
never set to the smallest number while a number is buffered that it has passed. -/
theorem played_increasing (b : SpeakerJitterBuffer) (ops : List JitterOp)
    (hseq : ∀ pkt, .push pkt ∈ ops → pkt.seq < 2 ^ 31)
    (hahead : Along (next Playout.apply) Playout.Ahead { buffer := b.reset } ops) :
    (playedSeqs b.reset ops).Pairwise (· < ·) :=
  (Playout.inv_after b hseq hahead).increasing

/-- An operation that sets `head` leaves the smallest number to the next `pop`, if it is none
itself; a push must not evict anything. -/
theorem slot_of_setsHead (hsets : b.SetsHead op)
    (hroom : (b.pendingCount : ℤ) + 1 ≤ b.maxKeep) {q : ℕ} (hq : q ∈ b.numbers op) :
    ∃ lo ≤ q, if op = .pop then b.slot = some lo else (b.apply op).1.slot = some lo := by
  cases op with
  | pop =>
    obtain ⟨lo, hlo⟩ := exists_minSeq (Finmap.mem_keys.1 hq)
    refine ⟨lo, (minSeq_eq_some_iff.1 hlo).2 q (Finmap.mem_keys.1 hq), ?_⟩
    rw [if_pos rfl, slot, if_neg hsets.1, if_pos hsets.2, hlo]
  | forceStartFromMinSeq =>
    obtain ⟨lo, hlo⟩ := exists_minSeq (Finmap.mem_keys.1 hq)
    refine ⟨lo, (minSeq_eq_some_iff.1 hlo).2 q (Finmap.mem_keys.1 hq), ?_⟩
    rw [if_neg (by simp)]
    refine Headed.forceStartFromMinSeq.slot_eq ?_
    show b.forceStartFromMinSeq.minSeq = some lo
    rw [forceStartFromMinSeq, hlo]
    exact hlo
  | push pkt =>
    obtain ⟨hs, hdup, hmin⟩ := hsets
    have hcount := pendingCount_stored hdup
    rw [numbers, ← keys_stored, Finmap.mem_keys] at hq
    obtain ⟨lo, hlo⟩ := exists_minSeq hq
    have hfull : b.minStart ≤ (b.stored pkt).pendingCount := by omega
    have hpush : b.push pkt = (b.stored pkt).startAt lo := by
      rw [push_of_notMem hdup, startFull_of_le (b := b.stored pkt) hs hfull hlo]
      refine trim_of_le ?_
      show ((b.stored pkt).pendingCount : ℤ) ≤ b.maxKeep
      omega
    refine ⟨lo, (minSeq_eq_some_iff.1 hlo).2 q hq, ?_⟩
    rw [if_neg (by simp)]
    show (b.push pkt).slot = some lo
    rw [hpush, slot, if_pos ⟨rfl, (minSeq_eq_some_iff.1 hlo).1⟩]
    rfl
  | setMinStartClamped n floor ceil => exact hsets.elim
  | reset => exact hsets.elim

theorem Playout.buffer_after (s : Playout) (ops : List JitterOp) :
    (after (next Playout.apply) s ops).buffer = runOps s.buffer ops := by
  induction ops generalizing s with
  | nil => rfl
  | cons op ops ih => exact ih _

/-- The first operation that sets `head` while a number is buffered that it has passed makes the
next `pop`, if it is none itself, play such a number. -/
theorem replays_of_not_ahead (b : SpeakerJitterBuffer)
    (hseq : ∀ pkt, .push pkt ∈ ops → pkt.seq < 2 ^ 31)
    (hahead : Along (next Playout.apply) Playout.Ahead { buffer := b.reset } ops)
    (hop : ∀ pkt, op = .push pkt → pkt.seq < 2 ^ 31)
    (hroom : ((runOps b.reset ops).pendingCount : ℤ) + 1 ≤ (runOps b.reset ops).maxKeep)
    (hbehind : ¬ (after (next Playout.apply) { buffer := b.reset } ops).Ahead op) :
    ¬ (playedSeqs b.reset (ops ++ if op = .pop then [.pop] else [op, .pop])).Pairwise (· < ·) := by
  have hinv := Playout.inv_after b hseq hahead
  have hbuffer : (after (next Playout.apply) { buffer := b.reset } ops).buffer =
      runOps b.reset ops := Playout.buffer_after _ ops
  generalize after (next Playout.apply) { buffer := b.reset } ops = s at hinv hbuffer hbehind
  rw [← hbuffer] at hroom
  obtain ⟨hsets, q, hq, hlt⟩ : s.buffer.SetsHead op ∧ ∃ q ∈ s.buffer.numbers op, q < s.passed := by
    simpa [Playout.Ahead] using hbehind
  obtain ⟨lo, hlo, hslot⟩ := slot_of_setsHead hsets hroom hq
  obtain ⟨last, hlast, hpassed⟩ := hinv.last (by omega)
  -- the packet played last is followed by `lo`
  have hreplay {t : SpeakerJitterBuffer} (outs : List AudioPacket)
      (ht : t.AllBuffered fun q pkt => pkt.seq = q ∧ q < 2 ^ 31) (hs : t.slot = some lo) :
      ¬ ((outputs SpeakerJitterBuffer.apply b.reset ops ++
        (outs ++ (t.apply .pop).2)).map (·.seq)).Pairwise (· < ·) := by
    obtain ⟨pkt, hpkt, hpop⟩ := pop_of_slot hs
    intro hpairs
    rw [List.map_append, List.pairwise_append] at hpairs
    have := hpairs.2.2 _ (List.mem_map_of_mem hlast) lo (by
      rw [← (ht lo pkt hpkt).1]
      exact List.mem_map_of_mem (by simp [SpeakerJitterBuffer.apply, hpop]))
    omega
  unfold playedSeqs
  rw [outputs_append, show after (next SpeakerJitterBuffer.apply) b.reset ops = s.buffer from
    hbuffer.symm]
  split_ifs at hslot ⊢ with hpop
  · simpa using hreplay [] hinv.keyed hslot
  · have hkeyed : (next SpeakerJitterBuffer.apply s.buffer op).AllBuffered
        fun q pkt => pkt.seq = q ∧ q < 2 ^ 31 := by
      cases op with
      | push pkt => exact AllBuffered.push hinv.keyed ⟨rfl, hop pkt rfl⟩
      | pop => exact absurd rfl hpop
      | forceStartFromMinSeq => exact AllBuffered.forceStartFromMinSeq hinv.keyed
      | setMinStartClamped n floor ceil => exact hsets.elim
      | reset => exact hsets.elim
    simpa using hreplay _ hkeyed hslot

end run

/-- Depth 2: the buffer runs empty after 5 and 6, and a marker starts it at 8 with 7 lost. -/
def resumedPlayout : List JitterOp :=
  [.push (samplePacket 6), .push (samplePacket 5), .pop, .pop, .pop, .push (samplePacket 8),
    .forceStartFromMinSeq, .pop]

theorem played_increasing_resumed :
    (playedSeqs (new 2).reset resumedPlayout).Pairwise (· < ·) :=
  played_increasing (new 2) resumedPlayout (by simp [resumedPlayout, samplePacket]) (by decide)

example : playedSeqs (new 2).reset resumedPlayout = [5, 6, 8] := by decide

/-- With depth 1, the packet 3 arrives after 5 was played and the buffer ran empty, and is played
after it. -/
theorem played_not_increasing :
    ¬ ∀ (b : SpeakerJitterBuffer) (ops : List JitterOp),
      (∀ op ∈ ops, (∃ pkt, op = .push pkt ∧ pkt.seq < 2 ^ 31) ∨ op = .pop ∨
        op = .forceStartFromMinSeq) →
      (playedSeqs b.reset ops).Pairwise (· < ·) := by
  intro h
  have := h (new 1) [.push (samplePacket 5), .pop, .pop, .push (samplePacket 3), .pop] (by
    simp [samplePacket])
  revert this
  decide

end SpeakerJitterBuffer

end OWalkie
