import Mathlib.Data.Finmap
import Mathlib.Data.Finset.Max
import OWalkie.Relay.Basic

/-!
# The uplink jitter buffer

`speakerJitterBuffer` keeps the packets of one speaker under their sequence numbers and plays them
from the position `head`.  `push` stores a packet and evicts the smallest numbers above `maxKeep`;
`pop` plays the packet at `head`, or moves `head` to the smallest buffered number first.
`slot` names the position `pop` reads (`pop_of_slot`, `pop_of_no_slot`), which is all that the order
and progress results need to know about it.
-/

namespace OWalkie

structure SpeakerJitterBuffer where
  minStart : ℤ
  maxKeep : ℤ
  packets : Finmap fun _ : ℕ => AudioPacket
  head : ℕ
  started : Bool

namespace SpeakerJitterBuffer

/-- `len(b.packets)`, as `pendingCount` returns it. -/
def pendingCount (b : SpeakerJitterBuffer) : ℕ := b.packets.keys.card

def isStarted (b : SpeakerJitterBuffer) : Bool := b.started

def reset (b : SpeakerJitterBuffer) : SpeakerJitterBuffer :=
  { b with packets := ∅, head := 0, started := false }

def minSeq (b : SpeakerJitterBuffer) : Option ℕ :=
  if h : b.packets.keys.Nonempty then some (b.packets.keys.min' h) else none

def maxSeq (b : SpeakerJitterBuffer) : Option ℕ :=
  if h : b.packets.keys.Nonempty then some (b.packets.keys.max' h) else none

/-- One round of the eviction loop; `fuel` bounds the number of packets it can remove. -/
def trimFrom : ℕ → SpeakerJitterBuffer → SpeakerJitterBuffer
  | 0, b => b
  | fuel + 1, b =>
    if b.maxKeep < b.pendingCount then
      match b.minSeq with
      | none => b
      | some lo =>
        trimFrom fuel { b with
          packets := b.packets.erase lo
          head := if b.started ∧ b.head ≤ lo then u32 (lo + 1) else b.head }
    else b

/-- `for len(b.packets) > b.maxKeep { … }`. -/
def trim (b : SpeakerJitterBuffer) : SpeakerJitterBuffer := trimFrom b.pendingCount b

/-- Set `head` to the smallest buffered number and mark the buffer started. -/
def startAt (b : SpeakerJitterBuffer) (lo : ℕ) : SpeakerJitterBuffer :=
  { b with head := lo, started := true }

def push (b : SpeakerJitterBuffer) (pkt : AudioPacket) : SpeakerJitterBuffer :=
  if pkt.seq ∈ b.packets then b
  else
    let b := { b with packets := b.packets.insert pkt.seq pkt }
    let b := if b.started = false ∧ b.minStart ≤ b.pendingCount then
      match b.minSeq with
      | some lo => b.startAt lo
      | none => b
      else b
    b.trim

/-- `if pkt, ok := b.packets[b.head]; ok { delete(b.packets, b.head); b.head++; return pkt }`. -/
def takeHead (b : SpeakerJitterBuffer) : Option (AudioPacket × SpeakerJitterBuffer) :=
  (b.packets.lookup b.head).map fun pkt =>
    (pkt, { b with packets := b.packets.erase b.head, head := u32 (b.head + 1) })

/-- `b.head+uint32(b.maxKeep/2) < maxSeq`, in `uint32` arithmetic. -/
def farGap (b : SpeakerJitterBuffer) (hi : ℕ) : Bool :=
  decide (u32 (b.head + (b.maxKeep.tdiv 2 % 2 ^ 32).toNat) < hi)

/-- The result of `takeHead`, or no packet. -/
def orNil (b : SpeakerJitterBuffer) (r : Option (AudioPacket × SpeakerJitterBuffer)) :
    Option AudioPacket × SpeakerJitterBuffer :=
  match r with
  | some (pkt, b') => (some pkt, b')
  | none => (none, b)

/-- The last branch of `pop`: give up the gap when the queue has moved far ahead. -/
def popFarGap (b : SpeakerJitterBuffer) (lo hi : ℕ) : Option AudioPacket × SpeakerJitterBuffer :=
  if b.farGap hi then
    let b := { b with head := lo }
    b.orNil b.takeHead
  else (none, b)

/-- `pop` once the buffer is started: the packet at `head`, else skip forward. -/
def popStarted (b : SpeakerJitterBuffer) : Option AudioPacket × SpeakerJitterBuffer :=
  match b.takeHead with
  | some (pkt, b') => (some pkt, b')
  | none =>
    match b.minSeq, b.maxSeq with
    | some lo, some hi =>
      if b.head < lo then
        let b := { b with head := lo }
        match b.takeHead with
        | some (pkt, b') => (some pkt, b')
        | none => b.popFarGap lo hi
      else b.popFarGap lo hi
    | _, _ => (none, { b with started := false })

def pop (b : SpeakerJitterBuffer) : Option AudioPacket × SpeakerJitterBuffer :=
  if b.pendingCount = 0 then (none, { b with started := false })
  else if b.started = false then
    if (b.pendingCount : ℤ) < b.minStart then (none, b)
    else
      match b.minSeq with
      | none => (none, b)
      | some lo => (b.startAt lo).popStarted
  else b.popStarted

def forceStartFromMinSeq (b : SpeakerJitterBuffer) : SpeakerJitterBuffer :=
  match b.minSeq with
  | none => b
  | some lo => b.startAt lo

/-- `maxKeep` for the depth `minStart`. -/
def keepFor (minStart : ℤ) : ℤ := if minStart * 8 < 32 then 32 else minStart * 8

/-- `n` raised to `floor`, then lowered to `ceil`. -/
def clampDepth (n floor ceil : ℤ) : ℤ :=
  let n := if n < floor then floor else n
  if ceil < n then ceil else n

def setMinStartClamped (b : SpeakerJitterBuffer) (n floor ceil : ℤ) : SpeakerJitterBuffer :=
  let n := clampDepth n floor ceil
  if n = b.minStart then b
  else { b with minStart := n, maxKeep := keepFor n }.trim

/-- The buffer of `newSpeakerStreamState`. -/
def new (jitterMinPackets : ℕ) : SpeakerJitterBuffer :=
  let minStart : ℤ := if (jitterMinPackets : ℤ) < 1 then 1 else jitterMinPackets
  { minStart := minStart, maxKeep := keepFor minStart, packets := ∅, head := 0, started := false }

/-! ## The smallest and the largest buffered number -/

theorem minSeq_eq_some_iff {b : SpeakerJitterBuffer} {lo : ℕ} :
    b.minSeq = some lo ↔ lo ∈ b.packets ∧ ∀ q ∈ b.packets, lo ≤ q := by
  unfold minSeq
  split_ifs with h
  · rw [Option.some.injEq, Finset.min'_eq_iff]
    simp only [Finmap.mem_keys]
  · simp only [false_iff, not_and]
    intro hlo
    exact (h ⟨lo, Finmap.mem_keys.2 hlo⟩).elim

theorem maxSeq_eq_some_iff {b : SpeakerJitterBuffer} {hi : ℕ} :
    b.maxSeq = some hi ↔ hi ∈ b.packets ∧ ∀ q ∈ b.packets, q ≤ hi := by
  unfold maxSeq
  split_ifs with h
  · rw [Option.some.injEq, Finset.max'_eq_iff]
    simp only [Finmap.mem_keys]
  · simp only [false_iff, not_and]
    intro hhi
    exact (h ⟨hi, Finmap.mem_keys.2 hhi⟩).elim

theorem pendingCount_erase {m : Finmap fun _ : ℕ => AudioPacket} {q : ℕ} (h : q ∈ m) :
    (m.erase q).keys.card + 1 = m.keys.card := by
  rw [Finmap.keys_erase, Finset.card_erase_add_one (Finmap.mem_keys.2 h)]

theorem pendingCount_eq_zero_iff {b : SpeakerJitterBuffer} :
    b.pendingCount = 0 ↔ ∀ q, q ∉ b.packets := by
  simp [pendingCount, Finset.eq_empty_iff_forall_notMem, Finmap.mem_keys]

theorem exists_minSeq {b : SpeakerJitterBuffer} {q : ℕ} (hq : q ∈ b.packets) :
    ∃ lo, b.minSeq = some lo := by
  unfold minSeq
  rw [dif_pos ⟨q, Finmap.mem_keys.2 hq⟩]
  exact ⟨_, rfl⟩

theorem exists_maxSeq {b : SpeakerJitterBuffer} {q : ℕ} (hq : q ∈ b.packets) :
    ∃ hi, b.maxSeq = some hi := by
  unfold maxSeq
  rw [dif_pos ⟨q, Finmap.mem_keys.2 hq⟩]
  exact ⟨_, rfl⟩

theorem farGap_mono {b : SpeakerJitterBuffer} {q hi : ℕ} (h : q ≤ hi) (hq : b.farGap q = true) :
    b.farGap hi = true := by
  simp only [farGap, decide_eq_true_eq] at hq ⊢
  omega

/-! ## Eviction -/

/-- The eviction keeps the bounds of the queue and whether it is started. -/
theorem trimFrom_frame (fuel : ℕ) (b : SpeakerJitterBuffer) :
    (trimFrom fuel b).minStart = b.minStart ∧ (trimFrom fuel b).maxKeep = b.maxKeep ∧
      (trimFrom fuel b).started = b.started := by
  induction fuel generalizing b with
  | zero => exact ⟨rfl, rfl, rfl⟩
  | succ fuel ih =>
    unfold trimFrom
    split_ifs
    · cases b.minSeq with
      | none => exact ⟨rfl, rfl, rfl⟩
      | some lo => exact ih _
    · exact ⟨rfl, rfl, rfl⟩

theorem trim_of_le {b : SpeakerJitterBuffer} (h : (b.pendingCount : ℤ) ≤ b.maxKeep) :
    b.trim = b := by
  unfold trim
  cases b.pendingCount with
  | zero => rfl
  | succ n =>
    unfold trimFrom
    rw [if_neg (not_lt.2 h)]

/-- Eviction moves the `head` of a started buffer forward only. -/
theorem head_le_trimFrom (fuel : ℕ) {b : SpeakerJitterBuffer} (hs : b.started = true)
    (hseq : ∀ q ∈ b.packets, q < 2 ^ 31) : b.head ≤ (trimFrom fuel b).head := by
  induction fuel generalizing b with
  | zero => exact le_rfl
  | succ fuel ih =>
    unfold trimFrom
    split_ifs with hkeep
    · cases hlo : b.minSeq with
      | none => exact le_rfl
      | some lo =>
        have hlt := hseq lo (minSeq_eq_some_iff.1 hlo).1
        refine le_trans ?_ (ih hs fun q hq => hseq q (Finmap.mem_erase.1 hq).2)
        show b.head ≤ if b.started = true ∧ b.head ≤ lo then u32 (lo + 1) else b.head
        split_ifs with hle
        · unfold u32
          omega
        · exact le_rfl
    · exact le_rfl

theorem head_le_trim {b : SpeakerJitterBuffer} (hs : b.trim.started = true)
    (hseq : ∀ q ∈ b.packets, q < 2 ^ 31) : b.started = true ∧ b.head ≤ b.trim.head := by
  have hstarted : b.started = true := (trimFrom_frame _ b).2.2.symm.trans hs
  exact ⟨hstarted, head_le_trimFrom _ hstarted hseq⟩

/-! ## Storing a packet -/

/-- The queue with one more packet. -/
def stored (b : SpeakerJitterBuffer) (pkt : AudioPacket) : SpeakerJitterBuffer :=
  { b with packets := b.packets.insert pkt.seq pkt }

theorem keys_stored (b : SpeakerJitterBuffer) (pkt : AudioPacket) :
    (b.stored pkt).packets.keys = insert pkt.seq b.packets.keys := by
  ext q
  simp [stored, Finmap.mem_keys, Finmap.mem_insert]

theorem pendingCount_stored {b : SpeakerJitterBuffer} {pkt : AudioPacket}
    (h : pkt.seq ∉ b.packets) : (b.stored pkt).pendingCount = b.pendingCount + 1 := by
  unfold pendingCount
  rw [keys_stored, Finset.card_insert_of_notMem (mt Finmap.mem_keys.1 h)]

/-- `push` once the packet is stored: the test for a start. -/
def startFull (b : SpeakerJitterBuffer) : SpeakerJitterBuffer :=
  if b.started = false ∧ b.minStart ≤ b.pendingCount then
    match b.minSeq with
    | some lo => b.startAt lo
    | none => b
  else b

theorem push_of_mem {b : SpeakerJitterBuffer} {pkt : AudioPacket} (h : pkt.seq ∈ b.packets) :
    b.push pkt = b := if_pos h

theorem push_of_notMem {b : SpeakerJitterBuffer} {pkt : AudioPacket} (h : pkt.seq ∉ b.packets) :
    b.push pkt = (b.stored pkt).startFull.trim := if_neg h

theorem startFull_of_le {b : SpeakerJitterBuffer} {lo : ℕ} (hs : b.started = false)
    (hmin : b.minStart ≤ b.pendingCount) (hlo : b.minSeq = some lo) :
    b.startFull = b.startAt lo := by
  unfold startFull
  rw [if_pos ⟨hs, hmin⟩, hlo]

theorem startFull_frame (b : SpeakerJitterBuffer) : b.startFull.packets = b.packets ∧
    b.startFull.minStart = b.minStart ∧ b.startFull.maxKeep = b.maxKeep := by
  unfold startFull
  split_ifs
  · cases b.minSeq <;> exact ⟨rfl, rfl, rfl⟩
  · exact ⟨rfl, rfl, rfl⟩

/-! ## The position that `pop` reads -/

/-- `pop` is about to move `head` to the smallest buffered number: at a start, when every buffered
number is above `head`, or when some buffered number is far above it. -/
def Restarts (b : SpeakerJitterBuffer) : Prop :=
  if b.started = false then b.minStart ≤ b.pendingCount
  else (∀ q ∈ b.packets.keys, b.head < q) ∨ ∃ q ∈ b.packets.keys, b.farGap q = true

instance (b : SpeakerJitterBuffer) : Decidable b.Restarts := by
  unfold Restarts
  infer_instance

/-- The position that `pop` reads, if any. -/
def slot (b : SpeakerJitterBuffer) : Option ℕ :=
  if b.started = true ∧ b.head ∈ b.packets then some b.head
  else if b.Restarts then b.minSeq
  else none

/-- The buffer after playing the packet at `q`. -/
def played (b : SpeakerJitterBuffer) (q : ℕ) : SpeakerJitterBuffer :=
  { b with packets := b.packets.erase q, head := u32 (q + 1), started := true }

theorem takeHead_eq_none {b : SpeakerJitterBuffer} (h : b.head ∉ b.packets) :
    b.takeHead = none := by
  simp [takeHead, Finmap.lookup_eq_none.2 h]

theorem takeHead_eq_some {b : SpeakerJitterBuffer} {pkt : AudioPacket}
    (h : b.packets.lookup b.head = some pkt) :
    b.takeHead =
      some (pkt, { b with packets := b.packets.erase b.head, head := u32 (b.head + 1) }) := by
  simp [takeHead, h]

theorem popStarted_at {b : SpeakerJitterBuffer} {pkt : AudioPacket} (hs : b.started = true)
    (h : b.packets.lookup b.head = some pkt) : b.popStarted = (some pkt, b.played b.head) := by
  unfold popStarted
  rw [takeHead_eq_some h]
  simp [played, hs]

/-- `pop` of a started buffer whose `head` is missing: forward to the smallest number when the queue
lies above `head`, or when it reaches far above it; otherwise nothing. -/
theorem popStarted_skip {b : SpeakerJitterBuffer} {lo : ℕ} {pkt : AudioPacket}
    (hs : b.started = true) (hh : b.head ∉ b.packets) (hlo : b.minSeq = some lo)
    (hpkt : b.packets.lookup lo = some pkt) :
    b.popStarted = if b.Restarts then (some pkt, b.played lo) else (none, b) := by
  obtain ⟨hmem, hle⟩ := minSeq_eq_some_iff.1 hlo
  obtain ⟨hi, hhi⟩ := exists_maxSeq hmem
  obtain ⟨himem, hige⟩ := maxSeq_eq_some_iff.1 hhi
  have hat : ({ b with head := lo }).takeHead =
      some (pkt, { b with packets := b.packets.erase lo, head := u32 (lo + 1) }) :=
    takeHead_eq_some hpkt
  unfold popStarted popFarGap
  rw [takeHead_eq_none hh, hlo, hhi]
  simp only [hat]
  by_cases hlt : b.head < lo
  · have hr : b.Restarts := by
      simp only [Restarts, hs, Bool.true_eq_false, if_false]
      exact Or.inl fun q hq => lt_of_lt_of_le hlt (hle q (Finmap.mem_keys.1 hq))
    rw [if_pos hlt, if_pos hr]
    simp [played, hs]
  · rw [if_neg hlt]
    by_cases hfar : b.farGap hi = true
    · have hr : b.Restarts := by
        simp only [Restarts, hs, Bool.true_eq_false, if_false]
        exact Or.inr ⟨hi, Finmap.mem_keys.2 himem, hfar⟩
      rw [if_pos hfar, if_pos hr]
      simp [orNil, played, hs]
    · have hr : ¬ b.Restarts := by
        simp only [Restarts, hs, Bool.true_eq_false, if_false, Finmap.mem_keys]
        rintro (h | ⟨q, hq, hqfar⟩)
        · exact hlt (h lo hmem)
        · exact hfar (farGap_mono (hige q hq) hqfar)
      rw [if_neg hfar, if_neg hr]

/-- `pop` plays the packet at `slot`. -/
theorem pop_of_slot {b : SpeakerJitterBuffer} {q : ℕ} (h : b.slot = some q) :
    ∃ pkt, b.packets.lookup q = some pkt ∧ b.pop = (some pkt, b.played q) := by
  have hq : q ∈ b.packets := by
    unfold slot at h
    split_ifs at h with h1 h2
    · rw [← Option.some.inj h]
      exact h1.2
    · exact (minSeq_eq_some_iff.1 h).1
  obtain ⟨pkt, hpkt⟩ := Finmap.mem_iff.1 hq
  have hne : b.pendingCount ≠ 0 := fun h0 => pendingCount_eq_zero_iff.1 h0 q hq
  refine ⟨pkt, hpkt, ?_⟩
  unfold pop
  rw [if_neg hne]
  unfold slot at h
  cases hs : b.started
  · simp only [hs, Bool.false_eq_true, false_and, if_false] at h
    split_ifs at h with hr
    have hge : b.minStart ≤ b.pendingCount := by simpa [Restarts, hs] using hr
    rw [if_pos rfl, if_neg (not_lt.2 hge), h]
    have : (b.startAt q).popStarted = (some pkt, (b.startAt q).played (b.startAt q).head) :=
      popStarted_at rfl hpkt
    simpa [startAt, played] using this
  · simp only [hs, true_and] at h
    rw [if_neg (by simp)]
    split_ifs at h with hh hr
    · obtain rfl := Option.some.inj h
      exact popStarted_at hs hpkt
    · rw [popStarted_skip hs hh h hpkt, if_pos hr]

/-- Without a position to read, `pop` returns nothing and at most clears `started`. -/
theorem pop_eq_of_no_slot {b : SpeakerJitterBuffer} (h : b.slot = none) :
    ∃ started, (started = true → b.started = true) ∧
      b.pop = (none, { b with started := started }) := by
  unfold pop
  split_ifs with h0 hs hlt
  · exact ⟨false, Bool.noConfusion, rfl⟩
  · exact ⟨b.started, id, rfl⟩
  · have hr : b.Restarts := by simpa [Restarts, hs] using hlt
    simp only [slot, hs, Bool.false_eq_true, false_and, if_false, if_pos hr] at h
    rw [h]
    exact ⟨b.started, id, rfl⟩
  · simp only [Bool.not_eq_false] at hs
    obtain ⟨q, hq⟩ : ∃ q, q ∈ b.packets := by
      by_contra hall
      exact h0 (pendingCount_eq_zero_iff.2 (not_exists.1 hall))
    obtain ⟨lo, hlo⟩ := exists_minSeq hq
    obtain ⟨pkt, hpkt⟩ := Finmap.mem_iff.1 (minSeq_eq_some_iff.1 hlo).1
    unfold slot at h
    split_ifs at h with hh hr
    · rw [hlo] at h
      cases h
    · have hh' : b.head ∉ b.packets := fun hm => hh ⟨hs, hm⟩
      rw [popStarted_skip hs hh' hlo hpkt, if_neg hr]
      exact ⟨b.started, id, rfl⟩

theorem pop_of_no_slot {b : SpeakerJitterBuffer} (h : b.slot = none) :
    b.pop.1 = none ∧ b.pop.2.packets = b.packets := by
  obtain ⟨started, -, hpop⟩ := pop_eq_of_no_slot h
  rw [hpop]
  exact ⟨rfl, rfl⟩

/-! ## What a buffer holds -/

/-- Every buffered packet meets `P` with the number it is stored under. -/
def AllBuffered (P : ℕ → AudioPacket → Prop) (b : SpeakerJitterBuffer) : Prop :=
  ∀ q pkt, b.packets.lookup q = some pkt → P q pkt

namespace AllBuffered

variable {P : ℕ → AudioPacket → Prop} {b : SpeakerJitterBuffer}

theorem lookup_of_lookup_erase {m : Finmap fun _ : ℕ => AudioPacket} {q r : ℕ} {pkt : AudioPacket}
    (h : (m.erase r).lookup q = some pkt) : m.lookup q = some pkt := by
  by_cases hqr : q = r
  · subst hqr
    simp at h
  · rwa [Finmap.lookup_erase_ne hqr] at h

theorem lookup_of_lookup_trimFrom (fuel : ℕ) {b : SpeakerJitterBuffer} {q : ℕ} {pkt : AudioPacket}
    (h : (trimFrom fuel b).packets.lookup q = some pkt) : b.packets.lookup q = some pkt := by
  induction fuel generalizing b with
  | zero => exact h
  | succ fuel ih =>
    unfold trimFrom at h
    split_ifs at h
    · cases hlo : b.minSeq with
      | none => simpa only [hlo] using h
      | some lo =>
        simp only [hlo] at h
        exact lookup_of_lookup_erase (ih h)
    · exact h

theorem of_pendingCount (h : b.pendingCount = 0) : b.AllBuffered P := by
  intro q pkt hq
  exact (pendingCount_eq_zero_iff.1 h q (Finmap.mem_iff.2 ⟨pkt, hq⟩)).elim

theorem reset : b.reset.AllBuffered P := by
  intro q pkt hq
  simp [SpeakerJitterBuffer.reset] at hq

theorem new (jitterMinPackets : ℕ) : (SpeakerJitterBuffer.new jitterMinPackets).AllBuffered P := by
  intro q pkt hq
  simp [SpeakerJitterBuffer.new] at hq

theorem trim (h : b.AllBuffered P) : b.trim.AllBuffered P :=
  fun q pkt hq => h q pkt (lookup_of_lookup_trimFrom _ hq)

theorem push (h : b.AllBuffered P) {pkt : AudioPacket} (hpkt : P pkt.seq pkt) :
    (b.push pkt).AllBuffered P := by
  have hins : ({ b with packets := b.packets.insert pkt.seq pkt }).AllBuffered P := by
    intro q p hq
    by_cases hqs : q = pkt.seq
    · subst hqs
      rw [Finmap.lookup_insert] at hq
      rwa [← Option.some.inj hq]
    · rw [Finmap.lookup_insert_of_ne _ hqs] at hq
      exact h q p hq
  unfold SpeakerJitterBuffer.push
  split
  · exact h
  · apply AllBuffered.trim
    split
    · split <;> exact hins
    · exact hins

theorem pop (h : b.AllBuffered P) : b.pop.2.AllBuffered P := by
  cases hs : b.slot with
  | none =>
    intro q pkt hq
    rw [(pop_of_no_slot hs).2] at hq
    exact h q pkt hq
  | some r =>
    obtain ⟨p, -, hpop⟩ := pop_of_slot hs
    rw [hpop]
    exact fun q pkt hq => h q pkt (lookup_of_lookup_erase hq)

/-- The packet that `pop` returns was buffered. -/
theorem of_pop (h : b.AllBuffered P) {pkt : AudioPacket} (hpop : b.pop.1 = some pkt) :
    ∃ q, P q pkt := by
  cases hs : b.slot with
  | none =>
    rw [(pop_of_no_slot hs).1] at hpop
    cases hpop
  | some r =>
    obtain ⟨p, hp, hpop'⟩ := pop_of_slot hs
    rw [hpop'] at hpop
    obtain rfl := Option.some.inj hpop
    exact ⟨r, h r p hp⟩

theorem forceStartFromMinSeq (h : b.AllBuffered P) : b.forceStartFromMinSeq.AllBuffered P := by
  unfold SpeakerJitterBuffer.forceStartFromMinSeq
  split <;> exact h

theorem setMinStartClamped (h : b.AllBuffered P) (n floor ceil : ℤ) :
    (b.setMinStartClamped n floor ceil).AllBuffered P := by
  simp only [SpeakerJitterBuffer.setMinStartClamped]
  split_ifs
  · exact h
  · exact AllBuffered.trim h

end AllBuffered

/-! ## Starts from the smallest number -/

theorem pop_of_empty {b : SpeakerJitterBuffer} (h : b.pendingCount = 0) :
    b.pop = (none, { b with started := false }) := if_pos h

theorem pendingCount_pop_of_empty {b : SpeakerJitterBuffer} (h : b.pendingCount = 0) :
    b.pop.2.pendingCount = 0 := by
  rw [pop_of_empty h]
  exact h

theorem pendingCount_eq_zero_of_minSeq {b : SpeakerJitterBuffer} (h : b.minSeq = none) :
    b.pendingCount = 0 := by
  refine pendingCount_eq_zero_iff.2 fun q hq => ?_
  obtain ⟨lo, hlo⟩ := exists_minSeq hq
  rw [h] at hlo
  cases hlo

theorem forceStartFromMinSeq_of_empty {b : SpeakerJitterBuffer} (h : b.pendingCount = 0) :
    b.forceStartFromMinSeq = b := by
  unfold forceStartFromMinSeq
  cases hlo : b.minSeq with
  | none => rfl
  | some lo => exact (pendingCount_eq_zero_iff.1 h lo (minSeq_eq_some_iff.1 hlo).1).elim

/-- The buffer is empty, or it has started and nothing in it lies below `head`. -/
def Headed (b : SpeakerJitterBuffer) : Prop :=
  b.pendingCount = 0 ∨ b.started = true ∧ ∀ q ∈ b.packets, b.head ≤ q

/-- No step of a tick can tell the two buffers apart. -/
structure Alike (b b' : SpeakerJitterBuffer) : Prop where
  pendingCount : b'.pendingCount = b.pendingCount
  started : b'.started = b.started
  forceStart : b'.forceStartFromMinSeq = b.forceStartFromMinSeq
  pop : b'.pop = b.pop

theorem Alike.rfl {b : SpeakerJitterBuffer} : b.Alike b :=
  ⟨Eq.refl _, Eq.refl _, Eq.refl _, Eq.refl _⟩

namespace Headed

variable {b : SpeakerJitterBuffer} {lo : ℕ}

theorem forceStartFromMinSeq : b.forceStartFromMinSeq.Headed := by
  unfold SpeakerJitterBuffer.forceStartFromMinSeq
  cases hlo : b.minSeq with
  | none => exact Or.inl (pendingCount_eq_zero_of_minSeq hlo)
  | some lo => exact Or.inr ⟨rfl, (minSeq_eq_some_iff.1 hlo).2⟩

/-- Such a buffer plays its smallest number next. -/
theorem slot_eq (h : b.Headed) (hlo : b.minSeq = some lo) : b.slot = some lo := by
  obtain ⟨hmem, hle⟩ := minSeq_eq_some_iff.1 hlo
  rcases h with hcount | ⟨hs, hhead⟩
  · exact (pendingCount_eq_zero_iff.1 hcount lo hmem).elim
  · unfold slot
    by_cases hh : b.head ∈ b.packets
    · rw [if_pos ⟨hs, hh⟩, le_antisymm (hle _ hh) (hhead _ hmem)]
    · have hr : b.Restarts := by
        simp only [Restarts, hs, Bool.true_eq_false, if_false, Finmap.mem_keys]
        left
        intro q hq
        refine lt_of_le_of_ne (hhead q hq) ?_
        rintro rfl
        exact hh hq
      rw [if_neg fun hc => hh hc.2, if_pos hr, hlo]

theorem pop (h : b.Headed) : b.pop.2.Headed := by
  cases hlo : b.minSeq with
  | none =>
    exact Or.inl (pendingCount_pop_of_empty (pendingCount_eq_zero_of_minSeq hlo))
  | some lo =>
    obtain ⟨pkt, -, hpop⟩ := pop_of_slot (h.slot_eq hlo)
    rw [hpop]
    refine Or.inr ⟨rfl, fun q hq => ?_⟩
    obtain ⟨hne, hq⟩ := Finmap.mem_erase.1 hq
    have hlt : lo < q := lt_of_le_of_ne ((minSeq_eq_some_iff.1 hlo).2 q hq) (Ne.symm hne)
    show u32 (lo + 1) ≤ q
    unfold u32
    omega

/-- A further forced start of such a buffer makes no difference. -/
theorem alike (h : b.Headed) : b.Alike b.forceStartFromMinSeq := by
  cases hlo : b.minSeq with
  | none =>
    rw [forceStartFromMinSeq_of_empty (pendingCount_eq_zero_of_minSeq hlo)]
    exact Alike.rfl
  | some lo =>
    have hstart : b.forceStartFromMinSeq = b.startAt lo := by
      simp only [SpeakerJitterBuffer.forceStartFromMinSeq, hlo]
    have hlo' : (b.startAt lo).minSeq = some lo := hlo
    have hheaded : (b.startAt lo).Headed := hstart ▸ forceStartFromMinSeq
    have hs : b.started = true := by
      rcases h with hcount | ⟨hs, -⟩
      · exact (pendingCount_eq_zero_iff.1 hcount lo (minSeq_eq_some_iff.1 hlo).1).elim
      · exact hs
    rw [hstart]
    refine ⟨rfl, hs.symm, ?_, ?_⟩
    · simp only [SpeakerJitterBuffer.forceStartFromMinSeq, hlo, hlo']
      rfl
    · obtain ⟨pkt, hpkt, hpop⟩ := pop_of_slot (h.slot_eq hlo)
      obtain ⟨pkt', hpkt', hpop'⟩ := pop_of_slot (hheaded.slot_eq hlo')
      obtain rfl : pkt = pkt' := Option.some.inj (hpkt.symm.trans hpkt')
      rw [hpop, hpop']
      rfl

end Headed

end SpeakerJitterBuffer

end OWalkie
