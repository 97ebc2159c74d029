import OWalkie.Lib.Ring
import OWalkie.Lib.Run

/-!
# The playback ring of the Android client

`RxPcmJitterBuffer` keeps the samples that came in from the relay in a circular buffer whose
capacity follows the frame size of the codec.  `refines_queue`: seen through its operations it is a
list of samples that keeps the newest ones.

An operation that throws ends in `.error` with the fields as they are then.
-/

namespace OWalkie

open Run

def ringFrameCapacity : ℤ := 48

/-- The fields behind `lock`, without the audio track. -/
structure RxPcmJitterBuffer where
  ring : List Int16 := []
  ringCapacity : ℕ := 0
  writePos : ℕ := 0
  readPos : ℕ := 0
  size : ℕ := 0
deriving Repr, DecidableEq

/-- The fields after an operation: it returns or throws. -/
abbrev Locked := Except RxPcmJitterBuffer

namespace RxPcmJitterBuffer

/-! ## The operations -/

/-- `n % ringCapacity`. -/
def modCapacity (b : RxPcmJitterBuffer) (n : ℕ) : Locked ℕ :=
  if b.ringCapacity = 0 then .error b else .ok (n % b.ringCapacity)

/-- `ring[writePos] = sample`, and the position and the size behind it. -/
def writeSample (b : RxPcmJitterBuffer) (sample : Int16) : Locked RxPcmJitterBuffer :=
  if b.writePos < b.ring.length then
    let b := { b with ring := b.ring.set b.writePos sample }
    (b.modCapacity (b.writePos + 1)).map fun writePos =>
      { b with writePos := writePos, size := b.size + 1 }
  else .error b

/-- The body of the loop in `offer`. -/
def offerSample (b : RxPcmJitterBuffer) (sample : Int16) : Locked RxPcmJitterBuffer :=
  if b.size = b.ringCapacity then do
    let readPos ← b.modCapacity (b.readPos + 1)
    writeSample { b with readPos := readPos, size := b.size - 1 } sample
  else b.writeSample sample

/-- The loop that moves what the old ring held from `rp` on. -/
def moveSamples (old : RxPcmJitterBuffer) :
    ℕ → ℕ → RxPcmJitterBuffer → Locked RxPcmJitterBuffer
  | 0, _, b => .ok b
  | n + 1, rp, b =>
    match old.ring[rp]? with
    | none => .error b
    | some x => do
      let b ← b.writeSample x
      moveSamples old n ((rp + 1) % old.ringCapacity) b

/-- The capacity that a frame size asks for, in the arithmetic of `Int`. -/
def neededCapacity (frameSamples : ℤ) : ℤ :=
  let frame := max frameSamples 1
  max ((frame * ringFrameCapacity).bmod (2 ^ 32)) ((frame * 4).bmod (2 ^ 32))

def ensureRingCapacityLocked (b : RxPcmJitterBuffer) (frameSamples : ℤ) :
    Locked RxPcmJitterBuffer :=
  let needed := neededCapacity frameSamples
  if needed ≤ b.ringCapacity ∧ b.ring ≠ [] then .ok b
  else if needed < 0 then .error b
  else
    let fresh : RxPcmJitterBuffer :=
      { ring := List.replicate needed.toNat 0, ringCapacity := needed.toNat }
    if 0 < b.ringCapacity ∧ 0 < b.size then
      moveSamples b (min b.size needed.toNat) b.readPos fresh
    else .ok fresh

def offer (b : RxPcmJitterBuffer) (pcm : List Int16) (frameSamples : ℤ) :
    Locked RxPcmJitterBuffer :=
  if pcm = [] then .ok b
  else do
    let b ← b.ensureRingCapacityLocked frameSamples
    pcm.foldlM offerSample b

/-- The loop that fills a frame in `playbackLoop`. -/
def readSamples : ℕ → RxPcmJitterBuffer → Locked (List Int16 × RxPcmJitterBuffer)
  | 0, b => .ok ([], b)
  | n + 1, b =>
    match b.ring[b.readPos]? with
    | none => .error b
    | some x => do
      let readPos ← b.modCapacity (b.readPos + 1)
      let (frame, b) ← readSamples n { b with readPos := readPos }
      return (x :: frame, b)

/-- The part of `playbackLoop` behind the lock; no frame if fewer samples are held. -/
def readFrame (b : RxPcmJitterBuffer) (frameSamples : ℤ) :
    Locked (Option (List Int16) × RxPcmJitterBuffer) :=
  let n := (max frameSamples 1).toNat
  if b.size < n then .ok (none, b)
  else (readSamples n b).map fun (frame, b) => (some frame, { b with size := b.size - n })

/-- `resetCodec`; `release` does the same once it has stopped the thread. -/
def resetCodec (_ : RxPcmJitterBuffer) : RxPcmJitterBuffer := {}

end RxPcmJitterBuffer

/-- What the threads do with the ring; `frameSamples` is what the provider returns then. -/
inductive RxAction where
  | offer (pcm : List Int16) (frameSamples : ℤ)
  | playback (frameSamples : ℤ)
  | resetCodec
  | release
deriving Repr, DecidableEq

inductive RxEvent where
  | frame (samples : List Int16)
  | thrown
deriving Repr, DecidableEq

namespace RxPcmJitterBuffer

def step (b : RxPcmJitterBuffer) : RxAction → RxPcmJitterBuffer × List RxEvent
  | .offer pcm frameSamples =>
    match b.offer pcm frameSamples with
    | .ok b => (b, [])
    | .error b => (b, [.thrown])
  | .playback frameSamples =>
    match b.readFrame frameSamples with
    | .ok (some frame, b) => (b, [.frame frame])
    | .ok (none, b) => (b, [])
    | .error b => (b, [.thrown])
  | .resetCodec | .release => (b.resetCodec, [])

/-- The samples in the ring, the oldest one first. -/
def samples (b : RxPcmJitterBuffer) : List Int16 := (b.ring.rotate b.readPos).take b.size

end RxPcmJitterBuffer

/-! ## The queue -/

/-- What the ring is for: the newest samples, at most `capacity` of them. -/
structure SampleQueue where
  capacity : ℕ := 0
  samples : List Int16 := []
deriving Repr, DecidableEq

namespace SampleQueue

/-- The capacity only grows; without any, nothing can be kept. -/
def offer (q : SampleQueue) (pcm : List Int16) (frameSamples : ℤ) : SampleQueue × List RxEvent :=
  if pcm = [] then (q, [])
  else
    let capacity := max q.capacity (RxPcmJitterBuffer.neededCapacity frameSamples).toNat
    (⟨capacity, (q.samples ++ pcm).rtake capacity⟩, if capacity = 0 then [.thrown] else [])

def readFrame (q : SampleQueue) (n : ℕ) : SampleQueue × List RxEvent :=
  if q.samples.length < n then (q, [])
  else ({ q with samples := q.samples.drop n }, [.frame (q.samples.take n)])

def step (q : SampleQueue) : RxAction → SampleQueue × List RxEvent
  | .offer pcm frameSamples => q.offer pcm frameSamples
  | .playback frameSamples => q.readFrame (max frameSamples 1).toNat
  | .resetCodec | .release => ({}, [])

end SampleQueue

namespace RxPcmJitterBuffer

/-! ## The ring is the queue -/

/-- The ring holds the samples of the queue, from the read position to the write position. -/
structure Represents (b : RxPcmJitterBuffer) (q : SampleQueue) : Prop where
  length : b.ring.length = b.ringCapacity
  capacity : b.ringCapacity = q.capacity
  size : b.size = q.samples.length
  held : Holds b.ring b.readPos q.samples
  readPos : b.readPos % b.ringCapacity = b.readPos
  writePos : b.writePos = (b.readPos + b.size) % b.ringCapacity

variable {b : RxPcmJitterBuffer} {q : SampleQueue}

theorem modCapacity_of_pos (h : 0 < b.ringCapacity) (n : ℕ) :
    b.modCapacity n = .ok (n % b.ringCapacity) := if_neg h.ne'

theorem represents_empty (n : ℕ) :
    Represents { ring := List.replicate n 0, ringCapacity := n } ⟨n, []⟩ where
  length := List.length_replicate
  capacity := rfl
  size := rfl
  held := .nil _ _
  readPos := Nat.zero_mod n
  writePos := (Nat.zero_mod n).symm

namespace Represents

theorem length_le (h : Represents b q) : q.samples.length ≤ b.ringCapacity :=
  h.length ▸ h.held.length_le

theorem writeSample (h : Represents b q) (hlt : q.samples.length < q.capacity) (x : Int16) :
    ∃ b', b.writeSample x = .ok b' ∧ Represents b' { q with samples := q.samples ++ [x] } := by
  have hpos : 0 < b.ringCapacity := h.capacity ▸ (Nat.zero_le _).trans_lt hlt
  have hcell : (b.readPos + q.samples.length) % b.ring.length = b.writePos := by
    rw [h.writePos, h.size, h.length]
  have hheld := h.held.push (h.length ▸ h.capacity ▸ hlt) x
  rw [hcell] at hheld
  rw [RxPcmJitterBuffer.writeSample, if_pos (by
    rw [h.length, h.writePos]
    exact Nat.mod_lt _ hpos)]
  dsimp only
  rw [modCapacity_of_pos (b := { b with ring := b.ring.set b.writePos x }) hpos]
  refine ⟨_, rfl, ?_⟩
  refine ⟨(List.length_set ..).trans h.length, h.capacity, ?_, hheld, h.readPos, ?_⟩
  · show b.size + 1 = (q.samples ++ [x]).length
    rw [h.size, List.length_append, List.length_singleton]
  · show (b.writePos + 1) % b.ringCapacity = (b.readPos + (b.size + 1)) % b.ringCapacity
    rw [h.writePos, Nat.mod_add_mod, Nat.add_assoc]

/-- The oldest samples leave. -/
theorem advance {cap : ℕ} {xs ys : List Int16} (h : Represents b ⟨cap, xs ++ ys⟩) :
    Represents
      { b with readPos := (b.readPos + xs.length) % b.ringCapacity, size := b.size - xs.length }
      ⟨cap, ys⟩ := by
  have hsize : b.size = xs.length + ys.length := h.size.trans List.length_append
  refine ⟨h.length, h.capacity, ?_, ?_, Nat.mod_mod _ _, ?_⟩
  · show b.size - xs.length = ys.length
    omega
  · show Holds b.ring ((b.readPos + xs.length) % b.ringCapacity) ys
    rw [← h.length, Holds.mod_iff]
    exact h.held.drop
  · show b.writePos = ((b.readPos + xs.length) % b.ringCapacity + (b.size - xs.length)) %
      b.ringCapacity
    rw [Nat.mod_add_mod, h.writePos]
    congr 1
    omega

theorem offerSample (h : Represents b q) (hpos : 0 < q.capacity) (x : Int16) :
    ∃ b', b.offerSample x = .ok b' ∧
      Represents b' { q with samples := (q.samples ++ [x]).rtake q.capacity } := by
  have hle : q.samples.length ≤ q.capacity := h.capacity ▸ h.length_le
  have hkeep : (q.samples ++ [x]).rtake q.capacity =
      (if q.samples.length = q.capacity then q.samples.tail else q.samples) ++ [x] := by
    rw [rtake_snoc hpos, rtake_of_length_le hle]
  have hiff : b.size = b.ringCapacity ↔ q.samples.length = q.capacity := by
    rw [h.size, h.capacity]
  rw [hkeep, RxPcmJitterBuffer.offerSample]
  by_cases hfull : q.samples.length = q.capacity
  · rw [if_pos (hiff.2 hfull), if_pos hfull, modCapacity_of_pos (h.capacity ▸ hpos)]
    obtain ⟨cap, samples⟩ := q
    cases samples with
    | nil => exact absurd hfull hpos.ne
    | cons y ys =>
      have hlt : ys.length < cap := Nat.lt_of_lt_of_eq (Nat.lt_succ_self _) hfull
      have hfirst : Represents b ⟨cap, [y] ++ ys⟩ := h
      exact hfirst.advance.writeSample hlt x
  · rw [if_neg (mt hiff.1 hfull), if_neg hfull]
    exact h.writeSample (lt_of_le_of_ne hle hfull) x

theorem offerSamples (h : Represents b q) (hpos : 0 < q.capacity) (pcm : List Int16) :
    ∃ b', pcm.foldlM RxPcmJitterBuffer.offerSample b = .ok b' ∧
      Represents b' { q with samples := (q.samples ++ pcm).rtake q.capacity } := by
  induction pcm generalizing b q with
  | nil =>
    refine ⟨b, rfl, ?_⟩
    rwa [List.append_nil, rtake_of_length_le (h.capacity ▸ h.length_le)]
  | cons x pcm ih =>
    obtain ⟨b₁, hb₁, h₁⟩ := h.offerSample hpos x
    obtain ⟨b₂, hb₂, h₂⟩ := ih h₁ hpos
    refine ⟨b₂, ?_, ?_⟩
    · rw [List.foldlM_cons, hb₁]
      exact hb₂
    · rwa [rtake_rtake_append, List.append_assoc] at h₂

/-- Nothing can be kept without any capacity. -/
theorem samples_eq_nil (h : Represents b q) (hcap : q.capacity = 0) : q.samples = [] := by
  have hle := h.length_le
  rw [h.capacity, hcap] at hle
  exact List.length_eq_zero_iff.1 (Nat.le_zero.1 hle)

/-- The remainder by zero at the first sample. -/
theorem offerSamples_empty (h : Represents b q) (hcap : q.capacity = 0) {pcm : List Int16}
    (hpcm : pcm ≠ []) : pcm.foldlM RxPcmJitterBuffer.offerSample b = .error b := by
  obtain ⟨x, pcm, rfl⟩ := List.exists_cons_of_ne_nil hpcm
  have hzero : b.ringCapacity = 0 := h.capacity.trans hcap
  have hsize : b.size = b.ringCapacity := by
    rw [h.size, h.samples_eq_nil hcap, hzero]
    rfl
  rw [List.foldlM_cons, RxPcmJitterBuffer.offerSample, if_pos hsize, modCapacity, if_pos hzero]
  rfl

/-- What is moved from a ring that holds `xs` from `rp` on. -/
theorem moveSamples {old : RxPcmJitterBuffer} (hlen : old.ring.length = old.ringCapacity)
    {xs : List Int16} {rp : ℕ} (hold : Holds old.ring rp xs) (hrp : rp % old.ringCapacity = rp)
    (h : Represents b q) (hle : q.samples.length + xs.length ≤ q.capacity) :
    ∃ b', old.moveSamples xs.length rp b = .ok b' ∧
      Represents b' { q with samples := q.samples ++ xs } := by
  induction xs generalizing rp b q with
  | nil =>
    refine ⟨b, rfl, ?_⟩
    rwa [List.append_nil]
  | cons x xs ih =>
    have hx : old.ring[rp]? = some x := by
      have := hold.getElem? (i := 0) (Nat.succ_pos _)
      rwa [Nat.add_zero, hlen, hrp] at this
    have htail : Holds old.ring ((rp + 1) % old.ringCapacity) xs := by
      rw [← hlen, Holds.mod_iff]
      exact hold.tail
    rw [List.length_cons] at hle
    obtain ⟨b₁, hb₁, h₁⟩ := h.writeSample (by omega) x
    obtain ⟨b₂, hb₂, h₂⟩ := ih htail (Nat.mod_mod _ _) h₁ (by
      show (q.samples ++ [x]).length + xs.length ≤ q.capacity
      rw [List.length_append, List.length_singleton]
      omega)
    refine ⟨b₂, ?_, ?_⟩
    · rw [List.length_cons, RxPcmJitterBuffer.moveSamples, hx]
      simp only [hb₁]
      exact hb₂
    · rwa [List.append_assoc] at h₂

/-- A ring that is replaced does not shrink. -/
theorem le_needed (h : Represents b q) {needed : ℤ}
    (hnot : ¬ (needed ≤ b.ringCapacity ∧ b.ring ≠ [])) (hpos : 0 ≤ needed) :
    b.ringCapacity ≤ needed.toNat := by
  by_contra hlt
  refine hnot ⟨by omega, fun hempty => ?_⟩
  have hlen := h.length
  rw [hempty, List.length_nil] at hlen
  omega

theorem ensureRingCapacityLocked (h : Represents b q) (frameSamples : ℤ) :
    (b.ensureRingCapacityLocked frameSamples = .error b ∧ q.capacity = 0 ∧
        neededCapacity frameSamples < 0) ∨
      ∃ b', b.ensureRingCapacityLocked frameSamples = .ok b' ∧
        Represents b' { q with capacity := max q.capacity (neededCapacity frameSamples).toNat } := by
  have hlen := h.length
  have hcap := h.capacity
  have hle := h.length_le
  rw [RxPcmJitterBuffer.ensureRingCapacityLocked]
  split_ifs with hkeep hneg hmove
  · refine .inr ⟨b, rfl, ?_⟩
    rw [max_eq_left (by omega)]
    exact h
  · -- a ring that is not empty would have been kept
    have hempty : b.ring = [] := by
      by_contra hne
      exact hkeep ⟨by omega, hne⟩
    rw [hempty, List.length_nil] at hlen
    exact .inl ⟨rfl, by omega, hneg⟩
  · have hgrow := h.le_needed hkeep (by omega)
    refine .inr ?_
    rw [max_eq_right (by omega), h.size, min_eq_left (by omega)]
    exact moveSamples hlen h.held h.readPos (represents_empty _) (by
      show 0 + q.samples.length ≤ (neededCapacity frameSamples).toNat
      omega)
  · have hgrow := h.le_needed hkeep (by omega)
    have hsize := h.size
    obtain ⟨cap, samples⟩ := q
    have hnone : samples = [] := List.length_eq_zero_iff.1 (by
      dsimp only at hle hsize
      omega)
    subst hnone
    refine .inr ⟨_, rfl, ?_⟩
    rw [max_eq_right (by
      dsimp only at hcap ⊢
      omega)]
    exact represents_empty _

theorem offer (h : Represents b q) (pcm : List Int16) (frameSamples : ℤ) :
    (b.step (.offer pcm frameSamples)).2 = (q.step (.offer pcm frameSamples)).2 ∧
      Represents (b.step (.offer pcm frameSamples)).1 (q.step (.offer pcm frameSamples)).1 := by
  rw [RxPcmJitterBuffer.step, SampleQueue.step, RxPcmJitterBuffer.offer, SampleQueue.offer]
  by_cases hpcm : pcm = []
  · rw [if_pos hpcm, if_pos hpcm]
    exact ⟨rfl, h⟩
  rw [if_neg hpcm, if_neg hpcm]
  dsimp only
  rcases h.ensureRingCapacityLocked frameSamples with ⟨hthrow, hcap, hneg⟩ | ⟨b₁, hb₁, h₁⟩
  · -- the array of negative length
    have hzero : max q.capacity (neededCapacity frameSamples).toNat = 0 := by omega
    have hnone := h.samples_eq_nil hcap
    rw [hthrow, hzero, List.rtake_zero]
    refine ⟨rfl, ?_⟩
    obtain ⟨cap, samples⟩ := q
    obtain rfl : cap = 0 := hcap
    obtain rfl : samples = [] := hnone
    exact h
  · rw [hb₁]
    by_cases hzero : max q.capacity (neededCapacity frameSamples).toNat = 0
    · have hnone := h₁.samples_eq_nil hzero
      simp only [bind, Except.bind, h₁.offerSamples_empty hzero hpcm]
      rw [if_pos hzero, hzero, List.rtake_zero]
      dsimp only at hnone
      rw [hnone, hzero] at h₁
      exact ⟨rfl, h₁⟩
    · obtain ⟨b₂, hb₂, h₂⟩ := h₁.offerSamples (Nat.pos_of_ne_zero hzero) pcm
      rw [if_neg hzero]
      simp only [bind, Except.bind, hb₂]
      exact ⟨trivial, h₂⟩

end Represents

theorem readSamples_eq (hlen : b.ring.length = b.ringCapacity)
    (hrd : b.readPos % b.ringCapacity = b.readPos) {xs : List Int16}
    (hheld : Holds b.ring b.readPos xs) : readSamples xs.length b =
      .ok (xs, { b with readPos := (b.readPos + xs.length) % b.ringCapacity }) := by
  induction xs generalizing b with
  | nil =>
    rw [List.length_nil, Nat.add_zero, hrd]
    rfl
  | cons x xs ih =>
    have hpos : 0 < b.ringCapacity := hlen ▸ (Nat.succ_pos _).trans_le hheld.length_le
    have hx : b.ring[b.readPos]? = some x := by
      have := hheld.getElem? (i := 0) (Nat.succ_pos _)
      rwa [Nat.add_zero, hlen, hrd] at this
    have htail : Holds b.ring ((b.readPos + 1) % b.ringCapacity) xs := by
      rw [← hlen, Holds.mod_iff]
      exact hheld.tail
    have hrest := ih (b := { b with readPos := (b.readPos + 1) % b.ringCapacity }) hlen
      (Nat.mod_mod _ _) htail
    dsimp only at hrest
    rw [Nat.mod_add_mod, Nat.add_assoc, Nat.add_comm 1] at hrest
    rw [List.length_cons, readSamples, hx]
    simp only [modCapacity_of_pos hpos, hrest, bind, Except.bind, pure, Except.pure]

namespace Represents

theorem readFrame (h : Represents b q) (frameSamples : ℤ) :
    (b.step (.playback frameSamples)).2 = (q.step (.playback frameSamples)).2 ∧
      Represents (b.step (.playback frameSamples)).1 (q.step (.playback frameSamples)).1 := by
  rw [RxPcmJitterBuffer.step, SampleQueue.step, RxPcmJitterBuffer.readFrame, SampleQueue.readFrame]
  dsimp only
  generalize (max frameSamples 1).toNat = n
  by_cases hfew : q.samples.length < n
  · rw [if_pos (h.size ▸ hfew), if_pos hfew]
    exact ⟨rfl, h⟩
  · rw [if_neg (h.size ▸ hfew), if_neg hfew]
    have hlen : (q.samples.take n).length = n := List.length_take_of_le (not_lt.1 hfew)
    have hread := readSamples_eq h.length h.readPos ((List.take_prefix n q.samples).trans h.held)
    have hsplit : Represents b ⟨q.capacity, q.samples.take n ++ q.samples.drop n⟩ := by
      rwa [List.take_append_drop]
    have hrest := hsplit.advance
    rw [hlen] at hread hrest
    rw [hread]
    exact ⟨rfl, hrest⟩

theorem step (h : Represents b q) (a : RxAction) :
    (b.step a).2 = (q.step a).2 ∧ Represents (b.step a).1 (q.step a).1 := by
  cases a with
  | offer pcm frameSamples => exact h.offer pcm frameSamples
  | playback frameSamples => exact h.readFrame frameSamples
  | resetCodec => exact ⟨rfl, represents_empty 0⟩
  | release => exact ⟨rfl, represents_empty 0⟩

theorem samples_eq (h : Represents b q) : b.samples = q.samples := by
  rw [RxPcmJitterBuffer.samples, h.size]
  exact (List.prefix_iff_eq_take.1 h.held).symm

end Represents

/-- In every run the ring puts out what the queue does and holds its samples; it never holds more
than its capacity, its write position follows from the other two, and a new capacity keeps what is
held. -/
theorem refines_queue (as : List RxAction) :
    let b := after (next step) {} as
    let q := after (next SampleQueue.step) {} as
    outputs step {} as = outputs SampleQueue.step {} as ∧
      b.samples = q.samples ∧ b.ringCapacity = q.capacity ∧ b.size ≤ b.ringCapacity ∧
      (0 < b.ringCapacity → b.writePos = (b.readPos + b.size) % b.ringCapacity) ∧
      ∀ frameSamples b', b.ensureRingCapacityLocked frameSamples = .ok b' →
        b.ringCapacity ≤ b'.ringCapacity ∧ b'.samples = b.samples := by
  intro b q
  obtain ⟨houts, (h : Represents b q)⟩ := refines (fun _ _ a h => h.step a) (represents_empty 0) as
  refine ⟨houts, h.samples_eq, h.capacity, h.size ▸ h.length_le, fun _ => h.writePos, ?_⟩
  intro frameSamples b' hb'
  rcases h.ensureRingCapacityLocked frameSamples with ⟨hthrow, -⟩ | ⟨b₁, hb₁, h₁⟩
  · rw [hthrow] at hb'
    cases hb'
  · obtain rfl : b₁ = b' := Except.ok.inj (hb₁.symm.trans hb')
    refine ⟨?_, h₁.samples_eq.trans h.samples_eq.symm⟩
    rw [h.capacity, h₁.capacity]
    exact le_max_left _ _

end RxPcmJitterBuffer

end OWalkie
