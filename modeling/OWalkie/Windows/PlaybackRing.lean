import OWalkie.Lib.Fifo
import OWalkie.Lib.Ring
import OWalkie.Lib.Run

/-!
# The ring of the player

`QueuePcmForPlaybackLocked` writes the received frames to a `ma_pcm_rb` and the thread of the device
reads them in `PlaybackCallback`, without a lock between the two.  An offset is written by one of
the threads only, so a step of the model is one load of the other thread's offset, one copied frame
or one commit.  `ring_is_fifo`: whatever the interleaving, the ring answers as a first-in first-out
queue.  `plays_what_was_queued`: what the device gets is what was queued, in order, with silence
only where the ring was empty.  `regions_disjoint`: the two `memcpy` never touch the same frame.
-/

namespace OWalkie

open Run

/-- `encodedReadOffset` and `encodedWriteOffset`: 31 bits of an offset, here in frames, and a flag
that changes each time the offset comes around. -/
structure EncodedOffset where
  offset : ℕ := 0
  loopFlag : Bool := false
deriving Repr, DecidableEq

structure MaRb where
  subbufferSize : ℕ
  buffer : List ℤ
  encodedReadOffset : EncodedOffset := {}
  encodedWriteOffset : EncodedOffset := {}
deriving Repr, DecidableEq

namespace MaRb

def init (size : ℕ) : MaRb := { subbufferSize := size, buffer := List.replicate size 0 }

def acquireRead (rb : MaRb) (requested : ℕ) : ℕ :=
  let available :=
    if rb.encodedReadOffset.loopFlag = rb.encodedWriteOffset.loopFlag then
      rb.encodedWriteOffset.offset - rb.encodedReadOffset.offset
    else rb.subbufferSize - rb.encodedReadOffset.offset
  if requested > available then available else requested

def acquireWrite (rb : MaRb) (requested : ℕ) : ℕ :=
  let available :=
    if rb.encodedWriteOffset.loopFlag = rb.encodedReadOffset.loopFlag then
      rb.subbufferSize - rb.encodedWriteOffset.offset
    else rb.encodedReadOffset.offset - rb.encodedWriteOffset.offset
  if requested > available then available else requested

/-- The offset after a commit, the same one if the commit fails. -/
def committed (size : ℕ) (o : EncodedOffset) (frames : ℕ) : EncodedOffset :=
  if o.offset + frames > size then o
  else if o.offset + frames = size then ⟨0, !o.loopFlag⟩
  else ⟨o.offset + frames, o.loopFlag⟩

def commitRead (rb : MaRb) (frames : ℕ) : MaRb :=
  { rb with encodedReadOffset := committed rb.subbufferSize rb.encodedReadOffset frames }

def commitWrite (rb : MaRb) (frames : ℕ) : MaRb :=
  { rb with encodedWriteOffset := committed rb.subbufferSize rb.encodedWriteOffset frames }

end MaRb

/-- Where the thread of the device is; `out` is the part of its buffer that is filled. -/
inductive PlaybackPc where
  | idle
  | loop (frameCount : ℕ) (out : List ℤ)
  | memcpy (frameCount : ℕ) (out : List ℤ) (chunk : ℕ) (copied : List ℤ)
deriving Repr, DecidableEq

/-- Where the thread that holds `mu_` is; `src` is what is left to write. -/
inductive QueuePc where
  | idle
  | loop (src : List ℤ)
  | memcpy (src : List ℤ) (chunk copied : ℕ)
deriving Repr, DecidableEq

structure PlaybackRing where
  rb : MaRb
  playback : PlaybackPc := .idle
  queue : QueuePc := .idle
deriving Repr, DecidableEq

inductive PlaybackAction where
  /-- the device asks for frames -/
  | playbackCallback (frameCount : ℕ)
  | queuePcmForPlayback (pcm : List ℤ)
  | runPlayback
  | runQueue
deriving Repr, DecidableEq

inductive PlaybackEvent where
  | offered (pcm : List ℤ)
  | queued (pcm : List ℤ)
  /-- the rest of a call, which did not fit -/
  | dropped (pcm : List ℤ)
  | taken (pcm : List ℤ)
  /-- silence for the rest of a callback -/
  | silence (frames : ℕ)
  /-- the buffer of a callback that has returned -/
  | played (frameCount : ℕ) (out : List ℤ)
deriving Repr, DecidableEq

namespace PlaybackRing

def rbFrames (frameSamples : ℤ) : ℕ := (max (frameSamples * 64) 1024).toNat

def new (frameSamples : ℤ) : PlaybackRing := { rb := .init (rbFrames frameSamples) }

def runPlayback (s : PlaybackRing) : PlaybackRing × List PlaybackEvent :=
  match s.playback with
  | .idle => (s, [])
  | .loop frameCount out =>
    if out.length < frameCount then
      let rest := frameCount - out.length
      let chunk := s.rb.acquireRead rest
      if chunk = 0 then
        ({ s with playback := .idle },
          [.silence rest, .played frameCount (out ++ List.replicate rest 0)])
      else ({ s with playback := .memcpy frameCount out chunk [] }, [])
    else ({ s with playback := .idle }, [.played frameCount out])
  | .memcpy frameCount out chunk copied =>
    if copied.length < chunk then
      let frame := s.rb.buffer.getD (s.rb.encodedReadOffset.offset + copied.length) 0
      ({ s with playback := .memcpy frameCount out chunk (copied ++ [frame]) }, [])
    else
      ({ s with rb := s.rb.commitRead chunk, playback := .loop frameCount (out ++ copied) },
        [.taken copied])

def runQueue (s : PlaybackRing) : PlaybackRing × List PlaybackEvent :=
  match s.queue with
  | .idle => (s, [])
  | .loop src =>
    if 0 < src.length then
      let chunk := s.rb.acquireWrite src.length
      if chunk = 0 then ({ s with queue := .idle }, [.dropped src])
      else ({ s with queue := .memcpy src chunk 0 }, [])
    else ({ s with queue := .idle }, [])
  | .memcpy src chunk copied =>
    if copied < chunk then
      let cell := s.rb.encodedWriteOffset.offset + copied
      ({ s with
          rb := { s.rb with buffer := s.rb.buffer.set cell (src.getD copied 0) }
          queue := .memcpy src chunk (copied + 1) }, [])
    else
      ({ s with rb := s.rb.commitWrite chunk, queue := .loop (src.drop chunk) },
        [.queued (src.take chunk)])

def step (s : PlaybackRing) : PlaybackAction → PlaybackRing × List PlaybackEvent
  | .playbackCallback frameCount =>
    match s.playback with
    | .idle => ({ s with playback := .loop frameCount [] }, [])
    | _ => (s, [])
  | .queuePcmForPlayback pcm =>
    match s.queue with
    | .idle => ({ s with queue := .loop pcm }, [.offered pcm])
    | _ => (s, [])
  | .runPlayback => s.runPlayback
  | .runQueue => s.runQueue

end PlaybackRing

/-! ## Offsets -/

namespace EncodedOffset

/-- The offset that stands for the `p`-th frame of the stream. -/
def of (n p : ℕ) : EncodedOffset := ⟨p % n, p / n % 2 = 1⟩

variable {n p u : ℕ}

theorem of_add (hu : p % n + u ≤ n) (hn : 0 < n) : MaRb.committed n (of n p) u = of n (p + u) := by
  unfold MaRb.committed of
  dsimp only
  have hlt := Nat.mod_lt p hn
  rw [if_neg (by omega)]
  by_cases h : p % n + u = n
  · obtain ⟨hdiv, hmod⟩ := wrap_of_le h.ge (by omega)
    rw [if_pos h, hdiv, hmod, h, Nat.sub_self]
    congr 1
    rw [← decide_not, decide_eq_decide]
    omega
  · obtain ⟨hdiv, hmod⟩ := wrap_of_lt (n := n) (r := p) (u := u) (by omega)
    rw [if_neg h, hdiv, hmod]

/-- The flags agree if and only if the two offsets are in the same round. -/
theorem loopFlag_eq_iff (hn : 0 < n) (hu : u ≤ n) :
    ((of n p).loopFlag = (of n (p + u)).loopFlag) ↔ p % n + u < n := by
  have hlt := Nat.mod_lt p hn
  simp only [of, decide_eq_decide]
  by_cases h : p % n + u < n
  · rw [(wrap_of_lt h).1]
    exact iff_of_true Iff.rfl h
  · rw [(wrap_of_le (Nat.le_of_not_lt h) (by omega)).1]
    exact iff_of_false (by omega) h

theorem of_zero (n : ℕ) : of n 0 = {} := by simp [of]

end EncodedOffset

namespace PlaybackEvent

/-- What the ring answers in an event. -/
def ringOp : PlaybackEvent → Option (Fifo.Op ℤ)
  | queued pcm => some (.put pcm)
  | dropped _ => some .full
  | taken pcm => some (.get pcm)
  | silence _ => some .empty
  | _ => none

def offeredFrames : PlaybackEvent → List ℤ
  | offered pcm => pcm
  | _ => []

/-- What becomes of the offered frames. -/
def settledFrames : PlaybackEvent → List ℤ
  | queued pcm | dropped pcm => pcm
  | _ => []

def queuedFrames : PlaybackEvent → List ℤ
  | queued pcm => pcm
  | _ => []

def takenFrames : PlaybackEvent → List ℤ
  | taken pcm => pcm
  | _ => []

/-- What the device hears. -/
def heardFrames : PlaybackEvent → List ℤ
  | taken pcm => pcm
  | silence frames => List.replicate frames 0
  | _ => []

def playedFrames : PlaybackEvent → List ℤ
  | played _ out => out
  | _ => []

end PlaybackEvent

namespace PlaybackPc

def out : PlaybackPc → List ℤ
  | idle => []
  | loop _ out | memcpy _ out _ _ => out

/-- With the read offset at the `r`-th frame of the stream and `xs` in the ring, of `n` frames. -/
def Ok (n r : ℕ) (xs : List ℤ) : PlaybackPc → Prop
  | idle => True
  | loop frameCount out => out.length ≤ frameCount
  | memcpy frameCount out chunk copied =>
    copied <+: xs ∧ copied.length ≤ chunk ∧ chunk ≤ xs.length ∧ r % n + chunk ≤ n ∧
      out.length + chunk ≤ frameCount

theorem Ok.append {n r : ℕ} {xs : List ℤ} {pc : PlaybackPc} (h : pc.Ok n r xs) (ys : List ℤ) :
    pc.Ok n r (xs ++ ys) := by
  cases pc with
  | memcpy frameCount out chunk copied =>
    obtain ⟨hfront, hlen, hchunk, hend, hroom⟩ := h
    exact ⟨hfront.trans (List.prefix_append xs ys), hlen,
      hchunk.trans (by rw [List.length_append]; omega), hend, hroom⟩
  | _ => exact h

end PlaybackPc

namespace QueuePc

def src : QueuePc → List ℤ
  | idle => []
  | loop src | memcpy src _ _ => src

/-- The frames that are in the ring but not committed. -/
def written : QueuePc → List ℤ
  | idle | loop _ => []
  | memcpy src _ copied => src.take copied

/-- With the write offset at the `w`-th frame of the stream and `used` frames in the ring. -/
def Ok (n w used : ℕ) : QueuePc → Prop
  | idle | loop _ => True
  | memcpy src chunk copied =>
    copied ≤ chunk ∧ chunk ≤ src.length ∧ used + chunk ≤ n ∧ w % n + chunk ≤ n

end QueuePc

namespace MaRb

/-- The frames between the two offsets. -/
def used (rb : MaRb) : ℕ :=
  if rb.encodedReadOffset.loopFlag = rb.encodedWriteOffset.loopFlag then
    rb.encodedWriteOffset.offset - rb.encodedReadOffset.offset
  else rb.subbufferSize - rb.encodedReadOffset.offset + rb.encodedWriteOffset.offset

def content (rb : MaRb) : List ℤ :=
  (rb.buffer.rotate rb.encodedReadOffset.offset).take rb.used

end MaRb

namespace PlaybackRing

/-! ## The ring -/

/-- The ring holds `xs`, the stream from its `r`-th frame on. -/
structure Consistent (n r : ℕ) (xs : List ℤ) (s : PlaybackRing) : Prop where
  size : s.rb.subbufferSize = n
  length : s.rb.buffer.length = n
  read : s.rb.encodedReadOffset = .of n r
  write : s.rb.encodedWriteOffset = .of n (r + xs.length)
  holds : Holds s.rb.buffer r (xs ++ s.queue.written)
  playback : s.playback.Ok n r xs
  queue : s.queue.Ok n (r + xs.length) xs.length

namespace Consistent

variable {n r : ℕ} {xs : List ℤ} {s : PlaybackRing}

theorem length_le (h : Consistent n r xs s) : xs.length ≤ n := by
  have hle := h.holds.length_le
  rw [List.length_append, h.length] at hle
  omega

/-- The write offset, seen from the read offset. -/
theorem write_offset (hn : 0 < n) (h : Consistent n r xs s) :
    if s.rb.encodedReadOffset.loopFlag = s.rb.encodedWriteOffset.loopFlag then
      s.rb.encodedWriteOffset.offset = s.rb.encodedReadOffset.offset + xs.length ∧
        s.rb.encodedWriteOffset.offset < n
    else s.rb.encodedWriteOffset.offset + n = s.rb.encodedReadOffset.offset + xs.length ∧
        s.rb.encodedWriteOffset.offset ≤ s.rb.encodedReadOffset.offset ∧
        s.rb.encodedReadOffset.offset < n := by
  have hle := h.length_le
  have hlt := Nat.mod_lt r hn
  rw [h.read, h.write]
  split_ifs with hflag
  · rw [EncodedOffset.loopFlag_eq_iff hn hle] at hflag
    have hmod := (wrap_of_lt hflag).2
    exact ⟨hmod, hmod.trans_lt hflag⟩
  · rw [EncodedOffset.loopFlag_eq_iff hn hle, Nat.not_lt] at hflag
    have hmod := (wrap_of_le hflag (by omega)).2
    simp only [EncodedOffset.of]
    omega

theorem acquireRead (hn : 0 < n) (h : Consistent n r xs s) (k : ℕ) :
    s.rb.acquireRead k = min k (min xs.length (n - r % n)) := by
  have hwrite := h.write_offset hn
  have hle := h.length_le
  have hread : s.rb.encodedReadOffset.offset = r % n := by rw [h.read]; rfl
  have hsize := h.size
  simp only [MaRb.acquireRead]
  split_ifs at hwrite ⊢ <;> omega

theorem acquireWrite (hn : 0 < n) (h : Consistent n r xs s) (k : ℕ) :
    s.rb.acquireWrite k = min k (min (n - xs.length) (n - (r + xs.length) % n)) := by
  have hwrite := h.write_offset hn
  have hle := h.length_le
  have hoffset : s.rb.encodedWriteOffset.offset = (r + xs.length) % n := by rw [h.write]; rfl
  have hsize := h.size
  simp only [MaRb.acquireWrite, eq_comm (a := s.rb.encodedWriteOffset.loopFlag)]
  split_ifs at hwrite ⊢ <;> omega

theorem content (hn : 0 < n) (h : Consistent n r xs s) : s.rb.content = xs := by
  have hused : s.rb.used = xs.length := by
    have hwrite := h.write_offset hn
    have hsize := h.size
    unfold MaRb.used
    split_ifs at hwrite ⊢ <;> omega
  have hholds := h.holds
  rw [← Holds.mod_iff, h.length] at hholds
  rw [MaRb.content, hused, h.read]
  exact (List.prefix_iff_eq_take.1 ((List.prefix_append xs _).trans hholds)).symm

theorem setPlayback (h : Consistent n r xs s) {pc : PlaybackPc} (hpc : pc.Ok n r xs) :
    Consistent n r xs { s with playback := pc } :=
  ⟨h.size, h.length, h.read, h.write, h.holds, hpc, h.queue⟩

theorem setQueue (h : Consistent n r xs s) {pc : QueuePc} (hwritten : pc.written = [])
    (hpc : pc.Ok n (r + xs.length) xs.length) : Consistent n r xs { s with queue := pc } := by
  refine ⟨h.size, h.length, h.read, h.write, ?_, h.playback, hpc⟩
  rw [hwritten, List.append_nil]
  exact (List.prefix_append xs _).trans h.holds

/-- The frame that the player copies next is the next one in the ring. -/
theorem copy (h : Consistent n r xs s) {frameCount chunk : ℕ} {out copied : List ℤ}
    (hpc : s.playback = .memcpy frameCount out chunk copied) (hlt : copied.length < chunk) :
    Consistent n r xs
      { s with
        playback := .memcpy frameCount out chunk
          (copied ++ [s.rb.buffer.getD (s.rb.encodedReadOffset.offset + copied.length) 0]) } := by
  have hok := h.playback
  rw [hpc] at hok
  obtain ⟨hcopied, hlen, hchunk, hend, hroom⟩ := hok
  have hin : copied.length < xs.length := by omega
  have hcell : s.rb.buffer.getD (s.rb.encodedReadOffset.offset + copied.length) 0 =
      xs[copied.length] := by
    have hread := h.holds.getElem? (i := copied.length) (by rw [List.length_append]; omega)
    rw [h.length, (wrap_of_lt (by omega)).2, List.getElem?_append_left hin] at hread
    rw [h.read, List.getD_eq_getElem?_getD]
    simp only [EncodedOffset.of, hread, List.getElem?_eq_getElem hin, Option.getD_some]
  refine h.setPlayback ⟨?_, by rw [List.length_append]; simp; omega, hchunk, hend, hroom⟩
  rw [hcell]
  nth_rewrite 1 [List.prefix_iff_eq_take.1 hcopied]
  rw [List.take_concat_get' xs copied.length hin]
  exact List.take_prefix _ xs

/-- The frames that the player has copied leave the ring. -/
theorem commitRead (hn : 0 < n) (h : Consistent n r xs s) {frameCount chunk : ℕ}
    {out copied : List ℤ} (hpc : s.playback = .memcpy frameCount out chunk copied)
    (hall : ¬ copied.length < chunk) : ∃ xs', xs = copied ++ xs' ∧
      Consistent n (r + chunk) xs'
        { s with rb := s.rb.commitRead chunk, playback := .loop frameCount (out ++ copied) } := by
  have hok := h.playback
  rw [hpc] at hok
  obtain ⟨⟨xs', rfl⟩, hlen, hchunk, hend, hroom⟩ := hok
  obtain rfl : copied.length = chunk := by omega
  have hle := h.length_le
  rw [List.length_append] at hle
  have hsum : r + (copied ++ xs').length = r + copied.length + xs'.length := by
    rw [List.length_append, Nat.add_assoc]
  refine ⟨xs', rfl, h.size, h.length, ?_, hsum ▸ h.write, ?_, ?_, ?_⟩
  · simp only [MaRb.commitRead, h.size, h.read, EncodedOffset.of_add hend hn]
  · have hholds := h.holds
    rw [List.append_assoc] at hholds
    exact hholds.drop
  · simp only [PlaybackPc.Ok, List.length_append]
    exact hroom
  · have hqueue := h.queue
    rw [hsum] at hqueue
    cases hq : s.queue with
    | memcpy src chunk copied' =>
      rw [hq] at hqueue
      obtain ⟨hcopied, hsrc, hfree, hedge⟩ := hqueue
      rw [List.length_append] at hfree
      exact ⟨hcopied, hsrc, by omega, hedge⟩
    | _ => trivial

theorem runPlayback (hn : 0 < n) (h : Consistent n r xs s) : ∃ r' xs',
    Consistent n r' xs' s.runPlayback.1 ∧
      (s.runPlayback.2.filterMap PlaybackEvent.ringOp).foldlM (Fifo.accept n) xs = some xs' := by
  have hok := h.playback
  unfold PlaybackRing.runPlayback
  cases hpc : s.playback with
  | idle => exact ⟨r, xs, h, rfl⟩
  | loop frameCount out =>
    rw [hpc] at hok
    have hlt := Nat.mod_lt r hn
    simp only [h.acquireRead hn]
    split_ifs with hless hzero
    · obtain rfl : xs = [] := List.eq_nil_of_length_eq_zero (by omega)
      exact ⟨r, [], h.setPlayback trivial, rfl⟩
    · refine ⟨r, xs, h.setPlayback ⟨List.nil_prefix, Nat.zero_le _, ?_, ?_, ?_⟩, rfl⟩
      all_goals omega
    · exact ⟨r, xs, h.setPlayback trivial, rfl⟩
  | memcpy frameCount out chunk copied =>
    dsimp only
    split_ifs with hless
    · exact ⟨r, xs, h.copy hpc hless, rfl⟩
    · obtain ⟨xs', rfl, hnext⟩ := h.commitRead hn hpc hless
      refine ⟨r + chunk, xs', hnext, ?_⟩
      simp [PlaybackEvent.ringOp, Fifo.accept]

/-- The frame that is written next comes behind the ones before it. -/
theorem write_frame (h : Consistent n r xs s) {chunk copied : ℕ} {src : List ℤ}
    (hpc : s.queue = .memcpy src chunk copied) (hlt : copied < chunk) :
    Consistent n r xs
      { s with
        rb :=
          { s.rb with
            buffer := s.rb.buffer.set (s.rb.encodedWriteOffset.offset + copied)
              (src.getD copied 0) }
        queue := .memcpy src chunk (copied + 1) } := by
  have hok := h.queue
  have hholds := h.holds
  rw [hpc] at hok hholds
  obtain ⟨hcopied, hsrc, hfree, hend⟩ := hok
  have hin : copied < src.length := by omega
  have htake : (src.take copied).length = copied := by
    rw [List.length_take]
    omega
  have hlen : (xs ++ src.take copied).length = xs.length + copied := by
    rw [List.length_append, htake]
  have hpush := hholds.push (by rw [QueuePc.written, hlen, h.length]; omega) src[copied]
  rw [QueuePc.written, hlen, h.length, ← Nat.add_assoc, (wrap_of_lt (by omega)).2,
    List.append_assoc, List.take_concat_get' src copied hin] at hpush
  refine ⟨h.size, (List.length_set ..).trans h.length, h.read, h.write, ?_, h.playback,
    hlt, hsrc, hfree, hend⟩
  rw [h.write, List.getD_eq_getElem?_getD, List.getElem?_eq_getElem hin, Option.getD_some]
  exact hpush

/-- The frames that have been written enter the ring. -/
theorem commitWrite (hn : 0 < n) (h : Consistent n r xs s) {chunk copied : ℕ} {src : List ℤ}
    (hpc : s.queue = .memcpy src chunk copied) (hall : ¬ copied < chunk) :
    xs.length + (src.take chunk).length ≤ n ∧ Consistent n r (xs ++ src.take chunk)
      { s with rb := s.rb.commitWrite chunk, queue := .loop (src.drop chunk) } := by
  have hok := h.queue
  have hholds := h.holds
  rw [hpc] at hok hholds
  obtain ⟨hcopied, hsrc, hfree, hend⟩ := hok
  obtain rfl : copied = chunk := by omega
  have htake : (src.take copied).length = copied := by
    rw [List.length_take]
    omega
  refine ⟨by omega, h.size, h.length, h.read, ?_, ?_, h.playback.append _, trivial⟩
  · rw [List.length_append, htake, ← Nat.add_assoc]
    simp only [MaRb.commitWrite, h.size, h.write, EncodedOffset.of_add hend hn]
  · rw [QueuePc.written, List.append_nil]
    exact hholds

theorem runQueue (hn : 0 < n) (h : Consistent n r xs s) : ∃ r' xs',
    Consistent n r' xs' s.runQueue.1 ∧
      (s.runQueue.2.filterMap PlaybackEvent.ringOp).foldlM (Fifo.accept n) xs = some xs' := by
  unfold PlaybackRing.runQueue
  cases hpc : s.queue with
  | idle => exact ⟨r, xs, h, rfl⟩
  | loop src =>
    have hlt := Nat.mod_lt (r + xs.length) hn
    have hle := h.length_le
    simp only [h.acquireWrite hn]
    split_ifs with hless hzero
    · refine ⟨r, xs, h.setQueue rfl trivial, ?_⟩
      have hfull : xs.length = n := by omega
      simp [PlaybackEvent.ringOp, Fifo.accept, hfull]
    · refine ⟨r, xs, h.setQueue (by simp [QueuePc.written]) ⟨Nat.zero_le _, ?_, ?_, ?_⟩, rfl⟩
      all_goals omega
    · exact ⟨r, xs, h.setQueue rfl trivial, rfl⟩
  | memcpy src chunk copied =>
    dsimp only
    split_ifs with hless
    · exact ⟨r, xs, h.write_frame hpc hless, rfl⟩
    · obtain ⟨hroom, hnext⟩ := h.commitWrite hn hpc hless
      refine ⟨r, xs ++ src.take chunk, hnext, ?_⟩
      simp only [List.filterMap_cons, PlaybackEvent.ringOp, List.filterMap_nil, List.foldlM_cons,
        Fifo.accept, if_pos hroom, List.foldlM_nil]
      rfl

/-- Every step keeps the ring in order, and its answers are those of a queue. -/
theorem step (hn : 0 < n) (h : Consistent n r xs s) (a : PlaybackAction) : ∃ r' xs',
    Consistent n r' xs' (next step s a) ∧
      ((s.step a).2.filterMap PlaybackEvent.ringOp).foldlM (Fifo.accept n) xs = some xs' := by
  cases a with
  | playbackCallback frameCount =>
    unfold next PlaybackRing.step
    dsimp only
    split
    · exact ⟨r, xs, h.setPlayback (Nat.zero_le _), rfl⟩
    · exact ⟨r, xs, h, rfl⟩
  | queuePcmForPlayback pcm =>
    unfold next PlaybackRing.step
    dsimp only
    split
    · exact ⟨r, xs, h.setQueue rfl trivial, rfl⟩
    · exact ⟨r, xs, h, rfl⟩
  | runPlayback => exact h.runPlayback hn
  | runQueue => exact h.runQueue hn

end Consistent

theorem rbFrames_pos (frameSamples : ℤ) : 0 < rbFrames frameSamples := by
  unfold rbFrames
  omega

theorem new_consistent (frameSamples : ℤ) :
    Consistent (rbFrames frameSamples) 0 [] (new frameSamples) :=
  ⟨rfl, List.length_replicate, (EncodedOffset.of_zero _).symm, (EncodedOffset.of_zero _).symm,
    Holds.nil _ _, trivial, trivial⟩

/-- After every run the ring holds what its answers leave in the queue. -/
theorem run_consistent (frameSamples : ℤ) (as : List PlaybackAction) : ∃ r xs,
    Consistent (rbFrames frameSamples) r xs (after (next step) (new frameSamples) as) ∧
      ((outputs step (new frameSamples) as).filterMap PlaybackEvent.ringOp).foldlM
        (Fifo.accept (rbFrames frameSamples)) [] = some xs := by
  induction as using List.reverseRecOn with
  | nil => exact ⟨0, [], new_consistent frameSamples, rfl⟩
  | append_singleton as a ih =>
    obtain ⟨r, xs, h, hops⟩ := ih
    obtain ⟨r', xs', hnext, hstep⟩ := h.step (rbFrames_pos frameSamples) a
    refine ⟨r', xs', by rwa [after_snoc], ?_⟩
    rw [outputs_snoc, List.filterMap_append, List.foldlM_append, hops]
    exact hstep

/-- In every interleaving the ring answers as a first-in first-out queue for `rbFrames` frames:
`dropped` only when it is full, `silence` only when it is empty. -/
theorem ring_is_fifo (frameSamples : ℤ) (as : List PlaybackAction) :
    ((outputs step (new frameSamples) as).filterMap PlaybackEvent.ringOp).foldlM
        (Fifo.accept (rbFrames frameSamples)) [] =
      some (after (next step) (new frameSamples) as).rb.content := by
  obtain ⟨r, xs, h, hops⟩ := run_consistent frameSamples as
  rw [hops, h.content (rbFrames_pos frameSamples)]

/-! ## What the device plays -/

theorem heard_flow (s : PlaybackRing) (a : PlaybackAction) :
    s.playback.out ++ (s.step a).2.flatMap PlaybackEvent.heardFrames =
      (s.step a).2.flatMap PlaybackEvent.playedFrames ++ (next step s a).playback.out := by
  unfold next step
  cases a with
  | playbackCallback frameCount => dsimp only; split <;> simp_all [PlaybackPc.out]
  | queuePcmForPlayback pcm =>
    dsimp only
    split <;> simp [PlaybackEvent.heardFrames, PlaybackEvent.playedFrames]
  | runPlayback =>
    unfold runPlayback
    cases hpc : s.playback <;> dsimp only <;> repeat' split
    all_goals simp [hpc, PlaybackPc.out, PlaybackEvent.heardFrames, PlaybackEvent.playedFrames]
  | runQueue =>
    unfold runQueue
    cases s.queue <;> dsimp only <;> repeat' split
    all_goals simp [PlaybackEvent.heardFrames, PlaybackEvent.playedFrames]

theorem offered_flow (s : PlaybackRing) (a : PlaybackAction) :
    s.queue.src ++ (s.step a).2.flatMap PlaybackEvent.offeredFrames =
      (s.step a).2.flatMap PlaybackEvent.settledFrames ++ (next step s a).queue.src := by
  unfold next step
  cases a with
  | playbackCallback frameCount => dsimp only; split <;> simp
  | queuePcmForPlayback pcm =>
    dsimp only
    split <;> simp_all [QueuePc.src, PlaybackEvent.offeredFrames, PlaybackEvent.settledFrames]
  | runPlayback =>
    unfold runPlayback
    cases s.playback <;> dsimp only <;> repeat' split
    all_goals simp [PlaybackEvent.offeredFrames, PlaybackEvent.settledFrames]
  | runQueue =>
    unfold runQueue
    cases hpc : s.queue <;> dsimp only <;> repeat' split
    all_goals simp_all [QueuePc.src, PlaybackEvent.offeredFrames, PlaybackEvent.settledFrames]

/-- A callback returns with as many frames as it was asked for. -/
theorem Consistent.played {n r : ℕ} {xs : List ℤ} {s : PlaybackRing} (h : Consistent n r xs s)
    (a : PlaybackAction) {frameCount : ℕ} {out : List ℤ}
    (hplayed : .played frameCount out ∈ (s.step a).2) : out.length = frameCount := by
  have hok := h.playback
  cases a with
  | runPlayback =>
    unfold PlaybackRing.step PlaybackRing.runPlayback at hplayed
    cases hpc : s.playback with
    | loop frameCount' out' =>
      rw [hpc] at hok hplayed
      have hle : out'.length ≤ frameCount' := hok
      dsimp only at hplayed
      split_ifs at hplayed
      · simp only [List.mem_cons, reduceCtorEq, PlaybackEvent.played.injEq, List.not_mem_nil,
          or_false, false_or] at hplayed
        obtain ⟨rfl, rfl⟩ := hplayed
        rw [List.length_append, List.length_replicate]
        omega
      · simp at hplayed
      · simp only [List.mem_singleton, PlaybackEvent.played.injEq] at hplayed
        obtain ⟨rfl, rfl⟩ := hplayed
        omega
    | idle => simp [hpc] at hplayed
    | memcpy _ _ chunk copied =>
      rw [hpc] at hplayed
      dsimp only at hplayed
      split_ifs at hplayed <;> simp at hplayed
  | runQueue =>
    unfold PlaybackRing.step PlaybackRing.runQueue at hplayed
    cases hpc : s.queue <;> rw [hpc] at hplayed <;> dsimp only at hplayed
    all_goals
      repeat' split at hplayed
      all_goals simp at hplayed
  | _ =>
    unfold PlaybackRing.step at hplayed
    dsimp only at hplayed
    split at hplayed <;> simp at hplayed

/-- What the answers of the ring carry, read off the events. -/
theorem flatMap_ringOps {f : Fifo.Op ℤ → List ℤ} {g : PlaybackEvent → List ℤ}
    (h : ∀ e : PlaybackEvent, (e.ringOp.map f).getD [] = g e) (events : List PlaybackEvent) :
    (events.filterMap PlaybackEvent.ringOp).flatMap f = events.flatMap g := by
  induction events with
  | nil => rfl
  | cons e events ih =>
    rw [List.flatMap_cons, ← h e, ← ih, List.filterMap_cons]
    cases e.ringOp <;> rfl

theorem puts_ringOp (e : PlaybackEvent) : (e.ringOp.map Fifo.Op.puts).getD [] = e.queuedFrames := by
  cases e <;> rfl

theorem gets_ringOp (e : PlaybackEvent) : (e.ringOp.map Fifo.Op.gets).getD [] = e.takenFrames := by
  cases e <;> rfl

/-- In every interleaving the callbacks get as many frames as they ask for: the queued frames, in
order and each of them once, and silence.  What `QueuePcmForPlaybackLocked` is given is queued up to
the rest of a call that does not fit. -/
theorem plays_what_was_queued (frameSamples : ℤ) (as : List PlaybackAction) :
    (outputs step (new frameSamples) as).flatMap PlaybackEvent.heardFrames =
        (outputs step (new frameSamples) as).flatMap PlaybackEvent.playedFrames ++
          (after (next step) (new frameSamples) as).playback.out ∧
      (outputs step (new frameSamples) as).flatMap PlaybackEvent.queuedFrames =
        (outputs step (new frameSamples) as).flatMap PlaybackEvent.takenFrames ++
          (after (next step) (new frameSamples) as).rb.content ∧
      (outputs step (new frameSamples) as).flatMap PlaybackEvent.offeredFrames =
        (outputs step (new frameSamples) as).flatMap PlaybackEvent.settledFrames ++
          (after (next step) (new frameSamples) as).queue.src ∧
      ∀ frameCount out, .played frameCount out ∈ outputs step (new frameSamples) as →
        out.length = frameCount := by
  refine ⟨flow heard_flow (new frameSamples) as, ?_, flow offered_flow (new frameSamples) as, ?_⟩
  · obtain ⟨r, xs, h, hops⟩ := run_consistent frameSamples as
    have horder := Fifo.order hops
    rwa [List.nil_append, flatMap_ringOps puts_ringOp, flatMap_ringOps gets_ringOp,
      ← h.content (rbFrames_pos frameSamples)] at horder
  · intro frameCount out hplayed
    obtain ⟨pre, a, post, rfl, hstep⟩ := exists_step_of_mem_outputs hplayed
    obtain ⟨r, xs, h, -⟩ := run_consistent frameSamples pre
    exact h.played a hstep

/-! ## The two copies -/

/-- The cells that `ma_rb_acquire_read` has granted. -/
def readRegion (s : PlaybackRing) : List ℕ :=
  match s.playback with
  | .memcpy _ _ chunk _ => List.range' s.rb.encodedReadOffset.offset chunk
  | _ => []

/-- The cells that `ma_rb_acquire_write` has granted. -/
def writeRegion (s : PlaybackRing) : List ℕ :=
  match s.queue with
  | .memcpy _ chunk _ => List.range' s.rb.encodedWriteOffset.offset chunk
  | _ => []

/-- No frame is read and written at the same time: the cells that the one thread may read and those
that the other may write are apart and in the buffer.  The differences of the offsets, of type
`ma_uint32`, do not go below zero. -/
structure Apart (s : PlaybackRing) : Prop where
  regions : s.readRegion.Disjoint s.writeRegion
  read_lt : ∀ cell ∈ s.readRegion, cell < s.rb.buffer.length
  write_lt : ∀ cell ∈ s.writeRegion, cell < s.rb.buffer.length
  same_round : s.rb.encodedReadOffset.loopFlag = s.rb.encodedWriteOffset.loopFlag →
    s.rb.encodedReadOffset.offset ≤ s.rb.encodedWriteOffset.offset
  next_round : s.rb.encodedReadOffset.loopFlag ≠ s.rb.encodedWriteOffset.loopFlag →
    s.rb.encodedWriteOffset.offset ≤ s.rb.encodedReadOffset.offset

variable {n r : ℕ} {xs : List ℤ} {s : PlaybackRing}

/-- What may be read is in the ring. -/
theorem Consistent.mem_readRegion (h : Consistent n r xs s) {cell : ℕ}
    (hcell : cell ∈ s.readRegion) : s.rb.encodedReadOffset.offset ≤ cell ∧
      cell < s.rb.encodedReadOffset.offset + xs.length ∧ cell < n := by
  have hok := h.playback
  unfold readRegion at hcell
  split at hcell
  · rename_i hpc
    rw [hpc] at hok
    obtain ⟨-, -, hchunk, hend, -⟩ := hok
    rw [List.mem_range'_1] at hcell
    have hread : s.rb.encodedReadOffset.offset = r % n := by rw [h.read]; rfl
    omega
  · cases hcell

/-- What may be written is behind what the ring holds, before the read offset comes around. -/
theorem Consistent.mem_writeRegion (h : Consistent n r xs s) {cell : ℕ}
    (hcell : cell ∈ s.writeRegion) : s.rb.encodedWriteOffset.offset ≤ cell ∧
      cell + xs.length < s.rb.encodedWriteOffset.offset + n ∧ cell < n := by
  have hok := h.queue
  unfold writeRegion at hcell
  split at hcell
  · rename_i hpc
    rw [hpc] at hok
    obtain ⟨-, -, hfree, hend⟩ := hok
    rw [List.mem_range'_1] at hcell
    have hwrite : s.rb.encodedWriteOffset.offset = (r + xs.length) % n := by rw [h.write]; rfl
    omega
  · cases hcell

theorem Consistent.apart (hn : 0 < n) (h : Consistent n r xs s) : s.Apart := by
  have hwrite := h.write_offset hn
  refine ⟨?_, ?_, ?_, fun hflag => ?_, fun hflag => ?_⟩
  · intro cell hr hw
    have hread := h.mem_readRegion hr
    have hwritten := h.mem_writeRegion hw
    split_ifs at hwrite <;> omega
  · intro cell hr
    rw [h.length]
    exact (h.mem_readRegion hr).2.2
  · intro cell hw
    rw [h.length]
    exact (h.mem_writeRegion hw).2.2
  · rw [if_pos hflag] at hwrite
    omega
  · rw [if_neg hflag] at hwrite
    exact hwrite.2.1

/-- In every interleaving the two threads keep apart. -/
theorem regions_disjoint (frameSamples : ℤ) (as : List PlaybackAction) :
    (after (next step) (new frameSamples) as).Apart := by
  obtain ⟨r, xs, h, -⟩ := run_consistent frameSamples as
  exact h.apart (rbFrames_pos frameSamples)

end PlaybackRing

end OWalkie
