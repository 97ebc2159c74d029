import OWalkie.Core.TxFeed

/-!
# From the recorder to the encoder

The capture loop of the service copies what the recorder gives it into a frame buffer, which it uses
again and again, and sends a frame whenever the buffer is full; it opens the uplink before the first
one.  `recording_reaches_encoder` follows the samples of a transmission that nobody aborts through
the queue of the TX worker up to the encoder, as long as the queue has room and the watchdog does
not wake (`TxFeed.InTime`).
-/

namespace OWalkie

open Run TxPcm

/-! ## The capture loop -/

/-- `System.arraycopy` from the start of `src`. -/
def arraycopy (src dst : List ℤ) (dstPos length : ℕ) : List ℤ :=
  dst.take dstPos ++ src.take length ++ dst.drop (dstPos + length)

/-- The frame buffer of `runCaptureLoop`, and what has been submitted to the relay. -/
structure Capture (frameSamples : ℕ) where
  txBuffer : List ℤ
  txFill : ℕ
  txUplinkOpened : Bool := false
  commands : List TxVoice := []
  length_txBuffer : txBuffer.length = frameSamples
  txFill_lt : txFill < frameSamples

namespace Capture

variable {n : ℕ}

/-- `opens` is the answer of `relay().txOpen()`. -/
def openTxUplinkIfNeeded (opens : Bool) (c : Capture n) : Option (Capture n) :=
  if c.txUplinkOpened then some c
  else if opens then some { c with txUplinkOpened := true, commands := c.commands ++ [.txOpen] }
  else none

theorem length_arraycopy {src dst : List ℤ} {dstPos length : ℕ}
    (hsrc : length ≤ src.length) (hdst : dstPos + length ≤ dst.length) :
    (arraycopy src dst dstPos length).length = dst.length := by
  simp only [arraycopy, List.length_append, List.length_take, List.length_drop]
  omega

def toCopy (c : Capture n) (src : List ℤ) : ℕ := min (n - c.txFill) src.length

/-- The frame buffer after one `arraycopy` of the loop. -/
def copied (c : Capture n) (src : List ℤ) : List ℤ :=
  arraycopy src c.txBuffer c.txFill (c.toCopy src)

theorem length_copied (c : Capture n) (src : List ℤ) : (c.copied src).length = n := by
  have hfill := c.txFill_lt
  have hbuffer := c.length_txBuffer
  have hle : c.toCopy src ≤ n - c.txFill := min_le_left _ _
  have hsrc : c.toCopy src ≤ src.length := min_le_right _ _
  rw [copied, length_arraycopy hsrc (by omega), hbuffer]

/-- The buffer is not full yet. -/
def filled (c : Capture n) (src : List ℤ) (h : c.txFill + c.toCopy src < n) : Capture n where
  txBuffer := c.copied src
  txFill := c.txFill + c.toCopy src
  txUplinkOpened := c.txUplinkOpened
  commands := c.commands
  length_txBuffer := c.length_copied src
  txFill_lt := h

/-- The whole buffer is sent. -/
def submitTxPcmFrame (c : Capture n) (frame : List ℤ) (hframe : frame.length = n) : Capture n where
  txBuffer := frame
  txFill := 0
  txUplinkOpened := c.txUplinkOpened
  commands := c.commands ++ [.txPcm frame]
  length_txBuffer := hframe
  txFill_lt := Nat.zero_lt_of_lt c.txFill_lt

/-- The copying loop over one read; the error is the result `-1`. -/
def copyFrom (opens : Bool) : ℕ → Capture n → List ℤ → Except (Capture n) (Capture n)
  | 0, c, _ => .ok c
  | _, c, [] => .ok c
  | fuel + 1, c, x :: src =>
    if h : c.txFill + c.toCopy (x :: src) < n then
      copyFrom opens fuel (c.filled (x :: src) h) ((x :: src).drop (c.toCopy (x :: src)))
    else
      match openTxUplinkIfNeeded opens c with
      | none => .error c
      | some c' =>
        copyFrom opens fuel (c'.submitTxPcmFrame (c.copied (x :: src)) (c.length_copied _))
          ((x :: src).drop (c.toCopy (x :: src)))

/-- `appendCapturedSamples` with one blocking read; a read that fails gives no samples. -/
def appendRead (opens : Bool) (c : Capture n) (read : List ℤ) : Except (Capture n) (Capture n) :=
  copyFrom opens read.length c read

/-- `appendCapturedSamples` with reads that do not block, until one gives nothing or the time is
up. -/
def drainReads (opens : Bool) : Capture n → List (List ℤ) → Except (Capture n) (Capture n)
  | c, [] => .ok c
  | c, [] :: _ => .ok c
  | c, read :: reads => do
    let c ← appendRead opens c read
    drainReads opens c reads

/-- The samples that are left are sent in a frame of their own. -/
def submitRest (c : Capture n) : Capture n :=
  if c.txFill = 0 then c
  else
    c.submitTxPcmFrame (arraycopy c.txBuffer (List.replicate n 0) 0 c.txFill) (by
      have hfill := c.txFill_lt
      rw [length_arraycopy (by rw [c.length_txBuffer]; omega)
        (by rw [List.length_replicate]; omega), List.length_replicate])

/-- The two loops of `runCaptureLoop`; `reads` are taken while the microphone is active. -/
def runCaptureLoop (hn : 0 < n) (opens : Bool) (reads drained : List (List ℤ)) :
    Except (Capture n) (Capture n) := do
  let c ← reads.foldlM (appendRead opens) ⟨List.replicate n 0, 0, false, [], by simp, hn⟩
  if c.txUplinkOpened then
    let c ← drainReads opens c drained
    return c.submitRest
  else return c

/-- `streamGeneratedSignal`, in at most `fuel` rounds. -/
def streamGeneratedSignal (frameSamples : ℕ) : ℕ → List ℤ → List (List ℤ)
  | 0, _ => []
  | _, [] => []
  | fuel + 1, x :: pcm =>
    arraycopy (x :: pcm) (List.replicate frameSamples 0) 0
        (min frameSamples (x :: pcm).length) ::
      streamGeneratedSignal frameSamples fuel ((x :: pcm).drop frameSamples)

/-- The commands of the transmission, with those of `completePttReleaseAfterCapture`. -/
def transmission (c : Capture n) (roger : List ℤ) : List TxVoice :=
  c.commands ++
    if c.txUplinkOpened then
      .txVoiceEnd :: (streamGeneratedSignal n roger.length roger).map .txPcm ++ [.txClose]
    else []

/-! ## What has been recorded -/

theorem take_arraycopy {src dst : List ℤ} {dstPos length : ℕ} (hsrc : length ≤ src.length)
    (hdst : dstPos ≤ dst.length) :
    (arraycopy src dst dstPos length).take (dstPos + length) =
      dst.take dstPos ++ src.take length := by
  have hlen : (dst.take dstPos ++ src.take length).length = dstPos + length := by
    simp only [List.length_append, List.length_take]
    omega
  rw [arraycopy, ← hlen, List.take_left]

/-- `xs` are the samples so far, and `frames` the part of them that has been sent. -/
structure Recorded (c : Capture n) (xs : List ℤ) (frames : List (List ℤ)) : Prop where
  whole : ∀ b ∈ frames, b.length = n
  covers : frames.flatten ++ c.txBuffer.take c.txFill = xs
  opened : c.txUplinkOpened = true ↔ frames ≠ []
  commands : c.commands = if frames = [] then [] else .txOpen :: frames.map .txPcm

variable {c : Capture n} {xs : List ℤ} {frames : List (List ℤ)}

/-- The uplink is opened for the first frame only. -/
theorem Recorded.open (h : Recorded c xs frames) : ∃ c' : Capture n,
    openTxUplinkIfNeeded true c = some c' ∧ c'.txUplinkOpened = true ∧
      c'.commands = .txOpen :: frames.map .txPcm := by
  unfold openTxUplinkIfNeeded
  by_cases hopened : c.txUplinkOpened = true
  · refine ⟨c, if_pos hopened, hopened, ?_⟩
    rw [h.commands, if_neg (h.opened.1 hopened)]
  · have hnil : frames = [] := by
      by_contra hne
      exact hopened (h.opened.2 hne)
    refine ⟨_, by rw [if_neg hopened, if_pos rfl], rfl, ?_⟩
    show c.commands ++ _ = _
    rw [h.commands, if_pos hnil, hnil]
    rfl

theorem take_copied (c : Capture n) (src : List ℤ) :
    (c.copied src).take (c.txFill + c.toCopy src) =
      c.txBuffer.take c.txFill ++ src.take (c.toCopy src) :=
  take_arraycopy (min_le_right _ _) (by rw [c.length_txBuffer]; exact c.txFill_lt.le)

theorem Recorded.filled (h : Recorded c xs frames) (src : List ℤ)
    (hlt : c.txFill + c.toCopy src < n) :
    Recorded (c.filled src hlt) (xs ++ src.take (c.toCopy src)) frames := by
  refine ⟨h.whole, ?_, h.opened, h.commands⟩
  show frames.flatten ++ (c.copied src).take (c.txFill + c.toCopy src) = _
  rw [take_copied, ← List.append_assoc, h.covers]

theorem Recorded.submit {c' : Capture n} (h : Recorded c xs frames) (src : List ℤ)
    (hfull : n ≤ c.txFill + c.toCopy src) (hopened : c'.txUplinkOpened = true)
    (hcommands : c'.commands = .txOpen :: frames.map .txPcm) :
    Recorded (c'.submitTxPcmFrame (c.copied src) (c.length_copied src))
      (xs ++ src.take (c.toCopy src)) (frames ++ [c.copied src]) := by
  have hwhole : (c.copied src).take (c.txFill + c.toCopy src) = c.copied src :=
    List.take_of_length_le ((c.length_copied src).trans_le hfull)
  refine ⟨fun b hb => ?_, ?_, iff_of_true hopened (by simp), ?_⟩
  · rcases List.mem_append.1 hb with hb | hb
    · exact h.whole b hb
    · rw [List.mem_singleton.1 hb, length_copied]
  · show (frames ++ [c.copied src]).flatten ++ (c.copied src).take 0 = _
    rw [List.take_zero, List.append_nil, List.flatten_append, List.flatten_singleton, ← hwhole,
      take_copied, ← List.append_assoc, h.covers]
  · show c'.commands ++ _ = _
    simp [hcommands]

theorem Recorded.copyFrom (fuel : ℕ) (src : List ℤ) (hfuel : src.length ≤ fuel)
    (h : Recorded c xs frames) : ∃ c' frames', copyFrom true fuel c src = .ok c' ∧
      Recorded c' (xs ++ src) frames' := by
  induction fuel generalizing c xs frames src with
  | zero =>
    obtain rfl := List.length_eq_zero_iff.1 (Nat.le_zero.1 hfuel)
    exact ⟨c, frames, rfl, by rwa [List.append_nil]⟩
  | succ fuel ih =>
    cases src with
    | nil => exact ⟨c, frames, rfl, by rwa [List.append_nil]⟩
    | cons x src =>
      have hpos : 0 < c.toCopy (x :: src) :=
        lt_min (Nat.sub_pos_of_lt c.txFill_lt) (Nat.succ_pos _)
      have hrest : ((x :: src).drop (c.toCopy (x :: src))).length ≤ fuel := by
        rw [List.length_cons] at hfuel
        rw [List.length_drop, List.length_cons]
        omega
      have hend : xs ++ (x :: src).take (c.toCopy (x :: src)) ++
          (x :: src).drop (c.toCopy (x :: src)) = xs ++ x :: src := by
        rw [List.append_assoc, List.take_append_drop]
      simp only [Capture.copyFrom]
      split_ifs with hlt
      · rw [← hend]
        exact ih _ hrest (h.filled _ hlt)
      · obtain ⟨c', hopen, hopened, hcommands⟩ := h.open
        rw [hopen, ← hend]
        exact ih _ hrest (h.submit _ (not_lt.1 hlt) hopened hcommands)

theorem Recorded.reads (h : Recorded c xs frames) (reads : List (List ℤ)) :
    ∃ c' frames', reads.foldlM (appendRead true) c = .ok c' ∧
      Recorded c' (xs ++ reads.flatten) frames' := by
  induction reads generalizing c xs frames with
  | nil => exact ⟨c, frames, rfl, by rwa [List.flatten_nil, List.append_nil]⟩
  | cons read reads ih =>
    obtain ⟨c', frames', hcopy, h'⟩ := h.copyFrom read.length read le_rfl
    obtain ⟨c'', frames'', hrest, h''⟩ := ih h'
    refine ⟨c'', frames'', ?_, by rwa [List.flatten_cons, ← List.append_assoc]⟩
    rw [List.foldlM_cons, appendRead, hcopy]
    exact hrest

/-- The reads of the drain that count. -/
def drainedSamples (drained : List (List ℤ)) : List ℤ := (drained.takeWhile (· ≠ [])).flatten

theorem Recorded.drain (h : Recorded c xs frames) (drained : List (List ℤ)) :
    ∃ c' frames', drainReads true c drained = .ok c' ∧
      Recorded c' (xs ++ drainedSamples drained) frames' := by
  induction drained generalizing c xs frames with
  | nil => exact ⟨c, frames, rfl, by rwa [drainedSamples, List.takeWhile_nil, List.flatten_nil,
      List.append_nil]⟩
  | cons read drained ih =>
    cases read with
    | nil => exact ⟨c, frames, rfl, by simpa [drainedSamples] using h⟩
    | cons x read =>
      obtain ⟨c', frames', hcopy, h'⟩ := h.copyFrom (x :: read).length (x :: read) le_rfl
      obtain ⟨c'', frames'', hrest, h''⟩ := ih h'
      refine ⟨c'', frames'', ?_, ?_⟩
      · show (appendRead true c (x :: read) >>= fun c => drainReads true c drained) = _
        rw [appendRead, hcopy]
        exact hrest
      · rw [drainedSamples, List.takeWhile_cons_of_pos (by simp), List.flatten_cons,
          ← List.append_assoc]
        exact h''

/-- The uplink is open as soon as there has been a whole frame. -/
theorem Recorded.opened_iff (h : Recorded c xs frames) :
    c.txUplinkOpened = true ↔ n ≤ xs.length := by
  have hfill := c.txFill_lt
  have hlen : xs.length = frames.length * n + c.txFill := by
    rw [← h.covers, List.length_append, Blocks.length_flatten h.whole, List.length_take,
      c.length_txBuffer]
    omega
  rw [h.opened, hlen, ← List.length_pos_iff]
  constructor
  · intro hpos
    exact (Nat.le_mul_of_pos_left n hpos).trans (Nat.le_add_right _ _)
  · intro hle
    by_contra hzero
    rw [Nat.eq_zero_of_not_pos hzero] at hle
    omega

/-- Everything recorded has been sent, the last frame filled up with zeros. -/
theorem Recorded.rest (h : Recorded c xs frames) (hopened : c.txUplinkOpened = true) :
    ∃ frames', Blocks n 0 xs frames' ∧ c.submitRest.txUplinkOpened = true ∧
      c.submitRest.commands = .txOpen :: frames'.map .txPcm := by
  have hne := h.opened.1 hopened
  have hfill := c.txFill_lt
  have hcommands := h.commands
  rw [if_neg hne] at hcommands
  have hlen : (c.txBuffer.take c.txFill).length = c.txFill := by
    rw [List.length_take, c.length_txBuffer]
    omega
  by_cases hzero : c.txFill = 0
  · refine ⟨frames, ⟨h.whole, 0, by omega, ?_⟩, by rwa [submitRest, if_pos hzero], ?_⟩
    · rw [← h.covers, hzero, List.take_zero, List.replicate_zero]
      simp
    · rw [submitRest, if_pos hzero, hcommands]
  · have hlast : Blocks n 0 (c.txBuffer.take c.txFill)
        [arraycopy c.txBuffer (List.replicate n 0) 0 c.txFill] := by
      have hne' : c.txBuffer.take c.txFill ≠ [] := List.length_pos_iff.1 (by omega)
      have hle : (c.txBuffer.take c.txFill).length ≤ n := by omega
      have hsingle := Blocks.single hne' hle 0
      rw [hlen] at hsingle
      simpa [arraycopy] using hsingle
    refine ⟨frames ++ [arraycopy c.txBuffer (List.replicate n 0) 0 c.txFill], ?_, ?_, ?_⟩
    · rw [← h.covers]
      exact (Blocks.append_iff h.whole).2 hlast
    · rwa [submitRest, if_neg hzero]
    · rw [submitRest, if_neg hzero]
      simp [submitTxPcmFrame, hcommands]

theorem stream_blocks (hn : 0 < n) (fuel : ℕ) (pcm : List ℤ) (hfuel : pcm.length ≤ fuel) :
    Blocks n 0 pcm (streamGeneratedSignal n fuel pcm) := by
  induction fuel generalizing pcm with
  | zero =>
    obtain rfl := List.length_eq_zero_iff.1 (Nat.le_zero.1 hfuel)
    exact Blocks.nil hn 0
  | succ fuel ih =>
    cases pcm with
    | nil => exact Blocks.nil hn 0
    | cons x pcm =>
      rw [List.length_cons] at hfuel
      rcases le_or_gt (x :: pcm).length n with hshort | hlong
      · have hrest : (x :: pcm).drop n = [] := List.drop_of_length_le hshort
        have hnil : streamGeneratedSignal n fuel [] = [] := by cases fuel <;> rfl
        have hsingle := Blocks.single (List.cons_ne_nil x pcm) hshort 0
        rw [streamGeneratedSignal, hrest, hnil, min_eq_right hshort]
        simpa [arraycopy] using hsingle
      · have hfirst : arraycopy (x :: pcm) (List.replicate n 0) 0 (min n (x :: pcm).length) =
            (x :: pcm).take n := by
          rw [min_eq_left hlong.le]
          simp [arraycopy]
        have hwhole : ∀ b ∈ [(x :: pcm).take n], b.length = n := by
          intro b hb
          rw [List.mem_singleton.1 hb, List.length_take, min_eq_left hlong.le]
        have hrest := ih ((x :: pcm).drop n) (by rw [List.length_drop, List.length_cons]; omega)
        have happend := (Blocks.append_iff hwhole).2 hrest
        rw [List.flatten_singleton, List.take_append_drop] at happend
        rw [streamGeneratedSignal, hfirst]
        exact happend

end Capture

/-! ## The TX worker -/

namespace TxPcm

variable {E : Type} {encode : E → List ℤ → E × Option (List UInt8)} {s : TxPcm E}

/-- The worker is open with an empty buffer. -/
structure Ready (n : ℕ) (s : TxPcm E) : Prop where
  transmitting : Transmitting s
  empty : s.txPcmBuffer = []
  frameSamples : s.opus.frameSamples = n

theorem flush_of_ready {n : ℕ} (hn : 0 < n) (h : Ready n s) :
    flushTxPcmBuffer encode s = (s, []) := by
  refine flushTxPcmBuffer_of_last ?_
  have hpos : (0 : ℤ) < n := by exact_mod_cast hn
  have hzero : castInt 0 < (n : ℤ) := hpos
  simp [flushRound, h.frameSamples, h.empty, hzero]

/-- A command with one frame: the frame is encoded, and the buffer is empty again. -/
theorem Ready.pcm {n : ℕ} (hencode : ∀ e pcm, (encode e pcm).2.isSome = true) (hn : 0 < n)
    (h : Ready n s) {frame : List ℤ} (hframe : frame.length = n) :
    Ready n (next (processTxItem encode) s (.txPcm frame)) ∧
      framesOf (processTxItem encode s (.txPcm frame)).2 = [frame] := by
  have hpos : 0 < s.opus.frameSamples := by
    rw [h.frameSamples]
    exact_mod_cast hn
  have hlt := s.opus.frameSamples_lt
  have hcast : castInt n = (n : ℤ) := castInt_of_lt (by rw [h.frameSamples] at hlt; omega)
  have hne : frame ≠ [] := List.length_pos_iff.1 (hframe ▸ hn)
  have hnat : s.opus.frameSamples.toNat = n := by rw [h.frameSamples, Int.toNat_natCast]
  obtain ⟨encoder, data, hencoded⟩ := encodeFrame_of_ok hencode { s with txPcmBuffer := frame }
  dsimp only at hencoded
  rw [hnat, List.take_of_length_le hframe.le, List.drop_of_length_le hframe.le] at hencoded
  have hstep : processTxItem encode s (.txPcm frame) = ({ s with
      opus := { s.opus with encoder := encoder }, txPcmBuffer := [] },
      .encode frame :: sendOpusFrame data) := by
    rw [processTxItem_pcm h.transmitting hpos hne, h.empty, List.nil_append, hframe, hcast,
      h.frameSamples, if_neg (lt_irrefl _), hencoded]
  rw [next, hstep]
  have htransmitting := h.transmitting
  refine ⟨⟨⟨htransmitting.connected, htransmitting.welcomed, htransmitting.opened⟩, rfl,
    h.frameSamples⟩, ?_⟩
  show framesOf ([.encode frame] ++ sendOpusFrame data) = _
  rw [framesOf_append, framesOf_sendOpusFrame]
  rfl

theorem Ready.pcms {n : ℕ} (hencode : ∀ e pcm, (encode e pcm).2.isSome = true) (hn : 0 < n)
    (h : Ready n s) {frames : List (List ℤ)} (hframes : ∀ b ∈ frames, b.length = n) :
    Ready n (after (next (processTxItem encode)) s (frames.map .txPcm)) ∧
      framesOf (outputs (processTxItem encode) s (frames.map .txPcm)) = frames := by
  induction frames generalizing s with
  | nil => exact ⟨h, rfl⟩
  | cons frame frames ih =>
    obtain ⟨hnext, hframe⟩ := h.pcm hencode hn (hframes frame List.mem_cons_self)
    obtain ⟨hlast, hrest⟩ := ih hnext fun b hb => hframes b (List.mem_cons_of_mem _ hb)
    refine ⟨hlast, ?_⟩
    rw [List.map_cons, outputs_cons, framesOf_append, hframe, hrest]
    rfl

theorem Ready.voiceEnd {n : ℕ} (hn : 0 < n) (h : Ready n s) :
    processTxItem encode s .txVoiceEnd = (s, []) := by
  simp only [processTxItem, h.transmitting.opened, if_true]
  exact flush_of_ready hn h

theorem Ready.close {n : ℕ} (hn : 0 < n) (h : Ready n s) :
    framesOf (processTxItem encode s .txClose).2 = [] := by
  rw [framesOf_close h.transmitting, flush_of_ready hn h]
  rfl

/-- What `completePttReleaseAfterCapture` submits. -/
theorem Ready.ending {n : ℕ} (hencode : ∀ e pcm, (encode e pcm).2.isSome = true) (hn : 0 < n)
    (h : Ready n s) {roger : List (List ℤ)} (hroger : ∀ b ∈ roger, b.length = n) :
    framesOf (outputs (processTxItem encode) s
      (.txVoiceEnd :: roger.map .txPcm ++ [.txClose])) = roger := by
  obtain ⟨hlast, hframes⟩ := h.pcms hencode hn hroger
  rw [List.cons_append, outputs_cons, next, h.voiceEnd hn, List.nil_append, outputs_snoc,
    framesOf_append, hframes, hlast.close hn, List.append_nil]

/-- The frames of a transmission of the service. -/
theorem framesOf_transmission {n : ℕ} (hencode : ∀ e pcm, (encode e pcm).2.isSome = true)
    (hn : 0 < n) (hconnected : s.connected = true) (hid : s.sessionId ≠ 0)
    (hclosed : s.clientTxOpen = false) (hframe : s.opus.frameSamples = n)
    {voice roger : List (List ℤ)} (hvoice : ∀ b ∈ voice, b.length = n)
    (hroger : ∀ b ∈ roger, b.length = n) :
    framesOf (outputs (processTxItem encode) s (.txOpen :: voice.map .txPcm ++
      (.txVoiceEnd :: roger.map .txPcm ++ [.txClose]))) = voice ++ roger := by
  obtain ⟨htransmitting, hempty, hsame⟩ := @processTxItem_open E encode s hconnected hid
  have hopen : (processTxItem encode s .txOpen).2 = [] := by
    simp [processTxItem, hclosed]
  have hready : Ready n (next (processTxItem encode) s .txOpen) :=
    ⟨htransmitting, hempty, hsame.trans hframe⟩
  obtain ⟨hvoiced, hvoiceFrames⟩ := hready.pcms hencode hn hvoice
  rw [List.cons_append, outputs_cons, hopen, List.nil_append, outputs_append, framesOf_append,
    hvoiceFrames, hvoiced.ending hencode hn hroger]

end TxPcm

/-- What the service submits is one transmission. -/
theorem oneTransmission {n : ℕ} (hn : 0 < n) {voice roger : List (List ℤ)}
    (hvoice : ∀ b ∈ voice, b.length = n) (hroger : ∀ b ∈ roger, b.length = n) :
    TxFeed.OneTransmission (.txOpen :: voice.map .txPcm ++
      (.txVoiceEnd :: roger.map .txPcm ++ [.txClose])) where
  opens := by simp
  payload := by
    have hne : ∀ b : List ℤ, b.length = n → b ≠ [] := by
      rintro b hb rfl
      exact hn.ne hb
    intro item hitem
    simp only [List.cons_append, List.mem_cons, List.mem_append, List.mem_map, List.not_mem_nil,
      or_false] at hitem
    rcases hitem with rfl | ⟨b, hb, rfl⟩ | rfl | ⟨b, hb, rfl⟩ | rfl
    · simp
    · simpa using hne b (hvoice b hb)
    · simp
    · simpa using hne b (hroger b hb)
    · simp
  noAbort := by simp

/-! ## The whole way -/

section whole

variable {E : Type} {encode : E → List ℤ → E × Option (List UInt8)}
  (hencode : ∀ e pcm, (encode e pcm).2.isSome = true) {n : ℕ} (hn : 0 < n) {s : TxPcm E}
  (hconnected : s.connected = true) (hid : s.sessionId ≠ 0) (hclosed : s.clientTxOpen = false)
  (hframe : s.opus.frameSamples = n)

include hencode hconnected hid hclosed hframe

/-- However the recorder cuts the samples into reads: a recording of less than a frame sends
nothing.  Of any other one, in every run of the queue and the worker that is in time, the frames
that the encoder gets are the first ones of all samples in order and then of the roger signal, both
cut into frames of which only the last one is filled up with zeros; and once the worker is done it
has got them all. -/
theorem recording_reaches_encoder (reads drained : List (List ℤ)) (roger : List ℤ) :
    ∃ c, Capture.runCaptureLoop hn true reads drained = .ok c ∧
      (reads.flatten.length < n → c.transmission roger = []) ∧
      (n ≤ reads.flatten.length → ∃ voice signal, Blocks n 0
          (reads.flatten ++ Capture.drainedSamples drained) voice ∧ Blocks n 0 roger signal ∧
        ∀ now as, Along (next (TxFeed.step encode)) TxFeed.InTime
            (TxFeed.submitting s now (c.transmission roger)) as →
          framesOf (outputs (TxFeed.step encode)
            (TxFeed.submitting s now (c.transmission roger)) as) <+: voice ++ signal ∧
          ((after (next (TxFeed.step encode))
              (TxFeed.submitting s now (c.transmission roger)) as).Done →
            framesOf (outputs (TxFeed.step encode)
              (TxFeed.submitting s now (c.transmission roger)) as) = voice ++ signal)) := by
  have hstart : Capture.Recorded
      (⟨List.replicate n 0, 0, false, [], by simp, hn⟩ : Capture n) [] [] :=
    ⟨by simp, by simp, by simp, by simp⟩
  obtain ⟨c, frames, hreads, h⟩ := hstart.reads reads
  rw [List.nil_append] at h
  have hopened := h.opened_iff
  by_cases hlong : n ≤ reads.flatten.length
  · obtain ⟨c', frames', hdrain, h'⟩ := h.drain drained
    obtain ⟨voice, hvoice, hopen, hcommands⟩ := h'.rest
      (h'.opened_iff.2 (by rw [List.length_append]; omega))
    have hroger := Capture.stream_blocks hn roger.length roger le_rfl
    have hsent : c'.submitRest.transmission roger = .txOpen :: voice.map .txPcm ++
        (.txVoiceEnd :: (Capture.streamGeneratedSignal n roger.length roger).map .txPcm ++
          [.txClose]) := by
      rw [Capture.transmission, hopen, if_pos rfl, hcommands]
    refine ⟨c'.submitRest, ?_, fun hshort => absurd hshort (by omega), fun _ =>
      ⟨voice, _, hvoice, hroger, fun now as has => ?_⟩⟩
    · simp only [Capture.runCaptureLoop, hreads]
      show (if c.txUplinkOpened then _ else _) = _
      rw [if_pos (hopened.2 hlong), hdrain]
      rfl
    · rw [hsent] at has ⊢
      obtain ⟨done, hfed⟩ := TxFeed.fed_in_order hconnected hid now
        (oneTransmission hn hvoice.whole hroger.whole) has
      have hframes := framesOf_transmission hencode hn hconnected hid hclosed hframe hvoice.whole
        hroger.whole
      exact ⟨hframes ▸ hfed.frames, fun hdone => (hfed.frames_of_done hdone).trans hframes⟩
  · have hclosed' : ¬ c.txUplinkOpened = true := fun hopen => hlong (hopened.1 hopen)
    refine ⟨c, ?_, fun _ => ?_, fun hle => absurd hle hlong⟩
    · simp only [Capture.runCaptureLoop, hreads]
      show (if c.txUplinkOpened then _ else _) = _
      rw [if_neg hclosed']
      rfl
    · have hnil : frames = [] := by
        by_contra hne
        exact hclosed' (h.opened.2 hne)
      rw [Capture.transmission, if_neg hclosed', h.commands, if_pos hnil]
      rfl

end whole

/-- A connected session with frames of four samples. -/
def fourSampleTx : TxPcm Unit := { connectedTx with opus := ⟨(), 4, by decide⟩ }

/-- The worker takes each command as soon as it is submitted, every 20 ms. -/
def promptRun : List TxFeedAction :=
  (List.replicate 6 [.submitTxInternal, .txWorkerLoop, .elapse 20000000, .txWorkerLoop]).flatten

theorem recording_reaches_encoder_in_fours :
    ∃ c, Capture.runCaptureLoop (n := 4) (by decide) true [[1, 2, 3], [], [4, 5]] [[6], [], [9]] =
        .ok c ∧ ∃ voice signal, Blocks 4 0 [1, 2, 3, 4, 5, 6] voice ∧ Blocks 4 0 [7, 8] signal ∧
        framesOf (outputs (TxFeed.step anyFrame)
          (TxFeed.submitting fourSampleTx 1 (c.transmission [7, 8])) promptRun) =
            voice ++ signal := by
  obtain ⟨c, hrun, -, hlong⟩ := @recording_reaches_encoder Unit anyFrame (fun _ _ => rfl) 4
    (by decide) fourSampleTx rfl (by decide) rfl rfl [[1, 2, 3], [], [4, 5]] [[6], [], [9]] [7, 8]
  obtain ⟨voice, signal, hvoice, hsignal, hfed⟩ := hlong (by decide)
  have hsent : (Capture.runCaptureLoop (n := 4) (by decide) true [[1, 2, 3], [], [4, 5]]
      [[6], [], [9]]).map (fun c => c.transmission [7, 8]) =
        .ok [.txOpen, .txPcm [1, 2, 3, 4], .txPcm [5, 6, 0, 0], .txVoiceEnd, .txPcm [7, 8, 0, 0],
          .txClose] := rfl
  rw [hrun] at hsent
  have hcommands : c.transmission [7, 8] = _ := Except.ok.inj hsent
  refine ⟨c, hrun, voice, signal, hvoice, hsignal, ?_⟩
  obtain ⟨-, hall⟩ := hfed 1 promptRun (by rw [hcommands]; decide)
  refine hall ?_
  rw [hcommands]
  exact ⟨by decide, by decide, by decide⟩

end OWalkie
