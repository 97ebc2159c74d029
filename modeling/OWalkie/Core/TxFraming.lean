import OWalkie.Core.SessionManager
import OWalkie.Lib.Blocks

/-!
# From PCM to frames

The TX worker appends the PCM of a command to `txPcmBuffer` and encodes one frame when the buffer
holds one (`feedTxPcmInternal`); the end of a transmission pads and encodes what is left
(`flushTxPcmBuffer`).  The sizes are compared as `int`.  `framing_iff` says when the frames are the
blocks of the PCM however it was cut into commands, and `backlog_iff` when the buffer never holds a
whole frame after a command.  Pacing, the sequence numbers of the datagrams and the published
transmit state are left out.
-/

namespace OWalkie

open Run

/-- `OpusCodec`; `encoder` is what `opus_encode` keeps. -/
structure OpusCodec (E : Type) where
  encoder : E
  frameSamples : ℤ
  /-- an `int` -/
  frameSamples_lt : frameSamples < 2 ^ 31

/-- A command that the TX worker takes from its queue, with its payload. -/
inductive TxVoice where
  | txOpen
  | txPcm (pcm : List ℤ)
  | txOpus (opusBytes : List UInt8)
  | txVoiceEnd
  | txClose
  | txAbort
deriving Repr, DecidableEq

/-- `encode` is a call of the encoder with its frame. -/
inductive TxPcmOutput where
  | encode (frame : List ℤ)
  | datagram (opus : List UInt8)
  | eofBurst
deriving Repr, DecidableEq

structure TxPcm (E : Type) where
  connected : Bool
  /-- `welcome.sessionId` -/
  sessionId : ℕ
  clientTxOpen : Bool
  txPcmBuffer : List ℤ
  opus : OpusCodec E

namespace TxPcm

/-- `static_cast<int>` of a size. -/
def castInt (n : ℕ) : ℤ := (n : ℤ).bmod (2 ^ 32)

/-- `std::vector::resize(n, 0)`. -/
def resize (n : ℕ) (xs : List ℤ) : List ℤ := xs.take n ++ List.replicate (n - xs.length) 0

section model

variable {E : Type} (encode : E → List ℤ → E × Option (List UInt8))

def sendOpusFrame (data : List UInt8) : List TxPcmOutput :=
  if data = [] then [] else [.datagram data]

/-- `opus.encode` of the first frame in the buffer, which is then erased and sent; the result says
whether it succeeded. -/
def encodeFrame (s : TxPcm E) : Bool × TxPcm E × List TxPcmOutput :=
  let frame := s.opus.frameSamples.toNat
  let frameSpan := s.txPcmBuffer.take frame
  let (encoder, encoded) := encode s.opus.encoder frameSpan
  let s := { s with opus := { s.opus with encoder := encoder } }
  match encoded with
  | none => (false, { s with txPcmBuffer := [] }, [.encode frameSpan])
  | some data =>
    (true, { s with txPcmBuffer := s.txPcmBuffer.drop frame },
      .encode frameSpan :: sendOpusFrame data)

/-- One round of the loop of `flushTxPcmBuffer`; the result says whether there is another one. -/
def flushRound (s : TxPcm E) : Bool × TxPcm E × List TxPcmOutput :=
  let frame := s.opus.frameSamples
  if frame ≤ 0 then (false, s, [])
  else
    let s := if s.txPcmBuffer ≠ [] ∧ castInt s.txPcmBuffer.length < frame then
      { s with txPcmBuffer := resize frame.toNat s.txPcmBuffer } else s
    if castInt s.txPcmBuffer.length < frame then (false, s, [])
    else encodeFrame encode s

/-- The loop of `flushTxPcmBuffer` with at most `fuel` rounds. -/
def flushFrom : ℕ → TxPcm E → Option (TxPcm E × List TxPcmOutput)
  | 0, _ => none
  | fuel + 1, s =>
    match flushRound encode s with
    | (true, s', out) => (flushFrom fuel s').map fun r => (r.1, out ++ r.2)
    | (false, s', out) => some (s', out)

/-- A round shortens the buffer or is the last one (`flush_terminates`). -/
def flushTxPcmBuffer (s : TxPcm E) : TxPcm E × List TxPcmOutput :=
  (flushFrom encode (s.txPcmBuffer.length + 1) s).getD (s, [])

def txStartInternal (s : TxPcm E) : Result × TxPcm E :=
  if s.connected = false ∨ s.sessionId = 0 then (.notConnected, s)
  else (.ok, { s with txPcmBuffer := [], clientTxOpen := true })

def sendTxEofBurstInternal (s : TxPcm E) : Result × TxPcm E × List TxPcmOutput :=
  if s.connected = false then (.notConnected, s, [])
  else (.ok, { s with txPcmBuffer := [] }, [.eofBurst])

def txEndInternal (s : TxPcm E) : Result × TxPcm E × List TxPcmOutput :=
  if s.connected = false then (.notConnected, s, [])
  else if s.clientTxOpen = false then (.notReady, s, [])
  else
    let (s, flushed) := flushTxPcmBuffer encode s
    let s := { s with txPcmBuffer := [], clientTxOpen := false }
    let (result, s, out) := sendTxEofBurstInternal s
    (result, s, flushed ++ out)

def feedTxPcmInternal (s : TxPcm E) (samples : List ℤ) : Result × TxPcm E × List TxPcmOutput :=
  if s.connected = false ∨ s.sessionId = 0 then (.notConnected, s, [])
  else if s.clientTxOpen = false then (.notReady, s, [])
  else if samples = [] then (.invalidArg, s, [])
  else if s.opus.frameSamples ≤ 0 then (.notReady, s, [])
  else
    let s := { s with txPcmBuffer := s.txPcmBuffer ++ samples }
    if castInt s.txPcmBuffer.length < s.opus.frameSamples then (.ok, s, [])
    else
      match encodeFrame encode s with
      | (true, s, out) => (.ok, s, out)
      | (false, s, out) => (.notReady, s, out)

def sendTxOpusInternal (s : TxPcm E) (opus : List UInt8) : Result × List TxPcmOutput :=
  if s.connected = false ∨ s.sessionId = 0 then (.notConnected, [])
  else if s.clientTxOpen = false then (.notReady, [])
  else if opus = [] then (.invalidArg, [])
  else (.ok, sendOpusFrame opus)

def abortTxInternal (s : TxPcm E) : TxPcm E := { s with txPcmBuffer := [], clientTxOpen := false }

def processTxItem (s : TxPcm E) : TxVoice → TxPcm E × List TxPcmOutput
  | .txOpen =>
    let (s, out) := if s.clientTxOpen = true then (txEndInternal encode s).2 else (s, [])
    ((txStartInternal s).2, out)
  | .txPcm pcm => if s.clientTxOpen = false then (s, []) else (feedTxPcmInternal encode s pcm).2
  | .txOpus opusBytes => if s.clientTxOpen = false then (s, [])
    else (s, (sendTxOpusInternal s opusBytes).2)
  | .txVoiceEnd => if s.clientTxOpen = true then flushTxPcmBuffer encode s else (s, [])
  | .txClose => (txEndInternal encode s).2
  | .txAbort => (abortTxInternal s, [])

end model

/-! ## Sizes -/

theorem castInt_of_lt {n : ℕ} (h : n < 2 ^ 31) : castInt n = n := by
  apply Int.bmod_eq_of_le <;> omega

theorem castInt_spec (n : ℕ) : castInt n < 2 ^ 31 ∧ castInt n % 2 ^ 32 = n % 2 ^ 32 :=
  ⟨Int.bmod_lt (x := n) (show 0 < 2 ^ 32 by decide), Int.bmod_emod⟩

theorem castInt_le (n : ℕ) : castInt n ≤ n := by
  obtain ⟨hlt, hmod⟩ := castInt_spec n
  omega

/-- From `2 ^ 31` on the cast falls short by at least one turn. -/
theorem castInt_far {n : ℕ} (h : 2 ^ 31 ≤ n) : castInt n + 2 ^ 32 ≤ n := by
  obtain ⟨hlt, hmod⟩ := castInt_spec n
  omega

theorem length_resize (n : ℕ) (xs : List ℤ) : (resize n xs).length = n := by
  rw [resize, List.length_append, List.length_take, List.length_replicate]
  omega

/-! ## The flush -/

section flush

variable {E : Type} {encode : E → List ℤ → E × Option (List UInt8)} {s s' : TxPcm E}
  {out : List TxPcmOutput}

/-- The frames that are handed to the encoder. -/
def framesOf (out : List TxPcmOutput) : List (List ℤ) :=
  out.filterMap fun
    | .encode frame => some frame
    | _ => none

theorem framesOf_append (out out' : List TxPcmOutput) :
    framesOf (out ++ out') = framesOf out ++ framesOf out' :=
  List.filterMap_append

theorem framesOf_sendOpusFrame (data : List UInt8) : framesOf (sendOpusFrame data) = [] := by
  unfold sendOpusFrame
  split_ifs <;> rfl

/-- Encoding changes the buffer and the encoder only. -/
structure Same (s s' : TxPcm E) : Prop where
  connected : s'.connected = s.connected
  sessionId : s'.sessionId = s.sessionId
  clientTxOpen : s'.clientTxOpen = s.clientTxOpen
  frameSamples : s'.opus.frameSamples = s.opus.frameSamples

theorem Same.refl (s : TxPcm E) : Same s s := ⟨rfl, rfl, rfl, rfl⟩

theorem Same.trans {s'' : TxPcm E} (h : Same s s') (h' : Same s' s'') : Same s s'' :=
  ⟨h'.connected.trans h.connected, h'.sessionId.trans h.sessionId,
    h'.clientTxOpen.trans h.clientTxOpen, h'.frameSamples.trans h.frameSamples⟩

theorem encodeFrame_same (encode : E → List ℤ → E × Option (List UInt8)) (s : TxPcm E) :
    Same s (encodeFrame encode s).2.1 := by
  simp only [encodeFrame]
  cases (encode s.opus.encoder (s.txPcmBuffer.take s.opus.frameSamples.toNat)).2 <;>
    exact ⟨rfl, rfl, rfl, rfl⟩

theorem flushRound_same (encode : E → List ℤ → E × Option (List UInt8)) (s : TxPcm E) :
    Same s (flushRound encode s).2.1 := by
  simp only [flushRound]
  split_ifs
  · exact .refl s
  · exact ⟨rfl, rfl, rfl, rfl⟩
  · have h := encodeFrame_same encode
      { s with txPcmBuffer := resize s.opus.frameSamples.toNat s.txPcmBuffer }
    exact ⟨h.connected, h.sessionId, h.clientTxOpen, h.frameSamples⟩
  · exact .refl s
  · exact encodeFrame_same encode s

/-- What is left in the buffer after an encoding. -/
theorem encodeFrame_buffer (encode : E → List ℤ → E × Option (List UInt8)) (s : TxPcm E) :
    (encodeFrame encode s).2.1.txPcmBuffer.length ≤
      s.txPcmBuffer.length - s.opus.frameSamples.toNat := by
  simp only [encodeFrame]
  cases (encode s.opus.encoder (s.txPcmBuffer.take s.opus.frameSamples.toNat)).2 with
  | none => exact Nat.zero_le _
  | some data => exact List.length_drop.le

/-- A round that is followed by another one shortens the buffer. -/
theorem length_flushRound (h : flushRound encode s = (true, s', out)) :
    s'.txPcmBuffer.length < s.txPcmBuffer.length := by
  have hs' : (flushRound encode s).2.1 = s' := by rw [h]
  have hgoes : (flushRound encode s).1 = true := by rw [h]
  rw [← hs']
  simp only [flushRound] at hgoes ⊢
  split_ifs at hgoes ⊢ with hframe hshort hshort' hfull
  · -- the buffer has been resized to one frame
    obtain ⟨hne, -⟩ := hshort
    have hpos := List.length_pos_iff.2 hne
    have hleft := encodeFrame_buffer encode
      { s with txPcmBuffer := resize s.opus.frameSamples.toNat s.txPcmBuffer }
    dsimp only at hleft
    rw [length_resize] at hleft
    omega
  · have hle := castInt_le s.txPcmBuffer.length
    have hleft := encodeFrame_buffer encode s
    omega

/-- The loop of `flushTxPcmBuffer` ends on every buffer, after at most one round for each sample and
one more. -/
theorem flush_terminates (encode : E → List ℤ → E × Option (List UInt8)) (s : TxPcm E) :
    ∃ r, ∀ fuel, s.txPcmBuffer.length < fuel → flushFrom encode fuel s = some r := by
  induction hn : s.txPcmBuffer.length using Nat.strong_induction_on generalizing s with
  | h n ih =>
    rcases hround : flushRound encode s with ⟨goes, s', out⟩
    cases goes with
    | false =>
      refine ⟨(s', out), fun fuel hfuel => ?_⟩
      obtain ⟨fuel, rfl⟩ := Nat.exists_eq_succ_of_ne_zero (Nat.ne_zero_of_lt hfuel)
      rw [flushFrom, hround]
    | true =>
      have hlt := length_flushRound hround
      obtain ⟨r, hr⟩ := ih _ (hn ▸ hlt) s' rfl
      refine ⟨(r.1, out ++ r.2), fun fuel hfuel => ?_⟩
      obtain ⟨fuel, rfl⟩ := Nat.exists_eq_succ_of_ne_zero (Nat.ne_zero_of_lt hfuel)
      rw [flushFrom, hround]
      show (flushFrom encode fuel s').map _ = _
      rw [hr fuel (by omega)]
      rfl

theorem flushFrom_eq {fuel : ℕ} (h : s.txPcmBuffer.length < fuel) :
    flushFrom encode fuel s = some (flushTxPcmBuffer encode s) := by
  obtain ⟨r, hr⟩ := flush_terminates encode s
  rw [flushTxPcmBuffer, hr fuel h, hr _ (Nat.lt_succ_self _)]
  rfl

/-- The flush round by round. -/
theorem flushTxPcmBuffer_of_more (h : flushRound encode s = (true, s', out)) :
    flushTxPcmBuffer encode s =
      ((flushTxPcmBuffer encode s').1, out ++ (flushTxPcmBuffer encode s').2) := by
  have hs := @flushFrom_eq E encode s (s.txPcmBuffer.length + 1) (Nat.lt_succ_self _)
  rw [flushFrom, h] at hs
  change (flushFrom encode _ s').map _ = _ at hs
  rw [flushFrom_eq (length_flushRound h)] at hs
  exact (Option.some.inj hs).symm

theorem flushTxPcmBuffer_of_last (h : flushRound encode s = (false, s', out)) :
    flushTxPcmBuffer encode s = (s', out) := by
  rw [flushTxPcmBuffer, flushFrom, h]
  rfl

theorem flush_same (encode : E → List ℤ → E × Option (List UInt8)) (s : TxPcm E) :
    Same s (flushTxPcmBuffer encode s).1 := by
  induction hn : s.txPcmBuffer.length using Nat.strong_induction_on generalizing s with
  | h n ih =>
    have hsame := flushRound_same encode s
    rcases hround : flushRound encode s with ⟨goes, s', out⟩
    rw [hround] at hsame
    cases goes with
    | false =>
      rw [flushTxPcmBuffer_of_last hround]
      exact hsame
    | true =>
      rw [flushTxPcmBuffer_of_more hround]
      exact hsame.trans (ih _ (hn ▸ length_flushRound hround) s' rfl)

end flush

/-! ## Frames -/

section framing

variable {E : Type} {encode : E → List ℤ → E × Option (List UInt8)}
  (hencode : ∀ e pcm, (encode e pcm).2.isSome = true)

include hencode

variable {s : TxPcm E}

theorem encodeFrame_of_ok (s : TxPcm E) : ∃ encoder data, encodeFrame encode s =
    (true, { s with
      opus := { s.opus with encoder := encoder }
      txPcmBuffer := s.txPcmBuffer.drop s.opus.frameSamples.toNat },
      .encode (s.txPcmBuffer.take s.opus.frameSamples.toNat) :: sendOpusFrame data) := by
  obtain ⟨data, hdata⟩ := Option.isSome_iff_exists.1
    (hencode s.opus.encoder (s.txPcmBuffer.take s.opus.frameSamples.toNat))
  refine ⟨(encode s.opus.encoder (s.txPcmBuffer.take s.opus.frameSamples.toNat)).1, data, ?_⟩
  simp only [encodeFrame, hdata]

/-- A round with a whole frame in the buffer. -/
theorem flush_of_full (hframe : 0 < s.opus.frameSamples)
    (hfull : s.opus.frameSamples ≤ castInt s.txPcmBuffer.length) : ∃ s' : TxPcm E,
      s'.opus.frameSamples = s.opus.frameSamples ∧
      s'.txPcmBuffer = s.txPcmBuffer.drop s.opus.frameSamples.toNat ∧
      framesOf (flushTxPcmBuffer encode s).2 =
        [s.txPcmBuffer.take s.opus.frameSamples.toNat] ++
          framesOf (flushTxPcmBuffer encode s').2 := by
  obtain ⟨encoder, data, hencoded⟩ := encodeFrame_of_ok hencode s
  have hround : flushRound encode s = encodeFrame encode s := by
    have hlong : ¬ castInt s.txPcmBuffer.length < s.opus.frameSamples := not_lt.2 hfull
    simp only [flushRound, if_neg (not_le.2 hframe), hlong, and_false, if_false]
  refine ⟨{ s with
    opus := { s.opus with encoder := encoder }
    txPcmBuffer := s.txPcmBuffer.drop s.opus.frameSamples.toNat }, rfl, rfl, ?_⟩
  rw [flushTxPcmBuffer_of_more (hround.trans hencoded)]
  show framesOf (([.encode _] ++ sendOpusFrame data) ++ _) = _
  rw [framesOf_append, framesOf_append, framesOf_sendOpusFrame, List.append_nil]
  rfl

/-- A round that pads what is left, or cuts what the cast has made short. -/
theorem flush_of_short (hframe : 0 < s.opus.frameSamples) (hne : s.txPcmBuffer ≠ [])
    (hshort : castInt s.txPcmBuffer.length < s.opus.frameSamples) :
    framesOf (flushTxPcmBuffer encode s).2 =
      [resize s.opus.frameSamples.toNat s.txPcmBuffer] := by
  have hlt := s.opus.frameSamples_lt
  have hlen := length_resize s.opus.frameSamples.toNat s.txPcmBuffer
  have hcast : castInt s.opus.frameSamples.toNat = s.opus.frameSamples := by
    rw [castInt_of_lt (by omega)]
    omega
  obtain ⟨encoder, data, hencoded⟩ := encodeFrame_of_ok hencode
    { s with txPcmBuffer := resize s.opus.frameSamples.toNat s.txPcmBuffer }
  have hround : flushRound encode s = encodeFrame encode
      { s with txPcmBuffer := resize s.opus.frameSamples.toNat s.txPcmBuffer } := by
    simp only [flushRound, if_neg (not_le.2 hframe), if_pos (And.intro hne hshort), hlen, hcast,
      lt_irrefl, if_false]
  have hempty : (resize s.opus.frameSamples.toNat s.txPcmBuffer).drop s.opus.frameSamples.toNat =
      [] := List.drop_of_length_le hlen.le
  have hwhole : (resize s.opus.frameSamples.toNat s.txPcmBuffer).take s.opus.frameSamples.toNat =
      resize s.opus.frameSamples.toNat s.txPcmBuffer := List.take_of_length_le hlen.le
  dsimp only at hencoded
  rw [hempty, hwhole] at hencoded
  have hend : flushRound encode { s with
      opus := { s.opus with encoder := encoder }, txPcmBuffer := [] } =
        (false, { s with opus := { s.opus with encoder := encoder }, txPcmBuffer := [] }, []) := by
    have hzero : castInt 0 < s.opus.frameSamples := hframe
    simp [flushRound, hzero]
  rw [flushTxPcmBuffer_of_more (hround.trans hencoded), flushTxPcmBuffer_of_last hend]
  show framesOf (([.encode _] ++ sendOpusFrame data) ++ []) = _
  rw [framesOf_append, framesOf_append, framesOf_sendOpusFrame]
  rfl

/-- The flush cuts what is left in the buffer into blocks if and only if its size is an `int`. -/
theorem flush_blocks_iff (hframe : 0 < s.opus.frameSamples) :
    Blocks s.opus.frameSamples.toNat 0 s.txPcmBuffer (framesOf (flushTxPcmBuffer encode s).2) ↔
      s.txPcmBuffer.length < 2 ^ 31 := by
  have hlt := s.opus.frameSamples_lt
  induction hn : s.txPcmBuffer.length using Nat.strong_induction_on generalizing s with
  | h n ih =>
    rw [← hn]
    rcases lt_or_ge (castInt s.txPcmBuffer.length) s.opus.frameSamples with hshort | hfull
    · by_cases hne : s.txPcmBuffer = []
      · have hend : flushRound encode s = (false, s, []) := by
          have hzero : castInt 0 < s.opus.frameSamples := hframe
          simp [flushRound, hne, hzero]
        rw [flushTxPcmBuffer_of_last hend, hne]
        exact iff_of_true (Blocks.nil (by omega) 0) (by decide)
      · rw [flush_of_short hencode hframe hne hshort]
        constructor
        · intro h
          have hle := h.length_le
          rw [List.flatten_singleton, length_resize] at hle
          omega
        · intro hint
          rw [castInt_of_lt hint] at hshort
          rw [resize, List.take_of_length_le (by omega)]
          exact Blocks.single hne (by omega) 0
    · have hle := castInt_le s.txPcmBuffer.length
      obtain ⟨s', hsame, hdrop, hframes⟩ := flush_of_full hencode hframe hfull
      have hlen : s'.txPcmBuffer.length =
          s.txPcmBuffer.length - s.opus.frameSamples.toNat := by
        rw [hdrop, List.length_drop]
      have hrest := ih s'.txPcmBuffer.length (by omega) (hsame ▸ hframe) (hsame ▸ hlt) rfl
      have hone : ∀ b ∈ [s.txPcmBuffer.take s.opus.frameSamples.toNat],
          b.length = s.opus.frameSamples.toNat := by
        intro b hb
        rw [List.mem_singleton.1 hb, List.length_take]
        omega
      have hcut : s.txPcmBuffer = [s.txPcmBuffer.take s.opus.frameSamples.toNat].flatten ++
          s'.txPcmBuffer := by
        rw [List.flatten_singleton, hdrop, List.take_append_drop]
      have hiff : Blocks s.opus.frameSamples.toNat 0
          ([s.txPcmBuffer.take s.opus.frameSamples.toNat].flatten ++ s'.txPcmBuffer)
          ([s.txPcmBuffer.take s.opus.frameSamples.toNat] ++
            framesOf (flushTxPcmBuffer encode s').2) ↔ _ := Blocks.append_iff hone
      rw [← hcut] at hiff
      rw [hframes, hiff, ← hsame]
      refine hrest.trans ?_
      rw [hlen]
      -- a frame less leaves the size on the same side
      rcases lt_or_ge s.txPcmBuffer.length (2 ^ 31) with hint | hfar
      · omega
      · have hturn := castInt_far hfar
        omega

end framing

/-! ## A transmission -/

section transmission

variable {E : Type} {encode : E → List ℤ → E × Option (List UInt8)} {s : TxPcm E} {pcm : List ℤ}
  {pcms : List (List ℤ)}

/-- The session is connected and a transmission is open. -/
structure Transmitting (s : TxPcm E) : Prop where
  connected : s.connected = true
  welcomed : s.sessionId ≠ 0
  opened : s.clientTxOpen = true

/-- What `Open` leaves of a connected session. -/
theorem processTxItem_open (hconnected : s.connected = true) (hid : s.sessionId ≠ 0) :
    Transmitting (next (processTxItem encode) s .txOpen) ∧
      (next (processTxItem encode) s .txOpen).txPcmBuffer = [] ∧
      (next (processTxItem encode) s .txOpen).opus.frameSamples = s.opus.frameSamples := by
  have hstart : ∀ t : TxPcm E, t.connected = true → t.sessionId ≠ 0 →
      (txStartInternal t).2 = { t with txPcmBuffer := [], clientTxOpen := true } := by
    intro t htc hti
    simp [txStartInternal, htc, hti]
  by_cases hopen : s.clientTxOpen = true
  · have hflush := flush_same encode s
    have hend : (txEndInternal encode s).2.1 = { (flushTxPcmBuffer encode s).1 with
        txPcmBuffer := [], clientTxOpen := false } := by
      simp [txEndInternal, hconnected, hopen, sendTxEofBurstInternal, hflush.connected]
    have hnext : next (processTxItem encode) s .txOpen =
        { (flushTxPcmBuffer encode s).1 with txPcmBuffer := [], clientTxOpen := true } := by
      simp only [next, processTxItem, if_pos hopen]
      rw [hend]
      exact hstart { (flushTxPcmBuffer encode s).1 with txPcmBuffer := [], clientTxOpen := false }
        (hflush.connected.trans hconnected) (by rwa [← hflush.sessionId] at hid)
    rw [hnext]
    exact ⟨⟨hflush.connected.trans hconnected, by rw [hflush.sessionId]; exact hid, rfl⟩, rfl,
      hflush.frameSamples⟩
  · have hnext : next (processTxItem encode) s .txOpen =
        { s with txPcmBuffer := [], clientTxOpen := true } := by
      simp only [next, processTxItem, if_neg hopen]
      exact hstart s hconnected hid
    rw [hnext]
    exact ⟨⟨hconnected, hid, rfl⟩, rfl, rfl⟩

/-- A `Pcm` command is appended to the buffer, and one frame is encoded when there is one. -/
theorem processTxItem_pcm (h : Transmitting s) (hframe : 0 < s.opus.frameSamples) (hne : pcm ≠ []) :
    processTxItem encode s (.txPcm pcm) =
      if castInt (s.txPcmBuffer ++ pcm).length < s.opus.frameSamples then
        ({ s with txPcmBuffer := s.txPcmBuffer ++ pcm }, [])
      else (encodeFrame encode { s with txPcmBuffer := s.txPcmBuffer ++ pcm }).2 := by
  have hready : ¬ (s.connected = false ∨ s.sessionId = 0) := by simp [h.connected, h.welcomed]
  have hopen : ¬ s.clientTxOpen = false := by simp [h.opened]
  simp only [processTxItem, feedTxPcmInternal, if_neg hready, if_neg hopen, if_neg hne,
    if_neg (not_le.2 hframe)]
  split_ifs
  · rfl
  · rcases encodeFrame encode { s with txPcmBuffer := s.txPcmBuffer ++ pcm } with ⟨ok, s', out⟩
    cases ok <;> rfl

theorem processTxItem_pcm_nil (s : TxPcm E) : processTxItem encode s (.txPcm []) = (s, []) := by
  simp only [processTxItem, feedTxPcmInternal]
  split_ifs <;> rfl

theorem Transmitting.fed (h : Transmitting s) (hframe : 0 < s.opus.frameSamples) (pcm : List ℤ) :
    Transmitting (next (processTxItem encode) s (.txPcm pcm)) ∧
      (next (processTxItem encode) s (.txPcm pcm)).opus.frameSamples = s.opus.frameSamples := by
  by_cases hne : pcm = []
  · rw [next, hne, processTxItem_pcm_nil]
    exact ⟨h, rfl⟩
  · rw [next, processTxItem_pcm h hframe hne]
    split_ifs
    · exact ⟨⟨h.connected, h.welcomed, h.opened⟩, rfl⟩
    · have hsame := encodeFrame_same encode { s with txPcmBuffer := s.txPcmBuffer ++ pcm }
      exact ⟨⟨hsame.connected.trans h.connected, by rw [hsame.sessionId]; exact h.welcomed,
        hsame.clientTxOpen.trans h.opened⟩, hsame.frameSamples⟩

/-- Every sample of a command is in a frame or in the buffer behind it. -/
theorem Transmitting.frames (hencode : ∀ e pcm, (encode e pcm).2.isSome = true)
    (h : Transmitting s) (hframe : 0 < s.opus.frameSamples) (pcm : List ℤ) :
    (∀ b ∈ framesOf (processTxItem encode s (.txPcm pcm)).2,
        b.length = s.opus.frameSamples.toNat) ∧
      (framesOf (processTxItem encode s (.txPcm pcm)).2).flatten ++
          (next (processTxItem encode) s (.txPcm pcm)).txPcmBuffer = s.txPcmBuffer ++ pcm := by
  by_cases hne : pcm = []
  · rw [next, hne, processTxItem_pcm_nil, List.append_nil]
    exact ⟨fun b hb => absurd hb List.not_mem_nil, rfl⟩
  · rw [next, processTxItem_pcm h hframe hne]
    split_ifs with hshort
    · exact ⟨fun b hb => absurd hb List.not_mem_nil, rfl⟩
    · have hle := castInt_le (s.txPcmBuffer ++ pcm).length
      obtain ⟨encoder, data, hencoded⟩ :=
        encodeFrame_of_ok hencode { s with txPcmBuffer := s.txPcmBuffer ++ pcm }
      have hframes : framesOf (.encode ((s.txPcmBuffer ++ pcm).take s.opus.frameSamples.toNat) ::
          sendOpusFrame data) = [(s.txPcmBuffer ++ pcm).take s.opus.frameSamples.toNat] := by
        show framesOf ([.encode _] ++ sendOpusFrame data) = _
        rw [framesOf_append, framesOf_sendOpusFrame]
        rfl
      rw [hencoded]
      dsimp only
      rw [hframes, List.flatten_singleton, List.take_append_drop]
      refine ⟨fun b hb => ?_, rfl⟩
      rw [List.mem_singleton.1 hb, List.length_take]
      omega

/-- The frames of a run of `Pcm` commands and what is left in the buffer are the PCM. -/
theorem Transmitting.run (hencode : ∀ e pcm, (encode e pcm).2.isSome = true) (h : Transmitting s)
    (hframe : 0 < s.opus.frameSamples) (pcms : List (List ℤ)) :
    (after (next (processTxItem encode)) s (pcms.map .txPcm)).opus.frameSamples =
        s.opus.frameSamples ∧
      Transmitting (after (next (processTxItem encode)) s (pcms.map .txPcm)) ∧
      (∀ b ∈ framesOf (outputs (processTxItem encode) s (pcms.map .txPcm)),
        b.length = s.opus.frameSamples.toNat) ∧
      (framesOf (outputs (processTxItem encode) s (pcms.map .txPcm))).flatten ++
          (after (next (processTxItem encode)) s (pcms.map .txPcm)).txPcmBuffer =
        s.txPcmBuffer ++ pcms.flatten := by
  induction pcms generalizing s with
  | nil => exact ⟨rfl, h, fun b hb => absurd hb List.not_mem_nil, (List.append_nil _).symm⟩
  | cons pcm pcms ih =>
    obtain ⟨hnext, hsame⟩ := @Transmitting.fed E encode s h hframe pcm
    obtain ⟨hwhole, hcut⟩ := h.frames hencode hframe pcm
    obtain ⟨hsame', hlast, hwhole', hcut'⟩ := ih hnext (hsame ▸ hframe)
    rw [hsame] at hsame' hwhole'
    rw [List.map_cons, after_cons, outputs_cons, framesOf_append]
    refine ⟨hsame', hlast, fun b hb => ?_, ?_⟩
    · rcases List.mem_append.1 hb with hb | hb
      · exact hwhole b hb
      · exact hwhole' b hb
    · rw [List.flatten_append, List.append_assoc, hcut', ← List.append_assoc, hcut,
        List.flatten_cons, List.append_assoc]

theorem framesOf_close (h : Transmitting s) : framesOf (processTxItem encode s .txClose).2 =
    framesOf (flushTxPcmBuffer encode s).2 := by
  have hburst : ∀ t : TxPcm E, framesOf (sendTxEofBurstInternal t).2.2 = [] := by
    intro t
    unfold sendTxEofBurstInternal
    split_ifs <;> rfl
  simp only [processTxItem, txEndInternal, h.connected, h.opened, Bool.true_eq_false, if_false,
    framesOf_append, hburst, List.append_nil]

/-- The frames of a transmission are the blocks of its PCM if and only if the buffer that the end
of the transmission finds has the size of an `int`. -/
theorem blocks_iff (hencode : ∀ e pcm, (encode e pcm).2.isSome = true) (h : Transmitting s)
    (hempty : s.txPcmBuffer = []) (hframe : 0 < s.opus.frameSamples) (pcms : List (List ℤ)) :
    Blocks s.opus.frameSamples.toNat 0 pcms.flatten
        (framesOf (outputs (processTxItem encode) s (pcms.map .txPcm ++ [.txClose]))) ↔
      (after (next (processTxItem encode)) s (pcms.map .txPcm)).txPcmBuffer.length < 2 ^ 31 := by
  obtain ⟨hsame, hlast, hwhole, hcut⟩ := h.run hencode hframe pcms
  rw [hempty, List.nil_append] at hcut
  rw [outputs_snoc, framesOf_append, framesOf_close hlast, ← hcut, Blocks.append_iff hwhole,
    ← hsame]
  exact flush_blocks_iff hencode (hsame ▸ hframe)

/-- With an encoder that never fails, the frames of a transmission are the blocks of its PCM,
however it is cut into commands, if and only if the close finds fewer than `2 ^ 31` samples in the
buffer.  The flush ends on every buffer. -/
theorem framing_iff (hencode : ∀ e pcm, (encode e pcm).2.isSome = true)
    (hconnected : s.connected = true) (hid : s.sessionId ≠ 0) (hframe : 0 < s.opus.frameSamples)
    (pcms : List (List ℤ)) :
    let opened := next (processTxItem encode) s .txOpen
    (Blocks s.opus.frameSamples.toNat 0 pcms.flatten
        (framesOf (outputs (processTxItem encode) opened (pcms.map .txPcm ++ [.txClose]))) ↔
      (after (next (processTxItem encode)) opened (pcms.map .txPcm)).txPcmBuffer.length <
        2 ^ 31) ∧
      ∀ t : TxPcm E, ∃ r, ∀ fuel, t.txPcmBuffer.length < fuel →
        flushFrom encode fuel t = some r := by
  obtain ⟨htransmitting, hempty, hsame⟩ := @processTxItem_open E encode s hconnected hid
  refine ⟨?_, flush_terminates encode⟩
  have hiff := blocks_iff hencode htransmitting hempty (hsame ▸ hframe) pcms
  rwa [hsame] at hiff

/-- An encoder that takes every frame. -/
def anyFrame (_ : Unit) (_ : List ℤ) : Unit × Option (List UInt8) := ((), some [0])

/-- A connected session with frames of 80 samples. -/
def connectedTx : TxPcm Unit where
  connected := true
  sessionId := 7
  clientTxOpen := false
  txPcmBuffer := []
  opus := ⟨(), 80, by decide⟩

/-- Commands of 50, 60 and 7 samples. -/
def unevenPcm : List (List ℤ) := [List.replicate 50 1, List.replicate 60 2, List.replicate 7 3]

set_option maxRecDepth 2000 in
theorem framing_iff_uneven :
    Blocks 80 0 unevenPcm.flatten (framesOf (outputs (processTxItem anyFrame)
      (next (processTxItem anyFrame) connectedTx .txOpen)
        (unevenPcm.map .txPcm ++ [.txClose]))) :=
  (@framing_iff Unit anyFrame connectedTx (fun _ _ => rfl) rfl (by decide) (by decide)
    unevenPcm).1.2 (by decide)

/-- A command of `2 ^ 31` samples: the cast makes its size negative, and the flush keeps only one
frame of it. -/
theorem long_command_cut :
    ¬ ∀ pcms : List (List ℤ), (∀ pcm ∈ pcms, pcm ≠ []) →
      Blocks 80 0 pcms.flatten (framesOf (outputs (processTxItem anyFrame)
        (next (processTxItem anyFrame) connectedTx .txOpen) (pcms.map .txPcm ++ [.txClose]))) := by
  intro hall
  have hlong : ∀ pcm : List ℤ, pcm.length ≠ 2 ^ 31 := by
    intro pcm hlen
    have hne : pcm ≠ [] := by
      rintro rfl
      cases hlen
    obtain ⟨hopened, hempty, hsame⟩ :=
      @processTxItem_open Unit anyFrame connectedTx rfl (by decide)
    have hleft := (blocks_iff (fun _ _ => rfl) hopened hempty (by decide) [pcm]).1
      (hall [pcm] fun q hq => by rwa [List.mem_singleton.1 hq])
    have hfar := castInt_far hlen.ge
    have hshort : castInt pcm.length <
        (next (processTxItem anyFrame) connectedTx .txOpen).opus.frameSamples := by
      rw [hsame]
      show castInt pcm.length < 80
      omega
    rw [List.map_singleton, after_cons, after_nil, next,
      processTxItem_pcm hopened (by decide) hne, hempty, List.nil_append, if_pos hshort] at hleft
    exact absurd hlen hleft.ne
  exact hlong (List.replicate (2 ^ 31) 0) List.length_replicate

/-! ## The backlog -/

/-- The samples of a `Pcm` command and those in the buffer are fewer than two frames, as an `int`
too, or the encoder fails on the first frame of them. -/
def KeepsUp (encode : E → List ℤ → E × Option (List UInt8)) (s : TxPcm E) : TxVoice → Prop
  | .txPcm pcm =>
    let n := s.txPcmBuffer.length + pcm.length
    (n : ℤ) < s.opus.frameSamples ∨
      (s.opus.frameSamples ≤ castInt n ∧ ((n : ℤ) < 2 * s.opus.frameSamples ∨
        (encode s.opus.encoder
          ((s.txPcmBuffer ++ pcm).take s.opus.frameSamples.toNat)).2 = none))
  | _ => True

instance (encode : E → List ℤ → E × Option (List UInt8)) (s : TxPcm E) (item : TxVoice) :
    Decidable (KeepsUp encode s item) := by
  unfold KeepsUp
  cases item <;> infer_instance

/-- Less than a frame is left after a command that the worker keeps up with, and after no other. -/
theorem left_lt_iff (h : Transmitting s) (hframe : 0 < s.opus.frameSamples) (hne : pcm ≠ []) :
    (next (processTxItem encode) s (.txPcm pcm)).txPcmBuffer.length <
        s.opus.frameSamples.toNat ↔ KeepsUp encode s (.txPcm pcm) := by
  have hle := castInt_le (s.txPcmBuffer.length + pcm.length)
  rw [next, processTxItem_pcm h hframe hne]
  simp only [KeepsUp, List.length_append]
  split_ifs with hshort
  · rw [List.length_append]
    omega
  · simp only [encodeFrame]
    cases (encode s.opus.encoder ((s.txPcmBuffer ++ pcm).take s.opus.frameSamples.toNat)).2 with
    | none =>
      rw [List.length_nil]
      exact iff_of_true (by omega) (Or.inr ⟨by omega, Or.inr rfl⟩)
    | some data =>
      simp only [List.length_drop, List.length_append, reduceCtorEq, or_false]
      omega

/-- In a transmission less than a frame is left in the buffer after every `Pcm` command if and only
if the worker keeps up with every one. -/
theorem backlog_iff (hconnected : s.connected = true) (hid : s.sessionId ≠ 0)
    (hframe : 0 < s.opus.frameSamples) (hne : ∀ pcm ∈ pcms, pcm ≠ []) :
    let opened := next (processTxItem encode) s .txOpen
    Along (next (processTxItem encode))
        (fun t item => (next (processTxItem encode) t item).txPcmBuffer.length <
          s.opus.frameSamples.toNat) opened (pcms.map .txPcm) ↔
      Along (next (processTxItem encode)) (KeepsUp encode) opened (pcms.map .txPcm) := by
  intro opened
  obtain ⟨htransmitting, -, hsame⟩ := @processTxItem_open E encode s hconnected hid
  have hpcm : Along (next (processTxItem encode)) (fun _ item => ∃ pcm ∈ pcms, item = .txPcm pcm)
      opened (pcms.map .txPcm) := by
    intro before item behind heq
    have hmem : item ∈ pcms.map TxVoice.txPcm := by simp [heq]
    obtain ⟨pcm, hpcm, rfl⟩ := List.mem_map.1 hmem
    exact ⟨pcm, hpcm, rfl⟩
  refine Along.congr (I := fun t => Transmitting t ∧ t.opus.frameSamples = s.opus.frameSamples)
    ?_ ?_ ⟨htransmitting, hsame⟩ hpcm
  · rintro t item ⟨ht, htframe⟩ ⟨pcm, -, rfl⟩
    obtain ⟨hnext, hnextframe⟩ := @Transmitting.fed E encode t ht (htframe ▸ hframe) pcm
    exact ⟨hnext, hnextframe.trans htframe⟩
  · rintro t item ⟨ht, htframe⟩ ⟨pcm, hmem, rfl⟩
    rw [← htframe]
    exact left_lt_iff ht (htframe ▸ hframe) (hne pcm hmem)

/-- Commands of one frame each. -/
theorem backlog_iff_single_frames :
    Along (next (processTxItem anyFrame))
      (fun t item => (next (processTxItem anyFrame) t item).txPcmBuffer.length < 80)
      (next (processTxItem anyFrame) connectedTx .txOpen)
      ((List.replicate 3 (List.replicate 80 1)).map .txPcm) :=
  (backlog_iff rfl (by decide) (by decide) (by decide)).2 (by decide)

/-- A command of two frames leaves one of them in the buffer. -/
theorem backlog_of_two_frames :
    ¬ ∀ pcms : List (List ℤ), (∀ pcm ∈ pcms, pcm ≠ []) →
      Along (next (processTxItem anyFrame))
        (fun t item => (next (processTxItem anyFrame) t item).txPcmBuffer.length < 80)
        (next (processTxItem anyFrame) connectedTx .txOpen) (pcms.map .txPcm) := by
  intro hall
  have h := (hall [List.replicate 160 1] (by decide)).head
  have hleft : (next (processTxItem anyFrame) (next (processTxItem anyFrame) connectedTx .txOpen)
      (.txPcm (List.replicate 160 1))).txPcmBuffer.length = 80 := by decide +kernel
  rw [hleft] at h
  exact absurd h (by decide)

end transmission

end TxPcm

end OWalkie
