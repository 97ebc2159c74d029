import OWalkie.Lib.Ring
import OWalkie.Lib.Run

/-!
# The low-pass of the noise

`whiteNoise.next` smooths the raw noise with a running sum over a circular buffer, which it first
fills.  `next_moving_average`: its outputs are the means of the latest raw samples.
-/

namespace OWalkie

open Run

variable {K : Type*} [Field K]

/-- `whiteNoise` behind its random source: the raw samples are inputs of `next`. -/
structure WhiteNoise (K : Type*) where
  win : ℕ := 0
  buf : List K := []
  sum : K
  pos : ℕ := 0
  count : ℕ := 0
deriving Repr, DecidableEq

namespace WhiteNoise

/-- The buffer of a low-pass with the window `win`. -/
def windowed (win : ℕ) : WhiteNoise K :=
  { win := win, buf := List.replicate win 0, sum := 0 }

/-- `newWhiteNoise`, without the choice of the distribution. -/
def newWhiteNoise (configuredSampleRate : ℤ) (thermalLowpassHz : ℚ) : WhiteNoise K :=
  if 0 < thermalLowpassHz ∧ 0 < configuredSampleRate then
    windowed (max 2 ⌊configuredSampleRate / thermalLowpassHz⌋).toNat
  else { sum := 0 }

/-- The new state and the sample that `next` returns. -/
def next (w : WhiteNoise K) (x : K) : WhiteNoise K × K :=
  if w.win = 0 then (w, x)
  else if w.count < w.win then
    let sum := w.sum + x
    let count := w.count + 1
    ({ w with buf := w.buf.set w.pos x, sum := sum, pos := (w.pos + 1) % w.win, count := count },
      sum / count)
  else
    let old := w.buf.getD w.pos 0
    let sum := w.sum + (x - old)
    ({ w with buf := w.buf.set w.pos x, sum := sum, pos := (w.pos + 1) % w.win }, sum / w.win)

/-- The state part of `next`. -/
def feed (w : WhiteNoise K) (x : K) : WhiteNoise K := (w.next x).1

/-- The samples in the buffer: until it is full, those in front. -/
def held (w : WhiteNoise K) : List K := w.buf.take w.count

def mean (xs : List K) : K := xs.sum / xs.length

/-- The buffer against the raw samples so far. -/
structure Tracks (w : WhiteNoise K) (raw : List K) : Prop where
  length : w.buf.length = w.win
  count : w.count = min raw.length w.win
  pos : w.pos = raw.length % w.win
  held : Holds w.buf (raw.length - w.count) (raw.rtake w.win)
  sum : w.sum = (raw.rtake w.win).sum

theorem tracks_windowed (win : ℕ) : (windowed win : WhiteNoise K).Tracks [] where
  length := List.length_replicate
  count := (Nat.zero_min win).symm
  pos := (Nat.zero_mod win).symm
  held := by
    rw [List.rtake_nil]
    exact .nil _ _
  sum := by
    rw [List.rtake_nil]
    rfl

variable {w : WhiteNoise K} {raw : List K}

/-- While the buffer fills up. -/
theorem Tracks.next_filling (h : w.Tracks raw) (hlt : raw.length < w.win) (x : K) :
    (w.next x).1.Tracks (raw ++ [x]) ∧ (w.next x).2 = mean ((raw ++ [x]).rtake w.win) := by
  have hcount : w.count = raw.length := by rw [h.count, min_eq_left hlt.le]
  have hpos : w.pos = raw.length := by rw [h.pos, Nat.mod_eq_of_lt hlt]
  have hlen : (raw ++ [x]).length = raw.length + 1 := List.length_append
  have hall : raw.rtake w.win = raw := rtake_of_length_le hlt.le
  have hall' : (raw ++ [x]).rtake w.win = raw ++ [x] := rtake_of_length_le (by omega)
  have hsum : w.sum + x = ((raw ++ [x]).rtake w.win).sum := by
    rw [h.sum, hall, hall', List.sum_append, List.sum_singleton]
  have hheld : Holds w.buf 0 raw := by
    have := h.held
    rwa [hcount, Nat.sub_self, hall] at this
  have hpush := hheld.push (hlt.trans_eq h.length.symm) x
  rw [Nat.zero_add, h.length, Nat.mod_eq_of_lt hlt, ← hpos] at hpush
  rw [next, if_neg (by omega), if_pos (by omega)]
  refine ⟨⟨(List.length_set ..).trans h.length, ?_, ?_, ?_, hsum⟩, ?_⟩
  · show w.count + 1 = min (raw ++ [x]).length w.win
    omega
  · show (w.pos + 1) % w.win = (raw ++ [x]).length % w.win
    rw [hpos, hlen]
  · show Holds (w.buf.set w.pos x) ((raw ++ [x]).length - (w.count + 1)) ((raw ++ [x]).rtake w.win)
    rwa [hlen, hcount, Nat.sub_self, hall']
  · show (w.sum + x) / ((w.count + 1 : ℕ) : K) = _
    rw [hsum, mean, hall', hlen, hcount]

/-- Once it is full the oldest sample leaves. -/
theorem Tracks.next_full (h : w.Tracks raw) (hwin : 0 < w.win) (hle : w.win ≤ raw.length) (x : K) :
    (w.next x).1.Tracks (raw ++ [x]) ∧ (w.next x).2 = mean ((raw ++ [x]).rtake w.win) := by
  have hcount : w.count = w.win := by rw [h.count, min_eq_right hle]
  have hlen : (raw ++ [x]).length = raw.length + 1 := List.length_append
  have hwindow : (raw.rtake w.win).length = w.win := by rw [length_rtake, min_eq_left hle]
  obtain ⟨y, ys, hys⟩ := List.exists_cons_of_length_pos (hwindow.symm ▸ hwin)
  rw [hys] at hwindow
  have hheld : Holds w.buf (raw.length - w.win) (y :: ys) := by
    have := h.held
    rwa [hcount, hys] at this
  have hcell : (raw.length - w.win) % w.buf.length = w.pos := by
    rw [h.length, h.pos, ← Nat.mod_eq_sub_mod hle]
  have hold : w.buf.getD w.pos 0 = y := by
    have := hheld.getElem? (i := 0) (Nat.succ_pos _)
    rw [Nat.add_zero, hcell] at this
    rw [List.getD_eq_getElem?_getD, this]
    rfl
  have hnew : (raw ++ [x]).rtake w.win = ys ++ [x] := by
    rw [rtake_snoc hwin, hys, if_pos hwindow, List.tail_cons]
  have hsum : w.sum + (x - w.buf.getD w.pos 0) = ((raw ++ [x]).rtake w.win).sum := by
    rw [h.sum, hold, hys, hnew, List.sum_cons, List.sum_append, List.sum_singleton]
    ring
  have hslide := hheld.slide (hwindow.trans h.length.symm) x
  rw [hcell] at hslide
  rw [next, if_neg hwin.ne', if_neg (by omega)]
  refine ⟨⟨(List.length_set ..).trans h.length, ?_, ?_, ?_, hsum⟩, ?_⟩
  · show w.count = min (raw ++ [x]).length w.win
    omega
  · show (w.pos + 1) % w.win = (raw ++ [x]).length % w.win
    rw [hlen, h.pos, Nat.mod_add_mod]
  · show Holds (w.buf.set w.pos x) ((raw ++ [x]).length - w.count) ((raw ++ [x]).rtake w.win)
    rwa [hlen, hcount, Nat.sub_add_comm hle, hnew]
  · show (w.sum + (x - w.buf.getD w.pos 0)) / (w.win : K) = _
    rw [hsum, mean, hnew, List.length_append, ← hwindow]
    rfl

theorem Tracks.next (h : w.Tracks raw) (hwin : 0 < w.win) (x : K) :
    (w.next x).1.Tracks (raw ++ [x]) ∧ (w.next x).2 = mean ((raw ++ [x]).rtake w.win) := by
  rcases lt_or_ge raw.length w.win with hlt | hle
  · exact h.next_filling hlt x
  · exact h.next_full hwin hle x

theorem win_next (w : WhiteNoise K) (x : K) : (w.next x).1.win = w.win := by
  rw [WhiteNoise.next]
  split_ifs <;> rfl

theorem tracks_after {win : ℕ} (hwin : 0 < win) (raw : List K) :
    (after feed (windowed win) raw).win = win ∧ (after feed (windowed win) raw).Tracks raw := by
  induction raw using List.reverseRecOn with
  | nil => exact ⟨rfl, tracks_windowed win⟩
  | append_singleton raw x ih =>
    rw [after_snoc]
    exact ⟨(win_next _ x).trans ih.1, (ih.2.next (ih.1.symm ▸ hwin) x).1⟩

/-- What the buffer holds adds up to what the window does. -/
theorem Tracks.sum_held (h : w.Tracks raw) : w.sum = w.held.sum := by
  rw [h.sum, WhiteNoise.held]
  have hheld := h.held
  rcases lt_or_ge raw.length w.win with hlt | hle
  · have hcount : w.count = raw.length := by rw [h.count, min_eq_left hlt.le]
    rw [hcount, Nat.sub_self, rtake_of_length_le hlt.le, Holds, List.rotate_zero] at hheld
    rw [rtake_of_length_le hlt.le, hcount, ← List.prefix_iff_eq_take.1 hheld]
  · have hcount : w.count = w.win := by rw [h.count, min_eq_right hle]
    rw [hheld.eq_rotate (by rw [length_rtake, h.length, min_eq_left hle]), hcount, ← h.length,
      List.take_length]
    exact (List.rotate_perm w.buf _).sum_eq

/-- After any raw samples, `next` returns the mean of the latest ones, as many as the window has or
as there are, and the running sum is the sum of what the buffer holds. -/
theorem next_moving_average {win : ℕ} (hwin : 2 ≤ win) (raw : List K) (x : K) :
    ((after feed (windowed win) raw).next x).2 =
        mean ((raw ++ [x]).rtake (min (raw ++ [x]).length win)) ∧
      (after feed (windowed win) raw).sum = (after feed (windowed win) raw).held.sum := by
  obtain ⟨hsame, htracks⟩ := tracks_after (Nat.zero_lt_of_lt hwin) raw
  refine ⟨?_, htracks.sum_held⟩
  rw [(htracks.next (hsame.symm ▸ Nat.zero_lt_of_lt hwin) x).2, hsame]
  congr 1
  rw [List.rtake, List.rtake]
  congr 1
  omega

/-- At 8 kHz a low-pass of 2.5 kHz has a window of three samples. -/
theorem next_moving_average_three :
    ((after feed (newWhiteNoise 8000 2500 : WhiteNoise ℚ) [6, 0, 3]).next 9).2 =
        mean ([6, 0, 3, 9].rtake (min 4 3)) ∧
      (after feed (newWhiteNoise 8000 2500 : WhiteNoise ℚ) [6, 0, 3]).sum =
        (after feed (newWhiteNoise 8000 2500 : WhiteNoise ℚ) [6, 0, 3]).held.sum := by
  have hwindow : (newWhiteNoise 8000 2500 : WhiteNoise ℚ) = windowed 3 := by decide +kernel
  rw [hwindow]
  exact next_moving_average (by decide) [6, 0, 3] 9

end WhiteNoise

end OWalkie
