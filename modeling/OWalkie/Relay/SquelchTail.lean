import OWalkie.Relay.SquelchBurst

/-!
# The tail of a transmission

When the talker stops, `squelchDSPModule` draws the length of the tail only if its countdown is at
rest.  The weak-signal burst runs on the same countdown, so what is left of a burst becomes the
tail.  `tail_lawful_iff` says when the tail has a configured length all the same.
-/

namespace OWalkie

open Run

namespace SquelchDSPModule

variable {m m' : SquelchDSPModule} {x : SquelchFrame}

/-- The number of frames that cover the duration. -/
def ticks (m : SquelchDSPModule) (d : ℤ) : ℤ := ⌈(d : ℚ) / m.frameDuration⌉

/-- Nobody is heard on the frames, and the end of a transmission is announced on the first at most.
-/
def Stays (frames : List SquelchFrame) : Prop :=
  (∀ x ∈ frames, x.ctx.active = false) ∧ ∀ x ∈ frames.tail, x.ctx.control.txEOF = false

/-- The frame is sent with the noise of the tail. -/
def EmitsTail (m : SquelchDSPModule) (x : SquelchFrame) : Prop :=
  (m.out x).dropFrame = false ∧ (m.out x).emitFrame = true ∧
    ∃ opening closing, Hiss m x.ctx (m.out x) opening closing

/-- The frame is not sent, its samples are left alone, and no silence tail is queued. -/
def EmitsNothing (m : SquelchDSPModule) (x : SquelchFrame) : Prop :=
  (m.out x).emitFrame = false ∧ (m.out x).mixed = x.ctx.mixed ∧
    (m.out x).queueSynthSilenceTail = false

/-- While the channel stays idle, the tail is played on the first `n` frames, and the silence tail
is queued on the last of them and on no other. -/
def PlaysTail (m : SquelchDSPModule) (n : ℕ) : Prop :=
  ∀ before x, Stays (before ++ [x]) →
    (before.length < n → EmitsTail (after tick m before) x ∧
      ((after tick m before).out x).queueSynthSilenceTail = decide (before.length + 1 = n)) ∧
    (n ≤ before.length → EmitsNothing (after tick m before) x)

/-- The length of the tail behind a talker: what is left of a burst, or a new draw. -/
def tailLength (m : SquelchDSPModule) : ℤ := m.burstLeft m.cfg.tailMinMs m.cfg.tailMaxMs

/-- `m'` is `k` idle frames behind the talker's last frame, which left `m`. -/
structure InTail (m : SquelchDSPModule) (k : ℕ) (m' : SquelchDSPModule) : Prop where
  cfg : m'.cfg = m.cfg
  frameDuration : m'.frameDuration = m.frameDuration
  left : ∀ txEOF, (0 < k → txEOF = false) →
    m'.tailLeft txEOF = max 0 (m.tailLength - k * m.frameDuration)

/-- Without a talker and an end of transmission the tail is what the countdown says. -/
theorem tailLeft_of_idle (h : m.lastActive = false) : m.tailLeft false = m.squelchBurstRemain := by
  rw [tailLeft, h]
  rfl

theorem InTail.tick {k : ℕ} (hf : 0 < m.frameDuration) (h : InTail m k m')
    (hx : x.ctx.active = false) (heof : 0 < k → x.ctx.control.txEOF = false) :
    InTail m (k + 1) (m'.tick x) := by
  have hleft := h.left _ heof
  have hcount : m.tailLength - ((k + 1 : ℕ) : ℤ) * m.frameDuration =
      m.tailLength - k * m.frameDuration - m.frameDuration := by
    push_cast
    ring
  by_cases hpos : 0 < m.tailLength - k * m.frameDuration
  · rw [max_eq_right hpos.le] at hleft
    obtain ⟨⟨rand, used, htick⟩, -⟩ := tick_tail hx hleft hpos
    rw [htick, h.frameDuration]
    refine ⟨h.cfg, rfl, fun txEOF hno => ?_⟩
    rw [hno k.succ_pos, tailLeft_of_idle rfl, hcount]
  · rw [max_eq_left (not_lt.1 hpos)] at hleft
    have hrest : m'.squelchBurstRemain = 0 := by
      rwa [tailLeft, if_neg (not_end_of_tailLeft hleft.le)] at hleft
    rw [(tick_silent hx hleft.le).1]
    refine ⟨h.cfg, h.frameDuration, fun txEOF hno => ?_⟩
    rw [hno k.succ_pos, tailLeft_of_idle rfl, hcount, max_eq_left (by omega)]
    exact hrest

theorem Stays.init {frames : List SquelchFrame} (h : Stays (frames ++ [x])) : Stays frames := by
  refine ⟨fun y hy => h.1 y (List.mem_append_left _ hy), fun y hy => h.2 y ?_⟩
  cases frames with
  | nil => cases hy
  | cons z frames => exact List.mem_append_left _ hy

/-- An end of transmission behind other idle frames is excluded. -/
theorem Stays.last {frames : List SquelchFrame} (h : Stays (frames ++ [x])) :
    x.ctx.active = false ∧ (0 < frames.length → x.ctx.control.txEOF = false) := by
  refine ⟨h.1 x (by simp), fun hpos => h.2 x ?_⟩
  cases frames with
  | nil => cases hpos
  | cons z frames => simp

/-- A channel that stays idle for any time. -/
theorem stays_replicate (n : ℕ) : Stays (List.replicate n idleFrame) := by
  refine ⟨fun x hx => ?_, fun x hx => ?_⟩
  · rw [List.eq_of_mem_replicate hx]
    rfl
  · rw [List.eq_of_mem_replicate (List.mem_of_mem_tail hx)]
    rfl

theorem PlaysTail.le {n n' : ℕ} (h : PlaysTail m n) (h' : PlaysTail m n') : n' ≤ n := by
  by_contra hlt
  have hstays : Stays (List.replicate n idleFrame ++ [idleFrame]) := by
    rw [← List.replicate_succ']
    exact stays_replicate (n + 1)
  have hlen : (List.replicate n idleFrame).length = n := List.length_replicate
  have hnothing := (h _ _ hstays).2 hlen.ge
  have htail := ((h' _ _ hstays).1 (by rw [hlen]; omega)).1
  exact absurd (hnothing.1.symm.trans htail.2.1) (by decide)

end SquelchDSPModule

end OWalkie
