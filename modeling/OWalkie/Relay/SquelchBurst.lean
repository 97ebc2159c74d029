import OWalkie.Relay.SquelchTicks

/-!
# The burst of a weak signal

The weak-signal burst of `squelchDSPModule` takes the packet off the drawn length and drops the
frame on which nothing is left: of `⌈d / packet⌉` frames all but the last go out.  Nothing goes out
where the draw fits into one packet, nor where the gate of an earlier stretch was left closed by a
tail.  `closed_burst_iff` says that these are the only exceptions.
-/

namespace OWalkie

open Run

namespace SquelchDSPModule

variable {m : SquelchDSPModule} {x : SquelchFrame}

/-! ## A stretch of weak frames -/

/-- The length that a burst has if it starts on the next frame. -/
def drawnBurst (m : SquelchDSPModule) : ℤ :=
  (randomDurationMs m.cfg.squelchMinMs m.cfg.squelchMaxMs m.rand).1

/-- `m'` is `k` weak frames behind the start of a burst in `m`. -/
structure InBurst (m : SquelchDSPModule) (k : ℕ) (m' : SquelchDSPModule) : Prop where
  cfg : m'.cfg = m.cfg
  frameDuration : m'.frameDuration = m.frameDuration
  isOpen : k * m.frameDuration < m.drawnBurst → m'.squelchLatched = false ∧
    m'.squelchBurstRemain = m.drawnBurst - k * m.frameDuration
  closed : m.drawnBurst ≤ k * m.frameDuration → m'.squelchLatched = true

theorem inBurst_first (hopen : m.squelchLatched = false) (hquiet : m.squelchBurstRemain ≤ 0)
    (hx : Weak m.cfg x) : InBurst m 1 (m.tick x) := by
  have hleft : m.burstLeft m.cfg.squelchMinMs m.cfg.squelchMaxMs = m.drawnBurst := if_pos hquiet
  obtain ⟨⟨rand, used, htick⟩, -⟩ := tick_weak_open hx hopen rfl
  rw [htick, hleft]
  refine ⟨rfl, rfl, fun hlt => ⟨decide_eq_false ?_, ?_⟩, fun hle => decide_eq_true ?_⟩
  · rw [Nat.cast_one, one_mul] at hlt
    omega
  · rw [Nat.cast_one, one_mul]
  · rw [Nat.cast_one, one_mul] at hle
    omega

theorem InBurst.tick {m' : SquelchDSPModule} {k : ℕ} (hf : 0 < m.frameDuration) (h : InBurst m k m')
    (hx : Weak m.cfg x) : InBurst m (k + 1) (m'.tick x) := by
  have hx' : Weak m'.cfg x := by rwa [h.cfg]
  have hsucc : ((k + 1 : ℕ) : ℤ) * m.frameDuration = k * m.frameDuration + m.frameDuration := by
    push_cast
    ring
  by_cases hlt : k * m.frameDuration < m.drawnBurst
  · obtain ⟨hopen, hremain⟩ := h.isOpen hlt
    have hleft : m'.burstLeft m'.cfg.squelchMinMs m'.cfg.squelchMaxMs =
        m.drawnBurst - k * m.frameDuration := by
      rw [burstLeft, if_neg (by omega), hremain]
    obtain ⟨⟨rand, used, htick⟩, -⟩ := tick_weak_open hx' hopen rfl
    rw [htick, hleft, h.frameDuration]
    refine ⟨h.cfg, rfl, fun hlt' => ⟨decide_eq_false ?_, ?_⟩, fun hle => decide_eq_true ?_⟩
    · omega
    · show m.drawnBurst - _ - _ = _
      omega
    · omega
  · have hlatched := h.closed (not_lt.1 hlt)
    rw [(tick_weak_latched hx' hlatched).1]
    exact ⟨h.cfg, h.frameDuration, fun hlt' => absurd hlt' (by omega), fun _ => hlatched⟩

theorem inBurst_after (hf : 0 < m.frameDuration) (hopen : m.squelchLatched = false)
    (hquiet : m.squelchBurstRemain ≤ 0) {xs : List SquelchFrame} (hne : xs ≠ [])
    (hxs : ∀ x ∈ xs, Weak m.cfg x) : InBurst m xs.length (after tick m xs) := by
  induction xs using List.reverseRecOn with
  | nil => exact absurd rfl hne
  | append_singleton xs x ih =>
    rw [after_snoc, List.length_append]
    by_cases hnil : xs = []
    · subst hnil
      exact inBurst_first hopen hquiet (hxs x (by simp))
    · exact (ih hnil fun y hy => hxs y (List.mem_append_left _ hy)).tick hf (hxs x (by simp))

/-! ## What goes out of a stretch -/

/-- The frame is sent with the noise and those clicks. -/
def Emits (m : SquelchDSPModule) (x : SquelchFrame) (opening closing : Bool) : Prop :=
  (m.out x).dropFrame = false ∧ (m.out x).emitFrame = true ∧ Hiss m x.ctx (m.out x) opening closing

/-- At least one frame of the stretch is sent, the first with an opening click, the last of them and
no other with a closing one, and all that follow are dropped. -/
def ClosedBurst (m : SquelchDSPModule) (stretch : List SquelchFrame) : Prop :=
  ∃ sent : ℕ, 0 < sent ∧ sent ≤ stretch.length ∧
    ∀ before x rest, stretch = before ++ x :: rest →
      (before.length < sent → Emits (after tick m before) x (decide (before.length = 0))
        (decide (before.length + 1 = sent))) ∧
      (sent ≤ before.length → ((after tick m before).out x).dropFrame = true)

/-- The frames of a burst that are sent. -/
def sentFrames (m : SquelchDSPModule) : ℕ := ((m.drawnBurst - 1) / m.frameDuration).toNat

theorem lt_sentFrames_iff (hf : 0 < m.frameDuration) {k : ℕ} :
    k < m.sentFrames ↔ (k + 1) * m.frameDuration < m.drawnBurst := by
  rw [sentFrames, Int.lt_toNat, ← Int.add_one_le_iff, Int.le_ediv_iff_mul_le hf]
  omega

theorem succ_eq_sentFrames_iff (hf : 0 < m.frameDuration) {k : ℕ} {left : ℤ}
    (hleft : m.drawnBurst - k * m.frameDuration - m.frameDuration = left) :
    k + 1 = m.sentFrames ↔ 0 < left ∧ left ≤ m.frameDuration := by
  have hk := lt_sentFrames_iff hf (k := k)
  have hk' := lt_sentFrames_iff hf (k := k + 1)
  push_cast at hk'
  rw [add_mul, one_mul] at hk hk'
  rw [add_mul, one_mul] at hk'
  omega

/-- A frame of a burst that is not over. -/
theorem emits_open {m' : SquelchDSPModule} {k : ℕ} (hf : 0 < m.frameDuration)
    (hedge : m.clicks = true) (hcfg : m'.cfg = m.cfg) (hframe : m'.frameDuration = m.frameDuration)
    (hopen : m'.squelchLatched = false) (hstart : m'.squelchBurstRemain ≤ 0 ↔ k = 0)
    (hleft : m'.burstLeft m'.cfg.squelchMinMs m'.cfg.squelchMaxMs =
      m.drawnBurst - k * m.frameDuration) (hx : Weak m.cfg x) :
    (k < m.sentFrames → Emits m' x (decide (k = 0)) (decide (k + 1 = m.sentFrames))) ∧
      (m.sentFrames ≤ k → (m'.out x).dropFrame = true) := by
  have hclicks : m'.clicks = true := by rw [clicks, hcfg, ← clicks, hedge]
  obtain ⟨-, hdrop, hemit, hhiss⟩ := tick_weak_open (m := m') (x := x) (by rwa [hcfg]) hopen rfl
  rw [hleft, hframe] at hdrop hhiss
  rw [hclicks, Bool.and_true, Bool.and_true, decide_eq_decide.2 hstart,
    ← decide_eq_decide.2 (succ_eq_sentFrames_iff hf rfl)] at hhiss
  have hlt := lt_sentFrames_iff hf (k := k)
  rw [add_mul, one_mul] at hlt
  constructor
  · intro hk
    refine ⟨?_, hemit, hhiss⟩
    rw [hdrop]
    exact decide_eq_false (by omega)
  · intro hk
    rw [hdrop]
    exact decide_eq_true (by omega)

/-- The frames of a stretch on which a burst starts. -/
theorem emits_stretch (hf : 0 < m.frameDuration) (hedge : m.clicks = true)
    (hopen : m.squelchLatched = false) (hquiet : m.squelchBurstRemain ≤ 0)
    {before : List SquelchFrame} (hbefore : ∀ y ∈ before, Weak m.cfg y) (hx : Weak m.cfg x) :
    (before.length < m.sentFrames → Emits (after tick m before) x (decide (before.length = 0))
      (decide (before.length + 1 = m.sentFrames))) ∧
    (m.sentFrames ≤ before.length → ((after tick m before).out x).dropFrame = true) := by
  by_cases hnil : before = []
  · subst hnil
    refine emits_open hf hedge rfl rfl hopen ⟨fun _ => rfl, fun _ => hquiet⟩ ?_ hx
    rw [burstLeft, after_nil, if_pos hquiet, List.length_nil, Nat.cast_zero, zero_mul, sub_zero,
      drawnBurst]
  have hburst := inBurst_after hf hopen hquiet hnil hbefore
  have hpos := List.length_pos_iff.2 hnil
  by_cases hlt : before.length * m.frameDuration < m.drawnBurst
  · obtain ⟨hopen', hremain⟩ := hburst.isOpen hlt
    refine emits_open hf hedge hburst.cfg hburst.frameDuration hopen' ⟨fun h => ?_, fun h => ?_⟩ ?_ hx
    · omega
    · omega
    · rw [burstLeft, if_neg (by omega), hremain]
  · have hlatched := hburst.closed (not_lt.1 hlt)
    have hover : m.sentFrames ≤ before.length := by
      by_contra hk
      have hk' := (lt_sentFrames_iff hf).1 (not_le.1 hk)
      rw [add_mul, one_mul] at hk'
      omega
    refine ⟨fun hk => absurd hover (not_le.2 hk), fun _ => ?_⟩
    rw [(tick_weak_latched (by rwa [hburst.cfg]) hlatched).2]

/-- A stretch of weak frames that is longer than its burst is heard and closed exactly when the gate
is open and the burst is longer than one packet. -/
theorem closed_burst_iff (m₀ : SquelchDSPModule) (pre stretch : List SquelchFrame)
    (hf : 0 < m₀.frameDuration) (hedge : 0 < m₀.cfg.edgeImpulseLinear)
    (hquiet : (after tick m₀ pre).squelchBurstRemain ≤ 0) (hweak : ∀ x ∈ stretch, Weak m₀.cfg x)
    (hlong : (after tick m₀ pre).drawnBurst < stretch.length * m₀.frameDuration) :
    ClosedBurst (after tick m₀ pre) stretch ↔
      (after tick m₀ pre).squelchLatched = false ∧
        m₀.frameDuration < (after tick m₀ pre).drawnBurst := by
  obtain ⟨hcfg, hframe⟩ := m₀.after_cfg pre
  set m := after tick m₀ pre
  rw [← hcfg] at hedge hweak
  rw [← hframe] at hf hlong ⊢
  have hclicks : m.clicks = true := decide_eq_true hedge
  have hne : stretch ≠ [] := by
    rintro rfl
    rw [List.length_nil, Nat.cast_zero, zero_mul] at hlong
    have hmin := (randomDurationMs_mem m.cfg.squelchMs.2 m.rand).1
    have hpos : 0 < m.cfg.squelchMinMs * millisecond := mul_pos m.cfg.squelchMs.1 (by decide)
    rw [drawnBurst] at hlong
    omega
  constructor
  · rintro ⟨sent, hpos, -, hall⟩
    obtain ⟨x, rest, rfl⟩ := List.exists_cons_of_ne_nil hne
    have hx : Weak m.cfg x := hweak x (by simp)
    have hkept : (m.out x).dropFrame = false := ((hall [] x rest rfl).1 hpos).1
    have hopen : m.squelchLatched = false := by
      by_contra hlatched
      rw [(tick_weak_latched hx (Bool.not_eq_false _ ▸ hlatched)).2] at hkept
      cases hkept
    refine ⟨hopen, ?_⟩
    rw [(tick_weak_open hx hopen rfl).2.1, burstLeft, if_pos hquiet, decide_eq_false_iff_not] at hkept
    rw [drawnBurst]
    omega
  · rintro ⟨hopen, hlt⟩
    refine ⟨m.sentFrames, (lt_sentFrames_iff hf).2 (by simpa using hlt), ?_, ?_⟩
    · by_contra hover
      have hlast := (lt_sentFrames_iff hf).1 (not_le.1 hover)
      rw [add_mul, one_mul] at hlast
      omega
    · rintro before x rest rfl
      exact emits_stretch hf hclicks hopen hquiet (fun y hy => hweak y (List.mem_append_left _ hy))
        (hweak x (by simp))

/-! ### Packets of 20 ms -/

/-- A frame of two samples with one speaker of that signal, or none. -/
def frameOf (signal : Option ℚ) : SquelchFrame where
  ctx :=
    { mixed := [0, 0]
      avgSignalByte := signal.getD 0
      activeSpeakers := if signal.isSome then 1 else 0
      noiseLevelDB := 0
      control :=
        { txActive := signal.isSome
          txStart := false
          txEOF := false
          multiClientMix := false
          signalByte := signal }
      emitFrame := signal.isSome }
  mixed_ne := by simp
  kept := rfl
  asked h := by
    cases signal with
    | none => cases h
    | some _ => rfl
  unqueued := rfl

def weakFrame : SquelchFrame := frameOf (some 0)

def strongFrame : SquelchFrame := frameOf (some 255)

def idleFrame : SquelchFrame := frameOf none

/-- A squelch with clicks, bursts of that length and tails of 20 ms. -/
def squelchOf (ms : ℕ) (h : 0 < ms) : SquelchDSPModule :=
  { squelchChain.squelch with
    cfg := { shortSquelch with
      edgeImpulseLinear := 1200
      squelchMinMs := ms
      squelchMaxMs := ms
      squelchMs := ⟨by exact_mod_cast h, le_rfl⟩ } }

theorem weak_weakFrame (ms : ℕ) (h : 0 < ms) : Weak (squelchOf ms h).cfg weakFrame :=
  ⟨rfl, by show (0 : ℚ) / 255 * 100 ≤ 5; norm_num⟩

/-- A burst of 50 ms sends two frames. -/
theorem closed_burst_fifty :
    ClosedBurst (after tick (squelchOf 50 (by decide)) [strongFrame])
      [weakFrame, weakFrame, weakFrame] := by
  have hstate : (after tick (squelchOf 50 (by decide)) [strongFrame]).squelchBurstRemain ≤ 0 ∧
      (after tick (squelchOf 50 (by decide)) [strongFrame]).squelchLatched = false ∧
      (after tick (squelchOf 50 (by decide)) [strongFrame]).drawnBurst = 50 * millisecond := by
    decide +kernel
  have hweak : ∀ x ∈ [weakFrame, weakFrame, weakFrame], Weak (squelchOf 50 (by decide)).cfg x := by
    simpa using weak_weakFrame 50 (by decide)
  refine (closed_burst_iff (squelchOf 50 (by decide)) [strongFrame] _ (by decide)
    (by show (0 : ℚ) < 1200; norm_num) hstate.1 hweak ?_).2 ⟨hstate.2.1, ?_⟩
  · rw [hstate.2.2]
    decide
  · rw [hstate.2.2]
    decide

/-- A burst of one packet is not heard, and neither is one behind a tail that has left the gate
closed. -/
theorem burst_not_heard :
    ((after tick (squelchOf 20 (by decide)) [strongFrame]).squelchBurstRemain ≤ 0 ∧
      ¬ ClosedBurst (after tick (squelchOf 20 (by decide)) [strongFrame]) [weakFrame, weakFrame]) ∧
    (after tick (squelchOf 50 (by decide))
        [strongFrame, weakFrame, weakFrame, weakFrame, idleFrame]).squelchBurstRemain ≤ 0 ∧
      ¬ ClosedBurst (after tick (squelchOf 50 (by decide))
        [strongFrame, weakFrame, weakFrame, weakFrame, idleFrame])
          [weakFrame, weakFrame, weakFrame] := by
  have hrun : ((after tick (squelchOf 20 (by decide)) [strongFrame]).squelchBurstRemain ≤ 0 ∧
      ((after tick (squelchOf 20 (by decide)) [strongFrame]).out weakFrame).dropFrame = true) ∧
    (after tick (squelchOf 50 (by decide))
        [strongFrame, weakFrame, weakFrame, weakFrame, idleFrame]).squelchBurstRemain ≤ 0 ∧
      ((after tick (squelchOf 50 (by decide))
        [strongFrame, weakFrame, weakFrame, weakFrame, idleFrame]).out weakFrame).dropFrame = true := by
    decide +kernel
  refine ⟨⟨hrun.1.1, ?_⟩, hrun.2.1, ?_⟩
  · rintro ⟨sent, hpos, -, hall⟩
    have hkept := ((hall [] weakFrame [weakFrame] rfl).1 hpos).1
    exact absurd (hkept.symm.trans hrun.1.2) (by decide)
  · rintro ⟨sent, hpos, -, hall⟩
    have hkept := ((hall [] weakFrame [weakFrame, weakFrame] rfl).1 hpos).1
    exact absurd (hkept.symm.trans hrun.2.2) (by decide)

end SquelchDSPModule

end OWalkie
