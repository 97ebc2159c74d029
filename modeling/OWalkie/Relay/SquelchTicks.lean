import OWalkie.Lib.Run
import OWalkie.Relay.DspStages

/-!
# The ticks of the squelch

What `squelchDSPModule.Process` does to its state and to the frame, one lemma for each branch: a
frame on which nobody is heard (`tick_idle`), a weak one behind a closed or an open gate
(`tick_weak_latched`, `tick_weak_open`), and a strong one (`tick_strong`).  The random signs of the
clicks are left open (`Hiss`).
-/

namespace OWalkie

open Run

/-- A frame as it comes to a stage: it has samples, nobody has dropped it or queued a tail, and it
will be sent if somebody is heard. -/
structure SquelchFrame where
  ctx : AudioProcessContext
  mixed_ne : ctx.mixed ≠ []
  kept : ctx.dropFrame = false
  asked : ctx.active = true → ctx.emitFrame = true
  unqueued : ctx.queueSynthSilenceTail = false

namespace SquelchDSPModule

/-- One `Process`. -/
def tick (m : SquelchDSPModule) (x : SquelchFrame) : SquelchDSPModule := (m.process x.ctx).1

/-- What comes out of the frame. -/
def out (m : SquelchDSPModule) (x : SquelchFrame) : AudioProcessContext := (m.process x.ctx).2

/-- Somebody is heard, and weakly. -/
def Weak (cfg : SquelchDSPConfig) (x : SquelchFrame) : Prop :=
  x.ctx.active = true ∧ x.ctx.signal / 255 * 100 ≤ cfg.thresholdPercent

instance (cfg : SquelchDSPConfig) (x : SquelchFrame) : Decidable (Weak cfg x) :=
  inferInstanceAs (Decidable (_ ∧ _))

/-! ## Noise and clicks -/

/-- A click of that sign on a sample, where one is asked for. -/
def click (m : SquelchDSPModule) (asked : Bool) (sign : ℚ) (idx : ℕ) (mixed : List ℚ) : List ℚ :=
  if asked then mixed.modify idx fun x => x + sign * m.cfg.edgeImpulseLinear else mixed

/-- The samples of the frame with the noise of the module, a click on the first sample if `opening`
and one on the last if `closing`. -/
def Hiss (m : SquelchDSPModule) (ctx out : AudioProcessContext) (opening closing : Bool) : Prop :=
  ∃ s ∈ ({1, -1} : Set ℚ), ∃ s' ∈ ({1, -1} : Set ℚ),
    out.mixed = m.click closing s' (ctx.mixed.length - 1) (m.click opening s 0 (m.addHiss ctx.mixed).2)

/-- Clicks are configured. -/
def clicks (m : SquelchDSPModule) : Bool := decide (0 < m.cfg.edgeImpulseLinear)

variable {m : SquelchDSPModule} {mixed : List ℚ}

@[simp] theorem addHiss_length : (m.addHiss mixed).2.length = mixed.length := by
  simp [addHiss]

@[simp] theorem click_length (asked : Bool) (sign : ℚ) (idx : ℕ) :
    (m.click asked sign idx mixed).length = mixed.length := by
  rw [click]
  split <;> simp

theorem addEdgeImpulseSample_eq {idx : ℕ} (hidx : idx < mixed.length) :
    ∃ s ∈ ({1, -1} : Set ℚ), ∃ rand, m.addEdgeImpulseSample idx mixed =
      ({ m with rand := rand }, m.click m.clicks s idx mixed) := by
  by_cases hedge : 0 < m.cfg.edgeImpulseLinear
  · have hno : ¬ (m.cfg.edgeImpulseLinear ≤ 0 ∨ mixed.length ≤ idx) := by
      rw [not_or, not_le, not_le]
      exact ⟨hedge, hidx⟩
    have hclicks : m.clicks = true := decide_eq_true hedge
    refine ⟨if (m.rand.intn 2).1 = 0 then -1 else 1, by split <;> simp, (m.rand.intn 2).2, ?_⟩
    rw [addEdgeImpulseSample, if_neg hno, click, hclicks, if_pos rfl]
  · have hclicks : m.clicks = false := decide_eq_false hedge
    refine ⟨1, by simp, m.rand, ?_⟩
    rw [addEdgeImpulseSample, if_pos (.inl (not_lt.1 hedge)), click, hclicks]
    rfl

theorem getElem?_click (asked : Bool) (sign : ℚ) (idx i : ℕ) :
    (m.click asked sign idx mixed)[i]? =
      if asked = true ∧ idx = i then mixed[i]?.map fun x => x + sign * m.cfg.edgeImpulseLinear
      else mixed[i]? := by
  cases asked with
  | false => simp [click]
  | true =>
    rw [click, if_pos rfl, List.getElem?_modify]
    by_cases hi : idx = i <;> simp [hi]

/-- A click changes the sample. -/
theorem asked_eq_of_click {asked asked' : Bool} {s s' x : ℚ} (hedge : 0 < m.cfg.edgeImpulseLinear)
    (hs : s ∈ ({1, -1} : Set ℚ)) (hs' : s' ∈ ({1, -1} : Set ℚ))
    (h : (if asked then x + s * m.cfg.edgeImpulseLinear else x) =
      if asked' then x + s' * m.cfg.edgeImpulseLinear else x) : asked = asked' := by
  have hne : ∀ t ∈ ({1, -1} : Set ℚ), t * m.cfg.edgeImpulseLinear ≠ 0 := by
    rintro t (rfl | rfl)
    · simpa using hedge.ne'
    · simpa using hedge.ne'
  cases asked <;> cases asked'
  · rfl
  · exact absurd (by simpa using h) (hne s' hs')
  · exact absurd (by simpa using h) (hne s hs)
  · rfl

/-- The clicks of a frame can be read off its samples. -/
theorem Hiss.unique {ctx out : AudioProcessContext} {opening closing opening' closing' : Bool}
    (hedge : 0 < m.cfg.edgeImpulseLinear) (hlen : 2 ≤ ctx.mixed.length)
    (h : Hiss m ctx out opening closing) (h' : Hiss m ctx out opening' closing') :
    opening = opening' ∧ closing = closing' := by
  obtain ⟨s, hs, t, ht, hout⟩ := h
  obtain ⟨s', hs', t', ht', hout'⟩ := h'
  have heq := hout.symm.trans hout'
  have hbase : (m.addHiss ctx.mixed).2.length = ctx.mixed.length := addHiss_length
  have hfirst := congrArg (fun l => l[0]?) heq
  have hlast := congrArg (fun l => l[ctx.mixed.length - 1]?) heq
  have hne : ctx.mixed.length - 1 ≠ 0 := by omega
  simp only [getElem?_click, hne, hne.symm, and_false, and_true, if_false] at hfirst hlast
  rw [List.getElem?_eq_getElem (by omega), Option.map_some, Option.map_some, ← apply_ite, ← apply_ite]
    at hfirst hlast
  exact ⟨asked_eq_of_click hedge hs hs' (Option.some.inj hfirst),
    asked_eq_of_click hedge ht ht' (Option.some.inj hlast)⟩

/-- What a burst of that range has left on the frame. -/
def burstLeft (minMs maxMs : ℤ) (m : SquelchDSPModule) : ℤ :=
  if m.squelchBurstRemain ≤ 0 then (randomDurationMs minMs maxMs m.rand).1 else m.squelchBurstRemain

theorem startBurst_eq (minMs maxMs : ℤ) (m : SquelchDSPModule) :
    ∃ rand, m.startBurst minMs maxMs =
      ({ m with squelchBurstRemain := m.burstLeft minMs maxMs, rand := rand },
        decide (m.squelchBurstRemain ≤ 0)) := by
  by_cases h : m.squelchBurstRemain ≤ 0
  · exact ⟨(randomDurationMs minMs maxMs m.rand).2, by
      rw [startBurst, if_pos h, burstLeft, if_pos h, decide_eq_true h]⟩
  · exact ⟨m.rand, by rw [startBurst, if_neg h, burstLeft, if_neg h, decide_eq_false h]⟩

theorem burst_eq (started : Bool) (hne : mixed ≠ []) (m : SquelchDSPModule) :
    ∃ s ∈ ({1, -1} : Set ℚ), ∃ rand used, m.burst started mixed =
      ({ m with whiteUsed := used, rand := rand },
        m.click (started && m.clicks) s 0 (m.addHiss mixed).2) := by
  rw [burst]
  cases started with
  | false => exact ⟨1, by simp, m.rand, _, rfl⟩
  | true =>
    have hpos : 0 < (m.addHiss mixed).2.length := by
      rw [addHiss_length]
      exact List.length_pos_iff.2 hne
    obtain ⟨s, hs, rand, heq⟩ := @addEdgeImpulseSample_eq (m.addHiss mixed).1 _ 0 hpos
    exact ⟨s, hs, rand, m.whiteUsed + mixed.length, heq⟩

/-! ## The ticks of a weak signal -/

variable {x : SquelchFrame}

theorem process_weak (hx : Weak m.cfg x) :
    m.process x.ctx = { m with lastActive := true }.processWeak x.ctx := by
  have hactive : ¬ x.ctx.active = false := by simp [hx.1]
  rw [process, if_neg hactive]
  exact if_pos hx.2

/-- The gate is closed. -/
theorem tick_weak_latched (hx : Weak m.cfg x) (h : m.squelchLatched = true) :
    m.tick x = { m with lastActive := true } ∧ m.out x = { x.ctx with dropFrame := true } := by
  have hprocess :
      m.process x.ctx = ({ m with lastActive := true }, { x.ctx with dropFrame := true }) := by
    rw [process_weak hx, processWeak]
    exact if_pos h
  rw [tick, out, hprocess]
  exact ⟨rfl, rfl⟩

/-- The steps of `processWeak`, from what each of them gives. -/
theorem processWeak_eq {ctx : AudioProcessContext} {m m₁ m₂ m₃ : SquelchDSPModule} {started : Bool}
    {mixed₂ mixed₃ : List ℚ} {after : ℤ} (h : m.squelchLatched = false)
    (hstart : m.startBurst m.cfg.squelchMinMs m.cfg.squelchMaxMs = (m₁, started))
    (hafter : m₁.squelchBurstRemain - m₁.frameDuration = after)
    (hburst : m₁.burst started ctx.mixed = (m₂, mixed₂))
    (hclose : (if 0 < after ∧ after ≤ m₂.frameDuration then
      { m₂ with squelchBurstRemain := after }.addEdgeImpulseSample (mixed₂.length - 1) mixed₂
      else ({ m₂ with squelchBurstRemain := after }, mixed₂)) = (m₃, mixed₃)) :
    m.processWeak ctx = if after ≤ 0 then
      ({ m₃ with squelchLatched := true }, { ctx with mixed := mixed₃, dropFrame := true })
      else (m₃, { ctx with mixed := mixed₃ }) := by
  rw [processWeak, if_neg (Bool.eq_false_iff.1 h), hstart]
  dsimp only
  rw [hburst, hafter]
  dsimp only
  rw [hclose]

/-- The gate is open: the packet is taken off what is left of the burst. -/
theorem tick_weak_open (hx : Weak m.cfg x) (h : m.squelchLatched = false) {after : ℤ}
    (hafter : m.burstLeft m.cfg.squelchMinMs m.cfg.squelchMaxMs - m.frameDuration = after) :
    (∃ rand used, m.tick x = { m with
      whiteUsed := used
      rand := rand
      squelchBurstRemain := after
      squelchLatched := decide (after ≤ 0)
      lastActive := true }) ∧
    (m.out x).dropFrame = decide (after ≤ 0) ∧ (m.out x).emitFrame = true ∧
      Hiss m x.ctx (m.out x) (decide (m.squelchBurstRemain ≤ 0) && m.clicks)
        (decide (0 < after ∧ after ≤ m.frameDuration) && m.clicks) := by
  obtain ⟨rand₁, hstart⟩ :=
    startBurst_eq m.cfg.squelchMinMs m.cfg.squelchMaxMs { m with lastActive := true }
  obtain ⟨s, hs, rand₂, used, hburst⟩ := burst_eq (decide (m.squelchBurstRemain ≤ 0)) x.mixed_ne
    { m with
      squelchBurstRemain := m.burstLeft m.cfg.squelchMinMs m.cfg.squelchMaxMs
      rand := rand₁
      lastActive := true }
  -- the closing click, where there is one
  obtain ⟨s', hs', rand₃, hclose⟩ : ∃ s' ∈ ({1, -1} : Set ℚ), ∃ rand₃,
      (if 0 < after ∧ after ≤ m.frameDuration then
        { m with
          whiteUsed := used, squelchBurstRemain := after, rand := rand₂
          lastActive := true }.addEdgeImpulseSample
          ((m.click (decide (m.squelchBurstRemain ≤ 0) && m.clicks) s 0
            (m.addHiss x.ctx.mixed).2).length - 1)
          (m.click (decide (m.squelchBurstRemain ≤ 0) && m.clicks) s 0 (m.addHiss x.ctx.mixed).2)
        else ({ m with
          whiteUsed := used, squelchBurstRemain := after, rand := rand₂, lastActive := true },
          m.click (decide (m.squelchBurstRemain ≤ 0) && m.clicks) s 0 (m.addHiss x.ctx.mixed).2)) =
      ({ m with
        whiteUsed := used, squelchBurstRemain := after, rand := rand₃, lastActive := true },
        m.click (decide (0 < after ∧ after ≤ m.frameDuration) && m.clicks) s' (x.ctx.mixed.length - 1)
          (m.click (decide (m.squelchBurstRemain ≤ 0) && m.clicks) s 0 (m.addHiss x.ctx.mixed).2)) := by
    by_cases hlast : 0 < after ∧ after ≤ m.frameDuration
    · have hidx : x.ctx.mixed.length - 1 <
          (m.click (decide (m.squelchBurstRemain ≤ 0) && m.clicks) s 0
            (m.addHiss x.ctx.mixed).2).length := by
        have hpos := List.length_pos_iff.2 x.mixed_ne
        rw [click_length, addHiss_length]
        omega
      obtain ⟨s', hs', rand₃, heq⟩ := @addEdgeImpulseSample_eq
        { m with
          whiteUsed := used, squelchBurstRemain := after, rand := rand₂, lastActive := true } _ _ hidx
      refine ⟨s', hs', rand₃, ?_⟩
      rw [if_pos hlast, decide_eq_true hlast, Bool.true_and, click_length, addHiss_length]
      exact heq
    · exact ⟨1, by simp, rand₂, by rw [if_neg hlast, decide_eq_false hlast]; rfl⟩
  have hprocess := (process_weak hx).trans (processWeak_eq h hstart hafter hburst hclose)
  rw [tick, out, hprocess]
  by_cases hdrop : after ≤ 0
  · rw [if_pos hdrop, decide_eq_true hdrop]
    exact ⟨⟨rand₃, used, rfl⟩, rfl, x.asked hx.1, s, hs, s', hs', rfl⟩
  · rw [if_neg hdrop, decide_eq_false hdrop]
    exact ⟨⟨rand₃, used, by rw [h]⟩, x.kept, x.asked hx.1, s, hs, s', hs', rfl⟩

/-! ## Frames that are not weak -/

theorem randomDurationMs_mem {minMs maxMs : ℤ} (h : minMs ≤ maxMs) (r : Rand) :
    minMs * millisecond ≤ (randomDurationMs minMs maxMs r).1 ∧
      (randomDurationMs minMs maxMs r).1 ≤ maxMs * millisecond := by
  have hms : (0 : ℤ) < millisecond := by decide
  rw [randomDurationMs]
  by_cases heq : maxMs ≤ minMs
  · rw [if_pos heq]
    exact ⟨le_rfl, mul_le_mul_of_nonneg_right h hms.le⟩
  rw [if_neg heq]
  have hlt : r.draws r.used % (maxMs - minMs + 1).toNat < (maxMs - minMs + 1).toNat :=
    Nat.mod_lt _ (by omega)
  constructor
  · exact mul_le_mul_of_nonneg_right (by show minMs ≤ minMs + _; omega) hms.le
  · refine mul_le_mul_of_nonneg_right ?_ hms.le
    show minMs + ((r.draws r.used % (maxMs - minMs + 1).toNat : ℕ) : ℤ) ≤ maxMs
    omega

/-- What is left of a tail on a frame on which nobody is heard. -/
def tailLeft (m : SquelchDSPModule) (txEOF : Bool) : ℤ :=
  if txEOF || m.lastActive then m.burstLeft m.cfg.tailMinMs m.cfg.tailMaxMs
  else m.squelchBurstRemain

theorem burstLeft_tail_pos (m : SquelchDSPModule) :
    0 < m.burstLeft m.cfg.tailMinMs m.cfg.tailMaxMs := by
  rw [burstLeft]
  split
  · have hmin := (randomDurationMs_mem m.cfg.tailMs.2 m.rand).1
    have hpos : 0 < m.cfg.tailMinMs * millisecond := mul_pos m.cfg.tailMs.1 (by decide)
    omega
  · omega

/-- The steps of `processIdle`, from what each of them gives. -/
theorem processIdle_eq {ctx : AudioProcessContext} {m m₁ m₂ : SquelchDSPModule} {started : Bool}
    {mixed₂ : List ℚ} {left : ℤ}
    (hstart : (if ctx.control.txEOF || m.lastActive then
      m.startBurst m.cfg.tailMinMs m.cfg.tailMaxMs else (m, false)) = (m₁, started))
    (hleft : m₁.squelchBurstRemain = left)
    (hburst : { m₁ with lastActive := false }.burst started ctx.mixed = (m₂, mixed₂)) :
    m.processIdle ctx =
      if 0 < left then
        if left - m₁.frameDuration ≤ 0 then
          ({ (m₂.addEdgeImpulseSample (mixed₂.length - 1) mixed₂).1 with squelchBurstRemain := 0 },
            { ctx with
              mixed := (m₂.addEdgeImpulseSample (mixed₂.length - 1) mixed₂).2
              squelchHissJustEnded := true
              queueSynthSilenceTail := true
              emitFrame := true })
        else ({ m₂ with squelchBurstRemain := left - m₁.frameDuration },
          { ctx with mixed := mixed₂, emitFrame := true })
      else ({ m₁ with lastActive := false, squelchLatched := false },
        { ctx with emitFrame := false }) := by
  subst hleft
  rw [processIdle]
  dsimp only
  rw [hstart]
  dsimp only
  rw [hburst]

/-- The start of a tail, if one starts. -/
theorem startTail_eq (m : SquelchDSPModule) (txEOF : Bool) :
    ∃ rand, (if txEOF || m.lastActive then m.startBurst m.cfg.tailMinMs m.cfg.tailMaxMs
        else (m, false)) =
      ({ m with squelchBurstRemain := m.tailLeft txEOF, rand := rand },
        (txEOF || m.lastActive) && decide (m.squelchBurstRemain ≤ 0)) := by
  by_cases hend : (txEOF || m.lastActive) = true
  · obtain ⟨rand, heq⟩ := startBurst_eq m.cfg.tailMinMs m.cfg.tailMaxMs m
    exact ⟨rand, by rw [if_pos hend, heq, tailLeft, if_pos hend, hend, Bool.true_and]⟩
  · refine ⟨m.rand, ?_⟩
    rw [if_neg hend, tailLeft, if_neg hend, Bool.eq_false_iff.2 hend, Bool.false_and]

theorem process_idle_eq (hx : x.ctx.active = false) : m.process x.ctx = m.processIdle x.ctx :=
  if_pos hx

/-- Nobody is heard, and a tail starts or goes on. -/
theorem tick_tail (hx : x.ctx.active = false) {left : ℤ}
    (hleft : m.tailLeft x.ctx.control.txEOF = left) (hpos : 0 < left) :
    (∃ rand used, m.tick x = { m with
      whiteUsed := used
      rand := rand
      squelchBurstRemain := max 0 (left - m.frameDuration)
      lastActive := false }) ∧
    (m.out x).dropFrame = false ∧ (m.out x).emitFrame = true ∧
      (m.out x).queueSynthSilenceTail = decide (left ≤ m.frameDuration) ∧
      ∃ opening closing, Hiss m x.ctx (m.out x) opening closing := by
  obtain ⟨rand₁, hstart⟩ := startTail_eq m x.ctx.control.txEOF
  obtain ⟨s, hs, rand₂, used, hburst⟩ := burst_eq
    ((x.ctx.control.txEOF || m.lastActive) && decide (m.squelchBurstRemain ≤ 0)) x.mixed_ne
    { m with
      squelchBurstRemain := m.tailLeft x.ctx.control.txEOF, rand := rand₁, lastActive := false }
  have hprocess := (process_idle_eq hx).trans (processIdle_eq hstart hleft hburst)
  rw [tick, out, hprocess, if_pos hpos]
  by_cases hlast : left - m.frameDuration ≤ 0
  · have hmax : max 0 (left - m.frameDuration) = 0 := max_eq_left hlast
    have hidx : x.ctx.mixed.length - 1 < (m.click (((x.ctx.control.txEOF || m.lastActive) &&
        decide (m.squelchBurstRemain ≤ 0)) && m.clicks) s 0 (m.addHiss x.ctx.mixed).2).length := by
      have hlen := List.length_pos_iff.2 x.mixed_ne
      rw [click_length, addHiss_length]
      omega
    obtain ⟨s', hs', rand₃, hclose⟩ := @addEdgeImpulseSample_eq
      { m with
        whiteUsed := used
        squelchBurstRemain := m.tailLeft x.ctx.control.txEOF
        rand := rand₂
        lastActive := false } _ _ hidx
    have hlen : (m.click (((x.ctx.control.txEOF || m.lastActive) &&
        decide (m.squelchBurstRemain ≤ 0)) && m.clicks) s 0 (m.addHiss x.ctx.mixed).2).length =
          x.ctx.mixed.length := by
      rw [click_length, addHiss_length]
    rw [← hlen] at hclose
    rw [if_pos hlast, hmax]
    refine ⟨⟨rand₃, used, ?_⟩, x.kept, rfl, (decide_eq_true (by omega)).symm,
      ((x.ctx.control.txEOF || m.lastActive) && decide (m.squelchBurstRemain ≤ 0)) && m.clicks,
      m.clicks, s, hs, s', hs', ?_⟩
    · exact congrArg (fun r => { r.1 with squelchBurstRemain := 0 }) hclose
    · rw [← hlen]
      exact congrArg Prod.snd hclose
  · have hmax : max 0 (left - m.frameDuration) = left - m.frameDuration :=
      max_eq_right (not_le.1 hlast).le
    rw [if_neg hlast, hmax]
    refine ⟨⟨rand₂, used, rfl⟩, x.kept, rfl, ?_, _, false, s, hs, 1, by simp, rfl⟩
    exact x.unqueued.trans (decide_eq_false (by omega)).symm

/-- A tail that starts has a length. -/
theorem not_end_of_tailLeft {txEOF : Bool} (h : m.tailLeft txEOF ≤ 0) :
    ¬ (txEOF || m.lastActive) = true := by
  intro hend
  rw [tailLeft, if_pos hend] at h
  exact absurd m.burstLeft_tail_pos (not_lt.2 h)

/-- Nobody is heard, and there is no tail. -/
theorem tick_silent (hx : x.ctx.active = false) (hno : m.tailLeft x.ctx.control.txEOF ≤ 0) :
    m.tick x = { m with squelchLatched := false, lastActive := false } ∧
      m.out x = { x.ctx with emitFrame := false } := by
  have hend := not_end_of_tailLeft hno
  rw [tailLeft, if_neg hend] at hno
  have hstart : (if x.ctx.control.txEOF || m.lastActive then
      m.startBurst m.cfg.tailMinMs m.cfg.tailMaxMs else (m, false)) = (m, false) := if_neg hend
  have hprocess := (process_idle_eq hx).trans
    (@processIdle_eq x.ctx m m _ false _ _ hstart rfl rfl)
  rw [tick, out, hprocess, if_neg (not_lt.2 hno)]
  exact ⟨rfl, rfl⟩

/-- Somebody is heard well. -/
theorem tick_strong (hactive : x.ctx.active = true) (hx : ¬ Weak m.cfg x) :
    m.tick x = { m with lastActive := true, squelchLatched := false, squelchBurstRemain := 0 } ∧
      m.out x = x.ctx := by
  have hno : ¬ x.ctx.active = false := by simp [hactive]
  have hstrong : ¬ x.ctx.signal / 255 * 100 ≤ m.cfg.thresholdPercent := fun h => hx ⟨hactive, h⟩
  have hprocess : m.process x.ctx =
      ({ m with lastActive := true, squelchLatched := false, squelchBurstRemain := 0 }, x.ctx) := by
    rw [process, if_neg hno]
    exact if_neg hstrong
  rw [tick, out, hprocess]
  exact ⟨rfl, rfl⟩

/-- No tick changes the configuration or the length of a frame. -/
theorem tick_cfg (m : SquelchDSPModule) (x : SquelchFrame) :
    (m.tick x).cfg = m.cfg ∧ (m.tick x).frameDuration = m.frameDuration := by
  by_cases hactive : x.ctx.active = true
  · by_cases hx : Weak m.cfg x
    · by_cases hlatched : m.squelchLatched = true
      · rw [(tick_weak_latched hx hlatched).1]
        exact ⟨rfl, rfl⟩
      · obtain ⟨⟨rand, used, htick⟩, -⟩ := tick_weak_open hx (Bool.eq_false_iff.2 hlatched) rfl
        rw [htick]
        exact ⟨rfl, rfl⟩
    · rw [(tick_strong hactive hx).1]
      exact ⟨rfl, rfl⟩
  · by_cases hpos : 0 < m.tailLeft x.ctx.control.txEOF
    · obtain ⟨⟨rand, used, htick⟩, -⟩ := tick_tail (Bool.eq_false_iff.2 hactive) rfl hpos
      rw [htick]
      exact ⟨rfl, rfl⟩
    · rw [(tick_silent (Bool.eq_false_iff.2 hactive) (not_lt.1 hpos)).1]
      exact ⟨rfl, rfl⟩

theorem after_cfg (m : SquelchDSPModule) (xs : List SquelchFrame) :
    (after tick m xs).cfg = m.cfg ∧ (after tick m xs).frameDuration = m.frameDuration := by
  refine invariant (I := fun m' : SquelchDSPModule => m'.cfg = m.cfg ∧
    m'.frameDuration = m.frameDuration) (fun m' x h => ?_) ⟨rfl, rfl⟩ xs
  exact ⟨(m'.tick_cfg x).1.trans h.1, (m'.tick_cfg x).2.trans h.2⟩

end SquelchDSPModule

end OWalkie
