import OWalkie.Clients.SignalFormat
import OWalkie.Lib.Run

/-!
# The editor of custom signals

`SignalPatternEditorDialog` keeps the total duration of a signal within a limit, and computes it
with `int`s.  `saves_within`: a signal that it saves is within the limit unless its true total is
beyond an `int`, and it takes an addition, a replacement or a paste with such a total to get there.
-/

namespace OWalkie

open Run Signal SignalClipboard

def kMaxRogerCustomSignalMs : ℤ := 1000

def kMaxCallCustomSignalMs : ℤ := 5000

/-- `callKind_ ? kMaxCallCustomSignalMs : kMaxRogerCustomSignalMs` -/
def limitMs (callKind : Bool) : ℤ :=
  if callKind then kMaxCallCustomSignalMs else kMaxRogerCustomSignalMs

theorem limitMs_le (callKind : Bool) : limitMs callKind ≤ 5000 := by
  cases callKind <;> decide

structure SignalPattern extends WindowsPattern where
  id : String := ""
  name : String := ""

def cycleMs (points : List Point) : ℤ := (points.map (·.durationMs)).sum

/-- The duration of a signal. -/
def SignalPattern.totalMs (p : SignalPattern) : ℤ := cycleMs p.points * p.repeatCount

structure SignalPatternEditorDialog where
  callKind : Bool
  editingId : String := ""
  name : String := ""
  points : List Point := []
  repeatSpin : ℤ := 1

/-- `wxString::Trim`: blanks at the end. -/
def trimRight (s : String) : String :=
  .ofList (s.toList.rdropWhile fun c => c = ' ' ∨ '\t' ≤ c ∧ c ≤ '\r')

namespace SignalPatternEditorDialog

/-- The constructor. -/
def new (callKind : Bool) (editOf : Option SignalPattern) : SignalPatternEditorDialog :=
  match editOf with
  | none => { callKind := callKind }
  | some p =>
    if p.id = "" then { callKind := callKind }
    else
      { callKind := callKind
        editingId := p.id
        name := p.name
        points := p.points
        repeatSpin := if callKind then max 1 (min 500 p.repeatCount) else 1 }

variable (s : SignalPatternEditorDialog)

def CycleDurationMs : ℤ := sumOf (·.durationMs) s.points

def RepeatCountOr1 : ℤ := if s.callKind then max 1 s.repeatSpin else 1

def EffectiveTotalMs : ℤ := toInt (s.CycleDurationMs * s.RepeatCountOr1)

def AppendPointFromInputs (freqHz : ℚ) (durationMs : ℤ) : Except String SignalPatternEditorDialog :=
  if durationMs ≤ 0 then .error "Duration must be positive."
  else if freqHz < 0 then .error "Frequency cannot be negative."
  else
    let cycleAfter := toInt (s.CycleDurationMs + durationMs)
    if limitMs s.callKind < toInt (cycleAfter * s.RepeatCountOr1) then
      .error "Total duration would exceed limit."
    else .ok { s with points := s.points ++ [⟨freqHz, durationMs⟩] }

def ReplacePointFromInputs (idx : ℕ) (freqHz : ℚ) (durationMs : ℤ) :
    Except String SignalPatternEditorDialog :=
  match s.points[idx]? with
  | none => .error "Invalid selection."
  | some old =>
    if durationMs ≤ 0 then .error "Duration must be positive."
    else if freqHz < 0 then .error "Frequency cannot be negative."
    else
      let newCycle := toInt (toInt (s.CycleDurationMs - old.durationMs) + durationMs)
      if limitMs s.callKind < toInt (newCycle * s.RepeatCountOr1) then
        .error "Total duration would exceed limit."
      else .ok { s with points := s.points.set idx ⟨freqHz, durationMs⟩ }

/-- The repeat count that `OnPasteSequence` takes over. -/
def pastedRepeat (parsed : Payload) : ℤ :=
  if s.callKind then min 500 (max 1 parsed.repeatCount) else 1

/-- `OnPasteSequence`, once the text of the clipboard is there. -/
def OnPasteSequence (readers : Readers) (text : List Char) :
    Except String SignalPatternEditorDialog :=
  match ParseSignalSequenceFromClipboardText readers text with
  | none => .error "No valid O-Walkie signal data in the clipboard."
  | some parsed =>
    let rep := s.pastedRepeat parsed
    if limitMs s.callKind < toInt (sumOf (·.durationMs) parsed.points * rep) then
      .error "Total duration would exceed limit."
    else
      .ok { s with
        name := parsed.name
        points := parsed.points
        repeatSpin := if s.callKind then rep else s.repeatSpin }

def OnRemove (sel : ℕ) : SignalPatternEditorDialog := { s with points := s.points.eraseIdx sel }

def OnTrySave : Except String SignalPattern :=
  if trimRight s.name = "" then .error "Name is required."
  else if s.points = [] then .error "Add at least one segment."
  else if s.callKind ∧ s.repeatSpin < 1 then .error "Repeat count must be at least 1."
  else if limitMs s.callKind < s.EffectiveTotalMs then .error "Total duration exceeds limit."
  else
    .ok
      { id := s.editingId
        name := trimRight s.name
        points := s.points
        repeatCount := if s.callKind then s.RepeatCountOr1 else 1
        appendTail := !s.callKind }

end SignalPatternEditorDialog

/-- What the user does in the dialog; a duration is what `PromptSegmentFields` has read. -/
inductive EditorAction where
  | OnAdd (freqHz : ℚ) (durL : ℤ)
  | OpenEditForSelectedSegment (sel : ℕ) (freqHz : ℚ) (durL : ℤ)
  | OnRemove (sel : ℕ)
  | OnPasteSequence (text : List Char)
  | setName (name : String)
  /-- the spin control keeps to its range -/
  | setRepeat (n : ℤ)

namespace SignalPatternEditorDialog

/-- What is refused leaves the dialog as it is. -/
def act (readers : Readers) (s : SignalPatternEditorDialog) :
    EditorAction → Except String SignalPatternEditorDialog
  | .OnAdd freqHz durL => s.AppendPointFromInputs freqHz (toInt durL)
  | .OpenEditForSelectedSegment sel freqHz durL => s.ReplacePointFromInputs sel freqHz (toInt durL)
  | .OnRemove sel => .ok (s.OnRemove sel)
  | .OnPasteSequence text => s.OnPasteSequence readers text
  | .setName name => .ok { s with name := name }
  | .setRepeat n => .ok { s with repeatSpin := max 1 (min 500 n) }

def step (readers : Readers) (s : SignalPatternEditorDialog) (a : EditorAction) :
    SignalPatternEditorDialog :=
  match s.act readers a with
  | .ok s' => s'
  | .error _ => s

/-- The duration of the signal in the dialog. -/
def totalMs (s : SignalPatternEditorDialog) : ℤ := cycleMs s.points * s.RepeatCountOr1

/-- The segments and the repeat count whose total an action has to check. -/
def candidate (readers : Readers) (s : SignalPatternEditorDialog) :
    EditorAction → Option (List Point × ℤ)
  | .OnAdd freqHz durL => some (s.points ++ [⟨freqHz, toInt durL⟩], s.RepeatCountOr1)
  | .OpenEditForSelectedSegment sel freqHz durL =>
    if sel < s.points.length then some (s.points.set sel ⟨freqHz, toInt durL⟩, s.RepeatCountOr1)
    else none
  | .OnPasteSequence text =>
    (ParseSignalSequenceFromClipboardText readers text).map fun parsed =>
      (parsed.points, s.pastedRepeat parsed)
  | _ => none

/-- The total that the action has to check is an `int`. -/
def Fits (readers : Readers) (s : SignalPatternEditorDialog) (a : EditorAction) : Prop :=
  ∀ points rep, s.candidate readers a = some (points, rep) → cycleMs points * rep < 2 ^ 31

instance (readers : Readers) (s : SignalPatternEditorDialog) (a : EditorAction) :
    Decidable (s.Fits readers a) :=
  decidable_of_iff (∀ c ∈ s.candidate readers a, cycleMs c.1 * c.2 < 2 ^ 31)
    ⟨fun h points rep hc => h (points, rep) hc, fun h c hc => h c.1 c.2 hc⟩

end SignalPatternEditorDialog

/-! ## `int`s -/

/-- What a check of the wrapped value says about the true one. -/
theorem le_iff_of_toInt_le {x limit : ℤ} (hlimit : limit < 2 ^ 31) (h : toInt x ≤ limit) :
    x ≤ limit ↔ x < 2 ^ 31 := by
  refine ⟨fun hle => hle.trans_lt hlimit, fun hlt => ?_⟩
  by_cases hlow : -2 ^ 31 ≤ x
  · have hfits : toInt x = x := by apply Int.bmod_eq_of_le <;> omega
    exact hfits ▸ h
  · rcases le_or_gt x limit with hle | hgt
    · exact hle
    · -- `limit` would be smaller than every `int`
      have hmin : -2 ^ 31 ≤ toInt x := Int.le_bmod (x := x) (show 0 < 2 ^ 32 by decide)
      omega

/-! ## Segments -/

theorem cycleMs_append (xs ys : List Point) : cycleMs (xs ++ ys) = cycleMs xs + cycleMs ys := by
  rw [cycleMs, List.map_append, List.sum_append]
  rfl

/-- No duration is negative. -/
def Nonneg (points : List Point) : Prop := ∀ p ∈ points, 0 ≤ p.durationMs

theorem Nonneg.cycleMs_nonneg {points : List Point} (h : Nonneg points) : 0 ≤ cycleMs points := by
  apply List.sum_nonneg
  rintro x hx
  obtain ⟨p, hp, rfl⟩ := List.mem_map.1 hx
  exact h p hp

theorem cycleMs_sublist {xs ys : List Point} (hsub : xs.Sublist ys) (h : Nonneg ys) :
    cycleMs xs ≤ cycleMs ys := by
  induction hsub with
  | slnil => exact le_rfl
  | cons p hsub ih =>
    have hhead := h p List.mem_cons_self
    have htail := ih fun q hq => h q (List.mem_cons_of_mem _ hq)
    simp only [cycleMs, List.map_cons, List.sum_cons] at htail ⊢
    omega
  | cons_cons p hsub ih =>
    have htail := ih fun q hq => h q (List.mem_cons_of_mem _ hq)
    simp only [cycleMs, List.map_cons, List.sum_cons] at htail ⊢
    omega

theorem cycleMs_set {points : List Point} {idx : ℕ} {old : Point} (h : points[idx]? = some old)
    (p : Point) : cycleMs (points.set idx p) = cycleMs points - old.durationMs + p.durationMs := by
  induction points generalizing idx with
  | nil => cases h
  | cons q points ih =>
    cases idx with
    | zero =>
      obtain rfl := Option.some.inj h
      simp only [cycleMs, List.set_cons_zero, List.map_cons, List.sum_cons]
      omega
    | succ idx =>
      have htail := @ih idx h
      simp only [cycleMs, List.set_cons_succ, List.map_cons, List.sum_cons] at htail ⊢
      omega

/-! ## Pasted segments -/

theorem fillPoint_pos {pt : Json} {p : Point} (h : fillPoint pt = some p) : 0 < p.durationMs := by
  cases pt with
  | obj members =>
    obtain ⟨f, -, h⟩ := Option.bind_eq_some_iff.1 h
    obtain ⟨d, -, h⟩ := Option.bind_eq_some_iff.1 h
    split_ifs at h with hrefused
    obtain rfl := Option.some.inj h
    rw [not_or, not_le] at hrefused
    exact hrefused.2
  | _ => cases h

theorem mapM_fillPoint_pos {elems : List Json} {points : List Point}
    (h : elems.mapM fillPoint = some points) : ∀ p ∈ points, 0 < p.durationMs := by
  intro p hp
  induction elems generalizing points with
  | nil =>
    obtain rfl := Option.some.inj h
    cases hp
  | cons e elems ih =>
    rw [List.mapM_cons] at h
    obtain ⟨q, hq, h⟩ := Option.bind_eq_some_iff.1 h
    obtain ⟨qs, hqs, h⟩ := Option.bind_eq_some_iff.1 h
    obtain rfl := Option.some.inj h
    rcases List.mem_cons.1 hp with rfl | hp
    · exact fillPoint_pos hq
    · exact ih hqs hp

theorem fillPoints_pos {arr : Option Json} {points : List Point}
    (h : FillPointsFromJsonArray arr = some points) : ∀ p ∈ points, 0 < p.durationMs := by
  unfold FillPointsFromJsonArray at h
  split at h
  case h_1 elems =>
    obtain ⟨pts, hpts, h⟩ := Option.bind_eq_some_iff.1 h
    split_ifs at h
    obtain rfl := Option.some.inj h
    exact mapM_fillPoint_pos hpts
  case h_2 => cases h

theorem signalSequenceEnvelope_pos {j : Json} {parsed : Payload}
    (h : signalSequenceEnvelope j = some parsed) : ∀ p ∈ parsed.points, 0 < p.durationMs := by
  unfold signalSequenceEnvelope at h
  split at h
  case h_1 members _ =>
    obtain ⟨ver, -, h⟩ := Option.bind_eq_some_iff.1 h
    split_ifs at h
    obtain ⟨pts, hpts, h⟩ := Option.bind_eq_some_iff.1 h
    obtain ⟨name, -, h⟩ := Option.bind_eq_some_iff.1 h
    obtain rfl := Option.some.inj h
    exact fillPoints_pos hpts
  case h_2 magic _ _ =>
    split_ifs at h
    obtain ⟨ver, -, h⟩ := Option.bind_eq_some_iff.1 h
    split_ifs at h
    obtain ⟨pts, hpts, h⟩ := Option.bind_eq_some_iff.1 h
    obtain ⟨name, -, h⟩ := Option.bind_eq_some_iff.1 h
    obtain rfl := Option.some.inj h
    exact fillPoints_pos hpts
  case h_3 => cases h

/-- Whatever the clipboard holds, the segments that are pasted have positive durations. -/
theorem parsed_pos {readers : Readers} {text : List Char} {parsed : Payload}
    (h : ParseSignalSequenceFromClipboardText readers text = some parsed) :
    ∀ p ∈ parsed.points, 0 < p.durationMs := by
  have henvelope : ∀ fragment, TryParseSignalSequenceEnvelope readers fragment = some parsed →
      ∀ p ∈ parsed.points, 0 < p.durationMs := by
    intro fragment hfragment
    obtain ⟨j, -, hj⟩ := Option.bind_eq_some_iff.1 hfragment
    exact signalSequenceEnvelope_pos hj
  rcases Option.or_eq_some_iff.1 h with hwhole | ⟨-, hinner⟩
  · exact henvelope text hwhole
  · obtain ⟨fragment, -, hfragment⟩ := List.exists_of_findSome?_eq_some hinner
    exact henvelope fragment hfragment

namespace SignalPatternEditorDialog

variable {readers : Readers} {s s' : SignalPatternEditorDialog} {a : EditorAction}

theorem CycleDurationMs_eq (s : SignalPatternEditorDialog) :
    s.CycleDurationMs = toInt (cycleMs s.points) := sumOf_eq _ _

theorem EffectiveTotalMs_eq (s : SignalPatternEditorDialog) :
    s.EffectiveTotalMs = toInt s.totalMs := by
  rw [EffectiveTotalMs, CycleDurationMs_eq, toInt_mul, totalMs]

/-- What an action of the dialog can do: it takes over what it has checked, or it takes segments
away, if anything. -/
theorem act_cases (h : s.act readers a = .ok s') :
    (∃ points rep, s.candidate readers a = some (points, rep) ∧ s'.points = points ∧
        s'.RepeatCountOr1 = rep ∧ toInt (cycleMs points * rep) ≤ limitMs s.callKind ∧
        ∀ p ∈ points, p ∈ s.points ∨ 0 < p.durationMs) ∨
      s'.points.Sublist s.points := by
  cases a with
  | OnAdd freqHz durL =>
    simp only [act, AppendPointFromInputs] at h
    split_ifs at h with hdur hfreq hlimit
    cases h
    rw [CycleDurationMs_eq, toInt_add, toInt_mul, not_lt] at hlimit
    refine .inl ⟨_, _, rfl, rfl, rfl, ?_, ?_⟩
    · rw [cycleMs_append]
      simpa [cycleMs] using hlimit
    · intro p hp
      rcases List.mem_append.1 hp with hp | hp
      · exact .inl hp
      · rw [List.mem_singleton.1 hp]
        exact .inr (not_le.1 hdur)
  | OpenEditForSelectedSegment sel freqHz durL =>
    simp only [act, ReplacePointFromInputs] at h
    cases hold : s.points[sel]? with
    | none =>
      rw [hold] at h
      cases h
    | some old =>
      rw [hold] at h
      dsimp only at h
      split_ifs at h with hdur hfreq hlimit
      cases h
      have hlt : sel < s.points.length := (List.getElem?_eq_some_iff.1 hold).1
      rw [CycleDurationMs_eq, toInt_sub, toInt_add, toInt_mul, not_lt] at hlimit
      refine .inl ⟨_, _, if_pos hlt, rfl, rfl, ?_, ?_⟩
      · rw [cycleMs_set hold]
        exact hlimit
      · intro p hp
        rcases List.mem_or_eq_of_mem_set hp with hp | rfl
        · exact .inl hp
        · exact .inr (not_le.1 hdur)
  | OnRemove sel =>
    cases h
    exact .inr (List.eraseIdx_sublist _ _)
  | OnPasteSequence text =>
    simp only [act, OnPasteSequence] at h
    cases hparsed : ParseSignalSequenceFromClipboardText readers text with
    | none =>
      rw [hparsed] at h
      cases h
    | some parsed =>
      rw [hparsed] at h
      dsimp only at h
      by_cases hlimit : limitMs s.callKind <
          toInt (sumOf (·.durationMs) parsed.points * s.pastedRepeat parsed)
      · rw [if_pos hlimit] at h
        cases h
      rw [if_neg hlimit] at h
      cases h
      rw [sumOf_eq, toInt_mul, not_lt] at hlimit
      refine .inl ⟨_, _, by rw [candidate, hparsed]; rfl, rfl, ?_, hlimit, fun p hp =>
        .inr (parsed_pos hparsed p hp)⟩
      show (if s.callKind then max 1 (if s.callKind then _ else _) else 1) = s.pastedRepeat parsed
      rw [pastedRepeat]
      cases s.callKind with
      | false => rfl
      | true => exact max_eq_right (le_min (by decide) (le_max_left _ _))
  | setName name =>
    cases h
    exact .inr (List.Sublist.refl _)
  | setRepeat n =>
    cases h
    exact .inr (List.Sublist.refl _)

/-- The kind of the dialog and the range of its spin control stay. -/
theorem act_frame (h : s.act readers a = .ok s') :
    s'.callKind = s.callKind ∧ (s.repeatSpin ≤ 500 → s'.repeatSpin ≤ 500) := by
  cases a with
  | OnAdd freqHz durL =>
    simp only [act, AppendPointFromInputs] at h
    split_ifs at h
    cases h
    exact ⟨rfl, id⟩
  | OpenEditForSelectedSegment sel freqHz durL =>
    simp only [act, ReplacePointFromInputs] at h
    split at h
    · cases h
    · split_ifs at h
      cases h
      exact ⟨rfl, id⟩
  | OnPasteSequence text =>
    simp only [act, OnPasteSequence] at h
    split at h
    · cases h
    next parsed _ =>
      by_cases hlimit : limitMs s.callKind <
          toInt (sumOf (·.durationMs) parsed.points * s.pastedRepeat parsed)
      · rw [if_pos hlimit] at h
        cases h
      rw [if_neg hlimit] at h
      cases h
      refine ⟨rfl, fun hspin => ?_⟩
      show (if s.callKind then s.pastedRepeat parsed else s.repeatSpin) ≤ 500
      rw [pastedRepeat]
      split_ifs
      · exact min_le_left _ _
      · exact hspin
  | setRepeat n =>
    cases h
    exact ⟨rfl, fun _ => max_le (by decide) (min_le_left _ _)⟩
  | OnRemove sel =>
    cases h
    exact ⟨rfl, id⟩
  | setName name =>
    cases h
    exact ⟨rfl, id⟩

/-- One round of the segments is within the limit of the dialog. -/
structure CycleWithin (callKind : Bool) (s : SignalPatternEditorDialog) : Prop where
  kind : s.callKind = callKind
  nonneg : Nonneg s.points
  cycle : cycleMs s.points ≤ limitMs callKind
  spin : s.repeatSpin ≤ 500

variable {callKind : Bool}

theorem RepeatCountOr1_pos (s : SignalPatternEditorDialog) : 1 ≤ s.RepeatCountOr1 := by
  rw [RepeatCountOr1]
  split_ifs
  · exact le_max_left _ _
  · exact le_rfl

/-- Whatever the repeat count, the total is then an `int`. -/
theorem CycleWithin.totalMs_lt (h : s.CycleWithin callKind) : s.totalMs < 2 ^ 31 := by
  have hrepeat : s.RepeatCountOr1 ≤ 500 := by
    rw [RepeatCountOr1]
    split_ifs
    · exact max_le (by decide) h.spin
    · decide
  have hcycle : cycleMs s.points ≤ 5000 := h.cycle.trans (limitMs_le callKind)
  calc s.totalMs ≤ 5000 * 500 :=
        mul_le_mul hcycle hrepeat (by linarith [s.RepeatCountOr1_pos]) (by decide)
    _ < 2 ^ 31 := by decide

theorem CycleWithin.step (h : s.CycleWithin callKind) (hfits : s.Fits readers a) :
    (s.step readers a).CycleWithin callKind := by
  rw [SignalPatternEditorDialog.step]
  cases hact : s.act readers a with
  | error err => exact h
  | ok s' =>
    obtain ⟨hkind, hspin⟩ := act_frame hact
    rcases act_cases hact with ⟨points, rep, hcandidate, rfl, rfl, hcheck, hpoints⟩ | hsub
    · have hnonneg : Nonneg s'.points := fun p hp => (hpoints p hp).elim (h.nonneg p) le_of_lt
      have hlimit : limitMs s.callKind < 2 ^ 31 := (limitMs_le _).trans_lt (by decide)
      have htotal := (le_iff_of_toInt_le hlimit hcheck).2 (hfits _ _ hcandidate)
      refine ⟨hkind.trans h.kind, hnonneg, ?_, hspin h.spin⟩
      calc cycleMs s'.points ≤ cycleMs s'.points * s'.RepeatCountOr1 :=
            le_mul_of_one_le_right hnonneg.cycleMs_nonneg s'.RepeatCountOr1_pos
        _ ≤ limitMs callKind := h.kind ▸ htotal
    · exact ⟨hkind.trans h.kind, fun p hp => h.nonneg p (hsub.subset hp),
        (cycleMs_sublist hsub h.nonneg).trans h.cycle, hspin h.spin⟩

/-- A pattern that the dialog can be opened on: one within the limit. -/
def Opens (callKind : Bool) (editOf : Option SignalPattern) : Prop :=
  ∀ p, editOf = some p → Nonneg p.points ∧ cycleMs p.points ≤ limitMs callKind

theorem cycleWithin_new {editOf : Option SignalPattern} (h : Opens callKind editOf) :
    (new callKind editOf).CycleWithin callKind := by
  have hempty : CycleWithin callKind { callKind := callKind } :=
    ⟨rfl, (fun p hp => by cases hp), (by cases callKind <;> decide),
      show (1 : ℤ) ≤ 500 by decide⟩
  cases editOf with
  | none => exact hempty
  | some p =>
    obtain ⟨hnonneg, hcycle⟩ := h p rfl
    rw [new]
    by_cases hid : p.id = ""
    · rw [if_pos hid]
      exact hempty
    · rw [if_neg hid]
      refine ⟨rfl, hnonneg, hcycle, ?_⟩
      dsimp only
      split_ifs
      · exact max_le (by decide) (min_le_left _ _)
      · decide

theorem OnTrySave_ok {pattern : SignalPattern} (h : s.OnTrySave = .ok pattern) :
    pattern.totalMs = s.totalMs ∧ toInt s.totalMs ≤ limitMs s.callKind := by
  rw [OnTrySave] at h
  by_cases hname : trimRight s.name = ""
  · rw [if_pos hname] at h
    cases h
  rw [if_neg hname] at h
  by_cases hpoints : s.points = []
  · rw [if_pos hpoints] at h
    cases h
  rw [if_neg hpoints] at h
  by_cases hspin : s.callKind ∧ s.repeatSpin < 1
  · rw [if_pos hspin] at h
    cases h
  rw [if_neg hspin] at h
  by_cases hlimit : limitMs s.callKind < s.EffectiveTotalMs
  · rw [if_pos hlimit] at h
    cases h
  rw [if_neg hlimit] at h
  cases h
  refine ⟨?_, EffectiveTotalMs_eq s ▸ not_lt.1 hlimit⟩
  rw [SignalPattern.totalMs, totalMs, RepeatCountOr1]
  cases s.callKind <;> rfl

theorem callKind_after (start : SignalPatternEditorDialog) (as : List EditorAction) :
    (after (step readers) start as).callKind = start.callKind := by
  refine invariant (I := fun s : SignalPatternEditorDialog => s.callKind = start.callKind)
    (fun s a hs => ?_) rfl as
  rw [step]
  split
  next s' hact => exact (act_frame hact).1.trans hs
  next => exact hs

/-- A signal saved at the end of a session is within the limit exactly if its true total is an
`int`, and it is if every addition, replacement and paste of the session had such a total to check.
-/
theorem saves_within (readers : Readers) (callKind : Bool) (editOf : Option SignalPattern)
    (as : List EditorAction) {pattern : SignalPattern}
    (hsave : (after (step readers) (new callKind editOf) as).OnTrySave = .ok pattern) :
    (pattern.totalMs ≤ limitMs callKind ↔
      (after (step readers) (new callKind editOf) as).totalMs < 2 ^ 31) ∧
    (Opens callKind editOf → Along (step readers) (Fits readers) (new callKind editOf) as →
      pattern.totalMs ≤ limitMs callKind) := by
  have hkind : (after (step readers) (new callKind editOf) as).callKind = callKind := by
    rw [callKind_after]
    cases editOf with
    | none => rfl
    | some p =>
      rw [new]
      split_ifs <;> rfl
  obtain ⟨htotal, hcheck⟩ := OnTrySave_ok hsave
  rw [hkind] at hcheck
  have hiff := le_iff_of_toInt_le ((limitMs_le callKind).trans_lt (by decide)) hcheck
  rw [htotal]
  refine ⟨hiff, fun hopens hfits => hiff.2 ?_⟩
  exact (invariant_along (fun _ _ h hC => h.step hC) (cycleWithin_new hopens) hfits).totalMs_lt

/-- A call signal of 100 ms that is repeated three times. -/
def sirenSession : List EditorAction := [.setName "Siren ", .OnAdd 400 100, .setRepeat 3]

theorem saves_within_siren :
    SignalPattern.totalMs { name := "Siren", points := [⟨400, 100⟩], repeatCount := 3 } ≤
      limitMs true := by
  have hopens : Opens true none := fun p hp => by cases hp
  exact (saves_within formatReaders true none sirenSession rfl).2 hopens (by decide)

/-- Two segments whose durations add up to 2^31 ms. -/
def wrappedSession : List EditorAction :=
  [.setName "Long", .OnAdd 400 1, .OnAdd 400 (2 ^ 31 - 1)]

/-- They are saved as a Roger signal, which may be one second long. -/
theorem limit_bypassed : ¬ ∀ pattern,
    (after (step formatReaders) (new false none) wrappedSession).OnTrySave = .ok pattern →
      pattern.totalMs ≤ limitMs false := by
  intro h
  have hsaved := h
    { name := "Long"
      points := [⟨400, 1⟩, ⟨400, 2 ^ 31 - 1⟩]
      appendTail := true } rfl
  exact absurd hsaved (by decide)

end SignalPatternEditorDialog

end OWalkie
