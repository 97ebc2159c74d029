import OWalkie.Lib.Braces

/-!
# Balanced braces in an encoded text

`Braces` is about characters.  Here a text is a list of units of some encoding, cut at an index, and
may be anything but for the object itself.  `extractBalanced_eq`: an object that is cut out of its
characters is cut out of its units.
-/

namespace OWalkie

namespace Braces

/-- The four characters that the scanner looks for, as units. -/
structure Marks (α : Type*) where
  quote : α
  backslash : α
  opening : α
  closing : α

variable {α : Type*} [DecidableEq α]

namespace Marks

variable (m : Marks α)

def step (b : Scan) (u : α) : Scan :=
  if b.inString then
    if b.escape then { b with escape := false }
    else if u = m.backslash then { b with escape := true }
    else if u = m.quote then { b with inString := false }
    else b
  else if u = m.quote then { b with inString := true }
  else if u = m.opening then { b with depth := b.depth + 1 }
  else if u = m.closing then { b with depth := b.depth - 1 }
  else b

def Closes (b : Scan) (u : α) : Prop :=
  b.inString = false ∧ u = m.closing ∧ (m.step b u).depth = 0

instance (b : Scan) (u : α) : Decidable (m.Closes b u) :=
  inferInstanceAs (Decidable (_ ∧ _ ∧ _))

/-- The index of the matching brace; `i` is the index of the first unit. -/
def scanFrom (b : Scan) (i : ℕ) : List α → Option ℕ
  | [] => none
  | u :: s => if m.Closes b u then some i else scanFrom (m.step b u) (i + 1) s

/-- The units from the brace at `openIndex` to the matching one. -/
def extractBalanced (s : List α) (openIndex : ℕ) : Option (List α) :=
  if s[openIndex]? = some m.opening then
    (m.scanFrom ⟨0, false, false⟩ openIndex (s.drop openIndex)).map fun i =>
      (s.drop openIndex).take (i - openIndex + 1)
  else none

end Marks

/-- An encoding in which no other character has one of the units. -/
structure Encodes (m : Marks α) (enc : Char → List α) : Prop where
  nodup : [m.quote, m.backslash, m.opening, m.closing].Nodup
  quote : enc '"' = [m.quote]
  backslash : enc '\\' = [m.backslash]
  opening : enc '\x7b' = [m.opening]
  closing : enc '\x7d' = [m.closing]
  ne_nil : ∀ c, enc c ≠ []
  others : ∀ c, c ≠ '"' → c ≠ '\\' → c ≠ '\x7b' → c ≠ '\x7d' → ∀ u ∈ enc c,
    u ≠ m.quote ∧ u ≠ m.backslash ∧ u ≠ m.opening ∧ u ≠ m.closing

variable {m : Marks α} {enc : Char → List α} {b : Scan} {c : Char}

/-- Units that are none of the four. -/
def Others (m : Marks α) (us : List α) : Prop :=
  ∀ u ∈ us, u ≠ m.quote ∧ u ≠ m.backslash ∧ u ≠ m.opening ∧ u ≠ m.closing

/-- Behind such a unit a backslash is taken up. -/
def Scan.calm (b : Scan) : Scan := { b with escape := !b.inString && b.escape }

theorem step_other {u : α} (hq : u ≠ m.quote) (hb : u ≠ m.backslash) (ho : u ≠ m.opening)
    (hc : u ≠ m.closing) : m.step b u = b.calm := by
  obtain ⟨depth, inString, escape⟩ := b
  cases inString <;> cases escape <;> simp [Marks.step, Scan.calm, hq, hb, ho, hc]

theorem calm_calm (b : Scan) : b.calm.calm = b.calm := by
  obtain ⟨depth, inString, escape⟩ := b
  cases inString <;> rfl

theorem scan_others {us : List α} (hus : Others m us) (i : ℕ) (rest : List α) :
    m.scanFrom b i (us ++ rest) =
      m.scanFrom (if us = [] then b else b.calm) (i + us.length) rest := by
  induction us generalizing b i with
  | nil => rfl
  | cons u us ih =>
    obtain ⟨hq, hb, ho, hc⟩ := hus u List.mem_cons_self
    have hopen : ¬ m.Closes b u := fun h => hc h.2.1
    rw [List.cons_append, Marks.scanFrom, if_neg hopen, step_other hq hb ho hc,
      ih fun v hv => hus v (List.mem_cons_of_mem _ hv), if_neg (List.cons_ne_nil u us),
      List.length_cons]
    have hcalm : (if us = [] then b.calm else b.calm.calm) = b.calm := by
      rw [calm_calm, ite_self]
    rw [hcalm]
    congr 1
    omega

/-- One unit that is not the matching brace. -/
theorem scan_unit {u : α} (hopen : ¬ m.Closes b u) (i : ℕ) (rest : List α) :
    m.scanFrom b i ([u] ++ rest) = m.scanFrom (m.step b u) (i + 1) rest := by
  rw [List.singleton_append, Marks.scanFrom, if_neg hopen]

/-- A character that is none of the four. -/
theorem char_step_other (hq : c ≠ '"') (hb : c ≠ '\\') (ho : c ≠ '\x7b') (hc : c ≠ '\x7d') :
    b.step c = b.calm := by
  obtain ⟨depth, inString, escape⟩ := b
  cases inString <;> cases escape <;> simp [Scan.step, Scan.calm, hq, hb, ho, hc]

section encoded

variable (h : Encodes m enc)

include h

omit [DecidableEq α] in
/-- The four marks are different units. -/
theorem Encodes.ne : m.quote ≠ m.backslash ∧ m.quote ≠ m.opening ∧ m.quote ≠ m.closing ∧
    m.backslash ≠ m.opening ∧ m.backslash ≠ m.closing ∧ m.opening ≠ m.closing := by
  have := h.nodup
  simp only [List.nodup_cons, List.mem_cons, List.not_mem_nil, or_false, not_or] at this
  tauto

/-- On a character of the four the scanners agree. -/
theorem Encodes.step_mark : m.step b m.quote = b.step '"' ∧ m.step b m.backslash = b.step '\\' ∧
    m.step b m.opening = b.step '\x7b' ∧ m.step b m.closing = b.step '\x7d' := by
  obtain ⟨hqb, hqo, hqc, hbo, hbc, hoc⟩ := h.ne
  obtain ⟨depth, inString, escape⟩ := b
  cases inString <;> cases escape <;>
    simp [Marks.step, Scan.step, hqb, hbo, hbc, hqb.symm, hqo.symm, hqc.symm, hbo.symm, hbc.symm,
      hoc.symm]

theorem Encodes.closes_closing : m.Closes b m.closing ↔ b.Closes '\x7d' := by
  rw [Marks.Closes, Scan.Closes, h.step_mark.2.2.2]
  tauto

/-- The units of a character that is not the matching brace do what it does. -/
theorem Encodes.scan_char (hopen : ¬ b.Closes c) (i : ℕ) (rest : List α) :
    m.scanFrom b i (enc c ++ rest) = m.scanFrom (b.step c) (i + (enc c).length) rest := by
  obtain ⟨hquote, hbackslash, hopening, hclosing⟩ := h.step_mark (b := b)
  obtain ⟨-, -, hqc, -, hbc, hoc⟩ := h.ne
  by_cases hq : c = '"'
  · rw [hq, h.quote, scan_unit (fun hcloses => hqc hcloses.2.1), hquote]
    rfl
  by_cases hb : c = '\\'
  · rw [hb, h.backslash, scan_unit (fun hcloses => hbc hcloses.2.1), hbackslash]
    rfl
  by_cases ho : c = '\x7b'
  · rw [ho, h.opening, scan_unit (fun hcloses => hoc hcloses.2.1), hopening]
    rfl
  by_cases hc : c = '\x7d'
  · subst hc
    rw [h.closing, scan_unit (fun hcloses => hopen (h.closes_closing.1 hcloses)), hclosing]
    rfl
  · rw [scan_others (h.others c hq hb ho hc), if_neg (h.ne_nil c), char_step_other hq hb ho hc]

/-- A text that ends with the matching brace. -/
theorem Encodes.scan_text {t : List Char} (ht : extractFrom b t = some t) (i : ℕ) (rest : List α) :
    m.scanFrom b i (t.flatMap enc ++ rest) = some (i + (t.flatMap enc).length - 1) := by
  induction t generalizing b i with
  | nil => cases ht
  | cons c t ih =>
    rw [extractFrom] at ht
    by_cases hcloses : b.Closes c
    · rw [if_pos hcloses] at ht
      obtain ⟨-, rfl⟩ := List.cons.inj (Option.some.inj ht)
      obtain ⟨hcode, rfl, hdepth⟩ := hcloses
      rw [List.flatMap_singleton, h.closing, List.singleton_append, Marks.scanFrom,
        if_pos (h.closes_closing.2 ⟨hcode, rfl, hdepth⟩)]
      rfl
    · rw [if_neg hcloses] at ht
      obtain ⟨t', ht', heq⟩ := Option.map_eq_some_iff.1 ht
      obtain rfl := (List.cons.inj heq).2
      rw [List.flatMap_cons, List.append_assoc, h.scan_char hcloses, ih ht', List.length_append]
      congr 1
      omega

/-- An object of characters is cut out of its units, between any other units. -/
theorem Encodes.extractBalanced_eq {d : List Char} (hd : extract d = some d) (before after : List α) :
    m.extractBalanced (before ++ d.flatMap enc ++ after) before.length = some (d.flatMap enc) := by
  cases d with
  | nil => cases hd
  | cons c d =>
    rw [extract] at hd
    by_cases hc : c = '\x7b'
    · rw [if_pos hc] at hd
      have hscan := h.scan_text hd before.length after
      have hdrop : (before ++ (c :: d).flatMap enc ++ after).drop before.length =
          (c :: d).flatMap enc ++ after := by
        rw [List.append_assoc, List.drop_left]
      have hfirst : (before ++ (c :: d).flatMap enc ++ after)[before.length]? = some m.opening := by
        rw [List.append_assoc, List.getElem?_append_right le_rfl, Nat.sub_self, List.flatMap_cons,
          hc, h.opening]
        rfl
      have hpos : 0 < ((c :: d).flatMap enc).length := by
        rw [List.flatMap_cons, hc, h.opening]
        exact Nat.succ_pos _
      have hlen : before.length + ((c :: d).flatMap enc).length - 1 - before.length + 1 =
          ((c :: d).flatMap enc).length := by omega
      rw [Marks.extractBalanced, if_pos hfirst, hdrop, hscan, Option.map_some, hlen, List.take_left]
    · rw [if_neg hc] at hd
      cases hd

end encoded

end Braces

end OWalkie
