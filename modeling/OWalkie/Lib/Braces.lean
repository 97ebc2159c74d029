import Mathlib.Tactic

/-!
# Braces outside of strings

`extract` cuts out of a text what stands from a brace to the matching one; braces in a string of
JSON do not count.  A piece of text is `Neutral` if the scanner behind it is where it was before it,
and the pieces of a JSON text are (`extract_braces`).
-/

namespace OWalkie

namespace Braces

/-- Where the scanner is. -/
structure Scan where
  depth : ℤ
  inString : Bool
  escape : Bool

def Scan.step (b : Scan) (c : Char) : Scan :=
  if b.inString then
    if b.escape then { b with escape := false }
    else if c = '\\' then { b with escape := true }
    else if c = '"' then { b with inString := false }
    else b
  else if c = '"' then { b with inString := true }
  else if c = '\x7b' then { b with depth := b.depth + 1 }
  else if c = '\x7d' then { b with depth := b.depth - 1 }
  else b

/-- The character is the brace that matches the first one. -/
def Scan.Closes (b : Scan) (c : Char) : Prop :=
  b.inString = false ∧ c = '\x7d' ∧ (b.step c).depth = 0

instance (b : Scan) (c : Char) : Decidable (b.Closes c) := by
  unfold Scan.Closes
  infer_instance

def extractFrom (b : Scan) : List Char → Option (List Char)
  | [] => none
  | c :: s => if b.Closes c then some [c] else (extractFrom (b.step c) s).map (c :: ·)

/-- The text from an opening brace to the matching one. -/
def extract : List Char → Option (List Char)
  | [] => none
  | c :: s => if c = '\x7b' then extractFrom ⟨0, false, false⟩ (c :: s) else none

/-- The scanner runs over the text from one place to another. -/
def Passes (a b : Scan) (t : List Char) : Prop :=
  ∀ rest, extractFrom a (t ++ rest) = (extractFrom b rest).map (t ++ ·)

/-- Outside of strings. -/
def code (depth : ℤ) : Scan := ⟨depth, false, false⟩

/-- In a string. -/
def quoted (depth : ℤ) : Scan := ⟨depth, true, false⟩

/-- A piece of text between the braces that leaves the scanner where it was. -/
def Neutral (t : List Char) : Prop := ∀ d ≥ 1, Passes (code d) (code d) t

/-- A piece of the inside of a string. -/
def Inside (t : List Char) : Prop := ∀ d, Passes (quoted d) (quoted d) t

variable {a b c : Scan} {s t : List Char}

theorem Passes.nil (a : Scan) : Passes a a [] := fun rest => by
  rw [List.nil_append]
  exact (Option.map_id_apply).symm

theorem Passes.append (hs : Passes a b s) (ht : Passes b c t) : Passes a c (s ++ t) := by
  intro rest
  rw [List.append_assoc, hs, ht, Option.map_map]
  congr 1
  funext u
  rw [Function.comp_apply, List.append_assoc]

theorem passes_char {x : Char} (h : ¬ a.Closes x) : Passes a (a.step x) [x] := by
  intro rest
  rw [List.singleton_append, extractFrom, if_neg h]
  rfl

theorem Passes.cons {x : Char} (h : ¬ a.Closes x) (ht : Passes (a.step x) b t) :
    Passes a b (x :: t) :=
  (passes_char h).append ht

/-- A character other than quotes and braces. -/
def Plain (x : Char) : Prop := x ≠ '"' ∧ x ≠ '\x7b' ∧ x ≠ '\x7d'

instance (x : Char) : Decidable (Plain x) := by
  unfold Plain
  infer_instance

theorem step_of_plain {x : Char} (h : Plain x) (d : ℤ) : (code d).step x = code d := by
  simp [Scan.step, code, h.1, h.2.1, h.2.2]

theorem neutral_of_plain (h : ∀ x ∈ t, Plain x) : Neutral t := by
  intro d hd
  induction t with
  | nil => exact Passes.nil _
  | cons x t ih =>
    have hx := h x List.mem_cons_self
    apply Passes.cons (fun hcloses => hx.2.2 hcloses.2.1)
    rw [step_of_plain hx]
    exact ih fun y hy => h y (List.mem_cons_of_mem _ hy)

theorem Neutral.append (hs : Neutral s) (ht : Neutral t) : Neutral (s ++ t) :=
  fun d hd => (hs d hd).append (ht d hd)

theorem Inside.append (hs : Inside s) (ht : Inside t) : Inside (s ++ t) :=
  fun d => (hs d).append (ht d)

theorem not_closes_quoted (d : ℤ) (x : Char) : ¬ (quoted d).Closes x := fun h => by cases h.1

theorem inside_char {x : Char} (hq : x ≠ '"') (hb : x ≠ '\\') : Inside [x] := by
  intro d
  have hstep : (quoted d).step x = quoted d := by simp [Scan.step, quoted, hq, hb]
  have hpass := passes_char (not_closes_quoted d x)
  rwa [hstep] at hpass

theorem inside_of_plain (h : ∀ x ∈ t, x ≠ '"' ∧ x ≠ '\\') : Inside t := by
  induction t with
  | nil => exact fun d => Passes.nil _
  | cons x t ih =>
    have hx := h x List.mem_cons_self
    exact (inside_char hx.1 hx.2).append (ih fun y hy => h y (List.mem_cons_of_mem _ hy))

/-- A backslash takes the next character with it. -/
theorem inside_escaped (x : Char) : Inside ['\\', x] := by
  intro d
  apply Passes.cons (not_closes_quoted d _)
  apply passes_char
  rintro ⟨hcode, -⟩
  cases hcode

theorem neutral_string (h : Inside t) : Neutral ('"' :: t ++ ['"']) := by
  intro d hd
  have hopen : Passes (code d) (quoted d) ['"'] := passes_char fun h => absurd h.2.1 (by decide)
  have hclose : Passes (quoted d) (code d) ['"'] := passes_char (not_closes_quoted d _)
  exact (hopen.append (h d)).append hclose

theorem step_close (d : ℤ) : (code (d + 1)).step '\x7d' = code d := by
  show (⟨d + 1 - 1, false, false⟩ : Scan) = _
  rw [add_sub_cancel_right]
  rfl

theorem passes_open (d : ℤ) : Passes (code d) (code (d + 1)) ['\x7b'] :=
  passes_char fun h => absurd h.2.1 (by decide)

theorem neutral_braces (h : Neutral t) : Neutral ('\x7b' :: t ++ ['\x7d']) := by
  intro d hd
  have hclose : Passes (code (d + 1)) (code d) ['\x7d'] := by
    rw [← step_close d]
    apply passes_char
    rintro ⟨-, -, hdepth⟩
    rw [step_close] at hdepth
    have : d = 0 := hdepth
    omega
  exact ((passes_open d).append (h (d + 1) (by omega))).append hclose

/-- What stands in braces is cut out, whatever follows. -/
theorem extract_braces (h : Neutral t) (rest : List Char) :
    extract ('\x7b' :: t ++ '\x7d' :: rest) = some ('\x7b' :: t ++ ['\x7d']) := by
  have hcloses : (code 1).Closes '\x7d' := by decide
  have hpass := (passes_open 0).append (h 1 le_rfl)
  show extractFrom (code 0) ((['\x7b'] ++ t) ++ '\x7d' :: rest) = _
  rw [hpass, extractFrom, if_pos hcloses]
  rfl

end Braces

end OWalkie
