import OWalkie.Lib.OrgJson

/-!
# The beginning of a text for org.json

`JSONObject(text)` skips blanks and comments, which may begin with `#` or `//` and end with the line
or stand between `/*` and `*/`, and then reads one value; what follows the value is ignored.  The
reading of an object is a parameter.
-/

namespace OWalkie

namespace OrgJson

/-- Where `nextCleanInternal` is: outside of comments, behind a slash, in a comment to the end of
the line, in a block comment, behind a star in one. -/
inductive Mode where
  | blank
  | slash
  | line
  | block
  | star
deriving DecidableEq, Repr

/-- The text from the first character that is skipped no more, or the place at the end. -/
inductive Skipped where
  | stopped (rest : List Char)
  | inside (m : Mode)
deriving DecidableEq, Repr

@[grind =]
def skip : Mode → List Char → Skipped
  | m, [] => .inside m
  | .blank, c :: s =>
    if c = '\t' ∨ c = ' ' ∨ c = '\n' ∨ c = '\r' then skip .blank s
    else if c = '#' then skip .line s
    else if c = '/' then skip .slash s
    else .stopped (c :: s)
  | .slash, c :: s =>
    if c = '*' then skip .block s
    else if c = '/' then skip .line s
    else .stopped ('/' :: c :: s)
  | .line, c :: s => if c = '\n' ∨ c = '\r' then skip .blank s else skip .line s
  | .block, c :: s => if c = '*' then skip .star s else skip .block s
  | .star, c :: s =>
    if c = '/' then skip .blank s
    else if c = '*' then skip .star s
    else skip .block s

/-- A byte order mark in front is dropped. -/
def dropMark : List Char → List Char
  | [] => []
  | c :: s => if c.toNat = 0xFEFF then s else c :: s

/-- `JSONObject(text)`; `object` reads an object at the beginning of a text. -/
def JSONObject (object : List Char → Option Json) (text : List Char) : Option Json :=
  match skip .blank (dropMark text) with
  | .stopped s => if s.head? = some '\x7b' then object s else none
  | .inside _ => none

theorem JSONObject_of_skip {object : List Char → Option Json} {text s : List Char}
    (h : skip .blank (dropMark text) = .stopped s) :
    JSONObject object text = if s.head? = some '\x7b' then object s else none := by
  rw [JSONObject, h]

theorem dropMark_brace (s : List Char) : dropMark ('\x7b' :: s) = '\x7b' :: s := rfl

/-- A text goes on where the first part of it ends. -/
theorem skip_append (m : Mode) (s t : List Char) :
    skip m (s ++ t) = match skip m s with
      | .stopped rest => .stopped (rest ++ t)
      | .inside m' => skip m' t := by
  induction s generalizing m with
  | nil => cases m <;> rfl
  | cons c s ih =>
    cases m with
    | blank =>
      simp only [List.cons_append, skip]
      split_ifs
      · exact ih _
      · exact ih _
      · exact ih _
      · rfl
    | slash =>
      simp only [List.cons_append, skip]
      split_ifs
      · exact ih _
      · exact ih _
      · rfl
    | line =>
      simp only [List.cons_append, skip]
      split_ifs
      · exact ih _
      · exact ih _
    | block =>
      simp only [List.cons_append, skip]
      split_ifs
      · exact ih _
      · exact ih _
    | star =>
      simp only [List.cons_append, skip]
      split_ifs
      · exact ih _
      · exact ih _
      · exact ih _

theorem ne_nil_of_skip {m : Mode} {s rest : List Char} (h : skip m s = .stopped rest) :
    rest ≠ [] := by
  induction s generalizing m with
  | nil => cases m <;> cases h
  | cons c s ih =>
    cases m with
    | blank =>
      rw [skip] at h
      split_ifs at h
      · exact ih h
      · exact ih h
      · exact ih h
      · rw [← Skipped.stopped.inj h]
        exact List.cons_ne_nil _ _
    | slash =>
      rw [skip] at h
      split_ifs at h
      · exact ih h
      · exact ih h
      · rw [← Skipped.stopped.inj h]
        exact List.cons_ne_nil _ _
    | line =>
      rw [skip] at h
      split_ifs at h
      · exact ih h
      · exact ih h
    | block =>
      rw [skip] at h
      split_ifs at h
      · exact ih h
      · exact ih h
    | star =>
      rw [skip] at h
      split_ifs at h
      · exact ih h
      · exact ih h
      · exact ih h

/-- What ends a comment. -/
def closer : Mode → List Char
  | .blank => []
  | .slash => ['/', '\n']
  | .line => ['\n']
  | .block => ['*', '/']
  | .star => ['/']

theorem skip_closer (m : Mode) (s : List Char) :
    skip m (closer m ++ '\x7b' :: s) = .stopped ('\x7b' :: s) := by
  cases m <;> rfl

theorem skip_brace (s : List Char) : skip .blank ('\x7b' :: s) = .stopped ('\x7b' :: s) := rfl

end OrgJson

end OWalkie
