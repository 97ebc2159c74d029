import Mathlib.Tactic

/-!
# JSON values and their decoding into a value that is there already

A decoder of an object takes its members in the order of the text (`decodeStruct`), so that a later
member of the same key is decoded over the result of the earlier one.  `Reads` says which values of
the text decide one component of the result: those that `valuesAt` finds at a path.
-/

namespace OWalkie

/-- A JSON text after reading; `int` is a number without fraction and exponent. -/
inductive Json where
  | null
  | bool (b : Bool)
  | int (n : ℤ)
  | float (q : ℚ)
  | str (s : String)
  | arr (elems : List Json)
  | obj (members : List (String × Json))

namespace Json

/-- The values of the members with the key, in the order of the text. -/
def valuesOf (key : String) : Json → List Json
  | obj members => (members.filter fun m => m.1 = key).map Prod.snd
  | _ => []

/-- The values at the path, in the order of the text. -/
def valuesAt (v : Json) : List String → List Json
  | [] => [v]
  | key :: path => (v.valuesOf key).flatMap fun w => w.valuesAt path

theorem valuesAt_append (v : Json) (path path' : List String) :
    v.valuesAt (path ++ path') = (v.valuesAt path).flatMap fun w => w.valuesAt path' := by
  induction path generalizing v with
  | nil => simp [valuesAt]
  | cons key path ih => simp [valuesAt, List.flatMap_assoc, ih]

theorem valuesOf_cons (key k : String) (w : Json) (members : List (String × Json)) :
    (obj ((k, w) :: members)).valuesOf key =
      if k = key then w :: (obj members).valuesOf key else (obj members).valuesOf key := by
  by_cases h : k = key <;> simp [valuesOf, h]

end Json

/-! ## Decoding -/

inductive DecodeError where
  | mismatch
deriving DecidableEq, Repr

abbrev Decoded := Except DecodeError

/-- A type whose values take the members of an object one by one. -/
class JsonStruct (β : Type) where
  set : β → String → Json → Decoded β

section decode

variable {β : Type} [JsonStruct β]

def decodeMembers (b : β) (members : List (String × Json)) : Decoded β :=
  members.foldlM (fun b m => JsonStruct.set b m.1 m.2) b

/-- `null` leaves a value as it is. -/
def decodeStruct (b : β) : Json → Decoded β
  | .null => .ok b
  | .obj members => decodeMembers b members
  | _ => .error .mismatch

/-- `null` clears a pointer; an object is decoded over the value that the pointer has, or over a
zero value. -/
def decodePtr [Inhabited β] (b : Option β) : Json → Decoded (Option β)
  | .null => .ok none
  | v => (decodeStruct (b.getD default) v).map some

end decode

def decodeBool (b : Bool) : Json → Decoded Bool
  | .null => .ok b
  | .bool b' => .ok b'
  | _ => .error .mismatch

/-- A 64-bit integer; a number with a fraction or an exponent is none. -/
def decodeInt (n : ℤ) : Json → Decoded ℤ
  | .null => .ok n
  | .int n' => if -2 ^ 63 ≤ n' ∧ n' < 2 ^ 63 then .ok n' else .error .mismatch
  | _ => .error .mismatch

def decodeFloat (q : ℚ) : Json → Decoded ℚ
  | .null => .ok q
  | .int n => .ok n
  | .float q' => .ok q'
  | _ => .error .mismatch

/-- A pointer to a number. -/
def decodeFloatPtr (_ : Option ℚ) : Json → Decoded (Option ℚ)
  | .null => .ok none
  | .int n => .ok (some n)
  | .float q => .ok (some q)
  | _ => .error .mismatch

def decodeString (s : String) : Json → Decoded String
  | .null => .ok s
  | .str s' => .ok s'
  | _ => .error .mismatch

/-- A slice: its elements, and what its array still holds behind them. -/
structure Slice (α : Type) where
  elems : List α
  spare : List α := []
deriving DecidableEq, Repr, Inhabited

section slice

variable {α : Type} (dec : α → Json → Decoded α) (zero : α)

/-- The elements of a text's array, each decoded over the value that stands at its place. -/
def decodeElems : List α → List Json → Decoded (List α)
  | _, [] => .ok []
  | held, v :: vs =>
    (dec (held.headD zero) v).bind fun a => (decodeElems held.tail vs).map (a :: ·)

/-- `null` clears the slice, an empty array is a new one; any other is decoded over the array that
the slice has, and what lies behind its last element stays there. -/
def decodeSlice (s : Slice α) : Json → Decoded (Slice α)
  | .null | .arr [] => .ok { elems := [] }
  | .arr vs => (decodeElems dec zero (s.elems ++ s.spare) vs).map fun elems =>
      { elems := elems, spare := (s.elems ++ s.spare).drop vs.length }
  | _ => .error .mismatch

end slice

def decodeStrings : Slice String → Json → Decoded (Slice String) := decodeSlice decodeString ""

theorem ok_of_map {α β : Type} {x : Decoded α} {f : α → β} {b : β} (h : x.map f = .ok b) :
    ∃ a, x = .ok a ∧ f a = b := by
  cases x with
  | error e => cases h
  | ok a => exact ⟨a, rfl, Except.ok.inj h⟩

/-! ## Which values decide a component -/

section reads

variable {β γ δ : Type}

/-- `dec` changes the component `get` by `upd`, with the values at the path, in their order. -/
def Reads (dec : β → Json → Decoded β) (get : β → γ) (path : List String)
    (upd : γ → Json → Decoded γ) : Prop :=
  ∀ b v b', dec b v = .ok b' → (v.valuesAt path).foldlM upd (get b) = .ok (get b')

theorem foldlM_flatMap {upd : γ → Json → Decoded γ} {f : Json → List Json} {vs : List Json}
    {step : β → Json → Decoded β} {get : β → γ}
    (hstep : ∀ b v b', step b v = .ok b' → (f v).foldlM upd (get b) = .ok (get b')) {b b' : β}
    (h : vs.foldlM step b = .ok b') : (vs.flatMap f).foldlM upd (get b) = .ok (get b') := by
  induction vs generalizing b with
  | nil =>
    obtain rfl : b = b' := by simpa [pure, Except.pure] using h
    rfl
  | cons v vs ih =>
    rw [List.foldlM_cons] at h
    cases hv : step b v with
    | error e => simp [hv, bind, Except.bind] at h
    | ok b₁ =>
      rw [hv] at h
      rw [List.flatMap_cons, List.foldlM_append, hstep b v b₁ hv]
      exact ih h

/-- A component of a component. -/
theorem Reads.comp {dec : β → Json → Decoded β} {get : β → γ} {path : List String}
    {dec' : γ → Json → Decoded γ} (h : Reads dec get path dec') {get' : γ → δ}
    {path' : List String} {upd : δ → Json → Decoded δ} (h' : Reads dec' get' path' upd) :
    Reads dec (fun b => get' (get b)) (path ++ path') upd := by
  intro b v b' hb
  rw [Json.valuesAt_append]
  exact foldlM_flatMap h' (h b v b' hb)

/-- A member with the key changes the component by `upd`, and no other member does. -/
structure JsonStruct.Field [JsonStruct β] (get : β → γ) (key : String)
    (upd : γ → Json → Decoded γ) : Prop where
  own : ∀ (b : β) (v : Json) (b' : β), JsonStruct.set b key v = .ok b' →
    upd (get b) v = .ok (get b')
  other : ∀ (b : β) (k : String) (v : Json) (b' : β), k ≠ key → JsonStruct.set b k v = .ok b' →
    get b' = get b

variable [JsonStruct β]

theorem JsonStruct.Field.of_map {get : β → γ} {key : String} {upd : γ → Json → Decoded γ}
    {p : β → γ → β} (hset : ∀ b v, JsonStruct.set b key v = (upd (get b) v).map (p b))
    (hput : ∀ b x, get (p b x) = x)
    (hother : ∀ (b : β) (k : String) (v : Json) (b' : β), k ≠ key →
      JsonStruct.set b k v = .ok b' → get b' = get b) : JsonStruct.Field get key upd where
  own b v b' h := by
    rw [hset] at h
    obtain ⟨x, hx, rfl⟩ := ok_of_map h
    rw [hx, hput]
  other := hother

theorem JsonStruct.Field.reads {get : β → γ} {key : String} {upd : γ → Json → Decoded γ}
    (hf : JsonStruct.Field get key upd) : Reads decodeStruct get [key] upd := by
  intro b v b' h
  have hat : v.valuesAt [key] = v.valuesOf key := by simp [Json.valuesAt]
  rw [hat]
  cases v with
  | null => obtain rfl : b = b' := by simpa [decodeStruct] using h
            rfl
  | obj members =>
    simp only [decodeStruct, decodeMembers] at h
    induction members generalizing b with
    | nil =>
      obtain rfl : b = b' := by simpa [pure, Except.pure] using h
      rfl
    | cons m members ih =>
      obtain ⟨k, w⟩ := m
      rw [List.foldlM_cons] at h
      cases hw : JsonStruct.set b k w with
      | error e => simp [hw, bind, Except.bind] at h
      | ok b₁ =>
        rw [hw] at h
        have hrest := ih b₁ h (by simp [Json.valuesAt])
        rw [Json.valuesOf_cons]
        split_ifs with hk
        · subst hk
          rw [List.foldlM_cons, hf.own b w b₁ hw]
          exact hrest
        · rwa [hf.other b k w b₁ hk hw] at hrest
  | bool c => simp [decodeStruct] at h
  | int n => simp [decodeStruct] at h
  | float q => simp [decodeStruct] at h
  | str s => simp [decodeStruct] at h
  | arr elems => simp [decodeStruct] at h

end reads

/-! ## A switch behind a pointer -/

section switch

/-- What a value does to the component `key` of a pointer's target. -/
def decodeSwitch (key : String) (e : Option Bool) : Json → Decoded (Option Bool)
  | .null => .ok none
  | v => ((v.valuesAt [key]).foldlM decodeBool (e.getD false)).map some

variable {β : Type} [JsonStruct β] [Inhabited β] {get : β → Bool} {key : String}

theorem JsonStruct.Field.reads_ptr (hf : JsonStruct.Field get key decodeBool)
    (hzero : get default = false) : Reads decodePtr (Option.map get) [] (decodeSwitch key) := by
  intro b v b' h
  have hsingle : (v.valuesAt []).foldlM (decodeSwitch key) (b.map get) =
      decodeSwitch key (b.map get) v := by simp [Json.valuesAt]
  rw [hsingle]
  have hget : (b.map get).getD false = get (b.getD default) := by cases b <;> simp [hzero]
  have hobj : ∀ w, w ≠ .null → decodePtr b w = .ok b' →
      ((w.valuesAt [key]).foldlM decodeBool ((b.map get).getD false)).map some =
        .ok (b'.map get) := by
    intro w hw hb
    have hb : (decodeStruct (b.getD default) w).map some = .ok b' := by
      cases w <;> first | exact absurd rfl hw | exact hb
    obtain ⟨c, hc, rfl⟩ := ok_of_map hb
    rw [hget, hf.reads _ _ _ hc]
    rfl
  cases v with
  | null =>
    obtain rfl : none = b' := Except.ok.inj h
    rfl
  | bool c => exact hobj _ (by simp) h
  | int n => exact hobj _ (by simp) h
  | float q => exact hobj _ (by simp) h
  | str s => exact hobj _ (by simp) h
  | arr elems => exact hobj _ (by simp) h
  | obj members => exact hobj _ (by simp) h

theorem foldlM_decodeBool_iff {ws : List Json} {b b' : Bool}
    (h : ws.foldlM decodeBool b = .ok b') (htrue : .bool true ∉ ws) :
    b' = true ↔ b = true ∧ .bool false ∉ ws := by
  induction ws generalizing b with
  | nil =>
    obtain rfl : b = b' := by simpa [pure, Except.pure] using h
    simp
  | cons w ws ih =>
    rw [List.foldlM_cons] at h
    have htrue' : .bool true ∉ ws := fun hm => htrue (List.mem_cons_of_mem _ hm)
    cases w with
    | null => simpa using ih h htrue'
    | bool c =>
      cases c with
      | true => exact absurd (List.mem_cons_self) htrue
      | false => simpa using ih h htrue'
    | int n | float q | str s | arr elems | obj members =>
      simp [decodeBool, bind, Except.bind] at h

/-- Without a value that switches it on, a switch is on only where it was on before, no value clears
the pointer and none switches it off. -/
theorem foldlM_decodeSwitch_iff {vs : List Json} {e e' : Option Bool}
    (h : vs.foldlM (decodeSwitch key) e = .ok e')
    (htrue : ∀ v ∈ vs, .bool true ∉ v.valuesAt [key]) :
    e' = some true ↔ e = some true ∧ .null ∉ vs ∧ ∀ v ∈ vs, .bool false ∉ v.valuesAt [key] := by
  induction vs generalizing e with
  | nil =>
    obtain rfl : e = e' := by simpa [pure, Except.pure] using h
    simp
  | cons v vs ih =>
    rw [List.foldlM_cons] at h
    have htrue' : ∀ w ∈ vs, .bool true ∉ w.valuesAt [key] :=
      fun w hw => htrue w (List.mem_cons_of_mem _ hw)
    have hobj : ∀ e₁, v ≠ .null →
        ((v.valuesAt [key]).foldlM decodeBool (e.getD false)).map some = .ok e₁ →
        vs.foldlM (decodeSwitch key) e₁ = .ok e' →
        (e' = some true ↔ e = some true ∧ .null ∉ v :: vs ∧
          ∀ w ∈ v :: vs, .bool false ∉ w.valuesAt [key]) := by
      intro e₁ hv he₁ hrest
      obtain ⟨b, hb, rfl⟩ := ok_of_map he₁
      have hon := foldlM_decodeBool_iff hb (htrue v List.mem_cons_self)
      have he : e.getD false = true ↔ e = some true := by cases e <;> simp
      rw [ih hrest htrue', Option.some.injEq, hon, he]
      simp only [List.mem_cons, not_or, forall_eq_or_imp, Ne.symm hv, not_false_eq_true, true_and]
      tauto
    have hcases : ∃ e₁, decodeSwitch key e v = .ok e₁ ∧
        vs.foldlM (decodeSwitch key) e₁ = .ok e' := by
      cases hd : decodeSwitch key e v with
      | error err => simp [hd, bind, Except.bind] at h
      | ok e₁ => exact ⟨e₁, rfl, by simpa [hd, bind, Except.bind] using h⟩
    obtain ⟨e₁, he₁, hrest⟩ := hcases
    by_cases hv : v = .null
    · subst hv
      obtain rfl : none = e₁ := Except.ok.inj he₁
      rw [ih hrest htrue']
      simp
    · refine hobj e₁ hv ?_ hrest
      cases v <;> first | exact absurd rfl hv | exact he₁

end switch

end OWalkie
