import OWalkie.Clients.Endpoint
import OWalkie.Core.SessionManager

/-!
# Hosts that end a connect with an exception

`parseHostEndpoint` converts the text behind `[…]:` with `stoi` outside of any `try`, and its caller
`connectInternal` parses the host before its own.  `connect_returns_iff` says which hosts get
through: the other callers up to `SessionManager::connect` catch nothing.
-/

namespace OWalkie

/-! ## The numbers of `stoi` -/

namespace Cpp

/-- What ASCII digits spell. -/
def natValue (ds : List Char) : ℕ := ds.foldl (fun n c => 10 * n + (c.toNat - 48)) 0

/-- The text begins with a number of an `int`: white space, a sign or none, and digits. -/
def BeginsWithInt (s : List Char) : Prop :=
  ∃ blank sgn ds rest, s = blank ++ (sgn ++ (ds ++ rest)) ∧ (∀ c ∈ blank, isspace c = true) ∧
    (sgn = [] ∨ sgn = ['+'] ∨ sgn = ['-']) ∧ ds ≠ [] ∧ (∀ c ∈ ds, c.isDigit = true) ∧
      (∀ c ∈ rest.head?, c.isDigit = false) ∧
        if sgn = ['-'] then natValue ds ≤ 2 ^ 31 else natValue ds < 2 ^ 31

theorem natOf_digits {ds : List Char} (h : ∀ c ∈ ds, c.isDigit = true) :
    Text.natOf Text.asciiDigit ds = some (natValue ds) := by
  have hfold : ∀ n, ds.foldlM (fun n c => (Text.asciiDigit c).map fun d => 10 * n + d) n =
      some (ds.foldl (fun n c => 10 * n + (c.toNat - 48)) n) := by
    induction ds with
    | nil => exact fun n => rfl
    | cons c ds ih =>
      intro n
      have hbounds := Text.isDigit_bounds (h c List.mem_cons_self)
      have hdigit : Text.asciiDigit c = some (c.toNat - 48) := if_pos hbounds
      rw [List.foldlM_cons, hdigit]
      exact ih (fun d hd => h d (List.mem_cons_of_mem _ hd)) _
  exact hfold 0

theorem sign_of_digit {c : Char} (h : c.isDigit = true) (s : List Char) :
    Text.sign (c :: s) = (1, c :: s) := by
  have hbounds := Text.isDigit_bounds h
  unfold Text.sign
  split
  · next heq =>
    obtain ⟨rfl, -⟩ := List.cons.inj heq
    exact absurd hbounds (by decide)
  · next heq =>
    obtain ⟨rfl, -⟩ := List.cons.inj heq
    exact absurd hbounds (by decide)
  · rfl

theorem fits_isSome_iff {n : ℤ} : (Text.fits 32 n).isSome = true ↔ -2 ^ 31 ≤ n ∧ n < 2 ^ 31 := by
  unfold Text.fits
  split_ifs with h
  · exact iff_of_true rfl h
  · exact iff_of_false (by simp) h

/-- What `stoi` makes of a sign and the digits behind it. -/
theorem stoi_of_sign {s t ds : List Char} {sgn : ℤ}
    (hsign : Text.sign (s.dropWhile isspace) = (sgn, t))
    (hds : t.takeWhile Char.isDigit = ds) :
    (stoi s).isSome = true ↔ ds ≠ [] ∧ -2 ^ 31 ≤ sgn * natValue ds ∧ sgn * natValue ds < 2 ^ 31 := by
  have hall : ∀ c ∈ ds, c.isDigit = true := by
    rw [← hds]
    exact fun c hc => List.mem_takeWhile_imp hc
  simp only [stoi, hsign, hds, natOf_digits hall, Option.bind_some]
  split_ifs with hnil
  · exact iff_of_false (by simp) fun h => h.1 hnil
  · rw [fits_isSome_iff]
    exact (and_iff_right hnil).symm

theorem takeWhile_digits {ds rest : List Char} (hall : ∀ c ∈ ds, c.isDigit = true)
    (hrest : ∀ c ∈ rest.head?, c.isDigit = false) :
    (ds ++ rest).takeWhile Char.isDigit = ds := by
  rw [List.takeWhile_append_of_pos hall]
  cases rest with
  | nil => exact List.append_nil ds
  | cons c rest =>
    rw [List.takeWhile_cons_of_neg (by simp [hrest c rfl]), List.append_nil]

/-- `stoi` returns on the texts that begin with a number of an `int`. -/
theorem stoi_returns_iff (s : List Char) : (stoi s).isSome = true ↔ BeginsWithInt s := by
  constructor
  · intro h
    have hrest : ∀ t : List Char, ∀ c ∈ (t.dropWhile Char.isDigit).head?, c.isDigit = false := by
      intro t c hc
      have hnot := List.head?_dropWhile_not Char.isDigit t
      rw [Option.mem_def.1 hc] at hnot
      exact hnot
    have hparts : ∀ (sgn : List Char) {t : List Char} {n : ℤ}, s.dropWhile isspace = sgn ++ t →
        Text.sign (s.dropWhile isspace) = (n, t) → (sgn = [] ∨ sgn = ['+'] ∨ sgn = ['-']) →
        (∀ k : ℕ, -2 ^ 31 ≤ n * k → n * k < 2 ^ 31 →
          if sgn = ['-'] then k ≤ 2 ^ 31 else k < 2 ^ 31) → BeginsWithInt s := by
      intro sgn t n hsplit hsign hsgn hvalue
      obtain ⟨hne, hlo, hhi⟩ := (stoi_of_sign hsign rfl).1 h
      refine ⟨s.takeWhile isspace, sgn, t.takeWhile Char.isDigit, t.dropWhile Char.isDigit, ?_,
        fun c hc => List.mem_takeWhile_imp hc, hsgn, hne, fun c hc => List.mem_takeWhile_imp hc,
        hrest t, hvalue _ hlo hhi⟩
      rw [List.takeWhile_append_dropWhile, ← hsplit, List.takeWhile_append_dropWhile]
    cases ht : s.dropWhile isspace with
    | nil => exact hparts [] ht (by rw [ht]; rfl) (Or.inl rfl) (by simp)
    | cons c t =>
      by_cases hminus : c = '-'
      · subst hminus
        exact hparts ['-'] ht (by rw [ht]; rfl) (Or.inr (Or.inr rfl)) (by simp; omega)
      by_cases hplus : c = '+'
      · subst hplus
        exact hparts ['+'] ht (by rw [ht]; rfl) (Or.inr (Or.inl rfl)) (by simp)
      · have hsign : Text.sign (c :: t) = (1, c :: t) := by
          unfold Text.sign
          split
          · next heq => exact absurd (List.cons.inj heq).1 hminus
          · next heq => exact absurd (List.cons.inj heq).1 hplus
          · rfl
        exact hparts [] ht (by rw [ht, hsign]) (Or.inl rfl) (by simp)
  · rintro ⟨blank, sgn, ds, rest, rfl, hblank, hsgn, hne, hall, hrest, hvalue⟩
    obtain ⟨d, ds', rfl⟩ := List.exists_cons_of_ne_nil hne
    have hbounds := Text.isDigit_bounds (hall d List.mem_cons_self)
    have hcut := takeWhile_digits hall hrest
    have hdrop : ∀ {c : Char} {t : List Char}, isspace c = false →
        (blank ++ c :: t).dropWhile isspace = c :: t := by
      intro c t hc
      rw [List.dropWhile_append_of_pos hblank, List.dropWhile_cons_of_neg (by simp [hc])]
    rcases hsgn with rfl | rfl | rfl
    · have hspace : isspace d = false := by
        simp only [isspace, Bool.or_eq_false_iff, Bool.and_eq_false_iff, decide_eq_false_iff_not,
          beq_eq_false_iff_ne]
        omega
      rw [if_neg (by simp)] at hvalue
      have hsign : Text.sign ((blank ++ ([] ++ (d :: ds' ++ rest))).dropWhile isspace) =
          (1, d :: ds' ++ rest) := by
        rw [List.nil_append, List.cons_append, hdrop hspace]
        exact sign_of_digit (hall d List.mem_cons_self) _
      exact (stoi_of_sign hsign hcut).2 ⟨hne, by omega, by omega⟩
    · rw [if_neg (by simp)] at hvalue
      have hsign : Text.sign ((blank ++ (['+'] ++ (d :: ds' ++ rest))).dropWhile isspace) =
          (1, d :: ds' ++ rest) := by
        rw [List.singleton_append, hdrop (by decide)]
        rfl
      exact (stoi_of_sign hsign hcut).2 ⟨hne, by omega, by omega⟩
    · rw [if_pos rfl] at hvalue
      have hsign : Text.sign ((blank ++ (['-'] ++ (d :: ds' ++ rest))).dropWhile isspace) =
          (-1, d :: ds' ++ rest) := by
        rw [List.singleton_append, hdrop (by decide)]
        rfl
      exact (stoi_of_sign hsign hcut).2 ⟨hne, by omega, by omega⟩

end Cpp

/-! ## Connecting -/

namespace Endpoint

/-- `connectInternal`, or the exception that escapes from it; `dial` is what the `try` block returns
for a host and a port. -/
def connectResult (dial : List Char → ℤ → Result) (useTls : Bool) (host : List Char) (port : ℤ) :
    Option Result :=
  match parseHostEndpoint host port with
  | none => none
  | some parsed =>
    if parsed.host = [] ∨ port < 1 ∨ 65535 < port then some .invalidArg
    else if useTls = true ∨ parsed.useTls = true then some .unsupported
    else some (dial parsed.host port)

/-- `SessionManager::connect`, or the exception that escapes from it; `early` is what the checks
before the attempt return, if they do, and `ready` what `isSessionReady` says after it. -/
def managerConnect (early : Option Result) (ready : Bool) (dial : List Char → ℤ → Result)
    (useTls : Bool) (host : List Char) (port : ℤ) : Option Result :=
  match early with
  | some result => some result
  | none =>
    match connectResult dial useTls host port with
    | none => none
    | some .ok => if ready = true then some .ok else some .network
    | some result => some result

/-- A port behind a bracket begins with a number of an `int`. -/
def BracketPortReads (rawHost : List Char) : Prop :=
  ∀ inner s, hostValue rawHost = '[' :: inner → ']' ∈ inner → afterFirst ']' inner = ':' :: s →
    Cpp.BeginsWithInt s

variable {rawHost : List Char} {port : ℤ}

theorem parseHostEndpoint_bracket {inner : List Char} (hvalue : hostValue rawHost = '[' :: inner) :
    (parseHostEndpoint rawHost port).isSome = true ↔
      (']' ∈ inner → ∀ s, afterFirst ']' inner = ':' :: s → (Cpp.stoi s).isSome = true) := by
  simp only [parseHostEndpoint, hvalue]
  by_cases hclosed : ']' ∈ inner
  · rw [if_pos hclosed]
    split
    · next s hs => rw [Option.isSome_map, hs]; simp [hclosed]
    · next hs => exact iff_of_true rfl fun _ s heq => absurd heq (hs s)
  · rw [if_neg hclosed]
    exact iff_of_true rfl fun h => absurd h hclosed

theorem parseHostEndpoint_returns_iff :
    (parseHostEndpoint rawHost port).isSome = true ↔ BracketPortReads rawHost := by
  by_cases hbracket : ∃ inner, hostValue rawHost = '[' :: inner
  · obtain ⟨inner, hvalue⟩ := hbracket
    rw [parseHostEndpoint_bracket hvalue]
    constructor
    · intro h inner' s hvalue' hclosed hs
      obtain rfl := (List.cons.inj (hvalue.symm.trans hvalue')).2
      exact (Cpp.stoi_returns_iff s).1 (h hclosed s hs)
    · intro h hclosed s hs
      exact (Cpp.stoi_returns_iff s).2 (h inner s hvalue hclosed hs)
  · have hbare : (parseHostEndpoint rawHost port).isSome = true := by
      unfold parseHostEndpoint
      dsimp only
      split
      · next inner hvalue => exact absurd ⟨inner, hvalue⟩ hbracket
      · split_ifs
        · cases Cpp.stoi (afterFirst ':' (hostValue rawHost)) <;> rfl
        · rfl
    exact iff_of_true hbare fun inner s hvalue => absurd ⟨inner, hvalue⟩ hbracket

/-- The connect of a session returns for the hosts that the parser returns for. -/
theorem connectResult_isSome (dial : List Char → ℤ → Result) (useTls : Bool) :
    (connectResult dial useTls rawHost port).isSome = (parseHostEndpoint rawHost port).isSome := by
  unfold connectResult
  cases parseHostEndpoint rawHost port with
  | none => rfl
  | some parsed =>
    dsimp only
    split_ifs <;> rfl

theorem managerConnect_isSome (ready : Bool) (dial : List Char → ℤ → Result) (useTls : Bool) :
    (managerConnect none ready dial useTls rawHost port).isSome =
      (parseHostEndpoint rawHost port).isSome := by
  rw [← connectResult_isSome dial useTls]
  unfold managerConnect
  cases connectResult dial useTls rawHost port with
  | none => rfl
  | some result =>
    cases result with
    | ok => cases ready <;> rfl
    | _ => rfl

/-- Parsing the host, `connectInternal` and an attempt of `SessionManager::connect` return if and
only if a port behind a bracket begins with a number of an `int`; a bad endpoint is then reported as
a result. -/
theorem connect_returns_iff (rawHost : List Char) (port : ℤ) (ready useTls : Bool)
    (dial : List Char → ℤ → Result) :
    ((parseHostEndpoint rawHost port).isSome = true ∧
      (connectResult dial useTls rawHost port).isSome = true ∧
      (managerConnect none ready dial useTls rawHost port).isSome = true ∧
      ∀ parsed, parseHostEndpoint rawHost port = some parsed →
        (parsed.host = [] ∨ port < 1 ∨ 65535 < port) →
          managerConnect none ready dial useTls rawHost port = some .invalidArg) ↔
      BracketPortReads rawHost := by
  rw [connectResult_isSome, managerConnect_isSome, parseHostEndpoint_returns_iff]
  constructor
  · exact fun h => h.1
  · refine fun h => ⟨h, h, h, fun parsed hparsed hbad => ?_⟩
    have hresult : connectResult dial useTls rawHost port = some .invalidArg := by
      rw [connectResult, hparsed]
      exact if_pos hbad
    rw [managerConnect, hresult]

/-- An IPv6 address in brackets without a closing colon's number: `stoi` throws. -/
theorem bracket_port_throws : parseHostEndpoint "[::1]:".toList 5500 = none ∧
    ∀ dial : List Char → ℤ → Result,
      connectResult dial false "[::1]:".toList 5500 = none ∧
        managerConnect none true dial false "[::1]:".toList 5500 = none := by
  have hparse : parseHostEndpoint "[::1]:".toList 5500 = none := by decide
  refine ⟨hparse, fun dial => ?_⟩
  have hresult : connectResult dial false "[::1]:".toList 5500 = none := by
    rw [connectResult, hparse]
  refine ⟨hresult, ?_⟩
  rw [managerConnect, hresult]

end Endpoint

end OWalkie
