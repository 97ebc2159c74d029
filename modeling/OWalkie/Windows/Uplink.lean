import OWalkie.Windows.TxPump

/-!
# The order of the calls of the relay

`Uplink` is the order that the desktop client is to keep: frames only while the relay is open, the
frames of the microphone in the order of what was captured since the key was pressed, none after the
capture has ended, and the signals and the end of the transmission only after that.
-/

namespace OWalkie

/-- The abstract transmission. -/
structure Uplink where
  relayOpen : Bool := false
  /-- between the start of the capture and its end -/
  speaking : Bool := false
  /-- captured and not yet in a frame -/
  pending : List ℤ := []
  /-- the frame that is with the callback -/
  handed : Option (List ℤ) := none
deriving Repr, DecidableEq

/-- The next state of the transmission, or `none` if the output is out of order. -/
def Uplink.accept (u : Uplink) : DesktopOutput → Option Uplink
  | .started =>
    if u.speaking = true ∨ u.handed.isSome then none
    else some { u with speaking := true, pending := [] }
  | .captured pcm =>
    if u.speaking = true then some { u with pending := u.pending ++ pcm } else none
  | .micFrame frame =>
    if u.speaking = true ∧ u.handed = none ∧ frame ≠ [] ∧ frame <+: u.pending then
      some { u with pending := u.pending.drop frame.length, handed := some frame }
    else none
  | .signalFrame frame =>
    if u.speaking = true ∨ u.handed.isSome then none else some { u with handed := some frame }
  | .stopped => if u.handed.isSome then none else some { u with speaking := false }
  | .txOpen true => some { u with relayOpen := true }
  | .txOpen false => some { u with handed := none }
  | .txPcm frame =>
    if u.relayOpen = true ∧ u.handed = some frame then some { u with handed := none } else none
  | .txClose | .txAbort | .disconnect =>
    if u.speaking = true ∨ u.handed.isSome then none else some { u with relayOpen := false }

namespace Uplink

/-! ## What the order of a transmission means -/

def captured : DesktopOutput → List ℤ
  | .captured pcm => pcm
  | _ => []

def framed : DesktopOutput → List ℤ
  | .micFrame frame => frame
  | _ => []

/-- The transmission is over for the relay. -/
def ClosesRelay (o : DesktopOutput) : Prop := o = .txClose ∨ o = .txAbort ∨ o = .disconnect

variable {u u' : Uplink} {o : DesktopOutput} {outs : List DesktopOutput}

theorem accept_framed (ho : o ≠ .started) (h : u.accept o = some u') :
    ∃ rest, u.pending ++ captured o = framed o ++ rest ∧ rest = u'.pending := by
  cases o with
  | started => exact (ho rfl).elim
  | micFrame frame =>
    simp only [accept] at h
    split at h <;> cases h
    rename_i hframe
    obtain ⟨rest, hrest⟩ := hframe.2.2.2
    refine ⟨rest, ?_, ?_⟩
    · simp [captured, framed, hrest]
    · simp [← hrest]
  | captured pcm =>
    simp only [accept] at h
    split at h <;> cases h
    exact ⟨_, rfl, rfl⟩
  | txOpen ok => cases ok <;> cases h <;> exact ⟨_, List.append_nil _, rfl⟩
  | _ =>
    simp only [accept] at h
    split at h <;> cases h
    exact ⟨_, List.append_nil _, rfl⟩

/-- The frames of the microphone are cut off the front of what has been captured. -/
theorem framed_initial (hstarted : .started ∉ outs) (h : outs.foldlM accept u = some u') :
    outs.flatMap framed <+: u.pending ++ outs.flatMap captured := by
  induction outs generalizing u with
  | nil => exact List.nil_prefix
  | cons o outs ih =>
    rw [List.mem_cons, not_or] at hstarted
    rw [List.foldlM_cons] at h
    obtain ⟨v, hv, hrest⟩ := Option.bind_eq_some_iff.1 h
    obtain ⟨_, hsplit, rfl⟩ := accept_framed (Ne.symm hstarted.1) hv
    rw [List.flatMap_cons, List.flatMap_cons, ← List.append_assoc, hsplit, List.append_assoc,
      List.prefix_append_right_inj]
    exact ih hstarted.2 hrest

/-- After the end of the capture nothing of the microphone comes until it is started again. -/
theorem silent_of_stopped (hstarted : .started ∉ outs) (hspeaking : u.speaking = false)
    (h : outs.foldlM accept u = some u') (frame : List ℤ) : .micFrame frame ∉ outs := by
  induction outs generalizing u with
  | nil => simp
  | cons o outs ih =>
    rw [List.mem_cons, not_or] at hstarted
    rw [List.foldlM_cons] at h
    obtain ⟨v, hv, hrest⟩ := Option.bind_eq_some_iff.1 h
    have hstep : v.speaking = false ∧ .micFrame frame ≠ o := by
      cases o with
      | started => exact (hstarted.1 rfl).elim
      | txOpen ok => cases ok <;> cases hv <;> exact ⟨hspeaking, nofun⟩
      | captured pcm => simp [accept, hspeaking] at hv
      | micFrame frame => simp [accept, hspeaking] at hv
      | stopped =>
        simp only [accept] at hv
        split at hv <;> cases hv
        exact ⟨rfl, nofun⟩
      | _ =>
        simp only [accept] at hv
        split at hv <;> cases hv
        exact ⟨hspeaking, nofun⟩
    rw [List.mem_cons, not_or]
    exact ⟨hstep.2, ih hstarted.2 hstep.1 hrest⟩

/-- An open relay was opened and not closed since. -/
theorem exists_open (h : outs.foldlM accept {} = some u) (hopen : u.relayOpen = true) :
    ∃ pre post, outs = pre ++ .txOpen true :: post ∧ ∀ o ∈ post, ¬ ClosesRelay o := by
  induction outs using List.reverseRecOn generalizing u with
  | nil =>
    cases h
    cases hopen
  | append_singleton outs o ih =>
    rw [List.foldlM_append] at h
    obtain ⟨v, hv, hlast⟩ := Option.bind_eq_some_iff.1 h
    have hlast : v.accept o = some u := by simpa using hlast
    by_cases ho : o = .txOpen true
    · exact ⟨outs, [], by rw [ho], nofun⟩
    · have hkeep : v.relayOpen = true ∧ ¬ ClosesRelay o := by
        cases o with
        | txOpen ok =>
          cases ok with
          | true => exact (ho rfl).elim
          | false =>
            cases hlast
            exact ⟨hopen, by simp [ClosesRelay]⟩
        | _ =>
          simp only [accept] at hlast
          split at hlast <;> cases hlast
          simp_all [ClosesRelay]
      obtain ⟨pre, post, rfl, hpost⟩ := ih hv hkeep.1
      refine ⟨pre, post ++ [o], by simp, ?_⟩
      intro x hx
      rcases List.mem_append.1 hx with hx | hx
      · exact hpost x hx
      · rw [List.mem_singleton.1 hx]
        exact hkeep.2

/-- A frame that is with the callback was handed over last. -/
theorem exists_handed {frame : List ℤ} (h : outs.foldlM accept {} = some u)
    (hhanded : u.handed = some frame) :
    ∃ pre o post, outs = pre ++ o :: post ∧ (o = .micFrame frame ∨ o = .signalFrame frame) ∧
      ∀ f, .micFrame f ∉ post ∧ .signalFrame f ∉ post ∧ .txPcm f ∉ post := by
  induction outs using List.reverseRecOn generalizing u with
  | nil =>
    cases h
    cases hhanded
  | append_singleton outs o ih =>
    rw [List.foldlM_append] at h
    obtain ⟨v, hv, hlast⟩ := Option.bind_eq_some_iff.1 h
    have hlast : v.accept o = some u := by simpa using hlast
    by_cases ho : o = .micFrame frame ∨ o = .signalFrame frame
    · exact ⟨outs, o, [], rfl, ho, by simp⟩
    · have hkeep : v.handed = some frame ∧ ∀ f, o ≠ .micFrame f ∧ o ≠ .signalFrame f ∧
          o ≠ .txPcm f := by
        cases o with
        | txOpen ok =>
          cases ok <;> cases hlast
          · cases hhanded
          · exact ⟨hhanded, by simp⟩
        | _ =>
          simp only [accept] at hlast
          split at hlast <;> cases hlast
          simp_all
      obtain ⟨pre, o', post, rfl, ho', hpost⟩ := ih hv hkeep.1
      refine ⟨pre, o', post ++ [o], by simp, ho', fun f => ?_⟩
      obtain ⟨h1, h2, h3⟩ := hpost f
      obtain ⟨k1, k2, k3⟩ := hkeep.2 f
      simp [h1, h2, h3, Ne.symm k1, Ne.symm k2, Ne.symm k3]

theorem exists_of_foldlM_append {pre post : List DesktopOutput}
    (h : (pre ++ o :: post).foldlM accept u = some u') :
    ∃ v w, pre.foldlM accept u = some v ∧ v.accept o = some w ∧ post.foldlM accept w = some u' := by
  rw [List.foldlM_append] at h
  obtain ⟨v, hv, hrest⟩ := Option.bind_eq_some_iff.1 h
  rw [List.foldlM_cons] at hrest
  obtain ⟨w, hw, hpost⟩ := Option.bind_eq_some_iff.1 hrest
  exact ⟨v, w, hv, hw, hpost⟩

end Uplink

end OWalkie
