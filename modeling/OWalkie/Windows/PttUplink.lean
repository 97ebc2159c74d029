import OWalkie.Lib.Run
import OWalkie.Windows.Uplink

/-!
# What the relay gets from the desktop client

`UplinkInv` says how far the threads are in the transmission of `Uplink`.  A pump is left only while
`transmitting_` is set or a handler is about to join it, so the handlers send their signals and end
the transmission when no pump is left (`desktop_refines_uplink`).
-/

namespace OWalkie

open Run

/-- The handler has cleared `transmitting_` and has not come back from the stop. -/
def UiPc.winding : UiPc → Bool
  | .startFailed | .stopLock _ | .close _ | .join _ | .stopped _ => true
  | _ => false

/-- From here on the handler sends a signal, or starts a transmission. -/
def UiPc.sending : UiPc → Bool
  | .startTransmit | .streamSignal _ | .readPattern _ | .stream .. | .frame .. | .streamEnd ..
  | .streamed .. => true
  | _ => false

/-- `transmitting_` is clear. -/
def UiPc.offAir : UiPc → Bool
  | .abort _ => true
  | pc => pc.winding || pc.sending

/-- `EndPttTx` waits for the end of the capture. -/
def UiPc.endsPtt : UiPc → Bool
  | .stop .endPttTx | .stopLock .endPttTx | .close .endPttTx | .join .endPttTx
  | .stopped .endPttTx => true
  | _ => false

def UiPc.handed : UiPc → Option (List ℤ)
  | .frame _ _ _ _ f => some f
  | _ => none

def PumpPc.handed : PumpPc → Option (List ℤ)
  | .frame _ framePcm => some framePcm
  | .wait | .ended => none

theorem UiPc.offAir_of_sending {pc : UiPc} (h : pc.sending = true) : pc.offAir = true := by
  cases pc <;> first | rfl | cases h

theorem UiPc.offAir_of_winding {pc : UiPc} (h : pc.winding = true) : pc.offAir = true := by
  cases pc <;> first | rfl | cases h

namespace DesktopTx

structure UplinkInv (s : DesktopTx) (u : Uplink) : Prop where
  offAir : s.ui.offAir = true → s.transmitting = false
  onAir : s.ui = .deviceStart ∨ s.ui = .startPump →
    s.transmitting = true ∧ s.txPumpThread = none
  speaks : s.transmitting = true → u.speaking = true
  spoke : u.speaking = true → s.transmitting = true ∨ s.ui.winding = true
  ending : s.ui.endsPtt = true → u.speaking = true
  pump : s.txPumpThread ≠ none →
    u.speaking = true ∧ (s.transmitting = true ∨ ∃ c, s.ui = .stopLock c)
  joined : s.pumpJoin ≠ none → u.speaking = true ∧ ∃ c, s.ui = .close c ∨ s.ui = .join c
  pending : s.transmitting = true → u.pending = s.captureFifo
  handed : u.handed =
    ((s.txPumpThread.bind PumpPc.handed).or ((s.pumpJoin.bind PumpPc.handed).or s.ui.handed))
  opened : u.speaking = true ∨ s.ui.sending = true → s.txUplinkOpened = true → u.relayOpen = true
  pumpSends : ∀ f, s.txPumpThread = some (.frame .txPcm f) ∨ s.pumpJoin = some (.frame .txPcm f) →
    s.txUplinkOpened = true
  uiSends : ∀ g n pcm f, s.ui = .frame .txPcm g n pcm f → s.txUplinkOpened = true

variable {s s' : DesktopTx} {u : Uplink} {out : List DesktopOutput}

theorem UplinkInv.idle_pump (h : UplinkInv s u) (hoff : s.transmitting = false)
    (hui : ∀ c, s.ui ≠ .stopLock c) : s.txPumpThread = none := by
  by_contra hne
  rcases (h.pump hne).2 with hon | ⟨c, hc⟩
  · rw [hoff] at hon
    cases hon
  · exact hui c hc

/-- The fields that matter here are the same. -/
structure SameTx (s s' : DesktopTx) : Prop where
  transmitting : s'.transmitting = s.transmitting
  txUplinkOpened : s'.txUplinkOpened = true → s.txUplinkOpened = true
  captureFifo : s'.captureFifo = s.captureFifo
  txPumpThread : s'.txPumpThread = s.txPumpThread
  pumpJoin : s'.pumpJoin = s.pumpJoin

/-- A handler goes on to a place that promises no more. -/
theorem UplinkInv.goto (h : UplinkInv s u) (hs : SameTx s s')
    (offAir : s'.ui.offAir = true → s.transmitting = false)
    (onAir : s'.ui = .deviceStart ∨ s'.ui = .startPump →
      s.transmitting = true ∧ s.txPumpThread = none)
    (winding : s.ui.winding = true → u.speaking = true → s'.ui.winding = true)
    (ending : s'.ui.endsPtt = true → u.speaking = true)
    (stopLock : ∀ c, s.ui ≠ .stopLock c)
    (closing : ∀ c, s.ui ≠ .close c ∧ (s.ui = .join c → s.pumpJoin = none))
    (handed : s'.ui.handed = s.ui.handed)
    (sending : s'.ui.sending = true → s'.txUplinkOpened = true → u.relayOpen = true)
    (uiSends : ∀ g n pcm f, s'.ui ≠ .frame .txPcm g n pcm f)
    (pumpSends : s.txPumpThread ≠ none ∨ s.pumpJoin ≠ none →
      s'.txUplinkOpened = s.txUplinkOpened) :
    UplinkInv s' u := by
  have hjoin : s.pumpJoin = none := by
    by_contra hne
    obtain ⟨-, c, hc | hc⟩ := h.joined hne
    · exact (closing c).1 hc
    · exact hne ((closing c).2 hc)
  constructor
  · rwa [hs.transmitting]
  · rwa [hs.transmitting, hs.txPumpThread]
  · rw [hs.transmitting]
    exact h.speaks
  · intro hspeaking
    rw [hs.transmitting]
    exact (h.spoke hspeaking).imp id fun hw => winding hw hspeaking
  · exact ending
  · intro hpump
    rw [hs.txPumpThread] at hpump
    rw [hs.transmitting]
    obtain ⟨hspeaking, hon | ⟨c, hc⟩⟩ := h.pump hpump
    · exact ⟨hspeaking, Or.inl hon⟩
    · exact (stopLock c hc).elim
  · intro hne
    rw [hs.pumpJoin] at hne
    exact (hne hjoin).elim
  · rw [hs.transmitting, hs.captureFifo]
    exact h.pending
  · rw [hs.txPumpThread, hs.pumpJoin, handed]
    exact h.handed
  · rintro (hspeaking | hsending) hopened
    · exact h.opened (Or.inl hspeaking) (hs.txUplinkOpened hopened)
    · exact sending hsending hopened
  · intro f hf
    rw [hs.txPumpThread, hs.pumpJoin] at hf
    rw [pumpSends (hf.imp (by simp_all) (by simp_all))]
    exact h.pumpSends f hf
  · exact fun g n pcm f hf => (uiSends g n pcm f hf).elim

/-- Where the UI thread is not in a stop, no pump is left once `transmitting_` is clear. -/
theorem UplinkInv.no_pump (h : UplinkInv s u) (hoff : s.transmitting = false)
    (hstopLock : ∀ c, s.ui ≠ .stopLock c) (hclose : ∀ c, s.ui ≠ .close c ∧ s.ui ≠ .join c) :
    s.txPumpThread = none ∧ s.pumpJoin = none := by
  refine ⟨h.idle_pump hoff hstopLock, by_contra fun hne => ?_⟩
  obtain ⟨-, c, hc | hc⟩ := h.joined hne
  · exact (hclose c).1 hc
  · exact (hclose c).2 hc

/-- The capture is taken from a pump and its handler; both are the same afterwards. -/
theorem UplinkInv.close (h : UplinkInv s u) {c : StopCaller} (hui' : s'.ui = .close c)
    (hui : (∀ c, s.ui ≠ .close c ∧ s.ui ≠ .join c) ∧ s.ui.handed = none)
    (hoff : s'.transmitting = false)
    (hopened : s'.txUplinkOpened = s.txUplinkOpened)
    (hpump : s'.txPumpThread = none) (hjoin : s'.pumpJoin = s.txPumpThread)
    (hending : c = .endPttTx → u.speaking = true) :
    UplinkInv s' u := by
  have hnone : s.pumpJoin = none := by
    by_contra hne
    obtain ⟨-, c, hc | hc⟩ := h.joined hne
    · exact (hui.1 c).1 hc
    · exact (hui.1 c).2 hc
  constructor
  · exact fun _ => hoff
  · rw [hui']
    exact fun hon => by simp at hon
  · rw [hoff]
    exact nofun
  · exact fun _ => Or.inr (by rw [hui']; rfl)
  · rw [hui']
    intro hends
    cases c <;> first | exact hending rfl | cases hends
  · exact fun hne => (hne hpump).elim
  · intro hne
    rw [hjoin] at hne
    exact ⟨(h.pump hne).1, c, Or.inl hui'⟩
  · rw [hoff]
    exact nofun
  · rw [hpump, hjoin, h.handed, hnone, hui.2, hui']
    rfl
  · rintro (hsp | hsending) ho
    · exact h.opened (Or.inl hsp) (hopened ▸ ho)
    · rw [hui'] at hsending
      cases hsending
  · intro f hf
    rw [hpump, hjoin] at hf
    rw [hopened]
    exact h.pumpSends f (Or.inl (hf.resolve_left nofun))
  · intro g n pcm f hf
    rw [hui'] at hf
    cases hf

theorem handle_accepts (h : UplinkInv s u) {ev : UiEvent} (hui : s.ui = .handle ev)
    (hstep : s.handle ev = some (s', out)) :
    ∃ u', out.foldlM Uplink.accept u = some u' ∧ UplinkInv s' u' := by
  have hoffAir : s.ui.winding = false ∧ s.ui.handed = none := by
    rw [hui]
    exact ⟨rfl, rfl⟩
  -- the handler returns, or goes on to a place that needs nothing
  have quiet : ∀ {s' : DesktopTx}, SameTx s s' → s'.txUplinkOpened = s.txUplinkOpened →
      s'.ui.offAir = false ∧ s'.ui ≠ .deviceStart ∧ s'.ui ≠ .startPump ∧ s'.ui.handed = none →
      (s'.ui.endsPtt = true → u.speaking = true) → UplinkInv s' u := by
    rintro s' hs hsame ⟨h1, h2, h3, h4⟩ hends
    refine h.goto hs (by simp [h1]) (by simp [h2, h3]) (by simp [hoffAir]) hends (by simp [hui])
      (by simp [hui]) (by rw [h4, hoffAir.2]) ?_ ?_ fun _ => hsame
    · intro hsending
      simp [UiPc.offAir] at h1
      cases hpc : s'.ui <;> simp_all [UiPc.sending, UiPc.winding]
    · intro g n pcm f hf
      rw [hf] at h4
      cases h4
  cases ev with
  | beginPttTx =>
    simp only [handle, done] at hstep
    split at hstep
    · cases hstep
      exact ⟨u, rfl, quiet ⟨rfl, id, rfl, rfl, rfl⟩ rfl ⟨rfl, nofun, nofun, rfl⟩ nofun⟩
    rename_i hguard
    split at hstep
    · cases hstep
      exact ⟨u, rfl, quiet ⟨rfl, id, rfl, rfl, rfl⟩ rfl ⟨rfl, nofun, nofun, rfl⟩ nofun⟩
    split at hstep
    · cases hstep
      exact ⟨u, rfl, quiet ⟨rfl, id, rfl, rfl, rfl⟩ rfl ⟨rfl, nofun, nofun, rfl⟩ nofun⟩
    cases hstep
    have hoff : s.transmitting = false := by simp_all
    obtain ⟨hpump, hjoin⟩ := h.no_pump hoff (by simp [hui]) (by simp [hui])
    exact ⟨u, rfl, h.goto ⟨rfl, nofun, rfl, rfl, rfl⟩ (fun _ => hoff) nofun (by simp [hoffAir])
      nofun (by simp [hui]) (by simp [hui]) (by rw [hoffAir.2]; rfl) nofun nofun
      (by simp [hpump, hjoin])⟩
  | endPttTx =>
    simp only [handle, done] at hstep
    split at hstep <;> rename_i hguard <;> cases hstep
    · exact ⟨u, rfl, quiet ⟨rfl, id, rfl, rfl, rfl⟩ rfl ⟨rfl, nofun, nofun, rfl⟩ nofun⟩
    · have hon : s.transmitting = true := by simp_all
      exact ⟨u, rfl, quiet ⟨rfl, id, rfl, rfl, rfl⟩ rfl ⟨rfl, nofun, nofun, rfl⟩
        fun _ => h.speaks hon⟩
  | togglePttTx =>
    simp only [handle, done] at hstep
    split at hstep
    · cases hstep
      exact ⟨u, rfl, quiet ⟨rfl, id, rfl, rfl, rfl⟩ rfl ⟨rfl, nofun, nofun, rfl⟩ nofun⟩
    split at hstep <;> cases hstep <;>
      exact ⟨u, rfl, quiet ⟨rfl, id, rfl, rfl, rfl⟩ rfl ⟨rfl, nofun, nofun, rfl⟩ nofun⟩
  | onCallSignalClicked =>
    simp only [handle, done] at hstep
    split at hstep
    · cases hstep
      exact ⟨u, rfl, quiet ⟨rfl, id, rfl, rfl, rfl⟩ rfl ⟨rfl, nofun, nofun, rfl⟩ nofun⟩
    rename_i hguard
    split at hstep
    · cases hstep
      exact ⟨u, rfl, quiet ⟨rfl, id, rfl, rfl, rfl⟩ rfl ⟨rfl, nofun, nofun, rfl⟩ nofun⟩
    have hoff : s.transmitting = false := by simp_all
    obtain ⟨hpump, hjoin⟩ := h.no_pump hoff (by simp [hui]) (by simp [hui])
    have hhanded : u.handed = none := by
      rw [h.handed, hpump, hjoin, hoffAir.2]
      rfl
    have hspeaking : u.speaking = false := by
      by_contra hne
      rcases h.spoke (by simpa using hne) with hon | hw
      · rw [hoff] at hon
        cases hon
      · rw [hoffAir.1] at hw
        cases hw
    split at hstep <;> cases hstep
    · refine ⟨{ u with relayOpen := true }, rfl, ?_⟩
      constructor <;> simp_all [UiPc.handed, UiPc.endsPtt]
    · refine ⟨{ u with handed := none }, rfl, ?_⟩
      rw [← hhanded]
      exact quiet ⟨rfl, id, rfl, rfl, rfl⟩ rfl ⟨rfl, nofun, nofun, rfl⟩ nofun
  | onServerPttLock =>
    simp only [handle] at hstep
    split at hstep <;> cases hstep
    · exact ⟨u, rfl, quiet ⟨rfl, id, rfl, rfl, rfl⟩ rfl ⟨rfl, nofun, nofun, rfl⟩ nofun⟩
    · rename_i hoff
      exact ⟨u, rfl, h.goto ⟨rfl, id, rfl, rfl, rfl⟩ (fun _ => by simpa using hoff) nofun
        (by simp [hoffAir]) nofun (by simp [hui]) (by simp [hui]) (by rw [hoffAir.2]; rfl) nofun
        nofun fun _ => rfl⟩
  | onServerPttUnlock =>
    cases hstep
    exact ⟨u, rfl, quiet ⟨rfl, id, rfl, rfl, rfl⟩ rfl ⟨rfl, nofun, nofun, rfl⟩ nofun⟩
  | disconnect =>
    cases hstep
    exact ⟨u, rfl, quiet ⟨rfl, id, rfl, rfl, rfl⟩ rfl ⟨rfl, nofun, nofun, rfl⟩ nofun⟩
  | reconfigure sampleRate packetMs =>
    simp only [handle, done] at hstep
    split at hstep
    · cases hstep
    split at hstep <;> cases hstep
    · exact ⟨u, rfl, h.close rfl ⟨by simp [hui], hoffAir.2⟩ rfl rfl rfl rfl nofun⟩
    · exact ⟨u, rfl, quiet ⟨rfl, id, rfl, rfl, rfl⟩ rfl ⟨rfl, nofun, nofun, rfl⟩ nofun⟩

theorem onPcmFrame_accepts {frame : List ℤ} {pc : FramePc} {next : Option FramePc} (u : Uplink)
    (hhanded : u.handed = some frame) (hopened : s.txUplinkOpened = true → u.relayOpen = true)
    (hsend : pc = .txPcm → s.txUplinkOpened = true)
    (hstep : s.onPcmFrame frame pc = (s', next, out)) :
    (∃ opened, s' = { s with txUplinkOpened := opened } ∧
      (s.txUplinkOpened = true → opened = true) ∧ (next = some .txPcm → opened = true) ∧
      ∃ u', out.foldlM Uplink.accept u = some u' ∧ u'.speaking = u.speaking ∧
        u'.pending = u.pending ∧ (opened = true → u'.relayOpen = true) ∧
        u'.handed = next.map fun _ => frame) := by
  cases pc with
  | test =>
    cases hstep
    refine ⟨_, rfl, id, ?_, u, rfl, rfl, rfl, hopened, hhanded⟩
    split <;> simp_all
  | txOpen =>
    simp only [onPcmFrame] at hstep
    split at hstep <;> cases hstep
    · exact ⟨true, rfl, fun _ => rfl, fun _ => rfl, { u with relayOpen := true }, rfl, rfl, rfl,
        fun _ => rfl, hhanded⟩
    · exact ⟨_, rfl, id, (by simp), { u with handed := none }, rfl, rfl, rfl, hopened, rfl⟩
  | txPcm =>
    cases hstep
    refine ⟨_, rfl, id, (by simp), { u with handed := none }, ?_, rfl, rfl, hopened, rfl⟩
    simp [Uplink.accept, hhanded, hopened (hsend rfl)]

/-- Where no pump is left and the UI thread has no frame, none is handed over. -/
theorem UplinkInv.handed_none (h : UplinkInv s u) (hoff : s.transmitting = false)
    (hstopLock : ∀ c, s.ui ≠ .stopLock c) (hclose : ∀ c, s.ui ≠ .close c ∧ s.ui ≠ .join c)
    (hui : s.ui.handed = none) : u.handed = none := by
  obtain ⟨hpump, hjoin⟩ := h.no_pump hoff hstopLock hclose
  rw [h.handed, hpump, hjoin, hui]
  rfl

theorem UplinkInv.not_speaking (h : UplinkInv s u) (hoff : s.transmitting = false)
    (hui : s.ui.winding = false) : u.speaking = false := by
  by_contra hne
  rcases h.spoke (by simpa using hne) with hon | hw
  · rw [hoff] at hon
    cases hon
  · rw [hui] at hw
    cases hw

/-- The capture has ended: whoever stopped it goes on. -/
theorem UplinkInv.stopped (h : UplinkInv s u) (hui : s.ui.winding = true)
    (hstopLock : ∀ c, s.ui ≠ .stopLock c) (hclose : ∀ c, s.ui ≠ .close c ∧ s.ui ≠ .join c)
    (hhanded : s.ui.handed = none) (ui' : UiPc)
    (hui' : ui' = .idle ∨ (∃ had, ui' = .abort had) ∨
      ∃ g, ui' = .streamSignal g ∧ u.speaking = true) :
    [DesktopOutput.stopped].foldlM Uplink.accept u = some { u with speaking := false } ∧
      UplinkInv { s with ui := ui' } { u with speaking := false } := by
  have hoff : s.transmitting = false := h.offAir (UiPc.offAir_of_winding hui)
  obtain ⟨hpump, hjoin⟩ := h.no_pump hoff hstopLock hclose
  have hnone := h.handed_none hoff hstopLock hclose hhanded
  have hopened := h.opened
  refine ⟨by simp [Uplink.accept, hnone], ?_⟩
  rcases hui' with rfl | ⟨had, rfl⟩ | ⟨g, rfl, hspeaking⟩ <;> constructor <;>
    simp_all [UiPc.offAir, UiPc.winding, UiPc.sending, UiPc.handed, UiPc.endsPtt]

/-- The relay is told that the transmission is over. -/
theorem UplinkInv.ended (h : UplinkInv s u) (hoff : s.ui.offAir = true)
    (hui : s.ui.winding = false ∧ s.ui.handed = none) {o : DesktopOutput}
    (ho : o = .txClose ∨ o = .txAbort) {locked : Bool} :
    [o].foldlM Uplink.accept u = some { u with relayOpen := false } ∧
      UplinkInv { s with txUplinkOpened := false, serverPttLocked := locked, ui := .idle }
        { u with relayOpen := false } := by
  have hstopLock : ∀ c, s.ui ≠ .stopLock c := by
    rintro c hc
    simp [hc, UiPc.winding] at hui
  have hclose : ∀ c, s.ui ≠ .close c ∧ s.ui ≠ .join c := by
    refine fun c => ⟨?_, ?_⟩ <;> rintro hc <;> simp [hc, UiPc.winding] at hui
  have hoff := h.offAir hoff
  obtain ⟨hpump, hjoin⟩ := h.no_pump hoff hstopLock hclose
  have hnone := h.handed_none hoff hstopLock hclose hui.2
  have hspeaking := h.not_speaking hoff hui.1
  refine ⟨?_, ?_⟩
  · rcases ho with rfl | rfl <;> simp [Uplink.accept, hnone, hspeaking]
  · constructor <;>
      simp_all [UiPc.offAir, UiPc.winding, UiPc.sending, UiPc.handed, UiPc.endsPtt]

/-- While a signal is sent. -/
theorem UplinkInv.sends (h : UplinkInv s u) (hui : s.ui.sending = true) (hhanded : s.ui.handed = none)
    {s' : DesktopTx} (hs : SameTx s s') (hsame : s'.txUplinkOpened = s.txUplinkOpened)
    (hui' : s'.ui = .idle ∨ s'.ui.sending = true ∧ s'.ui.handed = none) : UplinkInv s' u := by
  have hpc : s.ui.winding = false ∧ (∀ c, s.ui ≠ .stopLock c) ∧
      ∀ c, s.ui ≠ .close c ∧ (s.ui = .join c → s.pumpJoin = none) := by
    cases hpc : s.ui <;> simp_all [UiPc.sending, UiPc.winding]
  have hpc' : s'.ui.handed = none ∧ s'.ui.endsPtt = false ∧ s'.ui ≠ .deviceStart ∧
      s'.ui ≠ .startPump := by
    rcases hui' with hidle | ⟨hsending, hnone⟩
    · simp [hidle, UiPc.handed, UiPc.endsPtt]
    · refine ⟨hnone, ?_⟩
      cases hpc : s'.ui <;> simp_all [UiPc.sending, UiPc.endsPtt]
  refine h.goto hs (fun _ => h.offAir (UiPc.offAir_of_sending hui)) (by simp [hpc']) (by simp [hpc])
    (by simp [hpc']) hpc.2.1 hpc.2.2 (by rw [hpc'.1, hhanded]) ?_ ?_ fun _ => hsame
  · exact fun _ ho => h.opened (Or.inr hui) (hsame ▸ ho)
  · intro g n pcm f hf
    have hnone := hpc'.1
    rw [hf] at hnone
    cases hnone

/-- A frame of a signal goes through the callback. -/
theorem UplinkInv.frame (h : UplinkInv s u) {pc : FramePc} {g : StreamedSignal} {n : ℕ}
    {pcmSignal frame : List ℤ} (hui : s.ui = .frame pc g n pcmSignal frame) {next : Option FramePc}
    (hstep : s.onPcmFrame frame pc = (s', next, out)) :
    ∃ u', out.foldlM Uplink.accept u = some u' ∧
      UplinkInv { s' with ui := next.elim (.stream g n pcmSignal) (.frame · g n pcmSignal frame) }
        u' := by
  have hsending : s.ui.sending = true := by rw [hui]; rfl
  have hoff := h.offAir (UiPc.offAir_of_sending hsending)
  obtain ⟨hpump, hjoin⟩ := h.no_pump hoff (by simp [hui]) (by simp [hui])
  have hhanded : u.handed = some frame := by
    rw [h.handed, hpump, hjoin, hui]
    rfl
  have hspeaking := h.not_speaking hoff (by rw [hui]; rfl)
  obtain ⟨opened, rfl, -, hsend, u', haccept, hspeaks', hpending', hopened', hhanded'⟩ :=
    onPcmFrame_accepts u hhanded (h.opened (Or.inr hsending))
      (fun htx => h.uiSends g n pcmSignal frame (htx ▸ hui)) hstep
  refine ⟨u', haccept, ?_⟩
  cases next with
  | none =>
    constructor <;>
      simp_all [UiPc.offAir, UiPc.winding, UiPc.sending, UiPc.handed, UiPc.endsPtt]
  | some pc' =>
    constructor <;>
      simp_all [UiPc.offAir, UiPc.winding, UiPc.sending, UiPc.handed, UiPc.endsPtt]

theorem uiStep_accepts (h : UplinkInv s u) (hstep : s.uiStep = some (s', out)) :
    ∃ u', out.foldlM Uplink.accept u = some u' ∧ UplinkInv s' u' := by
  cases hui : s.ui with
  | idle => simp [uiStep, hui] at hstep
  | handle ev =>
    simp only [uiStep, hui] at hstep
    exact handle_accepts h hui hstep
  | startTransmit =>
    have hsending : s.ui.sending = true := by rw [hui]; rfl
    have hnone : s.ui.handed = none := by rw [hui]; rfl
    have hoff : s.transmitting = false := h.offAir (UiPc.offAir_of_sending hsending)
    obtain ⟨hpump, hjoin⟩ := h.no_pump hoff (by simp [hui]) (by simp [hui])
    have hback : UplinkInv { s with ui := .idle } u :=
      h.sends hsending hnone ⟨rfl, id, rfl, rfl, rfl⟩ rfl (Or.inl rfl)
    simp only [uiStep, hui, done] at hstep
    split at hstep
    · cases hstep
    split at hstep
    · cases hstep
      exact ⟨u, rfl, hback⟩
    split at hstep
    · cases hstep
      exact ⟨u, rfl, hback⟩
    cases hstep
    have hspeaking := h.not_speaking hoff (by rw [hui]; rfl)
    have hhanded := h.handed_none hoff (by simp [hui]) (by simp [hui]) hnone
    have hopened := h.opened (Or.inr hsending)
    refine ⟨{ u with speaking := true, pending := [] }, by simp [Uplink.accept, *], ?_⟩
    constructor <;> simp_all [UiPc.offAir, UiPc.winding, UiPc.sending, UiPc.handed, UiPc.endsPtt]
  | deviceStart =>
    obtain ⟨hon, hpump⟩ := h.onAir (Or.inl hui)
    have hspeaking := h.speaks hon
    have hjoin : s.pumpJoin = none := by
      by_contra hne
      obtain ⟨-, c, hc | hc⟩ := h.joined hne <;> rw [hui] at hc <;> cases hc
    have hopened := h.opened
    have hhanded := h.handed
    simp only [uiStep, hui, goto] at hstep
    split at hstep <;> cases hstep
    · exact ⟨u, rfl, h.goto ⟨rfl, id, rfl, rfl, rfl⟩ (by rintro ⟨⟩) (fun _ => ⟨hon, hpump⟩)
        (by simp [hui, UiPc.winding]) (by rintro ⟨⟩) (by simp [hui]) (by simp [hui]) (by rw [hui]; rfl)
        (by rintro ⟨⟩) (by rintro _ _ _ _ ⟨⟩) fun _ => rfl⟩
    · refine ⟨u, rfl, ?_⟩
      constructor <;> simp_all [UiPc.offAir, UiPc.winding, UiPc.sending, UiPc.handed, UiPc.endsPtt]
  | startPump =>
    obtain ⟨hon, hpump⟩ := h.onAir (Or.inr hui)
    have hspeaking := h.speaks hon
    have hjoin : s.pumpJoin = none := by
      by_contra hne
      obtain ⟨-, c, hc | hc⟩ := h.joined hne <;> rw [hui] at hc <;> cases hc
    have hopened := h.opened
    have hhanded := h.handed
    have hpending := h.pending
    simp only [uiStep, hui, done, hpump] at hstep
    split at hstep
    · cases hstep
    cases hstep
    refine ⟨u, rfl, ?_⟩
    constructor <;> simp_all [UiPc.offAir, UiPc.winding, UiPc.sending, UiPc.handed, UiPc.endsPtt,
      PumpPc.handed]
  | startFailed =>
    simp only [uiStep, hui, done] at hstep
    split at hstep <;> cases hstep
    exact ⟨_, h.stopped (by rw [hui]; rfl) (by simp [hui]) (by simp [hui]) (by rw [hui]; rfl) _
      (Or.inl rfl)⟩
  | stop c =>
    have hjoin : s.pumpJoin = none := by
      by_contra hne
      obtain ⟨-, c, hc | hc⟩ := h.joined hne <;> rw [hui] at hc <;> cases hc
    obtain ⟨-, -, -, -, hending, hpump, -, -, hhanded, hopened, hsends, -⟩ := h
    simp only [uiStep, hui, goto] at hstep
    cases hstep
    refine ⟨u, rfl, ?_⟩
    constructor <;> simp_all [UiPc.winding, UiPc.sending, UiPc.handed]
    cases c <;> simp_all [UiPc.endsPtt]
  | stopLock c =>
    simp only [uiStep, hui, goto] at hstep
    split at hstep <;> cases hstep
    exact ⟨u, rfl, h.close rfl ⟨by simp [hui], by rw [hui]; rfl⟩
      (h.offAir (by rw [hui]; rfl)) rfl rfl rfl
      fun hc => h.ending (by rw [hui, hc]; rfl)⟩
  | close c =>
    have hoff : s.transmitting = false := h.offAir (by rw [hui]; rfl)
    have hpump : s.txPumpThread = none := h.idle_pump hoff (by simp [hui])
    obtain ⟨-, -, -, -, hending, -, hjoined, -, hhanded, hopened, hsends, -⟩ := h
    simp only [uiStep, hui, goto] at hstep
    split at hstep <;> cases hstep
    refine ⟨u, rfl, ?_⟩
    cases c <;> constructor <;>
      simp_all [configure, UiPc.winding, UiPc.sending, UiPc.handed, UiPc.endsPtt]
  | join c =>
    have hoff : s.transmitting = false := h.offAir (by rw [hui]; rfl)
    have hpump : s.txPumpThread = none := h.idle_pump hoff (by simp [hui])
    have hjoined : ∀ t, s.uiStep = some t → s.pumpJoin = none ∨ s.pumpJoin = some .ended := by
      intro t ht
      simp only [uiStep, hui] at ht
      split at ht
      · exact Or.inl ‹_›
      · exact Or.inr ‹_›
      · cases ht
    obtain ⟨-, -, -, -, hending, -, -, -, hhanded, hopened, hsends, -⟩ := h
    rcases hjoined _ hstep with hjoin | hjoin <;> simp only [uiStep, hui, hjoin, goto] at hstep <;>
      cases hstep <;> refine ⟨u, rfl, ?_⟩ <;> cases c <;> constructor <;>
      simp_all [UiPc.winding, UiPc.sending, UiPc.handed, UiPc.endsPtt, PumpPc.handed]
  | stopped c =>
    have hwinding : s.ui.winding = true := by rw [hui]; rfl
    have hnone : s.ui.handed = none := by rw [hui]; rfl
    have hback := h.stopped hwinding (by simp [hui]) (by simp [hui]) hnone
    simp only [uiStep, hui] at hstep
    cases c with
    | endPttTx =>
      cases hstep
      exact ⟨_, hback _ (Or.inr (Or.inr ⟨_, rfl, h.ending (by rw [hui]; rfl)⟩))⟩
    | forceAbort had =>
      cases hstep
      exact ⟨_, hback _ (Or.inr (Or.inl ⟨_, rfl⟩))⟩
    | disconnect =>
      cases hstep
      obtain ⟨haccept, hinv⟩ := hback .idle (Or.inl rfl)
      have hhanded := hinv.handed_none (h.offAir (UiPc.offAir_of_winding hwinding)) (by simp)
        (by simp) rfl
      refine ⟨{ u with speaking := false, relayOpen := false }, ?_, ?_⟩
      · simp_all [Uplink.accept]
      · obtain ⟨h1, h2, h3, h4, h5, h6, h7, h8, h9, h10, h11, h12⟩ := hinv
        constructor <;> simp_all [UiPc.sending]
    | reconfigure sampleRate packetMs =>
      cases hstep
      exact ⟨_, hback _ (Or.inl rfl)⟩
  | streamSignal g =>
    simp only [uiStep, hui, goto] at hstep
    split at hstep <;> cases hstep <;>
      exact ⟨u, rfl, h.sends (by rw [hui]; rfl) (by rw [hui]; rfl) ⟨rfl, id, rfl, rfl, rfl⟩ rfl
        (Or.inr ⟨rfl, rfl⟩)⟩
  | readPattern g =>
    simp only [uiStep, hui, goto] at hstep
    split at hstep
    · cases hstep
    split at hstep
    · cases hstep
      exact ⟨u, rfl, h.sends (by rw [hui]; rfl) (by rw [hui]; rfl) ⟨rfl, id, rfl, rfl, rfl⟩ rfl
        (Or.inr ⟨rfl, rfl⟩)⟩
    split at hstep <;> cases hstep <;>
      exact ⟨u, rfl, h.sends (by rw [hui]; rfl) (by rw [hui]; rfl) ⟨rfl, id, rfl, rfl, rfl⟩ rfl
        (Or.inr ⟨rfl, rfl⟩)⟩
  | stream g n pcmSignal =>
    have hsending : s.ui.sending = true := by rw [hui]; rfl
    have hnone : s.ui.handed = none := by rw [hui]; rfl
    have hoff : s.transmitting = false := h.offAir (UiPc.offAir_of_sending hsending)
    simp only [uiStep, hui, goto] at hstep
    split at hstep
    · cases hstep
      exact ⟨u, rfl, h.sends hsending hnone ⟨rfl, id, rfl, rfl, rfl⟩ rfl (Or.inr ⟨rfl, rfl⟩)⟩
    split at hstep <;> cases hstep
    · exact ⟨u, rfl, h.sends hsending hnone ⟨rfl, id, rfl, rfl, rfl⟩ rfl (Or.inr ⟨rfl, rfl⟩)⟩
    obtain ⟨hpump, hjoin⟩ := h.no_pump hoff (by simp [hui]) (by simp [hui])
    have hspeaking := h.not_speaking hoff (by rw [hui]; rfl)
    have hhanded := h.handed_none hoff (by simp [hui]) (by simp [hui]) hnone
    have hopened := h.opened (Or.inr hsending)
    refine ⟨{ u with handed := some (signalFrame n pcmSignal) }, by simp [Uplink.accept, *], ?_⟩
    constructor <;> simp_all [UiPc.winding, UiPc.sending, UiPc.handed, UiPc.endsPtt]
  | frame pc g n pcmSignal frame =>
    simp only [uiStep, hui] at hstep
    rcases hframe : s.onPcmFrame frame pc with ⟨t, _ | pc', out'⟩ <;> rw [hframe] at hstep <;>
      cases hstep <;> exact h.frame hui hframe
  | streamEnd g ok =>
    simp only [uiStep, hui, goto] at hstep
    cases hstep
    exact ⟨u, rfl, h.sends (by rw [hui]; rfl) (by rw [hui]; rfl) ⟨rfl, id, rfl, rfl, rfl⟩ rfl
      (Or.inr ⟨rfl, rfl⟩)⟩
  | streamed g ok =>
    simp only [uiStep, hui, done] at hstep
    split at hstep <;> cases hstep
    · exact ⟨_, h.ended (by rw [hui]; rfl) ⟨by rw [hui]; rfl, by rw [hui]; rfl⟩ (Or.inl rfl)⟩
    · exact ⟨u, rfl, h.sends (by rw [hui]; rfl) (by rw [hui]; rfl) ⟨rfl, id, rfl, rfl, rfl⟩ rfl
        (Or.inl rfl)⟩
  | abort had =>
    simp only [uiStep, hui, done] at hstep
    split at hstep <;> cases hstep
    · exact ⟨_, h.ended (by rw [hui]; rfl) ⟨by rw [hui]; rfl, by rw [hui]; rfl⟩ (Or.inr rfl)⟩
    · exact ⟨u, rfl, h.goto ⟨rfl, id, rfl, rfl, rfl⟩ (by rintro ⟨⟩) (by rintro (h | h) <;> cases h)
        (by simp [hui, UiPc.winding]) (by rintro ⟨⟩) (by simp [hui]) (by simp [hui])
        (by rw [hui]; rfl) (by rintro ⟨⟩) (by rintro _ _ _ _ ⟨⟩) fun _ => rfl⟩

/-! ### The pump and the device -/

/-- While `txPumpThread_` has a pump, no handler has another one and none sends a signal. -/
theorem UplinkInv.only_pump (h : UplinkInv s u) (hpump : s.txPumpThread ≠ none) :
    s.pumpJoin = none ∧ s.ui.handed = none := by
  obtain ⟨-, hon⟩ := h.pump hpump
  have hpc : ∀ pc, s.ui = pc → pc.offAir = true → ∃ c, pc = .stopLock c := by
    rintro pc rfl hoff
    rcases hon with hon | hc
    · rw [h.offAir hoff] at hon
      cases hon
    · exact hc
  refine ⟨by_contra fun hne => ?_, ?_⟩
  · obtain ⟨-, c, hc | hc⟩ := h.joined hne <;> obtain ⟨c', hc'⟩ := hpc _ hc rfl <;> cases hc'
  · cases hui : s.ui with
    | frame pc g n pcmSignal frame =>
      obtain ⟨c, hc⟩ := hpc _ hui rfl
      cases hc
    | _ => rfl

theorem UplinkInv.only_joined (h : UplinkInv s u) (hjoin : s.pumpJoin ≠ none) :
    s.txPumpThread = none ∧ s.ui.handed = none ∧ s.transmitting = false := by
  obtain ⟨-, c, hc⟩ := h.joined hjoin
  have hoff : s.transmitting = false := h.offAir (by rcases hc with hc | hc <;> rw [hc] <;> rfl)
  refine ⟨h.idle_pump hoff ?_, ?_, hoff⟩ <;> rcases hc with hc | hc <;> rw [hc]
  · exact nofun
  · exact nofun
  · rfl
  · rfl

/-- A step that changes no more than the pump in its place, the uplink and the frame handed over. -/
theorem UplinkInv.pumped (h : UplinkInv s u) {pc pc' : PumpPc} {opened : Bool} {fifo : List ℤ}
    {u' : Uplink} (hsend : ∀ f, pc' = .frame .txPcm f → opened = true)
    (hspeaking : u'.speaking = u.speaking) (hpending : s.transmitting = true → u'.pending = fifo)
    (hrelay : opened = true → u'.relayOpen = true) (hhanded : u'.handed = pc'.handed) :
    (s.txPumpThread = some pc → UplinkInv
      { s with txUplinkOpened := opened, captureFifo := fifo, txPumpThread := some pc' } u') ∧
    (s.pumpJoin = some pc → UplinkInv
      { s with txUplinkOpened := opened, captureFifo := fifo, pumpJoin := some pc' } u') := by
  constructor
  · intro hpc
    have hne : s.txPumpThread ≠ none := by simp [hpc]
    obtain ⟨hjoin, hui⟩ := h.only_pump hne
    have hpump := h.pump hne
    constructor
    · exact h.offAir
    · exact fun hon => (hne (h.onAir hon).2).elim
    · exact hspeaking ▸ h.speaks
    · exact hspeaking ▸ h.spoke
    · exact hspeaking ▸ h.ending
    · exact fun _ => hspeaking ▸ hpump
    · exact hspeaking ▸ h.joined
    · exact hpending
    · rw [hhanded, hjoin, hui]
      cases pc' <;> rfl
    · exact fun _ => hrelay
    · intro f hf
      rcases hf with hf | hf
      · exact hsend f (Option.some.inj hf)
      · rw [hjoin] at hf
        cases hf
    · intro g n pcm f hf
      rw [hf] at hui
      cases hui
  · intro hpc
    have hne : s.pumpJoin ≠ none := by simp [hpc]
    obtain ⟨hpump, hui, hoff⟩ := h.only_joined hne
    have hjoined := h.joined hne
    constructor
    · exact h.offAir
    · exact h.onAir
    · exact hspeaking ▸ h.speaks
    · exact hspeaking ▸ h.spoke
    · exact hspeaking ▸ h.ending
    · exact hspeaking ▸ h.pump
    · exact fun _ => hspeaking ▸ hjoined
    · exact hpending
    · rw [hhanded, hpump, hui]
      cases pc' <;> rfl
    · exact fun _ => hrelay
    · intro f hf
      rcases hf with hf | hf
      · rw [hpump] at hf
        cases hf
      · exact hsend f (Option.some.inj hf)
    · intro g n pcm f hf
      rw [hf] at hui
      cases hui

/-- A step of a pump that `txPumpThread_` or the stopping handler owns. -/
theorem pumpStep_accepts (h : UplinkInv s u) {pc pc' : PumpPc}
    (hpc : s.txPumpThread = some pc ∨ s.pumpJoin = some pc)
    (hstep : s.pumpStep pc = some (s', pc', out)) :
    ∃ u', out.foldlM Uplink.accept u = some u' ∧
      (s.txPumpThread = some pc → UplinkInv { s' with txPumpThread := some pc' } u') ∧
      (s.pumpJoin = some pc → UplinkInv { s' with pumpJoin := some pc' } u') := by
  have hhanded : u.handed = pc.handed := by
    rcases hpc with hpc | hpc
    · obtain ⟨hjoin, hui⟩ := h.only_pump (by simp [hpc])
      rw [h.handed, hpc, hjoin, hui]
      cases pc <;> rfl
    · obtain ⟨hpump, hui, -⟩ := h.only_joined (by simp [hpc])
      rw [h.handed, hpc, hpump, hui]
      cases pc <;> rfl
  have hspeaking : u.speaking = true := by
    rcases hpc with hpc | hpc
    · exact (h.pump (by simp [hpc])).1
    · exact (h.joined (by simp [hpc])).1
  have hopened := h.opened (Or.inl hspeaking)
  cases pc with
  | wait =>
    simp only [pumpStep] at hstep
    split at hstep
    · cases hstep
    split at hstep
    · cases hstep
      exact ⟨u, rfl, h.pumped (by rintro _ ⟨⟩) rfl h.pending hopened hhanded⟩
    split at hstep <;> cases hstep
    rename_i htake
    obtain ⟨hon, hpos, hle⟩ := htake
    have hpending := h.pending hon
    have hlen : 0 < s.captureFifo.length ∧ s.frameSamples.toNat ≤ s.captureFifo.length := by
      have hcast : TxPcm.castInt s.captureFifo.length ≤ s.captureFifo.length :=
        TxPcm.castInt_le _
      omega
    refine ⟨{ u with
      pending := s.captureFifo.drop s.frameSamples.toNat
      handed := some (s.captureFifo.take s.frameSamples.toNat) }, ?_,
      h.pumped (by rintro _ ⟨⟩) rfl (fun _ => rfl) hopened rfl⟩
    have hne : s.captureFifo.take s.frameSamples.toNat ≠ [] := by
      rw [Ne, List.take_eq_nil_iff, not_or]
      exact ⟨by omega, List.length_pos_iff.1 hlen.1⟩
    simp [Uplink.accept, hspeaking, hhanded, PumpPc.handed, hne, hpending, List.take_prefix,
      min_eq_left hlen.2]
  | frame fpc f =>
    simp only [pumpStep] at hstep
    have hsend : fpc = .txPcm → s.txUplinkOpened = true := by
      rintro rfl
      exact h.pumpSends f hpc
    rcases hframe : s.onPcmFrame f fpc with ⟨t, next, out'⟩
    obtain ⟨opened, rfl, hmono, hnext, u', haccept, hspeaks, hpends, hrelay, hhands⟩ :=
      onPcmFrame_accepts u hhanded hopened hsend hframe
    rw [hframe] at hstep
    have hpending : s.transmitting = true → u'.pending = s.captureFifo := fun hon =>
      hpends.trans (h.pending hon)
    cases next with
    | none =>
      cases hstep
      exact ⟨u', haccept, h.pumped (by rintro _ ⟨⟩) hspeaks hpending hrelay hhands⟩
    | some fpc' =>
      cases hstep
      exact ⟨u', haccept, h.pumped (fun f hf => hnext (by cases hf; rfl)) hspeaks hpending
        hrelay hhands⟩
  | ended => cases hstep

/-- What the device appends while `transmitting_` is set is pending. -/
theorem captureInsert_accepts (h : UplinkInv s u) (hstep : s.captureInsert = some (s', out)) :
    ∃ u', out.foldlM Uplink.accept u = some u' ∧ UplinkInv s' u' := by
  obtain ⟨h1, h2, h3, h4, h5, h6, h7, h8, h9, h10, h11, h12⟩ := h
  simp only [captureInsert] at hstep
  split at hstep
  · cases hstep
  split at hstep
  · cases hstep
  split at hstep <;> rename_i hon <;> cases hstep
  · exact ⟨u, rfl, h1, h2, h3, h4, h5, h6, h7, h8, h9, h10, h11, h12⟩
  · rename_i pcm _ _
    have hon : s.transmitting = true := by simpa using hon
    refine ⟨{ u with pending := u.pending ++ pcm }, by simp [Uplink.accept, h3 hon],
      h1, h2, h3, h4, h5, h6, h7, fun _ => ?_, h9, h10, h11, h12⟩
    rw [h8 hon]

theorem step_accepts (h : UplinkInv s u) (a : DesktopAction) :
    ∃ u', (s.step a).2.foldlM Uplink.accept u = some u' ∧ UplinkInv (s.step a).1 u' := by
  have hstay : ∀ {r : Option (DesktopTx × List DesktopOutput)},
      (∀ s' out, r = some (s', out) →
        ∃ u', out.foldlM Uplink.accept u = some u' ∧ UplinkInv s' u') →
      ∃ u', (r.getD (s, [])).2.foldlM Uplink.accept u = some u' ∧ UplinkInv (r.getD (s, [])).1 u' := by
    rintro (_ | ⟨s', out⟩) hr
    · exact ⟨u, rfl, h⟩
    · exact hr s' out rfl
  cases a with
  | surroundings e =>
    obtain ⟨h1, h2, h3, h4, h5, h6, h7, h8, h9, h10, h11, h12⟩ := h
    exact ⟨u, rfl, h1, h2, h3, h4, h5, h6, h7, h8, h9, h10, h11, h12⟩
  | event ev =>
    simp only [step]
    split
    · rename_i hidle
      exact ⟨u, rfl, h.goto ⟨rfl, id, rfl, rfl, rfl⟩ nofun nofun (by simp [hidle, UiPc.winding]) nofun
        (by simp [hidle]) (by simp [hidle]) (by rw [hidle]; rfl) nofun nofun fun _ => rfl⟩
    · exact ⟨u, rfl, h⟩
  | ui => exact hstay fun s' out hstep => uiStep_accepts h hstep
  | pump =>
    cases hbind : s.txPumpThread.bind s.pumpStep with
    | none => exact ⟨u, by simp [step, hbind], by simpa [step, hbind] using h⟩
    | some r =>
      obtain ⟨s', pc', out⟩ := r
      obtain ⟨pc, hpc, hstep⟩ := Option.bind_eq_some_iff.1 hbind
      obtain ⟨u', haccept, hinv, -⟩ := pumpStep_accepts h (Or.inl hpc) hstep
      simp only [step, hbind]
      exact ⟨u', haccept, hinv hpc⟩
  | joinedPump =>
    cases hbind : s.pumpJoin.bind s.pumpStep with
    | none => exact ⟨u, by simp [step, hbind], by simpa [step, hbind] using h⟩
    | some r =>
      obtain ⟨s', pc', out⟩ := r
      obtain ⟨pc, hpc, hstep⟩ := Option.bind_eq_some_iff.1 hbind
      obtain ⟨u', haccept, -, hinv⟩ := pumpStep_accepts h (Or.inr hpc) hstep
      simp only [step, hbind]
      exact ⟨u', haccept, hinv hpc⟩
  | onCaptureFrames pcm =>
    refine ⟨u, rfl, ?_⟩
    obtain ⟨h1, h2, h3, h4, h5, h6, h7, h8, h9, h10, h11, h12⟩ := h
    simp only [step, onCaptureFrames]
    split_ifs <;> exact ⟨h1, h2, h3, h4, h5, h6, h7, h8, h9, h10, h11, h12⟩
  | captureInsert => exact hstay fun s' out hstep => captureInsert_accepts h hstep

theorem uplinkInv_init : UplinkInv {} {} := by
  constructor <;> simp [UiPc.offAir, UiPc.winding, UiPc.sending, UiPc.handed, UiPc.endsPtt]

/-- The run of the threads and the transmission that it is seen as. -/
theorem accepts_outputs (as : List DesktopAction) :
    ∃ u, (outputs step {} as).foldlM Uplink.accept {} = some u ∧
      UplinkInv (after (next step) {} as) u := by
  induction as using List.reverseRecOn with
  | nil => exact ⟨{}, rfl, uplinkInv_init⟩
  | append_singleton as a ih =>
    obtain ⟨u, haccept, hinv⟩ := ih
    obtain ⟨u', haccept', hinv'⟩ := step_accepts hinv a
    refine ⟨u', ?_, by rwa [after_snoc]⟩
    rw [outputs_snoc, List.foldlM_append, haccept]
    exact haccept'

end DesktopTx

/-- In every interleaving of the handlers, the pump and the device, the calls of the relay keep the
order of a transmission. -/
theorem desktop_refines_uplink (as : List DesktopAction) :
    ∃ u, (outputs DesktopTx.step {} as).foldlM Uplink.accept {} = some u :=
  (DesktopTx.accepts_outputs as).imp fun _ h => h.1

open Uplink in
/-- Between a press of the key and the next one, the frames of the microphone, joined, are an
initial part of what the device has captured since the press, and none comes after the capture has
ended. -/
theorem mic_frames_of_transmission (as : List DesktopAction) (pre post : List DesktopOutput)
    (houts : outputs DesktopTx.step {} as = pre ++ .started :: post) (hpost : .started ∉ post) :
    post.flatMap framed <+: post.flatMap captured ∧
      ∀ mid tail, post = mid ++ .stopped :: tail → ∀ f, .micFrame f ∉ tail := by
  obtain ⟨u, hu, -⟩ := DesktopTx.accepts_outputs as
  rw [houts] at hu
  obtain ⟨v, w, -, hw, hrest⟩ := exists_of_foldlM_append hu
  have hpending : w.pending = [] := by
    simp only [accept] at hw
    split at hw <;> cases hw
    rfl
  refine ⟨?_, ?_⟩
  · have hprefix := framed_initial hpost hrest
    rwa [hpending, List.nil_append] at hprefix
  · rintro mid tail rfl f hf
    obtain ⟨x, y, -, hy, htail⟩ := exists_of_foldlM_append hrest
    have hquiet : y.speaking = false := by
      simp only [accept] at hy
      split at hy <;> cases hy
      rfl
    exact silent_of_stopped (fun hin => hpost (by simp [hin])) hquiet htail f hf

open Uplink in
/-- Two samples a frame; the third sample is left over. -/
theorem mic_frames_of_transmission_two :
    ([.captured [5, 6, 7], .micFrame [5, 6], .txOpen true, .txPcm [5, 6]] :
        List DesktopOutput).flatMap framed <+:
      ([.captured [5, 6, 7], .micFrame [5, 6], .txOpen true, .txPcm [5, 6]] :
        List DesktopOutput).flatMap captured ∧
    ∀ mid tail : List DesktopOutput,
      [.captured [5, 6, 7], .micFrame [5, 6], .txOpen true, .txPcm [5, 6]] =
        mid ++ .stopped :: tail → ∀ f, .micFrame f ∉ tail :=
  mic_frames_of_transmission
    [.event (.reconfigure 1000 2), .ui, .event .beginPttTx, .ui, .ui, .ui, .ui,
      .onCaptureFrames [5, 6, 7], .captureInsert, .pump, .pump, .pump, .pump] []
    [.captured [5, 6, 7], .micFrame [5, 6], .txOpen true, .txPcm [5, 6]] (by decide) (by decide)

open Uplink in
/-- Every frame that the relay gets was the last one handed over, and the relay was opened before
and not closed since. -/
theorem tx_pcm_bracketed (as : List DesktopAction) (pre post : List DesktopOutput) (frame : List ℤ)
    (houts : outputs DesktopTx.step {} as = pre ++ .txPcm frame :: post) :
    (∃ before since, pre = before ++ .txOpen true :: since ∧ ∀ o ∈ since, ¬ ClosesRelay o) ∧
      ∃ before o since, pre = before ++ o :: since ∧
        (o = .micFrame frame ∨ o = .signalFrame frame) ∧
        ∀ f, .micFrame f ∉ since ∧ .signalFrame f ∉ since ∧ .txPcm f ∉ since := by
  obtain ⟨u, hu, -⟩ := DesktopTx.accepts_outputs as
  rw [houts] at hu
  obtain ⟨v, w, hv, hw, -⟩ := exists_of_foldlM_append hu
  have hsent : v.relayOpen = true ∧ v.handed = some frame := by
    simp only [accept] at hw
    split at hw
    · assumption
    · cases hw
  exact ⟨exists_open hv hsent.1, exists_handed hv hsent.2⟩

open Uplink in
theorem tx_pcm_bracketed_two :
    (∃ before since : List DesktopOutput,
      [.started, .captured [5, 6, 7], .micFrame [5, 6], .txOpen true] =
        before ++ .txOpen true :: since ∧ ∀ o ∈ since, ¬ ClosesRelay o) ∧
    ∃ (before : List DesktopOutput) (o : DesktopOutput) (since : List DesktopOutput),
      [.started, .captured [5, 6, 7], .micFrame [5, 6], .txOpen true] = before ++ o :: since ∧
        (o = .micFrame [5, 6] ∨ o = .signalFrame [5, 6]) ∧
        ∀ f, .micFrame f ∉ since ∧ .signalFrame f ∉ since ∧ .txPcm f ∉ since :=
  tx_pcm_bracketed
    [.event (.reconfigure 1000 2), .ui, .event .beginPttTx, .ui, .ui, .ui, .ui,
      .onCaptureFrames [5, 6, 7], .captureInsert, .pump, .pump, .pump, .pump] _ [] [5, 6] (by decide)

end OWalkie
