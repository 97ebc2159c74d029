import OWalkie.Relay.Admission
import OWalkie.Relay.DspStages
import OWalkie.Relay.Outbound
import OWalkie.Relay.SelfEcho

/-!
# Talkers and their own lock

The messages that open a receive session go to everybody but the session that the first frame
excludes, and a frame excludes a speaker only if it is the only one.  `talkers_spared_iff` says on
which frames no speaker is told to stop.
-/

namespace OWalkie

open Run

namespace MixCore

variable {E M : Type} {p : MixerParams} {now : ℤ} {heard : List Heard} {txEOF : Bool}
  {c : MixCore E M}

/-- The speakers of a frame that its broadcast leaves out. -/
theorem excluded_account_iff {hd : Heard} (hmem : hd ∈ heard) :
    ((c.account now heard txEOF).1.excluded p now (heard.map (·.sid)) ≠ 0 ∧
        hd.sid = (c.account now heard txEOF).1.excluded p now (heard.map (·.sid))) ↔
      heard.length = 1 ∧ hd.sid ≠ 0 := by
  match heard, hmem with
  | [hd'], hmem =>
    obtain rfl : hd = hd' := by simpa using hmem
    simp [excluded]
  | _ :: _ :: _, _ => simp [excluded]

end MixCore

namespace Outbound

variable {D E M : Type} [OpusDecoder D] [OpusEncoder E] [AudioModule M] {p : MixerParams}
  {mods : ModuleSet M}

/-- A broadcast that the tick leaves pending will be sent to a session that is heard on its
frame. -/
def AddressesTalker (p : MixerParams) (mods : ModuleSet M) (s : Outbound D E M) (t : TickInput) :
    Prop :=
  ∃ call ∈ (s.tick p mods t).ws.mixer, ∃ hd ∈ s.loop.heard p t,
    s.ws.Present hd.sid ∧ s.ws.Addressed call.except hd.sid

/-- A frame is followed by no message to one of its own speakers if and only if the receive session
is running already, or the speakers present in the channel are one, with an id that can be left
out. -/
theorem talkers_spared_iff {encoder : E} {as : List (OutboundAction E)} {t : TickInput}
    {f : MixedFrame} (hf : (run p mods encoder as : Outbound D E M).Emits p mods t f) :
    ¬ (run p mods encoder as : Outbound D E M).AddressesTalker p mods t ↔
      (run p mods encoder as : Outbound D E M).ws.rx.rxOutSessionActive = true ∨
        ∀ hd ∈ (run p mods encoder as : Outbound D E M).loop.heard p t,
          (run p mods encoder as : Outbound D E M).ws.Present hd.sid →
            ((run p mods encoder as : Outbound D E M).loop.heard p t).length = 1 ∧ hd.sid ≠ 0 := by
  generalize (run p mods encoder as : Outbound D E M) = s at hf ⊢
  have hexclude := MixCore.broadcast_exclude hf.2.2
  unfold AddressesTalker
  rw [tick_ws hf]
  constructor
  · intro hspared
    by_contra hno
    push Not at hno
    obtain ⟨hactive, hd, hhd, hpresent, hlong⟩ := hno
    have hmsgs := mt (RxWsState.noteOutboundMixedUDP_eq_nil_iff p s.loop.clock s.ws.rx).1 hactive
    obtain ⟨msg, hmsg⟩ := List.exists_mem_of_ne_nil _ hmsgs
    refine hspared ⟨⟨f.exclude, msg, none⟩, List.mem_map.2 ⟨msg, hmsg, rfl⟩, hd, hhd, hpresent,
      hpresent.2, ?_⟩
    rw [hexclude, MixCore.excluded_account_iff hhd]
    exact fun h => h.2 (hlong h.1)
  · rintro (hactive | hsole) ⟨call, hcall, hd, hhd, hpresent, -, haddressed⟩
    · rw [(RxWsState.noteOutboundMixedUDP_eq_nil_iff p _ _).2 hactive] at hcall
      cases hcall
    · rw [BroadcastCall.except_of_mem_callsFor hcall, hexclude,
        MixCore.excluded_account_iff hhd] at haddressed
      exact haddressed (hsole hd hhd hpresent)

instance (p : MixerParams) (mods : ModuleSet M) (s : Outbound D E M) (t : TickInput) :
    Decidable (s.AddressesTalker p mods t) := by
  unfold AddressesTalker
  infer_instance

/-! ## Two talkers on the first frame -/

/-- A busy channel with 40 ms hangover and 60 ms of concealment, behind a squelch. -/
def shortBusyChannel : MixerParams :=
  ServerConfig.params
    { hangoverMs := 40, eofTimeoutMs := 60, jitterMinPkts := 1, busyMode := true }
    (some shortSquelch.tail)

/-- A run of that channel with a silent codec. -/
abbrev squelchRun (as : List (OutboundAction SilentCodec)) :
    Outbound SilentCodec SilentCodec DspChain :=
  run shortBusyChannel (squelchChain.moduleSet (-30)) ⟨⟩ as

/-- Clients 1 and 2 join, and client 1 sends one packet of that strength. -/
def firstPacket (strength : UInt8) : List (OutboundAction SilentCodec) :=
  (WsChannel.joins 1 ++ WsChannel.joins 2).map .ws ++
    [packetOf 1 1 strength, .loop (.elapse (20 * 1000000))]

/-- The one speaker of the first frame is not sent its own start and lock. -/
theorem talkers_spared_single :
    ¬ (squelchRun (firstPacket 200)).AddressesTalker shortBusyChannel (squelchChain.moduleSet (-30))
      { order := [1] } :=
  (talkers_spared_iff (f := ⟨1, [1], 1, 200⟩) (by decide +kernel)).2 (Or.inr (by decide +kernel))

/-- The squelch drops the weak packet of client 1; 41 ms after it client 2 gets the channel. -/
def weakThenStrong : List (OutboundAction SilentCodec) :=
  firstPacket 5 ++
    [.loop (.tick { order := [1] }), .probe, .loop (.elapse (21 * 1000000)), packetOf 2 1 200,
      .loop (.elapse (19 * 1000000))]

/-- The first frame then has both speakers, so it excludes neither. -/
theorem two_talkers_locked :
    let holder := (BusyState.tryAcceptPacket shortBusyChannel {1, 2} 1 0 {}).1
    (BusyState.tryAcceptPacket shortBusyChannel {1, 2} 1 0 {}).2.accept = true ∧
      (holder.tryAcceptPacket shortBusyChannel {1, 2} 2 (41 * 1000000)).2.accept = true ∧
      (squelchRun weakThenStrong).loop.clock = 60 * 1000000 ∧
      (squelchRun weakThenStrong).Emits shortBusyChannel (squelchChain.moduleSet (-30))
        { order := [1, 2] } ⟨0, [1], 1, 102⟩ ∧
      (squelchRun weakThenStrong).AddressesTalker shortBusyChannel (squelchChain.moduleSet (-30))
        { order := [1, 2] } := by
  decide +kernel

end Outbound

end OWalkie
