import OWalkie.Relay.Mixer
import OWalkie.Relay.PttAgreement

/-!
# Frames and messages of one channel

The mixer loop together with the control plane of its channel.  A tick that sends a frame hands the
session that it excludes to `noteOutboundMixedUDP`; the broadcasts decided there and the idle test
that follows must be done before the loop takes its next event.  The handlers and the UDP reader run
in between.
-/

namespace OWalkie

open Run

structure Outbound (D E M : Type) where
  loop : Mixer D E M
  ws : WsChannel := {}
  /-- the loop has yet to run `probeRxBroadcastWsIdle` for its last tick -/
  probing : Bool := false
  /-- `getUDPAddr` of the client is not `nil` -/
  hasUDPAddr : SessionID → Bool := fun _ => false
  repeater : SessionID → Bool := fun _ => false

inductive OutboundAction (E : Type) where
  | loop (x : LoopEvent E)
  /-- the loop goes on after a tick with `probeRxBroadcastWsIdle` -/
  | probe
  /-- a broadcast of the mixer, the UDP reader or a handler goes on -/
  | ws (a : WsAction)
  | setUDPAddr (c : SessionID)
  | setRepeaterMode (c : SessionID) (enabled : Bool)

/-- The action is a part of a round of the loop. -/
def WsAction.ofLoop : WsAction → Bool
  | noteOutboundMixedUDP _ _ | probeRxBroadcastWsIdle _ | mixerRestart _ => true
  | _ => false

/-- The event is taken by the loop itself. -/
def LoopEvent.ofLoop {E : Type} : LoopEvent E → Bool
  | packet _ _ | eof _ _ | tick _ => true
  | elapse _ | dropDecoder _ | clearRepeaterState _ | restart _ => false

/-- The mixer panics and starts again. -/
def OutboundAction.isRestart {E : Type} : OutboundAction E → Bool
  | .loop (.restart _) => true
  | _ => false

theorem BroadcastCall.except_of_mem_callsFor {except : SessionID} {msgs : List WsServerMessage}
    {call : BroadcastCall} (h : call ∈ WsChannel.callsFor except msgs) : call.except = except := by
  obtain ⟨msg, -, rfl⟩ := List.mem_map.1 h
  rfl

/-- The frame that begins a session is followed by messages, and no other frame is. -/
theorem RxWsState.noteOutboundMixedUDP_eq_nil_iff (p : MixerParams) (now : ℤ) (rx : RxWsState) :
    (rx.noteOutboundMixedUDP p now).2 = [] ↔ rx.rxOutSessionActive = true := by
  unfold RxWsState.noteOutboundMixedUDP
  split_ifs with hactive <;> simp_all

namespace Outbound

variable {D E M : Type} [OpusDecoder D] [OpusEncoder E] [AudioModule M]

def new (mods : ModuleSet M) (encoder : E) : Outbound D E M where
  loop := Mixer.new mods encoder

/-- The loop waits for its next event. -/
def Waiting (s : Outbound D E M) : Prop := s.ws.mixer = [] ∧ s.probing = false

instance (s : Outbound D E M) : Decidable s.Waiting :=
  inferInstanceAs (Decidable (_ ∧ _))

/-- `broadcastMixed` sends the frame to the client. -/
def Receives (s : Outbound D E M) (exclude c : SessionID) : Prop :=
  s.ws.Present c ∧ ¬ (exclude ≠ 0 ∧ c = exclude) ∧ s.repeater c = false ∧ s.hasUDPAddr c = true

instance (s : Outbound D E M) (exclude c : SessionID) : Decidable (s.Receives exclude c) :=
  inferInstanceAs (Decidable (_ ∧ _))

def tick (p : MixerParams) (mods : ModuleSet M) (t : TickInput) (s : Outbound D E M) :
    Outbound D E M :=
  { s with
    loop := (s.loop.tick p mods t).1
    ws := match (s.loop.tick p mods t).2.frame with
      | some f => s.ws.step p (.noteOutboundMixedUDP s.loop.clock f.exclude)
      | none => s.ws
    probing := true }

def loopStep (p : MixerParams) (mods : ModuleSet M) (s : Outbound D E M) :
    LoopEvent E → Outbound D E M
  | .tick t => if s.Waiting ∧ t.order.Perm s.loop.keys then s.tick p mods t else s
  | .restart encoder =>
    { s with
      loop := s.loop.restart encoder
      ws := s.ws.step p (.mixerRestart encoder.isSome)
      probing := false }
  | x =>
    if x.ofLoop = true → s.Waiting then { s with loop := next (Mixer.step p mods) s.loop x } else s

def probe (p : MixerParams) (s : Outbound D E M) : Outbound D E M :=
  if s.probing = true ∧ s.ws.mixer = [] then
    { s with ws := s.ws.step p (.probeRxBroadcastWsIdle s.loop.clock), probing := false }
  else s

def step (p : MixerParams) (mods : ModuleSet M) (s : Outbound D E M) :
    OutboundAction E → Outbound D E M
  | .loop x => s.loopStep p mods x
  | .probe => s.probe p
  | .ws a => if a.ofLoop then s else { s with ws := s.ws.step p a }
  | .setUDPAddr c => { s with hasUDPAddr := Function.update s.hasUDPAddr c true }
  | .setRepeaterMode c enabled => { s with repeater := Function.update s.repeater c enabled }

/-- The state after a run from the start of the channel. -/
def run (p : MixerParams) (mods : ModuleSet M) (encoder : E) (as : List (OutboundAction E)) :
    Outbound D E M :=
  after (step p mods) (new mods encoder) as

/-- The tick sends the frame. -/
def Emits (p : MixerParams) (mods : ModuleSet M) (s : Outbound D E M) (t : TickInput)
    (f : MixedFrame) : Prop :=
  s.Waiting ∧ t.order.Perm s.loop.keys ∧ f ∈ (s.loop.tick p mods t).2.frame

instance (p : MixerParams) (mods : ModuleSet M) (s : Outbound D E M) (t : TickInput)
    (f : MixedFrame) : Decidable (s.Emits p mods t f) :=
  inferInstanceAs (Decidable (_ ∧ _))

theorem tick_ws {p : MixerParams} {mods : ModuleSet M} {s : Outbound D E M} {t : TickInput}
    {f : MixedFrame} (hf : s.Emits p mods t f) : (s.tick p mods t).ws =
      { s.ws with
        rx := (s.ws.rx.noteOutboundMixedUDP p s.loop.clock).1
        mixer :=
          WsChannel.callsFor f.exclude (s.ws.rx.noteOutboundMixedUDP p s.loop.clock).2 } := by
  obtain ⟨⟨hmixer, -⟩, -, hframe⟩ := hf
  unfold tick
  rw [Option.mem_def.1 hframe]
  simp only [WsChannel.step, if_pos hmixer]

/-- The loop takes a packet of the session. -/
def packetOf (sid : SessionID) (seq : ℕ) (strength : UInt8) : OutboundAction SilentCodec :=
  .loop (.packet
    { sessionID := sid
      seq := seq
      signalStrength := strength
      opus := [1]
      srcAddr := ⟨0, 7001⟩ } 0)

end Outbound

end OWalkie
