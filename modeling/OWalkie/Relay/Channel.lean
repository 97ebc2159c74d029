import OWalkie.Lib.Run
import OWalkie.Relay.Admission

/-!
# A channel seen from its uplink

The goroutines that touch the admission state of one channel: the UDP reader, which routes one
datagram after the other, the WebSocket handler of every session, and the mixer with its stream
states.  `Channel.step` lets one of them take its next step, that is one locked section, one read of
the clock or one operation on a queue.  A goroutine that has nothing to do leaves the state as it
is.
-/

namespace OWalkie

/-! ## The state -/

/-- `push` and `markEOF` on a full queue: the first offer fails, one entry is dropped, and the offer
is made once more. -/
inductive OfferStage where
  | offer
  | drop
  | retry
  deriving DecidableEq

/-- Where the UDP reader stands in `routePacket`. -/
inductive ReaderPc where
  | idle
  /-- `getClient` found the session -/
  | received (eof : Bool) (sid : SessionID)
  /-- `canAcceptTxPacket` has read the clock -/
  | txCheck (sid : SessionID) (now : ℤ)
  | txAccepted (sid : SessionID)
  /-- `tryAcceptPacket` has read the clock -/
  | busyCheck (sid : SessionID) (now : ℤ)
  | eofTx (sid : SessionID)
  | eofBusy (sid : SessionID)
  | queue (eof : Bool) (stage : OfferStage) (sid : SessionID)
  deriving DecidableEq

/-- Where the handler of a session stands: `addClient`, `setChannel`, `addParticipant`, and then the
sections of `removeClient` and `removeParticipant` in their order. -/
inductive SessionPc where
  | outside
  | registered
  | bound
  | joined
  | unregistered
  | departed
  | cleared
  | gone
  deriving DecidableEq

namespace SessionPc

/-- `getClient` finds the session. -/
def inHub : SessionPc → Bool
  | registered | bound | joined => true
  | outside | unregistered | departed | cleared | gone => false

/-- `getChannel` of the session's client is the channel. -/
def channelSet : SessionPc → Bool
  | outside | registered => false
  | bound | joined | unregistered | departed | cleared | gone => true

end SessionPc

/-- Where the mixer stands in a tick: after `mixAndBroadcast` it reads the clock for
`cleanupStreamStates`, which copies the participants and then removes stream states under `txMu`. -/
inductive MixerPc where
  | idle
  | mixed
  | ticked (now : ℤ)
  | sweeping (now : ℤ) (participants : Finset SessionID)
  deriving DecidableEq

/-- A stream state of the loop, seen from `cleanupStreamStates`. -/
structure StreamAge where
  lastPacketAt : ℤ
  /-- packets that the loop has taken and no tick has decoded; the jitter buffer may have dropped
  some of them -/
  undecoded : ℕ
  deriving DecidableEq

namespace StreamAge

/-- The loop takes a packet. -/
def take (now : ℤ) (st : Option StreamAge) : StreamAge where
  lastPacketAt := now
  undecoded := st.elim 0 undecoded + 1

/-- `mixAndBroadcast` decodes one of the packets. -/
def decode (now : ℤ) (st : StreamAge) : StreamAge :=
  if 0 < st.undecoded then { lastPacketAt := now, undecoded := st.undecoded - 1 } else st

end StreamAge

structure Channel where
  clock : ℤ := 0
  tx : TxState := {}
  busy : BusyState := {}
  participants : Finset SessionID := ∅
  session : SessionID → SessionPc := fun _ => .outside
  udp : ReaderPc := .idle
  mixer : MixerPc := .idle
  input : List SessionID := []
  eof : List SessionID := []
  streams : SessionID → Option StreamAge := fun _ => none

inductive ChannelAction where
  | elapse (dt : ℕ)
  /-- a datagram of the session arrives: an EOF marker, or a packet with audio -/
  | receive (eof : Bool) (sid : SessionID)
  /-- the UDP reader takes its next step -/
  | reader
  /-- the handler of the session takes its next step -/
  | handler (sid : SessionID)
  /-- the connection of the session ends -/
  | disconnect (sid : SessionID)
  /-- the loop takes a packet -/
  | takePacket
  /-- the loop takes an EOF marker -/
  | takeEof
  /-- the loop takes a tick and decodes a packet of each of these sessions: which packets the jitter
  buffers give and whether the decoder takes them is left open -/
  | tick (decoded : Finset SessionID)
  /-- the loop goes on with its tick -/
  | mixer
  /-- the loop panics and is started again with empty maps -/
  | restart
  deriving DecidableEq

/-! ## The steps -/

namespace Channel

def inputCap : ℕ := 256

def eofCap : ℕ := 64

/-- One operation of `push` or `markEOF` on its queue, and the stage that follows it. -/
def offerStep (cap : ℕ) (q : List SessionID) (sid : SessionID) :
    OfferStage → List SessionID × Option OfferStage
  | .offer => if q.length < cap then (q ++ [sid], none) else (q, some .drop)
  | .drop => (q.tail, some .retry)
  | .retry => (if q.length < cap then q ++ [sid] else q, none)

def queueStep (s : Channel) (eof : Bool) (stage : OfferStage) (sid : SessionID) : Channel :=
  let (q, stage') := offerStep (if eof then eofCap else inputCap) (if eof then s.eof else s.input)
    sid stage
  let udp := match stage' with
    | some stage' => .queue eof stage' sid
    | none => .idle
  if eof then { s with eof := q, udp := udp } else { s with input := q, udp := udp }

/-- Where the reader goes once `canAcceptTxPacket` has left `txMu`. -/
def afterTxCheck (p : MixerParams) (sid : SessionID) (accept : Bool) : ReaderPc :=
  if accept then if p.busyMode then .txAccepted sid else .queue false .offer sid else .idle

def readerStep (p : MixerParams) (s : Channel) : Channel :=
  match s.udp with
  | .idle => s
  | .received eof sid =>
    -- a marker whose session `markTxEOF` does not find any more is one that never arrived
    if (s.session sid).channelSet then
      { s with udp := if eof then .eofTx sid else .txCheck sid s.clock }
    else { s with udp := .idle }
  | .txCheck sid now =>
    { s with
      tx := (s.tx.canAcceptTxPacket p sid now).1
      udp := afterTxCheck p sid (s.tx.canAcceptTxPacket p sid now).2.accept }
  | .txAccepted sid => { s with udp := .busyCheck sid s.clock }
  | .busyCheck sid now =>
    { s with
      busy := (s.busy.tryAcceptPacket p s.participants sid now).1
      udp :=
        if (s.busy.tryAcceptPacket p s.participants sid now).2.accept then .queue false .offer sid
        else .idle }
  | .eofTx sid => { s with tx := s.tx.clear sid, udp := .eofBusy sid }
  | .eofBusy sid =>
    { s with busy := s.busy.markBusyEOF p sid s.clock, udp := .queue true .offer sid }
  | .queue eof stage sid => s.queueStep eof stage sid

def setSession (s : Channel) (sid : SessionID) (pc : SessionPc) : Channel :=
  { s with session := Function.update s.session sid pc }

def handlerStep (s : Channel) (sid : SessionID) : Channel :=
  match s.session sid with
  | .outside => s.setSession sid .registered
  | .registered => s.setSession sid .bound
  | .bound => { s with participants := insert sid s.participants }.setSession sid .joined
  | .unregistered => { s with participants := s.participants.erase sid }.setSession sid .departed
  | .departed => { s with tx := s.tx.clear sid }.setSession sid .cleared
  | .cleared => { s with busy := s.busy.leave sid }.setSession sid .gone
  | .joined | .gone => s

/-- `cleanupStreamStates` removes the stream state of the session. -/
def removed (p : MixerParams) (s : Channel) (now : ℤ) (participants : Finset SessionID)
    (sid : SessionID) : Bool :=
  match s.streams sid with
  | none => false
  | some st =>
    decide (sid ∉ participants) || decide (p.eofTimeoutDur < now - st.lastPacketAt)

def mixerStep (p : MixerParams) (s : Channel) : Channel :=
  match s.mixer with
  | .idle => s
  | .mixed => { s with mixer := .ticked s.clock }
  | .ticked now => { s with mixer := .sweeping now s.participants }
  | .sweeping now participants =>
    { s with
      mixer := .idle
      tx := s.tx.cleanup (s.removed p now participants)
      streams := fun sid => if s.removed p now participants sid then none else s.streams sid }

def step (p : MixerParams) (s : Channel) : ChannelAction → Channel
  | .elapse dt => { s with clock := s.clock + dt }
  | .receive eof sid =>
    if s.udp = .idle ∧ (s.session sid).inHub = true then { s with udp := .received eof sid } else s
  | .reader => s.readerStep p
  | .handler sid => s.handlerStep sid
  | .disconnect sid =>
    if s.session sid = .registered ∨ s.session sid = .joined then s.setSession sid .unregistered
    else s
  | .takePacket =>
    match s.mixer, s.input with
    | .idle, sid :: rest =>
      { s with
        input := rest
        streams := Function.update s.streams sid (some (.take s.clock (s.streams sid))) }
    | _, _ => s
  | .takeEof => if s.mixer = .idle then { s with eof := s.eof.tail } else s
  | .tick decoded =>
    if s.mixer = .idle then
      { s with
        mixer := .mixed
        streams := fun sid =>
          if sid ∈ decoded then (s.streams sid).map (.decode s.clock) else s.streams sid }
    else s
  | .mixer => s.mixerStep p
  | .restart => { s with mixer := .idle, streams := fun _ => none }

/-- The handler of `sid` runs up to `addParticipant`. -/
def joins (sid : SessionID) : List ChannelAction := List.replicate 3 (.handler sid)

/-- A datagram arrives and the reader takes `steps` steps. -/
def arrives (eof : Bool) (sid : SessionID) (steps : ℕ) : List ChannelAction :=
  .receive eof sid :: List.replicate steps .reader

/-! ## What the steps leave alone -/

section frames

variable (p : MixerParams) (s : Channel)

@[simp] theorem setSession_tx (sid : SessionID) (pc : SessionPc) :
    (s.setSession sid pc).tx = s.tx :=
  rfl

@[simp] theorem setSession_busy (sid : SessionID) (pc : SessionPc) :
    (s.setSession sid pc).busy = s.busy := rfl

@[simp] theorem setSession_participants (sid : SessionID) (pc : SessionPc) :
    (s.setSession sid pc).participants = s.participants := rfl

@[simp] theorem setSession_clock (sid : SessionID) (pc : SessionPc) :
    (s.setSession sid pc).clock = s.clock := rfl

@[simp] theorem setSession_udp (sid : SessionID) (pc : SessionPc) :
    (s.setSession sid pc).udp = s.udp := rfl

@[simp] theorem queueStep_tx (eof : Bool) (stage : OfferStage) (sid : SessionID) :
    (s.queueStep eof stage sid).tx = s.tx := by
  cases eof <;> rfl

@[simp] theorem queueStep_busy (eof : Bool) (stage : OfferStage) (sid : SessionID) :
    (s.queueStep eof stage sid).busy = s.busy := by
  cases eof <;> rfl

@[simp] theorem queueStep_participants (eof : Bool) (stage : OfferStage) (sid : SessionID) :
    (s.queueStep eof stage sid).participants = s.participants := by
  cases eof <;> rfl

@[simp] theorem queueStep_session (eof : Bool) (stage : OfferStage) (sid : SessionID) :
    (s.queueStep eof stage sid).session = s.session := by
  cases eof <;> rfl

@[simp] theorem queueStep_clock (eof : Bool) (stage : OfferStage) (sid : SessionID) :
    (s.queueStep eof stage sid).clock = s.clock := by
  cases eof <;> rfl

/-- The reader leaves its queue operation for the next stage, or is done with the datagram. -/
theorem queueStep_udp (eof : Bool) (stage : OfferStage) (sid : SessionID) :
    (s.queueStep eof stage sid).udp = .idle ∨
      ∃ stage', (s.queueStep eof stage sid).udp = .queue eof stage' sid := by
  unfold queueStep
  dsimp only
  cases h : (offerStep (if eof then eofCap else inputCap) (if eof then s.eof else s.input)
    sid stage).2 with
  | none => cases eof <;> simp_all
  | some stage' => cases eof <;> simp_all

theorem readerStep_clock : (s.readerStep p).clock = s.clock := by
  unfold readerStep
  split <;> first | rfl | exact queueStep_clock _ _ _ _ | (split_ifs <;> rfl)

theorem readerStep_participants : (s.readerStep p).participants = s.participants := by
  unfold readerStep
  split <;> first | rfl | exact queueStep_participants _ _ _ _ | (split_ifs <;> rfl)

/-- Only the reader takes datagrams on. -/
theorem step_udp {a : ChannelAction} (hreader : a ≠ .reader)
    (hreceive : ∀ eof sid, a ≠ .receive eof sid) : (step p s a).udp = s.udp := by
  cases a with
  | reader => exact absurd rfl hreader
  | receive eof sid => exact absurd rfl (hreceive eof sid)
  | elapse dt => rfl
  | handler sid => simp only [step, handlerStep]; split <;> rfl
  | disconnect sid => simp only [step]; split_ifs <;> rfl
  | takePacket => simp only [step]; split <;> rfl
  | takeEof => simp only [step]; split_ifs <;> rfl
  | tick decoded => simp only [step]; split_ifs <;> rfl
  | mixer => simp only [step, mixerStep]; split <;> rfl
  | restart => rfl

theorem step_clock {a : ChannelAction} (helapse : ∀ dt, a ≠ .elapse dt) :
    (step p s a).clock = s.clock := by
  cases a with
  | elapse dt => exact absurd rfl (helapse dt)
  | reader => exact readerStep_clock p s
  | receive eof sid => simp only [step]; split_ifs <;> rfl
  | handler sid => simp only [step, handlerStep]; split <;> rfl
  | disconnect sid => simp only [step]; split_ifs <;> rfl
  | takePacket => simp only [step]; split <;> rfl
  | takeEof => simp only [step]; split_ifs <;> rfl
  | tick decoded => simp only [step]; split_ifs <;> rfl
  | mixer => simp only [step, mixerStep]; split <;> rfl
  | restart => rfl

/-- The admission state is changed by the reader, by a handler and by the cleanup of a tick only. -/
theorem step_admission {a : ChannelAction} (hreader : a ≠ .reader)
    (hhandler : ∀ sid, a ≠ .handler sid)
    (hmixer : a ≠ .mixer) : (step p s a).tx = s.tx ∧ (step p s a).busy = s.busy ∧
      (step p s a).participants = s.participants := by
  cases a with
  | reader => exact absurd rfl hreader
  | handler sid => exact absurd rfl (hhandler sid)
  | mixer => exact absurd rfl hmixer
  | elapse dt => exact ⟨rfl, rfl, rfl⟩
  | receive eof sid => simp only [step]; split_ifs <;> exact ⟨rfl, rfl, rfl⟩
  | disconnect sid => simp only [step]; split_ifs <;> exact ⟨rfl, rfl, rfl⟩
  | takePacket => simp only [step]; split <;> exact ⟨rfl, rfl, rfl⟩
  | takeEof => simp only [step]; split_ifs <;> exact ⟨rfl, rfl, rfl⟩
  | tick decoded => simp only [step]; split_ifs <;> exact ⟨rfl, rfl, rfl⟩
  | restart => exact ⟨rfl, rfl, rfl⟩

end frames

/-! ## Readings of the clock -/

/-- The time that the reader has read for a check, or the time at which it would read it. -/
def readAt (s : Channel) : ℤ :=
  match s.udp with
  | .txCheck _ now | .busyCheck _ now => now
  | _ => s.clock

variable {p : MixerParams} {s : Channel}

theorem readAt_readerStep (h : s.readAt ≤ s.clock) :
    s.readAt ≤ (s.readerStep p).readAt ∧ (s.readerStep p).readAt ≤ (s.readerStep p).clock := by
  have hclock := readerStep_clock p s
  have key : (s.readerStep p).readAt = (s.readerStep p).clock ∨ s.readerStep p = s := by
    unfold readerStep
    split
    · exact Or.inr rfl
    · left
      split_ifs <;> rfl
    · left
      simp only [readAt, afterTxCheck]
      split_ifs <;> rfl
    · exact Or.inl rfl
    · left
      simp only [readAt]
      split_ifs <;> rfl
    · exact Or.inl rfl
    · exact Or.inl rfl
    · next eof stage sid _ =>
      left
      rcases s.queueStep_udp eof stage sid with hq | ⟨stage', hq⟩ <;> simp [readAt, hq]
  rcases key with hk | hk
  · omega
  · rw [hk]
    exact ⟨le_rfl, h⟩

/-- Readings of the clock do not decrease. -/
theorem readAt_step (h : s.readAt ≤ s.clock) (a : ChannelAction) :
    s.readAt ≤ (step p s a).readAt ∧ (step p s a).readAt ≤ (step p s a).clock := by
  by_cases hreader : a = .reader
  · subst hreader
    exact readAt_readerStep h
  by_cases hreceive : ∃ eof sid, a = .receive eof sid
  · obtain ⟨eof, sid, rfl⟩ := hreceive
    simp only [step]
    split_ifs with hi
    · simp [readAt, hi.1]
    · exact ⟨le_rfl, h⟩
  have hu := step_udp p s hreader fun eof sid ha => hreceive ⟨eof, sid, ha⟩
  by_cases helapse : ∃ dt, a = .elapse dt
  · obtain ⟨dt, rfl⟩ := helapse
    simp only [step, readAt] at h ⊢
    cases hs : s.udp <;> simp only [hs] at h ⊢ <;> omega
  · have hc := step_clock p s fun dt ha => helapse ⟨dt, ha⟩
    have hr : (step p s a).readAt = s.readAt := by simp only [readAt, hu, hc]
    omega

end Channel

end OWalkie
