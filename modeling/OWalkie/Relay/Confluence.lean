import OWalkie.Relay.DecoderFlush

/-!
# The order of an EOF marker and the packets before it

Packets and EOF markers wait in two queues, and `runLoop` takes from either.  A marker that was sent
after the packets of its transmission may be taken before some of them.  `eof_order_iff` says when
this makes no difference: the session must have a stream state when the marker is taken, with a
queue that is started there or by the packets that follow, and none of these may come late.
-/

namespace OWalkie

open Run

/-! ## Packets into a queue -/

namespace SpeakerJitterBuffer

variable {b b' : SpeakerJitterBuffer}

theorem minSeq_congr (h : b.packets = b'.packets) : b.minSeq = b'.minSeq := by
  unfold minSeq
  rw [h]

theorem pendingCount_congr (h : b.packets = b'.packets) : b.pendingCount = b'.pendingCount := by
  unfold pendingCount
  rw [h]

/-- What the eviction removes depends on the packets and `maxKeep` only. -/
theorem trimFrom_packets_congr (fuel : ℕ) (hp : b.packets = b'.packets)
    (hk : b.maxKeep = b'.maxKeep) : (trimFrom fuel b).packets = (trimFrom fuel b').packets := by
  induction fuel generalizing b b' with
  | zero => exact hp
  | succ fuel ih =>
    unfold trimFrom
    rw [hk, pendingCount_congr hp, minSeq_congr hp]
    split_ifs
    · cases b'.minSeq with
      | none => exact hp
      | some lo => exact ih (by simp only [hp]) rfl
    · exact hp

theorem push_frame (b : SpeakerJitterBuffer) (pkt : AudioPacket) :
    (b.push pkt).minStart = b.minStart ∧ (b.push pkt).maxKeep = b.maxKeep := by
  by_cases h : pkt.seq ∈ b.packets
  · rw [push_of_mem h]
    exact ⟨rfl, rfl⟩
  · obtain ⟨-, hmin, hmax⟩ := startFull_frame (b.stored pkt)
    rw [push_of_notMem h]
    exact ⟨(trimFrom_frame _ _).1.trans hmin, (trimFrom_frame _ _).2.1.trans hmax⟩

theorem push_packets_congr (hp : b.packets = b'.packets) (hk : b.maxKeep = b'.maxKeep)
    (pkt : AudioPacket) : (b.push pkt).packets = (b'.push pkt).packets := by
  by_cases h : pkt.seq ∈ b.packets
  · rw [push_of_mem h, push_of_mem (hp ▸ h), hp]
  · have hstored : (b.stored pkt).startFull.packets =
        (b'.stored pkt).startFull.packets := by
      rw [(startFull_frame _).1, (startFull_frame _).1, stored, stored, hp]
    rw [push_of_notMem h, push_of_notMem (hp ▸ h)]
    unfold trim
    rw [pendingCount_congr hstored]
    refine trimFrom_packets_congr _ hstored ?_
    rw [(startFull_frame _).2.2, (startFull_frame _).2.2]
    exact hk

theorem startFull_started {b : SpeakerJitterBuffer} {q : ℕ} (hq : q ∈ b.packets) :
    b.startFull.started = true ↔ b.started = true ∨ b.minStart ≤ b.pendingCount := by
  obtain ⟨lo, hlo⟩ := exists_minSeq hq
  unfold startFull
  rw [hlo]
  split_ifs with h
  · simp [startAt, h.2]
  · rw [not_and] at h
    refine ⟨Or.inl, fun hs => hs.elim id fun hfull => ?_⟩
    by_contra hne
    exact h (by simpa using hne) hfull

/-- A packet that is not stored yet starts the queue if it brings it to the threshold. -/
theorem push_started_iff {pkt : AudioPacket} (h : pkt.seq ∉ b.packets) :
    (b.push pkt).started = true ↔ b.started = true ∨ b.minStart ≤ b.pendingCount + 1 := by
  have hcount := pendingCount_stored h
  have hmem : pkt.seq ∈ (b.stored pkt).packets := by simp [stored]
  rw [push_of_notMem h, trim, (trimFrom_frame _ _).2.2, startFull_started hmem, hcount]
  simp [stored]

/-- A started queue stays started. -/
theorem push_started (h : b.started = true) (pkt : AudioPacket) :
    (b.push pkt).started = true := by
  by_cases hmem : pkt.seq ∈ b.packets
  · rwa [push_of_mem hmem]
  · exact (push_started_iff hmem).2 (Or.inl h)

/-- Below the threshold a packet is stored and nothing else. -/
theorem push_of_lt {pkt : AudioPacket} (h : pkt.seq ∉ b.packets)
    (hlt : (b.pendingCount : ℤ) + 1 < b.minStart) (hroom : b.minStart ≤ b.maxKeep) :
    b.push pkt = b.stored pkt := by
  have hcount := pendingCount_stored h
  have hfull : (b.stored pkt).startFull = b.stored pkt := by
    refine if_neg ?_
    rintro ⟨-, hge⟩
    have : b.minStart ≤ ((b.stored pkt).pendingCount : ℤ) := hge
    omega
  rw [push_of_notMem h, hfull]
  refine trim_of_le ?_
  show ((b.stored pkt).pendingCount : ℤ) ≤ b.maxKeep
  omega

/-! ### Several packets -/

def pushAll (b : SpeakerJitterBuffer) (pkts : List AudioPacket) : SpeakerJitterBuffer :=
  pkts.foldl push b

theorem pushAll_packets_congr (pkts : List AudioPacket) (hp : b.packets = b'.packets)
    (hk : b.maxKeep = b'.maxKeep) : (b.pushAll pkts).packets = (b'.pushAll pkts).packets := by
  induction pkts generalizing b b' with
  | nil => exact hp
  | cons pkt pkts ih =>
    refine ih (push_packets_congr hp hk pkt) ?_
    rw [(push_frame b pkt).2, (push_frame b' pkt).2, hk]

theorem pushAll_started (h : b.started = true) (pkts : List AudioPacket) :
    (b.pushAll pkts).started = true := by
  induction pkts generalizing b with
  | nil => exact h
  | cons pkt pkts ih => exact ih (push_started h pkt)

/-- The sequence numbers of the packets. -/
def seqs (pkts : List AudioPacket) : Finset ℕ := (pkts.map (·.seq)).toFinset

/-- A queue below the threshold is started by packets that bring it there. -/
theorem pushAll_started_iff_of_lt (pkts : List AudioPacket) (hs : b.started = false)
    (hlt : (b.pendingCount : ℤ) < b.minStart) (hroom : b.minStart ≤ b.maxKeep) :
    (b.pushAll pkts).started = true ↔ b.minStart ≤ (b.packets.keys ∪ seqs pkts).card := by
  induction pkts generalizing b with
  | nil =>
    have hle : ¬ b.minStart ≤ (b.packets.keys.card : ℤ) := not_le.2 hlt
    simp [pushAll, seqs, hs, hle]
  | cons pkt pkts ih =>
    show ((b.push pkt).pushAll pkts).started = true ↔ _
    have hseqs : b.packets.keys ∪ seqs (pkt :: pkts) =
        insert pkt.seq b.packets.keys ∪ seqs pkts := by
      simp [seqs]
    rw [hseqs]
    by_cases hmem : pkt.seq ∈ b.packets
    · rw [push_of_mem hmem, ih hs hlt hroom, Finset.insert_eq_of_mem (Finmap.mem_keys.2 hmem)]
    · by_cases hfull : b.minStart ≤ b.pendingCount + 1
      · refine iff_of_true (pushAll_started ((push_started_iff hmem).2 (Or.inr hfull)) pkts) ?_
        have hsub : insert pkt.seq b.packets.keys ⊆ insert pkt.seq b.packets.keys ∪ seqs pkts :=
          Finset.subset_union_left
        have hcard := Finset.card_le_card hsub
        rw [Finset.card_insert_of_notMem (mt Finmap.mem_keys.1 hmem)] at hcard
        have : b.pendingCount = b.packets.keys.card := rfl
        omega
      · have hcount : (b.stored pkt).pendingCount = b.pendingCount + 1 := by
          unfold pendingCount
          rw [keys_stored, Finset.card_insert_of_notMem (mt Finmap.mem_keys.1 hmem)]
        rw [push_of_lt hmem (not_le.1 hfull) hroom, ← keys_stored]
        refine ih hs ?_ hroom
        show ((b.stored pkt).pendingCount : ℤ) < b.minStart
        omega

/-- An empty queue is started by packets that reach the threshold. -/
theorem pushAll_started_iff (pkts : List AudioPacket) (hs : b.started = false)
    (hempty : b.pendingCount = 0) (hroom : b.minStart ≤ b.maxKeep) :
    (b.pushAll pkts).started = true ↔ pkts ≠ [] ∧ b.minStart ≤ (seqs pkts).card := by
  have hnone := pendingCount_eq_zero_iff.1 hempty
  by_cases hlt : (b.pendingCount : ℤ) < b.minStart
  · have hkeys : b.packets.keys = ∅ := Finset.card_eq_zero.1 hempty
    rw [pushAll_started_iff_of_lt pkts hs hlt hroom, hkeys, Finset.empty_union]
    refine ⟨fun h => ⟨?_, h⟩, And.right⟩
    rintro rfl
    simp only [seqs, List.map_nil, List.toFinset_nil, Finset.card_empty] at h
    omega
  · cases pkts with
    | nil => simp [pushAll, hs]
    | cons pkt pkts =>
      refine iff_of_true ?_ ⟨List.cons_ne_nil _ _, by omega⟩
      exact pushAll_started ((push_started_iff (hnone _)).2 (Or.inr (by omega))) pkts

/-! ### Room -/

/-- The queue has room for as many packets as a start needs. -/
def Roomy (b : SpeakerJitterBuffer) : Prop := b.minStart ≤ b.maxKeep

theorem le_keepFor (n : ℤ) : n ≤ keepFor n := by
  unfold keepFor
  split_ifs <;> omega

theorem roomy_of_eq (h : b.Roomy) (hmin : b'.minStart = b.minStart)
    (hmax : b'.maxKeep = b.maxKeep) : b'.Roomy := by
  unfold Roomy
  rw [hmin, hmax]
  exact h

theorem roomy_new (jitterMinPackets : ℕ) : (new jitterMinPackets).Roomy := le_keepFor _

theorem Roomy.push (h : b.Roomy) (pkt : AudioPacket) : (b.push pkt).Roomy :=
  roomy_of_eq h (push_frame b pkt).1 (push_frame b pkt).2

theorem roomy_keptByTicks : KeptByTicks Roomy where
  pop := by
    intro b h
    cases hs : b.slot with
    | none =>
      obtain ⟨started, -, hpop⟩ := pop_eq_of_no_slot hs
      rw [hpop]
      exact h
    | some q =>
      obtain ⟨pkt, -, hpop⟩ := pop_of_slot hs
      rw [hpop]
      exact h
  forceStart := by
    intro b h
    unfold forceStartFromMinSeq
    cases b.minSeq <;> exact h
  clamp := by
    intro b n floor ceil h
    unfold setMinStartClamped
    dsimp only
    split_ifs
    · exact h
    · exact roomy_of_eq (le_keepFor _) (trimFrom_frame _ _).1 (trimFrom_frame _ _).2.1

/-! ### A forced start before the packets -/

theorem forceStart_frame (b : SpeakerJitterBuffer) :
    b.forceStartFromMinSeq.packets = b.packets ∧
      b.forceStartFromMinSeq.maxKeep = b.maxKeep := by
  unfold forceStartFromMinSeq
  cases b.minSeq <;> exact ⟨rfl, rfl⟩

/-- An EOF marker starts the queue, or the packets that follow it do. -/
def StartsWith (b : SpeakerJitterBuffer) (pkts : List AudioPacket) : Prop :=
  b.started = true ∨ 0 < b.pendingCount ∨ pkts ≠ [] ∧ b.minStart ≤ (seqs pkts).card

theorem forceStart_pushAll_started_iff (h : b.Roomy) (pkts : List AudioPacket) :
    (b.forceStartFromMinSeq.pushAll pkts).started = true ↔ b.StartsWith pkts := by
  unfold StartsWith
  by_cases hempty : b.pendingCount = 0
  · rw [forceStartFromMinSeq_of_empty hempty]
    by_cases hs : b.started = true
    · exact iff_of_true (pushAll_started hs pkts) (Or.inl hs)
    · rw [pushAll_started_iff pkts (by simpa using hs) hempty h]
      simp [hs, hempty]
  · have hstarted : b.forceStartFromMinSeq.started = true := by
      unfold forceStartFromMinSeq
      cases hlo : b.minSeq with
      | none => exact absurd (pendingCount_eq_zero_of_minSeq hlo) hempty
      | some lo => rfl
    exact iff_of_true (pushAll_started hstarted pkts) (Or.inr (Or.inl (by omega)))

end SpeakerJitterBuffer

/-! ## Events that the loop takes -/

section events

variable {D E M : Type}

/-- The packets of `S` among the events. -/
def packetsOf (S : SessionID) (es : List (LoopEvent E)) : List AudioPacket :=
  es.filterMap fun
    | .packet pkt _ => if pkt.sessionID = S then some pkt else none
    | _ => none

theorem packetsOf_cons (S : SessionID) (e : LoopEvent E) (es : List (LoopEvent E)) :
    packetsOf S (e :: es) = packetsOf S [e] ++ packetsOf S es := by
  unfold packetsOf
  rw [← List.filterMap_append, List.singleton_append]

/-- The loop takes no tick, is not started again, and takes no further EOF marker of `S`. -/
def BeforeTick (S : SessionID) : LoopEvent E → Prop
  | .tick _ | .restart _ => False
  | .eof sid _ => sid ≠ S
  | .elapse _ | .packet _ _ | .dropDecoder _ | .clearRepeaterState _ => True

/-- The packet that is taken at `now` comes late after the one of `prev`. -/
def Late (p : MixerParams) (prev : Option ℤ) (now : ℤ) : Prop :=
  prev.isSome = true ∧ 3 * p.packetDur < sub now prev

/-- None of the packets of `S` comes late; `prev` is the time of the packet before them. -/
def NoneLate (p : MixerParams) (S : SessionID) (clock : ℤ) (prev : Option ℤ) :
    List (LoopEvent E) → Prop
  | [] => True
  | .elapse dt :: es => NoneLate p S (clock + dt) prev es
  | .packet pkt dt :: es =>
    if pkt.sessionID = S then
      ¬ Late p prev (clock + dt) ∧ NoneLate p S (clock + dt) (some clock) es
    else NoneLate p S (clock + dt) prev es
  | _ :: es => NoneLate p S clock prev es

instance (p : MixerParams) (prev : Option ℤ) (now : ℤ) : Decidable (Late p prev now) := by
  unfold Late
  infer_instance

instance (S : SessionID) : DecidablePred (BeforeTick S : LoopEvent E → Prop)
  | .tick _ | .restart _ => isFalse id
  | .eof sid _ => inferInstanceAs (Decidable (sid ≠ S))
  | .elapse _ | .packet _ _ | .dropDecoder _ | .clearRepeaterState _ => isTrue trivial

end events

namespace Speaker

variable {D : Type} {p : MixerParams} {sp : Speaker D} {st : SpeakerStreamState}
  {pkt : AudioPacket} {now now' : ℤ}

/-- What an EOF marker is to bring about: the queue is started, the flush of the decoder and the end
of the transmission are noted, and the session is marked. -/
def Settled (sp : Speaker D) : Prop :=
  sp.eofMarked = true ∧ ∃ st ∈ sp.st, st.jitter.started = true ∧ st.decoderFlushPending = true ∧
    st.txEOFPending = true

/-- The packets that are buffered for the session. -/
def buffered (sp : Speaker D) : Option (Finmap fun _ : ℕ => AudioPacket) :=
  sp.st.map (·.jitter.packets)

instance (sp : Speaker D) : Decidable sp.Settled := by
  unfold Settled
  infer_instance

/-- A packet that does not come late is stored and leaves the marks as they are. -/
theorem onPacket_of_not_late (hst : sp.st = some st) (hle : now ≤ now')
    (h : ¬ Late p st.lastPacketAt now') : sp.onPacket p pkt now now' =
      { sp with
        st := some { st with
          jitter := st.jitter.push pkt
          lastPacketAt := some now
          lastSignal := pkt.signalStrength.toNat } } := by
  have hstale : (st.lastPacketAt.isSome && decide (3 * p.packetDur < sub now st.lastPacketAt)) =
      false := by
    by_contra hne
    simp only [Bool.not_eq_false, Bool.and_eq_true, decide_eq_true_eq] at hne
    exact h ⟨hne.1, hne.2.trans_le (sub_mono hle _)⟩
  have hmark : (st.lastPacketAt.isSome && decide (3 * p.packetDur < sub now' st.lastPacketAt)) =
      false := by
    by_contra hne
    simp only [Bool.not_eq_false, Bool.and_eq_true, decide_eq_true_eq] at hne
    exact h hne
  simp [onPacket, hst, hstale, hmark]

/-- A packet that comes late clears the mark. -/
theorem onPacket_of_late (hst : sp.st = some st) (h : Late p st.lastPacketAt now') :
    (sp.onPacket p pkt now now').eofMarked = false := by
  obtain ⟨hsome, hgap⟩ := h
  simp [onPacket, hst, hsome, hgap]

theorem onPacket_eofMarked (h : sp.eofMarked = false) :
    (sp.onPacket p pkt now now').eofMarked = false := by
  simp [onPacket, h]

theorem Queue.onPacket (h : sp.Queue SpeakerJitterBuffer.Roomy) :
    (sp.onPacket p pkt now now').Queue SpeakerJitterBuffer.Roomy := by
  intro st hst
  simp only [Speaker.onPacket, Option.mem_def, Option.some.injEq] at hst
  subst hst
  apply SpeakerJitterBuffer.Roomy.push
  have hst : (sp.st.getD (.new p.jitterMinPackets)).jitter.Roomy := by
    cases hsp : sp.st with
    | none => exact SpeakerJitterBuffer.roomy_new _
    | some st => exact h st hsp
  split_ifs <;> exact hst

end Speaker

namespace Mixer

variable {D E M : Type} [OpusDecoder D] [OpusEncoder E] [AudioModule M] {p : MixerParams}
  {mods : ModuleSet M} {s : Mixer D E M} {S : SessionID} {st : SpeakerStreamState}
  {es : List (LoopEvent E)}

/-! ## One event -/

/-- An event before the tick is a packet of `S`, or it leaves the entries of `S` apart from the
decoder. -/
theorem beforeTick_cases (p : MixerParams) (mods : ModuleSet M) (s : Mixer D E M)
    {e : LoopEvent E} (he : BeforeTick S e) :
    (∃ pkt dt, e = .packet pkt dt ∧ pkt.sessionID = S) ∨
      ((next (step p mods) s e).speaker S).st = (s.speaker S).st ∧
        ((next (step p mods) s e).speaker S).eofMarked = (s.speaker S).eofMarked ∧
        packetsOf S [e] = [] ∧ ∀ prev es, NoneLate p S s.clock prev (e :: es) =
          NoneLate p S (next (step p mods) s e).clock prev es := by
  cases e with
  | elapse dt => exact Or.inr ⟨rfl, rfl, rfl, fun _ _ => rfl⟩
  | packet pkt dt =>
    by_cases hS : pkt.sessionID = S
    · exact Or.inl ⟨pkt, dt, rfl, hS⟩
    · have hsp : (next (step p mods) s (.packet pkt dt)).speaker S = s.speaker S :=
        Function.update_of_ne (Ne.symm hS) _ _
      rw [hsp]
      exact Or.inr ⟨rfl, rfl, by simp [packetsOf, hS], fun _ _ => if_neg hS⟩
  | eof sid seq =>
    have hsp : (next (step p mods) s (.eof sid seq)).speaker S = s.speaker S :=
      Function.update_of_ne (Ne.symm he) _ _
    rw [hsp]
    exact Or.inr ⟨rfl, rfl, rfl, fun _ _ => rfl⟩
  | tick t => exact he.elim
  | dropDecoder sid =>
    right
    by_cases hS : S = sid
    · subst hS
      have hsp : (next (step p mods) s (.dropDecoder S)).speaker S =
          { s.speaker S with decoder := none } :=
        Function.update_self _ _ _
      rw [hsp]
      exact ⟨rfl, rfl, rfl, fun _ _ => rfl⟩
    · have hsp : (next (step p mods) s (.dropDecoder sid)).speaker S = s.speaker S :=
        Function.update_of_ne hS _ _
      rw [hsp]
      exact ⟨rfl, rfl, rfl, fun _ _ => rfl⟩
  | clearRepeaterState sid => exact Or.inr ⟨rfl, rfl, rfl, fun _ _ => rfl⟩
  | restart encoder => exact he.elim

theorem speaker_packet (p : MixerParams) (mods : ModuleSet M) (s : Mixer D E M)
    (pkt : AudioPacket) (dt : ℕ) :
    (next (step p mods) s (.packet pkt dt)).speaker pkt.sessionID =
      (s.speaker pkt.sessionID).onPacket p pkt s.clock (s.clock + dt) :=
  Function.update_self _ _ _

/-! ## Several events -/

/-- Packets none of which comes late are stored, and leave the marks of the session. -/
theorem after_of_noneLate (mods : ModuleSet M) (hes : ∀ e ∈ es, BeforeTick S e)
    (hst : (s.speaker S).st = some st)
    (h : NoneLate p S s.clock st.lastPacketAt es) :
    ((after (next (step p mods)) s es).speaker S).eofMarked = (s.speaker S).eofMarked ∧
      ∃ st', ((after (next (step p mods)) s es).speaker S).st = some st' ∧
        st'.jitter = st.jitter.pushAll (packetsOf S es) ∧
        st'.decoderFlushPending = st.decoderFlushPending ∧
        st'.txEOFPending = st.txEOFPending := by
  induction es generalizing s st with
  | nil => exact ⟨rfl, st, hst, rfl, rfl, rfl⟩
  | cons e es ih =>
    have hes' : ∀ e' ∈ es, BeforeTick S e' := fun e' he' => hes e' (List.mem_cons_of_mem _ he')
    rw [after_cons]
    rcases beforeTick_cases p mods s (hes e (by simp)) with
      ⟨pkt, dt, rfl, rfl⟩ | ⟨hst', hmark, hpkts, hlate⟩
    · obtain ⟨hnot, hrest⟩ : ¬ Late p st.lastPacketAt (s.clock + dt) ∧
          NoneLate p pkt.sessionID (s.clock + dt) (some s.clock) es := by
        simpa [NoneLate] using h
      have hsp := speaker_packet p mods s pkt dt
      rw [Speaker.onPacket_of_not_late hst (by omega) hnot] at hsp
      have hpkts : packetsOf pkt.sessionID (.packet pkt dt :: es) =
          pkt :: packetsOf pkt.sessionID es := by
        simp [packetsOf]
      rw [hpkts]
      have hnext : ((next (step p mods) s (.packet pkt dt)).speaker pkt.sessionID).st =
          some { st with
            jitter := st.jitter.push pkt
            lastPacketAt := some s.clock
            lastSignal := pkt.signalStrength.toNat } := by
        rw [hsp]
      obtain ⟨hmark, st', hst', hjitter, hflush, heof⟩ := ih hes' hnext hrest
      rw [hsp] at hmark
      exact ⟨hmark, st', hst', hjitter, hflush, heof⟩
    · rw [packetsOf_cons, hpkts, List.nil_append, ← hmark]
      rw [hlate] at h
      exact ih hes' (hst'.trans hst) h

/-- Without a marker the session does not become marked before the tick. -/
theorem eofMarked_after (hes : ∀ e ∈ es, BeforeTick S e)
    (h : (s.speaker S).eofMarked = false) :
    ((after (next (step p mods)) s es).speaker S).eofMarked = false := by
  refine invariant_along (I := fun s : Mixer D E M => (s.speaker S).eofMarked = false)
    (C := fun _ e => BeforeTick S e) ?_ h ?_
  · intro s e h he
    rcases beforeTick_cases p mods s he with
      ⟨pkt, dt, rfl, rfl⟩ | ⟨-, hmark, -⟩
    · rw [speaker_packet]
      exact Speaker.onPacket_eofMarked h
    · exact hmark.trans h
  · rintro pre e post rfl
    exact hes e (by simp)

/-- A packet that comes late clears the mark. -/
theorem eofMarked_of_late (mods : ModuleSet M) (hes : ∀ e ∈ es, BeforeTick S e)
    (hst : (s.speaker S).st = some st)
    (h : ¬ NoneLate p S s.clock st.lastPacketAt es) :
    ((after (next (step p mods)) s es).speaker S).eofMarked = false := by
  induction es generalizing s st with
  | nil => exact absurd trivial h
  | cons e es ih =>
    have hes' : ∀ e' ∈ es, BeforeTick S e' := fun e' he' => hes e' (List.mem_cons_of_mem _ he')
    rw [after_cons]
    rcases beforeTick_cases p mods s (hes e (by simp)) with
      ⟨pkt, dt, rfl, rfl⟩ | ⟨hst', -, -, hlate⟩
    · have hsp := speaker_packet p mods s pkt dt
      by_cases hnot : Late p st.lastPacketAt (s.clock + dt)
      · apply eofMarked_after hes'
        rw [hsp]
        exact Speaker.onPacket_of_late hst hnot
      · rw [Speaker.onPacket_of_not_late hst (by omega) hnot] at hsp
        have hnext : ((next (step p mods) s (.packet pkt dt)).speaker pkt.sessionID).st =
            some { st with
              jitter := st.jitter.push pkt
              lastPacketAt := some s.clock
              lastSignal := pkt.signalStrength.toNat } := by
          rw [hsp]
        refine ih hes' hnext fun hrest => h ?_
        have hrest' : NoneLate p pkt.sessionID (s.clock + dt) (some s.clock) es := hrest
        simpa [NoneLate, hnot] using hrest'
    · rw [hlate] at h
      exact ih hes' (hst'.trans hst) h

/-- Without a marker no flush of the decoder becomes due before the tick. -/
theorem flushPending_after (hes : ∀ e ∈ es, BeforeTick S e)
    (h : ¬ (s.speaker S).FlushPending) :
    ¬ ((after (next (step p mods)) s es).speaker S).FlushPending := by
  refine invariant_along (I := fun s : Mixer D E M => ¬ (s.speaker S).FlushPending)
    (C := fun _ e => BeforeTick S e) ?_ h ?_
  · intro s e h he
    rcases beforeTick_cases p mods s he with
      ⟨pkt, dt, rfl, rfl⟩ | ⟨hst, -⟩
    · rw [speaker_packet]
      exact mt Speaker.flushPending_of_onPacket h
    · unfold Speaker.FlushPending at h ⊢
      rwa [hst]
  · rintro pre e post rfl
    exact hes e (by simp)

/-! ## The two orders -/

variable (D) in
/-- The loop after the events. -/
def ran (p : MixerParams) (mods : ModuleSet M) (encoder : E) (es : List (LoopEvent E)) :
    Mixer D E M :=
  after (next (step p mods)) (Mixer.new mods encoder) es

theorem ran_append (p : MixerParams) (mods : ModuleSet M) (encoder : E)
    (es es' : List (LoopEvent E)) : ran D p mods encoder (es ++ es') =
      after (next (step p mods)) (ran D p mods encoder es) es' :=
  after_append _ _ _ _

theorem roomy_ran (p : MixerParams) (mods : ModuleSet M) (encoder : E)
    (es : List (LoopEvent E)) (S : SessionID) :
    ((ran D p mods encoder es).speaker S).Queue SpeakerJitterBuffer.Roomy := by
  have hnew : ((Mixer.new mods encoder : Mixer D E M).speaker S).Queue
      SpeakerJitterBuffer.Roomy := by
    intro st hst
    cases hst
  refine invariant (I := fun s : Mixer D E M => (s.speaker S).Queue SpeakerJitterBuffer.Roomy)
    (fun s x h => ?_) hnew es
  have hstep := speakerStep p mods s S x
  show ((step p mods s x).1.speaker S).Queue _
  generalize (step p mods s x).1.speaker S = sp at hstep ⊢
  cases hstep with
  | packet pkt dt hS => exact h.onPacket
  | eof seq => exact h.onEOF SpeakerJitterBuffer.roomy_keptByTicks
  | tick t hperm => exact (h.mix SpeakerJitterBuffer.roomy_keptByTicks _).cleanup
  | dropDecoder => exact h
  | restart encoder decoder =>
    intro st hst
    cases hst
  | same x hno => exact h

theorem speaker_eof (p : MixerParams) (mods : ModuleSet M) (s : Mixer D E M) (S : SessionID)
    (seq : ℕ) : (next (step p mods) s (.eof S seq)).speaker S = (s.speaker S).onEOF s.clock :=
  Function.update_self _ _ _

/-- An EOF marker that is taken before some of the packets that were sent before it leaves the
session settled, with the packets that are buffered when it is taken last, exactly when the session
has a stream state by then whose queue is started there or by these packets, and none of them comes
late. -/
theorem eof_order_iff (mods : ModuleSet M) (encoder : E) (es : List (LoopEvent E))
    {post : List (LoopEvent E)} (S : SessionID) (seq : ℕ) (hpost : ∀ e ∈ post, BeforeTick S e) :
    (((ran D p mods encoder (es ++ .eof S seq :: post)).speaker S).Settled ∧
      ((ran D p mods encoder (es ++ .eof S seq :: post)).speaker S).buffered =
        ((ran D p mods encoder (es ++ (post ++ [.eof S seq]))).speaker S).buffered) ↔
    ∃ st ∈ ((ran D p mods encoder es).speaker S).st,
      st.jitter.StartsWith (packetsOf S post) ∧
      NoneLate p S (ran D p mods encoder es).clock st.lastPacketAt post := by
  rw [ran_append, ran_append]
  have hroomy := roomy_ran (D := D) p mods encoder es S
  generalize ran D p mods encoder es = s at hroomy ⊢
  have heof := speaker_eof p mods s S seq
  rw [after_cons, after_snoc, speaker_eof]
  constructor
  · rintro ⟨⟨hmark, st', hst', hstarted, hflush, -⟩, -⟩
    have hpending : (next (step p mods) s (.eof S seq)).speaker S |>.FlushPending := by
      by_contra hno
      exact flushPending_after hpost hno ⟨st', hst', hflush⟩
    rw [heof] at hpending
    obtain ⟨st₁, hst₁, -⟩ := hpending
    obtain ⟨st, hst, rfl⟩ := Option.map_eq_some_iff.1 hst₁
    have hnext := congrArg Speaker.st heof
    rw [Speaker.onEOF, hst, Option.map_some] at hnext
    have hnone : NoneLate p S s.clock st.lastPacketAt post := by
      by_contra hlate
      have := eofMarked_of_late mods hpost hnext hlate
      rw [hmark] at this
      cases this
    refine ⟨st, hst, ?_, hnone⟩
    obtain ⟨-, st'', hst'', hjitter, -, -⟩ := after_of_noneLate mods hpost hnext hnone
    obtain rfl : st' = st'' := Option.some.inj (hst'.symm.trans hst'')
    rw [hjitter] at hstarted
    exact (SpeakerJitterBuffer.forceStart_pushAll_started_iff (hroomy st hst) _).1 hstarted
  · rintro ⟨st, hst, hstarts, hnone⟩
    rw [Option.mem_def] at hst
    have hnext := congrArg Speaker.st heof
    rw [Speaker.onEOF, hst, Option.map_some] at hnext
    obtain ⟨hmark, st', hst', hjitter, hflush, hend⟩ := after_of_noneLate mods hpost hnext hnone
    obtain ⟨-, st'', hst'', hjitter', -, -⟩ := after_of_noneLate mods hpost hst hnone
    rw [heof] at hmark
    refine ⟨⟨hmark, st', hst', ?_, hflush, hend⟩, ?_⟩
    · rw [hjitter]
      exact (SpeakerJitterBuffer.forceStart_pushAll_started_iff (hroomy st hst) _).2 hstarts
    · unfold Speaker.buffered Speaker.onEOF
      rw [hst', hst'']
      simp only [Option.map_some]
      rw [(SpeakerJitterBuffer.forceStart_frame _).1, hjitter, hjitter']
      obtain ⟨hp, hk⟩ := SpeakerJitterBuffer.forceStart_frame st.jitter
      rw [SpeakerJitterBuffer.pushAll_packets_congr _ hp hk]

/-- A channel with the default parameters. -/
def defaultChannel : MixerParams := ServerConfig.params {} none

/-- The loop of a silent channel after the events. -/
def silentRan (es : List (LoopEvent SilentCodec)) : Mixer SilentCodec SilentCodec Empty :=
  ran SilentCodec defaultChannel noModules ⟨⟩ es

/-- The marker is taken between the two packets of a transmission. -/
theorem eof_order_iff_between :
    (((silentRan ([packetOfOne 1] ++ [.eof 1 3, packetOfOne 2])).speaker 1).Settled ∧
      ((silentRan ([packetOfOne 1] ++ [.eof 1 3, packetOfOne 2])).speaker 1).buffered =
        ((silentRan ([packetOfOne 1] ++ ([packetOfOne 2] ++ [.eof 1 3]))).speaker 1).buffered) ↔
    ∃ st ∈ ((silentRan [packetOfOne 1]).speaker 1).st,
      st.jitter.StartsWith (packetsOf 1 [packetOfOne 2]) ∧
      NoneLate defaultChannel 1 (silentRan [packetOfOne 1]).clock st.lastPacketAt
        [packetOfOne 2] := by
  unfold silentRan
  exact eof_order_iff noModules (⟨⟩ : SilentCodec) [packetOfOne 1] 1 3 (by decide)

/-- A transmission of one packet whose EOF marker the loop takes first. -/
theorem eof_overtakes_packet :
    ((silentRan [packetOfOne 1, .eof 1 2]).speaker 1).Settled ∧
      ¬ ((silentRan [.eof 1 2, packetOfOne 1]).speaker 1).Settled ∧
      ((silentRan [.eof 1 2, packetOfOne 1]).speaker 1).st.map
          (fun st => (st.jitter.started, st.decoderFlushPending, st.txEOFPending)) =
        some (false, false, false) := by
  decide

end Mixer

end OWalkie
