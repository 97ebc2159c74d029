import OWalkie.Relay.Hub

/-!
# Catch-up and broadcast

`sendLatestFrameToParticipant` and `broadcastMixed` decide on their own who is sent a mixed frame.
`catch_up_agrees_iff` says in which runs the first sends nothing that the second would not.
-/

namespace OWalkie

open Run

namespace RelayHub

/-! ## The invariant -/

/-- The hub knows its clients by their ids, and the test for the excluded session has been made
where a snapshot is at hand. -/
structure CatchUpInv (s : RelayHub) : Prop where
  owner : ∀ sid k, s.clients sid = some k → (s.client k).pc.hasID = true ∧
    (s.client k).sessionID = sid
  tested : ∀ call ∈ s.catchUps, ∀ payload excluded, call.frame = some (payload, excluded) →
    ¬ (excluded ≠ 0 ∧ excluded = call.sessionID)

variable {s : RelayHub} {a : HubAction} {k : ConnID}

theorem mem_takeSnapshot {call call' : CatchUp} (h : call' ∈ (s.takeSnapshot call).catchUps) :
    call' ∈ s.catchUps ∨ ∃ payload excluded,
      call' = { call with frame := some (payload, excluded) } ∧
        ¬ (excluded ≠ 0 ∧ excluded = call.sessionID) := by
  unfold takeSnapshot at h
  split at h
  · exact Or.inl (List.mem_of_mem_erase h)
  · next payload excluded _ =>
    dsimp only at h
    split_ifs at h with hex
    · exact Or.inl (List.mem_of_mem_erase h)
    · rcases List.mem_cons.1 h with rfl | h
      · exact Or.inr ⟨payload, excluded, rfl, hex⟩
      · exact Or.inl (List.mem_of_mem_erase h)

theorem mem_or_begun {call : CatchUp} {caller : Caller} {ch : ChannelName} {sid : SessionID}
    (h : call ∈ (s.startCatchUp caller ch sid).catchUps) :
    call ∈ s.catchUps ∨ call.frame = none := by
  rcases mem_startCatchUp _ _ _ _ h with rfl | h
  · exact Or.inr rfl
  · exact Or.inl h

/-- A call after a step was under way before it, has just begun, or has taken its snapshot. -/
theorem mem_step_catchUps {call : CatchUp} (h : call ∈ (step s a).catchUps) :
    call ∈ s.catchUps ∨ call.frame = none ∨
      ∃ payload excluded, call.frame = some (payload, excluded) ∧
        ¬ (excluded ≠ 0 ∧ excluded = call.sessionID) := by
  cases a with
  | elapse dt seconds => exact Or.inl h
  | resetLatestFrame ch => exact Or.inl h
  | rememberLatestFrame ch payload exclude | readClock k | drawCount k | addClient k
    | setChannel k ch | repeaterMode k enabled | copyChannels k order =>
    simp only [step] at h
    split_ifs at h <;> exact Or.inl h
  | sendToClient call' =>
    simp only [step] at h
    split_ifs at h
    · exact Or.inl (List.mem_of_mem_erase h)
    · exact Or.inl h
  | removeClient k =>
    simp only [step, removeClient] at h
    split_ifs at h
    · split at h <;> exact Or.inl h
    · exact Or.inl h
  | removeParticipant k =>
    simp only [step, removeParticipant] at h
    split at h <;> exact Or.inl h
  | addParticipant k =>
    simp only [step, addParticipant] at h
    split_ifs at h
    · exact (mem_or_begun h).imp_right Or.inl
    · exact Or.inl h
  | udpHello k addr =>
    simp only [step, udpHello] at h
    split_ifs at h
    · exact (mem_or_begun h).imp_right Or.inl
    · exact Or.inl h
  | routePacket pkt =>
    simp only [step] at h
    by_cases hreader : s.Calling .reader
    · rw [if_pos hreader] at h
      exact Or.inl h
    · rw [if_neg hreader] at h
      unfold routePacket at h
      split at h
      · exact Or.inl h
      · dsimp only at h
        split_ifs at h
        · exact (mem_or_begun h).imp_right Or.inl
        · exact Or.inl h
  | takeSnapshot call' =>
    simp only [step] at h
    split_ifs at h
    · rcases mem_takeSnapshot h with h | ⟨payload, excluded, rfl, hex⟩
      · exact Or.inl h
      · exact Or.inr (Or.inr ⟨payload, excluded, rfl, hex⟩)
    · exact Or.inl h

theorem CatchUpInv.step (h : CatchUpInv s) (a : HubAction) : CatchUpInv (step s a) := by
  constructor
  · intro sid j hj
    have hold : s.clients sid = some j →
        ((s.step a).client j).pc.hasID = true ∧ ((s.step a).client j).sessionID = sid := by
      intro hj
      obtain ⟨hid, hsid⟩ := h.owner sid j hj
      exact ⟨(sessionID_step a hid).1, (sessionID_step a hid).2.trans hsid⟩
    rw [(step_maps s a).1] at hj
    rcases nextClients_eq_some hj with ⟨hj, -⟩ | ⟨-, hpc, hsid⟩
    · exact hold hj
    · have hid : (s.client j).pc.hasID = true := by rw [hpc]; rfl
      exact ⟨(sessionID_step a hid).1, (sessionID_step a hid).2.trans hsid⟩
  · intro call hcall payload excluded hframe
    rcases mem_step_catchUps hcall with hcall | hnone | ⟨payload', excluded', hframe', hex⟩
    · exact h.tested call hcall payload excluded hframe
    · rw [hnone] at hframe
      cases hframe
    · rw [hframe', Option.some.injEq, Prod.mk.injEq] at hframe
      obtain ⟨-, rfl⟩ := hframe
      exact hex

theorem catchUpInv_new (unix : ℕ) : CatchUpInv (new unix) := ⟨nofun, nofun⟩

/-! ## Agreement -/

/-- What a catch-up call sends, `broadcastMixed` would have sent with the exclusion that was
remembered with the frame. -/
def CatchUpAgrees (s : RelayHub) : HubAction → Prop
  | .sendToClient call => call ∈ s.catchUps → ∀ payload excluded,
      call.frame = some (payload, excluded) → ∀ k addr, s.sent call = some (k, addr, payload) →
        s.broadcastMixed call.channel excluded payload k = some (addr, payload)
  | _ => True

/-- A catch-up call that has a frame finds a client without an address, or one that is in the
call's channel and not in repeater mode. -/
def CatchUpEligible (s : RelayHub) : HubAction → Prop
  | .sendToClient call => call ∈ s.catchUps → call.frame ≠ none →
      ∀ k, s.clients call.sessionID = some k → (s.client k).udpAddr ≠ none →
        (s.client k).channel = call.channel ∧ (s.client k).repeater = false
  | _ => True

theorem broadcastMixed_eq_some_iff {ch : ChannelName} {exclude : SessionID} {payload : List UInt8}
    {addr : UDPAddr} : s.broadcastMixed ch exclude payload k = some (addr, payload) ↔
      s.clients (s.client k).sessionID = some k ∧ (s.client k).channel = ch ∧
        ¬ (exclude ≠ 0 ∧ (s.client k).sessionID = exclude) ∧ (s.client k).repeater = false ∧
          (s.client k).udpAddr = some addr := by
  simp only [broadcastMixed]
  split_ifs <;> simp_all

theorem sent_eq_some_iff {call : CatchUp} {payload : List UInt8} {excluded : SessionID}
    {addr : UDPAddr} (hframe : call.frame = some (payload, excluded)) :
    s.sent call = some (k, addr, payload) ↔
      s.clients call.sessionID = some k ∧ (s.client k).udpAddr = some addr := by
  unfold sent
  rw [hframe]
  cases s.clients call.sessionID with
  | none => simp
  | some j =>
    simp only [Option.map_eq_some_iff, Prod.mk.injEq, Option.some.injEq]
    constructor
    · rintro ⟨addr', haddr, rfl, rfl, -⟩
      exact ⟨rfl, haddr⟩
    · rintro ⟨rfl, haddr⟩
      exact ⟨addr, haddr, rfl, rfl, trivial⟩

theorem catchUpAgrees_iff (h : CatchUpInv s) (a : HubAction) :
    CatchUpAgrees s a ↔ CatchUpEligible s a := by
  cases a with
  | sendToClient call =>
    refine forall_congr' fun hcall => ⟨fun hagrees hne k hk haddr => ?_, ?_⟩
    · obtain ⟨⟨payload, excluded⟩, hframe⟩ := Option.ne_none_iff_exists'.1 hne
      obtain ⟨addr, haddr⟩ := Option.ne_none_iff_exists'.1 haddr
      have hcast := hagrees payload excluded hframe k addr
        ((sent_eq_some_iff hframe).2 ⟨hk, haddr⟩)
      obtain ⟨-, hch, -, hrep, -⟩ := broadcastMixed_eq_some_iff.1 hcast
      exact ⟨hch, hrep⟩
    · intro heligible payload excluded hframe k addr hsent
      obtain ⟨hk, haddr⟩ := (sent_eq_some_iff hframe).1 hsent
      obtain ⟨hch, hrep⟩ := heligible (by simp [hframe]) k hk (by simp [haddr])
      obtain ⟨-, hsid⟩ := h.owner _ k hk
      refine broadcastMixed_eq_some_iff.2 ⟨hsid ▸ hk, hch, ?_, hrep, haddr⟩
      rintro ⟨hex, hself⟩
      exact h.tested call hcall payload excluded hframe ⟨hex, hself.symm.trans hsid⟩
  | _ => exact Iff.rfl

/-- In every run, every catch-up call agrees with `broadcastMixed` if and only if every call that
has a frame finds a client without an address, or one that is in the call's channel and not in
repeater mode. -/
theorem catch_up_agrees_iff (unix : ℕ) (as : List HubAction) :
    Along step CatchUpAgrees (new unix) as ↔ Along step CatchUpEligible (new unix) as :=
  along_congr (I := CatchUpInv) (fun _ a h => h.step a) (fun _ a h => catchUpAgrees_iff h a)
    (catchUpInv_new unix) as

/-- The UDP reader's call for the first connection. -/
def readerCall (frame : Option (List UInt8 × SessionID)) : CatchUp where
  caller := .reader
  channel := "main"
  sessionID := nextSessionID 0 1
  frame := frame

/-- Connection 1 goes into repeater mode, a frame is remembered that leaves nobody out, and the next
keepalive punch of connection 1 asks for it. -/
def repeaterCatchUp : List HubAction :=
  firstJoins ++ [.repeaterMode 1 true, .rememberLatestFrame "main" [1] 0, .routePacket firstPunch,
    .takeSnapshot (readerCall none)]

theorem catch_up_to_repeater :
    let s := after step (new 0) repeaterCatchUp
    s.sent (readerCall (some ([1], 0))) = some (1, ⟨7, 40001⟩, [1]) ∧
      s.broadcastMixed "main" 0 [1] 1 = none ∧
      ¬ Along step CatchUpAgrees (new 0)
        (repeaterCatchUp ++ [.sendToClient (readerCall (some ([1], 0)))]) := by
  have hsent : (after step (new 0) repeaterCatchUp).sent (readerCall (some ([1], 0))) =
      some (1, ⟨7, 40001⟩, [1]) := by decide
  have hcast : (after step (new 0) repeaterCatchUp).broadcastMixed "main" 0 [1] 1 = none := by
    decide
  refine ⟨hsent, hcast, fun hagrees => ?_⟩
  have hlast := hagrees.last (by decide) [1] 0 rfl 1 ⟨7, 40001⟩ hsent
  rw [show (readerCall (some ([1], 0))).channel = "main" from rfl, hcast] at hlast
  cases hlast

end RelayHub

end OWalkie
