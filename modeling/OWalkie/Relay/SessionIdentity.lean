import OWalkie.Relay.Hub

/-!
# Session ids

`addClient` overwrites whoever has the same id, and `removeClient` removes whoever has it.
`identity_kept_iff`: the hub tells its clients apart in exactly those runs in which no connection
registers with the id `0` or with the id of a registered client.
-/

namespace OWalkie

open Run

/-! ## The id -/

theorem nextSessionID_eq (unix count : ℕ) :
    nextSessionID unix count = unix % 2 ^ 16 * 2 ^ 16 + count % 2 ^ 16 := by
  have hmask : ∀ n : ℕ, n &&& 0xFFFF = n % 2 ^ 16 := fun n => Nat.and_two_pow_sub_one_eq_mod n 16
  unfold nextSessionID
  rw [hmask, hmask, ← Nat.shiftLeft_add_eq_or_of_lt (Nat.mod_lt _ (by norm_num)),
    Nat.shiftLeft_eq]

/-- The connections have read times that agree in their low 16 bits, and counters that do. -/
def Client.SameHalves (c c' : Client) : Prop :=
  c.unix % 2 ^ 16 = c'.unix % 2 ^ 16 ∧ c.count % 2 ^ 16 = c'.count % 2 ^ 16

theorem Client.sessionID_eq_iff {c c' : Client} : c.sessionID = c'.sessionID ↔ c.SameHalves c' := by
  unfold Client.sessionID Client.SameHalves
  rw [nextSessionID_eq, nextSessionID_eq]
  constructor
  · intro h
    change (_ : ℕ) = _ at h
    omega
  · rintro ⟨hunix, hcount⟩
    rw [hunix, hcount]

theorem Client.sessionID_eq_zero_iff {c : Client} :
    c.sessionID = 0 ↔ c.unix % 2 ^ 16 = 0 ∧ c.count % 2 ^ 16 = 0 := by
  unfold Client.sessionID
  rw [nextSessionID_eq]
  constructor
  · intro h
    change (_ : ℕ) = _ at h
    omega
  · rintro ⟨hunix, hcount⟩
    rw [hunix, hcount]
    rfl

namespace RelayHub

/-! ## Identity -/

/-- The connection is a participant of the channel, or its `removeClient` has yet to get there. -/
def StillIn (c : Client) (ch : ChannelName) : Prop :=
  c.pc = .joined ∨ c.pc = .unregistered ∨ ∃ channels, c.pc = .leaving channels ∧ ch ∈ channels

/-- The hub tells its clients apart. -/
structure Identity (s : RelayHub) : Prop where
  nonzero : ∀ k, (s.client k).pc.live = true → (s.client k).sessionID ≠ 0
  distinct : ∀ k k', (s.client k).pc.live = true → (s.client k').pc.live = true →
    (s.client k).sessionID = (s.client k').sessionID → k = k'
  listed : ∀ k, (s.client k).pc.live = true → s.clients (s.client k).sessionID = some k
  only : ∀ sid k, s.clients sid = some k →
    (s.client k).pc.live = true ∧ (s.client k).sessionID = sid
  joined : ∀ k, (s.client k).pc = .joined →
    (s.client k).sessionID ∈ s.participants (s.client k).channel
  member : ∀ ch, ∀ sid ∈ s.participants ch,
    ∃ k, (s.client k).sessionID = sid ∧ (s.client k).channel = ch ∧ StillIn (s.client k) ch

/-- `removeClient` takes the connection's own client out of the hub's map, and nothing else. -/
def RemovesOwn (s : RelayHub) : HubAction → Prop
  | .removeClient k => s.Removes k (.removeClient k) →
      ∀ sid, (step s (.removeClient k)).clients sid =
        if s.clients sid = some k then none else s.clients sid
  | _ => True

/-- After the step the hub tells its clients apart, and a `removeClient` has removed its own. -/
def IdentityKept (s : RelayHub) (a : HubAction) : Prop :=
  (step s a).Identity ∧ s.RemovesOwn a

/-- No client is added with the id `0` or the id of a registered client, and no connection leaves a
channel in which a client with its id has been added since. -/
def IdsFresh (s : RelayHub) : HubAction → Prop
  | .addClient k => (s.client k).pc = .drawn →
      ¬ ((s.client k).unix % 2 ^ 16 = 0 ∧ (s.client k).count % 2 ^ 16 = 0) ∧
        ∀ k', (s.client k').pc.live = true → ¬ (s.client k').SameHalves (s.client k)
  | .removeParticipant k => ∀ ch channels, (s.client k).pc = .leaving (ch :: channels) →
      ∀ k', (s.client k').pc = .joined → (s.client k').channel = ch →
        ¬ (s.client k').SameHalves (s.client k)
  | _ => True

/-- Every channel with a participant exists, and nobody joins the empty name. -/
structure ChannelsKnown (s : RelayHub) : Prop where
  known : ∀ ch, ∀ sid ∈ s.participants ch, ch ∈ s.channels
  named : ∀ k, (s.client k).pc = .bound → (s.client k).channel ≠ ""

variable {s : RelayHub} {a : HubAction} {k : ConnID}

/-! ## What a step does to a client -/

theorem hasID_of_live {pc : ConnPc} (h : pc.live = true) : pc.hasID = true := by
  cases pc <;> first | rfl | cases h

theorem live_step (h : ((step s a).client k).pc.live = true) :
    (s.client k).pc.live = true ∧ ¬ s.Removes k a ∨
      a = .addClient k ∧ (s.client k).pc = .drawn := by
  have hstep := clientStep s a k
  generalize (step s a).client k = c at hstep h
  cases hstep with
  | addClient hpc => exact Or.inr ⟨rfl, hpc⟩
  | setChannel ch hpc => exact Or.inl ⟨by rw [hpc]; rfl, nofun⟩
  | addParticipant hpc => exact Or.inl ⟨by rw [hpc]; rfl, nofun⟩
  | udpHello | repeaterMode | routePacket => exact Or.inl ⟨h, nofun⟩
  | same a hskip =>
    refine Or.inl ⟨h, ?_⟩
    rintro ⟨rfl, hpc⟩
    exact hskip rfl hpc
  | _ => cases h

theorem live_keep (h : (s.client k).pc.live = true) (hno : ¬ s.Removes k a) :
    ((step s a).client k).pc.live = true := by
  have hstep := clientStep s a k
  generalize (step s a).client k = c at hstep ⊢
  cases hstep with
  | unregister hpc => exact absurd ⟨rfl, hpc⟩ hno
  | missing hpc => exact absurd ⟨rfl, hpc⟩ hno
  | udpHello | repeaterMode | routePacket | same => exact h
  | readClock hpc | drawCount hpc | copyChannels _ hpc | removeParticipant _ _ hpc | removed hpc =>
    rw [hpc] at h
    cases h
  | _ => rfl

theorem joined_step (h : ((step s a).client k).pc = .joined) :
    ((s.client k).pc = .joined ∨ a = .addParticipant k ∧ (s.client k).pc = .bound) ∧
      ((step s a).client k).sessionID = (s.client k).sessionID ∧
        ((step s a).client k).channel = (s.client k).channel := by
  have hstep := clientStep s a k
  generalize (step s a).client k = c at hstep h ⊢
  cases hstep with
  | addParticipant hpc => exact ⟨Or.inr ⟨rfl, hpc⟩, rfl, rfl⟩
  | udpHello | repeaterMode | routePacket | same => exact ⟨Or.inl h, rfl, rfl⟩
  | _ => cases h

/-- A connection stays in a channel until its `removeClient` gets there. -/
theorem stillIn_step {ch : ChannelName} (h : StillIn (s.client k) ch)
    (hfound : (s.client k).pc = .joined → s.clients (s.client k).sessionID ≠ none)
    (hch : ch ∈ s.channels) :
    ((step s a).client k).sessionID = (s.client k).sessionID ∧
      ((step s a).client k).channel = (s.client k).channel ∧
        (StillIn ((step s a).client k) ch ∨
          ∃ channels, a = .removeParticipant k ∧ (s.client k).pc = .leaving (ch :: channels)) := by
  have hstep := clientStep s a k
  generalize (step s a).client k = c at hstep ⊢
  cases hstep with
  | readClock hpc | drawCount hpc | addClient hpc | setChannel _ hpc | addParticipant hpc =>
    simp [StillIn, hpc] at h
  | udpHello | repeaterMode | routePacket | same => exact ⟨rfl, rfl, Or.inl h⟩
  | unregister => exact ⟨rfl, rfl, Or.inl (Or.inr (Or.inl rfl))⟩
  | missing hpc hnone =>
    have hjoined : (s.client k).pc = .joined := by
      rcases hpc with hpc | hpc
      · simp [StillIn, hpc] at h
      · exact hpc.1
    exact absurd hnone (hfound hjoined)
  | copyChannels order hpc horder =>
    exact ⟨rfl, rfl, Or.inl (Or.inr (Or.inr ⟨order, rfl, horder.mem_iff.2 hch⟩))⟩
  | removeParticipant ch' channels hpc =>
    refine ⟨rfl, rfl, ?_⟩
    obtain ⟨todo, htodo, hmem⟩ : ∃ todo, (s.client k).pc = .leaving todo ∧ ch ∈ todo := by
      simpa [StillIn, hpc] using h
    rw [hpc, ConnPc.leaving.injEq] at htodo
    subst htodo
    rcases List.mem_cons.1 hmem with rfl | hmem
    · exact Or.inr ⟨channels, rfl, hpc⟩
    · exact Or.inl (Or.inr (Or.inr ⟨channels, rfl, hmem⟩))
  | removed hpc => simp [StillIn, hpc] at h

/-- A participant after a step has just joined, or was one before and is not removed. -/
theorem mem_nextParticipants_iff {ch : ChannelName} {sid : SessionID} :
    sid ∈ s.nextParticipants a ch ↔
      (∃ k, a = .addParticipant k ∧ (s.client k).pc = .bound ∧ (s.client k).channel = ch ∧
        (s.client k).sessionID = sid) ∨
      sid ∈ s.participants ch ∧ ∀ k channels, a = .removeParticipant k →
        (s.client k).pc = .leaving (ch :: channels) → sid ≠ (s.client k).sessionID := by
  cases a with
  | addParticipant k =>
    simp only [nextParticipants]
    split_ifs with hpc
    · by_cases hch : (s.client k).channel = ch
      · subst hch
        simp [hpc, eq_comm]
      · simp [Function.update_of_ne (Ne.symm hch), hch]
    · simp [hpc]
  | removeParticipant k =>
    have hk : (∀ k' channels, HubAction.removeParticipant k = .removeParticipant k' →
        (s.client k').pc = .leaving (ch :: channels) → sid ≠ (s.client k').sessionID) ↔
          ∀ channels, (s.client k).pc = .leaving (ch :: channels) →
            sid ≠ (s.client k).sessionID := by
      refine ⟨fun h channels => h k channels rfl, ?_⟩
      rintro h k' channels heq
      obtain rfl := HubAction.removeParticipant.inj heq
      exact h channels
    rw [hk]
    cases hpc : (s.client k).pc with
    | leaving todo =>
      cases todo with
      | nil => simp [nextParticipants, hpc]
      | cons ch' channels =>
        by_cases hch : ch' = ch
        · subst hch
          simp [nextParticipants, hpc, and_comm]
        · simp [nextParticipants, hpc, Function.update_of_ne (Ne.symm hch), hch]
    | _ => simp [nextParticipants, hpc]
  | _ => simp [nextParticipants]

theorem ChannelsKnown.step (h : s.ChannelsKnown) (a : HubAction) : (s.step a).ChannelsKnown := by
  constructor
  · intro ch sid hsid
    rw [(step_maps s a).2.1, mem_nextParticipants_iff] at hsid
    rcases hsid with ⟨k, rfl, hpc, rfl, -⟩ | ⟨hsid, -⟩
    · simp only [RelayHub.step, if_pos hpc, addParticipant, setClient_channels, startCatchUp,
        if_neg (h.named k hpc)]
      split_ifs with hmem
      · exact hmem
      · exact List.mem_cons_self
    · exact (step_maps s a).2.2 (h.known ch sid hsid)
  · intro k hbound
    have hstep := clientStep s a k
    generalize (s.step a).client k = c at hstep hbound ⊢
    cases hstep with
    | setChannel ch _ hch => exact hch
    | udpHello | repeaterMode | routePacket | same => exact h.named k hbound
    | _ => cases hbound

/-! ## Identity along a run -/

theorem Identity.distinct_of_live (h : s.Identity) {k k' : ConnID}
    (hk : (s.client k).pc.live = true) (hk' : (s.client k').pc.live = true)
    (hne : k ≠ k') : (s.client k).sessionID ≠ (s.client k').sessionID :=
  fun hsid => hne (h.distinct k k' hk hk' hsid)

theorem live_of_removable (h : (s.client k).pc = .registered ∨ s.Waiting k) :
    (s.client k).pc.live = true := by
  rcases h with hpc | ⟨hpc, -⟩ <;> rw [hpc] <;> rfl

/-- The map still lists a client that is not removed. -/
theorem Identity.listed_next (h : s.Identity) (hfresh : s.IdsFresh a)
    (hlive : (s.client k).pc.live = true) (hno : ¬ s.Removes k a) :
    s.nextClients a (s.client k).sessionID = some k := by
  cases a with
  | addClient k' =>
    simp only [nextClients]
    split_ifs with hpc
    · rw [Function.update_of_ne, h.listed k hlive]
      rw [Ne, Client.sessionID_eq_iff]
      exact (hfresh hpc).2 k hlive
    · exact h.listed k hlive
  | removeClient k' =>
    simp only [nextClients]
    split_ifs with hpc
    · rw [Function.update_of_ne, h.listed k hlive]
      refine h.distinct_of_live hlive (live_of_removable hpc) ?_
      rintro rfl
      exact hno ⟨rfl, hpc⟩
    · exact h.listed k hlive
  | _ => exact h.listed k hlive

/-- Whoever the map lists is a registered client with that id. -/
theorem Identity.only_next (h : s.Identity) {sid : SessionID}
    (hk : s.nextClients a sid = some k) : (s.client k).sessionID = sid ∧
      ((s.client k).pc.live = true ∧ ¬ s.Removes k a ∨
        a = .addClient k ∧ (s.client k).pc = .drawn) := by
  rcases nextClients_eq_some hk with ⟨hold, hno⟩ | ⟨rfl, hpc, hsid⟩
  · obtain ⟨hlive, hsid⟩ := h.only sid k hold
    exact ⟨hsid, Or.inl ⟨hlive, fun hremoves => hno k hremoves hsid⟩⟩
  · exact ⟨hsid, Or.inr ⟨rfl, hpc⟩⟩

/-- Every step that adds no taken id keeps the hub's clients apart. -/
theorem Identity.step (h : s.Identity) (hknown : s.ChannelsKnown) (hfresh : s.IdsFresh a) :
    (s.step a).Identity := by
  have hsid : ∀ k, ((s.step a).client k).pc.live = true →
      ((s.step a).client k).sessionID = (s.client k).sessionID := by
    intro k hlive
    rcases live_step hlive with ⟨hlive, -⟩ | ⟨-, hpc⟩
    · exact (sessionID_step a (hasID_of_live hlive)).2
    · exact (sessionID_step a (by rw [hpc]; rfl)).2
  constructor
  case nonzero =>
    intro k hlive
    rw [hsid k hlive]
    rcases live_step hlive with ⟨hlive, -⟩ | ⟨rfl, hpc⟩
    · exact h.nonzero k hlive
    · rw [Ne, Client.sessionID_eq_zero_iff]
      exact (hfresh hpc).1
  case distinct =>
    intro k k' hlive hlive' heq
    rw [hsid k hlive, hsid k' hlive'] at heq
    rcases live_step hlive with ⟨hold, -⟩ | ⟨rfl, hpc⟩ <;>
      rcases live_step hlive' with ⟨hold', -⟩ | ⟨ha, hpc'⟩
    · exact h.distinct k k' hold hold' heq
    · subst ha
      exact absurd (Client.sessionID_eq_iff.1 heq) ((hfresh hpc').2 k hold)
    · exact absurd (Client.sessionID_eq_iff.1 heq.symm) ((hfresh hpc).2 k' hold')
    · exact HubAction.addClient.inj ha
  case listed =>
    intro k hlive
    rw [hsid k hlive, (step_maps s a).1]
    rcases live_step hlive with ⟨hlive, hno⟩ | ⟨rfl, hpc⟩
    · exact h.listed_next hfresh hlive hno
    · simp [nextClients, hpc]
  case only =>
    intro sid k hk
    rw [(step_maps s a).1] at hk
    obtain ⟨rfl, hcase⟩ := h.only_next hk
    have hlive : ((s.step a).client k).pc.live = true := by
      rcases hcase with ⟨hlive, hno⟩ | ⟨rfl, hpc⟩
      · exact live_keep hlive hno
      · simp [RelayHub.step, hpc, ConnPc.live]
    exact ⟨hlive, hsid k hlive⟩
  case joined =>
    intro k hpc
    obtain ⟨hcase, hid, hchannel⟩ := joined_step hpc
    rw [hid, hchannel, (step_maps s a).2.1, mem_nextParticipants_iff]
    rcases hcase with hold | ⟨rfl, hbound⟩
    · refine Or.inr ⟨h.joined k hold, ?_⟩
      rintro k' channels rfl hpc'
      rw [Ne, Client.sessionID_eq_iff]
      exact hfresh _ channels hpc' k hold rfl
    · exact Or.inl ⟨k, rfl, hbound, rfl, rfl⟩
  case member =>
    intro ch sid hmem
    rw [(step_maps s a).2.1, mem_nextParticipants_iff] at hmem
    rcases hmem with ⟨k, rfl, hpc, rfl, rfl⟩ | ⟨hmem, hno⟩
    · refine ⟨k, ?_⟩
      simp [RelayHub.step, hpc, addParticipant, StillIn, Client.sessionID]
    · obtain ⟨k, rfl, rfl, hin⟩ := h.member ch sid hmem
      have hfound : (s.client k).pc = .joined → s.clients (s.client k).sessionID ≠ none := by
        intro hpc
        rw [h.listed k (by rw [hpc]; rfl)]
        exact Option.some_ne_none k
      obtain ⟨hid, hchannel, hin | ⟨channels, rfl, hpc⟩⟩ :=
        stillIn_step (a := a) hin hfound (hknown.known _ _ hmem)
      · exact ⟨k, hid, hchannel, hin⟩
      · exact absurd rfl (hno k channels rfl hpc)

theorem Identity.removesOwn (h : s.Identity) (a : HubAction) : s.RemovesOwn a := by
  cases a with
  | removeClient k =>
    rintro ⟨-, hpc⟩ sid
    have hlive := live_of_removable hpc
    rw [(step_maps s _).1]
    simp only [nextClients, if_pos hpc]
    by_cases hsid : sid = (s.client k).sessionID
    · subst hsid
      simp [h.listed k hlive]
    · rw [Function.update_of_ne hsid, if_neg]
      intro hk
      exact hsid (h.only sid k hk).2.symm
  | _ => trivial

theorem identity_new (unix : ℕ) : (new unix).Identity where
  nonzero _ h := by cases h
  distinct _ _ h := by cases h
  listed _ h := by cases h
  only _ _ h := by cases h
  joined _ h := by cases h
  member _ _ h := by simp [new] at h

theorem channelsKnown_new (unix : ℕ) : (new unix).ChannelsKnown where
  known _ _ h := by simp [new] at h
  named _ h := by cases h

/-- A step after which the hub tells its clients apart adds no taken id. -/
theorem idsFresh_of_identity (h : (s.step a).Identity) : s.IdsFresh a := by
  cases a with
  | addClient k =>
    intro hpc
    have hself : (s.step (.addClient k)).client k = { s.client k with pc := .registered } := by
      simp [step, hpc]
    have hlive : ((s.step (.addClient k)).client k).pc.live = true := by
      rw [hself]
      rfl
    refine ⟨fun hzero => h.nonzero k hlive ?_, fun k' hlive' hsame => ?_⟩
    · rw [hself]
      exact Client.sessionID_eq_zero_iff.2 hzero
    · have hne : k' ≠ k := by
        rintro rfl
        rw [hpc] at hlive'
        cases hlive'
      have hother : (s.step (.addClient k)).client k' = s.client k' := by
        simp [step, hpc, setClient_of_ne _ _ hne]
      refine hne (h.distinct k' k (by rwa [hother]) hlive ?_)
      rw [hother, hself]
      exact Client.sessionID_eq_iff.2 hsame
  | removeParticipant k =>
    rintro ch channels hpc k' hpc' rfl hsame
    have hne : k' ≠ k := by
      rintro rfl
      rw [hpc] at hpc'
      cases hpc'
    have hother : (s.step (.removeParticipant k)).client k' = s.client k' := by
      simp [step, removeParticipant, hpc, setClient_of_ne _ _ hne]
    have hmem := h.joined k' (by rwa [hother])
    rw [hother, (step_maps s _).2.1, mem_nextParticipants_iff] at hmem
    rcases hmem with ⟨j, hj, -⟩ | ⟨-, hno⟩
    · cases hj
    · exact hno k channels rfl hpc (Client.sessionID_eq_iff.2 hsame)
  | _ => trivial

/-- In every run, the hub tells its clients apart after every step and every `removeClient` removes
its own client and no other, if and only if no client is ever added with the id `0` or the id of a
registered client, and no connection leaves a channel in which a client with its id has joined. -/
theorem identity_kept_iff (unix : ℕ) (as : List HubAction) :
    Along step IdentityKept (new unix) as ↔ Along step IdsFresh (new unix) as := by
  constructor
  · exact fun h pre a post heq => idsFresh_of_identity (h pre a post heq).1
  · refine Along.imp_of_invariant (I := fun s => s.Identity ∧ s.ChannelsKnown) ?_ ?_
      ⟨identity_new unix, channelsKnown_new unix⟩
    · rintro s a ⟨h, hknown⟩ hfresh
      exact ⟨h.step hknown hfresh, hknown.step a⟩
    · rintro s a ⟨h, hknown⟩ hfresh
      exact ⟨h.step hknown hfresh, h.removesOwn a⟩

/-! ## A session that outlives the counter -/

/-- The handler of the connection runs up to `addClient`. -/
def connects (k : ConnID) : List HubAction := [.readClock k, .drawCount k, .addClient k]

/-- A connection that ends before it joins a channel. -/
def visit (k : ConnID) : List HubAction :=
  connects k ++ [.removeClient k, .copyChannels k [], .removeParticipant k]

/-- Connections `1` to `n` come and go. -/
def visits (n : ℕ) : List HubAction := (List.range n).flatMap fun i => visit (i + 1)

/-- What the handler of one connection leaves alone. -/
structure OtherSame (k : ConnID) (s s' : RelayHub) : Prop where
  unix : s'.unix = s.unix
  client : ∀ j ≠ k, s'.client j = s.client j

theorem OtherSame.trans {s' s'' : RelayHub} (h : OtherSame k s s') (h' : OtherSame k s' s'') :
    OtherSame k s s'' :=
  ⟨h'.unix.trans h.unix, fun j hj => (h'.client j hj).trans (h.client j hj)⟩

theorem otherSame_setClient {s' : RelayHub} {c : Client} (hunix : s'.unix = s.unix)
    (hclient : s'.client = s.client) : OtherSame k s (s'.setClient k c) :=
  ⟨hunix, fun j hj => (setClient_of_ne _ _ hj).trans (congrFun hclient j)⟩

theorem connects_spec (h : (s.client k).pc = .accepted) :
    OtherSame k s (after step s (connects k)) ∧
      (after step s (connects k)).seq = u32 (s.seq + 1) ∧
      (after step s (connects k)).client k =
        { s.client k with pc := .registered, unix := s.unix, count := u32 (s.seq + 1) } := by
  have hread : step s (.readClock k) =
      s.setClient k { s.client k with pc := .clockRead, unix := s.unix } := if_pos h
  have hdraw : ∀ t : RelayHub, (t.client k).pc = .clockRead → step t (.drawCount k) =
      { t with seq := u32 (t.seq + 1) }.setClient k
        { t.client k with pc := .drawn, count := u32 (t.seq + 1) } := fun t ht => if_pos ht
  have hadd : ∀ t : RelayHub, (t.client k).pc = .drawn → step t (.addClient k) =
      { t with clients := Function.update t.clients (t.client k).sessionID (some k) }.setClient k
        { t.client k with pc := .registered } := fun t ht => if_pos ht
  simp only [connects, after_cons, after_nil]
  rw [hread, hdraw _ (by simp), hadd _ (by simp)]
  refine ⟨?_, rfl, by simp; rfl⟩
  exact ((otherSame_setClient rfl rfl).trans (otherSame_setClient rfl rfl)).trans
    (otherSame_setClient rfl rfl)

/-- The parts of `removeClient` leave the other connections and the counter alone. -/
theorem removal_spec {a : HubAction}
    (ha : a = .removeClient k ∨ (∃ order, a = .copyChannels k order) ∨ a = .removeParticipant k) :
    OtherSame k s (step s a) ∧ (step s a).seq = s.seq := by
  have hself : OtherSame k s s := ⟨rfl, fun _ _ => rfl⟩
  rcases ha with rfl | ⟨order, rfl⟩ | rfl
  · simp only [step, removeClient]
    split_ifs
    · split <;> exact ⟨otherSame_setClient rfl rfl, rfl⟩
    · exact ⟨hself, rfl⟩
  · simp only [step]
    split_ifs
    · exact ⟨otherSame_setClient rfl rfl, rfl⟩
    · exact ⟨hself, rfl⟩
  · simp only [step, removeParticipant]
    split
    · exact ⟨otherSame_setClient rfl rfl, rfl⟩
    · exact ⟨otherSame_setClient rfl rfl, rfl⟩
    · exact ⟨hself, rfl⟩

theorem visit_spec (h : (s.client k).pc = .accepted) :
    OtherSame k s (after step s (visit k)) ∧
      (after step s (visit k)).seq = u32 (s.seq + 1) := by
  obtain ⟨hconnect, hseq, -⟩ := connects_spec h
  rw [visit, after_append]
  generalize after step s (connects k) = t at hconnect hseq ⊢
  simp only [after_cons, after_nil]
  obtain ⟨h1, hseq1⟩ := removal_spec (s := t) (k := k) (Or.inl rfl)
  obtain ⟨h2, hseq2⟩ := removal_spec (s := step t (.removeClient k)) (k := k)
    (Or.inr (Or.inl ⟨[], rfl⟩))
  obtain ⟨h3, hseq3⟩ := removal_spec (s := step (step t (.removeClient k)) (.copyChannels k []))
    (k := k) (Or.inr (Or.inr rfl))
  exact ⟨((hconnect.trans h1).trans h2).trans h3,
    ((hseq3.trans hseq2).trans hseq1).trans hseq⟩

/-- After `n` visits the counter has gone on by `n`. -/
theorem visits_spec (n : ℕ) (h : ∀ k : ℕ, 1 ≤ k → (s.client k).pc = .accepted)
    (hseq : s.seq = u32 s.seq) :
    (after step s (visits n)).seq = u32 (s.seq + n) ∧
      (after step s (visits n)).unix = s.unix ∧
      ∀ k : ℕ, k = 0 ∨ n < k → (after step s (visits n)).client k = s.client k := by
  induction n with
  | zero => exact ⟨hseq, rfl, fun _ _ => rfl⟩
  | succ n ih =>
    obtain ⟨ihseq, ihunix, ihclient⟩ := ih
    have hvisits : visits (n + 1) = visits n ++ visit (n + 1) := by
      simp [visits, List.range_succ]
    rw [hvisits, after_append]
    generalize after step s (visits n) = t at ihseq ihunix ihclient ⊢
    have hpc : (t.client (n + 1)).pc = .accepted := by
      rw [ihclient (n + 1) (Or.inr (Nat.lt_succ_self n))]
      exact h (n + 1) (Nat.le_add_left 1 n)
    obtain ⟨hother, hseq'⟩ := visit_spec hpc
    refine ⟨?_, hother.unix.trans ihunix, fun k hk => ?_⟩
    · rw [hseq', ihseq]
      unfold u32
      omega
    · have hne : k ≠ n + 1 := by omega
      exact (hother.client k hne).trans (ihclient k (by omega))

/-- Connection `0` stays, `n` others come and go, and `d` seconds later one more is accepted. -/
def longSession (n d : ℕ) : List HubAction :=
  connects 0 ++ (visits n ++ .elapse 0 d :: connects (n + 1))

theorem longSession_spec (unix n d : ℕ) :
    (after step (new unix) (longSession n d)).client 0 =
        { pc := .registered, unix := unix, count := u32 1 } ∧
      (after step (new unix) (longSession n d)).client (n + 1) =
        { pc := .registered, unix := unix + d, count := u32 (u32 (1 + n) + 1) } := by
  obtain ⟨hfirst, hseq, hzero⟩ := connects_spec (s := new unix) (k := 0) rfl
  have hidle : ∀ k : ℕ, 1 ≤ k → (after step (new unix) (connects 0)).client k = {} :=
    fun k hk => hfirst.client k (Nat.one_le_iff_ne_zero.1 hk)
  obtain ⟨hseq', hunix', hclient'⟩ := visits_spec (s := after step (new unix) (connects 0)) n
    (fun k hk => by rw [hidle k hk]) (by rw [hseq]; rfl)
  rw [longSession, after_append, after_append, after_cons]
  rw [hseq] at hseq'
  rw [hfirst.unix] at hunix'
  generalize after step (after step (new unix) (connects 0)) (visits n) = t at *
  have hlast := (hclient' (n + 1) (Or.inr (Nat.lt_succ_self n))).trans
    (hidle (n + 1) (Nat.le_add_left 1 n))
  obtain ⟨hother, -, hself⟩ := connects_spec (s := step t (.elapse 0 d)) (k := n + 1)
    (congrArg Client.pc hlast)
  refine ⟨?_, hself.trans ?_⟩
  · have hne : 0 ≠ n + 1 := (Nat.succ_ne_zero n).symm
    exact (hother.client 0 hne).trans ((hclient' 0 (Or.inl rfl)).trans hzero)
  · simp [step, hlast, hseq', hunix', new]
    rfl

theorem identity_longSession {unix n d : ℕ}
    (h : Along step IdentityKept (new unix) (longSession n d)) :
    (after step (new unix) (longSession n d)).Identity := by
  have hsnoc : longSession n d = (connects 0 ++ (visits n ++ [.elapse 0 d, .readClock (n + 1),
      .drawCount (n + 1)])) ++ [.addClient (n + 1)] := by
    simp [longSession, connects]
  rw [hsnoc] at h ⊢
  rw [after_snoc]
  exact h.last.1

/-- After 65535 other connections and 65536 s the next one gets the id of connection `0`. -/
theorem id_reused : ¬ Along step IdentityKept (new 1700000000) (longSession 65535 65536) := by
  intro hkept
  have hidentity := identity_longSession hkept
  obtain ⟨hfirst, hlast⟩ := longSession_spec 1700000000 65535 65536
  refine absurd (hidentity.distinct 0 (65535 + 1) ?_ ?_ ?_) (by decide)
  · rw [hfirst]
    rfl
  · rw [hlast]
    rfl
  · rw [hfirst, hlast, Client.sessionID_eq_iff]
    exact ⟨by norm_num, by norm_num [u32]⟩

end RelayHub

end OWalkie
