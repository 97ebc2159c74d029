import OWalkie.Lib.Register
import OWalkie.Relay.WsHandler

/-!
# Scanning for active channels

What `checkChannelActivity` returns.  Its conversation with the relay goes through the phases of
`Talk`, whatever the other connections, the UDP reader and the mixers do meanwhile; the answer is
made from the register that `markChannelActivity` writes.
-/

namespace OWalkie

open Run

namespace ScanRelay

/-! ## The conversation of a probe -/

section talk

variable (p : Peers) (unix : ℕ) (k : ConnID) (name : ChannelName)

/-- What `channelHasRecentActivity` finds under its lock. -/
def noted (s : ScanRelay) (name : ChannelName) : Option ℤ :=
  if name = "" then none else s.channelActivity name

/-- The probe has sent its request and has no answer. -/
def Asking (s : ScanRelay) : Prop := s.probe k = .awaitAnswer ∨ s.probe k = .network

/-- The handler has looked the channel up, while the probe was asking. -/
def LookedUp (as : List ScanAction) (lastAt : Option ℤ) : Prop :=
  ∃ pre post, as = pre ++ .lookUp k :: post ∧
    (after (step p) (new unix) pre).Asking k ∧ lastAt = (after (step p) (new unix) pre).noted name

/-- The handler has looked the channel up, while the probe was asking, and answered from that. -/
def Answered (as : List ScanAction) (active : Bool) : Prop :=
  ∃ pre post, as = pre ++ .answer k :: post ∧ ∃ lastAt, LookedUp p unix k name pre lastAt ∧
    active = lastAt.any fun t =>
      decide ((after (step p) (new unix) pre).hub.clock - t ≤ scanActivityWindow)

variable {unix k name} {p : Peers}

theorem LookedUp.intro {as : List ScanAction} {s : ScanRelay}
    (hs : s = after (step p) (new unix) as) (probe : s.Asking k) :
    LookedUp p unix k name (as ++ [.lookUp k]) (s.noted name) :=
  ⟨as, [], rfl, hs ▸ probe, by rw [hs]⟩

theorem LookedUp.snoc {as : List ScanAction} {lastAt : Option ℤ}
    (h : LookedUp p unix k name as lastAt) (a : ScanAction) :
    LookedUp p unix k name (as ++ [a]) lastAt := by
  obtain ⟨pre, post, rfl, h⟩ := h
  exact ⟨pre, post ++ [a], by simp, h⟩

theorem Answered.snoc {as : List ScanAction} {active : Bool} (h : Answered p unix k name as active)
    (a : ScanAction) : Answered p unix k name (as ++ [a]) active := by
  obtain ⟨pre, post, rfl, h⟩ := h
  exact ⟨pre, post ++ [a], by simp, h⟩

/-- How far the conversation of a probe has got. -/
inductive Talk (p : Peers) (unix : ℕ) (k : ConnID) (channel : String) (as : List ScanAction)
    (s : ScanRelay) : Prop
  | greeting (handler : s.handler k = .welcome) (inbox : s.inbox k = [])
    (outbox : ∀ msg ∈ s.outbox k, ∃ m, msg = .channelState m)
    (probe : s.probe k = .awaitWelcome ∨ s.probe k = .network)
  | greeted (handler : s.handler k = .reading) (inbox : s.inbox k = [])
    (outbox : ∀ ch active, .hasActivity ch active ∉ s.outbox k)
    (probe : s.probe k = .awaitWelcome ∨ s.probe k = .ask ∨ s.probe k = .network)
  | asked (handler : s.handler k = .reading)
    (inbox : s.inbox k = [buildHasActivity (probeChannel channel)])
    (outbox : ∀ ch active, .hasActivity ch active ∉ s.outbox k) (probe : s.Asking k)
  | lookUp (handler : s.handler k = .lookUp (p.normalizeChannelName (probeChannel channel)))
    (inbox : s.inbox k = []) (outbox : ∀ ch active, .hasActivity ch active ∉ s.outbox k)
    (probe : s.Asking k) (pc : (s.hub.client k).pc = .registered)
  | lookedUp (lastAt : Option ℤ)
    (looked : LookedUp p unix k (p.normalizeChannelName (probeChannel channel)) as lastAt)
    (handler :
      s.handler k = .lookedUp (p.normalizeChannelName (probeChannel channel)) lastAt)
    (inbox : s.inbox k = []) (outbox : ∀ ch active, .hasActivity ch active ∉ s.outbox k)
    (probe : s.Asking k) (pc : (s.hub.client k).pc = .registered)
  | answered (active : Bool)
    (answer : Answered p unix k (p.normalizeChannelName (probeChannel channel)) as active)
    (handler : s.handler k = .returning) (inbox : s.inbox k = [])
    (outbox : ∀ ch b, .hasActivity ch b ∈ s.outbox k → b = active)
    (probe : s.Asking k ∨ s.probe k = .ok active)

variable {channel : String} {as : List ScanAction} {s s' : ScanRelay}

/-- A step that leaves the connection alone. -/
theorem Talk.same (h : Talk p unix k channel as s) (a : ScanAction)
    (hhandler : s'.handler k = s.handler k) (hinbox : s'.inbox k = s.inbox k)
    (houtbox : s'.outbox k = s.outbox k) (hprobe : s'.probe k = s.probe k)
    (hpc : (∀ ch lastAt, s.handler k = .lookUp ch ∨ s.handler k = .lookedUp ch lastAt →
      (s.hub.client k).pc = .registered → (s'.hub.client k).pc = .registered)) :
    Talk p unix k channel (as ++ [a]) s' := by
  have hasking : s'.Asking k ↔ s.Asking k := by rw [Asking, Asking, hprobe]
  cases h with
  | greeting handler inbox outbox probe =>
    exact .greeting (by rwa [hhandler]) (by rwa [hinbox]) (by rwa [houtbox]) (by rwa [hprobe])
  | greeted handler inbox outbox probe =>
    exact .greeted (by rwa [hhandler]) (by rwa [hinbox]) (by rwa [houtbox]) (by rwa [hprobe])
  | asked handler inbox outbox probe =>
    exact .asked (by rwa [hhandler]) (by rwa [hinbox]) (by rwa [houtbox]) (hasking.2 probe)
  | lookUp handler inbox outbox probe pc =>
    exact .lookUp (by rwa [hhandler]) (by rwa [hinbox]) (by rwa [houtbox]) (hasking.2 probe)
      (hpc _ none (Or.inl handler) pc)
  | lookedUp lastAt looked handler inbox outbox probe pc =>
    exact .lookedUp lastAt (looked.snoc a) (by rwa [hhandler]) (by rwa [hinbox])
      (by rwa [houtbox]) (hasking.2 probe) (hpc _ _ (Or.inr handler) pc)
  | answered active answer handler inbox outbox probe =>
    exact .answered active (answer.snoc a) (by rwa [hhandler]) (by rwa [hinbox])
      (by rwa [houtbox]) (by rwa [hasking, hprobe])

/-- A connection that no `switchChannel` has touched. -/
structure Unbound (c : Client) : Prop where
  channel : c.channel = ""
  bound : c.pc ≠ .bound
  joined : c.pc ≠ .joined

theorem Unbound.clientStep {hub : RelayHub} {b : HubAction} {c : Client}
    (h : Unbound (hub.client k)) (hb : ∀ ch, b ≠ .setChannel k ch)
    (hstep : hub.ClientStep k b c) : Unbound c := by
  cases hstep with
  | setChannel ch => exact absurd rfl (hb ch)
  | addParticipant hpc => exact absurd hpc h.bound
  | udpHello | repeaterMode | routePacket | same => exact ⟨h.channel, h.bound, h.joined⟩
  | _ => exact ⟨h.channel, by simp, by simp⟩

/-- A connection of a probe after a step of the hub. -/
theorem talk_other {a : ScanAction} (h : Talk p unix k channel as s) (ha : a.conn ≠ some k)
    (hbound : Unbound (s.hub.client k)) :
    Talk p unix k channel (as ++ [a]) (s.step p a) ∧ Unbound ((s.step p a).hub.client k) := by
  obtain ⟨hhandler, hinbox, houtbox, hprobe⟩ := step_other p (s := s) ha
  rcases client_other p (s := s) ha with hclient | ⟨b, hasked, hclient⟩
  · exact ⟨h.same a hhandler hinbox houtbox hprobe (by simp [hclient]), by rwa [hclient]⟩
  have hstep := s.hub.clientStep b k
  rw [hclient] at hstep
  refine ⟨h.same a hhandler hinbox houtbox hprobe ?_, hbound.clientStep ?_ hstep⟩
  · intro ch lastAt hpc hreg
    generalize (s.step p a).hub.client k = c at hstep
    cases hstep with
    | unregister | missing => rcases hpc with hpc | hpc <;> simp [Unasked, hpc] at hasked
    | setChannel => exact hasked.elim
    | udpHello | repeaterMode => exact hasked.elim
    | routePacket | same => exact hreg
    | copyChannels _ hpc' | removeParticipant _ _ hpc' => simp [hpc'] at hreg
    | _ hpc' => simp [hpc'] at hreg
  · rintro ch rfl
    exact hasked

theorem talk_read (h : Talk p unix k channel as s) (hbound : Unbound (s.hub.client k)) :
    Talk p unix k channel (as ++ [.read k]) (s.read p k) ∧ (s.read p k).hub = s.hub := by
  have hwait : ¬ s.hub.Waiting k := fun hw => hbound.joined hw.1
  have hsame := h.same (.read k) rfl rfl rfl rfl fun _ _ _ => id
  cases h with
  | greeted handler inbox outbox probe =>
    simp only [read, handler, inbox, if_true]
    exact ⟨hsame, trivial⟩
  | asked handler inbox outbox probe =>
    simp only [read, handler, inbox, if_true, hwait, if_false]
    split_ifs with hpc
    · have htype : RelayConfig.lowerTrimmed "has_activity" = "has_activity" := by decide
      simp only [readFirst, buildHasActivity, htype, if_true]
      refine ⟨.lookUp (by simp [setHandler]) (by simp [setHandler]) outbox probe hpc, rfl⟩
    · exact ⟨hsame, rfl⟩
  | greeting handler | lookUp handler | lookedUp _ _ handler | answered _ _ handler =>
    simp only [read, handler, reduceCtorEq, if_false]
    exact ⟨hsame, trivial⟩

theorem talk_lookUp (h : Talk p unix k channel as s) (hs : s = after (step p) (new unix) as) :
    Talk p unix k channel (as ++ [.lookUp k]) (s.lookUp p k) ∧ (s.lookUp p k).hub = s.hub := by
  have hsame := h.same (.lookUp k) rfl rfl rfl rfl fun _ _ _ => id
  cases h with
  | lookUp handler inbox outbox probe pc =>
    simp only [lookUp, handler, p.normalizeChannelName_idem]
    exact ⟨.lookedUp _ (.intro hs probe) (by simp [setHandler, noted]) inbox outbox probe pc, rfl⟩
  | greeting handler | greeted handler | asked handler | lookedUp _ _ handler
    | answered _ _ handler =>
    simp only [lookUp, handler]
    exact ⟨hsame, trivial⟩

theorem talk_answer (h : Talk p unix k channel as s) (hs : s = after (step p) (new unix) as) :
    Talk p unix k channel (as ++ [.answer k]) (s.answer k) ∧ (s.answer k).hub = s.hub := by
  have hsame := h.same (.answer k) rfl rfl rfl rfl fun _ _ _ => id
  cases h with
  | lookedUp lastAt looked handler inbox outbox probe pc =>
    simp only [answer, handler]
    refine ⟨.answered _ ⟨as, [], rfl, lastAt, looked, rfl⟩ ?_ inbox ?_ (Or.inl probe), rfl⟩
    · simp [setHandler, writeJSON, pc]
    · intro ch b hb
      simp only [setHandler, writeJSON, Function.update_self, List.mem_append,
        List.mem_singleton, outbox, false_or, WsReply.hasActivity.injEq] at hb
      rw [hb.2, hs]
  | greeting handler | greeted handler | asked handler | lookUp handler
    | answered _ _ handler =>
    simp only [answer, handler]
    exact ⟨hsame, trivial⟩

/-- What `checkChannelActivity` makes of the next message. -/
theorem probeRead_cases (s : ScanRelay) (k : ConnID) :
    s.probeRead k = s ∨ ∃ msg, s.outbox k = msg :: (s.probeRead k).outbox k ∧
      (s.probeRead k).handler = s.handler ∧ (s.probeRead k).inbox = s.inbox ∧
      (s.probeRead k).hub = s.hub ∧
      (s.probe k = .awaitWelcome ∧ ((s.probeRead k).probe k = .network ∨
          (s.probeRead k).probe k = .ask ∧ ∃ sid, msg = .welcome sid) ∨
        s.probe k = .awaitAnswer ∧ ((s.probeRead k).probe k = .awaitAnswer ∨
          ∃ ch active, msg = .hasActivity ch active ∧ (s.probeRead k).probe k = .ok active)) := by
  unfold probeRead
  cases houtbox : s.outbox k with
  | nil => exact Or.inl rfl
  | cons msg msgs =>
    cases hprobe : s.probe k with
    | awaitWelcome =>
      refine Or.inr ⟨msg, ?_⟩
      cases msg <;> simp [setProbe]
    | awaitAnswer =>
      refine Or.inr ⟨msg, ?_⟩
      cases msg <;> simp [setProbe, hprobe]
    | ask | network | ok => exact Or.inl rfl

theorem probeRead_hub (s : ScanRelay) (k : ConnID) : (s.probeRead k).hub = s.hub := by
  rcases s.probeRead_cases k with heq | ⟨_, _, _, _, hhub, _⟩
  · rw [heq]
  · exact hhub

theorem talk_probeRead (h : Talk p unix k channel as s) :
    Talk p unix k channel (as ++ [.probeRead k]) (s.probeRead k) := by
  rcases s.probeRead_cases k with heq | ⟨msg, houtbox, hhandler, hinbox, hhub, hprobe⟩
  · exact h.same _ (by rw [heq]) (by rw [heq]) (by rw [heq]) (by rw [heq]) (by simp [heq])
  have hmem : msg ∈ s.outbox k := by rw [houtbox]; exact List.mem_cons_self
  have hrest : ∀ m ∈ (s.probeRead k).outbox k, m ∈ s.outbox k := fun m hm => by
    rw [houtbox]
    exact List.mem_cons_of_mem _ hm
  have hasking (hask : s.Asking k) (hno : ∀ ch active, msg ≠ .hasActivity ch active) :
      (s.probeRead k).Asking k := by
    rcases hprobe with ⟨hp, -⟩ | ⟨-, hnext | ⟨ch, active, hmsg, -⟩⟩
    · simp [Asking, hp] at hask
    · exact Or.inl hnext
    · exact absurd hmsg (hno ch active)
  cases h with
  | greeting handler inbox outbox probe =>
    refine .greeting (by rwa [hhandler]) (by rwa [hinbox]) (fun m hm => outbox m (hrest m hm)) ?_
    obtain ⟨m, rfl⟩ := outbox msg hmem
    rcases hprobe with ⟨-, hnext | ⟨-, sid, hmsg⟩⟩ | ⟨hp, -⟩
    · exact Or.inr hnext
    · cases hmsg
    · simp [hp] at probe
  | greeted handler inbox outbox probe =>
    refine .greeted (by rwa [hhandler]) (by rwa [hinbox])
      (fun ch active hm => outbox ch active (hrest _ hm)) ?_
    rcases hprobe with ⟨-, hnext | ⟨hnext, -⟩⟩ | ⟨hp, -⟩
    · exact Or.inr (Or.inr hnext)
    · exact Or.inr (Or.inl hnext)
    · simp [hp] at probe
  | asked handler inbox outbox probe =>
    exact .asked (by rwa [hhandler]) (by rwa [hinbox])
      (fun ch active hm => outbox ch active (hrest _ hm))
      (hasking probe fun ch active heq => outbox ch active (heq ▸ hmem))
  | lookUp handler inbox outbox probe pc =>
    exact .lookUp (by rwa [hhandler]) (by rwa [hinbox])
      (fun ch active hm => outbox ch active (hrest _ hm))
      (hasking probe fun ch active heq => outbox ch active (heq ▸ hmem)) (by rwa [hhub])
  | lookedUp lastAt looked handler inbox outbox probe pc =>
    exact .lookedUp lastAt (looked.snoc _) (by rwa [hhandler]) (by rwa [hinbox])
      (fun ch active hm => outbox ch active (hrest _ hm))
      (hasking probe fun ch active heq => outbox ch active (heq ▸ hmem)) (by rwa [hhub])
  | answered active answer handler inbox outbox probe =>
    refine .answered active (answer.snoc _) (by rwa [hhandler]) (by rwa [hinbox])
      (fun ch b hm => outbox ch b (hrest _ hm)) ?_
    rcases hprobe with ⟨hp, -⟩ | ⟨-, hnext | ⟨ch, b, rfl, hnext⟩⟩
    · simp [Asking, hp] at probe
    · exact Or.inl (Or.inl hnext)
    · rw [hnext, outbox ch b hmem]
      exact Or.inr rfl

theorem talk_probeWrite (h : Talk p unix k channel as s) (hprobe : s.probe k = .ask) :
    Talk p unix k channel (as ++ [.probeWrite k])
      ((s.send k (buildHasActivity (probeChannel channel))).setProbe k .awaitAnswer) := by
  cases h with
  | greeted handler inbox outbox probe =>
    exact .asked handler (by simp [setProbe, send, inbox]) outbox (Or.inl (by simp [setProbe]))
  | greeting _ _ _ probe | answered _ _ _ _ _ probe => simp [hprobe, Asking] at probe
  | asked _ _ _ probe | lookUp _ _ _ probe | lookedUp _ _ _ _ _ probe =>
    simp [hprobe, Asking] at probe

theorem talk_probeFail (h : Talk p unix k channel as s) :
    Talk p unix k channel (as ++ [.probeFail k]) (s.setProbe k .network) := by
  have hnetwork : (s.setProbe k .network).probe k = .network := by simp [setProbe]
  cases h with
  | greeting handler inbox outbox _ => exact .greeting handler inbox outbox (Or.inr hnetwork)
  | greeted handler inbox outbox _ =>
    exact .greeted handler inbox outbox (Or.inr (Or.inr hnetwork))
  | asked handler inbox outbox _ => exact .asked handler inbox outbox (Or.inr hnetwork)
  | lookUp handler inbox outbox _ pc => exact .lookUp handler inbox outbox (Or.inr hnetwork) pc
  | lookedUp lastAt looked handler inbox outbox _ pc =>
    exact .lookedUp lastAt (looked.snoc _) handler inbox outbox (Or.inr hnetwork) pc
  | answered active answer handler inbox outbox _ =>
    exact .answered active (answer.snoc _) handler inbox outbox (Or.inl (Or.inr hnetwork))

theorem talk_broadcast (h : Talk p unix k channel as s) (msg : WsServerMessage) :
    Talk p unix k channel (as ++ [.broadcast k msg]) (s.writeJSON k (.channelState msg)) := by
  have hmem : ∀ m, m ∈ (s.writeJSON k (.channelState msg)).outbox k ↔
      m ∈ s.outbox k ∨ m = .channelState msg := by simp [writeJSON]
  cases h with
  | greeting handler inbox outbox probe =>
    refine .greeting handler inbox (fun m hm => ?_) probe
    rcases (hmem m).1 hm with hm | rfl
    · exact outbox m hm
    · exact ⟨msg, rfl⟩
  | greeted handler inbox outbox probe =>
    exact .greeted handler inbox (by simpa [hmem] using outbox) probe
  | asked handler inbox outbox probe =>
    exact .asked handler inbox (by simpa [hmem] using outbox) probe
  | lookUp handler inbox outbox probe pc =>
    exact .lookUp handler inbox (by simpa [hmem] using outbox) probe pc
  | lookedUp lastAt looked handler inbox outbox probe pc =>
    exact .lookedUp lastAt (looked.snoc _) handler inbox (by simpa [hmem] using outbox) probe pc
  | answered active answer handler inbox outbox probe =>
    exact .answered active (answer.snoc _) handler inbox
      (fun ch b hm => outbox ch b (((hmem _).1 hm).resolve_right (by simp))) probe

theorem talk_welcome (h : Talk p unix k channel as s) (sid : SessionID)
    (hhandler : s.handler k = .welcome) :
    Talk p unix k channel (as ++ [.welcome k])
      ((s.writeJSON k (.welcome sid)).setHandler k .reading) := by
  cases h with
  | greeting handler inbox outbox probe =>
    refine .greeted (by simp [setHandler]) inbox (fun ch active hm => ?_) ?_
    · simp only [setHandler, writeJSON, Function.update_self, List.mem_append, List.mem_singleton,
        reduceCtorEq, or_false] at hm
      obtain ⟨m, hm⟩ := outbox _ hm
      cases hm
    · exact probe.imp_right Or.inr
  | greeted handler | asked handler | lookUp handler | lookedUp _ _ handler
    | answered _ _ handler => simp [hhandler] at handler

/-- A step of the handler or of the probe. -/
theorem talk_own {a : ScanAction} (h : Talk p unix k channel as s)
    (hs : s = after (step p) (new unix) as) (ha : a.conn = some k)
    (hprobe : p.probe k = some channel) (hbound : Unbound (s.hub.client k)) :
    Talk p unix k channel (as ++ [a]) (s.step p a) ∧ (s.step p a).hub = s.hub := by
  have hsame := h.same a rfl rfl rfl rfl fun _ _ _ => id
  have hwait : ¬ s.hub.Waiting k := fun hw => hbound.joined hw.1
  cases a with
  | hub b => cases ha
  | welcome k' =>
    obtain rfl : k' = k := Option.some.inj ha
    simp only [step]
    split_ifs with hpc
    · exact ⟨talk_welcome h _ hpc.1, rfl⟩
    · exact ⟨hsame, rfl⟩
  | read k' =>
    obtain rfl : k' = k := Option.some.inj ha
    exact talk_read h hbound
  | joined k' =>
    obtain rfl : k' = k := Option.some.inj ha
    simp only [step, hbound.joined, and_false, if_false]
    exact ⟨hsame, trivial⟩
  | udpRegistered k' =>
    obtain rfl : k' = k := Option.some.inj ha
    simp only [step, hwait, if_false]
    split <;> exact ⟨hsame, rfl⟩
  | lookUp k' =>
    obtain rfl : k' = k := Option.some.inj ha
    exact talk_lookUp h hs
  | answer k' =>
    obtain rfl : k' = k := Option.some.inj ha
    exact talk_answer h hs
  | broadcast k' msg =>
    obtain rfl : k' = k := Option.some.inj ha
    exact ⟨talk_broadcast h msg, rfl⟩
  | clientSend k' msg =>
    obtain rfl : k' = k := Option.some.inj ha
    simp only [step, hprobe, reduceCtorEq, if_false]
    exact ⟨hsame, trivial⟩
  | probeRead k' =>
    obtain rfl : k' = k := Option.some.inj ha
    simp only [step, hprobe, reduceCtorEq, if_false]
    exact ⟨talk_probeRead h, s.probeRead_hub k'⟩
  | probeWrite k' =>
    obtain rfl : k' = k := Option.some.inj ha
    simp only [step, hprobe]
    split
    · next hp hask =>
      obtain rfl := Option.some.inj hp
      exact ⟨talk_probeWrite h hask, rfl⟩
    · exact ⟨hsame, rfl⟩
  | probeFail k' =>
    obtain rfl : k' = k := Option.some.inj ha
    simp only [step]
    split
    · exact ⟨hsame, rfl⟩
    · exact ⟨talk_probeFail h, rfl⟩

/-- The conversation of a probe along a run. -/
theorem talk_after (unix : ℕ) (hprobe : p.probe k = some channel) (as : List ScanAction) :
    Talk p unix k channel as (after (step p) (new unix) as) ∧
      Unbound ((after (step p) (new unix) as).hub.client k) := by
  induction as using List.reverseRecOn with
  | nil =>
    exact ⟨.greeting rfl rfl (by simp [new]) (Or.inl rfl), rfl, by simp [new, RelayHub.new],
      by simp [new, RelayHub.new]⟩
  | append_singleton as a ih =>
    obtain ⟨h, hbound⟩ := ih
    rw [after_snoc]
    by_cases ha : a.conn = some k
    · obtain ⟨htalk, hhub⟩ := talk_own h rfl ha hprobe hbound
      exact ⟨htalk, by rwa [hhub]⟩
    · exact talk_other h ha hbound

end talk

/-! ## The note of the last audio -/

section note

variable (p : Peers) {s : ScanRelay}

/-- The channel that the step brings audio on. -/
def heard (s : ScanRelay) : ScanAction → Option ChannelName
  | .hub (.routePacket pkt) => audioChannel p s.hub pkt
  | _ => none

theorem audioChannel_normal {hub : RelayHub} {pkt : AudioPacket} {ch : ChannelName}
    (h : audioChannel p hub pkt = some ch) : ch ≠ "" ∧ p.normalizeChannelName ch = ch := by
  unfold audioChannel at h
  split_ifs at h
  split at h
  · cases h
  · split_ifs at h with hch
    obtain rfl := Option.some.inj h
    exact ⟨fun hempty => hch (Or.inr hempty), p.normalizeChannelName_idem _⟩

theorem isRegister_channelActivity (ch : ChannelName) :
    IsRegister (step p) (fun s => s.channelActivity ch) fun s a =>
      if s.heard p a = some ch then some s.hub.clock else none := by
  intro s a
  cases a with
  | hub b =>
    cases b with
    | routePacket pkt =>
      simp only [step, hubStep, heard]
      rcases Option.eq_none_or_eq_some (audioChannel p s.hub pkt) with haudio | ⟨name, haudio⟩
      · simp [haudio]
      obtain ⟨hne, hnormal⟩ := audioChannel_normal p haudio
      simp only [haudio, markChannelActivity, hnormal, hne, if_false, Option.some.injEq,
        Function.update_apply, eq_comm (a := ch),
        s.hub.clock_step (a := .routePacket pkt) (by simp)]
      split_ifs <;> rfl
    | removeClient k =>
      simp only [step, hubStep, heard, reduceCtorEq, if_false, Option.none_or]
      split_ifs <;> rfl
    | _ => rfl
  | _ k =>
    simp only [heard, reduceCtorEq, if_false, Option.none_or, step, read, readFirst, readNext,
      lookUp, answer, probeRead]
    repeat' split
    all_goals rfl

theorem scan_clock_le (s : ScanRelay) (a : ScanAction) :
    s.hub.clock ≤ (s.step p a).hub.clock := by
  cases a with
  | hub b =>
    rcases s.hubStep_hub p b with hb | ⟨-, hb⟩
    · exact (congrArg RelayHub.clock hb).ge
    · exact (s.hub.clock_le_step b).trans (congrArg RelayHub.clock hb).ge
  | _ k =>
    simp only [step, read, readFirst, readNext, lookUp, answer, probeRead]
    repeat' split
    all_goals first
      | exact le_rfl
      | exact s.hub.clock_le_step _

/-- The note is in the window if and only if some audio of the channel is. -/
theorem noted_recent_iff (unix : ℕ) (as : List ScanAction) {ch : ChannelName} (now : ℤ) :
    (((after (step p) (new unix) as).noted ch).any fun t => decide (now - t ≤ scanActivityWindow))
        = true ↔
      ∃ pre pkt post, as = pre ++ .hub (.routePacket pkt) :: post ∧
        audioChannel p (after (step p) (new unix) pre).hub pkt = some ch ∧
          now - (after (step p) (new unix) pre).hub.clock ≤ scanActivityWindow := by
  by_cases hch : ch = ""
  · subst hch
    simp only [noted, if_true, Option.any_none, Bool.false_eq_true, false_iff]
    rintro ⟨pre, pkt, post, -, haudio, -⟩
    exact (audioChannel_normal p haudio).1 rfl
  have hmono : ∀ s a, (fun s : ScanRelay => s.hub.clock) s ≤ (s.step p a).hub.clock :=
    scan_clock_le p
  have hrecent := (isRegister_channelActivity p ch).recent_iff (s := new unix) hmono rfl as
    (now - scanActivityWindow)
  have hany : (((after (step p) (new unix) as).noted ch).any fun t =>
      decide (now - t ≤ scanActivityWindow)) = true ↔
        ∃ t ∈ (after (step p) (new unix) as).channelActivity ch, now - scanActivityWindow ≤ t := by
    simp only [noted, if_neg hch, Option.any_eq_true, decide_eq_true_eq, Option.mem_def,
      sub_le_comm]
  rw [hany, hrecent]
  constructor
  · rintro ⟨pre, a, post, rfl, hheard, ht⟩
    cases a with
    | hub b =>
      cases b with
      | routePacket pkt => exact ⟨pre, pkt, post, rfl, hheard, by omega⟩
      | _ => cases hheard
    | _ => cases hheard
  · rintro ⟨pre, pkt, post, rfl, hheard, ht⟩
    exact ⟨pre, _, post, rfl, hheard, by omega⟩

end note

/-- A probe that has given up gets no answer any more. -/
theorem network_step (p : Peers) {s : ScanRelay} {k : ConnID} (a : ScanAction)
    (h : s.probe k = .network) : (s.step p a).probe k = .network := by
  by_cases ha : a.conn = some k
  · cases a with
    | hub b => cases ha
    | _ k' =>
      obtain rfl : k' = k := Option.some.inj ha
      simp only [step, read, readFirst, readNext, lookUp, answer, probeRead]
      repeat' split
      all_goals simp_all [setHandler, setProbe, writeJSON, send]
  · rw [(step_other p ha).2.2.2, h]

/-! ## Scanning -/

section scan

variable {p : Peers} {k : ConnID} {channel : String}

/-- What `checkChannelActivity` returns is what the relay found while it was asked: some audio of
the channel had come in before the handler looked, and at most `scanActivityWindow` before it
answered. -/
theorem scan_reports_activity (unix : ℕ) (hprobe : p.probe k = some channel)
    {as : List ScanAction} {active : Bool}
    (hok : (after (step p) (new unix) as).probe k = .ok active) :
    ∃ pre mid post, as = pre ++ .lookUp k :: mid ++ .answer k :: post ∧
      (after (step p) (new unix) pre).probe k = .awaitAnswer ∧
      (active = true ↔ ∃ before pkt since, pre = before ++ .hub (.routePacket pkt) :: since ∧
        audioChannel p (after (step p) (new unix) before).hub pkt =
            some (p.normalizeChannelName (probeChannel channel)) ∧
          (after (step p) (new unix) (pre ++ .lookUp k :: mid)).hub.clock -
            (after (step p) (new unix) before).hub.clock ≤ scanActivityWindow) := by
  obtain ⟨htalk, -⟩ := talk_after unix hprobe as
  cases htalk with
  | answered b answer handler inbox outbox probe =>
    have hb : b = active := by
      simpa [Asking, hok, eq_comm] using probe
    subst hb
    obtain ⟨pre', post, rfl, lastAt, ⟨pre, mid, rfl, hasking, rfl⟩, hactive⟩ := answer
    refine ⟨pre, mid, post, rfl, hasking.resolve_right fun hnetwork => ?_, ?_⟩
    · have hlost := invariant (I := fun s : ScanRelay => s.probe k = .network)
        (fun s a => network_step p a) hnetwork (.lookUp k :: mid ++ .answer k :: post)
      rw [← after_append, ← List.append_assoc] at hlost
      rw [hlost] at hok
      cases hok
    · rw [hactive]
      exact noted_recent_iff p unix pre _
  | greeting _ _ _ probe | greeted _ _ _ probe | asked _ _ _ probe | lookUp _ _ _ probe
    | lookedUp _ _ _ _ _ probe => simp [hok, Asking] at probe

/-- Connection 2 asks for the channel that connection 1 joins; their names need no lower case. -/
def scanPeers : Peers where
  lower := id
  lower_lower _ := rfl
  isSpace_lower _ := rfl
  host _ := 7
  probe k := if k = 2 then some " main" else none

/-- Connection 1 joins and talks; three seconds later, connection 2 asks. -/
def talkThenAsk : List ScanAction :=
  [.hub (.readClock 1), .hub (.drawCount 1), .hub (.addClient 1), .welcome 1,
    .clientSend 1 { type := "join", channel := "main " }, .read 1, .hub (.addParticipant 1),
    .joined 1, .hub (.routePacket ⟨nextSessionID 0 1, 1, 200, [1], ⟨7, 40001⟩⟩),
    .hub (.readClock 2), .hub (.drawCount 2), .hub (.addClient 2), .welcome 2, .probeRead 2,
    .hub (.elapse 3000000000 3), .probeWrite 2, .read 2]

theorem scan_reports_activity_after_three_seconds :
    ∃ pre mid post, talkThenAsk ++ [.lookUp 2, .answer 2, .probeRead 2] =
        pre ++ .lookUp 2 :: mid ++ .answer 2 :: post ∧
      (after (step scanPeers) (new 0) pre).probe 2 = .awaitAnswer ∧
      (true = true ↔ ∃ before pkt since, pre = before ++ .hub (.routePacket pkt) :: since ∧
        audioChannel scanPeers (after (step scanPeers) (new 0) before).hub pkt =
            some (scanPeers.normalizeChannelName (probeChannel " main")) ∧
          (after (step scanPeers) (new 0) (pre ++ .lookUp 2 :: mid)).hub.clock -
            (after (step scanPeers) (new 0) before).hub.clock ≤ scanActivityWindow) :=
  scan_reports_activity 0 rfl (by decide)

/-- A probe is never bound to a channel: no mixed frame is sent to it. -/
theorem probe_hears_nothing (unix : ℕ) (hprobe : p.probe k = some channel) (as : List ScanAction)
    {ch : ChannelName} (hch : ch ≠ "") (exclude : SessionID) (payload : List UInt8) :
    (after (step p) (new unix) as).hub.broadcastMixed ch exclude payload k = none := by
  obtain ⟨-, hbound⟩ := talk_after unix hprobe as
  simp [RelayHub.broadcastMixed, hbound.channel, hch.symm]

theorem probe_hears_nothing_of_talker :
    (after (step scanPeers) (new 0) talkThenAsk).hub.broadcastMixed "main" 0 [1] 2 = none :=
  probe_hears_nothing 0 rfl talkThenAsk (by decide) 0 [1]

end scan

end ScanRelay

end OWalkie
