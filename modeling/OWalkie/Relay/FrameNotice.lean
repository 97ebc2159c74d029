import OWalkie.Relay.Outbound

/-!
# Frames and the message that announces them

`rx_broadcast_start` is addressed once, to those who are sent the first frame of a receive session,
and to a client that joins while the session runs.  `frame_announced`: a client that is sent a
later frame of the session has been told of it if it belongs to this audience (`InAudience`).
-/

namespace OWalkie

open Run

namespace WsChannel

/-- The mixer still has to write `rx_broadcast_start` to `c`. -/
def StartDue (s : WsChannel) (c : SessionID) : Prop :=
  ∃ call ∈ s.mixer, Signal.receiving.on call.msg = true ∧ ¬ (call.except ≠ 0 ∧ c = call.except) ∧
    call.willVisit c = true

instance (s : WsChannel) (c : SessionID) : Decidable (s.StartDue c) := by
  unfold StartDue
  infer_instance

/-- The client belongs to the receive session that is running. -/
structure Audience (c : SessionID) (s : WsChannel) : Prop where
  active : s.rx.rxOutSessionActive = true
  channelSet : (s.handler c).channelSet = true
  told : c ∈ s.clients → Signal.receiving.told (s.sent c) = true ∨ s.StartDue c

/-- While a session is running no message that ends one is under way. -/
structure NoticeInv (s : WsChannel) : Prop where
  calls : s.rx.rxOutSessionActive = true → ∀ call ∈ s.mixer, Signal.receiving.off call.msg = false
  fresh : ∀ c, (s.handler c).channelSet = false → s.syncing c = []
  syncs : ∀ c, ∀ msg ∈ s.syncing c, Signal.receiving.off msg = false

variable {p : MixerParams} {s : WsChannel} {c : SessionID}

theorem noticeInv_init : NoticeInv {} :=
  ⟨nofun, fun _ _ => rfl, nofun⟩

/-! ## The flag and the messages -/

theorem receiving_off_of_mem_note {rx : RxWsState} {now : ℤ} {msg : WsServerMessage}
    (h : msg ∈ (rx.noteOutboundMixedUDP p now).2) : Signal.receiving.off msg = false := by
  unfold RxWsState.noteOutboundMixedUDP at h
  split_ifs at h <;> simp only [List.mem_cons, List.not_mem_nil, or_false] at h
  · rcases h with rfl | rfl <;> rfl
  · rcases h with rfl | rfl <;> rfl
  · subst h
    rfl

theorem note_active (p : MixerParams) (now : ℤ) (rx : RxWsState) :
    (rx.noteOutboundMixedUDP p now).1.rxOutSessionActive = true := by
  unfold RxWsState.noteOutboundMixedUDP
  split_ifs <;> simp_all

/-- The messages that follow the first frame of a session. -/
theorem note_begins (p : MixerParams) (now : ℤ) {rx : RxWsState}
    (h : rx.rxOutSessionActive = false) :
    (rx.noteOutboundMixedUDP p now).2 = [.rxBroadcastStart p.busyMode] ∨
      ∃ ds, (rx.noteOutboundMixedUDP p now).2 = [.rxBroadcastStart p.busyMode, .pttLock ds] := by
  unfold RxWsState.noteOutboundMixedUDP
  rw [if_pos h]
  split_ifs
  · exact Or.inr ⟨_, rfl⟩
  · exact Or.inr ⟨_, rfl⟩
  · exact Or.inl rfl

theorem finish_inactive (p : MixerParams) (rx : RxWsState) :
    (rx.finishRxBroadcastIdle p).1.rxOutSessionActive = false := by
  unfold RxWsState.finishRxBroadcastIdle
  split_ifs <;> simp_all

theorem notifyBusy_active (p : MixerParams) (rx : RxWsState) :
    (rx.notifyBusyTimeoutElapsed p).1.rxOutSessionActive = rx.rxOutSessionActive := by
  unfold RxWsState.notifyBusyTimeoutElapsed
  split_ifs <;> rfl

theorem receiving_off_of_mem_sync {rx : RxWsState} {msg : WsServerMessage}
    (h : msg ∈ rx.syncWsSessionStateToClient p) : Signal.receiving.off msg = false := by
  unfold RxWsState.syncWsSessionStateToClient at h
  split_ifs at h <;> simp only [List.mem_append, List.mem_cons, List.not_mem_nil, or_false,
    false_or] at h
  · rcases h with rfl | rfl <;> rfl
  · subst h
    rfl
  · subst h
    rfl

/-- A message that does not end a session leaves a client that has been told of it as it is. -/
theorem told_write (c' : SessionID) {msg : WsServerMessage}
    (hoff : Signal.receiving.off msg = false)
    (h : Signal.receiving.told (s.sent c) = true) :
    Signal.receiving.told ((s.write c' msg).sent c) = true := by
  by_cases hc : c = c'
  · subst hc
    rw [write_sent_self, Signal.told_snoc, hoff, h]
    simp
  · rwa [write_sent_of_ne _ _ _ hc]

/-! ## One step -/

theorem NoticeInv.mixerVisit (h : NoticeInv s) : NoticeInv s.mixerVisit := by
  unfold WsChannel.mixerVisit
  split
  · next hm =>
    refine ⟨fun ha call hcall => h.calls ha call ?_, h.fresh, h.syncs⟩
    rw [hm]
    exact List.mem_cons_of_mem _ hcall
  · next except msg c cs rest hm =>
    have hcalls : s.rx.rxOutSessionActive = true →
        ∀ call ∈ (⟨except, msg, some cs⟩ :: rest : List BroadcastCall),
          Signal.receiving.off call.msg = false := by
      intro ha call hcall
      rcases List.mem_cons.1 hcall with rfl | hcall
      · exact h.calls ha ⟨except, msg, some (c :: cs)⟩ (by simp [hm])
      · exact h.calls ha call (by simp [hm, hcall])
    dsimp only
    split_ifs
    · exact ⟨hcalls, h.fresh, h.syncs⟩
    · exact ⟨hcalls, h.fresh, h.syncs⟩
  · exact h

theorem NoticeInv.mixerBegin (h : NoticeInv s) (order : List SessionID) :
    NoticeInv (s.mixerBegin order) := by
  unfold WsChannel.mixerBegin
  split
  · next except msg rest hm =>
    split_ifs
    · refine ⟨fun ha call hcall => ?_, h.fresh, h.syncs⟩
      rcases List.mem_cons.1 hcall with rfl | hcall
      · exact h.calls ha ⟨except, msg, none⟩ (by simp [hm])
      · exact h.calls ha call (by simp [hm, hcall])
    · exact h
  · exact h

/-- Steps of a handler that move it on. -/
theorem NoticeInv.setHandler {s' : WsChannel} {pc : HandlerPc} (h : NoticeInv s)
    (hrx : s'.rx = s.rx) (hmixer : s'.mixer = s.mixer) (hhandler : s'.handler = s.handler)
    (hpc : (s.handler c).channelSet = true → pc.channelSet = true)
    (hfresh : ∀ c', c' ≠ c ∨ pc.channelSet = false → s'.syncing c' = s.syncing c')
    (hsyncs : ∀ c', ∀ msg ∈ s'.syncing c', Signal.receiving.off msg = false) :
    NoticeInv (s'.setHandler c pc) := by
  refine ⟨?_, fun c' hc' => ?_, hsyncs⟩
  · simpa only [WsChannel.setHandler, hrx, hmixer] using h.calls
  · by_cases hcc : c' = c
    · subst hcc
      have hset : pc.channelSet = false := by
        simpa [WsChannel.setHandler] using hc'
      refine (hfresh c' (Or.inr hset)).trans (h.fresh c' ?_)
      by_contra hne
      rw [hpc (by simpa using hne)] at hset
      cases hset
    · refine (hfresh c' (Or.inl hcc)).trans (h.fresh c' ?_)
      simpa [WsChannel.setHandler, hcc, hhandler] using hc'

theorem NoticeInv.step (h : NoticeInv s) (a : WsAction) : NoticeInv (step p s a) := by
  cases a with
  | noteOutboundMixedUDP now exclude =>
    simp only [WsChannel.step]
    split_ifs
    · refine ⟨fun _ call hcall => ?_, h.fresh, h.syncs⟩
      obtain ⟨msg, hmsg, rfl⟩ := List.mem_map.1 hcall
      exact receiving_off_of_mem_note hmsg
    · exact h
  | probeRxBroadcastWsIdle now =>
    simp only [WsChannel.step]
    split_ifs
    · exact ⟨fun ha => absurd ha (by simp [finish_inactive]), h.fresh, h.syncs⟩
    · exact h
  | mixerBegin order => exact h.mixerBegin order
  | mixerVisit => exact h.mixerVisit
  | mixerRestart encoderOk =>
    exact ⟨fun _ _ hcall => absurd hcall List.not_mem_nil, h.fresh, h.syncs⟩
  | notifyBusyTimeoutElapsed =>
    simp only [WsChannel.step]
    split_ifs
    · exact ⟨fun ha => h.calls (notifyBusy_active p s.rx ▸ ha), h.fresh, h.syncs⟩
    · exact h
  | udpSnapshot order =>
    simp only [WsChannel.step, WsChannel.udpSnapshot]
    split <;> [split_ifs; skip] <;> exact ⟨h.calls, h.fresh, h.syncs⟩
  | udpSend =>
    simp only [WsChannel.step, WsChannel.udpSend]
    split <;> [skip; split_ifs; skip] <;> exact ⟨h.calls, h.fresh, h.syncs⟩
  | syncWrite c =>
    simp only [WsChannel.step, WsChannel.syncWrite]
    split
    · next msg rest hs =>
      refine ⟨h.calls, fun c' hc' => ?_, fun c' msg' hmsg' => ?_⟩
      · have hfresh := h.fresh c' hc'
        have hne : c' ≠ c := by
          rintro rfl
          rw [hs] at hfresh
          cases hfresh
        simpa [WsChannel.write, hne] using hfresh
      · by_cases hcc : c' = c
        · subst hcc
          refine h.syncs c' msg' ?_
          rw [hs]
          exact List.mem_cons_of_mem _ (by simpa [WsChannel.write] using hmsg')
        · exact h.syncs c' msg' (by simpa [WsChannel.write, hcc] using hmsg')
    · exact h
  | addClient c =>
    simp only [WsChannel.step]
    split_ifs with hc
    · exact h.setHandler rfl rfl rfl (by simp [hc, HandlerPc.channelSet]) (fun _ _ => rfl) h.syncs
    · exact h
  | syncRead c =>
    simp only [WsChannel.step]
    split_ifs with hc
    · refine h.setHandler rfl rfl rfl (fun _ => rfl) (fun c' hc' => ?_) fun c' msg hmsg => ?_
      · exact Function.update_of_ne (hc'.resolve_right (by simp [HandlerPc.channelSet])) _ _
      · by_cases hcc : c' = c
        · subst hcc
          exact receiving_off_of_mem_sync (by simpa using hmsg)
        · exact h.syncs c' msg (by simpa [hcc] using hmsg)
    · exact h
  | setChannel c | addParticipant c | removeClient c | removeParticipant c =>
    simp only [WsChannel.step]
    split_ifs
    · exact h.setHandler rfl rfl rfl (fun _ => rfl) (fun _ _ => rfl) h.syncs
    · exact h

/-- A step that writes nothing to `c` and keeps the calls. -/
theorem Audience.of_eq {s' : WsChannel} (h : Audience c s)
    (hactive : s'.rx.rxOutSessionActive = true) (hmixer : s'.mixer = s.mixer)
    (hsent : s'.sent c = s.sent c)
    (hset : (s.handler c).channelSet = true → (s'.handler c).channelSet = true)
    (hclients : c ∈ s'.clients → c ∈ s.clients) : Audience c s' := by
  refine ⟨hactive, hset h.channelSet, fun hc => ?_⟩
  simpa only [StartDue, hmixer, hsent] using h.told (hclients hc)

/-- A handler moves on, with one of the functions that keep the channel of a client. -/
theorem Audience.setHandler {s' : WsChannel} {c' : SessionID} {pc : HandlerPc} (h : Audience c s)
    (hrx : s'.rx = s.rx) (hmixer : s'.mixer = s.mixer) (hsent : s'.sent = s.sent)
    (hhandler : s'.handler = s.handler)
    (hpc : (s.handler c').channelSet = true → pc.channelSet = true)
    (hclients : (s.handler c).channelSet = true → c ∈ s'.clients → c ∈ s.clients) :
    Audience c (s'.setHandler c' pc) := by
  refine h.of_eq ((congrArg _ hrx).trans h.active) hmixer (congrFun hsent c) (fun hset => ?_)
    (hclients h.channelSet)
  by_cases hcc : c = c'
  · subst hcc
    simpa [WsChannel.setHandler] using hpc hset
  · simpa [WsChannel.setHandler, hcc, hhandler] using hset

theorem Audience.mixerBegin (h : Audience c s) (order : List SessionID) :
    Audience c (s.mixerBegin order) := by
  unfold WsChannel.mixerBegin
  split
  · next except msg rest hm =>
    split_ifs with hperm
    · refine ⟨h.active, h.channelSet, fun hc => (h.told hc).imp_right ?_⟩
      rintro ⟨call, hcall, hon, hex, hv⟩
      rcases List.mem_cons.1 (hm ▸ hcall) with rfl | hcall
      · refine ⟨⟨except, msg, some order⟩, List.mem_cons_self, hon, hex, ?_⟩
        simpa [BroadcastCall.willVisit] using hperm.mem_iff.2 hc
      · exact ⟨call, List.mem_cons_of_mem _ hcall, hon, hex, hv⟩
    · exact h
  · exact h

theorem Audience.mixerVisit (h : Audience c s) (hinv : NoticeInv s) : Audience c s.mixerVisit := by
  unfold WsChannel.mixerVisit
  split
  · next hm =>
    refine ⟨h.active, h.channelSet, fun hc => (h.told hc).imp_right ?_⟩
    rintro ⟨call, hcall, hon, hex, hv⟩
    rcases List.mem_cons.1 (hm ▸ hcall) with rfl | hcall
    · simp [BroadcastCall.willVisit] at hv
    · exact ⟨call, hcall, hon, hex, hv⟩
  · next except msg c' cs rest hm =>
    have hoff : Signal.receiving.off msg = false :=
      hinv.calls h.active ⟨except, msg, some (c' :: cs)⟩ (by simp [hm])
    dsimp only
    -- a start that is due is written by this visit, or is due after it
    have hdue : s.StartDue c → (c = c' ∧ Signal.receiving.on msg = true ∧ s.Addressed except c) ∨
        ∃ call ∈ (⟨except, msg, some cs⟩ :: rest : List BroadcastCall),
          Signal.receiving.on call.msg = true ∧ ¬ (call.except ≠ 0 ∧ c = call.except) ∧
            call.willVisit c = true := by
      rintro ⟨call, hcall, hon, hex, hv⟩
      rcases List.mem_cons.1 (hm ▸ hcall) with rfl | hcall
      · by_cases hcc : c = c'
        · exact Or.inl ⟨hcc, hon, h.channelSet, hex⟩
        · refine Or.inr ⟨_, List.mem_cons_self, hon, hex, ?_⟩
          simpa [BroadcastCall.willVisit, hcc] using hv
      · exact Or.inr ⟨call, List.mem_cons_of_mem _ hcall, hon, hex, hv⟩
    split_ifs with haddressed
    · refine ⟨h.active, h.channelSet, fun hc => ?_⟩
      rcases h.told hc with htold | hstart
      · exact Or.inl (told_write c' hoff htold)
      · rcases hdue hstart with ⟨rfl, hon, -⟩ | hlater
        · left
          rw [write_sent_self, Signal.told_snoc, hon]
          rfl
        · exact Or.inr hlater
    · refine ⟨h.active, h.channelSet, fun hc => (h.told hc).imp_right fun hstart => ?_⟩
      rcases hdue hstart with ⟨rfl, -, haddr⟩ | hlater
      · exact absurd haddr haddressed
      · exact hlater
  · exact h

/-- A client of the audience stays in it while the session goes on, unless the mixer is restarted
before it has written `rx_broadcast_start` to the client. -/
theorem Audience.step (h : Audience c s) (hinv : NoticeInv s) {a : WsAction}
    (hactive : (step p s a).rx.rxOutSessionActive = true)
    (hrestart : ∀ encoderOk, a = .mixerRestart encoderOk → ¬ s.StartDue c) :
    Audience c (step p s a) := by
  cases a with
  | noteOutboundMixedUDP now exclude =>
    simp only [WsChannel.step] at hactive ⊢
    split_ifs with hm
    · refine ⟨note_active p now s.rx, h.channelSet, fun hc => Or.inl ?_⟩
      refine (h.told hc).resolve_right ?_
      rintro ⟨call, hcall, -⟩
      simp [hm] at hcall
    · exact h
  | probeRxBroadcastWsIdle now =>
    simp only [WsChannel.step] at hactive ⊢
    split_ifs at hactive ⊢
    · simp [finish_inactive] at hactive
    · exact h
  | mixerBegin order => exact h.mixerBegin order
  | mixerVisit => exact h.mixerVisit hinv
  | mixerRestart encoderOk =>
    exact ⟨hactive, h.channelSet, fun hc =>
      Or.inl ((h.told hc).resolve_right (hrestart encoderOk rfl))⟩
  | notifyBusyTimeoutElapsed =>
    simp only [WsChannel.step] at hactive ⊢
    split_ifs at hactive ⊢
    · exact h.of_eq hactive rfl rfl id id
    · exact h
  | udpSnapshot order =>
    simp only [WsChannel.step, WsChannel.udpSnapshot]
    split <;> [split_ifs; skip] <;> exact ⟨h.active, h.channelSet, h.told⟩
  | udpSend =>
    simp only [WsChannel.step, WsChannel.udpSend]
    split
    · exact h.of_eq h.active rfl rfl id id
    · split_ifs
      · exact ⟨h.active, h.channelSet, fun hc => (h.told hc).imp_left (told_write _ rfl)⟩
      · exact h.of_eq h.active rfl rfl id id
    · exact h
  | syncWrite c' =>
    simp only [WsChannel.step, WsChannel.syncWrite]
    split
    · next msg rest hs =>
      have hoff := hinv.syncs c' msg (by simp [hs])
      exact ⟨h.active, h.channelSet, fun hc => (h.told hc).imp_left (told_write c' hoff)⟩
    · exact h
  | addClient c' =>
    simp only [WsChannel.step]
    split_ifs with hc'
    · refine h.setHandler rfl rfl rfl rfl (by simp [hc', HandlerPc.channelSet]) fun hset hc => ?_
      refine (List.mem_cons.1 hc).resolve_left ?_
      rintro rfl
      simp [hc', HandlerPc.channelSet] at hset
    · exact h
  | removeClient c' =>
    simp only [WsChannel.step]
    split_ifs
    · exact h.setHandler rfl rfl rfl rfl (fun _ => rfl) fun _ hc => List.mem_of_mem_erase hc
    · exact h
  | setChannel c' | addParticipant c' | syncRead c' | removeParticipant c' =>
    simp only [WsChannel.step]
    split_ifs
    · exact h.setHandler rfl rfl rfl rfl (fun _ => rfl) fun _ hc => hc
    · exact h

end WsChannel

namespace Outbound

variable {D E M : Type} [OpusDecoder D] [OpusEncoder E] [AudioModule M] {p : MixerParams}
  {mods : ModuleSet M} {s : Outbound D E M} {c : SessionID}

/-! ## Announced frames -/

/-- The messages addressed to the client, those that the mixer has yet to write included. -/
def addressed (s : Outbound D E M) (c : SessionID) : List WsServerMessage :=
  s.ws.sent c ++ (s.ws.mixer.filter fun call => decide (s.ws.Addressed call.except c)).map (·.msg)

/-- Whoever is sent the frame was told last, before it or together with it, that a session runs. -/
def Announced (p : MixerParams) (mods : ModuleSet M) (s : Outbound D E M) (t : TickInput)
    (f : MixedFrame) : Prop :=
  ∀ c, s.Receives f.exclude c →
    Signal.receiving.told ((s.tick p mods t).addressed c) = true

/-- The client enters the audience: the frame that begins a session is for it too, or its join
handler tells it of the session that runs. -/
def Enters (p : MixerParams) (mods : ModuleSet M) (c : SessionID) (s : Outbound D E M) :
    OutboundAction E → Prop
  | .loop (.tick t) => s.ws.rx.rxOutSessionActive = false ∧ s.ws.Present c ∧
      ∃ f, s.Emits p mods t f ∧ ¬ (f.exclude ≠ 0 ∧ c = f.exclude)
  | .ws (.syncWrite c') => c' = c ∧ s.ws.rx.rxOutSessionActive = true ∧
      ∃ msg ∈ (s.ws.syncing c).head?, Signal.receiving.on msg = true
  | _ => False

/-- The client leaves the audience: the session ends, or the mixer is restarted before it has
written `rx_broadcast_start` to the client. -/
def Leaves (p : MixerParams) (mods : ModuleSet M) (c : SessionID) (s : Outbound D E M)
    (a : OutboundAction E) : Prop :=
  (step p mods s a).ws.rx.rxOutSessionActive = false ∨ s.ws.StartDue c ∧ a.isRestart = true

instance (p : MixerParams) (mods : ModuleSet M) (c : SessionID) (s : Outbound D E M)
    (a : OutboundAction E) : Decidable (Leaves p mods c s a) :=
  inferInstanceAs (Decidable (_ ∨ _ ∧ _))

/-- A step of the composed channel is a step of the control plane, or leaves it alone. -/
theorem step_ws (p : MixerParams) (mods : ModuleSet M) (s : Outbound D E M) (a : OutboundAction E) :
    (step p mods s a).ws = s.ws ∨ ∃ w, (step p mods s a).ws = s.ws.step p w ∧
      ∀ encoderOk, w = .mixerRestart encoderOk → a.isRestart = true := by
  cases a with
  | loop x =>
    cases x with
    | tick t =>
      simp only [step, loopStep]
      split_ifs
      · unfold tick
        cases (s.loop.tick p mods t).2.frame with
        | none => exact Or.inl rfl
        | some f => exact Or.inr ⟨.noteOutboundMixedUDP s.loop.clock f.exclude, rfl, nofun⟩
      · exact Or.inl rfl
    | restart encoder => exact Or.inr ⟨.mixerRestart encoder.isSome, rfl, fun _ _ => rfl⟩
    | _ =>
      left
      simp only [step, loopStep]
      split_ifs <;> rfl
  | probe =>
    simp only [step, probe]
    split_ifs
    · exact Or.inr ⟨.probeRxBroadcastWsIdle s.loop.clock, rfl, nofun⟩
    · exact Or.inl rfl
  | ws a =>
    simp only [step]
    split_ifs with hloop
    · exact Or.inl rfl
    · refine Or.inr ⟨a, rfl, ?_⟩
      rintro encoderOk rfl
      exact absurd rfl hloop
  | setUDPAddr c => exact Or.inl rfl
  | setRepeaterMode c enabled => exact Or.inl rfl

theorem noticeInv_step (s : Outbound D E M) (a : OutboundAction E) (h : s.ws.NoticeInv) :
    (step p mods s a).ws.NoticeInv := by
  rcases step_ws p mods s a with hws | ⟨w, hws, -⟩
  · rwa [hws]
  · rw [hws]
    exact h.step w

/-- A client that enters the audience belongs to it. -/
theorem audience_of_enters {a : OutboundAction E} (hinv : s.ws.NoticeInv)
    (h : Enters p mods c s a) : (step p mods s a).ws.Audience c := by
  cases a with
  | loop x =>
    cases x with
    | tick t =>
      obtain ⟨hactive, hpresent, f, hf, hex⟩ := h
      have hstep : step p mods s (.loop (.tick t)) = s.tick p mods t := by
        simp only [step, loopStep]
        rw [if_pos ⟨hf.1, hf.2.1⟩]
      rw [hstep, tick_ws hf]
      refine ⟨WsChannel.note_active p _ s.ws.rx, hpresent.2, fun _ => Or.inr ?_⟩
      refine ⟨⟨f.exclude, .rxBroadcastStart p.busyMode, none⟩, ?_, rfl, hex, rfl⟩
      refine List.mem_map_of_mem ?_
      rcases WsChannel.note_begins p s.loop.clock hactive with hmsgs | ⟨ds, hmsgs⟩ <;> simp [hmsgs]
    | _ => cases h
  | ws a =>
    cases a with
    | syncWrite c' =>
      obtain ⟨rfl, hactive, msg, hmsg, hon⟩ := h
      have hset : (s.ws.handler c').channelSet = true := by
        by_contra hne
        rw [hinv.fresh c' (by simpa using hne)] at hmsg
        cases hmsg
      obtain ⟨rest, hs⟩ : ∃ rest, s.ws.syncing c' = msg :: rest := by
        cases hsync : s.ws.syncing c' with
        | nil => simp [hsync] at hmsg
        | cons m rest => exact ⟨rest, by simp_all⟩
      have hstep : (step p mods s (.ws (.syncWrite c'))).ws =
          { s.ws with syncing := Function.update s.ws.syncing c' rest }.write c' msg := by
        simp [step, WsAction.ofLoop, WsChannel.step, WsChannel.syncWrite, hs]
      rw [hstep]
      refine ⟨hactive, hset, fun _ => Or.inl ?_⟩
      rw [WsChannel.write_sent_self, Signal.told_snoc, hon]
      rfl
    | _ => cases h
  | _ => cases h

theorem audience_step {a : OutboundAction E} (hinv : s.ws.NoticeInv) (h : s.ws.Audience c)
    (hleaves : ¬ Leaves p mods c s a) : (step p mods s a).ws.Audience c := by
  rw [Leaves, not_or, Bool.not_eq_false] at hleaves
  obtain ⟨hactive, hrestart⟩ := hleaves
  rcases step_ws p mods s a with hws | ⟨w, hws, hw⟩
  · rwa [hws]
  · rw [hws] at hactive ⊢
    exact h.step hinv hactive fun encoderOk hok hdue => hrestart ⟨hdue, hw encoderOk hok⟩

theorem audience_of_since {encoder : E} {as : List (OutboundAction E)}
    (h : Since (step p mods) (Enters p mods c) (Leaves p mods c)
      (new mods encoder : Outbound D E M) as) :
    (run p mods encoder as : Outbound D E M).ws.Audience c :=
  h.holds (I := fun s => s.ws.NoticeInv) (J := fun s => s.ws.Audience c) noticeInv_step
    (fun _ _ hinv hE => audience_of_enters hinv hE)
    (fun _ _ hinv hJ hR => audience_step hinv hJ hR) WsChannel.noticeInv_init

theorem told_note {rx : RxWsState} (hactive : rx.rxOutSessionActive = false) (now : ℤ)
    (msgs : List WsServerMessage) :
    Signal.receiving.told (msgs ++ (rx.noteOutboundMixedUDP p now).2) = true := by
  rcases WsChannel.note_begins p now hactive with hmsgs | ⟨ds, hmsgs⟩
  · rw [hmsgs, Signal.told_snoc]
    rfl
  · rw [hmsgs, List.append_cons, Signal.told_snoc, Signal.told_snoc]
    rfl

/-- A frame of any run is announced to everybody who is sent it, if it begins a receive session or
everybody who is sent it has entered the audience of the session and not left it since. -/
theorem frame_announced {encoder : E} {as : List (OutboundAction E)} {t : TickInput}
    {f : MixedFrame} (hf : (run p mods encoder as : Outbound D E M).Emits p mods t f)
    (haudience : (run p mods encoder as : Outbound D E M).ws.rx.rxOutSessionActive = true →
      ∀ c, (run p mods encoder as : Outbound D E M).Receives f.exclude c →
        Since (step p mods) (Enters p mods c) (Leaves p mods c)
          (new mods encoder : Outbound D E M) as) :
    (run p mods encoder as : Outbound D E M).Announced p mods t f := by
  intro c hc
  have hmember := fun hactive => audience_of_since (haudience hactive c hc)
  generalize (run p mods encoder as : Outbound D E M) = s at hf hc hmember ⊢
  obtain ⟨hpresent, hex, -⟩ := hc
  unfold addressed
  rw [tick_ws hf]
  by_cases hactive : s.ws.rx.rxOutSessionActive = true
  · have htold : Signal.receiving.told (s.ws.sent c) = true := by
      refine ((hmember hactive).told hpresent.1).resolve_right ?_
      rintro ⟨call, hcall, -⟩
      simp [hf.1.1] at hcall
    simpa [(RxWsState.noteOutboundMixedUDP_eq_nil_iff p s.loop.clock s.ws.rx).2 hactive,
      WsChannel.callsFor] using htold
  · have haddressed : s.ws.Addressed f.exclude c := ⟨hpresent.2, hex⟩
    have hcalls : ((WsChannel.callsFor f.exclude (s.ws.rx.noteOutboundMixedUDP p
        s.loop.clock).2).filter fun call => decide (s.ws.Addressed call.except c)).map (·.msg) =
          (s.ws.rx.noteOutboundMixedUDP p s.loop.clock).2 := by
      simp [WsChannel.callsFor, List.filter_map, Function.comp_def, haddressed]
    exact (congrArg (fun msgs => Signal.receiving.told (s.ws.sent c ++ msgs)) hcalls).trans
      (told_note (by simpa using hactive) _ _)

/-! ## A second speaker -/

/-- A channel without modules. -/
abbrev plainChannel : MixerParams := ServerConfig.params { jitterMinPkts := 1 } none

/-- A run of that channel with a silent codec. -/
abbrev plainRun (as : List (OutboundAction SilentCodec)) : Outbound SilentCodec SilentCodec Empty :=
  run plainChannel noModules ⟨⟩ as

/-- Clients 1 and 2 join and client 1 sends a packet. -/
def untilFirstFrame : List (OutboundAction SilentCodec) :=
  (WsChannel.joins 1 ++ WsChannel.joins 2).map .ws ++
    [.setUDPAddr 1, .setUDPAddr 2, packetOf 1 1 200, .loop (.elapse (20 * 1000000))]

/-- The messages of the first frame go out to everybody but client 1. -/
def afterFirstFrame : List (OutboundAction SilentCodec) :=
  (WsChannel.broadcasts [2, 1]).map .ws ++ [.probe]

/-- Client 1 goes on alone, and client 2 is in the audience. -/
theorem frame_announced_second :
    (plainRun (untilFirstFrame ++ .loop (.tick { order := [1] }) :: (afterFirstFrame ++
      [packetOf 1 2 200, .loop (.elapse (20 * 1000000))]))).Announced plainChannel noModules
        { order := [1] } ⟨1, [1], 2, 200⟩ := by
  refine frame_announced (by decide +kernel) fun _ c hc => ?_
  obtain rfl : c = 2 := by
    obtain ⟨⟨hclients, -⟩, hex, -⟩ := hc
    have hboth : c ∈ [2, 1] := hclients
    simp_all
  exact ⟨untilFirstFrame, _, _, rfl,
    ⟨by decide +kernel, by decide +kernel, ⟨1, [1], 1, 200⟩, by decide +kernel, by decide⟩,
    by decide +kernel⟩

/-- Client 2 joins in: the frame goes to client 1 too, which has not been told of any session. -/
theorem second_speaker_unannounced :
    let s := plainRun (untilFirstFrame ++ .loop (.tick { order := [1] }) :: (afterFirstFrame ++
      [packetOf 2 1 200, .loop (.elapse (20 * 1000000))]))
    s.Emits plainChannel noModules { order := [1, 2] } ⟨0, [1], 2, 200⟩ ∧ s.Receives 0 1 ∧
      s.ws.sent 1 = [] ∧
      ¬ s.Announced plainChannel noModules { order := [1, 2] } ⟨0, [1], 2, 200⟩ := by
  have hframe : ∀ s : Outbound SilentCodec SilentCodec Empty, s.Receives 0 1 →
      Signal.receiving.told ((s.tick plainChannel noModules { order := [1, 2] }).addressed 1) =
        false → ¬ s.Announced plainChannel noModules { order := [1, 2] } ⟨0, [1], 2, 200⟩ := by
    intro s hreceives htold hannounced
    rw [hannounced 1 hreceives] at htold
    cases htold
  exact ⟨by decide +kernel, by decide +kernel, by decide +kernel,
    hframe _ (by decide +kernel) (by decide +kernel)⟩

end Outbound

end OWalkie
