import OWalkie.Relay.WsSession

/-!
# Agreement between the server's flags and its clients

A client switches the PTT lock or the receive state only when it is told to.  The flags and the
messages are not changed together, so agreement needs an order between them: `OrderKept` names the
steps that can break it, and `ToldInv` is what the other steps keep.  `lock_agreement` is the result
for the PTT lock without a restart of the mixer; `restart_agreement` covers restarts and both flags.
-/

namespace OWalkie

open Run

/-- The call will still look at the client `c`. -/
def BroadcastCall.willVisit (call : BroadcastCall) (c : SessionID) : Bool :=
  match call.visit with
  | none => true
  | some cs => cs.contains c

namespace WsChannel

/-- A broadcast of the mixer still has to switch the signal off for `c`. -/
def MixerOffDue (s : WsChannel) (sig : Signal) (c : SessionID) : Prop :=
  ∃ call ∈ s.mixer, sig.off call.msg = true ∧ call.except = 0 ∧ call.willVisit c = true

/-- The UDP reader still has to write `ptt_unlock` to `c`. -/
def UdpOffDue (s : WsChannel) (sig : Signal) (c : SessionID) : Prop :=
  sig = .lock ∧ match s.udp with
    | .idle => False
    | .snapshot notifyUnlock => notifyUnlock = true
    | .unlocking todo => c ∈ todo

/-- `c` may be told that the signal is on: the flag still stands, or `c` will be told otherwise. -/
def MayTell (s : WsChannel) (sig : Signal) (c : SessionID) : Prop :=
  sig.flag s.rx = true ∨ s.MixerOffDue sig c ∨ s.UdpOffDue sig c

instance (s : WsChannel) (sig : Signal) (c : SessionID) : Decidable (s.MixerOffDue sig c) := by
  unfold MixerOffDue
  infer_instance

instance (s : WsChannel) (sig : Signal) (c : SessionID) : Decidable (s.UdpOffDue sig c) := by
  unfold UdpOffDue
  cases s.udp <;> infer_instance

instance (s : WsChannel) (sig : Signal) (c : SessionID) : Decidable (s.MayTell sig c) := by
  unfold MayTell
  infer_instance

/-- The message that the mixer's running call writes next, and to whom. -/
def nextBroadcast (s : WsChannel) : Option (SessionID × WsServerMessage) :=
  match s.mixer with
  | ⟨except, msg, some (c :: _)⟩ :: _ => if s.Addressed except c then some (c, msg) else none
  | _ => none

/-- The message that the handler of `c` writes next. -/
def nextSync (s : WsChannel) (c : SessionID) : Option (SessionID × WsServerMessage) :=
  (s.syncing c).head?.map fun msg => (c, msg)

/-- A message that switches the signal on is written only to a client that may be told so. -/
def WriteOrdered (s : WsChannel) (sig : Signal) (write : Option (SessionID × WsServerMessage)) :
    Prop :=
  ∀ w ∈ write, sig.on w.2 = true → s.MayTell sig w.1

/-- The step does not break the order of the messages about `sig`:
* no message that switches it on is written to a client after the flag was cleared and the message
  that switches it off is out;
* `notifyBusyTimeoutElapsed` does not copy the participants while a locked client of the channel is
  not yet one of them (unless the lock is taken again, or the mixer unlocks that client);
* the mixer is not restarted while a client of the channel is told that the signal is on, unless the
  restart leaves the flag set or the UDP reader still unlocks that client. -/
def OrderKept (sig : Signal) (s : WsChannel) : WsAction → Prop
  | .mixerVisit => s.WriteOrdered sig s.nextBroadcast
  | .syncWrite c => s.WriteOrdered sig (s.nextSync c)
  | .udpSnapshot _ => sig = .lock → s.udp = .snapshot true → ∀ c ∈ s.clients, s.Present c →
      sig.told (s.sent c) = true →
        c ∈ s.participants ∨ sig.flag s.rx = true ∨ s.MixerOffDue sig c
  | .mixerRestart encoderOk => ∀ c ∈ s.clients, s.Present c → sig.told (s.sent c) = true →
      encoderOk = false ∧ sig.flag s.rx = true ∨ s.UdpOffDue sig c
  | _ => True

instance (s : WsChannel) (sig : Signal) (write : Option (SessionID × WsServerMessage)) :
    Decidable (s.WriteOrdered sig write) := by
  unfold WriteOrdered
  infer_instance

instance (sig : Signal) (s : WsChannel) (a : WsAction) : Decidable (OrderKept sig s a) := by
  cases a <;> unfold OrderKept <;> infer_instance

/-! ## Writing -/

section write

variable (s : WsChannel) (c : SessionID) (msg : WsServerMessage)

@[simp] theorem write_rx : (s.write c msg).rx = s.rx := rfl

@[simp] theorem write_clients : (s.write c msg).clients = s.clients := rfl

@[simp] theorem write_participants : (s.write c msg).participants = s.participants := rfl

@[simp] theorem write_handler : (s.write c msg).handler = s.handler := rfl

@[simp] theorem write_syncing : (s.write c msg).syncing = s.syncing := rfl

@[simp] theorem write_mixer : (s.write c msg).mixer = s.mixer := rfl

@[simp] theorem write_udp : (s.write c msg).udp = s.udp := rfl

@[simp] theorem write_sent_self : (s.write c msg).sent c = s.sent c ++ [msg] :=
  Function.update_self _ _ _

theorem write_sent_of_ne {c' : SessionID} (h : c' ≠ c) : (s.write c msg).sent c' = s.sent c' :=
  Function.update_of_ne h _ _

end write

/-! ## The invariant -/

/-- What holds of `sig` after every run that keeps the order. -/
structure ToldInv (sig : Signal) (s : WsChannel) : Prop where
  fresh : ∀ c, (s.handler c).channelSet = false → sig.told (s.sent c) = false ∧ s.syncing c = []
  due : ∀ c, s.Present c → sig.told (s.sent c) = true → s.MayTell sig c

variable {sig : Signal} {p : MixerParams} {s : WsChannel}

theorem toldInv_init (sig : Signal) : ToldInv sig {} :=
  ⟨fun _ _ => ⟨rfl, rfl⟩, fun _ h => by simp [Present] at h⟩

theorem flag_noteOutboundMixedUDP {rx : RxWsState} (now : ℤ) (h : sig.flag rx = true) :
    sig.flag (rx.noteOutboundMixedUDP p now).1 = true := by
  unfold RxWsState.noteOutboundMixedUDP
  cases sig <;> simp only [Signal.flag] at h ⊢ <;> split_ifs <;> simp_all

theorem ToldInv.noteOutboundMixedUDP (h : ToldInv sig s) (now : ℤ) (exclude : SessionID) :
    ToldInv sig (step p s (.noteOutboundMixedUDP now exclude)) := by
  simp only [step]
  split_ifs with hm
  · refine ⟨h.fresh, fun c hc hl => ?_⟩
    rcases h.due c hc hl with hf | ⟨call, hcall, -⟩ | hu
    · exact Or.inl (flag_noteOutboundMixedUDP now hf)
    · simp [hm] at hcall
    · exact Or.inr (Or.inr hu)
  · exact h

/-- The idle path leaves a flag alone, or queues the broadcast that switches the signal off. -/
theorem finishRxBroadcastIdle_cases {rx : RxWsState} (h : sig.flag rx = true) :
    sig.flag (rx.finishRxBroadcastIdle p).1 = true ∨
      ∃ msg ∈ (rx.finishRxBroadcastIdle p).2, sig.off msg = true := by
  unfold RxWsState.finishRxBroadcastIdle
  cases sig <;> simp only [Signal.flag] at h ⊢ <;> split_ifs <;> simp_all [Signal.off]

theorem ToldInv.probeRxBroadcastWsIdle (h : ToldInv sig s) (now : ℤ) :
    ToldInv sig (step p s (.probeRxBroadcastWsIdle now)) := by
  simp only [step]
  split_ifs with hm
  · obtain ⟨hm, -⟩ := hm
    refine ⟨h.fresh, fun c hc hl => ?_⟩
    rcases h.due c hc hl with hf | ⟨call, hcall, -⟩ | hu
    · rcases finishRxBroadcastIdle_cases (p := p) hf with hf' | ⟨msg, hmsg, hoff⟩
      · exact Or.inl hf'
      · exact Or.inr (Or.inl ⟨⟨0, msg, none⟩, List.mem_map_of_mem hmsg, hoff, rfl, rfl⟩)
    · simp [hm] at hcall
    · exact Or.inr (Or.inr hu)
  · exact h

theorem ToldInv.mixerBegin (h : ToldInv sig s) (order : List SessionID) :
    ToldInv sig (s.mixerBegin order) := by
  unfold WsChannel.mixerBegin
  split
  · next except msg rest hm =>
    split_ifs with hp
    · refine ⟨h.fresh, fun c hc hl => ?_⟩
      rcases h.due c hc hl with hf | ⟨call, hcall, hoff, hex, hv⟩ | hu
      · exact Or.inl hf
      · rw [hm] at hcall
        rcases List.mem_cons.1 hcall with rfl | hcall
        · refine Or.inr (Or.inl ⟨⟨except, msg, some order⟩, List.mem_cons_self, hoff, hex, ?_⟩)
          simpa [BroadcastCall.willVisit] using hp.symm.subset hc.1
        · exact Or.inr (Or.inl ⟨call, List.mem_cons_of_mem _ hcall, hoff, hex, hv⟩)
      · exact Or.inr (Or.inr hu)
    · exact h
  · exact h

/-- A client that is present is not passed over by a broadcast without exclusion. -/
theorem addressed_of_present {c : SessionID} (hc : s.Present c) : s.Addressed 0 c :=
  ⟨hc.2, by simp⟩

/-- Writing `msg` to a client whose channel is set: the client is told what the message says, the
others keep what they know. -/
theorem ToldInv.write {s' : WsChannel} {c : SessionID} {msg : WsServerMessage} (h : ToldInv sig s)
    (hsent : s'.sent = s.sent) (hhandler : s'.handler = s.handler)
    (hpresent : ∀ c', s'.Present c' → s.Present c')
    (hsync : ∀ c', (s.handler c').channelSet = false → s'.syncing c' = s.syncing c')
    (hset : sig.off msg = false → (s.handler c).channelSet = true)
    (hon : sig.on msg = true → s'.MayTell sig c)
    (hkeep : ∀ c', c' ≠ c ∨ sig.off msg = false → s'.Present c' → s.MayTell sig c' →
      s'.MayTell sig c') : ToldInv sig (s'.write c msg) := by
  refine ⟨fun c' hc' => ?_, fun c' hc' hl => ?_⟩
  · rw [write_handler, hhandler] at hc'
    obtain ⟨h1, h2⟩ := h.fresh c' hc'
    refine ⟨?_, (hsync c' hc').trans h2⟩
    by_cases hcc : c' = c
    · subst hcc
      have hoff : sig.off msg = true := by
        by_contra hne
        rw [hset (by simpa using hne)] at hc'
        cases hc'
      rw [write_sent_self, Signal.told_snoc, if_pos hoff, if_neg]
      intro hon'
      rw [Signal.off_of_on hon'] at hoff
      cases hoff
    · rwa [write_sent_of_ne _ _ _ hcc, hsent]
  · have hpres : s'.Present c' := hc'
    by_cases hcc : c' = c
    · subst hcc
      rw [write_sent_self, Signal.told_snoc, hsent] at hl
      by_cases hmon : sig.on msg = true
      · exact hon hmon
      · rw [if_neg hmon] at hl
        by_cases hoff : sig.off msg = true
        · simp [hoff] at hl
        · rw [if_neg hoff] at hl
          exact hkeep c' (Or.inr (by simpa using hoff)) hpres (h.due c' (hpresent c' hpres) hl)
    · rw [write_sent_of_ne _ _ _ hcc, hsent] at hl
      exact hkeep c' (Or.inl hcc) hpres (h.due c' (hpresent c' hpres) hl)

theorem ToldInv.mixerVisit (h : ToldInv sig s) (ho : OrderKept sig s .mixerVisit) :
    ToldInv sig s.mixerVisit := by
  unfold WsChannel.mixerVisit
  split
  · -- the call returns
    next except msg rest hm =>
    refine ⟨h.fresh, fun c hc hl => ?_⟩
    rcases h.due c hc hl with hf | ⟨call, hcall, hoff, hex, hv⟩ | hu
    · exact Or.inl hf
    · rw [hm] at hcall
      rcases List.mem_cons.1 hcall with rfl | hcall
      · simp [BroadcastCall.willVisit] at hv
      · exact Or.inr (Or.inl ⟨call, hcall, hoff, hex, hv⟩)
    · exact Or.inr (Or.inr hu)
  · -- the call looks at `c`
    next except msg c cs rest hm =>
    dsimp only
    have hkeep : ∀ c', c' ≠ c ∨ sig.off msg = false ∨ except ≠ 0 → s.MayTell sig c' →
        ({ s with mixer := ⟨except, msg, some cs⟩ :: rest } : WsChannel).MayTell sig c' := by
      rintro c' hne (hf | ⟨call, hcall, hoff, hex, hv⟩ | hu)
      · exact Or.inl hf
      · rw [hm] at hcall
        rcases List.mem_cons.1 hcall with rfl | hcall
        · refine Or.inr (Or.inl ⟨_, List.mem_cons_self, hoff, hex, ?_⟩)
          have hcc : c' ≠ c := by
            rcases hne with hne | hne | hne
            · exact hne
            · exact absurd hoff (by simp [hne])
            · exact absurd hex hne
          simpa [BroadcastCall.willVisit, hcc] using hv
        · exact Or.inr (Or.inl ⟨call, List.mem_cons_of_mem _ hcall, hoff, hex, hv⟩)
      · exact Or.inr (Or.inr hu)
    split_ifs with ha
    · refine h.write rfl rfl (fun c' hc' => hc') (fun _ _ => rfl) (fun _ => ha.1) ?_ ?_
      · intro hon
        refine hkeep c (Or.inr (Or.inl (Signal.off_of_on hon))) (ho (c, msg) ?_ hon)
        simp [nextBroadcast, hm, ha]
      · intro c' hne _ hmay
        exact hkeep c' (hne.imp_right Or.inl) hmay
    · refine ⟨h.fresh, fun c' hc' hl => hkeep c' ?_ (h.due c' hc' hl)⟩
      by_cases hcc : c' = c
      · subst hcc
        refine Or.inr (Or.inr ?_)
        rintro rfl
        exact ha (addressed_of_present hc')
      · exact Or.inl hcc
  · exact h

theorem ToldInv.notifyBusyTimeoutElapsed (h : ToldInv sig s) :
    ToldInv sig (step p s .notifyBusyTimeoutElapsed) := by
  simp only [step]
  split_ifs with hu
  · refine ⟨h.fresh, fun c hc hl => ?_⟩
    simp only [RxWsState.notifyBusyTimeoutElapsed]
    rcases h.due c hc hl with hf | hmix | ⟨-, hudp⟩
    · split_ifs with hn
      · cases sig with
        | lock => exact Or.inr (Or.inr ⟨rfl, rfl⟩)
        | receiving => exact Or.inl hf
      · exact Or.inl hf
    · exact Or.inr (Or.inl hmix)
    · simp [hu] at hudp
  · exact h

theorem ToldInv.udpSnapshot (h : ToldInv sig s) {order : List SessionID}
    (ho : OrderKept sig s (.udpSnapshot order)) : ToldInv sig (s.udpSnapshot order) := by
  unfold WsChannel.udpSnapshot
  split
  · next notifyUnlock hu =>
    split_ifs with hp hn
    · subst hn
      refine ⟨h.fresh, fun c hc hl => ?_⟩
      rcases h.due c hc hl with hf | hmix | ⟨rfl, -⟩
      · exact Or.inl hf
      · exact Or.inr (Or.inl hmix)
      · rcases ho rfl hu c hc.1 hc hl with hpart | hf | hmix
        · exact Or.inr (Or.inr ⟨rfl, hp.symm.subset hpart⟩)
        · exact Or.inl hf
        · exact Or.inr (Or.inl hmix)
    · refine ⟨h.fresh, fun c hc hl => ?_⟩
      rcases h.due c hc hl with hf | hmix | ⟨-, hudp⟩
      · exact Or.inl hf
      · exact Or.inr (Or.inl hmix)
      · rw [hu] at hudp
        exact absurd hudp hn
    · exact h
  · exact h

theorem ToldInv.udpSend (h : ToldInv sig s) : ToldInv sig s.udpSend := by
  unfold WsChannel.udpSend
  split
  · next hu =>
    refine ⟨h.fresh, fun c hc hl => ?_⟩
    rcases h.due c hc hl with hf | hmix | ⟨-, hudp⟩
    · exact Or.inl hf
    · exact Or.inr (Or.inl hmix)
    · simp [hu] at hudp
  · next c cs hu =>
    dsimp only
    have hkeep : ∀ c', c' ≠ c ∨ sig ≠ .lock → s.MayTell sig c' →
        ({ s with udp := .unlocking cs } : WsChannel).MayTell sig c' := by
      rintro c' hne (hf | hmix | ⟨hlock, hudp⟩)
      · exact Or.inl hf
      · exact Or.inr (Or.inl hmix)
      · simp only [hu, List.mem_cons] at hudp
        exact Or.inr (Or.inr ⟨hlock, hudp.resolve_left (hne.resolve_right (not_not.2 hlock))⟩)
    split_ifs with hc
    · cases sig with
      | lock =>
        refine h.write rfl rfl (fun c' hc' => hc') (fun _ _ => rfl) (by simp [Signal.off])
          (by simp [Signal.on]) fun c' hne _ => hkeep c' (Or.inl ?_)
        simpa [Signal.off] using hne
      | receiving =>
        refine ⟨fun c' hc' => ?_, fun c' hc' hl => hkeep c' (Or.inr (by simp)) (h.due c' hc' ?_)⟩
        · by_cases hcc : c' = c
          · subst hcc
            rw [write_sent_self, Signal.told_snoc]
            exact h.fresh c' hc'
          · rw [write_sent_of_ne _ _ _ hcc]
            exact h.fresh c' hc'
        · by_cases hcc : c' = c
          · subst hcc
            rwa [write_sent_self, Signal.told_snoc] at hl
          · rwa [write_sent_of_ne _ _ _ hcc] at hl
    · refine ⟨h.fresh, fun c' hc' hl => hkeep c' (Or.inl ?_) (h.due c' hc' hl)⟩
      rintro rfl
      exact hc hc'.1
  · exact h

theorem ToldInv.syncWrite (h : ToldInv sig s) {c : SessionID}
    (ho : OrderKept sig s (.syncWrite c)) :
    ToldInv sig (s.syncWrite c) := by
  unfold WsChannel.syncWrite
  split
  · next msg rest hs =>
    have hset : (s.handler c).channelSet = true := by
      by_contra hne
      rw [(h.fresh c (by simpa using hne)).2] at hs
      cases hs
    refine h.write rfl rfl (fun c' hc' => hc') (fun c' hc' => ?_) (fun _ => hset) (fun hon => ?_)
      fun c' _ _ hmay => hmay
    · refine Function.update_of_ne ?_ _ _
      rintro rfl
      rw [hset] at hc'
      cases hc'
    · exact ho (c, msg) (by simp [nextSync, hs]) hon
  · exact h

theorem ToldInv.mixerRestart (h : ToldInv sig s) {encoderOk : Bool}
    (ho : OrderKept sig s (.mixerRestart encoderOk)) : ToldInv sig (s.mixerRestart encoderOk) := by
  refine ⟨h.fresh, fun c hc hl => ?_⟩
  rcases ho c hc.1 hc hl with ⟨rfl, hf⟩ | hu
  · exact Or.inl hf
  · exact Or.inr (Or.inr hu)

/-- Steps of a handler that move it on and write nothing. -/
theorem ToldInv.setHandler {s' : WsChannel} {c : SessionID} {pc : HandlerPc} (h : ToldInv sig s)
    (hfresh : pc.channelSet = false → (s.handler c).channelSet = false)
    (hrx : s'.rx = s.rx) (hmixer : s'.mixer = s.mixer) (hudp : s'.udp = s.udp)
    (hsent : s'.sent = s.sent) (hhandler : s'.handler = s.handler)
    (hclients : ∀ c', c' ∈ s'.clients → c' ∈ s.clients ∨ c' = c ∧ pc.channelSet = false)
    (hsync : ∀ c', (s.handler c').channelSet = false → s'.syncing c' = s.syncing c') :
    ToldInv sig (s'.setHandler c pc) := by
  have hold : ∀ c', c' ≠ c → (s'.setHandler c pc).handler c' = s.handler c' := by
    intro c' hne
    rw [← hhandler]
    exact Function.update_of_ne hne _ _
  have hself : (s'.setHandler c pc).handler c = pc := Function.update_self _ _ _
  have hsent' : (s'.setHandler c pc).sent = s.sent := hsent
  refine ⟨fun c' hc' => ?_, fun c' hc' hl => ?_⟩
  · have hbefore : (s.handler c').channelSet = false := by
      by_cases hcc : c' = c
      · subst hcc
        exact hfresh (by rwa [hself] at hc')
      · rwa [hold c' hcc] at hc'
    obtain ⟨h1, h2⟩ := h.fresh c' hbefore
    exact ⟨by rwa [hsent'], (hsync c' hbefore).trans h2⟩
  · rw [hsent'] at hl
    have hset : (s.handler c').channelSet = true := by
      by_contra hne
      rw [(h.fresh c' (by simpa using hne)).1] at hl
      cases hl
    have hpres : s.Present c' := by
      refine ⟨(hclients c' hc'.1).resolve_right ?_, hset⟩
      rintro ⟨rfl, hpc⟩
      rw [hfresh hpc] at hset
      cases hset
    have hmay := h.due c' hpres hl
    simpa only [MayTell, MixerOffDue, UdpOffDue, WsChannel.setHandler, hrx, hmixer, hudp] using hmay

/-- Every step that keeps the order keeps the invariant. -/
theorem ToldInv.step (h : ToldInv sig s) (a : WsAction) (ho : OrderKept sig s a) :
    ToldInv sig (step p s a) := by
  cases a with
  | noteOutboundMixedUDP now exclude => exact h.noteOutboundMixedUDP now exclude
  | probeRxBroadcastWsIdle now => exact h.probeRxBroadcastWsIdle now
  | mixerBegin order => exact h.mixerBegin order
  | mixerVisit => exact h.mixerVisit ho
  | mixerRestart encoderOk => exact h.mixerRestart ho
  | notifyBusyTimeoutElapsed => exact h.notifyBusyTimeoutElapsed
  | udpSnapshot order => exact h.udpSnapshot ho
  | udpSend => exact h.udpSend
  | syncWrite c => exact h.syncWrite ho
  | addClient c =>
    simp only [WsChannel.step]
    split_ifs with hc
    · refine h.setHandler (by simp [hc, HandlerPc.channelSet]) rfl rfl rfl rfl rfl
        (fun c' hc' => ?_) fun _ _ => rfl
      rcases List.mem_cons.1 hc' with rfl | hc'
      · exact Or.inr ⟨rfl, rfl⟩
      · exact Or.inl hc'
    · exact h
  | setChannel c =>
    simp only [WsChannel.step]
    split_ifs
    · exact h.setHandler (by simp [HandlerPc.channelSet]) rfl rfl rfl rfl rfl
        (fun c' hc' => Or.inl hc') fun _ _ => rfl
    · exact h
  | addParticipant c =>
    simp only [WsChannel.step]
    split_ifs
    · exact h.setHandler (by simp [HandlerPc.channelSet]) rfl rfl rfl rfl rfl
        (fun c' hc' => Or.inl hc') fun _ _ => rfl
    · exact h
  | syncRead c =>
    simp only [WsChannel.step]
    split_ifs with hc
    · refine h.setHandler (by simp [HandlerPc.channelSet]) rfl rfl rfl rfl rfl
        (fun c' hc' => Or.inl hc') fun c' hc' => Function.update_of_ne ?_ _ _
      rintro rfl
      simp [hc, HandlerPc.channelSet] at hc'
    · exact h
  | removeClient c =>
    simp only [WsChannel.step]
    split_ifs
    · exact h.setHandler (by simp [HandlerPc.channelSet]) rfl rfl rfl rfl rfl
        (fun c' hc' => Or.inl (List.mem_of_mem_erase hc')) fun _ _ => rfl
    · exact h
  | removeParticipant c =>
    simp only [WsChannel.step]
    split_ifs
    · exact h.setHandler (by simp [HandlerPc.channelSet]) rfl rfl rfl rfl rfl
        (fun c' hc' => Or.inl hc') fun _ _ => rfl
    · exact h

/-- Along every run that keeps the order, a client that is told that the signal is on either is told
so rightly or will be told otherwise. -/
theorem toldInv_after {as : List WsAction} (h : Along (WsChannel.step p) (OrderKept sig) {} as) :
    ToldInv sig (after (WsChannel.step p) {} as) :=
  invariant_along (I := ToldInv sig) (fun _ a hs ha => hs.step a ha) (toldInv_init sig) h

/-- Once nothing is left to write, nobody may be told that a signal is on whose flag is clear. -/
theorem not_mayTell_of_quiet {c : SessionID} (hq : s.Quiet) (hf : sig.flag s.rx = false) :
    ¬ s.MayTell sig c := by
  obtain ⟨hm, hu, -⟩ := hq
  rintro (h | ⟨call, hcall, -⟩ | ⟨-, h⟩)
  · rw [hf] at h
    cases h
  · simp [hm] at hcall
  · simp [hu] at h

theorem ToldInv.not_told_of_quiet (h : ToldInv sig s) {c : SessionID} (hq : s.Quiet)
    (hf : sig.flag s.rx = false) (hc : s.Present c) : sig.told (s.sent c) = false := by
  by_contra hne
  exact not_mayTell_of_quiet hq hf (h.due c hc (by simpa using hne))

/-! ## The PTT lock -/

/-- Whenever no send is pending and the lock is off, no client of the channel was told last that it
is locked, in every run that keeps the order of the lock messages. -/
theorem lock_agreement {p : MixerParams} {as : List WsAction} {c : SessionID}
    (horder : Along (WsChannel.step p) (OrderKept .lock) {} as)
    (hquiet : (after (WsChannel.step p) {} as).Quiet)
    (hflag : (after (WsChannel.step p) {} as).rx.pttLockServerActive = false)
    (hpresent : (after (WsChannel.step p) {} as).Present c) :
    Signal.lock.told ((after (WsChannel.step p) {} as).sent c) = false :=
  (toldInv_after horder).not_told_of_quiet hquiet hflag hpresent

/-- The handler of `c` runs up to the read of the flags. -/
def joins (c : SessionID) : List WsAction :=
  [.addClient c, .setChannel c, .addParticipant c, .syncRead c]

/-- One broadcast of the mixer to the clients `order`. -/
def broadcasts (order : List SessionID) : List WsAction :=
  .mixerBegin order :: List.replicate (order.length + 1) .mixerVisit

/-- A receive session that client 1 hears from its first frame to its end. -/
def lockedSession : List WsAction :=
  joins 1 ++ .noteOutboundMixedUDP 0 0 :: broadcasts [1] ++ broadcasts [1] ++
    .probeRxBroadcastWsIdle second :: broadcasts [1] ++ broadcasts [1]

theorem lock_agreement_session :
    Signal.lock.told ((after (WsChannel.step busyChannel) {} lockedSession).sent 1) = false :=
  lock_agreement (by decide) (by decide) (by decide) (by decide)

/-- Client 2 joins during a session and reads the flags; the session ends and `ptt_unlock` goes out
before the handler writes what it read. -/
def staleSyncSession : List WsAction :=
  joins 1 ++ .noteOutboundMixedUDP 0 1 :: broadcasts [1] ++ broadcasts [1] ++ joins 2 ++
    .probeRxBroadcastWsIdle second :: broadcasts [2, 1] ++ broadcasts [2, 1] ++
      [.syncWrite 2, .syncWrite 2]

theorem stale_ptt_lock :
    (∀ encoderOk, .mixerRestart encoderOk ∉ staleSyncSession) ∧
      (after (WsChannel.step busyChannel) {} staleSyncSession).Quiet ∧
      (after (WsChannel.step busyChannel) {} staleSyncSession).rx.pttLockServerActive = false ∧
      (after (WsChannel.step busyChannel) {} staleSyncSession).Present 2 ∧
      Signal.lock.told ((after (WsChannel.step busyChannel) {} staleSyncSession).sent 2) =
        true := by
  decide

/-! ## Restarts of the mixer -/

/-- In every run that keeps the order, restarts included, a client of the channel that was told last
that a signal is on while its flag is clear is about to be sent the matching message, and once no
send is pending there is no such client. -/
theorem restart_agreement {p : MixerParams} {sig : Signal} {as : List WsAction} {c : SessionID}
    (horder : Along (WsChannel.step p) (OrderKept sig) {} as)
    (hflag : sig.flag (after (WsChannel.step p) {} as).rx = false)
    (hpresent : (after (WsChannel.step p) {} as).Present c) :
    (sig.told ((after (WsChannel.step p) {} as).sent c) = true →
      (after (WsChannel.step p) {} as).MixerOffDue sig c ∨
        (after (WsChannel.step p) {} as).UdpOffDue sig c) ∧
    ((after (WsChannel.step p) {} as).Quiet →
      sig.told ((after (WsChannel.step p) {} as).sent c) = false) := by
  have hinv := toldInv_after horder
  refine ⟨fun htold => ?_, fun hquiet => hinv.not_told_of_quiet hquiet hflag hpresent⟩
  refine (hinv.due c hpresent htold).resolve_left ?_
  rw [hflag]
  exact Bool.false_ne_true

/-- A restart between two sessions. -/
def restartBetween : List WsAction :=
  lockedSession ++ .mixerRestart true :: .noteOutboundMixedUDP (2 * second) 0 ::
    broadcasts [1] ++ broadcasts [1] ++ [.probeRxBroadcastWsIdle (3 * second)]

theorem restart_agreement_between :
    (after (WsChannel.step busyChannel) {} restartBetween).MixerOffDue .receiving 1 ∨
      (after (WsChannel.step busyChannel) {} restartBetween).UdpOffDue .receiving 1 :=
  (restart_agreement (by decide) (by decide) (by decide)).1 (by decide)

/-- `runLoop` panics while client 1 is receiving and locked. -/
def restartInSession : List WsAction :=
  joins 1 ++ .noteOutboundMixedUDP 0 0 :: broadcasts [1] ++ broadcasts [1] ++ [.mixerRestart true]

theorem restart_silent :
    let s := after (WsChannel.step busyChannel) {} restartInSession
    s.Quiet ∧ s.Present 1 ∧
      (Signal.receiving.flag s.rx = false ∧ Signal.receiving.told (s.sent 1) = true) ∧
      Signal.lock.flag s.rx = false ∧ Signal.lock.told (s.sent 1) = true := by
  decide

end WsChannel

end OWalkie
