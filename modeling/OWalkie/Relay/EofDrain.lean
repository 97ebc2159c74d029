import OWalkie.Relay.JitterOrder

/-!
# The buffer drains at the end of a transmission

At `tx_eof` the mixer forces the start of the buffer, so that a burst shorter than the depth is
played at once.  From there `pop` always reads the smallest number (`Headed.slot_eq`), and the pops
that follow return what is buffered in order and then nothing (`eof_drains`).
-/

namespace OWalkie

open Run

namespace SpeakerJitterBuffer

/-- What the next `n` pops return. -/
def popResults : ℕ → SpeakerJitterBuffer → List (Option AudioPacket)
  | 0, _ => []
  | n + 1, b => b.pop.1 :: popResults n b.pop.2

variable {b : SpeakerJitterBuffer}

theorem popResults_of_empty (h : b.pendingCount = 0) (n : ℕ) :
    popResults n b = List.replicate n none := by
  induction n generalizing b with
  | zero => rfl
  | succ n ih =>
    rw [popResults, ih (pendingCount_pop_of_empty h), pop_of_empty h, List.replicate_succ]

theorem pendingCount_played {q : ℕ} (h : q ∈ b.packets) :
    (b.played q).pendingCount + 1 = b.pendingCount := pendingCount_erase h

theorem lookup_played_iff {q : ℕ} {pkt : AudioPacket} :
    (b.played q).packets.lookup pkt.seq = some pkt ↔
      pkt.seq ≠ q ∧ b.packets.lookup pkt.seq = some pkt := by
  show (b.packets.erase q).lookup pkt.seq = some pkt ↔ _
  by_cases hq : pkt.seq = q
  · rw [hq, Finmap.lookup_erase]
    simp
  · rw [Finmap.lookup_erase_ne hq]
    exact (and_iff_right hq).symm

/-- The pops of a headed buffer: by induction on the number of packets, the smallest one first. -/
theorem Headed.popResults_eq (h : b.Headed) (hkeyed : b.WellKeyed) (k : ℕ) :
    ∃ l : List AudioPacket,
      popResults (b.pendingCount + k) b = l.map some ++ List.replicate k none ∧
        (l.map (·.seq)).Pairwise (· < ·) ∧
          ∀ pkt, pkt ∈ l ↔ b.packets.lookup pkt.seq = some pkt := by
  induction hn : b.pendingCount generalizing b with
  | zero =>
    refine ⟨[], ?_, List.Pairwise.nil, fun pkt => ?_⟩
    · rw [zero_add, popResults_of_empty hn]
      rfl
    · have hnot := pendingCount_eq_zero_iff.1 hn pkt.seq
      simp [Finmap.lookup_eq_none.2 hnot]
  | succ n ih =>
    obtain ⟨lo, hlo⟩ : ∃ lo, b.minSeq = some lo := by
      cases hmin : b.minSeq with
      | none =>
        have := pendingCount_eq_zero_of_minSeq hmin
        omega
      | some lo => exact ⟨lo, rfl⟩
    obtain ⟨hmem, hle⟩ := minSeq_eq_some_iff.1 hlo
    obtain ⟨pkt, hpkt, hpop⟩ := pop_of_slot (h.slot_eq hlo)
    have hseq : pkt.seq = lo := hkeyed lo pkt hpkt
    have hcount : (b.played lo).pendingCount = n := by
      have := pendingCount_played hmem
      omega
    have hheaded := h.pop
    have hkeyed' := AllBuffered.pop hkeyed
    rw [hpop] at hheaded hkeyed'
    obtain ⟨l, hresults, hsorted, hiff⟩ := ih hheaded hkeyed' hcount
    refine ⟨pkt :: l, ?_, ?_, fun pkt' => ?_⟩
    · rw [Nat.add_right_comm, popResults, hpop]
      show some pkt :: popResults (n + k) (b.played lo) = _
      rw [hresults]
      rfl
    · rw [List.map_cons, List.pairwise_cons]
      refine ⟨fun q hq => ?_, hsorted⟩
      obtain ⟨pkt', hpkt', rfl⟩ := List.mem_map.1 hq
      obtain ⟨hne, hlookup⟩ := lookup_played_iff.1 ((hiff pkt').1 hpkt')
      have hge := hle pkt'.seq (Finmap.mem_iff.2 ⟨pkt', hlookup⟩)
      rw [hseq]
      exact lt_of_le_of_ne hge hne.symm
    · rw [List.mem_cons, hiff, lookup_played_iff]
      constructor
      · rintro (rfl | ⟨-, hlookup⟩)
        · rwa [hseq]
        · exact hlookup
      · intro hlookup
        by_cases hq : pkt'.seq = lo
        · rw [hq, hpkt] at hlookup
          exact Or.inl (Option.some.inj hlookup).symm
        · exact Or.inr ⟨hq, hlookup⟩

theorem wellKeyed_runOps (jitterMinPackets : ℕ) (ops : List JitterOp) :
    (runOps (new jitterMinPackets) ops).WellKeyed :=
  invariant (I := WellKeyed) (fun _ op h => h.apply op) (AllBuffered.new _) ops

theorem wellKeyed_forceStart (h : b.WellKeyed) : b.forceStartFromMinSeq.WellKeyed :=
  AllBuffered.forceStartFromMinSeq h

theorem packets_forceStart (b : SpeakerJitterBuffer) :
    b.forceStartFromMinSeq.packets = b.packets := by
  unfold forceStartFromMinSeq
  cases b.minSeq <;> rfl

/-- After a forced start the pops play every buffered packet, in increasing order, and then
nothing. -/
theorem eof_drains (jitterMinPackets : ℕ) (ops : List JitterOp) (k : ℕ) :
    let b := runOps (new jitterMinPackets) ops
    ∃ l : List AudioPacket,
      popResults (b.pendingCount + k) b.forceStartFromMinSeq =
          l.map some ++ List.replicate k none ∧
        (l.map (·.seq)).Pairwise (· < ·) ∧
          ∀ pkt, pkt ∈ l ↔ b.packets.lookup pkt.seq = some pkt := by
  intro b
  have hkeyed : b.forceStartFromMinSeq.WellKeyed :=
    wellKeyed_forceStart (wellKeyed_runOps jitterMinPackets ops)
  have hcount : b.forceStartFromMinSeq.pendingCount = b.pendingCount := by
    rw [pendingCount, packets_forceStart]
    rfl
  have hdrain := Headed.forceStartFromMinSeq.popResults_eq hkeyed k
  rwa [hcount, packets_forceStart] at hdrain

/-- A packet below the old head goes first; the gap behind it is skipped. -/
example :
    let b := runOps (new 2) [.push (samplePacket 7), .push (samplePacket 5), .pop, .pop,
      .push (samplePacket 3), .push (samplePacket 90)]
    (popResults 3 b.forceStartFromMinSeq).map (Option.map (·.seq)) = [some 3, some 90, none] := by
  decide

end SpeakerJitterBuffer

end OWalkie
