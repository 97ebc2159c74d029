import OWalkie.Relay.JitterOrder
import OWalkie.Relay.Confluence

/-!
# What becomes of a pushed packet

Every run of a jitter buffer keeps its bounds (`Bounded`), and every packet that the run pushes is
in exactly one of five states (`packets_conserved`).  The states are read off the plain run: `Fate`
looks for the last operation before which the packet was buffered, and `ReturnedBy` traces what a
`pop` returns back to the push that stored it.
-/

namespace OWalkie

open Run

namespace SpeakerJitterBuffer

variable {b : SpeakerJitterBuffer} {q : ℕ} {pkt : AudioPacket}

/-! ## Bounds -/

structure Bounded (b : SpeakerJitterBuffer) : Prop where
  count_le : (b.pendingCount : ℤ) ≤ b.maxKeep
  one_le : 1 ≤ b.minStart
  le_keep : b.minStart ≤ b.maxKeep
  keep : b.maxKeep = max 32 (8 * b.minStart)

theorem keepFor_eq (n : ℤ) : keepFor n = max 32 (8 * n) := by
  unfold keepFor
  split_ifs <;> omega

/-- The eviction loop has fuel for all the packets. -/
theorem trimFrom_count (fuel : ℕ) (hfuel : b.pendingCount ≤ fuel) (hkeep : 0 ≤ b.maxKeep) :
    ((trimFrom fuel b).pendingCount : ℤ) ≤ b.maxKeep := by
  induction fuel generalizing b with
  | zero =>
    show (b.pendingCount : ℤ) ≤ b.maxKeep
    omega
  | succ fuel ih =>
    unfold trimFrom
    split_ifs with hfull
    · cases hlo : b.minSeq with
      | none =>
        have := pendingCount_eq_zero_of_minSeq hlo
        omega
      | some lo =>
        have herase := pendingCount_erase (minSeq_eq_some_iff.1 hlo).1
        refine ih (b := { b with
          packets := b.packets.erase lo
          head := if b.started ∧ b.head ≤ lo then u32 (lo + 1) else b.head }) ?_ hkeep
        show (b.packets.erase lo).keys.card ≤ fuel
        have hcount : b.pendingCount = b.packets.keys.card := rfl
        omega
    · exact not_lt.1 hfull

theorem bounded_trim (hone : 1 ≤ b.minStart) (hkeep : b.maxKeep = keepFor b.minStart) :
    b.trim.Bounded := by
  obtain ⟨hmin, hmax, -⟩ := trimFrom_frame b.pendingCount b
  have heq : b.maxKeep = max 32 (8 * b.minStart) := hkeep.trans (keepFor_eq _)
  exact
    { count_le := (trimFrom_count _ le_rfl (by omega)).trans_eq hmax.symm
      one_le := hone.trans_eq hmin.symm
      le_keep := by rw [trim, hmin, hmax]; omega
      keep := by rw [trim, hmin, hmax]; exact heq }

theorem bounded_new (jitterMinPackets : ℕ) : (new jitterMinPackets).Bounded where
  count_le := by
    show ((0 : ℕ) : ℤ) ≤ keepFor _
    rw [keepFor_eq]
    omega
  one_le := by
    show 1 ≤ if (jitterMinPackets : ℤ) < 1 then 1 else (jitterMinPackets : ℤ)
    split_ifs <;> omega
  le_keep := le_keepFor _
  keep := keepFor_eq _

/-- Operations other than `setMinStartClamped` keep the depth, and only the number of packets is to
be checked. -/
theorem Bounded.of_frame {b' : SpeakerJitterBuffer} (h : b.Bounded)
    (hmin : b'.minStart = b.minStart) (hmax : b'.maxKeep = b.maxKeep)
    (hcount : (b'.pendingCount : ℤ) ≤ b.maxKeep) : b'.Bounded where
  count_le := hmax ▸ hcount
  one_le := hmin ▸ h.one_le
  le_keep := by rw [hmin, hmax]; exact h.le_keep
  keep := by rw [hmin, hmax]; exact h.keep

theorem Bounded.push (h : b.Bounded) (pkt : AudioPacket) : (b.push pkt).Bounded := by
  by_cases hmem : pkt.seq ∈ b.packets
  · rw [push_of_mem hmem]
    exact h
  · obtain ⟨-, hmin, hmax⟩ := startFull_frame (b.stored pkt)
    rw [push_of_notMem hmem]
    apply bounded_trim
    · exact h.one_le.trans_eq hmin.symm
    · rw [hmin, hmax, keepFor_eq]
      exact h.keep

theorem Bounded.pop (h : b.Bounded) : b.pop.2.Bounded := by
  cases hs : b.slot with
  | none =>
    obtain ⟨started, -, hpop⟩ := pop_eq_of_no_slot hs
    rw [hpop]
    exact h.of_frame rfl rfl h.count_le
  | some q =>
    obtain ⟨pkt, hpkt, hpop⟩ := pop_of_slot hs
    rw [hpop]
    show (b.played q).Bounded
    refine h.of_frame rfl rfl ?_
    have herase := pendingCount_erase (Finmap.mem_iff.2 ⟨pkt, hpkt⟩)
    have hcount : b.pendingCount = b.packets.keys.card := rfl
    have hle := h.count_le
    show ((b.packets.erase q).keys.card : ℤ) ≤ b.maxKeep
    omega

theorem Bounded.setMinStartClamped (h : b.Bounded) {n floor ceil : ℤ} (hfloor : 1 ≤ floor)
    (hceil : floor ≤ ceil) : (b.setMinStartClamped n floor ceil).Bounded := by
  have hdepth : 1 ≤ clampDepth n floor ceil := by
    simp only [clampDepth]
    split_ifs <;> omega
  simp only [SpeakerJitterBuffer.setMinStartClamped]
  split_ifs
  · exact h
  · exact bounded_trim hdepth rfl

/-- The arguments with which a depth may be set. -/
def ValidOp : JitterOp → Prop
  | .setMinStartClamped _ floor ceil => 1 ≤ floor ∧ floor ≤ ceil
  | _ => True

theorem Bounded.apply (h : b.Bounded) {op : JitterOp} (hop : ValidOp op) :
    (next SpeakerJitterBuffer.apply b op).Bounded := by
  cases op with
  | push pkt => exact h.push pkt
  | pop => exact h.pop
  | forceStartFromMinSeq =>
    obtain ⟨hpackets, hmax⟩ := forceStart_frame b
    have hmin : b.forceStartFromMinSeq.minStart = b.minStart := by
      unfold SpeakerJitterBuffer.forceStartFromMinSeq
      cases b.minSeq <;> rfl
    exact h.of_frame hmin hmax ((pendingCount_congr hpackets).symm ▸ h.count_le)
  | setMinStartClamped n floor ceil => exact h.setMinStartClamped hop.1 hop.2
  | reset =>
    refine h.of_frame rfl rfl ?_
    have := h.count_le
    show ((0 : ℕ) : ℤ) ≤ b.maxKeep
    omega

/-! ## Eviction -/

/-- The eviction loop removes `q`: in some round it is the smallest number of a buffer with more
than `maxKeep` packets. -/
inductive Evicts : SpeakerJitterBuffer → ℕ → Prop
  | here {b : SpeakerJitterBuffer} {q : ℕ} (full : b.maxKeep < b.pendingCount)
      (smallest : b.minSeq = some q) : Evicts b q
  | later {b : SpeakerJitterBuffer} {lo q : ℕ} (full : b.maxKeep < b.pendingCount)
      (smallest : b.minSeq = some lo) (rest : Evicts { b with
        packets := b.packets.erase lo
        head := if b.started ∧ b.head ≤ lo then u32 (lo + 1) else b.head } q) : Evicts b q

theorem notMem_of_lookup {m : Finmap fun _ : ℕ => AudioPacket}
    (h : ∀ pkt, m.lookup q ≠ some pkt) : q ∉ m := by
  intro hq
  obtain ⟨pkt, hpkt⟩ := Finmap.mem_iff.1 hq
  exact h pkt hpkt

/-- A packet stays through the eviction loop, or the loop removes its number. -/
theorem lookup_trimFrom (fuel : ℕ) (h : b.packets.lookup q = some pkt) :
    (trimFrom fuel b).packets.lookup q = some pkt ∨
      q ∉ (trimFrom fuel b).packets ∧ b.Evicts q := by
  induction fuel generalizing b with
  | zero => exact Or.inl h
  | succ fuel ih =>
    unfold trimFrom
    split_ifs with hfull
    · cases hlo : b.minSeq with
      | none => exact Or.inl h
      | some lo =>
        by_cases hq : q = lo
        · subst hq
          refine Or.inr ⟨notMem_of_lookup fun p hp => ?_, .here hfull hlo⟩
          have := AllBuffered.lookup_of_lookup_trimFrom fuel hp
          simp at this
        · rcases ih (b := { b with
              packets := b.packets.erase lo
              head := if b.started ∧ b.head ≤ lo then u32 (lo + 1) else b.head })
            (by rw [Finmap.lookup_erase_ne hq]; exact h) with hstay | ⟨hgone, hrest⟩
          · exact Or.inl hstay
          · exact Or.inr ⟨hgone, .later hfull hlo hrest⟩
    · exact Or.inl h

/-- The buffer that an operation leaves to its eviction loop. -/
def untrimmed (b : SpeakerJitterBuffer) : JitterOp → Option SpeakerJitterBuffer
  | .push pkt => if pkt.seq ∈ b.packets then none else some (b.stored pkt).startFull
  | .setMinStartClamped n floor ceil =>
    if clampDepth n floor ceil = b.minStart then none
    else some { b with
      minStart := clampDepth n floor ceil
      maxKeep := keepFor (clampDepth n floor ceil) }
  | _ => none

/-! ## The end of a packet -/

/-- How an operation takes the packet out of the buffer. -/
inductive Removal where
  | returned
  | evicted
  | discarded
  deriving DecidableEq

/-- The operation `op` on `b` takes the packet out as `r` says. -/
def Removes (b : SpeakerJitterBuffer) (op : JitterOp) (pkt : AudioPacket) : Removal → Prop
  | .returned => op = .pop ∧ b.pop.1 = some pkt
  | .evicted => ∃ pre, b.untrimmed op = some pre ∧ pre.Evicts pkt.seq
  | .discarded => op = .reset

/-- An operation removes a packet in one way. -/
theorem Removes.unique {op : JitterOp} {r r' : Removal} (h : b.Removes op pkt r)
    (h' : b.Removes op pkt r') : r = r' := by
  cases r with
  | returned =>
    obtain ⟨rfl, -⟩ := h
    cases r' with
    | returned => rfl
    | evicted =>
      obtain ⟨_, hpre, -⟩ := h'
      cases hpre
    | discarded => cases h'
  | evicted =>
    obtain ⟨_, hpre, -⟩ := h
    cases r' with
    | returned =>
      obtain ⟨rfl, -⟩ := h'
      cases hpre
    | evicted => rfl
    | discarded =>
      obtain rfl : op = .reset := h'
      cases hpre
  | discarded =>
    obtain rfl : op = .reset := h
    cases r' with
    | returned => cases h'.1
    | evicted =>
      obtain ⟨_, hpre, -⟩ := h'
      cases hpre
    | discarded => rfl

/-- A buffered packet stays through an operation, or the operation removes it. -/
theorem lookup_apply (op : JitterOp) (h : b.packets.lookup pkt.seq = some pkt) :
    (next apply b op).packets.lookup pkt.seq = some pkt ∨
      pkt.seq ∉ (next apply b op).packets ∧ ∃ r, b.Removes op pkt r := by
  cases op with
  | push p =>
    show (b.push p).packets.lookup pkt.seq = some pkt ∨ pkt.seq ∉ (b.push p).packets ∧ _
    by_cases hmem : p.seq ∈ b.packets
    · rw [push_of_mem hmem]
      exact Or.inl h
    · have hne : pkt.seq ≠ p.seq := by
        rintro heq
        exact hmem (heq ▸ Finmap.mem_iff.2 ⟨pkt, h⟩)
      have hpre : (b.stored p).startFull.packets.lookup pkt.seq = some pkt := by
        rw [(startFull_frame _).1]
        exact (Finmap.lookup_insert_of_ne _ hne).trans h
      rw [push_of_notMem hmem]
      rcases lookup_trimFrom _ hpre with hstay | ⟨hgone, hev⟩
      · exact Or.inl hstay
      · exact Or.inr ⟨hgone, .evicted, _, if_neg hmem, hev⟩
  | pop =>
    show b.pop.2.packets.lookup pkt.seq = some pkt ∨ pkt.seq ∉ b.pop.2.packets ∧ _
    cases hs : b.slot with
    | none =>
      rw [(pop_of_no_slot hs).2]
      exact Or.inl h
    | some q =>
      obtain ⟨p, hp, hpop⟩ := pop_of_slot hs
      by_cases hq : pkt.seq = q
      · subst hq
        obtain rfl : p = pkt := Option.some.inj (hp.symm.trans h)
        refine Or.inr ⟨?_, .returned, rfl, by rw [hpop]⟩
        rw [hpop]
        simp [played]
      · left
        rw [hpop]
        exact (Finmap.lookup_erase_ne hq).trans h
  | forceStartFromMinSeq =>
    left
    show b.forceStartFromMinSeq.packets.lookup pkt.seq = some pkt
    rw [(forceStart_frame b).1]
    exact h
  | setMinStartClamped n floor ceil =>
    show (b.setMinStartClamped n floor ceil).packets.lookup pkt.seq = some pkt ∨
      pkt.seq ∉ (b.setMinStartClamped n floor ceil).packets ∧ _
    simp only [setMinStartClamped]
    split_ifs with hsame
    · exact Or.inl h
    · rcases lookup_trimFrom _ (b := { b with
          minStart := clampDepth n floor ceil
          maxKeep := keepFor (clampDepth n floor ceil) }) h with hstay | ⟨hgone, hev⟩
      · exact Or.inl hstay
      · exact Or.inr ⟨hgone, .evicted, _, if_neg hsame, hev⟩
  | reset => exact Or.inr ⟨Finmap.notMem_empty, .discarded, rfl⟩

/-- A packet with a free number is stored by its own `push`, or evicted there. -/
theorem lookup_push (h : pkt.seq ∉ b.packets) :
    (b.push pkt).packets.lookup pkt.seq = some pkt ∨
      pkt.seq ∉ (b.push pkt).packets ∧ b.Removes (.push pkt) pkt .evicted := by
  have hpre : (b.stored pkt).startFull.packets.lookup pkt.seq = some pkt := by
    rw [(startFull_frame _).1]
    exact Finmap.lookup_insert _
  rw [push_of_notMem h]
  rcases lookup_trimFrom _ hpre with hstay | ⟨hgone, hev⟩
  · exact Or.inl hstay
  · exact Or.inr ⟨hgone, _, if_neg h, hev⟩

/-- What an operation leaves under a number was there before, or the operation stored it. -/
theorem lookup_of_lookup_apply (op : JitterOp) (h : (next apply b op).packets.lookup q = some pkt) :
    b.packets.lookup q = some pkt ∨ op = .push pkt ∧ pkt.seq = q ∧ q ∉ b.packets := by
  cases op with
  | push p =>
    replace h : (b.push p).packets.lookup q = some pkt := h
    by_cases hmem : p.seq ∈ b.packets
    · rw [push_of_mem hmem] at h
      exact Or.inl h
    · rw [push_of_notMem hmem] at h
      have hstored := AllBuffered.lookup_of_lookup_trimFrom _ h
      rw [(startFull_frame _).1] at hstored
      by_cases hq : q = p.seq
      · subst hq
        obtain rfl := Option.some.inj ((Finmap.lookup_insert b.packets).symm.trans hstored)
        exact Or.inr ⟨rfl, rfl, hmem⟩
      · exact Or.inl ((Finmap.lookup_insert_of_ne _ hq).symm.trans hstored)
  | pop =>
    left
    replace h : b.pop.2.packets.lookup q = some pkt := h
    cases hs : b.slot with
    | none => rwa [(pop_of_no_slot hs).2] at h
    | some r =>
      obtain ⟨p, -, hpop⟩ := pop_of_slot hs
      rw [hpop] at h
      exact AllBuffered.lookup_of_lookup_erase h
  | forceStartFromMinSeq =>
    left
    exact (forceStart_frame b).1 ▸ h
  | setMinStartClamped n floor ceil =>
    left
    replace h : (b.setMinStartClamped n floor ceil).packets.lookup q = some pkt := h
    simp only [setMinStartClamped] at h
    split_ifs at h
    · exact h
    · exact AllBuffered.lookup_of_lookup_trimFrom (b := { b with
        minStart := clampDepth n floor ceil
        maxKeep := keepFor (clampDepth n floor ceil) }) _ h
  | reset => exact absurd h (by simp [next, SpeakerJitterBuffer.apply, SpeakerJitterBuffer.reset])

/-- The packet that `pop` returns was buffered under its number, which is free from there on. -/
theorem WellKeyed.of_pop (h : b.WellKeyed) (hpop : b.pop.1 = some pkt) :
    b.packets.lookup pkt.seq = some pkt ∧ pkt.seq ∉ b.pop.2.packets := by
  cases hs : b.slot with
  | none =>
    rw [(pop_of_no_slot hs).1] at hpop
    cases hpop
  | some r =>
    obtain ⟨p, hp, hpop'⟩ := pop_of_slot hs
    rw [hpop'] at hpop ⊢
    obtain rfl := Option.some.inj hpop
    rw [h r p hp]
    exact ⟨hp, by simp [played]⟩

/-! ## The state of a packet in a run -/

/-- The buffer before operation `i` of a run. -/
def before (b : SpeakerJitterBuffer) (ops : List JitterOp) (i : ℕ) : SpeakerJitterBuffer :=
  runOps b (ops.take i)

theorem before_succ {ops : List JitterOp} {i : ℕ} {op : JitterOp} (h : ops[i]? = some op) :
    before b ops (i + 1) = next apply (before b ops i) op := by
  rw [before, List.take_add_one, h]
  exact after_snoc _ _ _ _

/-- Operation `i` pushes the packet under a free number, and the packet is buffered from there up to
operation `j`. -/
def KeptTo (b : SpeakerJitterBuffer) (ops : List JitterOp) (i j : ℕ) (pkt : AudioPacket) : Prop :=
  pkt.seq ∉ (before b ops i).packets ∧
    ∀ m, i < m → m ≤ j → (before b ops m).packets.lookup pkt.seq = some pkt

/-- Operation `i` stores a packet under the number `q`. -/
def Stores (b : SpeakerJitterBuffer) (ops : List JitterOp) (i q : ℕ) : Prop :=
  ∃ pkt, ops[i]? = some (.push pkt) ∧ pkt.seq = q ∧ q ∉ (before b ops i).packets

/-- Operation `m` is a `pop` that returns a packet with the number `q`, and `i` is the last
operation before it that stores one: `m` returns what `i` stored. -/
structure ReturnedBy (b : SpeakerJitterBuffer) (ops : List JitterOp) (i m q : ℕ) : Prop where
  pops : ops[m]? = some .pop
  returns : ∃ pkt, (before b ops m).pop.1 = some pkt ∧ pkt.seq = q
  earlier : i < m
  stored : Stores b ops i q
  last : ∀ k, i < k → k < m → ¬ Stores b ops k q

/-- The states of a packet: buffered at the end of the run, ignored as a duplicate, or taken out by
operation `j`. -/
inductive PacketState where
  | buffered
  | duplicate
  | removed (j : ℕ) (r : Removal)

/-- What becomes of the packet that operation `i` pushes. -/
def Fate (b : SpeakerJitterBuffer) (ops : List JitterOp) (i : ℕ) (pkt : AudioPacket) :
    PacketState → Prop
  | .buffered => KeptTo b ops i ops.length pkt
  | .duplicate => pkt.seq ∈ (before b ops i).packets
  | .removed j r => KeptTo b ops i j pkt ∧ i ≤ j ∧ pkt.seq ∉ (before b ops (j + 1)).packets ∧
      ∃ op, ops[j]? = some op ∧ (before b ops j).Removes op pkt r

/-- The state of the packet that operation `i` pushes.  A packet in the state `returned` is returned
by that `pop` and no other, a packet in another state by none. -/
structure InState (b : SpeakerJitterBuffer) (ops : List JitterOp) (i : ℕ) (pkt : AudioPacket)
    (s : PacketState) : Prop where
  fate : Fate b ops i pkt s
  returned : ∀ m, ReturnedBy b ops i m pkt.seq ↔ s = .removed m .returned

section states

variable {ops : List JitterOp} {i i' j j' m : ℕ}

/-- A packet that operation `j'` takes out is not kept beyond it. -/
theorem KeptTo.le (h : KeptTo b ops i j pkt) (hi : i ≤ j')
    (hgone : pkt.seq ∉ (before b ops (j' + 1)).packets) : j ≤ j' := by
  by_contra hlt
  exact hgone (Finmap.mem_iff.2 ⟨pkt, h.2 (j' + 1) (by omega) (by omega)⟩)

/-- While a packet is kept, no other is stored under its number. -/
theorem KeptTo.last (h : KeptTo b ops i j pkt) {k : ℕ} (hik : i < k) (hkj : k < j) :
    ¬ Stores b ops k pkt.seq := by
  rintro ⟨_, -, -, hfree⟩
  exact hfree (Finmap.mem_iff.2 ⟨pkt, h.2 k hik hkj.le⟩)

theorem Fate.unique {s s' : PacketState} (h : Fate b ops i pkt s) (h' : Fate b ops i pkt s') :
    s = s' := by
  have hlen {j : ℕ} {op : JitterOp} (hop : ops[j]? = some op) : j < ops.length :=
    (List.getElem?_eq_some_iff.1 hop).1
  cases s with
  | buffered =>
    cases s' with
    | buffered => rfl
    | duplicate => exact absurd h' h.1
    | removed j r =>
      obtain ⟨-, hi, hgone, op, hop, -⟩ := h'
      have := h.le hi hgone
      have := hlen hop
      omega
  | duplicate =>
    cases s' with
    | buffered => exact absurd h h'.1
    | duplicate => rfl
    | removed j r => exact absurd h h'.1.1
  | removed j r =>
    obtain ⟨hkept, hi, hgone, op, hop, hr⟩ := h
    cases s' with
    | buffered =>
      have := KeptTo.le h' hi hgone
      have := hlen hop
      omega
    | duplicate => exact absurd h' hkept.1
    | removed j' r' =>
      obtain ⟨hkept', hi', hgone', op', hop', hr'⟩ := h'
      obtain rfl : j = j' := le_antisymm (hkept.le hi' hgone') (hkept'.le hi hgone)
      obtain rfl : op = op' := Option.some.inj (hop.symm.trans hop')
      rw [hr.unique hr']

/-- Every pushed packet has a fate: look at the first operation after which it is not buffered. -/
theorem exists_fate (hpush : ops[i]? = some (.push pkt)) : ∃ s, Fate b ops i pkt s := by
  by_cases hdup : pkt.seq ∈ (before b ops i).packets
  · exact ⟨.duplicate, hdup⟩
  by_cases hkept : ∀ m, i < m → m ≤ ops.length →
      (before b ops m).packets.lookup pkt.seq = some pkt
  · exact ⟨.buffered, hdup, hkept⟩
  push Not at hkept
  classical
  obtain ⟨him, hmlen, hmiss⟩ := Nat.find_spec hkept
  have hmin : ∀ m, i < m → m < Nat.find hkept →
      (before b ops m).packets.lookup pkt.seq = some pkt := by
    intro m him' hlt
    by_contra hne
    exact Nat.find_min hkept hlt ⟨him', by omega, hne⟩
  obtain ⟨j, hj⟩ : ∃ j, Nat.find hkept = j + 1 := ⟨Nat.find hkept - 1, by omega⟩
  rw [hj] at him hmlen hmiss hmin
  obtain ⟨op, hop⟩ : ∃ op, ops[j]? = some op := ⟨_, List.getElem?_eq_getElem (by omega)⟩
  have hkeptj : KeptTo b ops i j pkt := ⟨hdup, fun m hm hmj => hmin m hm (by omega)⟩
  rw [before_succ hop] at hmiss
  rcases Nat.lt_or_ge i j with hlt | hge
  · rcases lookup_apply op (hmin j hlt (by omega)) with hstay | ⟨hgone, r, hr⟩
    · exact absurd hstay hmiss
    · exact ⟨.removed j r, hkeptj, by omega, by rwa [before_succ hop], op, hop, hr⟩
  · obtain rfl : i = j := by omega
    obtain rfl : .push pkt = op := Option.some.inj (hpush.symm.trans hop)
    rcases lookup_push hdup with hstay | ⟨hgone, hr⟩
    · exact absurd hstay hmiss
    · exact ⟨.removed i .evicted, hkeptj, le_rfl, by rwa [before_succ hop], _, hop, hr⟩

theorem wellKeyed_before (h : b.WellKeyed) (m : ℕ) : (before b ops m).WellKeyed :=
  invariant (I := WellKeyed) (fun _ op hb => hb.apply op) h _

/-- A packet that an operation finds buffered was pushed in the run and kept since. -/
theorem exists_kept (hempty : b.pendingCount = 0) (hj : j ≤ ops.length)
    (h : (before b ops j).packets.lookup q = some pkt) :
    ∃ i < j, ops[i]? = some (.push pkt) ∧ pkt.seq = q ∧ KeptTo b ops i j pkt := by
  induction j with
  | zero =>
    have h0 : b.packets.lookup q = some pkt := h
    exact absurd (Finmap.mem_iff.2 ⟨pkt, h0⟩) (pendingCount_eq_zero_iff.1 hempty q)
  | succ j ih =>
    obtain ⟨op, hop⟩ : ∃ op, ops[j]? = some op := ⟨_, List.getElem?_eq_getElem (by omega)⟩
    have hafter := h
    rw [before_succ hop] at h
    rcases lookup_of_lookup_apply op h with hold | ⟨rfl, rfl, hfree⟩
    · obtain ⟨i, hij, hpush, rfl, hkept⟩ := ih (by omega) hold
      refine ⟨i, by omega, hpush, rfl, hkept.1, fun m him hmj => ?_⟩
      rcases Nat.lt_or_ge m (j + 1) with hlt | hge
      · exact hkept.2 m him (by omega)
      · obtain rfl : m = j + 1 := by omega
        exact hafter
    · refine ⟨j, by omega, hop, rfl, hfree, fun m him hmj => ?_⟩
      obtain rfl : m = j + 1 := by omega
      exact hafter

/-- Two stores that are each the last one before `m` are the same. -/
theorem ReturnedBy.eq (h : ReturnedBy b ops i m q) (h' : ReturnedBy b ops i' m q) : i = i' := by
  rcases lt_trichotomy i i' with hlt | heq | hgt
  · exact absurd h'.stored (h.last i' hlt h'.earlier)
  · exact heq
  · exact absurd h.stored (h'.last i hgt h.earlier)

/-- What a `pop` returns was pushed in the run, and is taken out by this `pop`. -/
theorem exists_returned (hb : b.WellKeyed) (hempty : b.pendingCount = 0)
    (hop : ops[m]? = some .pop) (hpop : (before b ops m).pop.1 = some pkt) :
    ∃ i, ops[i]? = some (.push pkt) ∧ Fate b ops i pkt (.removed m .returned) := by
  obtain ⟨hlookup, hgone⟩ := (wellKeyed_before hb m).of_pop hpop
  obtain ⟨i, him, hpush, -, hkept⟩ :=
    exists_kept hempty (List.getElem?_eq_some_iff.1 hop).1.le hlookup
  refine ⟨i, hpush, hkept, him.le, ?_, .pop, hop, rfl, hpop⟩
  rw [before_succ hop]
  exact hgone

theorem Fate.returnedBy (hpush : ops[i]? = some (.push pkt))
    (h : Fate b ops i pkt (.removed m .returned)) : ReturnedBy b ops i m pkt.seq := by
  obtain ⟨hkept, him, -, op, hop, rfl, hpop⟩ := h
  have hne : i ≠ m := by
    rintro rfl
    cases hpush.symm.trans hop
  exact
    { pops := hop
      returns := ⟨pkt, hpop, rfl⟩
      earlier := by omega
      stored := ⟨pkt, hpush, rfl, hkept.1⟩
      last := fun k hik hkm => hkept.last hik hkm }

/-- A `pop` that returns what `i` stored takes it out. -/
theorem ReturnedBy.fate (hb : b.WellKeyed) (hempty : b.pendingCount = 0)
    (hpush : ops[i]? = some (.push pkt)) (h : ReturnedBy b ops i m pkt.seq) :
    Fate b ops i pkt (.removed m .returned) := by
  obtain ⟨p, hpop, hseq⟩ := h.returns
  obtain ⟨i', hpush', hfate⟩ := exists_returned hb hempty h.pops hpop
  obtain rfl : i = i' := h.eq (hseq ▸ hfate.returnedBy hpush')
  cases hpush.symm.trans hpush'
  exact hfate

theorem Fate.inState (hb : b.WellKeyed) (hempty : b.pendingCount = 0)
    (hpush : ops[i]? = some (.push pkt)) {s : PacketState} (h : Fate b ops i pkt s) :
    InState b ops i pkt s where
  fate := h
  returned m := by
    constructor
    · intro hret
      exact h.unique (hret.fate hb hempty hpush)
    · rintro rfl
      exact h.returnedBy hpush

end states

/-- After every run the buffer is within its bounds and every packet is stored under its own number.
Every packet that the run pushed is in exactly one state; every packet that a `pop` of the run
returned was pushed, by exactly one push; and the next `pop` returns the packet at `head`, if the
buffer is started and holds one. -/
theorem packets_conserved (jitterMinPackets : ℕ) (ops : List JitterOp)
    (hops : ∀ op ∈ ops, ValidOp op) :
    (runOps (new jitterMinPackets) ops).Bounded ∧ (runOps (new jitterMinPackets) ops).WellKeyed ∧
      (∀ i pkt, ops[i]? = some (.push pkt) → ∃! s, InState (new jitterMinPackets) ops i pkt s) ∧
      (∀ m pkt, ops[m]? = some .pop → (before (new jitterMinPackets) ops m).pop.1 = some pkt →
        ∃! i, ops[i]? = some (.push pkt) ∧
          InState (new jitterMinPackets) ops i pkt (.removed m .returned)) ∧
      ∀ pkt, (runOps (new jitterMinPackets) ops).started = true →
        (runOps (new jitterMinPackets) ops).packets.lookup
          (runOps (new jitterMinPackets) ops).head = some pkt →
        (runOps (new jitterMinPackets) ops).pop.1 = some pkt := by
  have hkeyed : (new jitterMinPackets).WellKeyed := AllBuffered.new _
  have hempty : (new jitterMinPackets).pendingCount = 0 := rfl
  refine ⟨?_, ?_, fun i pkt hpush => ?_, fun m pkt hop hpop => ?_, fun pkt hs hpkt => ?_⟩
  · exact invariant_along (C := fun _ op => ValidOp op) (fun _ _ h hop => h.apply hop)
      (bounded_new jitterMinPackets) fun pre op post heq => hops op (by simp [heq])
  · exact invariant (I := WellKeyed) (fun _ op h => h.apply op) hkeyed ops
  · obtain ⟨s, hs⟩ := exists_fate (b := new jitterMinPackets) hpush
    exact ⟨s, hs.inState hkeyed hempty hpush, fun _ hs' => hs'.fate.unique hs⟩
  · obtain ⟨i, hpush, hfate⟩ := exists_returned hkeyed hempty hop hpop
    refine ⟨i, ⟨hpush, hfate.inState hkeyed hempty hpush⟩, ?_⟩
    rintro i' ⟨hpush', hstate⟩
    exact (hstate.fate.returnedBy hpush').eq (hfate.returnedBy hpush)
  · have hslot : (runOps (new jitterMinPackets) ops).slot =
        some (runOps (new jitterMinPackets) ops).head :=
      if_pos ⟨hs, Finmap.mem_iff.2 ⟨pkt, hpkt⟩⟩
    obtain ⟨p, hp, hpop⟩ := pop_of_slot hslot
    obtain rfl : p = pkt := Option.some.inj (hp.symm.trans hpkt)
    rw [hpop]

/-- The packet 5 is played, the second packet 6 is a duplicate, and a reset discards the first: each
has one state, and the `pop` returned what the first push stored. -/
theorem packets_conserved_reset :
    (∃! s, InState (new 1) [.push (samplePacket 5), .pop, .push (samplePacket 6),
      .push (samplePacket 6), .reset] 2 (samplePacket 6) s) ∧
    ∃! i, [JitterOp.push (samplePacket 5), .pop, .push (samplePacket 6), .push (samplePacket 6),
      .reset][i]? = some (.push (samplePacket 5)) ∧
        InState (new 1) [.push (samplePacket 5), .pop, .push (samplePacket 6),
          .push (samplePacket 6), .reset] i (samplePacket 5) (.removed 1 .returned) := by
  have h := packets_conserved 1 [.push (samplePacket 5), .pop, .push (samplePacket 6),
    .push (samplePacket 6), .reset] (by simp [ValidOp])
  exact ⟨h.2.2.1 2 _ rfl, h.2.2.2.1 1 _ rfl (by decide)⟩

end SpeakerJitterBuffer

end OWalkie
