import Mathlib.Data.Int.Interval
import Mathlib.Tactic
import OWalkie.Clients.SignalPcm
import OWalkie.Lib.Loop

/-!
# The two WAV loaders

`ParseWavPcm` of Windows and `loadWavPcmFromRaw` of Android walk over the chunks of a file to its
data. `wav_loaders`: the first always ends, the second one unless the sizes of the chunks lead it
back to a chunk; neither reads a byte beside the file, and samples that they return are those of the
data chunk.
-/

namespace OWalkie

open Loop Signal

/-- Bytes of the file that are read at once. -/
structure Window where
  start : ℤ
  count : ℤ

def Window.Inside (w : Window) (size : ℕ) : Prop := 0 ≤ w.start ∧ w.start + w.count ≤ size

instance (w : Window) (size : ℕ) : Decidable (w.Inside size) :=
  inferInstanceAs (Decidable (_ ∧ _))

namespace Wav

variable (bytes : List UInt8)

/-- Those bytes. -/
def slice (w : Window) : List UInt8 := (bytes.drop w.start.toNat).take w.count.toNat

/-- The number with the bytes, the least significant one first. -/
def little : List UInt8 → ℕ
  | [] => 0
  | b :: bs => b.toNat + 256 * little bs

/-- `ReadLeI32`, and `ByteBuffer.int`. -/
def readI32 (start : ℤ) : ℤ := toInt (little (slice bytes ⟨start, 4⟩))

/-- `ReadLeI16`, and `ByteBuffer.short`. -/
def readI16 (start : ℤ) : Int16 := .ofNat (little (slice bytes ⟨start, 2⟩))

/-- The four bytes are this text. -/
def Tagged (start : ℤ) (tag : String) : Prop :=
  slice bytes ⟨start, 4⟩ = tag.toList.map fun c => UInt8.ofNat c.toNat

instance (start : ℤ) (tag : String) : Decidable (Tagged bytes start tag) :=
  inferInstanceAs (Decidable (_ = _))

end Wav

structure WavPcm where
  samples : List Int16
  sampleRate : ℤ

/-- What a loader returns, with the bytes that it has read. -/
structure LoadedWav where
  wav : WavPcm
  reads : List Window

open Wav

/-! ## Windows -/

namespace WindowsWav

/-- The variables of the loop. -/
structure Vars where
  offset : ℕ := 12
  sampleRate : ℤ := 0
  channels : ℤ := 0
  bits : ℤ := 0
  dataStart : ℕ := 0
  dataSize : ℕ := 0
  reads : List Window

/-- The loop is left by `return {}`, or behind it the function goes on. -/
inductive Left where
  | returned (reads : List Window)
  | went (v : Vars)

variable (bytes : List UInt8)

def chunkBody (v : Vars) : Vars ⊕ Left :=
  if ¬ v.offset + 8 ≤ bytes.length then .inr (.went v)
  else
    let chunkSize := readI32 bytes (v.offset + 4)
    let payloadStart := v.offset + 8
    let reads := v.reads ++ [⟨v.offset + 4, 4⟩]
    if chunkSize < 0 ∨ bytes.length < payloadStart + chunkSize.toNat then
      .inr (.went { v with reads := reads })
    else
      let reads := reads ++ [⟨v.offset, 4⟩]
      let offset := payloadStart + chunkSize.toNat + chunkSize.toNat % 2
      if Tagged bytes v.offset "fmt " ∧ 16 ≤ chunkSize then
        let reads := reads ++ [⟨payloadStart, 2⟩, ⟨payloadStart + 2, 2⟩, ⟨payloadStart + 4, 4⟩,
          ⟨payloadStart + 14, 2⟩]
        if (readI16 bytes payloadStart).toInt ≠ 1 then .inr (.returned reads)
        else
          .inl { v with
            offset := offset
            channels := (readI16 bytes (payloadStart + 2)).toInt
            sampleRate := readI32 bytes (payloadStart + 4)
            bits := (readI16 bytes (payloadStart + 14)).toInt
            reads := reads }
      else if Tagged bytes v.offset "data" then
        .inr (.went { v with
          dataStart := payloadStart
          dataSize := chunkSize.toNat
          reads := reads })
      else .inl { v with offset := offset, reads := reads }

/-- The loop over the samples, with its index. -/
def sampleBody (dataStart dataSize : ℕ) (st : ℕ × LoadedWav) : (ℕ × LoadedWav) ⊕ LoadedWav :=
  let (i, out) := st
  if i + 1 < dataSize then
    .inl (i + 2,
      { wav := { out.wav with samples := out.wav.samples ++ [readI16 bytes (dataStart + i)] }
        reads := out.reads ++ [⟨dataStart + i, 2⟩] })
  else .inr out

/-- `return {}` -/
def nothing (reads : List Window) : LoadedWav := ⟨⟨[], 0⟩, reads⟩

/-- With at most `rounds` rounds of each loop. -/
def ParseWavPcm (rounds : ℕ) : Option LoadedWav :=
  if bytes.length < 44 then some (nothing [])
  else if ¬ Tagged bytes 0 "RIFF" then some (nothing [⟨0, 4⟩])
  else if ¬ Tagged bytes 8 "WAVE" then some (nothing [⟨0, 4⟩, ⟨8, 4⟩])
  else
    match run (chunkBody bytes) rounds { reads := [⟨0, 4⟩, ⟨8, 4⟩] } with
    | none => none
    | some (.returned reads) => some (nothing reads)
    | some (.went v) =>
      if v.sampleRate ≤ 0 ∨ v.channels ≠ 1 ∨ v.bits ≠ 16 ∨ v.dataSize < 2 ∨
          bytes.length < v.dataStart + v.dataSize then
        some (nothing v.reads)
      else
        run (sampleBody bytes v.dataStart v.dataSize) rounds (0, ⟨⟨[], v.sampleRate⟩, v.reads⟩)

end WindowsWav

/-! ## Android -/

namespace AndroidWav

def DEFAULT_SAMPLE_RATE : ℤ := 8000

structure Vars where
  offset : ℤ := 12
  srcRate : ℤ := DEFAULT_SAMPLE_RATE
  reads : List Window

/-- How the loop is left; an exception is caught around it. -/
inductive Left where
  | ended (v : Vars)
  | found (dataStart dataSize : ℤ) (v : Vars)
  | threw (reads : List Window)

variable (bytes : List UInt8)

def chunkBody (v : Vars) : Vars ⊕ Left :=
  if ¬ toInt (v.offset + 8) ≤ bytes.length then .inr (.ended v)
  else if ¬ Window.Inside ⟨v.offset, 4⟩ bytes.length then .inr (.threw v.reads)
  else
    let reads := v.reads ++ [⟨v.offset, 4⟩]
    let sizeAt := toInt (v.offset + 4)
    if ¬ Window.Inside ⟨sizeAt, 4⟩ bytes.length then .inr (.threw reads)
    else
      let reads := reads ++ [⟨sizeAt, 4⟩]
      let chunkSize := readI32 bytes sizeAt
      let payloadStart := toInt (v.offset + 8)
      let next := toInt (toInt (payloadStart + chunkSize) + chunkSize % 2)
      if Tagged bytes v.offset "fmt " ∧ 16 ≤ chunkSize ∧
          toInt (payloadStart + 16) ≤ bytes.length then
        let rateAt := toInt (payloadStart + 4)
        if ¬ Window.Inside ⟨rateAt, 4⟩ bytes.length then .inr (.threw reads)
        else
          .inl
            { offset := next
              srcRate := readI32 bytes rateAt
              reads := reads ++ [⟨rateAt, 4⟩] }
      else if Tagged bytes v.offset "data" then
        .inr (.found payloadStart chunkSize { v with reads := reads })
      else .inl { v with offset := next, reads := reads }

/-- The loop over the samples, for that many more of them; `none` is an exception. -/
def copySamples : ℕ → ℤ → List Window → Option (List Int16) × List Window
  | 0, _, reads => (some [], reads)
  | n + 1, p, reads =>
    if ¬ Window.Inside ⟨p, 2⟩ bytes.length then (none, reads)
    else
      let (out, reads) := copySamples n (toInt (p + 2)) (reads ++ [⟨p, 2⟩])
      (out.map (readI16 bytes p :: ·), reads)

/-- `WavPcm(shortArrayOf(), DEFAULT_SAMPLE_RATE)` -/
def nothing (reads : List Window) : LoadedWav := ⟨⟨[], DEFAULT_SAMPLE_RATE⟩, reads⟩

/-- With at most `rounds` rounds of the loop; `allocates` tells the lengths for which there is
memory. -/
def loadWavPcmFromRaw (allocates : ℤ → Bool) (rounds : ℕ) : Option LoadedWav :=
  if bytes.length < 44 then some (nothing [])
  else if ¬ Tagged bytes 0 "RIFF" then some (nothing [⟨0, 4⟩])
  else if ¬ Tagged bytes 8 "WAVE" then some (nothing [⟨0, 4⟩, ⟨8, 4⟩])
  else
    match run (chunkBody bytes) rounds { reads := [⟨0, 4⟩, ⟨8, 4⟩] } with
    | none => none
    | some (.ended v) => some (nothing v.reads)
    | some (.threw reads) => some (nothing reads)
    | some (.found dataStart dataSize v) =>
      if dataStart < 0 ∨ dataSize ≤ 0 ∨ bytes.length < toInt (dataStart + dataSize) then
        some (nothing v.reads)
      else
        let sampleCount := dataSize.tdiv 2
        if allocates sampleCount = false then some (nothing v.reads)
        else
          match copySamples bytes sampleCount.toNat dataStart v.reads with
          | (none, reads) => some (nothing reads)
          | (some out, reads) =>
            let safeRate :=
              if 4000 ≤ v.srcRate ∧ v.srcRate ≤ 192000 then v.srcRate else DEFAULT_SAMPLE_RATE
            some ⟨⟨out, safeRate⟩, reads⟩

end AndroidWav

/-! ## What the loaders promise -/

def AllInside (size : ℕ) (reads : List Window) : Prop := ∀ w ∈ reads, w.Inside size

/-- A chunk, reached from the first one by the sizes without passing the data; `wrap` is what the
arithmetic of the loader does with a place. -/
inductive ChunkAt (wrap : ℤ → ℤ) (bytes : List UInt8) : ℤ → Prop
  | first : ChunkAt wrap bytes 12
  | next {offset : ℤ} (h : ChunkAt wrap bytes offset) (hdata : ¬ Tagged bytes offset "data") :
      ChunkAt wrap bytes
        (wrap (offset + 8 + readI32 bytes (offset + 4) + readI32 bytes (offset + 4) % 2))

/-- The samples are those of the data chunk, which has an even number of bytes for them in the file.
-/
def FromDataChunk (wrap : ℤ → ℤ) (bytes : List UInt8) (samples : List Int16) : Prop :=
  ∃ header size : ℕ, ChunkAt wrap bytes header ∧ Tagged bytes header "data" ∧
    readI32 bytes (header + 4) = size ∧ header + 8 + 2 * (size / 2) ≤ bytes.length ∧
    samples = (List.range (size / 2)).map fun i : ℕ => readI16 bytes (header + 8 + 2 * i)

structure Sound (wrap : ℤ → ℤ) (bytes : List UInt8) (out : LoadedWav) : Prop where
  reads : AllInside bytes.length out.reads
  samples : out.wav.samples ≠ [] → FromDataChunk wrap bytes out.wav.samples

variable {bytes : List UInt8} {reads reads' : List Window}

theorem AllInside.append (h : AllInside bytes.length reads) (h' : AllInside bytes.length reads') :
    AllInside bytes.length (reads ++ reads') :=
  List.forall_mem_append.2 ⟨h, h'⟩

theorem allInside_nil : AllInside bytes.length [] := fun _ hw => absurd hw List.not_mem_nil

theorem allInside_singleton {w : Window} (h : w.Inside bytes.length) :
    AllInside bytes.length [w] := List.forall_mem_singleton.2 h

theorem sound_nothing {wrap : ℤ → ℤ} (h : AllInside bytes.length reads) (sampleRate : ℤ) :
    Sound wrap bytes ⟨⟨[], sampleRate⟩, reads⟩ :=
  ⟨h, fun hne => absurd rfl hne⟩

/-- Every second place from `p` on. -/
theorem map_range_succ {β : Type} (f : ℤ → β) (p : ℤ) (k : ℕ) :
    ((List.range (k + 1)).map fun j : ℕ => f (p + 2 * j)) =
      f p :: (List.range k).map fun j : ℕ => f (p + 2 + 2 * j) := by
  rw [List.range_succ_eq_map, List.map_cons, List.map_map, Nat.cast_zero, mul_zero, add_zero]
  congr 1
  apply List.map_congr_left
  intro j _
  rw [Function.comp_apply, Nat.cast_succ, mul_add, mul_one, add_comm (2 * (j : ℤ)), add_assoc]

theorem allInside_riff (h : 44 ≤ bytes.length) : AllInside bytes.length [⟨0, 4⟩, ⟨8, 4⟩] :=
  List.forall_mem_cons.2 ⟨⟨le_rfl, by dsimp only; omega⟩,
    allInside_singleton ⟨by decide, by dsimp only; omega⟩⟩

/-- The loaders go on behind these checks. -/
def IsRiff (bytes : List UInt8) : Prop :=
  44 ≤ bytes.length ∧ Tagged bytes 0 "RIFF" ∧ Tagged bytes 8 "WAVE"

section checks

variable {nothing : List Window → LoadedWav} {rest r : Option LoadedWav}

theorem eq_of_riff (h : IsRiff bytes)
    (hr : (if bytes.length < 44 then some (nothing [])
      else if ¬ Tagged bytes 0 "RIFF" then some (nothing [⟨0, 4⟩])
      else if ¬ Tagged bytes 8 "WAVE" then some (nothing [⟨0, 4⟩, ⟨8, 4⟩])
      else rest) = r) : r = rest := by
  rw [if_neg (not_lt.2 h.1), if_neg (not_not.2 h.2.1), if_neg (not_not.2 h.2.2)] at hr
  exact hr.symm

theorem eq_of_not_riff (h : ¬ IsRiff bytes)
    (hr : (if bytes.length < 44 then some (nothing [])
      else if ¬ Tagged bytes 0 "RIFF" then some (nothing [⟨0, 4⟩])
      else if ¬ Tagged bytes 8 "WAVE" then some (nothing [⟨0, 4⟩, ⟨8, 4⟩])
      else rest) = r) : ∃ reads, r = some (nothing reads) ∧ AllInside bytes.length reads := by
  by_cases hshort : bytes.length < 44
  · rw [if_pos hshort] at hr
    exact ⟨[], hr.symm, allInside_nil⟩
  rw [if_neg hshort] at hr
  have hread := List.forall_mem_cons.1 (allInside_riff (not_lt.1 hshort))
  by_cases hfirst : Tagged bytes 0 "RIFF"
  · rw [if_neg (not_not.2 hfirst),
      if_pos fun hsecond => h ⟨not_lt.1 hshort, hfirst, hsecond⟩] at hr
    exact ⟨_, hr.symm, List.forall_mem_cons.2 hread⟩
  · rw [if_pos hfirst] at hr
    exact ⟨_, hr.symm, allInside_singleton hread.1⟩

end checks

/-- A chunk is not both. -/
theorem not_data_of_fmt {offset : ℤ} (h : Tagged bytes offset "fmt ") :
    ¬ Tagged bytes offset "data" := by
  intro hdata
  rw [Tagged] at h hdata
  exact absurd (h.symm.trans hdata) (by decide)

/-! ## Windows ends -/

namespace WindowsWav

variable {v v' : Vars} {left : Left}

theorem allInside_header {offset : ℕ} (h : offset + 8 ≤ bytes.length)
    (hreads : AllInside bytes.length reads) :
    AllInside bytes.length (reads ++ [⟨offset + 4, 4⟩]) ∧
      AllInside bytes.length (reads ++ [⟨offset + 4, 4⟩] ++ [⟨offset, 4⟩]) := by
  have hsize := hreads.append (allInside_singleton (w := ⟨offset + 4, 4⟩)
    ⟨by dsimp only; omega, by dsimp only; omega⟩)
  exact ⟨hsize, hsize.append (allInside_singleton ⟨by dsimp only; omega, by dsimp only; omega⟩)⟩

theorem allInside_fmt {start : ℕ} (h : start + 16 ≤ bytes.length) :
    AllInside bytes.length [⟨start, 2⟩, ⟨start + 2, 2⟩, ⟨start + 4, 4⟩, ⟨start + 14, 2⟩] := by
  simp only [AllInside, List.forall_mem_cons, Window.Inside]
  refine ⟨?_, ?_, ?_, ?_, List.forall_mem_nil _⟩ <;> omega

/-- What holds of the variables in the loop. -/
structure Walking (bytes : List UInt8) (v : Vars) : Prop where
  reads : AllInside bytes.length v.reads
  chunk : ChunkAt id bytes v.offset
  dataSize : v.dataSize = 0

/-- What holds of them when it is left. -/
def LeftWell (bytes : List UInt8) : Left → Prop
  | .returned reads => AllInside bytes.length reads
  | .went v => AllInside bytes.length v.reads ∧ (v.dataSize = 0 ∨
      ∃ header : ℕ, v.dataStart = header + 8 ∧ ChunkAt id bytes header ∧
        Tagged bytes header "data" ∧ readI32 bytes (header + 4) = v.dataSize)

/-- The chunk behind one that is not the data. -/
theorem chunkAt_behind {offset : ℕ} {chunkSize : ℤ} (h : ChunkAt id bytes offset)
    (hdata : ¬ Tagged bytes offset "data") (hchunk : readI32 bytes (offset + 4) = chunkSize)
    (hpos : 0 ≤ chunkSize) :
    ChunkAt id bytes (offset + 8 + chunkSize.toNat + chunkSize.toNat % 2 : ℕ) := by
  have heq : ((offset + 8 + chunkSize.toNat + chunkSize.toNat % 2 : ℕ) : ℤ) =
      offset + 8 + chunkSize + chunkSize % 2 := by omega
  have hnext := h.next hdata
  rw [hchunk, id_eq] at hnext
  rw [heq]
  exact hnext

/-- One round of the loop: the next one starts behind the chunk, or the loop is left. -/
theorem chunkBody_cases (bytes : List UInt8) (v : Vars) :
    (∃ v', chunkBody bytes v = .inl v' ∧ v.offset + 8 ≤ bytes.length ∧
        v.offset + 8 ≤ v'.offset ∧ (Walking bytes v → Walking bytes v')) ∨
      ∃ left, chunkBody bytes v = .inr left ∧ (Walking bytes v → LeftWell bytes left) := by
  rw [chunkBody]
  dsimp only
  by_cases hoffset : v.offset + 8 ≤ bytes.length
  swap
  · rw [if_pos hoffset]
    exact .inr ⟨_, rfl, fun hw => ⟨hw.reads, .inl hw.dataSize⟩⟩
  rw [if_neg (not_not.2 hoffset)]
  generalize hchunk : readI32 bytes (v.offset + 4) = chunkSize
  by_cases hsize : chunkSize < 0 ∨ bytes.length < v.offset + 8 + chunkSize.toNat
  · rw [if_pos hsize]
    exact .inr ⟨_, rfl, fun hw => ⟨(allInside_header hoffset hw.reads).1, .inl hw.dataSize⟩⟩
  rw [if_neg hsize]
  rw [not_or, not_lt, not_lt] at hsize
  obtain ⟨hpos, hfits⟩ := hsize
  have hheader (hw : Walking bytes v) := (allInside_header hoffset hw.reads).2
  by_cases hfmt : Tagged bytes v.offset "fmt " ∧ 16 ≤ chunkSize
  · have hfields := allInside_fmt (show v.offset + 8 + 16 ≤ bytes.length by omega)
    rw [if_pos hfmt]
    by_cases hpcm : (readI16 bytes (v.offset + 8 : ℕ)).toInt ≠ 1
    · rw [if_pos hpcm]
      exact .inr ⟨_, rfl, fun hw => (hheader hw).append hfields⟩
    · rw [if_neg hpcm]
      exact .inl ⟨_, rfl, hoffset, by dsimp only; omega, fun hw => ⟨(hheader hw).append hfields,
        chunkAt_behind hw.chunk (not_data_of_fmt hfmt.1) hchunk hpos, hw.dataSize⟩⟩
  rw [if_neg hfmt]
  by_cases htag : Tagged bytes v.offset "data"
  · rw [if_pos htag]
    exact .inr ⟨_, rfl, fun hw => ⟨hheader hw, .inr
      ⟨v.offset, rfl, hw.chunk, htag, hchunk.trans (Int.toNat_of_nonneg hpos).symm⟩⟩⟩
  · rw [if_neg htag]
    exact .inl ⟨_, rfl, hoffset, by dsimp only; omega, fun hw =>
      ⟨hheader hw, chunkAt_behind hw.chunk htag hchunk hpos, hw.dataSize⟩⟩

theorem chunkBody_inl (h : chunkBody bytes v = .inl v') :
    v.offset + 8 ≤ bytes.length ∧ v.offset + 8 ≤ v'.offset ∧
      (Walking bytes v → Walking bytes v') := by
  rcases chunkBody_cases bytes v with ⟨v₁, hbody, hround⟩ | ⟨left, hbody, -⟩
  · obtain rfl := Sum.inl.inj (hbody.symm.trans h)
    exact hround
  · cases hbody.symm.trans h

theorem chunkBody_inr (h : chunkBody bytes v = .inr left) (hw : Walking bytes v) :
    LeftWell bytes left := by
  rcases chunkBody_cases bytes v with ⟨v₁, hbody, -⟩ | ⟨left₁, hbody, hwell⟩
  · cases hbody.symm.trans h
  · obtain rfl := Sum.inr.inj (hbody.symm.trans h)
    exact hwell hw

/-- Every round starts further behind. -/
theorem run_chunkBody (bytes : List UInt8) (hreads : AllInside bytes.length reads) :
    ∃ left, run (chunkBody bytes) (bytes.length + 1) { reads := reads } = some left ∧
      LeftWell bytes left := by
  have hmeasure : ∀ v v' : Vars, chunkBody bytes v = .inl v' →
      bytes.length - v'.offset < bytes.length - v.offset := by
    intro v v' hbody
    obtain ⟨hinside, hbehind, -⟩ := chunkBody_inl hbody
    omega
  obtain ⟨left, hrun⟩ := run_of_measure (s := { reads := reads }) (n := bytes.length + 1)
    (fun v : Vars => bytes.length - v.offset) hmeasure (Nat.lt_succ_of_le (Nat.sub_le _ _))
  refine ⟨left, hrun, ?_⟩
  exact run_invariant (fun v v' hw hbody => (chunkBody_inl hbody).2.2 hw)
    (fun v left hw hbody => chunkBody_inr hbody hw) ⟨hreads, .first, rfl⟩ hrun

/-- The loop over the samples, with `k` samples before it. -/
theorem run_sampleBody (bytes : List UInt8) {dataStart dataSize : ℕ} (k : ℕ) {i n : ℕ}
    (out : LoadedWav) (hsize : dataSize = i + 2 * k ∨ dataSize = i + 2 * k + 1) (hn : k < n) :
    run (sampleBody bytes dataStart dataSize) n (i, out) =
      some ⟨⟨out.wav.samples ++
          (List.range k).map fun j : ℕ => readI16 bytes ((dataStart + i : ℕ) + 2 * j),
        out.wav.sampleRate⟩,
          out.reads ++ (List.range k).map fun j : ℕ => ⟨(dataStart + i : ℕ) + 2 * j, 2⟩⟩ := by
  obtain ⟨n, rfl⟩ := Nat.exists_eq_succ_of_ne_zero (Nat.ne_zero_of_lt hn)
  induction k generalizing i n out with
  | zero =>
    have hlast : ¬ i + 1 < dataSize := by omega
    rw [run_succ_inr (r := out) (by rw [sampleBody, if_neg hlast])]
    simp
  | succ k ih =>
    have hmore : i + 1 < dataSize := by omega
    obtain ⟨n, rfl⟩ := Nat.exists_eq_succ_of_ne_zero (show n ≠ 0 by omega)
    have hbody : sampleBody bytes dataStart dataSize (i, out) = .inl (i + 2,
        { wav := { out.wav with samples := out.wav.samples ++ [readI16 bytes (dataStart + i)] }
          reads := out.reads ++ [⟨dataStart + i, 2⟩] }) := by
      rw [sampleBody, if_pos hmore]
    have hnext : ((dataStart + (i + 2) : ℕ) : ℤ) = (dataStart + i : ℕ) + 2 := by
      push_cast
      ring
    rw [run_succ_inl hbody, ih _ (by omega) n (by omega), hnext, map_range_succ (readI16 bytes),
      map_range_succ (fun p => (⟨p, 2⟩ : Window)), Nat.cast_add]
    simp only [List.append_assoc, List.singleton_append]

/-- The loader of Windows ends, within as many rounds as the file has bytes. -/
theorem parseWavPcm_sound (bytes : List UInt8) :
    ∃ out, ParseWavPcm bytes (bytes.length + 1) = some out ∧ Sound id bytes out := by
  by_cases hriff : IsRiff bytes
  swap
  · obtain ⟨reads, heq, hreads⟩ := eq_of_not_riff hriff (ParseWavPcm.eq_1 bytes _).symm
    exact ⟨_, heq, sound_nothing hreads 0⟩
  rw [eq_of_riff hriff (ParseWavPcm.eq_1 bytes _).symm]
  obtain ⟨left, hrun, hleft⟩ := run_chunkBody bytes (allInside_riff hriff.1)
  rw [hrun]
  cases left with
  | returned reads => exact ⟨_, rfl, sound_nothing hleft 0⟩
  | went v =>
    obtain ⟨hreads, hchunk⟩ := hleft
    dsimp only
    by_cases hbad : v.sampleRate ≤ 0 ∨ v.channels ≠ 1 ∨ v.bits ≠ 16 ∨ v.dataSize < 2 ∨
        bytes.length < v.dataStart + v.dataSize
    · rw [if_pos hbad]
      exact ⟨_, rfl, sound_nothing hreads 0⟩
    rw [if_neg hbad]
    have hsize : 2 ≤ v.dataSize := by omega
    have hfits : v.dataStart + v.dataSize ≤ bytes.length := by omega
    obtain ⟨header, hstart, hat, htag, hread⟩ := hchunk.resolve_left (by omega)
    rw [run_sampleBody bytes (v.dataSize / 2) _ (by omega) (by omega)]
    refine ⟨_, rfl, hreads.append fun w hw => ?_,
      fun _ => ⟨header, v.dataSize, hat, htag, hread, ?_, ?_⟩⟩
    · obtain ⟨j, hj, rfl⟩ := List.mem_map.1 hw
      rw [List.mem_range] at hj
      exact ⟨by dsimp only; omega, by dsimp only; omega⟩
    · omega
    · rw [hstart, add_zero, Nat.cast_add]
      rfl

end WindowsWav

/-! ## Android walks -/

/-- An `Int` beyond its range is negative. -/
theorem toInt_eq_of_nonneg {x : ℤ} (h : 0 ≤ x) (hlt : x < 2 ^ 32) (hpos : 0 ≤ toInt x) :
    toInt x = x := by
  rcases lt_or_ge x (2 ^ 31) with hfits | hbeyond
  · exact toInt_of_fits ⟨h, hfits⟩
  · have hwrapped : toInt x = x - 2 ^ 32 := by
      have hmod : toInt x = toInt (x - 2 ^ 32) := by
        show x.bmod (2 ^ 32) = (x - 2 ^ 32).bmod (2 ^ 32)
        exact (Int.sub_bmod_right x (2 ^ 32)).symm
      rw [hmod]
      apply Int.bmod_eq_of_le <;> omega
    omega

namespace AndroidWav

/-- The place of the chunk behind the one at `offset`: that one can be read, and is not the data. -/
def nextChunk (bytes : List UInt8) (offset : ℤ) : Option ℤ :=
  let sizeAt := toInt (offset + 4)
  let chunkSize := readI32 bytes sizeAt
  let payloadStart := toInt (offset + 8)
  if toInt (offset + 8) ≤ bytes.length ∧ Window.Inside ⟨offset, 4⟩ bytes.length ∧
      Window.Inside ⟨sizeAt, 4⟩ bytes.length ∧ ¬ Tagged bytes offset "data" ∧
      (Tagged bytes offset "fmt " ∧ 16 ≤ chunkSize ∧ toInt (payloadStart + 16) ≤ bytes.length →
        Window.Inside ⟨toInt (payloadStart + 4), 4⟩ bytes.length) then
    some (toInt (toInt (payloadStart + chunkSize) + chunkSize % 2))
  else none

variable {v v' : Vars} {left : Left}

/-- What holds of the variables in the loop. -/
structure Walking (bytes : List UInt8) (v : Vars) : Prop where
  reads : AllInside bytes.length v.reads
  offset_lt : v.offset < 2 ^ 31
  chunk : ChunkAt toInt bytes v.offset

/-- What holds of them when it is left. -/
def LeftWell (bytes : List UInt8) : Left → Prop
  | .ended v => AllInside bytes.length v.reads
  | .threw reads => AllInside bytes.length reads
  | .found dataStart dataSize v => AllInside bytes.length v.reads ∧ (0 ≤ dataStart →
      dataStart < 2 ^ 31 ∧ ∃ header : ℕ, dataStart = header + 8 ∧ ChunkAt toInt bytes header ∧
        Tagged bytes header "data" ∧ readI32 bytes (header + 4) = dataSize)

/-- A place that a chunk can begin at. -/
theorem header_eq {offset : ℤ} (hlt : offset < 2 ^ 31) (htag : Window.Inside ⟨offset, 4⟩ bytes.length)
    (hsize : Window.Inside ⟨toInt (offset + 4), 4⟩ bytes.length) :
    toInt (offset + 4) = offset + 4 := by
  have hpos : 0 ≤ offset := htag.1
  exact toInt_eq_of_nonneg (by omega) (by omega) hsize.1

/-- One round of the loop: it goes to the next chunk, or there is none. -/
theorem chunkBody_cases (bytes : List UInt8) (v : Vars) :
    (∃ v', chunkBody bytes v = .inl v' ∧ nextChunk bytes v.offset = some v'.offset ∧
        (AllInside bytes.length v.reads → AllInside bytes.length v'.reads)) ∨
      ∃ left, chunkBody bytes v = .inr left ∧ nextChunk bytes v.offset = none ∧
        (Walking bytes v → LeftWell bytes left) := by
  rw [chunkBody, nextChunk]
  dsimp only
  by_cases hoffset : toInt (v.offset + 8) ≤ bytes.length
  swap
  · rw [if_pos hoffset, if_neg fun h => hoffset h.1]
    exact .inr ⟨_, rfl, rfl, fun hw => hw.reads⟩
  rw [if_neg (not_not.2 hoffset)]
  by_cases htag : Window.Inside ⟨v.offset, 4⟩ bytes.length
  swap
  · rw [if_pos htag, if_neg fun h => htag h.2.1]
    exact .inr ⟨_, rfl, rfl, fun hw => hw.reads⟩
  rw [if_neg (not_not.2 htag)]
  have htagRead (hreads : AllInside bytes.length v.reads) :=
    hreads.append (allInside_singleton htag)
  by_cases hsize : Window.Inside ⟨toInt (v.offset + 4), 4⟩ bytes.length
  swap
  · rw [if_pos hsize, if_neg fun h => hsize h.2.2.1]
    exact .inr ⟨_, rfl, rfl, fun hw => htagRead hw.reads⟩
  rw [if_neg (not_not.2 hsize)]
  have hsizeRead (hreads : AllInside bytes.length v.reads) :=
    (htagRead hreads).append (allInside_singleton hsize)
  generalize hchunk : readI32 bytes (toInt (v.offset + 4)) = chunkSize
  by_cases hfmt : Tagged bytes v.offset "fmt " ∧ 16 ≤ chunkSize ∧
      toInt (toInt (v.offset + 8) + 16) ≤ bytes.length
  · rw [if_pos hfmt]
    by_cases hrate : Window.Inside ⟨toInt (toInt (v.offset + 8) + 4), 4⟩ bytes.length
    · rw [if_neg (not_not.2 hrate),
        if_pos ⟨hoffset, htag, hsize, not_data_of_fmt hfmt.1, fun _ => hrate⟩]
      exact .inl ⟨_, rfl, rfl, fun hreads => (hsizeRead hreads).append (allInside_singleton hrate)⟩
    · rw [if_pos hrate, if_neg fun h => hrate (h.2.2.2.2 hfmt)]
      exact .inr ⟨_, rfl, rfl, fun hw => hsizeRead hw.reads⟩
  rw [if_neg hfmt]
  by_cases hdata : Tagged bytes v.offset "data"
  · rw [if_pos hdata, if_neg fun h => h.2.2.2.1 hdata]
    refine .inr ⟨_, rfl, rfl, fun hw =>
      ⟨hsizeRead hw.reads, fun hstart => ⟨toInt_lt _, v.offset.toNat, ?_⟩⟩⟩
    have hpos : 0 ≤ v.offset := htag.1
    have hlt := hw.offset_lt
    have hheader := header_eq hlt htag hsize
    have heq := toInt_eq_of_nonneg (x := v.offset + 8) (by omega) (by omega) hstart
    rw [Int.toNat_of_nonneg hpos, ← hheader]
    exact ⟨heq, hw.chunk, hdata, hchunk⟩
  · rw [if_neg hdata, if_pos ⟨hoffset, htag, hsize, hdata, fun h => absurd h hfmt⟩]
    exact .inl ⟨_, rfl, rfl, hsizeRead⟩

theorem nextChunk_lt {a b : ℤ} (h : nextChunk bytes a = some b) : b < 2 ^ 31 := by
  rw [nextChunk] at h
  split_ifs at h
  exact Option.some.inj h ▸ toInt_lt _

/-- The chunks begin inside of the file. -/
theorem finite_nextChunk (bytes : List UInt8) : {a | (nextChunk bytes a).isSome}.Finite := by
  refine (Set.finite_Icc (0 : ℤ) bytes.length).subset fun a ha => ?_
  have hgoes : (nextChunk bytes a).isSome = true := ha
  rw [nextChunk] at hgoes
  split_ifs at hgoes with h
  · have htag : Window.Inside ⟨a, 4⟩ bytes.length := h.2.1
    exact ⟨htag.1, (le_add_of_nonneg_right (show (0 : ℤ) ≤ 4 by decide)).trans htag.2⟩
  · cases hgoes

theorem chunkAt_next {a b : ℤ} (h : nextChunk bytes a = some b) (hlt : a < 2 ^ 31)
    (ha : ChunkAt toInt bytes a) : ChunkAt toInt bytes b := by
  rw [nextChunk] at h
  split_ifs at h with hgoes
  obtain rfl := Option.some.inj h
  obtain ⟨-, htag, hsize, hdata, -⟩ := hgoes
  rw [header_eq hlt htag hsize, toInt_add, add_assoc, toInt_add, ← add_assoc]
  exact ha.next hdata

theorem chunkBody_inl (h : chunkBody bytes v = .inl v') :
    nextChunk bytes v.offset = some v'.offset ∧
      (AllInside bytes.length v.reads → AllInside bytes.length v'.reads) := by
  rcases chunkBody_cases bytes v with ⟨v₁, hbody, hround⟩ | ⟨left, hbody, -⟩
  · obtain rfl := Sum.inl.inj (hbody.symm.trans h)
    exact hround
  · cases hbody.symm.trans h

theorem chunkBody_inr (h : chunkBody bytes v = .inr left) :
    nextChunk bytes v.offset = none ∧ (Walking bytes v → LeftWell bytes left) := by
  rcases chunkBody_cases bytes v with ⟨v₁, hbody, -⟩ | ⟨left₁, hbody, hend⟩
  · cases hbody.symm.trans h
  · obtain rfl := Sum.inr.inj (hbody.symm.trans h)
    exact hend

/-- The loop ends exactly if the chunks do not lead back to one of them. -/
theorem run_chunkBody_iff (bytes : List UInt8) (v : Vars) :
    (∃ rounds left, run (chunkBody bytes) rounds v = some left) ↔
      NoReturn (nextChunk bytes) v.offset :=
  halts_iff_noReturn Vars.offset (fun _ _ h => (chunkBody_inl h).1)
    (fun _ _ h => (chunkBody_inr h).1) (finite_nextChunk bytes) v

theorem run_chunkBody_well {rounds : ℕ} (hreads : AllInside bytes.length reads)
    (h : run (chunkBody bytes) rounds { reads := reads } = some left) : LeftWell bytes left := by
  refine run_invariant (I := Walking bytes) (fun v v' hw hbody => ?_)
    (fun v left hw hbody => (chunkBody_inr hbody).2 hw)
    ⟨hreads, show (12 : ℤ) < 2 ^ 31 by decide, .first⟩ h
  obtain ⟨hnext, hinside⟩ := chunkBody_inl hbody
  exact ⟨hinside hw.reads, nextChunk_lt hnext, chunkAt_next hnext hw.offset_lt hw.chunk⟩

/-! ## The samples of Android -/

theorem copySamples_reads (n : ℕ) (p : ℤ) (hreads : AllInside bytes.length reads) :
    AllInside bytes.length (copySamples bytes n p reads).2 := by
  induction n generalizing p reads with
  | zero => exact hreads
  | succ n ih =>
    rw [copySamples]
    by_cases hinside : Window.Inside ⟨p, 2⟩ bytes.length
    · rw [if_neg (not_not.2 hinside)]
      exact ih _ (hreads.append (allInside_singleton hinside))
    · rw [if_pos hinside]
      exact hreads

/-- If no read fails, all samples are there. -/
theorem copySamples_some {n : ℕ} {p : ℤ} {out : List Int16} (hlt : p < 2 ^ 31)
    (h : (copySamples bytes (n + 1) p reads).1 = some out) :
    0 ≤ p ∧ p + 2 * (n + 1 : ℕ) ≤ bytes.length ∧
      out = (List.range (n + 1)).map fun j : ℕ => readI16 bytes (p + 2 * j) := by
  induction n generalizing p out reads with
  | zero =>
    rw [copySamples] at h
    by_cases hinside : Window.Inside ⟨p, 2⟩ bytes.length
    · rw [if_neg (not_not.2 hinside)] at h
      obtain rfl := Option.some.inj h
      rw [map_range_succ]
      exact ⟨hinside.1, hinside.2, rfl⟩
    · rw [if_pos hinside] at h
      cases h
  | succ n ih =>
    rw [copySamples] at h
    by_cases hinside : Window.Inside ⟨p, 2⟩ bytes.length
    · rw [if_neg (not_not.2 hinside)] at h
      obtain ⟨rest, hrest, rfl⟩ := Option.map_eq_some_iff.1 h
      obtain ⟨hpos, hend, rfl⟩ := ih (toInt_lt _) hrest
      have hp : 0 ≤ p := hinside.1
      have hnext : toInt (p + 2) = p + 2 := toInt_eq_of_nonneg (by omega) (by omega) hpos
      rw [hnext] at hend ⊢
      refine ⟨hp, by push_cast at hend ⊢; omega, ?_⟩
      rw [map_range_succ (readI16 bytes) p (n + 1)]
    · rw [if_pos hinside] at h
      cases h

/-- The samples are half as many as the bytes of the chunk. -/
theorem fromDataChunk_of_copied {header : ℕ} {dataStart dataSize : ℤ} {samples : List Int16}
    (hlt : dataStart < 2 ^ 31) (hstart : dataStart = header + 8) (hat : ChunkAt toInt bytes header)
    (htag : Tagged bytes header "data") (hread : readI32 bytes (header + 4) = dataSize)
    (hsize : 0 ≤ dataSize)
    (hcopy : (copySamples bytes (dataSize.tdiv 2).toNat dataStart reads).1 = some samples)
    (hne : samples ≠ []) : FromDataChunk toInt bytes samples := by
  have hcount : (dataSize.tdiv 2).toNat = dataSize.toNat / 2 := by
    rw [Int.tdiv_eq_ediv_of_nonneg hsize]
    omega
  rw [hcount] at hcopy
  cases hn : dataSize.toNat / 2 with
  | zero =>
    rw [hn] at hcopy
    exact absurd (Option.some.inj hcopy).symm hne
  | succ n =>
    rw [hn] at hcopy
    obtain ⟨-, hend, hsamples⟩ := copySamples_some hlt hcopy
    rw [hstart] at hend hsamples
    refine ⟨header, dataSize.toNat, hat, htag, hread.trans (Int.toNat_of_nonneg hsize).symm, ?_, ?_⟩
    · omega
    · rw [hn]
      exact hsamples

theorem loadWavPcmFromRaw_sound {allocates : ℤ → Bool} {rounds : ℕ} {out : LoadedWav}
    (h : loadWavPcmFromRaw bytes allocates rounds = some out) : Sound toInt bytes out := by
  by_cases hriff : IsRiff bytes
  swap
  · obtain ⟨reads, heq, hreads⟩ := eq_of_not_riff hriff (loadWavPcmFromRaw.eq_1 bytes allocates _).symm
    exact Option.some.inj (h.symm.trans heq) ▸ sound_nothing hreads _
  rw [eq_of_riff hriff (loadWavPcmFromRaw.eq_1 bytes allocates _).symm] at h
  cases hrun : run (chunkBody bytes) rounds { reads := [⟨0, 4⟩, ⟨8, 4⟩] } with
  | none =>
    rw [hrun] at h
    cases h
  | some left =>
    rw [hrun] at h
    have hleft := run_chunkBody_well (allInside_riff hriff.1) hrun
    cases left with
    | ended v => exact Option.some.inj h ▸ sound_nothing hleft _
    | threw reads => exact Option.some.inj h ▸ sound_nothing hleft _
    | found dataStart dataSize v =>
      obtain ⟨hreads, hchunk⟩ := hleft
      dsimp only at h
      by_cases hbad : dataStart < 0 ∨ dataSize ≤ 0 ∨ bytes.length < toInt (dataStart + dataSize)
      · rw [if_pos hbad] at h
        exact Option.some.inj h ▸ sound_nothing hreads _
      rw [if_neg hbad] at h
      by_cases hmemory : allocates (dataSize.tdiv 2) = false
      · rw [if_pos hmemory] at h
        exact Option.some.inj h ▸ sound_nothing hreads _
      rw [if_neg hmemory] at h
      have hcopied := copySamples_reads (dataSize.tdiv 2).toNat dataStart hreads
      cases hcopy : copySamples bytes (dataSize.tdiv 2).toNat dataStart v.reads with
      | mk out' reads' =>
        rw [hcopy] at h hcopied
        cases out' with
        | none => exact Option.some.inj h ▸ sound_nothing hcopied _
        | some samples =>
          obtain rfl := Option.some.inj h
          obtain ⟨hlt, header, hstart, hat, htag, hread⟩ := hchunk (by omega)
          exact ⟨hcopied, fromDataChunk_of_copied hlt hstart hat htag hread (by omega)
            (congrArg Prod.fst hcopy)⟩

end AndroidWav

/-! ## Both -/

namespace AndroidWav

/-- The loader of Android returns exactly if the walk over the chunks ends. -/
theorem loadWavPcmFromRaw_returns (bytes : List UInt8) (allocates : ℤ → Bool) :
    (∃ rounds out, loadWavPcmFromRaw bytes allocates rounds = some out) ↔
      (IsRiff bytes → NoReturn (nextChunk bytes) 12) := by
  by_cases hriff : IsRiff bytes
  swap
  · obtain ⟨reads, heq, -⟩ := eq_of_not_riff hriff (loadWavPcmFromRaw.eq_1 bytes allocates 0).symm
    exact iff_of_true ⟨0, _, heq⟩ fun h => absurd h hriff
  rw [imp_iff_right hriff]
  have hiff := run_chunkBody_iff bytes { reads := [⟨0, 4⟩, ⟨8, 4⟩] }
  refine Iff.trans (exists_congr fun rounds => ?_) hiff
  rw [eq_of_riff hriff (loadWavPcmFromRaw.eq_1 bytes allocates rounds).symm]
  cases run (chunkBody bytes) rounds { reads := [⟨0, 4⟩, ⟨8, 4⟩] } with
  | none => exact iff_of_false (fun ⟨_, h⟩ => by cases h) (fun ⟨_, h⟩ => by cases h)
  | some left =>
    refine iff_of_true ?_ ⟨left, rfl⟩
    cases left with
    | ended v => exact ⟨_, rfl⟩
    | threw reads => exact ⟨_, rfl⟩
    | found dataStart dataSize v =>
      dsimp only
      by_cases hbad : dataStart < 0 ∨ dataSize ≤ 0 ∨ bytes.length < toInt (dataStart + dataSize)
      · rw [if_pos hbad]
        exact ⟨_, rfl⟩
      rw [if_neg hbad]
      by_cases hmemory : allocates (dataSize.tdiv 2) = false
      · rw [if_pos hmemory]
        exact ⟨_, rfl⟩
      rw [if_neg hmemory]
      rcases copySamples bytes (dataSize.tdiv 2).toNat dataStart v.reads with ⟨_ | out, reads⟩
      · exact ⟨_, rfl⟩
      · exact ⟨_, rfl⟩

/-- The next chunk begins behind a chunk whose size is above -8, or nothing can be read there. -/
theorem lt_of_nextChunk {a b : ℤ} (hlen : bytes.length < 2 ^ 31) (h : nextChunk bytes a = some b)
    (hb : (nextChunk bytes b).isSome) (hsize : -8 < readI32 bytes (a + 4)) : a < b := by
  have hlt : readI32 bytes (a + 4) < 2 ^ 31 := toInt_lt _
  have hinside : 0 ≤ b := by
    rw [nextChunk] at hb
    split_ifs at hb with hgoes
    · exact hgoes.2.1.1
    · cases hb
  rw [nextChunk] at h
  split_ifs at h with hgoes
  obtain ⟨-, htag, hheader, -⟩ := hgoes
  have hpos : 0 ≤ a := htag.1
  have hend : a + 4 ≤ bytes.length := htag.2
  have heq := header_eq (by omega) htag hheader
  rw [heq] at hheader
  have hbehind : a + 4 + 4 ≤ bytes.length := hheader.2
  have hplace := Option.some.inj h
  rw [heq, toInt_add, add_assoc, toInt_add, ← add_assoc] at hplace
  rw [← hplace] at hinside
  have hexact := toInt_eq_of_nonneg (by omega) (by omega) hinside
  omega

/-- The loader of Android returns if no chunk that it passes has a size of -8 or less. -/
theorem loadWavPcmFromRaw_of_sizes (hlen : bytes.length < 2 ^ 31)
    (h : ∀ n offset, walk (nextChunk bytes) n 12 = some offset →
      (nextChunk bytes offset).isSome → -8 < readI32 bytes (offset + 4)) (allocates : ℤ → Bool) :
    ∃ rounds out, loadWavPcmFromRaw bytes allocates rounds = some out ∧ Sound toInt bytes out := by
  have hno : NoReturn (nextChunk bytes) 12 := noReturn_of_lt fun n a b ha hab hb =>
    lt_of_nextChunk hlen hab hb (h n a ha (by rw [hab]; rfl))
  obtain ⟨rounds, out, hout⟩ := (loadWavPcmFromRaw_returns bytes allocates).2 fun _ => hno
  exact ⟨rounds, out, hout, loadWavPcmFromRaw_sound hout⟩

end AndroidWav

/-- The loader of Windows always ends, that of Android unless a chunk leads back to one passed;
every byte read is one of the file, and the samples returned are all those of the data chunk. -/
theorem wav_loaders (bytes : List UInt8) (allocates : ℤ → Bool) :
    (∃ out, WindowsWav.ParseWavPcm bytes (bytes.length + 1) = some out ∧ Sound id bytes out) ∧
      ((∃ rounds out, AndroidWav.loadWavPcmFromRaw bytes allocates rounds = some out ∧
          Sound toInt bytes out) ↔
        (IsRiff bytes → NoReturn (AndroidWav.nextChunk bytes) 12)) := by
  refine ⟨WindowsWav.parseWavPcm_sound bytes, ?_⟩
  rw [← AndroidWav.loadWavPcmFromRaw_returns bytes allocates]
  constructor
  · rintro ⟨rounds, out, hout, -⟩
    exact ⟨rounds, out, hout⟩
  · rintro ⟨rounds, out, hout⟩
    exact ⟨rounds, out, hout, AndroidWav.loadWavPcmFromRaw_sound hout⟩

/-- A file whose first chunk has the size -8. -/
def backwardFile : List UInt8 :=
  [0x52, 0x49, 0x46, 0x46, 36, 0, 0, 0, 0x57, 0x41, 0x56, 0x45,
    0x4c, 0x49, 0x53, 0x54, 0xf8, 0xff, 0xff, 0xff] ++ List.replicate 24 0

/-- Its loop comes back to the place where it is. -/
theorem wav_backward :
    ¬ ∃ rounds out, AndroidWav.loadWavPcmFromRaw backwardFile (fun _ => true) rounds = some out := by
  have hstay : AndroidWav.nextChunk backwardFile 12 = some 12 := by decide
  rw [AndroidWav.loadWavPcmFromRaw_returns]
  intro h
  have hriff : IsRiff backwardFile := ⟨by decide, by decide, by decide⟩
  refine h hriff 0 1 Nat.zero_lt_one 12 rfl ?_
  rw [walk, hstay, Option.bind_some, walk]

end OWalkie
