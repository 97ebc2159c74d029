import Mathlib.Tactic
import Mathlib.Data.Rat.Defs

/-!
# Clock, packets and channel parameters

Instants and durations are integers in nanoseconds.  A `time.Time` field that may be the zero time
is an `Option`, with `none` for the zero time.  `ServerConfig.params` computes the durations that
`newChannelMixer` stores in a channel, together with the facts that every caller relies on.
-/

namespace OWalkie

/-! ## Clock -/

def millisecond : ℤ := 1000000

def second : ℤ := 1000000000

/-- The largest `time.Duration`, at which `Sub` saturates. -/
def maxDuration : ℤ := 2 ^ 63 - 1

/-- `now.Sub(t)`; for the zero time the difference saturates. -/
def sub (now : ℤ) : Option ℤ → ℤ
  | some t => now - t
  | none => maxDuration

@[simp] theorem sub_some (now t : ℤ) : sub now (some t) = now - t := rfl

/-- The value of a `uint32` expression. -/
def u32 (n : ℕ) : ℕ := n % 2 ^ 32

/-! ## Packets -/

/-- A session id, a `uint32`; `0` stands for nobody. -/
abbrev SessionID := ℕ

structure UDPAddr where
  ip : ℕ
  port : ℕ
  deriving DecidableEq, Repr

structure AudioPacket where
  sessionID : SessionID
  seq : ℕ
  signalStrength : UInt8
  opus : List UInt8
  srcAddr : UDPAddr
  deriving DecidableEq, Repr

/-! ## Messages to a client -/

/-- The WebSocket messages that the channel mixer sends. -/
inductive WsServerMessage where
  | rxBroadcastStart (busyMode : Bool)
  | rxBroadcastEnd (endDelayMs : ℤ)
  | pttLock (displaySec : ℤ)
  | pttUnlock
  | txStop (info : String)
  | txCountdownStart
  deriving DecidableEq, Repr

/-! ## Channel parameters -/

/-- The part of the `server` block that a channel reads. -/
structure ServerConfig where
  sampleRate : ℤ := 8000
  packetMs : ℤ := 20
  hangoverMs : ℤ := 180
  eofTimeoutMs : ℤ := 420
  concealDecay : ℚ := 9 / 10
  jitterMinPkts : ℤ := 3
  jitterAdaptEnabled : Bool := false
  jitterMaxPkts : ℤ := 0
  busyMode : Bool := false
  busyTimeoutSec : ℤ := 0
  transmitTimeoutSec : ℤ := 0

/-- The part of an enabled `modules.dsp.squelch` block that the mixer itself reads. -/
structure SquelchTail where
  tailMaxMs : ℤ
  synthSilenceTailPackets : ℤ
  deriving DecidableEq, Repr

def defaultSampleRate : ℤ := 8000

def defaultPacketMs : ℤ := 20

def jitterMaxPacketsLimit : ℤ := 24

def normalizePacketMs (ms : ℤ) : ℤ := if ms ≤ 0 then defaultPacketMs else ms

def normalizeSampleRate (rate : ℤ) : ℤ :=
  if rate ∈ [8000, 12000, 16000, 24000, 48000] then rate else defaultSampleRate

def normalizeJitterMinPackets (count : ℤ) : ℤ :=
  if count ≤ 0 then 3 else if 12 < count then 12 else count

def normalizeJitterMaxPackets (minPkts maxPkts : ℤ) : ℤ :=
  let maxPkts := if maxPkts < minPkts then minPkts else maxPkts
  if jitterMaxPacketsLimit < maxPkts then jitterMaxPacketsLimit else maxPkts

/-- What `newChannelMixer` and `applyAudioTiming` fix for the life of a channel. -/
structure MixerParams where
  packetDur : ℤ
  packetSamples : ℕ
  hangoverDur : ℤ
  eofTimeoutDur : ℤ
  concealDecay : ℚ
  jitterMinPackets : ℕ
  jitterMaxPackets : ℕ
  jitterAdaptEnabled : Bool
  busyMode : Bool
  busyTimeout : ℤ
  transmitTimeout : ℤ
  squelch : Option SquelchTail
  packetDur_pos : 0 < packetDur
  packetSamples_pos : 0 < packetSamples
  two_packetDur_le : 2 * packetDur ≤ hangoverDur
  hangoverDur_add_le : hangoverDur + packetDur ≤ eofTimeoutDur
  busyTimeout_nonneg : 0 ≤ busyTimeout
  transmitTimeout_nonneg : 0 ≤ transmitTimeout

theorem normalizePacketMs_pos (ms : ℤ) : 0 < normalizePacketMs ms := by
  unfold normalizePacketMs defaultPacketMs
  split <;> omega

theorem le_normalizeSampleRate (rate : ℤ) : 8000 ≤ normalizeSampleRate rate := by
  unfold normalizeSampleRate defaultSampleRate
  split_ifs with h
  · simp only [List.mem_cons, List.not_mem_nil, or_false] at h
    omega
  · exact le_rfl

theorem packetSamples_pos (rate ms : ℤ) :
    0 < (normalizeSampleRate rate * normalizePacketMs ms / 1000).toNat := by
  have hr := le_normalizeSampleRate rate
  have hm := normalizePacketMs_pos ms
  have h : 8000 * 1 ≤ normalizeSampleRate rate * normalizePacketMs ms :=
    mul_le_mul hr hm (by norm_num) (by omega)
  omega

/-- The parameters of a channel, as `newChannelMixer` computes them from the configuration. -/
def ServerConfig.params (cfg : ServerConfig) (squelch : Option SquelchTail) : MixerParams :=
  let packetMs := normalizePacketMs cfg.packetMs
  let hangoverMs := max cfg.hangoverMs (packetMs * 2)
  let eofTimeoutMs := max cfg.eofTimeoutMs (hangoverMs + packetMs)
  let jMin := normalizeJitterMinPackets cfg.jitterMinPkts
  let jMax := if cfg.jitterAdaptEnabled then
    normalizeJitterMaxPackets cfg.jitterMinPkts cfg.jitterMaxPkts else jMin
  { packetDur := packetMs * millisecond
    packetSamples := (normalizeSampleRate cfg.sampleRate * packetMs / 1000).toNat
    hangoverDur := hangoverMs * millisecond
    eofTimeoutDur := eofTimeoutMs * millisecond
    concealDecay := cfg.concealDecay
    jitterMinPackets := jMin.toNat
    jitterMaxPackets := jMax.toNat
    jitterAdaptEnabled := cfg.jitterAdaptEnabled
    busyMode := cfg.busyMode
    busyTimeout := max cfg.busyTimeoutSec 0 * second
    transmitTimeout := max cfg.transmitTimeoutSec 0 * second
    squelch := squelch
    packetDur_pos := by
      have := normalizePacketMs_pos cfg.packetMs
      simp only [millisecond, packetMs]
      omega
    packetSamples_pos := packetSamples_pos cfg.sampleRate cfg.packetMs
    two_packetDur_le := by
      have := le_max_right cfg.hangoverMs (packetMs * 2)
      simp only [millisecond, hangoverMs]
      omega
    hangoverDur_add_le := by
      have := le_max_right cfg.eofTimeoutMs (hangoverMs + packetMs)
      simp only [millisecond, eofTimeoutMs]
      omega
    busyTimeout_nonneg := by
      have := le_max_right cfg.busyTimeoutSec 0
      simp only [second]
      omega
    transmitTimeout_nonneg := by
      have := le_max_right cfg.transmitTimeoutSec 0
      simp only [second]
      omega }

/-- A busy-mode channel with the default timing. -/
def busyChannel : MixerParams := ServerConfig.params { busyMode := true } none

end OWalkie
