import OWalkie.Lib.Nlohmann
import OWalkie.Core.SessionManager
import OWalkie.Relay.ConfigLoad

/-!
# The welcome message

What `wsHandler` sends first and what `parseWelcome` makes of it.  Both sides normalize: the relay
when it loads its configuration and again when it sends, the client when it reads.  On an accepted
configuration (`accepted_server`) every normalizer of the client is the identity.
-/

namespace OWalkie

/-! ## The message of the relay -/

/-- `wsServerMessage` with the fields of a welcome; a field that is zero or nil is left out. -/
structure WsWelcome where
  sessionID : UInt32
  packetMs : ℤ
  sampleRate : ℤ
  opus : Option RelayConfig.OpusConfig
  protocolVersion : ℤ
  busyMode : Option Bool
  transmitTimeout : Option ℤ

namespace WsWelcome

/-- A member that `omitempty` leaves out unless the condition holds. -/
def member (key : String) (present : Bool) (v : Json) : List (String × Json) :=
  if present then [(key, v)] else []

def opusJson (opus : RelayConfig.OpusConfig) : Json :=
  .obj [("bitrate", .int opus.bitrate), ("complexity", .int opus.complexity),
    ("fec", .bool opus.fec), ("dtx", .bool opus.dtx), ("application", .str opus.application)]

def toJson (m : WsWelcome) : Json :=
  .obj (List.flatten
    [[("type", .str "welcome")],
      member "sessionId" (m.sessionID ≠ 0) (.int m.sessionID.toNat),
      member "packetMs" (m.packetMs ≠ 0) (.int m.packetMs),
      member "sampleRate" (m.sampleRate ≠ 0) (.int m.sampleRate),
      (m.opus.map fun opus => ("opus", opusJson opus)).toList,
      member "protocolVersion" (m.protocolVersion ≠ 0) (.int m.protocolVersion),
      (m.busyMode.map fun b => ("busyMode", .bool b)).toList,
      (m.transmitTimeout.map fun t => ("transmitTimeoutSec", .int t)).toList])

end WsWelcome

def protocolVersion : ℤ := 2

/-- The welcome of `wsHandler`. -/
def welcomeMessage (cfg : RelayConfig.ServerConfig) (sessionID : UInt32) : WsWelcome :=
  let opus := RelayConfig.normalizeOpusConfig cfg.opus
  { sessionID := sessionID
    packetMs := normalizePacketMs cfg.packetMs
    sampleRate := normalizeSampleRate cfg.sampleRate
    opus := some opus
    protocolVersion := protocolVersion
    busyMode := some cfg.busyMode
    transmitTimeout := some (max cfg.transmitTimeoutSec 0) }

/-! ## The client -/

namespace Protocol

def normalizeSampleRate (value : ℤ) : ℤ :=
  if value ∈ [8000, 12000, 16000, 24000, 48000] then value else 8000

def normalizePacketMs (value : ℤ) : ℤ := if value ∈ [10, 20, 40, 60] then value else 20

def frameSamples (sampleRate packetMs : ℤ) : ℤ :=
  if sampleRate ≤ 0 ∨ packetMs ≤ 0 then 0 else (sampleRate * packetMs).tdiv 1000

end Protocol

section parse

open Nlohmann

def kProtocolVersion : ℤ := 2

/-- `std::clamp`. -/
def clamp (v lo hi : ℤ) : ℤ := if v < lo then lo else if hi < v then hi else v

/-- The key is there, and its value is not `null`. -/
def present (key : String) (root : Json) : Bool :=
  match find key root with
  | some .null | none => false
  | some _ => true

def readOpus (root : Json) : Option OpusConfig :=
  match find "opus" root with
  | some (.obj members) => do
    let opus := Json.obj members
    let bitrate ← value getInt "bitrate" 12000 opus
    let complexity ← value getInt "complexity" 5 opus
    let fec ← value getBool "fec" true opus
    let dtx ← value getBool "dtx" false opus
    let application ← value getString "application" "voip" opus
    return ⟨clamp bitrate 6000 510000, clamp complexity 0 10, fec, dtx, application⟩
  | _ => some {}

/-- The body of `parseWelcome`, up to an exception or a protocol error. -/
def readWelcome (root : Json) (requiredProtocolVersion : ℤ) : Option WelcomeConfig := do
  let protocol ← value getInt "protocolVersion" (-1) root
  if protocol ≠ requiredProtocolVersion ∨ contains "sampleRate" root = false then none
  else
    let sessionId ← value getUnsigned "sessionId" 0 root
    let sampleRate ← value getInt "sampleRate" 8000 root
    let packetMs ← value getInt "packetMs" 20 root
    let busyMode ← value getBool "busyMode" false root
    let tt ←
      if present "transmitTimeoutSec" root then value getInt "transmitTimeoutSec" 60 root
      else if present "transmit_timeout" root then value getInt "transmit_timeout" 60 root
      else some 60
    let opus ← readOpus root
    return {
      sessionId := sessionId
      protocolVersion := protocol
      sampleRate := Protocol.normalizeSampleRate sampleRate
      packetMs := Protocol.normalizePacketMs packetMs
      busyMode := busyMode
      transmitTimeoutSec := max 0 tt
      opus := opus }

def parseWelcome (root : Json) (requiredProtocolVersion : ℤ) : Except Result WelcomeConfig :=
  match readWelcome root requiredProtocolVersion with
  | some cfg => .ok cfg
  | none => .error .protocol

end parse

/-! ## An accepted configuration -/

namespace RelayConfig

/-- The bounds of an accepted configuration. -/
structure ServerConfig.Accepted (s : ServerConfig) : Prop where
  packetMs : s.packetMs ∈ [10, 20, 40, 60]
  sampleRate : s.sampleRate ∈ [8000, 12000, 16000, 24000, 48000]
  bitrate : 6000 ≤ s.opus.bitrate ∧ s.opus.bitrate ≤ 510000
  complexity : 0 ≤ s.opus.complexity ∧ s.opus.complexity ≤ 10
  application : s.opus.application = (normalizeOpusConfig s.opus).application
  transmitTimeout : 0 ≤ s.transmitTimeoutSec

theorem normalizeSampleRate_mem (rate : ℤ) :
    normalizeSampleRate rate ∈ [8000, 12000, 16000, 24000, 48000] := by
  unfold normalizeSampleRate
  split_ifs with h
  · exact h
  · decide

theorem accepted_server {doc : Json} {cfg : AppConfig} (h : loadConfig doc = .ok cfg) :
    cfg.server.Accepted := by
  obtain ⟨cfg₀, -, hchecks, rfl⟩ := loadConfig_ok h
  have hserver : ∀ check ∈ cfg₀.normalize.server.checks, check.1 = false :=
    fun check hc => hchecks check (List.mem_flatten.2 ⟨_, List.mem_cons_self, hc⟩)
  simp only [ServerConfig.checks, reject, List.forall_mem_cons, decide_eq_false_iff_not, not_or,
    not_lt, ne_eq, not_not, Bool.not_eq_false] at hserver
  obtain ⟨-, hms, -, hbitrate, hcomplexity, happ, -, -, -, -, -, -, htt, -⟩ := hserver
  exact
    { packetMs := of_decide_eq_true hms
      sampleRate := normalizeSampleRate_mem _
      bitrate := hbitrate
      complexity := hcomplexity
      application := happ
      transmitTimeout := htt }

/-- The relay's normalizer has nothing to do on an accepted configuration. -/
theorem ServerConfig.Accepted.normalizeOpusConfig_eq {s : ServerConfig} (h : s.Accepted) :
    normalizeOpusConfig s.opus = s.opus := by
  obtain ⟨hlo, hhi⟩ := h.bitrate
  obtain ⟨hclo, hchi⟩ := h.complexity
  have hbitrate : (normalizeOpusConfig s.opus).bitrate = s.opus.bitrate := by
    simp only [normalizeOpusConfig]
    split_ifs <;> omega
  have hcomplexity : (normalizeOpusConfig s.opus).complexity = s.opus.complexity := by
    simp only [normalizeOpusConfig]
    split_ifs <;> omega
  exact OpusConfig.ext hbitrate hcomplexity rfl rfl h.application.symm

end RelayConfig

/-! ## The two sides agree -/

section agree

open RelayConfig

variable {s : RelayConfig.ServerConfig}

theorem normalizePacketMs_of_mem {ms : ℤ} (h : ms ∈ [10, 20, 40, 60]) :
    normalizePacketMs ms = ms := by
  simp only [List.mem_cons, List.not_mem_nil, or_false] at h
  exact if_neg (by omega)

theorem clamp_of_mem {v lo hi : ℤ} (h : lo ≤ v ∧ v ≤ hi) : clamp v lo hi = v := by
  rw [clamp, if_neg (by omega), if_neg (by omega)]

/-- The members of the welcome on an accepted configuration. -/
theorem toJson_welcomeMessage (h : s.Accepted) (sessionID : UInt32) :
    (welcomeMessage s sessionID).toJson =
      .obj (("type", .str "welcome") ::
        (WsWelcome.member "sessionId" (sessionID ≠ 0) (.int sessionID.toNat) ++
          [("packetMs", .int s.packetMs), ("sampleRate", .int s.sampleRate),
            ("opus", WsWelcome.opusJson s.opus), ("protocolVersion", .int 2),
            ("busyMode", .bool s.busyMode), ("transmitTimeoutSec", .int s.transmitTimeoutSec)])) := by
  have hms : s.packetMs ≠ 0 := by
    have := h.packetMs
    simp only [List.mem_cons, List.not_mem_nil, or_false] at this
    omega
  have hrate : s.sampleRate ≠ 0 := by
    have := h.sampleRate
    simp only [List.mem_cons, List.not_mem_nil, or_false] at this
    omega
  have htt : max s.transmitTimeoutSec 0 = s.transmitTimeoutSec := max_eq_left h.transmitTimeout
  have hnorm : normalizeSampleRate s.sampleRate = s.sampleRate := if_pos h.sampleRate
  simp only [WsWelcome.toJson, welcomeMessage, h.normalizeOpusConfig_eq,
    normalizePacketMs_of_mem h.packetMs, hnorm, htt]
  simp [WsWelcome.member, protocolVersion, hms, hrate]

/-- The client reads every member, and its own normalizers change none of them. -/
theorem readWelcome_welcomeMessage (h : s.Accepted) (htimeout : s.transmitTimeoutSec < 2 ^ 31)
    (sessionID : UInt32) : readWelcome (welcomeMessage s sessionID).toJson 2 =
      some
        { sessionId := sessionID.toNat
          protocolVersion := 2
          sampleRate := s.sampleRate
          packetMs := s.packetMs
          opus := ⟨s.opus.bitrate, s.opus.complexity, s.opus.fec, s.opus.dtx, s.opus.application⟩
          busyMode := s.busyMode
          transmitTimeoutSec := s.transmitTimeoutSec } := by
  have hms := h.packetMs
  have hrate := h.sampleRate
  have hrate' : Protocol.normalizeSampleRate s.sampleRate = s.sampleRate := if_pos hrate
  have hms' : Protocol.normalizePacketMs s.packetMs = s.packetMs := if_pos hms
  simp only [List.mem_cons, List.not_mem_nil, or_false] at hms hrate
  have hmsInt : Nlohmann.getInt (.int s.packetMs) = some s.packetMs :=
    Nlohmann.getInt_of_fits (by omega)
  have hrateInt : Nlohmann.getInt (.int s.sampleRate) = some s.sampleRate :=
    Nlohmann.getInt_of_fits (by omega)
  have httInt : Nlohmann.getInt (.int s.transmitTimeoutSec) = some s.transmitTimeoutSec :=
    Nlohmann.getInt_of_fits (by have := h.transmitTimeout; omega)
  have hbitrateInt : Nlohmann.getInt (.int s.opus.bitrate) = some s.opus.bitrate :=
    Nlohmann.getInt_of_fits (by have := h.bitrate; omega)
  have hcomplexityInt : Nlohmann.getInt (.int s.opus.complexity) = some s.opus.complexity :=
    Nlohmann.getInt_of_fits (by have := h.complexity; omega)
  have hversionInt : Nlohmann.getInt (.int 2) = some 2 := Nlohmann.getInt_of_fits (by decide)
  have hidInt : Nlohmann.getUnsigned (.int sessionID.toNat) = some sessionID.toNat :=
    Nlohmann.getUnsigned_of_fits sessionID.toNat_lt
  rw [toJson_welcomeMessage h]
  by_cases hid : sessionID = 0 <;>
    simp [readWelcome, readOpus, present, WsWelcome.member, WsWelcome.opusJson, Nlohmann.value,
      Nlohmann.contains, Nlohmann.find, Json.lookup, hid, hmsInt, hrateInt, httInt, hbitrateInt,
      hcomplexityInt, hversionInt, hidInt, hms', hrate', clamp_of_mem h.bitrate,
      clamp_of_mem h.complexity, h.transmitTimeout, Nlohmann.getBool, Nlohmann.getString]

/-- On every accepted configuration the client reads the relay's own parameters. -/
theorem session_parameters_agree {doc : Json} {cfg : AppConfig} (h : loadConfig doc = .ok cfg)
    (htimeout : cfg.server.transmitTimeoutSec < 2 ^ 31) (sessionID : UInt32) :
    ∃ welcome, parseWelcome (welcomeMessage cfg.server sessionID).toJson kProtocolVersion =
        .ok welcome ∧
      welcome.sessionId = sessionID.toNat ∧ welcome.sampleRate = cfg.server.sampleRate ∧
      welcome.packetMs = cfg.server.packetMs ∧ welcome.busyMode = cfg.server.busyMode ∧
      welcome.transmitTimeoutSec = cfg.server.transmitTimeoutSec ∧
      welcome.opus = ⟨cfg.server.opus.bitrate, cfg.server.opus.complexity, cfg.server.opus.fec,
        cfg.server.opus.dtx, cfg.server.opus.application⟩ ∧
      Protocol.frameSamples welcome.sampleRate welcome.packetMs =
        (cfg.server.params none).packetSamples := by
  have haccepted := accepted_server h
  have hms := haccepted.packetMs
  have hrate := haccepted.sampleRate
  have hsamples : Protocol.frameSamples cfg.server.sampleRate cfg.server.packetMs =
      (cfg.server.params none).packetSamples := by
    have hnorm : normalizeSampleRate cfg.server.sampleRate = cfg.server.sampleRate := if_pos hrate
    simp only [ServerConfig.params, normalizePacketMs_of_mem hms, hnorm]
    simp only [List.mem_cons, List.not_mem_nil, or_false] at hms hrate
    have hpos : 0 ≤ cfg.server.sampleRate * cfg.server.packetMs :=
      mul_nonneg (by omega) (by omega)
    rw [Protocol.frameSamples, if_neg (by omega), Int.tdiv_eq_ediv_of_nonneg hpos,
      Int.toNat_of_nonneg (by omega)]
  have hread := readWelcome_welcomeMessage haccepted htimeout sessionID
  exact ⟨_, by rw [parseWelcome, show kProtocolVersion = 2 from rfl, hread], rfl, rfl, rfl, rfl,
    rfl, rfl, hsamples⟩

/-- A file in which the parameters are not those that the client has without a welcome. -/
def widebandFile : Json :=
  .obj [("server", .obj [("sample_rate", .int 16000), ("packet_ms", .int 40),
    ("busy_mode", .bool true), ("transmit_timeout", .int 30),
    ("opus", .obj [("bitrate", .int 24000), ("complexity", .int 8),
      ("application", .str "audio")])])]

/-- Its parameters, as session 7 reads them. -/
theorem session_parameters_agree_wideband : ∃ cfg, loadConfig widebandFile = .ok cfg ∧
    ∃ welcome, parseWelcome (welcomeMessage cfg.server 7).toJson kProtocolVersion = .ok welcome ∧
      welcome.sessionId = 7 ∧ welcome.sampleRate = 16000 ∧ welcome.packetMs = 40 ∧
      welcome.busyMode = true ∧ welcome.transmitTimeoutSec = 30 ∧
      welcome.opus = ⟨24000, 8, true, false, "audio"⟩ ∧
      Protocol.frameSamples welcome.sampleRate welcome.packetMs = 640 := by
  obtain ⟨cfg, hcfg⟩ := exists_of_accepts (show accepts widebandFile = true by decide +kernel)
  have hserver : (loadConfig widebandFile).toOption.map (fun c => (c.server.sampleRate,
      c.server.packetMs, c.server.busyMode, c.server.transmitTimeoutSec)) =
        some (16000, 40, true, 30) := by
    decide +kernel
  have hopus : (loadConfig widebandFile).toOption.map (fun c => c.server.opus) =
      some ⟨24000, 8, true, false, "audio"⟩ := by
    decide +kernel
  simp only [hcfg, Except.toOption, Option.map_some, Option.some.injEq, Prod.mk.injEq]
    at hserver hopus
  obtain ⟨hrate, hms, hbusy, htt⟩ := hserver
  obtain ⟨welcome, hparse, hid, hrate', hms', hbusy', htt', hopus', -⟩ :=
    session_parameters_agree hcfg (htt.trans_lt (by decide)) 7
  refine ⟨cfg, hcfg, welcome, hparse, hid, hrate'.trans hrate, hms'.trans hms, hbusy'.trans hbusy,
    htt'.trans htt, ?_, ?_⟩
  · rw [hopus', hopus]
  · rw [hrate', hms', hrate, hms]
    decide

end agree

end OWalkie
