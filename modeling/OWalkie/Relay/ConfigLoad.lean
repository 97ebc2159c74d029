import OWalkie.Lib.Text
import OWalkie.Relay.Config

/-!
# Loading the configuration

`loadConfig` decodes the file over the defaults, normalizes the result and validates it.  A
validation is a list of `Check`s in the order of the source; the first that the configuration
violates gives the error.  JSON has neither NaN nor infinities, so the tests for them are left out.
-/

namespace OWalkie

namespace RelayConfig

/-! ## Strings -/

/-- `unicode.IsSpace`. -/
def isSpace (c : Char) : Bool :=
  c ∈ ['\t', '\n', '\x0b', '\x0c', '\r', ' ', '\u0085', '\u00a0', '\u1680', '\u2028', '\u2029',
    '\u202f', '\u205f', '\u3000'] ∨ '\u2000' ≤ c ∧ c ≤ '\u200a'

/-- `unicode.ToLower` as far as ASCII results go: two other characters have one. -/
def toLower (c : Char) : Char :=
  if c = '\u0130' then 'i' else if c = '\u212a' then 'k' else c.toLower

/-- `strings.ToLower(strings.TrimSpace(s))`. -/
def lowerTrimmed (s : String) : String :=
  String.ofList ((Text.trim isSpace s.toList).map toLower)

/-- `strconv.Atoi`. -/
def atoi (s : List Char) : Option ℤ := (Text.intOf Text.asciiDigit s).bind (Text.fits 64)

/-- The number, unless it is not positive. -/
def positivePort : Option ℤ → ℤ
  | some p => if p ≤ 0 then 0 else p
  | none => 0

def parsePortFromListenAddr (addr : String) : ℤ :=
  let s := Text.trim isSpace addr.toList
  match s with
  | [] => 0
  | ':' :: rest => positivePort (atoi rest)
  | _ => if ':' ∉ s ∨ s.getLast? = some ':' then 0 else positivePort (atoi (Text.afterLast ':' s))

/-! ## Normalization -/

def normalizeOpusConfig (cfg : OpusConfig) : OpusConfig :=
  let bitrate := if cfg.bitrate ≤ 0 then 12000 else cfg.bitrate
  let bitrate := if bitrate < 6000 then 6000 else bitrate
  { cfg with
    bitrate := if 510000 < bitrate then 510000 else bitrate
    complexity := if cfg.complexity < 0 ∨ 10 < cfg.complexity then 5 else cfg.complexity
    application :=
      if lowerTrimmed cfg.application ∈ ["voip", "audio", "lowdelay"] then
        lowerTrimmed cfg.application
      else "voip" }

def normalizeServerListenPort (s : ServerConfig) : ServerConfig :=
  let port :=
    if s.port = 0 then
      if 0 < parsePortFromListenAddr s.legacyWsAddr then parsePortFromListenAddr s.legacyWsAddr
      else if 0 < parsePortFromListenAddr s.legacyUdpAddr then
        parsePortFromListenAddr s.legacyUdpAddr
      else s.port
    else s.port
  { s with
    port := if port = 0 then 5500 else port
    legacyWsAddr := ""
    legacyUdpAddr := "" }

/-- The `dsp.noise` block of a legacy `noise` block. -/
def LegacyNoiseConfig.toNoise (n : LegacyNoiseConfig) : NoiseDSPConfig where
  enabled := n.enabled
  signalDependent := n.signalDependent
  minNoiseDB := n.minNoiseDB
  maxNoiseDB := n.maxNoiseDB
  noiseGain := n.noiseGain
  noiseDistribution := n.noiseDistribution
  thermalLowpassHz := n.thermalLowpassHz

def LegacyNoiseConfig.thresholdPct (n : LegacyNoiseConfig) : ℚ :=
  if n.signalDependent = true ∧ n.minNoiseDB < n.maxNoiseDB then
    let pct :=
      10 + 90 * ((n.maxNoiseDB - n.squelchThresholdDB) / (n.maxNoiseDB - n.minNoiseDB))
    let pct := if pct < 0 then 0 else pct
    if 100 < pct then 100 else pct
  else 5

/-- The `dsp.squelch` block of a legacy `noise` block. -/
def LegacyNoiseConfig.toSquelch (n : LegacyNoiseConfig) : SquelchDSPConfig where
  enabled := n.enabled
  thresholdPercent := n.thresholdPct
  squelchMinMs := n.squelchMinMs
  squelchMaxMs := n.squelchMaxMs
  noiseDistribution := n.noiseDistribution
  thermalLowpassHz := n.thermalLowpassHz
  noiseGain := n.noiseGain
  tailNoiseDB := n.tailNoiseDB
  tailMinMs := n.tailMinMs
  tailMaxMs := n.tailMaxMs
  edgeImpulseDB := none
  synthSilenceTailPackets := n.synthSilenceTailPackets

/-- The `dsp.pops` block of a legacy `click` block. -/
def LegacyClickConfig.toPops (c : LegacyClickConfig) : PopsConfig where
  enabled := c.enabled
  clickDB := c.clickDB
  clickToneHz := c.clickToneHz
  glitchIntervalMaxMs := c.glitchIntervalMaxMs
  glitchFreqMinHz := c.glitchFreqMinHz
  glitchFreqMaxHz := c.glitchFreqMaxHz
  glitchLevelMinDB := c.glitchLevelMinDB
  glitchLevelMaxDB := c.glitchLevelMaxDB

/-- The `dsp.clicks` block of a legacy `click` block. -/
def LegacyClickConfig.toClicks (c : LegacyClickConfig) : ClicksConfig :=
  let cc : ClicksConfig := { (default : ClicksConfig) with enabled := c.enabled }
  match c.impulses with
  | some impulses =>
    { cc with
      impulseProbAtWeak := impulses.probAtWeakSignal
      impulseProbAtStrong := impulses.probAtStrongSignal
      impulseGainDB := impulses.gainDB }
  | none => cc

/-- The block that is there, or else what a legacy block gives. -/
def migrate {α β : Type} (cur : Option α) (legacy : Option β) (build : β → α) : Option α :=
  cur.orElse fun _ => legacy.map build

def normalizeModulesConfig (m : ModulesConfig) : ModulesConfig :=
  { m with
    dsp := { m.dsp with
      noise := migrate m.dsp.noise m.noise LegacyNoiseConfig.toNoise
      squelch := migrate m.dsp.squelch m.noise LegacyNoiseConfig.toSquelch
      pops := migrate m.dsp.pops m.click LegacyClickConfig.toPops
      clicks := migrate m.dsp.clicks m.click LegacyClickConfig.toClicks
      filter := migrate m.dsp.filter m.filter id
      compressor := migrate m.dsp.compressor m.compressor id
      distortion := migrate m.dsp.distortion m.distortion id } }

/-! ## Validation -/

/-- A condition that must not hold, with the error that it gives. -/
abbrev Check := Bool × String

def reject (bad : Prop) [Decidable bad] (message : String) : Check := (decide bad, message)

/-- The checks of a block that is there and enabled. -/
def whenEnabled {α : Type} (enabled : α → Bool) (checks : α → List Check) : Option α → List Check
  | some c => if enabled c then checks c else []
  | none => []

def isSupportedSampleRate (rate : ℤ) : Bool := rate == normalizeSampleRate rate

def isSupportedPacketMs (ms : ℤ) : Bool := ms ∈ [10, 20, 40, 60]

def ServerConfig.checks (s : ServerConfig) : List Check :=
  [reject (s.port < 1 ∨ 65535 < s.port) "server.port must be between 1 and 65535",
    reject (isSupportedPacketMs s.packetMs = false)
      "server.packet_ms must be one of: 10, 20, 40, 60",
    reject (isSupportedSampleRate s.sampleRate = false)
      "server.sample_rate must be one of: 8000, 12000, 16000, 24000, 48000",
    reject (s.opus.bitrate < 6000 ∨ 510000 < s.opus.bitrate)
      "server.opus.bitrate must be in [6000..510000]",
    reject (s.opus.complexity < 0 ∨ 10 < s.opus.complexity)
      "server.opus.complexity must be in [0..10]",
    reject (s.opus.application ≠ (normalizeOpusConfig s.opus).application)
      "server.opus.application must be one of: voip, audio, lowdelay",
    reject (s.hangoverMs < s.packetMs) "server.hangover_ms must be >= server.packet_ms",
    reject (s.eofTimeoutMs < s.hangoverMs) "server.eof_timeout_ms must be >= server.hangover_ms",
    reject (s.concealDecay ≤ 0 ∨ 1 < s.concealDecay) "server.conceal_decay must be in (0..1]",
    reject (s.jitterMinPkts < 1 ∨ 12 < s.jitterMinPkts)
      "server.jitter_min_packets must be in [1..12]",
    reject (s.jitterAdaptEnabled = true ∧ s.jitterMaxPkts < s.jitterMinPkts)
      "server.jitter_max_packets must be >= server.jitter_min_packets when jitter_adapt_enabled",
    reject (s.jitterAdaptEnabled = true ∧ jitterMaxPacketsLimit < s.jitterMaxPkts)
      "server.jitter_max_packets must be <= 24",
    reject (s.transmitTimeoutSec < 0) "server.transmit_timeout must be >= 0",
    reject (s.busyTimeoutSec < 0) "server.busy_timeout must be >= 0"]

def CompressorConfig.checks (c : CompressorConfig) : List Check :=
  [reject (c.ratio ≤ 0) "modules.compressor.ratio must be > 0"]

def NoiseDSPConfig.checks (c : NoiseDSPConfig) : List Check :=
  [reject (c.noiseGain ≤ 0) "modules.dsp.noise.noise_gain must be > 0",
    reject (c.noiseDistribution ∉ ["", "gaussian", "uniform"])
      "modules.dsp.noise.noise_distribution must be gaussian or uniform",
    reject (c.thermalLowpassHz < 0) "modules.dsp.noise.thermal_lowpass_hz must be >= 0",
    reject (c.maxNoiseDB < c.minNoiseDB) "modules.dsp.noise min/max noise range is invalid"]

def SquelchShotsGeneratorConfig.checks (c : SquelchShotsGeneratorConfig) : List Check :=
  [reject (c.intervalMinMs ≤ 0 ∨ c.intervalMaxMs < c.intervalMinMs)
      "modules.generators.squelch_shots interval range is invalid",
    reject (c.silenceMinMs ≤ 0 ∨ c.silenceMaxMs < c.silenceMinMs)
      "modules.generators.squelch_shots silence range is invalid",
    reject (c.signalMinPercent < 0 ∨ 100 < c.signalMaxPercent ∨
        c.signalMaxPercent < c.signalMinPercent)
      "modules.generators.squelch_shots signal percent range is invalid"]

def allowedModules : List String :=
  ["pops", "clicks", "noise", "squelch", "filter", "dispersion", "compressor", "distortion"]

def chainChecks (chain : List String) : List Check :=
  chain.map fun name =>
    reject (name ∉ allowedModules) ("modules.dsp.chain contains unknown module " ++ name.quote)

def SquelchDSPConfig.checks (c : SquelchDSPConfig) : List Check :=
  [reject (c.thresholdPercent < 0 ∨ 100 < c.thresholdPercent)
      "modules.dsp.squelch.threshold_percent must be in [0..100]",
    reject (c.noiseGain ≤ 0) "modules.dsp.squelch.noise_gain must be > 0",
    reject (c.noiseDistribution ∉ ["", "gaussian", "uniform"])
      "modules.dsp.squelch.noise_distribution must be gaussian or uniform",
    reject (c.thermalLowpassHz < 0) "modules.dsp.squelch.thermal_lowpass_hz must be >= 0",
    reject (c.squelchMinMs ≤ 0 ∨ c.squelchMaxMs < c.squelchMinMs)
      "modules.dsp.squelch squelch range is invalid",
    reject (c.tailMinMs ≤ 0 ∨ c.tailMaxMs < c.tailMinMs)
      "modules.dsp.squelch tail range is invalid",
    reject (c.synthSilenceTailPackets < 0)
      "modules.dsp.squelch.synth_silence_tail_packets must be >= 0"]

def PopsConfig.checks (c : PopsConfig) : List Check :=
  [reject (c.clickToneHz ≠ 0 ∧ c.clickToneHz ≤ 0)
      "modules.dsp.pops.click_tone_hz must be > 0 when set",
    reject (c.glitchIntervalMaxMs < 0) "modules.dsp.pops.glitch_interval_max_ms must be >= 0",
    reject (c.glitchFreqMinHz ≤ 0 ∨ c.glitchFreqMaxHz < c.glitchFreqMinHz)
      "modules.dsp.pops glitch_freq range is invalid",
    reject (c.glitchLevelMaxDB < c.glitchLevelMinDB)
      "modules.dsp.pops glitch_level range is invalid"]

def validateBandPassCutoffs (path : String) (c : FilterConfig) : List Check :=
  [reject (c.lowCutHz < 0 ∨ c.highCutHz < 0) (path ++ " cutoff range is invalid"),
    reject (0 < c.lowCutHz ∧ 0 < c.highCutHz ∧ c.highCutHz ≤ c.lowCutHz)
      (path ++ " cutoff range is invalid")]

def ClicksConfig.checks (c : ClicksConfig) : List Check :=
  [reject (c.multiClientRapidMs < 0) "modules.dsp.clicks.multi_client_rapid_ms must be >= 0",
    reject (c.impulseProbAtWeak < 0 ∨ 1 < c.impulseProbAtWeak ∨ c.impulseProbAtStrong < 0 ∨
        1 < c.impulseProbAtStrong)
      "modules.dsp.clicks impulse_prob_at_*_signal must be in [0..1]"] ++
    whenEnabled FilterConfig.enabled (validateBandPassCutoffs "modules.dsp.clicks.filter") c.filter

def DistortionConfig.checks (c : DistortionConfig) : List Check :=
  [reject (c.mix < 0 ∨ 1 < c.mix) "modules.dsp.distortion.mix must be in [0..1]",
    reject (c.multiClientDriveBoost < 0 ∨ c.multiClientMixBoost < 0)
      "modules.dsp.distortion multi_client_*_boost must be >= 0"]

def dispersionMinHz : ℚ := 5

def dispersionMaxStages : ℤ := 512

def dispersionNyquistDiv : ℚ := 41 / 20

/-- The upper frequency bound in `%.g` format, for the supported sample rates. -/
def nyquistText (sampleRate : ℤ) : String :=
  if sampleRate = 8000 then "4e+03"
  else if sampleRate = 12000 then "6e+03"
  else if sampleRate = 16000 then "8e+03"
  else if sampleRate = 24000 then "1e+04"
  else "2e+04"

def DispersionConfig.checks (sampleRate : ℤ) (d : DispersionConfig) : List Check :=
  [reject (sampleRate ≤ 0) "server.sample_rate must be > 0 for modules.dsp.dispersion",
    reject (d.stages < 1 ∨ dispersionMaxStages < d.stages)
      "modules.dsp.dispersion.stages must be in [1..512]",
    reject (d.centerHz < dispersionMinHz ∨ sampleRate / dispersionNyquistDiv < d.centerHz)
      ("modules.dsp.dispersion.center_hz must be in [5.." ++ nyquistText sampleRate ++ "] Hz"),
    reject (d.resonance ≤ 0) "modules.dsp.dispersion.resonance must be > 0",
    reject (d.spreadOctaves < -10 ∨ 10 < d.spreadOctaves)
      "modules.dsp.dispersion.spread_octaves must be in [-10..10]",
    reject (lowerTrimmed d.spreadStyle ∉ ["", "octaves", "linear"])
      "modules.dsp.dispersion.spread_style must be octaves or linear"]

def AppConfig.checks (cfg : AppConfig) : List Check :=
  List.flatten
    [cfg.server.checks,
      whenEnabled CompressorConfig.enabled CompressorConfig.checks cfg.modules.dsp.compressor,
      whenEnabled NoiseDSPConfig.enabled NoiseDSPConfig.checks cfg.modules.dsp.noise,
      whenEnabled SquelchShotsGeneratorConfig.enabled SquelchShotsGeneratorConfig.checks
        cfg.modules.generators.squelchShots,
      chainChecks cfg.modules.dsp.chain.elems,
      whenEnabled SquelchDSPConfig.enabled SquelchDSPConfig.checks cfg.modules.dsp.squelch,
      whenEnabled PopsConfig.enabled PopsConfig.checks cfg.modules.dsp.pops,
      whenEnabled ClicksConfig.enabled ClicksConfig.checks cfg.modules.dsp.clicks,
      whenEnabled DistortionConfig.enabled DistortionConfig.checks cfg.modules.dsp.distortion,
      whenEnabled FilterConfig.enabled (validateBandPassCutoffs "modules.dsp.filter")
        cfg.modules.dsp.filter,
      whenEnabled DispersionConfig.enabled (DispersionConfig.checks cfg.server.sampleRate)
        cfg.modules.dsp.dispersion]

def fillDistribution (enabled : Bool) (distribution : String) : String :=
  if enabled = true ∧ distribution = "" then "gaussian" else distribution

/-- What `validateConfig` writes into an enabled `dsp.noise` block. -/
def NoiseDSPConfig.filled (c : NoiseDSPConfig) : NoiseDSPConfig :=
  { c with noiseDistribution := fillDistribution c.enabled c.noiseDistribution }

/-- What `validateConfig` writes into an enabled `dsp.squelch` block. -/
def SquelchDSPConfig.filled (c : SquelchDSPConfig) : SquelchDSPConfig :=
  { c with noiseDistribution := fillDistribution c.enabled c.noiseDistribution }

def AppConfig.filled (cfg : AppConfig) : AppConfig :=
  { cfg with
    modules := { cfg.modules with
      dsp := { cfg.modules.dsp with
        noise := cfg.modules.dsp.noise.map NoiseDSPConfig.filled
        squelch := cfg.modules.dsp.squelch.map SquelchDSPConfig.filled } } }

/-- `validateConfig`; it fills in the noise distributions through the pointers of its argument. -/
def validateConfig (cfg : AppConfig) : Except String AppConfig :=
  match cfg.checks.find? Prod.fst with
  | some (_, message) => .error message
  | none => .ok cfg.filled

/-! ## Loading -/

inductive LoadError where
  | parse (err : DecodeError)
  | validate (message : String)
deriving DecidableEq, Repr

def ServerConfig.normalize (s : ServerConfig) : ServerConfig :=
  let jitterMinPkts := normalizeJitterMinPackets s.jitterMinPkts
  normalizeServerListenPort
    { s with
      packetMs := normalizePacketMs s.packetMs
      jitterMinPkts := jitterMinPkts
      jitterMaxPkts :=
        if s.jitterAdaptEnabled then
          normalizeJitterMaxPackets jitterMinPkts
            (if s.jitterMaxPkts ≤ 0 then max jitterMinPkts 12 else s.jitterMaxPkts)
        else 0
      opus := normalizeOpusConfig s.opus }

/-- `loadConfig` before the validation. -/
def AppConfig.normalize (cfg : AppConfig) : AppConfig where
  server := cfg.server.normalize
  modules := normalizeModulesConfig cfg.modules

def loadConfig (data : Json) : Except LoadError AppConfig :=
  match decodeStruct defaultConfig data with
  | .error err => .error (.parse err)
  | .ok cfg =>
    match validateConfig cfg.normalize with
    | .error message => .error (.validate message)
    | .ok cfg =>
      .ok { cfg with
        server := { cfg.server with sampleRate := normalizeSampleRate cfg.server.sampleRate } }

/-- The file is accepted. -/
def accepts (data : Json) : Bool := (loadConfig data).toOption.isSome

theorem exists_of_accepts {data : Json} (h : accepts data = true) :
    ∃ cfg, loadConfig data = .ok cfg := by
  unfold accepts at h
  cases hload : loadConfig data with
  | error err => rw [hload] at h; cases h
  | ok cfg => exact ⟨cfg, rfl⟩

/-- What becomes of a decoded file that is accepted. -/
def AppConfig.loaded (cfg : AppConfig) : AppConfig :=
  { cfg.normalize.filled with
    server := { cfg.normalize.server with
      sampleRate := normalizeSampleRate cfg.server.sampleRate } }

/-- An accepted file decodes, and its normal form passes every check. -/
theorem loadConfig_ok {doc : Json} {cfg : AppConfig} (h : loadConfig doc = .ok cfg) :
    ∃ cfg₀, decodeStruct defaultConfig doc = .ok cfg₀ ∧
      (∀ check ∈ cfg₀.normalize.checks, check.1 = false) ∧ cfg = cfg₀.loaded := by
  unfold loadConfig at h
  cases hdec : decodeStruct defaultConfig doc with
  | error err => simp [hdec] at h
  | ok cfg₀ =>
    simp only [hdec, validateConfig] at h
    cases hfind : cfg₀.normalize.checks.find? Prod.fst with
    | some check => simp [hfind] at h
    | none =>
      simp only [hfind, Except.ok.injEq] at h
      exact ⟨cfg₀, rfl, by simpa using hfind, h.symm⟩

end RelayConfig

end OWalkie
