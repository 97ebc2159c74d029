import OWalkie.Lib.Json
import OWalkie.Relay.Basic

/-!
# The configuration file

The blocks of the relay's configuration with the keys that `encoding/json` knows them by, and
`defaultConfig`, over which `loadConfig` decodes the file.  Levels and frequencies are exact, `ℚ`
for `float64`; a key of the text is the field name that the decoder matches it with.
-/

namespace OWalkie

namespace RelayConfig

/-! ## The blocks -/

@[ext] structure OpusConfig where
  bitrate : ℤ
  complexity : ℤ
  fec : Bool
  dtx : Bool
  application : String
  deriving DecidableEq, Repr, Inhabited

instance : JsonStruct OpusConfig where
  set c key v :=
    match key with
    | "bitrate" => (decodeInt c.bitrate v).map fun x => { c with bitrate := x }
    | "complexity" => (decodeInt c.complexity v).map fun x => { c with complexity := x }
    | "fec" => (decodeBool c.fec v).map fun x => { c with fec := x }
    | "dtx" => (decodeBool c.dtx v).map fun x => { c with dtx := x }
    | "application" => (decodeString c.application v).map fun x => { c with application := x }
    | _ => .ok c

/-- The `server` block; the part that a channel reads is inherited. -/
structure ServerConfig extends OWalkie.ServerConfig where
  port : ℤ
  legacyWsAddr : String
  legacyUdpAddr : String
  opus : OpusConfig

instance : JsonStruct ServerConfig where
  set c key v :=
    match key with
    | "port" => (decodeInt c.port v).map fun x => { c with port := x }
    | "ws_addr" => (decodeString c.legacyWsAddr v).map fun x => { c with legacyWsAddr := x }
    | "udp_addr" => (decodeString c.legacyUdpAddr v).map fun x => { c with legacyUdpAddr := x }
    | "sample_rate" => (decodeInt c.sampleRate v).map fun x => { c with sampleRate := x }
    | "packet_ms" => (decodeInt c.packetMs v).map fun x => { c with packetMs := x }
    | "opus" => (decodeStruct c.opus v).map fun x => { c with opus := x }
    | "hangover_ms" => (decodeInt c.hangoverMs v).map fun x => { c with hangoverMs := x }
    | "eof_timeout_ms" => (decodeInt c.eofTimeoutMs v).map fun x => { c with eofTimeoutMs := x }
    | "conceal_decay" => (decodeFloat c.concealDecay v).map fun x => { c with concealDecay := x }
    | "jitter_min_packets" =>
      (decodeInt c.jitterMinPkts v).map fun x => { c with jitterMinPkts := x }
    | "jitter_adapt_enabled" =>
      (decodeBool c.jitterAdaptEnabled v).map fun x => { c with jitterAdaptEnabled := x }
    | "jitter_max_packets" =>
      (decodeInt c.jitterMaxPkts v).map fun x => { c with jitterMaxPkts := x }
    | "busy_mode" => (decodeBool c.busyMode v).map fun x => { c with busyMode := x }
    | "busy_timeout" => (decodeInt c.busyTimeoutSec v).map fun x => { c with busyTimeoutSec := x }
    | "transmit_timeout" =>
      (decodeInt c.transmitTimeoutSec v).map fun x => { c with transmitTimeoutSec := x }
    | _ => .ok c

structure FilterConfig where
  enabled : Bool
  lowCutHz : ℚ
  highCutHz : ℚ
  deriving DecidableEq, Repr, Inhabited

instance : JsonStruct FilterConfig where
  set c key v :=
    match key with
    | "enabled" => (decodeBool c.enabled v).map fun x => { c with enabled := x }
    | "low_cut_hz" => (decodeFloat c.lowCutHz v).map fun x => { c with lowCutHz := x }
    | "high_cut_hz" => (decodeFloat c.highCutHz v).map fun x => { c with highCutHz := x }
    | _ => .ok c

structure CompressorConfig where
  enabled : Bool
  thresholdDB : ℚ
  ratio : ℚ
  attackMs : ℚ
  releaseMs : ℚ
  makeupDB : ℚ
  deriving DecidableEq, Repr, Inhabited

instance : JsonStruct CompressorConfig where
  set c key v :=
    match key with
    | "enabled" => (decodeBool c.enabled v).map fun x => { c with enabled := x }
    | "threshold_db" => (decodeFloat c.thresholdDB v).map fun x => { c with thresholdDB := x }
    | "ratio" => (decodeFloat c.ratio v).map fun x => { c with ratio := x }
    | "attack_ms" => (decodeFloat c.attackMs v).map fun x => { c with attackMs := x }
    | "release_ms" => (decodeFloat c.releaseMs v).map fun x => { c with releaseMs := x }
    | "makeup_db" => (decodeFloat c.makeupDB v).map fun x => { c with makeupDB := x }
    | _ => .ok c

structure DistortionConfig where
  enabled : Bool
  drive : ℚ
  mix : ℚ
  multiClientDriveBoost : ℚ
  multiClientMixBoost : ℚ
  deriving DecidableEq, Repr, Inhabited

instance : JsonStruct DistortionConfig where
  set c key v :=
    match key with
    | "enabled" => (decodeBool c.enabled v).map fun x => { c with enabled := x }
    | "drive" => (decodeFloat c.drive v).map fun x => { c with drive := x }
    | "mix" => (decodeFloat c.mix v).map fun x => { c with mix := x }
    | "multi_client_drive_boost" =>
      (decodeFloat c.multiClientDriveBoost v).map fun x => { c with multiClientDriveBoost := x }
    | "multi_client_mix_boost" =>
      (decodeFloat c.multiClientMixBoost v).map fun x => { c with multiClientMixBoost := x }
    | _ => .ok c

structure DispersionConfig where
  enabled : Bool
  stages : ℤ
  centerHz : ℚ
  resonance : ℚ
  spreadOctaves : ℚ
  spreadStyle : String
  deriving DecidableEq, Repr, Inhabited

instance : JsonStruct DispersionConfig where
  set c key v :=
    match key with
    | "enabled" => (decodeBool c.enabled v).map fun x => { c with enabled := x }
    | "stages" => (decodeInt c.stages v).map fun x => { c with stages := x }
    | "center_hz" => (decodeFloat c.centerHz v).map fun x => { c with centerHz := x }
    | "resonance" => (decodeFloat c.resonance v).map fun x => { c with resonance := x }
    | "spread_octaves" => (decodeFloat c.spreadOctaves v).map fun x => { c with spreadOctaves := x }
    | "spread_style" => (decodeString c.spreadStyle v).map fun x => { c with spreadStyle := x }
    | _ => .ok c

structure ClicksConfig where
  enabled : Bool
  multiClientRapidMs : ℤ
  impulseProbAtWeak : ℚ
  impulseProbAtStrong : ℚ
  impulseGainDB : ℚ
  impulseGainAtWeakDB : Option ℚ
  impulseGainAtStrongDB : Option ℚ
  filter : Option FilterConfig
  deriving DecidableEq, Repr, Inhabited

instance : JsonStruct ClicksConfig where
  set c key v :=
    match key with
    | "enabled" => (decodeBool c.enabled v).map fun x => { c with enabled := x }
    | "multi_client_rapid_ms" =>
      (decodeInt c.multiClientRapidMs v).map fun x => { c with multiClientRapidMs := x }
    | "impulse_prob_at_weak_signal" =>
      (decodeFloat c.impulseProbAtWeak v).map fun x => { c with impulseProbAtWeak := x }
    | "impulse_prob_at_strong_signal" =>
      (decodeFloat c.impulseProbAtStrong v).map fun x => { c with impulseProbAtStrong := x }
    | "impulse_gain_db" => (decodeFloat c.impulseGainDB v).map fun x => { c with impulseGainDB := x }
    | "impulse_gain_at_weak_signal_db" =>
      (decodeFloatPtr c.impulseGainAtWeakDB v).map fun x => { c with impulseGainAtWeakDB := x }
    | "impulse_gain_at_strong_signal_db" =>
      (decodeFloatPtr c.impulseGainAtStrongDB v).map fun x => { c with impulseGainAtStrongDB := x }
    | "filter" => (decodePtr c.filter v).map fun x => { c with filter := x }
    | _ => .ok c

structure PopsConfig where
  enabled : Bool
  clickDB : ℚ
  clickToneHz : ℚ
  glitchIntervalMaxMs : ℤ
  glitchFreqMinHz : ℚ
  glitchFreqMaxHz : ℚ
  glitchLevelMinDB : ℚ
  glitchLevelMaxDB : ℚ
  deriving DecidableEq, Repr, Inhabited

instance : JsonStruct PopsConfig where
  set c key v :=
    match key with
    | "enabled" => (decodeBool c.enabled v).map fun x => { c with enabled := x }
    | "click_db" => (decodeFloat c.clickDB v).map fun x => { c with clickDB := x }
    | "click_tone_hz" => (decodeFloat c.clickToneHz v).map fun x => { c with clickToneHz := x }
    | "glitch_interval_max_ms" =>
      (decodeInt c.glitchIntervalMaxMs v).map fun x => { c with glitchIntervalMaxMs := x }
    | "glitch_freq_min_hz" =>
      (decodeFloat c.glitchFreqMinHz v).map fun x => { c with glitchFreqMinHz := x }
    | "glitch_freq_max_hz" =>
      (decodeFloat c.glitchFreqMaxHz v).map fun x => { c with glitchFreqMaxHz := x }
    | "glitch_level_min_db" =>
      (decodeFloat c.glitchLevelMinDB v).map fun x => { c with glitchLevelMinDB := x }
    | "glitch_level_max_db" =>
      (decodeFloat c.glitchLevelMaxDB v).map fun x => { c with glitchLevelMaxDB := x }
    | _ => .ok c

structure NoiseDSPConfig where
  enabled : Bool
  signalDependent : Bool
  minNoiseDB : ℚ
  maxNoiseDB : ℚ
  noiseGain : ℚ
  noiseDistribution : String
  thermalLowpassHz : ℚ
  deriving DecidableEq, Repr, Inhabited

instance : JsonStruct NoiseDSPConfig where
  set c key v :=
    match key with
    | "enabled" => (decodeBool c.enabled v).map fun x => { c with enabled := x }
    | "signal_dependent" =>
      (decodeBool c.signalDependent v).map fun x => { c with signalDependent := x }
    | "min_noise_db" => (decodeFloat c.minNoiseDB v).map fun x => { c with minNoiseDB := x }
    | "max_noise_db" => (decodeFloat c.maxNoiseDB v).map fun x => { c with maxNoiseDB := x }
    | "noise_gain" => (decodeFloat c.noiseGain v).map fun x => { c with noiseGain := x }
    | "noise_distribution" =>
      (decodeString c.noiseDistribution v).map fun x => { c with noiseDistribution := x }
    | "thermal_lowpass_hz" =>
      (decodeFloat c.thermalLowpassHz v).map fun x => { c with thermalLowpassHz := x }
    | _ => .ok c

structure SquelchDSPConfig where
  enabled : Bool
  thresholdPercent : ℚ
  squelchMinMs : ℤ
  squelchMaxMs : ℤ
  noiseDistribution : String
  thermalLowpassHz : ℚ
  noiseGain : ℚ
  tailNoiseDB : ℚ
  tailMinMs : ℤ
  tailMaxMs : ℤ
  edgeImpulseDB : Option ℚ
  synthSilenceTailPackets : ℤ
  deriving DecidableEq, Repr, Inhabited

instance : JsonStruct SquelchDSPConfig where
  set c key v :=
    match key with
    | "enabled" => (decodeBool c.enabled v).map fun x => { c with enabled := x }
    | "threshold_percent" =>
      (decodeFloat c.thresholdPercent v).map fun x => { c with thresholdPercent := x }
    | "squelch_min_ms" => (decodeInt c.squelchMinMs v).map fun x => { c with squelchMinMs := x }
    | "squelch_max_ms" => (decodeInt c.squelchMaxMs v).map fun x => { c with squelchMaxMs := x }
    | "noise_distribution" =>
      (decodeString c.noiseDistribution v).map fun x => { c with noiseDistribution := x }
    | "thermal_lowpass_hz" =>
      (decodeFloat c.thermalLowpassHz v).map fun x => { c with thermalLowpassHz := x }
    | "noise_gain" => (decodeFloat c.noiseGain v).map fun x => { c with noiseGain := x }
    | "tail_noise_db" => (decodeFloat c.tailNoiseDB v).map fun x => { c with tailNoiseDB := x }
    | "tail_min_ms" => (decodeInt c.tailMinMs v).map fun x => { c with tailMinMs := x }
    | "tail_max_ms" => (decodeInt c.tailMaxMs v).map fun x => { c with tailMaxMs := x }
    | "edge_impulse_db" =>
      (decodeFloatPtr c.edgeImpulseDB v).map fun x => { c with edgeImpulseDB := x }
    | "synth_silence_tail_packets" =>
      (decodeInt c.synthSilenceTailPackets v).map fun x => { c with synthSilenceTailPackets := x }
    | _ => .ok c

structure SquelchShotsGeneratorConfig where
  enabled : Bool
  intervalMinMs : ℤ
  intervalMaxMs : ℤ
  silenceMinMs : ℤ
  silenceMaxMs : ℤ
  signalMinPercent : ℚ
  signalMaxPercent : ℚ
  deriving DecidableEq, Repr, Inhabited

instance : JsonStruct SquelchShotsGeneratorConfig where
  set c key v :=
    match key with
    | "enabled" => (decodeBool c.enabled v).map fun x => { c with enabled := x }
    | "interval_min_ms" => (decodeInt c.intervalMinMs v).map fun x => { c with intervalMinMs := x }
    | "interval_max_ms" => (decodeInt c.intervalMaxMs v).map fun x => { c with intervalMaxMs := x }
    | "silence_min_ms" => (decodeInt c.silenceMinMs v).map fun x => { c with silenceMinMs := x }
    | "silence_max_ms" => (decodeInt c.silenceMaxMs v).map fun x => { c with silenceMaxMs := x }
    | "signal_min_percent" =>
      (decodeFloat c.signalMinPercent v).map fun x => { c with signalMinPercent := x }
    | "signal_max_percent" =>
      (decodeFloat c.signalMaxPercent v).map fun x => { c with signalMaxPercent := x }
    | _ => .ok c

/-! ## The legacy blocks -/

structure LegacyNoiseConfig where
  enabled : Bool
  signalDependent : Bool
  minNoiseDB : ℚ
  maxNoiseDB : ℚ
  noiseGain : ℚ
  squelchThresholdDB : ℚ
  squelchMinMs : ℤ
  squelchMaxMs : ℤ
  tailNoiseDB : ℚ
  tailMinMs : ℤ
  tailMaxMs : ℤ
  noiseDistribution : String
  thermalLowpassHz : ℚ
  synthSilenceTailPackets : ℤ
  deriving DecidableEq, Repr, Inhabited

instance : JsonStruct LegacyNoiseConfig where
  set c key v :=
    match key with
    | "enabled" => (decodeBool c.enabled v).map fun x => { c with enabled := x }
    | "signal_dependent" =>
      (decodeBool c.signalDependent v).map fun x => { c with signalDependent := x }
    | "min_noise_db" => (decodeFloat c.minNoiseDB v).map fun x => { c with minNoiseDB := x }
    | "max_noise_db" => (decodeFloat c.maxNoiseDB v).map fun x => { c with maxNoiseDB := x }
    | "noise_gain" => (decodeFloat c.noiseGain v).map fun x => { c with noiseGain := x }
    | "squelch_threshold_db" =>
      (decodeFloat c.squelchThresholdDB v).map fun x => { c with squelchThresholdDB := x }
    | "squelch_min_ms" => (decodeInt c.squelchMinMs v).map fun x => { c with squelchMinMs := x }
    | "squelch_max_ms" => (decodeInt c.squelchMaxMs v).map fun x => { c with squelchMaxMs := x }
    | "tail_noise_db" => (decodeFloat c.tailNoiseDB v).map fun x => { c with tailNoiseDB := x }
    | "tail_min_ms" => (decodeInt c.tailMinMs v).map fun x => { c with tailMinMs := x }
    | "tail_max_ms" => (decodeInt c.tailMaxMs v).map fun x => { c with tailMaxMs := x }
    | "noise_distribution" =>
      (decodeString c.noiseDistribution v).map fun x => { c with noiseDistribution := x }
    | "thermal_lowpass_hz" =>
      (decodeFloat c.thermalLowpassHz v).map fun x => { c with thermalLowpassHz := x }
    | "synth_silence_tail_packets" =>
      (decodeInt c.synthSilenceTailPackets v).map fun x => { c with synthSilenceTailPackets := x }
    | _ => .ok c

structure LegacyClickImpulses where
  enabled : Bool
  probAtWeakSignal : ℚ
  probAtStrongSignal : ℚ
  gainDB : ℚ
  deriving DecidableEq, Repr, Inhabited

instance : JsonStruct LegacyClickImpulses where
  set c key v :=
    match key with
    | "enabled" => (decodeBool c.enabled v).map fun x => { c with enabled := x }
    | "prob_at_weak_signal" =>
      (decodeFloat c.probAtWeakSignal v).map fun x => { c with probAtWeakSignal := x }
    | "prob_at_strong_signal" =>
      (decodeFloat c.probAtStrongSignal v).map fun x => { c with probAtStrongSignal := x }
    | "gain_db" => (decodeFloat c.gainDB v).map fun x => { c with gainDB := x }
    | _ => .ok c

structure LegacyClickConfig where
  enabled : Bool
  clickDB : ℚ
  clickToneHz : ℚ
  glitchIntervalMaxMs : ℤ
  glitchFreqMinHz : ℚ
  glitchFreqMaxHz : ℚ
  glitchLevelMinDB : ℚ
  glitchLevelMaxDB : ℚ
  impulses : Option LegacyClickImpulses
  deriving DecidableEq, Repr, Inhabited

instance : JsonStruct LegacyClickConfig where
  set c key v :=
    match key with
    | "enabled" => (decodeBool c.enabled v).map fun x => { c with enabled := x }
    | "click_db" => (decodeFloat c.clickDB v).map fun x => { c with clickDB := x }
    | "click_tone_hz" => (decodeFloat c.clickToneHz v).map fun x => { c with clickToneHz := x }
    | "glitch_interval_max_ms" =>
      (decodeInt c.glitchIntervalMaxMs v).map fun x => { c with glitchIntervalMaxMs := x }
    | "glitch_freq_min_hz" =>
      (decodeFloat c.glitchFreqMinHz v).map fun x => { c with glitchFreqMinHz := x }
    | "glitch_freq_max_hz" =>
      (decodeFloat c.glitchFreqMaxHz v).map fun x => { c with glitchFreqMaxHz := x }
    | "glitch_level_min_db" =>
      (decodeFloat c.glitchLevelMinDB v).map fun x => { c with glitchLevelMinDB := x }
    | "glitch_level_max_db" =>
      (decodeFloat c.glitchLevelMaxDB v).map fun x => { c with glitchLevelMaxDB := x }
    | "impulses" => (decodePtr c.impulses v).map fun x => { c with impulses := x }
    | _ => .ok c

/-! ## The whole -/

structure GeneratorsModulesConfig where
  squelchShots : Option SquelchShotsGeneratorConfig
  deriving DecidableEq, Repr, Inhabited

instance : JsonStruct GeneratorsModulesConfig where
  set c key v :=
    match key with
    | "squelch_shots" => (decodePtr c.squelchShots v).map fun x => { c with squelchShots := x }
    | _ => .ok c

structure DspModulesConfig where
  chain : Slice String
  clicks : Option ClicksConfig
  pops : Option PopsConfig
  noise : Option NoiseDSPConfig
  squelch : Option SquelchDSPConfig
  filter : Option FilterConfig
  dispersion : Option DispersionConfig
  compressor : Option CompressorConfig
  distortion : Option DistortionConfig
  deriving DecidableEq, Repr, Inhabited

instance : JsonStruct DspModulesConfig where
  set c key v :=
    match key with
    | "chain" => (decodeStrings c.chain v).map fun x => { c with chain := x }
    | "clicks" => (decodePtr c.clicks v).map fun x => { c with clicks := x }
    | "pops" => (decodePtr c.pops v).map fun x => { c with pops := x }
    | "noise" => (decodePtr c.noise v).map fun x => { c with noise := x }
    | "squelch" => (decodePtr c.squelch v).map fun x => { c with squelch := x }
    | "filter" => (decodePtr c.filter v).map fun x => { c with filter := x }
    | "dispersion" => (decodePtr c.dispersion v).map fun x => { c with dispersion := x }
    | "compressor" => (decodePtr c.compressor v).map fun x => { c with compressor := x }
    | "distortion" => (decodePtr c.distortion v).map fun x => { c with distortion := x }
    | _ => .ok c

structure ModulesConfig where
  generators : GeneratorsModulesConfig
  dsp : DspModulesConfig
  noise : Option LegacyNoiseConfig
  click : Option LegacyClickConfig
  filter : Option FilterConfig
  compressor : Option CompressorConfig
  distortion : Option DistortionConfig
  deriving DecidableEq, Repr, Inhabited

instance : JsonStruct ModulesConfig where
  set c key v :=
    match key with
    | "generators" => (decodeStruct c.generators v).map fun x => { c with generators := x }
    | "dsp" => (decodeStruct c.dsp v).map fun x => { c with dsp := x }
    | "noise" => (decodePtr c.noise v).map fun x => { c with noise := x }
    | "click" => (decodePtr c.click v).map fun x => { c with click := x }
    | "filter" => (decodePtr c.filter v).map fun x => { c with filter := x }
    | "compressor" => (decodePtr c.compressor v).map fun x => { c with compressor := x }
    | "distortion" => (decodePtr c.distortion v).map fun x => { c with distortion := x }
    | _ => .ok c

structure AppConfig where
  server : ServerConfig
  modules : ModulesConfig

instance : JsonStruct AppConfig where
  set c key v :=
    match key with
    | "server" => (decodeStruct c.server v).map fun x => { c with server := x }
    | "modules" => (decodeStruct c.modules v).map fun x => { c with modules := x }
    | _ => .ok c

/-! ## The defaults -/

def defaultPops : PopsConfig where
  enabled := true
  clickDB := -8
  clickToneHz := 200
  glitchIntervalMaxMs := 0
  glitchFreqMinHz := 120
  glitchFreqMaxHz := 360
  glitchLevelMinDB := -14
  glitchLevelMaxDB := -6

def defaultClicks : ClicksConfig where
  enabled := false
  multiClientRapidMs := 0
  impulseProbAtWeak := 1 / 10
  impulseProbAtStrong := 1 / 100
  impulseGainDB := -8
  impulseGainAtWeakDB := none
  impulseGainAtStrongDB := none
  filter := none

def defaultNoise : NoiseDSPConfig where
  enabled := true
  signalDependent := true
  minNoiseDB := -20
  maxNoiseDB := -3
  noiseGain := 1200
  noiseDistribution := "gaussian"
  thermalLowpassHz := 8000

def defaultSquelch : SquelchDSPConfig where
  enabled := true
  thresholdPercent := 5
  squelchMinMs := 50
  squelchMaxMs := 150
  noiseDistribution := "gaussian"
  thermalLowpassHz := 8000
  noiseGain := 1200
  tailNoiseDB := 0
  tailMinMs := 15
  tailMaxMs := 60
  edgeImpulseDB := none
  synthSilenceTailPackets := 0

def defaultFilter : FilterConfig where
  enabled := true
  lowCutHz := 300
  highCutHz := 3000

def defaultDispersion : DispersionConfig where
  enabled := false
  stages := 24
  centerHz := 800
  resonance := 11 / 20
  spreadOctaves := 3 / 25
  spreadStyle := "octaves"

def defaultCompressor : CompressorConfig where
  enabled := true
  thresholdDB := -18
  ratio := 16 / 5
  attackMs := 5
  releaseMs := 80
  makeupDB := 4

def defaultDistortion : DistortionConfig where
  enabled := true
  drive := 27 / 20
  mix := 7 / 25
  multiClientDriveBoost := 0
  multiClientMixBoost := 0

def defaultSquelchShots : SquelchShotsGeneratorConfig where
  enabled := false
  intervalMinMs := 60000
  intervalMaxMs := 180000
  silenceMinMs := 50
  silenceMaxMs := 200
  signalMinPercent := 4
  signalMaxPercent := 18

def defaultChain : List String :=
  ["pops", "clicks", "noise", "squelch", "filter", "compressor", "distortion"]

def defaultDsp : DspModulesConfig where
  chain := { elems := defaultChain }
  clicks := some defaultClicks
  pops := some defaultPops
  noise := some defaultNoise
  squelch := some defaultSquelch
  filter := some defaultFilter
  dispersion := some defaultDispersion
  compressor := some defaultCompressor
  distortion := some defaultDistortion

def defaultModules : ModulesConfig where
  generators := { squelchShots := some defaultSquelchShots }
  dsp := defaultDsp
  noise := none
  click := none
  filter := none
  compressor := none
  distortion := none

def defaultServer : ServerConfig where
  port := 5500
  legacyWsAddr := ""
  legacyUdpAddr := ""
  sampleRate := defaultSampleRate
  packetMs := defaultPacketMs
  opus :=
    { bitrate := 12000
      complexity := 5
      fec := true
      dtx := false
      application := "voip" }
  hangoverMs := 180
  eofTimeoutMs := 420
  concealDecay := 9 / 10
  jitterMinPkts := 3
  jitterAdaptEnabled := false
  jitterMaxPkts := 0
  busyMode := false
  busyTimeoutSec := 0
  transmitTimeoutSec := 0

def defaultConfig : AppConfig where
  server := defaultServer
  modules := defaultModules

end RelayConfig

end OWalkie
