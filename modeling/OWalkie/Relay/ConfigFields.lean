import OWalkie.Relay.ConfigLoad

/-!
# Which values of the file decide what is loaded

One frame lemma for the decoder of each block that has parts (`set_frame`), the values that decide
each part (`reads_dsp`, `reads_modules`), and the switch `enabled` that every module block has
(`Switched`).
-/

namespace OWalkie

namespace RelayConfig

/-! ## The parts of a block -/

section frames

variable {k : String} {v : Json}

theorem AppConfig.set_frame {c c' : AppConfig} (h : JsonStruct.set c k v = .ok c') :
    (k ≠ "server" → c'.server = c.server) ∧ (k ≠ "modules" → c'.modules = c.modules) := by
  simp only [JsonStruct.set] at h
  split at h
  case h_3 => cases h; exact ⟨fun _ => rfl, fun _ => rfl⟩
  all_goals obtain ⟨x, -, rfl⟩ := ok_of_map h; simp

theorem ModulesConfig.set_frame {c c' : ModulesConfig} (h : JsonStruct.set c k v = .ok c') :
    (k ≠ "generators" → c'.generators = c.generators) ∧ (k ≠ "dsp" → c'.dsp = c.dsp) ∧
      (k ≠ "noise" → c'.noise = c.noise) ∧ (k ≠ "click" → c'.click = c.click) ∧
      (k ≠ "filter" → c'.filter = c.filter) ∧
      (k ≠ "compressor" → c'.compressor = c.compressor) ∧
      (k ≠ "distortion" → c'.distortion = c.distortion) := by
  simp only [JsonStruct.set] at h
  split at h
  case h_8 => cases h; simp
  all_goals obtain ⟨x, -, rfl⟩ := ok_of_map h; simp

theorem GeneratorsModulesConfig.set_frame {c c' : GeneratorsModulesConfig}
    (h : JsonStruct.set c k v = .ok c') (hk : k ≠ "squelch_shots") :
    c'.squelchShots = c.squelchShots := by
  simp only [JsonStruct.set] at h
  cases h
  rfl

theorem DspModulesConfig.set_frame {c c' : DspModulesConfig} (h : JsonStruct.set c k v = .ok c') :
    (k ≠ "chain" → c'.chain = c.chain) ∧ (k ≠ "clicks" → c'.clicks = c.clicks) ∧
      (k ≠ "pops" → c'.pops = c.pops) ∧ (k ≠ "noise" → c'.noise = c.noise) ∧
      (k ≠ "squelch" → c'.squelch = c.squelch) ∧ (k ≠ "filter" → c'.filter = c.filter) ∧
      (k ≠ "dispersion" → c'.dispersion = c.dispersion) ∧
      (k ≠ "compressor" → c'.compressor = c.compressor) ∧
      (k ≠ "distortion" → c'.distortion = c.distortion) := by
  simp only [JsonStruct.set] at h
  split at h
  case h_10 => cases h; simp
  all_goals obtain ⟨x, -, rfl⟩ := ok_of_map h; simp

theorem ServerConfig.set_frame {c c' : ServerConfig} (h : JsonStruct.set c k v = .ok c')
    (hk : k ≠ "port") : c'.port = c.port := by
  simp only [JsonStruct.set] at h
  split at h
  case h_1 => exact absurd rfl hk
  case h_16 => cases h; rfl
  all_goals obtain ⟨x, -, rfl⟩ := ok_of_map h; rfl

end frames

section fields

open JsonStruct

theorem field_server : Field AppConfig.server "server" decodeStruct :=
  .of_map (p := fun b x => { b with server := x }) (fun _ _ => rfl) (fun _ _ => rfl)
    fun _ _ _ _ hk h => (AppConfig.set_frame h).1 hk

theorem field_modules : Field AppConfig.modules "modules" decodeStruct :=
  .of_map (p := fun b x => { b with modules := x }) (fun _ _ => rfl) (fun _ _ => rfl)
    fun _ _ _ _ hk h => (AppConfig.set_frame h).2 hk

theorem field_port : Field ServerConfig.port "port" decodeInt :=
  .of_map (p := fun b x => { b with port := x }) (fun _ _ => rfl) (fun _ _ => rfl)
    fun _ _ _ _ hk h => ServerConfig.set_frame h hk

theorem field_generators : Field ModulesConfig.generators "generators" decodeStruct :=
  .of_map (p := fun b x => { b with generators := x }) (fun _ _ => rfl) (fun _ _ => rfl)
    fun _ _ _ _ hk h => (ModulesConfig.set_frame h).1 hk

theorem field_dsp : Field ModulesConfig.dsp "dsp" decodeStruct :=
  .of_map (p := fun b x => { b with dsp := x }) (fun _ _ => rfl) (fun _ _ => rfl)
    fun _ _ _ _ hk h => (ModulesConfig.set_frame h).2.1 hk

theorem field_legacyNoise : Field ModulesConfig.noise "noise" decodePtr :=
  .of_map (p := fun b x => { b with noise := x }) (fun _ _ => rfl) (fun _ _ => rfl)
    fun _ _ _ _ hk h => (ModulesConfig.set_frame h).2.2.1 hk

theorem field_legacyClick : Field ModulesConfig.click "click" decodePtr :=
  .of_map (p := fun b x => { b with click := x }) (fun _ _ => rfl) (fun _ _ => rfl)
    fun _ _ _ _ hk h => (ModulesConfig.set_frame h).2.2.2.1 hk

theorem field_legacyFilter : Field ModulesConfig.filter "filter" decodePtr :=
  .of_map (p := fun b x => { b with filter := x }) (fun _ _ => rfl) (fun _ _ => rfl)
    fun _ _ _ _ hk h => (ModulesConfig.set_frame h).2.2.2.2.1 hk

theorem field_legacyCompressor : Field ModulesConfig.compressor "compressor" decodePtr :=
  .of_map (p := fun b x => { b with compressor := x }) (fun _ _ => rfl) (fun _ _ => rfl)
    fun _ _ _ _ hk h => (ModulesConfig.set_frame h).2.2.2.2.2.1 hk

theorem field_legacyDistortion : Field ModulesConfig.distortion "distortion" decodePtr :=
  .of_map (p := fun b x => { b with distortion := x }) (fun _ _ => rfl) (fun _ _ => rfl)
    fun _ _ _ _ hk h => (ModulesConfig.set_frame h).2.2.2.2.2.2 hk

theorem field_squelchShots :
    Field GeneratorsModulesConfig.squelchShots "squelch_shots" decodePtr :=
  .of_map (p := fun b x => { b with squelchShots := x }) (fun _ _ => rfl) (fun _ _ => rfl)
    fun _ _ _ _ hk h => GeneratorsModulesConfig.set_frame h hk

theorem field_chain : Field DspModulesConfig.chain "chain" decodeStrings :=
  .of_map (p := fun b x => { b with chain := x }) (fun _ _ => rfl) (fun _ _ => rfl)
    fun _ _ _ _ hk h => (DspModulesConfig.set_frame h).1 hk

theorem field_clicks : Field DspModulesConfig.clicks "clicks" decodePtr :=
  .of_map (p := fun b x => { b with clicks := x }) (fun _ _ => rfl) (fun _ _ => rfl)
    fun _ _ _ _ hk h => (DspModulesConfig.set_frame h).2.1 hk

theorem field_pops : Field DspModulesConfig.pops "pops" decodePtr :=
  .of_map (p := fun b x => { b with pops := x }) (fun _ _ => rfl) (fun _ _ => rfl)
    fun _ _ _ _ hk h => (DspModulesConfig.set_frame h).2.2.1 hk

theorem field_noise : Field DspModulesConfig.noise "noise" decodePtr :=
  .of_map (p := fun b x => { b with noise := x }) (fun _ _ => rfl) (fun _ _ => rfl)
    fun _ _ _ _ hk h => (DspModulesConfig.set_frame h).2.2.2.1 hk

theorem field_squelch : Field DspModulesConfig.squelch "squelch" decodePtr :=
  .of_map (p := fun b x => { b with squelch := x }) (fun _ _ => rfl) (fun _ _ => rfl)
    fun _ _ _ _ hk h => (DspModulesConfig.set_frame h).2.2.2.2.1 hk

theorem field_filter : Field DspModulesConfig.filter "filter" decodePtr :=
  .of_map (p := fun b x => { b with filter := x }) (fun _ _ => rfl) (fun _ _ => rfl)
    fun _ _ _ _ hk h => (DspModulesConfig.set_frame h).2.2.2.2.2.1 hk

theorem field_dispersion : Field DspModulesConfig.dispersion "dispersion" decodePtr :=
  .of_map (p := fun b x => { b with dispersion := x }) (fun _ _ => rfl) (fun _ _ => rfl)
    fun _ _ _ _ hk h => (DspModulesConfig.set_frame h).2.2.2.2.2.2.1 hk

theorem field_compressor : Field DspModulesConfig.compressor "compressor" decodePtr :=
  .of_map (p := fun b x => { b with compressor := x }) (fun _ _ => rfl) (fun _ _ => rfl)
    fun _ _ _ _ hk h => (DspModulesConfig.set_frame h).2.2.2.2.2.2.2.1 hk

theorem field_distortion : Field DspModulesConfig.distortion "distortion" decodePtr :=
  .of_map (p := fun b x => { b with distortion := x }) (fun _ _ => rfl) (fun _ _ => rfl)
    fun _ _ _ _ hk h => (DspModulesConfig.set_frame h).2.2.2.2.2.2.2.2 hk

variable {γ : Type} {key : String} {upd : γ → Json → Decoded γ}

theorem reads_server {get : ServerConfig → γ} (h : Field get key upd) :
    Reads decodeStruct (fun c : AppConfig => get c.server) ["server", key] upd :=
  field_server.reads.comp h.reads

theorem reads_modules {get : ModulesConfig → γ} (h : Field get key upd) :
    Reads decodeStruct (fun c : AppConfig => get c.modules) ["modules", key] upd :=
  field_modules.reads.comp h.reads

theorem reads_dsp {get : DspModulesConfig → γ} (h : Field get key upd) :
    Reads decodeStruct (fun c : AppConfig => get c.modules.dsp) ["modules", "dsp", key] upd :=
  (reads_modules field_dsp).comp h.reads

end fields

/-! ## The switch of a module block -/

/-- A block with the switch `enabled`, which a zero value has off. -/
class ModuleBlock (β : Type) [JsonStruct β] [Inhabited β] where
  enabled : β → Bool
  field_enabled : JsonStruct.Field enabled "enabled" decodeBool := by
    refine .of_map (p := fun b x => { b with enabled := x }) (fun _ _ => rfl) (fun _ _ => rfl) ?_
    intro b k v b' hk h
    simp only [JsonStruct.set] at h
    -- the switch's own key, another key, and a key that the block does not have
    split at h <;> first
      | exact absurd rfl hk
      | (obtain ⟨x, -, rfl⟩ := ok_of_map h; rfl)
      | (cases h; rfl)
  enabled_default : enabled default = false := by rfl

instance : ModuleBlock PopsConfig where enabled := PopsConfig.enabled
instance : ModuleBlock ClicksConfig where enabled := ClicksConfig.enabled
instance : ModuleBlock NoiseDSPConfig where enabled := NoiseDSPConfig.enabled
instance : ModuleBlock SquelchDSPConfig where enabled := SquelchDSPConfig.enabled
instance : ModuleBlock FilterConfig where enabled := FilterConfig.enabled
instance : ModuleBlock DispersionConfig where enabled := DispersionConfig.enabled
instance : ModuleBlock CompressorConfig where enabled := CompressorConfig.enabled
instance : ModuleBlock DistortionConfig where enabled := DistortionConfig.enabled
instance : ModuleBlock SquelchShotsGeneratorConfig where
  enabled := SquelchShotsGeneratorConfig.enabled
instance : ModuleBlock LegacyNoiseConfig where enabled := LegacyNoiseConfig.enabled
instance : ModuleBlock LegacyClickConfig where enabled := LegacyClickConfig.enabled

section switches

variable {β : Type} [JsonStruct β] [Inhabited β] [ModuleBlock β] {key : String}

theorem reads_dsp_enabled {get : DspModulesConfig → Option β}
    (h : JsonStruct.Field get key decodePtr) :
    Reads decodeStruct (fun c : AppConfig => (get c.modules.dsp).map ModuleBlock.enabled)
      ["modules", "dsp", key] (decodeSwitch "enabled") :=
  (reads_dsp h).comp (ModuleBlock.field_enabled.reads_ptr ModuleBlock.enabled_default)

theorem reads_modules_enabled {get : ModulesConfig → Option β}
    (h : JsonStruct.Field get key decodePtr) :
    Reads decodeStruct (fun c : AppConfig => (get c.modules).map ModuleBlock.enabled)
      ["modules", key] (decodeSwitch "enabled") :=
  (reads_modules h).comp (ModuleBlock.field_enabled.reads_ptr ModuleBlock.enabled_default)

end switches

end RelayConfig

end OWalkie
