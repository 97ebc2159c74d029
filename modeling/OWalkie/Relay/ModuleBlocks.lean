import OWalkie.Relay.ConfigFields

/-!
# Which modules a channel gets

`buildChannelModuleSets` builds the enabled blocks that the chain names.  The defaults have six of
the blocks enabled, and the chain that names them, before the file is decoded: `only_from_file_iff`
says which files get no module but those that they switch on.
-/

namespace OWalkie

namespace RelayConfig

/-! ## The modules of a channel -/

/-- A module, by the block that it is built from. -/
inductive BuiltModule where
  | squelchShots (cfg : SquelchShotsGeneratorConfig)
  | pops (cfg : PopsConfig)
  | clicks (cfg : ClicksConfig)
  | noise (cfg : NoiseDSPConfig)
  | squelch (cfg : SquelchDSPConfig)
  | filter (cfg : FilterConfig)
  | dispersion (cfg : DispersionConfig)
  | compressor (cfg : CompressorConfig)
  | distortion (cfg : DistortionConfig)
  deriving DecidableEq

def BuiltModule.name : BuiltModule → String
  | squelchShots _ => "squelch_shots"
  | pops _ => "pops"
  | clicks _ => "clicks"
  | noise _ => "noise"
  | squelch _ => "squelch"
  | filter _ => "filter"
  | dispersion _ => "dispersion"
  | compressor _ => "compressor"
  | distortion _ => "distortion"

/-- The module of an enabled block. -/
def built {α : Type} (enabled : α → Bool) (build : α → BuiltModule) (c : Option α) :
    Option BuiltModule := (c.filter enabled).map build

/-- The map `available` of `buildChannelModuleSets`. -/
def available (d : DspModulesConfig) (name : String) : Option BuiltModule :=
  match name with
  | "pops" => built PopsConfig.enabled .pops d.pops
  | "clicks" => built ClicksConfig.enabled .clicks d.clicks
  | "noise" => built NoiseDSPConfig.enabled .noise d.noise
  | "squelch" => built SquelchDSPConfig.enabled .squelch d.squelch
  | "filter" => built FilterConfig.enabled .filter d.filter
  | "dispersion" => built DispersionConfig.enabled .dispersion d.dispersion
  | "compressor" => built CompressorConfig.enabled .compressor d.compressor
  | "distortion" => built DistortionConfig.enabled .distortion d.distortion
  | _ => none

/-- The generators and the DSP modules of a channel. -/
def buildChannelModuleSets (m : ModulesConfig) : List BuiltModule × List BuiltModule :=
  ((built SquelchShotsGeneratorConfig.enabled .squelchShots m.generators.squelchShots).toList,
    if m.dsp.chain.elems = [] then [] else m.dsp.chain.elems.filterMap (available m.dsp))

/-! ## The switches -/

/-- The switch of a `dsp` block, by its name. -/
def dspSwitch (d : DspModulesConfig) (name : String) : Option Bool :=
  match name with
  | "pops" => d.pops.map PopsConfig.enabled
  | "clicks" => d.clicks.map ClicksConfig.enabled
  | "noise" => d.noise.map NoiseDSPConfig.enabled
  | "squelch" => d.squelch.map SquelchDSPConfig.enabled
  | "filter" => d.filter.map FilterConfig.enabled
  | "dispersion" => d.dispersion.map DispersionConfig.enabled
  | "compressor" => d.compressor.map CompressorConfig.enabled
  | "distortion" => d.distortion.map DistortionConfig.enabled
  | _ => none

/-- The legacy block that a module can come from. -/
def legacyKey (name : String) : Option String :=
  match name with
  | "pops" | "clicks" => some "click"
  | "noise" | "squelch" => some "noise"
  | "filter" => some "filter"
  | "compressor" => some "compressor"
  | "distortion" => some "distortion"
  | _ => none

/-- The switch of that block. -/
def legacySwitch (m : ModulesConfig) (name : String) : Option Bool :=
  match name with
  | "pops" | "clicks" => m.click.map LegacyClickConfig.enabled
  | "noise" | "squelch" => m.noise.map LegacyNoiseConfig.enabled
  | "filter" => m.filter.map FilterConfig.enabled
  | "compressor" => m.compressor.map CompressorConfig.enabled
  | "distortion" => m.distortion.map DistortionConfig.enabled
  | _ => none

theorem built_eq_some {α : Type} {enabled : α → Bool} {build : α → BuiltModule} {c : Option α}
    {mod : BuiltModule} (h : built enabled build c = some mod) :
    c.map enabled = some true ∧ ∃ x, mod = build x := by
  cases c with
  | none => cases h
  | some x =>
    unfold built at h
    cases hx : enabled x with
    | false => simp [Option.filter, hx] at h
    | true =>
      simp only [Option.filter, hx, if_true, Option.map_some, Option.some.injEq] at h
      exact ⟨by simp [hx], x, h.symm⟩

theorem built_of_switch {α : Type} {enabled : α → Bool} {build : α → BuiltModule} {c : Option α}
    (h : c.map enabled = some true) : ∃ x, built enabled build c = some (build x) := by
  cases c with
  | none => cases h
  | some x =>
    have hx : enabled x = true := by simpa using h
    exact ⟨x, by simp [built, Option.filter, hx]⟩

/-- A module is available exactly when its switch is on, and it goes by its name. -/
theorem available_eq_some {d : DspModulesConfig} {name : String} {mod : BuiltModule}
    (h : available d name = some mod) :
    name ∈ allowedModules ∧ dspSwitch d name = some true ∧ mod.name = name := by
  unfold available at h
  unfold dspSwitch
  split at h
  case h_9 => cases h
  all_goals obtain ⟨hon, x, rfl⟩ := built_eq_some h; exact ⟨by decide, hon, rfl⟩

theorem available_of_switch {d : DspModulesConfig} {name : String}
    (h : dspSwitch d name = some true) : ∃ mod, available d name = some mod ∧ mod.name = name := by
  unfold dspSwitch at h
  unfold available
  split at h
  case h_9 => cases h
  all_goals obtain ⟨x, hx⟩ := built_of_switch h; exact ⟨_, hx, rfl⟩

/-! ## What the file says about a module -/

/-- Some block at the path has `"enabled": true`. -/
def EnabledAt (doc : Json) (path : List String) : Prop :=
  .bool true ∈ doc.valuesAt (path ++ ["enabled"])

/-- The paths of the blocks that can switch a DSP module on. -/
def blockPaths (name : String) : List (List String) :=
  ["modules", "dsp", name] :: (legacyKey name).toList.map fun key => ["modules", key]

/-- The file switches the module on, or clears its `dsp` block, or switches that block off. -/
def Addressed (doc : Json) (name : String) : Prop :=
  (∃ path ∈ blockPaths name, EnabledAt doc path) ∨ .null ∈ doc.valuesAt ["modules", "dsp", name] ∨
    .bool false ∈ doc.valuesAt ["modules", "dsp", name, "enabled"]

/-- The chain that the file leaves in place. -/
def effectiveChain (doc : Json) : Decoded (List String) :=
  ((doc.valuesAt ["modules", "dsp", "chain"]).foldlM decodeStrings
    { elems := defaultChain }).map Slice.elems

/-- The modules that the defaults have switched on. -/
def onByDefault : List String := ["pops", "noise", "squelch", "filter", "compressor", "distortion"]

/-- A channel gets no module but those that the file switches on, and no DSP module outside the
chain. -/
structure OnlyFromFile (doc : Json) (cfg : AppConfig) : Prop where
  generators : ∀ mod ∈ (buildChannelModuleSets cfg.modules).1,
    EnabledAt doc ["modules", "generators", mod.name]
  dsp : ∀ mod ∈ (buildChannelModuleSets cfg.modules).2, mod.name ∈ cfg.modules.dsp.chain.elems ∧
    ∃ path ∈ blockPaths mod.name, EnabledAt doc path

/-! ## From the file to the switches -/

section loading

variable {doc : Json} {cfg₀ : AppConfig}

theorem dspSwitch_reads (h : decodeStruct defaultConfig doc = .ok cfg₀) {name : String}
    (hname : name ∈ allowedModules) :
    (doc.valuesAt ["modules", "dsp", name]).foldlM (decodeSwitch "enabled")
      (dspSwitch defaultDsp name) = .ok (dspSwitch cfg₀.modules.dsp name) := by
  simp only [allowedModules, List.mem_cons, List.not_mem_nil, or_false] at hname
  rcases hname with rfl | rfl | rfl | rfl | rfl | rfl | rfl | rfl
  · exact reads_dsp_enabled field_pops _ _ _ h
  · exact reads_dsp_enabled field_clicks _ _ _ h
  · exact reads_dsp_enabled field_noise _ _ _ h
  · exact reads_dsp_enabled field_squelch _ _ _ h
  · exact reads_dsp_enabled field_filter _ _ _ h
  · exact reads_dsp_enabled field_dispersion _ _ _ h
  · exact reads_dsp_enabled field_compressor _ _ _ h
  · exact reads_dsp_enabled field_distortion _ _ _ h

theorem legacySwitch_reads (h : decodeStruct defaultConfig doc = .ok cfg₀) {name key : String}
    (hkey : legacyKey name = some key) :
    (doc.valuesAt ["modules", key]).foldlM (decodeSwitch "enabled") none =
      .ok (legacySwitch cfg₀.modules name) := by
  unfold legacyKey at hkey
  unfold legacySwitch
  split at hkey <;> cases hkey
  · exact reads_modules_enabled field_legacyClick _ _ _ h
  · exact reads_modules_enabled field_legacyClick _ _ _ h
  · exact reads_modules_enabled field_legacyNoise _ _ _ h
  · exact reads_modules_enabled field_legacyNoise _ _ _ h
  · exact reads_modules_enabled field_legacyFilter _ _ _ h
  · exact reads_modules_enabled field_legacyCompressor _ _ _ h
  · exact reads_modules_enabled field_legacyDistortion _ _ _ h

theorem map_migrate {α β : Type} {enabled : α → Bool} {enabled' : β → Bool} {build : β → α}
    (hbuild : ∀ x, enabled (build x) = enabled' x) (cur : Option α) (legacy : Option β) :
    (migrate cur legacy build).map enabled =
      (cur.map enabled).orElse fun _ => legacy.map enabled' := by
  cases cur with
  | some x => rfl
  | none => cases legacy <;> simp [migrate, hbuild]

/-- The switch of a loaded block is that of the decoded block, or else that of a legacy block. -/
theorem dspSwitch_loaded (cfg₀ : AppConfig) {name : String} (hname : name ∈ allowedModules) :
    dspSwitch cfg₀.loaded.modules.dsp name =
      (dspSwitch cfg₀.modules.dsp name).orElse fun _ => legacySwitch cfg₀.modules name := by
  have hclicks : ∀ c : LegacyClickConfig, c.toClicks.enabled = c.enabled := by
    intro c
    unfold LegacyClickConfig.toClicks
    split <;> rfl
  simp only [allowedModules, List.mem_cons, List.not_mem_nil, or_false] at hname
  simp only [AppConfig.loaded, AppConfig.filled, AppConfig.normalize, normalizeModulesConfig]
  rcases hname with rfl | rfl | rfl | rfl | rfl | rfl | rfl | rfl <;>
    simp only [dspSwitch, legacySwitch]
  · exact map_migrate (fun _ => rfl) _ _
  · exact map_migrate hclicks _ _
  · rw [Option.map_map]
    exact map_migrate (fun _ => rfl) _ _
  · rw [Option.map_map]
    exact map_migrate (fun _ => rfl) _ _
  · exact map_migrate (fun _ => rfl) _ _
  · cases cfg₀.modules.dsp.dispersion <;> rfl
  · exact map_migrate (fun _ => rfl) _ _
  · exact map_migrate (fun _ => rfl) _ _

end loading

theorem not_enabled_of_not_enabledAt {doc : Json} {path : List String}
    (h : ¬ EnabledAt doc path) : ∀ v ∈ doc.valuesAt path, .bool true ∉ v.valuesAt ["enabled"] := by
  intro v hv hon
  apply h
  rw [EnabledAt, Json.valuesAt_append]
  exact List.mem_flatMap.2 ⟨v, hv, hon⟩

/-- A DSP module that the file does not switch on is on exactly when the defaults have it on and the
file leaves it so. -/
theorem loaded_on_iff {doc : Json} {cfg₀ : AppConfig}
    (h : decodeStruct defaultConfig doc = .ok cfg₀) {name : String}
    (hname : name ∈ allowedModules) (hoff : ∀ path ∈ blockPaths name, ¬ EnabledAt doc path) :
    dspSwitch cfg₀.loaded.modules.dsp name = some true ↔
      name ∈ onByDefault ∧ ¬ Addressed doc name := by
  have hdsp := foldlM_decodeSwitch_iff (dspSwitch_reads h hname)
    (not_enabled_of_not_enabledAt (hoff _ List.mem_cons_self))
  have hlegacy : legacySwitch cfg₀.modules name ≠ some true := by
    cases hkey : legacyKey name with
    | none =>
      intro hon
      unfold legacyKey at hkey
      unfold legacySwitch at hon
      split at hkey <;> simp_all
    | some key =>
      have hpath : ¬ EnabledAt doc ["modules", key] := hoff _ (by simp [blockPaths, hkey])
      have hon := foldlM_decodeSwitch_iff (legacySwitch_reads h hkey)
        (not_enabled_of_not_enabledAt hpath)
      intro hc
      exact absurd (hon.1 hc).1 (by simp)
  have hdefault : dspSwitch defaultDsp name = some true ↔ name ∈ onByDefault := by
    revert hname
    simp only [allowedModules, List.mem_cons, List.not_mem_nil, or_false]
    rintro (rfl | rfl | rfl | rfl | rfl | rfl | rfl | rfl) <;> decide
  have hflat : .bool false ∈ doc.valuesAt ["modules", "dsp", name, "enabled"] ↔
      ∃ v ∈ doc.valuesAt ["modules", "dsp", name], .bool false ∈ v.valuesAt ["enabled"] := by
    have happend := doc.valuesAt_append ["modules", "dsp", name] ["enabled"]
    simp only [List.cons_append, List.nil_append] at happend
    rw [happend, List.mem_flatMap]
  have hnot : ¬ Addressed doc name ↔ .null ∉ doc.valuesAt ["modules", "dsp", name] ∧
      ∀ v ∈ doc.valuesAt ["modules", "dsp", name], .bool false ∉ v.valuesAt ["enabled"] := by
    unfold Addressed
    rw [hflat]
    constructor
    · intro hn
      exact ⟨fun hm => hn (Or.inr (Or.inl hm)), fun v hv hm => hn (Or.inr (Or.inr ⟨v, hv, hm⟩))⟩
    · rintro ⟨hnull, hfalse⟩ (⟨path, hp, hon⟩ | hm | ⟨v, hv, hm⟩)
      · exact hoff path hp hon
      · exact hnull hm
      · exact hfalse v hv hm
  rw [dspSwitch_loaded cfg₀ hname, hnot, ← hdefault, ← hdsp]
  cases hs : dspSwitch cfg₀.modules.dsp name with
  | none => simpa using hlegacy
  | some b => simp

theorem chain_loaded {doc : Json} {cfg₀ : AppConfig}
    (h : decodeStruct defaultConfig doc = .ok cfg₀) :
    effectiveChain doc = .ok cfg₀.loaded.modules.dsp.chain.elems := by
  have hchain : (doc.valuesAt ["modules", "dsp", "chain"]).foldlM decodeStrings
      { elems := defaultChain } = .ok cfg₀.modules.dsp.chain := reads_dsp field_chain _ _ _ h
  rw [effectiveChain, hchain]
  rfl

theorem mem_dsp_iff {m : ModulesConfig} {mod : BuiltModule} :
    mod ∈ (buildChannelModuleSets m).2 ↔
      ∃ name ∈ m.dsp.chain.elems, available m.dsp name = some mod := by
  unfold buildChannelModuleSets
  by_cases hchain : m.dsp.chain.elems = []
  · simp [hchain]
  · simp [hchain, List.mem_filterMap]

/-- The squelch shots are off by default, so that only the file can switch them on. -/
theorem generators_from_file {doc : Json} {cfg₀ : AppConfig}
    (h : decodeStruct defaultConfig doc = .ok cfg₀) {mod : BuiltModule}
    (hmod : mod ∈ (buildChannelModuleSets cfg₀.loaded.modules).1) :
    EnabledAt doc ["modules", "generators", mod.name] := by
  obtain ⟨hon, x, rfl⟩ := built_eq_some (Option.mem_toList.1 hmod)
  by_contra hoff
  have hreads : Reads decodeStruct
      (fun c : AppConfig => c.modules.generators.squelchShots.map ModuleBlock.enabled)
      ["modules", "generators", "squelch_shots"] (decodeSwitch "enabled") :=
    ((reads_modules field_generators).comp field_squelchShots.reads).comp
      (ModuleBlock.field_enabled.reads_ptr ModuleBlock.enabled_default)
  have hiff := foldlM_decodeSwitch_iff (hreads _ _ _ h) (not_enabled_of_not_enabledAt hoff)
  exact absurd (hiff.1 hon).1 (by decide)

/-- A channel gets no module but those that the file switches on exactly when the file addresses
each module that the defaults have on and the chain names. -/
theorem only_from_file_iff {doc : Json} {cfg : AppConfig} (h : loadConfig doc = .ok cfg) :
    OnlyFromFile doc cfg ↔ ∀ chain, effectiveChain doc = .ok chain →
      ∀ name ∈ onByDefault, name ∈ chain → Addressed doc name := by
  obtain ⟨cfg₀, hdec, -, rfl⟩ := loadConfig_ok h
  have hchain := chain_loaded hdec
  constructor
  · intro honly chain hc name hdefault hmem
    obtain rfl : cfg₀.loaded.modules.dsp.chain.elems = chain :=
      Except.ok.inj (hchain.symm.trans hc)
    by_contra hnot
    have hname : name ∈ allowedModules := by
      revert hdefault
      simp only [onByDefault, List.mem_cons, List.not_mem_nil, or_false]
      rintro (rfl | rfl | rfl | rfl | rfl | rfl) <;> decide
    have hoff : ∀ path ∈ blockPaths name, ¬ EnabledAt doc path :=
      fun path hp hon => hnot (Or.inl ⟨path, hp, hon⟩)
    obtain ⟨mod, havail, hmod⟩ :=
      available_of_switch ((loaded_on_iff hdec hname hoff).2 ⟨hdefault, hnot⟩)
    obtain ⟨-, path, hp, hon⟩ := honly.dsp mod (mem_dsp_iff.2 ⟨name, hmem, havail⟩)
    rw [hmod] at hp
    exact hoff path hp hon
  · intro haddr
    refine ⟨fun mod hmod => generators_from_file hdec hmod, fun mod hmod => ?_⟩
    obtain ⟨name, hmem, havail⟩ := mem_dsp_iff.1 hmod
    obtain ⟨hname, hon, rfl⟩ := available_eq_some havail
    refine ⟨hmem, ?_⟩
    by_contra hnone
    push Not at hnone
    obtain ⟨hdefault, hnot⟩ := (loaded_on_iff hdec hname hnone).1 hon
    exact hnot (haddr _ hchain _ hdefault hmem)

/-- In the file's chain `null` stands for the name that the defaults have at its place. -/
example : effectiveChain (.obj [("modules", .obj [("dsp", .obj [("chain",
    .arr [.null, .str "noise"])])])]) = .ok ["pops", "noise"] := by
  rfl

/-- A file with the noise alone. -/
def noiseFile : Json :=
  .obj [("modules", .obj [("dsp", .obj [("chain", .arr [.str "noise"]),
    ("noise", .obj [("enabled", .bool true)])])])]

theorem only_from_file_noiseFile : ∃ cfg, loadConfig noiseFile = .ok cfg ∧
    OnlyFromFile noiseFile cfg := by
  obtain ⟨cfg, hcfg⟩ := exists_of_accepts (show accepts noiseFile = true by decide +kernel)
  refine ⟨cfg, hcfg, (only_from_file_iff hcfg).2 ?_⟩
  intro chain hchain name _ hmem
  obtain rfl : ["noise"] = chain := Except.ok.inj hchain
  obtain rfl := List.mem_singleton.1 hmem
  have hpath : ["modules", "dsp", "noise"] ∈ blockPaths "noise" := List.mem_cons_self
  refine Or.inl ⟨_, hpath, ?_⟩
  simp [EnabledAt, noiseFile, Json.valuesAt, Json.valuesOf]

/-- The empty file switches nothing on, and its channels get the pops. -/
theorem emptyFile_gets_pops :
    ¬ ∀ doc cfg, loadConfig doc = .ok cfg → OnlyFromFile doc cfg := by
  intro hall
  obtain ⟨cfg, hcfg⟩ := exists_of_accepts (show accepts (.obj []) = true by decide +kernel)
  obtain ⟨cfg₀, hdec, -, rfl⟩ := loadConfig_ok hcfg
  obtain rfl : defaultConfig = cfg₀ := Except.ok.inj hdec
  have hpops : .pops defaultPops ∈ (buildChannelModuleSets defaultConfig.loaded.modules).2 :=
    mem_dsp_iff.2 ⟨"pops", by decide, rfl⟩
  obtain ⟨-, path, hpath, hon⟩ := (hall _ _ hcfg).dsp _ hpops
  have hpath : path = ["modules", "dsp", "pops"] ∨ path = ["modules", "click"] := by
    simpa [blockPaths, legacyKey, BuiltModule.name] using hpath
  rcases hpath with rfl | rfl <;> exact absurd hon (by simp [EnabledAt, Json.valuesAt, Json.valuesOf])

end RelayConfig

end OWalkie
