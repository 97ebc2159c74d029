import OWalkie.Relay.ConfigFields

/-!
# Files in the legacy layout

A file that has only legacy blocks and addresses (`LegacyLayout`) is decoded over the defaults,
which have every block and the port already, so that neither migration ever acts.
`legacy_honoured_iff` says when the loaded configuration uses the legacy values all the same.
-/

namespace OWalkie

namespace RelayConfig

/-! ## What the file says -/

/-- The legacy block of the key, as the decoder leaves it. -/
def legacyBlock (β : Type) [JsonStruct β] [Inhabited β] (doc : Json) (key : String) :
    Decoded (Option β) := (doc.valuesAt ["modules", key]).foldlM decodePtr none

/-- The address of the key, as the decoder leaves it. -/
def legacyAddr (doc : Json) (key : String) : Decoded String :=
  (doc.valuesAt ["server", key]).foldlM decodeString ""

/-- The port in `ws_addr`, or else the one in `udp_addr`; `0` when neither has one. -/
def legacyPort (doc : Json) : ℤ :=
  let portOf (key : String) := parsePortFromListenAddr ((legacyAddr doc key).toOption.getD "")
  if 0 < portOf "ws_addr" then portOf "ws_addr" else portOf "udp_addr"

/-- No `modules.generators`, nothing but `chain` in `modules.dsp`, and no `server.port`. -/
structure LegacyLayout (doc : Json) : Prop where
  generators : doc.valuesAt ["modules", "generators"] = []
  dsp : ∀ key, key ≠ "chain" → doc.valuesAt ["modules", "dsp", key] = []
  port : doc.valuesAt ["server", "port"] = []

/-- The configuration uses the legacy values of the file. -/
structure HonoursLegacy (doc : Json) (cfg : AppConfig) : Prop where
  noise : ∀ n : LegacyNoiseConfig, legacyBlock _ doc "noise" = .ok (some n) →
    cfg.modules.dsp.noise = some n.toNoise.filled ∧
      cfg.modules.dsp.squelch = some n.toSquelch.filled
  click : ∀ c : LegacyClickConfig, legacyBlock _ doc "click" = .ok (some c) →
    cfg.modules.dsp.pops = some c.toPops ∧ cfg.modules.dsp.clicks = some c.toClicks
  filter : ∀ f : FilterConfig, legacyBlock _ doc "filter" = .ok (some f) →
    cfg.modules.dsp.filter = some f
  compressor : ∀ c : CompressorConfig, legacyBlock _ doc "compressor" = .ok (some c) →
    cfg.modules.dsp.compressor = some c
  distortion : ∀ d : DistortionConfig, legacyBlock _ doc "distortion" = .ok (some d) →
    cfg.modules.dsp.distortion = some d
  port : 0 < legacyPort doc → cfg.server.port = legacyPort doc

/-- The legacy values of the file say what the built-in blocks and the built-in port say. -/
structure SaysDefaults (doc : Json) : Prop where
  noise : ∀ n : LegacyNoiseConfig, legacyBlock _ doc "noise" = .ok (some n) →
    n.toNoise.filled = defaultNoise ∧ n.toSquelch.filled = defaultSquelch
  click : ∀ c : LegacyClickConfig, legacyBlock _ doc "click" ≠ .ok (some c)
  filter : ∀ f : FilterConfig, legacyBlock _ doc "filter" = .ok (some f) → f = defaultFilter
  compressor : ∀ c : CompressorConfig, legacyBlock _ doc "compressor" = .ok (some c) →
    c = defaultCompressor
  distortion : ∀ d : DistortionConfig, legacyBlock _ doc "distortion" = .ok (some d) →
    d = defaultDistortion
  port : 0 < legacyPort doc → legacyPort doc = 5500

/-! ## What is loaded -/

/-- A block that the file does not have keeps its default. -/
theorem dsp_eq_default {γ : Type} {get : DspModulesConfig → γ} {key : String}
    {upd : γ → Json → Decoded γ} (hf : JsonStruct.Field get key upd) {doc : Json}
    {cfg₀ : AppConfig} (h : decodeStruct defaultConfig doc = .ok cfg₀)
    (habsent : doc.valuesAt ["modules", "dsp", key] = []) :
    get cfg₀.modules.dsp = get defaultDsp := by
  have hreads := reads_dsp hf _ _ _ h
  rw [habsent] at hreads
  exact (Except.ok.inj hreads).symm

/-- Every part of a legacy file's `dsp` block that has a legacy source is the default, and so is the
port. -/
theorem loaded_of_legacyLayout {doc : Json} {cfg : AppConfig} (hlayout : LegacyLayout doc)
    (h : loadConfig doc = .ok cfg) :
    cfg.modules.dsp.noise = some defaultNoise ∧ cfg.modules.dsp.squelch = some defaultSquelch ∧
      cfg.modules.dsp.pops = some defaultPops ∧ cfg.modules.dsp.clicks = some defaultClicks ∧
      cfg.modules.dsp.filter = some defaultFilter ∧
      cfg.modules.dsp.compressor = some defaultCompressor ∧
      cfg.modules.dsp.distortion = some defaultDistortion ∧ cfg.server.port = 5500 := by
  obtain ⟨cfg₀, hdec, -, rfl⟩ := loadConfig_ok h
  have hport : cfg₀.server.port = 5500 := by
    have hreads := reads_server field_port _ _ _ hdec
    rw [hlayout.port] at hreads
    exact (Except.ok.inj hreads).symm
  have hnoise := dsp_eq_default field_noise hdec (hlayout.dsp _ (by decide))
  have hsquelch := dsp_eq_default field_squelch hdec (hlayout.dsp _ (by decide))
  have hpops := dsp_eq_default field_pops hdec (hlayout.dsp _ (by decide))
  have hclicks := dsp_eq_default field_clicks hdec (hlayout.dsp _ (by decide))
  have hfilter := dsp_eq_default field_filter hdec (hlayout.dsp _ (by decide))
  have hcompressor := dsp_eq_default field_compressor hdec (hlayout.dsp _ (by decide))
  have hdistortion := dsp_eq_default field_distortion hdec (hlayout.dsp _ (by decide))
  simp only [AppConfig.loaded, AppConfig.filled, AppConfig.normalize, normalizeModulesConfig,
    ServerConfig.normalize, normalizeServerListenPort, hnoise, hsquelch, hpops, hclicks, hfilter,
    hcompressor, hdistortion, hport]
  exact ⟨rfl, rfl, rfl, rfl, rfl, rfl, rfl, rfl⟩

/-- A `click` block switches the pops and the clicks together, and the defaults do not. -/
theorem click_ne_defaults (c : LegacyClickConfig) :
    ¬ (defaultPops = c.toPops ∧ defaultClicks = c.toClicks) := by
  rintro ⟨hpops, hclicks⟩
  have hon : true = c.enabled := congrArg PopsConfig.enabled hpops
  have hoff : false = c.enabled := by
    have := congrArg ClicksConfig.enabled hclicks
    unfold LegacyClickConfig.toClicks at this
    split at this <;> exact this
  rw [← hon] at hoff
  cases hoff

/-- An accepted file in the legacy layout is honoured exactly when it says what the defaults say. -/
theorem legacy_honoured_iff {doc : Json} {cfg : AppConfig} (hlayout : LegacyLayout doc)
    (h : loadConfig doc = .ok cfg) : HonoursLegacy doc cfg ↔ SaysDefaults doc := by
  obtain ⟨hnoise, hsquelch, hpops, hclicks, hfilter, hcompressor, hdistortion, hport⟩ :=
    loaded_of_legacyLayout hlayout h
  constructor
  · intro hon
    refine ⟨fun n hn => ?_, fun c hc => ?_, fun f hf => ?_, fun c hc => ?_, fun d hd => ?_, ?_⟩
    · obtain ⟨h₁, h₂⟩ := hon.noise n hn
      rw [hnoise, Option.some.injEq] at h₁
      rw [hsquelch, Option.some.injEq] at h₂
      exact ⟨h₁.symm, h₂.symm⟩
    · obtain ⟨h₁, h₂⟩ := hon.click c hc
      rw [hpops, Option.some.injEq] at h₁
      rw [hclicks, Option.some.injEq] at h₂
      exact click_ne_defaults c ⟨h₁, h₂⟩
    · exact Option.some.inj ((hon.filter f hf).symm.trans hfilter)
    · exact Option.some.inj ((hon.compressor c hc).symm.trans hcompressor)
    · exact Option.some.inj ((hon.distortion d hd).symm.trans hdistortion)
    · intro hpos
      rw [← hon.port hpos, hport]
  · intro hagree
    refine ⟨fun n hn => ?_, fun c hc => ?_, fun f hf => ?_, fun c hc => ?_, fun d hd => ?_, ?_⟩
    · obtain ⟨h₁, h₂⟩ := hagree.noise n hn
      exact ⟨by rw [hnoise, h₁], by rw [hsquelch, h₂]⟩
    · exact absurd hc (hagree.click c)
    · rw [hfilter, hagree.filter f hf]
    · rw [hcompressor, hagree.compressor c hc]
    · rw [hdistortion, hagree.distortion d hd]
    · intro hpos
      rw [hport, hagree.port hpos]

/-- A file that says the built-in filter and the built-in port in the legacy layout. -/
def agreeingFile : Json :=
  .obj [("server", .obj [("ws_addr", .str "0.0.0.0:5500")]),
    ("modules", .obj [("filter", .obj [("enabled", .bool true), ("low_cut_hz", .int 300),
      ("high_cut_hz", .float 3000)])])]

theorem legacy_honoured_agreeingFile :
    ∃ cfg, loadConfig agreeingFile = .ok cfg ∧ HonoursLegacy agreeingFile cfg := by
  obtain ⟨cfg, hcfg⟩ := exists_of_accepts (show accepts agreeingFile = true by decide +kernel)
  refine ⟨cfg, hcfg, (legacy_honoured_iff ⟨rfl, fun _ _ => rfl, rfl⟩ hcfg).2 ?_⟩
  refine ⟨fun n hn => ?_, fun c hc => ?_, fun f hf => ?_, fun c hc => ?_, fun d hd => ?_,
    fun _ => by decide⟩
  · cases (show (.ok none : Decoded (Option LegacyNoiseConfig)) = .ok (some n) from hn)
  · cases (show (.ok none : Decoded (Option LegacyClickConfig)) = .ok (some c) from hc)
  · exact (Option.some.inj (Except.ok.inj
      (show (.ok (some defaultFilter) : Decoded (Option FilterConfig)) = .ok (some f) from hf))).symm
  · cases (show (.ok none : Decoded (Option CompressorConfig)) = .ok (some c) from hc)
  · cases (show (.ok none : Decoded (Option DistortionConfig)) = .ok (some d) from hd)

/-- A file with both old addresses and the old filter block, switched off. -/
def oldFile : Json :=
  .obj [("server", .obj [("ws_addr", .str ":7000"), ("udp_addr", .str ":7001")]),
    ("modules", .obj [("filter", .obj [("enabled", .bool false), ("low_cut_hz", .int 300),
      ("high_cut_hz", .int 3000)])])]

/-- The relay listens on the built-in port and filters, whatever the old file says. -/
theorem oldFile_not_honoured :
    ¬ ∀ doc cfg, LegacyLayout doc → loadConfig doc = .ok cfg → HonoursLegacy doc cfg := by
  intro hall
  obtain ⟨cfg, hcfg⟩ := exists_of_accepts (show accepts oldFile = true by decide +kernel)
  have hlayout : LegacyLayout oldFile := ⟨rfl, fun _ _ => rfl, rfl⟩
  have hport := (hall oldFile cfg hlayout hcfg).port (by decide)
  rw [(loaded_of_legacyLayout hlayout hcfg).2.2.2.2.2.2.2] at hport
  exact absurd hport (by decide)

end RelayConfig

end OWalkie
