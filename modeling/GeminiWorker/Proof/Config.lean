import GeminiWorker.Lib.Except
import GeminiWorker.Proof.ConfigSettings
import GeminiWorker.Proof.R2Signature

/-!
# Configurations and environments

`Config::from_env_map` gives exactly the well-formed configurations: each of its settings keeps what is read within
bounds, and a configuration that is well formed can be written as an environment that is read as the same
configuration.

* `Config.WellFormed`: the bounds of all settings, and what the image host needs.
* `Config.toEnvMap`: the environment that is written.
* `config_exact`: what is accepted is well formed, and what is well formed is read back.
-/

namespace GeminiWorker

open Text (Trimmed)

/-! ## Written configurations -/

/-- The variables that a configuration is written as. -/
def Config.variables (config : Config) : List (String × String) :=
  [("PORT", toString config.port.toNat),
    ("UPSTREAM_BASE_URL", config.upstreamBaseUrl),
    ("UPSTREAM_API_KEY", config.upstreamApiKey),
    ("UPSTREAM_TIMEOUT_MS", toString config.upstreamTimeout.toNat),
    ("UPSTREAM_CONNECT_TIMEOUT_MS", toString config.upstreamConnectTimeout.toNat),
    ("UPSTREAM_INSECURE_SKIP_VERIFY", if config.upstreamInsecureSkipVerify then "true" else "false"),
    ("UPSTREAM_TCP_KEEPALIVE_MS", toString config.upstreamTcpKeepalive.toNat),
    ("UPSTREAM_POOL_IDLE_TIMEOUT_MS", toString config.upstreamPoolIdleTimeout.toNat),
    ("UPSTREAM_BLOCK_CACHE_TTL_MS", toString config.upstreamBlockCacheTtl.toNat),
    ("UPSTREAM_BLOCK_CACHE_MAX_ENTRIES", toString config.upstreamBlockCacheMaxEntries.toNat),
    ("IMAGE_HOST_MODE", config.imageHostMode),
    ("ALLOWED_PROXY_DOMAINS", Text.join "," config.allowedProxyDomains),
    ("PUBLIC_BASE_URL", config.publicBaseUrl),
    ("EXTERNAL_IMAGE_PROXY_PREFIX", config.externalImageProxyPrefix),
    ("SLOW_LOG_THRESHOLD_MS", toString config.slowLogThreshold.toNat),
    ("PROXY_STANDARD_OUTPUT_URLS", if config.proxyStandardOutputUrls then "true" else "false"),
    ("PROXY_R2_OUTPUT_URLS", if config.proxyR2OutputUrls then "true" else "false"),
    ("PROXY_SPECIAL_UPSTREAM_URLS", if config.proxySpecialUpstreamUrls then "true" else "false"),
    ("OPENAI_IMAGE_UPSTREAM_URL_PROXY_PREFIX", config.openaiImageUpstreamUrlProxyPrefix),
    ("ENABLE_IMAGE_COMPRESSION", if config.enableImageCompression then "true" else "false"),
    ("ENABLE_REQUEST_IMAGE_WEBP_OPTIMIZATION", if config.enableRequestImageWebpOptimization then "true" else "false"),
    ("IMAGE_COMPRESSION_JPEG_QUALITY", toString config.imageCompressionJpegQuality.toNat),
    ("ADMIN_PASSWORD", config.adminPassword),
    ("IMAGE_FETCH_TIMEOUT_MS", toString config.imageFetchTimeout.toNat),
    ("IMAGE_TLS_HANDSHAKE_TIMEOUT_MS", toString config.imageTlsHandshakeTimeout.toNat),
    ("IMAGE_FETCH_INSECURE_SKIP_VERIFY", if config.imageFetchInsecureSkipVerify then "true" else "false"),
    ("IMAGE_FETCH_EXTERNAL_PROXY_DOMAINS", Text.join "," config.imageFetchExternalProxyDomains),
    ("OPENAI_IMAGE_B64_JSON_UPSTREAM_DOMAINS", Text.join "," config.openaiImageB64JsonUpstreamDomains),
    ("OPENAI_IMAGE_EDITS_UPSTREAM_DOMAINS", Text.join "," config.openaiImageEditsUpstreamDomains),
    ("INLINE_DATA_URL_CACHE_DIR", config.inlineDataUrlCacheDir),
    ("INLINE_DATA_URL_CACHE_TTL_MS", toString config.inlineDataUrlCacheTtl.toNat),
    ("INLINE_DATA_URL_CACHE_MAX_BYTES", toString config.inlineDataUrlCacheMaxBytes.toNat),
    ("INLINE_DATA_URL_MEMORY_CACHE_MAX_BYTES", toString config.inlineDataUrlMemoryCacheMaxBytes.toNat),
    ("INLINE_DATA_URL_BACKGROUND_FETCH_WAIT_TIMEOUT_MS",
      toString config.inlineDataUrlBackgroundFetchWaitTimeout.toNat),
    ("INLINE_DATA_URL_BACKGROUND_FETCH_TOTAL_TIMEOUT_MS",
      toString config.inlineDataUrlBackgroundFetchTotalTimeout.toNat),
    ("INLINE_DATA_URL_BACKGROUND_FETCH_MAX_INFLIGHT",
      toString config.inlineDataUrlBackgroundFetchMaxInflight.toNat),
    ("BLOB_INLINE_MAX_BYTES", toString config.blobInlineMaxBytes.toNat),
    ("BLOB_REQUEST_HOT_BUDGET_BYTES", toString config.blobRequestHotBudgetBytes.toNat),
    ("BLOB_GLOBAL_HOT_BUDGET_BYTES", toString config.blobGlobalHotBudgetBytes.toNat),
    ("BLOB_SPILL_DIR", config.blobSpillDir),
    ("UPLOAD_TIMEOUT_MS", toString config.uploadTimeout.toNat),
    ("UPLOAD_TLS_HANDSHAKE_TIMEOUT_MS", toString config.uploadTlsHandshakeTimeout.toNat),
    ("UPLOAD_INSECURE_SKIP_VERIFY", if config.uploadInsecureSkipVerify then "true" else "false"),
    ("R2_ENDPOINT", config.r2Endpoint),
    ("R2_BUCKET", config.r2Bucket),
    ("R2_ACCESS_KEY_ID", config.r2AccessKeyId),
    ("R2_SECRET_ACCESS_KEY", config.r2SecretAccessKey),
    ("R2_PUBLIC_BASE_URL", config.r2PublicBaseUrl),
    ("R2_OBJECT_PREFIX", slashed config.r2ObjectPrefix)]

def Config.toEnvMap (config : Config) (name : String) : Option String := config.variables.lookup name

/-! ## What is accepted -/

section

variable (parse : String → Except String Url) (toText : Url → String)

/-- A text that is taken for the base of `http` URLs. -/
def IsHttpBase (raw : String) : Prop :=
  ∃ url, parse (Text.trim raw) = .ok url ∧ url.isHttp = true ∧ Text.trim (url.hostStr.getD "") ≠ ""

/-- The settings of the image host are complete. -/
structure R2Config.Complete (config : R2Config) : Prop where
  required : ∀ e ∈ config.required, Text.trim e.2 ≠ ""
  endpoint : IsHttpBase parse config.r2Endpoint
  publicBaseUrl : IsHttpBase parse config.r2PublicBaseUrl

/-- What a configuration is that some environment gives. -/
structure Config.WellFormed (config : Config) : Prop where
  upstreamBaseUrl : Trimmed config.upstreamBaseUrl ∧ config.upstreamBaseUrl ≠ ""
  positive : ∀ timeout ∈ [config.upstreamTimeout, config.upstreamConnectTimeout, config.upstreamTcpKeepalive,
    config.upstreamPoolIdleTimeout, config.imageFetchTimeout, config.imageTlsHandshakeTimeout, config.uploadTimeout,
    config.uploadTlsHandshakeTimeout], 0 < timeout
  quality : 1 ≤ config.imageCompressionJpegQuality ∧ config.imageCompressionJpegQuality ≤ 100
  lists : ∀ parts ∈ [config.allowedProxyDomains, config.imageFetchExternalProxyDomains,
    config.openaiImageB64JsonUpstreamDomains, config.openaiImageEditsUpstreamDomains], Csv parts
  allowed : config.allowedProxyDomains ≠ []
  lower : ∀ parts ∈ [config.openaiImageB64JsonUpstreamDomains, config.openaiImageEditsUpstreamDomains], Lower parts
  enabled : ∀ text ∈ [config.externalImageProxyPrefix, config.openaiImageUpstreamUrlProxyPrefix, config.adminPassword,
    config.inlineDataUrlCacheDir, config.blobSpillDir], Enabled text
  spillDir : config.blobSpillDir ≠ ""
  publicBaseUrl : normalizeOptionalHttpBaseUrl parse toText config.publicBaseUrl = config.publicBaseUrl
  legacyHosts : config.legacyUguuUploadUrl = defaultLegacyUguuUploadUrl ∧
    config.legacyKefanUploadUrl = defaultLegacyKefanUploadUrl
  trimmed : ∀ text ∈ [config.r2Endpoint, config.r2Bucket, config.r2AccessKeyId, config.r2SecretAccessKey,
    config.r2PublicBaseUrl], Trimmed text
  objectPrefix : Unslashed config.r2ObjectPrefix ∧ config.r2ObjectPrefix ≠ ""
  imageHostMode : config.imageHostMode ∈ ["legacy", "r2", "r2_then_legacy"]
  complete : config.imageHostMode ≠ "legacy" → config.toR2Config.Complete parse

end

section

variable {parse : String → Except String Url} {toText : Url → String} {config : Config}

/-! ## The image host -/

theorem parseHttpBaseUrl_eq_ok_iff {raw envName : String} {url : Url} : parseHttpBaseUrl parse raw envName = .ok url ↔
    Text.trim raw ≠ "" ∧ parse (Text.trim raw) = .ok url ∧ url.isHttp = true ∧ Text.trim (url.hostStr.getD "") ≠ "" := by
  unfold parseHttpBaseUrl
  dsimp only
  rw [Except.ite_throw_eq_ok]
  refine and_congr_right fun _ => ?_
  rcases parse (Text.trim raw) with err | parsed
  · constructor
    · intro h
      cases h
    · rintro ⟨h, -⟩
      cases h
  · dsimp only
    rw [pure_bind, Except.ite_throw_eq_ok, Except.ite_throw_eq_ok, Except.pure_eq_ok, Except.ok.injEq]
    constructor
    · rintro ⟨hhttp, hhost, rfl⟩
      exact ⟨rfl, by simpa using hhttp, hhost⟩
    · rintro ⟨rfl, hhttp, hhost⟩
      exact ⟨by simpa using hhttp, hhost, rfl⟩

theorem isHttpBase_iff {raw envName : String} (hraw : Text.trim raw ≠ "") :
    (∃ url, parseHttpBaseUrl parse raw envName = .ok url) ↔ IsHttpBase parse raw := by
  refine exists_congr fun url => ?_
  rw [parseHttpBaseUrl_eq_ok_iff]
  exact and_iff_right hraw

theorem validate_eq_ok_iff {r2 : R2Config} : validate parse r2 = .ok () ↔
    r2.imageHostMode ∈ ["", "legacy", "r2", "r2_then_legacy"] ∧
      (r2.imageHostMode ∈ ["r2", "r2_then_legacy"] → r2.Complete parse) := by
  unfold validate
  rw [Except.ite_throw_eq_ok, not_not]
  refine and_congr_right fun _ => ?_
  dsimp only
  split
  · rename_i hmode
    rw [imp_iff_right hmode]
    split
    · -- a variable that is missing
      rename_i name value hfind
      constructor
      · intro h
        cases h
      · intro h
        have hblank := List.find?_some hfind
        exact absurd (by simpa using hblank) (h.required (name, value) (List.mem_of_find?_eq_some hfind))
    · rename_i hfind
      have hrequired : ∀ e ∈ r2.required, Text.trim e.2 ≠ "" := by
        intro e he
        have hnot := List.find?_eq_none.mp hfind e he
        simpa using hnot
      have hendpoint := @isHttpBase_iff parse r2.r2Endpoint "R2_ENDPOINT"
        (hrequired ("R2_ENDPOINT", _) (by simp [R2Config.required]))
      have hpublic := @isHttpBase_iff parse r2.r2PublicBaseUrl "R2_PUBLIC_BASE_URL"
        (hrequired ("R2_PUBLIC_BASE_URL", _) (by simp [R2Config.required]))
      rcases hendpointResult : parseHttpBaseUrl parse r2.r2Endpoint "R2_ENDPOINT" with err | endpoint
      · -- an endpoint that is no base
        constructor
        · intro h
          cases h
        · intro h
          obtain ⟨url, hurl⟩ := hendpoint.mpr h.endpoint
          rw [hendpointResult] at hurl
          cases hurl
      · rcases hpublicResult : parseHttpBaseUrl parse r2.r2PublicBaseUrl "R2_PUBLIC_BASE_URL" with err | publicBaseUrl
        · constructor
          · intro h
            cases h
          · intro h
            obtain ⟨url, hurl⟩ := hpublic.mpr h.publicBaseUrl
            rw [hpublicResult] at hurl
            cases hurl
        · have hcomplete : r2.Complete parse :=
            ⟨hrequired, hendpoint.mp ⟨endpoint, hendpointResult⟩, hpublic.mp ⟨publicBaseUrl, hpublicResult⟩⟩
          exact ⟨fun _ => hcomplete, fun _ => rfl⟩
  · rename_i hmode
    exact ⟨fun _ h => absurd h hmode, fun _ => rfl⟩

/-! ## The base of public URLs -/

/-- A base as it is kept. -/
def baseText (toText : Url → String) (url : Url) : String := Text.trimEndMatches '/' (toText url)

/-- The base of a URL is read as a URL with the same base, and is written with its scheme first. -/
structure ReadsBases (parse : String → Except String Url) (toText : Url → String) : Prop where
  reads : ∀ text url, parse text = .ok url → url.isHttp = true → Text.trim (url.hostStr.getD "") ≠ "" →
    ∃ url', parse (baseText toText url) = .ok url' ∧ url'.isHttp = true ∧ Text.trim (url'.hostStr.getD "") ≠ "" ∧
      baseText toText url' = baseText toText url
  starts : ∀ text url, parse text = .ok url → url.isHttp = true →
    Trimmed (baseText toText url) ∧ Text.startsWith "http" (baseText toText url) = true

theorem isDisabledValue_of_startsWith {text : String} (htrimmed : Trimmed text)
    (h : Text.startsWith "http" text = true) : isDisabledValue text = false := by
  obtain ⟨rest, hrest⟩ := List.isPrefixOf_iff_prefix.mp h
  have hlower : (Text.toAsciiLowercase text).toList.head? = some 'h' := by
    rw [Text.toAsciiLowercase, String.toList_ofList, ← hrest]
    rfl
  have hnone : ∀ text ∈ ["", "0", "false", "no", "n", "off", "disable", "disabled", "none"],
      text.toList.head? ≠ some 'h' := by decide
  unfold isDisabledValue
  rw [htrimmed, decide_eq_false_iff_not]
  exact fun hmem => hnone _ hmem hlower

theorem normalize_empty : normalizeOptionalHttpBaseUrl parse toText "" = "" := if_pos (by decide)

/-- What is kept of a base is kept as it is. -/
theorem normalize_normalize (hbases : ReadsBases parse toText) (raw : String) :
    normalizeOptionalHttpBaseUrl parse toText (normalizeOptionalHttpBaseUrl parse toText raw) =
      normalizeOptionalHttpBaseUrl parse toText raw := by
  by_cases hdisabled : isDisabledValue raw = true
  · have hraw : normalizeOptionalHttpBaseUrl parse toText raw = "" := if_pos hdisabled
    rw [hraw, normalize_empty]
  · rcases hparse : parseHttpBaseUrl parse raw "PUBLIC_BASE_URL" with err | url
    · have hraw : normalizeOptionalHttpBaseUrl parse toText raw = "" := by
        rw [normalizeOptionalHttpBaseUrl, if_neg hdisabled, hparse]
      rw [hraw, normalize_empty]
    · have hraw : normalizeOptionalHttpBaseUrl parse toText raw = baseText toText url := by
        rw [normalizeOptionalHttpBaseUrl, if_neg hdisabled, hparse]
        rfl
      obtain ⟨-, hurl, hhttp, hhost⟩ := parseHttpBaseUrl_eq_ok_iff.mp hparse
      obtain ⟨htrimmed, hstarts⟩ := hbases.starts _ url hurl hhttp
      obtain ⟨url', hurl', hhttp', hhost', hsame⟩ := hbases.reads _ url hurl hhttp hhost
      -- what is kept starts with its scheme, so that it is no word for disabled
      have hne : baseText toText url ≠ "" := by
        intro h
        rw [h] at hstarts
        exact absurd hstarts (by decide)
      have hagain : parseHttpBaseUrl parse (baseText toText url) "PUBLIC_BASE_URL" = .ok url' := by
        rw [parseHttpBaseUrl_eq_ok_iff, htrimmed]
        exact ⟨hne, hurl', hhttp', hhost'⟩
      rw [hraw, normalizeOptionalHttpBaseUrl, isDisabledValue_of_startsWith htrimmed hstarts, hagain]
      exact hsame

def baseSetting (hbases : ReadsBases parse toText) : Setting String :=
  .total id (fun base => normalizeOptionalHttpBaseUrl parse toText base = base) ""
    (normalizeOptionalHttpBaseUrl parse toText) normalize_empty (normalize_normalize hbases) fun _ h => h

/-! ## Both ways -/

/-- **What is accepted is well formed.** -/
theorem fromEnvMap_wellFormed (hbases : ReadsBases parse toText) {envMap : String → Option String}
    (h : Config.fromEnvMap parse toText envMap = .ok config) : config.WellFormed parse toText := by
  unfold Config.fromEnvMap at h
  dsimp only at h
  obtain ⟨r2, hr2, hconfig⟩ := Except.bind_eq_ok.mp h
  obtain rfl := Except.pure_eq_ok.mp hconfig
  unfold R2Config.fromEnvMap at hr2
  dsimp only at hr2
  obtain ⟨⟨⟩, hvalid, hr2⟩ := Except.bind_eq_ok.mp hr2
  obtain rfl := Except.pure_eq_ok.mp hr2
  obtain ⟨hmode, hcomplete⟩ := validate_eq_ok_iff.mp hvalid
  have htrim : ∀ name, Trimmed (((envMap name).map Text.trim).getD "") := by
    intro name
    rcases envMap name with _ | value
    · exact (by decide : Text.trim "" = "")
    · exact Text.trimmed_trim value
  have hmodeRead := (@textSetting "legacy" ⟨by decide, by decide⟩).valid_read (envMap "IMAGE_HOST_MODE")
  constructor
  case upstreamBaseUrl => exact (textSetting ⟨by decide, by decide⟩).valid_read _
  case positive =>
    simp only [List.forall_mem_cons]
    have hpositive : ∀ {defaultValue : UInt64} (h : 0 < defaultValue) (name : String),
        0 < parsePositiveU64WithDefault defaultValue (envMap name) := fun h name => (positiveSetting h).valid_read _
    refine ⟨hpositive (by decide) _, hpositive (by decide) _, hpositive (by decide) _, hpositive (by decide) _,
      hpositive (by decide) _, hpositive (by decide) _, hpositive (by decide) _, hpositive (by decide) _, ?_⟩
    exact List.forall_mem_nil _
  case quality => exact (qualitySetting (by decide)).valid_read _
  case lists =>
    simp only [List.forall_mem_cons]
    refine ⟨((csvNonEmptySetting ⟨by decide, by decide⟩).valid_read _).1, (csvSetting (by decide)).valid_read _,
      ((lowerCsvSetting (by decide)).valid_read _).1, ((lowerCsvSetting (by decide)).valid_read _).1, ?_⟩
    exact List.forall_mem_nil _
  case allowed => exact ((csvNonEmptySetting ⟨by decide, by decide⟩).valid_read _).2
  case lower =>
    simp only [List.forall_mem_cons]
    refine ⟨((lowerCsvSetting (by decide)).valid_read _).2, ((lowerCsvSetting (by decide)).valid_read _).2, ?_⟩
    exact List.forall_mem_nil _
  case enabled =>
    simp only [List.forall_mem_cons]
    refine ⟨enabledSetting.valid_read _, enabledSetting.valid_read _, enabledSetting.valid_read _,
      enabledSetting.valid_read _, ((enabledTextSetting ⟨by decide, by decide⟩).valid_read _).1, ?_⟩
    exact List.forall_mem_nil _
  case spillDir => exact ((enabledTextSetting ⟨by decide, by decide⟩).valid_read _).2
  case publicBaseUrl => exact (baseSetting hbases).valid_read _
  case legacyHosts => exact ⟨rfl, rfl⟩
  case trimmed =>
    simp only [List.forall_mem_cons]
    refine ⟨htrim _, htrim _, htrim _, htrim _, htrim _, ?_⟩
    exact List.forall_mem_nil _
  case objectPrefix => exact (objectPrefixSetting ⟨by decide, by decide⟩).valid_read _
  case imageHostMode =>
    rcases List.mem_cons.mp hmode with hempty | hmode
    · exact absurd (Text.toAsciiLowercase_eq_empty.mp hempty) hmodeRead.2
    · exact hmode
  case complete =>
    intro hlegacy
    refine hcomplete ?_
    rcases List.mem_cons.mp hmode with hempty | hmode
    · exact absurd (Text.toAsciiLowercase_eq_empty.mp hempty) hmodeRead.2
    · rcases List.mem_cons.mp hmode with hsame | hmode
      · exact absurd hsame hlegacy
      · exact hmode

attribute [ext] R2Config

theorem r2_toEnvMap (h : config.WellFormed parse toText) :
    R2Config.fromEnvMap parse config.toEnvMap = .ok config.toR2Config := by
  have hread : ∀ mode ∈ ["legacy", "r2", "r2_then_legacy"],
      Text.toAsciiLowercase ((((some mode).map Text.trim).filter (· != "")).getD "legacy") = mode := by decide
  have htrimmed := h.trimmed
  simp only [List.forall_mem_cons] at htrimmed
  obtain ⟨hendpoint, hbucket, hkeyId, hsecret, hpublic, -⟩ := htrimmed
  have hr2 : (⟨Text.toAsciiLowercase ((((config.toEnvMap "IMAGE_HOST_MODE").map Text.trim).filter (· != "")).getD "legacy"),
      ((config.toEnvMap "R2_ENDPOINT").map Text.trim).getD "", ((config.toEnvMap "R2_BUCKET").map Text.trim).getD "",
      ((config.toEnvMap "R2_ACCESS_KEY_ID").map Text.trim).getD "",
      ((config.toEnvMap "R2_SECRET_ACCESS_KEY").map Text.trim).getD "",
      ((config.toEnvMap "R2_PUBLIC_BASE_URL").map Text.trim).getD "",
      (((config.toEnvMap "R2_OBJECT_PREFIX").map fun value =>
        Text.trimMatches '/' (Text.trim value)).filter (· != "")).getD "images"⟩ : R2Config) = config.toR2Config := by
    apply R2Config.ext
    case imageHostMode => exact hread _ h.imageHostMode
    case r2Endpoint => exact hendpoint
    case r2Bucket => exact hbucket
    case r2AccessKeyId => exact hkeyId
    case r2SecretAccessKey => exact hsecret
    case r2PublicBaseUrl => exact hpublic
    case r2ObjectPrefix => exact (objectPrefixSetting ⟨by decide, by decide⟩).read_back h.objectPrefix rfl
  unfold R2Config.fromEnvMap
  dsimp only
  rw [hr2]
  have hvalid : validate parse config.toR2Config = .ok () := by
    refine validate_eq_ok_iff.mpr ⟨List.mem_cons_of_mem _ h.imageHostMode, fun hmode => h.complete ?_⟩
    intro hlegacy
    rw [hlegacy] at hmode
    exact absurd hmode (by decide)
  rw [hvalid]
  rfl

/-- **What is well formed is read back from what is written of it.** -/
theorem fromEnvMap_toEnvMap (hbases : ReadsBases parse toText) (h : config.WellFormed parse toText) :
    Config.fromEnvMap parse toText config.toEnvMap = .ok config := by
  unfold Config.fromEnvMap
  dsimp only
  rw [r2_toEnvMap h, Except.ok_bind, Except.pure_eq_ok]
  have hpositive := h.positive
  have hlists := h.lists
  have hlower := h.lower
  have henabled := h.enabled
  simp only [List.forall_mem_cons] at hpositive hlists hlower henabled
  obtain ⟨hupstream, hconnect, hkeepalive, hidle, hfetch, hfetchTls, hupload, huploadTls, -⟩ := hpositive
  obtain ⟨hallowed, hexternal, hb64, hedits, -⟩ := hlists
  obtain ⟨hlowerB64, hlowerEdits, -⟩ := hlower
  obtain ⟨hproxyPrefix, hopenaiPrefix, hpassword, hcacheDir, hspillDir, -⟩ := henabled
  apply Config.ext
  case port => exact (portSetting _).read_back trivial rfl
  case upstreamBaseUrl => exact (textSetting ⟨by decide, by decide⟩).read_back h.upstreamBaseUrl rfl
  case upstreamTimeout => exact (positiveSetting (by decide)).read_back hupstream rfl
  case upstreamConnectTimeout => exact (positiveSetting (by decide)).read_back hconnect rfl
  case upstreamTcpKeepalive => exact (positiveSetting (by decide)).read_back hkeepalive rfl
  case upstreamPoolIdleTimeout => exact (positiveSetting (by decide)).read_back hidle rfl
  case imageFetchTimeout => exact (positiveSetting (by decide)).read_back hfetch rfl
  case imageTlsHandshakeTimeout => exact (positiveSetting (by decide)).read_back hfetchTls rfl
  case uploadTimeout => exact (positiveSetting (by decide)).read_back hupload rfl
  case uploadTlsHandshakeTimeout => exact (positiveSetting (by decide)).read_back huploadTls rfl
  case imageCompressionJpegQuality => exact (qualitySetting (by decide)).read_back h.quality rfl
  case allowedProxyDomains => exact (csvNonEmptySetting ⟨by decide, by decide⟩).read_back ⟨hallowed, h.allowed⟩ rfl
  case imageFetchExternalProxyDomains => exact (csvSetting (by decide)).read_back hexternal rfl
  case openaiImageB64JsonUpstreamDomains => exact (lowerCsvSetting (by decide)).read_back ⟨hb64, hlowerB64⟩ rfl
  case openaiImageEditsUpstreamDomains => exact (lowerCsvSetting (by decide)).read_back ⟨hedits, hlowerEdits⟩ rfl
  case externalImageProxyPrefix => exact enabledSetting.read_back hproxyPrefix rfl
  case openaiImageUpstreamUrlProxyPrefix => exact enabledSetting.read_back hopenaiPrefix rfl
  case adminPassword => exact enabledSetting.read_back hpassword rfl
  case inlineDataUrlCacheDir => exact enabledSetting.read_back hcacheDir rfl
  case blobSpillDir => exact (enabledTextSetting ⟨by decide, by decide⟩).read_back ⟨hspillDir, h.spillDir⟩ rfl
  case publicBaseUrl => exact (baseSetting hbases).read_back h.publicBaseUrl rfl
  case legacyUguuUploadUrl => exact h.legacyHosts.1.symm
  case legacyKefanUploadUrl => exact h.legacyHosts.2.symm
  case inlineDataUrlMemoryCacheMaxBytes => exact (cacheBytesSetting _).read_back trivial rfl
  case upstreamBlockCacheTtl | upstreamBlockCacheMaxEntries | slowLogThreshold | inlineDataUrlCacheTtl
    | inlineDataUrlCacheMaxBytes | inlineDataUrlBackgroundFetchWaitTimeout | inlineDataUrlBackgroundFetchTotalTimeout
    | inlineDataUrlBackgroundFetchMaxInflight | blobInlineMaxBytes | blobRequestHotBudgetBytes
    | blobGlobalHotBudgetBytes => exact (numberSetting _).read_back trivial rfl
  case upstreamInsecureSkipVerify | proxyStandardOutputUrls | proxyR2OutputUrls | proxySpecialUpstreamUrls
    | enableImageCompression | enableRequestImageWebpOptimization | imageFetchInsecureSkipVerify
    | uploadInsecureSkipVerify => exact (boolSetting _).read_back trivial rfl
  all_goals rfl

/-- **`from_env_map` gives the well-formed configurations and no others, and each is read back from its own
variables.** -/
theorem config_exact (hbases : ReadsBases parse toText) (config : Config) :
    (config.WellFormed parse toText ↔ ∃ envMap, Config.fromEnvMap parse toText envMap = .ok config) ∧
      ∀ envMap, Config.fromEnvMap parse toText envMap = .ok config →
        Config.fromEnvMap parse toText config.toEnvMap = .ok config := by
  have hback : config.WellFormed parse toText → Config.fromEnvMap parse toText config.toEnvMap = .ok config :=
    fromEnvMap_toEnvMap hbases
  refine ⟨⟨fun h => ⟨config.toEnvMap, hback h⟩, ?_⟩, fun envMap h => hback (fromEnvMap_wellFormed hbases h)⟩
  rintro ⟨envMap, h⟩
  exact fromEnvMap_wellFormed hbases h

/-- A parser that knows one URL. -/
def parseExampleBase (text : String) : Except String Url :=
  if text = "https://cdn.example.com" then .ok (exampleUrl "cdn.example.com") else .error "relative URL without a base"

def exampleVariables (name : String) : Option String :=
  [("PORT", " +8080 "), ("PUBLIC_BASE_URL", "https://cdn.example.com"), ("ALLOWED_PROXY_DOMAINS", " a.example,, b.example "),
    ("IMAGE_COMPRESSION_JPEG_QUALITY", "101"), ("ADMIN_PASSWORD", "Off")].lookup name

theorem config_exact_example : ∃ config, Config.fromEnvMap parseExampleBase exampleText exampleVariables = .ok config ∧
    (config.port = 8080 ∧ config.allowedProxyDomains = ["a.example", "b.example"] ∧
      config.imageCompressionJpegQuality = 97 ∧ config.adminPassword = "") ∧
    Config.fromEnvMap parseExampleBase exampleText config.toEnvMap = .ok config := by
  have hurl : ∀ text url, parseExampleBase text = .ok url → url = exampleUrl "cdn.example.com" := by
    intro text url h
    unfold parseExampleBase at h
    split at h
    · exact (Except.ok.inj h).symm
    · cases h
  have hbase : baseText exampleText (exampleUrl "cdn.example.com") = "https://cdn.example.com" := by decide
  have hbases : ReadsBases parseExampleBase exampleText := by
    refine ⟨fun text url h _ _ => ?_, fun text url h _ => ?_⟩
    · obtain rfl := hurl text url h
      rw [hbase]
      exact ⟨_, rfl, rfl, by decide, hbase⟩
    · obtain rfl := hurl text url h
      rw [hbase]
      exact ⟨by decide, by decide⟩
  have hread : (Config.fromEnvMap parseExampleBase exampleText exampleVariables).toOption.map (fun config =>
      (config.port, config.allowedProxyDomains, config.imageCompressionJpegQuality, config.adminPassword)) =
        some (8080, ["a.example", "b.example"], 97, "") := by decide +kernel
  rcases hconfig : Config.fromEnvMap parseExampleBase exampleText exampleVariables with err | config
  · rw [hconfig] at hread
    cases hread
  · rw [hconfig] at hread
    have hsettings := Option.some.inj hread
    simp only [Prod.mk.injEq] at hsettings
    exact ⟨config, rfl, hsettings, (config_exact hbases config).2 exampleVariables hconfig⟩

end

end GeminiWorker
