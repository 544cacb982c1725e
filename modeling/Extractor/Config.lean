import Mathlib.Data.Int.Notation
import Mathlib.Tactic.NormNum
import Extractor.UrlRouting

/-!
# Process configuration

`crates/core/src/config.rs`: the typed configuration, its built-in values, and the checks
that a configuration must pass before the process starts. A check that fails adds one
violation, which names the key and the rule; the process starts when there is none.

The logging filter parser is outside the repository and enters as a parameter. The
database URL is a plain text here; that it is kept out of logs is not modelled.

## Main results

* `accepted_iff`: an accepted configuration passes every check.
* `builtIn_accepted`: the built-in values pass, once the deployment supplies a blob root and
  a database.
-/

namespace Extractor

/-! ### The configuration -/

/-- `AdminConfig`, with the address and the port of the listener. -/
structure AdminConfig where
  bind : SocketAddr

/-- `BlobConfig`. -/
structure BlobConfig where
  root : String
  telegramRoot : String

/-- `DatabaseConfig`. -/
structure DatabaseConfig where
  url : String
  maxConnections : ℕ
  acquireTimeoutMs : ℕ

/-- `BusConfig`. -/
structure BusConfig where
  url : String
  nkeySeedPath : Option String
  durableName : String
  pollIntervalMs : ℕ
  outboxBatchSize : ℤ
  workerLeaseSeconds : ℤ
  provisionTopology : Bool
  maxEventBytes : ℕ

/-- `FetchConfig`. -/
structure FetchConfig where
  maxUrlLength : ℕ
  allowedPorts : List ℕ
  connectTimeoutMs : ℕ
  firstByteTimeoutMs : ℕ
  readIdleTimeoutMs : ℕ
  totalTimeoutMs : ℕ
  maxWireBytes : ℕ
  maxDecodedBytes : ℕ
  maxRedirects : ℕ
  maxRetries : ℕ
  globalConcurrency : ℕ
  perHostConcurrency : ℕ
  perHostMinIntervalMs : ℕ

/-- `ParserConfig`. -/
structure ParserConfig where
  maxInputBytes : ℕ
  maxDomNodes : ℕ

/-- `PdfConfig`. -/
structure PdfConfig where
  maxInputBytes : ℕ
  maxPages : ℕ
  maxTextBytes : ℕ

/-- `ProvidersConfig`. -/
structure ProvidersConfig where
  maxInputBytes : ℕ
  maxBlocks : ℕ

/-- `RenderConfig`. -/
structure RenderConfig where
  enabled : Bool
  navigationTimeoutMs : ℕ
  totalTimeoutMs : ℕ
  maxDomBytes : ℕ
  allowedHosts : List String
  maxEscalationsPerDay : ℕ
  workerBlobsRoot : String

/-- `ShutdownConfig`. -/
structure ShutdownConfig where
  graceSeconds : ℕ

/-- `OtlpConfig`. -/
structure OtlpConfig where
  endpoint : Url
  timeoutSeconds : ℕ

/-- `TelemetryConfig`; the log format is not read by the checks. -/
structure TelemetryConfig where
  logFilter : String
  otlp : Option OtlpConfig

/-- `YoutubeMediaConfig`. -/
structure YoutubeMediaConfig where
  enabled : Bool
  maxItemBytes : ℕ
  totalBudgetBytes : ℕ
  retentionHours : ℕ
  timeoutSecs : ℕ
  maxHeight : ℕ
  binaryPath : String

/-- `YoutubeConfig`, with `YoutubeTranscriptConfig::languages`. -/
structure YoutubeConfig where
  languages : List String
  media : YoutubeMediaConfig

/-- `ExtractorConfig`. -/
structure ExtractorConfig where
  admin : AdminConfig
  blobs : BlobConfig
  database : DatabaseConfig
  bus : BusConfig
  fetch : FetchConfig
  parser : ParserConfig
  pdf : PdfConfig
  providers : ProvidersConfig
  render : RenderConfig
  shutdown : ShutdownConfig
  telemetry : TelemetryConfig
  youtube : YoutubeConfig

/-- `FIXED_CAPTURE_DURABLE`. -/
def fixedCaptureDurable : String := "ratatoskr_extractor_capture"

/-- `DEFAULT_MAX_EVENT_BYTES`. -/
def defaultMaxEventBytes : ℕ := 8000000

/-- The lower end of `MAX_EVENT_BYTES_RANGE`. -/
def maxEventBytesLow : ℕ := 65536

/-- The upper end of `MAX_EVENT_BYTES_RANGE`, the broker's 8 MiB. -/
def maxEventBytesHigh : ℕ := 8388608

/-- `ExtractorConfig::built_in`. -/
def ExtractorConfig.builtIn (blobRoot : String) : ExtractorConfig where
  admin := { bind := ⟨.v4 ⟨127, 0, 0, 1⟩, 9088⟩ }
  blobs := { root := blobRoot, telegramRoot := "/mnt/nvme/ratatoskr/blobs/ratatoskr-telegram" }
  database := { url := "", maxConnections := 10, acquireTimeoutMs := 5000 }
  bus :=
    { url := "nats://127.0.0.1:4222", nkeySeedPath := none
      durableName := "ratatoskr_extractor_capture", pollIntervalMs := 100, outboxBatchSize := 32
      workerLeaseSeconds := 60, provisionTopology := false
      maxEventBytes := defaultMaxEventBytes }
  fetch :=
    { maxUrlLength := 8192, allowedPorts := [80, 443], connectTimeoutMs := 5000
      firstByteTimeoutMs := 10000, readIdleTimeoutMs := 10000, totalTimeoutMs := 30000
      maxWireBytes := 25 * 1024 * 1024, maxDecodedBytes := 50 * 1024 * 1024
      maxRedirects := 10, maxRetries := 2, globalConcurrency := 64, perHostConcurrency := 8
      perHostMinIntervalMs := 0 }
  parser := { maxInputBytes := 50 * 1024 * 1024, maxDomNodes := 250000 }
  pdf := { maxInputBytes := 50 * 1024 * 1024, maxPages := 1000, maxTextBytes := 8 * 1024 * 1024 }
  providers := { maxInputBytes := 8 * 1024 * 1024, maxBlocks := 2000 }
  render :=
    { enabled := false, navigationTimeoutMs := 15000, totalTimeoutMs := 45000
      maxDomBytes := 8 * 1024 * 1024, allowedHosts := [], maxEscalationsPerDay := 500
      workerBlobsRoot := "/var/lib/ratatoskr-browser-worker/blobs" }
  shutdown := { graceSeconds := 25 }
  telemetry := { logFilter := "info,tower_http=info,hyper=warn,h2=warn", otlp := none }
  youtube :=
    { languages := ["en"]
      media :=
        { enabled := false, maxItemBytes := 2 * 1024 * 1024 * 1024
          totalBudgetBytes := 8 * 1024 * 1024 * 1024, retentionHours := 24, timeoutSecs := 900
          maxHeight := 1080, binaryPath := "yt-dlp" } }

/-! ### The checks -/

/-- `ConfigViolation`. -/
structure ConfigViolation where
  key : String
  rule : String
  deriving DecidableEq

/-- One check: its condition, and the violation it reports. -/
structure ConfigCheck where
  valid : Bool
  key : String
  rule : String

/-- `require` over a list of checks: the violations of those that fail, in order. -/
def violations (checks : List ConfigCheck) : List ConfigViolation :=
  (checks.filter fun c => !c.valid).map fun c => ⟨c.key, c.rule⟩

/-- A family of checks with one rule. -/
def checksOf (rule : String) (checks : List (Bool × String)) : List ConfigCheck :=
  checks.map fun c => ⟨c.1, c.2, rule⟩

/-- `Path::is_absolute` on a Unix system. -/
def isAbsolute (path : String) : Bool := path.toList.head? == some '/'

/-- What the checks need from outside: the URL parser and `EnvFilter::try_new`. -/
structure ConfigLib where
  urlLib : UrlLib
  logFilterIsValid : String → Bool

/-- `validate_database`. -/
def databaseChecks (config : DatabaseConfig) : List ConfigCheck :=
  [⟨"postgres://".toList.isPrefixOf config.url.toList ||
      "postgresql://".toList.isPrefixOf config.url.toList,
      "database.url", "must be a PostgreSQL URL"⟩,
    ⟨decide (1 ≤ config.maxConnections ∧ config.maxConnections ≤ 100),
      "database.max_connections", "must be between 1 and 100"⟩,
    ⟨decide (0 < config.acquireTimeoutMs),
      "database.acquire_timeout_ms", "must be greater than zero"⟩]

/-- The worker lease in milliseconds, as `validate_bus` computes it. -/
def leaseMs (workerLeaseSeconds : ℤ) : ℕ := workerLeaseSeconds.toNat * 1000

/-- The checks of `validate_bus` after the one of the URL. -/
def busLimitChecks (config : BusConfig) (fetchTimeoutMs : ℕ) : List ConfigCheck :=
  [⟨config.durableName != "" && decide (config.durableName.utf8ByteSize ≤ 64),
      "bus.durable_name", "must contain 1 to 64 bytes"⟩,
    ⟨!(config.provisionTopology && config.nkeySeedPath.isSome),
      "bus.provision_topology", "must not be enabled together with bus.nkey_seed_path"⟩,
    ⟨config.provisionTopology || config.durableName == fixedCaptureDurable,
      "bus.durable_name",
      "must be the Edge-provisioned durable unless bus.provision_topology is enabled"⟩] ++
  checksOf "must be within its finite range"
    [(decide (0 < config.pollIntervalMs), "bus.poll_interval_ms"),
      (decide (1 ≤ config.outboxBatchSize ∧ config.outboxBatchSize ≤ 1000),
        "bus.outbox_batch_size"),
      (decide (1 ≤ config.workerLeaseSeconds ∧ config.workerLeaseSeconds ≤ 3600),
        "bus.worker_lease_seconds"),
      (decide (maxEventBytesLow ≤ config.maxEventBytes ∧ config.maxEventBytes ≤ maxEventBytesHigh),
        "bus.max_event_bytes")] ++
  [⟨decide (fetchTimeoutMs < leaseMs config.workerLeaseSeconds),
      "bus.worker_lease_seconds", "must exceed fetch.total_timeout_ms"⟩]

/-- The condition on `bus.url`. -/
def busUrlIsValid (lib : UrlLib) (url : String) : Bool :=
  (lib.parse url).any fun url =>
    (url.scheme == "nats" || url.scheme == "tls") && url.username == "" && url.password.isNone

/-- `validate_bus`. -/
def busChecks (lib : UrlLib) (config : BusConfig) (fetchTimeoutMs : ℕ) : List ConfigCheck :=
  ⟨busUrlIsValid lib config.url, "bus.url", "must be a credential-free nats or tls URL"⟩ ::
    busLimitChecks config fetchTimeoutMs

/-- `validate_fetch`. -/
def fetchChecks (config : FetchConfig) : List ConfigCheck :=
  [⟨decide (0 < config.maxUrlLength), "fetch.max_url_length", "must be greater than zero"⟩,
    ⟨!config.allowedPorts.isEmpty && config.allowedPorts.all fun port => port != 0,
      "fetch.allowed_ports", "must contain only non-zero ports"⟩] ++
  checksOf "must be greater than zero"
    [(decide (0 < config.connectTimeoutMs), "fetch.connect_timeout_ms"),
      (decide (0 < config.firstByteTimeoutMs), "fetch.first_byte_timeout_ms"),
      (decide (0 < config.readIdleTimeoutMs), "fetch.read_idle_timeout_ms"),
      (decide (0 < config.totalTimeoutMs), "fetch.total_timeout_ms"),
      (decide (0 < config.maxWireBytes), "fetch.max_wire_bytes"),
      (decide (0 < config.maxDecodedBytes), "fetch.max_decoded_bytes"),
      (decide (0 < config.maxRedirects), "fetch.max_redirects"),
      (decide (0 < config.maxRetries), "fetch.max_retries"),
      (decide (0 < config.globalConcurrency), "fetch.global_concurrency"),
      (decide (0 < config.perHostConcurrency), "fetch.per_host_concurrency")] ++
  [⟨decide (config.perHostConcurrency ≤ config.globalConcurrency),
      "fetch.per_host_concurrency", "must not exceed global concurrency"⟩,
    ⟨decide (config.maxWireBytes ≤ config.maxDecodedBytes),
      "fetch.max_decoded_bytes", "must not be smaller than the wire-byte limit"⟩]

/-- `validate_render`. -/
def renderChecks (config : RenderConfig) : List ConfigCheck :=
  checksOf "must be greater than zero"
    [(decide (0 < config.navigationTimeoutMs), "render.navigation_timeout_ms"),
      (decide (0 < config.totalTimeoutMs), "render.total_timeout_ms"),
      (decide (0 < config.maxDomBytes), "render.max_dom_bytes")] ++
  [⟨!config.enabled || decide (0 < config.maxEscalationsPerDay),
      "render.max_escalations_per_day", "must be greater than zero when rendering is enabled"⟩]

/-- `validate_youtube`. -/
def youtubeChecks (config : YoutubeConfig) : List ConfigCheck :=
  [⟨!config.languages.isEmpty,
      "youtube.transcript.languages", "must contain at least one language code"⟩] ++
  checksOf "must be greater than zero"
    [(decide (0 < config.media.maxItemBytes), "youtube.media.max_item_bytes"),
      (decide (0 < config.media.totalBudgetBytes), "youtube.media.total_budget_bytes"),
      (decide (0 < config.media.retentionHours), "youtube.media.retention_hours"),
      (decide (0 < config.media.timeoutSecs), "youtube.media.timeout_secs")] ++
  [⟨decide (config.media.maxItemBytes ≤ config.media.totalBudgetBytes),
      "youtube.media.total_budget_bytes", "must not be smaller than the per-item limit"⟩]

/-- The checks of the optional collector. -/
def otlpChecks : Option OtlpConfig → List ConfigCheck
  | none => []
  | some otlp =>
      [⟨otlp.endpoint.scheme == "http" || otlp.endpoint.scheme == "https",
          "telemetry.otlp.endpoint", "must use http or https"⟩,
        ⟨decide (0 < otlp.timeoutSeconds),
          "telemetry.otlp.timeout_seconds", "must be greater than zero"⟩]

/-- The checks of `validate` on the sections without one of their own. -/
def sectionChecks (config : ExtractorConfig) : List ConfigCheck :=
  checksOf "must be greater than zero"
    [(decide (0 < config.parser.maxInputBytes), "parser.max_input_bytes"),
      (decide (0 < config.parser.maxDomNodes), "parser.max_dom_nodes"),
      (decide (0 < config.shutdown.graceSeconds), "shutdown.grace_seconds")]

/-- All checks of `validate`, in its order. -/
def configChecks (lib : ConfigLib) (config : ExtractorConfig) : List ConfigCheck :=
  [⟨config.admin.bind.port != 0, "admin.bind", "must use a non-zero port"⟩] ++
  checksOf "must be an absolute path"
    [(isAbsolute config.blobs.root, "blobs.root"),
      (isAbsolute config.blobs.telegramRoot, "blobs.telegram_root")] ++
  databaseChecks config.database ++
  busChecks lib.urlLib config.bus config.fetch.totalTimeoutMs ++
  fetchChecks config.fetch ++
  renderChecks config.render ++
  youtubeChecks config.youtube ++
  sectionChecks config ++
  [⟨lib.logFilterIsValid config.telemetry.logFilter,
      "telemetry.log_filter", "must be a valid tracing filter"⟩] ++
  otlpChecks config.telemetry.otlp

/-- `validate`. -/
def validate (lib : ConfigLib) (config : ExtractorConfig) : List ConfigViolation :=
  violations (configChecks lib config)

/-- The process starts with this configuration. -/
def Accepted (lib : ConfigLib) (config : ExtractorConfig) : Prop :=
  validate lib config = []

/-! ### Accepted configurations -/

/-- There is no violation when every check holds. -/
theorem violations_eq_nil_iff {checks : List ConfigCheck} :
    violations checks = [] ↔ ∀ c ∈ checks, c.valid = true := by
  rw [violations, List.map_eq_nil_iff, List.filter_eq_nil_iff]
  refine forall_congr' fun c => imp_congr_right fun _ => ?_
  cases c.valid <;> simp

/-- **An accepted configuration passes every check.** -/
theorem accepted_iff {lib : ConfigLib} {config : ExtractorConfig} :
    Accepted lib config ↔ ∀ c ∈ configChecks lib config, c.valid = true :=
  violations_eq_nil_iff

/-- The checks of the bus section are among those of an accepted configuration. -/
theorem Accepted.bus {lib : ConfigLib} {config : ExtractorConfig} (h : Accepted lib config) :
    ∀ c ∈ busChecks lib.urlLib config.bus config.fetch.totalTimeoutMs, c.valid = true := by
  intro c hc
  refine accepted_iff.mp h c ?_
  simp only [configChecks, List.mem_append]
  tauto

/-- The checks of the render section are among those of an accepted configuration. -/
theorem Accepted.render {lib : ConfigLib} {config : ExtractorConfig} (h : Accepted lib config) :
    ∀ c ∈ renderChecks config.render, c.valid = true := by
  intro c hc
  refine accepted_iff.mp h c ?_
  simp only [configChecks, List.mem_append]
  tauto

/-- The range of the largest accepted event. -/
theorem Accepted.maxEventBytes {lib : ConfigLib} {config : ExtractorConfig}
    (h : Accepted lib config) :
    maxEventBytesLow ≤ config.bus.maxEventBytes ∧ config.bus.maxEventBytes ≤ maxEventBytesHigh := by
  have hmem : (⟨decide (maxEventBytesLow ≤ config.bus.maxEventBytes ∧
      config.bus.maxEventBytes ≤ maxEventBytesHigh), "bus.max_event_bytes",
      "must be within its finite range"⟩ : ConfigCheck) ∈
        busChecks lib.urlLib config.bus config.fetch.totalTimeoutMs := by
    simp [busChecks, busLimitChecks, checksOf]
  simpa using h.bus _ hmem

/-- The worker lease is positive, at most an hour, and longer than one fetch. -/
theorem Accepted.lease {lib : ConfigLib} {config : ExtractorConfig} (h : Accepted lib config) :
    1 ≤ config.bus.workerLeaseSeconds ∧ config.bus.workerLeaseSeconds ≤ 3600 ∧
      config.fetch.totalTimeoutMs < leaseMs config.bus.workerLeaseSeconds := by
  have hrange : (⟨decide (1 ≤ config.bus.workerLeaseSeconds ∧
      config.bus.workerLeaseSeconds ≤ 3600), "bus.worker_lease_seconds",
      "must be within its finite range"⟩ : ConfigCheck) ∈
        busChecks lib.urlLib config.bus config.fetch.totalTimeoutMs := by
    simp [busChecks, busLimitChecks, checksOf]
  have hexceeds : (⟨decide (config.fetch.totalTimeoutMs < leaseMs config.bus.workerLeaseSeconds),
      "bus.worker_lease_seconds", "must exceed fetch.total_timeout_ms"⟩ : ConfigCheck) ∈
        busChecks lib.urlLib config.bus config.fetch.totalTimeoutMs := by
    simp [busChecks, busLimitChecks, checksOf]
  have h₁ := h.bus _ hrange
  have h₂ := h.bus _ hexceeds
  simp only [decide_eq_true_eq] at h₁ h₂
  exact ⟨h₁.1, h₁.2, h₂⟩

/-- The built-in configuration with the values a deployment supplies. -/
def ExtractorConfig.deployed (blobRoot databaseUrl : String) : ExtractorConfig :=
  let config := ExtractorConfig.builtIn blobRoot
  { config with database := { config.database with url := databaseUrl } }

/-- What the built-in values need from the parsers outside: the default bus URL is a NATS URL
without credentials, and the default log filter is one. -/
structure ConfigLib.AcceptsDefaults (lib : ConfigLib) : Prop where
  busUrl : busUrlIsValid lib.urlLib "nats://127.0.0.1:4222" = true
  logFilter : lib.logFilterIsValid "info,tower_http=info,hyper=warn,h2=warn" = true

/-- **The built-in values pass their own checks.** -/
theorem builtIn_accepted {lib : ConfigLib} (hlib : lib.AcceptsDefaults) {blobRoot url : String}
    (hroot : isAbsolute blobRoot = true)
    (hurl : "postgres://".toList.isPrefixOf url.toList = true) :
    Accepted lib (ExtractorConfig.deployed blobRoot url) := by
  have hblobs : isAbsolute "/mnt/nvme/ratatoskr/blobs/ratatoskr-telegram" = true := by decide
  have hbus : ∀ c ∈ busLimitChecks (ExtractorConfig.builtIn "").bus 30000, c.valid = true := by
    decide
  have hfetch : ∀ c ∈ fetchChecks (ExtractorConfig.builtIn "").fetch, c.valid = true := by decide
  have hrender : ∀ c ∈ renderChecks (ExtractorConfig.builtIn "").render, c.valid = true := by
    decide
  have hyoutube : ∀ c ∈ youtubeChecks (ExtractorConfig.builtIn "").youtube, c.valid = true := by
    decide
  have hsection : ∀ c ∈ sectionChecks (ExtractorConfig.builtIn ""), c.valid = true := by decide
  rw [accepted_iff]
  intro c hc
  simp only [configChecks, List.mem_append] at hc
  rcases hc with ((((((((hc | hc) | hc) | hc) | hc) | hc) | hc) | hc) | hc) | hc
  · obtain rfl := List.mem_singleton.mp hc
    rfl
  · rcases List.mem_cons.mp hc with rfl | hc
    · exact hroot
    · obtain rfl := List.mem_singleton.mp hc
      exact hblobs
  · rcases List.mem_cons.mp hc with rfl | hc
    · exact Bool.or_eq_true_iff.mpr (Or.inl hurl)
    · rcases List.mem_cons.mp hc with rfl | hc
      · rfl
      · obtain rfl := List.mem_singleton.mp hc
        rfl
  · rcases List.mem_cons.mp hc with rfl | hc
    · exact hlib.busUrl
    · exact hbus c hc
  · exact hfetch c hc
  · exact hrender c hc
  · exact hyoutube c hc
  · exact hsection c hc
  · obtain rfl := List.mem_singleton.mp hc
    exact hlib.logFilter
  · exact absurd hc List.not_mem_nil

/-- Another bus section is accepted with the rest of an accepted configuration. -/
theorem Accepted.with_bus {lib : ConfigLib} {config : ExtractorConfig} (h : Accepted lib config)
    {bus : BusConfig}
    (hbus : ∀ c ∈ busChecks lib.urlLib bus config.fetch.totalTimeoutMs, c.valid = true) :
    Accepted lib { config with bus := bus } := by
  rw [accepted_iff] at h ⊢
  intro c hc
  have hsection : sectionChecks { config with bus := bus } = sectionChecks config := rfl
  have hcase : c ∈ configChecks lib config ∨
      c ∈ busChecks lib.urlLib bus config.fetch.totalTimeoutMs := by
    simp only [configChecks, hsection, List.mem_append] at hc ⊢
    tauto
  rcases hcase with hc | hc
  · exact h c hc
  · exact hbus c hc

/-- Another render section is accepted with the rest of an accepted configuration. -/
theorem Accepted.with_render {lib : ConfigLib} {config : ExtractorConfig}
    (h : Accepted lib config) {render : RenderConfig}
    (hrender : ∀ c ∈ renderChecks render, c.valid = true) :
    Accepted lib { config with render := render } := by
  rw [accepted_iff] at h ⊢
  intro c hc
  have hsection : sectionChecks { config with render := render } = sectionChecks config := rfl
  have hcase : c ∈ configChecks lib config ∨ c ∈ renderChecks render := by
    simp only [configChecks, hsection, List.mem_append] at hc ⊢
    tauto
  rcases hcase with hc | hc
  · exact h c hc
  · exact hrender c hc

/-! ### An example deployment -/

/-- The parsers on the built-in values. -/
def exampleConfigLib : ConfigLib where
  urlLib :=
    { exampleLib with
      parse := fun s =>
        if s = "nats://127.0.0.1:4222" then
          some { exampleUrl with scheme := "nats", port := some 4222, path := ""
                                 host := some (.ipv4 ⟨127, 0, 0, 1⟩) }
        else exampleLib.parse s }
  logFilterIsValid s := s == "info,tower_http=info,hyper=warn,h2=warn"

/-- The built-in configuration of a deployment. -/
def exampleConfig : ExtractorConfig :=
  ExtractorConfig.deployed "/var/lib/extractor" "postgres://localhost/extractor"

theorem exampleConfig_accepted : Accepted exampleConfigLib exampleConfig :=
  builtIn_accepted ⟨by decide, by decide⟩ (by decide) (by decide)

end Extractor
