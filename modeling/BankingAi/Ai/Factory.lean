import BankingAi.Ai.Providers
import BankingAi.Ai.Routing
import BankingAi.Ai.Router
import BankingAi.Lib.Dict
import BankingAi.Lib.Fallible

/-!
# The model factory

`build_router` turns the routing policy and the configured names into a chain of providers. The echo stub is appended
in local environments only, but a configured name can be `echo` as well, and no validator refuses it.
-/

namespace BankingAi.Ai

/-- A constructed router, before its servers are known. -/
structure ConfiguredRouter where
  providers : List Provider
  policy : String
  nonempty : providers ≠ []

/-- The constructor of the router. -/
def ConfiguredRouter.new (providers : List Provider) (policy : String) : Except Exn ConfiguredRouter :=
  if h : providers = [] then .error (.other "ValueError" "ModelRouter requires at least one provider.")
  else .ok ⟨providers, policy, h⟩

/-- The router with the server behind every provider, and the latencies that are measured. -/
def ConfiguredRouter.router (configured : ConfiguredRouter) (behaviour : ℕ → Server × ℤ) : ModelRouter where
  providers := configured.providers.mapIdx fun i p => p.toProvider (behaviour i).1 (behaviour i).2
  policy := configured.policy
  nonempty := by simpa using configured.nonempty

def builders : Dict String (AppSettings → Provider) where
  entries :=
    [("groq", fun settings => .openAI (groqProvider settings)),
      ("local_gemma", fun settings => .openAI (localGemmaProvider settings)), ("echo", fun _ => .echo)]
  nodup := by simp

def buildProvider (settings : AppSettings) (name : String) : Except Exn Provider :=
  if name = "echo" then .ok .echo
  else
    match builders.get? name with
    | some builder => .ok (builder settings)
    | none =>
      .error (.new .modelRouter s!"Unknown LLM provider '{name}'."
        [("known", .arr ((builders.keys.mergeSort (· ≤ ·)).map .str))])

/-- The configured names that the policy selects. -/
def policyNames (settings : AppSettings) : List String :=
  match settings.llmRouterPolicy with
  | .onlineOnly => [settings.llmPrimaryProvider]
  | .offlineOnly => [settings.llmFallbackProvider]
  | .preferOnline => [settings.llmPrimaryProvider, settings.llmFallbackProvider]

def chainNames (settings : AppSettings) : List String :=
  let names := policyNames settings
  if settings.appEnv = .localEnv ∧ "echo" ∉ names then names ++ ["echo"] else names

def buildRouter (settings : AppSettings) : Except Exn ConfiguredRouter := do
  let providers ← (chainNames settings).mapM (buildProvider settings)
  ConfiguredRouter.new providers settings.llmRouterPolicy.value

/-- No router with the stub in its chain is built, and no completion of a built router is labelled with it. -/
structure NoStub (settings : AppSettings) : Prop where
  chain : ∀ configured, buildRouter settings = .ok configured → .echo ∉ configured.providers
  served : ∀ configured, buildRouter settings = .ok configured → ∀ (behaviour : ℕ → Server × ℤ) {σ : Type}
    (observer : RouterObserver σ) (request : CompletionRequest) (agentRunId : Option Uuid) (o : σ)
    (result : CompletionResult),
    ((configured.router behaviour).complete observer request agentRunId o).1 = .ok result →
      result.provider ≠ EchoProvider.name

/-- The policy selects no provider named as the stub, or one that is unknown, for which the factory raises. -/
def StubExcluded (settings : AppSettings) : Prop :=
  "echo" ∉ policyNames settings ∨ ∃ name ∈ policyNames settings, name ∉ builders.keys

section build

variable {settings : AppSettings} {name : String} {p : Provider}

theorem name_of_mem_builders {builder : AppSettings → Provider} (h : (name, builder) ∈ builders.entries) :
    (builder settings).name = name := by
  simp only [builders, List.mem_cons, List.not_mem_nil, or_false, Prod.mk.injEq] at h
  rcases h with ⟨rfl, rfl⟩ | ⟨rfl, rfl⟩ | ⟨rfl, rfl⟩
  · rfl
  · rfl
  · rfl

theorem buildProvider_eq_ok (h : buildProvider settings name = .ok p) : p.name = name := by
  unfold buildProvider at h
  split_ifs at h with hecho
  · cases h
    exact hecho.symm
  · split at h
    case h_1 builder hget =>
      cases h
      exact name_of_mem_builders (Dict.get?_eq_some.1 hget)
    case h_2 => cases h

theorem buildProvider_echo : buildProvider settings name = .ok .echo ↔ name = "echo" := by
  constructor
  · intro h
    exact (buildProvider_eq_ok h).symm
  · rintro rfl
    rfl

theorem exists_buildProvider : (∃ p, buildProvider settings name = .ok p) ↔ name ∈ builders.keys := by
  unfold buildProvider
  split_ifs with hecho
  · exact ⟨fun _ => by simp [hecho, Dict.keys, builders], fun _ => ⟨_, rfl⟩⟩
  · rw [← Dict.exists_get?]
    cases builders.get? name with
    | some builder => exact ⟨fun _ => ⟨_, rfl⟩, fun _ => ⟨_, rfl⟩⟩
    | none => simp

variable {configured : ConfiguredRouter}

theorem chainNames_ne_nil : chainNames settings ≠ [] := by
  unfold chainNames policyNames
  cases settings.llmRouterPolicy <;> dsimp only <;> split_ifs <;> simp

theorem chainNames_of_ne_local (henv : settings.appEnv ≠ .localEnv) : chainNames settings = policyNames settings :=
  if_neg fun h => henv h.1

theorem providers_of_buildRouter (h : buildRouter settings = .ok configured) :
    (chainNames settings).mapM (buildProvider settings) = .ok configured.providers := by
  obtain ⟨providers, hproviders, h⟩ := except_bind_eq_ok.1 h
  unfold ConfiguredRouter.new at h
  split_ifs at h with hempty
  cases h
  exact hproviders

theorem exists_buildRouter :
    (∃ configured, buildRouter settings = .ok configured) ↔
      ∀ name ∈ chainNames settings, name ∈ builders.keys := by
  have hknown : ∀ name, name ∈ builders.keys ↔ ∃ p, buildProvider settings name = .ok p := fun _ =>
    exists_buildProvider.symm
  simp only [hknown]
  rw [← exists_mapM]
  constructor
  · rintro ⟨configured, h⟩
    exact ⟨_, providers_of_buildRouter h⟩
  · rintro ⟨providers, h⟩
    have hne : providers ≠ [] := by
      rintro rfl
      exact chainNames_ne_nil (List.forall₂_nil_right_iff.1 (except_mapM_eq_ok.1 h))
    exact ⟨⟨providers, _, hne⟩, except_bind_eq_ok.2 ⟨providers, h, dif_neg hne⟩⟩

theorem echo_mem_providers (h : buildRouter settings = .ok configured) :
    .echo ∈ configured.providers ↔ "echo" ∈ chainNames settings := by
  rw [mem_of_mapM_eq_ok (providers_of_buildRouter h)]
  simp only [buildProvider_echo, exists_eq_right]

end build

section served

variable {σ : Type} {router : ModelRouter} {observer : RouterObserver σ} {request : CompletionRequest}
  {agentRunId : Option Uuid}

/-- Whatever the loop returns, one of its providers completed. -/
theorem source_of_completeFrom {ps : List LLMProvider} {index : ℕ} {attempts : List String}
    {previousError : Option String} {s : RouterState σ} {result : CompletionResult}
    (h : (router.completeFrom observer request agentRunId index ps attempts previousError s).1 = .ok result) :
    ∃ p ∈ ps, ∃ raw, p.complete request = .ok raw ∧ result.provider = raw.provider := by
  induction ps generalizing index attempts previousError s with
  | nil => cases h
  | cons p ps ih =>
    cases ha : p.available with
    | false =>
      rw [ModelRouter.completeFrom, ha] at h
      obtain ⟨q, hq, hsource⟩ := ih h
      exact ⟨q, List.mem_cons_of_mem _ hq, hsource⟩
    | true =>
      cases hc : p.complete request with
      | ok raw =>
        rw [completeFrom_of_serves ⟨ha, hc⟩] at h
        cases hcost : estimateCostUsd raw.provider raw.model raw.promptTokens raw.completionTokens with
        | error e =>
          rw [hcost] at h
          cases h
        | ok cost =>
          rw [hcost] at h
          cases h
          exact ⟨p, List.mem_cons_self, raw, hc, rfl⟩
      | error e =>
        rw [ModelRouter.completeFrom, ha, hc] at h
        dsimp only at h
        rw [if_neg (by simp)] at h
        split_ifs at h with he
        obtain ⟨q, hq, hsource⟩ := ih h
        exact ⟨q, List.mem_cons_of_mem _ hq, hsource⟩

theorem label_of_complete {configured : ConfiguredRouter} {behaviour : ℕ → Server × ℤ} {o : σ}
    {result : CompletionResult}
    (h : ((configured.router behaviour).complete observer request agentRunId o).1 = .ok result) :
    ∃ p ∈ configured.providers, result.provider = p.name := by
  obtain ⟨q, hq, raw, hraw, hlabel⟩ := source_of_completeFrom h
  obtain ⟨i, hi, rfl⟩ := List.mem_mapIdx.1 hq
  exact ⟨_, List.getElem_mem hi, hlabel.trans (Provider.provider_of_complete hraw)⟩

end served

/-- Outside local environments no stub serves exactly if none is configured or the chain is refused. -/
theorem noStub_iff (settings : AcceptedSettings) (henv : settings.appEnv ≠ .localEnv) :
    NoStub settings.toAppSettings ↔ StubExcluded settings.toAppSettings := by
  unfold StubExcluded
  rw [← chainNames_of_ne_local henv]
  constructor
  · intro h
    by_contra hnot
    push Not at hnot
    obtain ⟨configured, hbuild⟩ := exists_buildRouter.2 hnot.2
    exact h.chain configured hbuild ((echo_mem_providers hbuild).2 hnot.1)
  · intro h
    have hchain : ∀ configured, buildRouter settings.toAppSettings = .ok configured →
        .echo ∉ configured.providers := by
      intro configured hbuild hecho
      rcases h with h | ⟨name, hname, hunknown⟩
      · exact h ((echo_mem_providers hbuild).1 hecho)
      · exact hunknown (exists_buildRouter.1 ⟨configured, hbuild⟩ name hname)
    refine ⟨hchain, ?_⟩
    intro configured hbuild behaviour σ observer request agentRunId o result hresult hstub
    obtain ⟨p, hp, hlabel⟩ := label_of_complete hresult
    obtain ⟨name, hname, hprovider⟩ := (mem_of_mapM_eq_ok (providers_of_buildRouter hbuild)).1 hp
    have hecho : name = "echo" := by rw [← buildProvider_eq_ok hprovider, ← hlabel, hstub, EchoProvider.name]
    exact hchain configured hbuild ((echo_mem_providers hbuild).2 (hecho ▸ hname))

/-- The defaults of the settings in production, with a real secret. -/
def production (primary fallback : String) : AppSettings where
  appName := "Banking AI Platform"
  securityJwtSecret := "a-very-long-production-secret-value-1234567890"
  securityJwtAlgorithm := "HS256"
  securityAccessTokenTtlSeconds := 900
  securityRefreshTokenTtlSeconds := 1209600
  appEnv := .production
  appLogLevel := "INFO"
  securityAuthMode := .localMode
  oidcClientSecret := ""
  llmRouterPolicy := .preferOnline
  llmPrimaryProvider := primary
  llmFallbackProvider := fallback
  llmRequestTimeoutSeconds := 30
  llmMaxRetries := 2
  groqApiKey := ""
  groqBaseUrl := "https://api.groq.com/openai/v1"
  groqModel := "llama-3.1-8b-instant"
  localGemmaBaseUrl := "http://localhost:11434/v1"
  localGemmaModel := "gemma2:9b"
  seedAdminEmail := "admin@local.dev"
  seedAdminPassword := "Admin123!Local"

def acceptedProduction (primary fallback : String) : AcceptedSettings where
  toAppSettings := production primary fallback
  raw := production primary fallback
  accepted := by
    have hlevel : Str.upper "INFO" = "INFO" := by decide +kernel
    refine AppSettings.construct_eq_ok.2 ⟨?_, ?_, .inr ⟨?_, ?_, nofun⟩⟩
    · simp [production, hlevel, AppSettings.logLevels]
    · simp [production, hlevel]
    · simp [production, placeholderSecret]
    · show 32 ≤ String.length "a-very-long-production-secret-value-1234567890"
      decide

theorem noStub_iff_groq :
    NoStub (acceptedProduction "groq" "local_gemma").toAppSettings ↔
      StubExcluded (acceptedProduction "groq" "local_gemma").toAppSettings :=
  noStub_iff (acceptedProduction "groq" "local_gemma") nofun

/-- Production settings that name the stub are accepted, and the stub is the first provider of their router. -/
theorem production_names_stub :
    ¬ ∀ settings : AcceptedSettings, settings.appEnv ≠ .localEnv → NoStub settings.toAppSettings := by
  intro h
  have hstub := h (acceptedProduction "echo" "local_gemma") nofun
  obtain ⟨configured, hbuild⟩ :
      ∃ configured, buildRouter (production "echo" "local_gemma") = .ok configured := ⟨_, rfl⟩
  exact hstub.chain configured hbuild ((echo_mem_providers hbuild).2 List.mem_cons_self)

end BankingAi.Ai
