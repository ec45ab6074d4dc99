import Mathlib.Data.Rat.Defs
import BankingAi.Core.Token
import BankingAi.Lib.PythonStr

/-!
# Configuration

The settings that the validators, the model factory and the seed read, besides those of the tokens. Outside local
environments construction refuses placeholder and short secrets; it says nothing about the names of the providers.
-/

namespace BankingAi

inductive AppEnv where
  | localEnv | staging | production
deriving DecidableEq, Repr

inductive AuthMode where
  | localMode | oidc
deriving DecidableEq, Repr

inductive RouterPolicy where
  | preferOnline | offlineOnly | onlineOnly
deriving DecidableEq, Repr

def RouterPolicy.value : RouterPolicy → String
  | preferOnline => "prefer_online"
  | offlineOnly => "offline_only"
  | onlineOnly => "online_only"

def placeholderSecret : String := "dev-only-change-me-please-32+chars-long-string"

structure AppSettings extends Settings where
  appEnv : AppEnv
  appLogLevel : String
  securityAuthMode : AuthMode
  oidcClientSecret : String
  llmRouterPolicy : RouterPolicy
  llmPrimaryProvider : String
  llmFallbackProvider : String
  llmRequestTimeoutSeconds : ℚ
  llmMaxRetries : ℤ
  groqApiKey : String
  groqBaseUrl : String
  groqModel : String
  localGemmaBaseUrl : String
  localGemmaModel : String
  seedAdminEmail : String
  seedAdminPassword : String

namespace AppSettings

def logLevels : List String := ["CRITICAL", "DEBUG", "ERROR", "INFO", "WARNING"]

/-- The validator of the field `app_log_level`. -/
def validateLogLevel (v : String) : Except ValueError String :=
  let upper := Str.upper v
  if upper ∉ logLevels then
    .error ⟨"ValueError", "app_log_level must be one of ['CRITICAL', 'DEBUG', 'ERROR', 'INFO', 'WARNING']"⟩
  else .ok upper

def enforceProductionSecrets (settings : AppSettings) : Except ValueError AppSettings :=
  if settings.appEnv = .localEnv then .ok settings
  else if settings.securityJwtSecret ∈ ["", placeholderSecret] then
    .error ⟨"ValueError", "SECURITY_JWT_SECRET must be set to a real secret in non-local environments."⟩
  else if settings.securityJwtSecret.length < 32 then
    .error ⟨"ValueError", "SECURITY_JWT_SECRET must be at least 32 characters."⟩
  else if settings.securityAuthMode = .oidc ∧ settings.oidcClientSecret = "" then
    .error ⟨"ValueError", "OIDC_CLIENT_SECRET is required when SECURITY_AUTH_MODE=oidc."⟩
  else .ok settings

/-- `Settings(...)`, from fields of the declared types. -/
def construct (raw : AppSettings) : Except ValueError AppSettings := do
  let appLogLevel ← validateLogLevel raw.appLogLevel
  enforceProductionSecrets { raw with appLogLevel }

/-- No secret is empty, short or the placeholder. -/
structure RealSecrets (settings : AppSettings) : Prop where
  jwtSecret : settings.securityJwtSecret ∉ ["", placeholderSecret]
  length : 32 ≤ settings.securityJwtSecret.length
  oidc : settings.securityAuthMode = .oidc → settings.oidcClientSecret ≠ ""

theorem enforceProductionSecrets_eq_ok {raw settings : AppSettings} :
    enforceProductionSecrets raw = .ok settings ↔
      settings = raw ∧ (raw.appEnv = .localEnv ∨ RealSecrets raw) := by
  unfold enforceProductionSecrets
  split_ifs with hlocal hplaceholder hshort hoidc
  · simp [hlocal, eq_comm]
  · exact ⟨nofun, fun ⟨_, h⟩ => absurd hplaceholder (h.resolve_left hlocal).jwtSecret⟩
  · exact ⟨nofun, fun ⟨_, h⟩ => absurd (h.resolve_left hlocal).length (not_le.2 hshort)⟩
  · exact ⟨nofun, fun ⟨_, h⟩ => absurd hoidc.2 ((h.resolve_left hlocal).oidc hoidc.1)⟩
  · have hreal : RealSecrets raw := ⟨hplaceholder, not_lt.1 hshort, fun hmode hempty => hoidc ⟨hmode, hempty⟩⟩
    simp [hreal, eq_comm]

/-- What construction accepts: outside local environments only real secrets. -/
theorem construct_eq_ok {raw settings : AppSettings} :
    construct raw = .ok settings ↔ Str.upper raw.appLogLevel ∈ logLevels ∧
      settings = { raw with appLogLevel := Str.upper raw.appLogLevel } ∧
        (raw.appEnv = .localEnv ∨ RealSecrets raw) := by
  have hsecrets : RealSecrets { raw with appLogLevel := Str.upper raw.appLogLevel } ↔ RealSecrets raw :=
    ⟨fun h => ⟨h.jwtSecret, h.length, h.oidc⟩, fun h => ⟨h.jwtSecret, h.length, h.oidc⟩⟩
  unfold construct validateLogLevel
  dsimp only
  by_cases hlevel : Str.upper raw.appLogLevel ∈ logLevels
  · rw [if_neg (not_not.2 hlevel), ← hsecrets]
    exact enforceProductionSecrets_eq_ok.trans ⟨fun h => ⟨hlevel, h⟩, fun h => h.2⟩
  · rw [if_pos hlevel]
    exact ⟨nofun, fun h => absurd h.1 hlevel⟩

end AppSettings

/-- Settings that construction accepts. -/
structure AcceptedSettings extends AppSettings where
  raw : AppSettings
  accepted : AppSettings.construct raw = .ok toAppSettings

end BankingAi
