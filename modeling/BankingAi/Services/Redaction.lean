import BankingAi.Json.Mask
import BankingAi.Lib.PythonStr
import BankingAi.Services.AuditService

/-!
# What redaction hides

Both redactors look at the outermost keys only, so a context is safe exactly when what is kept has
no sensitive key further down.
-/

namespace BankingAi
open Unicode

/-! ### The structlog processor -/

namespace Logging

/-- Keys whose values must never be logged verbatim. -/
def sensitiveKeys : List String :=
  ["password", "secret", "token", "access_token", "refresh_token", "authorization", "api_key",
    "groq_api_key", "client_secret", "ssn", "card_number", "account_number", "jwt"]

/-- A key that contains a sensitive name, in any letter case. -/
def isSensitive (key : String) : Bool := sensitiveKeys.any fun s => s.toList <:+: (Str.lower key).toList

def redactProcessor (eventDict : JsonDict) : JsonDict :=
  eventDict.mapValues fun key value => if isSensitive key then .str "***redacted***" else value

end Logging

/-! ### Lower case that can be ASCII -/

section ascii

/-- The characters that have a lower case in ASCII. -/
def AsciiCase (c : Char) : Prop := c.toNat < 128 ∨ c = '\u212a'

def asciiLower (c : Char) : Char := if c = '\u212a' then 'k' else c.toLower

theorem lowerChar_of_asciiCase {c : Char} (h : AsciiCase c) : lowerChar c = [asciiLower c] ∧ c ≠ 'Σ' := by
  have key : ∀ n < 128, lowerChar (Char.ofNat n) = [asciiLower (Char.ofNat n)] ∧ Char.ofNat n ≠ 'Σ' := by
    decide +kernel
  rcases h with h | rfl
  · have := key c.toNat h
    rwa [Char.ofNat_toNat] at this
  · decide +kernel

theorem le_of_mem_lowerChar {c : Char} (h : ¬ AsciiCase c) : ∃ d ∈ lowerChar c, 128 ≤ d.toNat := by
  have hranges : ∀ r ∈ lowerRanges, 128 ≤ r.target ∨ r.last < 128 ∨ r.first = 0x212a ∧ r.last = 0x212a := by
    decide +kernel
  obtain ⟨hc, hkelvin⟩ := not_or.1 h
  rw [lowerChar]
  split
  · exact ⟨'\u0307', by simp, by decide⟩
  · refine ⟨_, List.mem_singleton_self _, ?_⟩
    cases hl : lookup lowerRanges c.toNat with
    | none => simpa using hc
    | some m =>
      rw [Option.map_some, Option.getD_some, toNat_of_lookup lowerRanges_valid hl]
      obtain ⟨r, hr, hfirst, hlast, rfl⟩ := lookup_eq_some hl
      rcases hranges r hr with h | h | ⟨h, h'⟩
      · omega
      · omega
      · exact absurd (Char.toNat_inj.1 (show c.toNat = '\u212a'.toNat by
          rw [show ('\u212a').toNat = 0x212a from rfl]; omega)) hkelvin

theorem asciiLower_of_not {c : Char} (h : ¬ AsciiCase c) : 128 ≤ (asciiLower c).toNat := by
  obtain ⟨hc, hkelvin⟩ := not_or.1 h
  have hupper : ¬ (c.val ≥ 'A'.val ∧ c.val ≤ 'Z'.val) := by
    rintro ⟨-, hz⟩
    have hle : c.toNat ≤ 90 := UInt32.le_iff_toNat_le.1 hz
    omega
  rw [asciiLower, if_neg hkelvin, Char.toLower, dif_neg hupper]
  omega

variable {before after cs : List Char}

theorem lowerBetween_of_asciiCase (h : ∀ c ∈ cs, AsciiCase c) :
    Str.lowerBetween before after cs = cs.map asciiLower := by
  induction cs generalizing before with
  | nil => rfl
  | cons c cs ih =>
    obtain ⟨hc, hsigma⟩ := lowerChar_of_asciiCase (h c List.mem_cons_self)
    rw [Str.lowerBetween, if_neg hsigma, hc, ih fun d hd => h d (List.mem_cons_of_mem _ hd)]
    rfl

theorem le_of_mem_lowerBetween {c : Char} (hc : c ∈ cs) (h : ¬ AsciiCase c) :
    ∃ d ∈ Str.lowerBetween before after cs, 128 ≤ d.toNat := by
  induction cs generalizing before with
  | nil => cases hc
  | cons e cs ih =>
    rw [Str.lowerBetween]
    rcases List.mem_cons.1 hc with rfl | hc
    · split
      · refine ⟨_, List.mem_append_left _ (List.mem_singleton_self _), ?_⟩
        split <;> decide
      · obtain ⟨d, hd, hle⟩ := le_of_mem_lowerChar h
        exact ⟨d, List.mem_append_left _ hd, hle⟩
    · obtain ⟨d, hd, hle⟩ := ih hc
      exact ⟨d, List.mem_append_right _ hd, hle⟩

theorem lowerKey_eq_iff {key name : String} (hname : ∀ c ∈ name.toList, c.toNat < 128) :
    AuditService.lowerKey key = name ↔ Str.lower key = name := by
  have hkey : AuditService.lowerKey key = .ofList (key.toList.map asciiLower) := rfl
  by_cases hall : ∀ c ∈ key.toList, AsciiCase c
  · rw [hkey, Str.lower, Str.lowerChars, lowerBetween_of_asciiCase hall]
  · push Not at hall
    obtain ⟨c, hc, hnot⟩ := hall
    constructor
    · intro h
      have := hname (asciiLower c) (by
        rw [← h, hkey, String.toList_ofList]; exact List.mem_map_of_mem hc)
      have := asciiLower_of_not hnot
      omega
    · intro h
      obtain ⟨d, hd, hle⟩ := @le_of_mem_lowerBetween [] [] _ _ hc hnot
      have := hname d (by rw [← h, Str.lower, String.toList_ofList]; exact hd)
      omega

theorem lowerKey_mem_iff {key : String} :
    AuditService.lowerKey key ∈ AuditService.sensitiveKeys ↔ Str.lower key ∈ AuditService.sensitiveKeys := by
  have hascii : ∀ name ∈ AuditService.sensitiveKeys, name.toList.all (·.toNat < 128) = true := by decide
  have hiff : ∀ name ∈ AuditService.sensitiveKeys, AuditService.lowerKey key = name ↔ Str.lower key = name :=
    fun name hname => lowerKey_eq_iff (by simpa using List.all_eq_true.1 (hascii name hname))
  constructor
  · intro h
    rwa [(hiff _ h).1 rfl]
  · intro h
    rwa [(hiff _ h).2 rfl]

end ascii

/-! ### Contexts that differ under sensitive keys -/

/-- A key that the audit service redacts, at any depth. -/
def AuditService.isSensitive (key : String) : Bool := Str.lower key ∈ AuditService.sensitiveKeys

theorem AuditService.redact_eq_redactTop (c : JsonDict) :
    AuditService.redact c = Json.redactTop AuditService.isSensitive (.str "***redacted***") c := by
  have hkey : ∀ key, AuditService.isSensitive key = true ↔
      AuditService.lowerKey key ∈ AuditService.sensitiveKeys := by
    intro key
    rw [lowerKey_mem_iff, AuditService.isSensitive, decide_eq_true_iff]
  simp only [AuditService.redact, Json.redactTop, hkey]

section record
variable {action resourceType outcome : String} {actorId : Option Uuid}
  {actorEmail resourceId requestId : Option String} {c c' : JsonDict}

/-- What is recorded shows the redacted context and nothing else of the context. -/
theorem AuditService.record_congr_iff :
    AuditService.record action resourceType outcome actorId actorEmail resourceId requestId c =
      AuditService.record action resourceType outcome actorId actorEmail resourceId requestId c' ↔
    AuditService.redact c = AuditService.redact c' := by
  constructor
  · intro h
    have hrun : ∀ d : JsonDict,
        (AuditService.record action resourceType outcome actorId actorEmail resourceId requestId d .none
          ⟨Database.empty, Dict.empty, ⟨0, []⟩⟩).1.toOption.map AuditLog.context =
        some (AuditService.redact d) := fun _ => rfl
    have := hrun c
    rw [h, hrun] at this
    exact (Option.some.inj this).symm
  · intro h
    unfold AuditService.record
    rw [h]

end record

/-- What is stored under sensitive keys leaves the recorded entry and the logged event as they are
exactly when no sensitive key stands below an outermost key that is kept. -/
theorem redaction_unaffected_iff (action resourceType outcome : String) (actorId : Option Uuid)
    (actorEmail resourceId requestId : Option String) (c : JsonDict) :
    ((∀ c', Json.AgreeDict AuditService.isSensitive c c' →
        AuditService.record action resourceType outcome actorId actorEmail resourceId requestId c' =
          AuditService.record action resourceType outcome actorId actorEmail resourceId requestId c) ↔
      ∀ p ∈ c.entries, AuditService.isSensitive p.1 = false → p.2.Clear AuditService.isSensitive) ∧
    ((∀ c', Json.AgreeDict Logging.isSensitive c c' → Logging.redactProcessor c' = Logging.redactProcessor c) ↔
      ∀ p ∈ c.entries, Logging.isSensitive p.1 = false → p.2.Clear Logging.isSensitive) := by
  constructor
  · simp only [AuditService.record_congr_iff, AuditService.redact_eq_redactTop]
    exact Json.redactTop_unaffected_iff
  · exact Json.redactTop_unaffected_iff

/-- A context with a password one level down. -/
def nestedPassword (password : String) : JsonDict :=
  .ofList [("credentials", .obj [("password", .str password)])]

theorem nestedPassword_agree {hidden : String → Bool} (h : hidden "password" = true) (a b : String) :
    Json.AgreeDict hidden (nestedPassword a) (nestedPassword b) := by
  have hentries : ∀ a, (nestedPassword a).entries = [("credentials", .obj [("password", .str a)])] := fun _ => rfl
  simp [Json.AgreeDict, hentries, Json.maskFields, Json.mask, h]

theorem nestedPassword_kept {hidden : String → Bool} (h : hidden "credentials" = false) {redacted : Json}
    {a b : String} (hab : a ≠ b) :
    Json.redactTop hidden redacted (nestedPassword a) ≠ Json.redactTop hidden redacted (nestedPassword b) := by
  have hentries : ∀ a, (Json.redactTop hidden redacted (nestedPassword a)).entries =
      [("credentials", if hidden "credentials" then redacted else .obj [("password", .str a)])] := fun _ => rfl
  intro heq
  have := congrArg Dict.entries heq
  rw [hentries, hentries, h] at this
  exact hab (by simpa using this)

/-- Both redactors let a password through that is one level down. -/
theorem redaction_nested_leak :
    (Json.AgreeDict AuditService.isSensitive (nestedPassword "hunter2") (nestedPassword "swordfish") ∧
      AuditService.redact (nestedPassword "hunter2") ≠ AuditService.redact (nestedPassword "swordfish")) ∧
    Json.AgreeDict Logging.isSensitive (nestedPassword "hunter2") (nestedPassword "swordfish") ∧
      Logging.redactProcessor (nestedPassword "hunter2") ≠ Logging.redactProcessor (nestedPassword "swordfish") := by
  have haudit : AuditService.isSensitive "password" = true ∧ AuditService.isSensitive "credentials" = false := by
    decide +kernel
  have hlog : Logging.isSensitive "password" = true ∧ Logging.isSensitive "credentials" = false := by
    decide +kernel
  refine ⟨⟨nestedPassword_agree haudit.1 _ _, ?_⟩, nestedPassword_agree hlog.1 _ _, ?_⟩
  · rw [AuditService.redact_eq_redactTop, AuditService.redact_eq_redactTop]
    exact nestedPassword_kept haudit.2 (by decide)
  · exact nestedPassword_kept hlog.2 (by decide)

end BankingAi
