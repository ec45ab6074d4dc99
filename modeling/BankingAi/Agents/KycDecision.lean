import BankingAi.Agents.Kyc

/-!
# The KYC decision

`Findings` says what the run finds in the two dictionaries, by the values it reads from them;
`run_complete`, `run_riskLevel` and `run_requiresHumanReview` read the result off the findings.
`kyc_decision` restates them over the entries the caller passed.
-/

namespace BankingAi.KycAgent

/-! ### Findings -/

section findings
variable (profile doc : Dict String String) (today : Date)

def Complete : Prop := ∀ name ∈ requiredProfileFields, text profile name ≠ ""

def NameMismatch : Prop :=
  text profile "full_name" ≠ "" ∧ text doc "full_name" ≠ "" ∧
    normName (text profile "full_name") ≠ normName (text doc "full_name")

def NumberMismatch : Prop :=
  text profile "document_number" ≠ "" ∧ text doc "document_number" ≠ "" ∧
    Str.strip (text profile "document_number") ≠ Str.strip (text doc "document_number")

def Unreadable : Prop := text profile "date_of_birth" ≠ "" ∧ parseDate (text profile "date_of_birth") = none

def Minor : Prop := ∃ dob, parseDate (text profile "date_of_birth") = some dob ∧ ageOn today dob < 18

def OverAge : Prop := ∃ dob, parseDate (text profile "date_of_birth") = some dob ∧ 120 < ageOn today dob

def Listed : Prop := Str.upper (text profile "country") ∈ highRiskCountries

def HighRisk : Prop := Minor profile today ∨ Listed profile

/-- The inconsistencies besides being under 18. -/
def Inconsistent : Prop :=
  NameMismatch profile doc ∨ NumberMismatch profile doc ∨ Unreadable profile ∨ OverAge profile today

end findings

section run
variable {repr : String → String} {clock today : Date} {profile doc : Dict String String} {payload : KycInput}

theorem parseDate_empty : parseDate "" = none := by decide +kernel

theorem text_dob_ne {dob : Date} (h : parseDate (text profile "date_of_birth") = some dob) :
    text profile "date_of_birth" ≠ "" := by
  intro hempty
  rw [hempty, parseDate_empty] at h
  cases h

/-- The check of the date adds a high risk for a minor, and an inconsistency for an unreadable date
and for an age out of range. -/
theorem checkDob_spec :
    ((checkDob repr today profile).risk = .high ↔ Minor profile today) ∧
    (¬ Minor profile today → (checkDob repr today profile).risk = .low) ∧
    ((checkDob repr today profile).inconsistencies ≠ [] ↔
      Minor profile today ∨ Unreadable profile ∨ OverAge profile today) := by
  unfold Minor Unreadable OverAge
  by_cases hempty : text profile "date_of_birth" = ""
  · simp [checkDob, hempty, parseDate_empty]
  · cases hparse : parseDate (text profile "date_of_birth") with
    | none => simp [checkDob, hempty, hparse]
    | some dob =>
      by_cases hminor : ageOn today dob < 18
      · simp [checkDob, hempty, hparse, hminor]
      · by_cases hover : ageOn today dob > 120
        · simp [checkDob, hempty, hparse, hminor, hover]
        · simp [checkDob, hempty, hparse, hminor, hover]

theorem run_complete : (run repr clock payload).complete = true ↔ Complete (lowerKeys payload.profile) := by
  simp [run, Complete, List.filter_eq_nil_iff]

theorem run_inconsistencies :
    (run repr clock payload).inconsistencies ≠ [] ↔
      Minor (lowerKeys payload.profile) (payload.today.getD clock) ∨
        Inconsistent (lowerKeys payload.profile) (lowerKeys payload.documentFields)
          (payload.today.getD clock) := by
  have hdob := (@checkDob_spec repr (payload.today.getD clock) (lowerKeys payload.profile)).2.2
  have hmessage : ∀ {P : Prop} [Decidable P] (m : String), (if P then [m] else []) ≠ [] ↔ P := by
    intro P _ m
    split <;> simp [*]
  have hlist : (run repr clock payload).inconsistencies ≠ [] ↔
      NameMismatch (lowerKeys payload.profile) (lowerKeys payload.documentFields) ∨
        NumberMismatch (lowerKeys payload.profile) (lowerKeys payload.documentFields) ∨
          (checkDob repr (payload.today.getD clock) (lowerKeys payload.profile)).inconsistencies ≠ [] := by
    unfold run
    dsimp only
    rw [ne_eq, List.append_eq_nil_iff, List.append_eq_nil_iff, not_and_or, not_and_or, or_assoc]
    exact or_congr (hmessage _) (or_congr (hmessage _) Iff.rfl)
  rw [hlist, hdob, Inconsistent]
  constructor
  · rintro (h | h | h | h | h)
    exacts [.inr (.inl h), .inr (.inr (.inl h)), .inl h, .inr (.inr (.inr (.inl h))),
      .inr (.inr (.inr (.inr h)))]
  · rintro (h | h | h | h | h)
    exacts [.inr (.inr (.inl h)), .inl h, .inr (.inl h), .inr (.inr (.inr (.inl h))),
      .inr (.inr (.inr (.inr h)))]

theorem run_riskLevel_eq :
    (run repr clock payload).riskLevel =
      let risk := (checkDob repr (payload.today.getD clock) (lowerKeys payload.profile)).risk
      let risk := if Str.upper (text (lowerKeys payload.profile) "country") ∈ highRiskCountries then
        escalate risk .high else risk
      if (run repr clock payload).inconsistencies ≠ [] then escalate risk .medium else risk := by
  simp [run]

theorem run_riskLevel {profile doc : Dict String String} {today : Date}
    (hprofile : profile = lowerKeys payload.profile) (hdoc : doc = lowerKeys payload.documentFields)
    (htoday : today = payload.today.getD clock) :
    (HighRisk profile today → (run repr clock payload).riskLevel = .high) ∧
    (¬ HighRisk profile today → Inconsistent profile doc today →
      (run repr clock payload).riskLevel = .medium) ∧
    (¬ HighRisk profile today → ¬ Inconsistent profile doc today →
      (run repr clock payload).riskLevel = .low) := by
  have heq := @run_riskLevel_eq repr clock payload
  have hinc := @run_inconsistencies repr clock payload
  obtain ⟨hhigh, hlow, -⟩ := @checkDob_spec repr (payload.today.getD clock) (lowerKeys payload.profile)
  rw [← hprofile, ← htoday] at heq hinc hhigh hlow
  rw [← hdoc] at hinc
  dsimp only at heq
  refine ⟨fun h => ?_, fun h hi => ?_, fun h hi => ?_⟩
  · by_cases hminor : Minor profile today
    · rw [heq, hhigh.2 hminor, if_pos (hinc.2 (.inl hminor))]
      split <;> rfl
    · have hlisted : Str.upper (text profile "country") ∈ highRiskCountries := h.resolve_left hminor
      rw [heq, if_pos hlisted, hlow hminor]
      split <;> rfl
  · obtain ⟨hminor, hlisted⟩ := not_or.1 h
    rw [Listed] at hlisted
    rw [heq, if_neg hlisted, hlow hminor, if_pos (hinc.2 (.inr hi))]
    rfl
  · obtain ⟨hminor, hlisted⟩ := not_or.1 h
    rw [Listed] at hlisted
    rw [heq, if_neg hlisted, hlow hminor, if_neg]
    exact fun hne => (hinc.1 hne).elim hminor hi

theorem run_requiresHumanReview :
    (run repr clock payload).requiresHumanReview = true ↔
      ¬ Complete (lowerKeys payload.profile) ∨
        HighRisk (lowerKeys payload.profile) (payload.today.getD clock) ∨
        Inconsistent (lowerKeys payload.profile) (lowerKeys payload.documentFields)
          (payload.today.getD clock) := by
  have hreview : (run repr clock payload).requiresHumanReview = true ↔
      ¬ (run repr clock payload).complete = true ∨ (run repr clock payload).inconsistencies ≠ [] ∨
        (run repr clock payload).riskLevel ∈ [RiskLevel.high, .critical] := by
    rw [run_riskLevel_eq]
    simp [run, or_assoc]
  obtain ⟨hhigh, hmedium, hlow⟩ := @run_riskLevel repr clock payload _ _ _ rfl rfl rfl
  rw [hreview, run_complete, run_inconsistencies]
  refine or_congr Iff.rfl ?_
  by_cases h : HighRisk (lowerKeys payload.profile) (payload.today.getD clock)
  · simp [hhigh h, h]
  · have hminor := (not_or.1 h).1
    by_cases hi : Inconsistent (lowerKeys payload.profile) (lowerKeys payload.documentFields)
        (payload.today.getD clock)
    · simp [hi]
    · simp [hlow h hi, h, hi, hminor]

end run

/-! ### The entries of the dictionaries -/

/-- A field, under any spelling of its key, has a value that is not empty. -/
def Filled (fields : Dict String String) (name value : String) : Prop :=
  value ≠ "" ∧ ∃ key, (key, value) ∈ fields.entries ∧ Str.lower key = name

/-- The keys stay apart when put in lower case. -/
def KeysApart (fields : Dict String String) : Prop := (fields.keys.map Str.lower).Nodup

instance (fields : Dict String String) : Decidable (KeysApart fields) := inferInstanceAs (Decidable (List.Nodup _))

/-- The same words, up to letter case. -/
def SameName (a b : String) : Prop :=
  (Str.words a.toList).map Str.lowerChars = (Str.words b.toList).map Str.lowerChars

theorem normName_eq_iff {a b : String} : normName a = normName b ↔ SameName a b := by
  rw [normName, normName, String.ofList_inj]
  exact Str.collapse_lower_strip_eq_iff

section filled
variable {fields : Dict String String} {name value : String}

theorem filled_iff (h : KeysApart fields) :
    Filled fields name value ↔ text (lowerKeys fields) name = value ∧ value ≠ "" := by
  have hnodup : ((fields.entries.map fun p => (Str.lower p.1, p.2)).map Prod.fst).Nodup := by
    simpa [KeysApart, Dict.keys, Function.comp_def] using h
  have hmem : (∃ key, (key, value) ∈ fields.entries ∧ Str.lower key = name) ↔
      (lowerKeys fields).get? name = some value := by
    rw [lowerKeys, Dict.get?_ofList hnodup, List.mem_map]
    constructor
    · rintro ⟨key, hkey, rfl⟩
      exact ⟨_, hkey, rfl⟩
    · rintro ⟨⟨key, v⟩, hkey, heq⟩
      cases heq
      exact ⟨key, hkey, rfl⟩
  rw [Filled, hmem, and_comm]
  refine and_congr_left fun hne => ?_
  rw [text]
  cases (lowerKeys fields).get? name with
  | none => simpa using hne.symm
  | some v => simp

theorem exists_filled (h : KeysApart fields) :
    (∃ value, Filled fields name value) ↔ text (lowerKeys fields) name ≠ "" := by
  simp only [filled_iff h]
  constructor
  · rintro ⟨v, rfl, hne⟩
    exact hne
  · intro hne
    exact ⟨_, rfl, hne⟩

theorem forall_filled (h : KeysApart fields) {P : String → Prop} :
    (∀ value, Filled fields name value → P value) ↔
      (text (lowerKeys fields) name ≠ "" → P (text (lowerKeys fields) name)) := by
  simp only [filled_iff h]
  constructor
  · intro hall hne
    exact hall _ ⟨rfl, hne⟩
  · rintro hall v ⟨rfl, hne⟩
    exact hall hne

end filled

/-- The age derived from the date of birth. -/
def HasAge (payload : KycInput) (today : Date) (age : ℤ) : Prop :=
  ∃ value dob, Filled payload.profile "date_of_birth" value ∧ parseDate value = some dob ∧ ageOn today dob = age

/-- The names of profile and document agree up to letter case and white space. -/
def NamesAgree (payload : KycInput) : Prop :=
  ∀ a, Filled payload.profile "full_name" a → ∀ b, Filled payload.documentFields "full_name" b → SameName a b

/-- The document numbers agree up to white space around them. -/
def NumbersAgree (payload : KycInput) : Prop :=
  ∀ a, Filled payload.profile "document_number" a →
    ∀ b, Filled payload.documentFields "document_number" b → Str.strip a = Str.strip b

def CountryListed (payload : KycInput) : Prop :=
  ∃ value, Filled payload.profile "country" value ∧ Str.upper value ∈ highRiskCountries

def DobUnreadable (payload : KycInput) : Prop :=
  ∃ value, Filled payload.profile "date_of_birth" value ∧ parseDate value = none

section entries
variable {payload : KycInput} {today : Date}

theorem hasAge_iff (h : KeysApart payload.profile) {age : ℤ} :
    HasAge payload today age ↔
      ∃ dob, parseDate (text (lowerKeys payload.profile) "date_of_birth") = some dob ∧ ageOn today dob = age := by
  simp only [HasAge, filled_iff h]
  constructor
  · rintro ⟨_, dob, ⟨rfl, -⟩, hparse, hage⟩
    exact ⟨dob, hparse, hage⟩
  · rintro ⟨dob, hparse, hage⟩
    exact ⟨_, dob, ⟨rfl, text_dob_ne hparse⟩, hparse, hage⟩

theorem minor_iff (h : KeysApart payload.profile) :
    Minor (lowerKeys payload.profile) today ↔ ∃ age, HasAge payload today age ∧ age < 18 := by
  simp only [hasAge_iff h, Minor]
  constructor
  · rintro ⟨dob, hparse, hage⟩
    exact ⟨_, ⟨dob, hparse, rfl⟩, hage⟩
  · rintro ⟨_, ⟨dob, hparse, rfl⟩, hage⟩
    exact ⟨dob, hparse, hage⟩

theorem overAge_iff (h : KeysApart payload.profile) :
    OverAge (lowerKeys payload.profile) today ↔ ∃ age, HasAge payload today age ∧ 120 < age := by
  simp only [hasAge_iff h, OverAge]
  constructor
  · rintro ⟨dob, hparse, hage⟩
    exact ⟨_, ⟨dob, hparse, rfl⟩, hage⟩
  · rintro ⟨_, ⟨dob, hparse, rfl⟩, hage⟩
    exact ⟨dob, hparse, hage⟩

theorem complete_iff (h : KeysApart payload.profile) :
    Complete (lowerKeys payload.profile) ↔
      ∀ name ∈ requiredProfileFields, ∃ value, Filled payload.profile name value := by
  simp only [exists_filled h, Complete]

theorem nameMismatch_iff (h : KeysApart payload.profile) (hd : KeysApart payload.documentFields) :
    NameMismatch (lowerKeys payload.profile) (lowerKeys payload.documentFields) ↔ ¬ NamesAgree payload := by
  simp only [NamesAgree, forall_filled hd, forall_filled h, NameMismatch, ne_eq, normName_eq_iff,
    Classical.not_imp]

theorem numberMismatch_iff (h : KeysApart payload.profile) (hd : KeysApart payload.documentFields) :
    NumberMismatch (lowerKeys payload.profile) (lowerKeys payload.documentFields) ↔
      ¬ NumbersAgree payload := by
  simp only [NumbersAgree, forall_filled hd, forall_filled h, NumberMismatch, ne_eq,
    Classical.not_imp]

theorem listed_iff (h : KeysApart payload.profile) :
    Listed (lowerKeys payload.profile) ↔ CountryListed payload := by
  have hempty : Str.upper "" ∉ highRiskCountries := by decide
  simp only [CountryListed, filled_iff h, Listed]
  constructor
  · intro hl
    exact ⟨_, ⟨rfl, fun he => hempty (he ▸ hl)⟩, hl⟩
  · rintro ⟨_, ⟨rfl, -⟩, hl⟩
    exact hl

theorem unreadable_iff (h : KeysApart payload.profile) :
    Unreadable (lowerKeys payload.profile) ↔ DobUnreadable payload := by
  simp only [DobUnreadable, filled_iff h, Unreadable]
  constructor
  · rintro ⟨hne, hparse⟩
    exact ⟨_, ⟨rfl, hne⟩, hparse⟩
  · rintro ⟨_, ⟨rfl, hne⟩, hparse⟩
    exact ⟨hne, hparse⟩

/-- The entries do not contradict each other: of age or not, nothing else is inconsistent. -/
theorem inconsistent_iff (h : KeysApart payload.profile) (hd : KeysApart payload.documentFields) :
    Inconsistent (lowerKeys payload.profile) (lowerKeys payload.documentFields) today ↔
      ¬ NamesAgree payload ∨ ¬ NumbersAgree payload ∨ DobUnreadable payload ∨
        ∃ age, HasAge payload today age ∧ 120 < age := by
  rw [Inconsistent, nameMismatch_iff h hd, numberMismatch_iff h hd, unreadable_iff h, overAge_iff h]

theorem unreadable_or_hasAge {value : String} (h : Filled payload.profile "date_of_birth" value) :
    DobUnreadable payload ∨ ∃ age, HasAge payload today age := by
  cases hparse : parseDate value with
  | none => exact .inl ⟨value, h, hparse⟩
  | some dob => exact .inr ⟨_, value, dob, h, hparse, rfl⟩

theorem hasAge_unique (h : KeysApart payload.profile) {a b : ℤ} (ha : HasAge payload today a)
    (hb : HasAge payload today b) : a = b := by
  obtain ⟨_, hd, rfl⟩ := (hasAge_iff h).1 ha
  obtain ⟨_, he, rfl⟩ := (hasAge_iff h).1 hb
  rw [hd] at he
  cases he
  rfl

theorem not_dobUnreadable (h : KeysApart payload.profile) {age : ℤ} (ha : HasAge payload today age) :
    ¬ DobUnreadable payload := by
  intro hu
  obtain ⟨dob, hparse, -⟩ := (hasAge_iff h).1 ha
  rw [← unreadable_iff h, Unreadable, hparse] at hu
  cases hu.2

theorem low_risk_iff (h : KeysApart payload.profile)
    (hdob : ∃ value, Filled payload.profile "date_of_birth" value) :
    (¬ ((∃ age, HasAge payload today age ∧ age < 18) ∨ CountryListed payload) ∧
      ¬ (¬ NamesAgree payload ∨ ¬ NumbersAgree payload ∨ DobUnreadable payload ∨
        ∃ age, HasAge payload today age ∧ 120 < age)) ↔
    NamesAgree payload ∧ NumbersAgree payload ∧
      (∃ age, HasAge payload today age ∧ 18 ≤ age ∧ age ≤ 120) ∧ ¬ CountryListed payload := by
  obtain ⟨value, hvalue⟩ := hdob
  simp only [not_or, not_not]
  constructor
  · rintro ⟨⟨hminor, hcountry⟩, hnames, hnumbers, hreadable, hover⟩
    obtain ⟨age, ha⟩ := (unreadable_or_hasAge hvalue).resolve_left hreadable
    have hmin : 18 ≤ age := not_lt.1 fun hlt => hminor ⟨age, ha, hlt⟩
    have hmax : age ≤ 120 := not_lt.1 fun hlt => hover ⟨age, ha, hlt⟩
    exact ⟨hnames, hnumbers, ⟨age, ha, hmin, hmax⟩, hcountry⟩
  · rintro ⟨hnames, hnumbers, ⟨age, ha, hmin, hmax⟩, hcountry⟩
    have hall : ∀ b, HasAge payload today b → b = age := fun b hb => hasAge_unique h hb ha
    refine ⟨⟨?_, hcountry⟩, hnames, hnumbers, not_dobUnreadable h ha, ?_⟩
    · rintro ⟨b, hb, hlt⟩
      have := hall b hb
      omega
    · rintro ⟨b, hb, hlt⟩
      have := hall b hb
      omega

end entries

theorem riskLevel_iff {risk : RiskLevel} {high inconsistent : Prop} (hhigh : high → risk = .high)
    (hmedium : ¬ high → inconsistent → risk = .medium) (hlow : ¬ high → ¬ inconsistent → risk = .low) :
    (risk = .high ↔ high) ∧ (risk = .medium ↔ ¬ high ∧ inconsistent) ∧
      (risk = .low ↔ ¬ high ∧ ¬ inconsistent) := by
  by_cases h : high
  · simp [hhigh h, h]
  · by_cases hi : inconsistent
    · simp [hmedium h hi, h, hi]
    · simp [hlow h hi, h, hi]

/-- When a human does not have to review, and which risk level is assigned, by the entries of the
profile and of the document. -/
theorem kyc_decision (repr : String → String) (clock : Date) (payload : KycInput)
    (hprofile : KeysApart payload.profile) (hdoc : KeysApart payload.documentFields) :
    let result := run repr clock payload
    let today := payload.today.getD clock
    let highRisk := (∃ age, HasAge payload today age ∧ age < 18) ∨ CountryListed payload
    let inconsistent := ¬ NamesAgree payload ∨ ¬ NumbersAgree payload ∨ DobUnreadable payload ∨
      ∃ age, HasAge payload today age ∧ 120 < age
    (result.requiresHumanReview = false ↔
      (∀ name ∈ requiredProfileFields, ∃ value, Filled payload.profile name value) ∧
        NamesAgree payload ∧ NumbersAgree payload ∧
        (∃ age, HasAge payload today age ∧ 18 ≤ age ∧ age ≤ 120) ∧ ¬ CountryListed payload) ∧
    ((result.riskLevel = .high ↔ highRisk) ∧ (result.riskLevel = .medium ↔ ¬ highRisk ∧ inconsistent) ∧
      (result.riskLevel = .low ↔ ¬ highRisk ∧ ¬ inconsistent)) ∧
    (.medium ≤ result.riskLevel → result.requiresHumanReview = true) ∧
    (result.requiresHumanReview = false → result.riskLevel = .low ∧ result.complete = true) := by
  intro result today highRisk inconsistent
  have hhigh : HighRisk (lowerKeys payload.profile) today ↔ highRisk :=
    or_congr (minor_iff hprofile) (listed_iff hprofile)
  have hinc : Inconsistent (lowerKeys payload.profile) (lowerKeys payload.documentFields) today ↔ inconsistent :=
    inconsistent_iff hprofile hdoc
  obtain ⟨hrisk, hmedium, hlow⟩ := @run_riskLevel repr clock payload _ _ _ rfl rfl rfl
  rw [hhigh] at hrisk hmedium hlow
  rw [hinc] at hmedium hlow
  have hpassed : result.requiresHumanReview = false ↔
      Complete (lowerKeys payload.profile) ∧ ¬ highRisk ∧ ¬ inconsistent := by
    rw [← Bool.not_eq_true, run_requiresHumanReview, not_or, not_or, not_not]
    exact and_congr Iff.rfl (and_congr (not_congr hhigh) (not_congr hinc))
  refine ⟨?_, riskLevel_iff hrisk hmedium hlow, ?_, ?_⟩
  · rw [hpassed, complete_iff hprofile]
    refine and_congr_right fun hc => low_risk_iff hprofile (hc _ ?_)
    simp [requiredProfileFields]
  · intro hle
    by_contra hfalse
    rw [Bool.not_eq_true, hpassed] at hfalse
    rw [hlow hfalse.2.1 hfalse.2.2] at hle
    exact absurd hle (by decide)
  · intro hfalse
    obtain ⟨hc, hnot, hi⟩ := hpassed.1 hfalse
    exact ⟨hlow hnot hi, run_complete.2 hc⟩

/-- An applicant with a document in capital letters. -/
def sampleInput : KycInput where
  profile := .ofList [("Full_Name", "Ada  Lovelace"), ("date_of_birth", "1990-12-10"), ("country", "gb"),
    ("document_number", "P123")]
  documentFields := .ofList [("full_name", "ADA LOVELACE "), ("document_number", " P123")]
  today := some ⟨2024, 1, 1, by decide⟩

theorem kyc_decision_sample :
    (run id ⟨2024, 6, 1, by decide⟩ sampleInput).requiresHumanReview = false ∧
      (run id ⟨2024, 6, 1, by decide⟩ sampleInput).riskLevel = .low ∧ NamesAgree sampleInput := by
  have h := kyc_decision id ⟨2024, 6, 1, by decide⟩ sampleInput (by decide +kernel) (by decide +kernel)
  have hpassed : (run id ⟨2024, 6, 1, by decide⟩ sampleInput).requiresHumanReview = false := by decide +kernel
  exact ⟨hpassed, (h.2.2.2 hpassed).1, (h.1.1 hpassed).2.1⟩

end BankingAi.KycAgent
