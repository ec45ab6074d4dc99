import BankingAi.Agents.Fraud
import BankingAi.Agents.KycDecision

/-!
# Screening and spelling noise

Two inputs differ by noise when every value is the same up to white space around it, names and
countries also up to letter case. `plain` is what noise leaves of a value. The agents do not always
decide by it: the tests for an empty value and for a listed country look at the value as given.
-/

namespace BankingAi

/-! ### Listed countries -/

namespace Str

theorem letter_x : Letter 'X' 'x' :=
  .of_tables (by decide +kernel) (by decide +kernel) (by decide +kernel) (by decide +kernel)
    (by decide +kernel) (by decide) (by decide)

theorem letter_z : Letter 'Z' 'z' :=
  .of_tables (by decide +kernel) (by decide +kernel) (by decide +kernel) (by decide +kernel)
    (by decide +kernel) (by decide) (by decide)

theorem upper_eq_iff {capital small : Char} (h : Letter capital small) (s : String) (n : ℕ) :
    upper s = .ofList (List.replicate n capital) ↔ lower s = .ofList (List.replicate n small) := by
  rw [upper, lower, String.ofList_inj, String.ofList_inj, h.upper_iff_lower]

end Str

theorem upper_mem_listed_iff (country : String) :
    Str.upper country ∈ ["XX", "ZZ"] ↔ Str.lower country = "xx" ∨ Str.lower country = "zz" := by
  have hx := Str.upper_eq_iff Str.letter_x country 2
  have hz := Str.upper_eq_iff Str.letter_z country 2
  simp only [List.mem_cons, List.not_mem_nil, or_false]
  exact or_congr hx hz

theorem strip_of_listed {country : String} (h : Str.upper country ∈ ["XX", "ZZ"]) :
    Str.strip country = country := by
  have hchars : ∀ {capital small : Char}, Str.Letter capital small → Str.isSpace capital = false →
      Str.isSpace small = false → Str.upper country = .ofList (List.replicate 2 capital) →
      Str.strip country = country := by
    intro capital small hl hc hs heq
    rw [Str.upper, String.ofList_inj, hl.upperChars_eq_iff] at heq
    have hall : ∀ c ∈ country.toList, Str.isSpace c = false := by
      intro c hmem
      rcases heq.2 c hmem with rfl | rfl
      exacts [hc, hs]
    have htrim : Str.Trimmed country.toList :=
      ⟨fun c hmem => hall c (List.mem_of_head? hmem), fun c hmem => hall c (List.mem_of_getLast? hmem)⟩
    rw [Str.strip, Str.stripChars_of_trimmed htrim, String.ofList_toList]
  simp only [List.mem_cons, List.not_mem_nil, or_false] at h
  rcases h with h | h
  · exact hchars Str.letter_x (by decide) (by decide) h
  · exact hchars Str.letter_z (by decide) (by decide) h

/-- Two spellings of a country. -/
def SameCountry (a b : String) : Prop := Str.lower (Str.strip a) = Str.lower (Str.strip b)

/-- Up to white space around it, the country is listed. -/
def PlainListed (country : String) : Prop := Str.upper (Str.strip country) ∈ ["XX", "ZZ"]

theorem plainListed_congr {a b : String} (h : SameCountry a b) : PlainListed a ↔ PlainListed b := by
  rw [PlainListed, PlainListed, upper_mem_listed_iff, upper_mem_listed_iff, h]

theorem plainListed_of_listed {country : String} (h : Str.upper country ∈ ["XX", "ZZ"]) : PlainListed country := by
  rwa [PlainListed, strip_of_listed h]

theorem not_listed_padded (country : String) : Str.upper (" " ++ country) ∉ ["XX", "ZZ"] := by
  intro h
  have hstrip := strip_of_listed h
  have htrim := Str.trimmed_stripChars (" " ++ country).toList
  rw [← String.toList_ofList (l := Str.stripChars _), show String.ofList _ = _ from hstrip] at htrim
  have := htrim.head ' ' (by simp)
  revert this
  decide

namespace KycAgent

/-! ### Values up to noise -/

/-- What noise leaves of a value: no white space around it, and names and countries in lower case. -/
def plain (name value : String) : String :=
  if name = "full_name" ∨ name = "country" then Str.lower (Str.strip value) else Str.strip value

def plain? (fields : Dict String String) (name : String) : Option String :=
  ((lowerKeys fields).get? name).map (plain name)

/-- The same fields with the same values up to noise. -/
def NoisyFields (fields fields' : Dict String String) : Prop :=
  List.Forall₂ (fun a b => a.1 = b.1 ∧ plain (Str.lower a.1) a.2 = plain (Str.lower a.1) b.2)
    fields.entries fields'.entries

/-- Two inputs that differ only by spelling noise. -/
structure Noise (p q : KycInput) : Prop where
  today : p.today = q.today
  profile : NoisyFields p.profile q.profile
  documentFields : NoisyFields p.documentFields q.documentFields

section plain
variable {fields fields' : Dict String String} {name value : String}

theorem plain?_congr (h : NoisyFields fields fields') : plain? fields = plain? fields' := by
  funext name
  have hrel : Option.Rel (fun v w => plain name v = plain name w) ((lowerKeys fields).get? name)
      ((lowerKeys fields').get? name) := by
    refine @Dict.rel_get?_ofList _ _ _ _ (fun name v w => plain name v = plain name w) _ _ ?_ name
    refine List.forall₂_map_left_iff.2 (List.forall₂_map_right_iff.2 (h.imp ?_))
    rintro ⟨key, v⟩ ⟨key', w⟩ ⟨hkey, hplain⟩
    exact ⟨congrArg Str.lower hkey, hplain⟩
  unfold plain?
  generalize (lowerKeys fields).get? name = x at hrel ⊢
  generalize (lowerKeys fields').get? name = y at hrel ⊢
  cases hrel with
  | some h => exact congrArg some h
  | none => rfl

theorem strip_strip (value : String) : Str.strip (Str.strip value) = Str.strip value := by
  rw [Str.strip, Str.strip, String.toList_ofList, Str.stripChars_of_trimmed (Str.trimmed_stripChars _)]

theorem strip_padded (value : String) : Str.strip (" " ++ value) = Str.strip value := by
  have hblank : ∀ c ∈ [' '], Str.isSpace c = true := by
    intro c hc
    rw [List.mem_singleton.1 hc]
    decide
  have h := @Str.stripChars_append [' '] value.toList [] hblank (by simp)
  rw [List.append_nil] at h
  rw [Str.strip, Str.strip, String.toList_append]
  exact congrArg String.ofList h

theorem lower_eq_empty {s : String} : Str.lower s = "" ↔ s = "" := by
  rw [Str.lower, ← String.toList_inj, ← String.toList_inj, String.toList_ofList]
  exact Str.lowerBetween_eq_nil

theorem plain_eq_empty : plain name value = "" ↔ Str.strip value = "" := by
  unfold plain
  split
  · exact lower_eq_empty
  · rfl

theorem parseDate_strip : parseDate (Str.strip value) = parseDate value := by
  rw [parseDate, parseDate, Str.strip, String.toList_ofList,
    Str.stripChars_of_trimmed (Str.trimmed_stripChars _)]

theorem plain?_cases :
    (plain? fields name = none ∧ text (lowerKeys fields) name = "") ∨
      (lowerKeys fields).get? name = some (text (lowerKeys fields) name) ∧
        plain? fields name = some (plain name (text (lowerKeys fields) name)) := by
  unfold plain? text
  cases (lowerKeys fields).get? name with
  | none => exact .inl ⟨rfl, rfl⟩
  | some v => exact .inr ⟨rfl, rfl⟩

theorem plain_ne_empty_of (h : plain name value ≠ "") : value ≠ "" := by
  rintro rfl
  exact h (plain_eq_empty.2 rfl)

end plain

/-- A field with a value that is not only white space. -/
def NonBlank (fields : Dict String String) (name : String) : Prop := ∃ s, plain? fields name = some s ∧ s ≠ ""

/-- A field whose value is empty or only white space. -/
def Blank (fields : Dict String String) (name : String) : Prop := plain? fields name = some ""

/-- One of profile and document has the field blank, the other has a value. -/
def OneBlank (p : KycInput) (name : String) : Prop :=
  Blank p.profile name ∧ NonBlank p.documentFields name ∨ NonBlank p.profile name ∧ Blank p.documentFields name

/-- A date of birth that reads, up to noise, as one with the given property of the age. -/
def PlainAge (p : KycInput) (today : Date) (P : ℤ → Prop) : Prop :=
  ∃ s dob, plain? p.profile "date_of_birth" = some s ∧ parseDate s = some dob ∧ P (ageOn today dob)

def PlainListedCountry (p : KycInput) : Prop :=
  plain? p.profile "country" = some "xx" ∨ plain? p.profile "country" = some "zz"

/-- Profile and document both have a value, and the values differ under `g`. -/
def PlainMismatch (p : KycInput) (name : String) (g : String → String) : Prop :=
  ∃ a b, plain? p.profile name = some a ∧ plain? p.documentFields name = some b ∧ a ≠ "" ∧ b ≠ "" ∧ g a ≠ g b

/-- Runs of white space inside a name count as one blank. -/
def collapsed (name : String) : String := .ofList (Str.collapse name.toList)

/-- An inconsistency that noise cannot remove. -/
def Conflict (p : KycInput) (today : Date) : Prop :=
  PlainMismatch p "full_name" collapsed ∨ PlainMismatch p "document_number" id ∨
    (∃ s, plain? p.profile "date_of_birth" = some s ∧ s ≠ "" ∧ parseDate s = none) ∨
    PlainAge p today (120 < ·)

/-- A blank value that counts as an inconsistency when it has white space and as no value when not. -/
def BlankConflict (p : KycInput) : Prop :=
  OneBlank p "full_name" ∨ OneBlank p "document_number" ∨ Blank p.profile "date_of_birth"

/-- What the result does not depend on noise for: no required field is blank unless another is
absent, and the applicant is a minor, or the country is not listed up to noise and no blank value
decides alone about consistency. -/
structure Settled (p : KycInput) (today : Date) : Prop where
  complete : (∃ name ∈ requiredProfileFields, plain? p.profile name = none) ∨
    ∀ name ∈ requiredProfileFields, NonBlank p.profile name
  risk : PlainAge p today (· < 18) ∨
    ¬ PlainListedCountry p ∧ (Conflict p today ∨ ¬ BlankConflict p)

/-! ### What every spelling decides -/

section spelling
variable {p : KycInput} {fields : Dict String String} {today : Date} {name : String}

theorem text_ne_of_nonBlank (h : NonBlank fields name) : text (lowerKeys fields) name ≠ "" := by
  obtain ⟨s, hs, hne⟩ := h
  rcases @plain?_cases fields name with ⟨hnone, -⟩ | ⟨-, hsome⟩
  · rw [hnone] at hs; cases hs
  · rw [hsome] at hs
    cases hs
    exact plain_ne_empty_of hne

theorem present_of_text_ne (h : text (lowerKeys fields) name ≠ "") : plain? fields name ≠ none := by
  rcases @plain?_cases fields name with ⟨-, hempty⟩ | ⟨-, hsome⟩
  · exact absurd hempty h
  · rw [hsome]; simp

theorem plainAge_iff {P : ℤ → Prop} :
    PlainAge p today P ↔
      ∃ dob, parseDate (text (lowerKeys p.profile) "date_of_birth") = some dob ∧ P (ageOn today dob) := by
  have hparse : ∀ v, parseDate (plain "date_of_birth" v) = parseDate v := fun v => parseDate_strip
  unfold PlainAge
  rcases @plain?_cases p.profile "date_of_birth" with ⟨hnone, hempty⟩ | ⟨-, hsome⟩
  · simp [hnone, hempty, parseDate_empty]
  · simp [hsome, hparse]

theorem minor_iff_plain : Minor (lowerKeys p.profile) today ↔ PlainAge p today (· < 18) :=
  (plainAge_iff (P := (· < 18))).symm

theorem plainListedCountry_iff :
    PlainListedCountry p ↔ PlainListed (text (lowerKeys p.profile) "country") := by
  rw [PlainListed, upper_mem_listed_iff, PlainListedCountry]
  rcases @plain?_cases p.profile "country" with ⟨hnone, hempty⟩ | ⟨-, hsome⟩
  · have : Str.lower (Str.strip "") = "" := by decide
    simp [hnone, hempty, this]
  · have hplain : ∀ v, plain "country" v = Str.lower (Str.strip v) := fun v => by simp [plain]
    simp [hsome, hplain]

theorem plainListed_of_listed_field (h : Listed (lowerKeys p.profile)) : PlainListedCountry p :=
  plainListedCountry_iff.2 (plainListed_of_listed h)

section mismatch
variable {f g : String → String}

/-- Both texts are not empty and differ under `f`. -/
def Mismatch (p : KycInput) (name : String) (f : String → String) : Prop :=
  text (lowerKeys p.profile) name ≠ "" ∧ text (lowerKeys p.documentFields) name ≠ "" ∧
    f (text (lowerKeys p.profile) name) ≠ f (text (lowerKeys p.documentFields) name)

/-- A mismatch is one of plain values, or white space stands against a value. -/
theorem mismatch_iff (hf : ∀ v, f v = g (plain name v)) (hg : ∀ s, g s = g "" → s = "") :
    Mismatch p name f ↔ PlainMismatch p name g ∨ OneBlank p name ∧
      text (lowerKeys p.profile) name ≠ "" ∧ text (lowerKeys p.documentFields) name ≠ "" := by
  unfold Mismatch PlainMismatch OneBlank NonBlank Blank
  rcases @plain?_cases p.profile name with ⟨hnone, hempty⟩ | ⟨-, ha⟩
  · simp [hnone, hempty]
  rcases @plain?_cases p.documentFields name with ⟨hnone, hempty⟩ | ⟨-, hb⟩
  · simp [hnone, hempty]
  generalize text (lowerKeys p.profile) name = v at ha ⊢
  generalize text (lowerKeys p.documentFields) name = w at hb ⊢
  have hv := @plain_ne_empty_of name v
  have hw := @plain_ne_empty_of name w
  rw [ha, hb, hf, hf]
  simp only [Option.some.injEq, exists_and_left, exists_eq_left', ne_eq]
  constructor
  · rintro ⟨hvne, hwne, hne⟩
    by_cases hx : plain name v = ""
    · have hy : plain name w ≠ "" := fun hy => hne (by rw [hx, hy])
      exact .inr ⟨.inl ⟨hx, hy⟩, hvne, hwne⟩
    · by_cases hy : plain name w = ""
      · exact .inr ⟨.inr ⟨hx, hy⟩, hvne, hwne⟩
      · exact .inl ⟨hx, hy, hne⟩
  · rintro (⟨hx, hy, hne⟩ | ⟨⟨hx, hy⟩ | ⟨hx, hy⟩, hvne, hwne⟩)
    · exact ⟨hv hx, hw hy, hne⟩
    · refine ⟨hvne, hwne, fun heq => hy (hg _ ?_)⟩
      rw [← heq, hx]
    · refine ⟨hvne, hwne, fun heq => hx (hg _ ?_)⟩
      rw [heq, hy]

end mismatch

theorem normName_eq_collapsed (v : String) : normName v = collapsed (plain "full_name" v) := by
  rw [normName, collapsed, plain, if_pos (.inl rfl), Str.lower, Str.strip, String.toList_ofList,
    String.toList_ofList]

theorem strip_eq_plain (v : String) : Str.strip v = id (plain "document_number" v) := by
  rw [plain, if_neg (by decide)]
  rfl

theorem collapsed_eq_empty (s : String) (h : collapsed s = collapsed "") : s = "" := by
  rw [collapsed, collapsed, String.ofList_inj] at h
  rw [← String.toList_inj]
  cases hs : s.toList with
  | nil => rfl
  | cons c cs =>
    rw [hs, Str.collapse] at h
    by_cases hc : Str.isSpace c = true
    · rw [Str.collapseFrom_space hc] at h; cases h
    · rw [Str.collapseFrom_other (by simpa using hc)] at h; cases h

theorem nameMismatch_iff_plain :
    NameMismatch (lowerKeys p.profile) (lowerKeys p.documentFields) ↔
      PlainMismatch p "full_name" collapsed ∨ OneBlank p "full_name" ∧
        text (lowerKeys p.profile) "full_name" ≠ "" ∧ text (lowerKeys p.documentFields) "full_name" ≠ "" :=
  mismatch_iff normName_eq_collapsed collapsed_eq_empty

theorem numberMismatch_iff_plain :
    NumberMismatch (lowerKeys p.profile) (lowerKeys p.documentFields) ↔
      PlainMismatch p "document_number" id ∨ OneBlank p "document_number" ∧
        text (lowerKeys p.profile) "document_number" ≠ "" ∧
        text (lowerKeys p.documentFields) "document_number" ≠ "" :=
  mismatch_iff strip_eq_plain fun _ h => h

theorem unreadable_iff_plain :
    Unreadable (lowerKeys p.profile) ↔
      (∃ s, plain? p.profile "date_of_birth" = some s ∧ s ≠ "" ∧ parseDate s = none) ∨
        Blank p.profile "date_of_birth" ∧ text (lowerKeys p.profile) "date_of_birth" ≠ "" := by
  have hparse : ∀ v, parseDate (plain "date_of_birth" v) = parseDate v := fun v => parseDate_strip
  unfold Unreadable Blank
  rcases @plain?_cases p.profile "date_of_birth" with ⟨hnone, hempty⟩ | ⟨-, hsome⟩
  · simp [hnone, hempty]
  · generalize text (lowerKeys p.profile) "date_of_birth" = v at hsome ⊢
    rw [hsome]
    simp only [Option.some.injEq, exists_eq_left', hparse, ne_eq]
    constructor
    · rintro ⟨hne, hnone⟩
      by_cases hx : plain "date_of_birth" v = ""
      · exact .inr ⟨hx, hne⟩
      · exact .inl ⟨hx, hnone⟩
    · rintro (⟨hx, hnone⟩ | ⟨hx, hne⟩)
      · exact ⟨plain_ne_empty_of hx, hnone⟩
      · refine ⟨hne, ?_⟩
        rw [← hparse, hx, parseDate_empty]

/-- A blank value that the checks of consistency see as a value. -/
def SeenBlank (p : KycInput) : Prop :=
  (OneBlank p "full_name" ∧ text (lowerKeys p.profile) "full_name" ≠ "" ∧
      text (lowerKeys p.documentFields) "full_name" ≠ "") ∨
    (OneBlank p "document_number" ∧ text (lowerKeys p.profile) "document_number" ≠ "" ∧
      text (lowerKeys p.documentFields) "document_number" ≠ "") ∨
    Blank p.profile "date_of_birth" ∧ text (lowerKeys p.profile) "date_of_birth" ≠ ""

theorem SeenBlank.conflict (h : SeenBlank p) : BlankConflict p :=
  h.imp And.left (Or.imp And.left And.left)

theorem inconsistent_iff_plain :
    Inconsistent (lowerKeys p.profile) (lowerKeys p.documentFields) today ↔ Conflict p today ∨ SeenBlank p := by
  rw [Inconsistent, nameMismatch_iff_plain, numberMismatch_iff_plain, unreadable_iff_plain, OverAge,
    ← plainAge_iff (P := (120 < ·)), Conflict, SeenBlank]
  constructor
  · rintro ((h | h) | (h | h) | (h | h) | h)
    exacts [.inl (.inl h), .inr (.inl h), .inl (.inr (.inl h)), .inr (.inr (.inl h)),
      .inl (.inr (.inr (.inl h))), .inr (.inr (.inr h)), .inl (.inr (.inr (.inr h)))]
  · rintro ((h | h | h | h) | h | h | h)
    exacts [.inl (.inl h), .inr (.inl (.inl h)), .inr (.inr (.inl (.inl h))), .inr (.inr (.inr h)),
      .inl (.inr h), .inr (.inl (.inr h)), .inr (.inr (.inl (.inr h)))]

end spelling

/-! ### Two extreme spellings -/

/-- Every value without the white space around it. -/
def trimmed (fields : Dict String String) : Dict String String := fields.mapValues fun _ v => Str.strip v

/-- Every value with a blank in front. -/
def padded (fields : Dict String String) : Dict String String := fields.mapValues fun _ v => " " ++ v

section extreme
variable {fields : Dict String String} {name : String}

theorem get?_lowerKeys_mapValues (f : String → String) :
    (lowerKeys (fields.mapValues fun _ v => f v)).get? name = ((lowerKeys fields).get? name).map f := by
  have hrel : Option.Rel (fun v w => w = f v) ((lowerKeys fields).get? name)
      ((lowerKeys (fields.mapValues fun _ v => f v)).get? name) := by
    refine @Dict.rel_get?_ofList _ _ _ _ (fun _ v w => w = f v) _ _ ?_ name
    refine List.forall₂_map_left_iff.2 (List.forall₂_map_right_iff.2 ?_)
    refine List.forall₂_map_right_iff.2 (List.forall₂_same.2 ?_)
    exact fun _ _ => ⟨rfl, rfl⟩
  generalize (lowerKeys fields).get? name = x at hrel ⊢
  generalize (lowerKeys (fields.mapValues fun _ v => f v)).get? name = y at hrel ⊢
  cases hrel with
  | some h => exact congrArg some h
  | none => rfl

theorem noisy_mapValues {f : String → String} (h : ∀ v, Str.strip (f v) = Str.strip v) :
    NoisyFields fields (fields.mapValues fun _ v => f v) := by
  refine List.forall₂_map_right_iff.2 (List.forall₂_same.2 fun p _ => ⟨rfl, ?_⟩)
  simp only [plain, h]

theorem noisy_trimmed : NoisyFields fields (trimmed fields) := noisy_mapValues strip_strip

theorem noisy_padded : NoisyFields fields (padded fields) := noisy_mapValues strip_padded

theorem text_trimmed : text (lowerKeys (trimmed fields)) name = Str.strip (text (lowerKeys fields) name) := by
  have hempty : "" = Str.strip "" := by decide
  rw [text, trimmed, get?_lowerKeys_mapValues, text]
  cases (lowerKeys fields).get? name with
  | none => exact hempty
  | some v => rfl

theorem text_padded (h : plain? fields name ≠ none) :
    text (lowerKeys (padded fields)) name = " " ++ text (lowerKeys fields) name := by
  rw [text, padded, get?_lowerKeys_mapValues, text]
  unfold plain? at h
  cases hv : (lowerKeys fields).get? name with
  | none => rw [hv] at h; exact absurd rfl h
  | some v => rfl

end extreme

/-- The two spellings of an input. -/
def trimmedInput (p : KycInput) : KycInput :=
  { p with profile := trimmed p.profile, documentFields := trimmed p.documentFields }

def paddedInput (p : KycInput) : KycInput :=
  { p with profile := padded p.profile, documentFields := padded p.documentFields }

section extreme
variable {p : KycInput} {today : Date}

theorem noise_trimmed : Noise p (trimmedInput p) := ⟨rfl, noisy_trimmed, noisy_trimmed⟩

theorem noise_padded : Noise p (paddedInput p) := ⟨rfl, noisy_padded, noisy_padded⟩

theorem nonBlank_iff_text {fields : Dict String String} {name : String} :
    NonBlank fields name ↔ text (lowerKeys (trimmed fields)) name ≠ "" := by
  rw [text_trimmed]
  rcases @plain?_cases fields name with ⟨hnone, hempty⟩ | ⟨-, hsome⟩
  · have : Str.strip "" = "" := by decide
    simp [NonBlank, hnone, hempty, this]
  · simp [NonBlank, hsome, plain_eq_empty]

theorem complete_trimmed :
    Complete (lowerKeys (trimmed p.profile)) ↔ ∀ name ∈ requiredProfileFields, NonBlank p.profile name := by
  simp only [Complete, nonBlank_iff_text]

theorem complete_padded :
    Complete (lowerKeys (padded p.profile)) ↔ ∀ name ∈ requiredProfileFields, plain? p.profile name ≠ none := by
  refine forall₂_congr fun name _ => ⟨fun h => ?_, fun h => ?_⟩
  · rw [plain?_congr noisy_padded]
    exact present_of_text_ne h
  · rw [text_padded h]
    simp

theorem listed_trimmed : Listed (lowerKeys (trimmed p.profile)) ↔ PlainListedCountry p := by
  rw [plainListedCountry_iff, Listed, text_trimmed]
  rfl

theorem not_listed_padded_field : ¬ Listed (lowerKeys (padded p.profile)) := by
  intro h
  have hpresent : plain? p.profile "country" ≠ none := by
    intro hnone
    have hplain : plain? (paddedInput p).profile = plain? p.profile := (plain?_congr noisy_padded).symm
    have := plainListed_of_listed_field (p := paddedInput p) h
    rw [PlainListedCountry, hplain, hnone] at this
    rcases this with h | h <;> cases h
  rw [Listed, text_padded hpresent] at h
  exact not_listed_padded _ h

theorem text_eq_of_blank_trimmed {fields : Dict String String} {name : String}
    (h : Blank (trimmed fields) name) : text (lowerKeys (trimmed fields)) name = "" := by
  by_contra hne
  obtain ⟨s, hs, hsne⟩ := nonBlank_iff_text.2 hne
  rw [Blank, ← plain?_congr noisy_trimmed, hs] at h
  exact hsne (Option.some.inj h)

theorem not_seenBlank_trimmed : ¬ SeenBlank (trimmedInput p) := by
  rintro (⟨⟨h, -⟩ | ⟨-, h⟩, hne, hne'⟩ | ⟨⟨h, -⟩ | ⟨-, h⟩, hne, hne'⟩ | ⟨h, hne⟩)
  exacts [hne (text_eq_of_blank_trimmed h), hne' (text_eq_of_blank_trimmed h),
    hne (text_eq_of_blank_trimmed h), hne' (text_eq_of_blank_trimmed h), hne (text_eq_of_blank_trimmed h)]

theorem text_padded_ne {fields : Dict String String} {name : String} (h : plain? fields name ≠ none) :
    text (lowerKeys (padded fields)) name ≠ "" := by
  rw [text_padded h]
  simp

theorem Blank.present {fields : Dict String String} {name : String} (h : Blank fields name) :
    plain? fields name ≠ none := by
  rw [h]; simp

theorem NonBlank.present {fields : Dict String String} {name : String} (h : NonBlank fields name) :
    plain? fields name ≠ none := by
  obtain ⟨s, hs, -⟩ := h
  rw [hs]; simp

theorem OneBlank.present {name : String} (h : OneBlank p name) :
    plain? p.profile name ≠ none ∧ plain? p.documentFields name ≠ none := by
  rcases h with ⟨h, h'⟩ | ⟨h, h'⟩
  exacts [⟨h.present, h'.present⟩, ⟨h.present, h'.present⟩]

end extreme

/-! ### Noise keeps what the values are up to noise -/

namespace Noise
variable {p q : KycInput} {today : Date} {name : String} (h : Noise p q)
include h

theorem plain_profile : plain? p.profile = plain? q.profile := plain?_congr h.profile

theorem plain_documentFields : plain? p.documentFields = plain? q.documentFields := plain?_congr h.documentFields

theorem oneBlank : OneBlank p name ↔ OneBlank q name := by
  unfold OneBlank Blank NonBlank
  rw [h.plain_profile, h.plain_documentFields]

theorem blankConflict : BlankConflict p ↔ BlankConflict q := by
  unfold BlankConflict Blank
  rw [h.oneBlank, h.oneBlank, h.plain_profile]

theorem plainAge {P : ℤ → Prop} : PlainAge p today P ↔ PlainAge q today P := by
  unfold PlainAge
  rw [h.plain_profile]

theorem plainListedCountry : PlainListedCountry p ↔ PlainListedCountry q := by
  unfold PlainListedCountry
  rw [h.plain_profile]

theorem conflict : Conflict p today ↔ Conflict q today := by
  unfold Conflict PlainMismatch
  rw [h.plainAge, h.plain_profile, h.plain_documentFields]

theorem nonBlank : NonBlank p.profile name ↔ NonBlank q.profile name := by
  unfold NonBlank
  rw [h.plain_profile]

theorem settled (hs : Settled p today) : Settled q today := by
  obtain ⟨hcomplete, hrisk⟩ := hs
  simp only [h.plain_profile, h.nonBlank] at hcomplete
  rw [h.plainAge, h.plainListedCountry, h.conflict, h.blankConflict] at hrisk
  exact ⟨hcomplete, hrisk⟩

end Noise

theorem seenBlank_padded {p : KycInput} (h : BlankConflict p) : SeenBlank (paddedInput p) := by
  have hn := @noise_padded p
  rcases h with h | h | h
  · exact .inl ⟨hn.oneBlank.1 h, text_padded_ne h.present.1, text_padded_ne h.present.2⟩
  · exact .inr (.inl ⟨hn.oneBlank.1 h, text_padded_ne h.present.1, text_padded_ne h.present.2⟩)
  · refine .inr (.inr ⟨?_, text_padded_ne h.present⟩)
    rw [Blank, ← hn.plain_profile]
    exact h

/-! ### The decision -/

/-- What the claim about noise compares. -/
def SameDecision (a b : KycResult) : Prop :=
  a.complete = b.complete ∧ a.riskLevel = b.riskLevel ∧ a.requiresHumanReview = b.requiresHumanReview

section decision
variable {repr : String → String} {clock today : Date} {p q : KycInput}

theorem sameDecision_of (hcomplete : Complete (lowerKeys p.profile) ↔ Complete (lowerKeys q.profile))
    (hhigh : HighRisk (lowerKeys p.profile) (p.today.getD clock) ↔
      HighRisk (lowerKeys q.profile) (q.today.getD clock))
    (hinc : ¬ HighRisk (lowerKeys p.profile) (p.today.getD clock) →
      (Inconsistent (lowerKeys p.profile) (lowerKeys p.documentFields) (p.today.getD clock) ↔
        Inconsistent (lowerKeys q.profile) (lowerKeys q.documentFields) (q.today.getD clock))) :
    SameDecision (run repr clock p) (run repr clock q) := by
  have hp := @run_riskLevel repr clock p _ _ _ rfl rfl rfl
  have hq := @run_riskLevel repr clock q _ _ _ rfl rfl rfl
  rw [← hhigh] at hq
  refine ⟨Bool.eq_iff_iff.2 (by rw [run_complete, run_complete, hcomplete]), ?_,
    Bool.eq_iff_iff.2 ?_⟩
  · by_cases hh : HighRisk (lowerKeys p.profile) (p.today.getD clock)
    · rw [hp.1 hh, hq.1 hh]
    · rw [← hinc hh] at hq
      by_cases hi : Inconsistent (lowerKeys p.profile) (lowerKeys p.documentFields) (p.today.getD clock)
      · rw [hp.2.1 hh hi, hq.2.1 hh hi]
      · rw [hp.2.2 hh hi, hq.2.2 hh hi]
  · rw [run_requiresHumanReview, run_requiresHumanReview, hcomplete, ← hhigh]
    by_cases hh : HighRisk (lowerKeys p.profile) (p.today.getD clock)
    · simp [hh]
    · rw [hinc hh]

theorem findings_of_settled (h : Settled p today) :
    (Complete (lowerKeys p.profile) ↔ ∀ name ∈ requiredProfileFields, NonBlank p.profile name) ∧
    (HighRisk (lowerKeys p.profile) today ↔ PlainAge p today (· < 18)) ∧
    (¬ HighRisk (lowerKeys p.profile) today →
      (Inconsistent (lowerKeys p.profile) (lowerKeys p.documentFields) today ↔ Conflict p today)) := by
  have hhigh : HighRisk (lowerKeys p.profile) today ↔ PlainAge p today (· < 18) := by
    rw [HighRisk, minor_iff_plain]
    refine ⟨fun hh => ?_, .inl⟩
    rcases hh with hh | hh
    · exact hh
    · exact h.risk.resolve_right fun hr => hr.1 (plainListed_of_listed_field hh)
  refine ⟨⟨fun hc => ?_, fun hall name hname => text_ne_of_nonBlank (hall name hname)⟩, hhigh, fun hh => ?_⟩
  · rcases h.complete with ⟨name, hname, habsent⟩ | hall
    · exact absurd habsent (present_of_text_ne (hc name hname))
    · exact hall
  · obtain ⟨-, hblank⟩ := h.risk.resolve_left (hhigh.not.1 hh)
    rw [inconsistent_iff_plain]
    refine ⟨fun hi => ?_, .inl⟩
    rcases hi with hi | hi
    · exact hi
    · exact hblank.resolve_right fun hn => hn hi.conflict

theorem findings_trimmed :
    (HighRisk (lowerKeys (trimmedInput p).profile) today ↔ PlainAge p today (· < 18) ∨ PlainListedCountry p) ∧
    (Inconsistent (lowerKeys (trimmedInput p).profile) (lowerKeys (trimmedInput p).documentFields) today ↔
      Conflict p today) := by
  have hn := @noise_trimmed p
  constructor
  · rw [HighRisk, minor_iff_plain, ← hn.plainAge]
    exact or_congr Iff.rfl listed_trimmed
  · rw [inconsistent_iff_plain, ← hn.conflict]
    exact or_iff_left not_seenBlank_trimmed

theorem findings_padded :
    (HighRisk (lowerKeys (paddedInput p).profile) today ↔ PlainAge p today (· < 18)) ∧
    (Inconsistent (lowerKeys (paddedInput p).profile) (lowerKeys (paddedInput p).documentFields) today ↔
      Conflict p today ∨ BlankConflict p) := by
  have hn := @noise_padded p
  constructor
  · rw [HighRisk, minor_iff_plain, ← hn.plainAge]
    exact or_iff_left not_listed_padded_field
  · rw [inconsistent_iff_plain, ← hn.conflict]
    exact or_congr Iff.rfl ⟨fun h => hn.blankConflict.2 h.conflict, seenBlank_padded⟩

/-- Noise changes nothing exactly for settled inputs. -/
theorem unaffected_iff :
    (∀ q, Noise p q → SameDecision (run repr clock p) (run repr clock q)) ↔ Settled p (p.today.getD clock) := by
  constructor
  · intro hall
    obtain ⟨htc, htr, -⟩ := hall _ noise_trimmed
    obtain ⟨hpc, hpr, -⟩ := hall _ noise_padded
    have hcomplete : (∀ name ∈ requiredProfileFields, NonBlank p.profile name) ↔
        ∀ name ∈ requiredProfileFields, plain? p.profile name ≠ none := by
      have htrim := @run_complete repr clock (trimmedInput p)
      have hpad := @run_complete repr clock (paddedInput p)
      rw [← htc] at htrim
      rw [← hpc] at hpad
      exact (complete_trimmed.symm.trans (htrim.symm.trans hpad)).trans complete_padded
    obtain ⟨hth, hti⟩ := @findings_trimmed (p.today.getD clock) p
    obtain ⟨hph, hpi⟩ := @findings_padded (p.today.getD clock) p
    obtain ⟨ht₁, ht₂, ht₃⟩ := @run_riskLevel repr clock (trimmedInput p) _ _ _ rfl rfl rfl
    obtain ⟨hp₁, hp₂, hp₃⟩ := @run_riskLevel repr clock (paddedInput p) _ _ _ rfl rfl rfl
    obtain ⟨thigh, tmedium, -⟩ := riskLevel_iff ht₁ ht₂ ht₃
    obtain ⟨phigh, pmedium, -⟩ := riskLevel_iff hp₁ hp₂ hp₃
    rw [← htr] at thigh tmedium
    rw [← hpr] at phigh pmedium
    have hhigh := thigh.symm.trans phigh
    have hmedium := tmedium.symm.trans pmedium
    have htoday : (trimmedInput p).today.getD clock = p.today.getD clock ∧
        (paddedInput p).today.getD clock = p.today.getD clock := ⟨rfl, rfl⟩
    rw [htoday.1, htoday.2, hth, hph] at hhigh hmedium
    rw [hti, hpi] at hmedium
    refine ⟨?_, ?_⟩
    · by_cases hpresent : ∀ name ∈ requiredProfileFields, plain? p.profile name ≠ none
      · exact .inr (hcomplete.2 hpresent)
      · push Not at hpresent
        exact .inl hpresent
    · by_cases hminor : PlainAge p (p.today.getD clock) (· < 18)
      · exact .inl hminor
      · have hlisted : ¬ PlainListedCountry p := fun hl => hminor (hhigh.1 (.inr hl))
        refine .inr ⟨hlisted, ?_⟩
        by_cases hconflict : Conflict p (p.today.getD clock)
        · exact .inl hconflict
        · refine .inr fun hblank => hconflict ?_
          exact (hmedium.2 ⟨hminor, .inr hblank⟩).2
  · intro hs q hn
    obtain ⟨hcomplete, hhigh, hinc⟩ := findings_of_settled hs
    obtain ⟨hcomplete', hhigh', hinc'⟩ := findings_of_settled (hn.settled hs)
    have hsame : HighRisk (lowerKeys p.profile) (p.today.getD clock) ↔
        HighRisk (lowerKeys q.profile) (p.today.getD clock) := hhigh.trans (hn.plainAge.trans hhigh'.symm)
    refine sameDecision_of ?_ ?_ fun hh => ?_
    · exact hcomplete.trans ((forall₂_congr fun name _ => hn.nonBlank).trans hcomplete'.symm)
    · rw [← hn.today]
      exact hsame
    · rw [← hn.today]
      exact (hinc hh).trans (hn.conflict.trans (hinc' (hsame.not.1 hh)).symm)

end decision

end KycAgent

/-! ### The fraud agent -/

namespace FraudAgent

section noise
variable {α : Type} [Amount α]

/-- The same input with another spelling of the beneficiary's country. -/
def withDestination (payload : FraudInput α) (country : Option String) : FraudInput α :=
  { payload with transaction := { payload.transaction with beneficiaryCountry := country } }

/-- What the claim about noise compares. -/
def SameVerdict (a b : FraudResult) : Prop :=
  a.signals.map FraudSignal.rule = b.signals.map FraudSignal.rule ∧ a.score = b.score ∧
    a.requiresHumanReview = b.requiresHumanReview

variable {payload : FraudInput α}

theorem destinationSignals_eq_nil {txn : Transaction α} (h : destination txn ∉ highRiskCountries) :
    destinationSignals txn = [] := by
  rw [destinationSignals, if_neg h]

theorem run_withDestination (country : Option String)
    (h : destinationSignals (withDestination payload country).transaction =
      destinationSignals payload.transaction) :
    run (withDestination payload country) = run payload := by
  have hamount : amountSignals (withDestination payload country) = amountSignals payload := rfl
  have hbehaviour : behaviourSignals (withDestination payload country).transaction =
      behaviourSignals payload.transaction := rfl
  rw [run, run, hamount, hbehaviour, h]

theorem rule_mem_iff :
    "high_risk_destination" ∈ (run payload).signals.map FraudSignal.rule ↔
      destination payload.transaction ∈ highRiskCountries := by
  have hamount : "high_risk_destination" ∉ (amountSignals payload).map FraudSignal.rule := by
    unfold amountSignals
    dsimp only
    split_ifs <;> simp
  have hbehaviour : "high_risk_destination" ∉ (behaviourSignals payload.transaction).map FraudSignal.rule := by
    unfold behaviourSignals
    split_ifs <;> simp
  have hdestination : "high_risk_destination" ∈ (destinationSignals payload.transaction).map FraudSignal.rule ↔
      destination payload.transaction ∈ highRiskCountries := by
    unfold destinationSignals
    split <;> simp [*]
  rw [run]
  simp only [List.map_append, List.mem_append, hamount, hbehaviour, hdestination, false_or, or_false]

/-- Noise in the beneficiary's country changes nothing exactly when it is not listed up to noise. -/
theorem unaffected_iff :
    (∀ country, Option.Rel SameCountry payload.transaction.beneficiaryCountry country →
      SameVerdict (run payload) (run (withDestination payload country))) ↔
    ∀ c, payload.transaction.beneficiaryCountry = some c → ¬ PlainListed c := by
  constructor
  · intro hall c hc hlisted
    rw [hc] at hall
    have htrim := (hall (some (Str.strip c)) (.some (congrArg Str.lower (KycAgent.strip_strip c).symm))).1
    have hpad := (hall (some (" " ++ c)) (.some (congrArg Str.lower (KycAgent.strip_padded c).symm))).1
    have hfired := (@rule_mem_iff _ _ (withDestination payload (some (Str.strip c)))).2 hlisted
    rw [← htrim, hpad, rule_mem_iff] at hfired
    exact not_listed_padded c hfired
  · intro hnot country hrel
    have hquiet : ∀ d : Option String, (∀ c, d = some c → ¬ PlainListed c) →
        destinationSignals (withDestination payload d).transaction = [] := by
      intro d hd
      refine destinationSignals_eq_nil fun hmem => ?_
      cases d with
      | none => exact absurd hmem (show Str.upper "" ∉ highRiskCountries by decide)
      | some c => exact hd c rfl (plainListed_of_listed hmem)
    have hsame : run (withDestination payload country) = run payload := by
      refine run_withDestination country ?_
      have hown := hquiet payload.transaction.beneficiaryCountry hnot
      rw [hquiet country, ← hown]
      · rfl
      · rintro c rfl
        generalize payload.transaction.beneficiaryCountry = b at hnot hrel
        cases hrel with
        | some h => exact fun hl => hnot _ rfl ((plainListed_congr h).2 hl)
    rw [hsame]
    exact ⟨rfl, rfl, rfl⟩

end noise
end FraudAgent

/-- A complete applicant from a listed country. -/
def listedInput : KycInput :=
  { KycAgent.sampleInput with profile := KycAgent.sampleInput.profile.set "country" "XX" }

/-- A small transfer to a listed country. -/
def listedTransfer : FraudInput ℚ where
  transaction := ⟨50, "USD", 3650, false, some "XX", ⟨12, by decide⟩, 0, by decide +kernel⟩
  customerAvgAmount := 0
  avg_nonneg := by decide +kernel

end BankingAi
