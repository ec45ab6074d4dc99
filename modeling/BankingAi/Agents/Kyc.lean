import BankingAi.Agents.Base
import BankingAi.Lib.PythonDate
import BankingAi.Lib.PythonStr

/-!
# The KYC agent

Completeness of a profile, consistency of profile and document, the age and the jurisdiction, and
from them the risk level and whether a human reviews. `repr` is Python's `repr` of a text, which
only shows up in the message about an unreadable date; `clock` is `date.today()`.

`kyc_decision` reads the decision off the entries of the two dictionaries.
-/

namespace BankingAi

structure KycInput where
  profile : Dict String String
  documentFields : Dict String String
  today : Option Date

structure KycResult where
  complete : Bool
  missingFields : List String
  inconsistencies : List String
  riskLevel : RiskLevel
  requiresHumanReview : Bool
  rationale : List String
deriving DecidableEq

namespace KycAgent

def requiredProfileFields : List String := ["full_name", "date_of_birth", "country", "document_number"]

def highRiskCountries : List String := ["XX", "ZZ"]

open Strptime in
/-- `%Y-%m-%d`, `%d/%m/%Y` and `%m/%d/%Y`. -/
def dateFormats : List (List Directive) :=
  [[.year, .lit '-', .month, .lit '-', .day], [.day, .lit '/', .month, .lit '/', .year],
    [.month, .lit '/', .day, .lit '/', .year]]

def parseDate (value : String) : Option Date :=
  dateFormats.findSome? fun fmt => Strptime.strptime fmt (Str.stripChars value.toList)

def ageOn (reference dob : Date) : ℤ :=
  let years : ℤ := reference.year - dob.year
  if reference.month < dob.month ∨ reference.month = dob.month ∧ reference.day < dob.day then years - 1
  else years

def normName (value : String) : String :=
  .ofList (Str.collapse (Str.lowerChars (Str.stripChars value.toList)))

def escalate (current floor : RiskLevel) : RiskLevel :=
  if current.index ≥ floor.index then current else floor

/-- `{k.lower(): v for k, v in fields.items()}`. -/
def lowerKeys (fields : Dict String String) : Dict String String :=
  .ofList (fields.entries.map fun p => (Str.lower p.1, p.2))

/-- `fields.get(name) or ""`; the empty text and an absent field are both false. -/
def text (fields : Dict String String) (name : String) : String := (fields.get? name).getD ""

/-- What the check of the date of birth adds. -/
structure DobCheck where
  risk : RiskLevel
  inconsistencies : List String
  rationale : List String

def checkDob (repr : String → String) (today : Date) (profile : Dict String String) : DobCheck :=
  let dobRaw := text profile "date_of_birth"
  if dobRaw = "" then ⟨.low, [], []⟩
  else
    match parseDate dobRaw with
    | none => ⟨.low, [s!"Unparseable date_of_birth: {repr dobRaw}."], []⟩
    | some dob =>
      let age := ageOn today dob
      if age < 18 then ⟨.high, ["Applicant is under 18."], [s!"Derived age: {age}."]⟩
      else if age > 120 then
        ⟨.low, ["Implausible age (>120); check date_of_birth."], [s!"Derived age: {age}."]⟩
      else ⟨.low, [], [s!"Derived age: {age}."]⟩

def run (repr : String → String) (clock : Date) (payload : KycInput) : KycResult :=
  let profile := lowerKeys payload.profile
  let doc := lowerKeys payload.documentFields
  let today := payload.today.getD clock
  let missing := requiredProfileFields.filter (text profile · = "")
  let nameInconsistencies :=
    if text profile "full_name" ≠ "" ∧ text doc "full_name" ≠ "" ∧
        normName (text profile "full_name") ≠ normName (text doc "full_name") then
      ["Name on document does not match application profile."]
    else []
  let numberInconsistencies :=
    if text profile "document_number" ≠ "" ∧ text doc "document_number" ≠ "" ∧
        Str.strip (text profile "document_number") ≠ Str.strip (text doc "document_number") then
      ["Document number mismatch between profile and document."]
    else []
  let dob := checkDob repr today profile
  let inconsistencies := nameInconsistencies ++ numberInconsistencies ++ dob.inconsistencies
  let country := Str.upper (text profile "country")
  let listed : Bool := country ∈ highRiskCountries
  let risk := if listed then escalate dob.risk .high else dob.risk
  let risk := if inconsistencies ≠ [] then escalate risk .medium else risk
  let complete := missing.isEmpty
  let requiresReview : Bool := !complete || !inconsistencies.isEmpty || risk ∈ [.high, .critical]
  { complete
    missingFields := missing
    inconsistencies
    riskLevel := risk
    requiresHumanReview := requiresReview
    rationale := dob.rationale ++
      (if listed then [s!"Country {country} is on the higher-risk list."] else []) ++
      (if complete then [] else ["Profile incomplete; missing " ++ ", ".intercalate missing ++ "."]) ++
      [if requiresReview then "Routed to human review (HITL)."
        else "Automated KYC checks passed; no human review required."] }

end KycAgent

def kycAgent (repr : String → String) (clock : Date) : BaseAgent KycInput KycResult :=
  ⟨"kyc_agent", none, fun payload => .ok (KycAgent.run repr clock payload)⟩

end BankingAi
