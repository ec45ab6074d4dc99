import BankingAi.Agents.Base
import BankingAi.Lib.Pattern
import BankingAi.Lib.PythonLines
import BankingAi.Lib.PythonStr

/-!
# The document agent

Fields are lines `label: value` of the extracted text. The review compares them with the fields that are
expected of a document of its kind.
-/

namespace BankingAi

open Str

structure DocumentAgentInput where
  documentId : Uuid
  kind : String
  text : String
  extraExpectedFields : List String

structure ExtractedField where
  name : String
  value : Option String
  present : Bool
deriving DecidableEq

structure DocumentReview where
  documentId : Uuid
  summary : String
  extractedFields : List ExtractedField
  missingFields : List String
  reviewNotes : List String
  requiresHumanReview : Bool

namespace DocumentAgent

/-- `EXPECTED_FIELDS`. -/
def expectedFields : List (String × List String) :=
  [("identity", ["full_name", "date_of_birth", "document_number", "expiry_date"]),
    ("proof_of_address", ["full_name", "address", "issue_date"]),
    ("bank_statement", ["account_number", "statement_period", "closing_balance"]),
    ("generic", [])]

/-! ### Parsing -/

/-- A letter of the class `A-Za-z`. -/
def isLetter (c : Char) : Bool := decide ('A' ≤ c ∧ c ≤ 'Z') || decide ('a' ≤ c ∧ c ≤ 'z')

/-- A letter, a digit, a blank, an underscore, a slash or a hyphen. -/
def isLabelChar (c : Char) : Bool :=
  isLetter c || decide ('0' ≤ c ∧ c ≤ '9') || decide (c ∈ [' ', '_', '/', '-'])

/-- A colon or an equals sign. -/
def isSeparator (c : Char) : Bool := decide (c ∈ [':', '='])

/-- `_FIELD_LINE`, with the label and the value that it captures. -/
def fieldLine : Pattern (List Char × List Char) := do
  let _ ← Pattern.greedy isSpace
  let c ← Pattern.one isLetter
  let cs ← Pattern.lazyBetween 1 48 isLabelChar
  let _ ← Pattern.greedy isSpace
  let _ ← Pattern.one isSeparator
  let _ ← Pattern.greedy isSpace
  let value ← Pattern.lazyFrom 1 (fun c => decide (c ≠ '\n'))
  let _ ← Pattern.greedy isSpace
  Pattern.atEnd
  pure (c :: cs, value)

/-- White space, a slash or a hyphen. -/
def isGlue (c : Char) : Bool := isSpace c || decide (c ∈ ['/', '-'])

/-- Runs of such characters become an underscore; `inRun` when the last character was in one. -/
def joinRuns : Bool → List Char → List Char
  | _, [] => []
  | inRun, c :: cs =>
    if isGlue c then (if inRun then [] else ['_']) ++ joinRuns true cs
    else c :: joinRuns false cs

def normaliseKey (raw : List Char) : String := .ofList (joinRuns false (lowerChars (stripChars raw)))

/-- The loop body of `parse_fields`. -/
def parseLine (fields : Dict String String) (line : List Char) : Dict String String :=
  match fieldLine.first line with
  | none => fields
  | some (label, raw) =>
    let value := stripChars raw
    if value = [] then fields else fields.set (normaliseKey label) (.ofList value)

def parseFields (text : String) : Dict String String := (splitLines text.toList).foldl parseLine Dict.empty

/-! ### The review -/

/-- `list(dict.fromkeys(names))`. -/
def fromKeys (names : List String) : List String := (Dict.ofList (names.map fun name => (name, ()))).keys

/-- The fields that are looked for. -/
def expectedNames (payload : DocumentAgentInput) : List String :=
  fromKeys ((List.lookup payload.kind expectedFields).getD [] ++ payload.extraExpectedFields)

def run (payload : DocumentAgentInput) : DocumentReview :=
  let parsed := parseFields payload.text
  let expected := expectedNames payload
  let extracted := expected.map fun name => ⟨name, parsed.get? name, decide (name ∈ parsed.keys)⟩
  let unexpected := parsed.entries.filterMap fun (name, value) =>
    if name ∈ expected then none else some ⟨name, some value, true⟩
  let missing := expected.filter fun name => decide (name ∉ parsed.keys)
  let wordCount := (words payload.text.toList).length
  { documentId := payload.documentId
    summary := s!"Document {payload.documentId.str} ({payload.kind}): parsed {parsed.entries.length} field(s) " ++
      s!"from ~{wordCount} words; {missing.length} expected field(s) missing."
    extractedFields := extracted ++ unexpected
    missingFields := missing
    reviewNotes :=
      (if parsed.entries = [] then ["No structured fields could be parsed from the document text."] else []) ++
        (if missing = [] then [] else ["Missing expected field(s): " ++ ", ".intercalate missing ++ "."]) ++
        if payload.kind = "generic" ∧ expected = [] then
          ["No expected-field schema for 'generic'; extracted values only."]
        else []
    requiresHumanReview := decide (missing ≠ []) || decide (parsed.entries = []) }

end DocumentAgent

def documentAgent : BaseAgent DocumentAgentInput DocumentReview :=
  ⟨"document_agent", none, fun payload => .ok (DocumentAgent.run payload)⟩

example : (DocumentAgent.parseFields
    "Full Name: Jane Doe\nDate of Birth = 1990-01-02\njunk line\nCountry: US").entries =
      [("full_name", "Jane Doe"), ("date_of_birth", "1990-01-02"), ("country", "US")] := by decide +kernel

end BankingAi
