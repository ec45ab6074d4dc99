import BankingAi.Agents.DocumentFields

/-!
# The review of a document

The review has one entry for each name that is expected or found, the expected names first. A name is present
exactly when the text supplies it, and more text never takes that away.
-/

namespace BankingAi

namespace DocumentAgent

/-- The names of the fields that a review reports, one by one. -/
def reported (review : DocumentReview) : List String := review.extractedFields.map ExtractedField.name

/-- A review accounts for the names that were mentioned as expected, and for the fields found in the text. -/
structure Accounts (mentioned : List String) (found : List (String × String)) (review : DocumentReview) :
    Prop where
  once : (reported review).Nodup
  all : ∀ name, name ∈ reported review ↔ name ∈ mentioned ∨ name ∈ found.map Prod.fst
  expectedFirst : ∃ expected rest, reported review = expected ++ rest ∧
    (∀ name, name ∈ expected ↔ name ∈ mentioned) ∧ (∀ name ∈ rest, name ∉ mentioned) ∧
    expected.Pairwise fun a b => mentioned.idxOf a < mentioned.idxOf b
  present : ∀ field ∈ review.extractedFields, field.present = true ↔ field.name ∈ found.map Prod.fst
  value : ∀ field ∈ review.extractedFields,
    field.value = (found.reverse.find? (·.1 = field.name)).map Prod.snd
  missing : review.missingFields =
    (review.extractedFields.filter fun field => field.name ∈ mentioned ∧ field.present = false).map
      ExtractedField.name
  review : review.requiresHumanReview = true ↔ review.missingFields ≠ [] ∨ found = []

section names

variable {names : List String}

theorem map_fst_unit : (names.map fun name => (name, ())).map Prod.fst = names := by
  rw [List.map_map]
  exact List.map_id _

theorem mem_fromKeys {name : String} : name ∈ fromKeys names ↔ name ∈ names := by
  rw [fromKeys, Dict.mem_keys_ofList, map_fst_unit]

theorem nodup_fromKeys : (fromKeys names).Nodup := Dict.nodup _

theorem pairwise_fromKeys : (fromKeys names).Pairwise fun a b => names.idxOf a < names.idxOf b := by
  have hpairwise := Dict.pairwise_keys_ofList (names.map fun name => (name, ()))
  rw [map_fst_unit] at hpairwise
  exact hpairwise

end names

section review

variable (payload : DocumentAgentInput)

/-- The names that the kind of the document and the caller mention. -/
def mentionedNames (payload : DocumentAgentInput) : List String :=
  (List.lookup payload.kind expectedFields).getD [] ++ payload.extraExpectedFields

/-- The names that were found and not expected. -/
def unexpectedNames (payload : DocumentAgentInput) : List String :=
  (parseFields payload.text).keys.filter (· ∉ expectedNames payload)

theorem mem_keys_parseFields {text name : String} :
    name ∈ (parseFields text).keys ↔ name ∈ (pairs text).map Prod.fst := by
  rw [parseFields_eq, Dict.mem_keys_ofList]

theorem get?_parseFields (text name : String) :
    (parseFields text).get? name = ((pairs text).reverse.find? (·.1 = name)).map Prod.snd := by
  rw [parseFields_eq, Dict.get?_ofList_last]

/-- The entry of a name. -/
def entryOf (text name : String) : ExtractedField :=
  ⟨name, (parseFields text).get? name, decide (name ∈ (parseFields text).keys)⟩

theorem entryOf_of_mem {text : String} {p : String × String} (hp : p ∈ (parseFields text).entries) :
    entryOf text p.1 = ⟨p.1, some p.2, true⟩ := by
  rw [entryOf, Dict.get?_eq_some.2 hp, decide_eq_true (show p.1 ∈ (parseFields text).keys from
    List.mem_map_of_mem hp)]

theorem filterMap_unexpected {text : String} {expected : List String} {l : List (String × String)}
    (hl : ∀ p ∈ l, p ∈ (parseFields text).entries) :
    (l.filterMap fun (name, value) => if name ∈ expected then none else some ⟨name, some value, true⟩) =
      ((l.map Prod.fst).filter (· ∉ expected)).map (entryOf text) := by
  induction l with
  | nil => rfl
  | cons p l ih =>
    have ih := ih fun q hq => hl q (List.mem_cons_of_mem p hq)
    have hp := entryOf_of_mem (hl p List.mem_cons_self)
    by_cases h : p.1 ∈ expected
    · simp [h, ih]
    · simp [h, ih, hp]

theorem run_extractedFields : (run payload).extractedFields =
    (expectedNames payload ++ unexpectedNames payload).map (entryOf payload.text) := by
  rw [List.map_append, unexpectedNames, Dict.keys, ← filterMap_unexpected fun p hp => hp]
  rfl

theorem run_missingFields : (run payload).missingFields =
    (expectedNames payload).filter fun name => decide (name ∉ (parseFields payload.text).keys) := rfl

theorem entries_eq_nil {text : String} : (parseFields text).entries = [] ↔ pairs text = [] := by
  rw [← List.map_eq_nil_iff (f := Prod.fst), ← List.map_eq_nil_iff (f := Prod.fst),
    List.eq_nil_iff_forall_not_mem, List.eq_nil_iff_forall_not_mem]
  exact forall_congr' fun name => not_congr mem_keys_parseFields

theorem run_requiresHumanReview : (run payload).requiresHumanReview = true ↔
    (run payload).missingFields ≠ [] ∨ pairs payload.text = [] := by
  rw [← entries_eq_nil]
  show (decide _ || decide _) = true ↔ _
  rw [Bool.or_eq_true, decide_eq_true_iff, decide_eq_true_iff]
  rfl

theorem mem_expectedNames {name : String} : name ∈ expectedNames payload ↔ name ∈ mentionedNames payload :=
  mem_fromKeys

theorem mem_unexpectedNames {name : String} : name ∈ unexpectedNames payload ↔
    name ∈ (pairs payload.text).map Prod.fst ∧ name ∉ mentionedNames payload := by
  unfold unexpectedNames
  rw [List.mem_filter, mem_keys_parseFields, decide_eq_true_iff, mem_expectedNames]

theorem reported_run : reported (run payload) = expectedNames payload ++ unexpectedNames payload := by
  rw [reported, run_extractedFields, List.map_map]
  exact List.map_id _

theorem filter_entries {text : String} {mentioned : List String} {l : List String} (hl : ∀ name ∈ l, name ∈ mentioned) :
    ((l.map (entryOf text)).filter fun field => field.name ∈ mentioned ∧ field.present = false).map
        ExtractedField.name = l.filter fun name => decide (name ∉ (parseFields text).keys) := by
  induction l with
  | nil => rfl
  | cons name l ih =>
    have ih := ih fun n hn => hl n (List.mem_cons_of_mem name hn)
    have hname := hl name List.mem_cons_self
    by_cases h : name ∈ (parseFields text).keys
    · simpa [entryOf, h, hname] using ih
    · simpa [entryOf, h, hname] using ih

theorem accounts_run : Accounts (mentionedNames payload) (pairs payload.text) (run payload) where
  once := by
    rw [reported_run]
    refine nodup_fromKeys.append ((Dict.nodup _).filter _) fun name hexpected hunexpected => ?_
    exact ((mem_unexpectedNames payload).1 hunexpected).2 ((mem_expectedNames payload).1 hexpected)
  all name := by
    rw [reported_run, List.mem_append, mem_expectedNames, mem_unexpectedNames]
    tauto
  expectedFirst := ⟨expectedNames payload, unexpectedNames payload, reported_run payload,
    fun _ => mem_expectedNames payload, fun _ hname => ((mem_unexpectedNames payload).1 hname).2, pairwise_fromKeys⟩
  present field hfield := by
    rw [run_extractedFields] at hfield
    obtain ⟨name, -, rfl⟩ := List.mem_map.1 hfield
    exact decide_eq_true_iff.trans mem_keys_parseFields
  value field hfield := by
    rw [run_extractedFields] at hfield
    obtain ⟨name, -, rfl⟩ := List.mem_map.1 hfield
    exact get?_parseFields payload.text name
  missing := by
    have hunexpected : (((unexpectedNames payload).map (entryOf payload.text)).filter fun field =>
        field.name ∈ mentionedNames payload ∧ field.present = false) = [] := by
      rw [List.filter_eq_nil_iff]
      intro field hfield
      obtain ⟨name, hname, rfl⟩ := List.mem_map.1 hfield
      have hout := ((mem_unexpectedNames payload).1 hname).2
      simp [entryOf, hout]
    rw [run_missingFields, run_extractedFields, List.map_append, List.filter_append, hunexpected, List.append_nil,
      filter_entries fun _ hname => (mem_expectedNames payload).1 hname]
  review := run_requiresHumanReview payload

/-! ### Longer documents -/

/-- The document with further lines. -/
def withMore (payload : DocumentAgentInput) (more : String) : DocumentAgentInput :=
  { payload with text := payload.text ++ "\n" ++ more }

theorem missing_withMore (more : String) :
    (run (withMore payload more)).missingFields.Sublist (run payload).missingFields := by
  rw [run_missingFields, run_missingFields]
  refine List.monotone_filter_right _ fun name hname => ?_
  have hout := of_decide_eq_true hname
  refine decide_eq_true fun hkey => hout ?_
  rw [mem_keys_parseFields] at hkey ⊢
  show name ∈ (pairs (payload.text ++ "\n" ++ more)).map Prod.fst
  rw [pairs_append, List.map_append]
  exact List.mem_append_left _ hkey

theorem review_withMore (more : String) (h : (run payload).requiresHumanReview = false) :
    (run (withMore payload more)).requiresHumanReview = false := by
  rw [← Bool.not_eq_true, run_requiresHumanReview, not_or, not_not] at h ⊢
  refine ⟨List.sublist_nil.1 (h.1 ▸ missing_withMore payload more), ?_⟩
  show pairs (payload.text ++ "\n" ++ more) ≠ []
  rw [pairs_append]
  exact List.append_ne_nil_of_left_ne_nil h.2 _

end review

/-- A review accounts for every expected and every found field exactly once; further lines add no missing field
and no need of a review. -/
theorem document_review_accounts (payload : DocumentAgentInput) :
    Accounts (mentionedNames payload) (pairs payload.text) (run payload) ∧
      ∀ more, (run (withMore payload more)).missingFields.Sublist (run payload).missingFields ∧
        ((run payload).requiresHumanReview = false →
          (run (withMore payload more)).requiresHumanReview = false) :=
  ⟨accounts_run payload, fun more => ⟨missing_withMore payload more, review_withMore payload more⟩⟩

end DocumentAgent
end BankingAi
