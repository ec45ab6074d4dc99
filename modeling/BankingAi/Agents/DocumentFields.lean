import BankingAi.Agents.Document
import BankingAi.Lib.DictHistory

/-!
# Fields of a document

Parsing inverts rendering: the lines `name: value` and `name = value` are read back, the last value of a name
wins, and the lines of a longer text override those of its beginning.
-/

namespace BankingAi

open Str

namespace DocumentAgent

/-- The field of a line. -/
def pairOf (line : List Char) : Option (String × String) :=
  (fieldLine.first line).bind fun r =>
    if stripChars r.2 = [] then none else some (normaliseKey r.1, .ofList (stripChars r.2))

/-- The fields of a text in the order of their lines. -/
def pairs (text : String) : List (String × String) := (splitLines text.toList).filterMap pairOf

theorem parseLine_eq (fields : Dict String String) (line : List Char) :
    parseLine fields line = match pairOf line with
      | none => fields
      | some p => fields.set p.1 p.2 := by
  unfold parseLine pairOf
  cases fieldLine.first line with
  | none => rfl
  | some r =>
    dsimp only [Option.bind_some]
    split <;> rfl

theorem parseFields_eq (text : String) : parseFields text = Dict.ofList (pairs text) := by
  unfold parseFields pairs
  generalize splitLines text.toList = lines
  induction lines using List.reverseRecOn with
  | nil => rfl
  | append_singleton lines line ih =>
    rw [List.foldl_append, ih, List.foldl_cons, List.foldl_nil, parseLine_eq, List.filterMap_append]
    cases h : pairOf line with
    | none => simp [h]
    | some p => simp [h, Dict.ofList_concat]

/-! ### Longer texts -/

theorem pairs_append (text more : String) : pairs (text ++ "\n" ++ more) = pairs text ++ pairs more := by
  obtain ⟨blank, hblank, heq⟩ := splitLines_append text.toList more.toList
  have hnone : blank.filterMap pairOf = [] := by
    rcases hblank with rfl | rfl
    · rfl
    · rfl
  have htext : (text ++ "\n" ++ more).toList = text.toList ++ '\n' :: more.toList := by
    simp
  unfold pairs
  rw [htext, heq, List.filterMap_append, List.filterMap_append, hnone, List.append_nil]

theorem parseFields_append (text more : String) :
    parseFields (text ++ "\n" ++ more) = (parseFields text).update (parseFields more) := by
  rw [parseFields_eq, parseFields_eq, parseFields_eq, pairs_append, Dict.ofList_append]

/-! ### The pattern -/

/-- A character of a name: a small letter, a digit or an underscore. -/
def isNameChar (c : Char) : Bool := decide ('a' ≤ c ∧ c ≤ 'z') || decide ('0' ≤ c ∧ c ≤ '9') || decide (c = '_')

/-- A character of a name is one of a label, and is nothing else to the pattern. -/
structure NameChar (c : Char) : Prop where
  label : isLabelChar c = true
  space : isSpace c = false
  separator : isSeparator c = false
  glue : isGlue c = false
  boundary : c ∉ lineBoundaries
  sigma : c ≠ 'Σ'
  lower : Unicode.lowerChar c = [c]

theorem nameChar_of {c : Char} (h : isNameChar c = true) : NameChar c := by
  have hascii : ∀ n < 128, isNameChar (Char.ofNat n) = true → isLabelChar (Char.ofNat n) = true ∧
      isSpace (Char.ofNat n) = false ∧ isSeparator (Char.ofNat n) = false ∧ isGlue (Char.ofNat n) = false ∧
      Char.ofNat n ∉ lineBoundaries ∧ Char.ofNat n ≠ 'Σ' ∧
      Unicode.lowerChar (Char.ofNat n) = [Char.ofNat n] := by decide +kernel
  have hlt : c.toNat < 128 := by
    unfold isNameChar at h
    simp only [Bool.or_eq_true, decide_eq_true_eq] at h
    rcases h with (⟨-, hle⟩ | ⟨-, hle⟩) | rfl
    · exact lt_of_le_of_lt (show c.toNat ≤ 'z'.toNat from hle) (by decide)
    · exact lt_of_le_of_lt (show c.toNat ≤ '9'.toNat from hle) (by decide)
    · decide
  have hc := hascii c.toNat hlt
  rw [Char.ofNat_toNat] at hc
  obtain ⟨hlabel, hspace, hseparator, hglue, hboundary, hsigma, hlower⟩ := hc h
  exact ⟨hlabel, hspace, hseparator, hglue, hboundary, hsigma, hlower⟩

section line

variable {c s : Char} {cs pre post v : List Char}

/-- A line with a label that has no blank, any white space around the separator, and a value. -/
structure LineParts (c : Char) (cs pre : List Char) (s : Char) (post v : List Char) : Prop where
  letter : isLetter c = true
  head : isSpace c = false
  label : ∀ d ∈ cs, isLabelChar d = true ∧ isSpace d = false ∧ isSeparator d = false
  size : 1 ≤ cs.length ∧ cs.length ≤ 48
  pre : ∀ d ∈ pre, isSpace d = true
  separator : isSeparator s = true ∧ isSpace s = false
  post : ∀ d ∈ post, isSpace d = true
  value : v ≠ []
  trimmed : Trimmed v
  line : '\n' ∉ v

theorem LineParts.rest_ne (h : LineParts c cs pre s post v) {m : ℕ} (hm : m < v.length) {l r : List Char}
    (hsplit : v.drop m = l ++ r) (hl : ∀ d ∈ l, isSpace d = true) : ¬ (r = [] ∨ r = ['\n']) := by
  rintro (rfl | rfl)
  · have hne : v.drop m ≠ [] := by simpa using hm
    have hlast := h.trimmed.last ((v.drop m).getLast hne) (by
      rw [List.getLast_drop hne, Option.mem_def, List.getLast?_eq_some_getLast h.value])
    have hmem : (v.drop m).getLast hne ∈ l := by
      rw [List.append_nil] at hsplit
      rw [← hsplit]
      exact List.getLast_mem hne
    rw [hl _ hmem] at hlast
    cases hlast
  · have hmem : '\n' ∈ v.drop m := by
      rw [hsplit]
      exact List.mem_append_right _ (List.mem_singleton_self _)
    exact h.line (List.mem_of_mem_drop hmem)

theorem LineParts.first_fieldLine (h : LineParts c cs pre s post v) :
    fieldLine.first (c :: (cs ++ (pre ++ s :: (post ++ v)))) = some (c :: cs, v) := by
  unfold fieldLine
  rw [Pattern.first_greedy_nil (by simpa using h.head), Pattern.first_one, if_pos h.letter]
  refine Pattern.first_lazyBetween (fun d hd => (h.label d hd).1) h.size.1 h.size.2 ?_ fun m hm hlt => ?_
  · refine Pattern.first_greedy h.pre (by simpa using h.separator.2) ?_
    rw [Pattern.first_one, if_pos h.separator.1]
    refine Pattern.first_greedy h.post h.trimmed.head ?_
    refine Pattern.first_lazyFrom (fun d hd => decide_eq_true fun heq => h.line (heq ▸ hd))
      (List.length_pos_iff.2 h.value) ?_ fun m hm hlt => ?_
    · rw [Pattern.first_greedy_nil (by simp), Pattern.first_atEnd, if_pos (.inl rfl)]
      rfl
    · refine Pattern.first_greedy_none fun l r hsplit hl => ?_
      rw [Pattern.first_atEnd, if_neg (h.rest_ne hlt hsplit hl)]
  · obtain ⟨d, ds, hds⟩ := List.exists_cons_of_ne_nil (show cs.drop m ≠ [] by simpa using hlt)
    have hd := h.label d (List.mem_of_mem_drop (hds ▸ List.mem_cons_self))
    rw [hds, List.cons_append, Pattern.first_greedy_nil (by simpa using hd.2.1), Pattern.first_one,
      if_neg (by simp [hd.2.2])]

end line

/-! ### Rendered fields -/

theorem lowerBetween_of_plain {l : List Char} (hl : ∀ c ∈ l, c ≠ 'Σ' ∧ Unicode.lowerChar c = [c])
    (before after : List Char) : lowerBetween before after l = l := by
  induction l generalizing before with
  | nil => rfl
  | cons c l ih =>
    obtain ⟨hsigma, hlower⟩ := hl c List.mem_cons_self
    rw [lowerBetween, if_neg hsigma, hlower, ih fun d hd => hl d (List.mem_cons_of_mem c hd)]
    rfl

theorem joinRuns_of_plain {l : List Char} (hl : ∀ c ∈ l, isGlue c = false) : joinRuns false l = l := by
  induction l with
  | nil => rfl
  | cons c l ih =>
    rw [joinRuns, if_neg (by simp [hl c List.mem_cons_self]), ih fun d hd => hl d (List.mem_cons_of_mem c hd)]

theorem normaliseKey_of_name {l : List Char} (hl : ∀ c ∈ l, NameChar c) : normaliseKey l = .ofList l := by
  have htrimmed : Trimmed l :=
    ⟨fun c hc => (hl c (List.mem_of_mem_head? hc)).space, fun c hc => (hl c (List.mem_of_mem_getLast? hc)).space⟩
  have hlower : lowerChars l = l := lowerBetween_of_plain (fun c hc => ⟨(hl c hc).sigma, (hl c hc).lower⟩) [] []
  rw [normaliseKey, stripChars_of_trimmed htrimmed, hlower, joinRuns_of_plain fun c hc => (hl c hc).glue]

end DocumentAgent

/-- A field to be rendered: the name is a small letter with up to 48 letters, digits and underscores behind it,
the value is a trimmed text on one line. -/
structure Field where
  name : String
  value : String
  equals : Bool
  name_head : ∀ c ∈ name.toList.head?, 'a' ≤ c ∧ c ≤ 'z'
  name_tail : ∀ c ∈ name.toList.tail, DocumentAgent.isNameChar c = true
  name_length : 2 ≤ name.toList.length ∧ name.toList.length ≤ 49
  value_ne : value.toList ≠ []
  value_trimmed : Trimmed value.toList
  value_line : ∀ c ∈ value.toList, c ∉ lineBoundaries

namespace Field

variable (f : Field)

/-- The field as `name: value` or as `name = value`. -/
def line : List Char := f.name.toList ++ (if f.equals then [' ', '=', ' '] else [':', ' ']) ++ f.value.toList

/-- The lines of fields. -/
def text (fields : List Field) : String := .ofList (joinLines (fields.map line))

theorem nameChar {c : Char} (hc : c ∈ f.name.toList) : DocumentAgent.NameChar c := by
  refine DocumentAgent.nameChar_of ?_
  cases hname : f.name.toList with
  | nil => rw [hname] at hc; exact absurd hc List.not_mem_nil
  | cons d ds =>
    rw [hname] at hc
    rcases List.mem_cons.1 hc with rfl | hc
    · have hhead := f.name_head c (by rw [hname]; rfl)
      unfold DocumentAgent.isNameChar
      simp [hhead]
    · exact f.name_tail c (by rw [hname]; exact hc)

theorem first_line : DocumentAgent.fieldLine.first f.line = some (f.name.toList, f.value.toList) := by
  have hlength := f.name_length
  have hchars := fun c => @nameChar f c
  have hletter := f.name_head
  cases hname : f.name.toList with
  | nil => rw [hname] at hlength; simp at hlength
  | cons c cs =>
    rw [hname] at hlength hchars hletter
    have hparts : ∀ pre post s, (∀ d ∈ pre, isSpace d = true) → (∀ d ∈ post, isSpace d = true) →
        DocumentAgent.isSeparator s = true ∧ isSpace s = false →
          DocumentAgent.LineParts c cs pre s post f.value.toList := fun pre post s hpre hpost hs =>
      { letter := by
          unfold DocumentAgent.isLetter
          simp [hletter c rfl]
        head := (hchars c List.mem_cons_self).space
        label := fun d hd =>
          have hd := hchars d (List.mem_cons_of_mem c hd)
          ⟨hd.label, hd.space, hd.separator⟩
        size := by
          rw [List.length_cons] at hlength
          omega
        pre := hpre
        separator := hs
        post := hpost
        value := f.value_ne
        trimmed := f.value_trimmed
        line := fun hfeed => f.value_line _ hfeed (by decide) }
    have hblank : ∀ d ∈ [' '], isSpace d = true := fun d hd => by
      rw [List.mem_singleton.1 hd]
      decide
    unfold line
    rw [hname, List.append_assoc]
    cases f.equals with
    | false => exact (hparts [] [' '] ':' (by simp) hblank (by decide)).first_fieldLine
    | true => exact (hparts [' '] [' '] '=' hblank hblank (by decide)).first_fieldLine

theorem pairOf_line : DocumentAgent.pairOf f.line = some (f.name, f.value) := by
  rw [DocumentAgent.pairOf, first_line, Option.bind_some, stripChars_of_trimmed f.value_trimmed, if_neg f.value_ne,
    DocumentAgent.normaliseKey_of_name fun c hc => f.nameChar hc, String.ofList_toList, String.ofList_toList]

theorem line_ne : f.line ≠ [] := by
  have hne := f.value_ne
  unfold line
  simp [hne]

theorem line_boundary {c : Char} (hc : c ∈ f.line) : c ∉ lineBoundaries := by
  unfold line at hc
  rw [List.mem_append, List.mem_append] at hc
  rcases hc with (hname | hseparator) | hvalue
  · exact (f.nameChar hname).boundary
  · have hall : (if f.equals then [' ', '=', ' '] else [':', ' ']).all (· ∉ lineBoundaries) = true := by
      cases f.equals <;> decide
    exact of_decide_eq_true (List.all_eq_true.1 hall c hseparator)
  · exact f.value_line c hvalue

theorem pairs_text (fields : List Field) :
    DocumentAgent.pairs (text fields) = fields.map fun f => (f.name, f.value) := by
  have hlines : splitLines (text fields).toList = fields.map line := by
    rw [text, String.toList_ofList]
    refine splitLines_joinLines fun l hl => ?_
    obtain ⟨f, -, rfl⟩ := List.mem_map.1 hl
    exact ⟨f.line_ne, fun c hc => f.line_boundary hc⟩
  have hpair : DocumentAgent.pairOf ∘ line = some ∘ fun f : Field => (f.name, f.value) := by
    funext f
    rw [Function.comp_apply, pairOf_line, Function.comp_apply]
  rw [DocumentAgent.pairs, hlines, List.filterMap_map, hpair, List.filterMap_eq_map]

end Field

/-- A field whose value holds both separators. -/
def referenceField : Field where
  name := "ref_no"
  value := "a:b = c"
  equals := true
  name_head := by simp
  name_tail := by
    intro c hc
    simp at hc
    rcases hc with rfl | rfl | rfl | rfl | rfl <;> decide
  name_length := by decide
  value_ne := by decide
  value_trimmed := ⟨by simp; decide, by simp; decide⟩
  value_line := by
    intro c hc
    simp at hc
    rcases hc with rfl | rfl | rfl | rfl | rfl | rfl | rfl <;> decide

/-- Rendered fields are parsed back, with the last value of each name; a longer text overrides the fields of its
beginning, and removes none. -/
theorem parse_fields_inverts_and_composes :
    (∀ fields : List Field, ∀ name, (DocumentAgent.parseFields (Field.text fields)).get? name =
      (fields.reverse.find? (·.name = name)).map Field.value) ∧
    ∀ text more : String,
      DocumentAgent.parseFields (text ++ "\n" ++ more) =
        (DocumentAgent.parseFields text).update (DocumentAgent.parseFields more) ∧
      ∀ name ∈ (DocumentAgent.parseFields text).keys,
        name ∈ (DocumentAgent.parseFields (text ++ "\n" ++ more)).keys := by
  refine ⟨fun fields name => ?_, fun text more => ⟨DocumentAgent.parseFields_append text more, fun name hname => ?_⟩⟩
  · rw [DocumentAgent.parseFields_eq, Field.pairs_text, Dict.get?_ofList_last, ← List.map_reverse, List.find?_map,
      Option.map_map]
    rfl
  · rw [DocumentAgent.parseFields_eq, Dict.mem_keys_ofList] at hname ⊢
    rw [DocumentAgent.pairs_append, List.map_append]
    exact List.mem_append_left _ hname

example : (DocumentAgent.parseFields (Field.text [referenceField])).entries = [("ref_no", "a:b = c")] := by
  decide +kernel

end BankingAi
