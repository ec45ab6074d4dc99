import Mathlib.Data.List.DropRight
import BankingAi.Lib.PythonInt
import BankingAi.Lib.Unicode

/-!
# Python's string methods

`strip`, `split`, `lower` and `upper` of a text, and `re.sub(r"\s+", " ", text)`. The methods work
on the characters; `lower` goes through a text between the characters before it and after it, since
the lower case of a capital sigma depends on them.
-/

namespace BankingAi.Str
open Unicode

/-- The code points for which `str.isspace` holds; also those that `\s` matches. -/
def whitespace : List ℕ := 0x1c :: 0x1d :: 0x1e :: 0x1f :: Python.spaces

def isSpace (c : Char) : Bool := c.toNat ∈ whitespace

def stripChars (cs : List Char) : List Char := (cs.dropWhile isSpace).rdropWhile isSpace

/-- `cs.split()`: the maximal runs of characters that are not white space. -/
def words : List Char → List (List Char)
  | [] => []
  | c :: cs =>
    if isSpace c then words cs
    else if cs.head?.all isSpace then [c] :: words cs
    else (words cs).modifyHead (c :: ·)

/-- `re.sub(r"\s+", " ", cs)`; `inRun` when the last character was white space. -/
def collapseFrom : Bool → List Char → List Char
  | _, [] => []
  | inRun, c :: cs =>
    if isSpace c then (if inRun then [] else [' ']) ++ collapseFrom true cs
    else c :: collapseFrom false cs

def collapse (cs : List Char) : List Char := collapseFrom false cs

/-- Whether the first character that is not case-ignorable is cased. -/
def meetsCased (cs : List Char) : Bool := (cs.dropWhile caseIgnorable).head?.any cased

def lowerBetween (before after : List Char) : List Char → List Char
  | [] => []
  | c :: cs =>
    (if c = 'Σ' then [if meetsCased before && !meetsCased (cs ++ after) then 'ς' else 'σ']
      else lowerChar c) ++ lowerBetween (c :: before) after cs

def lowerChars (cs : List Char) : List Char := lowerBetween [] [] cs

def upperChars (cs : List Char) : List Char := cs.flatMap upperChar

def strip (s : String) : String := .ofList (stripChars s.toList)

def lower (s : String) : String := .ofList (lowerChars s.toList)

def upper (s : String) : String := .ofList (upperChars s.toList)

example : (lower "ΌΔΟΣ Σ'Α", upper "Straße", strip "\t x y ", words "a  bc\n".toList) =
    ("όδος σ'α", "STRASSE", "x y", ["a".toList, "bc".toList]) := by decide +kernel

/-! ### White space -/

theorem toNat_mem_whitespace {c : Char} (h : isSpace c = true) : c.toNat ∈ whitespace := by
  simpa [isSpace] using h

theorem space_caseless {c : Char} (h : isSpace c = true) :
    lowerChar c = [c] ∧ cased c = false ∧ caseIgnorable c = false := by
  have key : ∀ n ∈ whitespace, n ≠ 'İ'.toNat ∧ lookup lowerRanges n = none ∧
      inRanges casedRanges n = false ∧ inRanges caseIgnorableRanges n = false := by decide +kernel
  obtain ⟨hne, hlookup, hcased, hignorable⟩ := key _ (toNat_mem_whitespace h)
  refine ⟨?_, hcased, hignorable⟩
  rw [lowerChar, if_neg (fun hc => hne (congrArg Char.toNat hc)), hlookup]
  rfl

theorem space_ne_sigma {c : Char} (h : isSpace c = true) : c ≠ 'Σ' := by
  rintro rfl
  revert h
  decide

theorem isSpace_of_mem_lowerChar {c d : Char} (h : d ∈ lowerChar c) (hd : isSpace d = true) :
    isSpace c = true := by
  have havoids : ∀ t ∈ whitespace, ∀ r ∈ lowerRanges, r.Avoids t := by decide +kernel
  rcases mem_lowerChar h with rfl | ⟨-, rfl | rfl⟩ | hlookup
  · exact hd
  · exact absurd hd (by decide)
  · exact absurd hd (by decide)
  · exact absurd hlookup (lookup_ne (havoids _ (toNat_mem_whitespace hd)))

/-- No white space at either end. -/
structure Trimmed (cs : List Char) : Prop where
  head : ∀ c ∈ cs.head?, isSpace c = false
  last : ∀ c ∈ cs.getLast?, isSpace c = false

theorem trimmed_stripChars (cs : List Char) : Trimmed (stripChars cs) := by
  have hleft : ∀ c ∈ (cs.dropWhile isSpace).head?, isSpace c = false := by
    intro c hc
    have := List.head?_dropWhile_not isSpace cs
    rw [Option.mem_def] at hc
    rw [hc] at this
    simpa using this
  have hinit : stripChars cs <+: cs.dropWhile isSpace := List.rdropWhile_prefix _ _
  constructor
  · intro c hc
    obtain ⟨rest, hrest⟩ := hinit
    refine hleft c ?_
    cases hs : stripChars cs with
    | nil => rw [hs] at hc; cases hc
    | cons d ds => rw [hs] at hc hrest; rw [← hrest]; exact hc
  · intro c hc
    have hne : stripChars cs ≠ [] := by rintro h; rw [h] at hc; cases hc
    have hlast := List.rdropWhile_last_not isSpace (cs.dropWhile isSpace) hne
    rw [List.getLast?_eq_some_getLast hne, Option.mem_def, Option.some.injEq] at hc
    rw [← hc]
    exact Bool.eq_false_iff.2 hlast

theorem stripChars_of_trimmed {cs : List Char} (h : Trimmed cs) : stripChars cs = cs := by
  have hleft : cs.dropWhile isSpace = cs := by
    cases cs with
    | nil => rfl
    | cons c cs => exact List.dropWhile_cons_of_neg (by simp [h.head c rfl])
  rw [stripChars, hleft, List.rdropWhile_eq_self_iff]
  intro hne
  simp [h.last _ (by rw [List.getLast?_eq_some_getLast hne]; rfl)]

theorem dropWhile_append_of_all {p : Char → Bool} {l r : List Char} (h : ∀ c ∈ l, p c = true) :
    (l ++ r).dropWhile p = r.dropWhile p := by
  rw [List.dropWhile_append, List.dropWhile_eq_nil_iff.2 h]
  rfl

theorem stripChars_append {l cs r : List Char} (hl : ∀ c ∈ l, isSpace c = true)
    (hr : ∀ c ∈ r, isSpace c = true) : stripChars (l ++ cs ++ r) = stripChars cs := by
  have hright : ∀ ds : List Char, (ds ++ r).rdropWhile isSpace = ds.rdropWhile isSpace := by
    intro ds
    rw [List.rdropWhile, List.rdropWhile, List.reverse_append,
      dropWhile_append_of_all fun c hc => hr c (List.mem_reverse.1 hc)]
  rw [stripChars, stripChars, List.append_assoc, dropWhile_append_of_all hl, List.dropWhile_append]
  split
  · next hnil =>
    rw [List.isEmpty_iff] at hnil
    rw [hnil, List.dropWhile_eq_nil_iff.2 hr]
  · exact hright _

/-! ### Words -/

section words
variable {c s : Char} {l r cs : List Char}

theorem words_cons_space (h : isSpace c = true) : words (c :: cs) = words cs := by
  rw [words, if_pos h]

theorem words_cons_single (h : isSpace c = false) (hcs : ∀ d ∈ cs.head?, isSpace d = true) :
    words (c :: cs) = [c] :: words cs := by
  have hhead : cs.head?.all isSpace = true := by
    cases cs with
    | nil => rfl
    | cons d cs => exact hcs d rfl
  rw [words, if_neg (by simp [h]), if_pos hhead]

theorem words_cons_glue {d : Char} (h : isSpace c = false) (hd : isSpace d = false) :
    words (c :: d :: cs) = (words (d :: cs)).modifyHead (c :: ·) := by
  rw [words, if_neg (by simp [h]), if_neg (by simp [hd])]

theorem words_eq_nil : words cs = [] ↔ ∀ c ∈ cs, isSpace c = true := by
  induction cs with
  | nil => simp [words]
  | cons c cs ih =>
    by_cases hc : isSpace c = true
    · simp [words_cons_space hc, ih, hc]
    · rw [Bool.not_eq_true] at hc
      refine ⟨fun hnil => ?_, fun h => absurd (h c List.mem_cons_self) (by simp [hc])⟩
      cases cs with
      | nil => simp [words, hc] at hnil
      | cons d cs =>
        by_cases hd : isSpace d = true
        · rw [@words_cons_single c (d :: cs) hc (by simpa using hd)] at hnil
          cases hnil
        · rw [Bool.not_eq_true] at hd
          rw [words_cons_glue hc hd, List.modifyHead_eq_nil_iff, ih] at hnil
          simp [hnil d List.mem_cons_self] at hd

theorem words_ne_nil (h : isSpace c = false) : words (c :: cs) ≠ [] := fun hnil => by
  simp [words_eq_nil.1 hnil c List.mem_cons_self] at h

theorem words_append_space (hs : isSpace s = true) : words (l ++ s :: r) = words l ++ words r := by
  induction l with
  | nil => exact words_cons_space hs
  | cons c l ih =>
    by_cases hc : isSpace c = true
    · rw [List.cons_append, words_cons_space hc, words_cons_space hc, ih]
    · rw [Bool.not_eq_true] at hc
      cases l with
      | nil =>
        rw [@words_cons_single c [] hc (by simp), List.cons_append, List.nil_append,
          words_cons_single hc (by simpa using hs), words_cons_space hs]
        rfl
      | cons d l =>
        by_cases hd : isSpace d = true
        · rw [List.cons_append, words_cons_single hc (by simpa using hd), ih,
            words_cons_single hc (by simpa using hd), List.cons_append]
        · rw [Bool.not_eq_true] at hd
          rw [List.cons_append, List.cons_append, words_cons_glue hc hd, ← List.cons_append, ih,
            words_cons_glue hc hd]
          obtain ⟨w, ws, hw⟩ := List.exists_cons_of_ne_nil (@words_ne_nil d l hd)
          rw [hw]
          rfl

theorem words_of_forall (h : ∀ c ∈ l, isSpace c = false) : words l = if l = [] then [] else [l] := by
  induction l with
  | nil => rfl
  | cons c l ih =>
    have hc := h c List.mem_cons_self
    have htail := ih fun d hd => h d (List.mem_cons_of_mem _ hd)
    cases l with
    | nil => rw [words_cons_single hc (by simp)]; rfl
    | cons d l => rw [words_cons_glue hc (h d (by simp)), htail]; rfl

/-- What holds of texts without white space and passes to texts joined by white space holds of every
text. -/
theorem space_induction {P : List Char → Prop} (free : ∀ l, (∀ c ∈ l, isSpace c = false) → P l)
    (join : ∀ l s r, isSpace s = true → P l → P r → P (l ++ s :: r)) : ∀ cs, P cs := by
  intro cs
  induction hn : cs.length using Nat.strong_induction_on generalizing cs with
  | _ n ih =>
    have hleft : ∀ c ∈ cs.takeWhile (!isSpace ·), isSpace c = false := fun c hc => by
      simpa using List.mem_takeWhile_imp hc
    cases hright : cs.dropWhile (!isSpace ·) with
    | nil =>
      have hcs : cs.takeWhile (!isSpace ·) = cs := by
        have := List.takeWhile_append_dropWhile (p := (!isSpace ·)) (l := cs)
        rwa [hright, List.append_nil] at this
      exact free cs (hcs ▸ hleft)
    | cons s r =>
      have hs : isSpace s = true := by
        have := List.head?_dropWhile_not (!isSpace ·) cs
        rw [hright] at this
        simpa using this
      have hcs : cs = cs.takeWhile (!isSpace ·) ++ s :: r := by
        rw [← hright, List.takeWhile_append_dropWhile]
      have hlen : r.length < n := by
        rw [← hn, hcs]
        simp only [List.length_append, List.length_cons]
        omega
      rw [hcs]
      exact join _ s r hs (free _ hleft) (ih _ hlen r rfl)

theorem mem_words {w : List Char} (hw : w ∈ words cs) : w ≠ [] ∧ ∀ c ∈ w, isSpace c = false := by
  induction cs using space_induction with
  | free l hl =>
    rw [words_of_forall hl] at hw
    split at hw
    · exact absurd hw List.not_mem_nil
    case isFalse hne =>
      rw [List.mem_singleton.1 hw]
      exact ⟨hne, hl⟩
  | join l s r hs hl hr =>
    rw [words_append_space hs] at hw
    rcases List.mem_append.1 hw with hw | hw
    · exact hl hw
    · exact hr hw

/-- `" ".join(ws).split()`. -/
theorem words_intercalate {ws : List (List Char)} (h : ∀ w ∈ ws, w ≠ [] ∧ ∀ c ∈ w, isSpace c = false) :
    words ([' '].intercalate ws) = ws := by
  have hone : ∀ w ∈ ws, words w = [w] := fun w hw => by
    rw [words_of_forall (h w hw).2, if_neg (h w hw).1]
  induction ws with
  | nil => rfl
  | cons w ws ih =>
    cases ws with
    | nil =>
      have hsingle : [' '].intercalate [w] = w := by simp [List.intercalate]
      rw [hsingle]
      exact hone w List.mem_cons_self
    | cons w' ws =>
      have htail := ih (fun v hv => h v (List.mem_cons_of_mem w hv)) fun v hv => hone v (List.mem_cons_of_mem w hv)
      have hjoin : [' '].intercalate (w :: w' :: ws) = w ++ ' ' :: [' '].intercalate (w' :: ws) := by
        simp [List.intercalate]
      rw [hjoin, words_append_space (by decide), htail, hone w List.mem_cons_self]
      rfl

theorem words_dropWhile : words (cs.dropWhile isSpace) = words cs := by
  induction cs with
  | nil => rfl
  | cons c cs ih =>
    by_cases hc : isSpace c = true
    · rw [List.dropWhile_cons_of_pos hc, ih, words_cons_space hc]
    · rw [List.dropWhile_cons_of_neg hc]

theorem words_rdropWhile : words (cs.rdropWhile isSpace) = words cs := by
  induction cs using List.reverseRecOn with
  | nil => rfl
  | append_singleton cs c ih =>
    by_cases hc : isSpace c = true
    · rw [List.rdropWhile_concat_pos _ _ _ hc, ih, words_append_space hc]
      exact (List.append_nil _).symm
    · rw [List.rdropWhile_concat_neg _ _ _ hc]

@[simp] theorem words_stripChars : words (stripChars cs) = words cs := by
  rw [stripChars, words_rdropWhile, words_dropWhile]

end words

/-! ### Runs of white space -/

section collapse
variable {inRun : Bool} {c : Char} {cs : List Char}

theorem collapseFrom_space (h : isSpace c = true) :
    collapseFrom inRun (c :: cs) = (if inRun then [] else [' ']) ++ collapseFrom true cs := by
  rw [collapseFrom, if_pos h]

theorem collapseFrom_other (h : isSpace c = false) :
    collapseFrom inRun (c :: cs) = c :: collapseFrom false cs := by
  rw [collapseFrom, if_neg (by simp [h])]

theorem words_collapseFrom : words (collapseFrom inRun cs) = words cs := by
  have hblank : isSpace ' ' = true := by decide
  induction cs generalizing inRun with
  | nil => rfl
  | cons c cs ih =>
    by_cases hc : isSpace c = true
    · rw [collapseFrom_space hc, words_cons_space hc]
      cases inRun with
      | true => exact ih
      | false => exact (words_cons_space hblank).trans ih
    · rw [Bool.not_eq_true] at hc
      rw [collapseFrom_other hc]
      cases cs with
      | nil => rfl
      | cons d cs =>
        have htail := @ih false
        by_cases hd : isSpace d = true
        · rw [show words (c :: d :: cs) = [c] :: words (d :: cs) from words_cons_single hc (by simpa using hd),
            ← htail]
          refine words_cons_single hc ?_
          simp [collapseFrom_space hd, hblank]
        · rw [Bool.not_eq_true] at hd
          rw [words_cons_glue hc hd, ← htail, collapseFrom_other hd]
          exact words_cons_glue hc hd

theorem intercalate_glue {w : List Char} {ws : List (List Char)} :
    [' '].intercalate ((c :: w) :: ws) = c :: [' '].intercalate (w :: ws) := by
  cases ws <;> simp [List.intercalate]

/-- What `collapseFrom` makes of a text that does not end in white space. -/
theorem collapseFrom_eq (hne : cs ≠ []) (hlast : ∀ c ∈ cs.getLast?, isSpace c = false) :
    collapseFrom inRun cs =
      (if inRun = false ∧ cs.head?.all isSpace = true then [' '] else []) ++
        [' '].intercalate (words cs) := by
  induction cs generalizing inRun with
  | nil => exact absurd rfl hne
  | cons c cs ih =>
    cases cs with
    | nil =>
      have hc : isSpace c = false := hlast c rfl
      simp [collapseFrom, words, hc]
    | cons d cs =>
      have hlast' : ∀ c ∈ (d :: cs).getLast?, isSpace c = false := by simpa using hlast
      have htail : ∀ {b}, collapseFrom b (d :: cs) = _ := ih (by simp) hlast'
      by_cases hc : isSpace c = true
      · rw [words_cons_space hc, collapseFrom_space hc, htail]
        cases inRun <;> simp [hc]
      · rw [Bool.not_eq_true] at hc
        rw [collapseFrom_other hc, htail]
        have hwords : words (d :: cs) ≠ [] := fun hnil => by
          obtain ⟨e, he⟩ : ∃ e, (d :: cs).getLast? = some e := ⟨_, List.getLast?_eq_some_getLast (by simp)⟩
          simpa [hlast' e he] using words_eq_nil.1 hnil e (List.mem_of_getLast? he)
        obtain ⟨w, ws, hw⟩ := List.exists_cons_of_ne_nil hwords
        by_cases hd : isSpace d = true
        · rw [words_cons_single hc (by simpa using hd), hw]
          simp [hc, hd]
        · rw [Bool.not_eq_true] at hd
          rw [words_cons_glue hc hd, hw, List.modifyHead_cons, intercalate_glue]
          simp [hc, hd]

/-- A text without white space at its ends is its words with single blanks between them. -/
theorem collapse_eq_intercalate (h : Trimmed cs) : collapse cs = [' '].intercalate (words cs) := by
  cases cs with
  | nil => rfl
  | cons c cs =>
    rw [collapse, collapseFrom_eq (by simp) h.last]
    simp [h.head c rfl]

/-- Two texts without white space at their ends collapse to one text exactly when their words are
the same. -/
theorem collapse_eq_iff {ds : List Char} (hc : Trimmed cs) (hd : Trimmed ds) :
    collapse cs = collapse ds ↔ words cs = words ds := by
  constructor
  · intro h
    have := congrArg words h
    rwa [collapse, collapse, words_collapseFrom, words_collapseFrom] at this
  · intro h
    rw [collapse_eq_intercalate hc, collapse_eq_intercalate hd, h]

end collapse

/-! ### Letter case -/

section lower
variable {before after l r cs : List Char} {s : Char}

theorem lowerBetween_append :
    lowerBetween before after (l ++ r) =
      lowerBetween before (r ++ after) l ++ lowerBetween (l.reverse ++ before) after r := by
  induction l generalizing before with
  | nil => rfl
  | cons c l ih => simp [lowerBetween, ih]

theorem meetsCased_append_space (hs : isSpace s = true) : meetsCased (l ++ s :: r) = meetsCased l := by
  obtain ⟨-, hcased, hignorable⟩ := space_caseless hs
  simp only [meetsCased, List.dropWhile_append]
  cases h : l.dropWhile caseIgnorable with
  | nil => simp [hcased, hignorable]
  | cons d ds => rfl

/-- Contexts in which a search for a cased character ends alike give the same lower case. -/
theorem lowerBetween_congr {before' after' : List Char}
    (hb : ∀ l, meetsCased (l ++ before) = meetsCased (l ++ before'))
    (ha : ∀ l, meetsCased (l ++ after) = meetsCased (l ++ after')) :
    lowerBetween before after cs = lowerBetween before' after' cs := by
  induction cs generalizing before before' with
  | nil => rfl
  | cons c cs ih =>
    have hnext : ∀ l, meetsCased (l ++ c :: before) = meetsCased (l ++ c :: before') := fun l => by
      simpa using hb (l ++ [c])
    have hhere : meetsCased before = meetsCased before' := hb []
    rw [lowerBetween, lowerBetween, ih hnext, hhere, ha]

theorem lowerChars_append_space (hs : isSpace s = true) :
    lowerChars (l ++ s :: r) = lowerChars l ++ s :: lowerChars r := by
  have hs' : lowerChar s = [s] := (space_caseless hs).1
  rw [lowerChars, lowerBetween_append, lowerBetween, if_neg (space_ne_sigma hs), hs', List.append_nil]
  have hleft : lowerBetween [] (s :: r) l = lowerChars l :=
    lowerBetween_congr (fun _ => rfl) fun l => by rw [meetsCased_append_space hs, List.append_nil]
  have hright : lowerBetween (s :: (l.reverse ++ [])) [] r = lowerChars r :=
    lowerBetween_congr (fun l => by rw [meetsCased_append_space hs, List.append_nil]) fun _ => rfl
  simp only [List.append_nil, List.singleton_append] at hleft hright ⊢
  rw [hleft, hright]

theorem lowerBetween_eq_nil : lowerBetween before after cs = [] ↔ cs = [] := by
  cases cs with
  | nil => simp [lowerBetween]
  | cons c cs =>
    rw [lowerBetween]
    have := lowerChar_ne_nil c
    split <;> simp_all

theorem isSpace_of_mem_lowerBetween {d : Char} (h : d ∈ lowerBetween before after cs)
    (hd : isSpace d = true) : ∃ c ∈ cs, isSpace c = true := by
  induction cs generalizing before with
  | nil => cases h
  | cons c cs ih =>
    rw [lowerBetween, List.mem_append] at h
    rcases h with h | h
    · refine ⟨c, List.mem_cons_self, ?_⟩
      split at h
      · rw [List.mem_singleton] at h
        split at h <;> subst h <;> exact absurd hd (by decide)
      · exact isSpace_of_mem_lowerChar h hd
    · obtain ⟨e, he, hspace⟩ := ih h
      exact ⟨e, List.mem_cons_of_mem _ he, hspace⟩

theorem words_lowerChars (cs : List Char) : words (lowerChars cs) = (words cs).map lowerChars := by
  induction cs using space_induction with
  | free l hl =>
    have hlower : ∀ d ∈ lowerChars l, isSpace d = false := by
      intro d hd
      by_contra hspace
      obtain ⟨c, hc, h⟩ := isSpace_of_mem_lowerBetween hd (by simpa using hspace)
      simp [hl c hc] at h
    rw [words_of_forall hl, words_of_forall hlower]
    by_cases h : l = []
    · subst h; rfl
    · have hne : lowerChars l ≠ [] := fun hnil => h (lowerBetween_eq_nil.1 hnil)
      rw [if_neg h, if_neg hne]
      rfl
  | join l s r hs hl hr =>
    rw [lowerChars_append_space hs, words_append_space hs, words_append_space hs, hl, hr,
      List.map_append]

theorem Trimmed.lowerChars (h : Trimmed cs) : Trimmed (lowerChars cs) := by
  have key : ∀ {before after c d}, isSpace c = false → d ∈ lowerBetween before after [c] →
      isSpace d = false := by
    intro before after c d hc hd
    by_contra hspace
    obtain ⟨e, he, h⟩ := isSpace_of_mem_lowerBetween hd (by simpa using hspace)
    simp [List.mem_singleton.1 he, hc] at h
  have hne : ∀ before after (c : Char), lowerBetween before after [c] ≠ [] := fun _ _ _ hnil => by
    cases lowerBetween_eq_nil.1 hnil
  constructor
  · intro d hd
    cases cs with
    | nil => cases hd
    | cons c cs =>
      rw [Str.lowerChars, show c :: cs = [c] ++ cs from rfl, lowerBetween_append,
        List.head?_append_of_ne_nil _ (hne _ _ _)] at hd
      exact key (h.head c rfl) (List.mem_of_head? hd)
  · intro d hd
    cases cs using List.reverseRecOn with
    | nil => cases hd
    | append_singleton cs c =>
      rw [Str.lowerChars, lowerBetween_append, List.getLast?_append_of_ne_nil _ (hne _ _ _)] at hd
      exact key (h.last c (by simp)) (List.mem_of_getLast? hd)

/-- The name comparison: texts stripped, put in lower case and collapsed are equal exactly when
their words are, up to letter case. -/
theorem collapse_lower_strip_eq_iff {ds : List Char} :
    collapse (lowerChars (stripChars cs)) = collapse (lowerChars (stripChars ds)) ↔
      (words cs).map lowerChars = (words ds).map lowerChars := by
  rw [collapse_eq_iff (trimmed_stripChars cs).lowerChars (trimmed_stripChars ds).lowerChars,
    words_lowerChars, words_lowerChars, words_stripChars, words_stripChars]

end lower

/-! ### Texts of one letter -/

/-- `upper` and `lower` of the two cases of a letter that no other character is mapped to. -/
structure Letter (capital small : Char) : Prop where
  upper : ∀ c, capital ∈ upperChar c → c = capital ∨ c = small
  lower : ∀ c, small ∈ lowerChar c → c = capital ∨ c = small
  upper_eq : upperChar capital = [capital] ∧ upperChar small = [capital]
  lower_eq : lowerChar capital = [small] ∧ lowerChar small = [small]
  ne_sigma : capital ≠ 'Σ' ∧ small ≠ 'Σ' ∧ small ≠ 'σ' ∧ small ≠ 'ς'

section letter
variable {capital small : Char} {cs : List Char} {n : ℕ}

theorem Letter.upperChars_eq_iff (h : Letter capital small) :
    upperChars cs = List.replicate n capital ↔ cs.length = n ∧ ∀ c ∈ cs, c = capital ∨ c = small := by
  have hone : ∀ c, c = capital ∨ c = small → upperChar c = [capital] := by
    rintro c (rfl | rfl)
    exacts [h.upper_eq.1, h.upper_eq.2]
  constructor
  · intro heq
    have hmem : ∀ c ∈ cs, c = capital ∨ c = small := by
      intro c hc
      obtain ⟨d, hd⟩ := List.exists_mem_of_ne_nil _ (upperChar_ne_nil c)
      have hall : d ∈ upperChars cs := List.mem_flatMap.2 ⟨c, hc, hd⟩
      rw [heq] at hall
      exact h.upper c (List.eq_of_mem_replicate hall ▸ hd)
    refine ⟨?_, hmem⟩
    have hlen : (upperChars cs).length = cs.length := by
      rw [upperChars, List.flatMap_congr fun c hc => hone c (hmem c hc)]
      simp
    rw [← hlen, heq, List.length_replicate]
  · rintro ⟨rfl, hmem⟩
    rw [upperChars, List.flatMap_congr fun c hc => hone c (hmem c hc)]
    exact List.eq_replicate_iff.2 ⟨by simp, by simp⟩

theorem Letter.lowerBetween_eq_iff {before after : List Char} (h : Letter capital small) :
    lowerBetween before after cs = List.replicate n small ↔
      cs.length = n ∧ ∀ c ∈ cs, c = capital ∨ c = small := by
  induction cs generalizing before n with
  | nil => cases n <;> simp [lowerBetween]
  | cons c cs ih =>
    rw [lowerBetween]
    by_cases hc : c = capital ∨ c = small
    · have hs : c ≠ 'Σ' := by rcases hc with rfl | rfl; exacts [h.ne_sigma.1, h.ne_sigma.2.1]
      have hl : lowerChar c = [small] := by rcases hc with rfl | rfl; exacts [h.lower_eq.1, h.lower_eq.2]
      rw [if_neg hs, hl]
      cases n with
      | zero => simp
      | succ n => simp [List.replicate_succ, ih, hc]
    · refine ⟨fun heq => ?_, fun hall => absurd (hall.2 c List.mem_cons_self) hc⟩
      exfalso
      split at heq
      · have : (if meetsCased before && !meetsCased (cs ++ after) then 'ς' else 'σ') = small :=
          List.eq_of_mem_replicate (heq ▸ List.mem_append_left _ (List.mem_singleton_self _))
        split at this
        exacts [h.ne_sigma.2.2.2 this.symm, h.ne_sigma.2.2.1 this.symm]
      · obtain ⟨d, hd⟩ := List.exists_mem_of_ne_nil _ (lowerChar_ne_nil c)
        have : d = small := List.eq_of_mem_replicate (heq ▸ List.mem_append_left _ hd)
        exact hc (h.lower c (this ▸ hd))

/-- For a text of one such letter upper and lower case decide the same. -/
theorem Letter.upper_iff_lower (h : Letter capital small) :
    upperChars cs = List.replicate n capital ↔ lowerChars cs = List.replicate n small := by
  rw [h.upperChars_eq_iff, lowerChars, h.lowerBetween_eq_iff]

/-- A letter's cases are related by the tables: nothing else is mapped to either. -/
theorem Letter.of_tables
    (special : ∀ p ∈ upperSpecial, capital ∉ p.2.map Char.ofNat)
    (upper : ∀ r ∈ upperRanges, r.Avoids capital.toNat ∨ r.first + (capital.toNat - r.target) = small.toNat)
    (lower : ∀ r ∈ lowerRanges, r.Avoids small.toNat ∨ r.first + (small.toNat - r.target) = capital.toNat)
    (upper_eq : upperChar capital = [capital] ∧ upperChar small = [capital])
    (lower_eq : lowerChar capital = [small] ∧ lowerChar small = [small])
    (ne_sigma : capital ≠ 'Σ' ∧ small ≠ 'Σ' ∧ small ≠ 'σ' ∧ small ≠ 'ς')
    (ne_dotted : small ≠ 'i' ∧ small ≠ '\u0307') : Letter capital small where
  upper c hc := by
    rcases mem_upperChar hc with rfl | ⟨p, hp, hm⟩ | hl
    · exact .inl rfl
    · exact absurd hm (special p hp)
    · exact .inr (Char.toNat_inj.1 (eq_of_lookup _ upper hl))
  lower c hc := by
    rcases mem_lowerChar hc with rfl | ⟨-, h | h⟩ | hl
    · exact .inr rfl
    · exact absurd h ne_dotted.1
    · exact absurd h ne_dotted.2
    · exact .inl (Char.toNat_inj.1 (eq_of_lookup _ lower hl))
  upper_eq := upper_eq
  lower_eq := lower_eq
  ne_sigma := ne_sigma

end letter

end BankingAi.Str
