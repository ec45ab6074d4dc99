import Mathlib.Data.List.Basic

/-!
# Python's `splitlines`

Lines end at any of Unicode's line boundaries; a carriage return and a line feed are one boundary. A text
that ends in a boundary has no line behind it.
-/

namespace BankingAi.Str

/-- The characters that end a line. -/
def lineBoundaries : List Char :=
  ['\n', '\r', '\x0b', '\x0c', '\x1c', '\x1d', '\x1e', '\u0085', '\u2028', '\u2029']

/-- A character in front of the first line. -/
def glueLine (c : Char) : List (List Char) → List (List Char)
  | [] => [[c]]
  | l :: ls => (c :: l) :: ls

def splitLines : List Char → List (List Char)
  | [] => []
  | '\r' :: '\n' :: cs => [] :: splitLines cs
  | c :: cs => if c ∈ lineBoundaries then [] :: splitLines cs else glueLine c (splitLines cs)

/-- `"\n".join(lines)`. -/
def joinLines (lines : List (List Char)) : List Char := ['\n'].intercalate lines

example : splitLines "a\r\nb\r\n\nc\u2028d\n".toList =
    ["a".toList, "b".toList, [], "c".toList, "d".toList] := by decide +kernel

section lines

variable {c : Char} {l cs : List Char}

theorem splitLines_cons_boundary (hc : c ∈ lineBoundaries) (h : c = '\r' → cs.head? ≠ some '\n') :
    splitLines (c :: cs) = [] :: splitLines cs := by
  rw [splitLines]
  · rw [if_pos hc]
  · rintro cs' rfl rfl
    exact h rfl rfl

theorem splitLines_cons (hc : c ∉ lineBoundaries) : splitLines (c :: cs) = glueLine c (splitLines cs) := by
  rw [splitLines]
  · rw [if_neg hc]
  · rintro cs' rfl
    exact absurd (by decide) hc

theorem splitLines_eq_nil : splitLines cs = [] ↔ cs = [] := by
  refine ⟨fun h => ?_, fun h => by rw [h]; rfl⟩
  cases cs with
  | nil => rfl
  | cons c cs =>
    rw [splitLines.eq_def] at h
    split at h
    · assumption
    · cases h
    · split at h
      · cases h
      · cases hcs : splitLines _ with
        | nil => rw [hcs] at h; cases h
        | cons l ls => rw [hcs] at h; cases h

theorem splitLines_feed (cs : List Char) : splitLines ('\n' :: cs) = [] :: splitLines cs :=
  splitLines_cons_boundary (by decide) fun h => absurd h (by decide)

/-- A text behind a line feed adds its own lines, and perhaps an empty one in front of them. -/
theorem splitLines_append (cs ds : List Char) :
    ∃ blank, (blank = [] ∨ blank = [[]]) ∧
      splitLines (cs ++ '\n' :: ds) = splitLines cs ++ blank ++ splitLines ds := by
  induction cs using splitLines.induct with
  | case1 => exact ⟨[[]], .inr rfl, splitLines_feed ds⟩
  | case2 cs ih =>
    obtain ⟨blank, hblank, heq⟩ := ih
    refine ⟨blank, hblank, ?_⟩
    rw [List.cons_append, List.cons_append, splitLines, heq, splitLines]
    rfl
  | case3 c cs hcrlf hc ih =>
    by_cases hmerge : c = '\r' ∧ cs = []
    · obtain ⟨rfl, rfl⟩ := hmerge
      exact ⟨[], .inl rfl, by rw [List.cons_append, List.nil_append, splitLines]; rfl⟩
    · have hcs : c = '\r' → cs.head? ≠ some '\n' := by
        intro hr hhead
        cases cs with
        | nil => cases hhead
        | cons d cs => exact hcrlf cs hr (by rw [Option.some.inj hhead])
      have happend : c = '\r' → (cs ++ '\n' :: ds).head? ≠ some '\n' := by
        intro hr
        cases cs with
        | nil => exact absurd ⟨hr, rfl⟩ hmerge
        | cons d cs => exact hcs hr
      obtain ⟨blank, hblank, heq⟩ := ih
      refine ⟨blank, hblank, ?_⟩
      rw [List.cons_append, splitLines_cons_boundary hc happend, splitLines_cons_boundary hc hcs, heq]
      rfl
  | case4 c cs hcrlf hc ih =>
    rw [List.cons_append, splitLines_cons hc, splitLines_cons hc]
    cases hcs : splitLines cs with
    | nil =>
      rw [splitLines_eq_nil.1 hcs, List.nil_append, splitLines_feed]
      exact ⟨[], .inl rfl, rfl⟩
    | cons l ls =>
      obtain ⟨blank, hblank, heq⟩ := ih
      rw [hcs] at heq
      exact ⟨blank, hblank, by rw [heq]; rfl⟩

theorem splitLines_line {l : List Char} (hne : l ≠ []) (hl : ∀ c ∈ l, c ∉ lineBoundaries) : splitLines l = [l] := by
  induction l with
  | nil => exact absurd rfl hne
  | cons c l ih =>
    rw [splitLines_cons (hl c List.mem_cons_self)]
    cases l with
    | nil => rfl
    | cons d l =>
      rw [ih (List.cons_ne_nil d l) fun e he => hl e (List.mem_cons_of_mem c he)]
      rfl

theorem splitLines_line_feed {l : List Char} (hl : ∀ c ∈ l, c ∉ lineBoundaries) (cs : List Char) :
    splitLines (l ++ '\n' :: cs) = l :: splitLines cs := by
  induction l with
  | nil => exact splitLines_feed cs
  | cons c l ih =>
    rw [List.cons_append, splitLines_cons (hl c List.mem_cons_self),
      ih fun e he => hl e (List.mem_cons_of_mem c he)]
    rfl

/-- Lines without boundaries are found again. -/
theorem splitLines_joinLines {lines : List (List Char)} (h : ∀ l ∈ lines, l ≠ [] ∧ ∀ c ∈ l, c ∉ lineBoundaries) :
    splitLines (joinLines lines) = lines := by
  induction lines with
  | nil => rfl
  | cons l lines ih =>
    obtain ⟨hne, hl⟩ := h l List.mem_cons_self
    cases lines with
    | nil =>
      have hsingle : joinLines [l] = l := by simp [joinLines, List.intercalate]
      rw [hsingle]
      exact splitLines_line hne hl
    | cons l' lines =>
      have hjoin : joinLines (l :: l' :: lines) = l ++ '\n' :: joinLines (l' :: lines) := by
        simp [joinLines, List.intercalate]
      rw [hjoin, splitLines_line_feed hl, ih fun l hl => h l (List.mem_cons_of_mem _ hl)]

end lines
end BankingAi.Str
