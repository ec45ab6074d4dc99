import Mathlib.Data.List.TakeWhile
import Mathlib.Data.Nat.Notation

/-!
# Backtracking patterns

A pattern is the list of its matches at the start of a text, in the order in which a backtracking engine
tries them: what the match captures, and the text behind it. The engine returns the first match.
`Runs` is `re.findall("[..]+", text)` for one class: the longest runs of members, from left to right.
-/

namespace BankingAi

def Pattern (α : Type) := List Char → List (α × List Char)

namespace Pattern

variable {α β : Type}

instance : Monad Pattern where
  pure a := fun cs => [(a, cs)]
  bind m f := fun cs => (m cs).flatMap fun r => f r.1 r.2

/-- One character of a class. -/
def one (p : Char → Bool) : Pattern Char
  | [] => []
  | c :: cs => if p c then [(c, cs)] else []

/-- How many characters of a class a text starts with. -/
def run (p : Char → Bool) (cs : List Char) : ℕ := (cs.takeWhile p).length

/-- `[..]*`: as many characters as possible first. -/
def greedy (p : Char → Bool) : Pattern (List Char) := fun cs =>
  (List.range (run p cs + 1)).reverse.map cs.splitAt

/-- `[..]{lo,}?`: as few characters as possible first. -/
def lazyFrom (lo : ℕ) (p : Char → Bool) : Pattern (List Char) := fun cs =>
  ((List.range (run p cs + 1)).drop lo).map cs.splitAt

/-- `[..]{lo,hi}?`. -/
def lazyBetween (lo hi : ℕ) (p : Char → Bool) : Pattern (List Char) := fun cs =>
  ((List.range (min hi (run p cs) + 1)).drop lo).map cs.splitAt

/-- `$`: the end of the text, or the line feed it ends in. -/
def atEnd : Pattern Unit := fun cs => if cs = [] ∨ cs = ['\n'] then [((), cs)] else []

/-- What the first match captures. -/
def first (m : Pattern α) (cs : List Char) : Option α := (m cs).head?.map Prod.fst

/-! ### The first match -/

section first

variable {p : Char → Bool} {f : List Char → Pattern β} {cs rest : List Char} {b : β}

theorem first_bind (m : Pattern α) (f : α → Pattern β) :
    (m >>= f).first cs = (m cs).findSome? fun r => (f r.1).first r.2 := by
  show ((m cs).flatMap fun r => f r.1 r.2).head?.map Prod.fst = _
  rw [List.head?_flatMap, List.map_findSome?]
  rfl

theorem first_one (c : Char) (f : Char → Pattern β) :
    (one p >>= f).first (c :: cs) = if p c then (f c).first cs else none := by
  rw [first_bind, one]
  split
  · simp
  · rfl

theorem first_atEnd (f : Unit → Pattern β) :
    (atEnd >>= f).first cs = if cs = [] ∨ cs = ['\n'] then (f ()).first cs else none := by
  rw [first_bind, atEnd]
  split
  · simp
  · rfl

theorem run_append {l : List Char} (hl : ∀ c ∈ l, p c = true) : run p (l ++ rest) = l.length + run p rest := by
  rw [run, List.takeWhile_append_of_pos hl, List.length_append]
  rfl

theorem run_eq_zero (h : ∀ c ∈ cs.head?, p c = false) : run p cs = 0 := by
  cases cs with
  | nil => rfl
  | cons c cs =>
    rw [run, List.takeWhile_cons_of_neg (by simp [h c rfl])]
    rfl

/-- The longest run is tried first. -/
theorem first_greedy {l : List Char} (hl : ∀ c ∈ l, p c = true) (hrest : ∀ c ∈ rest.head?, p c = false)
    (hf : (f l).first rest = some b) : (greedy p >>= f).first (l ++ rest) = some b := by
  rw [first_bind, greedy, run_append hl, run_eq_zero hrest, Nat.add_zero, List.range_succ, List.reverse_append,
    List.reverse_singleton, List.singleton_append, List.map_cons, List.findSome?_cons,
    List.splitAt_eq, List.take_left, List.drop_left, hf]

theorem first_greedy_nil (h : ∀ c ∈ cs.head?, p c = false) : (greedy p >>= f).first cs = (f []).first cs := by
  rw [first_bind, greedy, run_eq_zero h]
  simp

theorem first_greedy_none (h : ∀ l r, cs = l ++ r → (∀ c ∈ l, p c = true) → (f l).first r = none) :
    (greedy p >>= f).first cs = none := by
  rw [first_bind, greedy, List.findSome?_eq_none_iff]
  intro r hr
  obtain ⟨n, hn, rfl⟩ := List.mem_map.1 hr
  rw [List.mem_reverse, List.mem_range, run] at hn
  rw [List.splitAt_eq]
  refine h _ _ (List.take_append_drop n cs).symm fun c hc => ?_
  obtain ⟨rest, hrest⟩ := List.takeWhile_prefix p (l := cs)
  have htake : (cs.takeWhile p ++ rest).take n = (cs.takeWhile p).take n :=
    List.take_append_of_le_length (by omega)
  rw [hrest] at htake
  rw [htake] at hc
  exact List.mem_takeWhile_imp (List.mem_of_mem_take hc)

/-- The match of a lazy repetition: fewer characters do not do. -/
theorem findSome?_range {lo top n : ℕ} {g : ℕ → Option β} (hlo : lo ≤ n) (htop : n ≤ top) (hg : g n = some b)
    (hfew : ∀ m, lo ≤ m → m < n → g m = none) : ((List.range (top + 1)).drop lo).findSome? g = some b := by
  have hsplit : (List.range (top + 1)).drop lo =
      (List.range' lo (n - lo)) ++ n :: List.range' (n + 1) (top - n) := by
    rw [List.range_eq_range', List.drop_range', show n :: List.range' (n + 1) (top - n) =
      List.range' n (top - n + 1) from rfl, show top + 1 - lo = n - lo + (top - n + 1) by omega,
      ← List.range'_append_1]
    congr 2 <;> omega
  have hnone : (List.range' lo (n - lo)).findSome? g = none := by
    rw [List.findSome?_eq_none_iff]
    intro m hm
    obtain ⟨hle, hlt⟩ := List.mem_range'_1.1 hm
    exact hfew m hle (by omega)
  rw [hsplit, List.findSome?_append, hnone, List.findSome?_cons, hg]
  rfl

theorem first_lazyBetween {lo hi : ℕ} {l : List Char} (hl : ∀ c ∈ l, p c = true) (hlo : lo ≤ l.length)
    (hhi : l.length ≤ hi) (hf : (f l).first rest = some b)
    (hfew : ∀ m, lo ≤ m → m < l.length → (f (l.take m)).first (l.drop m ++ rest) = none) :
    (lazyBetween lo hi p >>= f).first (l ++ rest) = some b := by
  rw [first_bind, lazyBetween, List.findSome?_map]
  refine findSome?_range hlo ?_ ?_ fun m hle hlt => ?_
  · rw [run_append hl]
    omega
  · show (f ((l ++ rest).splitAt l.length).1).first ((l ++ rest).splitAt l.length).2 = _
    rw [List.splitAt_eq, List.take_left, List.drop_left, hf]
  · show (f ((l ++ rest).splitAt m).1).first ((l ++ rest).splitAt m).2 = _
    rw [List.splitAt_eq, List.take_append_of_le_length (Nat.le_of_lt hlt),
      List.drop_append_of_le_length (Nat.le_of_lt hlt)]
    exact hfew m hle hlt

theorem first_lazyFrom {lo : ℕ} (hcs : ∀ c ∈ cs, p c = true) (hlo : lo ≤ cs.length)
    (hf : (f cs).first [] = some b)
    (hfew : ∀ m, lo ≤ m → m < cs.length → (f (cs.take m)).first (cs.drop m) = none) :
    (lazyFrom lo p >>= f).first cs = some b := by
  rw [first_bind, lazyFrom, List.findSome?_map]
  refine findSome?_range hlo ?_ ?_ fun m hle hlt => ?_
  · have hrun := @run_append p [] cs hcs
    rw [List.append_nil] at hrun
    omega
  · show (f (cs.splitAt cs.length).1).first (cs.splitAt cs.length).2 = _
    rw [List.splitAt_eq, List.take_length, List.drop_length, hf]
  · show (f (cs.splitAt m).1).first (cs.splitAt m).2 = _
    rw [List.splitAt_eq]
    exact hfew m hle hlt

end first

end Pattern

/-! ### `re.findall` of a class -/

namespace Runs

variable {α : Type} (p : α → Bool)

/-- The runs of a text behind `current`, the run that is being read. -/
def findFrom : List α → List α → List (List α)
  | current, [] => if current = [] then [] else [current]
  | current, c :: cs =>
    if p c then findFrom (current ++ [c]) cs
    else (if current = [] then [] else [current]) ++ findFrom [] cs

def find (cs : List α) : List (List α) := findFrom p [] cs

variable {p} {current l r : List α} {c : α}

/-- Something outside the class ends a run, so the texts on both of its sides are searched by themselves. -/
theorem findFrom_append (hc : p c = false) : findFrom p current (l ++ c :: r) = findFrom p current l ++ find p r := by
  induction l generalizing current with
  | nil => simp [findFrom, hc, find]
  | cons d l ih =>
    by_cases hd : p d = true
    · simp [findFrom, hd, ih]
    · simp [findFrom, hd, ih]

theorem find_append (hc : p c = false) : find p (l ++ c :: r) = find p l ++ find p r := findFrom_append hc

end Runs
end BankingAi
