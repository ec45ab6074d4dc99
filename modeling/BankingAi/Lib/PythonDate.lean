import Mathlib.Tactic.IntervalCases
import BankingAi.Lib.PythonInt

/-!
# Dates and `strptime`

The calendar dates of `datetime.date`, and `datetime.strptime(text, fmt)` for formats made of `%Y`,
`%m`, `%d` and literal characters. `strptime` matches a regular expression from the left, so a
directive gives its matches in the order in which the expression tries them.
-/

namespace BankingAi

namespace Date

def isLeap (year : ℕ) : Bool := year % 4 = 0 ∧ (year % 100 ≠ 0 ∨ year % 400 = 0)

def daysInMonth (year month : ℕ) : ℕ :=
  if month = 2 then (if isLeap year then 29 else 28)
  else if month ∈ [4, 6, 9, 11] then 30 else 31

def Valid (year month day : ℕ) : Prop :=
  1 ≤ year ∧ year ≤ 9999 ∧ 1 ≤ month ∧ month ≤ 12 ∧ 1 ≤ day ∧ day ≤ daysInMonth year month

instance (year month day : ℕ) : Decidable (Valid year month day) := inferInstanceAs (Decidable (_ ∧ _))

theorem le_daysInMonth (year month : ℕ) : 28 ≤ daysInMonth year month ∧ daysInMonth year month ≤ 31 := by
  unfold daysInMonth
  split_ifs <;> omega

end Date

structure Date where
  year : ℕ
  month : ℕ
  day : ℕ
  valid : Date.Valid year month day
deriving DecidableEq

namespace Date

/-- `date(year, month, day)`: `none` is a `ValueError`. -/
def of? (year month day : ℕ) : Option Date :=
  if h : Valid year month day then some ⟨year, month, day, h⟩ else none

theorem of?_self (d : Date) : of? d.year d.month d.day = some d := dif_pos d.valid

theorem day_le (d : Date) : d.day ≤ 31 :=
  d.valid.2.2.2.2.2.trans (le_daysInMonth _ _).2

/-- A date and the one that the swapped day and month read as. -/
theorem of?_swap {d : Date} (h : d.day ≤ 12) :
    ∃ e, of? d.year d.day d.month = some e ∧ (e = d ↔ d.day = d.month) := by
  obtain ⟨hy, hy', hm, hm', hd, -⟩ := d.valid
  have hvalid : Valid d.year d.day d.month :=
    ⟨hy, hy', hd, h, hm, by have := (le_daysInMonth d.year d.day).1; omega⟩
  refine ⟨_, dif_pos hvalid, ?_⟩
  cases d
  simp only [Date.mk.injEq, true_and]
  constructor
  · rintro ⟨h, -⟩; exact h
  · intro h; exact ⟨h, h.symm⟩

end Date

namespace Strptime

inductive Directive where
  | year | month | day
  | lit (c : Char)
deriving DecidableEq

/-- The values read so far; `strptime` starts from 1 January 1900. -/
structure Fields where
  year : ℕ
  month : ℕ
  day : ℕ

/-- A character of an ASCII range of digits. -/
def digitIn (first last : Char) (c : Char) : Option ℕ :=
  if first.toNat ≤ c.toNat ∧ c.toNat ≤ last.toNat then some (c.toNat - '0'.toNat) else none

abbrev Matches := List (ℕ × List Char)

def one (f : Char → Option ℕ) : List Char → Matches
  | a :: cs => ((f a).map fun x => (x, cs)).toList
  | [] => []

def two (f g : Char → Option ℕ) : List Char → Matches
  | a :: b :: cs =>
    match f a, g b with
    | some x, some y => [(10 * x + y, cs)]
    | _, _ => []
  | _ => []

/-- `\d\d\d\d`. -/
def yearMatches : List Char → Matches
  | a :: b :: c :: d :: cs =>
    match Python.digitValue? a, Python.digitValue? b, Python.digitValue? c, Python.digitValue? d with
    | some w, some x, some y, some z => [(1000 * w + 100 * x + 10 * y + z, cs)]
    | _, _, _, _ => []
  | _ => []

/-- `1[0-2]|0[1-9]|[1-9]`. -/
def monthMatches (cs : List Char) : Matches :=
  two (digitIn '1' '1') (digitIn '0' '2') cs ++ two (digitIn '0' '0') (digitIn '1' '9') cs ++
    one (digitIn '1' '9') cs

/-- `3[0-1]|[1-2]\d|0[1-9]|[1-9]| [1-9]`. -/
def dayMatches (cs : List Char) : Matches :=
  two (digitIn '3' '3') (digitIn '0' '1') cs ++ two (digitIn '1' '2') Python.digitValue? cs ++
    two (digitIn '0' '0') (digitIn '1' '9') cs ++ one (digitIn '1' '9') cs ++
    (match cs with
      | ' ' :: cs => one (digitIn '1' '9') cs
      | _ => [])

/-- The ways to match a format at the start of a text, with the fields read and the rest. -/
def matchFormat : List Directive → Fields → List Char → List (Fields × List Char)
  | [], fields, cs => [(fields, cs)]
  | .year :: fmt, fields, cs => (yearMatches cs).flatMap fun m => matchFormat fmt { fields with year := m.1 } m.2
  | .month :: fmt, fields, cs =>
    (monthMatches cs).flatMap fun m => matchFormat fmt { fields with month := m.1 } m.2
  | .day :: fmt, fields, cs => (dayMatches cs).flatMap fun m => matchFormat fmt { fields with day := m.1 } m.2
  | .lit c :: fmt, fields, cs =>
    match cs with
    | d :: cs => if d = c then matchFormat fmt fields cs else []
    | [] => []

/-- `datetime.strptime(text, fmt).date()`: `none` is a `ValueError`. Only the first match counts, and
it has to reach the end of the text. -/
def strptime (fmt : List Directive) (text : List Char) : Option Date :=
  match (matchFormat fmt ⟨1900, 1, 1⟩ text).head? with
  | some (fields, []) => Date.of? fields.year fields.month fields.day
  | _ => none

/-! ### Writing a date -/

def digit (n : ℕ) : Char := Char.ofNat ('0'.toNat + n)

def pad2 (n : ℕ) : List Char := [digit (n / 10), digit (n % 10)]

def pad4 (n : ℕ) : List Char := [digit (n / 1000), digit (n / 100 % 10), digit (n / 10 % 10), digit (n % 10)]

/-- `date.strftime(fmt)`, with the year in four digits. -/
def strftime (d : Date) : List Directive → List Char
  | [] => []
  | .year :: fmt => pad4 d.year ++ strftime d fmt
  | .month :: fmt => pad2 d.month ++ strftime d fmt
  | .day :: fmt => pad2 d.day ++ strftime d fmt
  | .lit c :: fmt => c :: strftime d fmt

theorem digitValue?_digit {n : ℕ} (h : n < 10) : Python.digitValue? (digit n) = some n := by
  interval_cases n <;> decide

theorem yearMatches_pad4 {n : ℕ} (h : n ≤ 9999) (rest : List Char) :
    yearMatches (pad4 n ++ rest) = [(n, rest)] := by
  have hvalue : 1000 * (n / 1000) + 100 * (n / 100 % 10) + 10 * (n / 10 % 10) + n % 10 = n := by omega
  simp only [pad4, List.cons_append, List.nil_append, yearMatches, digitValue?_digit (n := n / 1000) (by omega),
    digitValue?_digit (n := n / 100 % 10) (by omega), digitValue?_digit (n := n / 10 % 10) (by omega),
    digitValue?_digit (n := n % 10) (by omega), hvalue]

/-- The second match leaves a digit behind. -/
theorem dayMatches_pad2 {n : ℕ} (h : 1 ≤ n) (h' : n ≤ 31) (rest : List Char) :
    dayMatches (pad2 n ++ rest) =
      (n, rest) :: if n < 10 then [] else [(n / 10, digit (n % 10) :: rest)] := by
  interval_cases n <;> rfl

theorem monthMatches_pad2 {n : ℕ} (h : 1 ≤ n) (h' : n ≤ 31) (rest : List Char) :
    monthMatches (pad2 n ++ rest) =
      (if n ≤ 12 then [(n, rest)] else []) ++
        if n < 10 then [] else [(n / 10, digit (n % 10) :: rest)] := by
  interval_cases n <;> rfl

/-! ### Reading a date back -/

section matchFormat
variable {fmt : List Directive} {fields : Fields} {c : Char} {n : ℕ} {rest : List Char}

@[simp] theorem matchFormat_lit : matchFormat (.lit c :: fmt) fields (c :: rest) = matchFormat fmt fields rest := by
  simp [matchFormat]

/-- A separator is not a digit. -/
def IsSeparator (c : Char) : Prop := ∀ n < 10, digit n ≠ c

instance (c : Char) : Decidable (IsSeparator c) := inferInstanceAs (Decidable (∀ n < 10, _))

theorem matchFormat_lit_digit (hc : IsSeparator c) (hn : n < 10) :
    matchFormat (.lit c :: fmt) fields (digit n :: rest) = [] := by
  rw [matchFormat, if_neg (hc n hn)]

theorem matchFormat_year (hn : n ≤ 9999) :
    matchFormat (.year :: fmt) fields (pad4 n ++ rest) = matchFormat fmt { fields with year := n } rest := by
  simp [matchFormat, yearMatches_pad4 hn]

theorem flatMap_one_digit (hc : IsSeparator c) (update : ℕ → Fields) :
    (if n < 10 then [] else [(n / 10, digit (n % 10) :: rest)]).flatMap
      (fun m => matchFormat (.lit c :: fmt) (update m.1) m.2) = [] := by
  split
  · rfl
  · simp [matchFormat_lit_digit hc (Nat.mod_lt n (by omega))]

theorem matchFormat_day (hc : IsSeparator c) (h : 1 ≤ n) (h' : n ≤ 31) :
    matchFormat (.day :: .lit c :: fmt) fields (pad2 n ++ c :: rest) =
      matchFormat fmt { fields with day := n } rest := by
  rw [matchFormat, dayMatches_pad2 h h', List.flatMap_cons,
    flatMap_one_digit hc fun m => { fields with day := m }]
  simp

theorem matchFormat_month (hc : IsSeparator c) (h : 1 ≤ n) (h' : n ≤ 31) :
    matchFormat (.month :: .lit c :: fmt) fields (pad2 n ++ c :: rest) =
      if n ≤ 12 then matchFormat fmt { fields with month := n } rest else [] := by
  rw [matchFormat, monthMatches_pad2 h h', List.flatMap_append,
    flatMap_one_digit hc fun m => { fields with month := m }]
  split <;> simp

end matchFormat

section strptime
variable {y m d : ℕ}

theorem strptime_year_first (hy : y ≤ 9999) (hm : 1 ≤ m) (hm' : m ≤ 12) (hd : 1 ≤ d) (hd' : d ≤ 31) :
    strptime [.year, .lit '-', .month, .lit '-', .day] (pad4 y ++ '-' :: (pad2 m ++ '-' :: (pad2 d ++ []))) =
      Date.of? y m d := by
  rw [strptime, matchFormat_year hy, matchFormat_lit, matchFormat_month (by decide) hm (by omega), if_pos hm',
    matchFormat, dayMatches_pad2 hd hd']
  simp [matchFormat]

/-- A text that starts with two digits and a slash has no year in front. -/
theorem strptime_year_first_slash (rest : List Char) :
    strptime [.year, .lit '-', .month, .lit '-', .day] (pad2 m ++ '/' :: rest) = none := by
  have hslash : Python.digitValue? '/' = none := by decide
  have : yearMatches (pad2 m ++ '/' :: rest) = [] := by
    cases rest with
    | nil => rfl
    | cons c rest => simp [pad2, yearMatches, hslash]
  simp [strptime, matchFormat, this]

theorem strptime_day_first (hy : y ≤ 9999) (hm : 1 ≤ m) (hm' : m ≤ 31) (hd : 1 ≤ d) (hd' : d ≤ 31) :
    strptime [.day, .lit '/', .month, .lit '/', .year] (pad2 d ++ '/' :: (pad2 m ++ '/' :: (pad4 y ++ []))) =
      if m ≤ 12 then Date.of? y m d else none := by
  rw [strptime, matchFormat_day (by decide) hd hd', matchFormat_month (by decide) hm hm']
  by_cases h : m ≤ 12
  · rw [if_pos h, if_pos h, matchFormat_year hy]
    simp [matchFormat]
  · rw [if_neg h, if_neg h]
    rfl

theorem strptime_month_first (hy : y ≤ 9999) (hm : 1 ≤ m) (hm' : m ≤ 31) (hd : 1 ≤ d) (hd' : d ≤ 31) :
    strptime [.month, .lit '/', .day, .lit '/', .year] (pad2 m ++ '/' :: (pad2 d ++ '/' :: (pad4 y ++ []))) =
      if m ≤ 12 then Date.of? y m d else none := by
  rw [strptime, matchFormat_month (by decide) hm hm']
  by_cases h : m ≤ 12
  · rw [if_pos h, if_pos h, matchFormat_day (by decide) hd hd', matchFormat_year hy]
    simp [matchFormat]
  · rw [if_neg h, if_neg h]
    rfl

end strptime

end Strptime
end BankingAi
