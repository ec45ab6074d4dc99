import Mathlib
import BankingAi.Lib.PythonDate

/-!
# The calendar

Dates in their order, and the anniversaries of a date. An anniversary is a year, a month and a day and no `Date`:
the years of `datetime.date` end, anniversaries go on.
-/

namespace BankingAi

namespace Date

/-- The year, the month and the day, compared in this order. -/
def key (d : Date) : ℕ ×ₗ ℕ ×ₗ ℕ := toLex (d.year, toLex (d.month, d.day))

theorem key_injective : Function.Injective key := by
  rintro ⟨y, m, d, h⟩ ⟨y', m', d', h'⟩ heq
  cases heq
  rfl

instance : LinearOrder Date := LinearOrder.lift' key key_injective

variable {d e dob reference : Date}

theorem lt_iff : d < e ↔
    d.year < e.year ∨ d.year = e.year ∧ (d.month < e.month ∨ d.month = e.month ∧ d.day < e.day) := by
  show d.key < e.key ↔ _
  simp [key, Prod.Lex.toLex_lt_toLex]

theorem le_iff : d ≤ e ↔
    d.year < e.year ∨ d.year = e.year ∧ (d.month < e.month ∨ d.month = e.month ∧ d.day ≤ e.day) := by
  show d.key ≤ e.key ↔ _
  simp [key, Prod.Lex.toLex_le_toLex]

/-- The next day is in the same year, or the first of the next one. -/
theorem covBy_cases (h : d ⋖ e) : e.year = d.year ∨
    e.year = d.year + 1 ∧ d.month = 12 ∧ d.day = 31 ∧ e.month = 1 ∧ e.day = 1 := by
  obtain ⟨hlt, hnone⟩ := h
  obtain ⟨hy, hy', hm, hm', hd, hd'⟩ := d.valid
  obtain ⟨-, ey', em, -, ed, -⟩ := e.valid
  have hday := d.day_le
  rcases lt_iff.1 hlt with hyear | ⟨hyear, -⟩
  · -- neither the last day of this year nor the first of the next lies strictly between
    let last : Date := ⟨d.year, 12, 31, ⟨hy, hy', by omega, by omega, by omega, by simp [daysInMonth]⟩⟩
    let first : Date := ⟨d.year + 1, 1, 1, ⟨by omega, by omega, by omega, by omega, by omega, by simp [daysInMonth]⟩⟩
    have hlast : ¬ (d < last ∧ last < e) := fun h => hnone h.1 h.2
    have hfirst : ¬ (d < first ∧ first < e) := fun h => hnone h.1 h.2
    simp only [lt_iff, last, first, lt_irrefl, true_and, false_or] at hlast hfirst
    right
    omega
  · exact .inl hyear.symm

/-! ### Anniversaries -/

/-- Born on 29 February, in a year without that day. -/
def Shifted (dob : Date) (year : ℕ) : Prop := dob.month = 2 ∧ dob.day = 29 ∧ isLeap year = false

instance (dob : Date) (year : ℕ) : Decidable (dob.Shifted year) := inferInstanceAs (Decidable (_ ∧ _))

/-- The `n`-th anniversary: 1 March in place of a missing 29 February. -/
def anniversary (dob : Date) (n : ℕ) : ℕ ×ₗ ℕ ×ₗ ℕ :=
  if dob.Shifted (dob.year + n) then toLex (dob.year + n, toLex (3, 1))
  else toLex (dob.year + n, toLex (dob.month, dob.day))

theorem anniversary_le_iff {n : ℕ} : dob.anniversary n ≤ reference.key ↔
    dob.year + n < reference.year ∨ dob.year + n = reference.year ∧
      (dob.month < reference.month ∨ dob.month = reference.month ∧ dob.day ≤ reference.day) := by
  obtain ⟨-, -, -, -, hday, hday'⟩ := reference.valid
  unfold anniversary
  by_cases hshift : dob.Shifted (dob.year + n)
  · obtain ⟨hmonth, hbirth, hleap⟩ := hshift
    rw [if_pos ⟨hmonth, hbirth, hleap⟩]
    simp only [key, Prod.Lex.toLex_le_toLex, hmonth, hbirth]
    -- a February of that year has no 29th day
    have hfeb : dob.year + n = reference.year → reference.month = 2 → reference.day ≤ 28 := by
      intro hyear hfeb
      rw [hyear] at hleap
      simpa [daysInMonth, hfeb, hleap] using hday'
    omega
  · rw [if_neg hshift]
    simp [key, Prod.Lex.toLex_le_toLex]

/-! ### Ages -/

/-- An age counts the anniversaries reached: `age reference dob` is the number of the last one that is not after
the reference date, and it changes with the dates as a count of days gone by does. -/
structure CountsBirthdays (age : Date → Date → ℤ) : Prop where
  greatest : ∀ reference dob, dob ≤ reference →
    ∃ n : ℕ, age reference dob = n ∧ IsGreatest {n : ℕ | dob.anniversary n ≤ reference.key} n
  monotone : ∀ dob, Monotone fun reference => age reference dob
  antitone : ∀ reference, Antitone fun dob => age reference dob
  next_day : ∀ dob d e, d ⋖ e → age e dob ≤ age d dob + 1
  negative : ∀ reference dob, age reference dob < 0 ↔ reference < dob
  below : ∀ reference dob (n : ℕ), age reference dob < n ↔ reference.key < dob.anniversary n

end Date
end BankingAi
