import BankingAi.Agents.Affordability

/-!
# The payment in machine arithmetic

The machine rounds the sum `1 + r`. A rate so small that the sum is one again leaves the payment without
a divisor, although the guard for a rate of zero has let it pass.
-/

namespace BankingAi

/-- The nearest integer, a tie to the even one. -/
def nearestEven (x : ℚ) : ℤ :=
  let below := ⌊x⌋
  let rest := x - below
  if rest < 1 / 2 then below else if 1 / 2 < rest then below + 1 else if below % 2 = 0 then below else below + 1

/-- The nearest multiple of `2 ^ -52`, a tie to the even one. -/
def nearestMultiple (x : ℚ) : ℚ := nearestEven (x * 2 ^ 52) / 2 ^ 52

/-- What is relied on of the machine: the sum is the nearest multiple, the quotient stays in its range,
and a power is one exactly for the base one. -/
structure MachineArithmetic extends LoanArithmetic where
  quotient_mem : ∀ rate, 0 ≤ rate → rate ≤ 1 → 0 ≤ quotient rate ∧ quotient rate ≤ 1 / 12
  sum_eq : ∀ r, 0 ≤ r → r ≤ 1 / 12 → sum r = nearestMultiple (1 + r)
  power_one : ∀ n, power 1 n = 1
  one_lt_power : ∀ x n, 1 < x → 0 < n → 1 < power x n

section rounding

theorem le_nearestEven (x : ℚ) : ⌊x⌋ ≤ nearestEven x := by
  unfold nearestEven
  dsimp only
  split_ifs <;> omega

theorem nearestEven_of_le {m : ℤ} {y : ℚ} (hm : m % 2 = 0) (h0 : 0 ≤ y) (hy : y ≤ 1 / 2) :
    nearestEven (m + y) = m := by
  have hfloor : ⌊(m : ℚ) + y⌋ = m := Int.floor_eq_iff.2 ⟨by linarith, by linarith⟩
  unfold nearestEven
  rw [hfloor]
  dsimp only
  rw [add_sub_cancel_left, if_neg (not_lt.2 hy), if_pos hm, ite_self]

theorem lt_nearestEven {m : ℤ} {y : ℚ} (hy : 1 / 2 < y) : m < nearestEven (m + y) := by
  have hfloor : m ≤ ⌊(m : ℚ) + y⌋ := Int.le_floor.2 (by linarith)
  rcases hfloor.lt_or_eq with hlt | heq
  · exact hlt.trans_le (le_nearestEven _)
  · unfold nearestEven
    rw [← heq]
    dsimp only
    rw [add_sub_cancel_left, if_neg (not_lt.2 hy.le), if_pos hy]
    exact lt_add_one m

theorem scaled_eq (r : ℚ) : (1 + r) * 2 ^ 52 = ((2 ^ 52 : ℤ) : ℚ) + r * 2 ^ 52 := by
  push_cast
  ring

/-- A summand up to half of the last place is lost. -/
theorem nearestMultiple_of_le {r : ℚ} (h0 : 0 ≤ r) (hr : r ≤ 1 / 2 ^ 53) : nearestMultiple (1 + r) = 1 := by
  have hhalf : r * 2 ^ 52 ≤ 1 / 2 := by linarith
  unfold nearestMultiple
  rw [scaled_eq, nearestEven_of_le (by decide) (by positivity) hhalf]
  norm_num

theorem one_lt_nearestMultiple {r : ℚ} (hr : 1 / 2 ^ 53 < r) : 1 < nearestMultiple (1 + r) := by
  have hhalf : 1 / 2 < r * 2 ^ 52 := by linarith
  have hlt := @lt_nearestEven (2 ^ 52) _ hhalf
  have hcast : ((2 ^ 52 : ℤ) : ℚ) < nearestEven ((1 + r) * 2 ^ 52) := by
    rw [scaled_eq]
    exact Int.cast_lt.2 hlt
  unfold nearestMultiple
  rw [one_lt_div (by positivity)]
  exact_mod_cast hcast

end rounding

/-! ### The divisor -/

namespace LoanAgent

variable (ar : MachineArithmetic) (p : LoanInput)

/-- The divisor of the branch that `_monthly_payment` takes. -/
def divisor (ar : LoanArithmetic) (p : LoanInput) : ℚ :=
  if p.annualInterestRate = 0 then p.termMonths
  else ar.power (ar.sum (ar.quotient p.annualInterestRate)) p.termMonths - 1

/-- The rate is zero, or its twelfth counts in the sum with one. -/
def RateCounts (ar : LoanArithmetic) (p : LoanInput) : Prop :=
  p.annualInterestRate = 0 ∨ 1 / 2 ^ 53 < ar.quotient p.annualInterestRate

theorem divisor_ne_zero_iff : divisor ar.toLoanArithmetic p ≠ 0 ↔ RateCounts ar.toLoanArithmetic p := by
  have hterm : (p.termMonths : ℚ) ≠ 0 := Nat.cast_ne_zero.2 p.term_mem.1.ne'
  obtain ⟨h0, hle⟩ := ar.quotient_mem _ p.rate_mem.1 p.rate_mem.2
  unfold divisor RateCounts
  by_cases hzero : p.annualInterestRate = 0
  · rw [if_pos hzero]
    exact iff_of_true hterm (.inl hzero)
  rw [if_neg hzero, or_iff_right hzero, ar.sum_eq _ h0 hle]
  by_cases hsmall : ar.quotient p.annualInterestRate ≤ 1 / 2 ^ 53
  · rw [nearestMultiple_of_le h0 hsmall, ar.power_one, sub_self]
    exact iff_of_false (fun h => h rfl) (not_lt.2 hsmall)
  · have hlarge := not_le.1 hsmall
    have hpower := ar.one_lt_power _ p.termMonths (one_lt_nearestMultiple hlarge) p.term_mem.1
    exact iff_of_true (by linarith) hlarge

theorem run_isOk_iff (ar : LoanArithmetic) : (∃ result, run ar p = .ok result) ↔ divisor ar p ≠ 0 := by
  have hpayment : monthlyPayment ar p.loanAmount p.annualInterestRate p.termMonths =
      trueDiv (if p.annualInterestRate = 0 then p.loanAmount
        else p.loanAmount * (ar.quotient p.annualInterestRate *
          ar.power (ar.sum (ar.quotient p.annualInterestRate)) p.termMonths)) (divisor ar p) := by
    unfold monthlyPayment divisor
    split_ifs <;> rfl
  have hrun : run ar p = (monthlyPayment ar p.loanAmount p.annualInterestRate p.termMonths).map fun payment =>
      report ⟨payment, (p.monthlyDebt + payment) / p.monthlyIncome,
        p.monthlyIncome - p.monthlyExpenses - (p.monthlyDebt + payment)⟩ := by
    unfold run affordability
    cases monthlyPayment ar p.loanAmount p.annualInterestRate p.termMonths with
    | error e => rfl
    | ok payment =>
      show (trueDiv (p.monthlyDebt + payment) p.monthlyIncome >>= _ : Except Exn Affordability).map report = _
      rw [trueDiv_of_ne p.income_pos.ne']
      rfl
  rw [hrun, hpayment]
  by_cases hdivisor : divisor ar p = 0
  · rw [trueDiv, if_pos hdivisor]
    exact iff_of_false (by rintro ⟨_, ⟨⟩⟩) fun h => h hdivisor
  · rw [trueDiv_of_ne hdivisor]
    exact iff_of_true ⟨_, rfl⟩ hdivisor

/-- On an admitted input the divisor is not zero, and the step does not crash, exactly when the rate is
zero or counts in the sum. -/
theorem loan_divisor_iff (latencyMs : ℕ) :
    (divisor ar.toLoanArithmetic p ≠ 0 ∧
      ((loanAgent ar.toLoanArithmetic).execute p latencyMs).status = .succeeded) ↔
      RateCounts ar.toLoanArithmetic p := by
  rw [BaseAgent.execute_succeeded_iff]
  show _ ∧ (∃ result, run ar.toLoanArithmetic p = .ok result) ↔ _
  rw [run_isOk_iff, and_self, divisor_ne_zero_iff]

/-- Exact arithmetic but for the sum. -/
def roundedSum : MachineArithmetic where
  quotient rate := rate / 12
  sum r := nearestMultiple (1 + r)
  power x n := x ^ n
  quotient_mem rate h0 h1 := ⟨by linarith, by linarith⟩
  sum_eq _ _ _ := rfl
  power_one n := one_pow n
  one_lt_power _ _ hx hn := one_lt_pow₀ hx hn.ne'

/-- A rate of `10 ^ -16` passes the guard and leaves a divisor of zero. -/
theorem tiny_rate_crashes :
    divisor roundedSum.toLoanArithmetic (twoYearLoan (1 / 10 ^ 16) (by norm_num)) = 0 := by
  by_contra h
  have hcounts := (divisor_ne_zero_iff roundedSum (twoYearLoan (1 / 10 ^ 16) (by norm_num))).1 h
  rcases hcounts with hzero | hlarge
  · exact absurd (show (1 / 10 ^ 16 : ℚ) = 0 from hzero) (by norm_num)
  · exact absurd (show (1 / 2 ^ 53 : ℚ) < 1 / 10 ^ 16 / 12 from hlarge) (by norm_num)

end LoanAgent
end BankingAi
