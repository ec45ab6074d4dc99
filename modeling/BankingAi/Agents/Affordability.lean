import BankingAi.Agents.Loan
import BankingAi.Lib.Annuity

/-!
# Payments and affordability

The payment is the principal over the annuity of the loan, with or without interest. So it pays the loan
off, and it goes up with the rate and down with the term.
-/

namespace BankingAi.LoanAgent

theorem trueDiv_of_ne {x y : ℚ} (h : y ≠ 0) : trueDiv x y = .ok (x / y) := if_neg h

/-! ### The payment -/

section payment

variable {principal rate : ℚ} {n : ℕ} (hrate : 0 ≤ rate) (hn : 0 < n)
include hrate hn

theorem monthlyPayment_eq :
    monthlyPayment .exact principal rate n = .ok (principal / annuity (rate / 12) n) := by
  have hn' : (n : ℚ) ≠ 0 := Nat.cast_ne_zero.2 hn.ne'
  unfold monthlyPayment
  by_cases hzero : rate = 0
  · rw [if_pos hzero, trueDiv_of_ne hn', hzero, zero_div, annuity_zero_rate]
  · have hr : 0 < rate / 12 := div_pos (lt_of_le_of_ne hrate (Ne.symm hzero)) (by norm_num)
    have hfactor : 1 < (1 + rate / 12) ^ n := one_lt_pow₀ (by linarith) hn.ne'
    rw [if_neg hzero]
    show trueDiv (principal * (rate / 12 * (1 + rate / 12) ^ n)) ((1 + rate / 12) ^ n - 1) = _
    rw [trueDiv_of_ne (by linarith), annuity_eq hr.ne' (by linarith), div_div_eq_mul_div]

end payment

/-- The payment pays the loan off at the end of the term and not before, and is at least the share of
the principal, with equality only without interest. -/
theorem payment_amortises (principal rate : ℚ) (n : ℕ) (hprincipal : 0 < principal)
    (hrate : 0 ≤ rate ∧ rate ≤ 1) (hn : 1 ≤ n) :
    ∃ payment, monthlyPayment .exact principal rate n = .ok payment ∧
      balanceAfter principal (rate / 12) payment n = 0 ∧
      (∀ k < n, 0 < balanceAfter principal (rate / 12) payment k) ∧
      principal / n ≤ payment ∧ (payment = principal / n ↔ rate = 0) := by
  have hr : 0 ≤ rate / 12 := div_nonneg hrate.1 (by norm_num)
  have hpos := annuity_pos hr hn
  have hlen : (0 : ℚ) < n := Nat.cast_pos.2 hn
  have hworth : principal = principal / annuity (rate / 12) n * annuity (rate / 12) n :=
    (div_mul_cancel₀ _ hpos.ne').symm
  have hbalance : ∀ k ≤ n, balanceAfter principal (rate / 12) (principal / annuity (rate / 12) n) k =
      principal / annuity (rate / 12) n * annuity (rate / 12) (n - k) := fun k hk => by
    conv_lhs => rw [hworth, mul_div_cancel_right₀ _ hpos.ne']
    exact balanceAfter_eq (by linarith) hk
  refine ⟨_, monthlyPayment_eq hrate.1 hn, ?_, fun k hk => ?_, ?_, ?_⟩
  · rw [hbalance n le_rfl, Nat.sub_self, annuity, mul_zero]
  · rw [hbalance k hk.le]
    exact mul_pos (div_pos hprincipal hpos) (annuity_pos hr (Nat.sub_pos_of_lt hk))
  · exact div_le_div_of_nonneg_left hprincipal.le hpos (annuity_le_length hr n)
  · have hzero : rate / 12 = 0 ↔ rate = 0 := by simp
    rw [div_eq_div_iff hpos.ne' hlen.ne', mul_right_inj' hprincipal.ne', eq_comm, annuity_eq_length hr hn, hzero]

theorem payment_amortises_quarter :
    ∃ payment, monthlyPayment .exact 1000 (12 / 100) 3 = .ok payment ∧
      balanceAfter 1000 ((12 / 100) / 12) payment 3 = 0 ∧
      (∀ k < 3, 0 < balanceAfter 1000 ((12 / 100) / 12) payment k) ∧
      1000 / ((3 : ℕ) : ℚ) ≤ payment ∧ (payment = 1000 / ((3 : ℕ) : ℚ) ↔ (12 / 100 : ℚ) = 0) :=
  payment_amortises 1000 (12 / 100) 3 (by norm_num) (by norm_num) (by decide)

/-! ### Worse applications -/

/-- The second application is at most as affordable as the first, input by input. -/
structure Worse (p q : LoanInput) : Prop where
  income : q.monthlyIncome ≤ p.monthlyIncome
  debt : p.monthlyDebt ≤ q.monthlyDebt
  expenses : p.monthlyExpenses ≤ q.monthlyExpenses
  amount : p.loanAmount ≤ q.loanAmount
  rate : p.annualInterestRate ≤ q.annualInterestRate
  term : q.termMonths ≤ p.termMonths

/-- The payment of an application. -/
def payment (p : LoanInput) : ℚ := p.loanAmount / annuity (p.annualInterestRate / 12) p.termMonths

theorem payment_pos (p : LoanInput) : 0 < payment p :=
  div_pos p.amount_pos (annuity_pos (div_nonneg p.rate_mem.1 (by norm_num)) p.term_mem.1)

/-- What the agent computes for a valid application. -/
def afforded (p : LoanInput) : Affordability where
  payment := payment p
  dti := (p.monthlyDebt + payment p) / p.monthlyIncome
  disposable := p.monthlyIncome - p.monthlyExpenses - (p.monthlyDebt + payment p)

theorem affordability_eq (p : LoanInput) : affordability .exact p = .ok (afforded p) := by
  have hdti := trueDiv_of_ne (x := p.monthlyDebt + payment p) p.income_pos.ne'
  unfold affordability
  rw [monthlyPayment_eq p.rate_mem.1 p.term_mem.1]
  show (trueDiv (p.monthlyDebt + payment p) p.monthlyIncome >>= _) = _
  rw [hdti]
  rfl

theorem run_eq (p : LoanInput) : run .exact p = .ok (report (afforded p)) := by
  rw [run, affordability_eq]
  rfl

section worse

variable {p q : LoanInput} (h : Worse p q)
include h

/-- A larger loan at a higher rate over a shorter term costs more a month. -/
theorem payment_mono : payment p ≤ payment q := by
  have hr : 0 ≤ p.annualInterestRate / 12 := div_nonneg p.rate_mem.1 (by norm_num)
  have hrate : p.annualInterestRate / 12 ≤ q.annualInterestRate / 12 :=
    div_le_div_of_nonneg_right h.rate (by norm_num)
  have hannuity : annuity (q.annualInterestRate / 12) q.termMonths ≤
      annuity (p.annualInterestRate / 12) p.termMonths :=
    calc annuity (q.annualInterestRate / 12) q.termMonths
        ≤ annuity (p.annualInterestRate / 12) q.termMonths := annuity_anti hr hrate _
      _ ≤ annuity (p.annualInterestRate / 12) p.termMonths := (annuity_strictMono hr).monotone h.term
  exact div_le_div₀ q.amount_pos.le h.amount (annuity_pos (hr.trans hrate) q.term_mem.1) hannuity

theorem dti_mono : (afforded p).dti ≤ (afforded q).dti := by
  have hpayment := payment_mono h
  have hdebt := h.debt
  have hpos := payment_pos q
  have hnonneg := q.debt_nonneg
  exact div_le_div₀ (by linarith) (by linarith) q.income_pos h.income

theorem disposable_anti : (afforded q).disposable ≤ (afforded p).disposable := by
  have hpayment := payment_mono h
  have hdebt := h.debt
  have hincome := h.income
  have hexpenses := h.expenses
  show q.monthlyIncome - q.monthlyExpenses - (q.monthlyDebt + payment q) ≤
    p.monthlyIncome - p.monthlyExpenses - (p.monthlyDebt + payment p)
  linarith

end worse

theorem riskOf_mono {a b : Affordability} (hdti : a.dti ≤ b.dti) (hdisposable : b.disposable ≤ a.disposable) :
    riskOf a ≤ riskOf b := by
  have hle : ∀ r : RiskLevel, RiskLevel.low ≤ r := fun r => by cases r <;> decide
  unfold riskOf
  by_cases hhigh : a.dti ≥ dtiMax ∨ a.disposable < 0
  · rw [if_pos hhigh, if_pos (hhigh.imp (le_trans · hdti) (lt_of_le_of_lt hdisposable))]
  · rw [if_neg hhigh]
    by_cases hmedium : a.dti ≥ dtiWarn
    · rw [if_pos hmedium, if_pos (le_trans hmedium hdti)]
      split_ifs
      · decide
      · exact le_rfl
    · rw [if_neg hmedium]
      exact hle _

/-- A worse application has the higher payment and debt ratio, the lower disposable income and at
least the risk. -/
theorem loan_risk_monotone (p q : LoanInput) (h : Worse p q) :
    ∃ a b x y, affordability .exact p = .ok a ∧ affordability .exact q = .ok b ∧
      run .exact p = .ok x ∧ run .exact q = .ok y ∧
      a.payment ≤ b.payment ∧ a.dti ≤ b.dti ∧ b.disposable ≤ a.disposable ∧ x.riskLevel ≤ y.riskLevel := by
  have hrisk := riskOf_mono (dti_mono h) (disposable_anti h)
  exact ⟨_, _, _, _, affordability_eq p, affordability_eq q, run_eq p, run_eq q, payment_mono h, dti_mono h,
    disposable_anti h, hrisk⟩

/-- A loan of 12000 over two years. -/
def twoYearLoan (rate : ℚ) (hrate : 0 ≤ rate ∧ rate ≤ 1) : LoanInput where
  monthlyIncome := 4000
  monthlyDebt := 300
  monthlyExpenses := 1200
  loanAmount := 12000
  termMonths := 24
  annualInterestRate := rate
  income_pos := by norm_num
  debt_nonneg := by norm_num
  expenses_nonneg := by norm_num
  amount_pos := by norm_num
  term_mem := by decide
  rate_mem := hrate

theorem loan_risk_monotone_interest :
    ∃ a b x y, affordability .exact (twoYearLoan 0 (by norm_num)) = .ok a ∧
      affordability .exact (twoYearLoan (1 / 10) (by norm_num)) = .ok b ∧
      run .exact (twoYearLoan 0 (by norm_num)) = .ok x ∧ run .exact (twoYearLoan (1 / 10) (by norm_num)) = .ok y ∧
      a.payment ≤ b.payment ∧ a.dti ≤ b.dti ∧ b.disposable ≤ a.disposable ∧ x.riskLevel ≤ y.riskLevel :=
  loan_risk_monotone _ _
    { income := le_rfl, debt := le_rfl, expenses := le_rfl, amount := le_rfl
      rate := show (0 : ℚ) ≤ 1 / 10 by norm_num, term := le_rfl }

end BankingAi.LoanAgent
