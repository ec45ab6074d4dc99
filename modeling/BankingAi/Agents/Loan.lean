import BankingAi.Agents.Fraud
import BankingAi.Ai.Cost

/-!
# The loan agent

Affordability: the payment of the loan, the ratio of debt to income and the disposable income. The
arithmetic of the payment is given, exact or the machine's; the rest is exact.
-/

namespace BankingAi

/-- The operations of `_monthly_payment`: `annual_rate / 12.0`, `1 + r` and `**`. -/
structure LoanArithmetic where
  quotient : ℚ → ℚ
  sum : ℚ → ℚ
  power : ℚ → ℕ → ℚ

def LoanArithmetic.exact : LoanArithmetic where
  quotient rate := rate / 12
  sum r := 1 + r
  power x n := x ^ n

structure LoanInput where
  monthlyIncome : ℚ
  monthlyDebt : ℚ
  monthlyExpenses : ℚ
  loanAmount : ℚ
  termMonths : ℕ
  annualInterestRate : ℚ
  income_pos : 0 < monthlyIncome
  debt_nonneg : 0 ≤ monthlyDebt
  expenses_nonneg : 0 ≤ monthlyExpenses
  amount_pos : 0 < loanAmount
  term_mem : 0 < termMonths ∧ termMonths ≤ 480
  rate_mem : 0 ≤ annualInterestRate ∧ annualInterestRate ≤ 1

structure LoanResult where
  estimatedMonthlyPayment : ℚ
  dtiRatio : ℚ
  disposableAfterPayment : ℚ
  riskLevel : RiskLevel
  recommendation : String
  requiresHumanReview : Bool
  rationale : List String

namespace LoanAgent

def dtiWarn : ℚ := 36 / 100
def dtiMax : ℚ := 43 / 100

/-- `x / y`. -/
def trueDiv (x y : ℚ) : Except Exn ℚ :=
  if y = 0 then .error (.other "ZeroDivisionError" "float division by zero") else .ok (x / y)

def monthlyPayment (ar : LoanArithmetic) (principal annualRate : ℚ) (termMonths : ℕ) : Except Exn ℚ :=
  if annualRate = 0 then trueDiv principal termMonths
  else
    let r := ar.quotient annualRate
    let factor := ar.power (ar.sum r) termMonths
    trueDiv (principal * (r * factor)) (factor - 1)

/-- What the agent computes before it rounds. -/
structure Affordability where
  payment : ℚ
  dti : ℚ
  disposable : ℚ

def affordability (ar : LoanArithmetic) (payload : LoanInput) : Except Exn Affordability := do
  let payment ← monthlyPayment ar payload.loanAmount payload.annualInterestRate payload.termMonths
  let totalDebt := payload.monthlyDebt + payment
  let dti ← trueDiv totalDebt payload.monthlyIncome
  pure { payment, dti, disposable := payload.monthlyIncome - payload.monthlyExpenses - totalDebt }

def riskOf (a : Affordability) : RiskLevel :=
  if a.dti ≥ dtiMax ∨ a.disposable < 0 then .high
  else if a.dti ≥ dtiWarn then .medium
  else .low

/-- The recommendation that goes with a risk; a critical risk is never assigned. -/
def recommendationOf : RiskLevel → String
  | .high | .critical => "Decline or restructure: affordability thresholds exceeded."
  | .medium => "Refer for manual underwriting: elevated DTI."
  | .low => "Within affordability policy: recommend approval subject to sign-off."

/-- `format(q, ".<decimals>%")`. -/
def percent (decimals : ℕ) (q : ℚ) : String := fixedRat decimals (q * 100) ++ "%"

def report (a : Affordability) : LoanResult where
  estimatedMonthlyPayment := Ai.roundTo 2 a.payment
  dtiRatio := Ai.roundTo 4 a.dti
  disposableAfterPayment := Ai.roundTo 2 a.disposable
  riskLevel := riskOf a
  recommendation := recommendationOf (riskOf a)
  requiresHumanReview := true
  rationale :=
    [s!"Estimated monthly payment: {fixedRat 2 a.payment}.",
      s!"DTI ratio: {percent 2 a.dti} (warn ≥ {percent 0 dtiWarn}, max ≥ {percent 0 dtiMax}).",
      s!"Disposable income after payment: {fixedRat 2 a.disposable}."]

def run (ar : LoanArithmetic) (payload : LoanInput) : Except Exn LoanResult :=
  (affordability ar payload).map report

end LoanAgent

def loanAgent (ar : LoanArithmetic) : BaseAgent LoanInput LoanResult := ⟨"loan_agent", none, LoanAgent.run ar⟩

end BankingAi
