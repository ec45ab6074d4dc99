import Mathlib.Algebra.Order.Ring.Rat
import Mathlib.Data.Rat.Floor
import BankingAi.Agents.Base
import BankingAi.Lib.PythonStr

/-!
# The fraud agent

The rules that a transaction fires, their weights, and the score, risk and recommendation made of
them. Amounts are of any ordered type with a product. A transaction carries what its validators check.
-/

namespace BankingAi

/-- Ordered amounts with a product; `fixed` is `format(amount, ".<decimals>f")`. -/
class Amount (α : Type) extends LinearOrder α, Mul α where
  ofNat : ℕ → α
  fixed : ℕ → α → String

/-- The nearest integer of a non-negative rational, a tie to the even one. -/
def roundHalfEven (q : ℚ) : ℕ :=
  let n := ⌊q⌋.toNat
  if q - n < 1 / 2 then n else if 1 / 2 < q - n then n + 1 else n + n % 2

/-- `format(q, ".<decimals>f")`. -/
def fixedRat (decimals : ℕ) (q : ℚ) : String :=
  let n := roundHalfEven (|q| * 10 ^ decimals)
  let fraction := toString (n % 10 ^ decimals)
  (if q < 0 then "-" else "") ++ toString (n / 10 ^ decimals) ++
    if decimals = 0 then ""
    else "." ++ String.ofList (List.replicate (decimals - fraction.length) '0') ++ fraction

instance : Amount ℚ where
  ofNat n := n
  fixed := fixedRat

structure Transaction (α : Type) [Amount α] where
  amount : α
  currency : String
  accountAgeDays : ℕ
  isNewBeneficiary : Bool
  beneficiaryCountry : Option String
  hourOfDay : Fin 24
  recentFailedLogins : ℕ
  amount_nonneg : Amount.ofNat 0 ≤ amount

structure FraudInput (α : Type) [Amount α] where
  transaction : Transaction α
  customerAvgAmount : α
  avg_nonneg : Amount.ofNat 0 ≤ customerAvgAmount

structure FraudSignal where
  rule : String
  weight : ℕ
  reason : String

structure FraudResult where
  score : ℕ
  riskLevel : RiskLevel
  signals : List FraudSignal
  requiresHumanReview : Bool
  recommendation : String

namespace FraudAgent

def highRiskCountries : List String := ["XX", "ZZ"]

def scoreToRisk (score : ℕ) : RiskLevel :=
  if score ≥ 70 then .critical
  else if score ≥ 45 then .high
  else if score ≥ 20 then .medium
  else .low

def recommendation : RiskLevel → String
  | .low => "Auto-approve; no action required."
  | .medium => "Allow with monitoring; no human review required."
  | .high => "Hold and route to a human reviewer before settlement."
  | .critical => "Block pending mandatory human investigation."

section rules
variable {α : Type} [Amount α]

/-- `(txn.beneficiary_country or "").upper()`. -/
def destination (txn : Transaction α) : String := Str.upper (txn.beneficiaryCountry.getD "")

/-- The rules before the destination: amount, anomaly, age of the account, new beneficiary. -/
def amountSignals (payload : FraudInput α) : List FraudSignal :=
  let txn := payload.transaction
  (if txn.amount ≥ Amount.ofNat 10000 then
    [⟨"large_absolute_amount", 30, s!"Amount {Amount.fixed 2 txn.amount} {txn.currency} exceeds 10000."⟩]
  else []) ++
  (if payload.customerAvgAmount > Amount.ofNat 0 ∧
      txn.amount > Amount.ofNat 5 * payload.customerAvgAmount then
    [⟨"amount_anomaly", 25,
      s!"Amount is >5x the customer average ({Amount.fixed 2 payload.customerAvgAmount})."⟩]
  else []) ++
  (if txn.accountAgeDays < 30 then
    [⟨"new_account", 15, s!"Account is only {txn.accountAgeDays} day(s) old."⟩]
  else []) ++
  (if txn.isNewBeneficiary ∧ txn.amount ≥ Amount.ofNat 1000 then
    [⟨"new_beneficiary_large", 15, "Large transfer to a newly added beneficiary."⟩]
  else [])

def destinationSignals (txn : Transaction α) : List FraudSignal :=
  if destination txn ∈ highRiskCountries then
    [⟨"high_risk_destination", 20, s!"Beneficiary country {destination txn} is on the higher-risk list."⟩]
  else []

/-- The rules after the destination: failed logins and the hour. -/
def behaviourSignals (txn : Transaction α) : List FraudSignal :=
  (if txn.recentFailedLogins ≥ 3 then
    [⟨"failed_login_burst", 20, s!"{txn.recentFailedLogins} recent failed logins before transaction."⟩]
  else []) ++
  (if 1 ≤ txn.hourOfDay.val ∧ txn.hourOfDay.val < 5 ∧ txn.amount ≥ Amount.ofNat 1000 then
    [⟨"odd_hour_large", 10, "Large transaction during unusual hours (01:00-04:59)."⟩]
  else [])

def run (payload : FraudInput α) : FraudResult :=
  let txn := payload.transaction
  let signals := amountSignals payload ++ destinationSignals txn ++ behaviourSignals txn
  let score := min 100 (signals.map FraudSignal.weight).sum
  let risk := scoreToRisk score
  { score
    riskLevel := risk
    signals
    requiresHumanReview := risk ∈ [.high, .critical]
    recommendation := recommendation risk }

end rules
end FraudAgent

def fraudAgent {α : Type} [Amount α] : BaseAgent (FraudInput α) FraudResult :=
  ⟨"fraud_agent", none, fun payload => .ok (FraudAgent.run payload)⟩

end BankingAi
