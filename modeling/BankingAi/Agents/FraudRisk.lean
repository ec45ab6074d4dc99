import BankingAi.Agents.Fraud

/-!
# Fraud scores are monotone

A riskier transaction fires the rules of the other one and perhaps more. The clamp and the bands keep
the order of the sums.
-/

namespace BankingAi.FraudAgent

/-- The second input is at least as risky as the first, at the same hour. -/
structure Riskier (p q : FraudInput ℚ) : Prop where
  hour : q.transaction.hourOfDay = p.transaction.hourOfDay
  amount : p.transaction.amount ≤ q.transaction.amount
  age : q.transaction.accountAgeDays ≤ p.transaction.accountAgeDays
  beneficiary : p.transaction.isNewBeneficiary = true → q.transaction.isNewBeneficiary = true
  country : destination p.transaction ∈ highRiskCountries → destination q.transaction ∈ highRiskCountries
  logins : p.transaction.recentFailedLogins ≤ q.transaction.recentFailedLogins
  average : 0 < p.customerAvgAmount → 0 < q.customerAvgAmount ∧ q.customerAvgAmount ≤ p.customerAvgAmount

/-- A rule with its weight. -/
def FraudSignal.scored (s : FraudSignal) : String × ℕ := (s.rule, s.weight)

section rules

theorem fired_sublist {c d : Prop} [Decidable c] [Decidable d] {s t : FraudSignal} (h : c → d)
    (hst : FraudSignal.scored s = FraudSignal.scored t) :
    ((if c then [s] else []).map FraudSignal.scored).Sublist
      ((if d then [t] else []).map FraudSignal.scored) := by
  by_cases hc : c
  · rw [if_pos hc, if_pos (h hc), List.map_singleton, List.map_singleton, hst]
  · rw [if_neg hc]
    exact List.nil_sublist _

theorem map_append_sublist {l₁ l₂ r₁ r₂ : List FraudSignal}
    (hl : (l₁.map FraudSignal.scored).Sublist (l₂.map FraudSignal.scored))
    (hr : (r₁.map FraudSignal.scored).Sublist (r₂.map FraudSignal.scored)) :
    ((l₁ ++ r₁).map FraudSignal.scored).Sublist ((l₂ ++ r₂).map FraudSignal.scored) := by
  rw [List.map_append, List.map_append]
  exact hl.append hr

variable {p q : FraudInput ℚ} (h : Riskier p q)
include h

theorem amountSignals_sublist :
    ((amountSignals p).map FraudSignal.scored).Sublist ((amountSignals q).map FraudSignal.scored) := by
  have hamount := h.amount
  refine map_append_sublist (map_append_sublist (map_append_sublist ?_ ?_) ?_) ?_
  · exact fired_sublist (fun hlarge => le_trans hlarge hamount) rfl
  · refine fired_sublist (fun ⟨hpos, hanomaly⟩ => ?_) rfl
    obtain ⟨hpos', hle⟩ := h.average hpos
    refine ⟨hpos', ?_⟩
    calc (5 : ℚ) * q.customerAvgAmount ≤ 5 * p.customerAvgAmount := by linarith
      _ < p.transaction.amount := hanomaly
      _ ≤ q.transaction.amount := hamount
  · exact fired_sublist (fun hnew => lt_of_le_of_lt h.age hnew) rfl
  · exact fired_sublist (fun ⟨hnew, hlarge⟩ => ⟨h.beneficiary hnew, le_trans hlarge hamount⟩) rfl

theorem destinationSignals_sublist :
    ((destinationSignals p.transaction).map FraudSignal.scored).Sublist
      ((destinationSignals q.transaction).map FraudSignal.scored) :=
  fired_sublist h.country rfl

theorem behaviourSignals_sublist :
    ((behaviourSignals p.transaction).map FraudSignal.scored).Sublist
      ((behaviourSignals q.transaction).map FraudSignal.scored) := by
  refine map_append_sublist ?_ ?_
  · exact fired_sublist (fun hburst => le_trans hburst h.logins) rfl
  · refine fired_sublist (fun ⟨hlow, hhigh, hlarge⟩ => ?_) rfl
    rw [h.hour]
    exact ⟨hlow, hhigh, le_trans hlarge h.amount⟩

theorem signals_sublist :
    ((run p).signals.map FraudSignal.scored).Sublist ((run q).signals.map FraudSignal.scored) :=
  map_append_sublist (map_append_sublist (amountSignals_sublist h) (destinationSignals_sublist h))
    (behaviourSignals_sublist h)

theorem rules_subset :
    (run p).signals.map FraudSignal.rule ⊆ (run q).signals.map FraudSignal.rule := by
  have hmap := ((signals_sublist h).map Prod.fst).subset
  rwa [List.map_map, List.map_map] at hmap

theorem score_le : (run p).score ≤ (run q).score := by
  have hmap := (signals_sublist h).map Prod.snd
  rw [List.map_map, List.map_map] at hmap
  exact min_le_min le_rfl (hmap.sum_le_sum fun _ _ => Nat.zero_le _)

end rules

theorem scoreToRisk_mono {a b : ℕ} (h : a ≤ b) : scoreToRisk a ≤ scoreToRisk b := by
  unfold scoreToRisk
  split_ifs <;> first | omega | decide

theorem scoreToRisk_review {score : ℕ} : scoreToRisk score ∈ [RiskLevel.high, .critical] ↔ 45 ≤ score := by
  unfold scoreToRisk
  split_ifs <;> simp <;> omega

theorem riskLevel_eq (payload : FraudInput ℚ) : (run payload).riskLevel = scoreToRisk (run payload).score := rfl

theorem score_eq (payload : FraudInput ℚ) :
    (run payload).score = min 100 ((run payload).signals.map FraudSignal.weight).sum := rfl

theorem requiresHumanReview_iff (payload : FraudInput ℚ) :
    (run payload).requiresHumanReview = true ↔ 45 ≤ (run payload).score := by
  unfold run
  dsimp only
  rw [decide_eq_true_iff, scoreToRisk_review]

theorem score_le_hundred (payload : FraudInput ℚ) : (run payload).score ≤ 100 := by
  rw [score_eq]
  exact min_le_left _ _

/-- A riskier transaction fires more rules and is scored, rated and reviewed at least as strictly; a
score is at most 100, and from 45 on a human reviews. -/
theorem fraud_monotone :
    (∀ p q : FraudInput ℚ, Riskier p q →
      (run p).signals.map FraudSignal.rule ⊆ (run q).signals.map FraudSignal.rule ∧
        (run p).score ≤ (run q).score ∧ (run p).riskLevel ≤ (run q).riskLevel ∧
        ((run p).requiresHumanReview = true → (run q).requiresHumanReview = true)) ∧
    ∀ payload : FraudInput ℚ, (run payload).score ≤ 100 ∧
      ((run payload).requiresHumanReview = true ↔ 45 ≤ (run payload).score) := by
  refine ⟨fun p q h => ?_, fun payload => ⟨score_le_hundred payload, requiresHumanReview_iff payload⟩⟩
  have hscore := score_le h
  refine ⟨rules_subset h, hscore, ?_, ?_⟩
  · rw [riskLevel_eq, riskLevel_eq]
    exact scoreToRisk_mono hscore
  · rw [requiresHumanReview_iff, requiresHumanReview_iff]
    exact fun hreview => hreview.trans hscore

/-- A night transfer and a larger one from a newer account. -/
def nightTransfer (amount : ℚ) (age : ℕ) (h : 0 ≤ amount) : FraudInput ℚ where
  transaction := ⟨amount, "USD", age, false, none, 2, 0, h⟩
  customerAvgAmount := 0
  avg_nonneg := le_rfl

theorem fraud_monotone_night :
    (run (nightTransfer 500 400 (by norm_num))).score ≤ (run (nightTransfer 12000 10 (by norm_num))).score :=
  (fraud_monotone.1 (nightTransfer 500 400 (by norm_num)) (nightTransfer 12000 10 (by norm_num))
    { hour := rfl
      amount := show (500 : ℚ) ≤ 12000 by norm_num
      age := show 10 ≤ 400 by decide
      beneficiary := id
      country := id
      logins := le_rfl
      average := fun h => absurd h (lt_irrefl _) }).2.1

end BankingAi.FraudAgent
