import BankingAi.Agents.KycDecision
import BankingAi.Lib.Calendar

/-!
# The age of an applicant

`ageOn` corrects the difference of the years by comparing month and day, which counts the birthdays reached; so
the agent takes an applicant for a minor until the 18th anniversary of the date of birth.
-/

namespace BankingAi.KycAgent

variable {d e dob reference : Date}

theorem le_ageOn_iff {n : ℕ} : (n : ℤ) ≤ ageOn reference dob ↔ dob.anniversary n ≤ reference.key := by
  rw [Date.anniversary_le_iff]
  unfold ageOn
  dsimp only
  split <;> omega

theorem ageOn_mono (h : d ≤ e) : ageOn d dob ≤ ageOn e dob := by
  rw [Date.le_iff] at h
  unfold ageOn
  dsimp only
  split <;> split <;> omega

theorem ageOn_anti (h : d ≤ e) : ageOn reference e ≤ ageOn reference d := by
  rw [Date.le_iff] at h
  unfold ageOn
  dsimp only
  split <;> split <;> omega

theorem ageOn_next (h : d ⋖ e) : ageOn e dob ≤ ageOn d dob + 1 := by
  obtain ⟨-, -, hm, hm', hd, -⟩ := dob.valid
  have hday := dob.day_le
  have hcases := Date.covBy_cases h
  unfold ageOn
  dsimp only
  split <;> split <;> omega

theorem ageOn_neg_iff : ageOn reference dob < 0 ↔ reference < dob := by
  rw [Date.lt_iff]
  unfold ageOn
  dsimp only
  split <;> omega

theorem countsBirthdays_ageOn : Date.CountsBirthdays ageOn where
  greatest reference dob h := by
    have hage : 0 ≤ ageOn reference dob := not_lt.1 fun hneg => absurd (ageOn_neg_iff.1 hneg) (not_lt.2 h)
    obtain ⟨n, hn⟩ := Int.eq_ofNat_of_zero_le hage
    refine ⟨n, hn, le_ageOn_iff.1 hn.ge, fun m hm => ?_⟩
    have := le_ageOn_iff.2 hm
    omega
  monotone _ _ _ h := ageOn_mono h
  antitone _ _ _ h := ageOn_anti h
  next_day _ _ _ h := ageOn_next h
  negative _ _ := ageOn_neg_iff
  below reference dob n := by rw [← not_le, le_ageOn_iff, not_le]

section run

variable {repr : String → String} {clock : Date} {payload : KycInput}

/-- A date that can be read makes the agent find a minor by the age alone. -/
theorem under_age_iff {dob : Date} (hdob : parseDate (text (lowerKeys payload.profile) "date_of_birth") = some dob) :
    "Applicant is under 18." ∈ (run repr clock payload).inconsistencies ↔
      ageOn (payload.today.getD clock) dob < 18 := by
  have hcheck : "Applicant is under 18." ∈
      (checkDob repr (payload.today.getD clock) (lowerKeys payload.profile)).inconsistencies ↔
        ageOn (payload.today.getD clock) dob < 18 := by
    by_cases hage : ageOn (payload.today.getD clock) dob < 18
    · simp [checkDob, text_dob_ne hdob, hdob, hage]
    · by_cases hover : ageOn (payload.today.getD clock) dob > 120
      · simp [checkDob, text_dob_ne hdob, hdob, hage, hover]
      · simp [checkDob, text_dob_ne hdob, hdob, hage, hover]
  have hother : ∀ {P : Prop} [Decidable P] {m : String}, m ≠ "Applicant is under 18." →
      "Applicant is under 18." ∉ (if P then [m] else []) := by
    intro P _ m hm
    split
    · simpa using hm.symm
    · simp
  unfold run
  dsimp only
  rw [List.mem_append, List.mem_append, hcheck]
  constructor
  · rintro ((hname | hnumber) | hage)
    · exact absurd hname (hother (by decide))
    · exact absurd hnumber (hother (by decide))
    · exact hage
  · exact .inr

end run

/-- An age counts birthdays, on all dates; so an applicant is under age, for the agent, exactly before the 18th
anniversary of the date of birth, and always with a date of birth in the future. -/
theorem age_counts_birthdays :
    Date.CountsBirthdays ageOn ∧
      ∀ (repr : String → String) (clock : Date) (payload : KycInput) (dob : Date),
        parseDate (text (lowerKeys payload.profile) "date_of_birth") = some dob →
          ("Applicant is under 18." ∈ (run repr clock payload).inconsistencies ↔
            (payload.today.getD clock).key < dob.anniversary 18) ∧
          (payload.today.getD clock < dob → "Applicant is under 18." ∈ (run repr clock payload).inconsistencies) := by
  refine ⟨countsBirthdays_ageOn, fun repr clock payload dob hdob => ?_⟩
  rw [under_age_iff hdob]
  refine ⟨countsBirthdays_ageOn.below _ _ 18, fun hfuture => ?_⟩
  have := ageOn_neg_iff.2 hfuture
  omega

end BankingAi.KycAgent
