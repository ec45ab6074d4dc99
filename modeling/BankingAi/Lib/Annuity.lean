import Mathlib.Algebra.Order.Field.Basic
import Mathlib.Tactic.FieldSimp
import Mathlib.Tactic.Linarith
import Mathlib.Tactic.Positivity
import Mathlib.Tactic.Ring

/-!
# Annuities

`annuity r n` is what `n` payments of one, the first after one period, are worth now at the rate `r`. A
loan that is repaid by equal payments is worth the payment times the annuity, at every moment for the
payments that are left.
-/

namespace BankingAi

section annuity
variable {K : Type*} [Field K]

def annuity (r : K) : ℕ → K
  | 0 => 0
  | n + 1 => (annuity r n + 1) / (1 + r)

/-- The balance after `k` periods of interest and payment. -/
def balanceAfter (principal r payment : K) : ℕ → K
  | 0 => principal
  | k + 1 => balanceAfter principal r payment k * (1 + r) - payment

theorem annuity_succ_mul {r : K} (hr : 1 + r ≠ 0) (n : ℕ) : annuity r (n + 1) * (1 + r) = annuity r n + 1 :=
  div_mul_cancel₀ _ hr

@[simp] theorem annuity_zero_rate (n : ℕ) : annuity (0 : K) n = n := by
  induction n with
  | zero => simp [annuity]
  | succ n ih => rw [annuity, ih, add_zero, div_one, Nat.cast_succ]

theorem annuity_eq {r : K} (hr : r ≠ 0) (h1 : 1 + r ≠ 0) (n : ℕ) :
    annuity r n = ((1 + r) ^ n - 1) / (r * (1 + r) ^ n) := by
  induction n with
  | zero => simp [annuity]
  | succ n ih =>
    have hpow : (1 + r) ^ n ≠ 0 := pow_ne_zero n h1
    rw [annuity, ih, pow_succ]
    field_simp
    ring

/-- What is left to pay is worth the payments that are left. -/
theorem balanceAfter_eq {r payment : K} (h1 : 1 + r ≠ 0) {n k : ℕ} (hk : k ≤ n) :
    balanceAfter (payment * annuity r n) r payment k = payment * annuity r (n - k) := by
  induction k with
  | zero => rfl
  | succ k ih =>
    have hsucc : n - k = n - (k + 1) + 1 := by omega
    rw [balanceAfter, ih (Nat.le_of_succ_le hk), hsucc, mul_assoc, annuity_succ_mul h1, mul_add, mul_one,
      add_sub_cancel_right]

end annuity

/-! ### Order -/

section order
variable {K : Type*} [Field K] [LinearOrder K] [IsStrictOrderedRing K] {r s : K} {n m : ℕ}

theorem annuity_nonneg (hr : 0 ≤ r) (n : ℕ) : 0 ≤ annuity r n := by
  induction n with
  | zero => exact le_rfl
  | succ n ih => exact div_nonneg (by linarith) (by linarith)

theorem annuity_pos (hr : 0 ≤ r) (hn : 0 < n) : 0 < annuity r n := by
  obtain ⟨m, rfl⟩ := Nat.exists_eq_succ_of_ne_zero hn.ne'
  have hm := annuity_nonneg hr m
  exact div_pos (by linarith) (by linarith)

theorem annuity_anti (hr : 0 ≤ r) (hrs : r ≤ s) (n : ℕ) : annuity s n ≤ annuity r n := by
  induction n with
  | zero => exact le_rfl
  | succ n ih =>
    have hn := annuity_nonneg hr n
    exact div_le_div₀ (by linarith) (by linarith) (by linarith) (by linarith)

theorem annuity_lt (hr : 0 ≤ r) (hrs : r < s) (hn : 0 < n) : annuity s n < annuity r n := by
  obtain ⟨m, rfl⟩ := Nat.exists_eq_succ_of_ne_zero hn.ne'
  have hle := annuity_anti hr hrs.le m
  have hm := annuity_nonneg hr m
  calc annuity s (m + 1) ≤ (annuity r m + 1) / (1 + s) :=
        div_le_div_of_nonneg_right (by linarith) (by linarith)
    _ < annuity r (m + 1) := div_lt_div_of_pos_left (by linarith) (by linarith) (by linarith)

theorem annuity_lt_succ (hr : 0 ≤ r) (n : ℕ) : annuity r n < annuity r (n + 1) := by
  induction n with
  | zero => exact annuity_pos hr Nat.one_pos
  | succ n ih => exact div_lt_div_of_pos_right (by linarith) (by linarith)

theorem annuity_strictMono (hr : 0 ≤ r) : StrictMono (annuity r) := strictMono_nat_of_lt_succ (annuity_lt_succ hr)

theorem annuity_le_length (hr : 0 ≤ r) (n : ℕ) : annuity r n ≤ n := by
  have h := annuity_anti le_rfl hr n
  rwa [annuity_zero_rate] at h

theorem annuity_eq_length (hr : 0 ≤ r) (hn : 0 < n) : annuity r n = n ↔ r = 0 := by
  constructor
  · intro heq
    by_contra hne
    have h := annuity_lt le_rfl (lt_of_le_of_ne hr (Ne.symm hne)) hn
    rw [annuity_zero_rate] at h
    exact h.ne heq
  · rintro rfl
    exact annuity_zero_rate n

end order
end BankingAi
