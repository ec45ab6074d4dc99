import Mathlib.Algebra.BigOperators.Group.List.Basic
import Mathlib.Algebra.Order.Ring.Defs
import Mathlib.Algebra.Order.Field.Basic
import Mathlib.Tactic.Linarith
import Mathlib.Tactic.Ring

/-!
# Dot products of lists

Lists as vectors over an ordered field; a longer list is cut to the length of the other. Two vectors of length at
most 1 have a dot product between -1 and 1.
-/

namespace BankingAi

section add

variable {M : Type} [AddMonoid M]

def vecAdd (a b : List M) : List M := List.zipWith (· + ·) a b

theorem vecAdd_zero (a : List M) : vecAdd a (List.replicate a.length 0) = a := by
  induction a with
  | nil => rfl
  | cons x a ih =>
    rw [List.length_cons, List.replicate_succ, vecAdd, List.zipWith_cons_cons, add_zero]
    exact congrArg _ ih

end add

variable {K : Type} [Field K]

def dot (a b : List K) : K := (List.zipWith (· * ·) a b).sum

variable {a b : List K}

@[simp] theorem dot_cons (x y : K) (a b : List K) : dot (x :: a) (y :: b) = x * y + dot a b := by
  simp [dot]

@[simp] theorem dot_nil_left (b : List K) : dot [] b = 0 := by simp [dot]

@[simp] theorem dot_nil_right (a : List K) : dot a [] = 0 := by simp [dot]

theorem dot_map_div (c : K) (a : List K) : dot (a.map (· / c)) (a.map (· / c)) = dot a a / (c * c) := by
  induction a with
  | nil => simp
  | cons x a ih =>
    rw [List.map_cons, dot_cons, dot_cons, ih, div_mul_div_comm, add_div]

section order

variable [LinearOrder K] [IsStrictOrderedRing K]

theorem dot_self_nonneg (a : List K) : 0 ≤ dot a a := by
  induction a with
  | nil => simp
  | cons x a ih =>
    rw [dot_cons]
    exact add_nonneg (mul_self_nonneg x) ih

theorem dot_self_eq_zero : dot a a = 0 ↔ a = List.replicate a.length 0 := by
  induction a with
  | nil => simp
  | cons x a ih =>
    rw [dot_cons, add_eq_zero_iff_of_nonneg (mul_self_nonneg x) (dot_self_nonneg a), mul_self_eq_zero, ih,
      List.length_cons, List.replicate_succ, List.cons.injEq]

/-- The square of a difference, or of a sum, is not negative. -/
theorem two_dot_le {c : K} (hc : c * c = 1) (a b : List K) : 2 * (c * dot a b) ≤ dot a a + dot b b := by
  induction a generalizing b with
  | nil => simpa using dot_self_nonneg b
  | cons x a ih =>
    cases b with
    | nil => simpa using dot_self_nonneg (x :: a)
    | cons y b =>
      have hsquare : (x - c * y) * (x - c * y) = x * x - 2 * (c * (x * y)) + c * c * (y * y) := by ring
      have := mul_self_nonneg (x - c * y)
      rw [hsquare, hc, one_mul] at this
      rw [dot_cons, dot_cons, dot_cons, mul_add]
      linarith only [this, ih b]

theorem dot_mem_unit (ha : dot a a ≤ 1) (hb : dot b b ≤ 1) : -1 ≤ dot a b ∧ dot a b ≤ 1 := by
  have hle := two_dot_le (one_mul 1) a b
  have hge := two_dot_le (show (-1 : K) * -1 = 1 by ring) a b
  constructor
  · linarith only [hge, ha, hb]
  · linarith only [hle, ha, hb]

end order
end BankingAi
