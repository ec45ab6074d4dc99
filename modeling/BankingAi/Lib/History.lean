import BankingAi.Lib.Table
import Mathlib.Order.Defs.Unbundled

/-!
# Tables over time

A table continues an earlier one if the earlier rows stay in their places, each changed as a relation
allows, and rows are only appended. With equality for the relation this is being a prefix: an
append-only table. Continuing is a preorder if the relation is, so it goes along runs. A table whose
keys come from a counter keeps them distinct when rows are appended under keys drawn later.
-/

namespace BankingAi.Table

variable {ρ κ : Type*} {R : ρ → ρ → Prop} {t u : List ρ}

/-- The second table continues the first. -/
inductive Continues (R : ρ → ρ → Prop) : List ρ → List ρ → Prop
  | new (rows : List ρ) : Continues R [] rows
  | row {r r' : ρ} {t u : List ρ} : R r r' → Continues R t u → Continues R (r :: t) (r' :: u)

namespace Continues

theorem append [Std.Refl R] (t new : List ρ) : Continues R t (t ++ new) := by
  induction t with
  | nil => exact .new new
  | cons r t ih => exact .row (Std.Refl.refl r) ih

instance [Std.Refl R] : Std.Refl (Continues R) where
  refl t := by simpa using append (R := R) t []

instance [IsTrans ρ R] : IsTrans (List ρ) (Continues R) where
  trans t u v h h' := by
    induction h generalizing v with
    | new rows => exact .new v
    | row hr _ ih =>
      cases h' with
      | row hr' h' => exact .row (IsTrans.trans _ _ _ hr hr') (ih _ h')

/-- Changes that the relation allows, of the rows with a key. -/
theorem update [DecidableEq κ] [Std.Refl R] {key : ρ → κ} {k : κ} {f : ρ → ρ}
    (h : ∀ r ∈ t, key r = k → R r (f r)) : Continues R t (update key k f t) := by
  induction t with
  | nil => exact .new []
  | cons r t ih =>
    refine .row ?_ (ih fun r hr => h r (List.mem_cons_of_mem _ hr))
    show R r (if key r = k then f r else r)
    split
    case isTrue hk => exact h r List.mem_cons_self hk
    case isFalse => exact Std.Refl.refl r

end Continues

/-! ### Keys drawn from a counter -/

/-- The keys of the rows are distinct, and were drawn before `n`. -/
structure Drawn (draw : κ → ℕ) (key : ρ → κ) (n : ℕ) (t : List ρ) : Prop where
  nodup : (t.map key).Nodup
  lt : ∀ r ∈ t, draw (key r) < n

namespace Drawn

variable {draw : κ → ℕ} {key : ρ → κ} {n m : ℕ}

theorem nil : Drawn draw key n [] := ⟨List.nodup_nil, fun _ h => absurd h List.not_mem_nil⟩

theorem mono (h : Drawn draw key n t) (hnm : n ≤ m) : Drawn draw key m t :=
  ⟨h.nodup, fun r hr => Nat.lt_of_lt_of_le (h.lt r hr) hnm⟩

theorem of_map_eq (h : Drawn draw key n t) (heq : u.map key = t.map key) : Drawn draw key n u where
  nodup := heq ▸ h.nodup
  lt r hr := by
    have hmem := List.mem_map_of_mem (f := key) hr
    rw [heq] at hmem
    obtain ⟨r', hr', hkey⟩ := List.mem_map.1 hmem
    exact hkey ▸ h.lt r' hr'

theorem ne (h : Drawn draw key n t) {k : κ} (hk : n ≤ draw k) {r : ρ} (hr : r ∈ t) : key r ≠ k := by
  rintro rfl
  exact absurd (h.lt r hr) (Nat.not_lt.2 hk)

theorem append (h : Drawn draw key n t) (hnm : n ≤ m) (hnodup : (u.map key).Nodup)
    (hu : ∀ r ∈ u, n ≤ draw (key r) ∧ draw (key r) < m) : Drawn draw key m (t ++ u) where
  nodup := by
    rw [List.map_append]
    refine List.nodup_append.2 ⟨h.nodup, hnodup, fun a ha b hb => ?_⟩
    obtain ⟨x, hx, rfl⟩ := List.mem_map.1 ha
    obtain ⟨y, hy, rfl⟩ := List.mem_map.1 hb
    exact h.ne (hu y hy).1 hx
  lt r hr := by
    rcases List.mem_append.1 hr with hr | hr
    · exact Nat.lt_of_lt_of_le (h.lt r hr) hnm
    · exact (hu r hr).2

end Drawn

end BankingAi.Table
