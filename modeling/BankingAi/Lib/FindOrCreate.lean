import Mathlib.Data.List.Nodup
import BankingAi.Lib.Dict

/-!
# Finding or creating rows

A loop that looks a list of keys up among the rows of a table and adds a row for each key that has none. `index` is the
dictionary that such a loop keeps, and `Filled` relates the rows before and after it: the old rows stay, in place, and
the new ones are in the order of the keys.
-/

namespace BankingAi.FindOrCreate

variable {κ ρ : Type*} [DecidableEq κ] {key : ρ → κ} {k : κ} {keys : List κ} {r : ρ} {old mid new : List ρ}

/-- The rows under their keys; a later row replaces an earlier one. -/
def index (key : ρ → κ) (rows : List ρ) : Dict κ ρ := .ofList (rows.map fun r => (key r, r))

theorem index_concat : index key (old ++ [r]) = (index key old).set (key r) r := by
  rw [index, List.map_append]
  exact Dict.ofList_concat _ _

theorem get?_index (h : (old.map key).Nodup) : (index key old).get? k = some r ↔ r ∈ old ∧ key r = k := by
  rw [index, Dict.get?_ofList (by simpa [List.map_map, Function.comp_def] using h), List.mem_map]
  constructor
  · rintro ⟨x, hx, heq⟩
    cases heq
    exact ⟨hx, rfl⟩
  · rintro ⟨hr, rfl⟩
    exact ⟨r, hr, rfl⟩

theorem mem_keys_index (h : (old.map key).Nodup) : k ∈ (index key old).keys ↔ k ∈ old.map key := by
  rw [← Dict.exists_get?, List.mem_map]
  simp only [get?_index h]

/-- The rows of `new` are those of `old`, and one for every key that had none. -/
def Filled (key : ρ → κ) (keys : List κ) (old new : List ρ) : Prop :=
  ∃ created, new = old ++ created ∧ created.map key = keys.filter (· ∉ old.map key)

namespace Filled

theorem nil : Filled key [] old old := ⟨[], by simp, rfl⟩

theorem found (hk : k ∈ old.map key) : Filled key [k] old old :=
  ⟨[], by simp, by rw [List.filter_cons_of_neg (by simpa using hk)]; rfl⟩

theorem create (hk : key r ∉ old.map key) : Filled key [key r] old (old ++ [r]) :=
  ⟨[r], rfl, by rw [List.filter_cons_of_pos (by simpa using hk)]; rfl⟩

theorem append {keys' : List κ} (h : Filled key keys old mid) (h' : Filled key keys' mid new)
    (hdisj : keys.Disjoint keys') : Filled key (keys ++ keys') old new := by
  obtain ⟨created, rfl, hcreated⟩ := h
  obtain ⟨created', rfl, hcreated'⟩ := h'
  refine ⟨created ++ created', List.append_assoc _ _ _, ?_⟩
  rw [List.map_append, List.filter_append, hcreated, hcreated']
  congr 1
  refine List.filter_congr fun x hx => ?_
  have hnot : x ∉ created.map key := by
    rw [hcreated]
    exact fun hmem => hdisj (List.mem_filter.1 hmem).1 hx
  rw [List.map_append]
  simp only [List.mem_append, hnot, or_false]

theorem mem_map (h : Filled key keys old new) : k ∈ new.map key ↔ k ∈ old.map key ∨ k ∈ keys := by
  obtain ⟨created, rfl, hcreated⟩ := h
  rw [List.map_append, List.mem_append, hcreated, List.mem_filter]
  by_cases hk : k ∈ old.map key
  · simp [hk]
  · simp [hk]

theorem eq_of_subset (h : Filled key keys old new) (hkeys : ∀ k ∈ keys, k ∈ old.map key) : new = old := by
  obtain ⟨created, rfl, hcreated⟩ := h
  rw [List.filter_eq_nil_iff.2 fun k hk => by simpa using hkeys k hk, List.map_eq_nil_iff] at hcreated
  rw [hcreated, List.append_nil]

end Filled

omit [DecidableEq κ] in
theorem existsUnique_of_nodup (h : (old.map key).Nodup) (hk : k ∈ old.map key) : ∃! r, r ∈ old ∧ key r = k := by
  obtain ⟨r, hr, rfl⟩ := List.mem_map.1 hk
  exact ⟨r, ⟨hr, rfl⟩, fun x ⟨hx, hkey⟩ => List.inj_on_of_nodup_map h hx hr hkey⟩

end BankingAi.FindOrCreate
