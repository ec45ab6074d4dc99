import Mathlib.Data.List.Dedup
import BankingAi.Lib.Dict

/-!
# The history of a dictionary

A dictionary that was built by setting pairs in order: the keys are in the order of their first setting, and
each has the value of its last one.
-/

namespace BankingAi.Dict

variable {κ ν : Type*} [DecidableEq κ]

/-- The pairs set in order. -/
def setAll (d : Dict κ ν) (l : List (κ × ν)) : Dict κ ν := l.foldl (fun d p => d.set p.1 p.2) d

theorem setAll_append (d : Dict κ ν) (l l' : List (κ × ν)) : d.setAll (l ++ l') = (d.setAll l).setAll l' :=
  List.foldl_append

theorem setAll_concat (d : Dict κ ν) (l : List (κ × ν)) (p : κ × ν) :
    d.setAll (l ++ [p]) = (d.setAll l).set p.1 p.2 :=
  d.setAll_append l [p]

theorem ofList_eq_setAll (l : List (κ × ν)) : ofList l = empty.setAll l := rfl

theorem mem_keys_ofList {l : List (κ × ν)} {k : κ} : k ∈ (ofList l).keys ↔ k ∈ l.map Prod.fst := by
  induction l using List.reverseRecOn with
  | nil => rfl
  | append_singleton l p ih =>
    rw [ofList_concat, mem_keys_set, ih, List.map_append, List.mem_append, List.map_singleton,
      List.mem_singleton, or_comm]

theorem keys_setAll (d : Dict κ ν) (l : List (κ × ν)) :
    (d.setAll l).keys = d.keys ++ (ofList l).keys.filter (· ∉ d.keys) := by
  induction l using List.reverseRecOn with
  | nil => exact (List.append_nil _).symm
  | append_singleton l p ih =>
    rw [setAll_concat, keys_set, ih, ofList_concat, keys_set]
    by_cases hold : p.1 ∈ d.keys
    · by_cases hnew : p.1 ∈ (ofList l).keys <;> simp [hold, hnew]
    · by_cases hnew : p.1 ∈ (ofList l).keys <;> simp [hold, hnew]

theorem get?_setAll (d : Dict κ ν) (l : List (κ × ν)) (k : κ) :
    (d.setAll l).get? k = ((ofList l).get? k).or (d.get? k) := by
  induction l using List.reverseRecOn with
  | nil => rfl
  | append_singleton l p ih =>
    rw [setAll_concat, get?_set, ofList_concat, get?_set, ih]
    split <;> rfl

/-- The value of a key is the last one that was set. -/
theorem get?_ofList_last (l : List (κ × ν)) (k : κ) :
    (ofList l).get? k = (l.reverse.find? (·.1 = k)).map Prod.snd := by
  induction l using List.reverseRecOn with
  | nil => rfl
  | append_singleton l p ih =>
    rw [ofList_concat, get?_set, ih, List.reverse_append, List.reverse_singleton, List.singleton_append]
    by_cases h : k = p.1
    · rw [if_pos h, List.find?_cons_of_pos (by simp [h])]
      rfl
    · rw [if_neg h, List.find?_cons_of_neg (by simp [Ne.symm h])]

/-- A key comes before the keys that were first set later. -/
theorem pairwise_keys_ofList (l : List (κ × ν)) :
    (ofList l).keys.Pairwise fun a b => (l.map Prod.fst).idxOf a < (l.map Prod.fst).idxOf b := by
  induction l using List.reverseRecOn with
  | nil => exact .nil
  | append_singleton l p ih =>
    have hmono : (ofList l).keys.Pairwise fun a b =>
        ((l ++ [p]).map Prod.fst).idxOf a < ((l ++ [p]).map Prod.fst).idxOf b := by
      refine ih.imp_of_mem fun ha hb hlt => ?_
      rw [List.map_append, List.idxOf_append_of_mem (mem_keys_ofList.1 ha),
        List.idxOf_append_of_mem (mem_keys_ofList.1 hb)]
      exact hlt
    rw [ofList_concat, keys_set]
    split
    · exact hmono
    case isFalse hnew =>
      refine List.pairwise_append.2 ⟨hmono, List.pairwise_singleton _ _, fun a ha b hb => ?_⟩
      obtain rfl := List.mem_singleton.1 hb
      rw [List.map_append, List.idxOf_append_of_mem (mem_keys_ofList.1 ha),
        List.idxOf_append_of_notMem (mt mem_keys_ofList.2 hnew)]
      exact Nat.lt_add_right _ (List.idxOf_lt_length_of_mem (mem_keys_ofList.1 ha))

theorem length_keys_ofList (l : List (κ × ν)) : (ofList l).keys.length = (l.map Prod.fst).dedup.length := by
  refine ((List.perm_ext_iff_of_nodup (ofList l).nodup (List.nodup_dedup _)).2 fun k => ?_).length_eq
  rw [List.mem_dedup]
  exact mem_keys_ofList

theorem ext_keys {d e : Dict κ ν} (hkeys : d.keys = e.keys) (hget : ∀ k, d.get? k = e.get? k) : d = e := by
  have hentries : ∀ c : Dict κ ν, c.entries = c.keys.filterMap fun k => (c.get? k).map (k, ·) := by
    intro c
    rw [keys, List.filterMap_map]
    refine ((List.filterMap_congr fun p hp => ?_).trans List.filterMap_some).symm
    show (c.get? p.1).map (p.1, ·) = some p
    rw [get?_eq_some.2 hp]
    rfl
  refine ext ?_
  rw [hentries d, hentries e, hkeys]
  exact List.filterMap_congr fun k _ => by rw [hget]

theorem update_eq_setAll (d e : Dict κ ν) : d.update e = d.setAll e.entries := rfl

/-- What a list sets is what its dictionary updates. -/
theorem setAll_eq_update (d : Dict κ ν) (l : List (κ × ν)) : d.setAll l = d.update (ofList l) := by
  refine ext_keys ?_ fun k => ?_
  · rw [update_eq_setAll, keys_setAll, keys_setAll, ofList_entries]
  · rw [get?_setAll, get?_update]

theorem ofList_append (l l' : List (κ × ν)) : ofList (l ++ l') = (ofList l).update (ofList l') := by
  rw [ofList_eq_setAll, setAll_append, setAll_eq_update]
  rfl

theorem setAll_setAll (d : Dict κ ν) (l : List (κ × ν)) : (d.setAll l).setAll l = d.setAll l := by
  refine ext_keys ?_ fun k => ?_
  · have hold : (ofList l).keys.filter (· ∉ (d.setAll l).keys) = [] := by
      rw [List.filter_eq_nil_iff]
      intro k hk
      rw [keys_setAll]
      by_cases h : k ∈ d.keys <;> simp [h, hk]
    rw [keys_setAll, hold, List.append_nil]
  · rw [get?_setAll, get?_setAll, ← Option.or_assoc, Option.or_self]

end BankingAi.Dict
