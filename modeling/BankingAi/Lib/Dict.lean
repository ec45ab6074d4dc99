import Mathlib.Data.List.Induction
import Mathlib.Data.List.Nodup

/-!
# Insertion-ordered dictionaries

`Dict κ ν` is an association list without repeated keys. `set` overwrites the value in place or
appends a new entry, so the order is the order of first insertion; `get?` reads a key.
-/

namespace BankingAi

structure Dict (κ ν : Type*) where
  entries : List (κ × ν)
  nodup : (entries.map Prod.fst).Nodup

namespace Dict

variable {κ ν : Type*}

@[ext] theorem ext {d e : Dict κ ν} (h : d.entries = e.entries) : d = e := by
  cases d; cases e; cases h; rfl

def empty : Dict κ ν := ⟨[], List.nodup_nil⟩

def keys (d : Dict κ ν) : List κ := d.entries.map Prod.fst

def values (d : Dict κ ν) : List ν := d.entries.map Prod.snd

@[simp] theorem keys_empty : (empty : Dict κ ν).keys = [] := rfl

variable [DecidableEq κ]

instance [DecidableEq ν] : DecidableEq (Dict κ ν) := fun d e =>
  decidable_of_iff (d.entries = e.entries) ⟨ext, congrArg _⟩

def lookupIn (k : κ) (l : List (κ × ν)) : Option ν := (l.find? (·.1 = k)).map Prod.snd

def get? (d : Dict κ ν) (k : κ) : Option ν := lookupIn k d.entries

def setIn (k : κ) (v : ν) : List (κ × ν) → List (κ × ν)
  | [] => [(k, v)]
  | p :: l => if p.1 = k then (k, v) :: l else p :: setIn k v l

theorem keys_setIn (k : κ) (v : ν) (l : List (κ × ν)) :
    (setIn k v l).map Prod.fst = if k ∈ l.map Prod.fst then l.map Prod.fst else l.map Prod.fst ++ [k] := by
  induction l with
  | nil => rfl
  | cons p l ih =>
    rw [setIn]
    by_cases h : p.1 = k
    · simp [h]
    · simp only [h, if_false, List.map_cons, ih, List.mem_cons, Ne.symm h, false_or]
      split <;> rfl

theorem nodup_setIn {l : List (κ × ν)} (h : (l.map Prod.fst).Nodup) (k : κ) (v : ν) :
    ((setIn k v l).map Prod.fst).Nodup := by
  rw [keys_setIn]
  split
  · exact h
  · exact List.nodup_append.2 ⟨h, by simp, by rintro a ha b hb rfl; simp_all⟩

def set (d : Dict κ ν) (k : κ) (v : ν) : Dict κ ν := ⟨setIn k v d.entries, nodup_setIn d.nodup k v⟩

/-- The dictionary built by setting the given pairs in order. -/
def ofList (l : List (κ × ν)) : Dict κ ν := l.foldl (fun d p => d.set p.1 p.2) empty

theorem forall₂_setIn (k : κ) (v w : ν) (l : List (κ × ν)) :
    List.Forall₂ (fun p q => p.1 = q.1 ∧ (p.2 = q.2 ∨ p.1 = k ∧ p.2 = v ∧ q.2 = w)) (setIn k v l)
      (setIn k w l) := by
  have hrefl : ∀ l : List (κ × ν),
      List.Forall₂ (fun p q => p.1 = q.1 ∧ (p.2 = q.2 ∨ p.1 = k ∧ p.2 = v ∧ q.2 = w)) l l :=
    fun l => List.forall₂_same.2 fun _ _ => ⟨rfl, .inl rfl⟩
  induction l with
  | nil => exact .cons ⟨rfl, .inr ⟨rfl, rfl, rfl⟩⟩ .nil
  | cons p l ih =>
    rw [setIn, setIn]
    by_cases h : p.1 = k
    · rw [if_pos h, if_pos h]
      exact .cons ⟨rfl, .inr ⟨rfl, rfl, rfl⟩⟩ (hrefl l)
    · rw [if_neg h, if_neg h]
      exact .cons ⟨rfl, .inl rfl⟩ ih

theorem lookupIn_setIn (k k' : κ) (v : ν) (l : List (κ × ν)) :
    lookupIn k' (setIn k v l) = if k' = k then some v else lookupIn k' l := by
  induction l with
  | nil => by_cases h : k' = k <;> simp [setIn, lookupIn, h, eq_comm]
  | cons p l ih =>
    rw [setIn]
    by_cases hp : p.1 = k
    · by_cases h : k' = k
      · simp [hp, h, lookupIn]
      · simp [hp, h, lookupIn, Ne.symm h]
    · simp only [hp, if_false]
      by_cases hk : p.1 = k'
      · have h : k' ≠ k := hk ▸ hp
        simp [lookupIn, hk, h]
      · simpa [lookupIn, hk] using ih

@[simp] theorem get?_empty (k : κ) : (empty : Dict κ ν).get? k = none := rfl

theorem get?_set (d : Dict κ ν) (k k' : κ) (v : ν) :
    (d.set k v).get? k' = if k' = k then some v else d.get? k' :=
  lookupIn_setIn k k' v d.entries

@[simp] theorem get?_set_self (d : Dict κ ν) (k : κ) (v : ν) : (d.set k v).get? k = some v := by
  rw [get?_set, if_pos rfl]

theorem keys_set (d : Dict κ ν) (k : κ) (v : ν) :
    (d.set k v).keys = if k ∈ d.keys then d.keys else d.keys ++ [k] :=
  keys_setIn k v d.entries

theorem mem_keys_set {d : Dict κ ν} {k k' : κ} {v : ν} :
    k' ∈ (d.set k v).keys ↔ k' = k ∨ k' ∈ d.keys := by
  rw [keys_set]
  split
  · exact ⟨.inr, by rintro (rfl | h) <;> assumption⟩
  · simp [or_comm]

theorem set_of_not_mem {d : Dict κ ν} {k : κ} {v : ν} (h : k ∉ d.keys) :
    (d.set k v).entries = d.entries ++ [(k, v)] := by
  show setIn k v d.entries = _
  have : k ∉ d.entries.map Prod.fst := h
  generalize d.entries = l at this
  induction l with
  | nil => rfl
  | cons p l ih =>
    simp only [List.map_cons, List.mem_cons, not_or] at this
    rw [setIn, if_neg (Ne.symm this.1), ih this.2, List.cons_append]

theorem ofList_concat (l : List (κ × ν)) (p : κ × ν) : ofList (l ++ [p]) = (ofList l).set p.1 p.2 := by
  simp [ofList]

/-- With distinct keys a dictionary built from a list reads the list. -/
theorem get?_ofList {l : List (κ × ν)} (h : (l.map Prod.fst).Nodup) {k : κ} {v : ν} :
    (ofList l).get? k = some v ↔ (k, v) ∈ l := by
  induction l using List.reverseRecOn with
  | nil => simp [ofList]
  | append_singleton l p ih =>
    rw [List.map_append, List.nodup_append] at h
    obtain ⟨hl, -, hdisj⟩ := h
    rw [ofList_concat, get?_set, List.mem_append, List.mem_singleton]
    by_cases hk : k = p.1
    · have hnot : (k, v) ∉ l := fun hmem =>
        hdisj k (List.mem_map_of_mem hmem) p.1 (by simp) hk
      subst hk
      simp only [if_true, hnot, false_or, Option.some.injEq]
      exact ⟨fun hv => by rw [← hv], fun hv => by rw [← hv]⟩
    · rw [if_neg hk, ih hl]
      refine ⟨.inl, fun hmem => hmem.resolve_right ?_⟩
      rintro rfl
      exact hk rfl

theorem ofList_entries (d : Dict κ ν) : ofList d.entries = d := by
  obtain ⟨l, hl⟩ := d
  refine ext ?_
  dsimp only
  induction l using List.reverseRecOn with
  | nil => rfl
  | append_singleton l p ih =>
    rw [List.map_append, List.nodup_append] at hl
    obtain ⟨hl, -, hdisj⟩ := hl
    have hentries := ih hl
    have hnew : p.1 ∉ (ofList l).keys := by
      rw [keys, hentries]
      exact fun h => hdisj p.1 h p.1 (by simp) rfl
    rw [ofList_concat, set_of_not_mem hnew, hentries]

theorem get?_eq_some {d : Dict κ ν} {k : κ} {v : ν} : d.get? k = some v ↔ (k, v) ∈ d.entries := by
  rw [← get?_ofList d.nodup, ofList_entries]

theorem exists_get? {d : Dict κ ν} {k : κ} : (∃ v, d.get? k = some v) ↔ k ∈ d.keys := by
  simp only [get?_eq_some, keys, List.mem_map, Prod.exists, exists_and_right, exists_eq_right]

/-- `d.update(e)`. -/
def update (d e : Dict κ ν) : Dict κ ν := e.entries.foldl (fun d p => d.set p.1 p.2) d

/-- The values of `e` win. -/
theorem get?_update (d e : Dict κ ν) (k : κ) : (d.update e).get? k = (e.get? k).or (d.get? k) := by
  obtain ⟨l, hl⟩ := e
  unfold update get?
  dsimp only
  induction l using List.reverseRecOn with
  | nil => rfl
  | append_singleton l p ih =>
    rw [List.map_append, List.nodup_append] at hl
    obtain ⟨hl, -, hdisj⟩ := hl
    have hset : lookupIn k ((l ++ [p]).foldl (fun d p => d.set p.1 p.2) d).entries =
        if k = p.1 then some p.2 else lookupIn k (l.foldl (fun d p => d.set p.1 p.2) d).entries := by
      rw [List.foldl_append]
      exact get?_set _ p.1 k p.2
    have hlast : lookupIn k (l ++ [p]) = (lookupIn k l).or (if k = p.1 then some p.2 else none) := by
      by_cases h : k = p.1 <;> simp [lookupIn, List.find?_append, h, eq_comm]
    rw [hset, hlast, ih hl]
    by_cases h : k = p.1
    · have hnone : lookupIn k l = none := by
        rw [lookupIn, Option.map_eq_none_iff, List.find?_eq_none]
        intro q hq hk
        exact hdisj q.1 (List.mem_map_of_mem hq) p.1 (by simp) ((of_decide_eq_true hk).trans h)
      rw [hnone, if_pos h, if_pos h]
      rfl
    · rw [if_neg h, if_neg h, Option.or_none]

/-- Lists with the same keys and related values give dictionaries with related values. -/
theorem rel_get?_ofList {ν' : Type*} {R : κ → ν → ν' → Prop} {l : List (κ × ν)} {l' : List (κ × ν')}
    (h : List.Forall₂ (fun p q => p.1 = q.1 ∧ R p.1 p.2 q.2) l l') (k : κ) :
    Option.Rel (R k) ((ofList l).get? k) ((ofList l').get? k) := by
  suffices key : ∀ (d : Dict κ ν) (d' : Dict κ ν'), Option.Rel (R k) (d.get? k) (d'.get? k) →
      Option.Rel (R k) ((l.foldl (fun d p => d.set p.1 p.2) d).get? k)
        ((l'.foldl (fun d p => d.set p.1 p.2) d').get? k) from
    key empty empty .none
  induction h with
  | nil => intro d d' hd; exact hd
  | @cons p q l l' hpq _ ih =>
    intro d d' hd
    refine ih _ _ ?_
    obtain ⟨hkey, hrel⟩ := hpq
    rw [get?_set, get?_set, ← hkey]
    by_cases hk : k = p.1
    · rw [if_pos hk, if_pos hk, hk]
      exact .some hrel
    · rw [if_neg hk, if_neg hk]
      exact hd

omit [DecidableEq κ] in
theorem keys_mapEntries (f : κ → ν → ν) (l : List (κ × ν)) :
    (l.map fun p => (p.1, f p.1 p.2)).map Prod.fst = l.map Prod.fst := by
  simp [Function.comp_def]

/-- Rewrite every value by its key. -/
def mapValues (f : κ → ν → ν) (d : Dict κ ν) : Dict κ ν :=
  ⟨d.entries.map fun p => (p.1, f p.1 p.2), by rw [keys_mapEntries]; exact d.nodup⟩

theorem get?_mapValues (f : κ → ν → ν) (d : Dict κ ν) (k : κ) :
    (d.mapValues f).get? k = (d.get? k).map (f k) := by
  simp only [get?, lookupIn, mapValues]
  induction d.entries with
  | nil => rfl
  | cons p l ih =>
    by_cases h : p.1 = k
    · simp [h]
    · simpa [h] using ih

end Dict
end BankingAi
