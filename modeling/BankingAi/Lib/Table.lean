import Mathlib.Data.List.Forall2

/-!
# Tables as lists of keyed rows

A table is the list of its rows in order of insertion. `update key k f` is an `UPDATE` of the rows
whose key is `k`; the lemmas say how it meets appending, filtering, projecting and looking up.
-/

namespace BankingAi.Table

variable {ρ κ : Type*} [DecidableEq κ] (key : ρ → κ)

def update (k : κ) (f : ρ → ρ) (t : List ρ) : List ρ := t.map fun r => if key r = k then f r else r

def lookup (k : κ) (t : List ρ) : Option ρ := t.find? (key · = k)

variable {key} {k k' : κ} {f : ρ → ρ} {t u : List ρ} {r x : ρ}

theorem mem_update : x ∈ update key k f t ↔ (x ∈ t ∧ key x ≠ k) ∨ ∃ r ∈ t, key r = k ∧ x = f r := by
  simp only [update, List.mem_map]
  constructor
  · rintro ⟨r, hr, rfl⟩
    by_cases h : key r = k
    · exact .inr ⟨r, hr, h, by rw [if_pos h]⟩
    · exact .inl (by rw [if_neg h]; exact ⟨hr, h⟩)
  · rintro (⟨hx, h⟩ | ⟨r, hr, h, rfl⟩)
    · exact ⟨x, hx, if_neg h⟩
    · exact ⟨r, hr, if_pos h⟩

theorem update_append : update key k f (t ++ u) = update key k f t ++ update key k f u :=
  List.map_append

theorem update_eq_self (h : ∀ r ∈ t, key r ≠ k) : update key k f t = t :=
  (List.map_congr_left fun r hr => if_neg (h r hr)).trans (List.map_id' t)

theorem update_congr {g : ρ → ρ} (h : ∀ r ∈ t, key r = k → f r = g r) :
    update key k f t = update key k g t :=
  List.map_congr_left fun r hr => by
    by_cases hk : key r = k
    · simp [hk, h r hr hk]
    · simp [hk]

theorem update_singleton (h : key r = k) : update key k f [r] = [f r] := by
  simp [update, h]

/-- Updating the row just inserted, under a fresh key. -/
theorem update_concat (h : ∀ r ∈ t, key r ≠ k) (hx : key x = k) :
    update key k f (t ++ [x]) = t ++ [f x] := by
  rw [update_append, update_eq_self h, update_singleton hx]

theorem filter_update {p : ρ → Bool} (hp : ∀ r, key r = k → p (f r) = p r) :
    (update key k f t).filter p = update key k f (t.filter p) := by
  induction t with
  | nil => rfl
  | cons r t ih =>
    have hr : p (if key r = k then f r else r) = p r := by
      split
      · exact hp r ‹_›
      · rfl
    simp only [update, List.map_cons, List.filter_cons] at ih ⊢
    rw [hr]
    split
    · rw [List.map_cons, ih]
    · exact ih

theorem map_update {β : Type*} {g : ρ → β} (hg : ∀ r, key r = k → g (f r) = g r) :
    (update key k f t).map g = t.map g := by
  rw [update, List.map_map]
  refine List.map_congr_left fun r _ => ?_
  by_cases h : key r = k
  · simp [h, hg r h]
  · simp [h]

theorem lookup_update (hf : ∀ r, key (f r) = key r) :
    lookup key k' (update key k f t) =
      if k' = k then (lookup key k t).map f else lookup key k' t := by
  induction t with
  | nil => simp [lookup, update]
  | cons r t ih =>
    simp only [lookup, update, List.map_cons, List.find?_cons] at ih ⊢
    by_cases hr : key r = k
    · by_cases hk : k' = k
      · simp [hr, hk, hf]
      · have : key (f r) ≠ k' := by rw [hf, hr]; exact Ne.symm hk
        simp only [hr, if_true, this, decide_false, ih, hk, if_false, Ne.symm hk]
    · by_cases hk : key r = k'
      · have : k' ≠ k := hk ▸ hr
        simp [hk, this]
      · simp only [hr, if_false, hk, decide_false, ih]

theorem lookup_eq_some (h : lookup key k t = some r) : r ∈ t ∧ key r = k :=
  ⟨List.mem_of_find?_eq_some h, by simpa using List.find?_some h⟩

theorem lookup_of_mem (hnd : (t.map key).Nodup) (hr : r ∈ t) : lookup key (key r) t = some r := by
  induction t with
  | nil => simp at hr
  | cons x t ih =>
    simp only [List.map_cons, List.nodup_cons, List.mem_map, not_exists, not_and] at hnd
    rcases List.mem_cons.1 hr with rfl | hr
    · simp [lookup]
    · have : key x ≠ key r := fun h => hnd.1 r hr h.symm
      simp only [lookup, List.find?_cons, this, decide_false]
      exact ih hnd.2 hr

theorem filterMap_lookup (hnd : (t.map key).Nodup) {rows : List ρ} (hrows : ∀ r ∈ rows, r ∈ t) :
    (rows.map key).filterMap (lookup key · t) = rows := by
  rw [List.filterMap_map]
  refine (List.filterMap_congr fun r hr => ?_).trans List.filterMap_some
  exact lookup_of_mem hnd (hrows r hr)

theorem filter_key (hnd : (t.map key).Nodup) (k : κ) :
    t.filter (key · = k) = (lookup key k t).toList := by
  induction t with
  | nil => rfl
  | cons r t ih =>
    simp only [List.map_cons, List.nodup_cons, List.mem_map, not_exists, not_and] at hnd
    by_cases hr : key r = k
    · have hrest : t.filter (key · = k) = [] :=
        List.filter_eq_nil_iff.2 fun x hx h => hnd.1 x hx (by rw [hr]; simpa using h)
      simp [lookup, hr, hrest]
    · simpa [lookup, hr] using ih hnd.2

theorem lookup_append (h : ∀ r ∈ t, key r ≠ k) : lookup key k (t ++ u) = lookup key k u := by
  rw [lookup, List.find?_append, List.find?_eq_none.2 fun r hr => by simpa using h r hr,
    Option.none_or]
  rfl

theorem lookup_concat_of_ne (h : key x ≠ k) : lookup key k (t ++ [x]) = lookup key k t := by
  rw [lookup, List.find?_append, List.find?_cons_of_neg (by simpa using h), List.find?_nil, Option.or_none, lookup]

/-- Every row of a table that agrees row by row with a list agrees with a member of the list. -/
theorem exists_of_forall₂ {α : Type*} {R : ρ → α → Prop} {l : List α} (h : List.Forall₂ R t l)
    (hr : r ∈ t) : ∃ a ∈ l, R r a := by
  induction h with
  | nil => simp at hr
  | cons h _ ih =>
    rcases List.mem_cons.1 hr with rfl | hr
    · exact ⟨_, List.mem_cons_self, h⟩
    · obtain ⟨a, ha, h'⟩ := ih hr
      exact ⟨a, List.mem_cons_of_mem _ ha, h'⟩

theorem map_eq_of_forall₂ {α β : Type*} {R : ρ → α → Prop} {l : List α} {f : ρ → β} {g : α → β}
    (hfg : ∀ r a, R r a → f r = g a) (h : List.Forall₂ R t l) : t.map f = l.map g := by
  induction h with
  | nil => rfl
  | cons h _ ih => rw [List.map_cons, List.map_cons, hfg _ _ h, ih]

theorem forall₂_comp {α β : Type*} {R : ρ → α → Prop} {R' : α → β → Prop} {Q : ρ → β → Prop} {l : List α}
    {u : List β} (hQ : ∀ r a b, R r a → R' a b → Q r b) (h : List.Forall₂ R t l) (h' : List.Forall₂ R' l u) :
    List.Forall₂ Q t u := by
  induction h generalizing u with
  | nil =>
    cases h'
    exact .nil
  | cons hr _ ih =>
    cases h' with
    | cons hr' h' => exact .cons (hQ _ _ _ hr hr') (ih h')

end BankingAi.Table
