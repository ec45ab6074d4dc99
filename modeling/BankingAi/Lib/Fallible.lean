import Mathlib.Data.List.Forall2

/-!
# Computations that may fail

When a sequence and a traversal of computations in `Except` succeed.
-/

namespace BankingAi

variable {ε α β : Type} {f : α → Except ε β}

theorem except_bind_eq_ok {x : Except ε α} {b : β} :
    (x >>= f) = .ok b ↔ ∃ a, x = .ok a ∧ f a = .ok b := by
  cases x with
  | ok a => exact ⟨fun h => ⟨a, rfl, h⟩, fun ⟨_, h, h'⟩ => by cases h; exact h'⟩
  | error e => exact ⟨nofun, fun ⟨_, h, _⟩ => by cases h⟩

theorem except_map_eq_ok {g : α → β} {x : Except ε α} {b : β} : x.map g = .ok b ↔ ∃ a, x = .ok a ∧ g a = b := by
  cases x with
  | ok a => exact ⟨fun h => ⟨a, rfl, Except.ok.inj h⟩, fun ⟨_, h, h'⟩ => by cases h; exact congrArg _ h'⟩
  | error e => exact ⟨nofun, fun ⟨_, h, _⟩ => by cases h⟩

theorem except_mapM_eq_ok {l : List α} {l' : List β} :
    l.mapM f = .ok l' ↔ List.Forall₂ (fun a b => f a = .ok b) l l' := by
  induction l generalizing l' with
  | nil =>
    rw [List.mapM_nil, List.forall₂_nil_left_iff]
    exact ⟨fun h => by cases h; rfl, fun h => by rw [h]; rfl⟩
  | cons a l ih =>
    rw [List.mapM_cons, except_bind_eq_ok, List.forall₂_cons_left_iff]
    constructor
    · rintro ⟨b, hb, h⟩
      obtain ⟨bs, hbs, h⟩ := except_bind_eq_ok.1 h
      cases h
      exact ⟨b, bs, hb, ih.1 hbs, rfl⟩
    · rintro ⟨b, bs, hb, hbs, rfl⟩
      exact ⟨b, hb, except_bind_eq_ok.2 ⟨bs, ih.2 hbs, rfl⟩⟩

theorem exists_mapM {l : List α} : (∃ l', l.mapM f = .ok l') ↔ ∀ a ∈ l, ∃ b, f a = .ok b := by
  induction l with
  | nil => exact ⟨fun _ => List.forall_mem_nil _, fun _ => ⟨[], rfl⟩⟩
  | cons a l ih =>
    simp only [except_mapM_eq_ok] at ih ⊢
    rw [List.forall_mem_cons, ← ih]
    constructor
    · rintro ⟨l', h⟩
      obtain ⟨b, bs, hb, hbs, rfl⟩ := List.forall₂_cons_left_iff.1 h
      exact ⟨⟨b, hb⟩, bs, hbs⟩
    · rintro ⟨⟨b, hb⟩, bs, hbs⟩
      exact ⟨b :: bs, .cons hb hbs⟩

theorem mem_of_mapM_eq_ok {l : List α} {l' : List β} (h : l.mapM f = .ok l') {b : β} :
    b ∈ l' ↔ ∃ a ∈ l, f a = .ok b := by
  have hforall := except_mapM_eq_ok.1 h
  clear h
  induction hforall with
  | nil => simp
  | cons hab _ ih => simp [ih, hab, eq_comm (a := b)]

theorem map_of_mapM_eq_ok {γ : Type} {g : β → γ} {g' : α → γ} (hf : ∀ {a b}, f a = .ok b → g b = g' a)
    {l : List α} {l' : List β} (h : l.mapM f = .ok l') : l'.map g = l.map g' := by
  have hforall := except_mapM_eq_ok.1 h
  clear h
  induction hforall with
  | nil => rfl
  | cons hab _ ih => rw [List.map_cons, List.map_cons, hf hab, ih]

end BankingAi
