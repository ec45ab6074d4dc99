import Mathlib.Data.List.Induction
import Mathlib.Data.Nat.Basic

/-!
# Running maxima

A loop keeps an element that is admissible and larger than the one it has kept so far. It ends with a largest
admissible element of the list; where no two of them have one size, in whatever order the list comes.
-/

namespace BankingAi.RunningMax

variable {α : Type}

section largest

variable (admissible : α → Prop) (size : α → ℕ)

structure Largest (l : List α) (a : α) : Prop where
  mem : a ∈ l
  holds : admissible a
  le : ∀ b ∈ l, admissible b → size b ≤ size a

/-- No two admissible elements have one size. -/
def Distinct (l : List α) : Prop := ∀ a ∈ l, ∀ b ∈ l, admissible a → admissible b → size a = size b → a = b

variable {admissible size} {l l' : List α} {a b : α}

theorem Largest.unique (hl : Distinct admissible size l) (ha : Largest admissible size l a)
    (hb : Largest admissible size l b) : a = b := by
  have hab := hb.le a ha.mem ha.holds
  have hba := ha.le b hb.mem hb.holds
  exact hl a ha.mem b hb.mem ha.holds hb.holds (by omega)

theorem Largest.perm (h : l'.Perm l) : Largest admissible size l' a ↔ Largest admissible size l a := by
  constructor
  · rintro ⟨hmem, hadm, hle⟩
    exact ⟨h.mem_iff.1 hmem, hadm, fun b hb => hle b (h.mem_iff.2 hb)⟩
  · rintro ⟨hmem, hadm, hle⟩
    exact ⟨h.mem_iff.2 hmem, hadm, fun b hb => hle b (h.mem_iff.1 hb)⟩

theorem Distinct.perm (h : l'.Perm l) (hl : Distinct admissible size l) : Distinct admissible size l' :=
  fun a ha b hb => hl a (h.mem_iff.1 ha) b (h.mem_iff.1 hb)

/-- The next element takes over if it is admissible and larger. -/
theorem Largest.concat_of_lt (h : Largest admissible size l a) (hb : admissible b) (hlt : size a < size b) :
    Largest admissible size (l ++ [b]) b := by
  refine ⟨by simp, hb, fun c hc hadm => ?_⟩
  rcases List.mem_append.1 hc with hc | hc
  · have := h.le c hc hadm
    omega
  · rw [List.mem_singleton.1 hc]

theorem Largest.concat (h : Largest admissible size l a) (hb : admissible b → size b ≤ size a) :
    Largest admissible size (l ++ [b]) a := by
  refine ⟨by simp [h.mem], h.holds, fun c hc hadm => ?_⟩
  rcases List.mem_append.1 hc with hc | hc
  · exact h.le c hc hadm
  · rw [List.mem_singleton.1 hc] at hadm ⊢
    exact hb hadm

end largest

section loop

variable (admissible : α → Prop) [DecidablePred admissible] (size : α → ℕ)

/-- What the next element has to exceed. -/
def bound (best : Option α) : ℤ := best.elim (-1) fun a => size a

def keep (best : Option α) (a : α) : Option α := if admissible a ∧ (size a : ℤ) > bound size best then some a else best

def ofList (l : List α) : Option α := l.foldl (keep admissible size) none

variable {l l' : List α} {a : α}

theorem ofList_concat (l : List α) (b : α) :
    ofList admissible size (l ++ [b]) = keep admissible size (ofList admissible size l) b := by
  simp [ofList]

theorem none_or_largest (l : List α) :
    (ofList admissible size l = none ∧ ∀ a ∈ l, ¬ admissible a) ∨
      ∃ a, ofList admissible size l = some a ∧ Largest admissible size l a := by
  induction l using List.reverseRecOn with
  | nil => exact .inl ⟨rfl, by simp⟩
  | append_singleton l b ih =>
    rw [ofList_concat]
    rcases ih with ⟨hnone, hl⟩ | ⟨a, hsome, ha⟩
    · rw [hnone]
      by_cases hb : admissible b
      · refine .inr ⟨b, if_pos ⟨hb, by simp only [bound, Option.elim]; omega⟩, by simp, hb, fun c hc hadm => ?_⟩
        rcases List.mem_append.1 hc with hc | hc
        · exact absurd hadm (hl c hc)
        · rw [List.mem_singleton.1 hc]
      · refine .inl ⟨if_neg fun h => hb h.1, fun c hc => ?_⟩
        rcases List.mem_append.1 hc with hc | hc
        · exact hl c hc
        · rw [List.mem_singleton.1 hc]
          exact hb
    · rw [hsome]
      by_cases hb : admissible b ∧ (size b : ℤ) > size a
      · exact .inr ⟨b, if_pos hb, ha.concat_of_lt hb.1 (by omega)⟩
      · refine .inr ⟨a, if_neg hb, ha.concat fun hadm => ?_⟩
        by_contra hlt
        exact hb ⟨hadm, by omega⟩

variable {admissible size}

theorem ofList_eq_none : ofList admissible size l = none ↔ ∀ a ∈ l, ¬ admissible a := by
  rcases none_or_largest admissible size l with ⟨hnone, hl⟩ | ⟨a, hsome, ha⟩
  · exact ⟨fun _ => hl, fun _ => hnone⟩
  · rw [hsome]
    exact ⟨nofun, fun hl => absurd ha.holds (hl a ha.mem)⟩

theorem ofList_eq_some (hl : Distinct admissible size l) :
    ofList admissible size l = some a ↔ Largest admissible size l a := by
  rcases none_or_largest admissible size l with ⟨hnone, hadm⟩ | ⟨b, hsome, hb⟩
  · rw [hnone]
    exact ⟨nofun, fun ha => absurd ha.holds (hadm a ha.mem)⟩
  · rw [hsome, Option.some.injEq]
    constructor
    · rintro rfl
      exact hb
    · exact hb.unique hl

theorem ofList_perm (hl : Distinct admissible size l) (h : l'.Perm l) :
    ofList admissible size l' = ofList admissible size l :=
  Option.ext fun a => by rw [ofList_eq_some hl, ofList_eq_some (hl.perm h), Largest.perm h]

end loop
end BankingAi.RunningMax
