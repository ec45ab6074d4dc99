import Mathlib.Data.List.TakeWhile
import Mathlib.Data.List.Forall2

/-!
# Delimited texts

When each text of a list tells where it ends as long as a delimiter follows, so does the whole list with commas
between its texts and a closing bracket behind it.
-/

namespace BankingAi

/-- The text ends, or goes on with a delimiter. -/
def Delimited (r : List Char) : Prop := ∀ c ∈ r.head?, c ∈ [',', ']', '}']

theorem delimited_nil : Delimited [] := nofun

theorem delimited_cons {c : Char} (hc : c ∈ [',', ']', '}']) (r : List Char) : Delimited (c :: r) := by
  intro d hd
  obtain rfl := Option.some.inj hd
  exact hc

/-- `",".join(texts)`. -/
def commaJoin (texts : List (List Char)) : List Char := [','].intercalate texts

theorem commaJoin_singleton (t : List Char) : commaJoin [t] = t := by
  simp [commaJoin, List.intercalate]

theorem commaJoin_cons_cons (t u : List Char) (texts : List (List Char)) :
    commaJoin (t :: u :: texts) = t ++ ',' :: commaJoin (u :: texts) := by
  simp [commaJoin, List.intercalate]

/-- What follows the first text of a list: the closing bracket, or a comma and the other texts. -/
theorem commaJoin_rest {α : Type} (f : α → List Char) (a : α) (l : List α) {close : Char}
    (hclose : close ∈ [',', ']', '}']) (r : List Char) :
    ∃ rest, commaJoin ((a :: l).map f) ++ close :: r = f a ++ rest ∧ Delimited rest ∧
      (l = [] ∧ rest = close :: r ∨ l ≠ [] ∧ rest = ',' :: (commaJoin (l.map f) ++ close :: r)) := by
  cases l with
  | nil =>
    refine ⟨close :: r, ?_, delimited_cons hclose r, .inl ⟨rfl, rfl⟩⟩
    rw [List.map_singleton, commaJoin_singleton]
  | cons b l =>
    refine ⟨',' :: (commaJoin ((b :: l).map f) ++ close :: r), ?_, delimited_cons (by decide) _,
      .inr ⟨List.cons_ne_nil b l, rfl⟩⟩
    rw [List.map_cons, List.map_cons, commaJoin_cons_cons, List.append_assoc, List.cons_append]

section join

variable {α β : Type} {f : α → List Char} {g : β → List Char} {R : α → β → Prop}

theorem commaJoin_cancel {close : Char} (hclose : close ∈ [']', '}']) {l : List α} {l' : List β}
    (hf : ∀ a ∈ l, ∃ c cs, f a = c :: cs ∧ c ≠ close) (hg : ∀ b ∈ l', ∃ c cs, g b = c :: cs ∧ c ≠ close)
    (hcancel : ∀ a ∈ l, ∀ b ∈ l', ∀ r r', Delimited r → Delimited r' → f a ++ r = g b ++ r' → R a b ∧ r = r')
    {r r' : List Char} (h : commaJoin (l.map f) ++ close :: r = commaJoin (l'.map g) ++ close :: r') :
    List.Forall₂ R l l' ∧ r = r' := by
  have hdelimiter : close ∈ [',', ']', '}'] := List.mem_cons_of_mem _ hclose
  have hcomma : close ≠ ',' := by
    rintro rfl
    exact absurd hclose (by decide)
  induction l generalizing l' with
  | nil =>
    cases l' with
    | nil => exact ⟨.nil, (List.cons.inj h).2⟩
    | cons b l' =>
      obtain ⟨rest, heq, -, -⟩ := commaJoin_rest g b l' hdelimiter r'
      obtain ⟨c, cs, hcs, hc⟩ := hg b List.mem_cons_self
      rw [heq, hcs] at h
      exact absurd (List.cons.inj h).1.symm hc
  | cons a l ih =>
    obtain ⟨rest, heq, hdelimited, hcases⟩ := commaJoin_rest f a l hdelimiter r
    cases l' with
    | nil =>
      obtain ⟨c, cs, hcs, hc⟩ := hf a List.mem_cons_self
      rw [heq, hcs] at h
      exact absurd (List.cons.inj h).1 hc
    | cons b l' =>
      obtain ⟨rest', heq', hdelimited', hcases'⟩ := commaJoin_rest g b l' hdelimiter r'
      rw [heq, heq'] at h
      obtain ⟨hR, rfl⟩ := hcancel a List.mem_cons_self b List.mem_cons_self rest rest' hdelimited hdelimited' h
      rcases hcases with ⟨rfl, hr⟩ | ⟨hne, hr⟩
      · rcases hcases' with ⟨rfl, hr'⟩ | ⟨hne', hr'⟩
        · exact ⟨.cons hR .nil, (List.cons.inj (hr.symm.trans hr')).2⟩
        · exact absurd (List.cons.inj (hr.symm.trans hr')).1 hcomma
      · rcases hcases' with ⟨rfl, hr'⟩ | ⟨hne', hr'⟩
        · exact absurd (List.cons.inj (hr'.symm.trans hr)).1 hcomma
        · obtain ⟨hl, hr⟩ := ih (fun a ha => hf a (List.mem_cons_of_mem _ ha))
            (fun b hb => hg b (List.mem_cons_of_mem _ hb))
            (fun a ha b hb => hcancel a (List.mem_cons_of_mem _ ha) b (List.mem_cons_of_mem _ hb))
            (List.cons.inj (hr.symm.trans hr')).2
          exact ⟨.cons hR hl, hr⟩

end join

/-- A run of characters of a class tells where it ends, if none of the class follows. -/
theorem run_cancel {p : Char → Bool} {l l' r r' : List Char} (hl : ∀ c ∈ l, p c = true) (hl' : ∀ c ∈ l', p c = true)
    (hr : ∀ c ∈ r.head?, p c = false) (hr' : ∀ c ∈ r'.head?, p c = false) (h : l ++ r = l' ++ r') :
    l = l' ∧ r = r' := by
  have hrun : ∀ {l r : List Char}, (∀ c ∈ l, p c = true) → (∀ c ∈ r.head?, p c = false) →
      (l ++ r).takeWhile p = l := by
    intro l r hl hr
    rw [List.takeWhile_append_of_pos hl]
    cases r with
    | nil => simp
    | cons c r => rw [List.takeWhile_cons_of_neg (by simp [hr c rfl]), List.append_nil]
  have hsame : l = l' := by rw [← hrun hl hr, h, hrun hl' hr']
  exact ⟨hsame, List.append_cancel_left (hsame ▸ h)⟩

end BankingAi
