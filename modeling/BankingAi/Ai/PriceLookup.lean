import BankingAi.Ai.Cost
import BankingAi.Lib.Dict
import BankingAi.Lib.RunningMax

/-!
# The price of the longest prefix

The loop of `_lookup` is a running maximum over the entries that price a model. Two prefixes of one model differ
in length, so the table has at most one longest entry and the order of its entries does not matter.
-/

namespace BankingAi.Ai

abbrev PriceEntry := (String × String) × Price

/-- The entry is one of the provider, and the model starts with its prefix. -/
def Applies (provider model : String) (entry : PriceEntry) : Prop :=
  entry.1.1 = provider ∧ entry.1.2.toList.isPrefixOf model.toList

instance (provider model : String) : DecidablePred (Applies provider model) := fun _ =>
  inferInstanceAs (Decidable (_ ∧ _))

def prefixLength (entry : PriceEntry) : ℕ := entry.1.2.length

/-- The longest entry of a table that applies. -/
abbrev LongestEntry (table : List PriceEntry) (provider model : String) (entry : PriceEntry) : Prop :=
  RunningMax.Largest (Applies provider model) prefixLength table entry

/-- The price that the loop of `_lookup` ends with, before the default. -/
def bestPrice (table : List PriceEntry) (provider model : String) : Option Price :=
  (table.foldl (lookupStep provider model) (none, -1)).1

variable {provider model : String} {table : List PriceEntry}

theorem lookupStep_eq (best : Option PriceEntry) (entry : PriceEntry) :
    lookupStep provider model (best.map Prod.snd, RunningMax.bound prefixLength best) entry =
      ((RunningMax.keep (Applies provider model) prefixLength best entry).map Prod.snd,
        RunningMax.bound prefixLength (RunningMax.keep (Applies provider model) prefixLength best entry)) := by
  obtain ⟨⟨prov, start⟩, price⟩ := entry
  unfold lookupStep RunningMax.keep
  by_cases h : Applies provider model ((prov, start), price) ∧
      (prefixLength ((prov, start), price) : ℤ) > RunningMax.bound prefixLength best
  · rw [if_pos h]
    exact if_pos ⟨h.1.1, h.1.2, h.2⟩
  · rw [if_neg h]
    exact if_neg fun ⟨hprov, hstart, hlt⟩ => h ⟨⟨hprov, hstart⟩, hlt⟩

theorem bestPrice_eq (table : List PriceEntry) : bestPrice table provider model =
    (RunningMax.ofList (Applies provider model) prefixLength table).map Prod.snd := by
  suffices hfold : ∀ best : Option PriceEntry,
      table.foldl (lookupStep provider model) (best.map Prod.snd, RunningMax.bound prefixLength best) =
        ((table.foldl (RunningMax.keep (Applies provider model) prefixLength) best).map Prod.snd,
          RunningMax.bound prefixLength
            (table.foldl (RunningMax.keep (Applies provider model) prefixLength) best)) from
    congrArg Prod.fst (hfold none)
  induction table with
  | nil => exact fun _ => rfl
  | cons entry table ih =>
    intro best
    rw [List.foldl_cons, List.foldl_cons, lookupStep_eq]
    exact ih _

theorem distinct_applies (hnd : (table.map Prod.fst).Nodup) :
    RunningMax.Distinct (Applies provider model) prefixLength table := by
  rintro ⟨⟨prov, start⟩, price⟩ ha ⟨⟨prov', start'⟩, price'⟩ hb ⟨rfl, hstart⟩ ⟨rfl, hstart'⟩ hsize
  have hlength : start.toList.length = start'.toList.length := by
    rw [String.length_toList, String.length_toList]
    exact hsize
  have hle := List.prefix_of_prefix_length_le (List.isPrefixOf_iff_prefix.1 hstart)
    (List.isPrefixOf_iff_prefix.1 hstart') hlength.le
  obtain rfl : start = start' := String.toList_inj.1 (hle.eq_of_length hlength)
  exact List.inj_on_of_nodup_map hnd ha hb rfl

/-- Whatever the table, `_lookup` returns the price of the longest entry that applies, even a zero one; it
takes the default exactly if no entry applies; and the order of the table does not matter. -/
theorem lookup_longest (table : Dict (String × String) Price) (provider model : String) :
    (∀ entry, LongestEntry table.entries provider model entry →
        bestPrice table.entries provider model = some entry.2 ∧
          lookup table.entries provider model = entry.2) ∧
      ((∃! entry, LongestEntry table.entries provider model entry) ∨
        ∀ entry ∈ table.entries, ¬ Applies provider model entry) ∧
      (bestPrice table.entries provider model = none ↔
        ∀ entry ∈ table.entries, ¬ Applies provider model entry) ∧
      (bestPrice table.entries provider model = none →
        lookup table.entries provider model = defaultPrice) ∧
      ∀ order, order.Perm table.entries → lookup order provider model = lookup table.entries provider model := by
  have hdistinct := @distinct_applies provider model table.entries table.nodup
  have hlookup : ∀ order, lookup order provider model = (bestPrice order provider model).getD defaultPrice :=
    fun _ => rfl
  refine ⟨fun entry hentry => ?_, ?_, ?_, fun hnone => ?_, fun order horder => ?_⟩
  · have hbest : bestPrice table.entries provider model = some entry.2 := by
      rw [bestPrice_eq, (RunningMax.ofList_eq_some hdistinct).2 hentry]
      rfl
    exact ⟨hbest, by rw [hlookup, hbest]; rfl⟩
  · rcases RunningMax.none_or_largest (Applies provider model) prefixLength
      table.entries with ⟨-, hnone⟩ | ⟨entry, -, hentry⟩
    · exact .inr hnone
    · exact .inl ⟨entry, hentry, fun other hother => hother.unique hdistinct hentry⟩
  · rw [bestPrice_eq, Option.map_eq_none_iff, RunningMax.ofList_eq_none]
  · rw [hlookup, hnone]
    rfl
  · rw [hlookup, hlookup, bestPrice_eq, bestPrice_eq, RunningMax.ofList_perm hdistinct horder]

end BankingAi.Ai
