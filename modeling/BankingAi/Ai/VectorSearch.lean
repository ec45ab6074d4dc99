import Mathlib
import BankingAi.Ai.VectorStore
import BankingAi.Lib.Paging

/-!
# Searching a vector store

What a query returns, whatever the scores are: the best of the stored records, in order.
-/

namespace BankingAi

/-- The scores are ordered; different ones may compare both ways. -/
structure Embedder.Orders {V S : Type} (embedder : Embedder V S) : Prop where
  trans : ∀ a b c, embedder.le a b = true → embedder.le b c = true → embedder.le a c = true
  total : ∀ a b, (embedder.le a b || embedder.le b a) = true

theorem Embedder.orders_of_linearOrder {V S : Type} [LinearOrder S] {embedder : Embedder V S}
    (h : embedder.le = fun a b => decide (a ≤ b)) : embedder.Orders where
  trans a b c hab hbc := by
    rw [h] at hab hbc ⊢
    exact decide_eq_true (le_trans (of_decide_eq_true hab) (of_decide_eq_true hbc))
  total a b := by
    rw [h, Bool.or_eq_true]
    exact (le_total a b).imp decide_eq_true decide_eq_true

namespace VectorStore

variable {V S : Type} (embedder : Embedder V S) (store : VectorStore V) (embedding : V)

/-- The records of the store, best first. -/
def byScore : List (VectorRecord V) :=
  (Dict.values store).mergeSort fun a b =>
    embedder.le (embedder.similarity embedding b.embedding) (embedder.similarity embedding a.embedding)

theorem query_byScore (topK : ℤ) : query embedder store embedding topK =
    ((byScore embedder store embedding).take topK.toNat).map fun r =>
      ⟨r, embedder.similarity embedding r.embedding⟩ := by
  unfold byScore
  rw [List.map_take, List.map_mergeSort (s := fun a b : ScoredRecord V S => embedder.le b.score a.score)
    fun _ _ _ _ => rfl]
  rfl

variable {embedder store embedding} {a b : VectorRecord V} {n : ℕ}

theorem mem_byScore : a ∈ byScore embedder store embedding ↔ a ∈ Dict.values store := List.mem_mergeSort

theorem byScore_perm : (byScore embedder store embedding).Perm (Dict.values store) := List.mergeSort_perm _ _

theorem byScore_order (h : embedder.Orders) : (byScore embedder store embedding).Pairwise fun a b =>
    embedder.le (embedder.similarity embedding b.embedding) (embedder.similarity embedding a.embedding) = true := by
  have hsorted := @List.pairwise_mergeSort (VectorRecord V) fun a b =>
    embedder.le (embedder.similarity embedding b.embedding) (embedder.similarity embedding a.embedding)
  exact hsorted (fun _ _ _ hab hbc => h.trans _ _ _ hbc hab) (fun _ _ => h.total _ _) _

theorem byScore_omitted (h : embedder.Orders) (ha : a ∈ (byScore embedder store embedding).take n)
    (hb : b ∈ Dict.values store) (hout : b ∉ (byScore embedder store embedding).take n) :
    embedder.le (embedder.similarity embedding b.embedding) (embedder.similarity embedding a.embedding) = true :=
  rel_of_take (byScore_order h) ha (mem_byScore.2 hb) hout

end VectorStore
end BankingAi
