import Mathlib.Data.Int.Notation
import BankingAi.Lib.Dict

/-!
# The vector store

Records keyed by chunk, searched by the similarity of their embeddings. The embedder and the
similarity are given: the vectors they work on are opaque here.
-/

namespace BankingAi

/-- An embedder, with the similarity of its vectors; `le` compares two scores. -/
structure Embedder (V S : Type) where
  dimensions : ℕ
  embed : String → V
  similarity : V → V → S
  le : S → S → Bool

structure VectorRecord (V : Type) where
  chunkId : String
  documentId : String
  text : String
  embedding : V
  filename : Option String

structure ScoredRecord (V S : Type) where
  record : VectorRecord V
  score : S

abbrev VectorStore (V : Type) := Dict String (VectorRecord V)

namespace VectorStore

variable {V S : Type}

def upsert (store : VectorStore V) (records : List (VectorRecord V)) : VectorStore V :=
  records.foldl (fun store record => Dict.set store record.chunkId record) store

/-- The best `topK` records; records of equal score stay in order. -/
def query (embedder : Embedder V S) (store : VectorStore V) (embedding : V) (topK : ℤ) :
    List (ScoredRecord V S) :=
  let scored := (Dict.values store).map fun r => ⟨r, embedder.similarity embedding r.embedding⟩
  (scored.mergeSort fun a b => embedder.le b.score a.score).take topK.toNat

theorem mem_of_mem_query {embedder : Embedder V S} {store : VectorStore V} {embedding : V} {topK : ℤ}
    {hit : ScoredRecord V S} (h : hit ∈ query embedder store embedding topK) :
    hit.record ∈ Dict.values store := by
  have hmem := List.mem_of_mem_take h
  rw [List.mem_mergeSort] at hmem
  obtain ⟨r, hr, rfl⟩ := List.mem_map.1 hmem
  exact hr

theorem entries_upsert {store : VectorStore V} {records : List (VectorRecord V)}
    (hnew : ∀ r ∈ records, r.chunkId ∉ Dict.keys store) (hnd : (records.map VectorRecord.chunkId).Nodup) :
    (upsert store records).entries = store.entries ++ records.map fun r => (r.chunkId, r) := by
  induction records generalizing store with
  | nil => simp [upsert]
  | cons r records ih =>
    rw [List.map_cons, List.nodup_cons] at hnd
    have hset : (Dict.set store r.chunkId r).entries = store.entries ++ [(r.chunkId, r)] :=
      Dict.set_of_not_mem (hnew r List.mem_cons_self)
    have hrest := @ih (Dict.set store r.chunkId r) (fun r' hr' hmem => ?_) hnd.2
    · show (upsert (Dict.set store r.chunkId r) records).entries = _
      rw [hrest, hset]
      simp
    · rcases Dict.mem_keys_set.1 hmem with heq | hmem
      · exact hnd.1 (heq ▸ List.mem_map_of_mem hr')
      · exact hnew r' (List.mem_cons_of_mem _ hr') hmem

end VectorStore
end BankingAi
