import Mathlib.Algebra.Order.Ring.Rat
import BankingAi.Ai.VectorStore
import BankingAi.Lib.DictHistory
import BankingAi.Lib.Paging

/-!
# Ranking the vector store

What a search returns after any batches, in terms of the records in the order of their upserts. The scores are
exact.
-/

namespace BankingAi

/-- The vectors are normalised, so the dot product is the cosine; the longer one is cut. -/
def cosineSimilarity (a b : List ℚ) : ℚ := (List.zipWith (· * ·) a b).sum

/-- An embedder of exact vectors. -/
def exactEmbedder (dimensions : ℕ) (embed : String → List ℚ) : Embedder (List ℚ) ℚ where
  dimensions
  embed
  similarity := cosineSimilarity
  le a b := decide (a ≤ b)

namespace VectorStore

section history

variable {V : Type}

/-- The store after batches. -/
def ofBatches (batches : List (List (VectorRecord V))) : VectorStore V := batches.foldl upsert Dict.empty

/-- A record under its key. -/
def keyed (record : VectorRecord V) : String × VectorRecord V := (record.chunkId, record)

/-- The record that was upserted last under an id. -/
def latest (history : List (VectorRecord V)) (chunkId : String) : Option (VectorRecord V) :=
  history.reverse.find? (·.chunkId = chunkId)

/-- How many records came before the first one with this id. -/
def firstInsertion (history : List (VectorRecord V)) (chunkId : String) : ℕ :=
  (history.map VectorRecord.chunkId).idxOf chunkId

theorem upsert_eq (store : VectorStore V) (records : List (VectorRecord V)) :
    upsert store records = Dict.setAll store (records.map keyed) := by
  rw [upsert, Dict.setAll, List.foldl_map]
  rfl

/-- Only the order of the records counts, not their batches. -/
theorem ofBatches_eq (batches : List (List (VectorRecord V))) :
    ofBatches batches = Dict.ofList (batches.flatten.map keyed) := by
  unfold ofBatches
  induction batches using List.reverseRecOn with
  | nil => rfl
  | append_singleton batches batch ih =>
    rw [List.foldl_append, ih, List.foldl_cons, List.foldl_nil, upsert_eq, List.flatten_append, List.map_append,
      List.flatten_singleton, Dict.ofList_eq_setAll, Dict.ofList_eq_setAll, Dict.setAll_append]

theorem ofBatches_repeat (before after : List (List (VectorRecord V))) (batch : List (VectorRecord V)) :
    ofBatches (before ++ batch :: batch :: after) = ofBatches (before ++ batch :: after) := by
  unfold ofBatches
  rw [List.foldl_append, List.foldl_append, List.foldl_cons, List.foldl_cons, List.foldl_cons]
  congr 1
  rw [upsert_eq, upsert_eq, Dict.setAll_setAll]

variable {history : List (VectorRecord V)}

theorem map_fst_keyed : (history.map keyed).map Prod.fst = history.map VectorRecord.chunkId := by
  rw [List.map_map]
  rfl

theorem latest_chunkId {chunkId : String} {record : VectorRecord V} (h : latest history chunkId = some record) :
    record.chunkId = chunkId := by
  simpa using List.find?_some h

theorem get?_ofList_keyed (chunkId : String) :
    (Dict.ofList (history.map keyed)).get? chunkId = latest history chunkId := by
  rw [Dict.get?_ofList_last, ← List.map_reverse, List.find?_map, Option.map_map]
  exact Option.map_id'

theorem mem_values_ofList {record : VectorRecord V} :
    record ∈ (Dict.ofList (history.map keyed)).values ↔ latest history record.chunkId = some record := by
  rw [← get?_ofList_keyed, Dict.get?_eq_some, Dict.values, List.mem_map]
  constructor
  · rintro ⟨⟨chunkId, record'⟩, hmem, rfl⟩
    have hget := Dict.get?_eq_some.2 hmem
    rw [get?_ofList_keyed] at hget
    show (record'.chunkId, record') ∈ _
    rw [latest_chunkId hget]
    exact hmem
  · exact fun hmem => ⟨_, hmem, rfl⟩

theorem map_chunkId_values :
    (Dict.ofList (history.map keyed)).values.map VectorRecord.chunkId = (Dict.ofList (history.map keyed)).keys := by
  rw [Dict.values, Dict.keys, List.map_map]
  refine List.map_congr_left fun p hp => ?_
  have hget := Dict.get?_eq_some.2 hp
  rw [get?_ofList_keyed] at hget
  exact latest_chunkId hget

end history

/-! ### A search -/

variable (embedding : List ℚ) (dimensions : ℕ) (embed : String → List ℚ)

/-- The order of hits: by score, and by first insertion where the scores are equal. -/
def Outranks (history : List (VectorRecord (List ℚ))) (a b : ScoredRecord (List ℚ) ℚ) : Prop :=
  b.score < a.score ∨
    b.score = a.score ∧ firstInsertion history a.record.chunkId < firstInsertion history b.record.chunkId

/-- The hits that a history calls for. -/
structure Ranked (history : List (VectorRecord (List ℚ))) (topK : ℤ) (hits : List (ScoredRecord (List ℚ) ℚ)) :
    Prop where
  size : (hits.length : ℤ) = min (max 0 topK) (history.map VectorRecord.chunkId).dedup.length
  distinct : (hits.map (·.record.chunkId)).Nodup
  latest : ∀ hit ∈ hits, latest history hit.record.chunkId = some hit.record
  scores : ∀ hit ∈ hits, hit.score = cosineSimilarity embedding hit.record.embedding
  order : hits.Pairwise (Outranks history)
  omitted : ∀ record, VectorStore.latest history record.chunkId = some record →
    record.chunkId ∉ hits.map (·.record.chunkId) →
      ∀ hit ∈ hits, cosineSimilarity embedding record.embedding ≤ hit.score

/-- The records with their scores, in the order of first insertion. -/
def scored (history : List (VectorRecord (List ℚ))) : List (ScoredRecord (List ℚ) ℚ) :=
  (Dict.ofList (history.map keyed)).values.map fun r => ⟨r, cosineSimilarity embedding r.embedding⟩

/-- The scored records, best first. -/
def ranking (history : List (VectorRecord (List ℚ))) : List (ScoredRecord (List ℚ) ℚ) :=
  (scored embedding history).mergeSort fun a b => decide (b.score ≤ a.score)

section ranking

variable {embedding} {history : List (VectorRecord (List ℚ))}

theorem query_eq (topK : ℤ) (batches : List (List (VectorRecord (List ℚ)))) :
    query (exactEmbedder dimensions embed) (ofBatches batches) embedding topK =
      (ranking embedding batches.flatten).take topK.toNat := by
  rw [ofBatches_eq]
  rfl

theorem ranking_perm : (ranking embedding history).Perm (scored embedding history) := List.mergeSort_perm _ _

theorem map_chunkId_scored : (scored embedding history).map (·.record.chunkId) =
    (Dict.ofList (history.map keyed)).keys := by
  rw [scored, List.map_map]
  exact map_chunkId_values

theorem length_ranking :
    (ranking embedding history).length = (history.map VectorRecord.chunkId).dedup.length := by
  rw [ranking_perm.length_eq, ← List.length_map (·.record.chunkId), map_chunkId_scored, Dict.length_keys_ofList,
    map_fst_keyed]

theorem nodup_ranking : ((ranking embedding history).map (·.record.chunkId)).Nodup := by
  rw [(ranking_perm.map _).nodup_iff, map_chunkId_scored]
  exact Dict.nodup _

theorem mem_ranking {hit : ScoredRecord (List ℚ) ℚ} : hit ∈ ranking embedding history ↔
    latest history hit.record.chunkId = some hit.record ∧
      hit.score = cosineSimilarity embedding hit.record.embedding := by
  rw [ranking_perm.mem_iff, scored, List.mem_map]
  constructor
  · rintro ⟨record, hrecord, rfl⟩
    exact ⟨mem_values_ofList.1 hrecord, rfl⟩
  · rintro ⟨hlatest, hscore⟩
    exact ⟨hit.record, mem_values_ofList.2 hlatest, by rw [← hscore]⟩

theorem scored_inserted : (scored embedding history).Pairwise fun a b =>
    firstInsertion history a.record.chunkId < firstInsertion history b.record.chunkId := by
  have hkeys := Dict.pairwise_keys_ofList (history.map keyed)
  rw [map_fst_keyed, ← @map_chunkId_scored embedding, List.pairwise_map] at hkeys
  exact hkeys

theorem ranking_outranks : (ranking embedding history).Pairwise (Outranks history) := by
  have hstable := @pairwise_mergeSort_stable (ScoredRecord (List ℚ) ℚ)
    (fun a b => decide (b.score ≤ a.score)) _ _
    (fun a b c hab hbc => decide_eq_true ((of_decide_eq_true hbc).trans (of_decide_eq_true hab)))
    (fun a b => by
      rw [Bool.or_eq_true, decide_eq_true_iff, decide_eq_true_iff]
      exact le_total _ _)
    (@scored_inserted embedding history)
  refine hstable.imp fun {a b} h => ?_
  rcases (of_decide_eq_true h.1).lt_or_eq with hlt | heq
  · exact .inl hlt
  · exact .inr ⟨heq, h.2 (decide_eq_true heq.ge)⟩

theorem ranked_take (topK : ℤ) : Ranked embedding history topK ((ranking embedding history).take topK.toNat) where
  size := by
    rw [List.length_take, length_ranking]
    omega
  distinct := by
    rw [List.map_take]
    exact nodup_ranking.sublist (List.take_sublist _ _)
  latest hit hhit := (mem_ranking.1 (List.mem_of_mem_take hhit)).1
  scores hit hhit := (mem_ranking.1 (List.mem_of_mem_take hhit)).2
  order := ranking_outranks.sublist (List.take_sublist _ _)
  omitted record hlatest hout hit hhit := by
    have hmem : ⟨record, cosineSimilarity embedding record.embedding⟩ ∈ ranking embedding history :=
      mem_ranking.2 ⟨hlatest, rfl⟩
    have hrank := rel_of_take ranking_outranks hhit hmem fun htaken =>
      hout (List.mem_map_of_mem (f := fun hit : ScoredRecord (List ℚ) ℚ => hit.record.chunkId) htaken)
    rcases hrank with hlt | ⟨heq, -⟩
    · exact hlt.le
    · exact heq.le

end ranking

/-- A search after any batches returns the best of the latest records, a longer one extends it, and only the
order of the records counts: not how they are batched, nor whether a batch is repeated. -/
theorem vector_query_ranked (batches : List (List (VectorRecord (List ℚ)))) (embedding : List ℚ) (topK : ℤ)
    (dimensions : ℕ) (embed : String → List ℚ) :
    let search batches topK := query (exactEmbedder dimensions embed) (ofBatches batches) embedding topK
    Ranked embedding batches.flatten topK (search batches topK) ∧
      (∀ longer, topK ≤ longer → search batches topK <+: search batches longer) ∧
      (∀ batches', batches'.flatten = batches.flatten → search batches' topK = search batches topK) ∧
      ∀ before batch after, batches = before ++ batch :: after →
        search (before ++ batch :: batch :: after) topK = search batches topK := by
  intro search
  refine ⟨?_, fun longer hle => ?_, fun batches' hflatten => ?_, fun before batch after hbatches => ?_⟩
  · unfold search
    rw [query_eq]
    exact ranked_take topK
  · unfold search
    rw [query_eq, query_eq]
    exact List.take_prefix_take_left (by omega)
  · unfold search
    rw [query_eq, query_eq, hflatten]
  · unfold search
    rw [hbatches, ofBatches_repeat]

end VectorStore
end BankingAi
