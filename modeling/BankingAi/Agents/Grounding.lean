import BankingAi.Agents.Compliance
import BankingAi.Ai.VectorRanking
import BankingAi.Lib.Fallible

/-!
# When an answer is grounded

The agent calls an answer grounded as soon as the search finds something to cite, and a search finds something in
every store that is not empty. So a grounded answer rests on a chunk of positive similarity except where the store
has chunks and none is similar to the question: there the agent does not say that it found no relevant policy.
-/

namespace BankingAi.ComplianceAgent

section outcome

variable {V S σ : Type} {retriever : Retriever V S} {router : Option (InjectedRouter σ)} {payload : ComplianceInput}

/-- The results that the agent asks the store for. -/
def results (retriever : Retriever V S) (payload : ComplianceInput) : List (ScoredRecord V S) :=
  VectorStore.query retriever.embedder retriever.store (retriever.embedder.embed payload.question) payload.topK

/-- The answer without citations. -/
def noPolicy (question : String) : ComplianceOutput :=
  ⟨question, "No relevant policy was found for this question.", [], false, none⟩

/-- A citation names the chunk of a result. -/
structure SameChunk (citation : Citation) (result : ScoredRecord V S) : Prop where
  documentId : ∃ id, Uuid.ofStr? result.record.documentId = some id ∧ citation.documentId = id.str
  chunkId : ∃ id, Uuid.ofStr? result.record.chunkId = some id ∧ citation.chunkId = id.str
  filename : citation.filename = result.record.filename
  text : citation.text = result.record.text

/-- The citations are the results in their order, with the markers 1, 2, ... -/
structure CitesResults (citations : List Citation) (results : List (ScoredRecord V S)) : Prop where
  markers : citations.map Citation.marker = List.range' 1 results.length
  chunks : List.Forall₂ SameChunk citations results

theorem parseUuid_eq_ok {text : String} {id : Uuid} (h : RetrievalAgent.parseUuid text = .ok id) :
    Uuid.ofStr? text = some id := by
  unfold RetrievalAgent.parseUuid at h
  split at h
  case h_1 id' heq =>
    cases h
    exact heq
  case h_2 => cases h

theorem hit_eq_ok {result : ScoredRecord V S} {hit : SearchHit} (h : RetrievalAgent.hit retriever result = .ok hit) :
    Uuid.ofStr? result.record.documentId = some hit.documentId ∧
      Uuid.ofStr? result.record.chunkId = some hit.chunkId ∧ hit.filename = result.record.filename ∧
        hit.text = result.record.text := by
  obtain ⟨documentId, hdocument, h⟩ := except_bind_eq_ok.1 h
  obtain ⟨chunkId, hchunk, h⟩ := except_bind_eq_ok.1 h
  cases h
  exact ⟨parseUuid_eq_ok hdocument, parseUuid_eq_ok hchunk, rfl, rfl⟩

theorem citesResults {results : List (ScoredRecord V S)} {hits : List SearchHit}
    (h : results.mapM (RetrievalAgent.hit retriever) = .ok hits) : CitesResults (citations hits) results := by
  have hforall := except_mapM_eq_ok.1 h
  constructor
  · have hmarkers : (citations hits).map Citation.marker = (hits.zipIdx.map Prod.snd).map (1 + ·) := by
      rw [citations, List.map_map, List.map_map]
      exact List.map_congr_left fun p _ => Nat.add_comm _ _
    rw [hmarkers, List.zipIdx_map_snd, List.map_add_range', hforall.length_eq]
  · unfold citations
    rw [List.forall₂_map_left_iff]
    refine List.forall₂_iff_get.2 ⟨by simp [hforall.length_eq], fun i hi hi' => ?_⟩
    have hhit := (List.forall₂_iff_get.1 hforall).2 i hi' (by simpa using hi)
    obtain ⟨hdocument, hchunk, hfilename, htext⟩ := hit_eq_ok hhit
    simp only [List.get_eq_getElem, List.getElem_zipIdx] at hdocument hchunk hfilename htext ⊢
    exact ⟨⟨_, hdocument, rfl⟩, ⟨_, hchunk, rfl⟩, hfilename, htext⟩

/-- What a run may do: fail in the retrieval, find nothing, or ground its answer, if it returns one. -/
theorem run_cases (retriever : Retriever V S) (payload : ComplianceInput) :
    (∃ e, (results retriever payload).mapM (RetrievalAgent.hit retriever) = .error e ∧
        ∀ {σ : Type} (router : Option (InjectedRouter σ)), run retriever router payload = ⟨.error e, none⟩) ∨
      ∃ hits, (results retriever payload).mapM (RetrievalAgent.hit retriever) = .ok hits ∧
        ∀ {σ : Type} (router : Option (InjectedRouter σ)),
          (hits = [] → run retriever router payload = ⟨.ok (noPolicy payload.question), none⟩) ∧
          (hits ≠ [] → ∀ o, (run retriever router payload).result = .ok o →
            o.citations = citations hits ∧ o.grounded = true) := by
  cases hmap : (results retriever payload).mapM (RetrievalAgent.hit retriever) with
  | error e =>
    have hretrieval : RetrievalAgent.run retriever (retrievalInput payload) = .error e := by
      show ((results retriever payload).mapM (RetrievalAgent.hit retriever) >>= _) = _
      rw [hmap]
      rfl
    refine .inl ⟨e, rfl, fun router => ?_⟩
    rw [run, hretrieval]
  | ok hits =>
    have hretrieval : RetrievalAgent.run retriever (retrievalInput payload) = .ok ⟨payload.question, hits⟩ := by
      show ((results retriever payload).mapM (RetrievalAgent.hit retriever) >>= _) = _
      rw [hmap]
      rfl
    refine .inr ⟨hits, rfl, fun router => ⟨fun hempty => ?_, fun hne o ho => ?_⟩⟩
    · rw [run, hretrieval]
      exact if_pos (citations_eq_nil.2 hempty)
    · rw [run, hretrieval] at ho
      dsimp only at ho
      rw [if_neg (mt citations_eq_nil.1 hne)] at ho
      cases router with
      | none =>
        cases ho
        exact ⟨rfl, rfl⟩
      | some router =>
        dsimp only at ho
        cases hreply : (router.complete (request payload.question (citations hits)) none).reply with
        | error e =>
          rw [hreply] at ho
          cases ho
        | ok result =>
          rw [hreply] at ho
          cases ho
          exact ⟨rfl, rfl⟩

theorem run_of_no_results (h : results retriever payload = []) :
    run retriever router payload = ⟨.ok (noPolicy payload.question), none⟩ := by
  rcases run_cases retriever payload with ⟨e, hmap, -⟩ | ⟨hits, hmap, hruns⟩
  · rw [h] at hmap
    cases hmap
  · rw [h] at hmap
    cases hmap
    exact (hruns router).1 rfl

/-- An answer is grounded exactly if the search has results, which it cites. -/
theorem grounded_of_results (h : results retriever payload ≠ []) {o : ComplianceOutput}
    (ho : (run retriever router payload).result = .ok o) :
    o.grounded = true ∧ CitesResults o.citations (results retriever payload) := by
  rcases run_cases retriever payload with ⟨e, -, herror⟩ | ⟨hits, hmap, hruns⟩
  · rw [herror] at ho
    cases ho
  · have hne : hits ≠ [] := by
      rintro rfl
      exact h (List.forall₂_nil_right_iff.1 (except_mapM_eq_ok.1 hmap))
    obtain ⟨hcitations, hgrounded⟩ := (hruns router).2 hne o ho
    rw [hcitations]
    exact ⟨hgrounded, citesResults hmap⟩

theorem citations_eq {τ : Type} {router' : Option (InjectedRouter τ)} {o o' : ComplianceOutput}
    (ho : (run retriever router payload).result = .ok o) (ho' : (run retriever router' payload).result = .ok o') :
    o.citations = o'.citations := by
  rcases run_cases retriever payload with ⟨e, -, herror⟩ | ⟨hits, hmap, hruns⟩
  · rw [herror] at ho
    cases ho
  · by_cases hempty : hits = []
    · rw [(hruns router).1 hempty] at ho
      rw [(hruns router').1 hempty] at ho'
      cases ho
      cases ho'
      rfl
    · rw [((hruns router).2 hempty o ho).1, ((hruns router').2 hempty o' ho').1]

end outcome

/-! ### Exact scores -/

section exact

variable (dimensions : ℕ) (embed : String → List ℚ) (store : VectorStore (List ℚ)) (rounded : ℚ → PyFloat)

def exactRetriever : Retriever (List ℚ) ℚ := ⟨exactEmbedder dimensions embed, store, rounded⟩

/-- A stored chunk of positive similarity to the question. -/
def Similar (question : String) (record : VectorRecord (List ℚ)) : Prop :=
  0 < cosineSimilarity (embed question) record.embedding

/-- Grounded means supported: a grounded answer cites exactly the results, whatever the model says, and one of them
is similar to the question; without a similar chunk the agent has no answer and asks no model. -/
structure Supported {σ : Type} (payload : ComplianceInput) (router : Option (InjectedRouter σ)) : Prop where
  cites : ∀ o, (run (exactRetriever dimensions embed store rounded) router payload).result = .ok o →
    o.grounded = true → CitesResults o.citations (results (exactRetriever dimensions embed store rounded) payload)
  independent : ∀ {τ : Type} (router' : Option (InjectedRouter τ)) (o o' : ComplianceOutput),
    (run (exactRetriever dimensions embed store rounded) router payload).result = .ok o →
      (run (exactRetriever dimensions embed store rounded) router' payload).result = .ok o' →
        o.citations = o'.citations
  similar : ∀ o, (run (exactRetriever dimensions embed store rounded) router payload).result = .ok o →
    o.grounded = true → ∃ citation ∈ o.citations,
      ∃ result ∈ results (exactRetriever dimensions embed store rounded) payload,
        SameChunk citation result ∧ 0 < result.score
  unanswered : (∀ record ∈ Dict.values store, ¬ Similar embed payload.question record) →
    run (exactRetriever dimensions embed store rounded) router payload = ⟨.ok (noPolicy payload.question), none⟩

variable {dimensions embed store rounded} {payload : ComplianceInput}

theorem results_eq_nil : results (exactRetriever dimensions embed store rounded) payload = [] ↔
    Dict.values store = [] := by
  have htop := payload.topK_mem
  unfold results VectorStore.query
  dsimp only
  rw [List.take_eq_nil_iff, ← List.length_eq_zero_iff (l := List.mergeSort _ _), List.length_mergeSort,
    List.length_map, List.length_eq_zero_iff]
  constructor
  · rintro (h | h)
    · omega
    · exact h
  · exact .inr

theorem exists_similar_result {record : VectorRecord (List ℚ)} (hrecord : record ∈ Dict.values store)
    (hsimilar : Similar embed payload.question record) :
    ∃ result ∈ results (exactRetriever dimensions embed store rounded) payload, 0 < result.score := by
  have htop := payload.topK_mem
  have hle : ∀ a b : ScoredRecord (List ℚ) ℚ, decide (b.score ≤ a.score) = true ↔ b.score ≤ a.score :=
    fun a b => decide_eq_true_iff
  let scored : List (ScoredRecord (List ℚ) ℚ) :=
    (Dict.values store).map fun r => ⟨r, cosineSimilarity (embed payload.question) r.embedding⟩
  let ranked := scored.mergeSort fun a b => decide (b.score ≤ a.score)
  have hmem : ⟨record, cosineSimilarity (embed payload.question) record.embedding⟩ ∈ ranked :=
    (List.mergeSort_perm _ _).mem_iff.2 (List.mem_map_of_mem hrecord)
  have hsorted : ranked.Pairwise fun a b => decide (b.score ≤ a.score) := by
    refine List.pairwise_mergeSort (fun a b c hab hbc => ?_) (fun a b => ?_) scored
    · rw [hle] at hab hbc ⊢
      exact hbc.trans hab
    · rw [Bool.or_eq_true, hle, hle]
      exact le_total _ _
  show ∃ result ∈ ranked.take payload.topK.toNat, 0 < result.score
  obtain ⟨n, hn⟩ : ∃ n, payload.topK.toNat = n + 1 := ⟨payload.topK.toNat - 1, by omega⟩
  rw [hn]
  rcases hranked : ranked with _ | ⟨best, rest⟩
  · rw [hranked] at hmem
    cases hmem
  · rw [hranked] at hmem hsorted
    refine ⟨best, by simp, ?_⟩
    rcases List.mem_cons.1 hmem with heq | hrest
    · rw [← heq]
      exact hsimilar
    · exact lt_of_lt_of_le hsimilar ((hle _ _).1 (List.rel_of_pairwise_cons hsorted hrest))

end exact

/-- Whatever the store, the embedder, the question and the router, grounded means supported exactly if the store is
empty or some chunk in it is similar to the question. -/
theorem grounded_supported_iff {σ : Type} (dimensions : ℕ) (embed : String → List ℚ) (store : VectorStore (List ℚ))
    (rounded : ℚ → PyFloat) (payload : ComplianceInput) (router : Option (InjectedRouter σ)) :
    Supported dimensions embed store rounded payload router ↔
      Dict.values store = [] ∨ ∃ record ∈ Dict.values store, Similar embed payload.question record := by
  have hnil := @results_eq_nil dimensions embed store rounded payload
  constructor
  · intro h
    by_cases hempty : Dict.values store = []
    · exact .inl hempty
    · right
      by_contra hnone
      have hrun := h.unanswered fun record hrecord hsimilar => hnone ⟨record, hrecord, hsimilar⟩
      obtain ⟨hgrounded, -⟩ := grounded_of_results (mt hnil.1 hempty) (o := noPolicy payload.question) (by rw [hrun])
      cases hgrounded
  · intro h
    by_cases hempty : Dict.values store = []
    · have hrun : run _ router payload = _ := run_of_no_results (hnil.2 hempty)
      refine ⟨fun o ho hgrounded => ?_, fun router' o o' => citations_eq, fun o ho hgrounded => ?_, fun _ => hrun⟩
      all_goals
        rw [hrun] at ho
        cases ho
        cases hgrounded
    · obtain ⟨record, hrecord, hsimilar⟩ := h.resolve_left hempty
      have hcites := fun o (ho : (run _ router payload).result = .ok o) =>
        (grounded_of_results (mt hnil.1 hempty) ho).2
      refine ⟨fun o ho _ => hcites o ho, fun router' o o' => citations_eq, fun o ho _ => ?_, fun hnone => ?_⟩
      · obtain ⟨result, hresult, hpos⟩ := exists_similar_result hrecord hsimilar
        obtain ⟨citation, hcitation, hsame⟩ := Table.exists_of_forall₂ (hcites o ho).chunks.flip hresult
        exact ⟨citation, hcitation, result, hresult, hsame, hpos⟩
      · exact absurd hsimilar (hnone record hrecord)

/-- One chunk, at a right angle to every question. -/
def unrelatedStore : VectorStore (List ℚ) :=
  ⟨[("2", ⟨"2", "1", "Branch opening hours.", [0, 1], some "hours.txt"⟩)], by decide⟩

/-- The answer cites the unrelated chunk and counts as grounded. -/
theorem unrelated_grounded :
    ¬ Supported 2 (fun _ => [1, 0]) unrelatedStore (fun score => .finite score) ⟨"Wire transfer limits?", 4, by decide⟩
      (none : Option (InjectedRouter Unit)) := by
  intro h
  have hrun := h.unanswered fun record hrecord => by
    rw [List.mem_singleton.1 (show record ∈ [_] from hrecord)]
    simp [Similar, cosineSimilarity]
  obtain ⟨hgrounded, -⟩ := grounded_of_results
    (show results (exactRetriever 2 (fun _ => [1, 0]) unrelatedStore fun score => .finite score)
      ⟨"Wire transfer limits?", 4, by decide⟩ ≠ [] from mt results_eq_nil.1 (by decide))
    (o := noPolicy "Wire transfer limits?") (by rw [hrun])
  cases hgrounded

end BankingAi.ComplianceAgent
