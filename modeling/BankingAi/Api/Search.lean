import BankingAi.Agents.Grounding
import BankingAi.Ai.HashingEmbedder
import BankingAi.Ai.VectorSearch
import BankingAi.Api.ExceptionHandlers
import BankingAi.Api.SearchIndex

/-!
# The search endpoint

`GET /search` runs the retrieval agent on the index that uploads fill. The index is memory of the
process: here one process starts with empty tables and an empty index, serves all the requests one
after another and is not restarted. After any such run a search returns the best records of the index; a
committed chunk is left out only for hits that are no worse, whatever failed on the way, and where no
upload failed late the hits are the best chunks of the table.
-/

namespace BankingAi

open Posix SessionM

variable {V S σ : Type}

/-- A validated query string. -/
structure SearchRequest where
  claims : Claims
  q : String
  q_length : 1 ≤ q.length ∧ q.length ≤ 1000
  topK : ℤ
  topK_mem : 1 ≤ topK ∧ topK ≤ 50

structure SearchResponse where
  query : String
  hits : List SearchHit

def retrievalAgent (retriever : Retriever V S) : BaseAgent RetrievalInput RetrievalOutput where
  name := "retrieval_agent"
  promptVersion := none
  run := RetrievalAgent.run retriever

/-- `outcome.error or "Search failed."`. -/
def searchError (error : Option String) : String :=
  match error with
  | some error => if error = "" then "Search failed." else error
  | none => "Search failed."

def search (svc : DocumentService V S) (rounded : S → PyFloat) (latencyMs : ℕ) (s : LibraryState V)
    (req : SearchRequest) : Except Exn SearchResponse := do
  (Principal.fromClaims req.claims).require [Permission.searchRead.value]
  let agent := retrievalAgent { embedder := svc.embedder, store := s.world.vectors, rounded }
  let outcome := agent.execute { query := req.q, topK := req.topK, topK_mem := req.topK_mem } latencyMs
  match outcome.output with
  | none => .error (.new .agent (searchError outcome.error) [])
  | some output => .ok { query := req.q, hits := output.hits }

/-! ### What it should return -/

def DocumentService.similarityTo (svc : DocumentService V S) (q text : String) : S :=
  svc.embedder.similarity (svc.embedder.embed q) (svc.embedder.embed text)

/-- The hit is the chunk, with the name of its document. -/
structure SearchHit.Shows (db : Library V) (c : DocumentChunk) (hit : SearchHit) : Prop where
  chunkId : hit.chunkId = c.id
  documentId : hit.documentId = c.documentId
  text : hit.text = c.content
  filename : ∃ d ∈ db.documents, d.id = c.documentId ∧ hit.filename = some d.filename

/-- The best hits, among which no committed chunk is missing. -/
structure Finds (svc : DocumentService V S) (rounded : S → PyFloat) (db : Library V) (req : SearchRequest)
    (hits : List SearchHit) : Prop where
  size : (hits.length : ℤ) ≤ req.topK
  distinct : (hits.map SearchHit.chunkId).Nodup
  scores : ∀ hit ∈ hits, hit.score = rounded (svc.similarityTo req.q hit.text)
  order : hits.Pairwise fun a b =>
    svc.embedder.le (svc.similarityTo req.q b.text) (svc.similarityTo req.q a.text) = true
  found : ∀ c ∈ db.chunks, (∃ hit ∈ hits, hit.Shows db c) ∨
    (hits.length : ℤ) = req.topK ∧
      ∀ hit ∈ hits, svc.embedder.le (svc.similarityTo req.q c.content) (svc.similarityTo req.q hit.text) = true

/-- The hits are chunks of the table: of two that compare both ways the earlier one comes first. -/
def FindsChunks (svc : DocumentService V S) (db : Library V) (req : SearchRequest) (hits : List SearchHit) : Prop :=
  ∃ chunks, List.Forall₂ (SearchHit.Shows db) chunks hits ∧ (∀ c ∈ chunks, c ∈ db.chunks) ∧
    (chunks.length : ℤ) = min req.topK db.chunks.length ∧
    chunks.Pairwise fun a b =>
      svc.embedder.le (svc.similarityTo req.q a.content) (svc.similarityTo req.q b.content) = true →
        [a, b].Sublist db.chunks

theorem Finds.first {svc : DocumentService V S} {rounded : S → PyFloat} {db : Library V} {req : SearchRequest}
    {hits : List SearchHit} (h : Finds svc rounded db req hits) (horders : svc.embedder.Orders) {c : DocumentChunk}
    (hc : c ∈ db.chunks) : ∃ hit ∈ hits.head?,
      svc.embedder.le (svc.similarityTo req.q c.content) (svc.similarityTo req.q hit.text) = true := by
  have hrefl : ∀ a, svc.embedder.le a a = true := fun a => by simpa using horders.total a a
  cases hits with
  | nil =>
    rcases h.found c hc with ⟨hit, hhit, -⟩ | ⟨hsize, -⟩
    · exact absurd hhit List.not_mem_nil
    · have hpos := req.topK_mem.1
      rw [← hsize] at hpos
      exact absurd hpos (by simp)
  | cons first hits =>
    refine ⟨first, rfl, ?_⟩
    rcases h.found c hc with ⟨hit, hhit, hshows⟩ | ⟨-, hle⟩
    · rw [← hshows.text]
      rcases List.mem_cons.1 hhit with rfl | hhit
      · exact hrefl _
      · exact (List.pairwise_cons.1 h.order).1 hit hhit
    · exact hle first List.mem_cons_self

/-! ### The hits of a state -/

section hits

variable {svc : DocumentService V S} {rounded : S → PyFloat} {s : LibraryState V} {req : SearchRequest}
  {hits : List SearchHit}

/-- The records that a search returns. -/
def bestRecords (svc : DocumentService V S) (s : LibraryState V) (req : SearchRequest) : List (VectorRecord V) :=
  (VectorStore.byScore svc.embedder s.world.vectors (svc.embedder.embed req.q)).take req.topK.toNat

/-- The best chunks of the table. -/
def bestChunks (svc : DocumentService V S) (db : Library V) (req : SearchRequest) : List DocumentChunk :=
  (db.chunks.mergeSort fun a b =>
    svc.embedder.le (svc.similarityTo req.q b.content) (svc.similarityTo req.q a.content)).take req.topK.toNat

/-- The hit that a record becomes. -/
structure SearchHit.Of (svc : DocumentService V S) (rounded : S → PyFloat) (q : String) (r : VectorRecord V)
    (hit : SearchHit) : Prop where
  documentId : Uuid.ofStr? r.documentId = some hit.documentId
  chunkId : Uuid.ofStr? r.chunkId = some hit.chunkId
  score : hit.score = rounded (svc.embedder.similarity (svc.embedder.embed q) r.embedding)
  text : hit.text = r.text
  filename : hit.filename = r.filename

theorem hit_of_vectorRecord (q : String) (d : Document) (u : Uuid) (content : String) :
    ∃ hit, RetrievalAgent.hit ⟨svc.embedder, s.world.vectors, rounded⟩
      ⟨svc.vectorRecord d u content, svc.embedder.similarity (svc.embedder.embed q)
        (svc.vectorRecord d u content).embedding⟩ = .ok hit := by
  refine ⟨⟨d.id, u, rounded (svc.embedder.similarity (svc.embedder.embed q) (svc.embedder.embed content)), content,
    some d.filename⟩, ?_⟩
  unfold RetrievalAgent.hit RetrievalAgent.parseUuid DocumentService.vectorRecord
  simp only [Uuid.ofStr?_str]
  rfl

theorem exists_hits (hc : s.Covered svc) (rounded : S → PyFloat) (req : SearchRequest) :
    ∃ hits, RetrievalAgent.run ⟨svc.embedder, s.world.vectors, rounded⟩ ⟨req.q, req.topK, req.topK_mem⟩ =
        .ok ⟨req.q, hits⟩ ∧
      List.Forall₂ (SearchHit.Of svc rounded req.q) (bestRecords svc s req) hits := by
  have hmap : ∃ hits, (VectorStore.query svc.embedder s.world.vectors (svc.embedder.embed req.q) req.topK).mapM
      (RetrievalAgent.hit ⟨svc.embedder, s.world.vectors, rounded⟩) = .ok hits := by
    refine exists_mapM.2 fun result hresult => ?_
    rw [VectorStore.query_byScore] at hresult
    obtain ⟨r, hr, rfl⟩ := List.mem_map.1 hresult
    obtain ⟨d, u, content, -, rfl⟩ := hc.made r (VectorStore.mem_byScore.1 (List.mem_of_mem_take hr))
    exact hit_of_vectorRecord req.q d u content
  obtain ⟨hits, hhits⟩ := hmap
  refine ⟨hits, ?_, ?_⟩
  · unfold RetrievalAgent.run
    dsimp only
    rw [hhits]
    rfl
  · have hforall := except_mapM_eq_ok.1 hhits
    rw [VectorStore.query_byScore, List.forall₂_map_left_iff] at hforall
    refine hforall.imp fun r hit h => ?_
    obtain ⟨hdocument, hchunk, hfilename, htext⟩ := ComplianceAgent.hit_eq_ok h
    obtain ⟨_, _, h⟩ := except_bind_eq_ok.1 h
    obtain ⟨_, _, h⟩ := except_bind_eq_ok.1 h
    cases h
    exact ⟨hdocument, hchunk, rfl, htext, hfilename⟩

/-- What a hit says of its record, and how similar that is. -/
structure SearchHit.Reports (svc : DocumentService V S) (rounded : S → PyFloat) (q : String) (r : VectorRecord V)
    (hit : SearchHit) : Prop where
  chunkId : r.chunkId = hit.chunkId.str
  similarity : svc.embedder.similarity (svc.embedder.embed q) r.embedding = svc.similarityTo q hit.text
  score : hit.score = rounded (svc.similarityTo q hit.text)

theorem reports (hc : s.Covered svc) (h : List.Forall₂ (SearchHit.Of svc rounded req.q) (bestRecords svc s req) hits) :
    List.Forall₂ (SearchHit.Reports svc rounded req.q) (bestRecords svc s req) hits := by
  have hmade : ∀ r ∈ bestRecords svc s req, ∃ d u content, r = svc.vectorRecord d u content := fun r hr => by
    obtain ⟨d, u, content, -, hmade⟩ := hc.made r (VectorStore.mem_byScore.1 (List.mem_of_mem_take hr))
    exact ⟨d, u, content, hmade⟩
  refine ((List.forall₂_and_left _ _).2 ⟨hmade, h⟩).imp ?_
  rintro _ hit ⟨⟨d, u, content, rfl⟩, hof⟩
  have hu : some u = some hit.chunkId := (Uuid.ofStr?_str u).symm.trans hof.chunkId
  have htext : hit.text = content := hof.text
  refine ⟨congrArg Uuid.str (Option.some.inj hu), ?_, hof.score.trans ?_⟩
  · rw [htext]
    rfl
  · rw [htext]
    rfl

theorem shows_of {db : Library V} {c : DocumentChunk} {r : VectorRecord V} {hit : SearchHit} (hr : svc.Records db c r)
    (h : SearchHit.Of svc rounded req.q r hit) : hit.Shows db c := by
  obtain ⟨d, hd, hid, rfl⟩ := hr
  have hu : some c.id = some hit.chunkId := (Uuid.ofStr?_str c.id).symm.trans h.chunkId
  have hd' : some d.id = some hit.documentId := (Uuid.ofStr?_str d.id).symm.trans h.documentId
  exact ⟨(Option.some.inj hu).symm, (Option.some.inj hd').symm.trans hid, h.text, d, hd, hid, h.filename⟩

theorem nodup_chunkIds (hc : s.Covered svc) : ((Dict.values s.world.vectors).map VectorRecord.chunkId).Nodup := by
  have hkeys : (Dict.values s.world.vectors).map VectorRecord.chunkId = Dict.keys s.world.vectors := by
    rw [Dict.values, Dict.keys, List.map_map]
    exact List.map_congr_left fun q hq => (hc.keys q hq).symm
  rw [hkeys]
  exact Dict.nodup _

theorem finds_of_covered (horders : svc.embedder.Orders) (hc : s.Covered svc)
    (hhits : List.Forall₂ (SearchHit.Of svc rounded req.q) (bestRecords svc s req) hits) :
    Finds svc rounded s.db req hits := by
  have hreports := reports hc hhits
  have hpos : 0 ≤ req.topK := le_trans zero_le_one req.topK_mem.1
  constructor
  · rw [← hhits.length_eq]
    have hle := List.length_take_le req.topK.toNat
      (VectorStore.byScore svc.embedder s.world.vectors (svc.embedder.embed req.q))
    unfold bestRecords
    omega
  · have hids : (bestRecords svc s req).map VectorRecord.chunkId = hits.map fun hit => hit.chunkId.str :=
      Table.map_eq_of_forall₂ (fun _ _ h => h.chunkId) hreports
    have hnodup : ((bestRecords svc s req).map VectorRecord.chunkId).Nodup :=
      ((VectorStore.byScore_perm.map _).nodup_iff.2 (nodup_chunkIds hc)).sublist ((List.take_sublist _ _).map _)
    rw [hids] at hnodup
    refine List.Nodup.of_map Uuid.str ?_
    rw [List.map_map]
    exact hnodup
  · intro hit hhit
    obtain ⟨r, -, hreport⟩ := Table.exists_of_forall₂ hreports.flip hhit
    exact hreport.score
  · have hsimilar := Table.map_eq_of_forall₂ (fun _ _ h => h.similarity) hreports
    have horder : (bestRecords svc s req).Pairwise fun a b => svc.embedder.le
        (svc.embedder.similarity (svc.embedder.embed req.q) b.embedding)
        (svc.embedder.similarity (svc.embedder.embed req.q) a.embedding) = true :=
      (VectorStore.byScore_order horders).sublist (List.take_sublist _ _)
    have hmapped := List.pairwise_map (f := fun hit : SearchHit => svc.similarityTo req.q hit.text) (l := hits)
      (R := fun a b => svc.embedder.le b a = true)
    rw [← hmapped, ← hsimilar, List.pairwise_map]
    exact horder
  · intro c hchunk
    obtain ⟨rs, hrs, hrecords⟩ := hc.committed
    obtain ⟨r, hr, hcr⟩ := Table.exists_of_forall₂ hrecords hchunk
    by_cases htaken : r ∈ bestRecords svc s req
    case pos =>
      obtain ⟨hit, hhit, hof⟩ := Table.exists_of_forall₂ hhits htaken
      exact .inl ⟨hit, hhit, shows_of hcr hof⟩
    right
    have hstored : r ∈ Dict.values s.world.vectors := hrs.subset hr
    refine ⟨?_, fun hit hhit => ?_⟩
    · -- otherwise no record would be left out
      have hlong : req.topK.toNat ≤
          (VectorStore.byScore svc.embedder s.world.vectors (svc.embedder.embed req.q)).length := by
        by_contra hshort
        refine htaken ?_
        rw [bestRecords, List.take_of_length_le (Nat.le_of_lt (Nat.lt_of_not_le hshort))]
        exact VectorStore.mem_byScore.2 hstored
      rw [← hhits.length_eq, bestRecords, List.length_take, Nat.min_eq_left hlong]
      omega
    · obtain ⟨r', hr', hreport⟩ := Table.exists_of_forall₂ hreports.flip hhit
      have hle := VectorStore.byScore_omitted horders hr' hstored htaken
      rw [hreport.similarity] at hle
      obtain ⟨d, -, -, rfl⟩ := hcr
      exact hle

/-- Over the index of the committed chunks a search finds chunks of the table. -/
theorem findsChunks_of_mirrored (horders : svc.embedder.Orders) (hm : s.Mirrored svc)
    (hhits : List.Forall₂ (SearchHit.Of svc rounded req.q) (bestRecords svc s req) hits) :
    FindsChunks svc s.db req hits := by
  have hpos : 0 ≤ req.topK := le_trans zero_le_one req.topK_mem.1
  have hrecords : List.Forall₂ (svc.Records s.db) (bestChunks svc s.db req) (bestRecords svc s req) := by
    refine List.forall₂_take _ (forall₂_mergeSort ?_ hm)
    rintro a _ a' _ ⟨d, -, -, rfl⟩ ⟨d', -, -, rfl⟩
    rfl
  have hstable := @pairwise_mergeSort_stable DocumentChunk
    (fun a b => svc.embedder.le (svc.similarityTo req.q b.content) (svc.similarityTo req.q a.content))
    (fun a b => [a, b].Sublist s.db.chunks) s.db.chunks (fun _ _ _ hab hbc => horders.trans _ _ _ hbc hab)
    (fun _ _ => horders.total _ _) (List.pairwise_iff_forall_sublist.2 fun h => h)
  refine ⟨bestChunks svc s.db req, ?_, fun c hc => ?_, ?_, ?_⟩
  · refine Table.forall₂_comp ?_ hrecords hhits
    intro c r hit hr hof
    exact shows_of hr hof
  · exact List.mem_mergeSort.1 (List.mem_of_mem_take hc)
  · rw [bestChunks, List.length_take, List.length_mergeSort]
    omega
  · exact (hstable.imp fun h => h.2).sublist (List.take_sublist _ _)

end hits

/-! ### Runs -/

section runs

variable (p : Platform V S σ) (svc : DocumentService V S) (files : FileSystem)
  (is : List (HttpRequest × Faults Exn)) (rounded : S → PyFloat) (latencyMs : ℕ) (req : SearchRequest)

theorem search_denied {s : LibraryState V} (h : Permission.searchRead.value ∉ permissionsForRoles req.claims.roles) :
    search svc rounded latencyMs s req = .error (missingPermission .searchRead) := by
  unfold search
  rw [require_of_missing h]
  rfl

theorem search_permitted (horders : svc.embedder.Orders)
    (h : Permission.searchRead.value ∈ permissionsForRoles req.claims.roles) :
    let s := (requestMachine p svc).run (.start files) is
    ∃ hits, search svc rounded latencyMs s req = .ok ⟨req.q, hits⟩ ∧ Finds svc rounded s.db req hits ∧
      (s.Mirrored svc → FindsChunks svc s.db req hits) := by
  intro s
  have hrequire : (Principal.fromClaims req.claims).require [Permission.searchRead.value] = .ok () :=
    Principal.require_eq_ok.2 (List.forall_mem_singleton.2 h)
  have hc : s.Covered svc := covered_run p svc files is
  obtain ⟨hits, hrun, hhits⟩ := exists_hits hc rounded req
  refine ⟨hits, ?_, finds_of_covered horders hc hhits, fun hm => findsChunks_of_mirrored horders hm hhits⟩
  have hagent : (retrievalAgent ⟨svc.embedder, s.world.vectors, rounded⟩).run ⟨req.q, req.topK, req.topK_mem⟩ =
      .ok ⟨req.q, hits⟩ := hrun
  unfold search
  rw [hrequire]
  dsimp only [bind, Except.bind]
  rw [BaseAgent.execute_of_ok hagent]

/-- After any run of the API a caller who may search gets the best hits, with every committed chunk
that is better than one of them; where no upload failed late they are the best chunks of the table. -/
theorem search_finds (horders : svc.embedder.Orders) :
    let m := requestMachine p svc
    let s := m.run (.start files) is
    (Permission.searchRead.value ∉ permissionsForRoles req.claims.roles →
      search svc rounded latencyMs s req = .error (missingPermission .searchRead)) ∧
    (Permission.searchRead.value ∈ permissionsForRoles req.claims.roles →
      ∃ hits, search svc rounded latencyMs s req = .ok ⟨req.q, hits⟩ ∧ Finds svc rounded s.db req hits ∧
        ((∀ t ∈ m.trace (.start files) is, ¬ HttpRequest.FailsLate svc t.pre t.input) →
          FindsChunks svc s.db req hits)) := by
  intro m s
  refine ⟨search_denied svc rounded latencyMs req, fun hperm => ?_⟩
  obtain ⟨hits, hok, hfinds, hchunks⟩ := search_permitted p svc files is rounded latencyMs req horders hperm
  exact ⟨hits, hok, hfinds, fun hlate => hchunks (mirrored_run p svc files hlate)⟩

end runs

/-! ### One word -/

theorem countingService_orders : countingService.embedder.Orders := Embedder.orders_of_linearOrder rfl

/-- A manager uploads a text of one word. -/
def oneWordRequest : HttpRequest where
  operation := .upload oneWord.claims oneWord.filename oneWord.contentType oneWord.data oneWord.kind
  header := some "upload-1"
  hex := "0123456789abcdef0123456789abcdef"
  hexLength := by decide

def oneWordSearch : SearchRequest where
  claims := oneWord.claims
  q := "a"
  q_length := by decide
  topK := 5
  topK_mem := by decide

theorem search_finds_one_word :
    let m := requestMachine plainPlatform countingService
    let s := m.run (.start freshFiles) [(oneWordRequest, .none)]
    ∃ hits, search countingService (fun n => .finite n) 3 s oneWordSearch = .ok ⟨"a", hits⟩ ∧
      Finds countingService (fun n => .finite n) s.db oneWordSearch hits ∧
        FindsChunks countingService s.db oneWordSearch hits := by
  intro m s
  have hperm : Permission.searchRead.value ∈ permissionsForRoles oneWordSearch.claims.roles := by decide +kernel
  obtain ⟨hits, hok, hfinds, hchunks⟩ := (search_finds plainPlatform countingService freshFiles [(oneWordRequest, .none)]
    (fun n => .finite n) 3 oneWordSearch countingService_orders).2 hperm
  refine ⟨hits, hok, hfinds, hchunks fun t ht => ?_⟩
  obtain rfl : t = m.fire (.start freshFiles) (oneWordRequest, .none) := List.mem_singleton.1 ht
  rintro ⟨-, -, -, j, -, hj⟩
  exact hj rfl

/-! ### Finding a text again -/

/-- The hashing embedder with exact vectors. -/
noncomputable def HashingEmbedder.exact (embedder : HashingEmbedder) : Embedder (List ℝ) ℝ where
  dimensions := embedder.dimensions
  embed := embedder.embed Real.sqrt
  similarity := dot
  le a b := decide (a ≤ b)

section hashing

variable (embedder : HashingEmbedder)

theorem HashingEmbedder.exact_orders : embedder.exact.Orders := Embedder.orders_of_linearOrder rfl

theorem HashingEmbedder.similarity_le (t t' : String) :
    embedder.exact.similarity (embedder.exact.embed t) (embedder.exact.embed t') ≤ 1 :=
  (dot_mem_unit (dot_l2Normalise_le _) (dot_l2Normalise_le _)).2

theorem HashingEmbedder.similarity_of_perm {t t' : String} (h : (embedderTokens t).Perm (embedderTokens t'))
    (hne : (embedder.rawVector t : List ℝ) ≠ embedder.zero) :
    embedder.exact.similarity (embedder.exact.embed t) (embedder.exact.embed t') = 1 := by
  have hsame : embedder.exact.embed t' = embedder.exact.embed t := by
    show l2Normalise Real.sqrt (embedder.rawVector t') = l2Normalise Real.sqrt (embedder.rawVector t)
    rw [HashingEmbedder.rawVector_perm h]
  rw [hsame]
  refine dot_l2Normalise fun hzero => hne ?_
  rw [HashingEmbedder.length_rawVector] at hzero
  exact hzero

/-- A search for the words of a committed chunk, in whatever order, returns a hit of similarity 1 first,
and the chunk itself unless all hits have similarity 1; no similarity is larger. The vector of the words
must not be zero, as it is where there are no words or their signs cancel. -/
theorem search_recalls (storage : LocalFileStorage) (sha256 : Bytes → String) (p : Platform (List ℝ) ℝ σ)
    (files : FileSystem) (is : List (HttpRequest × Faults Exn)) (rounded : ℝ → PyFloat) (latencyMs : ℕ)
    (req : SearchRequest) (hperm : Permission.searchRead.value ∈ permissionsForRoles req.claims.roles) :
    let svc : DocumentService (List ℝ) ℝ := ⟨storage, sha256, embedder.exact⟩
    let s := (requestMachine p svc).run (.start files) is
    ∃ hits, search svc rounded latencyMs s req = .ok ⟨req.q, hits⟩ ∧
      (∀ hit ∈ hits, svc.similarityTo req.q hit.text ≤ 1) ∧
        ∀ c ∈ s.db.chunks, (embedderTokens req.q).Perm (embedderTokens c.content) →
          (embedder.rawVector req.q : List ℝ) ≠ embedder.zero →
            (∃ hit ∈ hits.head?, hit.score = rounded 1) ∧
              ((∃ hit ∈ hits, hit.Shows s.db c) ∨ ∀ hit ∈ hits, hit.score = rounded 1) := by
  intro svc s
  obtain ⟨hits, hok, hfinds, -⟩ := search_permitted p svc files is rounded latencyMs req embedder.exact_orders hperm
  have hle : ∀ text, svc.similarityTo req.q text ≤ 1 := embedder.similarity_le req.q
  refine ⟨hits, hok, fun hit _ => hle hit.text, fun c hc hwords hne => ?_⟩
  have hone : svc.similarityTo req.q c.content = 1 := embedder.similarity_of_perm hwords hne
  have hbest : ∀ hit : SearchHit,
      svc.embedder.le (svc.similarityTo req.q c.content) (svc.similarityTo req.q hit.text) = true →
        svc.similarityTo req.q hit.text = 1 := fun hit h => by
    rw [hone] at h
    exact le_antisymm (hle hit.text) (of_decide_eq_true h)
  constructor
  · obtain ⟨hit, hhead, h⟩ := hfinds.first embedder.exact_orders hc
    refine ⟨hit, hhead, ?_⟩
    rw [hfinds.scores hit (List.mem_of_mem_head? hhead), hbest hit h]
  · rcases hfinds.found c hc with hshown | ⟨-, h⟩
    · exact .inl hshown
    · refine .inr fun hit hhit => ?_
      rw [hfinds.scores hit hhit, hbest hit (h hit hhit)]

end hashing

/-- To six places. -/
noncomputable def sixPlaces (x : ℝ) : PyFloat := .finite (round (x * 1000000) / 1000000)

/-- All digests are zeros here, so the vector of `n` words is `-n`. -/
def zeroEmbedder : HashingEmbedder where
  dimensions := 1
  sha256 _ := Vector.replicate 32 0
  dimensions_pos := le_rfl

/-- A manager uploads a text of two words. -/
def twoWordsRequest : HttpRequest where
  operation := .upload oneWord.claims oneWord.filename oneWord.contentType "b a".toUTF8.data.toList oneWord.kind
  header := some "upload-1"
  hex := "0123456789abcdef0123456789abcdef"
  hexLength := by decide

/-- They are searched for in the other order. -/
def twoWordsSearch : SearchRequest where
  claims := oneWord.claims
  q := "a b"
  q_length := by decide
  topK := 5
  topK_mem := by decide

theorem rawVector_twoWords : (zeroEmbedder.rawVector "a b" : List ℝ) ≠ zeroEmbedder.zero := by
  have htokens : embedderTokens "a b" = [['a'], ['b']] := by decide +kernel
  have hindex : ∀ token, zeroEmbedder.index token = 0 := fun token => Nat.mod_one _
  have hsign : ∀ token, (zeroEmbedder.sign token : ℝ) = -1 := fun token =>
    if_neg (by show ¬ ((0 : UInt8) &&& 1 ≠ 0); decide)
  rw [HashingEmbedder.rawVector, htokens]
  show (([0] : List ℝ).modify (zeroEmbedder.index ['a']) (· + zeroEmbedder.sign ['a'])).modify
    (zeroEmbedder.index ['b']) (· + zeroEmbedder.sign ['b']) ≠ [0]
  rw [hindex, hindex, hsign, hsign]
  norm_num

theorem search_recalls_two_words :
    let svc : DocumentService (List ℝ) ℝ := ⟨objectStorage, sampleDigest, zeroEmbedder.exact⟩
    let p : Platform (List ℝ) ℝ Unit := { plainPlatform with retriever := none }
    let s := (requestMachine p svc).run (.start freshFiles) [(twoWordsRequest, .none)]
    ∃ hits, search svc sixPlaces 3 s twoWordsSearch = .ok ⟨"a b", hits⟩ ∧
      ∃ c ∈ s.db.chunks, c.content = "b a" ∧ (∃ hit ∈ hits.head?, hit.score = sixPlaces 1) ∧
        ((∃ hit ∈ hits, hit.Shows s.db c) ∨ ∀ hit ∈ hits, hit.score = sixPlaces 1) := by
  intro svc p s
  have hperm : Permission.searchRead.value ∈ permissionsForRoles twoWordsSearch.claims.roles := by decide +kernel
  have hchunk : s.db.chunks.map DocumentChunk.content = ["b a"] := by decide +kernel
  obtain ⟨c, hc, hcontent⟩ := List.mem_map.1 (hchunk ▸ List.mem_singleton_self "b a")
  have hwords : (embedderTokens twoWordsSearch.q).Perm (embedderTokens c.content) := by
    rw [hcontent]
    decide +kernel
  obtain ⟨hits, hok, -, hfound⟩ := search_recalls zeroEmbedder objectStorage sampleDigest p freshFiles
    [(twoWordsRequest, .none)] sixPlaces 3 twoWordsSearch hperm
  obtain ⟨hfirst, hshown⟩ := hfound c hc hwords rawVector_twoWords
  exact ⟨hits, hok, c, hc, hcontent, hfirst, hshown⟩

end BankingAi
