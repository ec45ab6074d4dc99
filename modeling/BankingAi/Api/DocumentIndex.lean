import BankingAi.Services.IngestSpec

/-!
# Documents and the vector index

After any run of uploads the vector index agrees with the committed chunks exactly when no upload was
rolled back after its vectors had been indexed: the index is not part of the transaction.
-/

namespace BankingAi

open Posix SessionM

variable {V S : Type}

/-- The record of a chunk. -/
structure RecordOf (db : Library V) (c : DocumentChunk) (r : VectorRecord V) : Prop where
  chunkId : r.chunkId = c.id.str
  documentId : r.documentId = c.documentId.str
  text : r.text = c.content
  embedding : ∃ e ∈ db.embeddings, e.chunkId = c.id ∧ e.vector = r.embedding

/-- The chunks of a document are those of its text, in order. -/
structure DocumentChunked (svc : DocumentService V S) (db : Library V) (d : Document) : Prop where
  indices : (db.chunksOf d.id).map DocumentChunk.chunkIndex = List.range (db.chunksOf d.id).length
  text : ∃ data, d.storageKey = contentKey svc.sha256 d.filename data ∧ d.sizeBytes = data.length ∧
    (db.chunksOf d.id).map DocumentChunk.content = chunksOfText (decodeText data d.contentType)
  status : d.status = .processed ↔ db.chunksOf d.id ≠ []

/-- The vector index is that of the committed chunks. -/
structure Indexed (svc : DocumentService V S) (s : LibraryState V) : Prop where
  records : List.Forall₂ (RecordOf s.db) s.db.chunks (Dict.values s.world.vectors)
  chunkIds : (s.db.chunks.map DocumentChunk.id).Nodup
  documents : ∀ d ∈ s.db.documents, DocumentChunked svc s.db d
  hits : ∀ embedding topK, ∀ hit ∈ VectorStore.query svc.embedder s.world.vectors embedding topK,
    ∃ d ∈ s.db.documents, hit.record.documentId = d.id.str

/-- The upload is stored and its vectors indexed, and then the database fails: at the flush of its
status, at that of its audit entry or at the commit. -/
def LateFailure (svc : DocumentService V S) (s : LibraryState V) (i : UploadRequest × Faults Exn) : Prop :=
  (∃ user files key, i.1.Accepted user ∧
    svc.storage.put s.world.files (uploadKey svc i.1) i.1.data = (.ok key, files)) ∧
  i.1.contents ≠ [] ∧ (∀ j < i.1.contents.length + 1, i.2 j = none) ∧
  ∃ j < 3, i.2 (j + (i.1.contents.length + 1)) ≠ none

/-- What every state satisfies that no such failure led to. -/
structure LibraryInv (svc : DocumentService V S) (s : LibraryState V) : Prop where
  records : List.Forall₂ (RecordOf s.db) s.db.chunks (Dict.values s.world.vectors)
  keys : ∀ p ∈ s.world.vectors.entries, p.1 = p.2.chunkId
  chunkIds : (s.db.chunks.map DocumentChunk.id).Nodup
  documents : ∀ d ∈ s.db.documents, DocumentChunked svc s.db d
  owned : ∀ c ∈ s.db.chunks, ∃ d ∈ s.db.documents, d.id = c.documentId
  chunksDrawn : ∀ c ∈ s.db.chunks, c.id.draw < s.world.nextUuid
  documentsDrawn : ∀ d ∈ s.db.documents, d.id.draw < s.world.nextUuid

section inv

variable {svc : DocumentService V S} {s : LibraryState V}

theorem LibraryInv.indexed (h : LibraryInv svc s) : Indexed svc s where
  records := h.records
  chunkIds := h.chunkIds
  documents := h.documents
  hits embedding topK hit hhit := by
    obtain ⟨c, hc, hr⟩ := Table.exists_of_forall₂ h.records.flip (VectorStore.mem_of_mem_query hhit)
    obtain ⟨d, hd, hid⟩ := h.owned c hc
    exact ⟨d, hd, by rw [hr.documentId, hid]⟩

theorem LibraryInv.lt_of_mem_keys (h : LibraryInv svc s) {key : String}
    (hkey : key ∈ Dict.keys s.world.vectors) : ∃ u : Uuid, key = u.str ∧ u.draw < s.world.nextUuid := by
  obtain ⟨p, hp, rfl⟩ := List.mem_map.1 hkey
  obtain ⟨c, hc, hr⟩ := Table.exists_of_forall₂ h.records.flip (List.mem_map_of_mem (f := Prod.snd) hp)
  exact ⟨c.id, by rw [h.keys p hp, hr.chunkId], h.chunksDrawn c hc⟩

theorem LibraryInv.later (h : LibraryInv svc s) {w : LibraryWorld V} (hw : s.world.Later w) :
    LibraryInv svc ⟨s.db, w⟩ where
  records := by rw [hw.vectors]; exact h.records
  keys := by rw [hw.vectors]; exact h.keys
  chunkIds := h.chunkIds
  documents := h.documents
  owned := h.owned
  chunksDrawn c hc := (h.chunksDrawn c hc).trans_le hw.nextUuid
  documentsDrawn d hd := (h.documentsDrawn d hd).trans_le hw.nextUuid

theorem libraryInv_empty (files : FileSystem) :
    LibraryInv svc ⟨.empty, { nextUuid := 0, calls := [], files, vectors := .empty }⟩ where
  records := .nil
  keys _ hp := absurd hp List.not_mem_nil
  chunkIds := List.nodup_nil
  documents _ hd := absurd hd List.not_mem_nil
  owned _ hc := absurd hc List.not_mem_nil
  chunksDrawn _ hc := absurd hc List.not_mem_nil
  documentsDrawn _ hd := absurd hd List.not_mem_nil

end inv

/-! ### The vectors of an upload -/

section vectors

variable {svc : DocumentService V S} {s : LibraryState V} {document : Document} {contents : List String}

theorem mem_vectorRecords {m : ℕ} {r : VectorRecord V} (h : r ∈ vectorRecords svc document m contents) :
    ∃ u : Uuid, r.chunkId = u.str ∧ m ≤ u.draw := by
  induction contents generalizing m with
  | nil => exact absurd h List.not_mem_nil
  | cons content contents ih =>
    rcases List.mem_cons.1 h with rfl | h
    · exact ⟨⟨m⟩, rfl, le_rfl⟩
    · obtain ⟨u, hu, hm⟩ := ih h
      exact ⟨u, hu, by omega⟩

theorem nodup_vectorRecords (m : ℕ) :
    ((vectorRecords svc document m contents).map VectorRecord.chunkId).Nodup := by
  induction contents generalizing m with
  | nil => exact List.nodup_nil
  | cons content contents ih =>
    rw [vectorRecords, List.map_cons, List.nodup_cons]
    refine ⟨fun hmem => ?_, ih _⟩
    obtain ⟨r, hr, heq⟩ := List.mem_map.1 hmem
    obtain ⟨u, hu, hm⟩ := mem_vectorRecords hr
    have hid : u = ⟨m⟩ := Uuid.str_injective (hu.symm.trans heq)
    rw [hid] at hm
    change m + 2 ≤ m at hm
    omega

theorem vectorRecords_of_chunkRows (document : Document) (db : Library V) (index m : ℕ)
    (hemb : ∀ e ∈ embeddingRows svc m contents, e ∈ db.embeddings) :
    List.Forall₂ (RecordOf db) (chunkRows document.id index m contents)
      (vectorRecords svc document m contents) := by
  induction contents generalizing index m with
  | nil => exact .nil
  | cons content contents ih =>
    refine .cons ⟨rfl, rfl, rfl, _, hemb _ List.mem_cons_self, rfl, rfl⟩ (ih _ _ fun e he => ?_)
    exact hemb e (List.mem_cons_of_mem _ he)

theorem LibraryInv.entries_upsert (h : LibraryInv svc s) {m : ℕ} (hm : s.world.nextUuid ≤ m) :
    (VectorStore.upsert s.world.vectors (vectorRecords svc document m contents)).entries =
      s.world.vectors.entries ++ (vectorRecords svc document m contents).map fun r => (r.chunkId, r) := by
  refine VectorStore.entries_upsert (fun r hr hkey => ?_) (nodup_vectorRecords m)
  obtain ⟨u, hu, hum⟩ := mem_vectorRecords hr
  obtain ⟨u', hu', hlt⟩ := h.lt_of_mem_keys hkey
  have hid : u = u' := Uuid.str_injective (hu.symm.trans hu')
  rw [hid] at hum
  omega

theorem LibraryInv.values_upsert (h : LibraryInv svc s) {m : ℕ} (hm : s.world.nextUuid ≤ m) :
    Dict.values (VectorStore.upsert s.world.vectors (vectorRecords svc document m contents)) =
      Dict.values s.world.vectors ++ vectorRecords svc document m contents := by
  rw [Dict.values, h.entries_upsert hm, List.map_append, List.map_map]
  exact congrArg _ (List.map_id _)

end vectors

/-! ### A committed upload -/

section commit

variable {svc : DocumentService V S} {s : LibraryState V} {req : UploadRequest} {user : Uuid}

/-- The row of a committed document. -/
def committedRow (svc : DocumentService V S) (req : UploadRequest) (user : Uuid) (n : ℕ) : Document :=
  { DocumentService.documentRow (req.args user) (uploadKey svc req) ⟨n⟩ with
    status := DocumentService.finalStatus req.contents }

theorem documents_uploadDb (h : LibraryInv svc s) :
    (uploadDb svc req user s.world.nextUuid s.db).documents =
      s.db.documents ++ [committedRow svc req user s.world.nextUuid] := by
  refine Table.update_concat (fun d hd heq => ?_) rfl
  have hlt := h.documentsDrawn d hd
  rw [heq] at hlt
  exact lt_irrefl _ hlt

theorem chunksOf_uploadDb (id : Uuid) :
    (uploadDb svc req user s.world.nextUuid s.db).chunksOf id = s.db.chunksOf id ++
      if id = ⟨s.world.nextUuid⟩ then chunkRows ⟨s.world.nextUuid⟩ 0 (s.world.nextUuid + 1) req.contents
      else [] := by
  show List.filter _ (s.db.chunks ++ chunkRows ⟨s.world.nextUuid⟩ 0 (s.world.nextUuid + 1) req.contents) = _
  rw [List.filter_append]
  refine congrArg (s.db.chunksOf id ++ ·) ?_
  split
  case isTrue heq =>
    exact List.filter_eq_self.2 fun c hc => decide_eq_true ((mem_chunkRows hc).1.trans heq.symm)
  case isFalse hne =>
    refine List.filter_eq_nil_iff.2 fun c hc hid => hne ?_
    rw [← of_decide_eq_true hid, (mem_chunkRows hc).1]

theorem LibraryInv.chunksOf_eq_nil (h : LibraryInv svc s) : s.db.chunksOf ⟨s.world.nextUuid⟩ = [] := by
  refine List.filter_eq_nil_iff.2 fun c hc hid => ?_
  obtain ⟨d, hd, hdc⟩ := h.owned c hc
  have hlt := h.documentsDrawn d hd
  rw [hdc, of_decide_eq_true hid] at hlt
  exact lt_irrefl _ hlt

theorem DocumentChunked.of_chunksOf_eq {db db' : Library V} {d : Document} (h : DocumentChunked svc db d)
    (heq : db'.chunksOf d.id = db.chunksOf d.id) : DocumentChunked svc db' d := by
  obtain ⟨hindices, htext, hstatus⟩ := h
  rw [← heq] at hindices htext hstatus
  exact ⟨hindices, htext, hstatus⟩

theorem committedRow_chunked (h : LibraryInv svc s) :
    DocumentChunked svc (uploadDb svc req user s.world.nextUuid s.db)
      (committedRow svc req user s.world.nextUuid) := by
  have hrows : (uploadDb svc req user s.world.nextUuid s.db).chunksOf
      (committedRow svc req user s.world.nextUuid).id =
        chunkRows ⟨s.world.nextUuid⟩ 0 (s.world.nextUuid + 1) req.contents := by
    show Library.chunksOf _ ⟨s.world.nextUuid⟩ = _
    rw [chunksOf_uploadDb, h.chunksOf_eq_nil, if_pos rfl, List.nil_append]
  constructor
  · rw [hrows, map_chunkIndex_chunkRows, List.range_eq_range']
    have hlen := congrArg List.length
      (@map_content_chunkRows ⟨s.world.nextUuid⟩ req.contents 0 (s.world.nextUuid + 1))
    rw [List.length_map] at hlen
    rw [hlen]
  · refine ⟨req.data, rfl, rfl, ?_⟩
    rw [hrows, map_content_chunkRows]
    rfl
  · rw [hrows]
    show DocumentService.finalStatus req.contents = .processed ↔ _
    unfold DocumentService.finalStatus
    cases req.contents with
    | nil => simp [chunkRows]
    | cons content contents => simp [chunkRows]

theorem RecordOf.mono {db db' : Library V} (hemb : ∀ e ∈ db.embeddings, e ∈ db'.embeddings)
    {c : DocumentChunk} {r : VectorRecord V} (h : RecordOf db c r) : RecordOf db' c r :=
  let ⟨e, he, hid, hvec⟩ := h.embedding
  ⟨h.chunkId, h.documentId, h.text, e, hemb e he, hid, hvec⟩

theorem LibraryInv.commit (h : LibraryInv svc s) :
    LibraryInv svc ⟨uploadDb svc req user s.world.nextUuid s.db,
      (indexedWorld svc req user s.world).drawn 1⟩ where
  records := by
    show List.Forall₂ _ (s.db.chunks ++ chunkRows _ 0 (s.world.nextUuid + 1) req.contents)
      (Dict.values (VectorStore.upsert s.world.vectors (vectorRecords svc _ _ req.contents)))
    rw [h.values_upsert (Nat.le_succ _)]
    refine List.rel_append (h.records.imp fun c r => RecordOf.mono fun e he => ?_)
      (vectorRecords_of_chunkRows (DocumentService.documentRow _ _ _) _ _ _ fun e he => ?_)
    · exact List.mem_append_left _ he
    · exact List.mem_append_right _ he
  keys p hp := by
    have hentries : p ∈ (VectorStore.upsert s.world.vectors (vectorRecords svc _ _ req.contents)).entries := hp
    rw [h.entries_upsert (Nat.le_succ _)] at hentries
    rcases List.mem_append.1 hentries with hp | hp
    · exact h.keys p hp
    · obtain ⟨r, -, rfl⟩ := List.mem_map.1 hp
      rfl
  chunkIds := by
    show ((s.db.chunks ++ chunkRows _ 0 (s.world.nextUuid + 1) req.contents).map DocumentChunk.id).Nodup
    rw [List.map_append]
    refine List.nodup_append.2 ⟨h.chunkIds, nodup_chunkRows _ _, fun a ha b hb heq => ?_⟩
    obtain ⟨c, hc, rfl⟩ := List.mem_map.1 ha
    obtain ⟨c', hc', rfl⟩ := List.mem_map.1 hb
    have hlt := h.chunksDrawn c hc
    have hlow := (mem_chunkRows hc').2.1
    rw [heq] at hlt
    omega
  documents d hd := by
    have hd : d ∈ (uploadDb svc req user s.world.nextUuid s.db).documents := hd
    rw [documents_uploadDb h] at hd
    rcases List.mem_append.1 hd with hd | hd
    · refine (h.documents d hd).of_chunksOf_eq ?_
      have hne : d.id ≠ ⟨s.world.nextUuid⟩ := fun heq => by
        have hlt := h.documentsDrawn d hd
        rw [heq] at hlt
        exact lt_irrefl _ hlt
      rw [chunksOf_uploadDb, if_neg hne, List.append_nil]
    · rw [List.mem_singleton.1 hd]
      exact committedRow_chunked h
  owned c hc := by
    rw [documents_uploadDb h]
    rcases List.mem_append.1 hc with hc | hc
    · obtain ⟨d, hd, hid⟩ := h.owned c hc
      exact ⟨d, List.mem_append_left _ hd, hid⟩
    · refine ⟨committedRow svc req user s.world.nextUuid, by simp, ?_⟩
      rw [(mem_chunkRows hc).1]
      rfl
  chunksDrawn c hc := by
    show c.id.draw < s.world.nextUuid + (1 + 2 * req.contents.length) + 1
    rcases List.mem_append.1 hc with hc | hc
    · have := h.chunksDrawn c hc
      omega
    · have := (mem_chunkRows hc).2.2
      omega
  documentsDrawn d hd := by
    show d.id.draw < s.world.nextUuid + (1 + 2 * req.contents.length) + 1
    have hd : d ∈ (uploadDb svc req user s.world.nextUuid s.db).documents := hd
    rw [documents_uploadDb h] at hd
    rcases List.mem_append.1 hd with hd | hd
    · have := h.documentsDrawn d hd
      omega
    · rw [List.mem_singleton.1 hd]
      show s.world.nextUuid < _
      omega

end commit

/-! ### Runs of uploads -/

section runs

variable (svc : DocumentService V S)

/-- No document, no vector and some files. -/
def LibraryState.start (files : FileSystem) : LibraryState V :=
  ⟨.empty, { nextUuid := 0, calls := [], files, vectors := .empty }⟩

variable {svc} {s : LibraryState V} {i : UploadRequest × Faults Exn}

/-- A transaction whose body and commit are summed up by one that raises. -/
theorem next_of_error {e : Exn} {F' : Faults Exn} {t : Session (Library V) (Dict Uuid Loaded) (LibraryWorld V)}
    (h : (i.1.handle svc >>= fun a => .roundTrip >>= fun _ => pure a) i.2 ⟨s.db, .empty, s.world⟩ =
      (.error e, F', t)) : (uploadMachine svc).next s i = ⟨s.db, t.world⟩ := by
  have htr : transact .empty (i.1.handle svc) i.2 s.db s.world = (.error e, s.db, t.world) := by
    unfold transact
    rw [h]
  show LibraryState.mk (transact .empty (i.1.handle svc) i.2 s.db s.world).2.1 _ = _
  rw [htr]

theorem next_of_ok {document : Document} {F' : Faults Exn}
    {t : Session (Library V) (Dict Uuid Loaded) (LibraryWorld V)}
    (h : (i.1.handle svc >>= fun a => .roundTrip >>= fun _ => pure a) i.2 ⟨s.db, .empty, s.world⟩ =
      (.ok document, F', t)) : (uploadMachine svc).next s i = ⟨t.db, t.world⟩ := by
  have htr : transact .empty (i.1.handle svc) i.2 s.db s.world = (.ok document, t.db, t.world) := by
    unfold transact
    rw [h]
  show LibraryState.mk (transact .empty (i.1.handle svc) i.2 s.db s.world).2.1 _ = _
  rw [htr]

/-- The upload is accepted and its file can be stored. -/
def Stored (svc : DocumentService V S) (s : LibraryState V) (req : UploadRequest) (user : Uuid)
    (files : FileSystem) : Prop :=
  req.Accepted user ∧ ∃ key, svc.storage.put s.world.files (uploadKey svc req) req.data = (.ok key, files)

theorem next_of_refused (h : ∀ user files, ¬ Stored svc s i.1 user files) :
    ∃ w, (uploadMachine svc).next s i = ⟨s.db, w⟩ ∧ s.world.Later w := by
  obtain ⟨e, F', w, hrun, hlater⟩ := handle_of_refused svc i.1 s.db s.world i.2
    fun user files key haccepted hput => h user files ⟨haccepted, key, hput⟩
  exact ⟨w, next_of_error (bind_of_error hrun), hlater⟩

theorem LibraryInv.next (h : LibraryInv svc s) (hlate : ¬ LateFailure svc s i) :
    LibraryInv svc ((uploadMachine svc).next s i) := by
  by_cases hstored : ∃ user files, Stored svc s i.1 user files
  case neg =>
    obtain ⟨w, hnext, hlater⟩ := next_of_refused fun user files hs => hstored ⟨user, files, hs⟩
    rw [hnext]
    exact h.later hlater
  obtain ⟨user, files, haccepted, key, hput⟩ := hstored
  have hbody := commit_of_stored haccepted s.db .empty hput i.2
  have hfiles : LibraryInv svc ⟨s.db, { s.world with files }⟩ := h.later ⟨rfl, le_rfl⟩
  by_cases hearly : ∃ j < i.1.contents.length + 1, i.2 j ≠ none
  case pos =>
    -- the rollback undoes the rows, and no vector has been indexed
    obtain ⟨e, F', t, hrun, hlater⟩ := uploadBody_early svc user s.db .empty
      { s.world with files } hearly
    rw [next_of_error (hbody.trans hrun)]
    exact hfiles.later hlater
  have hnone : ∀ j < i.1.contents.length + 1, i.2 j = none := fun j hj =>
    by_contra fun hne => hearly ⟨j, hj, hne⟩
  by_cases hfail : ∃ j < 3, i.2 (j + (i.1.contents.length + 1)) ≠ none
  case pos =>
    -- only a document without chunks: it has no vectors
    have hnil : i.1.contents = [] := by_contra fun hne =>
      hlate ⟨⟨user, files, key, haccepted, hput⟩, hne, hnone, hfail⟩
    obtain ⟨e, F', t, hrun, hlater⟩ := uploadBody_late svc user s.db .empty
      { s.world with files } hnone hfail
    rw [next_of_error (hbody.trans hrun)]
    refine hfiles.later ⟨?_, ?_⟩
    · rw [hlater.vectors]
      show VectorStore.upsert _ (vectorRecords svc _ _ i.1.contents) = _
      rw [hnil]
      rfl
    · refine le_trans ?_ hlater.nextUuid
      exact Nat.le_add_right _ _
  · have hok : ∀ j < 3, i.2 (j + (i.1.contents.length + 1)) = none := fun j hj =>
      by_contra fun hne => hfail ⟨j, hj, hne⟩
    obtain ⟨document, F', hrun⟩ := uploadBody_ok svc user s.db .empty
      { s.world with files } hnone hok
    rw [next_of_ok (hbody.trans hrun)]
    exact hfiles.commit

/-- After a late failure there are more vectors than chunks. -/
theorem LibraryInv.not_indexed_next (h : LibraryInv svc s) (hlate : LateFailure svc s i) :
    ¬ Indexed svc ((uploadMachine svc).next s i) := by
  obtain ⟨⟨user, files, key, haccepted, hput⟩, hne, hnone, hfail⟩ := hlate
  obtain ⟨e, F', t, hrun, hlater⟩ := uploadBody_late svc user s.db .empty
    { s.world with files } hnone hfail
  rw [next_of_error ((commit_of_stored haccepted _ _ hput i.2).trans hrun)]
  intro hindexed
  have hvectors : Dict.values t.world.vectors =
      Dict.values s.world.vectors ++ uploadVectors svc i.1 user s.world.nextUuid := by
    rw [hlater.vectors]
    exact h.values_upsert (Nat.le_succ _)
  have hlen := hindexed.records.length_eq
  have hbefore := h.records.length_eq
  have hpos := List.length_pos_of_ne_nil hne
  change s.db.chunks.length = (Dict.values t.world.vectors).length at hlen
  rw [hvectors, List.length_append, uploadVectors, length_vectorRecords] at hlen
  omega

/-- Over any run of uploads, the index is that of the committed chunks whenever a request has ended
exactly when no upload fails after its vectors were indexed. -/
theorem index_consistent_iff (svc : DocumentService V S) (files : FileSystem)
    (is : List (UploadRequest × Faults Exn)) :
    (∀ js, js <+: is → Indexed svc ((uploadMachine svc).run (.start files) js)) ↔
      ∀ t ∈ (uploadMachine svc).trace (.start files) is, ¬ LateFailure svc t.pre t.input := by
  have hrun : ∀ js, (∀ t ∈ (uploadMachine svc).trace (.start files) js, ¬ LateFailure svc t.pre t.input) →
      LibraryInv svc ((uploadMachine svc).run (.start files) js) := fun js hjs =>
    Machine.run_invariant_of (G := fun s i => ¬ LateFailure svc s i) (fun _ _ hlate h => h.next hlate)
      (libraryInv_empty files) hjs
  constructor
  · -- the first late failure of the run leaves vectors behind
    intro hindexed
    induction is using List.reverseRecOn with
    | nil => exact fun _ ht => absurd ht List.not_mem_nil
    | append_singleton is i ih =>
      have hbefore := ih fun js hjs => hindexed js (hjs.trans (List.prefix_append is [i]))
      rw [Machine.trace_concat]
      intro t ht hlate
      rcases List.mem_append.1 ht with ht | ht
      · exact hbefore t ht hlate
      · rw [List.mem_singleton.1 ht] at hlate
        refine (hrun is hbefore).not_indexed_next hlate ?_
        rw [← Machine.run_concat]
        exact hindexed _ List.prefix_rfl
  · rintro hlate _ ⟨ks, rfl⟩
    refine (hrun _ fun t ht => hlate t ?_).indexed
    rw [Machine.trace_append]
    exact List.mem_append_left _ ht

end runs

/-! ### An upload whose commit fails -/

/-- A service with an embedder that counts characters. -/
def countingService : DocumentService ℕ ℕ where
  storage := objectStorage
  sha256 := sampleDigest
  embedder := { dimensions := 1, embed := String.length, similarity := (· * ·), le := fun a b => decide (a ≤ b) }

/-- A manager uploads a text of one word. -/
def oneWord : UploadRequest where
  claims := { sub := Uuid.str ⟨7⟩, email := none, roles := ["manager"], jti := none }
  filename := some "report.txt"
  contentType := some "text/plain"
  data := [97]
  kind := "other"
  requestId := none

theorem oneWord_accepted : oneWord.Accepted ⟨7⟩ where
  permission := by decide +kernel
  size := by decide +kernel
  user := Uuid.ofStr?_str ⟨7⟩

theorem oneWord_stored :
    ∃ key, (objectStorage.put freshFiles (uploadKey countingService oneWord) oneWord.data).1 = .ok key := by
  have hok : (objectStorage.put freshFiles (uploadKey countingService oneWord)
      oneWord.data).1.toOption.isSome := by
    decide +kernel
  cases h : (objectStorage.put freshFiles (uploadKey countingService oneWord) oneWord.data).1 with
  | ok key => exact ⟨key, rfl⟩
  | error e => rw [h] at hok; exact absurd hok nofun

/-- The fourth flush is followed by a commit that fails: the vector of the rolled back chunk stays. -/
theorem commit_failure_keeps_vectors :
    ¬ ∀ js, js <+: [(oneWord, Faults.only 4 (.other "OperationalError" "server closed the connection"))] →
      Indexed countingService ((uploadMachine countingService).run (.start freshFiles) js) := by
  intro h
  refine (libraryInv_empty freshFiles).not_indexed_next ?_ (h _ List.prefix_rfl)
  have hcontents : oneWord.contents = ["a"] := by decide +kernel
  obtain ⟨key, hput⟩ := oneWord_stored
  refine ⟨⟨⟨7⟩, _, key, oneWord_accepted, Prod.ext hput rfl⟩, ?_, ?_, 2, by omega, ?_⟩
  · exact hcontents.trans_ne (List.cons_ne_nil _ _)
  · intro j hj
    change j < oneWord.contents.length + 1 at hj
    rw [hcontents] at hj
    exact if_neg (Nat.ne_of_lt (hj.trans (by decide)))
  · show Faults.only 4 _ (2 + (oneWord.contents.length + 1)) ≠ none
    rw [hcontents]
    exact Option.some_ne_none _

end BankingAi
