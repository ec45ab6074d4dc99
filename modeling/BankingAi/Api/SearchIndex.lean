import BankingAi.Api.Integrity

/-!
# The vector index along runs of the API

Every committed chunk stays in the index, whatever fails: its record is made with it and no other one
has its key. An upload that fails late strands its records there; without such failures the records
are those of the committed chunks, in the order of the table.
-/

namespace BankingAi

open Posix SessionM

variable {V S T σ : Type}

/-- The record is that of the chunk and of its document. -/
def DocumentService.Records (svc : DocumentService V S) (db : Library V) (c : DocumentChunk)
    (r : VectorRecord V) : Prop :=
  ∃ d ∈ db.documents, d.id = c.documentId ∧ r = svc.vectorRecord d c.id c.content

/-- The index holds the records of the committed chunks, and records under other ids that were drawn. -/
structure LibraryState.Covered (svc : DocumentService V S) (s : LibraryState V) : Prop where
  keys : ∀ q ∈ s.world.vectors.entries, q.1 = q.2.chunkId
  made : ∀ r ∈ Dict.values s.world.vectors, ∃ d u content,
    u.draw < s.world.nextUuid ∧ r = svc.vectorRecord d u content
  committed : ∃ rs, rs.Sublist (Dict.values s.world.vectors) ∧ List.Forall₂ (svc.Records s.db) s.db.chunks rs

/-- It holds nothing else. -/
def LibraryState.Mirrored (svc : DocumentService V S) (s : LibraryState V) : Prop :=
  List.Forall₂ (svc.Records s.db) s.db.chunks (Dict.values s.world.vectors)

/-- What a request does to the documents and to the index. -/
inductive Indexes (svc : DocumentService V S) (s s' : LibraryState V) (late : Prop) : Prop
  | kept (hdocuments : s'.db.documents = s.db.documents) (hchunks : s'.db.chunks = s.db.chunks)
      (hvectors : s'.world.vectors = s.world.vectors) (hn : s.world.nextUuid ≤ s'.world.nextUuid)
  | stranded {r : UploadRequest} {user : Uuid} (hlate : late) (hdocuments : s'.db.documents = s.db.documents)
      (hchunks : s'.db.chunks = s.db.chunks)
      (hvectors : s'.world.vectors = (indexedWorld svc r user s.world).vectors)
      (hn : (indexedWorld svc r user s.world).nextUuid ≤ s'.world.nextUuid)
  | committed {r : UploadRequest} {user : Uuid} (hdb : s'.db = uploadDb svc r user s.world.nextUuid s.db)
      (hvectors : s'.world.vectors = (indexedWorld svc r user s.world).vectors)
      (hn : (indexedWorld svc r user s.world).nextUuid ≤ s'.world.nextUuid)

section records

variable {svc : DocumentService V S} {document : Document} {contents : List String}

theorem exists_of_mem_vectorRecords {m : ℕ} {r : VectorRecord V} (h : r ∈ vectorRecords svc document m contents) :
    ∃ u content, m ≤ u.draw ∧ u.draw < m + 2 * contents.length ∧ r = svc.vectorRecord document u content := by
  induction contents generalizing m with
  | nil => exact absurd h List.not_mem_nil
  | cons content contents ih =>
    rw [List.length_cons]
    rcases List.mem_cons.1 h with rfl | h
    · refine ⟨⟨m⟩, content, le_rfl, ?_, rfl⟩
      show m < _
      omega
    · obtain ⟨u, content', hlow, hhigh, hr⟩ := ih h
      exact ⟨u, content', by omega, by omega, hr⟩

/-- The vectors of an upload are those of its chunks, under the row that its document gets. -/
theorem records_vectorRecords {db : Library V} {d : Document} (hd : d ∈ db.documents) (hid : d.id = document.id)
    (hname : d.filename = document.filename) (index m : ℕ) :
    List.Forall₂ (svc.Records db) (chunkRows document.id index m contents) (vectorRecords svc document m contents) := by
  induction contents generalizing index m with
  | nil => exact .nil
  | cons content contents ih =>
    refine .cons ⟨d, hd, hid, ?_⟩ (ih _ _)
    unfold DocumentService.vectorRecord
    rw [hid, hname]
    rfl

theorem DocumentService.Records.mono {db db' : Library V} (h : ∀ d ∈ db.documents, d ∈ db'.documents)
    (c : DocumentChunk) (r : VectorRecord V) : svc.Records db c r → svc.Records db' c r := by
  rintro ⟨d, hd, hid, hr⟩
  exact ⟨d, h d hd, hid, hr⟩

end records

/-! ### One request -/

section step

variable {svc : DocumentService V S} {s s' : LibraryState V} {req : HttpRequest} {F : Faults Exn}

/-- The four ways an upload can end. -/
theorem upload_indexes (svc : DocumentService V S) (s : LibraryState V) (i : UploadRequest × Faults Exn) :
    Indexes svc s ((uploadMachine svc).next s i) (LateFailure svc s i) := by
  by_cases hstored : ∃ user files, Stored svc s i.1 user files
  case neg =>
    obtain ⟨w, hnext, hlater⟩ := next_of_refused fun user files hs => hstored ⟨user, files, hs⟩
    rw [hnext]
    exact .kept rfl rfl hlater.vectors hlater.nextUuid
  obtain ⟨user, files, haccepted, key, hput⟩ := hstored
  have hbody := commit_of_stored haccepted s.db .empty hput i.2
  by_cases hearly : ∃ j < i.1.contents.length + 1, i.2 j ≠ none
  case pos =>
    obtain ⟨e, F', t, hrun, hlater⟩ := uploadBody_early svc user s.db .empty { s.world with files } hearly
    rw [next_of_error (hbody.trans hrun)]
    exact .kept rfl rfl hlater.vectors hlater.nextUuid
  have hnone : ∀ j < i.1.contents.length + 1, i.2 j = none := fun j hj => by_contra fun hne => hearly ⟨j, hj, hne⟩
  by_cases hfail : ∃ j < 3, i.2 (j + (i.1.contents.length + 1)) ≠ none
  case pos =>
    obtain ⟨e, F', t, hrun, hlater⟩ := uploadBody_late svc user s.db .empty { s.world with files } hnone hfail
    rw [next_of_error (hbody.trans hrun)]
    by_cases hnil : i.1.contents = []
    · -- a document without chunks has no vectors
      refine .kept rfl rfl ?_ ((Nat.le_add_right _ _).trans hlater.nextUuid)
      rw [hlater.vectors]
      show VectorStore.upsert _ (vectorRecords svc _ _ i.1.contents) = _
      rw [hnil]
      rfl
    · exact .stranded ⟨⟨user, files, key, haccepted, hput⟩, hnil, hnone, hfail⟩ rfl rfl hlater.vectors
        hlater.nextUuid
  · have hok : ∀ j < 3, i.2 (j + (i.1.contents.length + 1)) = none := fun j hj =>
      by_contra fun hne => hfail ⟨j, hj, hne⟩
    obtain ⟨document, F', hrun⟩ := uploadBody_ok svc user s.db .empty { s.world with files } hnone hok
    rw [next_of_ok (hbody.trans hrun)]
    exact .committed rfl rfl (Nat.le_succ _)

/-- An upload fails after its vectors have been indexed. -/
def HttpRequest.FailsLate (svc : DocumentService V S) (s : LibraryState V) (i : HttpRequest × Faults Exn) : Prop :=
  match i.1.operation with
  | .workflow .. => False
  | .upload claims filename contentType data kind =>
    LateFailure svc s (i.1.upload claims filename contentType data kind, i.2)

theorem step_indexes (p : Platform V T σ) (svc : DocumentService V S) (s : LibraryState V)
    (i : HttpRequest × Faults Exn) : Indexes svc s (serveStep p svc s i).2 (HttpRequest.FailsLate svc s i) := by
  obtain ⟨req, F⟩ := i
  have hn : s.world.DrawsOn (serveStep p svc s (req, F)).2.world := HttpRequest.drawsOn_next _
  unfold HttpRequest.FailsLate
  cases hop : req.operation with
  | workflow claims call =>
    rw [HttpRequest.next_workflow hop] at hn ⊢
    exact .kept rfl rfl rfl hn
  | upload claims filename contentType data kind =>
    rw [HttpRequest.next_upload hop]
    exact upload_indexes svc s _

/-! ### The index after it -/

variable {p : Platform V T σ} {r : UploadRequest} {user : Uuid}

theorem LibraryState.Covered.entries (h : s.Covered svc) (r : UploadRequest) (user : Uuid) :
    (indexedWorld svc r user s.world).vectors.entries =
      s.world.vectors.entries ++ (uploadVectors svc r user s.world.nextUuid).map fun r => (r.chunkId, r) := by
  refine VectorStore.entries_upsert (fun v hv hkey => ?_) (nodup_vectorRecords _)
  obtain ⟨u, hu, hlow⟩ := mem_vectorRecords hv
  obtain ⟨q, hq, hqkey⟩ := List.mem_map.1 hkey
  obtain ⟨d, u', content, hlt, hr⟩ := h.made q.2 (List.mem_map_of_mem hq)
  have hchunkId : q.2.chunkId = u'.str := by rw [hr]; rfl
  have hid : u = u' := Uuid.str_injective (by rw [← hu, ← hqkey, h.keys q hq, hchunkId])
  rw [hid] at hlow
  omega

theorem LibraryState.Covered.values (h : s.Covered svc) (r : UploadRequest) (user : Uuid) :
    Dict.values (indexedWorld svc r user s.world).vectors =
      Dict.values s.world.vectors ++ uploadVectors svc r user s.world.nextUuid := by
  rw [Dict.values, h.entries, List.map_append, List.map_map]
  exact congrArg _ (List.map_id _)

theorem records_uploadDb (h : s.Sound p svc) (r : UploadRequest) (user : Uuid) :
    (∀ d ∈ s.db.documents, d ∈ (uploadDb svc r user s.world.nextUuid s.db).documents) ∧
      List.Forall₂ (svc.Records (uploadDb svc r user s.world.nextUuid s.db))
        (chunkRows ⟨s.world.nextUuid⟩ 0 (s.world.nextUuid + 1) r.contents)
        (uploadVectors svc r user s.world.nextUuid) := by
  have hdocuments := h.documents_uploadDb r user
  set document := DocumentService.documentRow (r.args user) (uploadKey svc r) ⟨s.world.nextUuid⟩
  have hid : (committedRow svc r user s.world.nextUuid).id = document.id := rfl
  refine ⟨fun d hd => ?_, records_vectorRecords ?_ hid rfl _ _⟩
  · rw [hdocuments]
    exact List.mem_append_left _ hd
  · rw [hdocuments]
    exact List.mem_append_right _ (List.mem_singleton_self _)

theorem LibraryState.Covered.step {late : Prop} (hsound : s.Sound p svc) (h : s.Covered svc)
    (hi : Indexes svc s s' late) : s'.Covered svc := by
  have hgrown : ∀ {r user}, s'.world.vectors = (indexedWorld svc r user s.world).vectors →
      (indexedWorld svc r user s.world).nextUuid ≤ s'.world.nextUuid →
      (∀ q ∈ s'.world.vectors.entries, q.1 = q.2.chunkId) ∧
        ∀ v ∈ Dict.values s'.world.vectors, ∃ d u content,
          u.draw < s'.world.nextUuid ∧ v = svc.vectorRecord d u content := by
    intro r user hvectors hn
    have hn : s.world.nextUuid + (1 + 2 * r.contents.length) ≤ s'.world.nextUuid := hn
    rw [hvectors, h.entries, h.values]
    refine ⟨fun q hq => ?_, fun v hv => ?_⟩
    · rcases List.mem_append.1 hq with hq | hq
      · exact h.keys q hq
      · obtain ⟨v, -, rfl⟩ := List.mem_map.1 hq
        rfl
    · rcases List.mem_append.1 hv with hv | hv
      · obtain ⟨d, u, content, hlt, hr⟩ := h.made v hv
        exact ⟨d, u, content, by omega, hr⟩
      · obtain ⟨u, content, -, hhigh, hr⟩ := exists_of_mem_vectorRecords hv
        exact ⟨_, u, content, by omega, hr⟩
  obtain ⟨rs, hrs, hrecords⟩ := h.committed
  cases hi with
  | kept hdocuments hchunks hvectors hn =>
    refine ⟨by rw [hvectors]; exact h.keys, fun v hv => ?_, rs, by rw [hvectors]; exact hrs, ?_⟩
    · rw [hvectors] at hv
      obtain ⟨d, u, content, hlt, hr⟩ := h.made v hv
      exact ⟨d, u, content, hlt.trans_le hn, hr⟩
    · rw [hchunks]
      exact hrecords.imp (DocumentService.Records.mono fun d hd => hdocuments ▸ hd)
  | stranded _ hdocuments hchunks hvectors hn =>
    obtain ⟨hkeys, hmade⟩ := hgrown hvectors hn
    refine ⟨hkeys, hmade, rs, ?_, ?_⟩
    · rw [hvectors, h.values]
      exact hrs.trans (List.sublist_append_left _ _)
    · rw [hchunks]
      exact hrecords.imp (DocumentService.Records.mono fun d hd => hdocuments ▸ hd)
  | @committed r user hdb hvectors hn =>
    obtain ⟨hkeys, hmade⟩ := hgrown hvectors hn
    obtain ⟨hdocuments, hnew⟩ := records_uploadDb hsound r user
    refine ⟨hkeys, hmade, rs ++ uploadVectors svc r user s.world.nextUuid, ?_, ?_⟩
    · rw [hvectors, h.values]
      exact hrs.append_right _
    · rw [hdb]
      exact List.rel_append (hrecords.imp (DocumentService.Records.mono hdocuments)) hnew

theorem LibraryState.Mirrored.step {late : Prop} (hsound : s.Sound p svc) (hcovered : s.Covered svc)
    (h : s.Mirrored svc) (hi : Indexes svc s s' late) (hlate : ¬ late) : s'.Mirrored svc := by
  cases hi with
  | kept hdocuments hchunks hvectors hn =>
    unfold Mirrored
    rw [hchunks, hvectors]
    exact List.Forall₂.imp (DocumentService.Records.mono fun d hd => hdocuments ▸ hd) h
  | stranded hl => exact absurd hl hlate
  | @committed r user hdb hvectors hn =>
    obtain ⟨hdocuments, hnew⟩ := records_uploadDb hsound r user
    unfold Mirrored
    rw [hdb, hvectors, hcovered.values]
    exact List.rel_append (List.Forall₂.imp (DocumentService.Records.mono hdocuments) h) hnew

end step

/-! ### Runs -/

section runs

variable (p : Platform V S σ) (svc : DocumentService V S) (files : FileSystem)

theorem covered_run (is : List (HttpRequest × Faults Exn)) :
    LibraryState.Covered svc ((requestMachine p svc).run (.start files) is) := by
  refine (Machine.run_invariant (I := fun s : LibraryState V => s.Sound p svc ∧ s.Covered svc) (fun s i h => ?_)
    ⟨LibraryState.Sound.start_files p svc files, ?_⟩ is).2
  · exact ⟨h.1.step i, h.2.step h.1 (step_indexes (p.over svc s.world.vectors) svc s i)⟩
  · exact ⟨fun _ h => absurd h List.not_mem_nil, fun _ h => absurd h List.not_mem_nil, [], .slnil, .nil⟩

variable {p svc} in
theorem mirrored_next {s : LibraryState V} {i : HttpRequest × Faults Exn}
    (h : (s.Sound p svc ∧ s.Covered svc) ∧ s.Mirrored svc) (hlate : ¬ HttpRequest.FailsLate svc s i) :
    (((requestMachine p svc).next s i).Sound p svc ∧ ((requestMachine p svc).next s i).Covered svc) ∧
      ((requestMachine p svc).next s i).Mirrored svc := by
  have hindexes := step_indexes (p.over svc s.world.vectors) svc s i
  exact ⟨⟨h.1.1.step i, h.1.2.step h.1.1 hindexes⟩, h.2.step h.1.1 h.1.2 hindexes hlate⟩

theorem mirrored_run {is : List (HttpRequest × Faults Exn)}
    (hlate : ∀ t ∈ (requestMachine p svc).trace (.start files) is, ¬ HttpRequest.FailsLate svc t.pre t.input) :
    LibraryState.Mirrored svc ((requestMachine p svc).run (.start files) is) :=
  (Machine.run_invariant_of (I := fun s : LibraryState V => (s.Sound p svc ∧ s.Covered svc) ∧ s.Mirrored svc)
    (G := fun s i => ¬ HttpRequest.FailsLate svc s i) (fun _ _ hi h => mirrored_next h hi)
    ⟨⟨LibraryState.Sound.start_files p svc files, covered_run p svc files []⟩, .nil⟩ hlate).2

end runs
end BankingAi
