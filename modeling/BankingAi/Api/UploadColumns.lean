import BankingAi.Api.DocumentIndex
import BankingAi.Api.WorkflowColumns

/-!
# The rows of an upload fit their columns

The file name, the content type and the e-mail address of the token come from outside, besides the
request id. The storage key is not longer than a digest and the file name.
-/

namespace BankingAi

open Posix SessionM

/-! ### Lengths -/

theorem length_le_utf8ByteSize (s : String) : s.length ≤ s.utf8ByteSize := by
  have h : ∀ cs : List Char, cs.length ≤ (String.ofList cs).utf8ByteSize := by
    intro cs
    induction cs with
    | nil => exact Nat.zero_le _
    | cons c cs ih =>
      have hpos := c.utf8Size_pos
      rw [String.ofList_cons, String.utf8ByteSize_append, String.utf8ByteSize_singleton, List.length_cons]
      omega
  have hs := h s.toList
  rwa [String.ofList_toList, String.length_toList] at hs

theorem length_safeName (filename : String) : (safeName filename).length ≤ max 4 filename.length := by
  unfold safeName
  dsimp only
  split
  case isTrue => exact le_max_left _ _
  case isFalse h => exact (length_le_of_mem (name_mem h)).trans (le_max_right _ _)

section key

variable {sha256 : Bytes → String} (hsha : HexDigest sha256) (filename : String) (data : Bytes)

include hsha

theorem HexDigest.length_le : (sha256 data).length ≤ 64 := by
  rw [← hsha.size data]
  exact length_le_utf8ByteSize _

theorem length_contentKey : (contentKey sha256 filename data).length ≤ 65 + max 4 filename.length := by
  have hdigest := hsha.length_le data
  have hname := length_safeName filename
  rw [contentKey, String.length_append, String.length_append]
  change _ + 1 + _ ≤ _
  omega

theorem keyDigest_contentKey : keyDigest (contentKey sha256 filename data) = sha256 data := by
  have hslash : ∀ c ∈ (sha256 data).toList, (decide (c ≠ '/')) = true := fun c hc =>
    decide_eq_true (hexDigit_ne (hsha.digits data c hc) (by decide))
  rw [keyDigest, contentKey, String.toList_append, String.toList_append, List.append_assoc,
    List.takeWhile_append_of_pos hslash]
  show String.ofList ((sha256 data).toList ++ List.takeWhile _ ('/' :: (safeName filename).toList)) = _
  rw [List.takeWhile_cons_of_neg (by decide), List.append_nil, String.ofList_toList]

end key

/-- The texts of an upload that the client or its token chose, besides the request id, fit. -/
structure UploadRequest.MetadataFits (req : UploadRequest) : Prop where
  filename : (orDefault req.filename "upload.bin").length ≤ 512
  contentType : (orDefault req.contentType "application/octet-stream").length ≤ 128
  email : Varchar 320 req.claims.email

theorem documentRow_fits {V S : Type} {svc : DocumentService V S} (hsha : HexDigest svc.sha256)
    {req : UploadRequest} (h : req.MetadataFits) (user id : Uuid) :
    (DocumentService.documentRow (req.args user) (uploadKey svc req) id).Fits where
  filename := varchar_some.2 h.filename
  contentType := varchar_some.2 h.contentType
  storageKey := by
    have hkey := length_contentKey hsha (orDefault req.filename "upload.bin") req.data
    have hname := h.filename
    refine varchar_some.2 (hkey.trans ?_)
    omega
  sha256 := by
    show Varchar 64 (some (keyDigest (contentKey svc.sha256 _ req.data)))
    rw [keyDigest_contentKey hsha]
    exact varchar_some.2 (hsha.length_le req.data)
  status := DocumentStatus.varchar _

/-! ### Uploads that differ in their request id -/

section agree

variable {V S : Type}

/-- The second session is the first with another audit log; the tables of the first fit. -/
def SameLibrary (s s' : Session (Library V) (Dict Uuid Loaded) (LibraryWorld V)) : Prop :=
  s.db.Fits ∧ ∃ logs, s' = { s with db := { s.db with auditLogs := logs } }

theorem agree_inLibrary {α : Type} {m m' : WorkflowSession α} (h : Agree SameButAudit m m') :
    Agree (SameLibrary (V := V)) (inLibrary m) (inLibrary m') := by
  refine h.zoom ?_
  rintro s _ ⟨hfits, logs, rfl⟩
  refine ⟨⟨hfits.database, logs, rfl⟩, ?_⟩
  rintro t _ ⟨ht, logs', rfl⟩
  exact ⟨{ hfits with database := ht }, logs', rfl⟩

theorem agreeLibrary_modifyDb {f : Library V → Library V} (hf : ∀ db : Library V, db.Fits → (f db).Fits)
    (hlogs : ∀ db logs, f { db with auditLogs := logs } = { f db with auditLogs := logs }) :
    Agree SameLibrary (.modifyDb f : LibrarySession V Unit) (.modifyDb f) := by
  rintro F s _ ⟨hfits, logs, rfl⟩
  refine ⟨rfl, rfl, hf _ hfits, logs, ?_⟩
  rw [modifyDb_run, modifyDb_run]
  dsimp only
  rw [hlogs]

theorem agreeLibrary_effect {α : Type} (g : LibraryWorld V → α × LibraryWorld V) :
    Agree SameLibrary (.effect g : LibrarySession V α) (.effect g) := by
  rintro F s _ ⟨hfits, logs, rfl⟩
  exact ⟨rfl, rfl, hfits, logs, rfl⟩

theorem agree_flush : Agree (SameLibrary (V := V)) (inLibrary flush) (inLibrary flush) :=
  agree_inLibrary .roundTrip

variable (svc : DocumentService V S)

theorem agree_ingestChunks (document : Document) (index : ℕ) (contents : List String) :
    Agree SameLibrary (svc.ingestChunks document index contents) (svc.ingestChunks document index contents) := by
  induction contents generalizing index with
  | nil => exact .pure _
  | cons content contents ih =>
    have hmodel : Varchar 128 (some "hashing-embedder") := varchar_some.2 (by decide)
    refine (agree_inLibrary agree_uuid4).bind fun chunkId => ?_
    refine Agree.bind (agreeLibrary_modifyDb (fun db h => { h with }) fun _ _ => rfl) fun _ => ?_
    refine agree_flush.bind fun _ => (agree_inLibrary agree_uuid4).bind fun id => ?_
    refine Agree.bind (agreeLibrary_modifyDb (fun db h => ?_) fun _ _ => rfl) fun _ => (ih _).bind fun _ => .pure _
    exact { h with embeddings := forall_mem_concat h.embeddings hmodel }

theorem agree_ingest (hsha : HexDigest svc.sha256) {req : UploadRequest} (h : req.MetadataFits) (user : Uuid) :
    Agree SameLibrary (svc.ingest (req.args user)) (svc.ingest (req.args user)) := by
  unfold DocumentService.ingest
  refine (agreeLibrary_effect _).bind fun stored => ?_
  cases stored with
  | error failure => exact .raise _
  | ok key =>
    have hrows : Agree SameLibrary (svc.ingestRows (req.args user) (uploadKey svc req) req.contents)
        (svc.ingestRows (req.args user) (uploadKey svc req) req.contents) := by
      refine (agree_inLibrary agree_uuid4).bind fun id => ?_
      refine Agree.bind (agreeLibrary_modifyDb (fun db hdb => ?_) fun _ _ => rfl) fun _ =>
        agree_flush.bind fun _ => (agree_ingestChunks svc _ _ _).bind fun _ => .pure _
      exact { hdb with documents := forall_mem_concat hdb.documents (documentRow_fits hsha h user id) }
    refine hrows.bind fun p => Agree.bind ?_ fun _ => ?_
    · unfold DocumentService.upsertVectors
      split
      · exact .pure _
      · exact agreeLibrary_effect _
    · refine Agree.bind (agreeLibrary_modifyDb (fun db hdb => ?_) fun _ _ => rfl) fun _ =>
        agree_flush.bind fun _ => .pure _
      exact { hdb with
        documents := Table.forall_mem_update hdb.documents fun d hd => { hd with status := DocumentStatus.varchar _ } }

variable {svc}

theorem inLibrary_map {α β : Type} (m : WorkflowSession α) (b : β) :
    (inLibrary m >>= fun _ => pure b : LibrarySession V β) = inLibrary (m >>= fun _ => pure b) := by
  funext F s
  rw [bind_run]
  unfold inLibrary SessionM.zoom
  rw [bind_run]
  dsimp only
  match m F ((workflowPart V).get s) with
  | (.ok a, F', t) => rfl
  | (.error e, F', t) => rfl

variable {requestId other : Option String}

theorem agree_recordUpload (hid : Varchar 64 requestId) {principal : Principal} (hemail : Varchar 320 principal.email)
    (user : Uuid) (document : Document) :
    Agree (SameLibrary (V := V)) (recordUpload principal user requestId document >>= fun _ => pure document)
      (recordUpload principal user other document >>= fun _ => pure document) := by
  unfold recordUpload
  rw [inLibrary_map, inLibrary_map]
  refine agree_inLibrary (agree_record document fun id => ?_)
  exact
    { actorEmail := hemail
      action := varchar_some.2 (show "document.uploaded".length ≤ 128 by decide)
      resourceType := varchar_some.2 (show "document".length ≤ 64 by decide)
      resourceId := fun t ht => by
        obtain rfl := Option.some.inj ht
        rw [idLength_str]
        omega
      outcome := varchar_some.2 (show "success".length ≤ 32 by decide)
      requestId := hid }

theorem agree_upload (hsha : HexDigest svc.sha256) {req : UploadRequest} (h : req.MetadataFits)
    (hid : Varchar 64 requestId) :
    Agree SameLibrary (UploadRequest.handle svc { req with requestId })
      (UploadRequest.handle svc { req with requestId := other }) := by
  unfold UploadRequest.handle uploadDocument
  refine (agree_inLibrary (Agree.ofExcept _)).bind fun _ => ?_
  dsimp only
  split
  · exact .raise _
  · exact (Agree.ofExcept _).bind fun user => (agree_ingest svc hsha h user).bind fun document =>
      agree_recordUpload hid h.email user document

end agree

/-! ### What an upload that succeeds has written -/

section written

variable {V S : Type} {svc : DocumentService V S} {req : UploadRequest} {db : Library V}
  {w : LibraryWorld V}

theorem upload_ok {document : Document} {F' : Faults Exn}
    {t : Session (Library V) (Dict Uuid Loaded) (LibraryWorld V)}
    (h : req.handle svc .none ⟨db, .empty, w⟩ = (.ok document, F', t)) :
    ∃ user, t.db = uploadDb svc req user w.nextUuid db := by
  by_cases hstored : ∃ user files, Stored svc ⟨db, w⟩ req user files
  case neg =>
    obtain ⟨e, F'', w', hrun, -⟩ := handle_of_refused svc req db w .none
      fun user files key haccepted hput => hstored ⟨user, files, haccepted, key, hput⟩
    rw [hrun] at h
    cases h
  case pos =>
    obtain ⟨user, files, haccepted, key, hput⟩ := hstored
    have hnone : ∀ j < req.contents.length + 1, (Faults.none : Faults Exn) j = none := fun _ _ => rfl
    obtain ⟨document', F'', hbody⟩ := uploadBody_ok svc user db .empty { w with files } hnone fun _ _ => rfl
    have hcommit := commit_of_stored haccepted db .empty hput .none
    rw [hbody, bind_of_ok h] at hcommit
    obtain ⟨u, F₁, t₁, htrip, hpure⟩ := SessionM.bind_eq_ok hcommit
    obtain rfl := roundTrip_eq_ok htrip
    cases hpure
    exact ⟨user, rfl⟩

variable (svc req db) in
theorem entry_uploadDb (user : Uuid) (n : ℕ) :
    ∃ entry ∈ (uploadDb svc req user n db).auditLogs,
      entry.requestId = req.requestId ∧ entry.actorEmail = req.claims.email :=
  ⟨_, List.mem_append_right _ (List.mem_singleton_self _), rfl, rfl⟩

variable (svc req db) in
theorem document_uploadDb (user : Uuid) (n : ℕ) :
    ∃ d ∈ (uploadDb svc req user n db).documents, d.filename = orDefault req.filename "upload.bin" ∧
      d.contentType = orDefault req.contentType "application/octet-stream" :=
  ⟨_, Table.mem_update.2 (.inr ⟨_, List.mem_append_right _ (List.mem_singleton_self _), rfl, rfl⟩), rfl, rfl⟩

/-- If the tables an upload leaves fit, so does what the client chose. -/
theorem metadata_of_uploadDb {user : Uuid} {n : ℕ} (h : (uploadDb svc req user n db).Fits) :
    Varchar 64 req.requestId ∧ req.MetadataFits := by
  obtain ⟨entry, hentry, hid, hemail⟩ := entry_uploadDb svc req db user n
  obtain ⟨d, hd, hname, htype⟩ := document_uploadDb svc req db user n
  have hlog := h.database.auditLogs entry hentry
  have hdoc := h.documents d hd
  refine ⟨hid ▸ hlog.requestId, ?_, ?_, hemail ▸ hlog.actorEmail⟩
  · rw [← hname]
    exact varchar_some.1 hdoc.filename
  · rw [← htype]
    exact varchar_some.1 hdoc.contentType

end written
end BankingAi
