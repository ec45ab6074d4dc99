import BankingAi.Api.Documents

/-!
# What an upload does

Which of its round trips to the database fails decides what an upload leaves behind. Up to the
flush of the last chunk nothing but files; after it the vectors are in the index, whether or not the
transaction commits.
-/

namespace BankingAi

open Posix SessionM

/-! ### The rows of an upload -/

section rows

variable {V S : Type} (svc : DocumentService V S)

/-- The chunks of a document from an index on; their ids are drawn from `m` on, every second. -/
def chunkRows (documentId : Uuid) : ℕ → ℕ → List String → List DocumentChunk
  | _, _, [] => []
  | index, m, content :: contents =>
    DocumentService.chunkRow documentId index content ⟨m⟩ :: chunkRows documentId (index + 1) (m + 2) contents

def embeddingRows : ℕ → List String → List (EmbeddingMetadata V)
  | _, [] => []
  | m, content :: contents =>
    svc.embeddingRow ⟨m⟩ content ⟨m + 1⟩ :: embeddingRows (m + 2) contents

def vectorRecords (document : Document) : ℕ → List String → List (VectorRecord V)
  | _, [] => []
  | m, content :: contents =>
    svc.vectorRecord document ⟨m⟩ content :: vectorRecords document (m + 2) contents

theorem length_vectorRecords (document : Document) (m : ℕ) (contents : List String) :
    (vectorRecords svc document m contents).length = contents.length := by
  induction contents generalizing m with
  | nil => rfl
  | cons content contents ih => rw [vectorRecords, List.length_cons, ih, List.length_cons]

variable {svc} {documentId : Uuid} {contents : List String}

theorem mem_chunkRows {index m : ℕ} {c : DocumentChunk} (h : c ∈ chunkRows documentId index m contents) :
    c.documentId = documentId ∧ m ≤ c.id.draw ∧ c.id.draw < m + 2 * contents.length := by
  induction contents generalizing index m with
  | nil => exact absurd h List.not_mem_nil
  | cons content contents ih =>
    rw [List.length_cons]
    rcases List.mem_cons.1 h with rfl | h
    · refine ⟨rfl, le_rfl, ?_⟩
      show m < _
      omega
    · obtain ⟨hdoc, hlow, hhigh⟩ := ih h
      exact ⟨hdoc, by omega, by omega⟩

theorem nodup_chunkRows (index m : ℕ) :
    ((chunkRows documentId index m contents).map DocumentChunk.id).Nodup := by
  induction contents generalizing index m with
  | nil => exact List.nodup_nil
  | cons content contents ih =>
    rw [chunkRows, List.map_cons, List.nodup_cons]
    refine ⟨fun hmem => ?_, ih _ _⟩
    obtain ⟨c, hc, heq⟩ := List.mem_map.1 hmem
    have hlow := (mem_chunkRows hc).2.1
    rw [heq] at hlow
    change m + 2 ≤ m at hlow
    omega

theorem map_content_chunkRows (index m : ℕ) :
    (chunkRows documentId index m contents).map DocumentChunk.content = contents := by
  induction contents generalizing index m with
  | nil => rfl
  | cons content contents ih => exact congrArg (content :: ·) (ih _ _)

theorem map_chunkIndex_chunkRows (index m : ℕ) :
    (chunkRows documentId index m contents).map DocumentChunk.chunkIndex =
      List.range' index contents.length := by
  induction contents generalizing index m with
  | nil => rfl
  | cons content contents ih => exact congrArg (index :: ·) (ih _ _)

end rows

/-! ### Runs without faults -/

section run

variable {V S : Type} (svc : DocumentService V S)

/-- The world after `k` draws. -/
def LibraryWorld.drawn (w : LibraryWorld V) (k : ℕ) : LibraryWorld V :=
  { w with nextUuid := w.nextUuid + k }

theorem uuid4_run (F : Faults Exn) (s : Session (Library V) (Dict Uuid Loaded) (LibraryWorld V)) :
    (inLibrary uuid4 : LibrarySession V Uuid) F s =
      (.ok ⟨s.world.nextUuid⟩, F, ⟨s.db, s.memory, s.world.drawn 1⟩) := rfl

theorem flush_run (s : Session (Library V) (Dict Uuid Loaded) (LibraryWorld V)) :
    (inLibrary flush : LibrarySession V Unit) .none s = (.ok (), .none, s) := rfl

theorem ingestChunks_run (document : Document) (index : ℕ) (contents : List String) (db : Library V)
    (memory : Dict Uuid Loaded) (w : LibraryWorld V) :
    svc.ingestChunks document index contents .none ⟨db, memory, w⟩ =
      (.ok (vectorRecords svc document w.nextUuid contents), .none,
        ⟨{ db with
            chunks := db.chunks ++ chunkRows document.id index w.nextUuid contents
            embeddings := db.embeddings ++ embeddingRows svc w.nextUuid contents },
          memory, w.drawn (2 * contents.length)⟩) := by
  induction contents generalizing index db w with
  | nil =>
    simp only [chunkRows, embeddingRows, List.append_nil]
    rfl
  | cons content contents ih =>
    refine (bind_of_ok (uuid4_run ..)).trans <| (bind_of_ok rfl).trans <| (bind_of_ok (flush_run _)).trans <|
      (bind_of_ok (uuid4_run ..)).trans <| (bind_of_ok rfl).trans <| (bind_of_ok (ih ..)).trans ?_
    simp only [Library.addChunk, Library.addEmbedding, LibraryWorld.drawn, chunkRows, embeddingRows,
      List.append_assoc, List.singleton_append, List.length_cons]
    rw [show w.nextUuid + 1 + 1 + 2 * contents.length = w.nextUuid + 2 * (contents.length + 1) by omega]
    rfl

/-- The tables with the rows of a document that is being processed. -/
def withRows (args : IngestArgs) (key : String) (contents : List String) (n : ℕ) (db : Library V) :
    Library V :=
  { db with
    documents := db.documents ++ [DocumentService.documentRow args key ⟨n⟩]
    chunks := db.chunks ++ chunkRows ⟨n⟩ 0 (n + 1) contents
    embeddings := db.embeddings ++ embeddingRows svc (n + 1) contents }

theorem ingestRows_run (args : IngestArgs) (key : String) (contents : List String) (db : Library V)
    (memory : Dict Uuid Loaded) (w : LibraryWorld V) :
    svc.ingestRows args key contents .none ⟨db, memory, w⟩ =
      (.ok (DocumentService.documentRow args key ⟨w.nextUuid⟩,
          vectorRecords svc (DocumentService.documentRow args key ⟨w.nextUuid⟩) (w.nextUuid + 1) contents),
        .none, ⟨withRows svc args key contents w.nextUuid db, memory, w.drawn (1 + 2 * contents.length)⟩) := by
  refine (bind_of_ok (uuid4_run ..)).trans <| (bind_of_ok rfl).trans <| (bind_of_ok (flush_run _)).trans <|
    (bind_of_ok (ingestChunks_run ..)).trans ?_
  simp only [LibraryWorld.drawn, Nat.add_assoc]
  rfl

end run

/-! ### Round trips -/

section trips

variable {V S : Type} (svc : DocumentService V S)

theorem trips_uuid4 : Trips 0 (inLibrary uuid4 : LibrarySession V Uuid) := (Trips.effect _).zoom

theorem trips_flush : Trips 1 (inLibrary flush : LibrarySession V Unit) := Trips.roundTrip.zoom

theorem ingestChunks_trips (document : Document) (index : ℕ) (contents : List String) :
    Trips contents.length (svc.ingestChunks document index contents) := by
  induction contents generalizing index with
  | nil => exact .pure _
  | cons content contents ih =>
    have h : Trips (0 + (0 + (1 + (0 + (0 + (contents.length + 0))))))
        (svc.ingestChunks document index (content :: contents)) :=
      trips_uuid4.bind fun _ => (Trips.modifyDb _).bind fun _ => trips_flush.bind fun _ =>
        trips_uuid4.bind fun _ => (Trips.modifyDb _).bind fun _ => (ih _).bind fun _ => .pure _
    rwa [show 0 + (0 + (1 + (0 + (0 + (contents.length + 0))))) = contents.length + 1 by omega] at h

theorem ingestRows_trips (args : IngestArgs) (key : String) (contents : List String) :
    Trips (contents.length + 1) (svc.ingestRows args key contents) := by
  have h : Trips (0 + (0 + (1 + (contents.length + 0)))) (svc.ingestRows args key contents) :=
    trips_uuid4.bind fun _ => (Trips.modifyDb _).bind fun _ => trips_flush.bind fun _ =>
      (ingestChunks_trips svc _ _ _).bind fun _ => .pure _
  rwa [show 0 + (0 + (1 + (contents.length + 0))) = contents.length + 1 by omega] at h

/-- What follows the upsert of the vectors, up to the commit. -/
def concludeUpload (principal : Principal) (user : Uuid) (requestId : Option String)
    (contents : List String) (document : Document) : LibrarySession V Document :=
  DocumentService.ingestStatus document contents >>= fun document =>
    recordUpload principal user requestId document >>= fun _ => .roundTrip >>= fun _ => pure document

theorem recordUpload_trips (principal : Principal) (user : Uuid) (requestId : Option String)
    (document : Document) :
    Trips 1 (recordUpload principal user requestId document : LibrarySession V AuditLog) := by
  have h : Trips (0 + (0 + (1 + 0))) (AuditService.record "document.uploaded" "document" "success"
      (some user) principal.email (some document.id.str) requestId
      ((Dict.empty.set "filename" (.str document.filename)).set "size" (.int document.sizeBytes))) :=
    (Trips.effect _).bind fun _ => (Trips.modifyDb _).bind fun _ => Trips.roundTrip.bind fun _ => .pure _
  exact Trips.zoom h

theorem concludeUpload_trips (principal : Principal) (user : Uuid) (requestId : Option String)
    (contents : List String) (document : Document) :
    Trips 3 (concludeUpload principal user requestId contents document : LibrarySession V Document) := by
  have hstatus : Trips (0 + (1 + 0)) (DocumentService.ingestStatus document contents :
      LibrarySession V Document) :=
    (Trips.modifyDb _).bind fun _ => trips_flush.bind fun _ => .pure _
  exact hstatus.bind fun _ => (recordUpload_trips ..).bind fun _ => Trips.roundTrip.bind fun _ => .pure _

end trips

/-! ### Properties of the parts of an upload -/

section rule

variable {V S : Type} {P : ∀ ⦃α : Type⦄, LibrarySession V α → Prop} (rule : Rule P)
  (huuid : P (inLibrary uuid4)) (hflush : P (inLibrary flush)) (svc : DocumentService V S)

include rule hflush

theorem ingestStatus_rule (document : Document) (contents : List String) :
    P (DocumentService.ingestStatus document contents) :=
  rule.bind (rule.modifyDb _) fun _ => rule.bind hflush fun _ => rule.pure _

include huuid

theorem ingestChunks_rule (document : Document) (index : ℕ) (contents : List String) :
    P (svc.ingestChunks document index contents) := by
  induction contents generalizing index with
  | nil => exact rule.pure _
  | cons content contents ih =>
    exact rule.bind huuid fun _ => rule.bind (rule.modifyDb _) fun _ => rule.bind hflush fun _ =>
      rule.bind huuid fun _ => rule.bind (rule.modifyDb _) fun _ => rule.bind (ih _) fun _ => rule.pure _

theorem ingestRows_rule (args : IngestArgs) (key : String) (contents : List String) :
    P (svc.ingestRows args key contents) :=
  rule.bind huuid fun _ => rule.bind (rule.modifyDb _) fun _ => rule.bind hflush fun _ =>
    rule.bind (ingestChunks_rule rule huuid hflush svc _ _ _) fun _ => rule.pure _

omit huuid in
theorem concludeUpload_rule
    (hrecord : ∀ principal user requestId document, P (recordUpload principal user requestId document))
    (principal : Principal) (user : Uuid) (requestId : Option String) (contents : List String)
    (document : Document) : P (concludeUpload principal user requestId contents document) :=
  rule.bind (ingestStatus_rule rule hflush _ _) fun _ => rule.bind (hrecord ..) fun _ =>
    rule.bind rule.roundTrip fun _ => rule.pure _

end rule

section keeps

variable {V S : Type} (svc : DocumentService V S)

/-- The vectors are the same, and ids drawn only go up. -/
structure LibraryWorld.Later (w w' : LibraryWorld V) : Prop where
  vectors : w'.vectors = w.vectors
  nextUuid : w.nextUuid ≤ w'.nextUuid

instance : Std.Refl (LibraryWorld.Later (V := V)) := ⟨fun _ => ⟨rfl, le_rfl⟩⟩

instance : IsTrans (LibraryWorld V) LibraryWorld.Later :=
  ⟨fun _ _ _ h h' => ⟨h'.vectors.trans h.vectors, h.nextUuid.trans h'.nextUuid⟩⟩

theorem keeps_inLibrary {α : Type} {m : WorkflowSession α} (hm : Keeps World.Later m) :
    Keeps LibraryWorld.Later (inLibrary m : LibrarySession V α) := fun F s =>
  ⟨rfl, hm F ⟨s.db.toDatabase, s.memory, s.world.toWorld⟩⟩

theorem keeps_flush : Keeps World.Later flush := keeps_rule.roundTrip

theorem keeps_recordUpload (principal : Principal) (user : Uuid) (requestId : Option String)
    (document : Document) :
    Keeps LibraryWorld.Later (recordUpload principal user requestId document : LibrarySession V AuditLog) :=
  keeps_inLibrary (record_rule keeps_rule uuid4_later _ _ _ _ _ _ _ _)

theorem keeps_ingestRows (args : IngestArgs) (key : String) (contents : List String) :
    Keeps LibraryWorld.Later (svc.ingestRows args key contents) :=
  ingestRows_rule keeps_rule (keeps_inLibrary uuid4_later) (keeps_inLibrary keeps_flush) svc args key contents

theorem keeps_concludeUpload (principal : Principal) (user : Uuid) (requestId : Option String)
    (contents : List String) (document : Document) :
    Keeps LibraryWorld.Later
      (concludeUpload principal user requestId contents document : LibrarySession V Document) :=
  concludeUpload_rule keeps_rule (keeps_inLibrary keeps_flush) keeps_recordUpload principal user requestId
    contents document

theorem robust_recordUpload (principal : Principal) (user : Uuid) (requestId : Option String)
    (document : Document) :
    Robust (recordUpload principal user requestId document : LibrarySession V AuditLog) :=
  (record_rule robust_rule (.effect _) ..).zoom

theorem robust_flush : Robust (inLibrary flush : LibrarySession V Unit) :=
  Robust.zoom robust_rule.roundTrip

theorem robust_ingestRows (args : IngestArgs) (key : String) (contents : List String) :
    Robust (svc.ingestRows args key contents) :=
  ingestRows_rule robust_rule (Robust.zoom (.effect _)) robust_flush svc args key contents

theorem robust_concludeUpload (principal : Principal) (user : Uuid) (requestId : Option String)
    (contents : List String) (document : Document) :
    Robust (concludeUpload principal user requestId contents document : LibrarySession V Document) :=
  concludeUpload_rule robust_rule robust_flush robust_recordUpload ..

end keeps

/-! ### The transaction of an upload -/

section upload

variable {V S : Type} (svc : DocumentService V S)

/-- The request passes the checks of the endpoint, for this user. -/
structure UploadRequest.Accepted (req : UploadRequest) (user : Uuid) : Prop where
  permission : Permission.documentUpload.value ∈ permissionsForRoles req.claims.roles
  size : req.data.length ≤ maxBytes
  user : Uuid.ofStr? req.claims.sub = some user

/-- The chunks of the text of an upload. -/
def UploadRequest.contents (req : UploadRequest) : List String :=
  chunksOfText (decodeText req.data (orDefault req.contentType "application/octet-stream"))

def uploadKey (req : UploadRequest) : String :=
  contentKey svc.sha256 (orDefault req.filename "upload.bin") req.data

/-- What an accepted upload does once the file is stored, up to the commit. -/
def uploadBody (req : UploadRequest) (user : Uuid) : LibrarySession V Document :=
  svc.ingestRows (req.args user) (uploadKey svc req) req.contents >>= fun p =>
    DocumentService.upsertVectors p.2 >>= fun _ =>
      concludeUpload (.fromClaims req.claims) user req.requestId req.contents p.1

variable {svc} {req : UploadRequest} {user : Uuid}

theorem handle_of_accepted (h : req.Accepted user) :
    req.handle svc = (svc.ingest (req.args user) >>= fun document =>
      recordUpload (.fromClaims req.claims) user req.requestId document >>= fun _ => pure document) := by
  have hreq : (Principal.fromClaims req.claims).require [Permission.documentUpload.value] = .ok () :=
    Principal.require_eq_ok.2 (List.forall_mem_singleton.2 h.permission)
  have hid : (Principal.fromClaims req.claims).userUuid = .ok user := by
    rw [Principal.userUuid, show (Principal.fromClaims req.claims).userId = req.claims.sub from rfl, h.user]
  unfold UploadRequest.handle uploadDocument requirePermissions
  rw [hreq, hid, if_neg (Nat.not_lt.2 h.size)]
  rfl

theorem commit_of_stored (h : req.Accepted user) (db : Library V) (memory : Dict Uuid Loaded)
    {w : LibraryWorld V} {files : FileSystem} {key : String}
    (hput : svc.storage.put w.files (uploadKey svc req) req.data = (.ok key, files)) (F : Faults Exn) :
    (req.handle svc >>= fun a => .roundTrip >>= fun _ => pure a) F ⟨db, memory, w⟩ =
      uploadBody svc req user F ⟨db, memory, { w with files }⟩ := by
  have heffect : svc.putObject (uploadKey svc req) req.data F ⟨db, memory, w⟩ =
      (.ok (.ok key), F, ⟨db, memory, { w with files }⟩) := by
    unfold DocumentService.putObject
    rw [effect_run]
    dsimp only
    rw [hput]
  have hingest : svc.ingest (req.args user) F ⟨db, memory, w⟩ =
      (svc.ingestRows (req.args user) (uploadKey svc req) req.contents >>= fun p =>
        DocumentService.upsertVectors p.2 >>= fun _ => DocumentService.ingestStatus p.1 req.contents) F
        ⟨db, memory, { w with files }⟩ := (bind_of_ok heffect).trans rfl
  rw [handle_of_accepted h, bind_assoc, bind_run, hingest, ← bind_run]
  unfold uploadBody concludeUpload
  simp only [bind_assoc]
  rfl

/-- A request that is not accepted, or whose file cannot be stored, changes neither tables nor
vectors. -/
theorem handle_of_refused (svc : DocumentService V S) (req : UploadRequest) (db : Library V) (w : LibraryWorld V) (F : Faults Exn)
    (h : ∀ user files key, req.Accepted user →
      svc.storage.put w.files (uploadKey svc req) req.data ≠ (.ok key, files)) :
    ∃ e F' w', req.handle svc F ⟨db, .empty, w⟩ = (.error e, F', ⟨db, .empty, w'⟩) ∧ w.Later w' := by
  have hlater : ∀ files, w.Later { w with files } := fun _ => ⟨rfl, le_rfl⟩
  unfold UploadRequest.handle uploadDocument requirePermissions
  cases hreq : (Principal.fromClaims req.claims).require [Permission.documentUpload.value] with
  | error e => exact ⟨e, F, w, rfl, hlater w.files⟩
  | ok u =>
    by_cases hsize : req.data.length > maxBytes
    · rw [if_pos hsize]
      exact ⟨_, F, w, rfl, hlater w.files⟩
    · rw [if_neg hsize]
      cases hid : (Principal.fromClaims req.claims).userUuid with
      | error e => exact ⟨e, F, w, rfl, hlater w.files⟩
      | ok user =>
        have haccepted : req.Accepted user :=
          ⟨Principal.require_eq_ok.1 hreq _ (List.mem_singleton_self _), Nat.not_lt.1 hsize, by
            rw [Principal.userUuid, show (Principal.fromClaims req.claims).userId = req.claims.sub from rfl] at hid
            split at hid
            case h_1 id hsome => rw [hsome, Except.ok.inj hid]
            case h_2 => cases hid⟩
        rcases hput : svc.storage.put w.files (uploadKey svc req) req.data with ⟨failure | key, files⟩
        · have heffect : svc.putObject (uploadKey svc req) req.data F ⟨db, .empty, w⟩ =
              (.ok (.error failure), F, ⟨db, .empty, { w with files }⟩) := by
            unfold DocumentService.putObject
            rw [effect_run]
            dsimp only
            rw [hput]
          have hingest : svc.ingest (req.args user) F ⟨db, .empty, w⟩ =
              (.error failure.exn, F, ⟨db, .empty, { w with files }⟩) := (bind_of_ok heffect).trans rfl
          refine ⟨failure.exn, F, { w with files }, ?_, hlater files⟩
          show (svc.ingest (req.args user) >>= _) F ⟨db, .empty, w⟩ = _
          exact bind_of_error hingest
        · exact absurd hput (h user files key haccepted)

end upload

/-! ### The three outcomes of an accepted upload -/

section outcome

variable {V S : Type} (svc : DocumentService V S) (req : UploadRequest) (user : Uuid)

/-- The vectors of an upload whose ids are drawn from `n` on. -/
def uploadVectors (n : ℕ) : List (VectorRecord V) :=
  vectorRecords svc (DocumentService.documentRow (req.args user) (uploadKey svc req) ⟨n⟩) (n + 1) req.contents

def uploadEntry (document : Document) (id : Uuid) : AuditLog where
  id := id
  action := "document.uploaded"
  resourceType := "document"
  outcome := "success"
  actorId := some user
  actorEmail := req.claims.email
  resourceId := some document.id.str
  requestId := req.requestId
  context := AuditService.redact
    ((Dict.empty.set "filename" (.str document.filename)).set "size" (.int document.sizeBytes))

/-- The tables after an upload. -/
def uploadDb (n : ℕ) (db : Library V) : Library V :=
  let document := DocumentService.documentRow (req.args user) (uploadKey svc req) ⟨n⟩
  let rows := withRows svc (req.args user) (uploadKey svc req) req.contents n db
  { rows.setStatus document.id (DocumentService.finalStatus req.contents) with
    toDatabase := db.toDatabase.addAuditLog
      (uploadEntry req user document ⟨n + (1 + 2 * req.contents.length)⟩) }

variable {svc req user} {db : Library V} {memory : Dict Uuid Loaded} {w : LibraryWorld V} {F : Faults Exn}

theorem ingestRows_of_none (h : ∀ j < req.contents.length + 1, F j = none) :
    svc.ingestRows (req.args user) (uploadKey svc req) req.contents F ⟨db, memory, w⟩ =
      (.ok (DocumentService.documentRow (req.args user) (uploadKey svc req) ⟨w.nextUuid⟩,
          uploadVectors svc req user w.nextUuid),
        F.drop (req.contents.length + 1),
        ⟨withRows svc (req.args user) (uploadKey svc req) req.contents w.nextUuid db, memory,
          w.drawn (1 + 2 * req.contents.length)⟩) := by
  obtain ⟨a, s', hrun⟩ := (ingestRows_trips svc _ _ _).ok F ⟨db, memory, w⟩ h
  have hnone := robust_ingestRows svc _ _ _ hrun
  rw [ingestRows_run] at hnone
  rw [hrun]
  injection hnone with ha hs
  injection hs with _ hs
  rw [← Except.ok.inj ha, ← hs]
  rfl

theorem upsertVectors_run (records : List (VectorRecord V)) :
    DocumentService.upsertVectors records F ⟨db, memory, w⟩ =
      (.ok (), F, ⟨db, memory, { w with vectors := VectorStore.upsert w.vectors records }⟩) := by
  unfold DocumentService.upsertVectors
  split
  case isTrue h => rw [h]; rfl
  case isFalse => rfl

theorem concludeUpload_run (principal : Principal) (document : Document) (contents : List String) :
    concludeUpload principal user req.requestId contents document .none ⟨db, memory, w⟩ =
      (.ok { document with status := DocumentService.finalStatus contents }, .none,
        ⟨{ db.setStatus document.id (DocumentService.finalStatus contents) with
            toDatabase := db.toDatabase.addAuditLog
              { uploadEntry req user document ⟨w.nextUuid⟩ with actorEmail := principal.email } },
          memory, w.drawn 1⟩) := rfl

variable (svc user db memory w)

/-- A database failure up to the last chunk leaves tables and vectors as they were. -/
theorem uploadBody_early (h : ∃ j < req.contents.length + 1, F j ≠ none) :
    ∃ e F' s', uploadBody svc req user F ⟨db, memory, w⟩ = (.error e, F', s') ∧ w.Later s'.world := by
  obtain ⟨e, F', s', hrun⟩ := (ingestRows_trips svc (req.args user) (uploadKey svc req) _).error F
    ⟨db, memory, w⟩ h
  have hkeeps := keeps_ingestRows svc (req.args user) (uploadKey svc req) req.contents F ⟨db, memory, w⟩
  rw [hrun] at hkeeps
  exact ⟨e, F', s', bind_of_error hrun, hkeeps⟩

variable {svc user db memory w} in
/-- The world when the vectors have just been indexed. -/
def indexedWorld (svc : DocumentService V S) (req : UploadRequest) (user : Uuid) (w : LibraryWorld V) :
    LibraryWorld V :=
  { w.drawn (1 + 2 * req.contents.length) with
    vectors := VectorStore.upsert w.vectors (uploadVectors svc req user w.nextUuid) }

variable {svc user db memory w} in
theorem uploadBody_of_none (h : ∀ j < req.contents.length + 1, F j = none) :
    uploadBody svc req user F ⟨db, memory, w⟩ =
      concludeUpload (.fromClaims req.claims) user req.requestId req.contents
        (DocumentService.documentRow (req.args user) (uploadKey svc req) ⟨w.nextUuid⟩)
        (F.drop (req.contents.length + 1))
        ⟨withRows svc (req.args user) (uploadKey svc req) req.contents w.nextUuid db, memory,
          indexedWorld svc req user w⟩ :=
  (bind_of_ok (ingestRows_of_none h)).trans (bind_of_ok (upsertVectors_run _))

/-- A database failure after it leaves the vectors in the index. -/
theorem uploadBody_late (h : ∀ j < req.contents.length + 1, F j = none)
    (hlate : ∃ j < 3, F (j + (req.contents.length + 1)) ≠ none) :
    ∃ e F' s', uploadBody svc req user F ⟨db, memory, w⟩ = (.error e, F', s') ∧
      (indexedWorld svc req user w).Later s'.world := by
  rw [uploadBody_of_none h]
  obtain ⟨e, F', s', hrun⟩ := (concludeUpload_trips (V := V) (.fromClaims req.claims) user req.requestId
    req.contents _).error (F.drop (req.contents.length + 1)) _ hlate
  have hkeeps := keeps_concludeUpload (V := V) (.fromClaims req.claims) user req.requestId req.contents
    (DocumentService.documentRow (req.args user) (uploadKey svc req) ⟨w.nextUuid⟩)
    (F.drop (req.contents.length + 1))
    ⟨withRows svc (req.args user) (uploadKey svc req) req.contents w.nextUuid db, memory,
      indexedWorld svc req user w⟩
  rw [hrun] at hkeeps
  exact ⟨e, F', s', hrun, hkeeps⟩

theorem uploadBody_ok (h : ∀ j < req.contents.length + 1, F j = none)
    (hlate : ∀ j < 3, F (j + (req.contents.length + 1)) = none) :
    ∃ document F', uploadBody svc req user F ⟨db, memory, w⟩ =
      (.ok document, F', ⟨uploadDb svc req user w.nextUuid db, memory, (indexedWorld svc req user w).drawn 1⟩) := by
  rw [uploadBody_of_none h]
  obtain ⟨document, s', hrun⟩ := (concludeUpload_trips (V := V) (.fromClaims req.claims) user req.requestId
    req.contents _).ok (F.drop (req.contents.length + 1)) _ hlate
  have hnone := robust_concludeUpload _ _ _ _ _ hrun
  rw [concludeUpload_run] at hnone
  injection hnone with _ hs
  injection hs with _ hs
  exact ⟨document, _, by rw [hrun, ← hs]; rfl⟩

end outcome
end BankingAi
