import BankingAi.Db.Document
import BankingAi.Lib.PythonStr
import BankingAi.Lib.Utf8
import BankingAi.Services.AuditService
import BankingAi.Services.StorageService

/-!
# Document ingestion

`ingest` writes to three stores: the bytes go to object storage, the rows to the database and the
vectors to the in-memory index. Only the database is rolled back when a later step fails, so the
files and the vectors belong to the world.
-/

namespace BankingAi

open Posix

/-- What a rollback does not undo: besides the draws, the stored files and the vector index. -/
structure LibraryWorld (V : Type) extends World where
  files : FileSystem
  vectors : VectorStore V

abbrev LibrarySession (V : Type) := SessionM (Library V) (Dict Uuid Loaded) (LibraryWorld V) Exn

/-- The workflow tables and the draws, as the other services see them. -/
def workflowPart (V : Type) :
    SessionM.Part (Library V) (Dict Uuid Loaded) (LibraryWorld V) Database (Dict Uuid Loaded) World where
  get s := ⟨s.db.toDatabase, s.memory, s.world.toWorld⟩
  put t s := ⟨{ s.db with toDatabase := t.db }, t.memory, { s.world with toWorld := t.world }⟩

/-- A computation of the workflow services in a session on all the tables. -/
def inLibrary {V α : Type} (m : WorkflowSession α) : LibrarySession V α := .zoom (workflowPart V) m

/-! ### Text -/

/-- `range(0, n, step)`. -/
def startsBelow (n step : ℕ) : List ℕ := (List.range n).filter (step ∣ ·)

def chunkLoop (size : ℕ) (words : List (List Char)) : List ℕ → List String
  | [] => []
  | start :: starts =>
    let window := (words.drop start).take size
    let rest := if words.length ≤ start + size then [] else chunkLoop size words starts
    if window = [] then rest else String.ofList ([' '].intercalate window) :: rest

/-- Overlapping windows of words. -/
def chunkText (text : String) (size overlap : ℕ) : List String :=
  let words := Str.words text.toList
  if words = [] then []
  else chunkLoop size words (startsBelow words.length (max 1 (size - overlap)))

/-- Binary formats have no text. -/
def decodeText (data : Bytes) (contentType : String) : String :=
  if "text/".toList <+: contentType.toList ∨ contentType ∈ ["application/json", "application/xml"] then
    Utf8.decode data
  else ""

/-- The chunks of an upload, of the default size and overlap. -/
def chunksOfText (extracted : String) : List String :=
  if extracted = "" then [] else chunkText extracted 120 20

/-! ### The service -/

/-- `type(exc).__name__`. -/
def osErrorName : OsError → String
  | .fileNotFound => "FileNotFoundError"
  | .notADirectory => "NotADirectoryError"
  | .isADirectory => "IsADirectoryError"
  | .fileExists => "FileExistsError"
  | .nameTooLong => "OSError"

def LocalFileStorage.Failure.exn : LocalFileStorage.Failure → Exn
  | .value e => .other e.typeName e.text
  | .os e => .other (osErrorName e) ""

structure DocumentService (V S : Type) where
  storage : LocalFileStorage
  sha256 : Bytes → String
  embedder : Embedder V S

/-- `key.split("/", 1)[0]`. -/
def keyDigest (key : String) : String := .ofList (key.toList.takeWhile (· ≠ '/'))

structure IngestArgs where
  filename : String
  contentType : String
  data : Bytes
  text : Option String
  uploadedBy : Option Uuid
  metadata : JsonDict

namespace DocumentService

variable {V S : Type} (svc : DocumentService V S)

def putObject (key : String) (data : Bytes) : LibrarySession V (Except LocalFileStorage.Failure String) :=
  .effect fun w => ((svc.storage.put w.files key data).1,
    { w with files := (svc.storage.put w.files key data).2 })

/-- The row of a document that is being processed. -/
def documentRow (args : IngestArgs) (key : String) (id : Uuid) : Document where
  id := id
  filename := args.filename
  contentType := args.contentType
  sizeBytes := args.data.length
  storageKey := key
  sha256 := some (keyDigest key)
  status := .processing
  docMetadata := args.metadata
  uploadedBy := args.uploadedBy

def chunkRow (documentId : Uuid) (index : ℕ) (content : String) (id : Uuid) : DocumentChunk where
  id := id
  documentId := documentId
  chunkIndex := index
  content := content
  tokenCount := max 1 (content.length / 4)

def embeddingRow (chunkId : Uuid) (content : String) (id : Uuid) : EmbeddingMetadata V where
  id := id
  chunkId := chunkId
  model := "hashing-embedder"
  dimensions := svc.embedder.dimensions
  vector := svc.embedder.embed content

def vectorRecord (document : Document) (chunkId : Uuid) (content : String) : VectorRecord V where
  chunkId := chunkId.str
  documentId := document.id.str
  text := content
  embedding := svc.embedder.embed content
  filename := some document.filename

/-- The loop of `ingest` over the chunks. -/
def ingestChunks (document : Document) : ℕ → List String → LibrarySession V (List (VectorRecord V))
  | _, [] => pure []
  | index, content :: contents => do
    let chunkId ← inLibrary uuid4
    .modifyDb (·.addChunk (chunkRow document.id index content chunkId))
    inLibrary flush
    let id ← inLibrary uuid4
    .modifyDb (·.addEmbedding (svc.embeddingRow chunkId content id))
    let records ← ingestChunks document (index + 1) contents
    pure (svc.vectorRecord document chunkId content :: records)

/-- The rows of a document and of its chunks. -/
def ingestRows (args : IngestArgs) (key : String) (contents : List String) :
    LibrarySession V (Document × List (VectorRecord V)) := do
  let id ← inLibrary uuid4
  let document := documentRow args key id
  .modifyDb (·.addDocument document)
  inLibrary flush
  let records ← svc.ingestChunks document 0 contents
  pure (document, records)

def upsertVectors (records : List (VectorRecord V)) : LibrarySession V Unit :=
  if records = [] then pure ()
  else .effect fun w => ((), { w with vectors := VectorStore.upsert w.vectors records })

def finalStatus (contents : List String) : DocumentStatus :=
  if contents = [] then .needsReview else .processed

def ingestStatus (document : Document) (contents : List String) : LibrarySession V Document := do
  let status := finalStatus contents
  .modifyDb (·.setStatus document.id status)
  inLibrary flush
  pure { document with status }

def ingest (args : IngestArgs) : LibrarySession V Document := do
  let key := contentKey svc.sha256 args.filename args.data
  match ← svc.putObject key args.data with
  | .error failure => .raise failure.exn
  | .ok _ =>
    let extracted := args.text.getD (decodeText args.data args.contentType)
    let contents := chunksOfText extracted
    let (document, records) ← svc.ingestRows args key contents
    upsertVectors records
    ingestStatus document contents

end DocumentService
end BankingAi
