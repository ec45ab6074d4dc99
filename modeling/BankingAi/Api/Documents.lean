import BankingAi.Api.Workflows
import BankingAi.Services.DocumentService

/-!
# Document endpoints

`POST /documents/upload`: the file is ingested and the upload recorded in the audit log, in one
transaction.
-/

namespace BankingAi

open Posix

/-- The upload ceiling, 25 MiB. -/
def maxBytes : ℕ := 25 * 1024 * 1024

/-- A multipart upload, with the claims of its token. -/
structure UploadRequest where
  claims : Claims
  filename : Option String
  contentType : Option String
  data : Bytes
  kind : String
  requestId : Option String

/-- `value or default`. -/
def orDefault (value : Option String) (default : String) : String :=
  match value with
  | some s => if s = "" then default else s
  | none => default

/-- The arguments of the ingestion of an upload. -/
def UploadRequest.args (req : UploadRequest) (user : Uuid) : IngestArgs where
  filename := orDefault req.filename "upload.bin"
  contentType := orDefault req.contentType "application/octet-stream"
  data := req.data
  text := none
  uploadedBy := some user
  metadata := Dict.empty.set "kind" (.str req.kind)

section endpoint

variable {V S : Type} (svc : DocumentService V S)

def recordUpload (principal : Principal) (user : Uuid) (requestId : Option String) (document : Document) :
    LibrarySession V AuditLog :=
  inLibrary (AuditService.record "document.uploaded" "document" "success" (some user) principal.email
    (some document.id.str) requestId
    ((Dict.empty.set "filename" (.str document.filename)).set "size" (.int document.sizeBytes)))

def uploadDocument (principal : Principal) (req : UploadRequest) : LibrarySession V Document := do
  inLibrary (requirePermissions [Permission.documentUpload.value] principal)
  if req.data.length > maxBytes then
    .raise (.new .validation "Uploaded file exceeds the size limit."
      [("max_bytes", .int maxBytes), ("size", .int req.data.length)])
  else
    let user ← SessionM.ofExcept principal.userUuid
    let document ← svc.ingest (req.args user)
    let _ ← recordUpload principal user req.requestId document
    pure document

def UploadRequest.handle (req : UploadRequest) : LibrarySession V Document :=
  uploadDocument svc (.fromClaims req.claims) req

end endpoint

/-- The committed tables, the files and the vectors. -/
structure LibraryState (V : Type) where
  db : Library V
  world : LibraryWorld V

/-- One step is one upload, in its own transaction. -/
def uploadMachine {V S : Type} (svc : DocumentService V S) :
    Machine (LibraryState V) (UploadRequest × Faults Exn) (Except Exn Document) where
  step s i :=
    let r := SessionM.transact .empty (i.1.handle svc) i.2 s.db s.world
    (r.1, ⟨r.2.1, r.2.2⟩)

end BankingAi
