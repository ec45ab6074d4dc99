import BankingAi.Ai.VectorStore
import BankingAi.Db.Workflow

/-!
# Document tables

The rows of `documents`, `document_chunks` and `embeddings_metadata`, besides the workflow tables of
the same database. Timestamps are left out.
-/

namespace BankingAi

inductive DocumentStatus where
  | uploaded | processing | processed | needsReview | failed
deriving DecidableEq, Repr

structure Document where
  id : Uuid
  filename : String
  contentType : String
  sizeBytes : ℕ
  storageKey : String
  sha256 : Option String
  status : DocumentStatus
  docMetadata : JsonDict
  uploadedBy : Option Uuid

structure DocumentChunk where
  id : Uuid
  documentId : Uuid
  chunkIndex : ℕ
  content : String
  tokenCount : ℕ

structure EmbeddingMetadata (V : Type) where
  id : Uuid
  chunkId : Uuid
  model : String
  dimensions : ℕ
  vector : V

structure Library (V : Type) extends Database where
  documents : List Document
  chunks : List DocumentChunk
  embeddings : List (EmbeddingMetadata V)

namespace Library

variable {V : Type} (db : Library V)

def empty : Library V := { Database.empty with documents := [], chunks := [], embeddings := [] }

def chunksOf (id : Uuid) : List DocumentChunk := db.chunks.filter (·.documentId = id)

def addDocument (d : Document) : Library V := { db with documents := db.documents ++ [d] }

def addChunk (c : DocumentChunk) : Library V := { db with chunks := db.chunks ++ [c] }

def addEmbedding (e : EmbeddingMetadata V) : Library V :=
  { db with embeddings := db.embeddings ++ [e] }

/-- `UPDATE documents SET status = ... WHERE id = ...`. -/
def setStatus (id : Uuid) (status : DocumentStatus) : Library V :=
  { db with documents := Table.update Document.id id ({ · with status }) db.documents }

end Library
end BankingAi
