import BankingAi.Agents.Summarization
import BankingAi.Ai.VectorStore

/-!
# The retrieval and compliance agents

The compliance agent retrieves policy chunks and cites them; if a router is configured it asks it for
the answer over the cited evidence.
-/

namespace BankingAi

open Ai

/-- An embedder and the store it searches; `rounded` is `round(score, 6)`. -/
structure Retriever (V S : Type) where
  embedder : Embedder V S
  store : VectorStore V
  rounded : S → PyFloat

structure SearchHit where
  documentId : Uuid
  chunkId : Uuid
  score : PyFloat
  text : String
  filename : Option String

def Json.ofOption (s : Option String) : Json :=
  match s with
  | some s => .str s
  | none => .null

def SearchHit.toJson (hit : SearchHit) : Json :=
  .obj [("document_id", .str hit.documentId.str), ("chunk_id", .str hit.chunkId.str), ("score", .float hit.score),
    ("text", .str hit.text), ("filename", .ofOption hit.filename)]

structure RetrievalInput where
  query : String
  topK : ℤ
  topK_mem : 1 ≤ topK ∧ topK ≤ 50

structure RetrievalOutput where
  query : String
  hits : List SearchHit

def RetrievalOutput.toOutput (o : RetrievalOutput) : AgentOutput where
  fields := (Dict.empty.set "query" (.str o.query)).set "hits" (.arr (o.hits.map SearchHit.toJson))

namespace RetrievalAgent

variable {V S : Type} (retriever : Retriever V S)

/-- `uuid.UUID(text)`. -/
def parseUuid (text : String) : Except Exn Uuid :=
  match Uuid.ofStr? text with
  | some id => .ok id
  | none => .error (.other "ValueError" "badly formed hexadecimal UUID string")

def hit (s : ScoredRecord V S) : Except Exn SearchHit := do
  let documentId ← parseUuid s.record.documentId
  let chunkId ← parseUuid s.record.chunkId
  pure { documentId, chunkId, score := retriever.rounded s.score, text := s.record.text
         filename := s.record.filename }

def run (payload : RetrievalInput) : Except Exn RetrievalOutput := do
  let embedding := retriever.embedder.embed payload.query
  let scored := VectorStore.query retriever.embedder retriever.store embedding payload.topK
  let hits ← scored.mapM (hit retriever)
  pure { query := payload.query, hits }

end RetrievalAgent

structure Citation where
  marker : ℕ
  documentId : String
  chunkId : String
  filename : Option String
  text : String

def Citation.toJson (c : Citation) : Json :=
  .obj [("marker", .int c.marker), ("document_id", .str c.documentId), ("chunk_id", .str c.chunkId),
    ("filename", .ofOption c.filename), ("text", .str c.text)]

structure ComplianceInput where
  question : String
  topK : ℤ
  topK_mem : 1 ≤ topK ∧ topK ≤ 20

structure ComplianceOutput where
  question : String
  answer : String
  citations : List Citation
  grounded : Bool
  modelUsed : Option String

def ComplianceOutput.toOutput (o : ComplianceOutput) : AgentOutput where
  fields := ((((Dict.empty.set "question" (.str o.question)).set "answer" (.str o.answer)).set
    "citations" (.arr (o.citations.map Citation.toJson))).set "grounded" (.bool o.grounded)).set
    "model_used" (.ofOption o.modelUsed)

namespace ComplianceAgent

def promptVersion : String := "compliance.v1"

/-- The template `compliance.v1`. -/
def system : String :=
  "You are a banking compliance assistant. Answer ONLY using the provided policy excerpts. Cite excerpts by " ++
    "their [n] marker. If the excerpts do not contain the answer, say that the policy does not address it. " ++
    "Never invent rules or citations."

def citations (hits : List SearchHit) : List Citation :=
  hits.zipIdx.map fun (hit, i) =>
    { marker := i + 1, documentId := hit.documentId.str, chunkId := hit.chunkId.str, filename := hit.filename
      text := hit.text }

theorem citations_eq_nil {hits : List SearchHit} : citations hits = [] ↔ hits = [] := by
  unfold citations
  rw [List.map_eq_nil_iff, List.zipIdx_eq_nil_iff]

def excerpt (c : Citation) : String := s!"[{c.marker}] {c.text}"

def request (question : String) (citations : List Citation) : CompletionRequest where
  messages :=
    [⟨.system, system⟩,
      ⟨.user, s!"Question: {question}\n\nPolicy excerpts:\n" ++ "\n".intercalate (citations.map excerpt)⟩]
  maxTokens := 512
  temperature := 0
  jsonMode := false
  promptVersion := some promptVersion
  maxTokens_mem := CompletionRequest.maxTokens_512
  temperature_mem := by norm_num

/-- The arguments of the retrieval the agent makes. -/
def retrievalInput (payload : ComplianceInput) : RetrievalInput where
  query := payload.question
  topK := payload.topK
  topK_mem := ⟨payload.topK_mem.1, payload.topK_mem.2.trans (by decide)⟩

variable {V S σ : Type} (retriever : Retriever V S) (router : Option (InjectedRouter σ))

/-- The router is called without the id of the agent run. -/
def run (payload : ComplianceInput) : RoutedRun ComplianceOutput :=
  match RetrievalAgent.run retriever (retrievalInput payload) with
  | .error e => ⟨.error e, none⟩
  | .ok retrieval =>
    let citations := citations retrieval.hits
    if citations = [] then
      ⟨.ok ⟨payload.question, "No relevant policy was found for this question.", [], false, none⟩, none⟩
    else
      match router with
      | none =>
        let joined := " ".intercalate (citations.map excerpt)
        let answer := "Based on the retrieved policy excerpts: " ++ .ofList (joined.toList.take 1500)
        ⟨.ok ⟨payload.question, answer, citations, true, none⟩, none⟩
      | some router =>
        let call := router.complete (request payload.question citations) none
        ⟨call.reply.map fun result =>
          ⟨payload.question, Str.strip result.text, citations, true, some result.modelUsed⟩, some call⟩

end ComplianceAgent
end BankingAi
