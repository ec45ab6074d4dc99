import BankingAi.Core.Errors
import BankingAi.Db.Workflow
import BankingAi.Lib.Session

/-!
# Sessions over the workflow tables, and the audit service

`World` is what a rollback does not undo: the draws of `uuid4` and the calls the agent executor has
received. The memory of a session is its identity map: the collections loaded for each workflow.
-/

namespace BankingAi

structure ExecutorCall where
  agentName : String
  payload : JsonDict

structure World where
  nextUuid : ℕ
  calls : List ExecutorCall

/-- The collections loaded on a workflow object, by the ids of their members. -/
structure Loaded where
  agentRuns : List Uuid
  approvals : List Uuid

abbrev WorkflowSession := SessionM Database (Dict Uuid Loaded) World Exn

def uuid4 : WorkflowSession Uuid :=
  .effect fun w => (⟨w.nextUuid⟩, { w with nextUuid := w.nextUuid + 1 })

/-- `session.flush()`: send the pending rows and changed columns. -/
def flush : WorkflowSession Unit := .roundTrip

namespace AuditService

def sensitiveKeys : List String :=
  ["password", "secret", "token", "authorization", "api_key", "ssn", "card_number"]

/-- `key.lower()`, as far as it can give an ASCII key: besides the capital letters only the Kelvin
sign has an ASCII lower case. -/
def lowerKey (key : String) : String :=
  String.ofList (key.toList.map fun c => if c = '\u212a' then 'k' else c.toLower)

def redact (context : JsonDict) : JsonDict :=
  context.mapValues fun key value =>
    if lowerKey key ∈ sensitiveKeys then .str "***redacted***" else value

def record (action resourceType : String) (outcome : String) (actorId : Option Uuid)
    (actorEmail resourceId requestId : Option String) (context : JsonDict) :
    WorkflowSession AuditLog := do
  let id ← uuid4
  let entry : AuditLog :=
    { id, action, resourceType, outcome, actorId, actorEmail, resourceId, requestId
      context := redact context }
  .modifyDb (·.addAuditLog entry)
  flush
  pure entry

end AuditService
end BankingAi
