import BankingAi.Core.Errors
import BankingAi.Db.Workflow

/-!
# Agents

An agent takes a typed input to a typed output or raises; `BaseAgent.execute` turns either into an
`AgentOutcome`, so it never raises itself. An output model is kept by the fields its
`model_dump(mode="json")` has.
-/

namespace BankingAi

inductive OutcomeStatus where
  | succeeded | failed
deriving DecidableEq, Repr

structure AgentOutcome (τ : Type) where
  agentName : String
  status : OutcomeStatus
  output : Option τ
  error : Option String
  latencyMs : ℕ
  modelUsed : Option String
  promptVersion : Option String

/-- An output model, by its fields. -/
structure AgentOutput where
  fields : JsonDict

namespace AgentOutput

def modelDump (o : AgentOutput) : Json := .obj o.fields.entries

/-- `bool(getattr(output, "requires_human_review", False))`. -/
def requiresHumanReview (o : AgentOutput) : Bool :=
  ((o.fields.get? "requires_human_review").getD (.bool false)).truthy

end AgentOutput

/-- Whether a dumped output has a true `requires_human_review`. -/
def Json.flagsReview : Json → Bool
  | .obj fields => ((Json.field? fields "requires_human_review").getD (.bool false)).truthy
  | _ => false

@[simp] theorem AgentOutput.flagsReview_modelDump (o : AgentOutput) :
    o.modelDump.flagsReview = o.requiresHumanReview := rfl

structure BaseAgent (ι τ : Type) where
  name : String
  promptVersion : Option String
  run : ι → Except Exn τ

/-- `latencyMs` is the time the clock measures. -/
def BaseAgent.execute {ι τ : Type} (agent : BaseAgent ι τ) (payload : ι) (latencyMs : ℕ) :
    AgentOutcome τ :=
  match agent.run payload with
  | .error exc =>
    let error := match exc with
      | .app e => if e.cls = .agent then e.message else s!"{exc.typeName}: {exc.text}"
      | .other _ _ => s!"{exc.typeName}: {exc.text}"
    ⟨agent.name, .failed, none, some error, latencyMs, none, agent.promptVersion⟩
  | .ok output =>
    ⟨agent.name, .succeeded, some output, none, latencyMs, none, agent.promptVersion⟩

namespace BaseAgent
variable {ι τ : Type} {agent : BaseAgent ι τ} {payload : ι} {latencyMs : ℕ}

theorem execute_of_ok {output : τ} (h : agent.run payload = .ok output) :
    agent.execute payload latencyMs =
      ⟨agent.name, .succeeded, some output, none, latencyMs, none, agent.promptVersion⟩ := by
  rw [execute, h]

theorem execute_succeeded_iff :
    (agent.execute payload latencyMs).status = .succeeded ↔ ∃ output, agent.run payload = .ok output := by
  unfold execute
  split
  case h_1 e h => exact iff_of_false nofun (by rw [h]; rintro ⟨_, ⟨⟩⟩)
  case h_2 output h => exact iff_of_true rfl ⟨output, h⟩

end BaseAgent
end BankingAi
