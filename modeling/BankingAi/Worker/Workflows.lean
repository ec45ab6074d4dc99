import BankingAi.Agents.Orchestrator
import BankingAi.Services.WorkflowService

/-!
# The Temporal worker

`BankingWorkflow.run` over the plan of a workflow type: every step is an activity, which runs the
agent through an executor and returns the dump of its outcome. `executeActivity` returns what the
activity returns; the calls are those the executors of the activities have received.
-/

namespace BankingAi

def OutcomeStatus.value : OutcomeStatus → String
  | .succeeded => "succeeded"
  | .failed => "failed"

/-- `outcome.model_dump(mode="json")`. -/
def AgentOutcome.modelDump (o : AgentOutcome AgentOutput) : Json :=
  let text : Option String → Json := fun s => s.elim .null .str
  .obj [("agent_name", .str o.agentName), ("status", .str o.status.value),
    ("output", o.output.elim .null AgentOutput.modelDump), ("error", text o.error),
    ("latency_ms", .int o.latencyMs), ("model_used", text o.modelUsed),
    ("prompt_version", text o.promptVersion)]

namespace Worker

/-- What `BankingWorkflow.run` returns. -/
structure Report where
  requiresHumanApproval : Bool
  results : JsonDict

def runAgentStep (executor : AgentExecutor) (calls : List ExecutorCall) (agentName : String)
    (payload : JsonDict) : Except Exn Json :=
  (executor.runStep calls agentName payload).map AgentOutcome.modelDump

/-- The loop of `run` over the planned steps. -/
def runActivities (executor : AgentExecutor) (payload : JsonDict) :
    List PlanStep → List ExecutorCall → JsonDict → Except Exn (List ExecutorCall × JsonDict)
  | [], calls, results => .ok (calls, results)
  | step :: steps, calls, results =>
    match runAgentStep executor calls step.agent payload with
    | .ok dump =>
      runActivities executor payload steps (calls ++ [⟨step.agent, payload⟩]) (results.set step.agent dump)
    | .error exc => .error exc

/-- `latencyMs` is what the clock measures for the orchestrator. -/
def run (executor : AgentExecutor) (calls : List ExecutorCall) (latencyMs : ℕ) (workflowType : WorkflowType)
    (payload : JsonDict) : Except Exn (List ExecutorCall × Report) :=
  match (orchestratorAgent.execute ⟨workflowType, .empty⟩ latencyMs).output with
  | none => .error (.other "AssertionError" "")
  | some plan =>
    (runActivities executor payload plan.steps calls .empty).map fun (calls, results) =>
      (calls, ⟨plan.requiresHumanApproval, results⟩)

end Worker
end BankingAi
