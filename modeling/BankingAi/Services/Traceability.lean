import BankingAi.Ai.Routing
import BankingAi.Services.AgentExecutor
import BankingAi.Services.WorkflowRuns

/-!
# Tracing model calls to agent runs

The agents call the router without the id of their agent run, and `BaseAgent.execute` leaves
`model_used` empty. So every model call of a workflow can be traced exactly when none is made.
-/

namespace BankingAi

open Ai SessionM

/-! ### The records of a call -/

namespace Ai.ModelRouter

variable (router : ModelRouter) (request : CompletionRequest)

/-- The first provider is available and raises what the router does not catch, or completes the request
with a token count that does not convert to a float: no record is offered. -/
def Breaks : Prop :=
  ∃ p ∈ router.providers.head?, p.available = true ∧
    ((∃ e, p.complete request = .error e ∧ ¬ e.IsApp .llmProvider) ∨
      ∃ raw, p.complete request = .ok raw ∧ ¬ CountsConvert raw.promptTokens raw.completionTokens)

variable {router request} {σ : Type} {observer : RouterObserver σ} {agentRunId : Option Uuid}

/-- Events were added, and the records among them carry this id. -/
def Adds (agentRunId : Option Uuid) (s s' : RouterState σ) : Prop :=
  ∃ added, s'.events = s.events ++ added ∧ ∀ record, .offer record ∈ added → record.agentRunId = agentRunId

namespace Adds

theorem refl (s : RouterState σ) : Adds agentRunId s s :=
  ⟨[], (List.append_nil _).symm, fun _ h => absurd h List.not_mem_nil⟩

theorem trans {s s' s'' : RouterState σ} (h : Adds agentRunId s s') (h' : Adds agentRunId s' s'') :
    Adds agentRunId s s'' := by
  obtain ⟨added, hadded, hids⟩ := h
  obtain ⟨added', hadded', hids'⟩ := h'
  refine ⟨added ++ added', by rw [hadded', hadded, List.append_assoc], fun record hrecord => ?_⟩
  rcases List.mem_append.1 hrecord with hrecord | hrecord
  · exact hids record hrecord
  · exact hids' record hrecord

theorem probe (s : RouterState σ) (index : ℕ) : Adds agentRunId s (s.log (.probe index)) :=
  ⟨[.probe index], rfl, fun record h => by simp at h⟩

theorem call (s : RouterState σ) (index : ℕ) : Adds agentRunId s (s.log (.call index)) :=
  ⟨[.call index], rfl, fun record h => by simp at h⟩

theorem offer {record : ModelCallRecord} (s : RouterState σ) (h : record.agentRunId = agentRunId) :
    Adds agentRunId s (safeRecord observer record s) := by
  refine ⟨[.offer record], safeRecord_events record s, fun record' hrecord => ?_⟩
  rw [RouterEvent.offer.inj (List.mem_singleton.1 hrecord)]
  exact h

theorem failure (p : LLMProvider) (usedFallback : Bool) (error : String) (latencyMs : ℤ) (s : RouterState σ) :
    Adds agentRunId s (router.emitFailure observer request agentRunId p usedFallback error latencyMs s) :=
  offer s rfl

theorem success {result : CompletionResult} {reply : Except Exn Unit} {s s' : RouterState σ}
    (h : router.emitSuccess observer request agentRunId result s = (reply, s')) : Adds agentRunId s s' := by
  unfold emitSuccess at h
  split at h <;> cases h
  · exact .refl s
  · exact offer s rfl

end Adds

variable (router request observer agentRunId)

theorem completeFrom_adds (index : ℕ) (ps : List LLMProvider) (attempts : List String)
    (previousError : Option String) (s : RouterState σ) :
    Adds agentRunId s
      (router.completeFrom observer request agentRunId index ps attempts previousError s).2 := by
  induction ps generalizing index attempts previousError s with
  | nil => exact .refl s
  | cons p ps ih =>
    rw [completeFrom]
    dsimp only
    split
    · exact (Adds.probe s index).trans ((Adds.failure ..).trans (ih ..))
    · have hcall : Adds agentRunId s ((s.log (.probe index)).log (.call index)) :=
        (Adds.probe s index).trans (.call _ index)
      split
      · split
        · exact hcall.trans ((Adds.failure ..).trans (ih ..))
        · exact hcall
      · split
        case h_1 hemit => exact hcall.trans (.success hemit)
        case h_2 hemit => exact hcall.trans (.success hemit)

variable {router request observer agentRunId} in
theorem Adds.offered {record : ModelCallRecord} {s s' : RouterState σ}
    (h : Adds agentRunId (safeRecord observer record s) s') : .offer record ∈ s'.events := by
  obtain ⟨added, hadded, -⟩ := h
  rw [hadded, safeRecord_events]
  simp

variable {router request}

/-- A call offers a record unless its first provider breaks. -/
theorem complete_offers (h : ¬ router.Breaks request) (o : σ) :
    ∃ record, .offer record ∈ (router.complete observer request agentRunId o).2.events := by
  unfold complete
  cases hps : router.providers with
  | nil => exact absurd hps router.nonempty
  | cons p ps =>
    rw [completeFrom]
    dsimp only
    split
    · exact ⟨_, (completeFrom_adds ..).offered⟩
    case isFalse havailable =>
      split
      case h_1 e he =>
        split
        · exact ⟨_, (completeFrom_adds ..).offered⟩
        case isFalse hclass =>
          exact absurd ⟨p, by rw [hps]; rfl, by simpa using havailable, .inl ⟨e, he, hclass⟩⟩ h
      case h_2 raw hraw =>
        rcases estimateCostUsd_eq raw.provider raw.model raw.promptTokens raw.completionTokens with
          ⟨-, hcost⟩ | ⟨hcounts, -⟩
        · simp only [emitSuccess, hcost]
          exact ⟨_, Adds.offered (@Adds.refl _ agentRunId _)⟩
        · exact absurd ⟨p, by rw [hps]; rfl, by simpa using havailable, .inr ⟨raw, hraw, hcounts⟩⟩ h

theorem complete_of_breaks (h : router.Breaks request) (o : σ) :
    ∃ e, (router.complete observer request agentRunId o).1 = .error e ∧
      (router.complete observer request agentRunId o).2.events = [.probe 0, .call 0] := by
  obtain ⟨p, hp, havailable, hbreaks⟩ := h
  unfold complete
  cases hps : router.providers with
  | nil => rw [hps] at hp; cases hp
  | cons q qs =>
    rw [hps] at hp
    obtain rfl : q = p := Option.some.inj hp
    rcases hbreaks with ⟨e, he, hclass⟩ | ⟨raw, hraw, hcounts⟩
    · refine ⟨e, ?_⟩
      rw [completeFrom]
      simp only [havailable, he, if_neg hclass, Bool.not_true, Bool.false_eq_true, if_false]
      exact ⟨trivial, rfl⟩
    · exact ⟨_, completeFrom_of_not_convert ⟨havailable, hraw⟩ hcounts⟩

end Ai.ModelRouter

/-! ### Tracing a call -/

/-- The attempts and the model of a call can be found from the agent run. -/
structure Traceable (run : AgentRun) (call : ModelCall) : Prop where
  attributed : ∀ record ∈ call.records, record.agentRunId = some run.id
  modelUsed : run.status = .succeeded → ∀ result, call.reply = .ok result →
    run.modelUsed = some result.modelUsed

section call

variable {σ : Type} {r : InjectedRouter σ} {request : CompletionRequest}

theorem ModelCall.mem_records {call : ModelCall} {record : ModelCallRecord} :
    record ∈ call.records ↔ .offer record ∈ call.events := by
  unfold records
  rw [List.mem_filterMap]
  constructor
  · rintro ⟨event, hevent, heq⟩
    cases event with
    | offer record' => cases heq; exact hevent
    | probe index => cases heq
    | call index => cases heq
  · exact fun h => ⟨_, h, rfl⟩

/-- A call without the id of an agent run can be traced from it only if its first provider breaks. -/
theorem traceable_complete_iff (run : AgentRun) :
    Traceable run (r.complete request none) ↔ r.router.Breaks request := by
  constructor
  · intro h
    by_contra hbreaks
    obtain ⟨record, hrecord⟩ := ModelRouter.complete_offers r.observer none hbreaks r.state
    obtain ⟨added, hadded, hids⟩ := ModelRouter.completeFrom_adds r.router request r.observer none 0 r.router.providers [] none ⟨[], r.state⟩
    have hnone : record.agentRunId = none := hids record (by
      rw [List.nil_append] at hadded
      rw [← hadded]
      exact hrecord)
    have hsome := h.attributed record (ModelCall.mem_records.2 hrecord)
    rw [hnone] at hsome
    cases hsome
  · intro hbreaks
    obtain ⟨e, hreply, hevents⟩ := ModelRouter.complete_of_breaks r.observer none hbreaks r.state
    refine ⟨fun record hrecord => ?_, fun _ result hok => ?_⟩
    · have hmem := ModelCall.mem_records.1 hrecord
      change _ ∈ (r.router.complete r.observer request none r.state).2.events at hmem
      rw [hevents] at hmem
      simp at hmem
    · exact absurd (hreply.symm.trans hok) nofun

end call

/-! ### The calls of a loop under any faults -/

/-- The agents of the runs, and the calls of the executor. -/
def stepsSeen (s : Session Database (Dict Uuid Loaded) World) : List String × List ExecutorCall :=
  (s.db.agentRuns.map AgentRun.agentName, s.world.calls)

section leaves

variable (svc : WorkflowService)

theorem leaves_uuid4 : Leaves stepsSeen uuid4 := .effect fun _ => rfl

theorem leaves_maybeAudit (action : String) (workflowId : Uuid) (actorId : Option Uuid)
    (requestId : Option String) (context : JsonDict) :
    Leaves stepsSeen (svc.maybeAudit action workflowId actorId requestId context) := by
  unfold WorkflowService.maybeAudit
  split
  · exact (leaves_uuid4.bind fun _ => (Leaves.modifyDb fun _ => rfl).bind fun _ =>
      Leaves.roundTrip.bind fun _ => .pure _).bind fun _ => .pure _
  · exact .pure _

theorem leaves_reload (workflowId : Uuid) : Leaves stepsSeen (WorkflowService.reload workflowId) :=
  WorkflowService.reload_leaves (fun _ _ => rfl) workflowId

theorem leaves_fail (workflowId : Uuid) (createdBy : Option Uuid) (requestId : Option String)
    (step : PlanStep) (outcome : AgentOutcome AgentOutput) (results : JsonDict) :
    Leaves stepsSeen (svc.fail workflowId createdBy requestId step outcome results) :=
  (Leaves.modifyDb fun _ => rfl).bind fun _ => Leaves.roundTrip.bind fun _ =>
    (leaves_maybeAudit svc _ _ _ _ _).bind fun _ => leaves_reload _

theorem leaves_gate (plan : WorkflowPlan) (workflowId : Uuid) (needsApproval : Bool) :
    Leaves stepsSeen (WorkflowService.gate plan workflowId needsApproval) := by
  unfold WorkflowService.gate
  split
  · exact leaves_uuid4.bind fun _ => (Leaves.modifyDb fun _ => rfl).bind fun _ => .modifyDb fun _ => rfl
  · exact .modifyDb fun _ => rfl

theorem leaves_conclude (plan : WorkflowPlan) (workflowId : Uuid) (createdBy : Option Uuid)
    (requestId : Option String) (agentFlaggedReview : Bool) (results : JsonDict) :
    Leaves stepsSeen (svc.conclude plan workflowId createdBy requestId agentFlaggedReview results) :=
  (Leaves.modifyDb fun _ => rfl).bind fun _ => (leaves_gate _ _ _).bind fun _ => Leaves.roundTrip.bind fun _ =>
    (leaves_maybeAudit svc _ _ _ _ _).bind fun _ => leaves_reload _

theorem leaves_decide (workflowId : Uuid) (args : DecideArgs) :
    Leaves stepsSeen (svc.decide workflowId args) := by
  refine (leaves_reload _).bind fun view => ?_
  dsimp only
  split
  · exact .raise _
  · refine leaves_uuid4.bind fun fresh => (Leaves.modifyDb fun s => ?_).bind fun _ =>
      Leaves.roundTrip.bind fun _ => (leaves_maybeAudit svc _ _ _ _ _).bind fun _ => leaves_reload _
    show (List.map _ _, _) = _
    rw [agentRuns_apply]
    rfl

end leaves

/-- The calls that the loop of `start` makes under the faults `F`. -/
def loopCalls (ex : AgentExecutor) (payload : JsonDict) :
    Faults Exn → List ExecutorCall → List PlanStep → List ExecutorCall
  | _, _, [] => []
  | F, earlier, step :: steps =>
    let call : ExecutorCall := ⟨step.agent, payload⟩
    let outcome := stepOutcome step.agent (ex.runStep earlier step.agent payload)
    if (F 0).isSome then []
    else if (F 1).isSome ∨ outcome.status = .failed then [call]
    else call :: loopCalls ex payload (F.drop 2) (earlier ++ [call]) steps

/-- The calls were made, in order, each after the insertion of its agent run. -/
def Called (calls : List ExecutorCall) (before after : Session Database (Dict Uuid Loaded) World) : Prop :=
  after.world.calls = before.world.calls ++ calls ∧
    ∃ inserted, after.db.agentRuns.map AgentRun.agentName =
      before.db.agentRuns.map AgentRun.agentName ++ (calls.map ExecutorCall.agentName ++ inserted)

theorem Called.of_leaves {s s' : Session Database (Dict Uuid Loaded) World}
    (h : stepsSeen s' = stepsSeen s) : Called [] s s' := by
  obtain ⟨hnames, hcalls⟩ := Prod.ext_iff.1 h
  refine ⟨by rw [List.append_nil]; exact hcalls, [], ?_⟩
  rw [List.map_nil, List.append_nil, List.append_nil]
  exact hnames

section loop

variable (svc : WorkflowService) (workflowId : Uuid) (createdBy : Option Uuid) (requestId : Option String)
  (payload : JsonDict)

theorem Called.trans {calls calls' : List ExecutorCall}
    {s s' s'' : Session Database (Dict Uuid Loaded) World} (h : Called calls s s')
    (hexact : s'.db.agentRuns.map AgentRun.agentName =
      s.db.agentRuns.map AgentRun.agentName ++ calls.map ExecutorCall.agentName)
    (h' : Called calls' s' s'') : Called (calls ++ calls') s s'' := by
  obtain ⟨hcalls', inserted, hnames⟩ := h'
  refine ⟨by rw [hcalls', h.1, List.append_assoc], inserted, ?_⟩
  rw [hnames, hexact, List.map_append]
  simp only [List.append_assoc]

theorem map_agentName_setAgentRun (db : Database) (id : Uuid) (outcome : AgentOutcome AgentOutput) :
    (db.setAgentRun id (AgentRun.finish outcome)).agentRuns.map AgentRun.agentName =
      db.agentRuns.map AgentRun.agentName :=
  Table.map_update fun _ _ => rfl

theorem runSteps_called (steps : List PlanStep) (agentFlaggedReview : Bool) (results : JsonDict)
    (F : Faults Exn) (s : Session Database (Dict Uuid Loaded) World) :
    Called (loopCalls svc.executor payload F s.world.calls steps) s
      (svc.runSteps workflowId createdBy requestId payload steps agentFlaggedReview results F s).2.2 := by
  induction steps generalizing agentFlaggedReview results F s with
  | nil => exact .of_leaves rfl
  | cons step steps ih =>
    set call : ExecutorCall := ⟨step.agent, payload⟩
    set outcome := stepOutcome step.agent (svc.executor.runStep s.world.calls step.agent payload)
    have hcalls : loopCalls svc.executor payload F s.world.calls (step :: steps) =
        if (F 0).isSome then []
        else if (F 1).isSome ∨ outcome.status = .failed then [call]
        else call :: loopCalls svc.executor payload (F.drop 2) (s.world.calls ++ [call]) steps := rfl
    -- the session after the turn, and its agent runs
    let s₂ : Session Database (Dict Uuid Loaded) World :=
      ⟨(s.db.addAgentRun
          { id := ⟨s.world.nextUuid⟩, workflowId, agentName := step.agent, status := .started, input := payload
            output := none, error := none, latencyMs := none, promptVersion := none
            modelUsed := none }).setAgentRun ⟨s.world.nextUuid⟩ (AgentRun.finish outcome), s.memory,
        ⟨s.world.nextUuid + 1, s.world.calls ++ [call]⟩⟩
    have hnames : s₂.db.agentRuns.map AgentRun.agentName =
        s.db.agentRuns.map AgentRun.agentName ++ [call].map ExecutorCall.agentName := by
      rw [map_agentName_setAgentRun]
      exact List.map_append
    have hturn : Called [call] s s₂ := ⟨rfl, [], by rw [hnames, List.append_nil]⟩
    simp only [WorkflowService.runSteps, uuid4, flush, WorkflowService.runStep, bind_run, effect_run,
      modifyDb_run, roundTrip]
    rw [hcalls]
    cases h0 : F 0 with
    | some e => exact ⟨(List.append_nil _).symm, [step.agent], List.map_append⟩
    | none =>
      have htail : F.tail 0 = F 1 := rfl
      dsimp only
      rw [htail]
      cases h1 : F 1 with
      | some e => exact hturn
      | none =>
        by_cases hfailed : outcome.status = .failed
        · rw [if_neg (by simp), if_pos (.inr hfailed), if_pos hfailed]
          have hleaves : Leaves stepsSeen
              (svc.fail workflowId createdBy requestId step outcome (addResult step.agent outcome.output results) >>=
                fun view => pure (LoopExit.returned view)) := (leaves_fail svc _ _ _ _ _ _).bind fun _ => .pure _
          have hrest := Called.of_leaves (hleaves (F.drop 2) s₂)
          exact hturn.trans hnames hrest
        · rw [if_neg (by simp), if_neg (by simp [hfailed]), if_neg hfailed]
          exact hturn.trans hnames (ih _ _ (F.drop 2) s₂)

theorem Called.bind {α β : Type} {m : WorkflowSession α} {f : α → WorkflowSession β} {F : Faults Exn}
    {calls : List ExecutorCall} {s s' : Session Database (Dict Uuid Loaded) World}
    (h : Called calls s (m F s').2.2) (hf : ∀ a, Leaves stepsSeen (f a)) :
    Called calls s ((m >>= f) F s').2.2 := by
  have hseen : stepsSeen ((m >>= f) F s').2.2 = stepsSeen (m F s').2.2 := by
    rw [bind_run]
    match m F s' with
    | (.ok a, F₁, s₁) => exact hf a F₁ s₁
    | (.error e, F₁, s₁) => rfl
  obtain ⟨hnames, hcalls⟩ := Prod.ext_iff.1 hseen
  obtain ⟨hmade, inserted, hinserted⟩ := h
  exact ⟨Eq.trans hcalls hmade, inserted, Eq.trans hnames hinserted⟩

/-- The calls that a start makes under the faults `F`. -/
def startCalls (ex : AgentExecutor) (plan : WorkflowPlan) (payload : JsonDict) (F : Faults Exn)
    (earlier : List ExecutorCall) : List ExecutorCall :=
  if (F 0).isSome then [] else loopCalls ex payload (F.drop 1) earlier plan.steps

theorem start_called {plan : WorkflowPlan} (workflowType : WorkflowType) (inputPayload : JsonDict)
    (hplan : (svc.orchestrator ⟨workflowType, inputPayload⟩).output = some plan) (F : Faults Exn)
    (s : Session Database (Dict Uuid Loaded) World) :
    Called (startCalls svc.executor plan
        (inputPayload.set "workflow_id" (.str (Uuid.mk s.world.nextUuid).str)) F s.world.calls) s
      (svc.start workflowType inputPayload createdBy requestId F s).2.2 := by
  unfold WorkflowService.start startCalls
  rw [hplan]
  simp only [uuid4, flush, bind_run, effect_run, modifyDb_run, roundTrip]
  cases h0 : F 0 with
  | some e => exact .of_leaves rfl
  | none =>
    rw [if_neg (by simp)]
    refine Called.bind (F := F.drop 1) (runSteps_called svc _ createdBy requestId _ plan.steps false .empty _
      ⟨s.db.addWorkflow (runningRow plan workflowType inputPayload createdBy ⟨s.world.nextUuid⟩), s.memory,
        ⟨s.world.nextUuid + 1, s.world.calls⟩⟩) fun exit => ?_
    cases exit with
    | returned view => exact .pure _
    | fellThrough => exact leaves_conclude svc _ _ _ _ _ _

end loop

/-! ### Traceability of a run -/

namespace Platform

variable {V S σ : Type} (p : Platform V S σ)

/-- Every call of the executor has the agent run of the same position, from which the model call that
the step makes can be traced. -/
def StepsTraceable (before after : Session Database (Dict Uuid Loaded) World) : Prop :=
  ∀ k call, (after.world.calls.drop before.world.calls.length)[k]? = some call →
    ∃ run, (after.db.agentRuns.drop before.db.agentRuns.length)[k]? = some run ∧
      run.agentName = call.agentName ∧
      ∀ asked ∈ p.modelCall (after.world.calls.take (before.world.calls.length + k)) call, Traceable run asked

/-- The summarization step gets as far as the router, and the router to a record. -/
def Summarizes (earlier : List ExecutorCall) (payload : JsonDict) : Prop :=
  ∃ input router, p.summarizationInput payload = .ok input ∧ p.router = some router ∧
    ¬ (router earlier).router.Breaks (SummarizationAgent.request input)

/-- So does the compliance step, which asks only about chunks it has found. -/
def Synthesizes (earlier : List ExecutorCall) (payload : JsonDict) : Prop :=
  ∃ retriever input retrieval router, p.retriever = some retriever ∧ p.complianceInput payload = .ok input ∧
    RetrievalAgent.run (retriever earlier) (ComplianceAgent.retrievalInput input) = .ok retrieval ∧
    retrieval.hits ≠ [] ∧ p.router = some router ∧
    ¬ (router earlier).router.Breaks
      (ComplianceAgent.request input.question (ComplianceAgent.citations retrieval.hits))

section asked

variable {p} {earlier : List ExecutorCall} {payload : JsonDict} (run : AgentRun)

theorem traceable_summarization_iff :
    (∀ asked ∈ p.modelCall earlier ⟨"summarization_agent", payload⟩, Traceable run asked) ↔
      ¬ p.Summarizes earlier payload := by
  have hcall : p.modelCall earlier ⟨"summarization_agent", payload⟩ =
      (p.runSummarizationAgent earlier payload).call := rfl
  rw [hcall]
  unfold runSummarizationAgent Summarizes
  cases hinput : p.summarizationInput payload with
  | error e =>
    refine iff_of_true nofun ?_
    rintro ⟨_, _, hi, -⟩
    cases hi
  | ok input =>
    show (∀ asked ∈ (SummarizationAgent.run (p.router.map (· earlier)) input).call, _) ↔ _
    cases hrouter : p.router with
    | none =>
      refine iff_of_true nofun ?_
      rintro ⟨_, _, -, hr, -⟩
      cases hr
    | some router =>
      show (∀ asked ∈ some ((router earlier).complete (SummarizationAgent.request input) none), _) ↔ _
      simp [traceable_complete_iff]

theorem traceable_compliance_iff :
    (∀ asked ∈ p.modelCall earlier ⟨"compliance_agent", payload⟩, Traceable run asked) ↔
      ¬ p.Synthesizes earlier payload := by
  have hcall : p.modelCall earlier ⟨"compliance_agent", payload⟩ =
      (p.runComplianceAgent earlier payload).call := rfl
  rw [hcall]
  unfold runComplianceAgent requireRetrieval Synthesizes
  cases hretriever : p.retriever with
  | none =>
    refine iff_of_true nofun ?_
    rintro ⟨_, _, _, _, hr, -⟩
    cases hr
  | some retriever =>
    cases hinput : p.complianceInput payload with
    | error e =>
      refine iff_of_true nofun ?_
      rintro ⟨_, _, _, _, -, hi, -⟩
      cases hi
    | ok input =>
      show (∀ asked ∈ (ComplianceAgent.run (retriever earlier) (p.router.map (· earlier)) input).call, _) ↔ _
      unfold ComplianceAgent.run
      cases hrun : RetrievalAgent.run (retriever earlier) (ComplianceAgent.retrievalInput input) with
      | error e =>
        refine iff_of_true nofun ?_
        rintro ⟨_, _, _, _, hr, hi, hok, -⟩
        cases hr
        cases hi
        rw [hrun] at hok
        cases hok
      | ok retrieval =>
        by_cases hhits : retrieval.hits = []
        · dsimp only
          rw [if_pos (ComplianceAgent.citations_eq_nil.2 hhits)]
          refine iff_of_true nofun ?_
          rintro ⟨_, _, _, _, hr, hi, hok, hne, -⟩
          cases hr
          cases hi
          rw [hrun] at hok
          cases hok
          exact hne hhits
        · dsimp only
          rw [if_neg (mt ComplianceAgent.citations_eq_nil.1 hhits)]
          cases hrouter : p.router with
          | none =>
            refine iff_of_true nofun ?_
            rintro ⟨_, _, _, _, -, -, -, -, hr, -⟩
            cases hr
          | some router =>
            show (∀ asked ∈ some ((router earlier).complete (ComplianceAgent.request input.question
              (ComplianceAgent.citations retrieval.hits)) none), _) ↔ _
            simp [traceable_complete_iff, hrun, hhits]

theorem call_runPlain (name : String) (built : Except Exn (Except Exn AgentOutput)) :
    (p.runPlain earlier name built).call = none := by
  cases built <;> rfl

theorem call_runRetrievalAgent : (p.runRetrievalAgent earlier payload).call = none := by
  unfold runRetrievalAgent
  split
  · rfl
  · split <;> rfl

theorem modelCall_of_plain {agentName : String} (hsummarization : agentName ≠ "summarization_agent")
    (hcompliance : agentName ≠ "compliance_agent") : p.modelCall earlier ⟨agentName, payload⟩ = none := by
  unfold modelCall builder
  dsimp only
  split
  case h_5 => exact absurd rfl hsummarization
  case h_7 => exact absurd rfl hcompliance
  case h_6 => exact call_runRetrievalAgent
  case h_9 => rfl
  all_goals exact call_runPlain _ _

end asked

/-- Each of the calls can be traced from any agent run. -/
def CallsTraceable : List ExecutorCall → List ExecutorCall → Prop
  | _, [] => True
  | earlier, call :: calls =>
    (∀ run, ∀ asked ∈ p.modelCall earlier call, Traceable run asked) ∧ CallsTraceable (earlier ++ [call]) calls

section steps

variable {p}

/-- Whether a model call can be traced does not depend on the agent run. -/
theorem traceable_of_mem {earlier : List ExecutorCall} {call : ExecutorCall} {run : AgentRun}
    {asked : ModelCall} (h : Traceable run asked) (hasked : asked ∈ p.modelCall earlier call) (run' : AgentRun) :
    Traceable run' asked := by
  obtain ⟨agentName, payload⟩ := call
  have hall : ∀ asked' ∈ p.modelCall earlier ⟨agentName, payload⟩, Traceable run asked' := by
    intro asked' hasked'
    rw [← Option.mem_unique hasked hasked']
    exact h
  by_cases hs : agentName = "summarization_agent"
  · subst hs
    exact (traceable_summarization_iff run').2 ((traceable_summarization_iff run).1 hall) asked hasked
  by_cases hc : agentName = "compliance_agent"
  · subst hc
    exact (traceable_compliance_iff run').2 ((traceable_compliance_iff run).1 hall) asked hasked
  rw [modelCall_of_plain hs hc] at hasked
  cases hasked

theorem callsTraceable_iff {earlier calls : List ExecutorCall} :
    p.CallsTraceable earlier calls ↔ ∀ k call, calls[k]? = some call →
      ∀ run, ∀ asked ∈ p.modelCall (earlier ++ calls.take k) call, Traceable run asked := by
  induction calls generalizing earlier with
  | nil => exact iff_of_true trivial (by simp)
  | cons c calls ih =>
    rw [CallsTraceable, ih]
    constructor
    · rintro ⟨hfirst, hrest⟩ k call hk
      cases k with
      | zero =>
        obtain rfl : c = call := Option.some.inj hk
        rw [List.take_zero, List.append_nil]
        exact hfirst
      | succ k =>
        have h := hrest k call hk
        rw [List.append_assoc] at h
        exact h
    · intro h
      refine ⟨?_, fun k call hk => ?_⟩
      · have hfirst := h 0 c rfl
        rwa [List.take_zero, List.append_nil] at hfirst
      · have hrest := h (k + 1) call hk
        rw [List.append_assoc]
        exact hrest

theorem stepsTraceable_iff {calls : List ExecutorCall} {before after : Session Database (Dict Uuid Loaded) World}
    (h : Called calls before after) :
    p.StepsTraceable before after ↔ p.CallsTraceable before.world.calls calls := by
  obtain ⟨hcalls, inserted, hnames⟩ := h
  have htake : ∀ k, after.world.calls.take (before.world.calls.length + k) =
      before.world.calls ++ calls.take k := fun k => by
    rw [hcalls, List.take_length_add_append]
  have hruns : (after.db.agentRuns.drop before.db.agentRuns.length).map AgentRun.agentName =
      calls.map ExecutorCall.agentName ++ inserted := by
    rw [List.map_drop, hnames, List.drop_left' (List.length_map _)]
  rw [callsTraceable_iff, StepsTraceable, hcalls, List.drop_left' rfl, ← hcalls]
  constructor
  · intro h k call hk run asked hasked
    obtain ⟨run₀, -, -, htraceable⟩ := h k call hk
    rw [htake] at htraceable
    exact traceable_of_mem (htraceable asked hasked) hasked run
  · intro h k call hk
    have hname : ((after.db.agentRuns.drop before.db.agentRuns.length).map AgentRun.agentName)[k]? =
        some call.agentName := by
      have hlt : k < calls.length := (List.getElem?_eq_some_iff.1 hk).1
      rw [hruns, List.getElem?_append_left (by simpa using hlt), List.getElem?_map, hk]
      rfl
    rw [List.getElem?_map] at hname
    obtain ⟨run, hrun, hagent⟩ := Option.map_eq_some_iff.1 hname
    refine ⟨run, hrun, hagent, fun asked hasked => ?_⟩
    rw [htake] at hasked
    exact h k call hk run asked hasked

end steps

/-! ### When a start reaches the router -/

/-- The step succeeds. -/
def Succeeds (earlier : List ExecutorCall) (agentName : String) (payload : JsonDict) : Prop :=
  (stepOutcome agentName (p.executor.runStep earlier agentName payload)).status = .succeeded

/-- The first step succeeds, the database accepts what precedes the second one, and that one asks the
router. -/
def ReachesModel (workflowType : WorkflowType) (payload : JsonDict) (earlier : List ExecutorCall)
    (F : Faults Exn) : Prop :=
  (∀ j < 4, F j = none) ∧
  match workflowType with
  | .documentIntelligence =>
    p.Succeeds earlier "document_agent" payload ∧
      p.Summarizes (earlier ++ [⟨"document_agent", payload⟩]) payload
  | .compliance =>
    p.Succeeds earlier "retrieval_agent" payload ∧
      p.Synthesizes (earlier ++ [⟨"retrieval_agent", payload⟩]) payload
  | _ => False

section reaches

variable {p} {payload : JsonDict} {earlier : List ExecutorCall} {F : Faults Exn} {step : PlanStep}

theorem callsTraceable_nil : p.CallsTraceable earlier [] := trivial

theorem loopCalls_of_fault {ex : AgentExecutor} {steps : List PlanStep} {e : Exn} (h : F 0 = some e) :
    loopCalls ex payload F earlier steps = [] := by
  cases steps with
  | nil => rfl
  | cons step steps => exact if_pos (by rw [h]; rfl)

theorem loopCalls_of_stop {ex : AgentExecutor} (steps : List PlanStep) (h0 : F 0 = none)
    (h : (F 1).isSome ∨ (stepOutcome step.agent (ex.runStep earlier step.agent payload)).status = .failed) :
    loopCalls ex payload F earlier (step :: steps) = [⟨step.agent, payload⟩] :=
  (if_neg (by rw [h0]; exact Bool.false_ne_true)).trans (if_pos h)

theorem loopCalls_of_go {ex : AgentExecutor} (steps : List PlanStep) (h0 : F 0 = none) (h1 : F 1 = none)
    (h : (stepOutcome step.agent (ex.runStep earlier step.agent payload)).status = .succeeded) :
    loopCalls ex payload F earlier (step :: steps) = ⟨step.agent, payload⟩ ::
      loopCalls ex payload (F.drop 2) (earlier ++ [⟨step.agent, payload⟩]) steps :=
  (if_neg (by rw [h0]; exact Bool.false_ne_true)).trans (if_neg (by rw [h1, h]; simp))

theorem callsTraceable_plain (steps : List PlanStep)
    (hplain : p.modelCall earlier ⟨step.agent, payload⟩ = none) :
    p.CallsTraceable earlier (loopCalls p.executor payload F earlier (step :: steps)) ↔
      (F 0 = none → F 1 = none → p.Succeeds earlier step.agent payload →
        p.CallsTraceable (earlier ++ [⟨step.agent, payload⟩])
          (loopCalls p.executor payload (F.drop 2) (earlier ++ [⟨step.agent, payload⟩]) steps)) := by
  have hquiet : ∀ run, ∀ asked ∈ p.modelCall earlier ⟨step.agent, payload⟩, Traceable run asked := by
    rw [hplain]
    exact fun _ _ h => absurd h (Option.not_mem_none _)
  cases h0 : F 0 with
  | some e =>
    rw [loopCalls_of_fault h0]
    exact iff_of_true callsTraceable_nil nofun
  | none =>
    cases h1 : F 1 with
    | some e =>
      rw [loopCalls_of_stop steps h0 (.inl (by rw [h1]; rfl))]
      exact iff_of_true ⟨hquiet, callsTraceable_nil⟩ nofun
    | none =>
      cases hstatus : (stepOutcome step.agent (p.executor.runStep earlier step.agent payload)).status with
      | failed =>
        rw [loopCalls_of_stop steps h0 (.inr hstatus)]
        refine iff_of_true ⟨hquiet, callsTraceable_nil⟩ fun _ _ hsucceeds => ?_
        rw [Succeeds, hstatus] at hsucceeds
        cases hsucceeds
      | succeeded =>
        rw [loopCalls_of_go steps h0 h1 hstatus]
        exact ⟨fun h _ _ _ => h.2, fun h => ⟨hquiet, h rfl rfl hstatus⟩⟩

theorem callsTraceable_last :
    p.CallsTraceable earlier (loopCalls p.executor payload F earlier [step]) ↔
      (F 0 = none → ∀ run, ∀ asked ∈ p.modelCall earlier ⟨step.agent, payload⟩, Traceable run asked) := by
  cases h0 : F 0 with
  | some e =>
    rw [loopCalls_of_fault h0]
    exact iff_of_true callsTraceable_nil nofun
  | none =>
    have hone : loopCalls p.executor payload F earlier [step] = [⟨step.agent, payload⟩] := by
      by_cases h : (F 1).isSome ∨
          (stepOutcome step.agent (p.executor.runStep earlier step.agent payload)).status = .failed
      · exact loopCalls_of_stop [] h0 h
      · exact (if_neg (by rw [h0]; exact Bool.false_ne_true)).trans (if_neg h)
    rw [hone]
    exact ⟨fun h _ => h.1, fun h => ⟨h rfl, callsTraceable_nil⟩⟩

theorem callsTraceable_of_plain {steps : List PlanStep} (hplain : ∀ step ∈ steps,
      step.agent ≠ "summarization_agent" ∧ step.agent ≠ "compliance_agent") :
    p.CallsTraceable earlier (loopCalls p.executor payload F earlier steps) := by
  induction steps generalizing earlier F with
  | nil => exact callsTraceable_nil
  | cons step steps ih =>
    obtain ⟨hs, hc⟩ := hplain step List.mem_cons_self
    refine (callsTraceable_plain steps (modelCall_of_plain hs hc)).2 fun _ _ _ => ?_
    exact ih fun step hstep => hplain step (List.mem_cons_of_mem _ hstep)

/-- A plan of two steps of which the second may ask the router, if `asks` says so. -/
theorem callsTraceable_pair {first second : PlanStep} {asks : Prop}
    (hs : first.agent ≠ "summarization_agent") (hc : first.agent ≠ "compliance_agent")
    (hasks : ∀ run, (∀ asked ∈ p.modelCall (earlier ++ [⟨first.agent, payload⟩]) ⟨second.agent, payload⟩,
      Traceable run asked) ↔ ¬ asks) :
    (F 0 = none → p.CallsTraceable earlier (loopCalls p.executor payload (F.drop 1) earlier [first, second])) ↔
      ¬ ((∀ j < 4, F j = none) ∧ p.Succeeds earlier first.agent payload ∧ asks) := by
  rw [callsTraceable_plain [second] (modelCall_of_plain hs hc), callsTraceable_last]
  simp only [hasks]
  constructor
  · rintro h ⟨hnone, hsucceeds, hask⟩
    exact h (hnone 0 (by decide)) (hnone 1 (by decide)) (hnone 2 (by decide)) hsucceeds
      (hnone 3 (by decide)) ⟨⟨0⟩, ⟨0⟩, "", .started, .empty, none, none, none, none, none⟩ hask
  · intro h h0 h1 h2 hsucceeds h3 run hask
    refine h ⟨fun j hj => ?_, hsucceeds, hask⟩
    match j, hj with
    | 0, _ => exact h0
    | 1, _ => exact h1
    | 2, _ => exact h2
    | 3, _ => exact h3

theorem callsTraceable_start {plan : WorkflowPlan} :
    p.CallsTraceable earlier (startCalls p.executor plan payload F earlier) ↔
      (F 0 = none → p.CallsTraceable earlier (loopCalls p.executor payload (F.drop 1) earlier plan.steps)) := by
  unfold startCalls
  cases h0 : F 0 with
  | some e => exact iff_of_true callsTraceable_nil nofun
  | none => exact ⟨fun h _ => h, fun h => h rfl⟩

theorem startCalls_traceable_iff (workflowType : WorkflowType) :
    p.CallsTraceable earlier (startCalls p.executor (planOf workflowType) payload F earlier) ↔
      ¬ p.ReachesModel workflowType payload earlier F := by
  rw [callsTraceable_start]
  cases workflowType with
  | documentIntelligence => exact callsTraceable_pair (by decide) (by decide) fun _ => traceable_summarization_iff _
  | compliance => exact callsTraceable_pair (by decide) (by decide) fun _ => traceable_compliance_iff _
  | kyc | fraudReview | auditEvidence | loan =>
    exact iff_of_true (fun _ => callsTraceable_of_plain (by decide)) fun h => h.2

end reaches

/-! ### Runs -/

/-- The session in which an operation ended, before its commit or rollback. -/
def ended (svc : WorkflowService) (s : Committed) (i : WorkflowOp × Faults Exn) :
    Session Database (Dict Uuid Loaded) World :=
  (i.1.body svc i.2 ⟨s.db, .empty, s.world⟩).2.2

/-- The model calls of an operation can be traced. -/
def OpTraceable (s : Committed) (i : WorkflowOp × Faults Exn) : Prop :=
  p.StepsTraceable ⟨s.db, .empty, s.world⟩ (ended p.service s i)

/-- The operation is a start that reaches the router. -/
def OpReachesModel (s : Committed) (i : WorkflowOp × Faults Exn) : Prop :=
  match i.1 with
  | .start workflowType inputPayload _ _ =>
    p.ReachesModel workflowType (inputPayload.set "workflow_id" (.str (Uuid.mk s.world.nextUuid).str))
      s.world.calls i.2
  | .decide .. => False

variable {p} in
theorem opTraceable_iff (s : Committed) (i : WorkflowOp × Faults Exn) :
    p.OpTraceable s i ↔ ¬ p.OpReachesModel s i := by
  obtain ⟨op, F⟩ := i
  cases op with
  | start workflowType inputPayload createdBy requestId =>
    exact (stepsTraceable_iff (start_called p.service createdBy requestId workflowType inputPayload
      (p.service_plan _) F ⟨s.db, .empty, s.world⟩)).trans (startCalls_traceable_iff workflowType)
  | decide verdict workflowId decidedBy reason requestId =>
    have hcalled : Called [] ⟨s.db, .empty, s.world⟩
        (ended p.service s (.decide verdict workflowId decidedBy reason requestId, F)) := by
      cases verdict <;> exact .of_leaves (leaves_decide p.service _ _ F _)
    exact iff_of_true ((stepsTraceable_iff hcalled).2 callsTraceable_nil) id

/-- Over any run of the service, every model call can be traced from its agent run exactly when no
start reaches the router. -/
theorem model_calls_traceable_iff (is : List (WorkflowOp × Faults Exn)) :
    (∀ t ∈ (workflowMachine p.service).trace .empty is, p.OpTraceable t.pre t.input) ↔
      ∀ t ∈ (workflowMachine p.service).trace .empty is, ¬ p.OpReachesModel t.pre t.input :=
  forall₂_congr fun t _ => opTraceable_iff t.pre t.input

end Platform

/-! ### A summary by the echo provider -/

def echoRouter : InjectedRouter Unit where
  router :=
    { providers := [⟨"echo", "echo-1", .ok true, fun _ => .ok ⟨"hello", "echo", "echo-1", false, none, 1, 1, 0⟩⟩]
      policy := "prefer_online"
      nonempty := List.cons_ne_nil _ _ }
  observer := { record _ s := (.ok (), s) }
  state := ()

def echoPlatform : Platform Unit Unit Unit where
  pydantic := { int? | .int n => some n | _ => none, refusal _ _ := "" }
  router := some fun _ => echoRouter
  retriever := none
  documentAgent _ _ := .ok (.ok ⟨.empty⟩)
  kycAgent _ _ := .ok (.ok ⟨.empty⟩)
  fraudAgent _ := .ok (.ok ⟨.empty⟩)
  loanAgent _ := .ok (.ok ⟨.empty⟩)
  auditAgent _ := .ok (.ok ⟨.empty⟩)
  latencyMs _ := 0

/-- A document workflow with a text, on an empty database. -/
def summaryStart : WorkflowOp × Faults Exn :=
  (.start .documentIntelligence (Dict.empty.set "text" (.str "hello")) none none, .none)

/-- The record of its model call names no agent run. -/
theorem summary_untraceable :
    ¬ ∀ t ∈ (workflowMachine echoPlatform.service).trace .empty [summaryStart],
      echoPlatform.OpTraceable t.pre t.input := by
  intro h
  have hop := (Platform.opTraceable_iff _ _).1 (h _ List.mem_cons_self)
  refine hop ⟨fun _ _ => rfl, rfl, ⟨"hello", 5, by decide⟩, _, rfl, rfl, ?_⟩
  rintro ⟨provider, hprovider, -, ⟨e, he, -⟩ | ⟨raw, hraw, hcounts⟩⟩
  · cases hprovider
    cases he
  · cases hprovider
    cases hraw
    exact hcounts (by decide +kernel)

end BankingAi
