import BankingAi.Api.Integrity

/-!
# Workflows and their agent runs

The row of a workflow tells what its agent runs tell: in every state that a run of the API leads to,
the runs follow the plan of the workflow on its own payload, its status, error and result are those
of the runs, and later decisions leave them so.
-/

namespace BankingAi

open Posix Review SessionM

variable {V S T σ : Type}

/-- The last output of an agent among the runs. -/
def lastOutputOf (runs : List AgentRun) (agent : String) : Option Json :=
  runs.reverse.findSome? fun r => if r.agentName = agent then r.output else none

/-- The agent runs that explain the row of a workflow. -/
structure Workflow.ExplainedBy (w : Workflow) (runs : List AgentRun) : Prop where
  column : w.requiresHumanApproval = (planOf w.workflowType).requiresHumanApproval
  input : ∀ r ∈ runs, r.input = w.inputPayload.set "workflow_id" (.str w.id.str)
  plan : runs.map AgentRun.agentName <+: (planOf w.workflowType).steps.map PlanStep.agent
  finished : ∀ r ∈ runs, r.status ≠ .started
  succeeded : ∀ r ∈ runs.dropLast, r.status = .succeeded
  failed_iff : w.status = .failed ↔ ∃ r ∈ runs, r.status = .failed
  complete : w.status ≠ .failed → runs.map AgentRun.agentName = (planOf w.workflowType).steps.map PlanStep.agent
  error : w.error = (runs.find? (·.status = .failed)).bind AgentRun.error
  result : ∃ results, w.result = some results ∧ ∀ agent, results.get? agent = lastOutputOf runs agent

section start

variable {p : Platform V T σ} {s : LibraryState V}

theorem AgentRun.Records.failed_iff {r : AgentRun} {payload : JsonDict} {e : Executed} (h : r.Records payload e) :
    r.status = .failed ↔ e.failed = true := by
  rw [h.status, Executed.failed_eq_true]
  cases e.outcome.status <;> simp

theorem lastOutputOf_eq {runs : List AgentRun} {payload : JsonDict} {es : List Executed}
    (h : List.Forall₂ (AgentRun.Records · payload ·) runs es) (agent : String) :
    lastOutputOf runs agent = lastOutput es agent := by
  have hmap : runs.map (fun r => if r.agentName = agent then r.output else none) =
      es.map (fun e => if e.step.agent = agent then e.outcome.output.map AgentOutput.modelDump else none) :=
    Table.map_eq_of_forall₂ (fun r e h => by rw [h.agentName, h.output]) h
  have hids := congrArg (fun l => l.reverse.findSome? id) hmap
  rw [← List.map_reverse, ← List.map_reverse, List.findSome?_map, List.findSome?_map] at hids
  exact hids

theorem find?_failed_error {runs : List AgentRun} {payload : JsonDict} {es : List Executed}
    (h : List.Forall₂ (AgentRun.Records · payload ·) runs es) :
    (runs.find? (·.status = .failed)).bind AgentRun.error = (es.find? Executed.failed).bind (·.outcome.error) := by
  induction h with
  | nil => rfl
  | @cons r e runs es h _ ih =>
    rw [List.find?_cons, List.find?_cons]
    by_cases hf : e.failed = true
    · simp [hf, h.failed_iff.2 hf, h.error]
    · have hr : r.status ≠ .failed := fun hr => hf (h.failed_iff.1 hr)
      simp only [hf, hr, decide_false]
      exact ih

theorem startedRow_explained (payload : WorkflowStartRequest) (user : Uuid) :
    (startedRow p s payload user).ExplainedBy (agentRunRows ⟨s.world.nextUuid⟩
      (payload.inputPayload.set "workflow_id" (.str (Uuid.mk s.world.nextUuid).str)) (s.world.nextUuid + 1)
      (startedSteps p s payload)) := by
  have hrecords := agentRunRows_records ⟨s.world.nextUuid⟩
    (payload.inputPayload.set "workflow_id" (.str (Uuid.mk s.world.nextUuid).str)) (s.world.nextUuid + 1)
    (startedSteps p s payload)
  have hnames := (Table.map_eq_of_forall₂ (fun (r : AgentRun) (e : Executed) h => h.agentName) hrecords).trans
    (List.map_map (f := Executed.step) (g := PlanStep.agent)).symm
  have hlast : ∀ e ∈ (startedSteps p s payload).dropLast, e.failed = false := executedSteps_dropLast
  have hsteps : (startedSteps p s payload).map Executed.step <+: (planOf payload.workflowType).steps :=
    executedSteps_prefix
  have hfailed : (startedRow p s payload user).status = .failed ↔ ∃ e ∈ startedSteps p s payload, e.failed = true :=
    startStatus_eq_failed
  exact
    { column := rfl
      input := fun r hr => (Table.exists_of_forall₂ hrecords hr).elim fun e h => h.2.input
      plan := by
        rw [hnames]
        exact hsteps.map _
      finished := fun r hr => let ⟨_, _, h⟩ := Table.exists_of_forall₂ hrecords hr; h.finished
      succeeded := fun r hr => by
        rw [List.dropLast_eq_take, hrecords.length_eq] at hr
        obtain ⟨e, he, h⟩ := Table.exists_of_forall₂ (List.forall₂_take _ hrecords) hr
        exact h.succeeded (hlast e (by rwa [List.dropLast_eq_take]))
      failed_iff := by
        rw [hfailed]
        constructor
        · rintro ⟨e, he, hf⟩
          obtain ⟨r, hr, h⟩ := Table.exists_of_forall₂ hrecords.flip he
          exact ⟨r, hr, h.failed_iff.2 hf⟩
        · rintro ⟨r, hr, hf⟩
          obtain ⟨e, he, h⟩ := Table.exists_of_forall₂ hrecords hr
          exact ⟨e, he, h.failed_iff.1 hf⟩
      complete := fun hne => by
        have hall : ∀ e ∈ startedSteps p s payload, e.failed = false := fun e he => by
          by_contra hf
          exact hne (hfailed.2 ⟨e, he, by simpa using hf⟩)
        rw [hnames]
        exact congrArg _ (executedSteps_complete hall)
      error := (find?_failed_error hrecords).symm
      result := ⟨_, rfl, fun agent => by
        rw [get?_foldl_addResult, Dict.get?_empty, Option.or_none, lastOutputOf_eq hrecords]⟩ }

end start

/-! ### Runs -/

/-- Every workflow is explained by its runs. -/
def Database.Explained (db : Database) : Prop := ∀ w ∈ db.workflows, w.ExplainedBy (db.agentRunsOf w.id)

section step

variable {p : Platform V T σ} {svc : DocumentService V S} {s s' : LibraryState V} {req : HttpRequest} {user : Uuid}
  {result : WorkflowView ⊕ Document}

/-- A decision changes the status, and neither from nor to a failure. -/
theorem Workflow.ExplainedBy.decided {w : Workflow} {runs : List AgentRun} (h : w.ExplainedBy runs)
    (hst : w.status ∈ decidable) (verdict : Verdict) :
    ({ w with status := verdict.state.status } : Workflow).ExplainedBy runs := by
  have hbefore : w.status ≠ .failed := by
    intro heq
    rw [heq] at hst
    exact absurd hst (by decide)
  have hafter : verdict.state.status ≠ .failed := by cases verdict <;> simp [Verdict.state, CaseState.status]
  exact
    { h with
      failed_iff := iff_of_false hafter fun hr => hbefore (h.failed_iff.2 hr)
      complete := fun _ => h.complete hbefore }

theorem HttpRequest.Commits.explained (hsound : s.Sound p svc) (h : s.db.Explained)
    (hcommits : req.Commits p svc s user result s') : s'.db.Explained := by
  have hdb : s.db.DrawnBefore s.world.nextUuid := hsound.consistent.drawn
  cases hcommits with
  | @start claims payload n' calls' hop hn hdrawn =>
    intro w hw
    show w.ExplainedBy ((startedDb p s payload user (some req.requestId)).agentRunsOf w.id)
    rcases List.mem_append.1 hw with hw | hw
    · have hne : w.id ≠ ⟨s.world.nextUuid⟩ := fun heq => by
        have hlt := hdb.workflows w hw
        rw [heq] at hlt
        exact lt_irrefl _ hlt
      rw [startedDb, agentRunsOf_startDb_of_ne hne]
      exact h w hw
    · obtain rfl : w = startedRow p s payload user := List.mem_singleton.1 hw
      rw [show (startedRow p s payload user).id = ⟨s.world.nextUuid⟩ from rfl, startedDb,
        agentRunsOf_startDb _ _ _ _ _ hdb]
      exact startedRow_explained payload user
  | @decide claims verdict payload w args n' hop hargs hw hst hn =>
    intro w' hw'
    have hids : ((decideDb p.service w args s.world.nextUuid s.db.toDatabase).workflows.map Workflow.id).Nodup := by
      show (List.map Workflow.id (DecideWrites.apply _ _ _ _).workflows).Nodup
      rw [workflows_apply, ids_writeStatus]
      exact hsound.consistent.workflowIds
    have hlookup := Table.lookup_of_mem hids hw'
    change (decideDb p.service w args s.world.nextUuid s.db.toDatabase).workflow? w'.id = some w' at hlookup
    rw [workflow?_decideDb _ _ _ hw] at hlookup
    show w'.ExplainedBy ((decideDb ..).agentRunsOf w'.id)
    rw [agentRunsOf_decideDb]
    by_cases hid : w'.id = w.id
    · rw [if_pos hid] at hlookup
      rw [← Option.some.inj hlookup, hargs, ofVerdict_finalStatus]
      exact (h w (Table.lookup_eq_some hw).1).decided hst verdict
    · rw [if_neg hid] at hlookup
      exact h w' (Table.lookup_eq_some hlookup).1
  | upload hop hid => exact h

end step

/-- After any run of the API every workflow is explained by its agent runs. -/
theorem workflows_explained (p : Platform V S σ) (svc : DocumentService V S) (files : FileSystem)
    (is : List (HttpRequest × Faults Exn)) : ((requestMachine p svc).run (.start files) is).db.Explained := by
  refine (Machine.run_invariant (I := fun s : LibraryState V => s.Sound p svc ∧ s.db.Explained) (fun s i h => ?_)
    ⟨LibraryState.Sound.start_files p svc files, fun w hw => absurd hw List.not_mem_nil⟩ is).2
  refine ⟨h.1.step i, ?_⟩
  rcases HttpRequest.step_cases (p.over svc s.world.vectors) svc h.1.consistent.drawn i with
    ⟨e, -, hdb⟩ | ⟨user, result, -, -, hcommits⟩
  · rw [show ((requestMachine p svc).next s i).db = s.db from hdb]
    exact h.2
  · exact hcommits.explained (h.1.platform _) h.2

end BankingAi
