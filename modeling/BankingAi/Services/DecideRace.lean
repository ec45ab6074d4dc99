import BankingAi.Services.WorkflowInvariants

/-!
# Concurrent decisions on one workflow

Any number of requests decide one workflow, their steps interleaved in any order: a request reads
the committed workflow row, then its approvals (two statements, each of which sees what is committed
by then), checks the status it read, and later commits the columns it changed. Nothing ties the
writes to the rows they were computed from, so a commit reaches the tables as they are by then.
-/

namespace BankingAi

open Review

structure DecideRequest where
  verdict : Verdict
  decidedBy : Uuid
  reason : Option String
  requestId : Option String

def DecideRequest.args (q : DecideRequest) : DecideArgs :=
  .ofVerdict q.verdict q.decidedBy q.reason q.requestId

/-- How far a request has come: what it has read, or that it has returned or raised. -/
inductive Phase where
  | waiting
  | loadedWorkflow (w : Workflow)
  | loaded (view : WorkflowView)
  | finished

structure Race where
  db : Database
  nextUuid : ℕ
  phase : ℕ → Phase

/-- The committed state when no request has begun. -/
def Race.start (s : Committed) : Race := ⟨s.db, s.world.nextUuid, fun _ => .waiting⟩

def Race.setPhase (s : Race) (r : ℕ) (p : Phase) : Race := { s with phase := Function.update s.phase r p }

inductive RaceStep where
  | readWorkflow (r : ℕ)
  | readApprovals (r : ℕ)
  | commit (r : ℕ)

section machine

variable (svc : WorkflowService) (workflowId : Uuid) (req : ℕ → DecideRequest)

/-- The tables and the phases after request `r` commits what it computed from `view`. -/
def Race.afterCommit (s : Race) (r : ℕ) (view : WorkflowView) : Race where
  db := commitDecision svc workflowId view (req r).args s.nextUuid s.db
  nextUuid := s.nextUuid + 1 + (svc.logged (decideEntry workflowId (req r).args) (s.nextUuid + 1)).length
  phase := Function.update s.phase r .finished

/-- The steps of the requests; the output of a step is what it commits. -/
def raceMachine : Machine Race RaceStep (Option DecideWrites) where
  step s
    | .readWorkflow r =>
      match s.phase r, s.db.workflow? workflowId with
      | .waiting, some w => (none, s.setPhase r (.loadedWorkflow w))
      | .waiting, none => (none, s.setPhase r .finished)
      | _, _ => (none, s)
    | .readApprovals r =>
      match s.phase r with
      | .loadedWorkflow w =>
        if w.status ∈ decidable then
          (none, s.setPhase r
            (.loaded ⟨w, s.db.agentRunsOf workflowId, s.db.approvalsOf workflowId⟩))
        else (none, s.setPhase r .finished)
      | _ => (none, s)
    | .commit r =>
      match s.phase r with
      | .loaded view =>
        (some (decideWrites view (req r).args), s.afterCommit svc workflowId req r view)
      | _ => (none, s)

end machine

/-! ### What a step can do -/

/-- How a step that does not commit may change the phase of a request. -/
inductive PhaseStep (workflowId : Uuid) (s : Race) : Phase → Phase → Prop
  | same (p : Phase) : PhaseStep workflowId s p p
  | finish (p : Phase) : PhaseStep workflowId s p .finished
  | readWorkflow (p : Phase) {w : Workflow} (h : s.db.workflow? workflowId = some w) :
    PhaseStep workflowId s p (.loadedWorkflow w)
  | readApprovals {w : Workflow} (h : w.status ∈ decidable) :
    PhaseStep workflowId s (.loadedWorkflow w)
      (.loaded ⟨w, s.db.agentRunsOf workflowId, s.db.approvalsOf workflowId⟩)

section step

variable {svc : WorkflowService} {workflowId : Uuid} {req : ℕ → DecideRequest}

theorem phaseStep_setPhase {s : Race} {r : ℕ} {p : Phase} (h : PhaseStep workflowId s (s.phase r) p)
    (q : ℕ) : PhaseStep workflowId s (s.phase q) ((s.setPhase r p).phase q) := by
  unfold Race.setPhase Function.update
  dsimp only
  split
  case isTrue hq => subst hq; exact h
  case isFalse => exact .same _

theorem step_commit {s : Race} {r : ℕ} {view : WorkflowView} (h : s.phase r = .loaded view) :
    (raceMachine svc workflowId req).step s (.commit r) =
      (some (decideWrites view (req r).args), s.afterCommit svc workflowId req r view) := by
  simp only [raceMachine, h]

/-- A step either commits what a request computed, or changes phases only. -/
theorem race_step (s : Race) (i : RaceStep) :
    (∃ r view, i = .commit r ∧ s.phase r = .loaded view ∧
      (raceMachine svc workflowId req).step s i =
        (some (decideWrites view (req r).args), s.afterCommit svc workflowId req r view)) ∨
    ∃ s', (raceMachine svc workflowId req).step s i = (none, s') ∧ s'.db = s.db ∧
      s'.nextUuid = s.nextUuid ∧ ∀ q, PhaseStep workflowId s (s.phase q) (s'.phase q) := by
  have hsame : ∀ q, PhaseStep workflowId s (s.phase q) (s.phase q) := fun q => .same _
  cases i with
  | readWorkflow r =>
    right
    simp only [raceMachine]
    split
    · exact ⟨_, rfl, rfl, rfl, phaseStep_setPhase (.readWorkflow _ ‹_›)⟩
    · exact ⟨_, rfl, rfl, rfl, phaseStep_setPhase (.finish _)⟩
    · exact ⟨_, rfl, rfl, rfl, hsame⟩
  | readApprovals r =>
    right
    simp only [raceMachine]
    split
    · rename_i w hw
      split
      · refine ⟨_, rfl, rfl, rfl, phaseStep_setPhase ?_⟩
        rw [hw]
        exact .readApprovals ‹_›
      · exact ⟨_, rfl, rfl, rfl, phaseStep_setPhase (.finish _)⟩
    · exact ⟨_, rfl, rfl, rfl, hsame⟩
  | commit r =>
    simp only [raceMachine]
    split
    · rename_i view hview
      exact .inl ⟨r, view, rfl, hview, rfl⟩
    · exact .inr ⟨_, rfl, rfl, rfl, hsame⟩

end step

/-! ### What a commit does -/

section commit

variable {svc : WorkflowService} {workflowId : Uuid} {req : ℕ → DecideRequest} {s : Race} {r : ℕ}
  {view : WorkflowView}

theorem DecideRequest.decision_ne_pending (q : DecideRequest) : q.args.decision ≠ .pending := by
  obtain ⟨verdict, _, _, _⟩ := q
  cases verdict <;> simp [args, DecideArgs.ofVerdict, DecideArgs.approve, DecideArgs.reject,
    DecideArgs.escalate]

theorem workflow?_afterCommit :
    (s.afterCommit svc workflowId req r view).db.workflow? workflowId =
      (s.db.workflow? workflowId).map fun w =>
        { w with status := (changed view.workflow.status (req r).args.finalStatus).getD w.status } := by
  unfold Race.afterCommit commitDecision Database.workflow?
  dsimp only
  rw [workflows_apply]
  show (writeStatus _ (changed view.workflow.status _) s.db).workflow? workflowId = _
  cases changed view.workflow.status (req r).args.finalStatus with
  | none =>
    show s.db.workflow? workflowId = (s.db.workflow? workflowId).map id
    rw [Option.map_id, id]
  | some status =>
    rw [writeStatus, Database.workflow?_setWorkflow, if_pos rfl]
    · rfl
    · exact fun _ => rfl

/-- A row that is pending after a commit was pending before, and is not the one decided. -/
theorem pending_of_afterCommit {a : Approval}
    (h : a ∈ (s.afterCommit svc workflowId req r view).db.approvals) (hp : a.decision = .pending) :
    a ∈ s.db.approvals ∧ ∀ p, view.approvals.find? (·.decision = .pending) = some p → a.id ≠ p.id := by
  rcases mem_approvals_apply h with h | ⟨p, hfind, b, -, -, rfl⟩ | ⟨-, rfl⟩
  · exact h
  · have hpp : p.decision = .pending := by simpa using List.find?_some hfind
    have hch : (approvalChanges p (req r).args).decision = some (req r).args.decision := by
      unfold approvalChanges changed
      rw [hpp, if_neg (Ne.symm (req r).decision_ne_pending)]
    rw [ApprovalChanges.apply, hch, Option.getD_some] at hp
    exact absurd hp (req r).decision_ne_pending
  · exact absurd hp (req r).decision_ne_pending

theorem afterCommit_phase {q : ℕ} {p : Phase}
    (h : (s.afterCommit svc workflowId req r view).phase q = p) : s.phase q = p ∨ .finished = p := by
  unfold Race.afterCommit at h
  dsimp only at h
  rw [Function.update_apply] at h
  split at h
  · exact .inr h
  · exact .inl h

variable (svc workflowId req s r) in
theorem ids_afterCommit (view : WorkflowView) :
    (s.afterCommit svc workflowId req r view).db.approvals.map Approval.id =
        s.db.approvals.map Approval.id ∨
      (s.afterCommit svc workflowId req r view).db.approvals.map Approval.id =
        s.db.approvals.map Approval.id ++ [⟨s.nextUuid⟩] :=
  ids_approvals_apply s.db view (req r).args workflowId ⟨s.nextUuid⟩

end commit

/-! ### What holds in every interleaving -/

/-- The rows a request has read, against the committed ones: its pending row still has its id, and
is as it was read for as long as it is pending. -/
structure ViewOk (workflowId : Uuid) (s : Race) (view : WorkflowView) : Prop where
  id : view.workflow.id = workflowId
  decidable : view.workflow.status ∈ decidable
  found : (s.db.workflow? workflowId).isSome
  rows : ∀ p ∈ view.approvals, p.workflowId = workflowId
  persists : ∀ p ∈ view.approvals, p.id ∈ s.db.approvals.map Approval.id
  unchanged : ∀ p ∈ view.approvals, p.decision = .pending →
    ∀ a ∈ s.db.approvals, a.id = p.id → a.decision = .pending → a = p
  complete : ∀ a ∈ s.db.approvals, a.workflowId = workflowId → a.decision = .pending →
    a ∈ view.approvals

structure RaceInv (workflowId : Uuid) (s : Race) : Prop where
  drawn : ∀ a ∈ s.db.approvals, a.id.draw < s.nextUuid
  ids : (s.db.approvals.map Approval.id).Nodup
  unique : ∀ a ∈ s.db.approvals, ∀ b ∈ s.db.approvals, a.workflowId = workflowId →
    b.workflowId = workflowId → a.decision = .pending → b.decision = .pending → a = b
  loadedWorkflow : ∀ r w, s.phase r = .loadedWorkflow w →
    w.id = workflowId ∧ (s.db.workflow? workflowId).isSome
  loaded : ∀ r view, s.phase r = .loaded view → ViewOk workflowId s view

section inv

variable {svc : WorkflowService} {workflowId : Uuid} {req : ℕ → DecideRequest} {s s' : Race}

theorem ViewOk.congr {view : WorkflowView} (h : ViewOk workflowId s view) (hdb : s'.db = s.db) :
    ViewOk workflowId s' view := by
  obtain ⟨h1, h2, h3, h4, h5, h6, h7⟩ := h
  exact ⟨h1, h2, hdb ▸ h3, h4, hdb ▸ h5, hdb ▸ h6, hdb ▸ h7⟩

theorem RaceInv.viewOk_read (h : RaceInv workflowId s) {w : Workflow} (hw : w.id = workflowId)
    (hfound : (s.db.workflow? workflowId).isSome) (hst : w.status ∈ decidable) :
    ViewOk workflowId s ⟨w, s.db.agentRunsOf workflowId, s.db.approvalsOf workflowId⟩ where
  id := hw
  decidable := hst
  found := hfound
  rows _ hp := of_decide_eq_true (List.mem_filter.1 hp).2
  persists _ hp := List.mem_map_of_mem (List.mem_filter.1 hp).1
  unchanged _ hp _ _ ha hid _ := List.inj_on_of_nodup_map h.ids ha (List.mem_filter.1 hp).1 hid
  complete _ ha hwid _ := List.mem_filter.2 ⟨ha, decide_eq_true hwid⟩

theorem RaceInv.read (h : RaceInv workflowId s) (hdb : s'.db = s.db) (hn : s'.nextUuid = s.nextUuid)
    (hphase : ∀ q, PhaseStep workflowId s (s.phase q) (s'.phase q)) : RaceInv workflowId s' where
  drawn := by rw [hdb, hn]; exact h.drawn
  ids := by rw [hdb]; exact h.ids
  unique := by rw [hdb]; exact h.unique
  loadedWorkflow r w hr := by
    rw [hdb]
    have hstep := hphase r
    rw [hr] at hstep
    generalize hp : s.phase r = p at hstep
    cases hstep with
    | same => exact h.loadedWorkflow r w hp
    | readWorkflow _ hw => exact ⟨(Table.lookup_eq_some hw).2, by rw [hw]; rfl⟩
  loaded r view hr := by
    refine ViewOk.congr ?_ hdb
    have hstep := hphase r
    rw [hr] at hstep
    generalize hp : s.phase r = p at hstep
    cases hstep with
    | same => exact h.loaded r view hp
    | readApprovals hst => exact h.viewOk_read (h.loadedWorkflow r _ hp).1 (h.loadedWorkflow r _ hp).2 hst

theorem RaceInv.commit (h : RaceInv workflowId s) (r : ℕ) (view : WorkflowView) :
    RaceInv workflowId (s.afterCommit svc workflowId req r view) := by
  have hfound : (s.db.workflow? workflowId).isSome →
      ((s.afterCommit svc workflowId req r view).db.workflow? workflowId).isSome := fun hf => by
    rw [workflow?_afterCommit, Option.isSome_map]
    exact hf
  have hfresh : (⟨s.nextUuid⟩ : Uuid) ∉ s.db.approvals.map Approval.id := fun hmem => by
    obtain ⟨a, ha, hid⟩ := List.mem_map.1 hmem
    have := h.drawn a ha
    rw [hid] at this
    exact lt_irrefl _ this
  have hids : ∀ id ∈ s.db.approvals.map Approval.id,
      id ∈ (s.afterCommit svc workflowId req r view).db.approvals.map Approval.id := fun id hid => by
    rcases ids_afterCommit svc workflowId req s r view with heq | heq
    · rw [heq]; exact hid
    · rw [heq]; exact List.mem_append_left _ hid
  have hview : ∀ view', ViewOk workflowId s view' →
      ViewOk workflowId (s.afterCommit svc workflowId req r view) view' := fun view' hv =>
    { id := hv.id
      decidable := hv.decidable
      found := hfound hv.found
      rows := hv.rows
      persists := fun p hp => hids _ (hv.persists p hp)
      unchanged := fun p hp hpp a ha hid hap =>
        hv.unchanged p hp hpp a (pending_of_afterCommit ha hap).1 hid hap
      complete := fun a ha hwid hap => hv.complete a (pending_of_afterCommit ha hap).1 hwid hap }
  exact
    { drawn := fun a ha => by
        have hlt : s.nextUuid < (s.afterCommit svc workflowId req r view).nextUuid := by
          unfold Race.afterCommit
          dsimp only
          omega
        rcases mem_approvals_apply ha with ⟨ha, -⟩ | ⟨p, -, b, hb, -, rfl⟩ | ⟨-, rfl⟩
        · exact (h.drawn a ha).trans hlt
        · exact (h.drawn b hb).trans hlt
        · exact hlt
      ids := by
        rcases ids_afterCommit svc workflowId req s r view with heq | heq
        · rw [heq]; exact h.ids
        · rw [heq]
          exact List.nodup_append.2 ⟨h.ids, List.nodup_singleton _, fun a ha b hb hab =>
            hfresh (List.mem_singleton.1 hb ▸ hab ▸ ha)⟩
      unique := fun a ha b hb hwa hwb hpa hpb =>
        h.unique a (pending_of_afterCommit ha hpa).1 b (pending_of_afterCommit hb hpb).1 hwa hwb hpa hpb
      loadedWorkflow := fun q w hq => by
        rcases afterCommit_phase hq with hq | hq
        · exact (h.loadedWorkflow q w hq).imp_right hfound
        · cases hq
      loaded := fun q view' hq => by
        rcases afterCommit_phase hq with hq | hq
        · exact hview view' (h.loaded q view' hq)
        · cases hq }

theorem raceInv_next (h : RaceInv workflowId s) (i : RaceStep) :
    RaceInv workflowId ((raceMachine svc workflowId req).next s i) := by
  unfold Machine.next
  rcases race_step s i with ⟨r, view, -, -, heq⟩ | ⟨s', heq, hdb, hn, hphase⟩
  · rw [heq]; exact h.commit r view
  · rw [heq]; exact h.read hdb hn hphase

theorem raceInv_start {s : Committed} (h : Consistent svc s) : RaceInv workflowId (Race.start s) where
  drawn a ha := (h.drawn.approvals a ha).1
  ids := h.approvalIds
  unique a ha b hb hwa hwb hpa hpb := by
    obtain ⟨w, hw⟩ := Option.isSome_iff_exists.1 (h.owned a ha)
    obtain ⟨c, hc⟩ := h.represents _ w hw
    have hid : w.id = workflowId := (Table.lookup_eq_some hw).2.trans hwa
    have hrows := hc.committedRows
    have ha' : a ∈ s.db.approvalsOf w.id := List.mem_filter.2 ⟨ha, by simp [hwa, hid]⟩
    have hb' : b ∈ s.db.approvalsOf w.id := List.mem_filter.2 ⟨hb, by simp [hwb, hid]⟩
    obtain ⟨x, hx, -⟩ := hrows.pending (hrows.pending_iff.1 ⟨a, ha', hpa⟩)
    rw [hx, List.mem_singleton] at ha' hb'
    rw [ha', hb']
  loadedWorkflow r w hr := by cases hr
  loaded r view hr := by cases hr

end inv
end BankingAi
