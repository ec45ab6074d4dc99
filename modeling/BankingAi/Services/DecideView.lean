import BankingAi.Services.WorkflowInvariants

/-!
# What a decision returns

The session of a decision loads the approvals of the workflow before it decides, and shows those
members again at the end. A decision on a pending row is in the loaded collection; one that inserts
a row is not.
-/

namespace BankingAi

open Review

/-- What a decision returned is what a fresh session shows, and it has the decision. -/
structure DecisionShown (d : Decision Uuid) (workflowId : Uuid) (view : WorkflowView) (s : Committed) :
    Prop where
  fresh : ∃ view' world', SessionM.transact .empty (WorkflowService.get workflowId) .none s.db s.world =
      (.ok view', s.db, world') ∧
    view.workflow.status = view'.workflow.status ∧ view.approvals = view'.approvals
  made : ∃ a ∈ view.approvals, a.Shows d

section view

variable {svc : WorkflowService} {db : Database} {w : Workflow} {args : DecideArgs} {n : ℕ}

theorem get_fresh (hw : db.workflow? w.id = some w) (world : World) :
    SessionM.transact .empty (WorkflowService.get w.id) .none db world =
      (.ok ⟨w, db.agentRunsOf w.id, db.approvalsOf w.id⟩, db, world) :=
  SessionM.transact_of_ok (WorkflowService.reload_run hw rfl)

theorem approvals_decideView (hids : ((decideDb svc w args n db).approvals.map Approval.id).Nodup)
    {rows : List Approval} (hrows : ∀ a ∈ rows, a ∈ (decideDb svc w args n db).approvalsOf w.id)
    (hmap : rows.map Approval.id = (db.approvalsOf w.id).map Approval.id) :
    (decideView svc w args n db).approvals = rows := by
  show List.filterMap _ ((db.approvalsOf w.id).map Approval.id) = rows
  rw [← hmap]
  exact Table.filterMap_lookup hids fun a ha => List.mem_of_mem_filter (hrows a ha)

variable {c : Case Uuid} {verdict : Verdict} {decidedBy : Uuid} {reason requestId : Option String}

theorem approvals_decideView_pending (h : Represents svc db w c)
    (hids : (db.approvals.map Approval.id).Nodup)
    (hids' : ((decideDb svc w args n db).approvals.map Approval.id).Nodup) (hc : c.state = .awaiting) :
    (decideView svc w args n db).approvals = (decideDb svc w args n db).approvalsOf w.id := by
  obtain ⟨a, ha, hp, -⟩ := h.pending hc
  refine approvals_decideView hids' (fun _ => id) ?_
  rw [approvalsOf_decideDb hids, if_pos rfl, ha, decidedApprovals_pending hp]
  rfl

theorem approvals_decideView_decided (h : Represents svc db w c)
    (hids : (db.approvals.map Approval.id).Nodup)
    (hids' : ((decideDb svc w args n db).approvals.map Approval.id).Nodup) (hc : c.state ≠ .awaiting) :
    (decideView svc w args n db).approvals = db.approvalsOf w.id ∧
      (decideDb svc w args n db).approvalsOf w.id =
        db.approvalsOf w.id ++ [newApproval w.id args ⟨n⟩] := by
  have hrows : (decideDb svc w args n db).approvalsOf w.id =
      db.approvalsOf w.id ++ [newApproval w.id args ⟨n⟩] := by
    rw [approvalsOf_decideDb hids, if_pos rfl, decidedApprovals_of_none fun a ha => by
      obtain ⟨d, -, hd⟩ := Table.exists_of_forall₂ (h.decided hc) ha
      exact hd.ne_pending]
  refine ⟨approvals_decideView hids' (fun a ha => ?_) rfl, hrows⟩
  rw [hrows]
  exact List.mem_append_left _ ha

/-- A decision on a workflow in an open case is shown if and only if it was awaiting approval. -/
theorem decisionShown_iff {s : Committed} (h : Consistent svc s) (hw : s.db.workflow? w.id = some w)
    (hst : w.status ∈ decidable) {n' : ℕ} (hn : s.world.nextUuid + 1 + svc.auditDraws ≤ n') (calls : List ExecutorCall) :
    let args := DecideArgs.ofVerdict verdict decidedBy reason requestId
    DecisionShown ⟨verdict, decidedBy, reason⟩ w.id (decideView svc w args s.world.nextUuid s.db)
        ⟨decideDb svc w args s.world.nextUuid s.db, n', calls⟩ ↔
      w.status = .awaitingApproval := by
  intro args
  obtain ⟨c, hc⟩ := h.represents w.id w hw
  have hopen : c.Open := status_decidable.1 (hc.status ▸ hst)
  have hids' := (@consistent_decide _ s h w n' calls hw hst hn verdict decidedBy reason requestId).approvalIds
  have hw' : (decideDb svc w args s.world.nextUuid s.db).workflow? w.id =
      some { w with status := args.finalStatus } := by
    rw [workflow?_decideDb svc args _ hw, if_pos rfl]
  have hget := get_fresh (w := { w with status := args.finalStatus }) hw' ⟨n', calls⟩
  rcases Case.open_iff.1 hopen with hstate | hstate
  · have happrovals := approvals_decideView_pending hc h.approvalIds hids' hstate
    refine iff_of_true ⟨⟨_, _, hget, rfl, happrovals⟩, ?_⟩ (by rw [hc.status, hstate]; rfl)
    obtain ⟨a, ha, hp, -⟩ := hc.pending hstate
    rw [happrovals, approvalsOf_decideDb h.approvalIds, if_pos rfl, ha, decidedApprovals_pending hp]
    exact ⟨_, List.mem_singleton_self _, ofVerdict_shows ..⟩
  · have hne : c.state ≠ .awaiting := by rw [hstate]; simp
    obtain ⟨hview, hrows⟩ := approvals_decideView_decided hc h.approvalIds hids' hne
    refine iff_of_false (fun hshown => ?_) (by rw [hc.status, hstate]; simp [CaseState.status])
    obtain ⟨view', world', hget', -, happrovals⟩ := hshown.fresh
    have heq := hget.symm.trans hget'
    injection heq with heq _
    rw [← Except.ok.inj heq, hview] at happrovals
    have hlen := congrArg List.length (happrovals.trans hrows)
    rw [List.length_append, List.length_singleton] at hlen
    omega

end view

/-- After any run, what a successful decision returns is what a fresh session shows of the workflow
if and only if the workflow was awaiting approval, and not escalated already. -/
theorem decision_shown_iff (svc : WorkflowService) (is : List (WorkflowOp × Faults Exn))
    (verdict : Verdict) (workflowId decidedBy : Uuid) (reason requestId : Option String)
    (F : Faults Exn) (view : WorkflowView) :
    let s := (workflowMachine svc).run .empty is
    let op := WorkflowOp.decide verdict workflowId decidedBy reason requestId
    ((workflowMachine svc).step s (op, F)).1 = .ok view →
      (DecisionShown ⟨verdict, decidedBy, reason⟩ workflowId view ((workflowMachine svc).next s (op, F)) ↔
        ∃ w, s.db.workflow? workflowId = some w ∧ w.status = .awaitingApproval) := by
  intro s op hr
  have h : Consistent svc s := consistent_run svc is
  obtain ⟨w, n', hw, rfl, hst, hn, rfl, heq⟩ := transact_decide_ok svc _ _ _
    (by rw [← body_decide]; exact hr)
  rw [← body_decide] at heq
  have hnext : (workflowMachine svc).next s (op, F) = ⟨_, n', _⟩ :=
    congrArg (fun p : Database × World => Committed.mk p.1 p.2) heq
  rw [hnext]
  refine (decisionShown_iff h hw hst hn _).trans ?_
  constructor
  · intro hst'
    exact ⟨w, hw, hst'⟩
  · rintro ⟨w', hw', hst'⟩
    rwa [Option.some.inj (hw.symm.trans hw')]

theorem decision_shown_iff_kyc :
    let s := (workflowMachine silentService).run .empty [(.start .kyc .empty none none, .none)]
    ∃ view, ((workflowMachine silentService).step s (.decide .approve ⟨0⟩ ⟨101⟩ none none, .none)).1 =
        .ok view ∧
      DecisionShown ⟨.approve, ⟨101⟩, none⟩ ⟨0⟩ view
        ((workflowMachine silentService).next s (.decide .approve ⟨0⟩ ⟨101⟩ none none, .none)) :=
  ⟨_, rfl, (decision_shown_iff silentService [(.start .kyc .empty none none, .none)] .approve ⟨0⟩ ⟨101⟩
    none none .none _ rfl).2 ⟨_, rfl, rfl⟩⟩

/-- Approving an escalated workflow returns the approvals without the decision. -/
theorem approval_not_shown :
    let s := (workflowMachine silentService).run .empty
      [(.start .kyc .empty none none, .none), (.decide .escalate ⟨0⟩ ⟨100⟩ none none, .none)]
    ∃ view, ((workflowMachine silentService).step s (.decide .approve ⟨0⟩ ⟨101⟩ none none, .none)).1 =
        .ok view ∧
      ¬ DecisionShown ⟨.approve, ⟨101⟩, none⟩ ⟨0⟩ view
        ((workflowMachine silentService).next s (.decide .approve ⟨0⟩ ⟨101⟩ none none, .none)) := by
  refine ⟨_, rfl, fun h => ?_⟩
  obtain ⟨a, ha, hshows⟩ := h.made
  rcases List.mem_singleton.1 ha with rfl
  exact absurd hshows.decision (by decide)

end BankingAi
