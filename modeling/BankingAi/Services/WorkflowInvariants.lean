import BankingAi.Services.WorkflowRuns

/-!
# What committed workflows look like

The tables that any run commits, read off the cases they represent: the status of a workflow agrees
with its approvals, and its audit entries are a word of the review grammar that replays to its
status.
-/

namespace BankingAi

open Review

/-- The status of a committed workflow and its approvals agree. -/
structure CommittedRows (svc : WorkflowService) (db : Database) (w : Workflow) : Prop where
  status : w.status ∈ [.awaitingApproval, .escalated, .completed, .rejected, .failed]
  pending_iff : (∃ a ∈ db.approvalsOf w.id, a.decision = .pending) ↔ w.status = .awaitingApproval
  pending : w.status = .awaitingApproval → ∃ a, db.approvalsOf w.id = [a] ∧ a.decidedBy = none
  escalated : w.status = .escalated →
    db.approvalsOf w.id ≠ [] ∧ ∀ a ∈ db.approvalsOf w.id, a.decision = .escalated
  rejected : w.status = .rejected →
    ((db.approvalsOf w.id).map Approval.decision).count .rejected = 1 ∧
      ∀ a ∈ db.approvalsOf w.id, a.decision = .rejected ∨ a.decision = .escalated
  failed : w.status = .failed → db.approvalsOf w.id = []
  completed : w.status = .completed →
    (((db.approvalsOf w.id).map Approval.decision).count .approved = 1 ∧
      ∀ a ∈ db.approvalsOf w.id, a.decision = .approved ∨ a.decision = .escalated) ∨
    (db.approvalsOf w.id = [] ∧ NeedsNoReview svc db w)

section rows

variable {svc : WorkflowService} {db : Database} {w : Workflow} {c : Case Uuid}

theorem map_decision {rows : List Approval} {ds : List (Decision Uuid)}
    (h : List.Forall₂ Approval.Shows rows ds) :
    rows.map Approval.decision = ds.map (·.verdict.decision) := by
  induction h with
  | nil => rfl
  | cons h _ ih => rw [List.map_cons, List.map_cons, h.decision, ih]

/-- A case that a ruling closed has one row with the ruling, the others are escalations. -/
theorem Represents.ruled (h : Represents svc db w c) {v : Verdict} (hv : c.state = v.state)
    (hc : c ≠ .automatic) :
    db.approvalsOf w.id ≠ [] ∧
    (v ≠ .escalate → ((db.approvalsOf w.id).map Approval.decision).count v.decision = 1) ∧
      ∀ a ∈ db.approvalsOf w.id, a.decision = v.decision ∨ a.decision = .escalated := by
  obtain ⟨ds, d, heq, hds, hd⟩ := Case.decisions_eq_concat hv hc
  have hrows := h.decided (by rw [hv]; cases v <;> simp [Verdict.state])
  rw [heq] at hrows
  refine ⟨fun hnil => ?_, fun hne => ?_, fun a ha => ?_⟩
  · have := hrows.length_eq
    rw [hnil] at this
    simp at this
  · rw [map_decision hrows, List.map_append, List.count_append, List.map_singleton, hd,
      List.count_singleton_self, List.count_eq_zero.2]
    rintro hmem
    obtain ⟨e, he, h'⟩ := List.mem_map.1 hmem
    rw [hds e he] at h'
    revert hne h'
    cases v <;> simp [Verdict.decision]
  · obtain ⟨e, he, hshow⟩ := Table.exists_of_forall₂ hrows ha
    rw [hshow.decision]
    rcases List.mem_append.1 he with he | he
    · rw [hds e he]; exact .inr rfl
    · rw [List.mem_singleton.1 he, hd]; exact .inl rfl

theorem Represents.rows_eq_nil (h : Represents svc db w c) (hs : c.state ≠ .awaiting)
    (hc : c.decisions = []) : db.approvalsOf w.id = [] :=
  List.forall₂_nil_right_iff.1 (hc ▸ h.decided hs)

theorem CaseState.status_injective : Function.Injective CaseState.status := by
  intro s s' h
  cases s <;> cases s' <;> first | rfl | cases h

theorem Represents.committedRows (h : Represents svc db w c) : CommittedRows svc db w := by
  have hstate : ∀ s : CaseState, w.status = s.status → c.state = s := fun s hs =>
    CaseState.status_injective (h.status.symm.trans hs)
  exact
    { status := by
        rw [h.status]
        cases c.state <;> simp [CaseState.status]
      pending_iff := by
        constructor
        · rintro ⟨a, ha, hp⟩
          by_contra hne
          have hs : c.state ≠ .awaiting := fun hs => hne (by rw [h.status, hs]; rfl)
          obtain ⟨d, -, hd⟩ := Table.exists_of_forall₂ (h.decided hs) ha
          exact hd.ne_pending hp
        · intro hs
          obtain ⟨a, ha, hp, -⟩ := h.pending (hstate .awaiting hs)
          exact ⟨a, by rw [ha]; exact List.mem_singleton_self a, hp⟩
      pending := fun hs =>
        let ⟨a, ha, _, hd⟩ := h.pending (hstate .awaiting hs)
        ⟨a, ha, hd⟩
      escalated := fun hs => by
        have hs := hstate .escalated hs
        obtain ⟨h1, -, h2⟩ := h.ruled (v := .escalate) hs (by rintro rfl; cases hs)
        exact ⟨h1, fun a ha => (h2 a ha).elim id id⟩
      rejected := fun hs => by
        have hs := hstate .rejected hs
        obtain ⟨-, h1, h2⟩ := h.ruled (v := .reject) hs (by rintro rfl; cases hs)
        exact ⟨h1 (by simp), h2⟩
      failed := fun hs => by
        have hs := hstate .failed hs
        exact h.rows_eq_nil (by rw [hs]; simp) (by rw [Case.eq_failed hs]; rfl)
      completed := fun hs => by
        have hs := hstate .completed hs
        by_cases hc : c = .automatic
        · refine .inr ⟨h.rows_eq_nil (by rw [hs]; simp) (by rw [hc]; rfl), h.automatic hc⟩
        · obtain ⟨-, h1, h2⟩ := h.ruled (v := .approve) hs hc
          exact .inl ⟨h1 (by simp), h2⟩ }

end rows

/-- After any run, the status of every committed workflow agrees with its approvals. -/
theorem committed_rows (svc : WorkflowService) (is : List (WorkflowOp × Faults Exn)) :
    let db := ((workflowMachine svc).run .empty is).db
    ∀ w ∈ db.workflows, CommittedRows svc db w := by
  intro db w hw
  have h := consistent_run svc is
  obtain ⟨c, hc⟩ := h.represents w.id w (Table.lookup_of_mem h.workflowIds hw)
  exact hc.committedRows

/-- A loan that is escalated and then approved. -/
def escalatedLoan : List (WorkflowOp × Faults Exn) :=
  [(.start .loan .empty none none, .none), (.decide .escalate ⟨0⟩ ⟨100⟩ none none, .none),
    (.decide .approve ⟨0⟩ ⟨101⟩ (some "checked") none, .none)]

theorem committed_rows_loan :
    ∃ w ∈ ((workflowMachine silentService).run .empty escalatedLoan).db.workflows,
      CommittedRows silentService ((workflowMachine silentService).run .empty escalatedLoan).db w :=
  ⟨_, List.mem_cons_self, committed_rows silentService escalatedLoan _ List.mem_cons_self⟩

/-! ### The audit log -/

open RegularExpression in
/-- `failed | completed | awaiting_approval escalated* (approved | rejected)?`, as recorded. -/
def auditGrammar : RegularExpression String :=
  char "workflow.failed" + char "workflow.completed" +
    char "workflow.awaiting_approval" * (star (char "workflow.escalated") *
      (1 + (char "workflow.approved" + char "workflow.rejected")))

/-- The status that a recorded sequence of actions leaves. -/
def replayActions (actions : List String) : Option WorkflowStatus :=
  actions.getLast?.bind fun action =>
    if action = "workflow.failed" then some .failed
    else if action = "workflow.completed" then some .completed
    else if action = "workflow.awaiting_approval" then some .awaitingApproval
    else if action = "workflow.escalated" then some .escalated
    else if action = "workflow.approved" then some .completed
    else if action = "workflow.rejected" then some .rejected
    else none

theorem map_grammar : grammar.map Event.action = auditGrammar := rfl

theorem replayActions_map (word : List Event) :
    replayActions (word.map Event.action) = (replay word).map CaseState.status := by
  unfold replayActions replay
  rw [List.getLast?_map]
  cases word.getLast? with
  | none => rfl
  | some e =>
    cases e with
    | failed => rfl
    | completed => rfl
    | opened => rfl
    | decided verdict => cases verdict <;> rfl

theorem mem_auditGrammar {word : List Event} (h : word ∈ grammar.matches') :
    word.map Event.action ∈ auditGrammar.matches' := by
  rw [← map_grammar, RegularExpression.matches'_map]
  exact ⟨word, h, rfl⟩

theorem map_record {rows : List Approval} {ds : List (Decision Uuid)}
    (h : List.Forall₂ Approval.Shows rows ds) :
    rows.filterMap Approval.record? = ds.map Decision.record := by
  induction h with
  | nil => rfl
  | @cons a d _ _ h _ ih =>
    have : a.record? = some d.record := by
      rw [Approval.record?, if_neg h.ne_pending, h.decision, h.decidedBy, h.reason]
      rfl
    rw [List.filterMap_cons, this, List.map_cons, ih]

/-- The audit entries of a workflow and its rows tell the same story. -/
structure AuditRefines (db : Database) (w : Workflow) : Prop where
  word : (db.auditOf w.id).map AuditLog.action ∈ auditGrammar.matches'
  replay : replayActions ((db.auditOf w.id).map AuditLog.action) = some w.status
  decisions : (db.auditOf w.id).filterMap AuditLog.record? =
    (db.approvalsOf w.id).filterMap Approval.record?

theorem Represents.auditRefines {svc : WorkflowService} (haudit : svc.audit = true) {db : Database}
    {w : Workflow} {c : Case Uuid} (h : Represents svc db w c) : AuditRefines db w where
  word := by
    rw [h.actions haudit]
    exact mem_auditGrammar c.word_mem_grammar
  replay := by
    rw [h.actions haudit, replayActions_map, c.replay_word, Option.map_some, h.status]
  decisions := by
    rw [h.records haudit]
    by_cases hs : c.state = .awaiting
    · obtain ⟨a, ha, hp, -⟩ := h.pending hs
      rw [Case.decisions_of_awaiting hs, ha, List.filterMap_cons, Approval.record?, if_pos hp]
      rfl
    · exact (map_record (h.decided hs)).symm

/-- With an audit service attached, after any run the audit log of every workflow is a word of the
grammar, replays to its status and lists its decisions; an operation that raises changes no table. -/
theorem audit_refines (svc : WorkflowService) (haudit : svc.audit = true)
    (is : List (WorkflowOp × Faults Exn)) :
    let s := (workflowMachine svc).run .empty is
    (∀ w ∈ s.db.workflows, AuditRefines s.db w) ∧
      ∀ i e, ((workflowMachine svc).step s i).1 = .error e → ((workflowMachine svc).next s i).db = s.db := by
  intro s
  refine ⟨fun w hw => ?_, fun i e => step_error⟩
  have h := consistent_run svc is
  obtain ⟨c, hc⟩ := h.represents w.id w (Table.lookup_of_mem h.workflowIds hw)
  exact hc.auditRefines haudit

theorem audit_refines_loan :
    let s := (workflowMachine silentService).run .empty escalatedLoan
    (∃ w ∈ s.db.workflows, AuditRefines s.db w) ∧
      ((workflowMachine silentService).next s (.decide .reject ⟨0⟩ ⟨102⟩ none none, .none)).db = s.db :=
  have h := audit_refines silentService rfl escalatedLoan
  ⟨⟨_, List.mem_cons_self, h.1 _ List.mem_cons_self⟩, h.2 _ _ rfl⟩

end BankingAi
