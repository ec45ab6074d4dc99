import BankingAi.Api.Integrity

/-!
# The record is only added to

No request takes anything back. Along a run, where requests are served one after another, the tables continue: agent runs, audit entries, documents,
chunks and embeddings stay as they were written, a workflow changes its status only while it awaits a
decision and never back to where it was before a ruling, and an approval that was decided is final.
-/

namespace BankingAi

open Posix Review SessionM

variable {V S T σ : Type}

/-- What a decision may make of a status. -/
def WorkflowStatus.Reaches (before after : WorkflowStatus) : Prop :=
  after = before ∨ before ∈ decidable ∧ after ∈ [.escalated, .completed, .rejected]

/-- What may become of a row: it may be decided on. -/
structure Workflow.Later (w w' : Workflow) : Prop where
  status : w.status.Reaches w'.status
  columns : w' = { w with status := w'.status }

structure Approval.Later (a a' : Approval) : Prop where
  final : a.decision ≠ .pending → a' = a
  decided : a' = a ∨ a'.decision ≠ .pending ∧ a'.decidedBy.isSome
  columns : a' = { a with
    decision := a'.decision, kind := a'.kind, decidedBy := a'.decidedBy, decisionReason := a'.decisionReason }

instance : Std.Refl WorkflowStatus.Reaches := ⟨fun _ => .inl rfl⟩

instance : IsTrans WorkflowStatus WorkflowStatus.Reaches where
  trans a b c := by
    rintro (rfl | ⟨ha, hb⟩) (rfl | ⟨hb', hc⟩)
    · exact .inl rfl
    · exact .inr ⟨hb', hc⟩
    · exact .inr ⟨ha, hb⟩
    · exact .inr ⟨ha, hc⟩

instance : Std.Refl Workflow.Later := ⟨fun _ => ⟨.inl rfl, rfl⟩⟩

instance : IsTrans Workflow Workflow.Later where
  trans a b c h h' :=
    { status := IsTrans.trans _ _ _ h.status h'.status
      columns := by
        rw [h'.columns, h.columns] }

instance : Std.Refl Approval.Later := ⟨fun _ => ⟨fun _ => rfl, .inl rfl, rfl⟩⟩

instance : IsTrans Approval Approval.Later where
  trans a b c h h' :=
    { final := fun ha => by
        obtain rfl := h.final ha
        exact h'.final ha
      decided := by
        rcases h'.decided with rfl | hc
        · exact h.decided
        · exact .inr hc
      columns := by
        rw [h'.columns, h.columns] }

/-- The tables of one state continue those of another. -/
structure Library.Continues (db db' : Library V) : Prop where
  workflows : Table.Continues Workflow.Later db.workflows db'.workflows
  approvals : Table.Continues Approval.Later db.approvals db'.approvals
  agentRuns : db.agentRuns <+: db'.agentRuns
  auditLogs : db.auditLogs <+: db'.auditLogs
  documents : db.documents <+: db'.documents
  chunks : db.chunks <+: db'.chunks
  embeddings : db.embeddings <+: db'.embeddings

/-- The same of two states. -/
def LibraryState.Continues (s s' : LibraryState V) : Prop := s.db.Continues s'.db

theorem Library.Continues.rfl' (db : Library V) : db.Continues db where
  workflows := Std.Refl.refl _
  approvals := Std.Refl.refl _
  agentRuns := List.prefix_rfl
  auditLogs := List.prefix_rfl
  documents := List.prefix_rfl
  chunks := List.prefix_rfl
  embeddings := List.prefix_rfl

instance : Std.Refl (LibraryState.Continues (V := V)) := ⟨fun s => .rfl' s.db⟩

instance : IsTrans (LibraryState V) LibraryState.Continues where
  trans _ _ _ h h' :=
    { workflows := IsTrans.trans _ _ _ h.workflows h'.workflows
      approvals := IsTrans.trans _ _ _ h.approvals h'.approvals
      agentRuns := h.agentRuns.trans h'.agentRuns
      auditLogs := h.auditLogs.trans h'.auditLogs
      documents := h.documents.trans h'.documents
      chunks := h.chunks.trans h'.chunks
      embeddings := h.embeddings.trans h'.embeddings }

/-! ### Decisions -/

section decide

variable {db : Database} {w : Workflow} {args : DecideArgs} {n : ℕ}

theorem finalStatus_reached (verdict : Verdict) (decidedBy : Uuid) (reason requestId : Option String) :
    (DecideArgs.ofVerdict verdict decidedBy reason requestId).finalStatus ∈
      [WorkflowStatus.escalated, .completed, .rejected] := by
  rw [ofVerdict_finalStatus]
  cases verdict <;> decide

theorem workflows_continue (hids : (db.workflows.map Workflow.id).Nodup) (hw : db.workflow? w.id = some w)
    (hst : w.status ∈ decidable) {status : WorkflowStatus}
    (hstatus : status ∈ [WorkflowStatus.escalated, .completed, .rejected]) :
    Table.Continues Workflow.Later db.workflows
      (writeStatus w.id (changed w.status status) db).workflows := by
  unfold changed
  split
  case isTrue => exact Std.Refl.refl _
  case isFalse =>
    refine Table.Continues.update fun r hr hid => ?_
    obtain rfl : r = w := List.inj_on_of_nodup_map hids hr (Table.lookup_eq_some hw).1 hid
    exact ⟨.inr ⟨hst, hstatus⟩, rfl⟩

theorem approvals_continue (hids : (db.approvals.map Approval.id).Nodup) (verdict : Verdict) (decidedBy fresh : Uuid)
    (reason requestId : Option String) :
    Table.Continues Approval.Later db.approvals
      ((decideWrites ⟨w, db.agentRunsOf w.id, db.approvalsOf w.id⟩
        (.ofVerdict verdict decidedBy reason requestId)).apply w.id fresh db).approvals := by
  unfold DecideWrites.apply decideWrites
  dsimp only
  cases hp : (db.approvalsOf w.id).find? (·.decision = .pending) with
  | none =>
    show Table.Continues _ _ ((writeStatus ..).approvals ++ [_])
    rw [approvals_writeStatus]
    exact Table.Continues.append _ _
  | some pending =>
    have hmem : pending ∈ db.approvals := (List.mem_filter.1 (List.mem_of_find?_eq_some hp)).1
    show Table.Continues _ _ (Table.update Approval.id pending.id _ (writeStatus ..).approvals)
    rw [approvals_writeStatus]
    refine Table.Continues.update fun r hr hid => ?_
    obtain rfl : r = pending := List.inj_on_of_nodup_map hids hr hmem hid
    have hpending : r.decision = .pending := by simpa using List.find?_some hp
    rw [approvalChanges_apply]
    refine ⟨fun hne => absurd hpending hne, .inr ⟨?_, ?_⟩, rfl⟩
    · cases verdict <;> simp [Approval.decided, DecideArgs.ofVerdict, DecideArgs.approve, DecideArgs.reject,
        DecideArgs.escalate]
    · rfl

end decide

/-! ### Runs -/

namespace LibraryState.Sound

variable {p : Platform V T σ} {svc : DocumentService V S} {s s' : LibraryState V} {req : HttpRequest} {user : Uuid}
  {result : WorkflowView ⊕ Document}

theorem continues_commit (h : s.Sound p svc) (hcommits : req.Commits p svc s user result s') : s.Continues s' := by
  have hrfl := Library.Continues.rfl' s.db
  cases hcommits with
  | start hop hn hdrawn =>
    exact
      { hrfl with
        workflows := Table.Continues.append _ _
        approvals := Table.Continues.append _ _
        agentRuns := List.prefix_append _ _
        auditLogs := List.prefix_append _ _ }
  | decide hop hargs hw hst hn =>
    subst hargs
    exact
      { hrfl with
        workflows := by
          show Table.Continues _ _ (DecideWrites.apply _ _ _ _).workflows
          rw [workflows_apply]
          exact workflows_continue h.consistent.workflowIds hw hst (finalStatus_reached ..)
        approvals := approvals_continue h.consistent.approvalIds ..
        agentRuns := by
          show _ <+: (DecideWrites.apply _ _ _ _).agentRuns
          rw [agentRuns_apply]
        auditLogs := by
          show _ <+: (DecideWrites.apply _ _ _ _).auditLogs ++ _
          rw [auditLogs_apply]
          exact List.prefix_append _ _ }
  | upload hop hid =>
    exact
      { hrfl with
        auditLogs := List.prefix_append _ _
        documents := by
          show _ <+: (uploadDb ..).documents
          rw [h.documents_uploadDb]
          exact List.prefix_append _ _
        chunks := List.prefix_append _ _
        embeddings := List.prefix_append _ _ }

theorem continues_next (h : s.Sound p svc) (i : HttpRequest × Faults Exn) :
    s.Continues (serveStep p svc s i).2 := by
  rcases HttpRequest.step_cases p svc h.consistent.drawn i with ⟨e, -, hdb⟩ | ⟨user, result, -, -, hcommits⟩
  · unfold LibraryState.Continues
    rw [hdb]
    exact .rfl' s.db
  · exact h.continues_commit hcommits

theorem continues_run {p : Platform V S σ} (h : s.Sound p svc) (js : List (HttpRequest × Faults Exn)) :
    s.Continues ((requestMachine p svc).run s js) :=
  Machine.run_rel (I := LibraryState.Sound p svc) (R := LibraryState.Continues) (fun _ i h => h.step i) h js
    fun s i h => (h.platform (p.over svc s.world.vectors)).continues_next i

end LibraryState.Sound

/-- Whatever has been recorded after some requests, is still there after any later ones: rows stay in
their places, a workflow is changed by decisions while it awaits one, a decided approval and every
other row not at all. -/
theorem ledger_continues (p : Platform V S σ) (svc : DocumentService V S) (files : FileSystem)
    (is js : List (HttpRequest × Faults Exn)) :
    let m := requestMachine p svc
    (m.run (.start files) is).db.Continues (m.run (.start files) (is ++ js)).db := by
  intro m
  rw [Machine.run_append]
  exact (LibraryState.Sound.run p svc files is).continues_run js

end BankingAi
