import BankingAi.Db.Document

/-!
# Column lengths

Text columns are declared with a length, `String(64)`. SQLite does not look at it; PostgreSQL refuses
a longer text. Columns of type `Text` and JSON columns have no length.
-/

namespace BankingAi

def WorkflowType.value : WorkflowType → String
  | documentIntelligence => "document_intelligence"
  | kyc => "kyc"
  | fraudReview => "fraud_review"
  | compliance => "compliance"
  | auditEvidence => "audit_evidence"
  | loan => "loan"

def ApprovalKind.value : ApprovalKind → String
  | approval => "approval"
  | rejection => "rejection"
  | escalation => "escalation"
  | manualReview => "manual_review"

def AgentRunStatus.value : AgentRunStatus → String
  | started => "started"
  | succeeded => "succeeded"
  | failed => "failed"

def DocumentStatus.value : DocumentStatus → String
  | uploaded => "uploaded"
  | processing => "processing"
  | processed => "processed"
  | needsReview => "needs_review"
  | failed => "failed"

/-- What a column `String(limit)` takes; `NULL` always. -/
def Varchar (limit : ℕ) (text : Option String) : Prop := ∀ t ∈ text, t.length ≤ limit

instance (limit : ℕ) (text : Option String) : Decidable (Varchar limit text) :=
  inferInstanceAs (Decidable (∀ t ∈ text, t.length ≤ limit))

theorem varchar_some {limit : ℕ} {t : String} : Varchar limit (some t) ↔ t.length ≤ limit :=
  ⟨fun h => h t rfl, fun h _ ht => Option.some.inj ht ▸ h⟩

theorem varchar_none {limit : ℕ} : Varchar limit none := nofun

/-- The length of a text that may be an id, of which every one has 36 characters in the tables. -/
def idLength (text : String) : ℕ := if (Uuid.ofStr? text).map Uuid.str = some text then 36 else text.length

theorem idLength_str (id : Uuid) : idLength id.str = 36 := by
  rw [idLength, Uuid.ofStr?_str, Option.map_some, if_pos rfl]

/-! ### Rows that fit their columns -/

structure Workflow.Fits (w : Workflow) : Prop where
  workflowType : Varchar 32 (some w.workflowType.value)
  status : Varchar 32 (some w.status.value)

structure AgentRun.Fits (r : AgentRun) : Prop where
  agentName : Varchar 64 (some r.agentName)
  status : Varchar 32 (some r.status.value)
  promptVersion : Varchar 64 r.promptVersion
  modelUsed : Varchar 128 r.modelUsed

structure Approval.Fits (a : Approval) : Prop where
  kind : Varchar 32 (some a.kind.value)
  decision : Varchar 32 (some a.decision.value)
  requiredPermission : Varchar 64 (some a.requiredPermission)

structure AuditLog.Fits (e : AuditLog) : Prop where
  actorEmail : Varchar 320 e.actorEmail
  action : Varchar 128 (some e.action)
  resourceType : Varchar 64 (some e.resourceType)
  resourceId : ∀ t ∈ e.resourceId, idLength t ≤ 64
  outcome : Varchar 32 (some e.outcome)
  requestId : Varchar 64 e.requestId

structure Document.Fits (d : Document) : Prop where
  filename : Varchar 512 (some d.filename)
  contentType : Varchar 128 (some d.contentType)
  storageKey : Varchar 1024 (some d.storageKey)
  sha256 : Varchar 64 d.sha256
  status : Varchar 32 (some d.status.value)

structure Database.Fits (db : Database) : Prop where
  workflows : ∀ w ∈ db.workflows, w.Fits
  agentRuns : ∀ r ∈ db.agentRuns, r.Fits
  approvals : ∀ a ∈ db.approvals, a.Fits
  auditLogs : ∀ e ∈ db.auditLogs, e.Fits

structure Library.Fits {V : Type} (db : Library V) : Prop where
  database : db.toDatabase.Fits
  documents : ∀ d ∈ db.documents, d.Fits
  embeddings : ∀ e ∈ db.embeddings, Varchar 128 (some e.model)

instance : DecidablePred Workflow.Fits := fun _ =>
  decidable_of_iff (_ ∧ _) ⟨fun ⟨h, h'⟩ => ⟨h, h'⟩, fun h => ⟨h.workflowType, h.status⟩⟩

instance : DecidablePred AgentRun.Fits := fun _ =>
  decidable_of_iff (_ ∧ _ ∧ _ ∧ _) ⟨fun ⟨h, h', h'', h'''⟩ => ⟨h, h', h'', h'''⟩,
    fun h => ⟨h.agentName, h.status, h.promptVersion, h.modelUsed⟩⟩

instance : DecidablePred Approval.Fits := fun _ =>
  decidable_of_iff (_ ∧ _ ∧ _) ⟨fun ⟨h, h', h''⟩ => ⟨h, h', h''⟩,
    fun h => ⟨h.kind, h.decision, h.requiredPermission⟩⟩

instance : DecidablePred AuditLog.Fits := fun e =>
  decidable_of_iff (_ ∧ _ ∧ _ ∧ (∀ t ∈ e.resourceId, idLength t ≤ 64) ∧ _ ∧ _)
    ⟨fun ⟨h₁, h₂, h₃, h₄, h₅, h₆⟩ => ⟨h₁, h₂, h₃, h₄, h₅, h₆⟩,
      fun h => ⟨h.actorEmail, h.action, h.resourceType, h.resourceId, h.outcome, h.requestId⟩⟩

instance : DecidablePred Document.Fits := fun _ =>
  decidable_of_iff (_ ∧ _ ∧ _ ∧ _ ∧ _) ⟨fun ⟨h₁, h₂, h₃, h₄, h₅⟩ => ⟨h₁, h₂, h₃, h₄, h₅⟩,
    fun h => ⟨h.filename, h.contentType, h.storageKey, h.sha256, h.status⟩⟩

instance : DecidablePred Database.Fits := fun db =>
  decidable_of_iff ((∀ w ∈ db.workflows, w.Fits) ∧ (∀ r ∈ db.agentRuns, r.Fits) ∧
      (∀ a ∈ db.approvals, a.Fits) ∧ ∀ e ∈ db.auditLogs, e.Fits)
    ⟨fun ⟨h₁, h₂, h₃, h₄⟩ => ⟨h₁, h₂, h₃, h₄⟩, fun h => ⟨h.workflows, h.agentRuns, h.approvals, h.auditLogs⟩⟩

instance {V : Type} : DecidablePred (Library.Fits (V := V)) := fun db =>
  decidable_of_iff (db.toDatabase.Fits ∧ (∀ d ∈ db.documents, d.Fits) ∧
      ∀ e ∈ db.embeddings, Varchar 128 (some e.model))
    ⟨fun ⟨h₁, h₂, h₃⟩ => ⟨h₁, h₂, h₃⟩, fun h => ⟨h.database, h.documents, h.embeddings⟩⟩

/-! ### Enumerations fit -/

theorem Workflow.fits (w : Workflow) : w.Fits where
  workflowType := by
    refine varchar_some.2 ?_
    cases w.workflowType <;> decide +kernel
  status := by
    refine varchar_some.2 ?_
    cases w.status <;> decide +kernel

theorem AgentRunStatus.varchar (status : AgentRunStatus) : Varchar 32 (some status.value) := by
  refine varchar_some.2 ?_
  cases status <;> decide +kernel

theorem ApprovalDecision.length_value (decision : ApprovalDecision) : decision.value.length ≤ 9 := by
  cases decision <;> decide +kernel

theorem Approval.fits_iff {a : Approval} : a.Fits ↔ a.requiredPermission.length ≤ 64 := by
  refine ⟨fun h => varchar_some.1 h.requiredPermission, fun h => ⟨varchar_some.2 ?_, varchar_some.2 ?_, varchar_some.2 h⟩⟩
  · cases a.kind <;> decide +kernel
  · exact a.decision.length_value.trans (by omega)

theorem DocumentStatus.varchar (status : DocumentStatus) : Varchar 32 (some status.value) := by
  refine varchar_some.2 ?_
  cases status <;> decide +kernel

/-! ### Changes of the tables -/

theorem Table.forall_mem_update {ρ κ : Type} [DecidableEq κ] {key : ρ → κ} {k : κ} {f : ρ → ρ} {t : List ρ}
    {P : ρ → Prop} (h : ∀ r ∈ t, P r) (hf : ∀ r, P r → P (f r)) : ∀ r ∈ Table.update key k f t, P r := by
  intro r hr
  rcases Table.mem_update.1 hr with ⟨hr, -⟩ | ⟨r', hr', -, rfl⟩
  · exact h r hr
  · exact hf r' (h r' hr')

theorem forall_mem_concat {ρ : Type} {t : List ρ} {x : ρ} {P : ρ → Prop} (h : ∀ r ∈ t, P r) (hx : P x) :
    ∀ r ∈ t ++ [x], P r :=
  List.forall_mem_append.2 ⟨h, List.forall_mem_singleton.2 hx⟩

namespace Database.Fits

variable {db : Database} (h : db.Fits)

include h

theorem addWorkflow (w : Workflow) : (db.addWorkflow w).Fits :=
  { h with workflows := forall_mem_concat h.workflows w.fits }

theorem setWorkflow (id : Uuid) (f : Workflow → Workflow) : (db.setWorkflow id f).Fits :=
  { h with workflows := fun w _ => w.fits }

theorem addAgentRun {r : AgentRun} (hr : r.Fits) : (db.addAgentRun r).Fits :=
  { h with agentRuns := forall_mem_concat h.agentRuns hr }

theorem setAgentRun (id : Uuid) {f : AgentRun → AgentRun} (hf : ∀ r, r.Fits → (f r).Fits) :
    (db.setAgentRun id f).Fits :=
  { h with agentRuns := Table.forall_mem_update h.agentRuns hf }

theorem addApproval {a : Approval} (ha : a.Fits) : (db.addApproval a).Fits :=
  { h with approvals := forall_mem_concat h.approvals ha }

theorem setApproval (id : Uuid) {f : Approval → Approval} (hf : ∀ a, a.Fits → (f a).Fits) :
    (db.setApproval id f).Fits :=
  { h with approvals := Table.forall_mem_update h.approvals hf }

theorem addAuditLog {e : AuditLog} (he : e.Fits) : (db.addAuditLog e).Fits :=
  { h with auditLogs := forall_mem_concat h.auditLogs he }

end Database.Fits
end BankingAi
