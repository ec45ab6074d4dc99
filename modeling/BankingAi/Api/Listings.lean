import Mathlib.Order.OrderDual
import BankingAi.Lib.Paging
import BankingAi.Services.WorkflowService

/-!
# The paginated endpoints

The review queue, the runs of an agent and the audit log. Each page is a query of its own for the matching rows in
the order of their creation; how the database orders rows that were created at one time is left to it, query by
query. The column `created_at` is given by primary key, and the items are the rows.
-/

namespace BankingAi

structure PageMeta where
  page : ℕ
  pageSize : ℕ
  total : ℕ
  totalPages : ℕ
deriving DecidableEq

structure Page (ρ : Type) where
  items : List ρ
  info : PageMeta

def Page.build {ρ : Type} (items : List ρ) (page pageSize total : ℕ) : Page ρ :=
  let totalPages := if pageSize = 0 then 0 else (total + pageSize - 1) / pageSize
  ⟨items, ⟨page, pageSize, total, totalPages⟩⟩

/-- The parameters `page` and `page_size`, as the endpoints validate them. -/
structure PageQuery where
  page : ℕ
  pageSize : ℕ
  page_pos : 1 ≤ page
  pageSize_mem : 1 ≤ pageSize ∧ pageSize ≤ 200

def PageQuery.offset (query : PageQuery) : ℕ := (query.page - 1) * query.pageSize

/-- How the database orders the rows of one query. -/
abbrev OrderBy (ρ : Type) := List ρ → List ρ

/-- The order respects the `ORDER BY` of the query. -/
def OrderBy.Respects {ρ κ : Type} [LinearOrder κ] (orderBy : OrderBy ρ) (key : ρ → κ) : Prop :=
  ∀ rows, Paging.Answers key rows (orderBy rows)

/-- `.limit(limit).offset(offset)`. -/
def OrderBy.select {ρ : Type} (orderBy : OrderBy ρ) (rows : List ρ) (limit offset : ℕ) : List ρ :=
  ((orderBy rows).drop offset).take limit

namespace Database

variable (db : Database)

/-- The workflows awaiting a human decision. -/
def awaiting : List Workflow := db.workflows.filter (·.status ∈ decidable)

/-- The runs that the filters of `list_agent_runs` leave. -/
def runsNamed (agentName : String) (workflowId : Option Uuid) : List AgentRun :=
  db.agentRuns.filter fun run => run.agentName = agentName ∧ ∀ id ∈ workflowId, run.workflowId = id

/-- `if value: filters.append(column == value)`. -/
def passes (value : Option String) (column : Option String) : Bool :=
  match value with
  | some value => value = "" || column = some value
  | none => true

/-- The entries that the filters of `list_audit_logs` leave. -/
def entriesFor (action resourceType resourceId : Option String) : List AuditLog :=
  db.auditLogs.filter fun entry =>
    passes action entry.action && passes resourceType entry.resourceType && passes resourceId entry.resourceId

/-- Every table has distinct primary keys. -/
structure PrimaryKeys : Prop where
  workflows : (db.workflows.map Workflow.id).Nodup
  agentRuns : (db.agentRuns.map AgentRun.id).Nodup
  auditLogs : (db.auditLogs.map AuditLog.id).Nodup

end Database

/-- `WorkflowService.review_queue`: the rows of a page, and the number of all. -/
def WorkflowService.reviewQueue (db : Database) (orderBy : OrderBy Workflow) (limit offset : ℕ) :
    List Workflow × ℕ :=
  let total := db.awaiting.length
  let rows := orderBy.select db.awaiting limit offset
  (rows, total)

def reviewQueue (db : Database) (orderBy : OrderBy Workflow) (query : PageQuery) : Page Workflow :=
  let (rows, total) := WorkflowService.reviewQueue db orderBy query.pageSize query.offset
  Page.build rows query.page query.pageSize total

/-- The end of the other two endpoints: count, select, build. -/
def listRows {ρ : Type} (matching : List ρ) (orderBy : OrderBy ρ) (query : PageQuery) : Page ρ :=
  let total := matching.length
  let rows := orderBy.select matching query.pageSize query.offset
  Page.build rows query.page query.pageSize total

def listAgentRuns (db : Database) (agentName : String) (workflowId : Option Uuid) (orderBy : OrderBy AgentRun)
    (query : PageQuery) : Page AgentRun :=
  listRows (db.runsNamed agentName workflowId) orderBy query

def listAuditLogs (db : Database) (action resourceType resourceId : Option String) (orderBy : OrderBy AuditLog)
    (query : PageQuery) : Page AuditLog :=
  listRows (db.entriesFor action resourceType resourceId) orderBy query

theorem reviewQueue_eq (db : Database) : reviewQueue db = listRows db.awaiting := rfl

/-! ### Browsing -/

/-- The request for page `i + 1`. -/
def PageQuery.number (size : ℕ) (hsize : 1 ≤ size ∧ size ≤ 200) (i : ℕ) : PageQuery :=
  ⟨i + 1, size, Nat.succ_pos i, hsize⟩

/-- The pages up to the last one have every matching row once, the later ones nothing; `reply i` is page `i + 1`. -/
structure EnumeratesOnce {ρ : Type} (matching : List ρ) (reply : ℕ → Page ρ) : Prop where
  total : ∀ i, (reply i).info.total = matching.length
  once : ((List.range (reply 0).info.totalPages).flatMap fun i => (reply i).items).Perm matching
  behind : ∀ i, (reply 0).info.totalPages ≤ i → (reply i).items = []

section browse

variable {ρ κ : Type} [LinearOrder κ] {matching : List ρ} {size : ℕ} {hsize : 1 ≤ size ∧ size ≤ 200}

theorem items_listRows (orderBy : OrderBy ρ) (i : ℕ) :
    (listRows matching orderBy (.number size hsize i)).items = Paging.page (orderBy matching) size i := by
  simp [listRows, OrderBy.select, Page.build, PageQuery.offset, PageQuery.number, Paging.page]

theorem totalPages_listRows (orderBy : OrderBy ρ) (i : ℕ) :
    (listRows matching orderBy (.number size hsize i)).info.totalPages = Paging.pages matching.length size := by
  have : size ≠ 0 := by omega
  simp [listRows, Page.build, PageQuery.number, Paging.pages, this]

theorem enumeratesOnce_iff (orderBy : ℕ → OrderBy ρ) :
    EnumeratesOnce matching (fun i => listRows matching (orderBy i) (.number size hsize i)) ↔
      Paging.Enumerates matching size fun i => orderBy i matching := by
  constructor
  · rintro ⟨-, honce, hbehind⟩
    simp only [totalPages_listRows, items_listRows] at honce hbehind
    exact ⟨honce, hbehind⟩
  · rintro ⟨honce, hbehind⟩
    refine ⟨fun _ => rfl, ?_, ?_⟩
    · simpa only [totalPages_listRows, items_listRows] using honce
    · simpa only [totalPages_listRows, items_listRows] using hbehind

/-- However the database orders the rows of each query, the pages enumerate them once exactly if rows of one key
are on one page. -/
theorem listRows_enumerates_iff (key : ρ → κ) (hnd : matching.Nodup) :
    (∀ orderBy : ℕ → OrderBy ρ, (∀ i, (orderBy i).Respects key) →
      EnumeratesOnce matching fun i => listRows matching (orderBy i) (.number size hsize i)) ↔
        Paging.Aligned key size matching := by
  classical
  rw [← Paging.enumerates_iff (show 0 < size by omega) hnd]
  constructor
  · intro h answers hanswers
    -- a database that answers as given, and in any admissible way when asked for other rows
    let orderBy : ℕ → OrderBy ρ := fun i rows =>
      if rows = matching then answers i else (Paging.exists_answers key rows).choose
    have hrespects : ∀ i, (orderBy i).Respects key := fun i rows => by
      by_cases hrows : rows = matching
      · simpa only [orderBy, hrows, if_true] using hanswers i
      · simpa only [orderBy, hrows, if_false] using (Paging.exists_answers key rows).choose_spec
    have henum := (enumeratesOnce_iff orderBy).1 (h orderBy hrespects)
    simpa only [orderBy, if_true] using henum
  · intro h orderBy hrespects
    exact (enumeratesOnce_iff orderBy).2 (h _ fun i => hrespects i matching)

end browse

/-- On every database, for every page size and every admissible order of each query, the pages of each listing
enumerate its rows once exactly if rows created at one time never spread over two pages. -/
theorem listings_enumerate_iff (db : Database) (hdb : db.PrimaryKeys) (size : ℕ) (hsize : 1 ≤ size ∧ size ≤ 200) :
    (∀ createdAt : Uuid → ℤ,
      (∀ orderBy : ℕ → OrderBy Workflow, (∀ i, (orderBy i).Respects fun w => createdAt w.id) →
        EnumeratesOnce db.awaiting fun i => reviewQueue db (orderBy i) (.number size hsize i)) ↔
          Paging.Aligned (fun w => createdAt w.id) size db.awaiting) ∧
      (∀ (createdAt : Uuid → ℤ) (agentName : String) (workflowId : Option Uuid),
        (∀ orderBy : ℕ → OrderBy AgentRun,
          (∀ i, (orderBy i).Respects fun run => OrderDual.toDual (createdAt run.id)) →
            EnumeratesOnce (db.runsNamed agentName workflowId) fun i =>
              listAgentRuns db agentName workflowId (orderBy i) (.number size hsize i)) ↔
          Paging.Aligned (fun run => OrderDual.toDual (createdAt run.id)) size
            (db.runsNamed agentName workflowId)) ∧
      ∀ (createdAt : Uuid → ℤ) (action resourceType resourceId : Option String),
        (∀ orderBy : ℕ → OrderBy AuditLog,
          (∀ i, (orderBy i).Respects fun entry => OrderDual.toDual (createdAt entry.id)) →
            EnumeratesOnce (db.entriesFor action resourceType resourceId) fun i =>
              listAuditLogs db action resourceType resourceId (orderBy i) (.number size hsize i)) ↔
          Paging.Aligned (fun entry => OrderDual.toDual (createdAt entry.id)) size
            (db.entriesFor action resourceType resourceId) := by
  refine ⟨fun createdAt => ?_, fun createdAt agentName workflowId => ?_,
    fun createdAt action resourceType resourceId => ?_⟩
  · rw [reviewQueue_eq]
    exact listRows_enumerates_iff _ (hdb.workflows.of_map.filter _)
  · exact listRows_enumerates_iff _ (hdb.agentRuns.of_map.filter _)
  · exact listRows_enumerates_iff _ (hdb.auditLogs.of_map.filter _)

/-- A workflow that awaits a decision. -/
def waitingCase (id : Uuid) : Workflow where
  id
  workflowType := .kyc
  status := .awaitingApproval
  inputPayload := .empty
  result := none
  error := none
  requiresHumanApproval := true
  createdBy := none

def twoWaiting : Database := { Database.empty with workflows := [waitingCase ⟨0⟩, waitingCase ⟨1⟩] }

theorem twoWaiting_primaryKeys : twoWaiting.PrimaryKeys := ⟨by decide, by decide, by decide⟩

/-- Created one after the other, two workflows are on the pages of every answer. -/
theorem listings_enumerate_iff_twoWaiting :
    Paging.Aligned (fun w => (w.id.draw : ℤ)) 1 twoWaiting.awaiting ∧
      ∀ orderBy : ℕ → OrderBy Workflow, (∀ i, (orderBy i).Respects fun w => (w.id.draw : ℤ)) →
        EnumeratesOnce twoWaiting.awaiting fun i => reviewQueue twoWaiting (orderBy i) (.number 1 (by decide) i) :=
  ⟨by decide, ((listings_enumerate_iff twoWaiting twoWaiting_primaryKeys 1 (by decide)).1 fun id => id.draw).2
    (by decide)⟩

/-- Two workflows created at one time, one on a page: the database may answer the second query in the other order,
and then one of them is on no page. -/
theorem tied_case_missing :
    ¬ ∀ (createdAt : Uuid → ℤ) (orderBy : ℕ → OrderBy Workflow),
      (∀ i, (orderBy i).Respects fun w => createdAt w.id) →
        EnumeratesOnce twoWaiting.awaiting fun i =>
          reviewQueue twoWaiting (orderBy i) (.number 1 (by decide) i) := by
  intro h
  have hforth : OrderBy.Respects (fun rows : List Workflow => rows) fun _ => (0 : ℤ) := fun rows =>
    ⟨.refl _, List.pairwise_of_forall fun _ _ => le_rfl⟩
  have hback : OrderBy.Respects (fun rows : List Workflow => rows.reverse) fun _ => (0 : ℤ) := fun rows =>
    ⟨List.reverse_perm _, List.pairwise_of_forall fun _ _ => le_rfl⟩
  have honce := (h (fun _ => 0) (fun i => if i = 0 then fun rows => rows else List.reverse) fun i => by
    rcases i with _ | i
    · exact hforth
    · exact hback).once.map Workflow.id
  have hids : [(⟨0⟩ : Uuid), ⟨0⟩].Perm [⟨0⟩, ⟨1⟩] := honce
  exact absurd hids (by decide)

end BankingAi
