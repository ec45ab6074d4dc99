import BankingAi.Api.ExceptionHandlers
import BankingAi.Api.Ledger
import BankingAi.Services.DecideView

/-!
# Reading back

`GET /workflows/{workflow_id}` and `GET /documents/{document_id}`. The API is a store of records: after
any run, one request at a time, reading a record gives what was last returned of it, and nothing is found
that no request returned. A decision on an escalated workflow is the one reply that is incomplete: the row
that it adds to the approvals is read but was not returned.
-/

namespace BankingAi

open Posix Review SessionM

variable {V S T σ : Type}

/-- What the endpoints serve one by one. -/
inductive Resource where
  | workflow (id : Uuid)
  | document (id : Uuid)
deriving DecidableEq

section endpoints

def getWorkflow (principal : Principal) (workflowId : Uuid) : WorkflowSession WorkflowView := do
  requirePermissions [Permission.workflowRead.value] principal
  WorkflowService.get workflowId

def getDocument (principal : Principal) (documentId : Uuid) : LibrarySession V Document := do
  inLibrary (requirePermissions [Permission.documentRead.value] principal)
  .roundTrip
  let s ← .get
  match Table.lookup Document.id documentId s.db.documents with
  | none => .raise (.new .notFound s!"Document {documentId.str} not found." [])
  | some document => pure document

/-- A request that reads, with the claims of its token. -/
structure ReadRequest where
  claims : Claims
  resource : Resource

/-- The permission its endpoint is declared with. -/
def Resource.permission : Resource → Permission
  | workflow _ => .workflowRead
  | document _ => .documentRead

def ReadRequest.handle (req : ReadRequest) : LibrarySession V (WorkflowView ⊕ Document) :=
  match req.resource with
  | .workflow id => do
    let view ← inLibrary (getWorkflow (.fromClaims req.claims) id)
    pure (.inl view)
  | .document id => do
    let document ← getDocument (.fromClaims req.claims) id
    pure (.inr document)

def ReadRequest.serve (req : ReadRequest) (s : LibraryState V) (F : Faults Exn) :
    Except Exn (WorkflowView ⊕ Document) × Library V × LibraryWorld V :=
  transact .empty req.handle F s.db s.world

end endpoints

/-! ### What is read -/

/-- A workflow with its collections. -/
def Database.view? (db : Database) (id : Uuid) : Option WorkflowView :=
  (db.workflow? id).map fun w => ⟨w, db.agentRunsOf id, db.approvalsOf id⟩

/-- The record in the tables. -/
def LibraryState.shown (s : LibraryState V) : Resource → Option (WorkflowView ⊕ Document)
  | .workflow id => (s.db.view? id).map .inl
  | .document id => (Table.lookup Document.id id s.db.documents).map .inr

/-- What a record that is not there is answered with. -/
def Resource.missing : Resource → Exn
  | workflow id => .new .notFound s!"Workflow {id.str} not found." []
  | document id => .new .notFound s!"Document {id.str} not found." []

/-- What a request that reads is answered with. -/
def ReadRequest.reply (req : ReadRequest) (s : LibraryState V) : Except Exn (WorkflowView ⊕ Document) :=
  if req.resource.permission.value ∈ permissionsForRoles req.claims.roles then
    match s.shown req.resource with
    | none => .error req.resource.missing
    | some result => .ok result
  else .error (missingPermission req.resource.permission)

namespace ReadRequest

variable (req : ReadRequest) (s : LibraryState V)

theorem faithful_handle : Faithful (req.handle : LibrarySession V (WorkflowView ⊕ Document)) := by
  have hpermission : ∀ permissions, Faithful (requirePermissions permissions (.fromClaims req.claims)) :=
    fun permissions => .ofExcept _
  unfold handle
  cases req.resource with
  | workflow id =>
    refine Faithful.bind (Faithful.zoom ?_) fun view => faithful_rule.pure _
    exact (hpermission _).bind fun _ => WorkflowService.reload_rule faithful_rule id
  | document id =>
    refine Faithful.bind ?_ fun document => faithful_rule.pure _
    refine (Faithful.zoom (hpermission _)).bind fun _ => Faithful.roundTrip.bind fun _ =>
      faithful_rule.get.bind fun t => ?_
    split
    · exact faithful_rule.raise _
    · exact faithful_rule.pure _

theorem leaves_handle : Leaves (fun t : Session (Library V) _ _ => (t.db, t.world)) req.handle := by
  have hinLibrary : ∀ {α : Type} {m : WorkflowSession α},
      Leaves (fun t : Session Database _ World => (t.db, t.world)) m →
        Leaves (fun t : Session (Library V) _ _ => (t.db, t.world)) (inLibrary m : LibrarySession V α) := by
    intro α m hm F t
    have h := hm F ⟨t.db.toDatabase, t.memory, t.world.toWorld⟩
    exact Prod.ext (congrArg (fun db => ({ t.db with toDatabase := db } : Library V)) (congrArg Prod.fst h))
      (congrArg (fun world => ({ t.world with toWorld := world } : LibraryWorld V)) (congrArg Prod.snd h))
  have hpermission : ∀ permissions, Leaves (fun t : Session Database _ World => (t.db, t.world))
      (requirePermissions permissions (.fromClaims req.claims)) := by
    intro permissions
    unfold requirePermissions
    cases (Principal.fromClaims req.claims).require permissions with
    | ok u => exact .pure _
    | error e => exact .raise _
  unfold handle
  cases req.resource with
  | workflow id =>
    refine Leaves.bind (hinLibrary ?_) fun view => .pure _
    exact (hpermission _).bind fun _ => WorkflowService.reload_leaves (fun _ _ => rfl) id
  | document id =>
    refine Leaves.bind ?_ fun document => .pure _
    refine (hinLibrary (hpermission _)).bind fun _ => Leaves.roundTrip.bind fun _ => Leaves.get.bind fun t => ?_
    split
    · exact .raise _
    · exact .pure _

theorem serve_refused (hperm : req.resource.permission.value ∉ permissionsForRoles req.claims.roles) :
    (req.serve s .none).1 = .error (missingPermission req.resource.permission) := by
  have hreq : (Principal.fromClaims req.claims).require [req.resource.permission.value] =
      .error (missingPermission req.resource.permission) := require_of_missing hperm
  have hrun : req.handle .none ⟨s.db, .empty, s.world⟩ =
      (.error (missingPermission req.resource.permission), .none, ⟨s.db, .empty, s.world⟩) := by
    unfold handle
    cases hres : req.resource with
    | workflow id =>
      rw [hres] at hreq
      unfold getWorkflow requirePermissions
      exact congrArg (fun r => (inLibrary (SessionM.ofExcept r >>= fun _ => WorkflowService.get id) >>= fun view =>
        pure (.inl view) : LibrarySession V (WorkflowView ⊕ Document)) .none ⟨s.db, .empty, s.world⟩) hreq
    | document id =>
      rw [hres] at hreq
      unfold getDocument requirePermissions
      exact congrArg (fun r => ((inLibrary (SessionM.ofExcept r) >>= fun _ => _) >>= fun document =>
        pure (.inr document) : LibrarySession V (WorkflowView ⊕ Document)) .none ⟨s.db, .empty, s.world⟩) hreq
  unfold serve
  rw [transact_of_error hrun]

theorem serve_workflow {claims : Claims} {id : Uuid}
    (hreq : (Principal.fromClaims claims).require [Permission.workflowRead.value] = .ok ()) :
    (serve ⟨claims, .workflow id⟩ s .none).1 =
      match (s.db.view? id).map Sum.inl with
      | none => .error (Resource.workflow id).missing
      | some result => .ok result := by
  have hget : getWorkflow (.fromClaims claims) id = WorkflowService.get id := by
    unfold getWorkflow requirePermissions
    exact congrArg (fun r => SessionM.ofExcept r >>= fun _ => WorkflowService.get id) hreq
  unfold serve handle
  dsimp only
  rw [hget, transact_map, transact_inLibrary]
  cases hw : s.db.workflow? id with
  | none =>
    have hload : WorkflowService.get id .none ⟨s.db.toDatabase, .empty, s.world.toWorld⟩ =
        (.error (Resource.workflow id).missing, .none, ⟨s.db.toDatabase, .empty, s.world.toWorld⟩) := by
      simp only [WorkflowService.get, WorkflowService.reload, bind_run, roundTrip_run_none, get_run, hw, raise_run]
      rfl
    rw [transact_of_error hload, Database.view?, hw]
    rfl
  | some w =>
    obtain rfl : w.id = id := (Table.lookup_eq_some hw).2
    rw [get_fresh hw, Database.view?, hw]
    rfl

theorem serve_document {claims : Claims} {id : Uuid}
    (hreq : (Principal.fromClaims claims).require [Permission.documentRead.value] = .ok ()) :
    (serve ⟨claims, .document id⟩ s .none).1 =
      match (Table.lookup Document.id id s.db.documents).map Sum.inr with
      | none => .error (Resource.document id).missing
      | some result => .ok result := by
  have hget : (getDocument (.fromClaims claims) id : LibrarySession V Document) =
      (.roundTrip >>= fun _ => .get >>= fun t =>
        match Table.lookup Document.id id t.db.documents with
        | none => .raise (.new .notFound s!"Document {id.str} not found." [])
        | some document => pure document) := by
    unfold getDocument requirePermissions
    exact congrArg (fun r => inLibrary (SessionM.ofExcept r) >>= fun _ => _) hreq
  unfold serve handle
  dsimp only
  rw [transact_map]
  cases hd : Table.lookup Document.id id s.db.documents with
  | none =>
    have hload : getDocument (.fromClaims claims) id .none ⟨s.db, .empty, s.world⟩ =
        (.error (Resource.document id).missing, .none, ⟨s.db, .empty, s.world⟩) := by
      rw [hget]
      simp only [bind_run, roundTrip_run_none, get_run, hd, raise_run]
      rfl
    rw [transact_of_error hload]
    rfl
  | some document =>
    have hload : getDocument (.fromClaims claims) id .none ⟨s.db, .empty, s.world⟩ =
        (.ok document, .none, ⟨s.db, .empty, s.world⟩) := by
      rw [hget]
      simp only [bind_run, roundTrip_run_none, get_run, hd]
      rfl
    rw [transact_of_ok hload]
    rfl

theorem serve_none : (req.serve s .none).1 = req.reply s := by
  unfold reply
  split
  case isFalse hperm => exact req.serve_refused s hperm
  case isTrue hperm =>
    have hreq : (Principal.fromClaims req.claims).require [req.resource.permission.value] = .ok () :=
      Principal.require_eq_ok.2 (List.forall_mem_singleton.2 hperm)
    obtain ⟨claims, resource⟩ := req
    cases resource with
    | workflow id => exact serve_workflow s hreq
    | document id => exact serve_document s hreq

/-- A request that reads is answered from the tables, or the database failed; it changes nothing. -/
theorem serve_eq (F : Faults Exn) : (req.serve s F).2 = (s.db, s.world) ∧
    ((req.serve s F).1 = req.reply s ∨ ∃ k e, F k = some e ∧ (req.serve s F).1 = .error e) := by
  refine ⟨transact_leaves req.leaves_handle, ?_⟩
  have hserve : req.serve s F = req.serve s .none ∨ ∃ k e, F k = some e ∧ (req.serve s F).1 = .error e :=
    transact_faithful req.faithful_handle
  rcases hserve with h | h
  · exact .inl ((congrArg Prod.fst h).trans (req.serve_none s))
  · exact .inr h

end ReadRequest

/-! ### What a request tells -/

def Resource.of : WorkflowView ⊕ Document → Resource
  | .inl view => workflow view.workflow.id
  | .inr row => document row.id

/-- The row that a decision adds to the approvals: none is pending once the workflow is escalated. -/
def HttpRequest.addedRow? (req : HttpRequest) (s : LibraryState V) : Option Approval :=
  match req.operation with
  | .workflow claims (.decide verdict workflowId payload) => do
    let user ← Uuid.ofStr? claims.sub
    let w ← s.db.workflow? workflowId
    if w.status = .escalated then
      some (newApproval workflowId (.ofVerdict verdict user payload.reason (some req.requestId)) ⟨s.world.nextUuid⟩)
    else none
  | _ => none

/-- What is read after a request that found the state `s`: what it returned, with the row that it added. -/
def HttpRequest.readBack (req : HttpRequest) (s : LibraryState V) : WorkflowView ⊕ Document → WorkflowView ⊕ Document
  | .inl view => .inl { view with approvals := view.approvals ++ (req.addedRow? s).toList }
  | .inr document => .inr document

/-- What a step tells: a request that succeeds tells what is read of the record it returns. -/
def toldRecord (t : Transition (LibraryState V) (HttpRequest × Faults Exn) (Except Exn (WorkflowView ⊕ Document))) :
    Option (Resource × (WorkflowView ⊕ Document)) :=
  match t.output with
  | .ok result => some (.of result, t.input.1.readBack t.pre result)
  | .error _ => none

section told

variable {t : Transition (LibraryState V) (HttpRequest × Faults Exn) (Except Exn (WorkflowView ⊕ Document))}

theorem toldRecord_of_ok {result : WorkflowView ⊕ Document} (h : t.output = .ok result) :
    toldRecord t = some (.of result, t.input.1.readBack t.pre result) := by
  rw [toldRecord, h]

theorem toldRecord_of_error {e : Exn} (h : t.output = .error e) : toldRecord t = none := by
  rw [toldRecord, h]

end told

theorem LibraryState.shown_congr {s s' : LibraryState V} (h : s'.db = s.db) (r : Resource) : s'.shown r = s.shown r := by
  cases r <;> simp only [shown, h]

theorem Database.view?_congr {db db' : Database} {id : Uuid} (hw : db'.workflow? id = db.workflow? id)
    (hruns : db'.agentRunsOf id = db.agentRunsOf id) (happrovals : db'.approvalsOf id = db.approvalsOf id) :
    db'.view? id = db.view? id := by
  rw [view?, view?, hw, hruns, happrovals]

/-- A decided workflow is read as it was returned, with the row that was added if it was escalated. -/
theorem view?_decideDb {svc : WorkflowService} {s : Committed} (h : Consistent svc s)
    (hruns : (s.db.agentRuns.map AgentRun.id).Nodup) {w : Workflow} (hw : s.db.workflow? w.id = some w)
    (hst : w.status ∈ decidable) (verdict : Verdict) (user : Uuid) (reason requestId : Option String) :
    let args := DecideArgs.ofVerdict verdict user reason requestId
    let view := decideView svc w args s.world.nextUuid s.db
    (decideDb svc w args s.world.nextUuid s.db).view? w.id = some { view with
      approvals := view.approvals ++
        if w.status = .escalated then [newApproval w.id args ⟨s.world.nextUuid⟩] else [] } := by
  intro args view
  have hids' := (@consistent_decide _ s h w _ s.world.calls hw hst le_rfl verdict user reason
    requestId).approvalIds
  obtain ⟨c, hc⟩ := h.represents w.id w hw
  have hagentRuns : view.agentRuns = s.db.agentRunsOf w.id := by
    show List.filterMap (Table.lookup AgentRun.id · (DecideWrites.apply _ _ _ _).agentRuns) _ = _
    rw [agentRuns_apply]
    exact Table.filterMap_lookup hruns fun r hr => List.mem_of_mem_filter hr
  have hview : (decideDb svc w args s.world.nextUuid s.db).view? w.id =
      some { view with approvals := (decideDb svc w args s.world.nextUuid s.db).approvalsOf w.id } := by
    rw [Database.view?, workflow?_decideDb _ _ _ hw, if_pos rfl, agentRunsOf_decideDb, ← hagentRuns]
    rfl
  rw [hview]
  rcases Case.open_iff.1 (status_decidable.1 (hc.status ▸ hst)) with hstate | hstate
  · -- the pending row was loaded, and is returned decided
    have hne : w.status ≠ .escalated := by rw [hc.status, hstate]; decide
    rw [if_neg hne, List.append_nil, ← approvals_decideView_pending hc h.approvalIds hids' hstate]
  · have hescalated : w.status = .escalated := by rw [hc.status, hstate]; rfl
    obtain ⟨happrovals, hrows⟩ := approvals_decideView_decided hc h.approvalIds hids' (by rw [hstate]; decide)
    rw [if_pos hescalated, hrows, ← happrovals]

namespace HttpRequest

variable {p : Platform V T σ} {svc : DocumentService V S} {s s' : LibraryState V} {req : HttpRequest}
  {user : Uuid} {result : WorkflowView ⊕ Document}

theorem readBack_of_none (h : req.addedRow? s = none) (result : WorkflowView ⊕ Document) :
    req.readBack s result = result := by
  cases result with
  | inl view =>
    rw [readBack, h]
    exact congrArg (fun approvals => Sum.inl { view with approvals }) (List.append_nil _)
  | inr document => rfl

theorem addedRow?_decide {claims : Claims} {verdict : Verdict} {payload : ApprovalDecisionRequest} {w : Workflow}
    (hop : req.operation = .workflow claims (.decide verdict w.id payload))
    (huser : Uuid.ofStr? req.operation.claims.sub = some user) (hw : s.db.workflow? w.id = some w) :
    (req.addedRow? s).toList =
      if w.status = .escalated then
        [newApproval w.id (.ofVerdict verdict user payload.reason (some req.requestId)) ⟨s.world.nextUuid⟩]
      else [] := by
  have huser : Uuid.ofStr? claims.sub = some user := by rw [hop] at huser; exact huser
  rw [addedRow?, hop]
  dsimp only
  rw [huser, Option.bind_eq_bind, Option.bind_some, hw, Option.bind_eq_bind, Option.bind_some]
  split <;> rfl

/-- What a request that succeeds returns is read back with the row it added, and any other record as
before. -/
theorem Commits.shown (hsound : s.Sound p svc) (hallowed : req.operation.Allowed user)
    (hcommits : req.Commits p svc s user result s') :
    s'.shown (.of result) = some (req.readBack s result) ∧ ∀ r, r ≠ .of result → s'.shown r = s.shown r := by
  have huser := hallowed.user
  have hdb : s.db.DrawnBefore s.world.nextUuid := hsound.consistent.drawn
  cases hcommits with
  | @start claims payload n' calls' hop hn hdrawn =>
    refine ⟨?_, fun r hr => ?_⟩
    · rw [readBack_of_none (by rw [addedRow?, hop])]
      show (Database.view? (startDb ..) ⟨s.world.nextUuid⟩).map Sum.inl = _
      rw [Database.view?, workflow?_startDb _ _ _ _ _ hdb]
      rfl
    · cases r with
      | workflow id =>
        have hne : id ≠ ⟨s.world.nextUuid⟩ := fun heq => hr (congrArg Resource.workflow heq)
        refine congrArg (Option.map Sum.inl) (Database.view?_congr (workflow?_startDb_of_ne hne)
          (agentRunsOf_startDb_of_ne hne) ?_)
        exact approvalsOf_startDb.trans (by rw [if_neg hne, List.append_nil])
      | document id => rfl
  | @decide claims verdict payload w args n' hop hargs hw hst hn =>
    subst hargs
    refine ⟨?_, fun r hr => ?_⟩
    · rw [readBack, addedRow?_decide hop huser hw]
      exact congrArg (Option.map Sum.inl) (view?_decideDb hsound.consistent hsound.agentRunsDrawn.nodup hw hst
        verdict user payload.reason (some req.requestId))
    · cases r with
      | workflow id =>
        have hne : id ≠ w.id := fun heq => hr (congrArg Resource.workflow heq)
        refine congrArg (Option.map Sum.inl) (Database.view?_congr ?_ agentRunsOf_decideDb ?_)
        · exact (workflow?_decideDb _ _ _ hw id).trans (if_neg hne)
        · exact (approvalsOf_decideDb hsound.consistent.approvalIds).trans (if_neg hne)
      | document id => rfl
  | @upload r files hop hid hput =>
    have hdocuments := hsound.documents_uploadDb r user
    have hfresh : ∀ d ∈ s.db.documents, d.id ≠ ⟨s.world.nextUuid⟩ := fun d hd => hsound.documentsDrawn.ne le_rfl hd
    refine ⟨?_, fun r' hr => ?_⟩
    · show (Table.lookup Document.id ⟨s.world.nextUuid⟩ (uploadDb ..).documents).map Sum.inr = _
      rw [hdocuments, Table.lookup_append hfresh]
      rw [Table.lookup, List.find?_cons_of_pos (by exact decide_eq_true rfl)]
      rfl
    · cases r' with
      | workflow id => rfl
      | document id =>
        have hne : (committedRow svc r user s.world.nextUuid).id ≠ id := fun heq =>
          hr (congrArg Resource.document heq.symm)
        refine congrArg (Option.map Sum.inr) ?_
        rw [hdocuments, Table.lookup_concat_of_ne hne]

end HttpRequest

/-! ### Runs -/

/-- After any run of the API, one request at a time, a request that reads is answered with what was last
returned of the record by a request that succeeded, with the row of the approvals that the request added
if it was a decision on an escalated workflow; or that the record is not found if no request returned it.
Who may not read is refused, a failure of the database is the only other answer, and reading changes
nothing. -/
theorem reads_last (p : Platform V S σ) (svc : DocumentService V S) (files : FileSystem)
    (is : List (HttpRequest × Faults Exn)) (req : ReadRequest) (F : Faults Exn) :
    let m := requestMachine p svc
    let s := m.run (.start files) is
    (req.serve s F).2 = (s.db, s.world) ∧
      ((∃ k e, F k = some e ∧ (req.serve s F).1 = .error e) ∨
        (req.serve s F).1 =
          if req.resource.permission.value ∈ permissionsForRoles req.claims.roles then
            match (Machine.told toldRecord (m.trace (.start files) is)).get? req.resource with
            | none => .error req.resource.missing
            | some record => .ok record
          else .error (missingPermission req.resource.permission)) := by
  intro m s
  have hshown : s.shown req.resource = (Machine.told toldRecord (m.trace (.start files) is)).get? req.resource := by
    refine Machine.run_told (I := LibraryState.Sound p svc) (H := fun s r o => s.shown r = o)
      (fun _ i h => h.step i) (fun s i h hnone r o ho => ?_) (fun s i h r v hsome => ?_)
      (LibraryState.Sound.start_files p svc files) (fun r => ?_) is req.resource
    · rcases HttpRequest.step_cases (p.over svc s.world.vectors) svc h.consistent.drawn i with
        ⟨e, -, hdb⟩ | ⟨user, result, hr, -, -⟩
      · exact (LibraryState.shown_congr hdb r).trans ho
      · rw [show toldRecord (m.fire s i) = some (.of result, i.1.readBack s result) from toldRecord_of_ok hr] at hnone
        cases hnone
    · rcases HttpRequest.step_cases (p.over svc s.world.vectors) svc h.consistent.drawn i with
        ⟨e, hr, -⟩ | ⟨user, result, hr, hallowed, hcommits⟩
      · rw [show toldRecord (m.fire s i) = none from toldRecord_of_error hr] at hsome
        cases hsome
      · rw [show toldRecord (m.fire s i) = some (.of result, i.1.readBack s result) from toldRecord_of_ok hr] at hsome
        obtain ⟨rfl, rfl⟩ := Prod.mk.inj (Option.some.inj hsome)
        obtain ⟨hnew, hold⟩ := hcommits.shown (h.platform (p.over svc s.world.vectors)) hallowed
        exact ⟨hnew, fun k o hk ho => (hold k hk).trans ho⟩
    · cases r <;> rfl
  obtain ⟨hsame, hreply⟩ := req.serve_eq s F
  refine ⟨hsame, ?_⟩
  rcases hreply with hreply | hfault
  · rw [hreply, ReadRequest.reply, hshown]
    exact .inr rfl
  · exact .inl hfault

end BankingAi
