import BankingAi.Api.DocumentIndex
import BankingAi.Api.Middleware
import BankingAi.Lib.Fallible

/-!
# Runs of the API

Requests to the workflow and document endpoints come in any order and are served one after another by
one process, each in a transaction of its own that may fail at any round trip to the database. Requests
that overlap on one workflow are the matter of `Services.DecideRace`. A request to a workflow endpoint is a step of the
workflow machine on its part of the state, an upload one of the upload machine. A request that
succeeds is one of three commits (`Commits`), made by a user who may make it; any other one leaves
the tables as they are.
-/

namespace BankingAi

open Posix Review SessionM

variable {V S T σ : Type}

/-- The workflow tables and the draws of a state. -/
def LibraryState.part (s : LibraryState V) : Committed := ⟨s.db.toDatabase, s.world.toWorld⟩

/-- A state with other workflow tables and draws. -/
def LibraryState.withPart (s : LibraryState V) (c : Committed) : LibraryState V where
  db := { s.db with toDatabase := c.db }
  world := { s.world with toWorld := c.world }

theorem transact_inLibrary {α : Type} (m : WorkflowSession α) (F : Faults Exn) (s : LibraryState V) :
    transact .empty (inLibrary m) F s.db s.world =
      let r := transact .empty m F s.db.toDatabase s.world.toWorld
      (r.1, (s.withPart ⟨r.2.1, r.2.2⟩).db, (s.withPart ⟨r.2.1, r.2.2⟩).world) := by
  match hm : m F ⟨s.db.toDatabase, .empty, s.world.toWorld⟩ with
  | (.error e, F', t) =>
    have hzoom : (inLibrary m : LibrarySession V α) F ⟨s.db, .empty, s.world⟩ =
        (.error e, F', (workflowPart V).put t ⟨s.db, .empty, s.world⟩) := by
      unfold inLibrary SessionM.zoom
      rw [show (workflowPart V).get ⟨s.db, .empty, s.world⟩ = ⟨s.db.toDatabase, .empty, s.world.toWorld⟩ from rfl, hm]
    rw [transact_of_error hm, transact_of_error hzoom]
    rfl
  | (.ok a, F', t) =>
    have hzoom : (inLibrary m : LibrarySession V α) F ⟨s.db, .empty, s.world⟩ =
        (.ok a, F', (workflowPart V).put t ⟨s.db, .empty, s.world⟩) := zoom_of_ok hm
    unfold transact
    rw [bind_of_ok hm, bind_of_ok hzoom]
    -- the commit of either fails with the next round trip
    cases hF : F' 0 with
    | some e =>
      have hfail : ∀ {δ μ ω : Type} (u : Session δ μ ω),
          (roundTrip : SessionM δ μ ω Exn Unit) F' u = (.error e, F'.tail, u) := fun u => by
        rw [roundTrip, hF]
      rw [bind_of_error (hfail _), bind_of_error (hfail _)]
      rfl
    | none =>
      have hpass : ∀ {δ μ ω : Type} (u : Session δ μ ω),
          (roundTrip : SessionM δ μ ω Exn Unit) F' u = (.ok (), F'.tail, u) := fun u => by
        rw [roundTrip, hF]
      rw [bind_of_ok (hpass _), bind_of_ok (hpass _)]
      rfl

namespace Operation

def claims : Operation → Claims
  | workflow claims _ => claims
  | upload claims .. => claims

/-- The permission its endpoint is declared with. -/
def permission : Operation → Permission
  | workflow _ call => call.permission
  | upload .. => .documentUpload

/-- The caller may ask for the operation, and is this user. -/
structure Allowed (op : Operation) (user : Uuid) : Prop where
  permission : op.permission.value ∈ permissionsForRoles op.claims.roles
  user : Uuid.ofStr? op.claims.sub = some user

end Operation

/-- One request, in its own transaction: what it returns or raises, and the state it leaves. -/
def serveStep (p : Platform V T σ) (svc : DocumentService V S) (s : LibraryState V) (i : HttpRequest × Faults Exn) :
    Except Exn (WorkflowView ⊕ Document) × LibraryState V :=
  let r := i.1.serve p svc s i.2
  (r.1, ⟨r.2.1, r.2.2⟩)

namespace HttpRequest

variable {p : Platform V T σ} {svc : DocumentService V S} {s : LibraryState V} {req : HttpRequest}
  {F : Faults Exn}

theorem step_workflow {claims : Claims} {call : WorkflowCall} (hop : req.operation = .workflow claims call) :
    serveStep p svc s (req, F) =
      let r := (apiMachine p.service).step s.part (⟨claims, call, some req.requestId⟩, F)
      (r.1.map .inl, s.withPart r.2) := by
  have hserve : req.serve p svc s F =
      transact .empty (inLibrary (WorkflowRequest.handle p.service ⟨claims, call, some req.requestId⟩) >>=
        fun view => pure (.inl view)) F s.db s.world := by
    unfold serve handle
    rw [hop]
  unfold serveStep apiMachine
  dsimp only
  rw [hserve, transact_map, transact_inLibrary]
  rfl

theorem step_upload {claims : Claims} {filename contentType : Option String} {data : Bytes} {kind : String}
    (hop : req.operation = .upload claims filename contentType data kind) :
    serveStep p svc s (req, F) =
      let r := (uploadMachine svc).step s (req.upload claims filename contentType data kind, F)
      (r.1.map .inr, r.2) := by
  have hserve : req.serve p svc s F =
      transact .empty ((req.upload claims filename contentType data kind).handle svc >>=
        fun document => pure (.inr document)) F s.db s.world := by
    unfold serve handle
    rw [hop]
  unfold serveStep uploadMachine
  dsimp only
  rw [hserve, transact_map]

theorem step_raised {e : Exn} (h : (serveStep p svc s (req, F)).1 = .error e) :
    (serveStep p svc s (req, F)).2.db = s.db :=
  transact_error h

end HttpRequest

/-! ### What a request commits -/

/-- The steps that a start executes in a state. -/
def startedSteps (p : Platform V T σ) (s : LibraryState V) (payload : WorkflowStartRequest) : List Executed :=
  startSteps p.service (planOf payload.workflowType) payload.inputPayload s.world.nextUuid s.world.calls

/-- The workflow that a start leaves. -/
def startedRow (p : Platform V T σ) (s : LibraryState V) (payload : WorkflowStartRequest) (user : Uuid) : Workflow :=
  settledRow (planOf payload.workflowType) (startedSteps p s payload)
    (runningRow (planOf payload.workflowType) payload.workflowType payload.inputPayload (some user)
      ⟨s.world.nextUuid⟩)

def startedDb (p : Platform V T σ) (s : LibraryState V) (payload : WorkflowStartRequest) (user : Uuid)
    (requestId : Option String) : Database :=
  startDb (planOf payload.workflowType) (startedSteps p s payload) p.service payload.workflowType
    payload.inputPayload (some user) requestId s.world.nextUuid s.db.toDatabase

def startedView (p : Platform V T σ) (s : LibraryState V) (payload : WorkflowStartRequest) (user : Uuid)
    (requestId : Option String) : WorkflowView where
  workflow := startedRow p s payload user
  agentRuns := (startedDb p s payload user requestId).agentRunsOf ⟨s.world.nextUuid⟩
  approvals := (startedDb p s payload user requestId).approvalsOf ⟨s.world.nextUuid⟩

/-- The cases of a request that succeeds, for its user: what it returns and the state it commits. -/
inductive HttpRequest.Commits (p : Platform V T σ) (svc : DocumentService V S) (s : LibraryState V)
    (req : HttpRequest) (user : Uuid) : WorkflowView ⊕ Document → LibraryState V → Prop
  | start {claims : Claims} {payload : WorkflowStartRequest} {n' : ℕ} {calls' : List ExecutorCall}
      (hop : req.operation = .workflow claims (.start payload)) (hn : s.world.nextUuid < n')
      (hdrawn : (startedDb p s payload user (some req.requestId)).DrawnBefore n') :
      Commits p svc s req user (.inl (startedView p s payload user (some req.requestId)))
        (s.withPart ⟨startedDb p s payload user (some req.requestId), n', calls'⟩)
  | decide {claims : Claims} {verdict : Verdict} {payload : ApprovalDecisionRequest} {w : Workflow}
      {args : DecideArgs} {n' : ℕ} (hop : req.operation = .workflow claims (.decide verdict w.id payload))
      (hargs : args = .ofVerdict verdict user payload.reason (some req.requestId))
      (hw : s.db.workflow? w.id = some w) (hst : w.status ∈ decidable)
      (hn : s.world.nextUuid + 1 + p.service.auditDraws ≤ n') :
      Commits p svc s req user (.inl (decideView p.service w args s.world.nextUuid s.db.toDatabase))
        (s.withPart ⟨decideDb p.service w args s.world.nextUuid s.db.toDatabase, n', s.world.calls⟩)
  | upload {r : UploadRequest} {files : FileSystem}
      (hop : req.operation = .upload r.claims r.filename r.contentType r.data r.kind)
      (hid : r.requestId = some req.requestId)
      (hput : ∃ key, svc.storage.put s.world.files (uploadKey svc r) r.data = (.ok key, files)) :
      Commits p svc s req user (.inr (committedRow svc r user s.world.nextUuid))
        ⟨uploadDb svc r user s.world.nextUuid s.db, (indexedWorld svc r user { s.world with files }).drawn 1⟩

namespace HttpRequest

variable {p : Platform V T σ} {svc : DocumentService V S} {s : LibraryState V} {req : HttpRequest}
  {F : Faults Exn} {result : WorkflowView ⊕ Document}

theorem op?_of_ok {req : WorkflowRequest} {c : Committed} {view : WorkflowView}
    (h : ((apiMachine p.service).step c (req, F)).1 = .ok view) :
    ∃ user, req.call.permission.value ∈ permissionsForRoles req.claims.roles ∧
      Uuid.ofStr? req.claims.sub = some user ∧ req.op? = some (req.call.op user req.requestId) := by
  cases hop : req.op? with
  | none =>
    obtain ⟨e, he⟩ : ∃ e, req.handle p.service = .raise e := WorkflowRequest.handle_of_none hop
    have hraised : transact .empty (req.handle p.service) F c.db c.world = (.error e, c.db, c.world) := by
      rw [he]
      exact transact_of_error (raise_run F _ e)
    have h : (transact .empty (req.handle p.service) F c.db c.world).1 = .ok view := h
    rw [hraised] at h
    cases h
  | some op =>
    obtain ⟨hperm, user, huser, rfl⟩ := WorkflowRequest.op?_eq_some hop
    exact ⟨user, hperm, huser, rfl⟩

theorem commits_start {payload : WorkflowStartRequest} {claims : Claims} {user : Uuid} {view : WorkflowView}
    (hop : req.operation = .workflow claims (.start payload)) (hdb : s.db.DrawnBefore s.world.nextUuid)
    (h : ((workflowMachine p.service).step s.part
      ((WorkflowCall.start payload).op user (some req.requestId), F)).1 = .ok view) :
    req.Commits p svc s user (.inl view) (s.withPart ((workflowMachine p.service).next s.part
      ((WorkflowCall.start payload).op user (some req.requestId), F))) := by
  obtain ⟨t, hrun, heq⟩ := transact_ok (body_robust p.service _) h
  obtain ⟨n', hn, hdrawn, hok⟩ := transact_start p.service payload.workflowType payload.inputPayload (some user)
    (some req.requestId) s.world.calls (p.service_plan ⟨payload.workflowType, payload.inputPayload⟩) hdb
  have hsame := (transact_of_ok hrun).symm.trans hok
  have hview : view = _ := Except.ok.inj (congrArg Prod.fst hsame)
  have hnext : (workflowMachine p.service).next s.part
      ((WorkflowCall.start payload).op user (some req.requestId), F) = ⟨_, n', _⟩ :=
    congrArg (fun r : Database × World => Committed.mk r.1 r.2) (heq.trans (congrArg Prod.snd hsame))
  rw [hnext, hview]
  exact .start hop hn hdrawn

theorem commits_decide {verdict : Verdict} {workflowId : Uuid} {payload : ApprovalDecisionRequest}
    {claims : Claims} {user : Uuid} {view : WorkflowView}
    (hop : req.operation = .workflow claims (.decide verdict workflowId payload))
    (h : ((workflowMachine p.service).step s.part
      ((WorkflowCall.decide verdict workflowId payload).op user (some req.requestId), F)).1 = .ok view) :
    req.Commits p svc s user (.inl view) (s.withPart ((workflowMachine p.service).next s.part
      ((WorkflowCall.decide verdict workflowId payload).op user (some req.requestId), F))) := by
  obtain ⟨w, n', hw, rfl, hst, hn, hview, heq⟩ := transact_decide_ok p.service _ _ _
    (by rw [← body_decide]; exact h)
  rw [← body_decide] at heq
  have hnext : (workflowMachine p.service).next s.part
      ((WorkflowCall.decide verdict w.id payload).op user (some req.requestId), F) = ⟨_, n', _⟩ :=
    congrArg (fun r : Database × World => Committed.mk r.1 r.2) heq
  rw [hnext, hview]
  exact .decide hop rfl hw hst hn

theorem commits_upload {claims : Claims} {filename contentType : Option String} {data : Bytes} {kind : String}
    {document : Document} (hop : req.operation = .upload claims filename contentType data kind)
    (h : ((uploadMachine svc).step s (req.upload claims filename contentType data kind, F)).1 = .ok document) :
    ∃ user, req.operation.Allowed user ∧ req.Commits p svc s user (.inr document)
      ((uploadMachine svc).next s (req.upload claims filename contentType data kind, F)) := by
  set r := req.upload claims filename contentType data kind
  have h : (transact .empty (r.handle svc) F s.db s.world).1 = .ok document := h
  by_cases hstored : ∃ user files, Stored svc s r user files
  case neg =>
    obtain ⟨e, F', w, hrun, -⟩ := handle_of_refused svc r s.db s.world F
      fun user files key haccepted hput => hstored ⟨user, files, haccepted, key, hput⟩
    rw [transact_of_error hrun] at h
    cases h
  obtain ⟨user, files, haccepted, key, hput⟩ := hstored
  have hallowed : req.operation.Allowed user := by
    rw [hop]
    exact ⟨haccepted.permission, haccepted.user⟩
  refine ⟨user, hallowed, ?_⟩
  have hbody := commit_of_stored haccepted s.db .empty hput F
  by_cases hfault : ∃ j < r.contents.length + 1, F j ≠ none
  case pos =>
    obtain ⟨e, F', t, hrun, -⟩ := uploadBody_early svc user s.db .empty { s.world with files } hfault
    unfold transact at h
    rw [hbody.trans hrun] at h
    cases h
  have hnone : ∀ j < r.contents.length + 1, F j = none := fun j hj =>
    by_contra fun hne => hfault ⟨j, hj, hne⟩
  rw [uploadBody_of_none hnone] at hbody
  match hrun : concludeUpload (.fromClaims r.claims) user r.requestId r.contents
      (DocumentService.documentRow (r.args user) (uploadKey svc r) ⟨s.world.nextUuid⟩)
      (F.drop (r.contents.length + 1))
      ⟨withRows svc (r.args user) (uploadKey svc r) r.contents s.world.nextUuid s.db, .empty,
        indexedWorld svc r user { s.world with files }⟩ with
  | (.error e, F', t) =>
    unfold transact at h
    rw [hbody.trans hrun] at h
    cases h
  | (.ok document', F', t) =>
    have hnext := next_of_ok (i := (r, F)) (hbody.trans hrun)
    unfold transact at h
    rw [hbody.trans hrun] at h
    obtain rfl := Except.ok.inj h
    -- it does what it does without faults
    have hconclude := robust_concludeUpload _ _ _ _ _ hrun
    rw [concludeUpload_run] at hconclude
    injection hconclude with hdocument hs
    injection hs with _ hs
    rw [hnext, ← hs, ← Except.ok.inj hdocument]
    exact .upload (r := r) hop rfl ⟨key, hput⟩

theorem commits_of_ok (hdb : s.db.DrawnBefore s.world.nextUuid)
    (h : (serveStep p svc s (req, F)).1 = .ok result) :
    ∃ user, req.operation.Allowed user ∧
      req.Commits p svc s user result (serveStep p svc s (req, F)).2 := by
  cases hop : req.operation with
  | workflow claims call =>
    rw [step_workflow hop] at h ⊢
    obtain ⟨view, hview, rfl⟩ := except_map_eq_ok.1 h
    obtain ⟨user, hperm, huser, hop?⟩ := op?_of_ok hview
    refine ⟨user, ⟨hperm, huser⟩, ?_⟩
    rw [api_step hop?] at hview ⊢
    cases call with
    | start payload => exact commits_start hop hdb hview
    | decide verdict workflowId payload => exact commits_decide hop hview
  | upload claims filename contentType data kind =>
    rw [step_upload hop] at h ⊢
    obtain ⟨document, hdocument, rfl⟩ := except_map_eq_ok.1 h
    obtain ⟨user, hallowed, hcommits⟩ := commits_upload hop hdocument
    rw [hop] at hallowed
    exact ⟨user, hallowed, hcommits⟩

theorem step_cases (p : Platform V T σ) (svc : DocumentService V S) (hdb : s.db.DrawnBefore s.world.nextUuid)
    (i : HttpRequest × Faults Exn) :
    (∃ e, (serveStep p svc s i).1 = .error e ∧ (serveStep p svc s i).2.db = s.db) ∨
      ∃ user result, (serveStep p svc s i).1 = .ok result ∧ i.1.operation.Allowed user ∧
        i.1.Commits p svc s user result (serveStep p svc s i).2 := by
  cases hr : (serveStep p svc s i).1 with
  | error e => exact .inl ⟨e, rfl, step_raised hr⟩
  | ok result =>
    obtain ⟨user, hallowed, hcommits⟩ := commits_of_ok hdb hr
    exact .inr ⟨user, result, rfl, hallowed, hcommits⟩

end HttpRequest

/-! ### The workflow tables along a run -/

section upload

variable {svc : WorkflowService} {documents : DocumentService V S} {s : LibraryState V} {req : UploadRequest}
  {user : Uuid}

theorem auditOf_uploadDb (n : ℕ) (id : Uuid) :
    (uploadDb documents req user n s.db).auditOf id = s.db.auditOf id := by
  unfold Database.auditOf
  show List.filter _ (s.db.auditLogs ++ [uploadEntry req user _ _]) = _
  rw [List.filter_append, List.filter_cons_of_neg, List.filter_nil, List.append_nil]
  simp [uploadEntry]

theorem consistent_upload (h : Consistent svc s.part) {world : World}
    (hn : s.world.nextUuid + (1 + 2 * req.contents.length) < world.nextUuid) :
    Consistent svc ⟨(uploadDb documents req user s.world.nextUuid s.db).toDatabase, world⟩ where
  drawn :=
    have hdrawn := h.drawn.mono (m := world.nextUuid) (by show s.world.nextUuid ≤ _; omega)
    { workflows := hdrawn.workflows
      agentRuns := hdrawn.agentRuns
      approvals := hdrawn.approvals
      auditLogs := fun e he => by
        rcases List.mem_append.1 he with he | he
        · exact hdrawn.auditLogs e he
        · rw [List.mem_singleton.1 he]
          exact ⟨hn, ⟨s.world.nextUuid⟩, by show s.world.nextUuid < world.nextUuid; omega, rfl⟩ }
  workflowIds := h.workflowIds
  approvalIds := h.approvalIds
  owned := h.owned
  represents id w hw := by
    obtain ⟨c, hc⟩ := h.represents id w hw
    exact ⟨c, hc.frame rfl rfl (auditOf_uploadDb _ _)⟩

end upload

/-! ### Draws -/

/-- Ids are drawn, whatever else happens. -/
def LibraryWorld.DrawsOn (w w' : LibraryWorld V) : Prop := w.nextUuid ≤ w'.nextUuid

instance : Std.Refl (LibraryWorld.DrawsOn (V := V)) := ⟨fun _ => le_rfl⟩

instance : IsTrans (LibraryWorld V) LibraryWorld.DrawsOn := ⟨fun _ _ _ h h' => le_trans (α := ℕ) h h'⟩

theorem LibraryWorld.Later.drawsOn {w w' : LibraryWorld V} (h : w.Later w') : w.DrawsOn w' := h.nextUuid

theorem drawsOn_inLibrary {α : Type} {m : WorkflowSession α} (hm : Keeps World.Later m) :
    Keeps LibraryWorld.DrawsOn (inLibrary m : LibrarySession V α) :=
  fun F s => (keeps_inLibrary hm F s).drawsOn

/-- What an upload keeps, if its effects on the world do: the file, the vectors, and the draws. -/
theorem keeps_upload {R : LibraryWorld V → LibraryWorld V → Prop} [Std.Refl R] [IsTrans (LibraryWorld V) R]
    (svc : DocumentService V S) (req : UploadRequest)
    (hput : Keeps R (svc.putObject (uploadKey svc req) req.data : LibrarySession V _))
    (hvectors : ∀ (w : LibraryWorld V) (vectors : VectorStore V), R w { w with vectors })
    (hlater : ∀ {α : Type} {m : WorkflowSession α}, Keeps World.Later m →
      Keeps R (inLibrary m : LibrarySession V α)) : Keeps R (req.handle svc) := by
  have hflush := hlater keeps_flush
  have hcheck : ∀ {α : Type} (r : Except Exn α), Keeps R (.ofExcept r : LibrarySession V α) := fun r => by
    cases r with
    | ok a => exact keeps_rule.pure a
    | error e => exact keeps_rule.raise e
  have hingest : ∀ user, Keeps R (svc.ingest (req.args user)) := by
    intro user
    unfold DocumentService.ingest
    refine hput.bind fun stored => ?_
    cases stored with
    | error failure => exact keeps_rule.raise _
    | ok key =>
      refine (ingestRows_rule keeps_rule (hlater uuid4_later) hflush svc _ _ _).bind fun p =>
        Keeps.bind ?_ fun _ => ingestStatus_rule keeps_rule hflush _ _
      unfold DocumentService.upsertVectors
      split
      · exact keeps_rule.pure _
      · exact .effect fun w => hvectors w _
  have hrecord : ∀ user document,
      Keeps R (recordUpload (.fromClaims req.claims) user req.requestId document : LibrarySession V AuditLog) :=
    fun user document => hlater (record_rule keeps_rule uuid4_later _ _ _ _ _ _ _ _)
  have hpermission : Keeps World.Later (requirePermissions [Permission.documentUpload.value]
      (.fromClaims req.claims)) := by
    unfold requirePermissions
    cases (Principal.fromClaims req.claims).require [Permission.documentUpload.value] with
    | ok u => exact keeps_rule.pure _
    | error e => exact keeps_rule.raise e
  unfold UploadRequest.handle uploadDocument
  refine (hlater hpermission).bind fun _ => ?_
  split
  · exact keeps_rule.raise _
  · exact (hcheck _).bind fun user => (hingest user).bind fun document =>
      (hrecord user document).bind fun _ => keeps_rule.pure _

theorem drawsOn_upload (svc : DocumentService V S) (req : UploadRequest) :
    Keeps LibraryWorld.DrawsOn (req.handle svc) :=
  keeps_upload svc req (.effect fun _ => le_rfl) (fun _ _ => le_rfl) drawsOn_inLibrary

/-! ### Consistency -/

namespace HttpRequest

variable {p : Platform V T σ} {svc : DocumentService V S} {s : LibraryState V} {req : HttpRequest}
  {F : Faults Exn}

theorem next_workflow {claims : Claims} {call : WorkflowCall} (hop : req.operation = .workflow claims call) :
    (serveStep p svc s (req, F)).2 =
      s.withPart ((apiMachine p.service).next s.part (⟨claims, call, some req.requestId⟩, F)) :=
  congrArg Prod.snd (step_workflow hop)

theorem next_upload {claims : Claims} {filename contentType : Option String} {data : Bytes} {kind : String}
    (hop : req.operation = .upload claims filename contentType data kind) :
    (serveStep p svc s (req, F)).2 =
      (uploadMachine svc).next s (req.upload claims filename contentType data kind, F) :=
  congrArg Prod.snd (step_upload hop)

theorem drawsOn_next (i : HttpRequest × Faults Exn) : s.world.DrawsOn (serveStep p svc s i).2.world := by
  obtain ⟨req, F⟩ := i
  cases hop : req.operation with
  | workflow claims call =>
    rw [next_workflow hop]
    show s.part.world.Later ((apiMachine p.service).next s.part _).world
    cases hop? : WorkflowRequest.op? ⟨claims, call, some req.requestId⟩ with
    | none =>
      rw [api_next_of_none hop?]
      exact Std.Refl.refl s.part.world
    | some op =>
      rw [Machine.next, api_step hop?]
      exact transact_keeps (body_later p.service op)
  | upload claims filename contentType data kind =>
    rw [next_upload hop]
    exact transact_keeps (drawsOn_upload svc _)

/-- The workflow tables stay consistent when documents are uploaded in between. -/
theorem consistent_part (h : Consistent p.service s.part) (i : HttpRequest × Faults Exn) :
    Consistent p.service (serveStep p svc s i).2.part := by
  obtain ⟨req, F⟩ := i
  cases hop : req.operation with
  | workflow claims call =>
    rw [next_workflow hop]
    show Consistent p.service ((apiMachine p.service).next s.part _)
    cases hop? : WorkflowRequest.op? ⟨claims, call, some req.requestId⟩ with
    | none => rw [api_next_of_none hop?]; exact h
    | some op =>
      rw [Machine.next, api_step hop?]
      exact consistent_next h (op, F)
  | upload claims filename contentType data kind =>
    rcases step_cases p svc h.drawn (req, F) with ⟨e, -, hdb⟩ | ⟨user, result, -, -, hcommits⟩
    · have hlater : s.world.DrawsOn (serveStep p svc s (req, F)).2.world := drawsOn_next _
      have hpart : (serveStep p svc s (req, F)).2.part.db = s.part.db := congrArg (·.toDatabase) hdb
      exact
        { drawn := hpart ▸ h.drawn.mono hlater
          workflowIds := hpart ▸ h.workflowIds
          approvalIds := hpart ▸ h.approvalIds
          owned := hpart ▸ h.owned
          represents := hpart ▸ h.represents }
    · generalize (serveStep p svc s (req, F)).2 = s' at hcommits
      cases hcommits with
      | start hop' => rw [hop] at hop'; cases hop'
      | decide hop' => rw [hop] at hop'; cases hop'
      | upload => exact consistent_upload h (Nat.lt_succ_self _)

end HttpRequest

/-! ### Runs -/

/-- The platform with its retrieval over a vector index. -/
def Platform.over (p : Platform V S σ) (svc : DocumentService V S) (vectors : VectorStore V) : Platform V S σ :=
  { p with
    retriever := p.retriever.map fun retriever earlier =>
      { retriever earlier with embedder := svc.embedder, store := vectors } }

/-- One step is one request. The agents and the document service share the embedder and the index. -/
def requestMachine (p : Platform V S σ) (svc : DocumentService V S) :
    Machine (LibraryState V) (HttpRequest × Faults Exn) (Except Exn (WorkflowView ⊕ Document)) where
  step s i := serveStep (p.over svc s.world.vectors) svc s i

/-- Consistency is about the plans, and platforms have the same ones. -/
theorem Consistent.platform {V' T' σ' : Type} {p : Platform V T σ} {c : Committed} (h : Consistent p.service c)
    (p' : Platform V' T' σ') : Consistent p'.service c where
  drawn := h.drawn
  workflowIds := h.workflowIds
  approvalIds := h.approvalIds
  owned := h.owned
  represents id w hw := by
    obtain ⟨k, hk⟩ := h.represents id w hw
    exact ⟨k,
      { status := hk.status
        pending := hk.pending
        decided := hk.decided
        opened := hk.opened
        automatic := fun hauto => ⟨(hk.automatic hauto).plan, (hk.automatic hauto).column, (hk.automatic hauto).outputs⟩
        actions := hk.actions
        records := hk.records }⟩

/-! ### The audit trail -/

/-- What an audit entry says, besides its context. -/
structure AuditLine where
  actorId : Option Uuid
  actorEmail : Option String
  action : String
  resourceType : String
  resourceId : Option String
  outcome : String
  requestId : Option String

def AuditLog.line (e : AuditLog) : AuditLine where
  actorId := e.actorId
  actorEmail := e.actorEmail
  action := e.action
  resourceType := e.resourceType
  resourceId := e.resourceId
  outcome := e.outcome
  requestId := e.requestId

/-- The action a start is recorded with. -/
def startAction : WorkflowStatus → String
  | .failed => "workflow.failed"
  | .awaitingApproval => "workflow.awaiting_approval"
  | _ => "workflow.completed"

/-- The action that an operation is recorded with when it returns `result`. -/
def Operation.action : Operation → WorkflowView ⊕ Document → String
  | .workflow _ (.start _), .inl view => startAction view.workflow.status
  | .workflow _ (.decide verdict ..), _ => s!"workflow.{verdict.decision.value}"
  | _, _ => "document.uploaded"

/-- The resource that is returned. -/
def resourceOf : WorkflowView ⊕ Document → String × Uuid
  | .inl view => ("workflow", view.workflow.id)
  | .inr document => ("document", document.id)

/-- Only uploads are recorded with the e-mail address of the caller. -/
def Operation.email : Operation → Option String
  | .workflow .. => none
  | .upload claims .. => claims.email

/-- What the log should say of a request that returned `result`. -/
def HttpRequest.line (req : HttpRequest) (result : WorkflowView ⊕ Document) : AuditLine where
  actorId := Uuid.ofStr? req.operation.claims.sub
  actorEmail := req.operation.email
  action := req.operation.action result
  resourceType := (resourceOf result).1
  resourceId := some (resourceOf result).2.str
  outcome := "success"
  requestId := some req.requestId

/-- What the log should say of a step: nothing if it raised. -/
def servedLine
    (t : Transition (LibraryState V) (HttpRequest × Faults Exn) (Except Exn (WorkflowView ⊕ Document))) :
    List AuditLine :=
  match t.output with
  | .ok result => [t.input.1.line result]
  | .error _ => []

def Database.trail (db : Database) : List AuditLine := db.auditLogs.map AuditLog.line

section trail

variable {p : Platform V T σ} {svc : DocumentService V S} {s s' : LibraryState V} {req : HttpRequest}
  {user : Uuid} {result : WorkflowView ⊕ Document}

theorem startEntry_line (plan : WorkflowPlan) (es : List Executed) (workflowId id : Uuid)
    (createdBy : Option Uuid) (requestId : Option String) :
    (startEntry plan es workflowId createdBy requestId id).line =
      ⟨createdBy, none, startAction (startStatus plan es), "workflow", some workflowId.str, "success", requestId⟩ := by
  unfold startEntry
  cases h : es.find? Executed.failed with
  | some e => rw [startStatus_of_failed (any_failed_of_find? h)]; rfl
  | none =>
    rw [startStatus_of_not_failed (any_failed_of_find?_none h)]
    cases needsApproval plan es <;> rfl

theorem HttpRequest.Commits.trail (h : req.Commits p svc s user result s')
    (hallowed : req.operation.Allowed user) :
    s'.db.trail = s.db.trail ++ [req.line result] := by
  have huser := hallowed.user
  cases h with
  | start hop =>
    show List.map _ (s.db.auditLogs ++ [startEntry ..]) = _
    rw [List.map_append, List.map_singleton, startEntry_line, HttpRequest.line, huser, hop]
    rfl
  | decide hop hargs =>
    show List.map _ ((DecideWrites.apply _ _ _ s.db.toDatabase).auditLogs ++ [decideEntry ..]) = _
    rw [auditLogs_apply, List.map_append, List.map_singleton, HttpRequest.line, huser, hop, hargs]
    cases ‹Verdict› <;> rfl
  | upload hop hid =>
    show List.map _ (s.db.auditLogs ++ [uploadEntry ..]) = _
    rw [List.map_append, List.map_singleton, HttpRequest.line, huser, hop, AuditLog.line, uploadEntry, hid]
    rfl

theorem consistent_start_files (p : Platform V T σ) (files : FileSystem) :
    Consistent p.service (LibraryState.start files : LibraryState V).part :=
  consistent_empty

/-- After any run of the API, one request at a time, the audit log has one line for every request that
succeeded, in their order, and nothing else; each was made by a user who may make it. -/
theorem audit_trail (p : Platform V S σ) (svc : DocumentService V S) (files : FileSystem)
    (is : List (HttpRequest × Faults Exn)) :
    let m := requestMachine p svc
    (m.run (.start files) is).db.trail = (m.trace (.start files) is).flatMap servedLine ∧
      ∀ t ∈ m.trace (.start files) is, ∀ result, t.output = .ok result →
        ∃ user, t.input.1.operation.Allowed user := by
  intro m
  have hinv : ∀ s i, Consistent p.service s.part → Consistent p.service (m.next s i).part :=
    fun s i h => (HttpRequest.consistent_part (h.platform (p.over svc s.world.vectors)) i).platform p
  refine ⟨?_, fun t ht result hok => ?_⟩
  · refine Machine.run_log hinv (consistent_start_files p files) is (·.db.trail) servedLine fun s i h => ?_
    have hline : servedLine (m.fire s i) = match (m.step s i).1 with
        | .ok result => [i.1.line result]
        | .error _ => [] := rfl
    change (m.next s i).db.trail = _
    rcases HttpRequest.step_cases (p.over svc s.world.vectors) svc h.drawn i with
      ⟨e, hr, hdb⟩ | ⟨user, result, hr, hallowed, hcommits⟩
    · rw [hline, show (m.step s i).1 = .error e from hr, show (m.next s i).db = s.db from hdb, List.append_nil]
    · rw [hline, show (m.step s i).1 = .ok result from hr]
      exact hcommits.trail hallowed
  · obtain ⟨js, ⟨req, F⟩, -, rfl⟩ := Machine.mem_trace ht
    have h := Machine.run_invariant hinv (consistent_start_files p files) js
    obtain ⟨user, hallowed, -⟩ := HttpRequest.commits_of_ok h.drawn hok
    exact ⟨user, hallowed⟩

end trail
end BankingAi
