import BankingAi.Api.Integrity

/-!
# Replies

The exception handlers turn what an endpoint raises into the error envelope. For every request the
reply is known from the tables it finds: who may not make it is refused without a trace, and what a
client reads of a failure of the database is one fixed envelope. The framework is taken to run the exit
code of the session dependency, the commit or the rollback, before the reply is sent.
-/

namespace BankingAi

open Posix Review SessionM

namespace AppErrorClass

/-- The class attribute `code`. -/
def code : AppErrorClass → String
  | appError => "app_error"
  | validation => "validation_error"
  | authentication => "authentication_error"
  | authorization => "authorization_error"
  | notFound => "not_found"
  | conflict => "conflict"
  | rateLimit => "rate_limited"
  | workflowState => "invalid_workflow_state"
  | llmProvider => "llm_provider_error"
  | modelRouter => "model_router_error"
  | agent => "agent_error"

/-- The class attribute `status_code`. -/
def statusCode : AppErrorClass → ℕ
  | appError => 500
  | validation => 422
  | authentication => 401
  | authorization => 403
  | notFound => 404
  | conflict => 409
  | rateLimit => 429
  | workflowState => 409
  | llmProvider => 502
  | modelRouter => 503
  | agent => 500

end AppErrorClass

structure JSONResponse where
  statusCode : ℕ
  content : Json

/-- `{"error": {"code": ..., "message": ..., "details": ...}}`. -/
def envelope (code message : String) (details : List (String × Json)) : Json :=
  .obj [("error", .obj [("code", .str code), ("message", .str message), ("details", .obj details)])]

def AppError.toEnvelope (exc : AppError) : Json := envelope exc.cls.code exc.message exc.details

def appErrorHandler (exc : AppError) : JSONResponse := ⟨exc.cls.statusCode, exc.toEnvelope⟩

/-- The reply to any other exception, which it does not show. -/
def unhandledHandler : JSONResponse := ⟨500, envelope "internal_error" "An unexpected error occurred." []⟩

/-- The handler of the class of an exception. -/
def Exn.handled : Exn → JSONResponse
  | .app exc => appErrorHandler exc
  | .other .. => unhandledHandler

/-- What the client is sent. -/
inductive Reply (α : Type) where
  | success (statusCode : ℕ) (value : α)
  | failure (response : JSONResponse)

/-- The status code that an endpoint is declared with. -/
def Operation.statusCode : Operation → ℕ
  | .workflow _ (.start _) => 201
  | .workflow _ (.decide ..) => 200
  | .upload .. => 201

def Operation.reply (op : Operation) : Except Exn (WorkflowView ⊕ Document) → Reply (WorkflowView ⊕ Document)
  | .ok value => .success op.statusCode value
  | .error exc => .failure exc.handled

/-- `error.code` of an envelope. -/
def Json.errorCode : Json → Option String
  | .obj fields =>
    match Json.field? fields "error" with
    | some (.obj error) =>
      match Json.field? error "code" with
      | some (.str code) => some code
      | _ => none
    | _ => none
  | _ => none

/-- What a client branches on: the status and the code of an error. -/
def Reply.status {α : Type} : Reply α → ℕ × Option String
  | .success statusCode _ => (statusCode, none)
  | .failure response => (response.statusCode, response.content.errorCode)

/-! ### What a request meets -/

/-- How a request ends when the database does not fail. -/
inductive Outcome where
  | done | forbidden | notFound | invalidState | tooLarge | internal
deriving DecidableEq

def Outcome.status (statusCode : ℕ) : Outcome → ℕ × Option String
  | done => (statusCode, none)
  | forbidden => (403, some "authorization_error")
  | notFound => (404, some "not_found")
  | invalidState => (409, some "invalid_workflow_state")
  | tooLarge => (422, some "validation_error")
  | internal => (500, some "internal_error")

/-- The caller has the permission of the endpoint. -/
def Operation.permitted (op : Operation) : Bool := op.permission.value ∈ permissionsForRoles op.claims.roles

section outcome

variable {V S T σ : Type} (svc : DocumentService V S) (s : LibraryState V)

/-- How a call to a workflow endpoint ends, for a caller who has the permission. -/
def WorkflowCall.outcome : WorkflowCall → Outcome
  | .start _ => .done
  | .decide _ workflowId _ =>
    match s.db.workflow? workflowId with
    | none => .notFound
    | some w => if w.status ∈ decidable then .done else .invalidState

/-- How an upload ends: the file has to be stored. -/
def uploadOutcome (claims : Claims) (filename : Option String) (data : Bytes) : Outcome :=
  if maxBytes < data.length then .tooLarge
  else if Uuid.ofStr? claims.sub = none then .internal
  else
    match (svc.storage.put s.world.files (contentKey svc.sha256 (orDefault filename "upload.bin") data) data).1 with
    | .ok _ => .done
    | .error _ => .internal

def Operation.outcome (op : Operation) : Outcome :=
  if op.permitted then
    match op with
    | .workflow claims call => if Uuid.ofStr? claims.sub = none then .internal else call.outcome s
    | .upload claims filename _ data _ => uploadOutcome svc s claims filename data
  else .forbidden

end outcome

/-- The error of a missing permission. -/
def missingPermission (permission : Permission) : Exn :=
  .new .authorization "Missing required permission(s)." [("missing", .arr [.str permission.value])]

theorem require_of_missing {claims : Claims} {permission : Permission}
    (h : permission.value ∉ permissionsForRoles claims.roles) :
    (Principal.fromClaims claims).require [permission.value] = .error (missingPermission permission) := by
  have h : permission.value ∉ (Principal.fromClaims claims).permissions := h
  unfold Principal.require
  simp [h, missingPermission]

theorem userUuid_of_none (principal : Principal) (h : Uuid.ofStr? principal.userId = none) :
    principal.userUuid = .error (.other "ValueError" "badly formed hexadecimal UUID string") := by
  rw [Principal.userUuid, h]

theorem UploadRequest.transact_upload {V S : Type} (svc : DocumentService V S) (s : LibraryState V)
    (r : UploadRequest) (hpermission : Permission.documentUpload.value ∈ permissionsForRoles r.claims.roles) :
    let result := (transact .empty (r.handle svc) .none s.db s.world).1
    (maxBytes < r.data.length ∧ result = .error (.new .validation "Uploaded file exceeds the size limit."
      [("max_bytes", .int maxBytes), ("size", .int r.data.length)])) ∨
    (¬ maxBytes < r.data.length ∧ Uuid.ofStr? r.claims.sub = none ∧
      result = .error (.other "ValueError" "badly formed hexadecimal UUID string")) ∨
    (¬ maxBytes < r.data.length ∧ ∃ user, Uuid.ofStr? r.claims.sub = some user ∧
      (∀ key, (svc.storage.put s.world.files (uploadKey svc r) r.data).1 = .ok key →
        ∃ document, result = .ok document) ∧
      ∀ failure, (svc.storage.put s.world.files (uploadKey svc r) r.data).1 = .error failure →
        result = .error failure.exn) := by
  intro result
  have hreq : (Principal.fromClaims r.claims).require [Permission.documentUpload.value] = .ok () :=
    Principal.require_eq_ok.2 (List.forall_mem_singleton.2 hpermission)
  by_cases hsize : maxBytes < r.data.length
  · refine .inl ⟨hsize, transact_fst_of_error ?_⟩
    unfold UploadRequest.handle uploadDocument requirePermissions
    rw [hreq, if_pos hsize]
    rfl
  cases huser : Uuid.ofStr? r.claims.sub with
  | none =>
    refine .inr (.inl ⟨hsize, rfl, transact_fst_of_error ?_⟩)
    unfold UploadRequest.handle uploadDocument requirePermissions
    rw [hreq, if_neg hsize, userUuid_of_none (.fromClaims r.claims) huser]
    rfl
  | some user =>
    have haccepted : r.Accepted user := ⟨hpermission, Nat.not_lt.1 hsize, huser⟩
    refine .inr (.inr ⟨hsize, user, rfl, fun key hkey => ?_, fun failure hfailure => ?_⟩)
    · have hput : svc.storage.put s.world.files (uploadKey svc r) r.data = (.ok key, _) := Prod.ext hkey rfl
      obtain ⟨document, F', hrun⟩ := uploadBody_ok (F := .none) svc user s.db .empty
        { s.world with files := (svc.storage.put s.world.files (uploadKey svc r) r.data).2 }
        (fun _ _ => rfl) fun _ _ => rfl
      refine ⟨document, ?_⟩
      show (transact ..).1 = _
      unfold transact
      rw [(commit_of_stored haccepted s.db .empty hput .none).trans hrun]
    · have heffect : svc.putObject (uploadKey svc r) r.data .none ⟨s.db, .empty, s.world⟩ =
          (.ok (.error failure), .none, ⟨s.db, .empty, { s.world with
            files := (svc.storage.put s.world.files (uploadKey svc r) r.data).2 }⟩) := by
        unfold DocumentService.putObject
        rw [effect_run]
        dsimp only
        rw [hfailure]
      have hingest : svc.ingest (r.args user) .none ⟨s.db, .empty, s.world⟩ =
          (.error failure.exn, .none, ⟨s.db, .empty, { s.world with
            files := (svc.storage.put s.world.files (uploadKey svc r) r.data).2 }⟩) := (bind_of_ok heffect).trans rfl
      refine transact_fst_of_error ?_
      rw [handle_of_accepted haccepted]
      exact congrArg Prod.fst (bind_of_error hingest)

namespace HttpRequest

variable {V S T σ : Type} {p : Platform V T σ} {svc : DocumentService V S} {s : LibraryState V} {req : HttpRequest}
  {F : Faults Exn}

/-- The reply to a request, which is made once its transaction has ended. -/
def respond (p : Platform V T σ) (svc : DocumentService V S) (s : LibraryState V) (req : HttpRequest)
    (F : Faults Exn) : Reply (WorkflowView ⊕ Document) :=
  req.operation.reply (serveStep p svc s (req, F)).1

theorem step_forbidden (h : req.operation.permitted = false) :
    serveStep p svc s (req, F) = (.error (missingPermission req.operation.permission), s) := by
  have hperm : req.operation.permission.value ∉ permissionsForRoles req.operation.claims.roles :=
    of_decide_eq_false h
  cases hop : req.operation with
  | workflow claims call =>
    rw [hop] at hperm
    have hhandle : WorkflowRequest.handle p.service ⟨claims, call, some req.requestId⟩ =
        .raise (missingPermission call.permission) := by
      rw [WorkflowRequest.handle_eq, requirePermissions]
      exact congrArg (SessionM.ofExcept · >>= fun _ => _) (require_of_missing hperm)
    have hstep : (apiMachine p.service).step s.part (⟨claims, call, some req.requestId⟩, F) =
        (.error (missingPermission call.permission), s.part) := by
      unfold apiMachine
      dsimp only
      rw [hhandle, transact_of_error (raise_run F _ _)]
    rw [step_workflow hop, hstep]
    rfl
  | upload claims filename contentType data kind =>
    rw [hop] at hperm
    have hrun : (req.upload claims filename contentType data kind).handle svc F ⟨s.db, .empty, s.world⟩ =
        (.error (missingPermission .documentUpload), F, ⟨s.db, .empty, s.world⟩) := by
      unfold UploadRequest.handle uploadDocument requirePermissions
      exact congrArg (fun r => (inLibrary (SessionM.ofExcept r) >>= fun _ => _ : LibrarySession V Document) F
        ⟨s.db, .empty, s.world⟩) (require_of_missing hperm)
    rw [step_upload hop, uploadMachine]
    dsimp only
    rw [transact_of_error hrun]
    rfl

/-- Requests of callers without the permission are refused by name, and might as well not have been
made: the others meet the same states and get the same replies. -/
theorem forbidden_invisible (p : Platform V S σ) (svc : DocumentService V S) (s : LibraryState V)
    (is : List (HttpRequest × Faults Exn)) :
    let m := requestMachine p svc
    let permitted : HttpRequest × Faults Exn → Bool := fun i => i.1.operation.permitted
    m.run s is = m.run s (is.filter permitted) ∧
      (m.trace s is).filter (fun t => permitted t.input) = m.trace s (is.filter permitted) ∧
      ∀ t ∈ m.trace s is, permitted t.input = false →
        t.output = .error (missingPermission t.input.1.operation.permission) := by
  intro m permitted
  have hskip : ∀ s i, permitted i = false → m.next s i = s := fun s i h => congrArg Prod.snd (step_forbidden h)
  obtain ⟨hrun, htrace⟩ := Machine.run_filter permitted hskip s is
  refine ⟨hrun, htrace, fun t ht h => ?_⟩
  obtain ⟨js, i, -, rfl⟩ := Machine.mem_trace ht
  exact congrArg Prod.fst (step_forbidden h)

/-! ### The replies without a failure of the database -/

theorem respond_of_no_user {claims : Claims} {call : WorkflowCall} (hop : req.operation = .workflow claims call)
    (hperm : call.permission.value ∈ permissionsForRoles claims.roles) (huser : Uuid.ofStr? claims.sub = none) :
    (req.respond p svc s F).status = Outcome.status 0 .internal := by
  have hhandle : WorkflowRequest.handle p.service ⟨claims, call, some req.requestId⟩ =
      .raise (.other "ValueError" "badly formed hexadecimal UUID string") := by
    have hreq : (Principal.fromClaims claims).require [call.permission.value] = .ok () :=
      Principal.require_eq_ok.2 (List.forall_mem_singleton.2 hperm)
    have hid : (Principal.fromClaims claims).userUuid =
        .error (.other "ValueError" "badly formed hexadecimal UUID string") := userUuid_of_none _ huser
    rw [WorkflowRequest.handle_eq, requirePermissions]
    dsimp only
    rw [hreq, hid]
    rfl
  have hstep : (apiMachine p.service).step s.part (⟨claims, call, some req.requestId⟩, F) =
      (.error (.other "ValueError" "badly formed hexadecimal UUID string"), s.part) := by
    unfold apiMachine
    dsimp only
    rw [hhandle, transact_of_error (raise_run F _ _)]
  unfold respond
  rw [step_workflow hop, hstep]
  rfl

theorem respond_of_user (h : s.Sound p svc) {claims : Claims} {call : WorkflowCall} {user : Uuid}
    (hop : req.operation = .workflow claims call)
    (hperm : call.permission.value ∈ permissionsForRoles claims.roles) (huser : Uuid.ofStr? claims.sub = some user) :
    (req.respond p svc s .none).status = (call.outcome s).status req.operation.statusCode := by
  have hop? : WorkflowRequest.op? ⟨claims, call, some req.requestId⟩ = some (call.op user (some req.requestId)) := by
    rw [WorkflowRequest.op?]
    refine (if_pos hperm).trans ?_
    dsimp only
    rw [huser]
    rfl
  unfold respond
  rw [step_workflow hop, api_step hop?]
  cases call with
  | start payload =>
    obtain ⟨n', -, -, hok⟩ := transact_start p.service payload.workflowType payload.inputPayload (some user)
      (some req.requestId) s.world.calls (p.service_plan ⟨payload.workflowType, payload.inputPayload⟩)
      (show s.db.DrawnBefore s.world.nextUuid from h.consistent.drawn)
    have hstep : ((workflowMachine p.service).step s.part
        ((WorkflowCall.start payload).op user (some req.requestId), .none)).1 = .ok _ := congrArg Prod.fst hok
    dsimp only
    rw [hstep, hop]
    rfl
  | decide verdict workflowId payload =>
    let args := DecideArgs.ofVerdict verdict user payload.reason (some req.requestId)
    have hbody : ((workflowMachine p.service).step s.part
        ((WorkflowCall.decide verdict workflowId payload).op user (some req.requestId), .none)).1 =
        (transact .empty (p.service.decide workflowId args) .none s.db.toDatabase s.world.toWorld).1 := by
      rw [← body_decide]
      rfl
    dsimp only
    rw [hbody, WorkflowCall.outcome]
    cases hw : s.db.workflow? workflowId with
    | none =>
      rw [transact_fst_of_error (decide_of_not_found p.service args _ _ hw)]
      rfl
    | some w =>
      obtain rfl : w.id = workflowId := (Table.lookup_eq_some hw).2
      by_cases hst : w.status ∈ decidable
      · obtain ⟨memory', n', -, hrun⟩ := decide_run p.service args s.world.nextUuid s.world.calls hw hst
        have hok : (transact .empty (p.service.decide w.id args) .none s.db.toDatabase s.world.toWorld).1 = .ok _ :=
          congrArg Prod.fst (transact_of_ok hrun)
        dsimp only
        rw [hok, if_pos hst, hop]
        rfl
      · dsimp only
        rw [transact_fst_of_error (decide_of_not_decidable p.service args _ _ hw hst), if_neg hst]
        rfl

theorem respond_upload {claims : Claims} {filename contentType : Option String} {data : Bytes} {kind : String}
    (hop : req.operation = .upload claims filename contentType data kind) (hperm : req.operation.permitted = true) :
    (req.respond p svc s .none).status = (req.operation.outcome svc s).status req.operation.statusCode := by
  have hpermission : Permission.documentUpload.value ∈ permissionsForRoles claims.roles := by
    rw [hop] at hperm
    exact of_decide_eq_true hperm
  have hresult := (req.upload claims filename contentType data kind).transact_upload svc s hpermission
  have hrespond : req.respond p svc s .none = req.operation.reply
      ((transact .empty ((req.upload claims filename contentType data kind).handle svc) .none s.db s.world).1.map
        .inr) := by
    unfold respond
    rw [step_upload hop]
    rfl
  have houtcome : req.operation.outcome svc s = uploadOutcome svc s claims filename data := by
    unfold Operation.outcome
    rw [if_pos hperm, hop]
  rw [hrespond, houtcome, hop]
  unfold uploadOutcome
  rcases hresult with ⟨hsize, hr⟩ | ⟨hsize, huser, hr⟩ | ⟨hsize, user, huser, hok, herror⟩
  · rw [hr, if_pos (show maxBytes < data.length from hsize)]
    rfl
  · rw [hr, if_neg (show ¬ maxBytes < data.length from hsize), if_pos (show Uuid.ofStr? claims.sub = none from huser)]
    rfl
  · have huser : Uuid.ofStr? claims.sub ≠ none := by
      rw [show Uuid.ofStr? claims.sub = some user from huser]
      exact Option.some_ne_none user
    rw [if_neg (show ¬ maxBytes < data.length from hsize), if_neg huser]
    cases hput : (svc.storage.put s.world.files
        (contentKey svc.sha256 (orDefault filename "upload.bin") data) data).1 with
    | ok key =>
      obtain ⟨document, hdocument⟩ := hok key hput
      rw [hdocument]
      rfl
    | error failure =>
      rw [herror failure hput]
      cases failure <;> rfl

/-- The table of replies: what a request is answered when the database does not fail. -/
theorem respond_status (h : s.Sound p svc) :
    (req.respond p svc s .none).status = (req.operation.outcome svc s).status req.operation.statusCode := by
  cases hperm : req.operation.permitted with
  | false =>
    have houtcome : req.operation.outcome svc s = .forbidden := by
      unfold Operation.outcome
      rw [hperm]
      rfl
    unfold respond
    rw [step_forbidden hperm, houtcome]
    rfl
  | true =>
    cases hop : req.operation with
    | upload claims filename contentType data kind =>
      rw [← hop]
      exact respond_upload hop hperm
    | workflow claims call =>
      have hcall : call.permission.value ∈ permissionsForRoles claims.roles := by
        rw [hop] at hperm
        exact of_decide_eq_true hperm
      have houtcome : (Operation.workflow claims call).outcome svc s =
          if Uuid.ofStr? claims.sub = none then .internal else call.outcome s := by
        unfold Operation.outcome
        rw [← hop, if_pos hperm, hop]
      rw [houtcome]
      cases huser : Uuid.ofStr? claims.sub with
      | none => exact respond_of_no_user hop hcall huser
      | some user =>
        rw [if_neg (Option.some_ne_none user), ← hop]
        exact respond_of_user h hop hcall huser

/-- A request that nothing stands against succeeds when the database does not fail. -/
theorem ok_of_done (h : s.Sound p svc) (hdone : req.operation.outcome svc s = .done) :
    ∃ result, (serveStep p svc s (req, .none)).1 = .ok result := by
  have hstatus : (req.respond p svc s .none).status = _ := respond_status h
  unfold respond at hstatus
  rw [hdone] at hstatus
  cases hr : (serveStep p svc s (req, .none)).1 with
  | ok result => exact ⟨result, rfl⟩
  | error e =>
    -- what is raised is sent with a code
    rw [hr] at hstatus
    have hcode := congrArg Prod.snd hstatus
    cases e <;> cases hcode

/-! ### The replies when it fails -/

theorem faithful_upload (svc : DocumentService V S) (r : UploadRequest) : Faithful (r.handle svc) := by
  have hflush : Faithful (inLibrary flush : LibrarySession V Unit) := Faithful.zoom .roundTrip
  have hingest : ∀ args, Faithful (svc.ingest args) := by
    intro args
    unfold DocumentService.ingest
    refine Faithful.bind (.effect _) fun stored => ?_
    cases stored with
    | error failure => exact faithful_rule.raise _
    | ok key =>
      refine (ingestRows_rule faithful_rule (Faithful.zoom (.effect _)) hflush svc _ _ _).bind fun p =>
        Faithful.bind ?_ fun _ => ingestStatus_rule faithful_rule hflush _ _
      unfold DocumentService.upsertVectors
      split
      · exact faithful_rule.pure _
      · exact .effect _
  unfold UploadRequest.handle uploadDocument
  refine Faithful.bind (Faithful.zoom (.ofExcept _)) fun _ => ?_
  split
  · exact faithful_rule.raise _
  · exact Faithful.bind (.ofExcept _) fun _ => (hingest _).bind fun _ =>
      Faithful.bind (Faithful.zoom (record_rule faithful_rule (.effect _) _ _ _ _ _ _ _ _)) fun _ =>
        faithful_rule.pure _

theorem faithful_handle (p : Platform V T σ) (svc : DocumentService V S) (req : HttpRequest) :
    Faithful (req.handle p svc) := by
  unfold handle
  cases req.operation with
  | workflow claims call =>
    refine Faithful.bind (Faithful.zoom ?_) fun _ => faithful_rule.pure _
    rw [WorkflowRequest.handle_eq]
    exact Faithful.bind (.ofExcept _) fun _ => Faithful.bind (.ofExcept _) fun _ =>
      body_rule faithful_rule (.effect _) _ (fun _ _ => .effect _) _
  | upload claims filename contentType data kind => exact (faithful_upload svc _).bind fun _ => faithful_rule.pure _

/-- After any run of the API the reply to a request is the one of the table, by its status and code.
When a round trip to the database fails with an exception that is not the application's, the reply is
that or the fixed envelope of an internal error, and then the tables are left as they were. -/
theorem replies_exact (p : Platform V S σ) (svc : DocumentService V S) (files : FileSystem)
    (is : List (HttpRequest × Faults Exn)) (req : HttpRequest) :
    let m := requestMachine p svc
    let s := m.run (.start files) is
    let reply : Faults Exn → Reply (WorkflowView ⊕ Document) := fun F => req.operation.reply (m.step s (req, F)).1
    (reply .none).status = (req.operation.outcome svc s).status req.operation.statusCode ∧
      ∀ F : Faults Exn, (∀ k e, F k = some e → ∃ typeName text, e = .other typeName text) →
        reply F = reply .none ∨ reply F = .failure unhandledHandler ∧ (m.next s (req, F)).db = s.db := by
  intro m s reply
  have hsound := (LibraryState.Sound.run p svc files is).platform (p.over svc s.world.vectors)
  refine ⟨respond_status hsound, fun F hF => ?_⟩
  have htransact : req.serve (p.over svc s.world.vectors) svc s F = req.serve (p.over svc s.world.vectors) svc s .none ∨
      ∃ k e, F k = some e ∧ (req.serve (p.over svc s.world.vectors) svc s F).1 = .error e :=
    transact_faithful (faithful_handle _ svc req)
  rcases htransact with hsame | ⟨k, e, hk, herror⟩
  · left
    exact congrArg (fun r : Except Exn (WorkflowView ⊕ Document) × Library V × LibraryWorld V =>
      req.operation.reply r.1) hsame
  · right
    obtain ⟨typeName, text, rfl⟩ := hF k e hk
    have hstep : (m.step s (req, F)).1 = .error (.other typeName text) := herror
    refine ⟨?_, step_raised hstep⟩
    unfold reply
    rw [hstep]
    rfl

end HttpRequest
end BankingAi
