import BankingAi.Services.AgentExecutor
import BankingAi.Api.UploadColumns

/-!
# Request ids and column lengths

The middleware takes the `X-Request-ID` of a request as its id, of whatever length, and every audit
entry keeps it. A database that enforces the lengths of its columns refuses an entry with too long an
id, and rolls back what the entry is about.
-/

namespace BankingAi

open Posix SessionM

/-! ### Requests -/

/-- An operation a client asks for, as the API has validated it. -/
inductive Operation where
  | workflow (claims : Claims) (call : WorkflowCall)
  | upload (claims : Claims) (filename contentType : Option String) (data : Bytes) (kind : String)

/-- `header` is the `X-Request-ID`, `hex` what `uuid4().hex` would draw. -/
structure HttpRequest where
  operation : Operation
  header : Option String
  hex : String
  hexLength : hex.length = 32

namespace HttpRequest

/-- `request.headers.get(_REQUEST_ID_HEADER) or uuid.uuid4().hex`. -/
def requestId (req : HttpRequest) : String := orDefault req.header req.hex

def upload (req : HttpRequest) (claims : Claims) (filename contentType : Option String) (data : Bytes)
    (kind : String) : UploadRequest where
  claims := claims
  filename := filename
  contentType := contentType
  data := data
  kind := kind
  requestId := some req.requestId

variable {V S T σ : Type}

/-- What the endpoint returns. -/
def handle (p : Platform V T σ) (svc : DocumentService V S) (req : HttpRequest) :
    LibrarySession V (WorkflowView ⊕ Document) :=
  match req.operation with
  | .workflow claims call => do
    let view ← inLibrary (WorkflowRequest.handle p.service ⟨claims, call, some req.requestId⟩)
    pure (.inl view)
  | .upload claims filename contentType data kind => do
    let document ← (req.upload claims filename contentType data kind).handle svc
    pure (.inr document)

/-- The request in a transaction of its own, on a database that does not look at lengths. -/
def serve (p : Platform V T σ) (svc : DocumentService V S) (s : LibraryState V) (req : HttpRequest)
    (F : Faults Exn) : Except Exn (WorkflowView ⊕ Document) × Library V × LibraryWorld V :=
  transact .empty (req.handle p svc) F s.db s.world

/-- What PostgreSQL raises for a text that is too long. -/
def tooLong : Exn := .other "DBAPIError" "value too long for type character varying"

/-- The request on a database that enforces the lengths. -/
def serveEnforced (p : Platform V T σ) (svc : DocumentService V S) (s : LibraryState V) (req : HttpRequest)
    (F : Faults Exn) : Except Exn (WorkflowView ⊕ Document) × Library V × LibraryWorld V :=
  transactChecked Library.Fits tooLong .empty (req.handle p svc) F s.db s.world

end HttpRequest

/-! ### The platform writes texts that fit -/

namespace Platform

variable {V T σ : Type} (p : Platform V T σ)

theorem executed_fits {earlier : List ExecutorCall} {name : String} {promptVersion : Option String}
    {run : RoutedRun AgentOutput} {outcome : AgentOutcome AgentOutput} (hprompt : Varchar 64 promptVersion)
    (h : (p.executed earlier name promptVersion run).reply = .ok outcome) : outcome.Fits := by
  obtain rfl := Except.ok.inj h
  unfold BaseAgent.execute
  split
  all_goals exact ⟨hprompt, varchar_none⟩

theorem runPlain_fits {earlier : List ExecutorCall} {name : String} {built : Except Exn (Except Exn AgentOutput)}
    {outcome : AgentOutcome AgentOutput} (h : (p.runPlain earlier name built).reply = .ok outcome) :
    outcome.Fits := by
  cases built with
  | error e => cases h
  | ok result => exact p.executed_fits varchar_none h

theorem builder_fits {name : String} {run : List ExecutorCall → JsonDict → StepRun}
    (hrun : p.builder name = some run) {earlier : List ExecutorCall} {payload : JsonDict}
    {outcome : AgentOutcome AgentOutput} (h : (run earlier payload).reply = .ok outcome) : outcome.Fits := by
  have hsummary : Varchar 64 (some SummarizationAgent.promptVersion) := varchar_some.2 (by decide)
  have hcompliance : Varchar 64 (some ComplianceAgent.promptVersion) := varchar_some.2 (by decide)
  unfold builder at hrun
  split at hrun
  case h_5 =>
    cases hrun
    unfold runSummarizationAgent at h
    split at h
    · cases h
    · exact p.executed_fits hsummary h
  case h_6 =>
    cases hrun
    unfold runRetrievalAgent at h
    split at h
    · cases h
    · split at h
      · cases h
      · exact p.executed_fits varchar_none h
  case h_7 =>
    cases hrun
    unfold runComplianceAgent at h
    split at h
    · cases h
    · split at h
      · cases h
      · exact p.executed_fits hcompliance h
  case h_9 => cases hrun
  -- the agents without a model
  all_goals
    cases hrun
    exact p.runPlain_fits h

theorem planOf_fits (workflowType : WorkflowType) :
    (∀ step ∈ (planOf workflowType).steps, step.agent.length ≤ 64) ∧
      (planOf workflowType).requiredPermission.length ≤ 64 := by
  cases workflowType <;> decide +kernel

theorem service_fits : p.service.Fits where
  plan payload plan h := by
    rw [p.service_plan] at h
    obtain rfl := Option.some.inj h
    exact planOf_fits payload.workflowType
  outcome earlier name payload outcome h := by
    unfold AgentExecutor.runStep at h
    split at h
    case h_1 => cases h
    case h_2 run hrun =>
      obtain ⟨run', hbuilder, rfl⟩ := Option.map_eq_some_iff.1 hrun
      exact p.builder_fits hbuilder h

end Platform

/-! ### Requests that differ in their id -/

namespace HttpRequest

variable {V S T σ : Type} {p : Platform V T σ} {svc : DocumentService V S} {s : LibraryState V}
  {req : HttpRequest}

/-- What the client chose fits its columns. -/
structure MetadataFits (req : HttpRequest) : Prop where
  requestId : req.requestId.length ≤ 64
  upload : ∀ claims filename contentType data kind, req.operation = .upload claims filename contentType data kind →
    (orDefault filename "upload.bin").length ≤ 512 ∧
      (orDefault contentType "application/octet-stream").length ≤ 128 ∧ Varchar 320 claims.email

theorem counted_upload (svc : DocumentService V S) (req : UploadRequest) : Counted (req.handle svc) := by
  have hflush : Counted (inLibrary flush : LibrarySession V Unit) := Counted.zoom .roundTrip
  have hingest : ∀ args, Counted (svc.ingest args) := by
    intro args
    unfold DocumentService.ingest
    refine counted_rule.bind (.effect _) fun stored => ?_
    cases stored with
    | error failure => exact counted_rule.raise _
    | ok key =>
      refine counted_rule.bind (ingestRows_rule counted_rule (Counted.zoom (.effect _)) hflush svc _ _ _)
        fun p => counted_rule.bind ?_ fun _ => ingestStatus_rule counted_rule hflush _ _
      unfold DocumentService.upsertVectors
      split
      · exact counted_rule.pure _
      · exact .effect _
  unfold UploadRequest.handle uploadDocument
  refine counted_rule.bind (Counted.zoom (.ofExcept _)) fun _ => ?_
  split
  · exact counted_rule.raise _
  · exact counted_rule.bind (.ofExcept _) fun _ => counted_rule.bind (hingest _) fun _ =>
      counted_rule.bind (record_rule counted_rule (.effect _) ..).zoom fun _ => counted_rule.pure _

theorem counted_handle (p : Platform V T σ) (svc : DocumentService V S) (req : HttpRequest) :
    Counted (req.handle p svc) := by
  unfold handle
  cases req.operation with
  | workflow claims call =>
    refine counted_rule.bind (Counted.zoom ?_) fun _ => counted_rule.pure _
    rw [WorkflowRequest.handle_eq]
    exact counted_rule.bind (.ofExcept _) fun _ => counted_rule.bind (.ofExcept _) fun _ =>
      body_rule counted_rule (.effect _) _ (fun _ _ => .effect _) _
  | upload claims filename contentType data kind =>
    refine counted_rule.bind ?_ fun _ => counted_rule.pure _
    exact counted_upload svc _

theorem agree_handle_workflow {claims : Claims} {call : WorkflowCall} (hop : req.operation = .workflow claims call)
    (hid : req.requestId.length ≤ 64) (header : Option String) :
    Agree SameLibrary (req.handle p svc) (HttpRequest.handle p svc { req with header }) := by
  unfold handle
  dsimp only
  rw [hop]
  exact (agree_inLibrary (agree_handle p.service_fits (varchar_some.2 hid) claims call)).bind fun _ => .pure _

theorem agree_handle_header (hsha : HexDigest svc.sha256) (h : req.MetadataFits) (header : Option String) :
    Agree SameLibrary (req.handle p svc) (HttpRequest.handle p svc { req with header }) := by
  have hid : Varchar 64 (some req.requestId) := varchar_some.2 h.requestId
  cases hop : req.operation with
  | workflow claims call =>
    rw [← hop]
    exact agree_handle_workflow hop h.requestId header
  | upload claims filename contentType data kind =>
    unfold handle
    dsimp only
    rw [hop]
    obtain ⟨hname, htype, hemail⟩ := h.upload _ _ _ _ _ hop
    have hupload : UploadRequest.MetadataFits (req.upload claims filename contentType data kind) :=
      ⟨hname, htype, hemail⟩
    exact (agree_upload hsha hupload hid).bind fun _ => .pure _

/-- What the client chose cannot abort the request: at every point of its run the tables fit their
columns, it is served as on a database that does not look at lengths, and if it succeeds with some
`X-Request-ID` then with its own, leaving the same workflows and approvals. -/
structure MetadataSafe (p : Platform V T σ) (svc : DocumentService V S) (s : LibraryState V)
    (req : HttpRequest) : Prop where
  fits : ∀ F, (req.handle p svc F ⟨s.db, .empty, s.world⟩).2.2.db.Fits
  served : ∀ F, req.serveEnforced p svc s F = req.serve p svc s F
  anyHeader : ∀ header F result, (HttpRequest.serveEnforced p svc s { req with header } F).1 = .ok result →
    (req.serveEnforced p svc s F).1 = .ok result ∧
    (req.serveEnforced p svc s F).2.1.workflows =
      (HttpRequest.serveEnforced p svc s { req with header } F).2.1.workflows ∧
    (req.serveEnforced p svc s F).2.1.approvals =
      (HttpRequest.serveEnforced p svc s { req with header } F).2.1.approvals

theorem sameLibrary_start (hs : s.db.Fits) :
    SameLibrary (V := V) ⟨s.db, .empty, s.world⟩ ⟨s.db, .empty, s.world⟩ :=
  ⟨hs, s.db.auditLogs, rfl⟩

theorem fits_of_agree (hs : s.db.Fits) (h : Agree SameLibrary (req.handle p svc) (req.handle p svc)) (F : Faults Exn) :
    (req.handle p svc F ⟨s.db, .empty, s.world⟩).2.2.db.Fits ∧
      (committed (req.handle p svc) F ⟨s.db, .empty, s.world⟩).2.2.db.Fits := by
  have hcommitted : Agree SameLibrary (committed (req.handle p svc)) (committed (req.handle p svc)) :=
    h.bind fun a => Agree.roundTrip.bind fun _ => .pure a
  exact ⟨(h F (sameLibrary_start hs)).2.2.1, (hcommitted F (sameLibrary_start hs)).2.2.1⟩

theorem MetadataFits.fits (hsha : HexDigest svc.sha256) (hs : s.db.Fits) (h : req.MetadataFits) (F : Faults Exn) :
    (req.handle p svc F ⟨s.db, .empty, s.world⟩).2.2.db.Fits ∧
      (committed (req.handle p svc) F ⟨s.db, .empty, s.world⟩).2.2.db.Fits :=
  fits_of_agree hs (agree_handle_header hsha h req.header) F

/-- A request to a workflow endpoint is served without the checks being noticed, whatever the digests. -/
theorem served_workflow {claims : Claims} {call : WorkflowCall} (hop : req.operation = .workflow claims call)
    (hid : req.requestId.length ≤ 64) (hs : s.db.Fits) (F : Faults Exn) :
    req.serveEnforced p svc s F = req.serve p svc s F :=
  transactChecked_of_ok fun G => (fits_of_agree hs (agree_handle_workflow hop hid req.header) G).2

theorem MetadataFits.served (hsha : HexDigest svc.sha256) (hs : s.db.Fits) (h : req.MetadataFits) (F : Faults Exn) :
    req.serveEnforced p svc s F = req.serve p svc s F :=
  transactChecked_of_ok fun G => (h.fits hsha hs G).2

theorem MetadataFits.safe (hsha : HexDigest svc.sha256) (hs : s.db.Fits) (h : req.MetadataFits) :
    MetadataSafe p svc s req where
  fits F := (h.fits hsha hs F).1
  served F := h.served hsha hs F
  anyHeader header F result hok := by
    -- the other request would be served so without the checks, and this one agrees with it
    obtain ⟨-, hsame⟩ := transactChecked_ok (counted_handle p svc _) hok
    change HttpRequest.serve p svc s { req with header } F = HttpRequest.serveEnforced p svc s { req with header } F
      at hsame
    rw [h.served hsha hs, ← hsame]
    rw [← hsame] at hok
    obtain ⟨hresult, hrows⟩ := (agree_handle_header hsha h header).transact (sameLibrary_start hs) F
    change (req.serve p svc s F).1 = (HttpRequest.serve p svc s { req with header } F).1 at hresult
    have hown := hresult.trans hok
    obtain ⟨t, t', ⟨-, logs, rfl⟩, ht, ht'⟩ := hrows result hown
    refine ⟨hown, ?_⟩
    unfold serve
    rw [ht, ht']
    exact ⟨rfl, rfl⟩

theorem metadataFits_of_fits {F' : Faults Exn} {result : WorkflowView ⊕ Document}
    {t : Session (Library V) (Dict Uuid Loaded) (LibraryWorld V)}
    (hrun : req.handle p svc .none ⟨s.db, .empty, s.world⟩ = (.ok result, F', t)) (h : t.db.Fits) :
    req.MetadataFits := by
  unfold handle at hrun
  cases hop : req.operation with
  | workflow claims call =>
    rw [hop] at hrun
    obtain ⟨view, F₁, s₁, hview, hpure⟩ := SessionM.bind_eq_ok hrun
    cases hpure
    unfold inLibrary SessionM.zoom at hview
    match hm : WorkflowRequest.handle p.service ⟨claims, call, some req.requestId⟩ .none
        ((workflowPart V).get ⟨s.db, .empty, s.world⟩), hview with
    | (.ok view', F₂, s₂), hview =>
      cases hview
      obtain ⟨entry, hentry, hid⟩ := logged_handle rfl _ hm
      have hlog := (h.database.auditLogs entry hentry).requestId
      rw [hid] at hlog
      exact ⟨varchar_some.1 hlog, fun _ _ _ _ _ heq => by rw [hop] at heq; cases heq⟩
  | upload claims filename contentType data kind =>
    rw [hop] at hrun
    obtain ⟨document, F₁, s₁, hdocument, hpure⟩ := SessionM.bind_eq_ok hrun
    cases hpure
    obtain ⟨user, hdb⟩ := upload_ok hdocument
    rw [hdb] at h
    obtain ⟨hid, hmetadata⟩ := metadata_of_uploadDb h
    refine ⟨varchar_some.1 hid, fun _ _ _ _ _ heq => ?_⟩
    rw [hop] at heq
    cases heq
    exact ⟨hmetadata.filename, hmetadata.contentType, hmetadata.email⟩

/-- So a database that enforces the lengths commits no other. -/
theorem metadataFits_of_served {F : Faults Exn} {result : WorkflowView ⊕ Document}
    (h : (req.serveEnforced p svc s F).1 = .ok result) : req.MetadataFits := by
  obtain ⟨hfits, hsame⟩ := transactChecked_ok (counted_handle p svc req) h
  unfold serveEnforced at h
  rw [← hsame] at h hfits
  obtain ⟨n, t, hn, hrun⟩ := transact_ok_counted (counted_handle p svc req) h
  have hserved := transact_of_counted (hrun F fun k hk => hn k hk.le) (hn n le_rfl)
  rw [hserved] at hfits
  exact metadataFits_of_fits (hrun .none fun _ _ => rfl) hfits

/-- Requests one after another, on a database that enforces the lengths. -/
def enforcedMachine (p : Platform V T σ) (svc : DocumentService V S) :
    Machine (LibraryState V) (HttpRequest × Faults Exn) (Except Exn (WorkflowView ⊕ Document)) where
  step s i :=
    let r := i.1.serveEnforced p svc s i.2
    (r.1, ⟨r.2.1, r.2.2⟩)

theorem fits_next (p : Platform V T σ) (svc : DocumentService V S) (hs : s.db.Fits) (i : HttpRequest × Faults Exn) :
    ((enforcedMachine p svc).next s i).db.Fits := by
  show (i.1.serveEnforced p svc s i.2).2.1.Fits
  cases hserved : (i.1.serveEnforced p svc s i.2).1 with
  | ok result => exact (transactChecked_ok (counted_handle p svc i.1) hserved).1
  | error e =>
    rw [show (i.1.serveEnforced p svc s i.2).2.1 = s.db from transact_error hserved]
    exact hs

theorem fits_run (p : Platform V T σ) (svc : DocumentService V S) (hs : s.db.Fits)
    (is : List (HttpRequest × Faults Exn)) : ((enforcedMachine p svc).run s is).db.Fits :=
  Machine.run_invariant (I := fun s : LibraryState V => s.db.Fits) (fun _ i hs => fits_next p svc hs i) hs is

/-- A request that succeeds on a database that does not look at lengths is safe from what the client
chose exactly when its id has at most 64 characters and, for an upload, file name, content type and
e-mail address fit their columns. -/
theorem metadata_safe_iff (p : Platform V T σ) (svc : DocumentService V S) (hsha : HexDigest svc.sha256)
    (s : LibraryState V) (hs : s.db.Fits) (req : HttpRequest) (result : WorkflowView ⊕ Document)
    (hok : (req.serve p svc s .none).1 = .ok result) : MetadataSafe p svc s req ↔ req.MetadataFits := by
  refine ⟨fun h => ?_, fun h => h.safe hsha hs⟩
  rw [← h.served] at hok
  exact metadataFits_of_served hok

end HttpRequest

/-! ### A decision that is rolled back -/

/-- A platform without models. -/
def plainPlatform : Platform ℕ ℕ Unit where
  pydantic := { int? | .int n => some n | _ => none, refusal _ _ := "" }
  router := none
  retriever := none
  documentAgent _ _ := .ok (.ok ⟨.empty⟩)
  kycAgent _ _ := .ok (.ok ⟨.empty⟩)
  fraudAgent _ := .ok (.ok ⟨.empty⟩)
  loanAgent _ := .ok (.ok ⟨.empty⟩)
  auditAgent _ := .ok (.ok ⟨.empty⟩)
  latencyMs _ := 0

def waitingWorkflow : Workflow where
  id := ⟨0⟩
  workflowType := .kyc
  status := .awaitingApproval
  inputPayload := .empty
  result := none
  error := none
  requiresHumanApproval := true
  createdBy := none

/-- A customer check that waits for its review. -/
def awaitingReview : LibraryState ℕ where
  db :=
    { Library.empty with
      workflows := [waitingWorkflow]
      approvals := [⟨⟨1⟩, ⟨0⟩, .approval, .pending, "kyc:review", none, none, none⟩] }
  world := { nextUuid := 2, calls := [], files := freshFiles, vectors := .empty }

theorem awaitingReview_fits : awaitingReview.db.Fits := by decide +kernel

def reviewer : Claims where
  sub := Uuid.str ⟨7⟩
  email := none
  roles := ["manager"]
  jti := none

def checked : ApprovalDecisionRequest := ⟨some "checked", by decide⟩

/-- The reviewer approves it. -/
def approval (header : Option String) : HttpRequest where
  operation := .workflow reviewer (.decide .approve ⟨0⟩ checked)
  header := header
  hex := "6f1c2a90b3d84e57a1f0c6d2e8b94a35"
  hexLength := by decide

theorem approval_succeeds (header : Option String) :
    ∃ result, ((approval header).serve plainPlatform countingService awaitingReview .none).1 = .ok result := by
  let args : DecideArgs := .approve ⟨7⟩ (some "checked") (some (approval header).requestId)
  have hop : WorkflowRequest.op? ⟨reviewer, .decide .approve ⟨0⟩ checked, some (approval header).requestId⟩ =
      some (.decide .approve ⟨0⟩ ⟨7⟩ (some "checked") (some (approval header).requestId)) := by
    have hperm : Permission.workflowApprove.value ∈ permissionsForRoles reviewer.roles := by decide +kernel
    rw [WorkflowRequest.op?]
    refine (if_pos hperm).trans ?_
    rw [show Uuid.ofStr? reviewer.sub = some ⟨7⟩ from Uuid.ofStr?_str ⟨7⟩]
    rfl
  have hwaiting : awaitingReview.db.toDatabase.workflow? waitingWorkflow.id = some waitingWorkflow := rfl
  have hdecidable : waitingWorkflow.status ∈ decidable := by decide
  obtain ⟨memory, n, -, hrun⟩ := decide_run plainPlatform.service args 2 [] hwaiting hdecidable
  have hview : WorkflowRequest.handle plainPlatform.service _ = _ := WorkflowRequest.handle_of_some hop
  have hhandle : (approval header).handle plainPlatform countingService .none
      ⟨awaitingReview.db, .empty, awaitingReview.world⟩ = _ :=
    bind_of_ok (zoom_of_ok ((congrFun (congrFun hview _) _).trans hrun))
  exact ⟨_, congrArg Prod.fst (transact_of_ok hhandle)⟩

theorem approval_fits : (approval (some "review-1")).MetadataFits where
  requestId := by decide
  upload _ _ _ _ _ h := by cases h

theorem metadata_safe_iff_approval :
    (approval (some "review-1")).MetadataSafe plainPlatform countingService awaitingReview := by
  obtain ⟨result, hok⟩ := approval_succeeds (some "review-1")
  exact (HttpRequest.metadata_safe_iff plainPlatform countingService hexDigest_sampleDigest awaitingReview
    awaitingReview_fits _ result hok).2 approval_fits

/-- An id of 65 characters. -/
def longId : String := .ofList (List.replicate 65 'a')

/-- The decision that is committed under a short id is rolled back under a long one. -/
theorem long_id_rolls_back :
    ¬ ∀ req : HttpRequest, req.MetadataSafe plainPlatform countingService awaitingReview := by
  intro h
  obtain ⟨result, hok⟩ := approval_succeeds (some "review-1")
  rw [← approval_fits.served hexDigest_sampleDigest awaitingReview_fits] at hok
  have hlong := ((h (approval (some longId))).anyHeader (some "review-1") .none result hok).1
  have hlength : (approval (some longId)).requestId.length ≤ 64 :=
    (HttpRequest.metadataFits_of_served hlong).requestId
  exact absurd hlength (by decide +kernel)

end BankingAi
