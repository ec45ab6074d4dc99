import BankingAi.Api.RequestRuns
import BankingAi.Lib.History
import BankingAi.Services.WorkflowInvariants

/-!
# Integrity of the tables

In every state that a run of the API leads to, whatever failed on the way, the ids of every table are
unique, foreign keys name rows that exist, every chunk has its one embedding, and the audit log has
one opening line for each workflow and one upload for each document. Requests are served one after
another: two decisions that read the same workflow are the matter of `Services.DecideRace`.
-/

namespace BankingAi

open Posix Review SessionM

variable {V S T σ : Type}

/-- The embedding of a chunk. -/
structure DocumentService.Embeds (svc : DocumentService V S) (c : DocumentChunk) (e : EmbeddingMetadata V) :
    Prop where
  chunkId : e.chunkId = c.id
  dimensions : e.dimensions = svc.embedder.dimensions
  vector : e.vector = svc.embedder.embed c.content

/-- The actions that open the audit log of a workflow. -/
def openings : List String := ["workflow.failed", "workflow.completed", "workflow.awaiting_approval"]

/-- The resources of the opening lines, and of the uploads. -/
def openedIn (lines : List AuditLine) : List (Option String) :=
  (lines.filter (·.action ∈ openings)).map AuditLine.resourceId

def uploadedIn (lines : List AuditLine) : List (Option String) :=
  (lines.filter (·.action = "document.uploaded")).map AuditLine.resourceId

/-- Keys are unique and references point at rows. -/
structure Integrity (svc : DocumentService V S) (db : Library V) : Prop where
  workflowIds : (db.workflows.map Workflow.id).Nodup
  agentRunIds : (db.agentRuns.map AgentRun.id).Nodup
  approvalIds : (db.approvals.map Approval.id).Nodup
  documentIds : (db.documents.map Document.id).Nodup
  chunkIds : (db.chunks.map DocumentChunk.id).Nodup
  embeddingIds : (db.embeddings.map EmbeddingMetadata.id).Nodup
  auditLogIds : (db.auditLogs.map AuditLog.id).Nodup
  agentRuns : ∀ r ∈ db.agentRuns, (db.workflow? r.workflowId).isSome
  approvals : ∀ a ∈ db.approvals, (db.workflow? a.workflowId).isSome
  chunks : ∀ c ∈ db.chunks, ∃ d ∈ db.documents, d.id = c.documentId
  embeddings : List.Forall₂ svc.Embeds db.chunks db.embeddings
  opened : openedIn db.trail = db.workflows.map fun w => some w.id.str
  uploaded : uploadedIn db.trail = db.documents.map fun d => some d.id.str

/-- What every state of a run satisfies. -/
structure LibraryState.Sound (p : Platform V T σ) (svc : DocumentService V S) (s : LibraryState V) : Prop where
  consistent : Consistent p.service s.part
  agentRunsDrawn : Table.Drawn Uuid.draw AgentRun.id s.world.nextUuid s.db.agentRuns
  documentsDrawn : Table.Drawn Uuid.draw Document.id s.world.nextUuid s.db.documents
  chunksDrawn : Table.Drawn Uuid.draw DocumentChunk.id s.world.nextUuid s.db.chunks
  embeddingsDrawn : Table.Drawn Uuid.draw EmbeddingMetadata.id s.world.nextUuid s.db.embeddings
  auditLogsDrawn : Table.Drawn Uuid.draw AuditLog.id s.world.nextUuid s.db.auditLogs
  agentRuns : ∀ r ∈ s.db.agentRuns, (s.db.workflow? r.workflowId).isSome
  chunks : ∀ c ∈ s.db.chunks, ∃ d ∈ s.db.documents, d.id = c.documentId
  embeddings : List.Forall₂ svc.Embeds s.db.chunks s.db.embeddings
  opened : openedIn s.db.trail = s.db.workflows.map fun w => some w.id.str
  uploaded : uploadedIn s.db.trail = s.db.documents.map fun d => some d.id.str

section rows

variable {lines : List AuditLine} {line : AuditLine}

theorem openedIn_concat : openedIn (lines ++ [line]) =
    openedIn lines ++ if line.action ∈ openings then [line.resourceId] else [] := by
  rw [openedIn, List.filter_append, List.map_append, List.filter_singleton]
  by_cases h : line.action ∈ openings <;> simp [openedIn, h]

theorem uploadedIn_concat : uploadedIn (lines ++ [line]) =
    uploadedIn lines ++ if line.action = "document.uploaded" then [line.resourceId] else [] := by
  rw [uploadedIn, List.filter_append, List.map_append, List.filter_singleton]
  by_cases h : line.action = "document.uploaded" <;> simp [uploadedIn, h]

theorem startAction_mem (status : WorkflowStatus) :
    startAction status ∈ openings ∧ startAction status ≠ "document.uploaded" := by
  cases status <;> decide

theorem decision_not_mem (verdict : Verdict) :
    s!"workflow.{verdict.decision.value}" ∉ openings ∧ s!"workflow.{verdict.decision.value}" ≠ "document.uploaded" := by
  cases verdict <;> decide

theorem nodup_agentRunRows (workflowId : Uuid) (payload : JsonDict) (n : ℕ) (es : List Executed) :
    ((agentRunRows workflowId payload n es).map AgentRun.id).Nodup ∧
      ∀ r ∈ agentRunRows workflowId payload n es, n ≤ r.id.draw := by
  induction es generalizing n with
  | nil => exact ⟨List.nodup_nil, fun _ h => absurd h List.not_mem_nil⟩
  | cons e es ih =>
    obtain ⟨hnodup, hlow⟩ := ih (n + 1)
    refine ⟨List.nodup_cons.2 ⟨fun hmem => ?_, hnodup⟩, fun r hr => ?_⟩
    · obtain ⟨r, hr, heq⟩ := List.mem_map.1 hmem
      have hle := hlow r hr
      rw [heq] at hle
      exact absurd hle (Nat.not_succ_le_self n)
    · rcases List.mem_cons.1 hr with rfl | hr
      · exact le_rfl
      · exact Nat.le_of_succ_le (hlow r hr)

theorem chunkRows_embed (svc : DocumentService V S) (documentId : Uuid) (index m : ℕ) (contents : List String) :
    List.Forall₂ svc.Embeds (chunkRows documentId index m contents) (embeddingRows svc m contents) := by
  induction contents generalizing index m with
  | nil => exact .nil
  | cons content contents ih => exact .cons ⟨rfl, rfl, rfl⟩ (ih _ _)

theorem mem_embeddingRows {svc : DocumentService V S} {m : ℕ} {contents : List String} {e : EmbeddingMetadata V}
    (h : e ∈ embeddingRows svc m contents) : m ≤ e.id.draw ∧ e.id.draw < m + 2 * contents.length := by
  induction contents generalizing m with
  | nil => exact absurd h List.not_mem_nil
  | cons content contents ih =>
    rw [List.length_cons]
    rcases List.mem_cons.1 h with rfl | h
    · change m ≤ m + 1 ∧ m + 1 < _
      omega
    · obtain ⟨hlow, hhigh⟩ := ih h
      omega

theorem nodup_embeddingRows (svc : DocumentService V S) (m : ℕ) (contents : List String) :
    ((embeddingRows svc m contents).map EmbeddingMetadata.id).Nodup := by
  induction contents generalizing m with
  | nil => exact List.nodup_nil
  | cons content contents ih =>
    rw [embeddingRows, List.map_cons, List.nodup_cons]
    refine ⟨fun hmem => ?_, ih _⟩
    obtain ⟨e, he, heq⟩ := List.mem_map.1 hmem
    have hlow := (mem_embeddingRows he).1
    rw [heq] at hlow
    change m + 2 ≤ m + 1 at hlow
    omega

end rows

namespace LibraryState.Sound

variable {p : Platform V T σ} {svc : DocumentService V S} {s : LibraryState V} {req : HttpRequest} {user : Uuid}

theorem integrity (h : s.Sound p svc) : Integrity svc s.db where
  workflowIds := h.consistent.workflowIds
  agentRunIds := h.agentRunsDrawn.nodup
  approvalIds := h.consistent.approvalIds
  documentIds := h.documentsDrawn.nodup
  chunkIds := h.chunksDrawn.nodup
  embeddingIds := h.embeddingsDrawn.nodup
  auditLogIds := h.auditLogsDrawn.nodup
  agentRuns := h.agentRuns
  approvals := h.consistent.owned
  chunks := h.chunks
  embeddings := h.embeddings
  opened := h.opened
  uploaded := h.uploaded

theorem start_files (p : Platform V T σ) (svc : DocumentService V S) (files : FileSystem) :
    (LibraryState.start files).Sound p svc where
  consistent := consistent_empty
  agentRunsDrawn := .nil
  documentsDrawn := .nil
  chunksDrawn := .nil
  embeddingsDrawn := .nil
  auditLogsDrawn := .nil
  agentRuns _ h := absurd h List.not_mem_nil
  chunks _ h := absurd h List.not_mem_nil
  embeddings := .nil
  opened := rfl
  uploaded := rfl

theorem documents_uploadDb (h : s.Sound p svc) (r : UploadRequest) (user : Uuid) :
    (uploadDb svc r user s.world.nextUuid s.db).documents =
      s.db.documents ++ [committedRow svc r user s.world.nextUuid] :=
  Table.update_concat (fun _ hd => h.documentsDrawn.ne (k := ⟨s.world.nextUuid⟩) le_rfl hd) rfl

theorem auditLogs_concat (h : s.Sound p svc) {s' : LibraryState V} {e : AuditLog}
    (hlogs : s'.db.auditLogs = s.db.auditLogs ++ [e]) (hlow : s.world.nextUuid ≤ e.id.draw)
    (hn : s.world.nextUuid ≤ s'.world.nextUuid) (hconsistent : Consistent p.service s'.part) :
    Table.Drawn Uuid.draw AuditLog.id s'.world.nextUuid s'.db.auditLogs := by
  have hmem : e ∈ s'.part.db.auditLogs := by
    show e ∈ s'.db.auditLogs
    rw [hlogs]
    exact List.mem_append_right _ (List.mem_singleton_self e)
  rw [hlogs]
  refine h.auditLogsDrawn.append hn (List.nodup_singleton _) fun e' he' => ?_
  rw [List.mem_singleton.1 he']
  exact ⟨hlow, (hconsistent.drawn.auditLogs e hmem).1⟩

theorem start (h : s.Sound p svc) {claims : Claims} {payload : WorkflowStartRequest} {n' : ℕ}
    {calls' : List ExecutorCall} (hop : req.operation = .workflow claims (.start payload))
    (hn : s.world.nextUuid < n') (hdrawn : (startedDb p s payload user (some req.requestId)).DrawnBefore n')
    {s' : LibraryState V} (hs' : s' = s.withPart ⟨startedDb p s payload user (some req.requestId), n', calls'⟩)
    (htrail : s'.db.trail =
      s.db.trail ++ [req.line (.inl (startedView p s payload user (some req.requestId)))])
    (hconsistent : Consistent p.service s'.part) : s'.Sound p svc := by
  have hdb : s.db.DrawnBefore s.world.nextUuid := h.consistent.drawn
  have haction : (req.line (.inl (startedView p s payload user (some req.requestId)))).action =
      startAction (startedRow p s payload user).status := by
    rw [HttpRequest.line, hop]
    rfl
  subst hs'
  exact
    { consistent := hconsistent
      agentRunsDrawn := by
        obtain ⟨hnodup, hlow⟩ := nodup_agentRunRows ⟨s.world.nextUuid⟩
          (payload.inputPayload.set "workflow_id" (.str (Uuid.mk s.world.nextUuid).str)) (s.world.nextUuid + 1)
          (startedSteps p s payload)
        refine h.agentRunsDrawn.append hn.le hnodup fun r hr => ⟨Nat.le_of_succ_le (hlow r hr), ?_⟩
        exact (hdrawn.agentRuns r (List.mem_append_right _ hr)).1
      documentsDrawn := h.documentsDrawn.mono hn.le
      chunksDrawn := h.chunksDrawn.mono hn.le
      embeddingsDrawn := h.embeddingsDrawn.mono hn.le
      auditLogsDrawn := by
        refine h.auditLogs_concat (e := startEntry ..) rfl ?_ hn.le hconsistent
        rw [startEntry_id]
        show s.world.nextUuid ≤ s.world.nextUuid + 1 + _ + _
        omega
      agentRuns := fun r hr => by
        show ((startedDb p s payload user (some req.requestId)).workflow? r.workflowId).isSome
        by_cases hid : r.workflowId = ⟨s.world.nextUuid⟩
        · rw [hid, startedDb, workflow?_startDb _ _ _ _ _ hdb]
          rfl
        · rw [startedDb, workflow?_startDb_of_ne hid]
          rcases List.mem_append.1 hr with hr | hr
          · exact h.agentRuns r hr
          · exact absurd (mem_agentRunRows hr).2 hid
      chunks := h.chunks
      embeddings := h.embeddings
      opened := by
        show openedIn (s.withPart _).db.trail = List.map _ (s.db.workflows ++ [startedRow p s payload user])
        rw [htrail, openedIn_concat, h.opened, haction, if_pos (startAction_mem _).1, List.map_append]
        rfl
      uploaded := by
        rw [htrail, uploadedIn_concat, h.uploaded, haction, if_neg (startAction_mem _).2, List.append_nil]
        rfl }

theorem decide (h : s.Sound p svc) {claims : Claims} {verdict : Verdict} {payload : ApprovalDecisionRequest}
    {w : Workflow} {args : DecideArgs} {n' : ℕ}
    (hop : req.operation = .workflow claims (.decide verdict w.id payload)) (hw : s.db.workflow? w.id = some w)
    (hn : s.world.nextUuid + 1 + p.service.auditDraws ≤ n') {s' : LibraryState V}
    (hs' : s' = s.withPart ⟨decideDb p.service w args s.world.nextUuid s.db.toDatabase, n', s.world.calls⟩)
    (htrail : s'.db.trail =
      s.db.trail ++ [req.line (.inl (decideView p.service w args s.world.nextUuid s.db.toDatabase))])
    (hconsistent : Consistent p.service s'.part) : s'.Sound p svc := by
  have hle : s.world.nextUuid ≤ n' := by omega
  have haction : (req.line (.inl (decideView p.service w args s.world.nextUuid s.db.toDatabase))).action =
      s!"workflow.{verdict.decision.value}" := by
    rw [HttpRequest.line, hop]
    rfl
  have hruns : (decideDb p.service w args s.world.nextUuid s.db.toDatabase).agentRuns = s.db.agentRuns :=
    agentRuns_apply
  have hids : (decideDb p.service w args s.world.nextUuid s.db.toDatabase).workflows.map Workflow.id =
      s.db.workflows.map Workflow.id := by
    show (DecideWrites.apply _ _ _ _).workflows.map Workflow.id = _
    rw [workflows_apply, ids_writeStatus]
  have hnames := congrArg (List.map fun id : Uuid => some id.str) hids
  rw [List.map_map, List.map_map] at hnames
  subst hs'
  exact
    { consistent := hconsistent
      agentRunsDrawn := (h.agentRunsDrawn.mono hle).of_map_eq (congrArg (List.map _) hruns)
      documentsDrawn := h.documentsDrawn.mono hle
      chunksDrawn := h.chunksDrawn.mono hle
      embeddingsDrawn := h.embeddingsDrawn.mono hle
      auditLogsDrawn := by
        refine h.auditLogs_concat (e := decideEntry w.id args ⟨s.world.nextUuid + 1⟩) ?_ (Nat.le_succ _) hle hconsistent
        show (DecideWrites.apply _ _ _ s.db.toDatabase).auditLogs ++ [decideEntry ..] = _
        rw [auditLogs_apply]
      agentRuns := fun r hr => by
        have hr : r ∈ (decideDb ..).agentRuns := hr
        rw [hruns] at hr
        show ((decideDb ..).workflow? r.workflowId).isSome
        rw [workflow?_decideDb _ _ _ hw]
        split
        · rfl
        · exact h.agentRuns r hr
      chunks := h.chunks
      embeddings := h.embeddings
      opened := by
        rw [htrail, openedIn_concat, h.opened, haction, if_neg (decision_not_mem verdict).1, List.append_nil]
        exact hnames.symm
      uploaded := by
        rw [htrail, uploadedIn_concat, h.uploaded, haction, if_neg (decision_not_mem verdict).2, List.append_nil]
        rfl }

theorem upload (h : s.Sound p svc) {r : UploadRequest} {files : FileSystem}
    (hop : req.operation = .upload r.claims r.filename r.contentType r.data r.kind) {s' : LibraryState V}
    (hs' : s' = ⟨uploadDb svc r user s.world.nextUuid s.db, (indexedWorld svc r user { s.world with files }).drawn 1⟩)
    (htrail : s'.db.trail = s.db.trail ++ [req.line (.inr (committedRow svc r user s.world.nextUuid))])
    (hconsistent : Consistent p.service s'.part) : s'.Sound p svc := by
  have hdocuments := h.documents_uploadDb r user
  have hn : s.world.nextUuid < s.world.nextUuid + (1 + 2 * r.contents.length) + 1 := by omega
  have haction : (req.line (.inr (committedRow svc r user s.world.nextUuid))).action = "document.uploaded" := by
    rw [HttpRequest.line, hop]
    rfl
  subst hs'
  exact
    { consistent := hconsistent
      agentRunsDrawn := h.agentRunsDrawn.mono hn.le
      documentsDrawn := by
        show Table.Drawn _ _ _ (uploadDb ..).documents
        rw [hdocuments]
        refine h.documentsDrawn.append hn.le (List.nodup_singleton _) fun d hd => ?_
        rw [List.mem_singleton.1 hd]
        exact ⟨le_rfl, hn⟩
      chunksDrawn := by
        refine h.chunksDrawn.append hn.le (nodup_chunkRows 0 (s.world.nextUuid + 1)) fun c hc => ?_
        obtain ⟨-, hlow, hhigh⟩ := mem_chunkRows hc
        exact ⟨Nat.le_of_succ_le hlow, hhigh.trans (by
          show _ < s.world.nextUuid + (1 + 2 * r.contents.length) + 1
          omega)⟩
      embeddingsDrawn := by
        refine h.embeddingsDrawn.append hn.le (nodup_embeddingRows svc (s.world.nextUuid + 1) r.contents) fun e he => ?_
        obtain ⟨hlow, hhigh⟩ := mem_embeddingRows he
        exact ⟨Nat.le_of_succ_le hlow, hhigh.trans (by
          show _ < s.world.nextUuid + (1 + 2 * r.contents.length) + 1
          omega)⟩
      auditLogsDrawn := h.auditLogs_concat (e := uploadEntry ..) rfl (Nat.le_add_right _ _) hn.le hconsistent
      agentRuns := h.agentRuns
      chunks := fun c hc => by
        show ∃ d ∈ (uploadDb ..).documents, _
        rw [hdocuments]
        rcases List.mem_append.1 hc with hc | hc
        · obtain ⟨d, hd, hid⟩ := h.chunks c hc
          exact ⟨d, List.mem_append_left _ hd, hid⟩
        · exact ⟨_, List.mem_append_right _ (List.mem_singleton_self _), (mem_chunkRows hc).1.symm⟩
      embeddings := List.rel_append h.embeddings (chunkRows_embed svc _ _ _ _)
      opened := by
        show openedIn (uploadDb ..).trail = _
        rw [htrail, openedIn_concat, h.opened, haction, if_neg (by decide), List.append_nil]
        rfl
      uploaded := by
        show uploadedIn (uploadDb ..).trail = (uploadDb ..).documents.map _
        rw [htrail, uploadedIn_concat, h.uploaded, haction, if_pos rfl, hdocuments, List.map_append]
        rfl }

theorem commit (h : s.Sound p svc) {result : WorkflowView ⊕ Document} {s' : LibraryState V}
    (hallowed : req.operation.Allowed user) (hcommits : req.Commits p svc s user result s')
    (hconsistent : Consistent p.service s'.part) : s'.Sound p svc := by
  have htrail := hcommits.trail hallowed
  cases hcommits with
  | start hop hn hdrawn => exact h.start hop hn hdrawn rfl htrail hconsistent
  | decide hop _ hw _ hn => exact h.decide hop hw hn rfl htrail hconsistent
  | upload hop _ _ => exact h.upload hop rfl htrail hconsistent

theorem next (h : s.Sound p svc) (i : HttpRequest × Faults Exn) : (serveStep p svc s i).2.Sound p svc := by
  have hconsistent : Consistent p.service (serveStep p svc s i).2.part :=
    HttpRequest.consistent_part h.consistent i
  rcases HttpRequest.step_cases p svc h.consistent.drawn i with ⟨e, -, hdb⟩ | ⟨user, result, -, hallowed, hcommits⟩
  · -- the rows stay, and at most more ids are drawn
    have hn : s.world.DrawsOn (serveStep p svc s i).2.world := HttpRequest.drawsOn_next i
    exact
      { consistent := hconsistent
        agentRunsDrawn := by rw [hdb]; exact h.agentRunsDrawn.mono hn
        documentsDrawn := by rw [hdb]; exact h.documentsDrawn.mono hn
        chunksDrawn := by rw [hdb]; exact h.chunksDrawn.mono hn
        embeddingsDrawn := by rw [hdb]; exact h.embeddingsDrawn.mono hn
        auditLogsDrawn := by rw [hdb]; exact h.auditLogsDrawn.mono hn
        agentRuns := by rw [hdb]; exact h.agentRuns
        chunks := by rw [hdb]; exact h.chunks
        embeddings := by rw [hdb]; exact h.embeddings
        opened := by rw [hdb]; exact h.opened
        uploaded := by rw [hdb]; exact h.uploaded }
  · exact h.commit hallowed hcommits hconsistent

theorem platform {T' σ' : Type} (h : s.Sound p svc) (p' : Platform V T' σ') : s.Sound p' svc where
  consistent := h.consistent.platform p'
  agentRunsDrawn := h.agentRunsDrawn
  documentsDrawn := h.documentsDrawn
  chunksDrawn := h.chunksDrawn
  embeddingsDrawn := h.embeddingsDrawn
  auditLogsDrawn := h.auditLogsDrawn
  agentRuns := h.agentRuns
  chunks := h.chunks
  embeddings := h.embeddings
  opened := h.opened
  uploaded := h.uploaded

theorem step {p : Platform V S σ} (h : s.Sound p svc) (i : HttpRequest × Faults Exn) :
    ((requestMachine p svc).next s i).Sound p svc :=
  ((h.platform (p.over svc s.world.vectors)).next i).platform p

theorem run (p : Platform V S σ) (svc : DocumentService V S) (files : FileSystem)
    (is : List (HttpRequest × Faults Exn)) : ((requestMachine p svc).run (.start files) is).Sound p svc :=
  Machine.run_invariant (I := LibraryState.Sound p svc) (fun _ i h => h.step i) (start_files p svc files) is

end LibraryState.Sound

/-- After any run of the API, one request at a time, the keys are unique and the references point at rows, the rows and the
audit log of every workflow agree, and the log opens each workflow and names each document once. -/
theorem integrity_kept (p : Platform V S σ) (svc : DocumentService V S) (files : FileSystem)
    (is : List (HttpRequest × Faults Exn)) :
    let db := ((requestMachine p svc).run (.start files) is).db
    Integrity svc db ∧
      ∀ w ∈ db.workflows, CommittedRows p.service db.toDatabase w ∧ AuditRefines db.toDatabase w := by
  intro db
  have h := LibraryState.Sound.run p svc files is
  refine ⟨h.integrity, fun w hw => ?_⟩
  obtain ⟨c, hc⟩ := h.consistent.represents w.id w (Table.lookup_of_mem h.consistent.workflowIds hw)
  exact ⟨hc.committedRows, hc.auditRefines rfl⟩

end BankingAi
