import BankingAi.Api.ExceptionHandlers
import BankingAi.Api.Listings

/-!
# The review queue

The queue lists the workflows that await a decision, by the time of their creation. A start that awaits
one enters it at the end, an approval or a rejection leaves it, an escalation stays. So the replies to all
requests tell the pages of `review_queue`, and whoever has the permissions can work them off. Requests are
served one after another, and workflows are created at increasing times.
-/

namespace BankingAi

open Posix Review

variable {V S T σ : Type}

/-! ### The pages of the queue -/

/-- Workflows are created at increasing times. -/
def Database.CreatedInOrder (createdAt : Uuid → ℤ) (db : Database) : Prop :=
  (db.workflows.map Workflow.id).Pairwise fun a b => createdAt a < createdAt b

/-- The part of a list that the page shows. -/
def PageQuery.cut {α : Type} (query : PageQuery) (l : List α) : List α := (l.drop query.offset).take query.pageSize

/-- The ids on the pages of `review_queue`, one page after another. -/
def browsed (db : Database) (orderBy : ℕ → OrderBy Workflow) (size : ℕ) (hsize : 1 ≤ size ∧ size ≤ 200) : List Uuid :=
  (List.range (reviewQueue db (orderBy 0) (.number size hsize 0)).info.totalPages).flatMap fun i =>
    (reviewQueue db (orderBy i) (.number size hsize i)).items.map Workflow.id

/-- The ids of the workflows that await a decision, in the order of the table. -/
def LibraryState.queue (s : LibraryState V) : List Uuid := s.db.awaiting.map Workflow.id

section pages

variable {s : LibraryState V} {createdAt : Uuid → ℤ} {orderBy : OrderBy Workflow}

/-- There is one order by the time of creation, that of the table. -/
theorem orderBy_awaiting (hcreated : s.db.CreatedInOrder createdAt)
    (horder : orderBy.Respects fun w => createdAt w.id) : orderBy s.db.awaiting = s.db.awaiting :=
  (horder s.db.awaiting).eq ((List.pairwise_map.1 hcreated).filter _)

theorem reviewQueue_queue (hcreated : s.db.CreatedInOrder createdAt)
    (horder : orderBy.Respects fun w => createdAt w.id) (query : PageQuery) :
    (reviewQueue s.db.toDatabase orderBy query).items.map Workflow.id = query.cut s.queue ∧
      (reviewQueue s.db.toDatabase orderBy query).info.total = s.queue.length := by
  constructor
  · show (((orderBy s.db.awaiting).drop query.offset).take query.pageSize).map Workflow.id = _
    rw [orderBy_awaiting hcreated horder, List.map_take, List.map_drop]
    rfl
  · exact (List.length_map _).symm

theorem browsed_eq {orderBy : ℕ → OrderBy Workflow} {size : ℕ} {hsize : 1 ≤ size ∧ size ≤ 200}
    (hcreated : s.db.CreatedInOrder createdAt) (horder : ∀ i, (orderBy i).Respects fun w => createdAt w.id) :
    browsed s.db.toDatabase orderBy size hsize = s.queue := by
  have hpage : ∀ i, (reviewQueue s.db.toDatabase (orderBy i) (.number size hsize i)).items.map Workflow.id =
      Paging.page s.queue size i := fun i =>
    (reviewQueue_queue hcreated (horder i) _).1
  have hcount : (reviewQueue s.db.toDatabase (orderBy 0) (.number size hsize 0)).info.totalPages =
      Paging.pages s.queue.length size := by
    rw [reviewQueue_eq, totalPages_listRows]
    exact congrArg (Paging.pages · size) (List.length_map _).symm
  unfold browsed
  rw [hcount]
  simp only [hpage]
  exact Paging.flatMap_pages (by omega) s.queue

end pages

/-! ### The queue along a run -/

/-- The queue after a reply that shows the workflow. -/
def requeue (q : List Uuid) (w : Workflow) : List Uuid :=
  if w.status ∈ decidable then if w.id ∈ q then q else q ++ [w.id] else q.filter (· ≠ w.id)

/-- The queue after a request that succeeds. -/
def requeued (q : List Uuid) : WorkflowView ⊕ Document → List Uuid
  | .inl view => requeue q view.workflow
  | .inr _ => q

/-- The queue after a step, by its reply alone. -/
def queued (q : List Uuid)
    (t : Transition (LibraryState V) (HttpRequest × Faults Exn) (Except Exn (WorkflowView ⊕ Document))) : List Uuid :=
  match t.output with
  | .ok result => requeued q result
  | .error _ => q

section table

variable {rows : List Workflow} {w : Workflow} {id : Uuid}

theorem mem_queue_iff {s : LibraryState V} {p : Platform V T σ} {svc : DocumentService V S} (h : s.Sound p svc) :
    id ∈ s.queue ↔ ∃ w, s.db.workflow? id = some w ∧ w.status ∈ decidable := by
  unfold LibraryState.queue Database.awaiting
  rw [List.mem_map]
  constructor
  · rintro ⟨w, hw, rfl⟩
    obtain ⟨hmem, hst⟩ := List.mem_filter.1 hw
    exact ⟨w, Table.lookup_of_mem h.consistent.workflowIds hmem, of_decide_eq_true hst⟩
  · rintro ⟨w, hw, hst⟩
    obtain ⟨hmem, hid⟩ := Table.lookup_eq_some hw
    exact ⟨w, List.mem_filter.2 ⟨hmem, decide_eq_true hst⟩, hid⟩

theorem awaiting_update (hids : (rows.map Workflow.id).Nodup) (hw : w ∈ rows) (hst : w.status ∈ decidable)
    (status : WorkflowStatus) :
    ((Table.update Workflow.id w.id ({ · with status }) rows).filter (·.status ∈ decidable)).map Workflow.id =
      if status ∈ decidable then (rows.filter (·.status ∈ decidable)).map Workflow.id
      else ((rows.filter (·.status ∈ decidable)).map Workflow.id).filter (· ≠ w.id) := by
  induction rows with
  | nil => simp [Table.update]
  | cons r rows ih =>
    obtain ⟨hr, hrest⟩ := List.nodup_cons.1 (List.map_cons ▸ hids)
    have hcons : Table.update Workflow.id w.id ({ · with status }) (r :: rows) =
        (if r.id = w.id then { r with status } else r) ::
          Table.update Workflow.id w.id ({ · with status }) rows := rfl
    rw [hcons]
    rcases List.mem_cons.1 hw with rfl | hmem
    · -- the row itself: no other one has its id
      have hne : ∀ x ∈ rows, x.id ≠ w.id := fun x hx heq => hr (heq ▸ List.mem_map_of_mem hx)
      have hout : ((rows.filter (·.status ∈ decidable)).map Workflow.id).filter (· ≠ w.id) =
          (rows.filter (·.status ∈ decidable)).map Workflow.id := by
        refine List.filter_eq_self.2 fun id hid => decide_eq_true ?_
        obtain ⟨x, hx, rfl⟩ := List.mem_map.1 hid
        exact hne x (List.mem_filter.1 hx).1
      rw [Table.update_eq_self hne, if_pos rfl]
      by_cases hs : status ∈ decidable
      · simp [hs, hst]
      · have hdropped : ({ w with status } :: rows).filter (fun r : Workflow => decide (r.status ∈ decidable)) =
            rows.filter (·.status ∈ decidable) := List.filter_cons_of_neg (by simpa using hs)
        have hkept : (w :: rows).filter (fun r : Workflow => decide (r.status ∈ decidable)) =
            w :: rows.filter (·.status ∈ decidable) := List.filter_cons_of_pos (decide_eq_true hst)
        rw [if_neg hs, hdropped, hkept, List.map_cons, List.filter_cons_of_neg (by simp), hout]
    · have hne : r.id ≠ w.id := fun heq => hr (heq ▸ List.mem_map_of_mem hmem)
      rw [if_neg hne]
      have ih := ih hrest hmem
      by_cases hs : status ∈ decidable
      · rw [if_pos hs] at ih ⊢
        by_cases hrs : r.status ∈ decidable
        · simp only [List.filter_cons, hrs, decide_true, if_true, List.map_cons, ih]
        · simp only [List.filter_cons, hrs, decide_false, Bool.false_eq_true, if_false, ih]
      · rw [if_neg hs] at ih ⊢
        by_cases hrs : r.status ∈ decidable
        · simp only [List.filter_cons, hrs, decide_true, if_true, List.map_cons, ih, ne_eq, hne, not_false_eq_true]
        · simp only [List.filter_cons, hrs, decide_false, Bool.false_eq_true, if_false, ih]

theorem workflows_writeStatus {db : Database} (hids : (db.workflows.map Workflow.id).Nodup) (hw : w ∈ db.workflows)
    (status : WorkflowStatus) :
    (writeStatus w.id (changed w.status status) db).workflows =
      Table.update Workflow.id w.id ({ · with status }) db.workflows := by
  unfold changed
  split
  case isTrue heq =>
    have hsame : ∀ r ∈ db.workflows, (if r.id = w.id then { r with status } else r) = r := by
      intro r hr
      split
      case isTrue hid =>
        obtain rfl := List.inj_on_of_nodup_map hids hr hw hid
        rw [← heq]
      case isFalse => rfl
    exact ((List.map_congr_left hsame).trans (List.map_id' _)).symm
  case isFalse => rfl

end table

section step

variable {p : Platform V T σ} {svc : DocumentService V S} {s s' : LibraryState V} {req : HttpRequest} {user : Uuid}
  {result : WorkflowView ⊕ Document}

theorem HttpRequest.Commits.queue (hsound : s.Sound p svc) (hcommits : req.Commits p svc s user result s') :
    s'.queue = requeued s.queue result := by
  cases hcommits with
  | @start claims payload n' calls' hop hn hdrawn =>
    have hnew : (startedRow p s payload user).id ∉ s.queue := by
      intro hmem
      obtain ⟨w, hw, hid⟩ := List.mem_map.1 hmem
      have hlt := (show s.db.DrawnBefore s.world.nextUuid from hsound.consistent.drawn).workflows w
        (List.mem_filter.1 hw).1
      rw [hid] at hlt
      exact lt_irrefl _ hlt
    have hrows : (s.db.workflows ++ [startedRow p s payload user]).filter (·.status ∈ decidable) =
        s.db.awaiting ++ [startedRow p s payload user].filter (·.status ∈ decidable) := List.filter_append ..
    show ((s.db.workflows ++ [startedRow p s payload user]).filter (·.status ∈ decidable)).map Workflow.id =
      requeue s.queue (startedRow p s payload user)
    rw [hrows, List.map_append, requeue]
    by_cases hst : (startedRow p s payload user).status ∈ decidable
    · have hin : [startedRow p s payload user].filter (·.status ∈ decidable) =
          [startedRow p s payload user] := List.filter_cons_of_pos (decide_eq_true hst)
      rw [if_pos hst, if_neg hnew, hin]
      rfl
    · have hout : s.queue.filter (· ≠ (startedRow p s payload user).id) = s.queue :=
        List.filter_eq_self.2 fun id hid => decide_eq_true fun heq => hnew (heq ▸ hid)
      have hnone : [startedRow p s payload user].filter (·.status ∈ decidable) = [] :=
        List.filter_cons_of_neg (by simpa using hst)
      rw [if_neg hst, hout, hnone]
      exact List.append_nil _
  | @decide claims verdict payload w args n' hop hargs hw hst hn =>
    have hids : (s.db.workflows.map Workflow.id).Nodup := hsound.consistent.workflowIds
    have hmem : w ∈ s.db.workflows := (Table.lookup_eq_some hw).1
    have hin : w.id ∈ s.queue := (mem_queue_iff hsound).2 ⟨w, hw, hst⟩
    have hrows : (decideDb p.service w args s.world.nextUuid s.db.toDatabase).workflows =
        Table.update Workflow.id w.id ({ · with status := args.finalStatus }) s.db.workflows := by
      show (DecideWrites.apply _ _ _ _).workflows = _
      rw [workflows_apply]
      exact workflows_writeStatus hids hmem _
    show ((decideDb p.service w args s.world.nextUuid s.db.toDatabase).workflows.filter
      (·.status ∈ decidable)).map Workflow.id = requeue s.queue { w with status := args.finalStatus }
    rw [hrows, awaiting_update hids hmem hst, requeue]
    by_cases hfinal : args.finalStatus ∈ decidable
    · rw [if_pos hfinal, if_pos hfinal, if_pos hin]
      rfl
    · rw [if_neg hfinal, if_neg hfinal]
      rfl
  | upload hop hid => rfl

theorem queue_next (h : s.Sound p svc) (i : HttpRequest × Faults Exn) :
    (serveStep p svc s i).2.queue = queued s.queue ⟨s, i, (serveStep p svc s i).1, (serveStep p svc s i).2⟩ := by
  unfold queued
  rcases HttpRequest.step_cases p svc h.consistent.drawn i with ⟨e, hr, hdb⟩ | ⟨user, result, hr, -, hcommits⟩
  · dsimp only
    rw [hr, LibraryState.queue, hdb]
    rfl
  · dsimp only
    rw [hr]
    exact hcommits.queue h

end step

theorem queue_run (p : Platform V S σ) (svc : DocumentService V S) (files : FileSystem)
    (is : List (HttpRequest × Faults Exn)) :
    ((requestMachine p svc).run (.start files) is).queue =
      ((requestMachine p svc).trace (.start files) is).foldl queued [] := by
  refine Machine.run_fold (I := LibraryState.Sound p svc) (fun s i h => h.step i)
    (LibraryState.Sound.start_files p svc files) is LibraryState.queue queued fun s i h => ?_
  exact queue_next (h.platform (p.over svc s.world.vectors)) i

/-- After any run of the API in which workflows are created at increasing times, every page of
`review_queue` is what the replies tell: who reads them, and nothing else, knows which workflows await a
decision, and in which order. -/
theorem queue_replayed (p : Platform V S σ) (svc : DocumentService V S) (files : FileSystem)
    (is : List (HttpRequest × Faults Exn)) (createdAt : Uuid → ℤ) (orderBy : OrderBy Workflow) (query : PageQuery) :
    let m := requestMachine p svc
    let db := (m.run (.start files) is).db
    let queue := (m.trace (.start files) is).foldl queued []
    db.CreatedInOrder createdAt → (orderBy.Respects fun w => createdAt w.id) →
      (reviewQueue db.toDatabase orderBy query).items.map Workflow.id = query.cut queue ∧
        (reviewQueue db.toDatabase orderBy query).info.total = queue.length := by
  intro m db queue hcreated horder
  rw [show queue = _ from (queue_run p svc files is).symm]
  exact reviewQueue_queue hcreated horder query

/-- The oldest first, by a stable sort. -/
def oldestFirst (createdAt : Uuid → ℤ) : OrderBy Workflow := fun rows =>
  rows.mergeSort fun a b => decide (createdAt a.id ≤ createdAt b.id)

theorem oldestFirst_respects (createdAt : Uuid → ℤ) :
    (oldestFirst createdAt).Respects fun w => createdAt w.id :=
  Paging.answers_mergeSort fun w : Workflow => createdAt w.id

/-- A clock that ticks with every id that is drawn. -/
def drawnAt (id : Uuid) : ℤ := id.draw

/-- The reviewer opens a case. -/
def kycRequest : HttpRequest where
  operation := .workflow reviewer (.start ⟨.kyc, .empty⟩)
  header := some "case-1"
  hex := "4d07a1be92f34c588e6b0c2f7d91a3e5"
  hexLength := by decide

theorem queue_replayed_kyc :
    let db := ((requestMachine plainPlatform countingService).run (.start freshFiles) [(kycRequest, .none)]).db
    (reviewQueue db.toDatabase (oldestFirst drawnAt) (.number 20 (by decide) 0)).items.map Workflow.id = [⟨0⟩] := by
  intro db
  have hids : db.workflows.map Workflow.id = [⟨0⟩] := by decide +kernel
  have hcreated : db.CreatedInOrder drawnAt := by
    unfold Database.CreatedInOrder
    rw [hids]
    exact List.pairwise_singleton _ _
  have hqueue := queue_run plainPlatform countingService freshFiles [(kycRequest, .none)]
  obtain ⟨hitems, -⟩ := queue_replayed plainPlatform countingService freshFiles [(kycRequest, .none)] drawnAt
    (oldestFirst drawnAt) (.number 20 (by decide) 0) hcreated (oldestFirst_respects drawnAt)
  rw [← hqueue] at hitems
  exact hitems.trans (by decide +kernel)

/-! ### Working it off -/

/-- The workflow that a request settles: an approval or a rejection by who may make it. -/
def HttpRequest.settles? (req : HttpRequest) : Option Uuid :=
  match req.operation with
  | .workflow claims (.decide verdict workflowId _) =>
    if verdict ≠ .escalate ∧ req.operation.permitted = true ∧ Uuid.ofStr? claims.sub ≠ none then some workflowId
    else none
  | _ => none

section settle

variable {p : Platform V T σ} {svc : DocumentService V S} {s : LibraryState V} {req : HttpRequest} {id : Uuid}

theorem settles?_eq_some (h : req.settles? = some id) :
    ∃ claims verdict payload, req.operation = .workflow claims (.decide verdict id payload) ∧ verdict ≠ .escalate ∧
      req.operation.permitted = true ∧ Uuid.ofStr? claims.sub ≠ none := by
  unfold HttpRequest.settles? at h
  split at h
  case h_1 claims verdict workflowId payload hop =>
    split at h
    case isTrue hmay =>
      obtain rfl := Option.some.inj h
      exact ⟨claims, verdict, payload, hop, hmay⟩
    case isFalse => cases h
  case h_2 => cases h

/-- Without faults it succeeds, and the workflow leaves the queue, but not the table. -/
theorem settles_step (hsound : s.Sound p svc) (hreq : req.settles? = some id) (hid : id ∈ s.queue) :
    ∃ result, (serveStep p svc s (req, .none)).1 = .ok result ∧
      (serveStep p svc s (req, .none)).2.queue = s.queue.filter (· ≠ id) ∧
        (serveStep p svc s (req, .none)).2.db.workflows.map Workflow.id = s.db.workflows.map Workflow.id := by
  obtain ⟨claims, verdict, payload, hop, hverdict, hperm, huser⟩ := settles?_eq_some hreq
  obtain ⟨w, hw, hst⟩ := (mem_queue_iff hsound).1 hid
  have hdone : req.operation.outcome svc s = .done := by
    unfold Operation.outcome
    rw [if_pos hperm, hop]
    dsimp only
    rw [if_neg huser, WorkflowCall.outcome, hw]
    exact if_pos hst
  obtain ⟨result, hresult⟩ := HttpRequest.ok_of_done hsound hdone
  obtain ⟨user, hallowed, hcommits⟩ := HttpRequest.commits_of_ok hsound.consistent.drawn hresult
  refine ⟨result, hresult, ?_⟩
  rw [hcommits.queue hsound]
  generalize (serveStep p svc s (req, .none)).2 = s' at hcommits
  cases hcommits with
  | start hop' => cases hop.symm.trans hop'
  | @decide _ _ _ w' args _ hop' hargs hw' =>
    cases hop.symm.trans hop'
    have hfinal : args.finalStatus ∉ decidable := by
      rw [hargs, ofVerdict_finalStatus]
      cases verdict with
      | approve => decide
      | reject => decide
      | escalate => exact absurd rfl hverdict
    refine ⟨if_neg hfinal, ?_⟩
    show (DecideWrites.apply _ _ _ _).workflows.map Workflow.id = _
    rw [workflows_apply, ids_writeStatus]
  | upload hop' => cases hop.symm.trans hop'

end settle

section enforcing

variable {p : Platform V S σ} {svc : DocumentService V S} {s : LibraryState V}

/-- The API on a database that enforces the lengths of its columns. -/
def enforcingMachine (p : Platform V S σ) (svc : DocumentService V S) :
    Machine (LibraryState V) (HttpRequest × Faults Exn) (Except Exn (WorkflowView ⊕ Document)) where
  step s i := (HttpRequest.enforcedMachine (p.over svc s.world.vectors) svc).step s i

theorem enforcing_eq (s : LibraryState V) (i : HttpRequest × Faults Exn) :
    (enforcingMachine p svc).step s i = (HttpRequest.enforcedMachine (p.over svc s.world.vectors) svc).step s i := rfl

theorem enforced_step (p : Platform V T σ) (svc : DocumentService V S) (s : LibraryState V)
    (i : HttpRequest × Faults Exn) :
    ∃ F, (HttpRequest.enforcedMachine p svc).step s i = serveStep p svc s (i.1, F) :=
  ⟨SessionM.refusing Library.Fits HttpRequest.tooLong (SessionM.committed (i.1.handle p svc)) ⟨s.db, .empty, s.world⟩ i.2,
    rfl⟩

/-- What every state of its runs satisfies. -/
structure LibraryState.Enforced (p : Platform V S σ) (svc : DocumentService V S) (s : LibraryState V) : Prop where
  sound : s.Sound p svc
  fits : s.db.Fits

theorem LibraryState.Enforced.step (h : s.Enforced p svc) (i : HttpRequest × Faults Exn) :
    ((enforcingMachine p svc).next s i).Enforced p svc := by
  obtain ⟨F, hF⟩ := enforced_step (p.over svc s.world.vectors) svc s i
  have hfits := HttpRequest.fits_next (p.over svc s.world.vectors) svc h.fits i
  have hsound := (h.sound.platform (p.over svc s.world.vectors)).next (i.1, F)
  rw [Machine.next] at hfits
  rw [← hF] at hsound
  rw [Machine.next, enforcing_eq]
  exact ⟨hsound.platform p, hfits⟩

theorem start_fits (files : FileSystem) : (LibraryState.start files : LibraryState V).db.Fits where
  database :=
    { workflows := fun _ h => absurd h List.not_mem_nil
      agentRuns := fun _ h => absurd h List.not_mem_nil
      approvals := fun _ h => absurd h List.not_mem_nil
      auditLogs := fun _ h => absurd h List.not_mem_nil }
  documents _ h := absurd h List.not_mem_nil
  embeddings _ h := absurd h List.not_mem_nil

theorem LibraryState.Enforced.run (p : Platform V S σ) (svc : DocumentService V S) (files : FileSystem)
    (is : List (HttpRequest × Faults Exn)) : ((enforcingMachine p svc).run (.start files) is).Enforced p svc :=
  Machine.run_invariant (I := LibraryState.Enforced p svc) (fun _ i h => h.step i)
    ⟨.start_files p svc files, start_fits files⟩ is

/-- A decision with an id that fits is served as if the lengths were not looked at. -/
theorem enforcing_settles (h : s.Enforced p svc) {req : HttpRequest} {id : Uuid} (hreq : req.settles? = some id)
    (hheader : req.requestId.length ≤ 64) (F : Faults Exn) :
    (enforcingMachine p svc).step s (req, F) = (requestMachine p svc).step s (req, F) := by
  obtain ⟨claims, verdict, payload, hop, -⟩ := settles?_eq_some hreq
  have hserved : req.serveEnforced (p.over svc s.world.vectors) svc s F = req.serve (p.over svc s.world.vectors) svc s F :=
    HttpRequest.served_workflow hop hheader h.fits F
  exact congrArg (fun r : Except Exn (WorkflowView ⊕ Document) × Library V × LibraryWorld V =>
    (r.1, LibraryState.mk r.2.1 r.2.2)) hserved

theorem settles_run (h : s.Enforced p svc) {reqs : List HttpRequest} {ids : List Uuid}
    (hreqs : List.Forall₂ (fun req id => req.settles? = some id) reqs ids)
    (hheaders : ∀ req ∈ reqs, req.requestId.length ≤ 64) (hids : ids.Nodup) (hqueue : ∀ id ∈ ids, id ∈ s.queue) :
    (∀ t ∈ (enforcingMachine p svc).trace s (reqs.map (·, .none)), ∃ result, t.output = .ok result) ∧
      ((enforcingMachine p svc).run s (reqs.map (·, .none))).queue = s.queue.filter (· ∉ ids) ∧
        ((enforcingMachine p svc).run s (reqs.map (·, .none))).db.workflows.map Workflow.id =
          s.db.workflows.map Workflow.id := by
  induction hreqs generalizing s with
  | nil => exact ⟨fun t ht => absurd ht List.not_mem_nil, by simp [Machine.run], rfl⟩
  | @cons req id reqs ids hreq _ ih =>
    obtain ⟨hid, hids⟩ := List.nodup_cons.1 hids
    obtain ⟨result, hok, hnext, hkept⟩ := settles_step (h.sound.platform (p.over svc s.world.vectors)) hreq
      (hqueue id List.mem_cons_self)
    have hstep := enforcing_settles h hreq (hheaders req List.mem_cons_self) .none
    have hok : ((enforcingMachine p svc).step s (req, .none)).1 = .ok result := by
      rw [hstep]
      exact hok
    have hnext : ((enforcingMachine p svc).next s (req, .none)).queue = s.queue.filter (· ≠ id) := by
      rw [Machine.next, hstep]
      exact hnext
    have hkept : ((enforcingMachine p svc).next s (req, .none)).db.workflows.map Workflow.id =
        s.db.workflows.map Workflow.id := by
      rw [Machine.next, hstep]
      exact hkept
    have hrest : ∀ x ∈ ids, x ∈ ((enforcingMachine p svc).next s (req, .none)).queue := by
      intro x hx
      rw [hnext]
      exact List.mem_filter.2 ⟨hqueue x (List.mem_cons_of_mem _ hx), decide_eq_true fun heq => hid (heq ▸ hx)⟩
    obtain ⟨htrace, hrun, hrows⟩ := ih (h.step (req, .none))
      (fun req hreq => hheaders req (List.mem_cons_of_mem _ hreq)) hids hrest
    refine ⟨fun t ht => ?_, ?_, ?_⟩
    · rcases List.mem_cons.1 ht with rfl | ht
      · exact ⟨result, hok⟩
      · exact htrace t ht
    · rw [List.map_cons, Machine.run, hrun, hnext, List.filter_filter]
      refine List.filter_congr fun x _ => ?_
      simp [Bool.and_comm]
    · rw [List.map_cons, Machine.run, hrows, hkept]

end enforcing

/-- Whatever happened before, the queue can be worked off, on a database that enforces the lengths of its
columns: when it does not fail, approvals and rejections of different workflows on the pages of
`review_queue`, each by who may make it and with a request id of at most 64 characters, all succeed, and
leave on the pages the other workflows in their order. -/
theorem queue_worked_off (p : Platform V S σ) (svc : DocumentService V S) (files : FileSystem)
    (is : List (HttpRequest × Faults Exn)) (reqs : List HttpRequest) (ids : List Uuid) (createdAt : Uuid → ℤ)
    (orderBy orderBy' : ℕ → OrderBy Workflow) (size : ℕ) (hsize : 1 ≤ size ∧ size ≤ 200)
    (hreqs : List.Forall₂ (fun req id => req.settles? = some id) reqs ids)
    (hheaders : ∀ req ∈ reqs, req.requestId.length ≤ 64) (hids : ids.Nodup)
    (horder : ∀ i, (orderBy i).Respects fun w => createdAt w.id)
    (horder' : ∀ i, (orderBy' i).Respects fun w => createdAt w.id) :
    let m := enforcingMachine p svc
    let s := m.run (.start files) is
    let s' := m.run s (reqs.map (·, .none))
    s.db.CreatedInOrder createdAt → (∀ id ∈ ids, id ∈ browsed s.db.toDatabase orderBy size hsize) →
      (∀ t ∈ m.trace s (reqs.map (·, .none)), ∃ result, t.output = .ok result) ∧
        browsed s'.db.toDatabase orderBy' size hsize =
          (browsed s.db.toDatabase orderBy size hsize).filter (· ∉ ids) := by
  intro m s s' hcreated hqueue
  rw [browsed_eq hcreated horder] at hqueue ⊢
  obtain ⟨htrace, hrun, hrows⟩ := settles_run (LibraryState.Enforced.run p svc files is) hreqs hheaders hids hqueue
  have hcreated' : s'.db.CreatedInOrder createdAt := by
    unfold Database.CreatedInOrder
    rw [show s'.db.workflows.map Workflow.id = _ from hrows]
    exact hcreated
  exact ⟨htrace, (browsed_eq hcreated' horder').trans hrun⟩

theorem queue_worked_off_kyc :
    let m := enforcingMachine plainPlatform countingService
    let s := m.run (.start freshFiles) [(kycRequest, .none)]
    (∃ result, (m.step s (approval none, .none)).1 = .ok result) ∧
      browsed (m.next s (approval none, .none)).db.toDatabase (fun _ => oldestFirst drawnAt) 20 (by decide) = [] := by
  intro m s
  have hids : s.db.workflows.map Workflow.id = [⟨0⟩] := by decide +kernel
  have hqueue : s.queue = [⟨0⟩] := by decide +kernel
  have hcreated : s.db.CreatedInOrder drawnAt := by
    unfold Database.CreatedInOrder
    rw [hids]
    exact List.pairwise_singleton _ _
  have horder : ∀ i : ℕ, OrderBy.Respects ((fun _ => oldestFirst drawnAt) i) fun w => drawnAt w.id := fun _ =>
    oldestFirst_respects drawnAt
  have hbrowsed : browsed s.db.toDatabase (fun _ => oldestFirst drawnAt) 20 (by decide) = [⟨0⟩] :=
    (browsed_eq hcreated horder).trans hqueue
  have hsettles : (approval none).settles? = some ⟨0⟩ := by
    have hperm : (approval none).operation.permitted = true := by decide +kernel
    have huser : Uuid.ofStr? reviewer.sub ≠ none := by
      rw [show Uuid.ofStr? reviewer.sub = some ⟨7⟩ from Uuid.ofStr?_str ⟨7⟩]
      exact Option.some_ne_none _
    exact if_pos ⟨by decide, hperm, huser⟩
  obtain ⟨hok, hleft⟩ := queue_worked_off plainPlatform countingService freshFiles [(kycRequest, .none)]
    [approval none] [⟨0⟩] drawnAt (fun _ => oldestFirst drawnAt) (fun _ => oldestFirst drawnAt) 20 (by decide)
    (.cons hsettles .nil) (by decide) (List.nodup_singleton _) horder horder hcreated fun id hid => by
      rw [show browsed _ _ _ _ = _ from hbrowsed]
      exact hid
  refine ⟨hok _ List.mem_cons_self, hleft.trans ?_⟩
  rw [show browsed _ _ _ _ = _ from hbrowsed]
  decide

end BankingAi
