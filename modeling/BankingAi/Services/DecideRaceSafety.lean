import BankingAi.Services.DecideRace

/-!
# When concurrent decisions are safe

`DecisionSafe` is what the decisions on one workflow should satisfy in every interleaving: one
ruling, which settles the status, and approval rows that each come from one request. The code does
not ensure it; it holds exactly in the interleavings where every commit still finds the rows as it
read them (`race_safe_iff`), so in particular when requests run one after another (`race_serial`).
-/

namespace BankingAi

open Review

def Race.status (workflowId : Uuid) (s : Race) : Option WorkflowStatus :=
  (s.db.workflow? workflowId).map Workflow.status

/-- The committed workflow still awaits a decision. -/
def Race.Open (workflowId : Uuid) (s : Race) : Prop := ∃ st ∈ decidable, s.status workflowId = some st

abbrev RaceTransition := Transition Race RaceStep (Option DecideWrites)

/-- The commit of an approval or a rejection. -/
def Ruling (req : ℕ → DecideRequest) (t : RaceTransition) : Prop :=
  t.output.isSome ∧ ∃ r, t.input = .commit r ∧ (req r).verdict ≠ .escalate

/-- The row holds the decision of a request. -/
structure Approval.From (a : Approval) (q : DecideRequest) : Prop where
  decision : a.decision = q.args.decision
  kind : a.kind = q.args.kind
  decidedBy : a.decidedBy = some q.decidedBy
  reason : a.decisionReason = q.reason

/-- What the commits of a run must respect. -/
structure CommitsSafe (workflowId : Uuid) (req : ℕ → DecideRequest) (T : List RaceTransition) : Prop where
  /-- at most one approval or rejection succeeds -/
  one_ruling : T.Pairwise fun t t' => ¬ (Ruling req t ∧ Ruling req t')
  /-- after it no request changes the status -/
  settled : T.Pairwise fun t t' => Ruling req t → t'.post.status workflowId = t'.pre.status workflowId
  /-- no request writes to a row that is already decided -/
  kept : ∀ t ∈ T, ∀ writes id changes, t.output = some writes → writes.approval = .update id changes →
    ∀ a ∈ t.pre.db.approvals, a.id = id → a.decision = .pending

/-- The run `T` from `s₀` to `s` is safe, and so are the rows it leaves. -/
structure DecisionSafe (workflowId : Uuid) (req : ℕ → DecideRequest) (s₀ : Race)
    (T : List RaceTransition) (s : Race) : Prop extends CommitsSafe workflowId req T where
  /-- every decided row was there before, or comes from one request that committed -/
  whole : ∀ a ∈ s.db.approvalsOf workflowId, a.decision ≠ .pending → a ∈ s₀.db.approvalsOf workflowId ∨
    ∃ t ∈ T, ∃ r, t.input = .commit r ∧ t.output.isSome ∧ a.From (req r)

/-- At its commit, the pending approval that the request read is still pending; or it read none, and
the workflow still awaits a decision or the request escalates one it read as escalated. -/
def CommitsOnCurrent (workflowId : Uuid) (req : ℕ → DecideRequest) (s : Race) (i : RaceStep) : Prop :=
  ∀ r view, i = .commit r → s.phase r = .loaded view →
    match view.approvals.find? (·.decision = .pending) with
    | some p => ∃ a ∈ s.db.approvals, a.id = p.id ∧ a.decision = .pending
    | none => s.Open workflowId ∨ ((req r).verdict = .escalate ∧ view.workflow.status = .escalated)

section safety

variable {svc : WorkflowService} {workflowId : Uuid} {req : ℕ → DecideRequest} {s s' : Race} {r : ℕ}
  {view : WorkflowView}

/-- A pending approval means that the workflow awaits its first decision. -/
def PendingAwaits (workflowId : Uuid) (s : Race) : Prop :=
  ∀ a ∈ s.db.approvals, a.workflowId = workflowId → a.decision = .pending →
    s.status workflowId = some .awaitingApproval

theorem status_afterCommit :
    (s.afterCommit svc workflowId req r view).status workflowId =
      (s.status workflowId).map fun st =>
        (changed view.workflow.status (req r).args.finalStatus).getD st := by
  unfold Race.status
  rw [workflow?_afterCommit, Option.map_map, Option.map_map]
  rfl

theorem DecideRequest.finalStatus (q : DecideRequest) :
    q.args.finalStatus = q.verdict.state.status :=
  ofVerdict_finalStatus ..

theorem not_pending_afterCommit (hinv : RaceInv workflowId s) (hphase : s.phase r = .loaded view)
    (hcur : CommitsOnCurrent workflowId req s (.commit r)) {a : Approval}
    (ha : a ∈ (s.afterCommit svc workflowId req r view).db.approvals)
    (hwid : a.workflowId = workflowId) : a.decision ≠ .pending := by
  intro hp
  have hv := hinv.loaded r view hphase
  obtain ⟨hold, hne⟩ := pending_of_afterCommit ha hp
  have hmem := hv.complete a hold hwid hp
  have hcur := hcur r view rfl hphase
  cases hfind : view.approvals.find? (·.decision = .pending) with
  | none =>
    have := List.find?_eq_none.1 hfind a hmem
    simp [hp] at this
  | some p =>
    rw [hfind] at hcur
    obtain ⟨b, hb, hid, hbp⟩ := hcur
    have hpv := List.mem_of_find?_eq_some hfind
    obtain rfl : b = p := hv.unchanged p hpv (by simpa using List.find?_some hfind) b hb hid hbp
    obtain rfl := hinv.unique a hold b hb hwid (hv.rows b hpv) hp hbp
    exact hne a hfind rfl

theorem pendingAwaits_next (hinv : RaceInv workflowId s) (h : PendingAwaits workflowId s) {i : RaceStep}
    (hcur : CommitsOnCurrent workflowId req s i) :
    PendingAwaits workflowId ((raceMachine svc workflowId req).next s i) := by
  unfold Machine.next
  rcases race_step s i with ⟨r, view, rfl, hphase, heq⟩ | ⟨s', heq, hdb, -, -⟩
  · rw [heq]
    exact fun a ha hwid hp => absurd hp (not_pending_afterCommit hinv hphase hcur ha hwid)
  · rw [heq]
    unfold PendingAwaits Race.status
    rw [hdb]
    exact h

/-- On current rows, a commit is made while the workflow is open, or leaves the status as it is. -/
theorem open_or_settled (hinv : RaceInv workflowId s) (h : PendingAwaits workflowId s)
    (hphase : s.phase r = .loaded view) (hcur : CommitsOnCurrent workflowId req s (.commit r)) :
    s.Open workflowId ∨ ((req r).verdict = .escalate ∧
      (s.afterCommit svc workflowId req r view).status workflowId = s.status workflowId) := by
  have hv := hinv.loaded r view hphase
  have hcur := hcur r view rfl hphase
  cases hfind : view.approvals.find? (·.decision = .pending) with
  | some p =>
    rw [hfind] at hcur
    obtain ⟨b, hb, hid, hbp⟩ := hcur
    have hpv := List.mem_of_find?_eq_some hfind
    obtain rfl : b = p := hv.unchanged p hpv (by simpa using List.find?_some hfind) b hb hid hbp
    exact .inl ⟨_, by simp [decidable], h b hb (hv.rows b hpv) hbp⟩
  | none =>
    rw [hfind] at hcur
    refine hcur.imp_right ?_
    rintro ⟨hverdict, hst⟩
    refine ⟨hverdict, ?_⟩
    rw [status_afterCommit, DecideRequest.finalStatus, hverdict, hst]
    show (s.status workflowId).map id = _
    rw [Option.map_id, id]

theorem not_open_afterCommit (hinv : RaceInv workflowId s) (hphase : s.phase r = .loaded view)
    (hverdict : (req r).verdict ≠ .escalate) :
    ¬ (s.afterCommit svc workflowId req r view).Open workflowId := by
  rintro ⟨st, hst, heq⟩
  have hview := (hinv.loaded r view hphase).decidable
  have hfinal : (req r).args.finalStatus ∉ decidable := by
    rw [DecideRequest.finalStatus]
    revert hverdict
    cases (req r).verdict <;> simp [decidable, Verdict.state, CaseState.status]
  have hne : view.workflow.status ≠ (req r).args.finalStatus := fun h => hfinal (h ▸ hview)
  rw [status_afterCommit, changed, if_neg hne] at heq
  obtain ⟨st', -, rfl⟩ := Option.map_eq_some_iff.1 heq
  exact hfinal hst

/-- The invariant of the interleavings whose commits all find the rows as they were read. -/
structure SafeInv (workflowId : Uuid) (s : Race) : Prop extends RaceInv workflowId s where
  awaits : PendingAwaits workflowId s

theorem safeInv_next (h : SafeInv workflowId s) {i : RaceStep} (hcur : CommitsOnCurrent workflowId req s i) :
    SafeInv workflowId ((raceMachine svc workflowId req).next s i) :=
  ⟨raceInv_next h.toRaceInv i, pendingAwaits_next h.toRaceInv h.awaits hcur⟩

theorem closed_next (h : SafeInv workflowId s) {i : RaceStep}
    (hcur : CommitsOnCurrent workflowId req s i) (hclosed : ¬ s.Open workflowId) :
    ¬ Ruling req ((raceMachine svc workflowId req).fire s i) ∧
      ((raceMachine svc workflowId req).next s i).status workflowId = s.status workflowId := by
  unfold Ruling Machine.fire Machine.next
  rcases race_step s i with ⟨r, view, rfl, hphase, heq⟩ | ⟨s', heq, hdb, -, -⟩
  · rw [heq]
    obtain ⟨hverdict, hst⟩ := (open_or_settled h.toRaceInv h.awaits hphase hcur).resolve_left hclosed
    refine ⟨?_, hst⟩
    rintro ⟨-, q, hq, hne⟩
    cases hq
    exact hne hverdict
  · rw [heq]
    refine ⟨fun h => by simpa using h.1, ?_⟩
    unfold Race.status
    rw [hdb]

theorem ruling_next (h : SafeInv workflowId s) {i : RaceStep}
    (hr : Ruling req ((raceMachine svc workflowId req).fire s i)) :
    ¬ ((raceMachine svc workflowId req).next s i).Open workflowId := by
  obtain ⟨hsome, r, hi, hverdict⟩ := hr
  unfold Machine.fire at hsome hi
  unfold Machine.next
  rcases race_step s i with ⟨q, view, rfl, hphase, heq⟩ | ⟨s', heq, -, -, -⟩
  · cases hi
    rw [heq]
    exact not_open_afterCommit h.toRaceInv hphase hverdict
  · rw [heq] at hsome
    cases hsome

theorem open_congr (h : s'.status workflowId = s.status workflowId) :
    s'.Open workflowId ↔ s.Open workflowId := by
  unfold Race.Open
  rw [h]

theorem closed_trace (h : SafeInv workflowId s) (hclosed : ¬ s.Open workflowId) {is : List RaceStep}
    (hcur : ∀ t ∈ (raceMachine svc workflowId req).trace s is,
      CommitsOnCurrent workflowId req t.pre t.input) :
    ∀ t ∈ (raceMachine svc workflowId req).trace s is,
      ¬ Ruling req t ∧ t.post.status workflowId = t.pre.status workflowId := by
  induction is generalizing s with
  | nil => simp [Machine.trace]
  | cons i is ih =>
    have hi := hcur _ List.mem_cons_self
    have hnext : ¬ Ruling req ((raceMachine svc workflowId req).fire s i) ∧ _ :=
      closed_next h hi hclosed
    intro t ht
    rcases List.mem_cons.1 ht with rfl | ht
    · exact hnext
    · exact ih (safeInv_next h hi) (fun ho => hclosed ((open_congr hnext.2).1 ho))
        (fun t ht => hcur t (List.mem_cons_of_mem _ ht)) t ht

/-- In a run on current rows there is at most one ruling, and the status stays as it leaves it. -/
theorem pairwise_trace (h : SafeInv workflowId s) {is : List RaceStep}
    (hcur : ∀ t ∈ (raceMachine svc workflowId req).trace s is,
      CommitsOnCurrent workflowId req t.pre t.input) :
    ((raceMachine svc workflowId req).trace s is).Pairwise fun t t' =>
      Ruling req t → ¬ Ruling req t' ∧ t'.post.status workflowId = t'.pre.status workflowId := by
  induction is generalizing s with
  | nil => exact .nil
  | cons i is ih =>
    have hi := hcur _ List.mem_cons_self
    have hcur' := fun t ht => hcur t (List.mem_cons_of_mem _ ht)
    exact .cons (fun t ht hr => closed_trace (safeInv_next h hi) (ruling_next h hr) hcur' t ht)
      (ih (safeInv_next h hi) hcur')

theorem decided_from (p : Approval) (q : DecideRequest) : (p.decided q.args).From q := by
  obtain ⟨verdict, _, _, _⟩ := q
  cases verdict <;> exact ⟨rfl, rfl, rfl, rfl⟩

theorem newApproval_from (id : Uuid) (q : DecideRequest) :
    (newApproval workflowId q.args id).From q := by
  obtain ⟨verdict, _, _, _⟩ := q
  cases verdict <;> exact ⟨rfl, rfl, rfl, rfl⟩

theorem whole_next (h : SafeInv workflowId s) {i : RaceStep} (hcur : CommitsOnCurrent workflowId req s i)
    {a : Approval} (ha : a ∈ ((raceMachine svc workflowId req).next s i).db.approvals) :
    a ∈ s.db.approvals ∨ ∃ r, i = .commit r ∧
      ((raceMachine svc workflowId req).step s i).1.isSome ∧ a.From (req r) := by
  unfold Machine.next at ha
  rcases race_step s i with ⟨r, view, rfl, hphase, heq⟩ | ⟨s', heq, hdb, -, -⟩
  · rw [heq] at ha ⊢
    rcases mem_approvals_apply ha with ⟨ha, -⟩ | ⟨p, hfind, b, hb, hid, rfl⟩ | ⟨-, rfl⟩
    · exact .inl ha
    · have hv := h.loaded r view hphase
      have hcur := hcur r view rfl hphase
      rw [hfind] at hcur
      obtain ⟨b', hb', hid', hbp⟩ := hcur
      obtain rfl : b = b' := List.inj_on_of_nodup_map h.ids hb hb' (hid.trans hid'.symm)
      obtain rfl : b = p := hv.unchanged p (List.mem_of_find?_eq_some hfind)
        (by simpa using List.find?_some hfind) b hb hid hbp
      rw [approvalChanges_apply]
      exact .inr ⟨r, rfl, rfl, decided_from ..⟩
    · exact .inr ⟨r, rfl, rfl, newApproval_from ..⟩
  · rw [heq, hdb] at ha
    exact .inl ha

theorem kept_next (h : SafeInv workflowId s) {i : RaceStep} (hcur : CommitsOnCurrent workflowId req s i)
    {writes : DecideWrites} {id : Uuid} {changes : ApprovalChanges}
    (hout : ((raceMachine svc workflowId req).step s i).1 = some writes)
    (hwrite : writes.approval = .update id changes) {a : Approval} (ha : a ∈ s.db.approvals)
    (hid : a.id = id) : a.decision = .pending := by
  rcases race_step s i with ⟨r, view, rfl, hphase, heq⟩ | ⟨s', heq, -, -, -⟩
  · rw [heq] at hout
    cases hout
    have hcur := hcur r view rfl hphase
    unfold decideWrites at hwrite
    cases hfind : view.approvals.find? (·.decision = .pending) with
    | none => rw [hfind] at hwrite; cases hwrite
    | some p =>
      rw [hfind] at hwrite hcur
      cases hwrite
      obtain ⟨b, hb, hbid, hbp⟩ := hcur
      rwa [List.inj_on_of_nodup_map h.ids ha hb (hid.trans hbid.symm)]
  · rw [heq] at hout
    cases hout

theorem safeInv_run (h : SafeInv workflowId s) {is : List RaceStep}
    (hcur : ∀ t ∈ (raceMachine svc workflowId req).trace s is,
      CommitsOnCurrent workflowId req t.pre t.input) :
    SafeInv workflowId ((raceMachine svc workflowId req).run s is) :=
  Machine.run_invariant_of (I := SafeInv workflowId) (G := CommitsOnCurrent workflowId req)
    (fun _ _ hG hI => safeInv_next hI hG) h hcur

theorem whole_run (h : SafeInv workflowId s) {is : List RaceStep}
    (hcur : ∀ t ∈ (raceMachine svc workflowId req).trace s is,
      CommitsOnCurrent workflowId req t.pre t.input) :
    ∀ a ∈ ((raceMachine svc workflowId req).run s is).db.approvals, a ∈ s.db.approvals ∨
      ∃ t ∈ (raceMachine svc workflowId req).trace s is, ∃ r, t.input = .commit r ∧
        t.output.isSome ∧ a.From (req r) := by
  induction is using List.reverseRecOn with
  | nil => exact fun a ha => .inl ha
  | append_singleton is i ih =>
    rw [Machine.trace_concat] at hcur ⊢
    rw [Machine.run_concat]
    have hcur' := fun t ht => hcur t (List.mem_append_left _ ht)
    intro a ha
    rcases whole_next (safeInv_run h hcur')
      (hcur _ (List.mem_append_right _ (List.mem_singleton_self _))) ha with ha | ⟨r, hi, hsome, hfrom⟩
    · rcases ih hcur' a ha with ha | ⟨t, ht, h'⟩
      · exact .inl ha
      · exact .inr ⟨t, List.mem_append_left _ ht, h'⟩
    · exact .inr ⟨_, List.mem_append_right _ (List.mem_singleton_self _), r, hi, hsome, hfrom⟩

theorem safe_of_current (h : SafeInv workflowId s) {is : List RaceStep}
    (hcur : ∀ t ∈ (raceMachine svc workflowId req).trace s is,
      CommitsOnCurrent workflowId req t.pre t.input) :
    DecisionSafe workflowId req s ((raceMachine svc workflowId req).trace s is)
      ((raceMachine svc workflowId req).run s is) where
  one_ruling := (pairwise_trace h hcur).imp fun ht hr => (ht hr.1).1 hr.2
  settled := (pairwise_trace h hcur).imp fun ht hr => (ht hr).2
  whole a ha _ := by
    obtain ⟨ha, hwid⟩ := List.mem_filter.1 ha
    exact (whole_run h hcur a ha).imp_left fun ha => List.mem_filter.2 ⟨ha, hwid⟩
  kept t ht writes id changes hout hwrite a ha hid := by
    obtain ⟨js, i, hp, rfl⟩ := Machine.mem_trace ht
    have hcur' : ∀ t ∈ (raceMachine svc workflowId req).trace s js,
        CommitsOnCurrent workflowId req t.pre t.input := fun u hu => hcur u <| by
      obtain ⟨ks, rfl⟩ := (List.prefix_append js [i]).trans hp
      rw [Machine.trace_append]
      exact List.mem_append_left _ hu
    exact kept_next (safeInv_run h hcur') (hcur _ ht) hout hwrite ha hid

/-! ### Only such runs are safe -/

/-- No request has come past the check of the status. -/
def NoneLoaded (s : Race) : Prop :=
  ∀ r, (∀ view, s.phase r ≠ .loaded view) ∧ ∀ w, s.phase r = .loadedWorkflow w → w.status ∉ decidable

theorem open_next (h : s.Open workflowId) (i : RaceStep) :
    ((raceMachine svc workflowId req).next s i).Open workflowId ∨
      Ruling req ((raceMachine svc workflowId req).fire s i) := by
  unfold Machine.next Ruling Machine.fire
  rcases race_step s i with ⟨r, view, rfl, -, heq⟩ | ⟨s', heq, hdb, -, -⟩
  · rw [heq]
    by_cases hverdict : (req r).verdict = .escalate
    · obtain ⟨st, hst, hs⟩ := h
      refine .inl ⟨_, ?_, by rw [status_afterCommit, hs]; rfl⟩
      rw [DecideRequest.finalStatus, hverdict]
      unfold changed
      split
      · exact hst
      · simp [Verdict.state, CaseState.status, decidable]
    · exact .inr ⟨rfl, r, rfl, hverdict⟩
  · rw [heq]
    left
    unfold Race.Open Race.status
    rw [hdb]
    exact h

theorem noneLoaded_next (h : NoneLoaded s) (hclosed : ¬ s.Open workflowId) (i : RaceStep) :
    NoneLoaded ((raceMachine svc workflowId req).next s i) := by
  unfold Machine.next
  rcases race_step s i with ⟨r, view, rfl, hphase, -⟩ | ⟨s', heq, hdb, -, hstep⟩
  · exact absurd hphase ((h r).1 view)
  · rw [heq]
    intro r
    have hr := hstep r
    generalize hp : s.phase r = p at hr
    refine ⟨fun view hview => ?_, fun w hw => ?_⟩
    · rw [hview] at hr
      cases hr with
      | same => exact (h r).1 view hp
      | readApprovals hst => exact (h r).2 _ hp hst
    · rw [hw] at hr
      cases hr with
      | same => exact (h r).2 w hp
      | readWorkflow _ hfound =>
        exact fun hst => hclosed ⟨w.status, hst, by rw [Race.status, hfound]; rfl⟩

/-- As long as nothing is ruled, the workflow is open or no request can commit. -/
theorem ruled_or_open (h : ∀ r, s.phase r = .waiting) (is : List RaceStep) :
    (∃ t ∈ (raceMachine svc workflowId req).trace s is, Ruling req t) ∨
      ((raceMachine svc workflowId req).run s is).Open workflowId ∨
      NoneLoaded ((raceMachine svc workflowId req).run s is) := by
  induction is using List.reverseRecOn with
  | nil =>
    refine .inr (.inr fun r => ⟨fun view hv => ?_, fun w hw => ?_⟩)
    · cases (h r).symm.trans hv
    · cases (h r).symm.trans hw
  | append_singleton is i ih =>
    rw [Machine.trace_concat, Machine.run_concat]
    have hopen : ((raceMachine svc workflowId req).run s is).Open workflowId →
        (∃ t ∈ (raceMachine svc workflowId req).trace s is ++
          [(raceMachine svc workflowId req).fire ((raceMachine svc workflowId req).run s is) i],
            Ruling req t) ∨
        ((raceMachine svc workflowId req).next ((raceMachine svc workflowId req).run s is) i).Open
          workflowId := fun ho =>
      (open_next ho i).symm.imp_left fun hr =>
        ⟨_, List.mem_append_right _ (List.mem_singleton_self _), hr⟩
    rcases ih with ⟨t, ht, hr⟩ | ho | hn
    · exact .inl ⟨t, List.mem_append_left _ ht, hr⟩
    · exact (hopen ho).imp_right .inl
    · by_cases ho : ((raceMachine svc workflowId req).run s is).Open workflowId
      · exact (hopen ho).imp_right .inl
      · exact .inr (.inr (noneLoaded_next hn ho i))

theorem CommitsSafe.left {T U : List RaceTransition} (h : CommitsSafe workflowId req (T ++ U)) :
    CommitsSafe workflowId req T where
  one_ruling := (List.pairwise_append.1 h.one_ruling).1
  settled := (List.pairwise_append.1 h.settled).1
  kept t ht := h.kept t (List.mem_append_left _ ht)

/-- The last commit of a safe run was made on current rows, if the ones before it were. -/
theorem last_current (h : SafeInv workflowId s) (hstart : ∀ r, s.phase r = .waiting)
    {is : List RaceStep} {i : RaceStep}
    (hcur : ∀ t ∈ (raceMachine svc workflowId req).trace s is,
      CommitsOnCurrent workflowId req t.pre t.input)
    (hsafe : CommitsSafe workflowId req ((raceMachine svc workflowId req).trace s (is ++ [i]))) :
    CommitsOnCurrent workflowId req ((raceMachine svc workflowId req).run s is) i := by
  rintro r view rfl hphase
  have hinv := safeInv_run h hcur
  have hv := hinv.loaded r view hphase
  rw [Machine.trace_concat] at hsafe
  have hstep : (raceMachine svc workflowId req).step _ (.commit r) = _ := step_commit hphase
  cases hfind : view.approvals.find? (·.decision = .pending) with
  | some p =>
    obtain ⟨a, ha, hid⟩ := List.mem_map.1 (hv.persists p (List.mem_of_find?_eq_some hfind))
    refine ⟨a, ha, hid, hsafe.kept _ (List.mem_append_right _ (List.mem_singleton_self _)) _ p.id
      (approvalChanges p (req r).args) (congrArg Prod.fst hstep) ?_ a ha hid⟩
    rw [decideWrites, hfind]
  | none =>
    by_contra hnot
    obtain ⟨hclosed, hnot⟩ := not_or.1 hnot
    -- a request has passed the check of the status, so a ruling has closed the workflow since
    obtain ⟨t, ht, hr⟩ := (ruled_or_open hstart is).resolve_right fun ho =>
      ho.elim hclosed fun hn => (hn r).1 view hphase
    have h1 := (List.pairwise_append.1 hsafe.one_ruling).2.2 t ht _ (List.mem_singleton_self _)
    have h2 := (List.pairwise_append.1 hsafe.settled).2.2 t ht _ (List.mem_singleton_self _) hr
    have hverdict : (req r).verdict = .escalate := by
      by_contra hne
      exact h1 ⟨hr, by rw [Machine.fire, hstep]; rfl, r, rfl, hne⟩
    have hst : view.workflow.status ≠ Verdict.escalate.state.status := fun hst => hnot ⟨hverdict, hst⟩
    obtain ⟨w, hw⟩ := Option.isSome_iff_exists.1 hv.found
    -- so this escalation writes the status
    simp only [Machine.fire, Machine.next, hstep] at h2
    rw [status_afterCommit, DecideRequest.finalStatus, hverdict, changed, if_neg hst, Race.status, hw] at h2
    exact hclosed ⟨.escalated, by simp [decidable], by rw [Race.status, hw]; exact h2.symm⟩

theorem current_of_safe (h : SafeInv workflowId s) (hstart : ∀ r, s.phase r = .waiting)
    {is : List RaceStep}
    (hsafe : CommitsSafe workflowId req ((raceMachine svc workflowId req).trace s is)) :
    ∀ t ∈ (raceMachine svc workflowId req).trace s is, CommitsOnCurrent workflowId req t.pre t.input := by
  induction is using List.reverseRecOn with
  | nil => simp [Machine.trace]
  | append_singleton is i ih =>
    have hcur := ih (by rw [Machine.trace_concat] at hsafe; exact hsafe.left)
    rw [Machine.trace_concat]
    intro t ht
    rcases List.mem_append.1 ht with ht | ht
    · exact hcur t ht
    · rw [List.mem_singleton.1 ht]
      exact last_current h hstart hcur hsafe

end safety

theorem safeInv_start {svc : WorkflowService} {s : Committed} (h : Consistent svc s)
    (workflowId : Uuid) : SafeInv workflowId (Race.start s) where
  toRaceInv := raceInv_start h
  awaits a ha hwid hp := by
    obtain ⟨w, hw⟩ := Option.isSome_iff_exists.1 (h.owned a ha)
    obtain ⟨c, hc⟩ := h.represents _ w hw
    have hid := (Table.lookup_eq_some hw).2
    rw [hwid] at hw hid
    have hst := hc.committedRows.pending_iff.1
      ⟨a, List.mem_filter.2 ⟨ha, by rw [hwid, hid]; simp⟩, hp⟩
    show (s.db.workflow? workflowId).map Workflow.status = _
    rw [hw, Option.map_some, hst]

/-- From any committed state, concurrent requests on a workflow keep it safe exactly when every commit
finds the rows as its request read them. -/
theorem race_safe_iff (svc : WorkflowService) (ops : List (WorkflowOp × Faults Exn))
    (workflowId : Uuid) (req : ℕ → DecideRequest) (is : List RaceStep) :
    let s := Race.start ((workflowMachine svc).run .empty ops)
    DecisionSafe workflowId req s ((raceMachine svc workflowId req).trace s is)
        ((raceMachine svc workflowId req).run s is) ↔
      ∀ t ∈ (raceMachine svc workflowId req).trace s is,
        CommitsOnCurrent workflowId req t.pre t.input := by
  intro s
  have h := safeInv_start (consistent_run svc ops) workflowId
  exact ⟨fun hsafe => current_of_safe h (fun _ => rfl) hsafe.toCommitsSafe, safe_of_current h⟩

/-- An approval and a rejection of the same workflow. -/
def approveAndReject : ℕ → DecideRequest
  | 0 => ⟨.approve, ⟨100⟩, some "checked", none⟩
  | _ => ⟨.reject, ⟨101⟩, none, none⟩

/-- Both requests read the pending approval before either commits: both rulings succeed. -/
theorem race_not_safe :
    let s := Race.start ((workflowMachine silentService).run .empty [(.start .kyc .empty none none, .none)])
    let is := [.readWorkflow 0, .readApprovals 0, .readWorkflow 1, .readApprovals 1, .commit 0, .commit 1]
    ¬ DecisionSafe ⟨0⟩ approveAndReject s ((raceMachine silentService ⟨0⟩ approveAndReject).trace s is)
      ((raceMachine silentService ⟨0⟩ approveAndReject).run s is) := by
  intro s is h
  have h45 := List.pairwise_iff_getElem.1 h.one_ruling 4 5 (by decide) (by decide) (by decide)
  exact h45 ⟨⟨rfl, 0, rfl, by decide⟩, ⟨rfl, 1, rfl, by decide⟩⟩

/-! ### One request at a time -/

theorem race_serial {svc : WorkflowService} {s : Committed} {w : Workflow} (req : ℕ → DecideRequest)
    (r : ℕ) (hw : s.db.workflow? w.id = some w) (hst : w.status ∈ decidable) :
    ((raceMachine svc w.id req).run (Race.start s) [.readWorkflow r, .readApprovals r, .commit r]).db =
      ((workflowMachine svc).next s (.decide (req r).verdict w.id (req r).decidedBy (req r).reason
        (req r).requestId, .none)).db := by
  obtain ⟨memory', n', -, hrun⟩ := decide_run svc (req r).args s.world.nextUuid s.world.calls hw hst
  have hseq : ((workflowMachine svc).next s (.decide (req r).verdict w.id (req r).decidedBy
      (req r).reason (req r).requestId, .none)).db =
      decideDb svc w (req r).args s.world.nextUuid s.db := by
    unfold Machine.next workflowMachine
    dsimp only
    rw [body_decide]
    exact congrArg (·.2.1) (SessionM.transact_of_ok hrun)
  have h₁ : (raceMachine svc w.id req).next (Race.start s) (.readWorkflow r) =
      (Race.start s).setPhase r (.loadedWorkflow w) := by
    simp only [Machine.next, raceMachine, Race.start, hw]
  have h₂ : (raceMachine svc w.id req).next ((Race.start s).setPhase r (.loadedWorkflow w))
      (.readApprovals r) = ((Race.start s).setPhase r (.loadedWorkflow w)).setPhase r
        (.loaded ⟨w, s.db.agentRunsOf w.id, s.db.approvalsOf w.id⟩) := by
    simp only [Machine.next, raceMachine, Race.setPhase, Function.update_self, if_pos hst]
    rfl
  have h₃ : (((Race.start s).setPhase r (.loadedWorkflow w)).setPhase r
      (.loaded ⟨w, s.db.agentRunsOf w.id, s.db.approvalsOf w.id⟩)).phase r =
        .loaded ⟨w, s.db.agentRunsOf w.id, s.db.approvalsOf w.id⟩ := by
    simp only [Race.setPhase, Function.update_self]
  rw [hseq]
  simp only [Machine.run, h₁, h₂]
  unfold Machine.next
  rw [step_commit h₃]
  rfl

end BankingAi
