import BankingAi.Api.Ledger
import BankingAi.Api.Search

/-!
# What the agents cite

The retrieval and compliance agents of a workflow search the index that uploads fill. Where no upload
has failed late, every excerpt that an agent run records is a committed chunk, with the name of its
document, and stays one whatever is requested afterwards.
-/

namespace BankingAi

open Posix SessionM

variable {V S T σ : Type}

/-- The citation is of the chunk, with the name of its document. -/
structure Citation.Cites (db : Library V) (c : DocumentChunk) (citation : Citation) : Prop where
  chunkId : citation.chunkId = c.id.str
  documentId : citation.documentId = c.documentId.str
  text : citation.text = c.content
  filename : ∃ d ∈ db.documents, d.id = c.documentId ∧ citation.filename = some d.filename

/-- What a retrieval for a payload records: excerpts that are chunks. -/
structure RetrievalOutput.Sourced (db : Library V) (payload : JsonDict) (o : RetrievalOutput) : Prop where
  query : getEither payload "query" "question" (.str "") = .str o.query
  hits : ∀ hit ∈ o.hits, ∃ c ∈ db.chunks, hit.Shows db c

/-- What an answer for a payload records: numbered citations of chunks, if it is grounded. -/
structure ComplianceOutput.Sourced (db : Library V) (payload : JsonDict) (o : ComplianceOutput) : Prop where
  question : getEither payload "question" "query" (.str "") = .str o.question
  markers : o.citations.map Citation.marker = List.range' 1 o.citations.length
  citations : ∀ citation ∈ o.citations, ∃ c ∈ db.chunks, citation.Cites db c
  grounded : o.grounded = true ↔ o.citations ≠ []

/-- What the two agents have recorded in a run is sourced. -/
structure AgentRun.Sourced (db : Library V) (r : AgentRun) : Prop where
  retrieval : r.agentName = "retrieval_agent" → ∀ output, r.output = some output →
    ∃ o : RetrievalOutput, output = o.toOutput.modelDump ∧ o.Sourced db r.input
  compliance : r.agentName = "compliance_agent" → ∀ output, r.output = some output →
    ∃ o : ComplianceOutput, output = o.toOutput.modelDump ∧ o.Sourced db r.input

/-! ### Later tables -/

section mono

variable {db db' : Library V} (hdocuments : ∀ d ∈ db.documents, d ∈ db'.documents)
  (hchunks : ∀ c ∈ db.chunks, c ∈ db'.chunks)
include hdocuments hchunks

theorem exists_shows_mono {hit : SearchHit} (h : ∃ c ∈ db.chunks, hit.Shows db c) :
    ∃ c ∈ db'.chunks, hit.Shows db' c := by
  obtain ⟨c, hc, hshows⟩ := h
  obtain ⟨d, hd, hfilename⟩ := hshows.filename
  exact ⟨c, hchunks c hc, hshows.chunkId, hshows.documentId, hshows.text, d, hdocuments d hd, hfilename⟩

theorem exists_cites_mono {citation : Citation} (h : ∃ c ∈ db.chunks, citation.Cites db c) :
    ∃ c ∈ db'.chunks, citation.Cites db' c := by
  obtain ⟨c, hc, hcites⟩ := h
  obtain ⟨d, hd, hfilename⟩ := hcites.filename
  exact ⟨c, hchunks c hc, hcites.chunkId, hcites.documentId, hcites.text, d, hdocuments d hd, hfilename⟩

theorem AgentRun.Sourced.mono {r : AgentRun} (h : r.Sourced db) : r.Sourced db' where
  retrieval hname output houtput := by
    obtain ⟨o, hdump, hsourced⟩ := h.retrieval hname output houtput
    exact ⟨o, hdump, hsourced.query, fun hit hhit => exists_shows_mono hdocuments hchunks (hsourced.hits hit hhit)⟩
  compliance hname output houtput := by
    obtain ⟨o, hdump, hsourced⟩ := h.compliance hname output houtput
    exact ⟨o, hdump, hsourced.question, hsourced.markers,
      fun citation hcitation => exists_cites_mono hdocuments hchunks (hsourced.citations citation hcitation),
      hsourced.grounded⟩

end mono

/-! ### The agents over the index -/

section agents

variable {svc : DocumentService V S} {s : LibraryState V} {retriever : Retriever V S}

theorem shows_of_mem_hits (hm : s.Mirrored svc) (hstore : retriever.store = s.world.vectors) {embedding : V}
    {topK : ℤ} {hits : List SearchHit}
    (h : (VectorStore.query retriever.embedder retriever.store embedding topK).mapM (RetrievalAgent.hit retriever) =
      .ok hits) : ∀ hit ∈ hits, ∃ c ∈ s.db.chunks, hit.Shows s.db c := by
  intro hit hhit
  obtain ⟨result, hresult, hof⟩ := (mem_of_mapM_eq_ok h).1 hhit
  have hstored := VectorStore.mem_of_mem_query hresult
  rw [hstore] at hstored
  obtain ⟨c, hc, d, hd, hid, hrecord⟩ := Table.exists_of_forall₂ (List.Forall₂.flip hm) hstored
  obtain ⟨hdocument, hchunk, hfilename, htext⟩ := ComplianceAgent.hit_eq_ok hof
  rw [hrecord] at hdocument hchunk hfilename htext
  have hu : some c.id = some hit.chunkId := (Uuid.ofStr?_str c.id).symm.trans hchunk
  have hd' : some d.id = some hit.documentId := (Uuid.ofStr?_str d.id).symm.trans hdocument
  exact ⟨c, hc, (Option.some.inj hu).symm, (Option.some.inj hd').symm.trans hid, htext, d, hd, hid, hfilename⟩

theorem retrieval_run (hm : s.Mirrored svc) (hstore : retriever.store = s.world.vectors) {input : RetrievalInput}
    {o : RetrievalOutput} (h : RetrievalAgent.run retriever input = .ok o) :
    o.query = input.query ∧ ∀ hit ∈ o.hits, ∃ c ∈ s.db.chunks, hit.Shows s.db c := by
  obtain ⟨hits, hhits, h⟩ := except_bind_eq_ok.1 h
  cases h
  exact ⟨rfl, shows_of_mem_hits hm hstore hhits⟩

theorem cites_of_shows {db : Library V} {hits : List SearchHit} (h : ∀ hit ∈ hits, ∃ c ∈ db.chunks, hit.Shows db c) :
    ∀ citation ∈ ComplianceAgent.citations hits, ∃ c ∈ db.chunks, citation.Cites db c := by
  intro citation hcitation
  obtain ⟨⟨hit, i⟩, hmem, rfl⟩ := List.mem_map.1 hcitation
  obtain ⟨c, hc, hshows⟩ := h hit (List.fst_mem_of_mem_zipIdx hmem)
  exact ⟨c, hc, congrArg Uuid.str hshows.chunkId, congrArg Uuid.str hshows.documentId, hshows.text, hshows.filename⟩

theorem compliance_run (hm : s.Mirrored svc) (hstore : retriever.store = s.world.vectors)
    {router : Option (InjectedRouter σ)} {input : ComplianceInput} {o : ComplianceOutput}
    (h : (ComplianceAgent.run retriever router input).result = .ok o) :
    o.citations.map Citation.marker = List.range' 1 o.citations.length ∧
      (∀ citation ∈ o.citations, ∃ c ∈ s.db.chunks, citation.Cites s.db c) ∧
        (o.grounded = true ↔ o.citations ≠ []) := by
  rcases ComplianceAgent.run_cases retriever input with ⟨e, -, hruns⟩ | ⟨hits, hhits, hruns⟩
  · rw [hruns router] at h
    cases h
  obtain ⟨hempty, hcites⟩ := hruns router
  by_cases hnil : hits = []
  · rw [hempty hnil] at h
    cases h
    exact ⟨rfl, fun _ hmem => absurd hmem List.not_mem_nil, iff_of_false Bool.false_ne_true fun hne => hne rfl⟩
  · obtain ⟨hcitations, hgrounded⟩ := hcites hnil o h
    have hof := ComplianceAgent.citesResults hhits
    rw [hcitations, hgrounded]
    refine ⟨?_, cites_of_shows (shows_of_mem_hits hm hstore hhits), iff_of_true rfl ?_⟩
    · rw [hof.chunks.length_eq]
      exact hof.markers
    · rw [Ne, ComplianceAgent.citations_eq_nil]
      exact hnil

theorem question_of_run {router : Option (InjectedRouter σ)} {input : ComplianceInput} {o : ComplianceOutput}
    (h : (ComplianceAgent.run retriever router input).result = .ok o) : o.question = input.question := by
  unfold ComplianceAgent.run at h
  split at h
  · cases h
  dsimp only at h
  split at h
  · cases h
    rfl
  split at h
  · cases h
    rfl
  · obtain ⟨result, -, rfl⟩ := except_map_eq_ok.1 h
    rfl

end agents

/-! ### The steps of a workflow -/

section steps

variable {p : Platform V S σ} {svc : DocumentService V S} {s : LibraryState V} {payload : JsonDict}
  {earlier : List ExecutorCall} {output : AgentOutput}

theorem outcome_of_mem_executedSteps {ex : AgentExecutor} {calls : List ExecutorCall} {steps : List PlanStep}
    {e : Executed} (h : e ∈ executedSteps ex payload calls steps) :
    ∃ earlier, e.outcome = stepOutcome e.step.agent (ex.runStep earlier e.step.agent payload) := by
  obtain ⟨before, after, heq⟩ := List.append_of_mem h
  exact ⟨_, executedSteps_outcome heq⟩

theorem query_of_retrievalInput {input : RetrievalInput} (h : p.retrievalInput payload = .ok input) :
    getEither payload "query" "question" (.str "") = .str input.query := by
  unfold Platform.retrievalInput at h
  split at h
  case h_1 query n hquery _ =>
    split at h
    · cases h
      exact hquery
    · cases h
  case h_2 => cases h

theorem question_of_complianceInput {input : ComplianceInput} (h : p.complianceInput payload = .ok input) :
    getEither payload "question" "query" (.str "") = .str input.question := by
  unfold Platform.complianceInput at h
  split at h
  case h_1 question n hquestion _ =>
    split at h
    · cases h
      exact hquestion
    · cases h
  case h_2 => cases h

theorem output_of_executed {name agentName : String} {promptVersion : Option String} {run : RoutedRun AgentOutput}
    (h : (stepOutcome agentName (p.executed earlier name promptVersion run).reply).output = some output) :
    run.result = .ok output := by
  change (BaseAgent.execute ⟨name, promptVersion, fun _ : Unit => run.result⟩ () (p.latencyMs earlier)).output = _ at h
  unfold BaseAgent.execute at h
  split at h
  case h_1 => cases h
  case h_2 output' hrun => rwa [← Option.some.inj h]

theorem requireRetrieval_over {retriever : Retriever V S}
    (h : (p.over svc s.world.vectors).requireRetrieval earlier = .ok retriever) :
    retriever.store = s.world.vectors := by
  unfold Platform.requireRetrieval Platform.over at h
  dsimp only at h
  cases hp : p.retriever with
  | none =>
    rw [hp] at h
    cases h
  | some r =>
    rw [hp] at h
    cases h
    rfl

theorem retrieval_step (hm : s.Mirrored svc)
    (h : (stepOutcome "retrieval_agent"
      ((p.over svc s.world.vectors).executor.runStep earlier "retrieval_agent" payload)).output = some output) :
    ∃ o : RetrievalOutput, output = o.toOutput ∧ o.Sourced s.db payload := by
  change (stepOutcome "retrieval_agent"
    ((p.over svc s.world.vectors).runRetrievalAgent earlier payload).reply).output = _ at h
  unfold Platform.runRetrievalAgent at h
  split at h
  · cases h
  case h_2 retriever hretriever =>
    split at h
    · cases h
    case h_2 input hinput =>
      obtain ⟨o, hrun, rfl⟩ := except_map_eq_ok.1 (output_of_executed h)
      obtain ⟨hquery, hhits⟩ := retrieval_run hm (requireRetrieval_over hretriever) hrun
      refine ⟨o, rfl, ?_, hhits⟩
      rw [hquery]
      exact query_of_retrievalInput hinput

theorem compliance_step (hm : s.Mirrored svc)
    (h : (stepOutcome "compliance_agent"
      ((p.over svc s.world.vectors).executor.runStep earlier "compliance_agent" payload)).output = some output) :
    ∃ o : ComplianceOutput, output = o.toOutput ∧ o.Sourced s.db payload := by
  change (stepOutcome "compliance_agent"
    ((p.over svc s.world.vectors).runComplianceAgent earlier payload).reply).output = _ at h
  unfold Platform.runComplianceAgent at h
  split at h
  · cases h
  case h_2 retriever hretriever =>
    split at h
    · cases h
    case h_2 input hinput =>
      obtain ⟨o, hrun, rfl⟩ := except_map_eq_ok.1 (output_of_executed h)
      obtain ⟨hmarkers, hcites, hgrounded⟩ := compliance_run hm (requireRetrieval_over hretriever) hrun
      refine ⟨o, rfl, ?_, hmarkers, hcites, hgrounded⟩
      rw [question_of_run hrun]
      exact question_of_complianceInput hinput

theorem startedSteps_sourced (hm : s.Mirrored svc) (payload : WorkflowStartRequest) {r : AgentRun}
    (hr : r ∈ agentRunRows ⟨s.world.nextUuid⟩
      (payload.inputPayload.set "workflow_id" (.str (Uuid.mk s.world.nextUuid).str)) (s.world.nextUuid + 1)
      (startedSteps (p.over svc s.world.vectors) s payload)) : r.Sourced s.db := by
  obtain ⟨e, he, hrecords⟩ := Table.exists_of_forall₂ (agentRunRows_records _ _ _ _) hr
  obtain ⟨earlier, houtcome⟩ := outcome_of_mem_executedSteps he
  rw [hrecords.agentName.symm] at houtcome
  constructor
  · intro hname output houtput
    rw [hrecords.output] at houtput
    obtain ⟨agentOutput, hsome, rfl⟩ := Option.map_eq_some_iff.1 houtput
    rw [houtcome, hname] at hsome
    obtain ⟨o, rfl, hsourced⟩ := retrieval_step hm hsome
    rw [hrecords.input]
    exact ⟨o, rfl, hsourced⟩
  · intro hname output houtput
    rw [hrecords.output] at houtput
    obtain ⟨agentOutput, hsome, rfl⟩ := Option.map_eq_some_iff.1 houtput
    rw [houtcome, hname] at hsome
    obtain ⟨o, rfl, hsourced⟩ := compliance_step hm hsome
    rw [hrecords.input]
    exact ⟨o, rfl, hsourced⟩

end steps

/-! ### Runs -/

section runs

variable {p : Platform V S σ} {svc : DocumentService V S} {s : LibraryState V}

theorem LibraryState.Continues.sourced {s' : LibraryState V} (h : s.Continues s') {r : AgentRun}
    (hr : r.Sourced s.db) : r.Sourced s'.db :=
  hr.mono (fun _ hd => h.documents.subset hd) fun _ hc => h.chunks.subset hc

theorem sourced_next (hsound : s.Sound p svc) (hm : s.Mirrored svc) (h : ∀ r ∈ s.db.agentRuns, r.Sourced s.db)
    (i : HttpRequest × Faults Exn) : ∀ r ∈ ((requestMachine p svc).next s i).db.agentRuns,
      r.Sourced ((requestMachine p svc).next s i).db := by
  have hsound := hsound.platform (p.over svc s.world.vectors)
  have hcontinues := hsound.continues_next i
  suffices hold : ∀ r ∈ ((requestMachine p svc).next s i).db.agentRuns, r.Sourced s.db from
    fun r hr => hcontinues.sourced (hold r hr)
  rcases HttpRequest.step_cases (p.over svc s.world.vectors) svc hsound.consistent.drawn i with
    ⟨e, -, hdb⟩ | ⟨user, result, -, -, hcommits⟩
  · rw [show ((requestMachine p svc).next s i).db = s.db from hdb]
    exact h
  · change ∀ r ∈ (serveStep (p.over svc s.world.vectors) svc s i).2.db.agentRuns, _
    generalize (serveStep (p.over svc s.world.vectors) svc s i).2 = s' at hcommits
    cases hcommits with
    | start hop hn hdrawn =>
      intro r hr
      rcases List.mem_append.1 hr with hr | hr
      · exact h r hr
      · exact startedSteps_sourced hm _ hr
    | decide hop hargs hw hst hn =>
      intro r hr
      have hr : r ∈ (DecideWrites.apply _ _ _ s.db.toDatabase).agentRuns := hr
      rw [agentRuns_apply] at hr
      exact h r hr
    | upload hop hid => exact h

end runs

/-- What the retrieval and compliance agents have recorded where no upload failed late cites committed
chunks, and still does after any later requests, served one after another. -/
theorem citations_committed (p : Platform V S σ) (svc : DocumentService V S) (files : FileSystem)
    (is js : List (HttpRequest × Faults Exn))
    (hlate : ∀ t ∈ (requestMachine p svc).trace (.start files) is, ¬ HttpRequest.FailsLate svc t.pre t.input) :
    let m := requestMachine p svc
    ∀ r ∈ (m.run (.start files) is).db.agentRuns, r.Sourced (m.run (.start files) (is ++ js)).db := by
  intro m r hr
  have hrun : ((LibraryState.Sound p svc (m.run (.start files) is) ∧ LibraryState.Covered svc (m.run (.start files) is)) ∧
      LibraryState.Mirrored svc (m.run (.start files) is)) ∧
        ∀ r ∈ (m.run (.start files) is).db.agentRuns, r.Sourced (m.run (.start files) is).db := by
    refine Machine.run_invariant_of (G := fun s i => ¬ HttpRequest.FailsLate svc s i)
      (I := fun s : LibraryState V => ((s.Sound p svc ∧ s.Covered svc) ∧ s.Mirrored svc) ∧
        ∀ r ∈ s.db.agentRuns, r.Sourced s.db) (fun s i hi h => ?_) ?_ hlate
    · exact ⟨mirrored_next h.1 hi, sourced_next h.1.1.1 h.1.2 h.2 i⟩
    · exact ⟨⟨⟨LibraryState.Sound.start_files p svc files, covered_run p svc files []⟩, .nil⟩,
        fun _ h => absurd h List.not_mem_nil⟩
  rw [Machine.run_append]
  exact (hrun.1.1.1.continues_run js).sourced (hrun.2 r hr)

/-! ### One question -/

/-- A platform that searches. -/
def searchingPlatform : Platform ℕ ℕ Unit :=
  { plainPlatform with retriever := some fun _ => ⟨countingService.embedder, .empty, fun n => .finite n⟩ }

/-- A manager asks about the word of the upload. -/
def oneQuestion : HttpRequest where
  operation := .workflow oneWord.claims (.start ⟨.compliance, Dict.empty.set "question" (.str "a")⟩)
  header := some "question-1"
  hex := "9be470d1c65f4a28a37d10f2b8e6c493"
  hexLength := by decide

theorem not_failsLate_of_none (svc : DocumentService V S) (s : LibraryState V) (req : HttpRequest) :
    ¬ HttpRequest.FailsLate svc s (req, .none) := by
  unfold HttpRequest.FailsLate
  cases req.operation with
  | workflow claims call => exact id
  | upload claims filename contentType data kind =>
    rintro ⟨-, -, -, j, -, hj⟩
    exact hj rfl

theorem citations_committed_one_question :
    let m := requestMachine searchingPlatform countingService
    let asked : List (HttpRequest × Faults Exn) := [(oneWordRequest, .none), (oneQuestion, .none)]
    ∀ r ∈ (m.run (.start freshFiles) asked).db.agentRuns,
      r.Sourced (m.run (.start freshFiles) (asked ++ [(oneWordRequest, .none)])).db := by
  intro m asked
  refine citations_committed searchingPlatform countingService freshFiles asked [(oneWordRequest, .none)] fun t ht => ?_
  obtain ⟨js, ⟨req, F⟩, hpre, rfl⟩ := Machine.mem_trace ht
  have hmem : (req, F) ∈ asked := hpre.subset (List.mem_append_right _ (List.mem_singleton_self _))
  have hnone : F = .none := by
    simp only [asked, List.mem_cons, Prod.mk.injEq, List.not_mem_nil, or_false] at hmem
    rcases hmem with ⟨-, rfl⟩ | ⟨-, rfl⟩ <;> rfl
  rw [hnone]
  exact not_failsLate_of_none countingService _ req

end BankingAi
