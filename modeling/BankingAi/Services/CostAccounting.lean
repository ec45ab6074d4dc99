import Mathlib.Algebra.BigOperators.Group.List.Basic
import Mathlib.Tactic.Positivity
import Mathlib.Tactic.Linarith
import BankingAi.Services.Observer

/-!
# Cost accounting

The estimate of a call is its exact price, rounded to six decimals. A price of half a millionth of a dollar
or less is rounded to zero, and the call then has no `cost_tracking` row.
-/

namespace BankingAi

open Ai DbRouterObserver

namespace Ai

/-! ### The estimate -/

theorem abs_roundTo_sub_le (digits : ℕ) (x : ℚ) : |roundTo digits x - x| ≤ 1 / (2 * 10 ^ digits) := by
  have hpos : (0 : ℚ) < 10 ^ digits := by positivity
  have hbelow := Int.floor_le (x * 10 ^ digits)
  have habove := Int.lt_floor_add_one (x * 10 ^ digits)
  have hscaled : |roundTo digits x * 10 ^ digits - x * 10 ^ digits| ≤ 1 / 2 := by
    unfold roundTo
    dsimp only
    rw [div_mul_cancel₀ _ hpos.ne', abs_le]
    split_ifs <;> push_cast <;> constructor <;> linarith
  rw [← sub_mul, abs_mul, abs_of_pos hpos] at hscaled
  rw [le_div_iff₀ (by positivity)]
  linarith

theorem roundTo_pos_iff (digits : ℕ) (x : ℚ) : 0 < roundTo digits x ↔ 1 / (2 * 10 ^ digits) < x := by
  have hpos : (0 : ℚ) < 10 ^ digits := by positivity
  have hhalf : 1 / (2 * 10 ^ digits) < x ↔ 1 / 2 < x * 10 ^ digits := by
    rw [div_lt_iff₀ (by positivity), div_lt_iff₀ two_pos]
    constructor <;> intro h <;> linarith
  rw [hhalf]
  unfold roundTo
  dsimp only
  rw [div_pos_iff_of_pos_right hpos, Int.cast_pos]
  have hbelow := Int.floor_le (x * 10 ^ digits)
  have habove := Int.lt_floor_add_one (x * 10 ^ digits)
  generalize x * 10 ^ digits = y at hbelow habove
  constructor
  · intro h
    have hone : (1 : ℚ) ≤ ⌊y⌋ ∨ 1 / 2 < y := by
      split_ifs at h with hless hmore heven
      · exact .inl (by exact_mod_cast h)
      · rcases lt_or_ge 0 ⌊y⌋ with hfloor | hfloor
        · exact .inl (by exact_mod_cast hfloor)
        · obtain hzero : ⌊y⌋ = 0 := by omega
          rw [hzero, Int.cast_zero, sub_zero] at hmore
          exact .inr hmore
      · exact .inl (by exact_mod_cast h)
      · exact .inl (by exact_mod_cast (show 1 ≤ ⌊y⌋ by omega))
    rcases hone with hone | hmore <;> linarith
  · intro h
    have hfloor : 0 ≤ ⌊y⌋ := Int.floor_nonneg.2 (by linarith)
    rcases hfloor.lt_or_eq with hlt | heq
    · split_ifs <;> omega
    · rw [← heq, Int.cast_zero, sub_zero, if_neg (not_lt.2 h.le), if_pos h]
      decide

theorem lookup_mem (table : List ((String × String) × Price)) (provider model : String) :
    lookup table provider model = defaultPrice ∨ ∃ entry ∈ table, lookup table provider model = entry.2 := by
  have hfold : ∀ best : Option Price × ℤ, (table.foldl (lookupStep provider model) best).1 = best.1 ∨
      ∃ entry ∈ table, (table.foldl (lookupStep provider model) best).1 = some entry.2 := by
    induction table with
    | nil => exact fun _ => .inl rfl
    | cons entry table ih =>
      intro best
      rcases ih (lookupStep provider model best entry) with hsame | ⟨found, hfound, heq⟩
      · rw [List.foldl_cons, hsame, lookupStep]
        split_ifs
        · exact .inr ⟨entry, List.mem_cons_self, rfl⟩
        · exact .inl rfl
      · exact .inr ⟨found, List.mem_cons_of_mem entry hfound, heq⟩
  unfold lookup
  rcases hfold (none, -1) with hnone | ⟨entry, hentry, heq⟩
  · exact .inl (by rw [hnone]; rfl)
  · exact .inr ⟨entry, hentry, by rw [heq]; rfl⟩

theorem lookup_zero_or_pos (provider model : String) :
    lookup prices provider model = 0 ∨
      0 < (lookup prices provider model).1 ∧ 0 < (lookup prices provider model).2 := by
  have hprices : ∀ entry ∈ prices, entry.2 = 0 ∨ 0 < entry.2.1 ∧ 0 < entry.2.2 := by
    intro entry hentry
    simp only [prices, List.mem_cons, List.not_mem_nil, or_false] at hentry
    rcases hentry with rfl | rfl | rfl | rfl | rfl
    · exact .inr ⟨by norm_num, by norm_num⟩
    · exact .inr ⟨by norm_num, by norm_num⟩
    · exact .inr ⟨by norm_num, by norm_num⟩
    · exact .inl rfl
    · exact .inl rfl
  rcases lookup_mem prices provider model with hdefault | ⟨entry, hentry, heq⟩
  · rw [hdefault]
    exact .inr ⟨by norm_num [defaultPrice], by norm_num [defaultPrice]⟩
  · rw [heq]
    exact hprices entry hentry

namespace ModelCallRecord

variable (record : ModelCallRecord)

/-- The prices of the model that was called. -/
def price : Price := lookup prices record.provider record.model

/-- The price of the call, before it is rounded. -/
def exactCostUsd : ℚ :=
  record.promptTokens / 1000 * record.price.1 + record.completionTokens / 1000 * record.price.2

/-- A successful call at non-zero prices, with a prompt and a completion. -/
def Priced : Prop :=
  record.success = true ∧ record.price ≠ 0 ∧ 1 ≤ record.promptTokens ∧ 1 ≤ record.completionTokens

/-- What the router puts in a record of counts that are not negative. -/
structure Estimated : Prop where
  estimate : record.success = true → record.estimatedCostUsd = roundTo 6 record.exactCostUsd
  counts : record.success = true → 0 ≤ record.promptTokens ∧ 0 ≤ record.completionTokens

variable {record}

theorem exactCostUsd_nonneg (h : 0 ≤ record.promptTokens ∧ 0 ≤ record.completionTokens) :
    0 ≤ record.exactCostUsd := by
  have hprice : 0 ≤ record.price.1 ∧ 0 ≤ record.price.2 := by
    rcases lookup_zero_or_pos record.provider record.model with hzero | ⟨hin, hout⟩
    · rw [price, hzero]
      exact ⟨le_rfl, le_rfl⟩
    · exact ⟨hin.le, hout.le⟩
  have hin : (0 : ℚ) ≤ record.promptTokens := Int.cast_nonneg h.1
  have hout : (0 : ℚ) ≤ record.completionTokens := Int.cast_nonneg h.2
  exact add_nonneg (mul_nonneg (by positivity) hprice.1) (mul_nonneg (by positivity) hprice.2)

theorem exactCostUsd_of_free (h : record.price = 0) : record.exactCostUsd = 0 := by
  unfold exactCostUsd
  rw [h]
  show _ * (0 : ℚ) + _ * (0 : ℚ) = 0
  rw [mul_zero, mul_zero, add_zero]

end ModelCallRecord
end Ai

/-! ### The books -/

/-- The costs that point at a call. -/
def ObservabilityDb.costsOf (db : ObservabilityDb) (id : Uuid) : List CostTracking :=
  db.costTracking.filter (·.modelCallId = id)

/-- The test before a cost is written. -/
def Charged (record : ModelCallRecord) : Prop := record.success = true ∧ record.estimatedCostUsd > 0

instance (record : ModelCallRecord) : Decidable (Charged record) := inferInstanceAs (Decidable (_ ∧ _))

/-- What the costs of a record add up to. -/
def charge (record : ModelCallRecord) : ℚ := if Charged record then record.estimatedCostUsd else 0

/-- The row of a record, with its costs. -/
structure Booked (db : ObservabilityDb) (record : ModelCallRecord) (row : ModelCallRow) : Prop where
  copied : row = .of record row.id
  charged : Charged record → ∃ id, db.costsOf row.id = [.of record row.id id]
  uncharged : ¬ Charged record → db.costsOf row.id = []

/-- The tables hold a row for each record, and a cost for each charged one. -/
structure Books (records : List ModelCallRecord) (db : ObservabilityDb) : Prop where
  booked : List.Forall₂ (Booked db) records db.modelCalls
  ids : (db.modelCalls.map ModelCallRow.id).Nodup
  drawn : ∀ row ∈ db.modelCalls, row.id.draw < db.nextUuid
  pointed : ∀ cost ∈ db.costTracking, cost.modelCallId.draw < db.nextUuid
  total : (db.costTracking.map CostTracking.estimatedCostUsd).sum = (records.map charge).sum

/-- Empty tables. -/
def ObservabilityDb.empty (draw : ℕ) : ObservabilityDb := ⟨[], [], draw⟩

theorem books_empty (draw : ℕ) : Books [] (.empty draw) where
  booked := .nil
  ids := List.nodup_nil
  drawn _ h := absurd h List.not_mem_nil
  pointed _ h := absurd h List.not_mem_nil
  total := rfl

section persist

variable {records : List ModelCallRecord} {db : ObservabilityDb} (record : ModelCallRecord)

/-- The costs that a record adds. -/
def addedCosts (db : ObservabilityDb) (record : ModelCallRecord) : List CostTracking :=
  if Charged record then [.of record ⟨db.nextUuid⟩ ⟨db.nextUuid + 1⟩] else []

theorem persist_modelCalls :
    (persist record db).modelCalls = db.modelCalls ++ [.of record ⟨db.nextUuid⟩] := by
  unfold persist
  dsimp only
  split_ifs <;> rfl

theorem persist_costTracking :
    (persist record db).costTracking = db.costTracking ++ addedCosts db record := by
  unfold persist addedCosts
  dsimp only
  by_cases h : Charged record
  · rw [if_pos h, if_pos (show record.success = true ∧ record.estimatedCostUsd > 0 from h)]
    rfl
  · rw [if_neg h, if_neg (show ¬ (record.success = true ∧ record.estimatedCostUsd > 0) from h)]
    exact (List.append_nil _).symm

theorem persist_nextUuid : db.nextUuid < (persist record db).nextUuid := by
  unfold persist
  dsimp only
  split_ifs <;> simp

theorem mem_addedCosts {cost : CostTracking} (h : cost ∈ addedCosts db record) :
    cost.modelCallId = ⟨db.nextUuid⟩ := by
  unfold addedCosts at h
  split_ifs at h
  · rw [List.mem_singleton.1 h]
    rfl
  · exact absurd h List.not_mem_nil

theorem costsOf_persist {id : Uuid} (h : id.draw < db.nextUuid) :
    (persist record db).costsOf id = db.costsOf id := by
  have hadded : (addedCosts db record).filter (·.modelCallId = id) = [] := by
    rw [List.filter_eq_nil_iff]
    intro cost hcost
    have hid := mem_addedCosts record hcost
    rw [decide_eq_true_iff]
    rintro rfl
    rw [hid] at h
    exact lt_irrefl _ h
  unfold ObservabilityDb.costsOf
  rw [persist_costTracking, List.filter_append, hadded, List.append_nil]

theorem costsOf_persist_new (h : ∀ cost ∈ db.costTracking, cost.modelCallId.draw < db.nextUuid) :
    (persist record db).costsOf ⟨db.nextUuid⟩ = addedCosts db record := by
  have hold : db.costTracking.filter (·.modelCallId = ⟨db.nextUuid⟩) = [] := by
    rw [List.filter_eq_nil_iff]
    intro cost hcost
    have hlt := h cost hcost
    rw [decide_eq_true_iff]
    intro heq
    rw [heq] at hlt
    exact lt_irrefl _ hlt
  unfold ObservabilityDb.costsOf
  rw [persist_costTracking, List.filter_append, hold, List.nil_append, List.filter_eq_self]
  intro cost hcost
  exact decide_eq_true (mem_addedCosts record hcost)

theorem sum_addedCosts : ((addedCosts db record).map CostTracking.estimatedCostUsd).sum = charge record := by
  unfold addedCosts charge
  split_ifs <;> simp [CostTracking.of]

theorem Books.persist (h : Books records db) : Books (records ++ [record]) (persist record db) where
  booked := by
    rw [persist_modelCalls]
    refine List.rel_append ?_ (.cons ⟨rfl, fun hcharged => ⟨⟨db.nextUuid + 1⟩, ?_⟩, fun huncharged => ?_⟩ .nil)
    · obtain ⟨hlength, hbooked⟩ := List.forall₂_iff_zip.1 h.booked
      refine List.forall₂_iff_zip.2 ⟨hlength, fun hpair => ?_⟩
      have hcosts := costsOf_persist record (h.drawn _ (List.of_mem_zip hpair).2)
      have hbooked := hbooked hpair
      exact ⟨hbooked.copied, by rw [hcosts]; exact hbooked.charged, by rw [hcosts]; exact hbooked.uncharged⟩
    · show (DbRouterObserver.persist record db).costsOf ⟨db.nextUuid⟩ = _
      rw [costsOf_persist_new record h.pointed, addedCosts, if_pos hcharged]
      rfl
    · show (DbRouterObserver.persist record db).costsOf ⟨db.nextUuid⟩ = _
      rw [costsOf_persist_new record h.pointed, addedCosts, if_neg huncharged]
  ids := by
    rw [persist_modelCalls, List.map_append]
    refine h.ids.append (List.nodup_singleton _) fun id hid hnew => ?_
    obtain ⟨row, hrow, rfl⟩ := List.mem_map.1 hid
    have hlt := h.drawn row hrow
    rw [List.mem_singleton.1 hnew] at hlt
    exact lt_irrefl _ hlt
  drawn row hrow := by
    rw [persist_modelCalls] at hrow
    have hnext := @persist_nextUuid db record
    rcases List.mem_append.1 hrow with hrow | hrow
    · exact (h.drawn row hrow).trans hnext
    · rw [List.mem_singleton.1 hrow]
      exact hnext
  pointed cost hcost := by
    rw [persist_costTracking] at hcost
    have hnext := @persist_nextUuid db record
    rcases List.mem_append.1 hcost with hcost | hcost
    · exact (h.pointed cost hcost).trans hnext
    · rw [mem_addedCosts record hcost]
      exact hnext
  total := by
    rw [persist_costTracking, List.map_append, List.sum_append, sum_addedCosts, h.total, List.map_append,
      List.sum_append, List.map_singleton, List.sum_singleton]

end persist

theorem books_persistAll (records : List ModelCallRecord) (draw : ℕ) :
    Books records (persistAll records (.empty draw)) := by
  induction records using List.reverseRecOn with
  | nil => exact books_empty draw
  | append_singleton records record ih =>
    rw [persistAll_append]
    exact ih.persist record

/-! ### The account of a run -/

/-- A call of a router, with whatever router. -/
structure RouterCall where
  router : ModelRouter
  request : CompletionRequest
  agentRunId : Option Uuid

/-- The providers report counts of tokens. -/
def RouterCall.CountsTokens (call : RouterCall) : Prop :=
  ∀ p ∈ call.router.providers, ∀ raw, p.complete call.request = .ok raw →
    0 ≤ raw.promptTokens ∧ 0 ≤ raw.completionTokens

/-- The records that the calls emit, and the tables they leave. -/
def runCalls : List RouterCall → ObservabilityDb → List ModelCallRecord × ObservabilityDb
  | [], db => ([], db)
  | call :: calls, db =>
    let s := (call.router.complete dbRouterObserver call.request call.agentRunId db).2
    let (records, db) := runCalls calls s.observer
    (offered s.events ++ records, db)

/-- Every priced call has one cost, every failed or free one none, and the costs add up to the exact price
of the successful calls but for half a millionth of a dollar for each. -/
structure Accounted (records : List ModelCallRecord) (db : ObservabilityDb) : Prop where
  rows : List.Forall₂ (fun record row => row = .of record row.id) records db.modelCalls
  ids : (db.modelCalls.map ModelCallRow.id).Nodup
  priced : ∀ pair ∈ records.zip db.modelCalls, pair.1.Priced → ∃ cost, db.costsOf pair.2.id = [cost]
  unpriced : ∀ pair ∈ records.zip db.modelCalls, pair.1.success = false ∨ pair.1.price = 0 →
    db.costsOf pair.2.id = []
  total : |(db.costTracking.map CostTracking.estimatedCostUsd).sum -
      ((records.filter (·.success)).map ModelCallRecord.exactCostUsd).sum| ≤
    (records.filter (·.success)).length / 2000000

theorem RouterCall.CountsTokens.estimated {call : RouterCall} (h : call.CountsTokens) {record : ModelCallRecord}
    (hrecord : Emitted call.router call.request call.agentRunId record) : record.Estimated := by
  rcases hrecord with ⟨p, _, usedFallback, error, latencyMs, rfl⟩ |
    ⟨p, hp, raw, usedFallback, reason, cost, hraw, hcost, rfl⟩
  · exact ⟨fun h => absurd h Bool.false_ne_true, fun h => absurd h Bool.false_ne_true⟩
  · refine ⟨fun _ => ?_, fun _ => h p hp raw hraw⟩
    rcases estimateCostUsd_eq raw.provider raw.model raw.promptTokens raw.completionTokens with
      ⟨-, hestimate⟩ | ⟨-, hestimate⟩
    · exact Except.ok.inj (hcost.symm.trans hestimate)
    · cases hcost.symm.trans hestimate

theorem runCalls_persisted (calls : List RouterCall) (h : ∀ call ∈ calls, call.CountsTokens)
    (db : ObservabilityDb) :
    (runCalls calls db).2 = persistAll (runCalls calls db).1 db ∧
      ∀ record ∈ (runCalls calls db).1, record.Estimated := by
  induction calls generalizing db with
  | nil => exact ⟨rfl, fun _ h => absurd h List.not_mem_nil⟩
  | cons call calls ih =>
    obtain ⟨hdb, hemitted⟩ := call.router.complete_persisted call.request call.agentRunId db
    obtain ⟨hrest, hrecords⟩ := ih (fun call' hcall' => h call' (List.mem_cons_of_mem _ hcall'))
      (call.router.complete dbRouterObserver call.request call.agentRunId db).2.observer
    unfold runCalls
    dsimp only
    refine ⟨by rw [persistAll_append, ← hdb, ← hrest], fun record hrecord => ?_⟩
    rcases List.mem_append.1 hrecord with hrecord | hrecord
    · exact (h call List.mem_cons_self).estimated (hemitted record hrecord)
    · exact hrecords record hrecord

section accounted

variable {record : ModelCallRecord} {records : List ModelCallRecord}

theorem charged_iff (h : record.Estimated) (hsuccess : record.success = true) :
    Charged record ↔ 1 / 2000000 < record.exactCostUsd := by
  have hround := roundTo_pos_iff 6 record.exactCostUsd
  rw [← h.estimate hsuccess] at hround
  norm_num at hround
  unfold Charged
  rw [and_iff_right hsuccess, gt_iff_lt, hround]

theorem not_charged_of_free (h : record.Estimated) (hprice : record.price = 0) : ¬ Charged record := by
  intro hcharged
  have hexact := (charged_iff h hcharged.1).1 hcharged
  rw [ModelCallRecord.exactCostUsd_of_free hprice] at hexact
  norm_num at hexact

/-- The charge of a successful call is off by half a millionth at most. -/
theorem abs_charge_sub_le (h : record.Estimated) (hsuccess : record.success = true) :
    |charge record - record.exactCostUsd| ≤ 1 / 2000000 := by
  have hnonneg := ModelCallRecord.exactCostUsd_nonneg (h.counts hsuccess)
  unfold charge
  split_ifs with hcharged
  · have hround := abs_roundTo_sub_le 6 record.exactCostUsd
    rw [← h.estimate hsuccess] at hround
    norm_num at hround
    linarith
  · have hsmall := not_lt.1 ((charged_iff h hsuccess).not.1 hcharged)
    rw [abs_le]
    constructor <;> linarith

theorem abs_sum_charge_sub_le (h : ∀ record ∈ records, record.Estimated) :
    |(records.map charge).sum - ((records.filter (·.success)).map ModelCallRecord.exactCostUsd).sum| ≤
      (records.filter (·.success)).length / 2000000 := by
  induction records with
  | nil => simp
  | cons record records ih =>
    have ih := ih fun r hr => h r (List.mem_cons_of_mem record hr)
    have hrecord := h record List.mem_cons_self
    rw [List.map_cons, List.sum_cons]
    by_cases hsuccess : record.success = true
    · have herror := abs_charge_sub_le hrecord hsuccess
      rw [List.filter_cons_of_pos hsuccess, List.map_cons, List.sum_cons, List.length_cons, add_sub_add_comm]
      push_cast
      calc
        _ ≤ |charge record - record.exactCostUsd| +
              |(records.map charge).sum - ((records.filter (·.success)).map ModelCallRecord.exactCostUsd).sum| :=
            abs_add_le _ _
        _ ≤ 1 / 2000000 + (records.filter (·.success)).length / 2000000 := add_le_add herror ih
        _ = _ := by ring
    · have hzero : charge record = 0 := if_neg fun hcharged => hsuccess hcharged.1
      rw [List.filter_cons_of_neg hsuccess, hzero, zero_add]
      exact ih

/-- The tables account for records exactly when no priced call is too small for a cost. -/
theorem accounted_iff (h : ∀ record ∈ records, record.Estimated) (draw : ℕ) :
    Accounted records (persistAll records (.empty draw)) ↔
      ∀ record ∈ records, record.Priced → 1 / 2000000 < record.exactCostUsd := by
  have hbooks := books_persistAll records draw
  obtain ⟨hlength, hbooked⟩ := List.forall₂_iff_zip.1 hbooks.booked
  constructor
  · intro haccounted record hrecord hpriced
    rw [← List.map_fst_zip hlength.le] at hrecord
    obtain ⟨pair, hpair, rfl⟩ := List.mem_map.1 hrecord
    have hrecord := (List.of_mem_zip hpair).1
    obtain ⟨cost, hcost⟩ := haccounted.priced _ hpair hpriced
    rw [← charged_iff (h _ hrecord) hpriced.1]
    by_contra huncharged
    rw [(hbooked hpair).uncharged huncharged] at hcost
    exact absurd hcost.symm (List.cons_ne_nil _ _)
  · intro hlarge
    refine ⟨hbooks.booked.imp fun _ _ hrow => hrow.copied, hbooks.ids, fun pair hpair hpriced => ?_,
      fun pair hpair hunpriced => ?_, ?_⟩
    · have hrecord := (List.of_mem_zip hpair).1
      obtain ⟨id, hid⟩ := (hbooked hpair).charged
        ((charged_iff (h _ hrecord) hpriced.1).2 (hlarge _ hrecord hpriced))
      exact ⟨_, hid⟩
    · refine (hbooked hpair).uncharged ?_
      rcases hunpriced with hfailed | hfree
      · exact fun hcharged => Bool.false_ne_true (hfailed.symm.trans hcharged.1)
      · exact not_charged_of_free (h _ (List.of_mem_zip hpair).1) hfree
    · rw [hbooks.total]
      exact abs_sum_charge_sub_le h

end accounted

/-- The calls of a run are accounted for exactly when the exact price of each priced one is above half a
millionth of a dollar. -/
theorem cost_accounting_iff (calls : List RouterCall) (h : ∀ call ∈ calls, call.CountsTokens) (draw : ℕ) :
    let (records, db) := runCalls calls (.empty draw)
    Accounted records db ↔ ∀ record ∈ records, record.Priced → 1 / 2000000 < record.exactCostUsd := by
  obtain ⟨hdb, hestimated⟩ := runCalls_persisted calls h (.empty draw)
  show Accounted (runCalls calls (.empty draw)).1 (runCalls calls (.empty draw)).2 ↔ _
  rw [hdb]
  exact accounted_iff hestimated draw

/-- A local model that is down. -/
def downGemma : LLMProvider where
  name := "local_gemma"
  model := "gemma"
  isAvailable := .ok true
  complete _ := .error (.new .llmProvider "local_gemma is unreachable: ConnectError." [])

/-- Groq, with a reply of that many tokens each way. -/
def groqAnswering (tokens : ℤ) : LLMProvider where
  name := "groq"
  model := "llama-3.1-8b-instant"
  isAvailable := .ok true
  complete _ := .ok ⟨"ok", "groq", "llama-3.1-8b-instant", false, none, tokens, tokens, 0⟩

def groqCall (tokens : ℤ) : RouterCall where
  router :=
    { providers := [downGemma, groqAnswering tokens]
      policy := "prefer_offline"
      nonempty := by simp }
  request := helloRequest
  agentRunId := none

theorem groqCall_counts {tokens : ℤ} (h : 0 ≤ tokens) : (groqCall tokens).CountsTokens := by
  intro p hp raw hraw
  rcases List.mem_pair.1 hp with rfl | rfl <;> cases hraw
  exact ⟨h, h⟩

theorem cost_accounting_iff_groq :
    let (records, db) := runCalls [groqCall 1000, groqCall 1] (.empty 0)
    Accounted records db ↔ ∀ record ∈ records, record.Priced → 1 / 2000000 < record.exactCostUsd :=
  cost_accounting_iff [groqCall 1000, groqCall 1]
    (by
      intro call hcall
      rcases List.mem_pair.1 hcall with rfl | rfl
      · exact groqCall_counts (by decide)
      · exact groqCall_counts (by decide)) 0

theorem groqCall_record {tokens : ℤ} (h : CountsConvert tokens tokens) (db : ObservabilityDb) :
    ∃ record ∈ (runCalls [groqCall tokens] db).1, record.success = true ∧ record.provider = "groq" ∧
      record.model = "llama-3.1-8b-instant" ∧ record.promptTokens = tokens ∧
      record.completionTokens = tokens := by
  let router := (groqCall tokens).router
  have hcontract : ∀ p ∈ router.providers, p.KeepsContract := by
    intro p hp request e he
    rcases List.mem_pair.1 hp with rfl | rfl <;> cases he
    rfl
  have hdown : ∀ p ∈ [downGemma], p.Fails helloRequest := fun p hp =>
    .inr (by rw [List.mem_singleton.1 hp]; exact ⟨_, rfl⟩)
  obtain ⟨s, -, hrun⟩ := @complete_append router helloRequest none _ hcontract dbRouterObserver db
    [downGemma] [groqAnswering tokens] rfl hdown
  obtain ⟨cost, -, -, hevents⟩ := @completeFrom_of_convert router helloRequest none _ dbRouterObserver 1
    (groqAnswering tokens) [] ([downGemma].map (·.attempt helloRequest))
    ([downGemma].getLast?.map (·.reason helloRequest)) s _ ⟨rfl, rfl⟩ h
  have hoffered : (runCalls [groqCall tokens] db).1 =
      offered (router.complete dbRouterObserver helloRequest none db).2.events :=
    List.append_nil _
  rw [hoffered, hrun, show [downGemma].length = 1 from rfl, hevents, offered_append]
  exact ⟨_, List.mem_append_right _ List.mem_cons_self, rfl, rfl, rfl, rfl, rfl⟩

/-- A call of one token each way is priced, and has no cost. -/
theorem smallest_call_uncosted :
    let (records, db) := runCalls [groqCall 1] (.empty 0)
    ¬ Accounted records db := by
  obtain ⟨hdb, hestimated⟩ := runCalls_persisted [groqCall 1]
    (fun call hcall => by rw [List.mem_singleton.1 hcall]; exact groqCall_counts (by decide)) (.empty 0)
  show ¬ Accounted (runCalls [groqCall 1] (.empty 0)).1 (runCalls [groqCall 1] (.empty 0)).2
  rw [hdb, accounted_iff hestimated]
  intro hlarge
  obtain ⟨record, hrecord, hsuccess, hprovider, hmodel, hprompt, hcompletion⟩ :=
    @groqCall_record 1 (by decide +kernel) (.empty 0)
  have hprice : record.price = (0.00005, 0.00008) := by
    rw [ModelCallRecord.price, hprovider, hmodel]
    decide +kernel
  have hpriced : record.price ≠ 0 := by
    rw [hprice]
    exact fun h => absurd (congrArg Prod.fst h) (by norm_num)
  have hcost := hlarge record hrecord ⟨hsuccess, hpriced, hprompt.ge, hcompletion.ge⟩
  rw [ModelCallRecord.exactCostUsd, hprice, hprompt, hcompletion] at hcost
  norm_num at hcost

end BankingAi
