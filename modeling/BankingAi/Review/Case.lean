import Mathlib

/-!
# Cases under review

The purpose of a workflow, apart from its tables: its automatic run fails or completes it, or opens
it to reviewers, who may escalate it any number of times before one ruling closes it. A `Case` is
such a history; one that goes on after a ruling cannot be built. Its events form a word of `grammar`
and replaying the word gives its state.
-/

namespace BankingAi.Review

inductive Verdict where
  | approve | reject | escalate
deriving DecidableEq, Repr

structure Decision (π : Type*) where
  verdict : Verdict
  reviewer : π
  reason : Option String

/-- The states of a case. -/
inductive CaseState where
  | failed | awaiting | escalated | completed | rejected
deriving DecidableEq, Repr

inductive Case (π : Type*) where
  | failed
  | automatic
  | review (decisions : List (Decision π)) (legal : ∀ d ∈ decisions.dropLast, d.verdict = .escalate)

/-- What is recorded of a case. -/
inductive Event where
  | failed | completed | opened
  | decided (verdict : Verdict)
deriving DecidableEq, Repr

/-- The state a decision leaves. -/
def Verdict.state : Verdict → CaseState
  | approve => .completed
  | reject => .rejected
  | escalate => .escalated

theorem Verdict.state_injective : Function.Injective Verdict.state := by
  intro v v' h
  cases v <;> cases v' <;> first | rfl | cases h

def Event.state : Event → CaseState
  | failed => .failed
  | completed => .completed
  | opened => .awaiting
  | decided verdict => verdict.state

namespace Case

variable {π : Type*}

def state : Case π → CaseState
  | failed => .failed
  | automatic => .completed
  | review decisions _ => (decisions.getLast?.map (·.verdict.state)).getD .awaiting

/-- A case that reviewers may decide. -/
def Open : Case π → Prop
  | review decisions _ => ∀ d ∈ decisions, d.verdict = .escalate
  | _ => False

/-- The case after one more decision. -/
def decide : (c : Case π) → c.Open → Decision π → Case π
  | review decisions _, h, d => review (decisions ++ [d]) (by rwa [List.dropLast_concat])

def decisions : Case π → List (Decision π)
  | review decisions _ => decisions
  | _ => []

/-- The events of a case, in order. -/
def word : Case π → List Event
  | failed => [.failed]
  | automatic => [.completed]
  | review decisions _ => .opened :: decisions.map fun d => .decided d.verdict

/-- A case is open exactly when it awaits a first decision or was escalated last. -/
theorem open_iff {c : Case π} : c.Open ↔ c.state = .awaiting ∨ c.state = .escalated := by
  cases c with
  | failed => simp [Open, state]
  | automatic => simp [Open, state]
  | review ds legal =>
    induction ds using List.reverseRecOn with
    | nil => simp [Open, state]
    | append_singleton ds d _ =>
      rw [List.dropLast_concat] at legal
      have hstate : (review (ds ++ [d]) (by rwa [List.dropLast_concat])).state = d.verdict.state := by
        simp [state]
      rw [hstate]
      constructor
      · intro h
        have : d.verdict = .escalate := h d (by simp)
        exact .inr (by rw [this]; rfl)
      · intro h e he
        have hd : d.verdict = .escalate := by
          revert h; cases d.verdict <;> simp [Verdict.state]
        rcases List.mem_append.1 he with he | he
        · exact legal e he
        · rw [List.mem_singleton.1 he, hd]

theorem state_decide {c : Case π} (h : c.Open) (d : Decision π) :
    (c.decide h d).state = d.verdict.state := by
  cases c with
  | review ds legal => simp [decide, state]
  | failed => exact h.elim
  | automatic => exact h.elim

theorem word_decide {c : Case π} (h : c.Open) (d : Decision π) :
    (c.decide h d).word = c.word ++ [.decided d.verdict] := by
  cases c with
  | review ds legal => simp [decide, word]
  | failed => exact h.elim
  | automatic => exact h.elim

theorem decisions_decide {c : Case π} (h : c.Open) (d : Decision π) :
    (c.decide h d).decisions = c.decisions ++ [d] := by
  cases c with
  | review ds legal => rfl
  | failed => exact h.elim
  | automatic => exact h.elim

theorem decisions_of_awaiting {c : Case π} (h : c.state = .awaiting) : c.decisions = [] := by
  cases c with
  | failed => rfl
  | automatic => rfl
  | review ds legal =>
    induction ds using List.reverseRecOn with
    | nil => rfl
    | append_singleton ds d _ =>
      simp only [state, List.getLast?_append, List.getLast?_singleton, Option.some_or, Option.map_some,
        Option.getD_some] at h
      revert h
      cases d.verdict <;> simp [Verdict.state]

theorem eq_failed {c : Case π} (h : c.state = .failed) : c = .failed := by
  cases c with
  | failed => rfl
  | automatic => cases h
  | review ds legal =>
    change (ds.getLast?.map (·.verdict.state)).getD .awaiting = .failed at h
    cases hd : ds.getLast? with
    | none => rw [hd] at h; cases h
    | some d =>
      rw [hd, Option.map_some, Option.getD_some] at h
      cases hv : d.verdict <;> rw [hv] at h <;> cases h

/-- A reviewed case in the state of a verdict has that verdict last, after escalations only. -/
theorem decisions_eq_concat {c : Case π} {v : Verdict} (h : c.state = v.state) (hc : c ≠ .automatic) :
    ∃ ds d, c.decisions = ds ++ [d] ∧ (∀ e ∈ ds, e.verdict = .escalate) ∧ d.verdict = v := by
  cases c with
  | failed => cases v <;> cases h
  | automatic => exact absurd rfl hc
  | review ds legal =>
    induction ds using List.reverseRecOn with
    | nil => cases v <;> cases h
    | append_singleton ds d _ =>
      refine ⟨ds, d, rfl, by rwa [List.dropLast_concat] at legal, Verdict.state_injective ?_⟩
      rw [← h]
      simp [state]

end Case

/-! ### The words of cases -/

open RegularExpression in
/-- `failed | completed | opened escalated* (approved | rejected)?`. -/
def grammar : RegularExpression Event :=
  char Event.failed + char Event.completed +
    char Event.opened * (star (char (Event.decided .escalate)) *
      (1 + (char (Event.decided .approve) + char (Event.decided .reject))))

/-- The state that a recorded word leaves: that of its last event. -/
def replay (word : List Event) : Option CaseState := word.getLast?.map Event.state

theorem escalations_mem (n : ℕ) : List.replicate n (Event.decided .escalate) ∈
    (RegularExpression.star (.char (Event.decided .escalate))).matches' := by
  rw [RegularExpression.matches'_star, Language.mem_kstar]
  refine ⟨List.replicate n [.decided .escalate], by simp, fun y hy => ?_⟩
  rw [List.eq_of_mem_replicate hy]
  rfl

theorem mem_rulings {word : List Event} (h : word = [] ∨ word = [Event.decided .approve] ∨
    word = [Event.decided .reject]) :
    word ∈ (1 + (RegularExpression.char (Event.decided .approve) +
      RegularExpression.char (Event.decided .reject))).matches' := by
  simp only [RegularExpression.matches'_add, RegularExpression.matches'_epsilon,
    RegularExpression.matches'_char, Language.mem_add, Language.mem_one]
  exact h

theorem mem_grammar_of_opened {n : ℕ} {ruling : List Event} (h : ruling = [] ∨
    ruling = [.decided .approve] ∨ ruling = [.decided .reject]) :
    .opened :: (List.replicate n (Event.decided .escalate) ++ ruling) ∈ grammar.matches' := by
  rw [grammar, RegularExpression.matches'_add, RegularExpression.matches'_mul,
    RegularExpression.matches'_mul]
  exact .inr (Language.append_mem_mul (Set.mem_singleton [Event.opened])
    (Language.append_mem_mul (escalations_mem n) (mem_rulings h)))

theorem Case.word_mem_grammar {π : Type*} (c : Case π) : c.word ∈ grammar.matches' := by
  cases c with
  | failed =>
    rw [grammar, RegularExpression.matches'_add, RegularExpression.matches'_add]
    exact .inl (.inl (Set.mem_singleton [Event.failed]))
  | automatic =>
    rw [grammar, RegularExpression.matches'_add, RegularExpression.matches'_add]
    exact .inl (.inr (Set.mem_singleton [Event.completed]))
  | review ds legal =>
    induction ds using List.reverseRecOn with
    | nil => exact mem_grammar_of_opened (n := 0) (.inl rfl)
    | append_singleton ds d _ =>
      rw [List.dropLast_concat] at legal
      have hds : (ds.map fun d => Event.decided d.verdict) =
          List.replicate ds.length (.decided .escalate) :=
        List.eq_replicate_iff.2 ⟨by simp, fun e he => by
          obtain ⟨d, hd, rfl⟩ := List.mem_map.1 he
          rw [legal d hd]⟩
      have hword : (review (ds ++ [d]) (by rwa [List.dropLast_concat])).word =
          .opened :: (List.replicate ds.length (.decided .escalate) ++ [.decided d.verdict]) := by
        rw [word, List.map_append, hds]
        rfl
      rw [hword]
      -- the last decision is one more escalation, or the ruling
      cases d.verdict with
      | approve => exact mem_grammar_of_opened (.inr (.inl rfl))
      | reject => exact mem_grammar_of_opened (.inr (.inr rfl))
      | escalate =>
        rw [← List.replicate_succ', ← List.append_nil (List.replicate _ _)]
        exact mem_grammar_of_opened (.inl rfl)

theorem Case.replay_word {π : Type*} (c : Case π) : replay c.word = some c.state := by
  cases c with
  | failed => rfl
  | automatic => rfl
  | review ds legal =>
    induction ds using List.reverseRecOn with
    | nil => rfl
    | append_singleton ds d _ => simp [replay, word, state, List.getLast?_cons, Event.state]

end BankingAi.Review
