import BankingAi.Lib.Dict

/-!
# Deterministic machines and their runs

A `Machine` takes an input and a state to an output and the next state. `run` is the state a list of
inputs leads to and `trace` the list of its transitions. An invariant is proved for one step and
then holds of every run (`run_invariant`); where a step needs a condition on the state it starts
from, the condition is asked of every transition of the trace (`run_invariant_of`). What grows from
state to state is followed along a run by `run_rel` and, for a log, by `run_log`; what transitions
update by themselves is a fold of the trace (`run_fold`); inputs without an effect drop out of it
(`run_filter`). Schedules of concurrent parties are inputs too, so an interleaving is a run. Where a
state is read key by key and a step may tell something of one key, what was told last of every key
holds after a run (`run_told`).
-/

namespace BankingAi

/-- One step takes an input to an output and the next state. -/
structure Machine (σ ι ο : Type*) where
  step : σ → ι → ο × σ

/-- A step that was made. -/
structure Transition (σ ι ο : Type*) where
  pre : σ
  input : ι
  output : ο
  post : σ

namespace Machine

variable {σ ι ο : Type*} (m : Machine σ ι ο)

def next (s : σ) (i : ι) : σ := (m.step s i).2

def fire (s : σ) (i : ι) : Transition σ ι ο := ⟨s, i, (m.step s i).1, m.next s i⟩

/-- The state after the inputs, in order. -/
def run : σ → List ι → σ
  | s, [] => s
  | s, i :: is => run (m.next s i) is

/-- The transitions of a run, in order. -/
def trace : σ → List ι → List (Transition σ ι ο)
  | _, [] => []
  | s, i :: is => m.fire s i :: trace (m.next s i) is

variable {m}

theorem run_append (s : σ) (is js : List ι) : m.run s (is ++ js) = m.run (m.run s is) js := by
  induction is generalizing s with
  | nil => rfl
  | cons i is ih => exact ih (m.next s i)

theorem run_concat (s : σ) (is : List ι) (i : ι) : m.run s (is ++ [i]) = m.next (m.run s is) i :=
  run_append s is [i]

theorem trace_append (s : σ) (is js : List ι) :
    m.trace s (is ++ js) = m.trace s is ++ m.trace (m.run s is) js := by
  induction is generalizing s with
  | nil => rfl
  | cons i is ih => exact congrArg (m.fire s i :: ·) (ih (m.next s i))

theorem trace_concat (s : σ) (is : List ι) (i : ι) :
    m.trace s (is ++ [i]) = m.trace s is ++ [m.fire (m.run s is) i] :=
  trace_append s is [i]

/-- A transition of a trace starts in the state that some inputs lead to. -/
theorem mem_trace {s : σ} {is : List ι} {t : Transition σ ι ο} (h : t ∈ m.trace s is) :
    ∃ js i, js ++ [i] <+: is ∧ t = m.fire (m.run s js) i := by
  induction is generalizing s with
  | nil => simp [trace] at h
  | cons j is ih =>
    rcases List.mem_cons.1 h with rfl | h
    · exact ⟨[], j, by simp, rfl⟩
    · obtain ⟨js, i, hp, rfl⟩ := ih h
      exact ⟨j :: js, i, by simpa using hp, rfl⟩

/-- An invariant that every step from a state and an input satisfying `G` keeps. -/
theorem run_invariant_of {I : σ → Prop} {G : σ → ι → Prop}
    (hstep : ∀ s i, G s i → I s → I (m.next s i)) {s : σ} {is : List ι} (hs : I s)
    (hG : ∀ t ∈ m.trace s is, G t.pre t.input) : I (m.run s is) := by
  induction is generalizing s with
  | nil => exact hs
  | cons i is ih =>
    exact ih (hstep s i (hG _ List.mem_cons_self) hs) fun t ht => hG t (List.mem_cons_of_mem _ ht)

/-- An invariant that every step keeps holds after every run. -/
theorem run_invariant {I : σ → Prop} (hstep : ∀ s i, I s → I (m.next s i)) {s : σ} (hs : I s)
    (is : List ι) : I (m.run s is) :=
  run_invariant_of (G := fun _ _ => True) (fun s i _ => hstep s i) hs fun _ _ => trivial

section along

variable {I : σ → Prop} (hinv : ∀ s i, I s → I (m.next s i)) {s : σ} (hs : I s) (is : List ι)
include hinv hs

/-- A preorder along which every step goes, a run goes along too. -/
theorem run_rel {R : σ → σ → Prop} [Std.Refl R] [IsTrans σ R] (hstep : ∀ s i, I s → R s (m.next s i)) :
    R s (m.run s is) := by
  induction is generalizing s with
  | nil => exact Std.Refl.refl s
  | cons i is ih => exact IsTrans.trans _ _ _ (hstep s i hs) (ih (hinv s i hs))

/-- A log to which every step adds its entries has those of the transitions, in order. -/
theorem run_log {β : Type*} (log : σ → List β) (entries : Transition σ ι ο → List β)
    (hstep : ∀ s i, I s → log (m.next s i) = log s ++ entries (m.fire s i)) :
    log (m.run s is) = log s ++ (m.trace s is).flatMap entries := by
  induction is generalizing s with
  | nil => exact (List.append_nil _).symm
  | cons i is ih =>
    rw [run, ih (hinv s i hs), hstep s i hs, trace, List.flatMap_cons, List.append_assoc]

/-- What every step updates by its transition alone, a run updates by its transitions in order. -/
theorem run_fold {β : Type*} (f : σ → β) (update : β → Transition σ ι ο → β)
    (hstep : ∀ s i, I s → f (m.next s i) = update (f s) (m.fire s i)) :
    f (m.run s is) = (m.trace s is).foldl update (f s) := by
  induction is generalizing s with
  | nil => rfl
  | cons i is ih =>
    rw [run, ih (hinv s i hs), hstep s i hs]
    rfl

end along

/-- Inputs that leave every state as it is can be left out of a run: the others lead to the same
state, through the same transitions. -/
theorem run_filter (keep : ι → Bool) (hskip : ∀ s i, keep i = false → m.next s i = s) (s : σ)
    (is : List ι) :
    m.run s is = m.run s (is.filter keep) ∧
      (m.trace s is).filter (fun t => keep t.input) = m.trace s (is.filter keep) := by
  induction is generalizing s with
  | nil => exact ⟨rfl, rfl⟩
  | cons i is ih =>
    cases hi : keep i with
    | true =>
      have hfire : keep (m.fire s i).input = true := hi
      rw [List.filter_cons_of_pos hi, trace, List.filter_cons_of_pos (p := fun t : Transition σ ι ο => keep t.input) hfire]
      exact ⟨(ih _).1, congrArg (m.fire s i :: ·) (ih _).2⟩
    | false =>
      have hdrop : ¬ keep i = true := by rw [hi]; exact Bool.false_ne_true
      have hfire : ¬ keep (m.fire s i).input = true := hdrop
      rw [List.filter_cons_of_neg hdrop, trace, List.filter_cons_of_neg (p := fun t : Transition σ ι ο => keep t.input) hfire, run,
        hskip s i hi]
      exact ih s

/-! ### Registers -/

section told

variable {κ ν : Type*} [DecidableEq κ]

/-- What the transitions tell, the last of each key. -/
def told (tell : Transition σ ι ο → Option (κ × ν)) (ts : List (Transition σ ι ο)) : Dict κ ν :=
  .ofList (ts.filterMap tell)

theorem told_concat_of_none {tell : Transition σ ι ο → Option (κ × ν)} {ts : List (Transition σ ι ο)}
    {t : Transition σ ι ο} (h : tell t = none) : told tell (ts ++ [t]) = told tell ts := by
  rw [told, List.filterMap_append, List.filterMap_cons_none h, List.filterMap_nil, List.append_nil, told]

theorem told_concat_of_some {tell : Transition σ ι ο → Option (κ × ν)} {ts : List (Transition σ ι ο)}
    {t : Transition σ ι ο} {k : κ} {v : ν} (h : tell t = some (k, v)) :
    told tell (ts ++ [t]) = (told tell ts).set k v := by
  rw [told, List.filterMap_append, List.filterMap_cons_some h, List.filterMap_nil, Dict.ofList_concat, told]

/-- After a run, what was told last of a key holds, or that nothing was. -/
theorem run_told {I : σ → Prop} (hinv : ∀ s i, I s → I (m.next s i)) {tell : Transition σ ι ο → Option (κ × ν)}
    {H : σ → κ → Option ν → Prop}
    (hkept : ∀ s i, I s → tell (m.fire s i) = none → ∀ k o, H s k o → H (m.next s i) k o)
    (htold : ∀ s i, I s → ∀ k v, tell (m.fire s i) = some (k, v) →
      H (m.next s i) k (some v) ∧ ∀ k' o, k' ≠ k → H s k' o → H (m.next s i) k' o)
    {s : σ} (hs : I s) (hstart : ∀ k, H s k none) (is : List ι) (k : κ) :
    H (m.run s is) k ((told tell (m.trace s is)).get? k) := by
  induction is using List.reverseRecOn generalizing k with
  | nil => exact hstart k
  | append_singleton is i ih =>
    have hI := run_invariant hinv hs is
    rw [run_concat, trace_concat]
    cases ht : tell (m.fire (m.run s is) i) with
    | none =>
      rw [told_concat_of_none ht]
      exact hkept _ i hI ht k _ (ih k)
    | some p =>
      obtain ⟨k', v⟩ := p
      obtain ⟨hnew, hold⟩ := htold _ i hI k' v ht
      rw [told_concat_of_some ht, Dict.get?_set]
      split
      case isTrue h => rw [h]; exact hnew
      case isFalse h => exact hold k _ h (ih k)

end told

end Machine
end BankingAi
