import Mathlib.Order.Basic

/-!
# Database sessions

`SessionM δ μ ω ε α` is a computation over an open session: the database `δ` as the transaction sees
it, the session's own memory `μ` (what an object mapper has loaded) and the world `ω` outside the
transaction, which a rollback does not restore. Every round trip to the database may fail; which
ones do is given by a `Faults` stream, so a statement over all streams is one over all failures.

`transact` opens a session, runs a body and commits; an exception rolls the database back and
leaves the world as the body left it. A `Rule` is a property of computations that the database
operations have and `bind` keeps. Three rules reduce a transaction to its fault-free run: `Robust` (a
run that returns, returns the same without faults), `Faithful` (a run that raises, raises the same
without faults or what a round trip raised) and `Keeps` (a relation between the worlds before and
after that holds whether or not the run returns).
-/

namespace BankingAi

/-- `faults n` is what the `n`-th round trip to the database from here on raises, if it fails. -/
def Faults (ε : Type) := ℕ → Option ε

namespace Faults
variable {ε : Type}

def tail (F : Faults ε) : Faults ε := fun n => F (n + 1)

/-- The faults from the `k`-th round trip on. -/
def drop (k : ℕ) (F : Faults ε) : Faults ε := fun n => F (n + k)

/-- No round trip fails. -/
def none : Faults ε := fun _ => Option.none

theorem drop_drop (F : Faults ε) (k l : ℕ) : (F.drop k).drop l = F.drop (k + l) := by
  funext n
  simp only [drop]
  congr 1
  omega

@[simp] theorem tail_none : (none : Faults ε).tail = none := rfl
@[simp] theorem none_zero : (none : Faults ε) 0 = Option.none := rfl

/-- Only the `n`-th round trip fails, with `e`. -/
def only (n : ℕ) (e : ε) : Faults ε := fun k => if k = n then some e else Option.none

end Faults

structure Session (δ μ ω : Type) where
  db : δ
  memory : μ
  world : ω

def SessionM (δ μ ω ε α : Type) :=
  Faults ε → Session δ μ ω → Except ε α × Faults ε × Session δ μ ω

namespace SessionM

variable {δ μ ω ε α β : Type}

instance : Monad (SessionM δ μ ω ε) where
  pure a := fun F s => (.ok a, F, s)
  bind m f := fun F s =>
    match m F s with
    | (.ok a, F', s') => f a F' s'
    | (.error e, F', s') => (.error e, F', s')

def raise (e : ε) : SessionM δ μ ω ε α := fun F s => (.error e, F, s)

def ofExcept : Except ε α → SessionM δ μ ω ε α
  | .ok a => pure a
  | .error e => raise e

def get : SessionM δ μ ω ε (Session δ μ ω) := fun F s => (.ok s, F, s)

def modifyDb (f : δ → δ) : SessionM δ μ ω ε Unit := fun F s => (.ok (), F, { s with db := f s.db })

def modifyMemory (f : μ → μ) : SessionM δ μ ω ε Unit :=
  fun F s => (.ok (), F, { s with memory := f s.memory })

/-- An effect on the world outside the transaction. -/
def effect (f : ω → α × ω) : SessionM δ μ ω ε α :=
  fun F s => (.ok (f s.world).1, F, { s with world := (f s.world).2 })

/-- One exchange with the database: a query, a flush or a commit. -/
def roundTrip : SessionM δ μ ω ε Unit := fun F s =>
  match F 0 with
  | some e => (.error e, F.tail, s)
  | Option.none => (.ok (), F.tail, s)

section run
variable (F : Faults ε) (s : Session δ μ ω)

@[simp] theorem pure_run (a : α) : (pure a : SessionM δ μ ω ε α) F s = (.ok a, F, s) := rfl

theorem bind_run (m : SessionM δ μ ω ε α) (f : α → SessionM δ μ ω ε β) :
    (m >>= f) F s = match m F s with
      | (.ok a, F', s') => f a F' s'
      | (.error e, F', s') => (.error e, F', s') := rfl

@[simp] theorem raise_run (e : ε) : (raise e : SessionM δ μ ω ε α) F s = (.error e, F, s) := rfl

@[simp] theorem get_run : (get : SessionM δ μ ω ε _) F s = (.ok s, F, s) := rfl

@[simp] theorem modifyDb_run (f : δ → δ) :
    (modifyDb f : SessionM δ μ ω ε Unit) F s = (.ok (), F, { s with db := f s.db }) := rfl

@[simp] theorem modifyMemory_run (f : μ → μ) :
    (modifyMemory f : SessionM δ μ ω ε Unit) F s = (.ok (), F, { s with memory := f s.memory }) := rfl

@[simp] theorem effect_run (f : ω → α × ω) :
    (effect f : SessionM δ μ ω ε α) F s = (.ok (f s.world).1, F, { s with world := (f s.world).2 }) :=
  rfl

@[simp] theorem roundTrip_run_none :
    (roundTrip : SessionM δ μ ω ε Unit) .none s = (.ok (), .none, s) := rfl

variable {F s}

theorem bind_of_ok {m : SessionM δ μ ω ε α} {f : α → SessionM δ μ ω ε β} {a : α} {F' : Faults ε}
    {s' : Session δ μ ω} (h : m F s = (.ok a, F', s')) : (m >>= f) F s = f a F' s' := by
  rw [bind_run, h]

theorem bind_of_error {m : SessionM δ μ ω ε α} {f : α → SessionM δ μ ω ε β} {e : ε} {F' : Faults ε}
    {s' : Session δ μ ω} (h : m F s = (.error e, F', s')) : (m >>= f) F s = (.error e, F', s') := by
  rw [bind_run, h]

theorem bind_eq_ok {m : SessionM δ μ ω ε α} {f : α → SessionM δ μ ω ε β} {b : β} {F' : Faults ε}
    {s' : Session δ μ ω} (h : (m >>= f) F s = (.ok b, F', s')) :
    ∃ a F₁ s₁, m F s = (.ok a, F₁, s₁) ∧ f a F₁ s₁ = (.ok b, F', s') := by
  rw [bind_run] at h
  match hm : m F s, h with
  | (.ok a, F₁, s₁), h => exact ⟨a, F₁, s₁, rfl, h⟩

theorem bind_assoc {γ : Type} (m : SessionM δ μ ω ε α) (f : α → SessionM δ μ ω ε β)
    (g : β → SessionM δ μ ω ε γ) : (m >>= f) >>= g = m >>= fun a => f a >>= g := by
  funext F s
  rw [bind_run, bind_run, bind_run]
  match m F s with
  | (.ok a, F', s') => rfl
  | (.error e, F', s') => rfl

theorem roundTrip_eq_ok {u : Unit} {F' : Faults ε} {s' : Session δ μ ω}
    (h : (roundTrip : SessionM δ μ ω ε Unit) F s = (.ok u, F', s')) : s' = s := by
  unfold roundTrip at h
  split at h
  · cases h
  · cases h; rfl

end run

/-! ### Proof rules -/

/-- A property of computations that all the database operations have and `bind` keeps: it holds of a
computation as soon as it holds of the effects the computation has on the world. -/
structure Rule (P : ∀ ⦃α : Type⦄, SessionM δ μ ω ε α → Prop) : Prop where
  pure : ∀ {α : Type} (a : α), P (Pure.pure a)
  raise : ∀ {α : Type} (e : ε), P (SessionM.raise e : SessionM δ μ ω ε α)
  get : P SessionM.get
  modifyDb : ∀ f : δ → δ, P (SessionM.modifyDb f)
  modifyMemory : ∀ f : μ → μ, P (SessionM.modifyMemory f)
  roundTrip : P SessionM.roundTrip
  bind : ∀ {α β : Type} {m : SessionM δ μ ω ε α} {f : α → SessionM δ μ ω ε β},
    P m → (∀ a, P (f a)) → P (m >>= f)

/-- If `m` returns under some faults, it returns the same value and state under none. -/
def Robust ⦃α : Type⦄ (m : SessionM δ μ ω ε α) : Prop :=
  ∀ ⦃F s a F' s'⦄, m F s = (.ok a, F', s') → m .none s = (.ok a, .none, s')

theorem Robust.effect (f : ω → α × ω) : Robust (SessionM.effect f : SessionM δ μ ω ε α) := by
  rintro F s b F' s' h
  cases h; rfl

theorem Robust.bind {m : SessionM δ μ ω ε α} {f : α → SessionM δ μ ω ε β} (hm : Robust m)
    (hf : ∀ a, Robust (f a)) : Robust (m >>= f) := by
  rintro F s b F' s' h
  obtain ⟨a, F₁, s₁, h1, h2⟩ := bind_eq_ok h
  rw [bind_of_ok (hm h1)]
  exact hf a h2

theorem robust_rule : Rule (Robust (δ := δ) (μ := μ) (ω := ω) (ε := ε)) where
  pure a := by rintro F s b F' s' h; cases h; rfl
  raise e := by rintro F s b F' s' h; cases h
  get := by rintro F s b F' s' h; cases h; rfl
  modifyDb f := by rintro F s b F' s' h; cases h; rfl
  modifyMemory f := by rintro F s b F' s' h; cases h; rfl
  roundTrip := by
    rintro F s b F' s' h
    unfold SessionM.roundTrip at h
    split at h
    · cases h
    · cases h; rfl
  bind := Robust.bind

/-- Under faults `m` does what it does under none, unless it raises what a failed round trip raised. -/
def Faithful ⦃α : Type⦄ (m : SessionM δ μ ω ε α) : Prop :=
  ∀ F s, (∃ n, m F s = ((m .none s).1, F.drop n, (m .none s).2.2)) ∨ ∃ k e, F k = some e ∧ (m F s).1 = .error e

namespace Faithful

theorem of_quiet {m : SessionM δ μ ω ε α} (h : ∀ F s, m F s = ((m .none s).1, F, (m .none s).2.2)) : Faithful m :=
  fun F s => .inl ⟨0, h F s⟩

theorem roundTrip : Faithful (SessionM.roundTrip : SessionM δ μ ω ε Unit) := by
  intro F s
  unfold SessionM.roundTrip
  cases hF : F 0 with
  | none => exact .inl ⟨1, rfl⟩
  | some e => exact .inr ⟨0, e, hF, rfl⟩

theorem bind {m : SessionM δ μ ω ε α} {f : α → SessionM δ μ ω ε β} (hm : Faithful m) (hf : ∀ a, Faithful (f a)) :
    Faithful (m >>= f) := by
  intro F s
  rcases hm F s with ⟨n, h⟩ | ⟨k, e, hk, h⟩
  · -- without faults none are left for what follows
    have hnone : (m .none s).2.1 = .none := by
      rcases hm .none s with ⟨n, h⟩ | ⟨k, e, hk, -⟩
      · rw [h]
        rfl
      · cases hk
    match hr : m .none s with
    | (.error e, F', s') =>
      rw [hr] at h
      exact .inl ⟨n, by rw [bind_of_error h, bind_of_error hr]⟩
    | (.ok a, F', s') =>
      rw [hr] at h hnone
      obtain rfl : F' = .none := hnone
      rw [bind_of_ok h, bind_of_ok hr]
      rcases hf a (F.drop n) s' with ⟨l, h'⟩ | ⟨k, e, hk, h'⟩
      · exact .inl ⟨n + l, by rw [h', Faults.drop_drop]⟩
      · exact .inr ⟨k + n, e, hk, h'⟩
  · refine .inr ⟨k, e, hk, ?_⟩
    match hr : m F s with
    | (.error e', F', s') =>
      rw [hr] at h
      rw [bind_of_error hr]
      exact congrArg Except.error (Except.error.inj h)
    | (.ok a, F', s') =>
      rw [hr] at h
      cases h

theorem effect (f : ω → α × ω) : Faithful (SessionM.effect f : SessionM δ μ ω ε α) := of_quiet fun _ _ => rfl

end Faithful

theorem faithful_rule : Rule (Faithful (δ := δ) (μ := μ) (ω := ω) (ε := ε)) where
  pure _ := .of_quiet fun _ _ => rfl
  raise _ := .of_quiet fun _ _ => rfl
  get := .of_quiet fun _ _ => rfl
  modifyDb _ := .of_quiet fun _ _ => rfl
  modifyMemory _ := .of_quiet fun _ _ => rfl
  roundTrip := .roundTrip
  bind := .bind

theorem Faithful.ofExcept (r : Except ε α) : Faithful (SessionM.ofExcept r : SessionM δ μ ω ε α) := by
  cases r with
  | error e => exact faithful_rule.raise e
  | ok a => exact faithful_rule.pure a

/-- Whether or not `m` returns, the worlds before and after are related by `R`. -/
def Keeps (R : ω → ω → Prop) ⦃α : Type⦄ (m : SessionM δ μ ω ε α) : Prop :=
  ∀ F s, R s.world (m F s).2.2.world

namespace Keeps
variable {R : ω → ω → Prop}

theorem of_world_eq [Std.Refl R] {m : SessionM δ μ ω ε α} (h : ∀ F s, (m F s).2.2.world = s.world) :
    Keeps R m := by
  intro F s
  rw [h]
  exact Std.Refl.refl _

theorem effect {f : ω → α × ω} (h : ∀ w, R w (f w).2) :
    Keeps R (SessionM.effect f : SessionM δ μ ω ε α) :=
  fun _ s => h s.world

theorem bind [IsTrans ω R] {m : SessionM δ μ ω ε α} {f : α → SessionM δ μ ω ε β} (hm : Keeps R m)
    (hf : ∀ a, Keeps R (f a)) : Keeps R (m >>= f) := by
  intro F s
  have h1 := hm F s
  rw [bind_run]
  match hr : m F s with
  | (.ok a, F₁, s₁) => rw [hr] at h1; exact IsTrans.trans _ _ _ h1 (hf a F₁ s₁)
  | (.error e, F₁, s₁) => rw [hr] at h1; exact h1

end Keeps

theorem keeps_rule {R : ω → ω → Prop} [Std.Refl R] [IsTrans ω R] :
    Rule (Keeps (δ := δ) (μ := μ) (ε := ε) R) where
  pure _ := .of_world_eq fun _ _ => rfl
  raise _ := .of_world_eq fun _ _ => rfl
  get := .of_world_eq fun _ _ => rfl
  modifyDb _ := .of_world_eq fun _ _ => rfl
  modifyMemory _ := .of_world_eq fun _ _ => rfl
  roundTrip := .of_world_eq fun F _ => by unfold SessionM.roundTrip; split <;> rfl
  bind := .bind

/-- Whether or not `m` returns, what `π` reads of the session stays. -/
def Leaves {ν : Type} (π : Session δ μ ω → ν) ⦃α : Type⦄ (m : SessionM δ μ ω ε α) : Prop :=
  ∀ F s, π (m F s).2.2 = π s

namespace Leaves
variable {ν : Type} {π : Session δ μ ω → ν}

theorem of_session_eq {m : SessionM δ μ ω ε α} (h : ∀ F s, (m F s).2.2 = s) : Leaves π m :=
  fun F s => congrArg π (h F s)

theorem pure (a : α) : Leaves π (Pure.pure a : SessionM δ μ ω ε α) := of_session_eq fun _ _ => rfl

theorem raise (e : ε) : Leaves π (SessionM.raise e : SessionM δ μ ω ε α) := of_session_eq fun _ _ => rfl

theorem get : Leaves π (SessionM.get : SessionM δ μ ω ε _) := of_session_eq fun _ _ => rfl

theorem roundTrip : Leaves π (SessionM.roundTrip : SessionM δ μ ω ε Unit) :=
  of_session_eq fun F _ => by unfold SessionM.roundTrip; split <;> rfl

theorem modifyDb {f : δ → δ} (h : ∀ s, π { s with db := f s.db } = π s) :
    Leaves π (SessionM.modifyDb f : SessionM δ μ ω ε Unit) := fun _ s => h s

theorem modifyMemory {f : μ → μ} (h : ∀ s, π { s with memory := f s.memory } = π s) :
    Leaves π (SessionM.modifyMemory f : SessionM δ μ ω ε Unit) := fun _ s => h s

theorem effect {f : ω → α × ω} (h : ∀ s, π { s with world := (f s.world).2 } = π s) :
    Leaves π (SessionM.effect f : SessionM δ μ ω ε α) := fun _ s => h s

theorem bind {m : SessionM δ μ ω ε α} {f : α → SessionM δ μ ω ε β} (hm : Leaves π m)
    (hf : ∀ a, Leaves π (f a)) : Leaves π (m >>= f) := by
  intro F s
  have h1 := hm F s
  rw [bind_run]
  match hr : m F s with
  | (.ok a, F₁, s₁) => rw [hr] at h1; exact (hf a F₁ s₁).trans h1
  | (.error e, F₁, s₁) => rw [hr] at h1; exact h1

end Leaves

/-! ### Round trips -/

/-- `m` makes `k` round trips and fails exactly if one of them does. -/
structure Trips (k : ℕ) (m : SessionM δ μ ω ε α) : Prop where
  ok : ∀ F s, (∀ j < k, F j = Option.none) → ∃ a s', m F s = (.ok a, F.drop k, s')
  error : ∀ F s, (∃ j < k, F j ≠ Option.none) → ∃ e F' s', m F s = (.error e, F', s')

namespace Trips
variable {k l : ℕ}

theorem of_ok {m : SessionM δ μ ω ε α} (h : ∀ F s, ∃ a s', m F s = (.ok a, F, s')) : Trips 0 m where
  ok F s _ := h F s
  error F s := by
    rintro ⟨j, hj, -⟩
    exact absurd hj (Nat.not_lt_zero j)

theorem pure (a : α) : Trips 0 (Pure.pure a : SessionM δ μ ω ε α) := of_ok fun _ s => ⟨a, s, rfl⟩

theorem modifyDb (f : δ → δ) : Trips 0 (SessionM.modifyDb f : SessionM δ μ ω ε Unit) :=
  of_ok fun _ _ => ⟨_, _, rfl⟩

theorem effect (f : ω → α × ω) : Trips 0 (SessionM.effect f : SessionM δ μ ω ε α) :=
  of_ok fun _ _ => ⟨_, _, rfl⟩

theorem roundTrip : Trips 1 (SessionM.roundTrip : SessionM δ μ ω ε Unit) where
  ok F s h := by
    unfold SessionM.roundTrip
    rw [h 0 Nat.one_pos]
    exact ⟨(), s, rfl⟩
  error F s := by
    rintro ⟨j, hj, hF⟩
    obtain rfl : j = 0 := by omega
    obtain ⟨e, he⟩ := Option.ne_none_iff_exists'.1 hF
    unfold SessionM.roundTrip
    rw [he]
    exact ⟨e, F.tail, s, rfl⟩

theorem bind {m : SessionM δ μ ω ε α} {f : α → SessionM δ μ ω ε β} (hm : Trips k m)
    (hf : ∀ a, Trips l (f a)) : Trips (k + l) (m >>= f) where
  ok F s h := by
    obtain ⟨a, s₁, hrun⟩ := hm.ok F s fun j hj => h j (by omega)
    obtain ⟨b, s₂, hrun'⟩ := (hf a).ok (F.drop k) s₁ fun j hj => h (j + k) (by omega)
    refine ⟨b, s₂, (bind_of_ok hrun).trans ?_⟩
    rw [hrun', Faults.drop_drop]
  error F s := by
    rintro ⟨j, hj, hF⟩
    by_cases hearly : ∃ i < k, F i ≠ Option.none
    · obtain ⟨e, F', s', hrun⟩ := hm.error F s hearly
      exact ⟨e, F', s', bind_of_error hrun⟩
    · have hearly : ∀ i < k, F i = Option.none := fun i hi =>
        not_not.1 fun hne => hearly ⟨i, hi, hne⟩
      obtain ⟨a, s₁, hrun⟩ := hm.ok F s hearly
      have hjk : k ≤ j := by
        by_contra hlt
        exact hF (hearly j (by omega))
      have hF' : (F.drop k) (j - k) ≠ Option.none := by
        rwa [Faults.drop, Nat.sub_add_cancel hjk]
      obtain ⟨e, F', s', hrun'⟩ := (hf a).error (F.drop k) s₁ ⟨j - k, by omega, hF'⟩
      exact ⟨e, F', s', (bind_of_ok hrun).trans hrun'⟩

end Trips

/-! ### A part of the session -/

/-- A part of a session, as it is read and put back. -/
structure Part (δ μ ω δ' μ' ω' : Type) where
  get : Session δ μ ω → Session δ' μ' ω'
  put : Session δ' μ' ω' → Session δ μ ω → Session δ μ ω

section zoom

variable {δ' μ' ω' : Type} (part : Part δ μ ω δ' μ' ω')

/-- A computation on a part, as one on the whole session. -/
def zoom (m : SessionM δ' μ' ω' ε α) : SessionM δ μ ω ε α := fun F s =>
  let r := m F (part.get s)
  (r.1, r.2.1, part.put r.2.2 s)

variable {part}

theorem zoom_of_ok {m : SessionM δ' μ' ω' ε α} {F F' : Faults ε} {s : Session δ μ ω}
    {s' : Session δ' μ' ω'} {a : α} (h : m F (part.get s) = (.ok a, F', s')) :
    zoom part m F s = (.ok a, F', part.put s' s) := by
  rw [zoom, h]

theorem Robust.zoom {m : SessionM δ' μ' ω' ε α} (hm : Robust m) : Robust (zoom part m) := by
  intro F s a F' s' h
  unfold SessionM.zoom at h
  match hr : m F (part.get s), h with
  | (.ok b, F₁, s₁), h =>
    cases h
    exact zoom_of_ok (hm hr)

theorem Faithful.zoom {m : SessionM δ' μ' ω' ε α} (hm : Faithful m) : Faithful (zoom part m) := by
  intro F s
  rcases hm F (part.get s) with ⟨n, h⟩ | ⟨k, e, hk, h⟩
  · exact .inl ⟨n, by rw [SessionM.zoom, h]; rfl⟩
  · exact .inr ⟨k, e, hk, h⟩

theorem Trips.zoom {k : ℕ} {m : SessionM δ' μ' ω' ε α} (hm : Trips k m) : Trips k (zoom part m) where
  ok F s h := by
    obtain ⟨a, s', hrun⟩ := hm.ok F (part.get s) h
    exact ⟨a, _, zoom_of_ok hrun⟩
  error F s h := by
    obtain ⟨e, F', s', hrun⟩ := hm.error F (part.get s) h
    refine ⟨e, F', part.put s' s, ?_⟩
    rw [SessionM.zoom, hrun]

end zoom

/-! ### Transactions -/

/-- Run `body` in a fresh session and commit: on an exception, of `body` or of the commit, the
database is rolled back and the exception goes on. The world keeps what `body` did to it. The result is
that of the commit too, so whoever reads it reads it after the transaction. -/
def transact (memory : μ) (body : SessionM δ μ ω ε α) (F : Faults ε) (db : δ) (world : ω) :
    Except ε α × δ × ω :=
  match (body >>= fun a => roundTrip >>= fun _ => pure a) F ⟨db, memory, world⟩ with
  | (.ok a, _, s) => (.ok a, s.db, s.world)
  | (.error e, _, s) => (.error e, db, s.world)

section transact
variable {memory : μ} {body : SessionM δ μ ω ε α} {F : Faults ε} {db : δ} {world : ω}

theorem transact_error {e : ε} (h : (transact memory body F db world).1 = .error e) :
    (transact memory body F db world).2.1 = db := by
  unfold transact at h ⊢
  split at h
  · cases h
  · rfl

/-- A transaction that returns does what its body does without faults. -/
theorem transact_ok {a : α} (hb : Robust body) (h : (transact memory body F db world).1 = .ok a) :
    ∃ s, body .none ⟨db, memory, world⟩ = (.ok a, .none, s) ∧
      (transact memory body F db world).2 = (s.db, s.world) := by
  unfold transact at h ⊢
  split at h
  · rename_i a' F' s heq
    cases h
    obtain ⟨a₁, F₁, s₁, h1, h2⟩ := bind_eq_ok heq
    obtain ⟨u, F₂, s₂, h3, h4⟩ := bind_eq_ok h2
    obtain rfl := roundTrip_eq_ok h3
    cases h4
    exact ⟨_, hb h1, rfl⟩
  · cases h

theorem transact_of_ok {a : α} {s : Session δ μ ω}
    (h : body .none ⟨db, memory, world⟩ = (.ok a, .none, s)) :
    transact memory body .none db world = (.ok a, s.db, s.world) := by
  unfold transact
  rw [bind_of_ok h, bind_of_ok (roundTrip_run_none s), pure_run]

theorem transact_of_error {e : ε} {F' : Faults ε} {s : Session δ μ ω}
    (h : body F ⟨db, memory, world⟩ = (.error e, F', s)) :
    transact memory body F db world = (.error e, db, s.world) := by
  unfold transact
  rw [bind_of_error h]

theorem transact_fst_of_error {e : ε} (h : (body F ⟨db, memory, world⟩).1 = .error e) :
    (transact memory body F db world).1 = .error e := by
  match hr : body F ⟨db, memory, world⟩ with
  | (.error e', F', s) =>
    rw [hr] at h
    rw [transact_of_error hr]
    exact congrArg Except.error (Except.error.inj h)
  | (.ok a, F', s) =>
    rw [hr] at h
    cases h

theorem transact_map (f : α → β) (memory : μ) (body : SessionM δ μ ω ε α) (F : Faults ε) (db : δ) (world : ω) :
    transact memory (body >>= fun a => pure (f a)) F db world =
      ((transact memory body F db world).1.map f, (transact memory body F db world).2) := by
  match hb : body F ⟨db, memory, world⟩ with
  | (.error e, F', s) => rw [transact_of_error hb, transact_of_error (bind_of_error hb)]; rfl
  | (.ok a, F', s) =>
    have hf : (body >>= fun a => pure (f a) : SessionM δ μ ω ε β) F ⟨db, memory, world⟩ = (.ok (f a), F', s) :=
      bind_of_ok hb
    unfold transact
    rw [bind_of_ok hb, bind_of_ok hf]
    match hr : (roundTrip : SessionM δ μ ω ε Unit) F' s with
    | (.error e, F'', s') => rw [bind_of_error hr, bind_of_error hr]; rfl
    | (.ok u, F'', s') => rw [bind_of_ok hr, bind_of_ok hr]; rfl

/-- A transaction does what it does without faults, or raises what a failed round trip raised. -/
theorem transact_faithful (hb : Faithful body) :
    transact memory body F db world = transact memory body .none db world ∨
      ∃ k e, F k = some e ∧ (transact memory body F db world).1 = .error e := by
  have h : Faithful (body >>= fun a => roundTrip >>= fun _ => Pure.pure a) :=
    hb.bind fun a => Faithful.roundTrip.bind fun _ => faithful_rule.pure a
  unfold transact
  rcases h F ⟨db, memory, world⟩ with ⟨n, hrun⟩ | ⟨k, e, hk, hrun⟩
  · rw [hrun]
    match (body >>= fun a => roundTrip >>= fun _ => Pure.pure a) .none ⟨db, memory, world⟩ with
    | (.ok a, F', s) => exact .inl rfl
    | (.error e, F', s) => exact .inl rfl
  · refine .inr ⟨k, e, hk, ?_⟩
    split
    · rename_i heq
      rw [heq] at hrun
      cases hrun
    · rename_i heq
      rw [heq] at hrun
      exact congrArg Except.error (Except.error.inj hrun)

/-- A transaction that leaves the database and the world as they are, however it ends. -/
theorem transact_leaves (hb : Leaves (fun s : Session δ μ ω => (s.db, s.world)) body) :
    (transact memory body F db world).2 = (db, world) := by
  have h : Leaves (fun s : Session δ μ ω => (s.db, s.world)) (body >>= fun a => roundTrip >>= fun _ => Pure.pure a) :=
    hb.bind fun a => Leaves.roundTrip.bind fun _ => .pure a
  have hs := h F ⟨db, memory, world⟩
  unfold transact
  split
  · rename_i heq
    rw [heq] at hs
    exact hs
  · rename_i heq
    rw [heq] at hs
    exact congrArg (db, ·) (congrArg Prod.snd hs)

theorem transact_keeps {R : ω → ω → Prop} [IsTrans ω R] [Std.Refl R] (hb : Keeps R body) :
    R world (transact memory body F db world).2.2 := by
  have h : Keeps R (body >>= fun a => roundTrip >>= fun _ => Pure.pure a) :=
    hb.bind fun a => keeps_rule.roundTrip.bind fun _ => keeps_rule.pure a
  have := h F ⟨db, memory, world⟩
  unfold transact
  split
  all_goals
    rename_i heq
    rw [heq] at this
    exact this

end transact
end SessionM
end BankingAi
