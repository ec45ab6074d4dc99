import BankingAi.Lib.Session

/-!
# Databases that check their rows

A database may enforce a constraint on its tables: the round trip that would store tables which break
it fails, and the transaction with it. What such a database commits satisfies the constraint, and a
transaction whose tables satisfy it at every round trip does not notice the checks.

`Agree E` relates two computations step by step: on sessions related by `E` they return the same and
leave related sessions.
-/

namespace BankingAi.SessionM

variable {δ μ ω ε α β : Type}

/-! ### Runs by their round trips -/

/-- A run that returns makes some number of round trips, none of which fails, and no failure of a
later one changes it. -/
def Counted ⦃α : Type⦄ (m : SessionM δ μ ω ε α) : Prop :=
  ∀ ⦃F s a F' s'⦄, m F s = (.ok a, F', s') →
    ∃ n, (∀ k < n, F k = none) ∧ ∀ G : Faults ε, (∀ k < n, G k = none) → m G s = (.ok a, G.drop n, s')

namespace Counted

theorem of_ok {m : SessionM δ μ ω ε α} (h : ∀ F G s, (m F s).2.1 = F ∧ m G s = ((m F s).1, G, (m F s).2.2)) :
    Counted m := by
  intro F s a F' s' hm
  refine ⟨0, fun k hk => absurd hk (Nat.not_lt_zero k), fun G _ => ?_⟩
  rw [(h F G s).2, hm]
  rfl

theorem roundTrip : Counted (SessionM.roundTrip : SessionM δ μ ω ε Unit) := by
  intro F s a F' s' hm
  unfold SessionM.roundTrip at hm
  split at hm
  case h_1 => cases hm
  case h_2 hF =>
    cases hm
    refine ⟨1, fun k hk => ?_, fun G hG => ?_⟩
    · obtain rfl : k = 0 := by omega
      exact hF
    · unfold SessionM.roundTrip
      rw [hG 0 Nat.one_pos]
      rfl

theorem bind {m : SessionM δ μ ω ε α} {f : α → SessionM δ μ ω ε β} (hm : Counted m)
    (hf : ∀ a, Counted (f a)) : Counted (m >>= f) := by
  intro F s b F' s' h
  obtain ⟨a, F₁, s₁, h1, h2⟩ := bind_eq_ok h
  obtain ⟨n, hn, hrun⟩ := hm h1
  obtain rfl : F₁ = F.drop n := by
    have heq := h1.symm.trans (hrun F hn)
    cases heq
    rfl
  obtain ⟨l, hl, hrest⟩ := hf a h2
  refine ⟨n + l, fun k hk => ?_, fun G hG => ?_⟩
  · by_cases hkn : k < n
    · exact hn k hkn
    · have hlate := hl (k - n) (by omega)
      rwa [Faults.drop, Nat.sub_add_cancel (by omega)] at hlate
  · rw [bind_of_ok (hrun G fun k hk => hG k (by omega)), hrest (G.drop n) fun k hk => hG (k + n) (by omega),
      Faults.drop_drop]

theorem zoom {δ' μ' ω' : Type} {part : Part δ μ ω δ' μ' ω'} {m : SessionM δ' μ' ω' ε α} (hm : Counted m) :
    Counted (zoom part m) := by
  intro F s a F' s' h
  unfold SessionM.zoom at h
  match hr : m F (part.get s), h with
  | (.ok b, F₁, s₁), h =>
    cases h
    obtain ⟨n, hn, hrun⟩ := hm hr
    exact ⟨n, hn, fun G hG => zoom_of_ok (hrun G hG)⟩

theorem effect (f : ω → α × ω) : Counted (SessionM.effect f : SessionM δ μ ω ε α) :=
  of_ok fun _ _ _ => ⟨rfl, rfl⟩

end Counted

theorem counted_rule : Rule (Counted (δ := δ) (μ := μ) (ω := ω) (ε := ε)) where
  pure _ := .of_ok fun _ _ _ => ⟨rfl, rfl⟩
  raise _ := .of_ok fun _ _ _ => ⟨rfl, rfl⟩
  get := .of_ok fun _ _ _ => ⟨rfl, rfl⟩
  modifyDb _ := .of_ok fun _ _ _ => ⟨rfl, rfl⟩
  modifyMemory _ := .of_ok fun _ _ _ => ⟨rfl, rfl⟩
  roundTrip := .roundTrip
  bind := .bind

theorem Counted.ofExcept (r : Except ε α) : Counted (SessionM.ofExcept r : SessionM δ μ ω ε α) := by
  cases r with
  | error e => exact counted_rule.raise e
  | ok a => exact counted_rule.pure a

/-! ### Transactions on a database that checks -/

section checked

variable (ok : δ → Prop) [DecidablePred ok] (e : ε)

/-- The failures of a database that refuses tables which are not `ok`, besides those of `F`. The
tables that round trip `k` would store are those of the run broken off there. -/
def refusing (m : SessionM δ μ ω ε α) (s : Session δ μ ω) (F : Faults ε) : Faults ε := fun k =>
  if ok (m (.only k e) s).2.2.db then F k else some e

/-- `body` with the commit. -/
def committed (body : SessionM δ μ ω ε α) : SessionM δ μ ω ε α :=
  body >>= fun a => roundTrip >>= fun _ => pure a

/-- A transaction on such a database. -/
def transactChecked (memory : μ) (body : SessionM δ μ ω ε α) (F : Faults ε) (db : δ) (world : ω) :
    Except ε α × δ × ω :=
  transact memory body (refusing ok e (committed body) ⟨db, memory, world⟩ F) db world

variable {ok e} {memory : μ} {body : SessionM δ μ ω ε α} {F : Faults ε} {db : δ} {world : ω}

theorem refusing_eq_none {m : SessionM δ μ ω ε α} {s : Session δ μ ω} {k : ℕ}
    (h : refusing ok e m s F k = none) : ok (m (.only k e) s).2.2.db ∧ F k = none := by
  unfold refusing at h
  split at h
  case isTrue hok => exact ⟨hok, h⟩
  case isFalse => cases h

theorem transactChecked_of_ok (h : ∀ G, ok (committed body G ⟨db, memory, world⟩).2.2.db) :
    transactChecked ok e memory body F db world = transact memory body F db world := by
  have hF : refusing ok e (committed body) ⟨db, memory, world⟩ F = F := funext fun k => if_pos (h _)
  rw [transactChecked, hF]

/-- A transaction commits at the round trip behind those of its body. -/
theorem transact_of_counted {n : ℕ} {a : α} {s : Session δ μ ω}
    (h : body F ⟨db, memory, world⟩ = (.ok a, F.drop n, s)) (hn : F n = none) :
    transact memory body F db world = (.ok a, s.db, s.world) := by
  have hcommit : (roundTrip : SessionM δ μ ω ε Unit) (F.drop n) s = (.ok (), (F.drop n).tail, s) := by
    unfold SessionM.roundTrip
    rw [Faults.drop, Nat.zero_add, hn]
  unfold transact
  rw [bind_of_ok h, bind_of_ok hcommit, pure_run]

theorem transact_ok_counted (hbody : Counted body) {a : α}
    (h : (transact memory body F db world).1 = .ok a) :
    ∃ n s, (∀ k ≤ n, F k = none) ∧
      ∀ G : Faults ε, (∀ k < n, G k = none) → body G ⟨db, memory, world⟩ = (.ok a, G.drop n, s) := by
  unfold transact at h
  split at h
  case h_2 => cases h
  case h_1 b F' s heq =>
    cases h
    obtain ⟨a, F₁, s₁, h1, h2⟩ := bind_eq_ok heq
    obtain ⟨u, F₂, s₂, h3, h4⟩ := bind_eq_ok h2
    cases h4
    obtain ⟨n, hn, hrun⟩ := hbody h1
    refine ⟨n, s₁, fun k hk => ?_, hrun⟩
    by_cases hkn : k < n
    · exact hn k hkn
    · obtain rfl : k = n := by omega
      obtain rfl : F₁ = F.drop k := by
        have hsame := h1.symm.trans (hrun F hn)
        cases hsame
        rfl
      unfold SessionM.roundTrip at h3
      split at h3
      case h_1 => cases h3
      case h_2 hnone =>
        rw [Faults.drop, Nat.zero_add] at hnone
        exact hnone

/-- What is committed satisfies the constraint, and would be committed without the checks. -/
theorem transactChecked_ok {a : α} (hbody : Counted body)
    (h : (transactChecked ok e memory body F db world).1 = .ok a) :
    ok (transactChecked ok e memory body F db world).2.1 ∧
      transact memory body F db world = transactChecked ok e memory body F db world := by
  obtain ⟨n, s, hnone, hrun⟩ := transact_ok_counted hbody h
  have hall : ∀ k ≤ n, ok (committed body (.only k e) ⟨db, memory, world⟩).2.2.db ∧ F k = none :=
    fun k hk => refusing_eq_none (hnone k hk)
  have hlast : n ≤ n := Nat.le_refl n
  have hchecked : transactChecked ok e memory body F db world = (.ok a, s.db, s.world) :=
    transact_of_counted (hrun _ fun k hk => hnone k (Nat.le_of_lt hk)) (hnone n hlast)
  rw [hchecked, transact_of_counted (hrun F fun k hk => (hall k (Nat.le_of_lt hk)).2) (hall n hlast).2]
  refine ⟨?_, rfl⟩
  -- the tables of the commit are those of the run broken off there
  have hbroken : (committed body (.only n e) ⟨db, memory, world⟩).2.2.db = s.db := by
    have hcommit : (roundTrip : SessionM δ μ ω ε Unit) ((Faults.only n e).drop n) s =
        (.error e, ((Faults.only n e).drop n).tail, s) := by
      have hat : (Faults.only n e).drop n 0 = some e := by
        rw [Faults.drop, Nat.zero_add]
        exact if_pos rfl
      unfold SessionM.roundTrip
      rw [hat]
    have hearly := hrun (.only n e) fun k hk => if_neg (Nat.ne_of_lt hk)
    rw [committed, bind_of_ok hearly, bind_of_error hcommit]
  rw [← hbroken]
  exact (hall n hlast).1

end checked

/-! ### Two computations side by side -/

/-- On related sessions the two return the same and leave related sessions. -/
def Agree (E : Session δ μ ω → Session δ μ ω → Prop) (m m' : SessionM δ μ ω ε α) : Prop :=
  ∀ F ⦃s s'⦄, E s s' → (m F s).1 = (m' F s').1 ∧ (m F s).2.1 = (m' F s').2.1 ∧ E (m F s).2.2 (m' F s').2.2

namespace Agree

variable {E : Session δ μ ω → Session δ μ ω → Prop}

theorem pure (a : α) : Agree E (Pure.pure a : SessionM δ μ ω ε α) (Pure.pure a) :=
  fun _ _ _ h => ⟨rfl, rfl, h⟩

theorem raise (e : ε) : Agree E (SessionM.raise e : SessionM δ μ ω ε α) (.raise e) :=
  fun _ _ _ h => ⟨rfl, rfl, h⟩

theorem ofExcept (r : Except ε α) : Agree E (SessionM.ofExcept r : SessionM δ μ ω ε α) (.ofExcept r) := by
  cases r with
  | error e => exact raise e
  | ok a => exact pure a

theorem roundTrip : Agree E (SessionM.roundTrip : SessionM δ μ ω ε Unit) .roundTrip := by
  intro F s s' h
  unfold SessionM.roundTrip
  split
  all_goals exact ⟨rfl, rfl, h⟩

theorem bind {m m' : SessionM δ μ ω ε α} {f f' : α → SessionM δ μ ω ε β} (hm : Agree E m m')
    (hf : ∀ a, Agree E (f a) (f' a)) : Agree E (m >>= f) (m' >>= f') := by
  intro F s s' h
  obtain ⟨h1, h2, h3⟩ := hm F h
  rw [bind_run, bind_run]
  match hr : m F s, hr' : m' F s' with
  | (.ok a, F₁, s₁), (.ok b, F₂, s₂) =>
    rw [hr, hr'] at h1 h2 h3
    cases h1
    cases h2
    exact hf a F₁ h3
  | (.error e, F₁, s₁), (.error e', F₂, s₂) =>
    rw [hr, hr'] at h1 h2 h3
    exact ⟨congrArg Except.error (Except.error.inj h1), h2, h3⟩
  | (.ok a, F₁, s₁), (.error e', F₂, s₂) =>
    rw [hr, hr'] at h1
    cases h1
  | (.error e, F₁, s₁), (.ok b, F₂, s₂) =>
    rw [hr, hr'] at h1
    cases h1

/-- The continuation of an effect only has to cover the values that the effect gives. -/
theorem effect_bind {g : ω → α × ω} {f f' : α → SessionM δ μ ω ε β}
    (hE : ∀ s s', E s s' → s'.world = s.world ∧
      E { s with world := (g s.world).2 } { s' with world := (g s'.world).2 })
    (hf : ∀ w, Agree E (f (g w).1) (f' (g w).1)) :
    Agree E (SessionM.effect g >>= f) (SessionM.effect g >>= f') := by
  intro F s s' h
  obtain ⟨hworld, hnext⟩ := hE s s' h
  rw [bind_run, bind_run, effect_run, effect_run]
  dsimp only
  rw [hworld] at hnext ⊢
  exact hf s.world F hnext

theorem get_bind {f : Session δ μ ω → SessionM δ μ ω ε β} (hE : ∀ s s', E s s' → f s' = f s)
    (hf : ∀ s, Agree E (f s) (f s)) : Agree E (SessionM.get >>= f) (SessionM.get >>= f) := by
  intro F s s' h
  rw [bind_run, bind_run, get_run, get_run]
  dsimp only
  rw [hE s s' h]
  exact hf s F h

theorem zoom {δ' μ' ω' : Type} {part : Part δ μ ω δ' μ' ω'} {E' : Session δ' μ' ω' → Session δ' μ' ω' → Prop}
    {m m' : SessionM δ' μ' ω' ε α} (hm : Agree E' m m')
    (hE : ∀ s s', E s s' → E' (part.get s) (part.get s') ∧
      ∀ t t', E' t t' → E (part.put t s) (part.put t' s')) :
    Agree E (SessionM.zoom part m) (SessionM.zoom part m') := by
  intro F s s' h
  obtain ⟨hget, hput⟩ := hE s s' h
  obtain ⟨h1, h2, h3⟩ := hm F hget
  exact ⟨h1, h2, hput _ _ h3⟩

theorem transact {memory : μ} {body body' : SessionM δ μ ω ε α} (h : Agree E body body') {db : δ} {world : ω}
    (hE : E ⟨db, memory, world⟩ ⟨db, memory, world⟩) (F : Faults ε) :
    (SessionM.transact memory body F db world).1 = (SessionM.transact memory body' F db world).1 ∧
      ∀ a, (SessionM.transact memory body F db world).1 = .ok a → ∃ s s', E s s' ∧
        (SessionM.transact memory body F db world).2 = (s.db, s.world) ∧
        (SessionM.transact memory body' F db world).2 = (s'.db, s'.world) := by
  have hcommitted : Agree E (committed body) (committed body') :=
    h.bind fun a => roundTrip.bind fun _ => pure a
  obtain ⟨h1, -, h3⟩ := hcommitted F hE
  unfold committed at h1 h3
  unfold SessionM.transact
  split
  case h_1 a F' s heq =>
    rw [heq] at h1 h3
    split
    case h_1 b F'' s' heq' =>
      rw [heq'] at h1 h3
      exact ⟨h1, fun _ _ => ⟨s, s', h3, rfl, rfl⟩⟩
    case h_2 e F'' s' heq' =>
      rw [heq'] at h1
      cases h1
  case h_2 e F' s heq =>
    rw [heq] at h1
    split
    case h_1 b F'' s' heq' =>
      rw [heq'] at h1
      cases h1
    case h_2 e' F'' s' heq' =>
      rw [heq'] at h1
      refine ⟨?_, nofun⟩
      exact congrArg Except.error (Except.error.inj h1)

end Agree
end BankingAi.SessionM
