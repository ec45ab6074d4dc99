import BankingAi.Db.Workflow
import BankingAi.Json

/-!
# Values outside hidden keys

`mask hidden v` is what remains of a value when everything stored under a hidden key, at any depth,
is forgotten. Two values agree outside the hidden keys when their masks are equal. A value is clear
when no object in it has a hidden key; a clear value agrees with no other one, and `alter` gives
another value for each that is not clear.
-/

namespace BankingAi.Json

variable (hidden : String → Bool)

mutual
def mask : Json → Json
  | null => null
  | bool b => bool b
  | int n => int n
  | float x => float x
  | str s => str s
  | arr items => arr (maskItems items)
  | obj fields => obj (maskFields fields)

def maskItems : List Json → List Json
  | [] => []
  | v :: items => mask v :: maskItems items

def maskFields : List (String × Json) → List (String × Json)
  | [] => []
  | (key, v) :: fields => (key, if hidden key then null else mask v) :: maskFields fields
end

/-- Equal up to what is stored under hidden keys. -/
def Agree (v w : Json) : Prop := mask hidden v = mask hidden w

mutual
/-- No object, at any depth, has a hidden key. -/
def Clear : Json → Prop
  | arr items => ClearItems items
  | obj fields => ClearFields fields
  | _ => True

def ClearItems : List Json → Prop
  | [] => True
  | v :: items => Clear v ∧ ClearItems items

def ClearFields : List (String × Json) → Prop
  | [] => True
  | (key, v) :: fields => hidden key = false ∧ Clear v ∧ ClearFields fields
end

/-- Some other value. -/
def other : Json → Json
  | null => bool true
  | _ => null

mutual
/-- Every value under a hidden key is replaced by another one. -/
def alter : Json → Json
  | null => null
  | bool b => bool b
  | int n => int n
  | float x => float x
  | str s => str s
  | arr items => arr (alterItems items)
  | obj fields => obj (alterFields fields)

def alterItems : List Json → List Json
  | [] => []
  | v :: items => alter v :: alterItems items

def alterFields : List (String × Json) → List (String × Json)
  | [] => []
  | (key, v) :: fields => (key, if hidden key then other v else alter v) :: alterFields fields
end

variable {hidden}

theorem other_ne (v : Json) : other v ≠ v := by
  cases v <;> simp [other]

mutual
theorem mask_of_clear : ∀ v : Json, v.Clear hidden → v.mask hidden = v
  | null, _ => rfl
  | bool _, _ => rfl
  | int _, _ => rfl
  | float _, _ => rfl
  | str _, _ => rfl
  | arr items, h => congrArg arr (maskItems_of_clear items h)
  | obj fields, h => congrArg obj (maskFields_of_clear fields h)

theorem maskItems_of_clear : ∀ items : List Json, ClearItems hidden items → maskItems hidden items = items
  | [], _ => rfl
  | v :: items, h => congrArg₂ List.cons (mask_of_clear v h.1) (maskItems_of_clear items h.2)

theorem maskFields_of_clear : ∀ fields : List (String × Json), ClearFields hidden fields →
    maskFields hidden fields = fields
  | [], _ => rfl
  | (key, v) :: fields, ⟨hkey, hv, hfields⟩ => by
    rw [maskFields, hkey, mask_of_clear v hv, maskFields_of_clear fields hfields]
    rfl
end

mutual
theorem clear_of_clear_mask : ∀ v : Json, (v.mask hidden).Clear hidden → v.Clear hidden
  | null, _ => trivial
  | bool _, _ => trivial
  | int _, _ => trivial
  | float _, _ => trivial
  | str _, _ => trivial
  | arr items, h => clearItems_of_clear_mask items h
  | obj fields, h => clearFields_of_clear_mask fields h

theorem clearItems_of_clear_mask : ∀ items : List Json,
    ClearItems hidden (maskItems hidden items) → ClearItems hidden items
  | [], _ => trivial
  | v :: items, h => ⟨clear_of_clear_mask v h.1, clearItems_of_clear_mask items h.2⟩

theorem clearFields_of_clear_mask : ∀ fields : List (String × Json),
    ClearFields hidden (maskFields hidden fields) → ClearFields hidden fields
  | [], _ => trivial
  | (key, v) :: fields, ⟨hkey, hv, hfields⟩ => by
    rw [if_neg (by simp [hkey])] at hv
    exact ⟨hkey, clear_of_clear_mask v hv, clearFields_of_clear_mask fields hfields⟩
end

mutual
theorem mask_alter : ∀ v : Json, (v.alter hidden).mask hidden = v.mask hidden
  | null => rfl
  | bool _ => rfl
  | int _ => rfl
  | float _ => rfl
  | str _ => rfl
  | arr items => congrArg arr (maskItems_alter items)
  | obj fields => congrArg obj (maskFields_alter fields)

theorem maskItems_alter : ∀ items : List Json, maskItems hidden (alterItems hidden items) = maskItems hidden items
  | [] => rfl
  | v :: items => congrArg₂ List.cons (mask_alter v) (maskItems_alter items)

theorem maskFields_alter : ∀ fields : List (String × Json),
    maskFields hidden (alterFields hidden fields) = maskFields hidden fields
  | [] => rfl
  | (key, v) :: fields => by
    have hv := mask_alter v
    rw [alterFields, maskFields, maskFields, maskFields_alter fields]
    by_cases hkey : hidden key = true
    · rw [if_pos hkey, if_pos hkey]
    · rw [if_neg hkey, if_neg hkey, if_neg hkey, hv]
end

mutual
theorem clear_of_alter_eq : ∀ v : Json, v.alter hidden = v → v.Clear hidden
  | null, _ => trivial
  | bool _, _ => trivial
  | int _, _ => trivial
  | float _, _ => trivial
  | str _, _ => trivial
  | arr items, h => clearItems_of_alter_eq items (arr.inj h)
  | obj fields, h => clearFields_of_alter_eq fields (obj.inj h)

theorem clearItems_of_alter_eq : ∀ items : List Json, alterItems hidden items = items → ClearItems hidden items
  | [], _ => trivial
  | v :: items, h => ⟨clear_of_alter_eq v (List.cons.inj h).1, clearItems_of_alter_eq items (List.cons.inj h).2⟩

theorem clearFields_of_alter_eq : ∀ fields : List (String × Json),
    alterFields hidden fields = fields → ClearFields hidden fields
  | [], _ => trivial
  | (key, v) :: fields, h => by
    obtain ⟨hhead, htail⟩ := List.cons.inj h
    have hv := (Prod.mk.inj hhead).2
    have hkey : hidden key = false := by
      by_contra hkey
      rw [if_pos (by simpa using hkey)] at hv
      exact other_ne v hv
    rw [if_neg (by simp [hkey])] at hv
    exact ⟨hkey, clear_of_alter_eq v hv, clearFields_of_alter_eq fields htail⟩
end

theorem Clear.eq_of_agree {v w : Json} (hv : v.Clear hidden) (h : Agree hidden v w) : w = v := by
  have hmask : w.mask hidden = v := h.symm.trans (mask_of_clear v hv)
  have hw : w.Clear hidden := clear_of_clear_mask w (hmask ▸ hv)
  rw [← hmask, mask_of_clear w hw]

/-! ### Redaction of the outermost keys -/

/-- Replace the values under the hidden keys of the outermost object. -/
def redactTop (hidden : String → Bool) (redacted : Json) (context : JsonDict) : JsonDict :=
  context.mapValues fun key value => if hidden key then redacted else value

/-- Contexts that are equal up to what is stored, at any depth, under hidden keys. -/
def AgreeDict (hidden : String → Bool) (c c' : JsonDict) : Prop :=
  maskFields hidden c.entries = maskFields hidden c'.entries

section redactTop
variable {redacted : Json} {c : JsonDict}

/-- Some context that agrees with `c` and differs from it under every hidden key. -/
def alterDict (hidden : String → Bool) (c : JsonDict) : JsonDict :=
  c.mapValues fun key value => if hidden key then other value else value.alter hidden

theorem alterDict_entries : (alterDict hidden c).entries = alterFields hidden c.entries := by
  show c.entries.map _ = _
  induction c.entries with
  | nil => rfl
  | cons p fields ih =>
    rw [List.map_cons, ih]
    rfl

theorem redact_eq_of_agree {fields fields' : List (String × Json)}
    (hclear : ∀ p ∈ fields, hidden p.1 = false → p.2.Clear hidden)
    (h : maskFields hidden fields = maskFields hidden fields') :
    (fields'.map fun p => (p.1, if hidden p.1 then redacted else p.2)) =
      fields.map fun p => (p.1, if hidden p.1 then redacted else p.2) := by
  induction fields generalizing fields' with
  | nil =>
    cases fields' with
    | nil => rfl
    | cons p fields' => cases h
  | cons p fields ih =>
    cases fields' with
    | nil => cases h
    | cons q fields' =>
      obtain ⟨hhead, htail⟩ := List.cons.inj h
      obtain ⟨hkey, hvalue⟩ := Prod.mk.inj hhead
      have hfields := ih (fun r hr => hclear r (List.mem_cons_of_mem _ hr)) htail
      rw [List.map_cons, List.map_cons, hfields, ← hkey]
      by_cases hp : hidden p.1 = true
      · rw [if_pos hp, if_pos hp]
      · have hp' : hidden p.1 = false := by simpa using hp
        rw [← hkey, if_neg hp, if_neg hp] at hvalue
        have hsame : q.2 = p.2 := (hclear p List.mem_cons_self hp').eq_of_agree hvalue
        rw [if_neg hp, if_neg hp, hsame]

/-- Redacting only the outermost keys hides everything under hidden keys exactly when the values that
are kept are clear. -/
theorem redactTop_unaffected_iff :
    (∀ c', AgreeDict hidden c c' → redactTop hidden redacted c' = redactTop hidden redacted c) ↔
      ∀ p ∈ c.entries, hidden p.1 = false → p.2.Clear hidden := by
  constructor
  · intro hall p hp hkey
    have hagree : AgreeDict hidden c (alterDict hidden c) := by
      rw [AgreeDict, alterDict_entries, maskFields_alter]
    have hsame := congrArg Dict.entries (hall _ hagree)
    have hentry : ∀ q ∈ c.entries,
        (if hidden q.1 then redacted else (if hidden q.1 then other q.2 else q.2.alter hidden)) =
          if hidden q.1 then redacted else q.2 := by
      simpa [redactTop, alterDict, Dict.mapValues] using hsame
    have := hentry p hp
    rw [if_neg (by simp [hkey]), if_neg (by simp [hkey]), if_neg (by simp [hkey])] at this
    exact clear_of_alter_eq p.2 this
  · intro hclear c' hagree
    exact Dict.ext (redact_eq_of_agree hclear hagree)

end redactTop
end BankingAi.Json
