import Mathlib
import BankingAi.Json
import BankingAi.Json.Escape
import BankingAi.Lib.Delimited

/-!
# The canonical text of a JSON value

`dumps` writes a value without white space, in ASCII and with the keys of every object in order. Values without
floats whose objects have distinct keys have the same text exactly when they are the same up to the order of
keys, at any depth.
-/

namespace BankingAi.Json

/-- The key and the text of an entry come in the order of the keys. -/
def keyLe {α : Type} (a b : String × α) : Bool := decide (a.1 ≤ b.1)

/-- An entry of an object. -/
def entryText (entry : String × List Char) : List Char := quote entry.1 ++ ':' :: entry.2

variable (floatText : PyFloat → List Char)

mutual
/-- `json.dumps(value, sort_keys=True, separators=(",", ":"))`; `floatText` is `float.__repr__`. -/
def dumps : Json → List Char
  | null => ['n', 'u', 'l', 'l']
  | bool true => ['t', 'r', 'u', 'e']
  | bool false => ['f', 'a', 'l', 's', 'e']
  | int n => (toString n).toList
  | float x => floatText x
  | str s => quote s
  | arr items => '[' :: (commaJoin (dumpsItems items) ++ [']'])
  | obj fields => '{' :: (commaJoin (((dumpsFields fields).mergeSort keyLe).map entryText) ++ ['}'])

def dumpsItems : List Json → List (List Char)
  | [] => []
  | v :: items => dumps v :: dumpsItems items

def dumpsFields : List (String × Json) → List (String × List Char)
  | [] => []
  | (key, v) :: fields => (key, dumps v) :: dumpsFields fields
end

mutual
/-- No floats, and distinct keys in every object. -/
def Evidence : Json → Prop
  | float _ => False
  | arr items => EvidenceItems items
  | obj fields => (fields.map Prod.fst).Nodup ∧ EvidenceFields fields
  | _ => True

def EvidenceItems : List Json → Prop
  | [] => True
  | v :: items => Evidence v ∧ EvidenceItems items

def EvidenceFields : List (String × Json) → Prop
  | [] => True
  | (_, v) :: fields => Evidence v ∧ EvidenceFields fields
end

mutual
/-- The same value, up to the order of keys. -/
inductive Same : Json → Json → Prop
  | null : Same null null
  | bool (b : Bool) : Same (bool b) (bool b)
  | int (n : ℤ) : Same (int n) (int n)
  | float (x : PyFloat) : Same (float x) (float x)
  | str (s : String) : Same (str s) (str s)
  | arr {items items' : List Json} : SameItems items items' → Same (arr items) (arr items')
  | obj {fields sorted sorted' fields' : List (String × Json)} :
    fields.Perm sorted → SameFields sorted sorted' → sorted'.Perm fields' → Same (obj fields) (obj fields')

inductive SameItems : List Json → List Json → Prop
  | nil : SameItems [] []
  | cons {v w : Json} {items items' : List Json} :
    Same v w → SameItems items items' → SameItems (v :: items) (w :: items')

inductive SameFields : List (String × Json) → List (String × Json) → Prop
  | nil : SameFields [] []
  | cons {key : String} {v w : Json} {fields fields' : List (String × Json)} :
    Same v w → SameFields fields fields' → SameFields ((key, v) :: fields) ((key, w) :: fields')
end

/-! ### Structure -/

section structural

mutual
/-- What passes from the parts of a value to the value holds of every one. -/
theorem parts_induction {P : Json → Prop} (hnull : P null) (hbool : ∀ b, P (bool b)) (hint : ∀ n, P (int n))
    (hfloat : ∀ x, P (float x)) (hstr : ∀ s, P (str s)) (harr : ∀ items, (∀ v ∈ items, P v) → P (arr items))
    (hobj : ∀ fields, (∀ f ∈ fields, P f.2) → P (obj fields)) : ∀ v, P v
  | null => hnull
  | bool b => hbool b
  | int n => hint n
  | float x => hfloat x
  | str s => hstr s
  | arr items => harr items (parts_items hnull hbool hint hfloat hstr harr hobj items)
  | obj fields => hobj fields (parts_fields hnull hbool hint hfloat hstr harr hobj fields)

theorem parts_items {P : Json → Prop} (hnull : P null) (hbool : ∀ b, P (bool b)) (hint : ∀ n, P (int n))
    (hfloat : ∀ x, P (float x)) (hstr : ∀ s, P (str s)) (harr : ∀ items, (∀ v ∈ items, P v) → P (arr items))
    (hobj : ∀ fields, (∀ f ∈ fields, P f.2) → P (obj fields)) : ∀ items : List Json, ∀ v ∈ items, P v
  | [] => fun _ h => absurd h List.not_mem_nil
  | w :: items => List.forall_mem_cons.2 ⟨parts_induction hnull hbool hint hfloat hstr harr hobj w,
      parts_items hnull hbool hint hfloat hstr harr hobj items⟩

theorem parts_fields {P : Json → Prop} (hnull : P null) (hbool : ∀ b, P (bool b)) (hint : ∀ n, P (int n))
    (hfloat : ∀ x, P (float x)) (hstr : ∀ s, P (str s)) (harr : ∀ items, (∀ v ∈ items, P v) → P (arr items))
    (hobj : ∀ fields, (∀ f ∈ fields, P f.2) → P (obj fields)) :
    ∀ fields : List (String × Json), ∀ f ∈ fields, P f.2
  | [] => fun _ h => absurd h List.not_mem_nil
  | (_, w) :: fields => List.forall_mem_cons.2 ⟨parts_induction hnull hbool hint hfloat hstr harr hobj w,
      parts_fields hnull hbool hint hfloat hstr harr hobj fields⟩
end

variable {floatText}

theorem dumpsItems_eq (items : List Json) : dumpsItems floatText items = items.map (dumps floatText) := by
  induction items with
  | nil => rfl
  | cons v items ih => rw [dumpsItems, ih, List.map_cons]

theorem dumpsFields_eq (fields : List (String × Json)) :
    dumpsFields floatText fields = fields.map fun f => (f.1, dumps floatText f.2) := by
  induction fields with
  | nil => rfl
  | cons f fields ih => rw [dumpsFields, ih, List.map_cons]

theorem evidenceItems_iff {items : List Json} : EvidenceItems items ↔ ∀ v ∈ items, v.Evidence := by
  induction items with
  | nil => simp [EvidenceItems]
  | cons v items ih => rw [EvidenceItems, ih, List.forall_mem_cons]

theorem evidenceFields_iff {fields : List (String × Json)} :
    EvidenceFields fields ↔ ∀ f ∈ fields, f.2.Evidence := by
  induction fields with
  | nil => simp [EvidenceFields]
  | cons f fields ih => rw [EvidenceFields, ih, List.forall_mem_cons]

theorem sameItems_of_forall₂ {items items' : List Json} (h : List.Forall₂ Same items items') :
    SameItems items items' := by
  induction h with
  | nil => exact .nil
  | cons hv _ ih => exact .cons hv ih

theorem sameFields_of_forall₂ {fields fields' : List (String × Json)}
    (h : List.Forall₂ (fun f g => f.1 = g.1 ∧ Same f.2 g.2) fields fields') : SameFields fields fields' := by
  induction h with
  | nil => exact .nil
  | @cons f g fields fields' hfg _ ih =>
    obtain ⟨key, v⟩ := f
    obtain ⟨key', w⟩ := g
    obtain ⟨rfl, hsame⟩ := hfg
    exact .cons hsame ih

end structural

/-! ### The texts of values -/

section texts

variable {floatText}

/-- The fields in the order in which they are written. -/
def sortedFields (fields : List (String × Json)) : List (String × Json) := fields.mergeSort keyLe

theorem dumps_arr (items : List Json) :
    dumps floatText (arr items) = '[' :: (commaJoin (items.map (dumps floatText)) ++ [']']) := by
  rw [dumps, dumpsItems_eq]

theorem dumps_obj (fields : List (String × Json)) : dumps floatText (obj fields) =
    '{' :: (commaJoin ((sortedFields fields).map fun f => entryText (f.1, dumps floatText f.2)) ++ ['}']) := by
  have hsort : (dumpsFields floatText fields).mergeSort keyLe =
      (sortedFields fields).map fun f => (f.1, dumps floatText f.2) := by
    rw [dumpsFields_eq, sortedFields]
    exact (List.map_mergeSort (r := keyLe) (s := keyLe)
      (f := fun f : String × Json => (f.1, dumps floatText f.2)) fun _ _ _ _ => rfl).symm
  rw [dumps, hsort, List.map_map]
  rfl

theorem toList_toString (n : ℤ) :
    (toString n).toList = (if n < 0 then ['-'] else []) ++ Nat.toDigits 10 n.natAbs := by
  rw [Int.toString_eq_repr, Int.repr_eq_if]
  by_cases h : n < 0
  · rw [if_neg (by omega), if_pos h, String.toList_append, Nat.toList_repr,
      show (-n).toNat = n.natAbs by omega]
    rfl
  · rw [if_pos (by omega), if_neg h, Nat.toList_repr, show n.toNat = n.natAbs by omega]
    rfl

theorem isDigit_toDigits {n : ℕ} : ∀ c ∈ Nat.toDigits 10 n, c.isDigit = true := fun _ hc =>
  Nat.isDigit_of_mem_toDigits (by decide) (by decide) hc

inductive Kind where
  | null | bool | number | str | arr | obj
deriving DecidableEq

def kind : Json → Kind
  | null => .null
  | bool _ => .bool
  | int _ => .number
  | float _ => .number
  | str _ => .str
  | arr _ => .arr
  | obj _ => .obj

/-- What a value of a kind looks like. -/
def Kind.Shape : Kind → Json → Prop
  | .null, v => v = Json.null
  | .bool, v => ∃ b, v = Json.bool b
  | .number, v => (∃ n, v = int n) ∨ ∃ x, v = float x
  | .str, v => ∃ s, v = Json.str s
  | .arr, v => ∃ items, v = Json.arr items
  | .obj, v => ∃ fields, v = Json.obj fields

theorem shape_kind (v : Json) : v.kind.Shape v := by
  cases v with
  | null => rfl
  | bool b => exact ⟨b, rfl⟩
  | int n => exact .inl ⟨n, rfl⟩
  | float x => exact .inr ⟨x, rfl⟩
  | str s => exact ⟨s, rfl⟩
  | arr items => exact ⟨items, rfl⟩
  | obj fields => exact ⟨fields, rfl⟩

/-- The kind of value that starts with a character. -/
def Kind.ofChar (c : Char) : Kind :=
  if c = 'n' then .null else if c = 't' ∨ c = 'f' then .bool else if c = '"' then .str
  else if c = '[' then .arr else if c = '{' then .obj else .number

theorem Kind.ofChar_digit {c : Char} (h : c.isDigit = true) :
    Kind.ofChar c = .number ∧ c ∉ [',', ']', '}'] := by
  have hne : ∀ d : Char, d.isDigit = false → c ≠ d := fun d hd heq => by
    rw [heq, hd] at h
    cases h
  constructor
  · unfold Kind.ofChar
    rw [if_neg (hne _ (by decide)), if_neg (not_or.2 ⟨hne _ (by decide), hne _ (by decide)⟩),
      if_neg (hne _ (by decide)), if_neg (hne _ (by decide)), if_neg (hne _ (by decide))]
  · simp [hne ',' (by decide), hne ']' (by decide), hne '}' (by decide)]

/-- The first character of a text tells the kind of the value, and is no delimiter. -/
theorem dumps_head {v : Json} (hv : v.Evidence) :
    ∃ c cs, dumps floatText v = c :: cs ∧ Kind.ofChar c = v.kind ∧ c ∉ [',', ']', '}'] := by
  cases v with
  | null => exact ⟨_, _, by rw [dumps], rfl, by decide⟩
  | bool b => cases b <;> exact ⟨_, _, by rw [dumps], rfl, by decide⟩
  | int n =>
    rw [dumps, toList_toString]
    split_ifs
    · exact ⟨_, _, rfl, rfl, by decide⟩
    · obtain ⟨c, cs, hcs⟩ := List.exists_cons_of_ne_nil (@Nat.toDigits_ne_nil n.natAbs 10)
      obtain ⟨hkind, hc⟩ := Kind.ofChar_digit (@isDigit_toDigits n.natAbs c (by rw [hcs]; exact List.mem_cons_self))
      exact ⟨c, cs, hcs, hkind, hc⟩
  | float x => exact absurd hv (by simp [Evidence])
  | str s => exact ⟨_, _, by rw [dumps, quote], rfl, by decide⟩
  | arr items => exact ⟨_, _, dumps_arr items, rfl, by decide⟩
  | obj fields => exact ⟨_, _, dumps_obj fields, rfl, by decide⟩

theorem shape_eq {v w : Json} (hv : v.Evidence) (hw : w.Evidence) {r r' : List Char}
    (h : dumps floatText v ++ r = dumps floatText w ++ r') : v.kind.Shape w := by
  obtain ⟨c, cs, hcs, hc, -⟩ := @dumps_head floatText v hv
  obtain ⟨d, ds, hds, hd, -⟩ := @dumps_head floatText w hw
  rw [hcs, hds] at h
  rw [← hc, (List.cons.inj h).1, hd]
  exact shape_kind w

theorem toDigits_cancel {n m : ℕ} {r r' : List Char} (hr : Delimited r) (hr' : Delimited r')
    (h : Nat.toDigits 10 n ++ r = Nat.toDigits 10 m ++ r') : n = m ∧ r = r' := by
  have hstop : ∀ {r : List Char}, Delimited r → ∀ c ∈ r.head?, c.isDigit = false := fun hr c hc => by
    have hmem := hr c hc
    by_contra hdigit
    exact (Kind.ofChar_digit (Bool.not_eq_false _ ▸ hdigit)).2 hmem
  obtain ⟨hsame, hrest⟩ := run_cancel isDigit_toDigits isDigit_toDigits (hstop hr) (hstop hr') h
  rw [← Nat.toList_repr, ← Nat.toList_repr, String.toList_inj, Nat.repr_inj] at hsame
  exact ⟨hsame, hrest⟩

theorem minus_ne_toDigits {m : ℕ} {q q' : List Char} : '-' :: q ≠ Nat.toDigits 10 m ++ q' := by
  intro heq
  obtain ⟨c, cs, hcs⟩ := List.exists_cons_of_ne_nil (@Nat.toDigits_ne_nil m 10)
  have hc := @isDigit_toDigits m c (by rw [hcs]; exact List.mem_cons_self)
  rw [hcs] at heq
  rw [← (List.cons.inj heq).1] at hc
  exact absurd hc (by decide)

theorem toString_cancel {n m : ℤ} {r r' : List Char} (hr : Delimited r) (hr' : Delimited r')
    (h : (toString n).toList ++ r = (toString m).toList ++ r') : n = m ∧ r = r' := by
  rw [toList_toString, toList_toString] at h
  by_cases hn : n < 0
  · by_cases hm : m < 0
    · rw [if_pos hn, if_pos hm] at h
      obtain ⟨habs, hrest⟩ := toDigits_cancel hr hr' (List.cons.inj h).2
      exact ⟨by omega, hrest⟩
    · rw [if_pos hn, if_neg hm] at h
      exact absurd h minus_ne_toDigits
  · by_cases hm : m < 0
    · rw [if_neg hn, if_pos hm] at h
      exact absurd h.symm minus_ne_toDigits
    · rw [if_neg hn, if_neg hm] at h
      obtain ⟨habs, hrest⟩ := toDigits_cancel hr hr' h
      exact ⟨by omega, hrest⟩

end texts

/-! ### Same values, same texts -/

section same

variable {floatText}

theorem mem_sortedFields {fields : List (String × Json)} {f : String × Json} :
    f ∈ sortedFields fields ↔ f ∈ fields := List.mem_mergeSort

/-- The text of a field. -/
def fieldText (floatText : PyFloat → List Char) (f : String × Json) : List Char :=
  entryText (f.1, dumps floatText f.2)

theorem dumps_not_close {v : Json} (hv : v.Evidence) {close : Char} (hclose : close ∈ [']', '}']) :
    ∃ c cs, dumps floatText v = c :: cs ∧ c ≠ close := by
  obtain ⟨c, cs, hcs, -, hc⟩ := @dumps_head floatText v hv
  exact ⟨c, cs, hcs, fun heq => hc (heq ▸ List.mem_cons_of_mem _ hclose)⟩

/-- A field is told by its key and the text of its value. -/
theorem fieldText_cancel {f g : String × Json} {r r' : List Char}
    (h : fieldText floatText f ++ r = fieldText floatText g ++ r') :
    f.1 = g.1 ∧ dumps floatText f.2 ++ r = dumps floatText g.2 ++ r' := by
  unfold fieldText entryText at h
  rw [List.append_assoc, List.append_assoc] at h
  obtain ⟨hkey, hrest⟩ := quote_cancel h
  exact ⟨hkey, (List.cons.inj hrest).2⟩

/-- A text tells its value, up to the order of keys, and where it ends. -/
theorem dumps_cancel : ∀ v : Json, v.Evidence → ∀ w : Json, w.Evidence → ∀ r r', Delimited r → Delimited r' →
    dumps floatText v ++ r = dumps floatText w ++ r' → Same v w ∧ r = r' := by
  intro v
  induction v using parts_induction with
  | hnull =>
    intro hv w hw r r' hr hr' h
    obtain rfl : w = null := shape_eq hv hw h
    exact ⟨.null, List.append_cancel_left h⟩
  | hbool b =>
    intro hv w hw r r' hr hr' h
    obtain ⟨b', rfl⟩ : ∃ b', w = bool b' := shape_eq hv hw h
    cases b <;> cases b'
    · exact ⟨.bool false, List.append_cancel_left h⟩
    · rw [dumps, dumps] at h
      exact absurd (List.cons.inj h).1 (by decide)
    · rw [dumps, dumps] at h
      exact absurd (List.cons.inj h).1 (by decide)
    · exact ⟨.bool true, List.append_cancel_left h⟩
  | hint n =>
    intro hv w hw r r' hr hr' h
    obtain ⟨m, rfl⟩ | ⟨x, rfl⟩ : (∃ m, w = int m) ∨ ∃ x, w = float x := shape_eq hv hw h
    · rw [dumps, dumps] at h
      obtain ⟨rfl, hrest⟩ := toString_cancel hr hr' h
      exact ⟨.int n, hrest⟩
    · exact absurd hw (by simp [Evidence])
  | hfloat x =>
    intro hv
    exact absurd hv (by simp [Evidence])
  | hstr s =>
    intro hv w hw r r' hr hr' h
    obtain ⟨t, rfl⟩ : ∃ t, w = str t := shape_eq hv hw h
    rw [dumps, dumps] at h
    obtain ⟨rfl, hrest⟩ := quote_cancel h
    exact ⟨.str s, hrest⟩
  | harr items ih =>
    intro hv w hw r r' hr hr' h
    obtain ⟨items', rfl⟩ : ∃ items', w = arr items' := shape_eq hv hw h
    rw [Evidence, evidenceItems_iff] at hv hw
    rw [dumps_arr, dumps_arr, List.cons_append, List.cons_append, List.append_assoc, List.append_assoc] at h
    obtain ⟨hitems, hrest⟩ := commaJoin_cancel (R := Same) (by decide)
      (fun v hv' => dumps_not_close (hv v hv') (by decide)) (fun w hw' => dumps_not_close (hw w hw') (by decide))
      (fun v hv' w hw' => ih v hv' (hv v hv') w (hw w hw')) (List.cons.inj h).2
    exact ⟨.arr (sameItems_of_forall₂ hitems), hrest⟩
  | hobj fields ih =>
    intro hv w hw r r' hr hr' h
    obtain ⟨fields', rfl⟩ : ∃ fields', w = obj fields' := shape_eq hv hw h
    have hv := evidenceFields_iff.1 hv.2
    have hw := evidenceFields_iff.1 hw.2
    have hquote : ∀ f : String × Json, ∃ c cs, fieldText floatText f = c :: cs ∧ c ≠ '}' := fun f =>
      ⟨_, _, by rw [fieldText, entryText, quote]; rfl, by decide⟩
    rw [dumps_obj, dumps_obj, List.cons_append, List.cons_append, List.append_assoc, List.append_assoc] at h
    obtain ⟨hfields, hrest⟩ := commaJoin_cancel (R := fun f g => f.1 = g.1 ∧ Same f.2 g.2) (by decide)
      (fun f _ => hquote f) (fun f _ => hquote f) (fun f hf g hg r r' hr hr' h => by
        obtain ⟨hkey, hvalue⟩ := fieldText_cancel h
        have hf := mem_sortedFields.1 hf
        have hg := mem_sortedFields.1 hg
        obtain ⟨hsame, hrest⟩ := ih f hf (hv f hf) g.2 (hw g hg) r r' hr hr' hvalue
        exact ⟨⟨hkey, hsame⟩, hrest⟩) (List.cons.inj h).2
    exact ⟨.obj (List.mergeSort_perm _ _).symm (sameFields_of_forall₂ hfields) (List.mergeSort_perm _ _), hrest⟩

theorem mergeSort_eq_of_perm {α : Type} {l l' : List (String × α)} (hnd : (l.map Prod.fst).Nodup) (h : l.Perm l') :
    l.mergeSort keyLe = l'.mergeSort keyLe := by
  have hperm : (l.mergeSort keyLe).Perm (l'.mergeSort keyLe) :=
    (List.mergeSort_perm l keyLe).trans (h.trans (List.mergeSort_perm l' keyLe).symm)
  have hsorted : ∀ m : List (String × α), (m.mergeSort keyLe).Pairwise fun a b => keyLe a b = true :=
    fun m => List.pairwise_mergeSort
      (fun a b c hab hbc => decide_eq_true ((of_decide_eq_true hab).trans (of_decide_eq_true hbc)))
      (fun a b => by
        rw [Bool.or_eq_true, decide_eq_true_iff, decide_eq_true_iff]
        exact le_total _ _) m
  refine hperm.eq_of_pairwise (fun a b ha hb hab hba => ?_) (hsorted l) (hsorted l')
  have ha := (List.mergeSort_perm l keyLe).mem_iff.1 ha
  have hb := h.mem_iff.2 ((List.mergeSort_perm l' keyLe).mem_iff.1 hb)
  exact List.inj_on_of_nodup_map hnd ha hb (le_antisymm (of_decide_eq_true hab) (of_decide_eq_true hba))

theorem map_dumps_of_same {items items' : List Json} (h : SameItems items items')
    (hdumps : ∀ v ∈ items, ∀ w, Same v w → dumps floatText v = dumps floatText w) :
    items.map (dumps floatText) = items'.map (dumps floatText) := by
  induction items generalizing items' with
  | nil => cases h; rfl
  | cons v items ih =>
    cases h with
    | cons hvw hrest =>
      rw [List.map_cons, List.map_cons, hdumps v List.mem_cons_self _ hvw,
        ih hrest fun u hu => hdumps u (List.mem_cons_of_mem v hu)]

theorem dumpsFields_of_same {fields fields' : List (String × Json)} (h : SameFields fields fields')
    (hdumps : ∀ f ∈ fields, ∀ w, Same f.2 w → dumps floatText f.2 = dumps floatText w) :
    dumpsFields floatText fields = dumpsFields floatText fields' := by
  induction fields generalizing fields' with
  | nil => cases h; rfl
  | cons f fields ih =>
    cases h with
    | cons hvw hrest =>
      rw [dumpsFields, dumpsFields, hdumps _ List.mem_cons_self _ hvw,
        ih hrest fun g hg => hdumps g (List.mem_cons_of_mem _ hg)]

theorem dumps_eq_of_same : ∀ v : Json, v.Evidence → ∀ w : Json, Same v w → dumps floatText v = dumps floatText w := by
  intro v
  induction v using parts_induction with
  | hnull => rintro - w ⟨⟩; rfl
  | hbool b => rintro - w ⟨⟩; rfl
  | hint n => rintro - w ⟨⟩; rfl
  | hfloat x => rintro - w ⟨⟩; rfl
  | hstr s => rintro - w ⟨⟩; rfl
  | harr items ih =>
    intro hv w hsame
    cases hsame with
    | arr hitems =>
      rw [Evidence, evidenceItems_iff] at hv
      rw [dumps_arr, dumps_arr, map_dumps_of_same hitems fun v hv' => ih v hv' (hv v hv')]
  | hobj fields ih =>
    intro hv w hsame
    cases hsame with
    | @obj _ sorted sorted' fields' hperm hfields hperm' =>
      have hvalues := evidenceFields_iff.1 hv.2
      have hkeys : ((dumpsFields floatText fields).map Prod.fst).Nodup := by
        rw [dumpsFields_eq, List.map_map]
        exact hv.1
      have hall : (dumpsFields floatText fields).Perm (dumpsFields floatText fields') := by
        have hmid := dumpsFields_of_same hfields fun f hf => ih f (hperm.mem_iff.2 hf) (hvalues f (hperm.mem_iff.2 hf))
        rw [dumpsFields_eq, dumpsFields_eq] at hmid ⊢
        exact (hperm.map _).trans (hmid ▸ hperm'.map _)
      rw [dumps, dumps, mergeSort_eq_of_perm hkeys hall]

/-- Values without floats have one text exactly when they are the same up to the order of keys. -/
theorem dumps_eq_iff {v w : Json} (hv : v.Evidence) (hw : w.Evidence) :
    dumps floatText v = dumps floatText w ↔ Same v w := by
  constructor
  · intro h
    exact (dumps_cancel v hv w hw [] [] delimited_nil delimited_nil (by rw [h])).1
  · exact dumps_eq_of_same v hv w

end same

end BankingAi.Json
