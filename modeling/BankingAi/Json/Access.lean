import BankingAi.Core.Errors
import BankingAi.Lib.PythonInt

/-!
# Untyped access to JSON values

What subscripting, `.get`, `len` and `int` do on a value that may have any type, with the exceptions
they raise.
-/

namespace BankingAi.Json

/-- `type(value).__name__`. -/
def pyType : Json → String
  | null => "NoneType"
  | bool _ => "bool"
  | int _ => "int"
  | float _ => "float"
  | str _ => "str"
  | arr _ => "list"
  | obj _ => "dict"

/-- `value[key]`. -/
def getKey (key : String) : Json → Except Exn Json
  | obj fields =>
    match field? fields key with
    | some v => .ok v
    | none => .error (.other "KeyError" s!"'{key}'")
  | arr _ => .error (.other "TypeError" "list indices must be integers or slices, not str")
  | str _ => .error (.other "TypeError" "string indices must be integers, not 'str'")
  | v => .error (.other "TypeError" s!"'{v.pyType}' object is not subscriptable")

/-- `value[0]`; the keys of an object are strings. -/
def getFirst : Json → Except Exn Json
  | arr (item :: _) => .ok item
  | arr [] => .error (.other "IndexError" "list index out of range")
  | str s =>
    match s.toList with
    | c :: _ => .ok (str (String.singleton c))
    | [] => .error (.other "IndexError" "string index out of range")
  | obj _ => .error (.other "KeyError" "0")
  | v => .error (.other "TypeError" s!"'{v.pyType}' object is not subscriptable")

/-- `value.get(key, default)`. -/
def getD (value : Json) (key : String) (default : Json) : Except Exn Json :=
  match value with
  | obj fields => .ok ((field? fields key).getD default)
  | v => .error (.other "AttributeError" s!"'{v.pyType}' object has no attribute 'get'")

/-- `value or ""`. -/
def orEmpty (v : Json) : Json := if v.truthy then v else str ""

/-- `len(value)`. -/
def pyLen : Json → Except Exn ℕ
  | str s => .ok s.length
  | arr items => .ok items.length
  | obj fields => .ok fields.length
  | v => .error (.other "TypeError" s!"object of type '{v.pyType}' has no len()")

/-- `int(value)`. -/
def toInt : Json → Except Exn ℤ
  | int n => .ok n
  | bool b => .ok (if b then 1 else 0)
  | float (.finite q) => .ok (Python.truncate q)
  | float (.inf _) => .error (.other "OverflowError" "cannot convert float infinity to integer")
  | float .nan => .error (.other "ValueError" "cannot convert float NaN to integer")
  | str s =>
    match Python.intOfStr? s with
    | some n => .ok n
    | none => .error (.other "ValueError" s!"invalid literal for int() with base 10: '{s}'")
  | v => .error (.other "TypeError"
      s!"int() argument must be a string, a bytes-like object or a real number, not '{v.pyType}'")

theorem getKey_obj {fields : List (String × Json)} {key : String} {w : Json}
    (h : field? fields key = some w) : (obj fields).getKey key = .ok w := by
  rw [getKey, h]

theorem getKey_eq_ok {key : String} {v w : Json} (h : v.getKey key = .ok w) :
    ∃ fields, v = .obj fields ∧ field? fields key = some w := by
  cases v with
  | obj fields =>
    rw [getKey] at h
    cases hf : field? fields key with
    | some x => rw [hf] at h; cases h; exact ⟨fields, rfl, hf⟩
    | none => rw [hf] at h; cases h
  | null => cases h
  | bool b => cases h
  | int n => cases h
  | float x => cases h
  | str s => cases h
  | arr items => cases h

/-- Subscripting raises only a `KeyError`, an `IndexError` or a `TypeError`. -/
def IsLookupError (e : Exn) : Prop := e.typeName ∈ ["KeyError", "IndexError", "TypeError"]

theorem getKey_error {key : String} {v : Json} {e : Exn} (h : v.getKey key = .error e) :
    IsLookupError e := by
  cases v with
  | obj fields =>
    rw [getKey] at h
    cases hf : field? fields key with
    | some x => rw [hf] at h; cases h
    | none => rw [hf] at h; cases h; simp [IsLookupError, Exn.typeName]
  | _ => cases h; simp [IsLookupError, Exn.typeName]

/-- The first item of a value can be subscripted by a string only if the value is an array. -/
theorem getFirst_getKey_eq_ok {key : String} {v item w : Json} (h : v.getFirst = .ok item)
    (hkey : item.getKey key = .ok w) : ∃ items, v = .arr (item :: items) := by
  cases v with
  | arr items =>
    cases items with
    | nil => cases h
    | cons i items => cases h; exact ⟨items, rfl⟩
  | str s =>
    rw [getFirst] at h
    split at h
    · cases h; cases hkey
    · cases h
  | null => cases h
  | bool b => cases h
  | int n => cases h
  | float x => cases h
  | obj fields => cases h

theorem getFirst_error {v : Json} {e : Exn} (h : v.getFirst = .error e) : IsLookupError e := by
  cases v with
  | arr items => cases items <;> cases h; simp [IsLookupError, Exn.typeName]
  | str s =>
    rw [getFirst] at h
    split at h <;> cases h
    simp [IsLookupError, Exn.typeName]
  | _ => cases h; simp [IsLookupError, Exn.typeName]

end BankingAi.Json
