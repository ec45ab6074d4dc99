import Mathlib.Data.Rat.Defs
import BankingAi.Lib.Dict

/-!
# JSON values

The values `json.loads` returns: integers are unbounded, a float is a rational, an infinity or NaN
(the parser accepts `Infinity` and `NaN`), and an object keeps the order of its keys. `truthy` is
the value in a Boolean context.
-/

namespace BankingAi

inductive PyFloat where
  | finite (q : ℚ)
  | inf (negative : Bool)
  | nan
deriving DecidableEq

inductive Json where
  | null
  | bool (b : Bool)
  | int (n : ℤ)
  | float (x : PyFloat)
  | str (s : String)
  | arr (items : List Json)
  | obj (fields : List (String × Json))

namespace Json

def truthy : Json → Bool
  | null => false
  | bool b => b
  | int n => n ≠ 0
  | float (.finite q) => q ≠ 0
  | float _ => true
  | str s => s ≠ ""
  | arr items => !items.isEmpty
  | obj fields => !fields.isEmpty

/-- The value under a key of an object. -/
def field? (fields : List (String × Json)) (key : String) : Option Json := Dict.lookupIn key fields

end Json
end BankingAi
