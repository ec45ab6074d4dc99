import Mathlib.Algebra.Order.Floor.Defs
import Mathlib.Data.Rat.Floor
import BankingAi.Core.Errors

/-!
# Token costs

Prices in USD for 1K tokens, in exact arithmetic where the source has binary floats. A token count
that no float can hold makes the estimate raise.
-/

namespace BankingAi.Ai

/-- Prices of a thousand prompt and completion tokens. -/
abbrev Price := ℚ × ℚ

/-- `_PRICES`, by provider and model prefix. -/
def prices : List ((String × String) × Price) :=
  [(("groq", "llama-3.1-8b"), (0.00005, 0.00008)),
    (("groq", "llama-3.1-70b"), (0.00059, 0.00079)),
    (("groq", "mixtral"), (0.00024, 0.00024)),
    (("local_gemma", ""), (0, 0)),
    (("echo", ""), (0, 0))]

def defaultPrice : Price := (0.0005, 0.0015)

/-- The loop of `_lookup`: the price of the longest matching entry so far, and its length. -/
def lookupStep (provider model : String) (best : Option Price × ℤ)
    (entry : (String × String) × Price) : Option Price × ℤ :=
  let ((prov, start), price) := entry
  if prov = provider ∧ start.toList.isPrefixOf model.toList ∧ (start.length : ℤ) > best.2 then
    (some price, start.length)
  else best

def lookup (table : List ((String × String) × Price)) (provider model : String) : Price :=
  (table.foldl (lookupStep provider model) (none, -1)).1.getD defaultPrice

/-- `round(x, digits)`: ties go to the even neighbour. -/
def roundTo (digits : ℕ) (x : ℚ) : ℚ :=
  let scaled := x * 10 ^ digits
  let below := ⌊scaled⌋
  let rest := scaled - below
  let rounded := if rest < 1 / 2 then below else if rest > 1 / 2 then below + 1
    else if below % 2 = 0 then below else below + 1
  rounded / 10 ^ digits

/-- The integers that round to a finite float are below this bound, the middle between the largest
float and `2 ^ 1024`. -/
@[irreducible] def floatBound : ℕ := 2 ^ 1024 - 2 ^ 970

/-- An integer as an operand of a float. -/
def toFloat (n : ℤ) : Except Exn ℚ :=
  if n.natAbs < floatBound then .ok n
  else .error (.other "OverflowError" "int too large to convert to float")

def estimateCostUsd (provider model : String) (promptTokens completionTokens : ℤ) : Except Exn ℚ := do
  let (inPrice, outPrice) := lookup prices provider model
  let promptTokens ← toFloat promptTokens
  let completionTokens ← toFloat completionTokens
  pure (roundTo 6 (promptTokens / 1000 * inPrice + completionTokens / 1000 * outPrice))

/-- The token counts convert to floats. -/
def CountsConvert (promptTokens completionTokens : ℤ) : Prop :=
  promptTokens.natAbs < floatBound ∧ completionTokens.natAbs < floatBound

instance (promptTokens completionTokens : ℤ) : Decidable (CountsConvert promptTokens completionTokens) :=
  inferInstanceAs (Decidable (_ ∧ _))

theorem toFloat_of_lt {n : ℤ} (h : n.natAbs < floatBound) : toFloat n = .ok (n : ℚ) := if_pos h

theorem toFloat_of_ge {n : ℤ} (h : ¬ n.natAbs < floatBound) :
    toFloat n = .error (.other "OverflowError" "int too large to convert to float") := if_neg h

theorem estimateCostUsd_eq (provider model : String) (promptTokens completionTokens : ℤ) :
    CountsConvert promptTokens completionTokens ∧
        estimateCostUsd provider model promptTokens completionTokens =
          .ok (roundTo 6 (promptTokens / 1000 * (lookup prices provider model).1 +
            completionTokens / 1000 * (lookup prices provider model).2)) ∨
      ¬ CountsConvert promptTokens completionTokens ∧
        estimateCostUsd provider model promptTokens completionTokens =
          .error (.other "OverflowError" "int too large to convert to float") := by
  unfold estimateCostUsd CountsConvert
  by_cases hprompt : promptTokens.natAbs < floatBound
  · rw [toFloat_of_lt hprompt]
    by_cases hcompletion : completionTokens.natAbs < floatBound
    · rw [toFloat_of_lt hcompletion]
      exact .inl ⟨⟨hprompt, hcompletion⟩, rfl⟩
    · rw [toFloat_of_ge hcompletion]
      exact .inr ⟨fun h => hcompletion h.2, rfl⟩
  · rw [toFloat_of_ge hprompt]
    exact .inr ⟨fun h => hprompt h.1, rfl⟩

end BankingAi.Ai
