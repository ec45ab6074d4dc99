import Mathlib.Analysis.SpecialFunctions.Sqrt
import BankingAi.Ai.VectorRanking
import BankingAi.Lib.Dot
import BankingAi.Lib.Pattern
import BankingAi.Lib.PythonStr

/-!
# The hashing embedder

A signed bag of words: each token of a text adds 1 or -1 to one coordinate, both read off its digest, and the
vector is normalised. The digest is given; the arithmetic is exact, over any division ring with a square root.
-/

namespace BankingAi

/-- 32 bytes. -/
abbrev Digest := Vector UInt8 32

structure HashingEmbedder where
  dimensions : ℕ
  sha256 : List UInt8 → Digest
  dimensions_pos : 1 ≤ dimensions

/-- `[a-z0-9]`. -/
def isTokenChar (c : Char) : Bool := c.isLower || c.isDigit

/-- `_TOKEN.findall(text.lower())`. -/
def embedderTokens (text : String) : List (List Char) := Runs.find isTokenChar (Str.lower text).toList

example : embedderTokens "KYC-Check №7 İ" = ["kyc".toList, "check".toList, "7".toList, "i".toList] := by decide +kernel

namespace HashingEmbedder

variable (embedder : HashingEmbedder) {K : Type} [DivisionRing K]

def digest (token : List Char) : Digest := embedder.sha256 (String.ofList token).toUTF8.data.toList

/-- `int.from_bytes(digest[:4], "big") % self._dimensions`. -/
def index (token : List Char) : ℕ :=
  (((embedder.digest token).toList.take 4).foldl (fun n byte => n * 256 + byte.toNat) 0) % embedder.dimensions

def sign (token : List Char) : K := if (embedder.digest token)[4] &&& 1 ≠ 0 then 1 else -1

def addToken (vec : List K) (token : List Char) : List K :=
  vec.modify (embedder.index token) (· + embedder.sign token)

/-- The vector before it is normalised. -/
def rawVector (text : String) : List K :=
  (embedderTokens text).foldl embedder.addToken (List.replicate embedder.dimensions 0)

end HashingEmbedder

section normalise

variable {K : Type} [DivisionRing K] [DecidableEq K]

def l2Normalise (sqrt : K → K) (vec : List K) : List K :=
  let norm := sqrt (vec.map fun v => v * v).sum
  if norm = 0 then vec else vec.map (· / norm)

def HashingEmbedder.embed (embedder : HashingEmbedder) (sqrt : K → K) (text : String) : List K :=
  l2Normalise sqrt (embedder.rawVector text)

end normalise

/-! ### Tokens -/

section tokens

theorem embedderTokens_append_space (t t' : String) :
    embedderTokens (t ++ " " ++ t') = embedderTokens t ++ embedderTokens t' := by
  have hspace : Str.isSpace ' ' = true := by decide
  have htext : (t ++ " " ++ t').toList = t.toList ++ ' ' :: t'.toList := by simp
  unfold embedderTokens Str.lower
  rw [String.toList_ofList, String.toList_ofList, String.toList_ofList, htext, Str.lowerChars_append_space hspace,
    Runs.find_append (by decide)]

end tokens

namespace HashingEmbedder

variable {embedder : HashingEmbedder} {K : Type} [DivisionRing K]

theorem length_addToken (vec : List K) (token : List Char) : (embedder.addToken vec token).length = vec.length :=
  List.length_modify _ _ _

theorem length_foldl_addToken (tokens : List (List Char)) (vec : List K) :
    (tokens.foldl embedder.addToken vec).length = vec.length := by
  induction tokens generalizing vec with
  | nil => rfl
  | cons token tokens ih => rw [List.foldl_cons, ih, length_addToken]

theorem length_rawVector (text : String) : (embedder.rawVector text : List K).length = embedder.dimensions := by
  rw [rawVector, length_foldl_addToken, List.length_replicate]

theorem addToken_comm (vec : List K) (token token' : List Char) :
    embedder.addToken (embedder.addToken vec token) token' =
      embedder.addToken (embedder.addToken vec token') token := by
  refine List.ext_getElem? fun n => ?_
  simp only [addToken, List.getElem?_modify]
  rcases vec[n]? with _ | x
  · simp
  · by_cases h : embedder.index token = n <;> by_cases h' : embedder.index token' = n <;>
      simp [h, h', add_right_comm]

theorem rawVector_perm {t t' : String} (h : (embedderTokens t).Perm (embedderTokens t')) :
    (embedder.rawVector t : List K) = embedder.rawVector t' :=
  h.foldl_eq' (fun token _ token' _ vec => addToken_comm vec token token') _

theorem addToken_vecAdd (vec vec' : List K) (token : List Char) :
    embedder.addToken (vecAdd vec vec') token = vecAdd vec (embedder.addToken vec' token) := by
  refine List.ext_getElem? fun n => ?_
  simp only [addToken, vecAdd, List.getElem?_modify, List.getElem?_zipWith]
  rcases vec[n]? with _ | x
  · simp
  · rcases vec'[n]? with _ | y
    · simp
    · by_cases h : embedder.index token = n <;> simp [h, add_assoc]

theorem foldl_addToken_vecAdd (tokens : List (List Char)) (vec vec' : List K) :
    tokens.foldl embedder.addToken (vecAdd vec vec') = vecAdd vec (tokens.foldl embedder.addToken vec') := by
  induction tokens generalizing vec' with
  | nil => rfl
  | cons token tokens ih => rw [List.foldl_cons, List.foldl_cons, addToken_vecAdd, ih]

theorem rawVector_append_space (t t' : String) : (embedder.rawVector (t ++ " " ++ t') : List K) =
    vecAdd (embedder.rawVector t) (embedder.rawVector t') := by
  have hzero := vecAdd_zero (embedder.rawVector t : List K)
  rw [length_rawVector] at hzero
  rw [rawVector, embedderTokens_append_space, List.foldl_append]
  show (embedderTokens t').foldl embedder.addToken (embedder.rawVector t) = _
  rw [← hzero, foldl_addToken_vecAdd, hzero]
  rfl

end HashingEmbedder

/-! ### Normalised vectors -/

section normalise

variable {vec : List ℝ}

theorem dot_self (vec : List ℝ) : dot vec vec = (vec.map fun v => v * v).sum := by
  rw [dot, List.zipWith_self]

theorem sqrt_dot_eq_zero : √(dot vec vec) = 0 ↔ vec = List.replicate vec.length 0 := by
  rw [Real.sqrt_eq_zero (dot_self_nonneg vec), dot_self_eq_zero]

theorem l2Normalise_eq (vec : List ℝ) : l2Normalise Real.sqrt vec =
    if vec = List.replicate vec.length 0 then vec else vec.map (· / √(dot vec vec)) := by
  unfold l2Normalise
  dsimp only
  rw [← dot_self]
  exact if_congr sqrt_dot_eq_zero rfl rfl

theorem length_l2Normalise (vec : List ℝ) : (l2Normalise Real.sqrt vec).length = vec.length := by
  rw [l2Normalise_eq]
  split <;> simp

theorem dot_l2Normalise (h : vec ≠ List.replicate vec.length 0) :
    dot (l2Normalise Real.sqrt vec) (l2Normalise Real.sqrt vec) = 1 := by
  have hpos : dot vec vec ≠ 0 := fun hzero => h (dot_self_eq_zero.1 hzero)
  rw [l2Normalise_eq, if_neg h, dot_map_div, Real.mul_self_sqrt (dot_self_nonneg vec), div_self hpos]

theorem dot_l2Normalise_le (vec : List ℝ) : dot (l2Normalise Real.sqrt vec) (l2Normalise Real.sqrt vec) ≤ 1 := by
  by_cases h : vec = List.replicate vec.length 0
  · rw [l2Normalise_eq, if_pos h, dot_self_eq_zero.2 h]
    exact zero_le_one
  · exact (dot_l2Normalise h).le

end normalise

/-- The zero vector. -/
def HashingEmbedder.zero (embedder : HashingEmbedder) : List ℝ := List.replicate embedder.dimensions 0

/-- The vectors of the embedder, in exact arithmetic: a bag of tokens before they are normalised, of the
configured dimension and of length 1 unless they are zero; so their similarity is a cosine. -/
theorem hashing_embedder_cosine (embedder : HashingEmbedder) :
    let raw : String → List ℝ := embedder.rawVector
    let embed := embedder.embed Real.sqrt
    (∀ t t', (embedderTokens t).Perm (embedderTokens t') → raw t = raw t') ∧
      (∀ t t', raw (t ++ " " ++ t') = vecAdd (raw t) (raw t')) ∧
      (∀ t, (embed t).length = embedder.dimensions ∧
        (embed t = embedder.zero ∨ ((embed t).map fun v => v * v).sum = 1)) ∧
      (∀ t t', -1 ≤ dot (embed t) (embed t') ∧ dot (embed t) (embed t') ≤ 1) ∧
      ∀ t t', (embedderTokens t).Perm (embedderTokens t') → raw t ≠ embedder.zero →
        dot (embed t) (embed t') = 1 := by
  intro raw embed
  have hzero : ∀ t, raw t = embedder.zero ↔ raw t = List.replicate (raw t).length 0 := fun t => by
    rw [HashingEmbedder.length_rawVector]
    rfl
  have hunit : ∀ t, raw t ≠ embedder.zero → dot (embed t) (embed t) = 1 := fun t h =>
    dot_l2Normalise fun hrep => h ((hzero t).2 hrep)
  refine ⟨fun t t' => HashingEmbedder.rawVector_perm, HashingEmbedder.rawVector_append_space, fun t => ⟨?_, ?_⟩,
    fun t t' => dot_mem_unit (dot_l2Normalise_le _) (dot_l2Normalise_le _), fun t t' hperm hne => ?_⟩
  · show (l2Normalise Real.sqrt (raw t)).length = _
    rw [length_l2Normalise, HashingEmbedder.length_rawVector]
  · by_cases h : raw t = embedder.zero
    · left
      show l2Normalise Real.sqrt (raw t) = _
      rw [l2Normalise_eq, if_pos ((hzero t).1 h), h]
    · right
      rw [← dot_self, hunit t h]
  · have hsame : embed t' = embed t := by
      show l2Normalise Real.sqrt (raw t') = l2Normalise Real.sqrt (raw t)
      rw [show raw t = raw t' from HashingEmbedder.rawVector_perm hperm]
    rw [hsame, hunit t hne]

end BankingAi
