import Mathlib.Data.Nat.Digits.Lemmas
import BankingAi.Lib.PythonInt

/-!
# Ids

A `Uuid` is the number of its draw: `uuid4` never draws the same one twice. Its texts are those of
`uuid.UUID`. As the draws have no end here, one beyond 128 bits has a longer text, which is read back
like the others.
-/

namespace BankingAi

structure Uuid where
  draw : ℕ
deriving DecidableEq, Repr

namespace Uuid

/-- `'%032x'`, as numbers. -/
def hexDigits (n : ℕ) : List ℕ :=
  let digits := (Nat.digits 16 n).reverse
  List.replicate (32 - digits.length) 0 ++ digits

def hexChars (u : Uuid) : List Char := (hexDigits u.draw).map Nat.digitChar

/-- `uuid.hex`. -/
def hex (u : Uuid) : String := .ofList u.hexChars

/-- `str(uuid)`: groups of 8, 4, 4, 4 and the remaining digits. -/
def str (u : Uuid) : String :=
  let hex := u.hexChars
  .ofList (hex.take 8 ++ '-' :: ((hex.drop 8).take 4 ++ '-' :: ((hex.drop 12).take 4 ++
    '-' :: ((hex.drop 16).take 4 ++ '-' :: hex.drop 20))))

/-- `text.replace(word, "")`; `skip` characters belong to the last word found. -/
def removeWord (word : List Char) (skip : ℕ) : List Char → List Char
  | [] => []
  | c :: cs =>
    match skip with
    | skip + 1 => removeWord word skip cs
    | 0 => if word <+: c :: cs then removeWord word (word.length - 1) cs else c :: removeWord word 0 cs

/-- `text.strip("\x7b\x7d")`. -/
def stripBraces (cs : List Char) : List Char :=
  ((cs.dropWhile (· ∈ ['\x7b', '\x7d'])).reverse.dropWhile (· ∈ ['\x7b', '\x7d'])).reverse

/-- `uuid.UUID(text)`: `none` is the `ValueError` of a text that is no uuid. -/
def ofStr? (text : String) : Option Uuid :=
  let hex := removeWord "uuid:".toList 0 (removeWord "urn:".toList 0 text.toList)
  let hex := (stripBraces hex).filter (· ≠ '-')
  -- the digits of a draw beyond 128 bits are more than 32, and begin with another one than zero
  if hex.length = 32 ∨ 32 < hex.length ∧ hex.head? ≠ some '0' then (Python.hexOfStr? hex).map Uuid.mk else none

/-! ### Reading a text back -/

theorem removeWord_eq_self {word cs : List Char} {c : Char} (hword : c ∈ word) (hcs : c ∉ cs) :
    removeWord word 0 cs = cs := by
  induction cs with
  | nil => rfl
  | cons d cs ih =>
    have hnot : ¬ word <+: d :: cs := fun hpre => hcs (hpre.subset hword)
    rw [removeWord, if_neg hnot, ih fun h => hcs (List.mem_cons_of_mem _ h)]

theorem hexDigits_lt {n d : ℕ} (h : d ∈ hexDigits n) : d < 16 := by
  rcases List.mem_append.1 h with h | h
  · rw [(List.mem_replicate.1 h).2]
    decide
  · exact Nat.digits_lt_base (by decide) (List.mem_reverse.1 h)

theorem le_length_hexDigits (n : ℕ) : 32 ≤ (hexDigits n).length := by
  simp only [hexDigits, List.length_append, List.length_replicate]
  omega

theorem foldl_hexDigits (n : ℕ) : (hexDigits n).foldl (fun n d => 16 * n + d) 0 = n := by
  have hzeros : ∀ k, (List.replicate k 0).foldl (fun n d => 16 * n + d) 0 = 0 := by
    intro k
    induction k with
    | zero => rfl
    | succ k ih => exact ih
  calc (hexDigits n).foldl (fun n d => 16 * n + d) 0
    _ = (Nat.digits 16 n).foldr (fun d n => 16 * n + d) 0 := by
      rw [hexDigits, List.foldl_append, hzeros, List.foldl_reverse]
    _ = Nat.ofDigits 16 (Nat.digits 16 n) := by
      rw [Nat.ofDigits_eq_foldr]
      simp only [Nat.cast_id, Nat.add_comm]
    _ = n := Nat.ofDigits_digits 16 n

theorem head?_hexDigits {n : ℕ} (h : 32 < (hexDigits n).length) : (hexDigits n).head? ≠ some 0 := by
  have hlong : 32 < (Nat.digits 16 n).length := by
    simp only [hexDigits, List.length_append, List.length_replicate, List.length_reverse] at h
    omega
  have hne : Nat.digits 16 n ≠ [] := List.ne_nil_of_length_pos (by omega)
  have hn : n ≠ 0 := by
    rintro rfl
    exact hne (Nat.digits_zero 16)
  have hpad : 32 - (Nat.digits 16 n).reverse.length = 0 := by
    rw [List.length_reverse]
    omega
  rw [hexDigits, hpad, List.replicate_zero, List.nil_append, List.head?_reverse, List.getLast?_eq_some_getLast hne]
  exact fun heq => Nat.getLast_digit_ne_zero 16 hn (Option.some.inj heq)

section chars

variable {u : Uuid} {c : Char}

theorem mem_hexChars (h : c ∈ u.hexChars) : ∃ d < 16, c = Nat.digitChar d := by
  obtain ⟨d, hd, rfl⟩ := List.mem_map.1 h
  exact ⟨d, hexDigits_lt hd, rfl⟩

theorem not_mem_hexChars (h : ∀ d < 16, c ≠ Nat.digitChar d) : c ∉ u.hexChars := by
  intro hmem
  obtain ⟨d, hd, heq⟩ := mem_hexChars hmem
  exact h d hd heq

theorem toList_str : u.str.toList = u.hexChars.take 8 ++ '-' :: ((u.hexChars.drop 8).take 4 ++
    '-' :: ((u.hexChars.drop 12).take 4 ++ '-' :: ((u.hexChars.drop 16).take 4 ++ '-' :: u.hexChars.drop 20))) :=
  String.toList_ofList

theorem mem_str (h : c ∈ u.str.toList) : c = '-' ∨ c ∈ u.hexChars := by
  rw [toList_str] at h
  simp only [List.mem_append, List.mem_cons] at h
  rcases h with h | h | h | h | h | h | h | h | h
  · exact .inr (List.mem_of_mem_take h)
  · exact .inl h
  · exact .inr (List.mem_of_mem_drop (List.mem_of_mem_take h))
  · exact .inl h
  · exact .inr (List.mem_of_mem_drop (List.mem_of_mem_take h))
  · exact .inl h
  · exact .inr (List.mem_of_mem_drop (List.mem_of_mem_take h))
  · exact .inl h
  · exact .inr (List.mem_of_mem_drop h)

theorem not_mem_str (hdash : c ≠ '-') (h : ∀ d < 16, c ≠ Nat.digitChar d) : c ∉ u.str.toList := by
  intro hmem
  rcases mem_str hmem with heq | hmem
  · exact hdash heq
  · exact not_mem_hexChars h hmem

/-- Without the dashes the groups are the digits again. -/
theorem filter_str : u.str.toList.filter (· ≠ '-') = u.hexChars := by
  have hkept : ∀ l : List Char, (∀ c ∈ l, c ∈ u.hexChars) → l.filter (· ≠ '-') = l := by
    intro l hl
    refine List.filter_eq_self.2 fun c hc => decide_eq_true ?_
    rintro rfl
    exact not_mem_hexChars (by decide) (hl _ hc)
  have hjoin : ∀ (l : List Char) (n : ℕ), l.take n ++ l.drop n = l := fun l n => List.take_append_drop n l
  rw [toList_str]
  simp only [List.filter_append, List.filter_cons, ne_eq, not_true_eq_false, decide_false, Bool.false_eq_true, if_false]
  have htake : ∀ n k, ∀ c ∈ (u.hexChars.drop n).take k, c ∈ u.hexChars := fun n k c hc =>
    List.mem_of_mem_drop (List.mem_of_mem_take hc)
  have hfirst := hkept (u.hexChars.take 8) fun c hc => List.mem_of_mem_take hc
  have hlast := hkept (u.hexChars.drop 20) fun c hc => List.mem_of_mem_drop hc
  simp only [ne_eq] at hfirst hlast hkept
  rw [hfirst, hkept _ (htake 8 4), hkept _ (htake 12 4), hkept _ (htake 16 4), hlast]
  have h16 := hjoin (u.hexChars.drop 16) 4
  have h12 := hjoin (u.hexChars.drop 12) 4
  have h8 := hjoin (u.hexChars.drop 8) 4
  rw [List.drop_drop] at h16 h12 h8
  rw [h16, h12, h8, hjoin]

end chars

theorem hexValue?_digitChar {d : ℕ} (h : d < 16) : Python.hexValue? (Nat.digitChar d) = some d := by
  have hall : ∀ d < 16, Python.hexValue? (Nat.digitChar d) = some d := by decide
  exact hall d h

theorem hexOfStr?_hexChars (u : Uuid) : Python.hexOfStr? u.hexChars = some u.draw := by
  have hne : hexDigits u.draw ≠ [] :=
    List.ne_nil_of_length_pos (Nat.lt_of_lt_of_le (by decide) (le_length_hexDigits u.draw))
  have hplain : ∀ d < 16, Nat.digitChar d ∉ ['_', 'x', 'X', '+'] ∧ (Nat.digitChar d).toNat ∉ Python.spaces := by
    decide
  rw [hexChars, Python.hexOfStr?_map (fun d hd => hexValue?_digitChar (hexDigits_lt hd))
    (fun d hd => hplain d (hexDigits_lt hd)) hne, foldl_hexDigits]

theorem stripBraces_eq_self {cs : List Char} (h : ∀ c ∈ cs, c ∉ ['\x7b', '\x7d']) : stripBraces cs = cs := by
  have hkept : ∀ l : List Char, (∀ c ∈ l, c ∉ ['\x7b', '\x7d']) → l.dropWhile (· ∈ ['\x7b', '\x7d']) = l := by
    intro l hl
    cases l with
    | nil => rfl
    | cons c l => exact List.dropWhile_cons_of_neg (by simpa using hl c List.mem_cons_self)
  rw [stripBraces, hkept cs h, hkept cs.reverse fun c hc => h c (List.mem_reverse.1 hc), List.reverse_reverse]

theorem ofStr?_str (u : Uuid) : ofStr? u.str = some u := by
  have hcolon : ':' ∉ u.str.toList := not_mem_str (by decide) (by decide)
  have hurn : removeWord "urn:".toList 0 u.str.toList = u.str.toList := removeWord_eq_self (by decide) hcolon
  have huuid : removeWord "uuid:".toList 0 u.str.toList = u.str.toList := removeWord_eq_self (by decide) hcolon
  have hbraces : stripBraces u.str.toList = u.str.toList := by
    refine stripBraces_eq_self fun c hc hbrace => ?_
    rcases mem_str hc with rfl | hc
    · exact absurd hbrace (by decide)
    · obtain ⟨d, hd, rfl⟩ := mem_hexChars hc
      have hplain : ∀ d < 16, Nat.digitChar d ∉ ['\x7b', '\x7d'] := by decide
      exact hplain d hd hbrace
  have hlength : u.hexChars.length = 32 ∨ 32 < u.hexChars.length ∧ u.hexChars.head? ≠ some '0' := by
    have hle := le_length_hexDigits u.draw
    rw [hexChars, List.length_map, List.head?_map]
    rcases hle.eq_or_lt with heq | hlt
    · exact .inl heq.symm
    · refine .inr ⟨hlt, fun hzero => ?_⟩
      obtain ⟨d, hd, hchar⟩ := Option.map_eq_some_iff.1 hzero
      have hdigit : ∀ d < 16, Nat.digitChar d = '0' → d = 0 := by decide
      obtain rfl := hdigit d (hexDigits_lt (List.mem_of_mem_head? hd)) hchar
      exact head?_hexDigits hlt hd
  unfold ofStr?
  dsimp only
  rw [hurn, huuid, hbraces, filter_str, if_pos hlength, hexOfStr?_hexChars]
  rfl

example : ["urn:uuid:\x7b000000000000-0000-0000-0000-000000FF\x7d", "0x0000000000000000000000000000ff", "ff"].map ofStr? =
    [some ⟨255⟩, some ⟨255⟩, none] := by decide +kernel

theorem str_injective : Function.Injective str := by
  intro u v h
  have hread := ofStr?_str u
  rw [h, ofStr?_str v] at hread
  exact (Option.some.inj hread).symm

attribute [irreducible] str ofStr?

end Uuid
end BankingAi
