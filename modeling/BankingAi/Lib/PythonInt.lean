import Mathlib.Data.Rat.Floor

/-!
# The integers that Python's `int` reads

`int(text)` of a string: surrounding white space is dropped, a sign may come first, then decimal
digits of any script, single underscores between them, and no more of them than the interpreter's
limit. `int(text, 16)` reads hexadecimal digits, of which it takes any number, also behind `0x`.
`int(x)` of a finite float drops the fraction.
-/

namespace BankingAi.Python

/-- The zeros of the decimal digits; the digits of a script follow each other. -/
def zeros : List ℕ :=
  [0x30, 0x660, 0x6f0, 0x7c0, 0x966, 0x9e6, 0xa66, 0xae6, 0xb66, 0xbe6, 0xc66, 0xce6, 0xd66, 0xde6,
    0xe50, 0xed0, 0xf20, 0x1040, 0x1090, 0x17e0, 0x1810, 0x1946, 0x19d0, 0x1a80, 0x1a90, 0x1b50,
    0x1bb0, 0x1c40, 0x1c50, 0xa620, 0xa8d0, 0xa900, 0xa9d0, 0xa9f0, 0xaa50, 0xabf0, 0xff10, 0x104a0,
    0x10d30, 0x11066, 0x110f0, 0x11136, 0x111d0, 0x112f0, 0x11450, 0x114d0, 0x11650, 0x116c0,
    0x11730, 0x118e0, 0x11950, 0x11c50, 0x11d50, 0x11da0, 0x16a60, 0x16ac0, 0x16b50, 0x1d7ce,
    0x1d7d8, 0x1d7e2, 0x1d7ec, 0x1d7f6, 0x1e140, 0x1e2f0, 0x1e950, 0x1fbf0]

def digitValue? (c : Char) : Option ℕ :=
  (zeros.find? fun z => z ≤ c.toNat ∧ c.toNat < z + 10).map (c.toNat - ·)

/-- The white space that `int` drops. -/
def spaces : List ℕ :=
  [0x9, 0xa, 0xb, 0xc, 0xd, 0x20, 0x85, 0xa0, 0x1680, 0x2000, 0x2001, 0x2002, 0x2003, 0x2004, 0x2005,
    0x2006, 0x2007, 0x2008, 0x2009, 0x200a, 0x2028, 0x2029, 0x202f, 0x205f, 0x3000]

def strip (cs : List Char) : List Char :=
  let left := cs.dropWhile (·.toNat ∈ spaces)
  (left.reverse.dropWhile (·.toNat ∈ spaces)).reverse

/-- At least one digit, with single underscores between digits. -/
def digits? (value? : Char → Option ℕ) : List Char → Option (List ℕ)
  | [] => none
  | [c] => (value? c).map fun d => [d]
  | c :: '_' :: cs => do
    let d ← value? c
    let ds ← digits? value? cs
    pure (d :: ds)
  | c :: cs => do
    let d ← value? c
    let ds ← digits? value? cs
    pure (d :: ds)

/-- `sys.get_int_max_str_digits()`. -/
def maxStrDigits : ℕ := 4300

def unsigned? (cs : List Char) : Option ℕ := do
  let ds ← digits? digitValue? cs
  if ds.length ≤ maxStrDigits then pure (ds.foldl (fun n d => 10 * n + d) 0) else none

/-- `int(text)`: `none` is a `ValueError`. -/
def intOfStr? (text : String) : Option ℤ :=
  match strip text.toList with
  | '+' :: cs => (unsigned? cs).map Int.ofNat
  | '-' :: cs => (unsigned? cs).map fun n => -(n : ℤ)
  | cs => (unsigned? cs).map Int.ofNat

def hexValue? (c : Char) : Option ℕ :=
  match digitValue? c with
  | some d => some d
  | none =>
    if 'a' ≤ c ∧ c ≤ 'f' then some (c.toNat - 'a'.toNat + 10)
    else if 'A' ≤ c ∧ c ≤ 'F' then some (c.toNat - 'A'.toNat + 10)
    else none

/-- What may stand before hexadecimal digits. -/
def withoutBase : List Char → List Char
  | '0' :: 'x' :: '_' :: cs => cs
  | '0' :: 'X' :: '_' :: cs => cs
  | '0' :: 'x' :: cs => cs
  | '0' :: 'X' :: cs => cs
  | cs => cs

/-- `int(text, 16)` of a text without a minus sign. -/
def hexOfStr? (cs : List Char) : Option ℕ := do
  let cs := match strip cs with
    | '+' :: cs => cs
    | cs => cs
  let ds ← digits? hexValue? (withoutBase cs)
  pure (ds.foldl (fun n d => 16 * n + d) 0)

section digits

variable {value? : Char → Option ℕ} {f : ℕ → Char} {ds : List ℕ}

theorem digits?_map (hvalue : ∀ d ∈ ds, value? (f d) = some d) (hf : ∀ d ∈ ds, f d ≠ '_') (hne : ds ≠ []) :
    digits? value? (ds.map f) = some ds := by
  induction ds with
  | nil => exact absurd rfl hne
  | cons d ds ih =>
    cases ds with
    | nil => simp [digits?, hvalue d List.mem_cons_self]
    | cons e ds =>
      have ih := ih (fun d h => hvalue d (List.mem_cons_of_mem _ h)) (fun d h => hf d (List.mem_cons_of_mem _ h))
        (List.cons_ne_nil _ _)
      rw [List.map_cons] at ih
      rw [List.map_cons, List.map_cons, digits?, hvalue d List.mem_cons_self, ih]
      · rfl
      · exact nofun
      · intro _ heq
        exact hf e (List.mem_cons_of_mem _ List.mem_cons_self) (List.cons.inj heq).1

end digits

theorem withoutBase_eq_self {cs : List Char} (hx : 'x' ∉ cs) (hX : 'X' ∉ cs) : withoutBase cs = cs := by
  unfold withoutBase
  split
  all_goals simp_all

theorem strip_eq_self {cs : List Char} (h : ∀ c ∈ cs, c.toNat ∉ spaces) : strip cs = cs := by
  have hkept : ∀ l : List Char, (∀ c ∈ l, c.toNat ∉ spaces) → l.dropWhile (·.toNat ∈ spaces) = l := by
    intro l hl
    cases l with
    | nil => rfl
    | cons c l => exact List.dropWhile_cons_of_neg (by simpa using hl c List.mem_cons_self)
  rw [strip, hkept cs h, hkept cs.reverse fun c hc => h c (List.mem_reverse.1 hc), List.reverse_reverse]

theorem hexOfStr?_map {f : ℕ → Char} {ds : List ℕ} (hvalue : ∀ d ∈ ds, hexValue? (f d) = some d)
    (hf : ∀ d ∈ ds, f d ∉ ['_', 'x', 'X', '+'] ∧ (f d).toNat ∉ spaces) (hne : ds ≠ []) :
    hexOfStr? (ds.map f) = some (ds.foldl (fun n d => 16 * n + d) 0) := by
  have hnot : ∀ c ∈ ['_', 'x', 'X', '+'], c ∉ ds.map f := by
    intro c hc hmem
    obtain ⟨d, hd, rfl⟩ := List.mem_map.1 hmem
    exact (hf d hd).1 hc
  have hstrip : strip (ds.map f) = ds.map f :=
    strip_eq_self (List.forall_mem_map.2 fun d hd => (hf d hd).2)
  have hsign : (match ds.map f with | '+' :: cs => cs | cs => cs) = ds.map f := by
    split
    case h_1 cs heq => exact absurd (heq ▸ List.mem_cons_self) (hnot '+' (by decide))
    case h_2 => rfl
  have hdigits : digits? hexValue? (ds.map f) = some ds :=
    digits?_map hvalue (fun d hd heq => (hf d hd).1 (by simp [heq])) hne
  rw [hexOfStr?, hstrip, hsign, withoutBase_eq_self (hnot 'x' (by decide)) (hnot 'X' (by decide)), hdigits]
  rfl

/-- `int(x)`, towards zero. -/
def truncate (x : ℚ) : ℤ := if 0 ≤ x then ⌊x⌋ else ⌈x⌉

example : [" 1_0 ", "+7", "-5", "٣", "1__0", "_1", ""].map intOfStr? =
    [some 10, some 7, some (-5), some 3, none, none, none] := by decide

end BankingAi.Python
