import Mathlib.Data.List.Basic
import Mathlib.Data.Nat.Notation
import Mathlib.Tactic.SplitIfs

/-!
# Quoted strings

A string in the ASCII form of JSON: quotes, backslashes and control characters are escaped, and so is every
character that is not ASCII, beyond the first plane by a surrogate pair. A quoted string tells where it ends.
-/

namespace BankingAi.Json

/-- `{0:04x}`. -/
def hex4 (n : ℕ) : List Char := [n / 4096 % 16, n / 256 % 16, n / 16 % 16, n % 16].map Nat.digitChar

/-- The escapes of one letter. -/
def shortEscapes : List (Char × Char) :=
  [('"', '"'), ('\\', '\\'), ('\n', 'n'), ('\r', 'r'), ('\t', 't'), ('\x0c', 'f'), ('\x08', 'b')]

/-- A character without such an escape. -/
def escapeOther (c : Char) : List Char :=
  if ' ' ≤ c ∧ c ≤ '~' then [c]
  else if c.toNat < 0x10000 then '\\' :: 'u' :: hex4 c.toNat
  else
    let n := c.toNat - 0x10000
    '\\' :: 'u' :: (hex4 (0xd800 + n / 1024) ++ '\\' :: 'u' :: hex4 (0xdc00 + n % 1024))

def escape (c : Char) : List Char := ((shortEscapes.lookup c).map (['\\', ·])).getD (escapeOther c)

def quote (s : String) : List Char := '"' :: (s.toList.flatMap escape ++ ['"'])

/-! ### Reading a string back -/

def hexVal (c : Char) : ℕ := "0123456789abcdef".toList.idxOf c

def unHex4 (a b c d : Char) : ℕ := ((hexVal a * 16 + hexVal b) * 16 + hexVal c) * 16 + hexVal d

/-- The second half of a surrogate pair. -/
def unescapeLow (high : ℕ) : List Char → Option (Char × List Char)
  | _ :: _ :: a :: b :: c :: d :: rest =>
    some (Char.ofNat (0x10000 + (high - 0xd800) * 1024 + (unHex4 a b c d - 0xdc00)), rest)
  | _ => none

/-- A code unit, or a pair of them. -/
def unescapeUnit (n : ℕ) (rest : List Char) : Option (Char × List Char) :=
  if 0xd800 ≤ n ∧ n < 0xdc00 then unescapeLow n rest else some (Char.ofNat n, rest)

/-- The first character of the inside of a quoted string, and what is behind it. -/
def unescape : List Char → Option (Char × List Char)
  | '\\' :: 'u' :: a :: b :: c :: d :: rest => unescapeUnit (unHex4 a b c d) rest
  | '\\' :: e :: rest => ((shortEscapes.map Prod.swap).lookup e).map (·, rest)
  | '"' :: _ => none
  | c :: rest => some (c, rest)
  | [] => none

theorem hexVal_digitChar {d : ℕ} (hd : d < 16) : hexVal (Nat.digitChar d) = d := by
  have hall : ∀ d < 16, hexVal (Nat.digitChar d) = d := by decide
  exact hall d hd

theorem unHex4_hex4 {n : ℕ} (hn : n < 0x10000) {a b c d : Char} (h : hex4 n = [a, b, c, d]) : unHex4 a b c d = n := by
  simp only [hex4, List.map_cons, List.map_nil, List.cons.injEq, and_true] at h
  obtain ⟨rfl, rfl, rfl, rfl⟩ := h
  unfold unHex4
  rw [hexVal_digitChar (by omega), hexVal_digitChar (by omega), hexVal_digitChar (by omega),
    hexVal_digitChar (by omega)]
  omega

theorem exists_hex4 (n : ℕ) : ∃ a b c d, hex4 n = [a, b, c, d] := ⟨_, _, _, _, rfl⟩

theorem lookup_shortEscapes {c e : Char} (h : shortEscapes.lookup c = some e) : (c, e) ∈ shortEscapes := by
  obtain ⟨before, after, heq, -⟩ := List.lookup_eq_some_iff.1 h
  rw [heq]
  simp

theorem scalar (c : Char) : c.toNat < 0xd800 ∨ 0xdfff < c.toNat ∧ c.toNat < 0x110000 := by
  have hvalid := c.valid
  simp only [UInt32.isValidChar, Nat.isValidChar] at hvalid
  exact hvalid

theorem unescape_unit {n : ℕ} (hn : n < 0xd800 ∨ 0xdfff < n ∧ n < 0x10000) (rest : List Char) :
    unescape ('\\' :: 'u' :: (hex4 n ++ rest)) = some (Char.ofNat n, rest) := by
  obtain ⟨a, b, c, d, hhex⟩ := exists_hex4 n
  have hread := unHex4_hex4 (by omega) hhex
  rw [hhex]
  show unescape ('\\' :: 'u' :: a :: b :: c :: d :: rest) = _
  rw [unescape, hread, unescapeUnit, if_neg (by omega)]

theorem unescape_pair {n : ℕ} (hn : n < 0x100000) (rest : List Char) :
    unescape ('\\' :: 'u' :: (hex4 (0xd800 + n / 1024) ++ '\\' :: 'u' :: (hex4 (0xdc00 + n % 1024) ++ rest))) =
      some (Char.ofNat (0x10000 + n), rest) := by
  obtain ⟨a, b, c, d, hhigh⟩ := exists_hex4 (0xd800 + n / 1024)
  obtain ⟨e, f, g, h, hlow⟩ := exists_hex4 (0xdc00 + n % 1024)
  have hreadHigh := unHex4_hex4 (by omega) hhigh
  have hreadLow := unHex4_hex4 (by omega) hlow
  rw [hhigh, hlow]
  show unescape ('\\' :: 'u' :: a :: b :: c :: d :: '\\' :: 'u' :: e :: f :: g :: h :: rest) = _
  have hsum : 0x10000 + (0xd800 + n / 1024 - 0xd800) * 1024 + (0xdc00 + n % 1024 - 0xdc00) = 0x10000 + n := by
    omega
  rw [unescape, hreadHigh, unescapeUnit, if_pos (by omega), unescapeLow, hreadLow, hsum]

theorem unescape_plain {c : Char} (hquote : c ≠ '"') (hbackslash : c ≠ '\\') (rest : List Char) :
    unescape (c :: rest) = some (c, rest) := by
  rw [unescape]
  · rintro a b d e rest rfl
    exact absurd rfl hbackslash
  · rintro e rest rfl
    exact absurd rfl hbackslash
  · rintro rfl
    exact hquote rfl

theorem unescape_escape (c : Char) (rest : List Char) : unescape (escape c ++ rest) = some (c, rest) := by
  unfold escape
  cases hshort : shortEscapes.lookup c with
  | some e =>
    show unescape ('\\' :: e :: rest) = _
    have hmem := lookup_shortEscapes hshort
    simp only [shortEscapes, List.mem_cons, Prod.mk.injEq, List.not_mem_nil, or_false] at hmem
    rcases hmem with ⟨rfl, rfl⟩ | ⟨rfl, rfl⟩ | ⟨rfl, rfl⟩ | ⟨rfl, rfl⟩ | ⟨rfl, rfl⟩ | ⟨rfl, rfl⟩ | ⟨rfl, rfl⟩ <;> rfl
  | none =>
    have hquote : c ≠ '"' := by
      rintro rfl
      revert hshort
      decide
    have hbackslash : c ≠ '\\' := by
      rintro rfl
      revert hshort
      decide
    have hscalar := scalar c
    show unescape (escapeOther c ++ rest) = _
    unfold escapeOther
    split_ifs
    · exact unescape_plain hquote hbackslash rest
    · exact (unescape_unit (by omega) rest).trans (by rw [Char.ofNat_toNat])
    · have hpair := @unescape_pair (c.toNat - 0x10000) (by omega) rest
      rw [show 0x10000 + (c.toNat - 0x10000) = c.toNat by omega, Char.ofNat_toNat] at hpair
      rw [← hpair]
      simp

theorem unescape_quote (rest : List Char) : unescape ('"' :: rest) = none := rfl

/-- A quoted string tells where it ends. -/
theorem quote_cancel {s t : String} {r r' : List Char} (h : quote s ++ r = quote t ++ r') : s = t ∧ r = r' := by
  have hinside : ∀ l l' : List Char, l.flatMap escape ++ '"' :: r = l'.flatMap escape ++ '"' :: r' → l = l' ∧ r = r' := by
    intro l
    induction l with
    | nil =>
      intro l' h
      cases l' with
      | nil => exact ⟨rfl, (List.cons.inj h).2⟩
      | cons c l' =>
        have hread := congrArg unescape h
        rw [List.flatMap_cons, List.append_assoc, unescape_escape] at hread
        exact absurd hread (by rw [List.flatMap_nil, List.nil_append, unescape_quote]; exact nofun)
    | cons c l ih =>
      intro l' h
      have hread := congrArg unescape h
      rw [List.flatMap_cons, List.append_assoc, unescape_escape] at hread
      cases l' with
      | nil => exact absurd hread (by rw [List.flatMap_nil, List.nil_append, unescape_quote]; exact nofun)
      | cons d l' =>
        rw [List.flatMap_cons, List.append_assoc, unescape_escape] at hread
        obtain ⟨rfl, hrest⟩ := Prod.mk.inj (Option.some.inj hread)
        obtain ⟨rfl, hr⟩ := ih l' hrest
        exact ⟨rfl, hr⟩
  unfold quote at h
  rw [List.cons_append, List.cons_append, List.append_assoc, List.append_assoc] at h
  obtain ⟨hchars, hr⟩ := hinside s.toList t.toList (List.cons.inj h).2
  exact ⟨String.toList_inj.1 hchars, hr⟩

end BankingAi.Json
