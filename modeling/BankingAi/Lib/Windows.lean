import Mathlib.Data.List.Infix
import Mathlib.Tactic.Ring

/-!
# Strided windows

The windows of a list: as many elements as `size` from every multiple of `step` on, up to the first window
that reaches the end. Consecutive windows leave no gap as long as `step ≤ size`.
-/

namespace BankingAi

variable {α : Type}

def window (size step : ℕ) (l : List α) (i : ℕ) : List α := (l.drop (i * step)).take size

theorem mem_of_mem_window {size step i : ℕ} {l : List α} {a : α} (h : a ∈ window size step l i) : a ∈ l :=
  List.mem_of_mem_drop (List.mem_of_mem_take h)

/-- The number of windows of a list of that length. -/
def windowCount (size step length : ℕ) : ℕ :=
  if length = 0 then 0 else (length - size + (step - 1)) / step + 1

def windows (size step : ℕ) (l : List α) : List (List α) :=
  (List.range (windowCount size step l.length)).map (window size step l)

theorem filter_dvd_range {step : ℕ} (hstep : 0 < step) (n : ℕ) :
    (List.range n).filter (step ∣ ·) = (List.range ((n + (step - 1)) / step)).map (· * step) := by
  induction n with
  | zero =>
    rw [Nat.zero_add, Nat.div_eq_of_lt (by omega)]
    rfl
  | succ n ih =>
    have hceil : n + 1 + (step - 1) = n + (step - 1) + 1 := by omega
    rw [List.range_succ, List.filter_append, ih, hceil, Nat.succ_div]
    have hdvd : step ∣ n + (step - 1) + 1 ↔ step ∣ n := by
      rw [show n + (step - 1) + 1 = n + step by omega, Nat.dvd_add_self_right]
    by_cases h : step ∣ n
    · obtain ⟨q, rfl⟩ := h
      have hq : (step * q + (step - 1)) / step = q := by
        rw [Nat.mul_add_div hstep, Nat.div_eq_of_lt (by omega), Nat.add_zero]
      rw [if_pos (hdvd.2 (Nat.dvd_mul_right step q)), hq, List.range_succ, List.map_append]
      simp [Nat.mul_comm]
    · rw [if_neg (hdvd.not.2 h), Nat.add_zero]
      simp [h]

section windows

variable {size step : ℕ} {l : List α}

theorem lt_windowCount {length i : ℕ} (hstep : 0 < step) :
    i < windowCount size step length ↔ 0 < length ∧ (i = 0 ∨ (i - 1) * step + size < length) := by
  unfold windowCount
  split_ifs with h
  · omega
  · have hpos : 0 < length := by omega
    rw [and_iff_right hpos, Nat.lt_succ_iff, Nat.le_div_iff_mul_le hstep]
    cases i with
    | zero => simp
    | succ i =>
      rw [Nat.succ_mul, Nat.add_sub_cancel]
      omega

theorem windowCount_pos {length : ℕ} (h : 0 < length) : 0 < windowCount size step length := by
  rw [windowCount, if_neg h.ne']
  exact Nat.succ_pos _

@[simp] theorem length_windows : (windows size step l).length = windowCount size step l.length := by
  simp [windows]

@[simp] theorem getElem_windows {i : ℕ} (h : i < (windows size step l).length) :
    (windows size step l)[i] = window size step l i := by
  simp [windows]

theorem length_window {i : ℕ} : (window size step l i).length = min size (l.length - i * step) := by
  simp [window]

theorem windows_eq_nil : windows size step l = [] ↔ l = [] := by
  rw [← List.length_eq_zero_iff, length_windows, windowCount, ← List.length_eq_zero_iff]
  split_ifs with h <;> simp [h]

theorem start_lt {i : ℕ} (hi : i < windowCount size step l.length) (hsize : step ≤ size) (hstep : 0 < step) :
    i * step < l.length := by
  obtain ⟨hpos, hfirst⟩ := (lt_windowCount hstep).1 hi
  cases i with
  | zero => simpa using hpos
  | succ i =>
    have hlt := hfirst.resolve_left (Nat.succ_ne_zero i)
    rw [Nat.add_sub_cancel] at hlt
    rw [Nat.succ_mul]
    omega

theorem length_window_of_lt {i : ℕ} (hi : i + 1 < windowCount size step l.length) (hstep : 0 < step) :
    (window size step l i).length = size := by
  have hlt := ((lt_windowCount hstep).1 hi).2.resolve_left (Nat.succ_ne_zero i)
  rw [Nat.add_sub_cancel] at hlt
  rw [length_window]
  omega

theorem last_window {i : ℕ} (hi : i + 1 = windowCount size step l.length) (hstep : 0 < step) :
    l.length ≤ i * step + size := by
  have hpos := ((@lt_windowCount size step l.length i hstep).1 (by omega)).1
  have hlast := (@lt_windowCount size step l.length (i + 1) hstep).not.1 (by omega)
  rw [Nat.add_sub_cancel] at hlast
  omega

theorem end_lt_end {i : ℕ} (hi : i + 1 < windowCount size step l.length) (hstep : 0 < step) :
    i * step + (window size step l i).length < (i + 1) * step + (window size step l (i + 1)).length := by
  have hlt := ((lt_windowCount hstep).1 hi).2.resolve_left (Nat.succ_ne_zero i)
  rw [Nat.add_sub_cancel] at hlt
  rw [length_window_of_lt hi hstep, length_window, Nat.succ_mul]
  omega

/-- A run of elements that is no longer than what two windows share and one more lies in a window. -/
theorem exists_window {start n : ℕ} (hn : 1 ≤ n) (hshort : n ≤ size - step + 1) (hend : start + n ≤ l.length)
    (hsize : step ≤ size) (hstep : 0 < step) :
    ∃ i < windowCount size step l.length,
      i * step ≤ start ∧ start + n ≤ i * step + (window size step l i).length := by
  have hpos : 0 < windowCount size step l.length := windowCount_pos (by omega)
  have hbelow : start / step * step ≤ start := Nat.div_mul_le_self start step
  by_cases hlt : start / step < windowCount size step l.length
  · refine ⟨start / step, hlt, hbelow, ?_⟩
    have hnear : start < start / step * step + step := Nat.lt_div_mul_add hstep
    rw [length_window]
    omega
  · obtain ⟨k, hk⟩ := Nat.exists_eq_succ_of_ne_zero hpos.ne'
    have hlast := @last_window _ size step l k hk.symm hstep
    have hstart : k * step ≤ start := (Nat.mul_le_mul_right step (by omega)).trans hbelow
    refine ⟨k, by omega, hstart, ?_⟩
    rw [length_window]
    omega

/-- The part of the list that the first windows cover. -/
theorem take_window (i : ℕ) (hsize : step ≤ size) :
    l.take (i * step + size) ++ (window size step l (i + 1)).drop (size - step) = l.take ((i + 1) * step + size) := by
  have hstart : (i + 1) * step + (size - step) = i * step + size := by
    rw [Nat.succ_mul]
    omega
  rw [window, List.drop_take, List.drop_drop, hstart, ← List.take_add]
  congr 1
  rw [Nat.succ_mul]
  omega

/-- The first window and what each later one adds give the list back. -/
theorem windows_rebuild (hsize : step ≤ size) (hstep : 0 < step) :
    ((windows size step l).head?.getD []) ++
      (windows size step l).tail.flatMap (·.drop (size - step)) = l := by
  have hcover : ∀ k, (window size step l 0) ++
      ((List.range k).map fun i => (window size step l (i + 1)).drop (size - step)).flatten =
        l.take (k * step + size) := by
    intro k
    induction k with
    | zero => simp [window]
    | succ k ih =>
      rw [List.range_succ, List.map_append, List.flatten_append, ← List.append_assoc, ih, ← take_window k hsize]
      simp
  by_cases hnil : l = []
  · rw [windows_eq_nil.2 hnil, hnil]
    rfl
  · have hpos := List.length_pos_iff.2 hnil
    obtain ⟨k, hk⟩ := Nat.exists_eq_succ_of_ne_zero (@windowCount_pos size step _ hpos).ne'
    have hend : l.length ≤ k * step + size := last_window hk.symm hstep
    have hlist : windows size step l =
        window size step l 0 :: (List.range k).map fun i => window size step l (i + 1) := by
      rw [windows, hk, List.range_succ_eq_map, List.map_cons, List.map_map]
      rfl
    rw [hlist, List.head?_cons, Option.getD_some, List.tail_cons, List.flatMap_def, List.map_map]
    exact (hcover k).trans (List.take_of_length_le hend)

/-- Pieces of a list in its order: one starts `step` elements after the one before it, all but the last are
full, none is redundant, and nothing is lost. -/
structure Strided (size step : ℕ) (l : List α) (pieces : List (List α)) : Prop where
  empty : pieces = [] ↔ l = []
  bounds : ∀ piece ∈ pieces, 1 ≤ piece.length ∧ piece.length ≤ size
  full : ∀ piece ∈ pieces.dropLast, piece.length = size
  starts : ∀ i (h : i < pieces.length), pieces[i] = (l.drop (i * step)).take pieces[i].length
  rebuild : pieces.head?.getD [] ++ pieces.tail.flatMap (·.drop (size - step)) = l
  fresh : ∀ i (h : i + 1 < pieces.length),
    i * step + pieces[i].length < (i + 1) * step + pieces[i + 1].length
  cover : ∀ start n, 1 ≤ n → n ≤ size - step + 1 → start + n ≤ l.length →
    ∃ i, ∃ h : i < pieces.length, i * step ≤ start ∧ start + n ≤ i * step + pieces[i].length

theorem strided_windows (hsize : step ≤ size) (hstep : 0 < step) : Strided size step l (windows size step l) where
  empty := windows_eq_nil
  bounds piece hpiece := by
    obtain ⟨i, hi, rfl⟩ := List.mem_map.1 hpiece
    have hstart := start_lt (List.mem_range.1 hi) hsize hstep
    rw [length_window]
    omega
  full piece hpiece := by
    obtain ⟨i, hi, rfl⟩ := List.getElem_of_mem hpiece
    rw [List.length_dropLast, length_windows] at hi
    rw [List.getElem_dropLast, getElem_windows]
    exact length_window_of_lt (by omega) hstep
  starts i hi := by
    rw [getElem_windows, length_window, window, List.take_eq_take_iff, List.length_drop]
    omega
  rebuild := windows_rebuild hsize hstep
  fresh i hi := by
    rw [length_windows] at hi
    rw [getElem_windows, getElem_windows]
    exact end_lt_end hi hstep
  cover start n hn hshort hend := by
    obtain ⟨i, hi, hstart, hreach⟩ := exists_window hn hshort hend hsize hstep
    refine ⟨i, by rwa [length_windows], hstart, ?_⟩
    rw [getElem_windows]
    exact hreach

end windows
end BankingAi
