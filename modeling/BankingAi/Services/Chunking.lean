import BankingAi.Lib.Windows
import BankingAi.Services.DocumentService

/-!
# Chunking

The chunks of a text are the strided windows of its words, joined by blanks.
-/

namespace BankingAi

section loop

variable {size step : ℕ} {words : List (List Char)}

/-- `" ".join(window)`. -/
def joinWords (window : List (List Char)) : String := .ofList ([' '].intercalate window)

/-- The loop from the `i`-th start on makes the windows from the `i`-th on. -/
theorem chunkLoop_eq (hstep : 0 < step) (hsize : step ≤ size) {i m : ℕ}
    (hi : i < windowCount size step words.length) (hm : words.length ≤ (i + m) * step) :
    chunkLoop size words ((List.range' i m).map (· * step)) =
      (List.range' i (windowCount size step words.length - i)).map fun j => joinWords (window size step words j) := by
  have hstart := start_lt hi hsize hstep
  induction m generalizing i with
  | zero =>
    rw [Nat.add_zero] at hm
    omega
  | succ m ih =>
    have hne : (words.drop (i * step)).take size ≠ [] := by
      rw [← List.length_pos_iff, List.length_take, List.length_drop]
      omega
    rw [List.range'_succ, List.map_cons, chunkLoop, if_neg hne]
    by_cases hlast : words.length ≤ i * step + size
    · have hcount : windowCount size step words.length - i = 1 := by
        have hnot := (@lt_windowCount size step words.length (i + 1) hstep).not.2 (by
          rw [Nat.add_sub_cancel]
          omega)
        omega
      rw [if_pos hlast, hcount]
      rfl
    · have hnext : i + 1 < windowCount size step words.length := by
        refine (lt_windowCount hstep).2 ⟨by omega, .inr ?_⟩
        rw [Nat.add_sub_cancel]
        omega
      have hcount : windowCount size step words.length - i = windowCount size step words.length - (i + 1) + 1 := by
        omega
      rw [if_neg hlast, ih hnext (by rwa [Nat.add_right_comm]) (start_lt hnext hsize hstep), hcount, List.range'_succ]
      rfl

end loop

variable (text : String) {size overlap : ℕ}

theorem chunkText_eq (hsize : 1 ≤ size) :
    chunkText text size overlap =
      (windows size (max 1 (size - overlap)) (Str.words text.toList)).map joinWords := by
  have hstep : 0 < max 1 (size - overlap) := by omega
  have hle : max 1 (size - overlap) ≤ size := by omega
  unfold chunkText
  dsimp only
  generalize Str.words text.toList = words
  generalize max 1 (size - overlap) = step at hstep hle
  split
  case isTrue hnil =>
    rw [windows_eq_nil.2 hnil]
    rfl
  case isFalse hne =>
    have hpos := List.length_pos_iff.2 hne
    rw [startsBelow, filter_dvd_range hstep, List.range_eq_range', windows, List.map_map, List.range_eq_range']
    refine chunkLoop_eq hstep hle (windowCount_pos hpos) ?_
    have hceil := Nat.lt_div_mul_add hstep (a := words.length + (step - 1))
    rw [Nat.zero_add]
    omega

theorem words_joinWords {window : List (List Char)} (h : ∀ w ∈ window, w ∈ Str.words text.toList) :
    Str.words (joinWords window).toList = window := by
  rw [joinWords, String.toList_ofList]
  exact Str.words_intercalate fun w hw => Str.mem_words (h w hw)

theorem words_chunkText (hsize : 1 ≤ size) :
    (chunkText text size overlap).map (fun c => Str.words c.toList) =
      windows size (max 1 (size - overlap)) (Str.words text.toList) := by
  rw [chunkText_eq text hsize, List.map_map]
  refine (List.map_congr_left fun piece hpiece => ?_).trans (List.map_id _)
  obtain ⟨i, -, rfl⟩ := List.mem_map.1 hpiece
  exact words_joinWords text fun w hw => mem_of_mem_window hw

/-- The chunks of a text are pieces of its words, each joined by blanks, that lose and reorder nothing. -/
theorem chunk_text_lossless (text : String) (size overlap : ℕ) (hsize : 1 ≤ size) :
    Strided size (max 1 (size - overlap)) (Str.words text.toList)
        ((chunkText text size overlap).map fun chunk => Str.words chunk.toList) ∧
      ∀ chunk ∈ chunkText text size overlap, chunk = joinWords (Str.words chunk.toList) := by
  refine ⟨?_, fun chunk hchunk => ?_⟩
  · rw [words_chunkText text hsize]
    exact strided_windows (by omega) (by omega)
  · rw [chunkText_eq text hsize] at hchunk
    obtain ⟨piece, hpiece, rfl⟩ := List.mem_map.1 hchunk
    obtain ⟨i, -, rfl⟩ := List.mem_map.1 hpiece
    rw [@words_joinWords text (window ..) fun w hw => mem_of_mem_window hw]

/-- With an overlap of the size, the step is one word. -/
theorem chunk_text_lossless_two :
    Strided 2 1 (Str.words "one two three".toList)
        ((chunkText "one two three" 2 2).map fun chunk => Str.words chunk.toList) ∧
      ∀ chunk ∈ chunkText "one two three" 2 2, chunk = joinWords (Str.words chunk.toList) :=
  chunk_text_lossless "one two three" 2 2 (by decide)

example : chunkText "one two three" 2 2 = ["one two", "two three"] := by decide +kernel

end BankingAi
