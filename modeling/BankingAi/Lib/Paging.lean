import Mathlib.Data.List.Forall2
import Mathlib.Data.List.Nodup
import Mathlib.Data.List.Perm.Basic
import Mathlib.Order.Basic
import Mathlib.Order.Lattice
import Mathlib.Tactic.ByContra
import Mathlib.Tactic.Ring

/-!
# Ordered queries and their pages

A merge sort keeps elements that compare both ways in their order, and the first elements of the sorted list
compare with all the later ones.

A query answers with its rows in an order that respects a key; rows of one key may come in another order each time.
The pages of a run of such queries fit together, however they are answered, exactly if the rows of one key never
spread over two pages.
-/

namespace BankingAi

/-! ### Stable rankings -/

section ranking

variable {α : Type} {le : α → α → Bool} {R : α → α → Prop} {l : List α}

/-- What holds of elements in their order still holds of those that compare both ways. -/
theorem pairwise_mergeSort_stable (trans : ∀ a b c, le a b → le b c → le a c)
    (total : ∀ a b, le a b || le b a) (hl : l.Pairwise R) :
    (l.mergeSort le).Pairwise fun a b => le a b = true ∧ (le b a = true → R a b) := by
  have hperm := l.zipIdx.mergeSort_perm (List.zipIdxLE le)
  have hsorted := List.pairwise_mergeSort (List.zipIdxLE_trans trans) (List.zipIdxLE_total total) l.zipIdx
  have hdistinct : (l.zipIdx.mergeSort (List.zipIdxLE le)).Pairwise fun p q => p.2 ≠ q.2 := by
    refine List.pairwise_map.1 ((hperm.map Prod.snd).nodup_iff.2 ?_)
    rw [List.zipIdx_map_snd]
    exact List.nodup_range'
  rw [← List.mergeSort_zipIdx, List.pairwise_map]
  refine (hsorted.and hdistinct).imp_of_mem fun {p q} hp hq h => ?_
  obtain ⟨hle, hne⟩ := h
  have hp := List.mem_zipIdx_iff_getElem?.1 (hperm.mem_iff.1 hp)
  have hq := List.mem_zipIdx_iff_getElem?.1 (hperm.mem_iff.1 hq)
  obtain ⟨hpl, hpeq⟩ := List.getElem?_eq_some_iff.1 hp
  obtain ⟨hql, hqeq⟩ := List.getElem?_eq_some_iff.1 hq
  unfold List.zipIdxLE at hle
  by_cases hpq : le p.1 q.1 = true
  · refine ⟨hpq, fun hqp => ?_⟩
    rw [if_pos hpq, if_pos hqp, decide_eq_true_iff] at hle
    rw [← hpeq, ← hqeq]
    exact List.pairwise_iff_getElem.1 hl p.2 q.2 hpl hql (by omega)
  · rw [if_neg hpq] at hle
    exact absurd hle Bool.false_ne_true

/-- Elements that are left out of the first `n` compare with those that are not. -/
theorem rel_of_take {l : List α} (hl : l.Pairwise R) {n : ℕ} {a b : α} (ha : a ∈ l.take n) (hb : b ∈ l)
    (hout : b ∉ l.take n) : R a b := by
  rw [← List.take_append_drop n l] at hl hb
  exact (List.pairwise_append.1 hl).2.2 a ha b ((List.mem_append.1 hb).resolve_left hout)

/-- Lists that agree, under orders that agree on them, agree when they are sorted. -/
theorem forall₂_mergeSort {β : Type} {R : α → β → Prop} {le' : β → β → Bool} {l' : List β}
    (hle : ∀ a b a' b', R a b → R a' b' → le a a' = le' b b') (h : List.Forall₂ R l l') :
    List.Forall₂ R (l.mergeSort le) (l'.mergeSort le') := by
  obtain ⟨hlength, hzip⟩ := List.forall₂_iff_zip.1 h
  have hpairs : ∀ q ∈ l.zip l', R q.1 q.2 := fun q hq => hzip hq
  have hleft : ((l.zip l').mergeSort fun p q => le p.1 q.1).map Prod.fst = l.mergeSort le := by
    rw [List.map_mergeSort (s := le) fun _ _ _ _ => rfl, List.map_fst_zip (Nat.le_of_eq hlength)]
  have hright : ((l.zip l').mergeSort fun p q => le p.1 q.1).map Prod.snd = l'.mergeSort le' := by
    rw [List.map_mergeSort (s := le') fun p hp q hq => hle _ _ _ _ (hpairs p hp) (hpairs q hq),
      List.map_snd_zip (Nat.le_of_eq hlength.symm)]
  rw [← hleft, ← hright, List.forall₂_map_left_iff, List.forall₂_map_right_iff, List.forall₂_same]
  exact fun q hq => hpairs q (List.mem_mergeSort.1 hq)

end ranking

namespace Paging

variable {α κ : Type} [LinearOrder κ] (key : α → κ)

structure Answers (rows answer : List α) : Prop where
  perm : answer.Perm rows
  sorted : answer.Pairwise fun a b => key a ≤ key b

/-- `LIMIT size OFFSET i * size`. -/
def page (answer : List α) (size i : ℕ) : List α := (answer.drop (i * size)).take size

def pages (total size : ℕ) : ℕ := (total + size - 1) / size

/-- The pages of the answers make up the rows, and there is nothing behind them. -/
structure Enumerates (rows : List α) (size : ℕ) (answers : ℕ → List α) : Prop where
  once : ((List.range (pages rows.length size)).flatMap fun i => page (answers i) size i).Perm rows
  behind : ∀ i, pages rows.length size ≤ i → page (answers i) size i = []

/-- How many rows have a smaller key. -/
def before (rows : List α) (a : α) : ℕ := rows.countP fun b => key b < key a

/-- How many rows have no larger key. -/
def upTo (rows : List α) (a : α) : ℕ := rows.countP fun b => key b ≤ key a

/-- The rows of one key are on one page. -/
def Aligned (size : ℕ) (rows : List α) : Prop :=
  ∀ a ∈ rows, before key rows a / size = (upTo key rows a - 1) / size

instance (size : ℕ) (rows : List α) : Decidable (Aligned key size rows) :=
  inferInstanceAs (Decidable (∀ a ∈ rows, _))

variable {key} {rows answer l : List α} {size i p : ℕ} {a : α}

/-- The first elements of a sorted list are those of a downward closed set. -/
theorem lt_countP_iff {q : α → Bool} (hl : l.Pairwise fun a b => key a ≤ key b)
    (hq : ∀ a b, key a ≤ key b → q b = true → q a = true) (ha : l[p]? = some a) : p < l.countP q ↔ q a = true := by
  induction l generalizing p with
  | nil => simp at ha
  | cons x l ih =>
    obtain ⟨hx, hl⟩ := List.pairwise_cons.1 hl
    by_cases hqx : q x = true
    · rw [List.countP_cons_of_pos hqx]
      rcases p with _ | p
      · cases ha
        simp [hqx]
      · rw [← ih hl (by simpa using ha)]
        omega
    · have hnone : ∀ y ∈ l, ¬ q y = true := fun y hy hqy => hqx (hq x y (hx y hy) hqy)
      rw [List.countP_cons_of_neg hqx, List.countP_eq_zero.2 hnone]
      rcases p with _ | p
      · cases ha
        simp [hqx]
      · simp [hnone a (List.mem_of_getElem? (by simpa using ha))]

/-- Rows of increasing keys have one answer. -/
theorem Answers.eq (h : Answers key rows answer) (hrows : rows.Pairwise fun a b => key a < key b) : answer = rows := by
  have hkeys : (rows.map key).Nodup := List.pairwise_map.2 (hrows.imp ne_of_lt)
  refine h.perm.eq_of_pairwise (fun a b ha hb hab hba => ?_) h.sorted (hrows.imp le_of_lt)
  exact List.inj_on_of_nodup_map hkeys (h.perm.mem_iff.1 ha) hb (le_antisymm hab hba)

theorem Answers.place (h : Answers key rows answer) {b : α} (hb : answer[p]? = some b) (a : α) :
    (p < before key rows a ↔ key b < key a) ∧ (p < upTo key rows a ↔ key b ≤ key a) := by
  unfold before upTo
  rw [← h.perm.countP_eq, ← h.perm.countP_eq, lt_countP_iff h.sorted (fun c d hcd hd => ?_) hb,
    lt_countP_iff h.sorted (fun c d hcd hd => ?_) hb]
  · simp
  · exact decide_eq_true (hcd.trans (of_decide_eq_true hd))
  · exact decide_eq_true (lt_of_le_of_lt hcd (of_decide_eq_true hd))

theorem mem_page (hsize : 0 < size) : a ∈ page answer size i ↔ ∃ p, answer[p]? = some a ∧ p / size = i := by
  have hplace : ∀ p, p / size = i ↔ i * size ≤ p ∧ p < i * size + size := by
    intro p
    rw [Nat.div_eq_iff hsize]
    have : 0 < size := hsize
    omega
  unfold page
  rw [List.mem_iff_getElem?]
  constructor
  · rintro ⟨n, hn⟩
    rw [List.getElem?_take, List.getElem?_drop] at hn
    split at hn
    · exact ⟨i * size + n, hn, (hplace _).2 (by omega)⟩
    · cases hn
  · rintro ⟨p, hp, hi⟩
    obtain ⟨hle, hlt⟩ := (hplace p).1 hi
    refine ⟨p - i * size, ?_⟩
    rw [List.getElem?_take, List.getElem?_drop, if_pos (by omega), Nat.add_sub_cancel' hle, hp]

theorem lt_pages {total : ℕ} (hsize : 0 < size) : i < pages total size ↔ i * size < total := by
  unfold pages
  rw [Nat.lt_div_iff_mul_lt hsize]
  omega

theorem page_eq_nil (hsize : 0 < size) (hlength : answer.length = rows.length) (hi : pages rows.length size ≤ i) :
    page answer size i = [] := by
  have hle : ¬ i * size < rows.length := fun hlt => absurd ((lt_pages hsize).2 hlt) (not_lt.2 hi)
  unfold page
  rw [List.drop_of_length_le (by omega), List.take_nil]

theorem flatMap_page (answer : List α) (size n : ℕ) :
    (List.range n).flatMap (page answer size) = answer.take (n * size) := by
  induction n with
  | zero => simp
  | succ n ih =>
    rw [List.range_succ, List.flatMap_append, ih, List.flatMap_singleton, page, Nat.succ_mul, List.take_add]

theorem flatMap_pages (hsize : 0 < size) (answer : List α) :
    (List.range (pages answer.length size)).flatMap (page answer size) = answer := by
  rw [flatMap_page]
  have hend : ¬ pages answer.length size * size < answer.length := mt (lt_pages hsize).2 (lt_irrefl _)
  exact List.take_of_length_le (not_lt.1 hend)

/-! ### Rows that are aligned -/

section aligned

variable {answers : ℕ → List α}

/-- A row whose key stays on one page is on that page of every answer. -/
theorem mem_page_iff (hsize : 0 < size) (haligned : Aligned key size rows) (h : Answers key rows answer)
    (ha : a ∈ rows) : a ∈ page answer size i ↔ before key rows a / size = i := by
  have hplace : ∀ p, answer[p]? = some a → p / size = before key rows a / size := by
    intro p hp
    obtain ⟨hbefore, hupTo⟩ := h.place hp a
    have hle : before key rows a ≤ p := not_lt.1 fun hlt => absurd (hbefore.1 hlt) (lt_irrefl _)
    have hlt : p ≤ upTo key rows a - 1 := by
      have := hupTo.2 le_rfl
      omega
    refine le_antisymm ?_ (Nat.div_le_div_right hle)
    rw [haligned a ha]
    exact Nat.div_le_div_right hlt
  rw [mem_page hsize]
  constructor
  · rintro ⟨p, hp, rfl⟩
    exact (hplace p hp).symm
  · rintro rfl
    obtain ⟨p, hp⟩ := List.mem_iff_getElem?.1 (h.perm.mem_iff.2 ha)
    exact ⟨p, hp, hplace p hp⟩

theorem enumerates_of_aligned (hsize : 0 < size) (hnd : rows.Nodup) (haligned : Aligned key size rows)
    (h : ∀ i, Answers key rows (answers i)) : Enumerates rows size answers := by
  have hrows : ∀ {i a}, a ∈ page (answers i) size i → a ∈ rows := fun {i a} ha =>
    (h i).perm.mem_iff.1 (List.mem_of_mem_drop (List.mem_of_mem_take ha))
  have honce : ((List.range (pages rows.length size)).flatMap fun i => page (answers i) size i).Nodup := by
    refine List.nodup_flatMap.2 ⟨fun i _ => ?_, List.nodup_range.imp fun {i j} hij a hi hj => hij ?_⟩
    · exact ((h i).perm.nodup_iff.2 hnd).sublist ((List.take_sublist _ _).trans (List.drop_sublist _ _))
    · rw [← (mem_page_iff hsize haligned (h i) (hrows hi)).1 hi, (mem_page_iff hsize haligned (h j) (hrows hi)).1 hj]
  refine ⟨(List.perm_ext_iff_of_nodup honce hnd).2 fun a => ?_, fun i hi => page_eq_nil hsize (h i).perm.length_eq hi⟩
  rw [List.mem_flatMap]
  constructor
  · rintro ⟨i, -, ha⟩
    exact hrows ha
  · intro ha
    have hmem := (mem_page_iff hsize haligned (h (before key rows a / size)) ha).2 rfl
    refine ⟨before key rows a / size, List.mem_range.2 ?_, hmem⟩
    obtain ⟨p, hp, hplace⟩ := (mem_page hsize).1 hmem
    have hlt := (List.getElem?_eq_some_iff.1 hp).1
    rw [(h _).perm.length_eq] at hlt
    have hdiv := Nat.div_mul_le_self p size
    rw [hplace] at hdiv
    exact (lt_pages hsize).2 (by omega)

end aligned

/-! ### Rows that are not -/

theorem Answers.swap {l₁ l₂ : List α} {x y : α} (h : Answers key rows (l₁ ++ x :: y :: l₂)) (hxy : key x = key y) :
    Answers key rows (l₁ ++ y :: x :: l₂) := by
  refine ⟨((List.Perm.swap x y l₂).append_left l₁).trans h.perm, ?_⟩
  have hsorted := List.pairwise_map.2 h.sorted
  rw [List.map_append, List.map_cons, List.map_cons, hxy] at hsorted
  refine List.pairwise_map (f := key).1 ?_
  rw [List.map_append, List.map_cons, List.map_cons, hxy]
  exact hsorted

theorem answers_mergeSort (key : α → κ) (rows : List α) :
    Answers key rows (rows.mergeSort fun a b => decide (key a ≤ key b)) := by
  refine ⟨List.mergeSort_perm _ _, ?_⟩
  have hsorted := @List.pairwise_mergeSort α (fun a b => decide (key a ≤ key b))
    (fun a b c hab hbc => decide_eq_true ((of_decide_eq_true hab).trans (of_decide_eq_true hbc)))
    (fun a b => by
      rw [Bool.or_eq_true, decide_eq_true_iff, decide_eq_true_iff]
      exact le_total _ _) rows
  exact hsorted.imp of_decide_eq_true

theorem exists_answers (key : α → κ) (rows : List α) : ∃ answer, Answers key rows answer :=
  ⟨_, answers_mergeSort key rows⟩

theorem exists_neighbours (hsize : 0 < size) (h : Answers key rows answer) (ha : a ∈ rows)
    (hspread : before key rows a / size ≠ (upTo key rows a - 1) / size) :
    ∃ l₁ x y l₂, answer = l₁ ++ x :: y :: l₂ ∧ key x = key y ∧
      l₁.length + 1 = (before key rows a / size + 1) * size := by
  obtain ⟨q, hq⟩ := List.mem_iff_getElem?.1 (h.perm.mem_iff.2 ha)
  obtain ⟨hbefore, hupTo⟩ := h.place hq a
  have hle : before key rows a ≤ q := not_lt.1 fun hlt => absurd (hbefore.1 hlt) (lt_irrefl _)
  have hlt := hupTo.2 le_rfl
  have hlength : upTo key rows a ≤ answer.length := by
    rw [h.perm.length_eq]
    exact List.countP_le_length
  -- `k` is the place behind the end of the page on which the key of `a` starts
  obtain ⟨k, hk⟩ : ∃ k, k + 1 = (before key rows a / size + 1) * size :=
    ⟨(before key rows a / size + 1) * size - 1, by
      have : 0 < (before key rows a / size + 1) * size := Nat.mul_pos (Nat.succ_pos _) hsize
      omega⟩
  have hstart : before key rows a ≤ k := by
    have := Nat.lt_div_mul_add hsize (a := before key rows a)
    rw [Nat.add_mul, Nat.one_mul] at hk
    omega
  have hend : k + 1 < upTo key rows a := by
    have hdiv : before key rows a / size + 1 ≤ (upTo key rows a - 1) / size := by
      have := Nat.div_le_div_right (c := size) (show before key rows a ≤ upTo key rows a - 1 by omega)
      omega
    have := (Nat.le_div_iff_mul_le hsize).1 hdiv
    omega
  have hkey : ∀ n (hn : n < answer.length), before key rows a ≤ n → n < upTo key rows a → key answer[n] = key a := by
    intro n hn hge hlt
    obtain ⟨hbefore, hupTo⟩ := h.place (List.getElem?_eq_getElem hn) a
    exact le_antisymm (hupTo.1 hlt) (not_lt.1 fun hsmall => absurd (hbefore.2 hsmall) (not_lt.2 hge))
  refine ⟨answer.take k, answer[k], answer[k + 1], answer.drop (k + 2), ?_, ?_, ?_⟩
  · rw [← List.drop_eq_getElem_cons, ← List.drop_eq_getElem_cons, List.take_append_drop]
  · rw [hkey k _ hstart (by omega), hkey (k + 1) _ (by omega) hend]
  · rw [List.length_take]
    omega

theorem not_enumerates (hsize : 0 < size) (hnd : rows.Nodup) (haligned : ¬ Aligned key size rows) :
    ∃ answers : ℕ → List α, (∀ i, Answers key rows (answers i)) ∧ ¬ Enumerates rows size answers := by
  unfold Aligned at haligned
  push Not at haligned
  obtain ⟨a, ha, hspread⟩ := haligned
  obtain ⟨answer, hanswer⟩ := exists_answers key rows
  obtain ⟨l₁, x, y, l₂, rfl, hxy, hlength⟩ := exists_neighbours hsize hanswer ha hspread
  generalize before key rows a / size = i at hlength
  -- `x` is last on page `i` of one answer and first on the next page of another
  refine ⟨fun j => if j ≤ i then l₁ ++ x :: y :: l₂ else l₁ ++ y :: x :: l₂, fun j => ?_, fun h => ?_⟩
  · dsimp only
    split
    · exact hanswer
    · exact hanswer.swap hxy
  · have hfirst : x ∈ page (l₁ ++ x :: y :: l₂) size i := by
      refine (mem_page hsize).2 ⟨l₁.length, by simp, ?_⟩
      rw [Nat.div_eq_iff hsize]
      rw [Nat.add_mul] at hlength
      omega
    have hsecond : x ∈ page (l₁ ++ y :: x :: l₂) size (i + 1) := by
      refine (mem_page hsize).2 ⟨l₁.length + 1, by simp, ?_⟩
      rw [hlength, Nat.mul_div_cancel _ hsize]
    have hpage : i + 1 < pages rows.length size := by
      rw [lt_pages hsize, ← hlength, ← hanswer.perm.length_eq]
      simp
    have hdisjoint := (List.nodup_flatMap.1 (h.once.nodup_iff.2 hnd)).2
    have hneighbours := List.pairwise_iff_getElem.1 hdisjoint i (i + 1) (by simp; omega) (by simp; omega) (by omega)
    refine @hneighbours x ?_ ?_
    · simpa using hfirst
    · simpa using hsecond

theorem enumerates_iff (hsize : 0 < size) (hnd : rows.Nodup) :
    (∀ answers : ℕ → List α, (∀ i, Answers key rows (answers i)) → Enumerates rows size answers) ↔
      Aligned key size rows := by
  constructor
  · intro h
    by_contra haligned
    obtain ⟨answers, hanswers, hnot⟩ := not_enumerates hsize hnd haligned
    exact hnot (h answers hanswers)
  · exact fun haligned answers => enumerates_of_aligned hsize hnd haligned

end Paging
end BankingAi
