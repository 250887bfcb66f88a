import Mathlib.Data.List.Sort

/-! # The least members of a list -/

namespace Enbox.Lib

open List

variable {α : Type} [LinearOrder α]

def least (count : Nat) (xs : List α) : List α := (xs.insertionSort (· ≤ ·)).take count

theorem mem_of_mem_least {count : Nat} {xs : List α} {x : α} (kept : x ∈ least count xs) :
    x ∈ xs := (mem_insertionSort _).mp (mem_of_mem_take kept)

theorem least_eq_of_perm {xs ys : List α} (same : xs.Perm ys) (count : Nat) :
    least count xs = least count ys := by
  have sorted : xs.insertionSort (· ≤ ·) = ys.insertionSort (· ≤ ·) := by
    apply List.Perm.eq_of_pairwise' (pairwise_insertionSort _ xs)
      (pairwise_insertionSort _ ys)
    exact (perm_insertionSort _ xs).trans (same.trans (perm_insertionSort _ ys).symm)
  rw [least, least, sorted]

theorem mem_take_iff {xs : List α} (sorted : xs.Pairwise (· < ·)) {count : Nat} {x : α} :
    x ∈ xs.take count ↔ x ∈ xs ∧ xs.countP (· < x) < count := by
  induction xs generalizing count with
  | nil => simp
  | cons first rest ih =>
    obtain ⟨below, rest⟩ := pairwise_cons.mp sorted
    cases count with
    | zero => simp
    | succ count =>
      rw [take_succ_cons, mem_cons, mem_cons, ih rest, countP_cons]
      by_cases isFirst : x = first
      · subst isFirst
        have none : List.countP (· < x) _ = 0 :=
          countP_eq_zero.mpr fun y listed => by simpa using (below y listed).le
        simp [none]
      · constructor
        · rintro (same | ⟨listed, few⟩)
          · exact absurd same isFirst
          · exact ⟨.inr listed, by split <;> omega⟩
        · rintro ⟨same | listed, few⟩
          · exact absurd same isFirst
          · rw [if_pos (by simpa using below x listed)] at few
            exact .inr ⟨listed, by omega⟩

theorem mem_least_iff {xs : List α} (distinct : xs.Nodup) {count : Nat} {x : α} :
    x ∈ least count xs ↔ x ∈ xs ∧ xs.countP (· < x) < count := by
  have perm := perm_insertionSort (· ≤ ·) xs
  have sorted : (xs.insertionSort (· ≤ ·)).Pairwise (· < ·) :=
    ((pairwise_insertionSort _ xs).and (perm.nodup_iff.mpr distinct)).imp
      fun both => lt_of_le_of_ne both.1 both.2
  rw [least, mem_take_iff sorted, perm.mem_iff, perm.countP_eq]

theorem length_filter_mem_least {xs : List α} (distinct : xs.Nodup) (count : Nat) :
    (xs.filter (· ∈ least count xs)).length = min count xs.length := by
  have kept : (least count xs).Nodup :=
    ((perm_insertionSort _ xs).nodup_iff.mpr distinct).sublist (take_sublist _ _)
  have same : (xs.filter (· ∈ least count xs)).Perm (least count xs) := by
    rw [perm_ext_iff_of_nodup (distinct.filter _) kept]
    intro x
    simp only [mem_filter, decide_eq_true_eq, and_iff_right_iff_imp]
    exact mem_of_mem_least
  rw [same.length_eq]
  simp [least]

theorem lt_of_mem_least {xs : List α} (distinct : xs.Nodup) {count : Nat} {x y : α}
    (kept : x ∈ least count xs) (listed : y ∈ xs) (left : y ∉ least count xs) : x < y := by
  by_contra above
  rw [mem_least_iff distinct] at kept left
  have fewer : xs.countP (· < y) ≤ xs.countP (· < x) :=
    countP_mono_left fun z _ before => by
      simp only [decide_eq_true_eq] at before ⊢
      exact before.trans_le (not_lt.mp above)
  exact left ⟨listed, by omega⟩

theorem mem_least_iff_le {xs : List α} (distinct : xs.Nodup) {count : Nat} {x last : α}
    (cutoff : (least count xs).getLast? = some last) (listed : x ∈ xs) :
    x ∈ least count xs ↔ x ≤ last := by
  constructor
  · intro kept
    have sorted : (least count xs).Pairwise (· ≤ ·) := (pairwise_insertionSort _ xs).take
    obtain ⟨earlier, whole⟩ := List.getLast?_eq_some_iff.mp cutoff
    rw [whole] at sorted kept
    rcases mem_append.mp kept with earlier | isLast
    · exact (pairwise_append.mp sorted).2.2 x earlier last (mem_singleton_self last)
    · exact (mem_singleton.mp isLast).le
  · intro upTo
    by_contra left
    exact absurd (lt_of_mem_least distinct (mem_of_getLast? cutoff) listed left) upTo.not_gt

theorem mem_least_of_cons {xs : List α} {added x : α} (distinct : (added :: xs).Nodup) {count : Nat}
    (kept : x ∈ least count (added :: xs)) : x = added ∨ x ∈ least count xs := by
  rw [mem_least_iff distinct, mem_cons, countP_cons] at kept
  rw [mem_least_iff (nodup_cons.mp distinct).2]
  obtain ⟨same | listed, few⟩ := kept
  · exact .inl same
  · exact .inr ⟨listed, by omega⟩

end Enbox.Lib
