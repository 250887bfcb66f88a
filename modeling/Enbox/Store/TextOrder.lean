import Enbox.Store.Index
import Mathlib.Data.List.Sort
import Mathlib.Data.String.Basic

/-! # The order of texts -/

namespace Enbox

variable {text : String} {texts : List String} {set : TextSet}

theorem compareChars_eq_iff (a b : List Char) :
    (compareText.compareChars a b = .lt ↔ a < b) ∧ (compareText.compareChars a b = .eq ↔ a = b) := by
  induction a generalizing b with
  | nil => cases b <;> simp [compareText.compareChars]
  | cons x xs ih =>
    cases b with
    | nil => simp [compareText.compareChars]
    | cons y ys =>
      rw [compareText.compareChars, Ordering.then_eq_lt, Ordering.then_eq_eq, Nat.compare_eq_lt,
        Nat.compare_eq_eq, (ih ys).1, (ih ys).2, List.cons_lt_cons_iff, List.cons.injEq,
        Char.toNat_inj]
      exact ⟨Iff.rfl, Iff.rfl⟩

theorem compareText_eq_compare (a b : String) : compareText a b = compare a b := by
  obtain ⟨lt, eq⟩ := compareChars_eq_iff a.toList b.toList
  rw [← String.lt_iff_toList_lt] at lt
  rw [String.toList_inj] at eq
  rw [show compare a b = compareOfLessAndEq a b from rfl, compareOfLessAndEq]
  unfold compareText
  split
  · exact lt.mpr ‹_›
  · split
    · exact eq.mpr ‹_›
    · cases order : compareText.compareChars a.toList b.toList with
      | gt => rfl
      | lt => exact absurd (lt.mp order) ‹_›
      | eq => exact absurd (eq.mp order) ‹_›

/-- A `BTreeSet<String>`: its texts in increasing order. -/
structure TextSet where
  texts : List String
  sorted : texts.Pairwise (· < ·)
  deriving DecidableEq

def insertText (text : String) : List String → List String
  | [] => [text]
  | first :: rest =>
      match compareText text first with
      | .lt => text :: first :: rest
      | .eq => first :: rest
      | .gt => first :: insertText text rest

theorem mem_insertText {other : String} :
    other ∈ insertText text texts ↔ other = text ∨ other ∈ texts := by
  fun_induction insertText text texts with
  | case1 => simp
  | case2 first rest order => simp
  | case3 first rest order =>
    rw [compareText_eq_compare, compare_eq_iff_eq] at order
    simp [order]
  | case4 first rest order ih =>
    simp only [List.mem_cons, ih]
    tauto

theorem pairwise_insertText (sorted : texts.Pairwise (· < ·)) :
    (insertText text texts).Pairwise (· < ·) := by
  fun_induction insertText text texts with
  | case1 => simp
  | case2 first rest order =>
    rw [compareText_eq_compare, compare_lt_iff_lt] at order
    refine List.pairwise_cons.mpr ⟨fun other listed => ?_, sorted⟩
    rcases List.mem_cons.mp listed with rfl | later
    · exact order
    · exact order.trans ((List.pairwise_cons.mp sorted).1 other later)
  | case3 first rest order => exact sorted
  | case4 first rest order ih =>
    rw [compareText_eq_compare, compare_gt_iff_gt] at order
    obtain ⟨below, rest⟩ := List.pairwise_cons.mp sorted
    refine List.pairwise_cons.mpr ⟨fun other listed => ?_, ih rest⟩
    rcases mem_insertText.mp listed with rfl | later
    · exact order
    · exact below other later

namespace TextSet

def empty : TextSet := ⟨[], .nil⟩

def insert (set : TextSet) (text : String) : TextSet :=
  ⟨insertText text set.texts, pairwise_insertText set.sorted⟩

def remove (set : TextSet) (text : String) : TextSet :=
  ⟨set.texts.filter (· ≠ text), set.sorted.filter _⟩

theorem mem_insert {other : String} :
    other ∈ (set.insert text).texts ↔ other = text ∨ other ∈ set.texts := mem_insertText

theorem mem_remove {other : String} :
    other ∈ (set.remove text).texts ↔ other ∈ set.texts ∧ other ≠ text := by
  simp [remove]

def ofList (texts : List String) : TextSet := texts.foldl insert empty

theorem nodup (set : TextSet) : set.texts.Nodup := set.sorted.imp ne_of_lt

theorem eq_of_mem_iff {a b : TextSet} (same : ∀ text, text ∈ a.texts ↔ text ∈ b.texts) : a = b := by
  cases a
  cases b
  rw [mk.injEq]
  exact List.Pairwise.eq_of_mem_iff ‹_› ‹_› (fun {text} => same text)

theorem mem_ofList :
    text ∈ (ofList texts).texts ↔ text ∈ texts := by
  have mem_foldl (set : TextSet) : text ∈ (texts.foldl insert set).texts ↔
      text ∈ texts ∨ text ∈ set.texts := by
    induction texts generalizing set with
    | nil => simp
    | cons first rest ih =>
      rw [List.foldl_cons, ih, mem_insert, List.mem_cons]
      tauto
  simp [ofList, mem_foldl, empty]

end TextSet

end Enbox
