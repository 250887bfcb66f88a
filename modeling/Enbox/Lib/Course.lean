import Mathlib.Data.List.Range

/-! # Consumers of a log -/

namespace Enbox.Lib

open List

section

variable {α : Type} {f : Nat → Option α} {first last : Nat}

def window (f : Nat → Option α) (first last : Nat) : List α :=
  (List.range' (first + 1) (last - first)).filterMap f

theorem window_of_le (done : last ≤ first) : window f first last = [] := by
  rw [window, Nat.sub_eq_zero_of_le done]
  rfl

theorem window_of_lt (more : first < last) :
    window f first last = (f (first + 1)).toList ++ window f (first + 1) last := by
  obtain ⟨count, rfl⟩ := Nat.exists_eq_add_of_lt more
  have here : first + count + 1 - first = count + 1 := by omega
  have after : first + count + 1 - (first + 1) = count := by omega
  rw [window, window, here, after, range'_succ, filterMap_cons]
  cases f (first + 1) <;> rfl

theorem window_eq_nil (empty : window f first last = []) {position : Nat} (after : first < position)
    (within : position ≤ last) : f position = none :=
  filterMap_eq_nil_iff.mp empty position (mem_range'_1.mpr ⟨after, by omega⟩)

theorem window_eq_cons {item : α} {rest : List α} (count : Nat) :
    ∀ {first}, last - first = count → window f first last = item :: rest →
      ∃ position, first < position ∧ position ≤ last ∧ f position = some item ∧
        (∀ earlier, first < earlier → earlier < position → f earlier = none) ∧
        rest = window f position last := by
  induction count with
  | zero =>
    intro first done shown
    rw [window_of_le (Nat.sub_eq_zero_iff_le.mp done)] at shown
    cases shown
  | succ count ih =>
    intro first more shown
    rw [window_of_lt (by omega)] at shown
    cases here : f (first + 1) with
    | some head =>
      rw [here] at shown
      cases shown
      exact ⟨first + 1, by omega, by omega, here, fun earlier _ _ => by omega, rfl⟩
    | none =>
      rw [here] at shown
      obtain ⟨position, after, within, isItem, nothing, isRest⟩ := ih (by omega) shown
      refine ⟨position, by omega, within, isItem, fun earlier later before => ?_, isRest⟩
      by_cases next : earlier = first + 1
      · rw [next, here]
      · exact nothing earlier (by omega) before

end

structure Course (Log : Type) where
  start : Nat
  reached : Nat
  handed : List Nat := []
  passed : Nat → Option Log := fun _ => none

namespace Course

variable {Log : Type}

def startAt (position : Nat) : Course Log := { start := position, reached := position }

def pass (course : Course Log) (log : Log) (position : Nat) : Course Log :=
  { course with
    reached := position
    passed := fun other =>
      if course.reached < other ∧ other ≤ position then some log else course.passed other }

def hand (course : Course Log) (log : Log) (position : Nat) : Course Log :=
  { course.pass log position with handed := course.handed ++ [position] }

structure Exact (shown : Log → Nat → Prop) (course : Course Log) : Prop where
  begun : course.start ≤ course.reached
  increasing : course.handed.Pairwise (· < ·)
  within : ∀ position ∈ course.handed, course.start < position ∧ position ≤ course.reached
  passed : ∀ position, course.start < position → position ≤ course.reached →
    ∃ log, course.passed position = some log ∧ (position ∈ course.handed ↔ shown log position)

variable {shown : Log → Nat → Prop} {course : Course Log} {log : Log} {position : Nat}

theorem Exact.startAt (position : Nat) : Exact shown (.startAt position) where
  begun := le_rfl
  increasing := List.Pairwise.nil
  within _ listed := by cases listed
  passed _ after before := absurd after before.not_gt

theorem Exact.extend (exact : course.Exact shown) (ahead : course.reached ≤ position)
    (more : List Nat) (increasing : more.Pairwise (· < ·))
    (between : ∀ other ∈ more, course.reached < other ∧ other ≤ position)
    (same : ∀ other, course.reached < other → other ≤ position → (other ∈ more ↔ shown log other)) :
    Exact shown { course.pass log position with handed := course.handed ++ more } where
  begun := exact.begun.trans ahead
  increasing := pairwise_append.mpr ⟨exact.increasing, increasing, fun other listed later new =>
    (exact.within other listed).2.trans_lt (between later new).1⟩
  within other listed := by
    rcases mem_append.mp listed with old | new
    · exact ⟨(exact.within other old).1, (exact.within other old).2.trans ahead⟩
    · exact ⟨exact.begun.trans_lt (between other new).1, (between other new).2⟩
  passed other after before := by
    rw [mem_append]
    by_cases new : course.reached < other
    · refine ⟨log, if_pos ⟨new, before⟩, (or_iff_right fun old => ?_).trans (same other new before)⟩
      exact new.not_ge (exact.within other old).2
    · obtain ⟨old, wasPassed, wasShown⟩ := exact.passed other after (not_lt.mp new)
      refine ⟨old, (if_neg fun both => new both.1).trans wasPassed, ?_⟩
      exact (or_iff_left fun added => new (between other added).1).trans wasShown

theorem Exact.pass (exact : course.Exact shown) (ahead : course.reached ≤ position)
    (nothing : ∀ other, course.reached < other → other ≤ position → ¬ shown log other) :
    (course.pass log position).Exact shown := by
  have extended := exact.extend ahead [] .nil (by simp) (by simpa using nothing)
  rwa [append_nil] at extended

theorem Exact.hand (exact : course.Exact shown) (ahead : course.reached < position)
    (here : shown log position)
    (nothing : ∀ other, course.reached < other → other < position → ¬ shown log other) :
    (course.hand log position).Exact shown := by
  refine exact.extend ahead.le [position] (pairwise_singleton _ _) (by simpa using ahead) ?_
  intro other later before
  rw [mem_singleton]
  rcases before.eq_or_lt with rfl | earlier
  · exact iff_of_true rfl here
  · exact iff_of_false earlier.ne (nothing other later earlier)

theorem Exact.before (exact : course.Exact shown) {before after : List Nat}
    (split : course.handed = before ++ position :: after) {other : Nat} (later : course.start < other)
    (earlier : other < position) :
    ∃ log, course.passed other = some log ∧ (other ∈ before ↔ shown log other) := by
  have listed : position ∈ course.handed := by simp [split]
  obtain ⟨log, wasPassed, same⟩ :=
    exact.passed other later (earlier.le.trans (exact.within position listed).2)
  refine ⟨log, wasPassed, Iff.trans ⟨fun first => ?_, fun any => ?_⟩ same⟩
  · rw [split]
    exact mem_append_left _ first
  · have increasing := exact.increasing
    rw [split] at any increasing
    rcases mem_append.mp any with first | rest
    · exact first
    · rcases mem_cons.mp rest with isPosition | last
      · exact absurd earlier (isPosition ▸ lt_irrefl _)
      · have order := (pairwise_cons.mp (pairwise_append.mp increasing).2.1).1 other last
        exact absurd earlier order.not_gt

end Course

end Enbox.Lib
