import Enbox.Lib.Assoc

/-! # Conjunctive filters over keyed values -/

namespace Enbox.Lib

variable {K V C : Type} [DecidableEq K]

section

variable (sat : V → C → Bool)

def clauseHolds (indexes : List (K × V)) (clause : K × C) : Bool :=
  (indexes.lookup clause.1).any fun value => sat value clause.2

def filterSetHolds (indexes : List (K × V)) (set : List (K × C)) : Bool :=
  set.all (clauseHolds sat indexes)

variable {sat} {indexes : List (K × V)} {set : List (K × C)}

theorem filterSetHolds_iff :
    filterSetHolds sat indexes set = true ↔ ∀ clause ∈ set, clauseHolds sat indexes clause = true := by
  simp [filterSetHolds]

theorem clauseHolds_iff {key : K} {clause : C} :
    clauseHolds sat indexes (key, clause) = true ↔
      ∃ value, indexes.lookup key = some value ∧ sat value clause = true := by
  unfold clauseHolds
  cases indexes.lookup key <;> simp

def HoldsExcept (sat : V → C → Bool) (key : K) (indexes : List (K × V)) (set : List (K × C)) : Prop :=
  ∀ other clause, other ≠ key → set.lookup other = some clause →
    clauseHolds sat indexes (other, clause) = true

theorem filterSetHolds_split (distinct : DistinctKeys set) (key : K) :
    filterSetHolds sat indexes set = true ↔
      (∀ clause, set.lookup key = some clause → clauseHolds sat indexes (key, clause) = true) ∧
        HoldsExcept sat key indexes set := by
  rw [filterSetHolds_iff]
  constructor
  · intro holds
    exact ⟨fun clause found => holds _ ((mem_iff_lookup distinct).mpr found),
      fun other clause _ found => holds _ ((mem_iff_lookup distinct).mpr found)⟩
  · rintro ⟨at_, others⟩ ⟨other, clause⟩ mem
    have found := (mem_iff_lookup distinct).mp mem
    by_cases same : other = key
    · subst same
      exact at_ clause found
    · exact others other clause same found

theorem holdsExcept_assocInsert {key : K} {clause : C} :
    HoldsExcept sat key indexes (assocInsert key clause set) ↔ HoldsExcept sat key indexes set := by
  refine forall₃_congr fun other clause different => ?_
  rw [lookup_assocInsert, if_neg different]

theorem holdsExcept_assocInsert_of_ne {key other : K} {clause : C} (different : other ≠ key)
    (implied : ∀ asked, set.lookup other = some asked →
      clauseHolds sat indexes (other, clause) = true → clauseHolds sat indexes (other, asked) = true) :
    HoldsExcept sat key indexes (assocInsert other clause set) ↔
      clauseHolds sat indexes (other, clause) = true ∧ HoldsExcept sat key indexes set := by
  constructor
  · intro holds
    have inserted := holds other clause different (by rw [lookup_assocInsert, if_pos rfl])
    refine ⟨inserted, fun next asked notKey found => ?_⟩
    by_cases same : next = other
    · subst same
      exact implied asked found inserted
    · exact holds next asked notKey (by rwa [lookup_assocInsert, if_neg same])
  · rintro ⟨inserted, holds⟩ next asked notKey found
    rw [lookup_assocInsert] at found
    split at found
    · rename_i same
      cases found
      rwa [same]
    · exact holds next asked notKey found

theorem filterSetHolds_assocInsert (distinct : DistinctKeys set) {key : K} {clause : C} :
    filterSetHolds sat indexes (assocInsert key clause set) = true ↔
      clauseHolds sat indexes (key, clause) = true ∧ HoldsExcept sat key indexes set := by
  rw [filterSetHolds_split (distinct.assocInsert key clause) key, holdsExcept_assocInsert,
    lookup_assocInsert, if_pos rfl]
  simp

end

end Enbox.Lib
