import Mathlib.Data.List.Basic

/-! # Maps kept as association lists -/

namespace Enbox.Lib

open List

variable {K V : Type} [DecidableEq K]

def assocErase (key : K) (entries : List (K × V)) : List (K × V) := entries.filter (·.1 ≠ key)

def assocInsert (key : K) (value : V) (entries : List (K × V)) : List (K × V) :=
  (key, value) :: entries.filter (·.1 ≠ key)

def DistinctKeys (entries : List (K × V)) : Prop := (entries.map Prod.fst).Nodup

def assocInsertAll (inserted entries : List (K × V)) : List (K × V) :=
  inserted.foldl (fun map entry => assocInsert entry.1 entry.2 map) entries

theorem mem_assocInsert_self (key : K) (value : V) (entries : List (K × V)) :
    (key, value) ∈ assocInsert key value entries := mem_cons_self

theorem mem_assocInsert_of_ne {key : K} {entry : K × V} (different : entry.1 ≠ key) (value : V)
    {entries : List (K × V)} (mem : entry ∈ entries) : entry ∈ assocInsert key value entries :=
  mem_cons_of_mem _ (mem_filter.mpr ⟨mem, by simpa using different⟩)

theorem DistinctKeys.assocInsert {entries : List (K × V)} (distinct : DistinctKeys entries) (key : K)
    (value : V) : DistinctKeys (assocInsert key value entries) := by
  refine nodup_cons.mpr ⟨?_, distinct.sublist (filter_sublist.map _)⟩
  simp [mem_map, mem_filter]

theorem DistinctKeys.assocInsertAll {entries : List (K × V)} (distinct : DistinctKeys entries)
    (inserted : List (K × V)) : DistinctKeys (assocInsertAll inserted entries) := by
  induction inserted generalizing entries with
  | nil => exact distinct
  | cons entry rest ih => exact ih (distinct.assocInsert entry.1 entry.2)

section

variable [BEq K] [LawfulBEq K]

theorem lookup_cons_eq_ite (key other : K) (value : V) (entries : List (K × V)) :
    List.lookup other ((key, value) :: entries) =
      if other = key then some value else entries.lookup other := by
  rw [lookup_cons]
  split
  · rename_i same
    rw [if_pos (beq_iff_eq.mp same)]
  · rename_i different
    rw [if_neg (beq_eq_false_iff_ne.mp different)]

theorem lookup_optional {α : Type} (key other : K) (wrap : α → V) (value : Option α) :
    (value.map fun v => (key, wrap v)).toList.reverse.lookup other =
      if other = key then value.map wrap else none := by
  cases value <;> simp [lookup_cons_eq_ite]

theorem lookup_assocErase (key other : K) (entries : List (K × V)) :
    (assocErase key entries).lookup other =
      if other = key then none else entries.lookup other := by
  induction entries with
  | nil => simp [assocErase]
  | cons entry rest ih =>
    obtain ⟨first, found⟩ := entry
    rw [assocErase, filter_cons]
    change (if _ then _ :: assocErase key rest else assocErase key rest).lookup other = _
    split
    · rename_i different
      rw [lookup_cons_eq_ite, lookup_cons_eq_ite, ih]
      grind
    · rename_i same
      rw [ih, lookup_cons_eq_ite]
      grind

theorem lookup_assocInsert (key other : K) (value : V) (entries : List (K × V)) :
    (assocInsert key value entries).lookup other =
      if other = key then some value else entries.lookup other := by
  rw [assocInsert, lookup_cons_eq_ite]
  change (if other = key then some value else (assocErase key entries).lookup other) = _
  rw [lookup_assocErase]
  split <;> rfl

theorem lookup_assocInsertAll (inserted entries : List (K × V)) (key : K) :
    (assocInsertAll inserted entries).lookup key =
      (inserted.reverse.lookup key).or (entries.lookup key) := by
  induction inserted generalizing entries with
  | nil => rfl
  | cons entry rest ih =>
    change (assocInsertAll rest (assocInsert entry.1 entry.2 entries)).lookup key = _
    rw [ih, lookup_assocInsert, reverse_cons, lookup_append, Option.or_assoc,
      lookup_cons_eq_ite]
    split <;> simp

theorem mem_of_lookup {entries : List (K × V)} {key : K} {value : V}
    (found : entries.lookup key = some value) : (key, value) ∈ entries := by
  induction entries with
  | nil => cases found
  | cons entry rest ih =>
    rw [lookup_cons_eq_ite] at found
    split at found
    · rename_i same
      cases found
      exact same ▸ mem_cons_self
    · exact mem_cons_of_mem _ (ih found)

theorem lookup_of_functional {entries : List (K × V)} {key : K} {value : V}
    (listed : (key, value) ∈ entries)
    (functional : ∀ other, (key, other) ∈ entries → other = value) :
    entries.lookup key = some value := by
  cases found : entries.lookup key with
  | some other => rw [functional other (mem_of_lookup found)]
  | none => simpa using lookup_eq_none_iff.mp found _ listed

theorem mem_iff_lookup {entries : List (K × V)} (distinct : DistinctKeys entries) {key : K}
    {value : V} : (key, value) ∈ entries ↔ entries.lookup key = some value := by
  induction entries with
  | nil => simp
  | cons entry rest ih =>
    obtain ⟨first, found⟩ := entry
    obtain ⟨fresh, others⟩ := nodup_cons.mp distinct
    rw [mem_cons, lookup_cons_eq_ite, Prod.mk.injEq, ih others]
    split
    · rename_i same
      subst same
      have absent : rest.lookup key ≠ some value := fun later =>
        fresh (mem_map.mpr ⟨_, (ih others).mpr later, rfl⟩)
      simp [absent, eq_comm]
    · rename_i different
      simp [different]

theorem lookup_map_entries {W : Type} (f : K → V → W) (entries : List (K × V)) (key : K) :
    (entries.map fun entry => (entry.1, f entry.1 entry.2)).lookup key =
      (entries.lookup key).map (f key) := by
  induction entries with
  | nil => rfl
  | cons entry rest ih =>
    rw [map_cons, lookup_cons_eq_ite, ih, lookup_cons_eq_ite]
    split
    · rename_i same
      rw [same]
      rfl
    · rfl

theorem lookup_filterMap_values {W : Type} (f : V → Option W) {entries : List (K × V)}
    (distinct : DistinctKeys entries) (key : K) :
    (entries.filterMap fun entry => (f entry.2).map fun value => (entry.1, value)).lookup key =
      (entries.lookup key).bind f := by
  induction entries with
  | nil => rfl
  | cons entry rest ih =>
    obtain ⟨fresh, others⟩ := nodup_cons.mp distinct
    rw [filterMap_cons, lookup_cons_eq_ite]
    cases kept : f entry.2 with
    | none =>
      simp only [Option.map_none, ih others]
      split
      · rename_i same
        have absent : rest.lookup key = none := by
          rw [lookup_eq_none_iff]
          intro other listed
          refine bne_iff_ne.mpr fun sameKey => fresh ?_
          rw [← same, sameKey]
          exact mem_map_of_mem listed
        simp [absent, kept]
      · rfl
    | some value =>
      simp only [Option.map_some, lookup_cons_eq_ite, ih others]
      split
      · exact kept.symm
      · rfl

end

end Enbox.Lib
