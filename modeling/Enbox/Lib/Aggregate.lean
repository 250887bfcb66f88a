import Mathlib.Data.Finset.SymmDiff
import Mathlib.Data.Finset.Union

/-! # Aggregates under a self-inverse operation -/

namespace Enbox.Lib

open Finset

variable {ι α : Type} [DecidableEq ι] {op : α → α → α} [Std.Commutative op] [Std.Associative op]
  {unit : α} {f : ι → α}

theorem fold_symmDiff_singleton (involutive : ∀ a b, op (op a b) b = a) (s : Finset ι) (i : ι) :
    (symmDiff s {i}).fold op unit f = op (s.fold op unit f) (f i) := by
  have comm : ∀ a b, op a b = op b a := Std.Commutative.comm
  by_cases present : i ∈ s
  · have removed : symmDiff s {i} = s.erase i := by
      ext j
      simp only [mem_symmDiff, mem_singleton, mem_erase]
      grind
    have whole : s.fold op unit f = op ((s.erase i).fold op unit f) (f i) := by
      conv_lhs => rw [← insert_erase present]
      rw [fold_insert (notMem_erase i s), comm]
    rw [removed, whole, involutive]
  · have added : symmDiff s {i} = insert i s := by
      ext j
      simp only [mem_symmDiff, mem_singleton, mem_insert]
      grind
    rw [added, fold_insert present, comm]

theorem fold_union (neutral : ∀ a, op a unit = a) {s t : Finset ι} (disjoint : Disjoint s t) :
    (s ∪ t).fold op unit f = op (s.fold op unit f) (t.fold op unit f) := by
  have whole : (s.disjUnion t disjoint).fold op (op unit unit) f =
    op (s.fold op unit f) (t.fold op unit f) := fold_disjUnion disjoint
  rwa [neutral, disjUnion_eq_union] at whole

theorem fold_family {κ : Type} (neutral : ∀ a, op a unit = a) {members : κ → Finset ι}
    {indices : Finset κ} (disjoint : (indices : Set κ).PairwiseDisjoint members) :
    indices.fold op unit (fun k => (members k).fold op unit f) =
      (indices.biUnion members).fold op unit f := by
  have whole : (indices.disjiUnion members disjoint).fold op (indices.fold op unit fun _ => unit) f =
    indices.fold op unit fun k => (members k).fold op unit f := fold_disjiUnion disjoint
  have units : (indices.fold op unit fun _ => unit) = unit := by
    classical
    rw [fold_const unit (by rw [neutral, neutral]), neutral, ite_self]
  rw [← whole, units, disjiUnion_eq_biUnion]

theorem foldl_eq_fold_toFinset {indices : List ι} (distinct : indices.Nodup) :
    indices.foldl (fun total i => op total (f i)) unit = indices.toFinset.fold op unit f := by
  rw [Finset.fold, List.toFinset_val, distinct.dedup, Multiset.map_coe, Multiset.coe_fold_l,
    List.foldl_map]

end Enbox.Lib
