import Mathlib.Data.List.Basic

/-! # Lineages -/

namespace Enbox.Lib

variable {I : Type} {parent : I → Option I → Prop} {i j : I} {path path' : List I}

inductive Lineage (parent : I → Option I → Prop) : I → List I → Prop
  | root {i : I} (orphan : parent i none) : Lineage parent i [i]
  | child {i j : I} {path : List I} (under : parent i (some j)) (outer : Lineage parent j path) :
      Lineage parent i (path ++ [i])

def SingleParent (parent : I → Option I → Prop) : Prop :=
  ∀ i a b, parent i a → parent i b → a = b

theorem Lineage.eq_of_orphan (single : SingleParent parent) (orphan : parent i none)
    (lineage : Lineage parent i path) : path = [i] := by
  cases lineage with
  | root => rfl
  | child under => cases single i _ _ orphan under

theorem Lineage.outer_of_child (single : SingleParent parent) (under : parent i (some j))
    (lineage : Lineage parent i path) : ∃ outer, Lineage parent j outer ∧ path = outer ++ [i] := by
  cases lineage with
  | root orphan => cases single i _ _ orphan under
  | child other outer =>
    cases single i _ _ under other
    exact ⟨_, outer, rfl⟩

theorem Lineage.unique (single : SingleParent parent) (lineage : Lineage parent i path)
    (lineage' : Lineage parent i path') : path = path' := by
  induction lineage generalizing path' with
  | root orphan => exact (lineage'.eq_of_orphan single orphan).symm
  | child under _ ih =>
    obtain ⟨outer, isOuter, rfl⟩ := lineage'.outer_of_child single under
    rw [ih isOuter]

end Enbox.Lib
