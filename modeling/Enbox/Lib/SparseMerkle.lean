import Mathlib.Data.List.Nodup

/-! # Sparse Merkle trees -/

namespace Enbox.Lib

structure TreeHash (V H : Type) where
  leaf : V → H
  node : H → H → H
  zero : H

namespace TreeHash

variable {V H : Type} (t : TreeHash V H)

def empty : Nat → H
  | 0 => t.zero
  | height + 1 => t.node (empty height) (empty height)

def subtree (bit : Nat → V → Bool) : Nat → List V → H
  | height, [] => t.empty height
  | _, [value] => t.leaf value
  | 0, value :: _ :: _ => t.leaf value
  | height + 1, values@(_ :: _ :: _) =>
      t.node (subtree bit height (values.filter fun value => !bit height value))
        (subtree bit height (values.filter (bit height)))

structure CollisionFree : Prop where
  leaf_injective : Function.Injective t.leaf
  node_injective : ∀ {a b c d : H}, t.node a b = t.node c d → a = c ∧ b = d
  leaf_ne_node : ∀ {value : V} {a b : H}, t.leaf value ≠ t.node a b
  leaf_ne_zero : ∀ {value : V}, t.leaf value ≠ t.zero
  node_ne_zero : ∀ {a b : H}, t.node a b ≠ t.zero

variable {t} {bit : Nat → V → Bool}

@[simp] theorem subtree_nil (height : Nat) : t.subtree bit height [] = t.empty height := by
  cases height <;> rfl

@[simp] theorem subtree_singleton (height : Nat) (value : V) :
    t.subtree bit height [value] = t.leaf value := by
  cases height <;> rfl

namespace CollisionFree

theorem leaf_ne_empty (law : t.CollisionFree) (value : V) : ∀ height, t.leaf value ≠ t.empty height
  | 0 => law.leaf_ne_zero
  | _ + 1 => law.leaf_ne_node

theorem empty_injective (law : t.CollisionFree) : ∀ {m n : Nat}, t.empty m = t.empty n → m = n
  | 0, 0, _ => rfl
  | 0, _ + 1, same => absurd same.symm law.node_ne_zero
  | _ + 1, 0, same => absurd same law.node_ne_zero
  | _ + 1, _ + 1, same => congrArg (· + 1) (law.empty_injective (law.node_injective same).1)

theorem subtree_eq_empty_iff (law : t.CollisionFree) {n : Nat} {height : Nat} {values : List V} :
    t.subtree bit height values = t.empty n ↔ values = [] ∧ height = n := by
  fun_induction subtree t bit height values generalizing n with
  | case1 height => exact ⟨fun same => ⟨rfl, law.empty_injective same⟩, fun h => h.2 ▸ rfl⟩
  | case2 height value => simp [law.leaf_ne_empty]
  | case3 value => simp [law.leaf_ne_empty]
  | case4 height first second rest left right =>
    refine ⟨fun same => ?_, fun h => by cases h.1⟩
    cases n with
    | zero => exact absurd same law.node_ne_zero
    | succ n =>
      obtain ⟨noLeft, noRight⟩ := law.node_injective same
      have noLeft := (left.mp noLeft).1
      have noRight := (right.mp noRight).1
      rw [List.filter_eq_nil_iff] at noLeft noRight
      have := noLeft first (by simp)
      have := noRight first (by simp)
      simp_all

end CollisionFree

def Separated (bit : Nat → V → Bool) (height : Nat) (values : List V) : Prop :=
  ∀ v ∈ values, ∀ w ∈ values, (∀ i < height, bit i v = bit i w) → v = w

theorem Separated.mono {height : Nat} {some all : List V} (separated : Separated bit height all)
    (within : ∀ v ∈ some, v ∈ all) : Separated bit height some :=
  fun v hv w hw => separated v (within v hv) w (within w hw)

theorem Separated.split {height : Nat} {values : List V}
    (separated : Separated bit (height + 1) values) (side : V → Bool) {b : Bool}
    (agree : ∀ v, side v = true → bit height v = b) :
    Separated bit height (values.filter side) := by
  intro v hv w hw same
  rw [List.mem_filter] at hv hw
  refine separated v hv.1 w hw.1 fun i below => ?_
  rcases Nat.lt_succ_iff_lt_or_eq.mp below with below | rfl
  · exact same i below
  · rw [agree v hv.2, agree w hw.2]

theorem Separated.not_two {v w : V} {rest : List V} (separated : Separated bit 0 (v :: w :: rest))
    (distinct : (v :: w :: rest).Nodup) : False := by
  have same := separated v (by simp) w (by simp) (fun i below => absurd below (Nat.not_lt_zero i))
  simp [same] at distinct

theorem CollisionFree.mem_iff_of_subtree_eq (law : t.CollisionFree) {height : Nat}
    {left right : List V} (distinctLeft : left.Nodup) (distinctRight : right.Nodup)
    (separated : Separated bit height (left ++ right))
    (same : t.subtree bit height left = t.subtree bit height right) (v : V) :
    v ∈ left ↔ v ∈ right := by
  fun_induction subtree t bit height left generalizing right with
  | case1 height =>
    rw [(law.subtree_eq_empty_iff.mp same.symm).1]
  | case2 height value =>
    match height, right with
    | height, [] =>
      rw [subtree_nil] at same
      exact absurd same (law.leaf_ne_empty value height)
    | height, [other] =>
      rw [subtree_singleton] at same
      rw [law.leaf_injective same]
    | 0, _ :: _ :: _ =>
      exact ((separated.mono fun _ => List.mem_append_right _).not_two distinctRight).elim
    | height + 1, _ :: _ :: _ => exact absurd same law.leaf_ne_node
  | case3 value second rest =>
    exact ((separated.mono fun _ => List.mem_append_left _).not_two distinctLeft).elim
  | case4 height first second rest ihZero ihOne =>
    match right with
    | [] =>
      rw [subtree_nil] at same
      change t.subtree bit (height + 1) (first :: second :: rest) = _ at same
      exact absurd (law.subtree_eq_empty_iff.mp same).1 (by simp)
    | [other] => exact absurd same.symm law.leaf_ne_node
    | one :: two :: others =>
      obtain ⟨zeros, ones⟩ := law.node_injective same
      have zeroSide := separated.split (fun v => !bit height v) (b := false) (by simp)
      have oneSide := separated.split (bit height) (b := true) (by simp)
      rw [List.filter_append] at zeroSide oneSide
      have memZero := ihZero (distinctLeft.filter _) (distinctRight.filter _) zeroSide zeros
      have memOne := ihOne (distinctLeft.filter _) (distinctRight.filter _) oneSide ones
      simp only [List.mem_filter] at memZero memOne
      cases side : bit height v with
      | false => simpa [side] using memZero
      | true => simpa [side] using memOne

end TreeHash

end Enbox.Lib
