import Enbox.Lib.Outcome
import Mathlib.Algebra.Ring.Nat

/-! # Walking a tree with a stack -/

namespace Enbox.Lib

variable {ε α ι β : Type}

def drain (visit : α → Except ε (β × List α)) : Nat → List α → Except ε (List β)
  | 0, _ => .ok []
  | _ + 1, [] => .ok []
  | fuel + 1, item :: stack => do
      let (found, children) ← visit item
      let rest ← drain visit fuel (children ++ stack)
      return found :: rest

def preorder (found : ι → β) (children : ι → List ι) : Nat → ι → List β
  | 0, node => [found node]
  | height + 1, node => found node :: (children node).flatMap (preorder found children height)

/-- The items visited are the names of the nodes of a tree; `At height node` says how many levels are
left below a node. -/
structure BinaryTree (visit : α → Except ε (β × List α)) (name : ι → α) (found : ι → β)
    (children : ι → List ι) (At : Nat → ι → Prop) : Prop where
  visits : ∀ {height node}, At height node →
    visit (name node) = .ok (found node, (children node).map name)
  descends : ∀ {height node}, At (height + 1) node → ∀ child ∈ children node, At height child
  ends : ∀ {node}, At 0 node → children node = []
  binary : ∀ {height node}, At height node → (children node).length ≤ 2

variable {visit : α → Except ε (β × List α)} {name : ι → α} {found : ι → β}
  {children : ι → List ι} {At : Nat → ι → Prop}

def visitBound (stack : List (Nat × ι)) : Nat := (stack.map fun entry => 2 ^ (entry.1 + 1) - 1).sum

theorem visitBound_cons (height : Nat) (node : ι) (stack : List (Nat × ι)) :
    visitBound ((height, node) :: stack) = 2 ^ (height + 1) - 1 + visitBound stack := rfl

theorem visitBound_children {height : Nat} {nodes : List ι} (binary : nodes.length ≤ 2)
    (stack : List (Nat × ι)) :
    visitBound (nodes.map (height, ·) ++ stack) + 1 ≤
      2 ^ (height + 1 + 1) - 1 + visitBound stack := by
  have sum : visitBound (nodes.map (height, ·) ++ stack) =
      nodes.length * (2 ^ (height + 1) - 1) + visitBound stack := by
    simp [visitBound, Function.comp_def]
  have positive : 0 < 2 ^ (height + 1) := Nat.two_pow_pos _
  have two := Nat.mul_le_mul_right (2 ^ (height + 1) - 1) binary
  rw [sum, Nat.pow_succ 2 (height + 1)]
  omega

theorem BinaryTree.drain_stack (tree : BinaryTree visit name found children At) {fuel : Nat} :
    ∀ {stack : List (Nat × ι)}, (∀ entry ∈ stack, At entry.1 entry.2) → visitBound stack ≤ fuel →
      drain visit fuel (stack.map fun entry => name entry.2) =
        .ok (stack.flatMap fun entry => preorder found children entry.1 entry.2) := by
  induction fuel with
  | zero =>
    intro stack placed enough
    match stack with
    | [] => rfl
    | (height, node) :: stack =>
      have positive : 0 < 2 ^ height := Nat.two_pow_pos _
      rw [visitBound_cons, Nat.pow_succ] at enough
      omega
  | succ fuel ih =>
    intro stack placed enough
    match stack with
    | [] => rfl
    | (0, node) :: stack =>
      rw [visitBound_cons] at enough
      have rest := @ih stack (fun other listed => placed other (by simp [listed])) (by omega)
      simp only [List.map_cons, drain, tree.visits (placed (0, node) (by simp)),
        tree.ends (placed (0, node) (by simp)), List.map_nil, ok_bind, List.nil_append, rest]
      rfl
    | (height + 1, node) :: stack =>
      have here : At (height + 1) node := placed (height + 1, node) (by simp)
      have bound := @visitBound_children _ height _ (tree.binary here) stack
      have rest := @ih ((children node).map (height, ·) ++ stack) (by
        intro other listed
        rcases List.mem_append.mp listed with below | beside
        · obtain ⟨child, isChild, rfl⟩ := List.mem_map.mp below
          exact tree.descends here child isChild
        · exact placed _ (by simp [beside])) (by
        rw [visitBound_cons] at enough
        omega)
      simp only [List.map_append, List.map_map, Function.comp_def, List.flatMap_append,
        List.flatMap_map] at rest
      simp only [List.map_cons, drain, tree.visits here, ok_bind, rest]
      rfl

theorem BinaryTree.drain_eq (tree : BinaryTree visit name found children At) {height : Nat}
    {root : ι} (placed : At height root) :
    drain visit (2 ^ (height + 1)) [name root] = .ok (preorder found children height root) := by
  have bound : visitBound [(height, root)] ≤ 2 ^ (height + 1) := by
    rw [visitBound_cons]
    exact Nat.sub_le _ _
  have walked := tree.drain_stack (by simpa using placed) bound
  simpa using walked

end Enbox.Lib
