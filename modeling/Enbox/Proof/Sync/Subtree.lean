import Enbox.Sync.Endpoint
import Mathlib.Data.List.Induction

/-! # Prefixes of the state index -/

namespace Enbox.Proof.Sync

open Lib List

def bitText (bits : List Bool) : String :=
  String.ofList (bits.map fun bit => if bit then '1' else '0')

theorem toList_bitText (bits : List Bool) :
    (bitText bits).toList = bits.map fun bit => if bit then '1' else '0' := by
  simp [bitText]

theorem bitText_append (bits more : List Bool) :
    bitText (bits ++ more) = bitText bits ++ bitText more := by
  rw [← String.toList_inj, String.toList_append, toList_bitText, toList_bitText, toList_bitText,
    map_append]

theorem bitText_injective : Function.Injective bitText := by
  intro bits bits' same
  have chars := congrArg String.toList same
  rw [toList_bitText, toList_bitText] at chars
  refine map_injective_iff.mpr ?_ chars
  intro bit bit' same
  cases bit <;> cases bit' <;> simp_all

theorem utf8ByteSize_bitText (bits : List Bool) : (bitText bits).utf8ByteSize = bits.length := by
  induction bits with
  | nil => rfl
  | cons bit bits ih =>
    rw [show bit :: bits = [bit] ++ bits from rfl, bitText_append, String.utf8ByteSize_append, ih,
      length_append]
    cases bit <;> rfl

theorem parseBitPrefix_bitText {maxDepth : Nat} {bits : List Bool} (bounded : bits.length ≤ maxDepth) :
    parseBitPrefix maxDepth (bitText bits) = .ok bits := by
  rw [parseBitPrefix, utf8ByteSize_bitText, ensure_true bounded, ok_bind, toList_bitText]
  generalize bitText bits = text
  induction bits with
  | nil => rfl
  | cons bit bits ih =>
    rw [map_cons, mapM_cons, ih (by simp at bounded; omega)]
    cases bit <;> rfl

section

variable {Hash : Type} {hasher : StateHasher Hash} {cids : TextSet} {bits : List Bool}

def keyPrefix (hasher : StateHasher Hash) (cid : Cid) (depth : Nat) : List Bool :=
  (List.range depth).map (getBit (hasher.hashKey cid))

theorem length_keyPrefix (cid : Cid) (depth : Nat) : (keyPrefix hasher cid depth).length = depth := by
  simp [keyPrefix]

theorem keyPrefix_succ (cid : Cid) (depth : Nat) :
    keyPrefix hasher cid (depth + 1) =
      keyPrefix hasher cid depth ++ [getBit (hasher.hashKey cid) depth] := by
  simp [keyPrefix, range_succ]

theorem leafMatchesPrefix_iff {cid : Cid} :
    hasher.leafMatchesPrefix bits cid = true ↔ keyPrefix hasher cid bits.length = bits := by
  induction bits using List.reverseRecOn with
  | nil => simp [StateHasher.leafMatchesPrefix, keyPrefix]
  | append_singleton bits bit ih =>
    rw [StateHasher.leafMatchesPrefix, zipIdx_append, all_append, Bool.and_eq_true,
      ← StateHasher.leafMatchesPrefix, ih, length_append, length_singleton, keyPrefix_succ]
    simp

def below (hasher : StateHasher Hash) (cids : TextSet) (bits : List Bool) : List Cid :=
  cids.texts.filter (hasher.leafMatchesPrefix bits)

theorem mem_below {cid : Cid} :
    cid ∈ below hasher cids bits ↔ cid ∈ cids.texts ∧ keyPrefix hasher cid bits.length = bits := by
  rw [below, mem_filter, leafMatchesPrefix_iff]

theorem pairwise_below : (below hasher cids bits).Pairwise (· < ·) := cids.sorted.filter _

theorem treeLaw (law : hasher.CollisionFree) : hasher.tree.CollisionFree where
  leaf_injective _ _ same := (law.leaf same).2
  node_injective := law.children
  leaf_ne_node := law.leaf_ne_children
  leaf_ne_zero := law.leaf_ne_zero
  node_ne_zero := law.children_ne_zero

theorem subtreeHash_eq_default_iff (law : hasher.CollisionFree) {maxDepth depth : Nat} :
    hasher.subtreeHash cids bits = hasher.defaultHashes maxDepth depth ↔
      below hasher cids bits = [] ∧ smtDepth - bits.length = maxDepth - depth :=
  (treeLaw law).subtree_eq_empty_iff

theorem separated_below (depth : bits.length ≤ smtDepth) {held : List Cid}
    (distinct : Set.InjOn hasher.hashKey {cid | cid ∈ held})
    (placed : ∀ cid ∈ held, keyPrefix hasher cid bits.length = bits) :
    TreeHash.Separated hasher.splitBit (smtDepth - bits.length) held := by
  intro left isLeft right isRight agree
  refine distinct isLeft isRight (BitVec.eq_of_getMsbD_eq fun i inside => ?_)
  change getBit _ i = getBit _ i
  by_cases early : i < bits.length
  · have same := (placed left isLeft).trans (placed right isRight).symm
    have at_i := congrArg (·[i]?) same
    simpa [keyPrefix, early] using at_i
  · have bit := agree (smtDepth - (i + 1)) (by simp only [smtDepth] at *; omega)
    have place : smtDepth - (smtDepth - (i + 1) + 1) = i := by simp only [smtDepth]; omega
    simpa only [StateHasher.splitBit, place] using bit

theorem below_eq_iff (law : hasher.CollisionFree) (depth : bits.length ≤ smtDepth) {others : TextSet}
    (distinct : Set.InjOn hasher.hashKey {cid | cid ∈ cids.texts ∨ cid ∈ others.texts}) :
    hasher.subtreeHash cids bits = hasher.subtreeHash others bits ↔
      below hasher cids bits = below hasher others bits := by
  refine ⟨fun same => ?_, fun same => congrArg (hasher.nodeHash · bits.length) same⟩
  have separated := @separated_below _ hasher bits depth
    (below hasher cids bits ++ below hasher others bits)
    (distinct.mono fun cid held => (mem_append.mp held).imp (fun h => (mem_below.mp h).1)
      fun h => (mem_below.mp h).1)
    (fun cid held => (mem_append.mp held).elim (fun h => (mem_below.mp h).2)
      fun h => (mem_below.mp h).2)
  have members := (treeLaw law).mem_iff_of_subtree_eq (cids.nodup.filter _) (others.nodup.filter _)
    separated same
  exact pairwise_below.eq_of_mem_iff pairwise_below members

end

section

variable {ε Hash : Type} [DecidableEq Hash] {hash empty : List Bool → Hash}

def visitOf (hash empty : List Bool → Hash) (depth : Nat) (bits : List Bool) : VisitedPrefix Hash :=
  ⟨bitText bits, if hash bits ≠ empty bits ∧ depth ≤ bits.length then some (hash bits) else none⟩

def childrenOf (hash empty : List Bool → Hash) (depth : Nat) (bits : List Bool) :
    List (List Bool) :=
  if hash bits = empty bits ∨ depth ≤ bits.length then [] else [bits ++ [false], bits ++ [true]]

def visits (hash empty : List Bool → Hash) : Nat → List Bool → List (VisitedPrefix Hash)
  | 0, bits => [⟨bitText bits, if hash bits = empty bits then none else some (hash bits)⟩]
  | levels + 1, bits =>
      ⟨bitText bits, none⟩ ::
        if hash bits = empty bits then []
        else visits hash empty levels (bits ++ [false]) ++ visits hash empty levels (bits ++ [true])

theorem visitPrefix_tree {query : String → Except ε (Hash × Hash)} {depth : Nat}
    (answers : ∀ bits, bits.length ≤ depth → query (bitText bits) = .ok (hash bits, empty bits)) :
    BinaryTree (visitPrefix query depth) bitText (visitOf hash empty depth)
      (childrenOf hash empty depth) (fun levels bits => bits.length + levels = depth) where
  visits {levels bits} placed := by
    rw [visitPrefix, answers bits (by omega), utf8ByteSize_bitText, visitOf, childrenOf]
    by_cases isEmpty : hash bits = empty bits
    · simp [isEmpty]
    · by_cases atDepth : depth ≤ bits.length
      · simp [isEmpty, atDepth]
      · simp [isEmpty, atDepth, bitText_append, show bitText [false] = "0" from rfl,
          show bitText [true] = "1" from rfl]
  descends {levels bits} placed child isChild := by
    rw [childrenOf] at isChild
    split at isChild
    · cases isChild
    · have length : child.length = bits.length + 1 := by aesop
      omega
  ends {bits} placed := by
    rw [childrenOf, if_pos (.inr (by omega))]
  binary {levels bits} _ := by
    rw [childrenOf]
    split <;> simp

theorem preorder_eq_visits {depth levels : Nat} {bits : List Bool}
    (placed : bits.length + levels = depth) :
    preorder (visitOf hash empty depth) (childrenOf hash empty depth) levels bits =
      visits hash empty levels bits := by
  induction levels generalizing bits with
  | zero =>
    have atDepth : depth ≤ bits.length := by omega
    simp [preorder, visits, visitOf, atDepth]
  | succ levels ih =>
    have notYet : ¬ depth ≤ bits.length := by omega
    rw [preorder, visits, visitOf, childrenOf]
    by_cases isEmpty : hash bits = empty bits
    · simp [isEmpty]
    · rw [if_neg (fun h => notYet h.2), if_neg (fun h => h.elim isEmpty notYet), if_neg isEmpty,
        flatMap_cons, flatMap_cons, flatMap_nil, append_nil,
        ih (by simp; omega), ih (by simp; omega)]

theorem walkPrefixes_eq {query : String → Except ε (Hash × Hash)} {depth : Nat}
    (answers : ∀ bits, bits.length ≤ depth → query (bitText bits) = .ok (hash bits, empty bits)) :
    walkPrefixes query depth = .ok (visits hash empty depth []) := by
  rw [walkPrefixes, show "" = bitText [] from rfl,
    (visitPrefix_tree answers).drain_eq (by simp), preorder_eq_visits (by simp)]

theorem mem_collectedHashes_visits {levels : Nat} {bits : List Bool} {entry : String × Hash} :
    entry ∈ collectedHashes (visits hash empty levels bits) ↔
      ∃ more : List Bool, more.length = levels ∧
        entry = (bitText (bits ++ more), hash (bits ++ more)) ∧
        ∀ n ≤ levels, hash (bits ++ more.take n) ≠ empty (bits ++ more.take n) := by
  induction levels generalizing bits with
  | zero =>
    by_cases isEmpty : hash bits = empty bits
    · simp [visits, collectedHashes, isEmpty]
    · simp [visits, collectedHashes, isEmpty, eq_comm]
  | succ levels ih =>
    have split : collectedHashes (visits hash empty (levels + 1) bits) =
        if hash bits = empty bits then []
        else collectedHashes (visits hash empty levels (bits ++ [false])) ++
          collectedHashes (visits hash empty levels (bits ++ [true])) := by
      rw [visits]
      split
      · rfl
      · exact filterMap_append
    rw [split]
    by_cases isEmpty : hash bits = empty bits
    · rw [if_pos isEmpty]
      refine ⟨fun listed => (not_mem_nil listed).elim, ?_⟩
      rintro ⟨more, -, -, occupied⟩
      exact absurd (by simpa using isEmpty) (occupied 0 (Nat.zero_le _))
    · rw [if_neg isEmpty, mem_append, ← Bool.exists_bool (p := fun bit =>
        entry ∈ collectedHashes (visits hash empty levels (bits ++ [bit])))]
      simp only [ih]
      constructor
      · rintro ⟨bit, more, length, rfl, occupied⟩
        refine ⟨bit :: more, by simp [length], by simp, fun n bounded => ?_⟩
        cases n with
        | zero => simpa using isEmpty
        | succ n => simpa using occupied n (by omega)
      · rintro ⟨more, length, rfl, occupied⟩
        match more with
        | [] => cases length
        | bit :: more =>
          exact ⟨bit, more, by simpa using length, by simp,
            fun n bounded => by simpa using occupied (n + 1) (by omega)⟩

theorem mem_visits {levels : Nat} {bits : List Bool} {visit : VisitedPrefix Hash}
    (visited : visit ∈ visits hash empty levels bits) :
    ∃ more : List Bool, more.length ≤ levels ∧ visit.bitPrefix = bitText (bits ++ more) := by
  induction levels generalizing bits with
  | zero =>
    rw [visits, mem_singleton] at visited
    exact ⟨[], le_rfl, by simp [visited]⟩
  | succ levels ih =>
    rw [visits, mem_cons] at visited
    rcases visited with rfl | below
    · exact ⟨[], Nat.zero_le _, by simp⟩
    · split at below
      · cases below
      · rcases mem_append.mp below with below | below
        all_goals
          obtain ⟨more, bounded, at_⟩ := ih below
          exact ⟨_ :: more, Nat.succ_le_succ bounded, by rw [at_, append_assoc]; rfl⟩

theorem length_visits {levels : Nat} {bits : List Bool}
    (unpruned : ∀ more : List Bool, more.length ≤ levels → hash (bits ++ more) ≠ empty (bits ++ more)) :
    (visits hash empty levels bits).length = 2 ^ (levels + 1) - 1 := by
  induction levels generalizing bits with
  | zero => rfl
  | succ levels ih =>
    have isEmpty : hash bits ≠ empty bits := by simpa using unpruned [] (Nat.zero_le _)
    have count (bit : Bool) : (visits hash empty levels (bits ++ [bit])).length =
        2 ^ (levels + 1) - 1 :=
      ih fun more bounded => by simpa using unpruned (bit :: more) (by simpa using bounded)
    have positive : 0 < 2 ^ levels := Nat.two_pow_pos _
    rw [visits, if_neg isEmpty, length_cons, length_append, count, count]
    simp only [Nat.pow_succ]
    omega

end

/-! ## A collision-free hasher

The hash of a full tree of zeros is its height, any other hash is the term that was hashed.
-/

inductive Digest
  | zeros (height : Nat)
  | leaf (key : BitVec 256) (cid : Cid)
  | inner (left right : Digest)
  deriving DecidableEq

def Digest.children : Digest → Digest → Digest
  | .zeros m, .zeros n => if m = n then .zeros (m + 1) else .inner (.zeros m) (.zeros n)
  | left, right => .inner left right

def digestHasher (hashKey : Cid → BitVec 256) : StateHasher Digest where
  hashKey
  hashLeaf := .leaf
  hashChildren := .children
  zero := .zeros 0

theorem digestHasher_collisionFree (hashKey : Cid → BitVec 256) :
    (digestHasher hashKey).CollisionFree where
  leaf same := by
    cases same
    exact ⟨rfl, rfl⟩
  children {a b c d} same := by
    simp only [digestHasher, Digest.children] at same
    split at same <;> split at same <;> grind
  leaf_ne_children := by
    intro key cid a b same
    simp only [digestHasher, Digest.children] at same
    split at same <;> grind
  leaf_ne_zero := nofun
  children_ne_zero := by
    intro a b same
    simp only [digestHasher, Digest.children] at same
    split at same <;> grind

end Enbox.Proof.Sync
