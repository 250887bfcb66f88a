import Enbox.Proof.Sync.Subtree
import Mathlib.Data.Fintype.BigOperators

/-! # Collecting subtree hashes -/

namespace Enbox.Proof.Sync

open Lib SyncEndpoint

variable {Hash : Type} {hasher : StateHasher Hash} {cids : TextSet} {bits : List Bool} {depth : Nat}

section

variable {index : StateIndex} {tenant : Did} {protocol : Option String}

def scopeCids (index : StateIndex) (tenant : Did) : Option String → TextSet
  | some protocol => index.protocolCids tenant protocol
  | none => index.globalCids tenant

theorem subtreeHash_scope (bits : List Bool) :
    index.subtreeHash hasher tenant protocol bits =
      hasher.subtreeHash (scopeCids index tenant protocol) bits := by
  cases protocol <;> rfl

theorem subtreeHash_ne_endpoint_default (law : hasher.CollisionFree)
    (bounded : bits.length ≤ maxSyncDepth) (depth : Nat) :
    hasher.subtreeHash cids bits ≠ hasher.defaultHashes maxSyncDepth depth := by
  intro same
  have heights := ((subtreeHash_eq_default_iff law).mp same).2
  simp only [smtDepth, maxSyncDepth] at heights bounded
  omega

variable [DecidableEq Hash]

def endpointVisits (hasher : StateHasher Hash) (cids : TextSet) (depth : Nat) :
    List (VisitedPrefix Hash) :=
  visits (hasher.subtreeHash cids)
    (fun bits => hasher.defaultHashes maxSyncDepth bits.length) depth []

theorem endpoint_collect (bounded : depth ≤ maxSyncDepth) :
    collectSubtreeHashes hasher index tenant protocol depth =
      .ok (endpointVisits hasher (scopeCids index tenant protocol) depth) := by
  rw [collectSubtreeHashes, ensure_true bounded, ok_bind]
  refine walkPrefixes_eq fun bits within => ?_
  have short : bits.length ≤ maxSyncDepth := within.trans bounded
  rw [querySubtree, parseBitPrefix_bitText short, ok_bind,
    emptySubtreeHash, ensure_true short, subtreeHash_scope]
  rfl

section

variable (law : hasher.CollisionFree) (bounded : depth ≤ maxSyncDepth)

include law bounded

theorem mem_visits_unpruned (level : List Bool → Nat) {entry : String × Hash} :
    entry ∈ collectedHashes (visits (hasher.subtreeHash cids)
        (fun bits => hasher.defaultHashes maxSyncDepth (level bits)) depth []) ↔
      ∃ bits, bits.length = depth ∧ entry = (bitText bits, hasher.subtreeHash cids bits) := by
  rw [mem_collectedHashes_visits]
  simp only [List.nil_append]
  refine exists_congr fun bits => and_congr_right fun length => and_iff_left fun n within => ?_
  exact subtreeHash_ne_endpoint_default law (by simp; omega) _

theorem endpointVisits_prefixes (text : String) :
    (∃ hash, (text, hash) ∈ collectedHashes (endpointVisits hasher cids depth)) ↔
      ∃ bits, bits.length = depth ∧ text = bitText bits := by
  simp only [endpointVisits, mem_visits_unpruned law bounded, Prod.mk.injEq]
  constructor
  · rintro ⟨hash, bits, length, text, -⟩
    exact ⟨bits, length, text⟩
  · rintro ⟨bits, length, text⟩
    exact ⟨_, bits, length, text, rfl⟩

end

end

section

def Occupied (hasher : StateHasher Hash) (cids : TextSet) (bits : List Bool) : Prop :=
  ∃ cid ∈ cids.texts, keyPrefix hasher cid bits.length = bits

structure Proportionate (hasher : StateHasher Hash) (cids : TextSet) (depth : Nat)
    (visited : List (VisitedPrefix Hash)) : Prop where
  entries : ∀ text, (∃ hash, (text, hash) ∈ collectedHashes visited) ↔
    ∃ bits, bits.length = depth ∧ text = bitText bits ∧ Occupied hasher cids bits
  queries : ∀ visit ∈ visited, ∃ bits, visit.bitPrefix = bitText bits ∧
    (bits = [] ∨ Occupied hasher cids bits ∨
      ∃ parent bit, bits = parent ++ [bit] ∧ Occupied hasher cids parent)
  count : visited.length ≤ 1 + 2 * depth * cids.texts.length

theorem Occupied.shorten {more : List Bool} (occupied : Occupied hasher cids (bits ++ more)) :
    Occupied hasher cids bits := by
  obtain ⟨cid, held, placed⟩ := occupied
  refine ⟨cid, held, ?_⟩
  have early := congrArg (List.take bits.length) placed
  simpa [keyPrefix, ← List.map_take, List.take_range] using early

theorem two_pow_le_length (full : ∀ bits, bits.length = depth → Occupied hasher cids bits) :
    2 ^ depth ≤ cids.texts.length := by
  let key (i : Fin cids.texts.length) : List.Vector Bool depth :=
    ⟨keyPrefix hasher cids.texts[i] depth, length_keyPrefix _ _⟩
  have onto : Function.Surjective key := by
    rintro ⟨bits, length⟩
    obtain ⟨cid, held, placed⟩ := full bits length
    obtain ⟨i, inside, rfl⟩ := List.mem_iff_getElem.mp held
    subst length
    exact ⟨⟨i, inside⟩, Subtype.ext placed⟩
  simpa [card_vector] using Fintype.card_le_of_surjective key onto

variable [DecidableEq Hash]

/-- The walk of an endpoint is in proportion to the data just when no prefix of the depth is free. -/
theorem endpoint_walk_proportionate_iff (law : hasher.CollisionFree) (index : StateIndex)
    (tenant : Did) (protocol : Option String) {depth : Nat}
    (bounded : depth ≤ SyncEndpoint.maxSyncDepth) :
    (∃ visited, SyncEndpoint.collectSubtreeHashes hasher index tenant protocol depth = .ok visited ∧
      Proportionate hasher (scopeCids index tenant protocol) depth visited) ↔
    ∀ bits, bits.length = depth → Occupied hasher (scopeCids index tenant protocol) bits := by
  rw [endpoint_collect bounded]
  have unpruned (bits : List Bool) (within : bits.length ≤ depth) :
      hasher.subtreeHash (scopeCids index tenant protocol) bits ≠
        hasher.defaultHashes maxSyncDepth bits.length :=
    subtreeHash_ne_endpoint_default law (within.trans bounded) bits.length
  constructor
  · rintro ⟨visited, collected, proportionate⟩ bits length
    cases collected
    obtain ⟨same, -, text, occupied⟩ := (proportionate.entries (bitText bits)).mp
      ((endpointVisits_prefixes law bounded _).mpr ⟨bits, length, rfl⟩)
    rwa [bitText_injective text]
  · intro full
    refine ⟨_, rfl, fun text => ?_, fun visit visited => ?_, ?_⟩
    · rw [endpointVisits_prefixes law bounded]
      refine exists_congr fun bits => and_congr_right fun length => ?_
      exact (and_iff_left (full bits length)).symm
    · obtain ⟨bits, within, text⟩ := mem_visits visited
      refine ⟨bits, text, .inr (.inl ?_)⟩
      have padded : (bits ++ List.replicate (depth - bits.length) false).length = depth := by
        simp
        omega
      exact (full _ padded).shorten
    · rw [endpointVisits, length_visits (by simpa using unpruned)]
      have enough := two_pow_le_length full
      cases depth with
      | zero => simp
      | succ depth =>
        have linear : 2 * (scopeCids index tenant protocol).texts.length ≤
            2 * (depth + 1) * (scopeCids index tenant protocol).texts.length :=
          Nat.mul_le_mul_right _ (by omega)
        rw [Nat.pow_succ 2 (depth + 1)]
        omega

end

def halves (cid : Cid) : BitVec 256 := if cid = "m2" then BitVec.twoPow 256 255 else 0

def indexOf (cids : List Cid) : StateIndex :=
  cids.foldl (fun index cid => index.insert "did:ex:alice" cid []) []

theorem two_cids_walked_in_proportion :
    (digestHasher halves).CollisionFree ∧
    ∃ visited, SyncEndpoint.collectSubtreeHashes (digestHasher halves) (indexOf ["m1", "m2"])
        "did:ex:alice" none 1 = .ok visited ∧
      Proportionate (digestHasher halves) (scopeCids (indexOf ["m1", "m2"]) "did:ex:alice" none) 1
        visited := by
  refine ⟨digestHasher_collisionFree halves, (endpoint_walk_proportionate_iff
    (digestHasher_collisionFree halves) _ _ _ (by decide)).mpr fun bits length => ?_⟩
  match bits, length with
  | [false], _ => exact ⟨"m1", by decide, by decide⟩
  | [true], _ => exact ⟨"m2", by decide, by decide⟩

theorem one_cid_walked_everywhere :
    (digestHasher halves).CollisionFree ∧
    ∃ visited, SyncEndpoint.collectSubtreeHashes (digestHasher halves) (indexOf ["m1"])
        "did:ex:alice" none 2 = .ok visited ∧
      visited.map (·.bitPrefix) = ["", "0", "00", "01", "1", "10", "11"] ∧
      (collectedHashes visited).map (·.1) = ["00", "01", "10", "11"] ∧
      ¬ Proportionate (digestHasher halves) (scopeCids (indexOf ["m1"]) "did:ex:alice" none) 2
        visited := by
  refine ⟨digestHasher_collisionFree halves, _, endpoint_collect (by decide), by decide +kernel,
    by decide +kernel, fun proportionate => ?_⟩
  have count := proportionate.count
  revert count
  decide +kernel

end Enbox.Proof.Sync
