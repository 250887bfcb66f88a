import Enbox.Proof.Sync.Subtree

/-! # What the state index depends on -/

namespace Enbox.Proof.Store

open Lib TextSet TenantState

variable {state : TenantState} {messageCid cid : Cid} {other : String} {protocol : Option String}
  {tenant : Did} {Hash : Type} {cids : TextSet}

inductive IndexOperation
  | insert (tenant : Did) (messageCid : Cid) (indexes : Indexes)
  | delete (tenant : Did) (messageCids : List Cid)
  | clear

abbrev HeldCids := Cid → Option (Option String)

def IndexOperation.record (tenant : Did) (held : HeldCids) : IndexOperation → HeldCids
  | .insert owner messageCid indexes =>
      if owner = tenant then Function.update held messageCid (some (protocolIndex indexes)) else held
  | .delete owner messageCids =>
      if owner = tenant then fun cid => if cid ∈ messageCids then none else held cid else held
  | .clear => fun _ => none

def cidsUnder (state : TenantState) (protocol : String) : TextSet :=
  (state.protocols.lookup protocol).getD .empty

structure Reflects (state : TenantState) (held : HeldCids) : Prop where
  metadata : ∀ cid, state.metadata.lookup cid = held cid
  global : ∀ cid, cid ∈ state.global.texts ↔ held cid ≠ none
  protocols : ∀ protocol cid, cid ∈ (cidsUnder state protocol).texts ↔
    held cid = some (some protocol)

variable {held : HeldCids}

theorem mem_cidsUnder_removeProtocolCid {protocol : String} :
    cid ∈ (cidsUnder (state.removeProtocolCid protocol messageCid) other).texts ↔
      cid ∈ (cidsUnder state other).texts ∧ (other = protocol → cid ≠ messageCid) := by
  unfold removeProtocolCid cidsUnder
  cases found : state.protocols.lookup protocol with
  | none =>
    by_cases same : other = protocol
    · subst same
      simp [found, empty]
    · simp [same]
  | some cids =>
    rw [lookup_assocInsert]
    split
    · rename_i same
      subst same
      simp [found, mem_remove]
    · rename_i different
      simp [different]

theorem mem_cidsUnder_joinProtocol :
    cid ∈ (cidsUnder (state.joinProtocol messageCid protocol) other).texts ↔
      cid ∈ (cidsUnder state other).texts ∨ (protocol = some other ∧ cid = messageCid) := by
  cases protocol with
  | none => simp [joinProtocol]
  | some protocol =>
    unfold joinProtocol cidsUnder
    rw [lookup_assocInsert]
    split
    · rename_i same
      subst same
      simp [mem_insert, or_comm]
    · rename_i different
      simp [Ne.symm different]

@[simp] theorem removeProtocolCid_rest (state : TenantState) (protocol : String) (messageCid : Cid) :
    (state.removeProtocolCid protocol messageCid).global = state.global ∧
      (state.removeProtocolCid protocol messageCid).metadata = state.metadata := by
  unfold removeProtocolCid
  split <;> exact ⟨rfl, rfl⟩

@[simp] theorem joinProtocol_rest (state : TenantState) (messageCid : Cid) (protocol : Option String) :
    (state.joinProtocol messageCid protocol).global = state.global ∧
      (state.joinProtocol messageCid protocol).metadata = state.metadata := by
  cases protocol <;> exact ⟨rfl, rfl⟩

@[simp] theorem leaveProtocol_rest (state : TenantState) (messageCid : Cid) (protocol : Option String) :
    (state.leaveProtocol messageCid protocol).global = state.global ∧
      (state.leaveProtocol messageCid protocol).metadata = state.metadata := by
  unfold leaveProtocol
  split
  · split <;> simp
  · exact ⟨rfl, rfl⟩

theorem Reflects.mem_leaveProtocol (reflects : Reflects state held) :
    cid ∈ (cidsUnder (state.leaveProtocol messageCid protocol) other).texts ↔
      held cid = some (some other) ∧ (cid = messageCid → protocol = some other) := by
  unfold leaveProtocol
  rw [reflects.metadata]
  cases previous : (held messageCid).join with
  | none =>
    rw [reflects.protocols]
    refine ⟨fun isHeld => ⟨isHeld, fun same => ?_⟩, fun both => both.1⟩
    subst same
    simp [isHeld] at previous
  | some previousProtocol =>
    rw [Option.join_eq_some_iff] at previous
    dsimp only
    split
    · rename_i differs
      rw [mem_cidsUnder_removeProtocolCid, reflects.protocols]
      refine and_congr_right fun isHeld => ?_
      grind
    · rename_i same
      rw [reflects.protocols]
      grind

theorem Reflects.remove (reflects : Reflects state held) (messageCid : Cid) :
    Reflects (state.remove messageCid) fun cid => if cid = messageCid then none else held cid := by
  unfold TenantState.remove
  have erased (cid : Cid) : (assocErase messageCid state.metadata).lookup cid =
      if cid = messageCid then none else held cid := by
    rw [lookup_assocErase, reflects.metadata]
  have left (cid : Cid) : cid ∈ (state.global.remove messageCid).texts ↔
      (if cid = messageCid then none else held cid) ≠ none := by
    rw [mem_remove, reflects.global]
    grind
  rw [reflects.metadata]
  cases previous : (held messageCid).join with
  | none =>
    refine ⟨erased, left, fun protocol cid => ?_⟩
    change cid ∈ (cidsUnder state protocol).texts ↔ _
    rw [reflects.protocols]
    grind
  | some protocol =>
    rw [Option.join_eq_some_iff] at previous
    refine ⟨fun cid => by simpa using erased cid, fun cid => by simpa using left cid,
      fun other cid => ?_⟩
    rw [mem_cidsUnder_removeProtocolCid]
    change cid ∈ (cidsUnder state other).texts ∧ _ ↔ _
    rw [reflects.protocols]
    grind

theorem Reflects.insert (reflects : Reflects state held) (messageCid : Cid)
    (protocol : Option String) :
    Reflects (state.insert messageCid protocol)
      (Function.update held messageCid (some protocol)) := by
  refine ⟨fun cid => ?_, fun cid => ?_, fun other cid => ?_⟩
  · simp only [TenantState.insert, joinProtocol_rest, leaveProtocol_rest, lookup_assocInsert,
      reflects.metadata, Function.update_apply]
  · simp only [TenantState.insert, joinProtocol_rest, leaveProtocol_rest, mem_insert,
      reflects.global, Function.update_apply]
    grind
  · have joined : cid ∈ (cidsUnder (state.insert messageCid protocol) other).texts ↔
        cid ∈ (cidsUnder (state.leaveProtocol messageCid protocol) other).texts ∨
          (protocol = some other ∧ cid = messageCid) := mem_cidsUnder_joinProtocol
    rw [joined, reflects.mem_leaveProtocol, Function.update_apply]
    grind

section

variable {operations : List IndexOperation} {protocol : String}

variable {hasher : StateHasher Hash} {bits : List Bool}

end

namespace Moved

def hasher : StateHasher Sync.Digest := Sync.digestHasher fun cid => BitVec.ofNat 256 cid.length

def under (protocol : String) : Indexes := [(.protocol, .scalar (.string protocol))]

def direct : List IndexOperation := [.insert "did:ex:alice" "one" (under "https://threads")]

end Moved

end Enbox.Proof.Store
