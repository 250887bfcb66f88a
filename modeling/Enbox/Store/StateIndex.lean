import Enbox.Lib.SparseMerkle
import Enbox.Store.TextOrder

/-!
# The state index

The trees are not kept: a hash is computed from the set of CIDs when it is asked for.
-/

namespace Enbox

open Lib

/-- SHA-256 over the four kinds of input of the index. A `StateHash` and its hexadecimal text stand
for each other. -/
structure StateHasher (Hash : Type) where
  hashKey : Cid → BitVec 256
  hashLeaf : BitVec 256 → Cid → Hash
  hashChildren : Hash → Hash → Hash
  zero : Hash

/-- No two inputs share a hash, nor do a leaf, an inner node and the zero of the tables. The hashes of
CIDs have 256 bits, so that only those of given CIDs can be taken to be distinct. -/
structure StateHasher.CollisionFree {Hash : Type} (hasher : StateHasher Hash) : Prop where
  leaf : ∀ {key key' cid cid'}, hasher.hashLeaf key cid = hasher.hashLeaf key' cid' →
    key = key' ∧ cid = cid'
  children : ∀ {a b c d}, hasher.hashChildren a b = hasher.hashChildren c d → a = c ∧ b = d
  leaf_ne_children : ∀ {key cid a b}, hasher.hashLeaf key cid ≠ hasher.hashChildren a b
  leaf_ne_zero : ∀ {key cid}, hasher.hashLeaf key cid ≠ hasher.zero
  children_ne_zero : ∀ {a b}, hasher.hashChildren a b ≠ hasher.zero

def smtDepth : Nat := 256

/-- The most significant bit of the first byte is bit 0. -/
def getBit (key : BitVec 256) (depth : Nat) : Bool := key.getMsbD depth

namespace StateHasher

variable {Hash : Type} (hasher : StateHasher Hash)

/-- A leaf of the tree is its CID: `key_hash` and `leaf_hash` are computed from it. -/
def tree : TreeHash Cid Hash where
  leaf cid := hasher.hashLeaf (hasher.hashKey cid) cid
  node := hasher.hashChildren
  zero := hasher.zero

/-- A tree of height `height + 1` is split at depth `smtDepth - (height + 1)`. -/
def splitBit (height : Nat) (cid : Cid) : Bool :=
  getBit (hasher.hashKey cid) (smtDepth - (height + 1))

def defaultHashes (maxDepth depth : Nat) : Hash := hasher.tree.empty (maxDepth - depth)

def nodeHash (leaves : List Cid) (depth : Nat) : Hash :=
  hasher.tree.subtree hasher.splitBit (smtDepth - depth) leaves

def leafMatchesPrefix (bits : List Bool) (cid : Cid) : Bool :=
  bits.zipIdx.all fun entry => getBit (hasher.hashKey cid) entry.2 = entry.1

def rootHash (cids : TextSet) : Hash := hasher.nodeHash cids.texts 0

def subtreeHash (cids : TextSet) (bits : List Bool) : Hash :=
  hasher.nodeHash (cids.texts.filter (hasher.leafMatchesPrefix bits)) bits.length

def compareLeaves (left right : Cid) : Ordering :=
  (compare (hasher.hashKey left).toNat (hasher.hashKey right).toNat).then (compareText left right)

def leaves (cids : TextSet) (bits : List Bool) : List Cid :=
  (cids.texts.filter (hasher.leafMatchesPrefix bits)).insertionSort
    fun left right => hasher.compareLeaves left right ≠ .gt

end StateHasher

structure TenantState where
  global : TextSet := .empty
  protocols : List (String × TextSet) := []
  metadata : List (Cid × Option String) := []
  deriving DecidableEq

abbrev StateIndex := List (Did × TenantState)

def TenantState.removeProtocolCid (state : TenantState) (protocol : String) (messageCid : Cid) :
    TenantState :=
  match state.protocols.lookup protocol with
  | some cids =>
      { state with protocols := assocInsert protocol (cids.remove messageCid) state.protocols }
  | none => state

def protocolIndex (indexes : Indexes) : Option String :=
  match indexes.lookup .protocol with
  | some (.scalar (.string protocol)) => some protocol
  | _ => none

def TenantState.leaveProtocol (state : TenantState) (messageCid : Cid) (protocol : Option String) :
    TenantState :=
  match (state.metadata.lookup messageCid).join with
  | some previous =>
      if some previous ≠ protocol then state.removeProtocolCid previous messageCid else state
  | none => state

def TenantState.joinProtocol (state : TenantState) (messageCid : Cid) :
    Option String → TenantState
  | some protocol =>
      let cids := ((state.protocols.lookup protocol).getD .empty).insert messageCid
      { state with protocols := assocInsert protocol cids state.protocols }
  | none => state

def TenantState.insert (state : TenantState) (messageCid : Cid) (protocol : Option String) :
    TenantState :=
  let left := state.leaveProtocol messageCid protocol
  let joined := { left with global := left.global.insert messageCid }.joinProtocol messageCid protocol
  { joined with metadata := assocInsert messageCid protocol joined.metadata }

def TenantState.remove (state : TenantState) (messageCid : Cid) : TenantState :=
  let removed := { state with global := state.global.remove messageCid,
                              metadata := assocErase messageCid state.metadata }
  match (state.metadata.lookup messageCid).join with
  | some protocol => removed.removeProtocolCid protocol messageCid
  | none => removed

namespace StateIndex

def insert (index : StateIndex) (tenant : Did) (messageCid : Cid) (indexes : Indexes) :
    StateIndex :=
  assocInsert tenant
    (((index.lookup tenant).getD {}).insert messageCid (protocolIndex indexes)) index

def delete (index : StateIndex) (tenant : Did) (messageCids : List Cid) : StateIndex :=
  match index.lookup tenant with
  | some state => assocInsert tenant (messageCids.foldl TenantState.remove state) index
  | none => index

def clear (_ : StateIndex) : StateIndex := []

def globalCids (index : StateIndex) (tenant : Did) : TextSet :=
  ((index.lookup tenant).map (·.global)).getD .empty

def protocolCids (index : StateIndex) (tenant : Did) (protocol : String) : TextSet :=
  ((index.lookup tenant).bind (·.protocols.lookup protocol)).getD .empty

section

variable {Hash : Type} (hasher : StateHasher Hash)

variable (index : StateIndex) (tenant : Did) (bits : List Bool)

def getRoot : Hash := hasher.rootHash (index.globalCids tenant)

def getProtocolRoot (protocol : String) : Hash :=
  hasher.rootHash (index.protocolCids tenant protocol)

def getSubtreeHash : Hash :=
  hasher.subtreeHash (index.globalCids tenant) bits

def getProtocolSubtreeHash (protocol : String) (bits : List Bool) : Hash :=
  hasher.subtreeHash (index.protocolCids tenant protocol) bits

def getLeaves : List Cid :=
  hasher.leaves (index.globalCids tenant) bits

def getProtocolLeaves (protocol : String) (bits : List Bool) : List Cid :=
  hasher.leaves (index.protocolCids tenant protocol) bits

end

end StateIndex

end Enbox
