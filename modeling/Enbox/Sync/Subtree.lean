import Enbox.Lib.Walk
import Enbox.Store.StateIndex

/-!
# Subtree hashes and their comparison

The walk over bit prefixes and the comparison of two hash maps occur three and two times in the
source, with different limits and hashes for the empty subtree. They are parameters here.
-/

namespace Enbox

open Lib

/-- Prefixes are texts of the characters `0` and `1`. -/
abbrev SyncHashes (Hash : Type) := List (String × Hash)

def invalidDepth (maxDepth depth : Nat) : String :=
  "MessagesSyncInvalidDepth: depth must be <= " ++ toString maxDepth ++ ", got " ++ toString depth

def parseBit (text : String) (c : Char) : Except String Bool :=
  if c = '0' then .ok false
  else if c = '1' then .ok true
  else .error ("MessagesSyncInvalidPrefix: must contain only '0' and '1' characters, got: " ++ text)

def parseBitPrefix (maxDepth : Nat) (text : String) : Except String (List Bool) := do
  ensure (text.utf8ByteSize ≤ maxDepth)
    ("MessagesSyncInvalidPrefix: length must be <= " ++ toString maxDepth ++ ", got " ++
      toString text.utf8ByteSize)
  text.toList.mapM (parseBit text)

/-- A prefix whose hash was asked for, with its hash when it is an entry of the result. -/
structure VisitedPrefix (Hash : Type) where
  bitPrefix : String
  entry : Option Hash
  deriving DecidableEq

def collectedHashes {Hash : Type} (visited : List (VisitedPrefix Hash)) : SyncHashes Hash :=
  visited.filterMap fun v => v.entry.map (v.bitPrefix, ·)

section

variable {Hash : Type} [DecidableEq Hash]

def visitPrefix {ε : Type} (query : String → Except ε (Hash × Hash)) (depth : Nat) (text : String) :
    Except ε (VisitedPrefix Hash × List String) := do
  let (hash, empty) ← query text
  if hash = empty then return (⟨text, none⟩, [])
  if depth ≤ text.utf8ByteSize then return (⟨text, some hash⟩, [])
  return (⟨text, none⟩, [text ++ "0", text ++ "1"])

def walkPrefixes {ε : Type} (query : String → Except ε (Hash × Hash)) (depth : Nat) :
    Except ε (List (VisitedPrefix Hash)) :=
  drain (visitPrefix query depth) (2 ^ (depth + 1)) [""]

def allPrefixes (defaultHash : Hash) (client server : SyncHashes Hash) : TextSet :=
  .ofList ((client.filter fun entry => entry.2 ≠ defaultHash).map (·.1) ++ server.map (·.1))

def comparePrefixes (leaves : String → Except String (List Cid)) (client server : SyncHashes Hash) :
    List String → Except String (List Cid × List String)
  | [] => .ok ([], [])
  | bitPrefix :: rest => do
      if client.lookup bitPrefix = server.lookup bitPrefix then
        comparePrefixes leaves client server rest
      else if (server.lookup bitPrefix).isNone then do
        let (cids, onlyLocal) ← comparePrefixes leaves client server rest
        return (cids, bitPrefix :: onlyLocal)
      else do
        let listed ← leaves bitPrefix
        let (cids, onlyLocal) ← comparePrefixes leaves client server rest
        return (listed ++ cids,
          if (client.lookup bitPrefix).isSome then bitPrefix :: onlyLocal else onlyLocal)

end

namespace StateIndex

variable {Hash : Type} (hasher : StateHasher Hash)

def root (index : StateIndex) (tenant : Did) : Option String → Hash
  | some protocol => index.getProtocolRoot hasher tenant protocol
  | none => index.getRoot hasher tenant

def subtreeHash (index : StateIndex) (tenant : Did) (protocol : Option String) (bits : List Bool) :
    Hash :=
  match protocol with
  | some protocol => index.getProtocolSubtreeHash hasher tenant protocol bits
  | none => index.getSubtreeHash hasher tenant bits

def leaves (index : StateIndex) (tenant : Did) (protocol : Option String) (bits : List Bool) :
    List Cid :=
  match protocol with
  | some protocol => index.getProtocolLeaves hasher tenant protocol bits
  | none => index.getLeaves hasher tenant bits

end StateIndex

end Enbox
