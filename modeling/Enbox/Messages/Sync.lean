import Enbox.Messages.Read
import Enbox.Sync.Subtree

/-!
# The MessagesSync handler

A CID whose message is not stored is left out of a diff.
-/

namespace Enbox

open Lib

structure SyncEntry where
  messageCid : Cid
  message : Message
  encodedData : Option String
  deriving DecidableEq

structure MessagesSyncDiff where
  onlyRemote : List SyncEntry := []
  onlyLocal : List String := []
  deriving DecidableEq

section

variable (p : Primitives)

def externalInlineData (maxSize : Nat) (data : DataStore) (tenant : Did) (message : Message) :
    Option String := do
  let (recordId, dataCid, dataSize) ← recordsWriteDataReference message
  if maxSize < dataSize then none
  else do
    let bytes ← data.get tenant recordId dataCid
    if maxSize < bytes.length then none else some (p.base64UrlText bytes)

def diffEntry (maxSize : Nat) (data : DataStore) (tenant : Did) (messageCid : Cid)
    (stored : Message) : SyncEntry :=
  ⟨messageCid, (stripEncodedData stored).1,
    (stripEncodedData stored).2 <|>
      externalInlineData p maxSize data tenant (stripEncodedData stored).1⟩

end

namespace MessagesSync

def maxSyncDepth : Nat := 256

def maxInlineDataSize : Nat := 30000

structure Request (Hash : Type) where
  action : SyncAction
  protocol : Option String := none
  bitPrefix : Option String := none
  depth : Option Nat := none
  hashes : Option (SyncHashes Hash) := none

inductive Reply (Hash : Type)
  | root (root : Hash)
  | subtree (hash : Hash)
  | leaves (entries : List Cid)
  | diff (diff : MessagesSyncDiff)

def validateDiff {Hash : Type} (depth : Nat) : SyncHashes Hash → Except String Unit
  | [] => .ok ()
  | (bitPrefix, _) :: rest => do
      let _ ← parseBitPrefix maxSyncDepth bitPrefix
      ensure (bitPrefix.utf8ByteSize = depth)
        ("MessagesSyncInvalidPrefix: diff prefix length must equal depth " ++ toString depth ++
          ", got " ++ toString bitPrefix.utf8ByteSize)
      validateDiff depth rest

def validateSyncDescriptor {Hash : Type} (request : Request Hash) : Except String Unit :=
  match request.action with
  | .root => .ok ()
  | .subtree | .leaves => do
      let bitPrefix ← okOr
        "MessagesSyncInvalidPrefix: prefix is required for subtree and leaves actions"
        request.bitPrefix
      let _ ← parseBitPrefix maxSyncDepth bitPrefix
  | .diff => do
      let depth ← okOr "MessagesSyncInvalidDepth: depth is required for diff action" request.depth
      ensure (depth ≤ maxSyncDepth) (invalidDepth maxSyncDepth depth)
      let hashes ← okOr "MessagesSyncInvalidHashes: hashes are required for diff action"
        request.hashes
      validateDiff depth hashes

def authorizeMessagesSync (tenant author : Did) : Except Failure Unit :=
  ensure (author = tenant) (.detail "MessagesSyncAuthorizationFailed: sync is disabled")

section

variable (p : Primitives) {Hash : Type} [DecidableEq Hash] (hasher : StateHasher Hash)
  (index : StateIndex) (stores : Stores) (tenant : Did)

variable (protocol : Option String)

def defaultHash (depth : Nat) : Except String Hash := do
  ensure (depth ≤ maxSyncDepth) (invalidDepth maxSyncDepth depth)
  return hasher.defaultHashes maxSyncDepth depth

def querySubtree (text : String) : Except String (Hash × Hash) := do
  let bits ← parseBitPrefix maxSyncDepth text
  let empty ← defaultHash hasher bits.length
  return (index.subtreeHash hasher tenant protocol bits, empty)

def collectSubtreeHashes (depth : Nat) : Except String (List (VisitedPrefix Hash)) := do
  ensure (depth ≤ maxSyncDepth) (invalidDepth maxSyncDepth depth)
  walkPrefixes (querySubtree hasher index tenant protocol) depth

def leavesUnder (text : String) : Except String (List Cid) := do
  let bits ← parseBitPrefix maxSyncDepth text
  return index.leaves hasher tenant protocol bits

def buildDiffEntries (messageCids : List Cid) : List SyncEntry :=
  messageCids.filterMap fun messageCid =>
    (stores.messages.get tenant messageCid).map
      (diffEntry p maxInlineDataSize stores.data tenant messageCid)

def handleDiff (depth : Nat) (clientHashes : SyncHashes Hash) : Except Status MessagesSyncDiff := do
  let default ← (defaultHash hasher depth).mapError fun detail => badRequest (.detail detail)
  let visited ← (collectSubtreeHashes hasher index tenant protocol depth).mapError
    fun detail => ⟨500, some (.internal detail)⟩
  let (cids, onlyLocal) ← (comparePrefixes (leavesUnder hasher index tenant protocol) clientHashes
    (collectedHashes visited) (allPrefixes default clientHashes (collectedHashes visited)).texts).mapError
      fun detail => badRequest (.detail detail)
  return { onlyRemote := buildDiffEntries p stores tenant cids, onlyLocal }

def handleSubtree (bitPrefix : String) : Except Status Hash := do
  let bits ← (parseBitPrefix maxSyncDepth bitPrefix).mapError fun detail =>
    badRequest (.detail detail)
  return index.subtreeHash hasher tenant protocol bits

def handleLeaves (bitPrefix : String) : Except Status (List Cid) := do
  let bits ← (parseBitPrefix maxSyncDepth bitPrefix).mapError fun detail =>
    badRequest (.detail detail)
  return index.leaves hasher tenant protocol bits

/-- `MessagesSyncHandler::handle`; `signature` is the outcome of the signature check. -/
def handle (signature : Except Status AuthorizationContext) (request : Request Hash) :
    Except Status (Reply Hash) := do
  (validateSyncDescriptor request).mapError fun detail => badRequest (.detail detail)
  let authorization ← signature
  (authorizeMessagesSync tenant authorization.author).mapError unauthorized
  match request.action with
  | .root => return .root (index.root hasher tenant request.protocol)
  | .subtree => return .subtree (← handleSubtree hasher index tenant request.protocol
      (request.bitPrefix.getD ""))
  | .leaves => return .leaves (← handleLeaves hasher index tenant request.protocol
      (request.bitPrefix.getD ""))
  | .diff => return .diff (← handleDiff p hasher index stores tenant request.protocol
      (request.depth.getD 0) (request.hashes.getD []))

end

end MessagesSync

end Enbox
