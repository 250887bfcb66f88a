import Enbox.Messages.Sync
import Enbox.Node
import Enbox.Store.Subscription

/-!
# Sync endpoints

The transport of an HTTP endpoint delivers requests and replies unchanged.
-/

namespace Enbox

open Lib

inductive SyncErrorCode
  | text (code : String)
  | dwn (code : DwnErrorCode)
  deriving DecidableEq

/-- The detail of an error that a reply caused prints the status of the reply, that of undecodable
data where the text stops being base64url, and that of a subscription what the subscription says. -/
inductive SyncErrorDetail
  | text (detail : String)
  | reply (status : Status)
  | invalidBase64 (text : String)
  | subscription (detail : SubscriptionErrorDetail)
  deriving DecidableEq

structure SyncError where
  code : SyncErrorCode
  detail : SyncErrorDetail
  retryable : Bool
  deriving DecidableEq

namespace SyncError

def permanent (code detail : String) : SyncError := ⟨.text code, .text detail, false⟩

def transient (code detail : String) : SyncError := ⟨.text code, .text detail, true⟩

end SyncError

def Failure.errorCode : Failure → Option DwnErrorCode
  | .dwn code _ => some code
  | .coded code _ => some code
  | _ => none

def Status.errorCode (status : Status) : Option DwnErrorCode := status.failure.bind (·.errorCode)

/-- Two more codes of the source, for composed protocols and record chains, are in no reply. -/
def DwnErrorCode.isMissingDependency : DwnErrorCode → Bool
  | protocolAuthorizationProtocolNotFound
  | protocolAuthorizationParentRecordNotFound
  | protocolAuthorizationCrossProtocolParentNotFound
  | recordsWriteGetInitialWriteNotFound
  | grantAuthorizationGrantMissing
  | protocolAuthorizationMatchingRoleRecordNotFound
  | protocolAuthorizationEncryptionRoleAudienceMissing
  | encryptionControlValidateDeliveryAudienceMissing
  | encryptionControlValidateDeliveryRecipientRoleRecordMissing
  | recordsWriteMissingDataInPrevious
  | recordsWriteMissingEncodedDataInPrevious => true
  | _ => false

def DwnErrorCode.isMissingParent : DwnErrorCode → Bool
  | protocolAuthorizationParentRecordNotFound
  | protocolAuthorizationCrossProtocolParentNotFound => true
  | _ => false

inductive ReplicationApplyOutcome
  | applied
  | duplicate
  | superseded
  | incomplete
  | invalid
  | deferred
  deriving DecidableEq

/-- A public key that is not found has no code in a reply either: it would be `deferred`. -/
def classifyErrorCode (parentPruned : Bool) : Option DwnErrorCode → ReplicationApplyOutcome
  | none => .invalid
  | some .recordsWriteNotAllowedAfterDelete => .superseded
  | some code =>
      if code.isMissingParent && parentPruned then .superseded
      else if code.isMissingDependency then .incomplete
      else .invalid

def classifyApplyReplyWithParentState (status : Status) (message : Message)
    (alreadyStored parentPruned : Bool) : ReplicationApplyOutcome :=
  if alreadyStored ∧ status.code = 409 then .duplicate
  else if status.code = 200 ∨ status.code = 202 ∨ status.code = 204 then .applied
  else if status.code = 409 then .superseded
  else if status.code = 404 ∧ message.deleteDescriptor.isSome then .incomplete
  else if 500 ≤ status.code then .deferred
  else classifyErrorCode parentPruned status.errorCode

def classifyApplyReply (status : Status) (message : Message) (alreadyStored : Bool) :
    ReplicationApplyOutcome :=
  classifyApplyReplyWithParentState status message alreadyStored false

def replyAncestors (message : Message) (parentId : String) : List String :=
  let ancestors := ((message.contextId.getD []).filter (· ≠ "")).dropLast
  if ancestors = [] then [parentId] else ancestors

def parentReplyIsTerminal (tenant : Did) (message : Message) (status : Status)
    (store : MessageStore) : Bool :=
  status.errorCode.any (·.isMissingParent) &&
    match message.writeDescriptor.bind (·.parentId) with
    | some parentId => (replyAncestors message parentId).any (recordHasPrune store tenant)
    | none => false

def mapApplyError (status : Status) (outcome : ReplicationApplyOutcome) : SyncError where
  code := match status.errorCode with
    | some code => .dwn code
    | none => .text "SyncApplyFailed"
  detail := .reply status
  retryable := outcome = .incomplete ∨ outcome = .deferred

def settleApply (status : Status) : ReplicationApplyOutcome → Except SyncError Unit
  | .applied => .ok ()
  | .duplicate => .ok ()
  | .superseded => .ok ()
  | outcome => .error (mapApplyError status outcome)

abbrev DwnProcessMessage := Stores → Did → Message → Option Bytes → Status × Stores

def dwnProcessMessage (p : Primitives) (resolver : Option DidResolver) : DwnProcessMessage :=
  fun stores tenant message data => processMessage p stores { tenant, message, data, resolver }

namespace SyncEndpoint

def maxSyncDepth : Nat := 16

def maxInlineDataSize : Nat := 102400

section

variable (p : Primitives) {Hash : Type} [DecidableEq Hash] (hasher : StateHasher Hash)
  (index : StateIndex) (stores : Stores) (tenant : Did) (protocol : Option String)

/-- `empty_subtree_hash`. The table has the depth of a prefix, not that of the tree. -/
def emptySubtreeHash (depth : Nat) : Except String Hash := do
  ensure (depth ≤ maxSyncDepth) (invalidDepth maxSyncDepth depth)
  return hasher.defaultHashes maxSyncDepth depth

def querySubtree (text : String) : Except String (Hash × Hash) := do
  let bits ← parseBitPrefix maxSyncDepth text
  let empty ← emptySubtreeHash hasher bits.length
  return (index.subtreeHash hasher tenant protocol bits, empty)

def collectSubtreeHashes (depth : Nat) : Except String (List (VisitedPrefix Hash)) := do
  ensure (depth ≤ maxSyncDepth) (invalidDepth maxSyncDepth depth)
  walkPrefixes (querySubtree hasher index tenant protocol) depth

def replyRoot : Except Status (MessagesSync.Reply Hash) → Except SyncError Hash
  | .error status => .error ⟨.text "MessagesSyncFailed", .reply status, true⟩
  | .ok (.root hash) => .ok hash
  | .ok (.subtree hash) => .ok hash
  | .ok _ => .error (.permanent "MessagesSyncReplyInvalid" "missing root/hash in MessagesSync reply")

def replyDiff : Except Status (MessagesSync.Reply Hash) → Except SyncError MessagesSyncDiff
  | .error status => .error ⟨.text "MessagesSyncFailed", .reply status, true⟩
  | .ok (.diff diff) => .ok diff
  | .ok _ => .ok {}

def requestSubtree (signature : Except Status AuthorizationContext) (text : String) :
    Except SyncError Hash :=
  replyRoot (MessagesSync.handle p hasher index stores tenant signature
    { action := .subtree, protocol, bitPrefix := some text })

/-- The hash that counts as empty is that of the wanted depth at every prefix. -/
def collectSubtreeHashesViaHttp (signature : Except Status AuthorizationContext) (depth : Nat) :
    Except SyncError (List (VisitedPrefix Hash)) := do
  ensure (depth ≤ maxSyncDepth) (.permanent "MessagesSyncInvalidDepth"
    ("depth must be <= " ++ toString maxSyncDepth ++ ", got " ++ toString depth))
  walkPrefixes (fun text => do
    let hash ← requestSubtree p hasher index stores tenant protocol signature text
    return (hash, hasher.defaultHashes maxSyncDepth depth)) depth

def leavesUnder (text : String) : Except String (List Cid) := do
  let bits ← parseBitPrefix maxSyncDepth text
  return index.leaves hasher tenant protocol bits

def buildDiffEntry (messageCid : Cid) : Except String SyncEntry := do
  let stored ← okOr ("missing message for cid " ++ messageCid) (stores.messages.get tenant messageCid)
  return diffEntry p maxInlineDataSize stores.data tenant messageCid stored

def computeDiff (depth : Nat) (clientHashes : SyncHashes Hash) : Except String MessagesSyncDiff := do
  let default ← emptySubtreeHash hasher depth
  let visited ← collectSubtreeHashes hasher index tenant protocol depth
  let (cids, onlyLocal) ← comparePrefixes (leavesUnder hasher index tenant protocol) clientHashes
    (collectedHashes visited) (allPrefixes default clientHashes (collectedHashes visited)).texts
  let onlyRemote ← cids.mapM (buildDiffEntry p stores tenant)
  return { onlyRemote, onlyLocal }

end

section

variable (p : Primitives) (process : DwnProcessMessage) (stores : Stores) (tenant : Did)
  (entry : SyncEntry)

def decodeEntryData : Except SyncError (Option Bytes) :=
  match entry.encodedData with
  | none => .ok none
  | some text => do
      let data ← okOr ⟨.text "SyncApplyInvalidData", .invalidBase64 text, false⟩ (p.base64Url text)
      return some data

def checkEntry : Except SyncError (Option Bytes) := do
  ensure (p.messageCid entry.message = entry.messageCid)
    (.permanent "SyncApplyMessageCidMismatch" ("entry messageCid '" ++ entry.messageCid ++
      "' does not match message CID '" ++ p.messageCid entry.message ++ "'"))
  decodeEntryData p entry

/-- `DirectSyncEndpoint::apply`. Whether the message is stored is read before it is processed, whether
an ancestor is pruned afterwards. -/
def apply : Except SyncError Unit × Stores :=
  match checkEntry p entry with
  | .error error => (.error error, stores)
  | .ok data =>
      let reply := process stores tenant entry.message data
      (settleApply reply.1 (classifyApplyReplyWithParentState reply.1 entry.message
        (stores.messages.get tenant (p.messageCid entry.message)).isSome
        (parentReplyIsTerminal tenant entry.message reply.1 reply.2.messages)), reply.2)

/-- `HttpSyncEndpoint::apply`. The request has the message and no body. -/
def applyViaHttp : Except SyncError Unit × Stores :=
  let reply := process stores tenant entry.message none
  (settleApply reply.1 (classifyApplyReply reply.1 entry.message false), reply.2)

end

end SyncEndpoint

end Enbox
