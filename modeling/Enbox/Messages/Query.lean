import Enbox.Messages.Access
import Enbox.Messages.Read
import Enbox.Store.Subscription

/-! # The MessagesQuery handler -/

namespace Enbox

open Lib

structure QueryEntry where
  seq : String
  cid : Cid
  isLatestBaseState : Bool
  protocol : Option String
  message : Option Message := none
  encodedData : Option String := none
  initialWrite : Option Message := none
  deriving DecidableEq

structure QueryReply where
  entries : List QueryEntry
  fingerprint : Option Fingerprint
  cursor : Option ProgressToken
  drained : Bool
  roleRecordId : Option String
  deriving DecidableEq

inductive QueryError
  | refused (status : Status)
  -- 410, with what is available.
  | gone (gap : ProgressGapInfo)
  -- 500, printing the error.
  | internal (error : EventLogError)
  deriving DecidableEq

def eventLogErrorReply : EventLogError → QueryError
  | .progressGap gap => .gone gap
  | error => .internal error

def isProtocolOnlyFilter (filter : MessagesFilter) : Bool :=
  filter.protocol.any (· ≠ "") && filter.interface.isNone && filter.method.isNone &&
    filter.protocolPath.isNone && filter.protocolPathPrefix.isNone &&
    filter.contextIdPrefix.isNone && filter.messageTimestamp.isNone

def fingerprintedProtocol (filter : MessagesFilter) : Option String :=
  if !isProtocolOnlyFilter filter then none
  else filter.protocol.filter fun protocol => protocol ≠ "" && protocol ≠ permissionsProtocolUri

def queryFingerprintScopes (filters : List MessagesFilter) : Option (List String) :=
  if filters.isEmpty then some [globalDomain]
  else (filters.mapM fingerprintedProtocol).map fun protocols =>
    (normalizeScopes protocols).flatMap fun protocol =>
      [protocolFingerprintScope protocol, permissionFingerprintScope protocol]

section

variable (p : Primitives) (deriveStreamId : Did → String) (store : MessageStore) (tenant : Did)

/-- The record is read from the fields of the delete, not from its descriptor. -/
def entryInitialWrite (event : EventLogEntry) : Option Message :=
  if event.message.deleteDescriptor.isSome then
    (event.message.recordId.bind (fetchInitialWriteMessage store tenant)).map fun initial =>
      (stripEncodedData initial).1
  else none

def buildEntry (cidsOnly : Bool) (authorization : QueryAuthorization) (event : EventLogEntry) :
    QueryEntry :=
  let entry : QueryEntry :=
    { seq := event.seq
      cid := event.messageCid.getD (p.messageCid event.message)
      isLatestBaseState := (event.indexes.lookup .isLatestBaseState).any shownFlag
      protocol := stringIndex event.indexes .protocol }
  if cidsOnly then entry
  else
    { entry with
      message := some (stripEncodedData event.message).1
      encodedData := if authorization.includeEncodedData then
        event.encodedData <|> (stripEncodedData event.message).2 else none
      initialWrite := if authorization.includeDeleteInitialWrite then
        entryInitialWrite store tenant event else none }

def handleMessagesQuery (resolver : Option DidResolver) (reader : Option MemoryMessageState)
    (message : Message) (descriptor : MessagesQueryDescriptor) : Except QueryError QueryReply := do
  let auth ← (requireSignature p resolver
    "MessagesQueryMissingAuthorization: authorization is required" message).mapError .refused
  let authorization ← (authorizeQueryOrSubscribe p store tenant message descriptor.filters
    auth).mapError fun failure => .refused (unauthorized failure)
  let feed ← okOr (.refused ⟨501, some (.detail "replication feed not supported")⟩) reader
  let result ← (logRead p deriveStreamId feed tenant
    { cursor := descriptor.cursor
      limit := descriptor.limit
      filters := queryFilters authorization descriptor.filters }).mapError eventLogErrorReply
  return {
    entries := result.events.map
      (buildEntry p store tenant (descriptor.cidsOnly.getD false) authorization.forQuery)
    fingerprint := (queryFingerprintScopes descriptor.filters).map (feed.fingerprint tenant)
    cursor := result.cursor
    drained := result.drained
    roleRecordId := authorization.roleRecordId }

end

end Enbox
