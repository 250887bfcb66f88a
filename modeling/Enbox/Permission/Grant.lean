import Enbox.Protocols.Definition

/-! # Grants and what they authorize -/

namespace Enbox

open Lib

section

variable (p : Primitives) (store : MessageStore) (tenant : Did)

variable (incoming : Message) (message : Message) (auth : AuthorizationContext)

def fetchGrant (permissionGrantId : String) : Except GrantError PermissionGrant := do
  let message ← okOr (.notFound permissionGrantId)
    (store.first tenant
      [[(.recordId, stringFilter permissionGrantId), (.isLatestBaseState, boolFilter true)]])
  let grantor ← okOr .unableToExtractGrantor (messageAuthor p message)
  parsePermissionGrant p message grantor

def revocationFilters (grantId : String) : FilterSet :=
  [(.parentId, stringFilter grantId), (.protocolPath, pathFilter permissionsRevocationPath),
    (.isLatestBaseState, boolFilter true)]

def isRevokedAt (timestamp : Timestamp) (grantId : String) : Bool :=
  (store.query tenant [revocationFilters grantId]).any (·.messageTimestamp ≤ timestamp)

def verifyGrantNotRevoked (timestamp : Timestamp) (grant : PermissionGrant) :
    Except GrantError Unit :=
  ensure (¬ isRevokedAt store tenant timestamp grant.id) .revoked

def performBaseValidation (expectedGrantor expectedGrantee : Did)
    (grant : PermissionGrant) : Except GrantError Unit := do
  ensure (expectedGrantee = grant.grantee)
    (.invalidGrant (.unexpectedGrantee expectedGrantee grant.grantee))
  ensure (expectedGrantor = grant.grantor)
    (.invalidGrant (.unexpectedGrantor expectedGrantor grant.grantor))
  ensure (grant.dateGranted ≤ incoming.messageTimestamp) .notActive
  ensure (incoming.messageTimestamp < grant.dateExpires) .expired
  verifyGrantNotRevoked store expectedGrantor incoming.messageTimestamp grant
  ensure (incoming.descriptor.kind.interface = grant.scope.interface) .outsideScope
  ensure (grant.scope.covers incoming.descriptor.kind)
    (.badRequest (.grantScopeMismatch incoming.descriptor.kind grant.id))

def recordsTarget (descriptor : WriteDescriptor) (contextId : Option Path) : ProtocolScopeTarget where
  protocol := some descriptor.protocol
  protocolPath := some descriptor.protocolPath
  contextId := contextId

def verifyRecordsScope (scope : PermissionScope) : Except GrantError Unit := do
  let descriptor ← okOr .invalidMessageType message.writeDescriptor
  ensure (scope.matchesProtocolTarget (recordsTarget descriptor message.contextId))
    (.invalidScopeForTarget scope (recordsTarget descriptor message.contextId))

def verifyRecordsWriteConditions (conditions : Option PermissionConditions) :
    Except GrantError Unit := do
  let descriptor ← okOr .invalidMessageType message.writeDescriptor
  ensure (conditions.bind (·.publication) = some .required → descriptor.published = some true)
    .unpublishedGrant
  ensure (conditions.bind (·.publication) = some .prohibited → descriptor.published ≠ some true)
    .publishProhibited

def authorizeRecordsWriteWithGrant (expectedGrantor expectedGrantee : Did)
    (grant : PermissionGrant) : Except GrantError Unit := do
  performBaseValidation store message expectedGrantor expectedGrantee grant
  verifyRecordsScope message grant.scope
  verifyRecordsWriteConditions message grant.conditions

def authorizeDelegatedRecordsWrite : Except GrantError Bool :=
  match auth.authorDelegatedGrant with
  | none => .ok false
  | some grant => do
      authorizeRecordsWriteWithGrant store message auth.author auth.signer grant
      return true

def authorizeRecordsWriteWithGrantId : Except GrantError Bool :=
  match auth.permissionGrantId with
  | none => .ok false
  | some permissionGrantId => do
      let grant ← fetchGrant p store tenant permissionGrantId
      authorizeRecordsWriteWithGrant store message tenant auth.author grant
      return true

structure InvokedGrant where
  grant : PermissionGrant
  grantor : Did
  grantee : Did
  deriving DecidableEq

def invokedGrant : Except GrantError (Option InvokedGrant) :=
  match auth.authorDelegatedGrant with
  | some grant => .ok (some ⟨grant, auth.author, auth.signer⟩)
  | none =>
    match auth.permissionGrantId with
    | none => .ok none
    | some permissionGrantId => do
        let grant ← fetchGrant p store tenant permissionGrantId
        return some ⟨grant, tenant, auth.author⟩

def authorizeWithInvokedGrant
    (verifyScope : PermissionScope → Except GrantError Unit) : Except GrantError Bool := do
  let invoked ← invokedGrant p store tenant auth
  match invoked with
  | none => .ok false
  | some invoked => do
      performBaseValidation store incoming invoked.grantor invoked.grantee invoked.grant
      verifyScope invoked.grant.scope
      return true

def authorizeRecordsReadWithGrant (readMessage writeMessage : Message)
    (auth : AuthorizationContext) : Except GrantError Bool :=
  authorizeWithInvokedGrant p store tenant readMessage auth (verifyRecordsScope writeMessage)

def authorizeRecordsDeleteWithGrant (deleteMessage writeMessage : Message)
    (auth : AuthorizationContext) : Except GrantError Bool :=
  authorizeWithInvokedGrant p store tenant deleteMessage auth (verifyRecordsScope writeMessage)

def RecordsFilter.scopeTarget (filter : RecordsFilter) : ProtocolScopeTarget where
  protocol := filter.protocol
  protocolPath := filter.protocolPath
  contextId := filter.contextId

def authorizeRecordsQueryOrSubscribeWithGrant (filter : RecordsFilter)
    (auth : AuthorizationContext) : Except GrantError Bool :=
  authorizeWithInvokedGrant p store tenant incoming auth fun scope =>
    ensure (scope.matchesProtocolTarget filter.scopeTarget) .outsideScope

def verifyConfiguredProtocol : Option String → Except GrantError Unit
  | none => .ok ()
  | some protocol => do
      let descriptor ← okOr .invalidMessageType message.configureDescriptor
      ensure (descriptor.definition.protocol = protocol) .outsideScope

def authorizeProtocolsConfigureWithGrant (expectedGrantor expectedGrantee : Did)
    (grant : PermissionGrant) : Except GrantError Unit := do
  performBaseValidation store message expectedGrantor expectedGrantee grant
  verifyConfiguredProtocol message grant.scope.protocol

def authorizeProtocolsConfigure : Except GrantError Unit :=
  match auth.authorDelegatedGrant with
  | some grant => authorizeProtocolsConfigureWithGrant store message auth.author auth.signer grant
  | none =>
    if auth.author = tenant then .ok ()
    else
      match auth.permissionGrantId with
      | none => .error .unauthorized
      | some permissionGrantId => do
          let grant ← fetchGrant p store tenant permissionGrantId
          authorizeProtocolsConfigureWithGrant store message tenant auth.author grant

def authorizeProtocolsQuery (descriptor : ProtocolsQueryDescriptor)
    (auth : AuthorizationContext) : Except GrantError Bool :=
  if auth.author = tenant then .ok true
  else
    match auth.permissionGrantId with
    | none => .ok false
    | some permissionGrantId => do
        let grant ← fetchGrant p store tenant permissionGrantId
        performBaseValidation store message tenant auth.author grant
        ensure (grant.scope.protocol.isSome →
          descriptor.filter.bind (·.protocol) = grant.scope.protocol) .outsideScope
        return true

def newestWriteFilters (recordId : String) : FilterSet :=
  [(.interface, stringFilter recordsInterface), (.method, stringFilter writeMethod),
    (.recordId, stringFilter recordId)]

def getScopeFromPermissionRecord (descriptor : WriteDescriptor) :
    Except GrantError PermissionScope :=
  if descriptor.protocolPath = permissionsRevocationPath then do
    let parentId ← okOr .revocationParentIdRequired descriptor.parentId
    let grant ← fetchGrant p store tenant parentId
    return grant.scope
  else if descriptor.protocolPath = permissionsGrantPath then do
    let grantor ← okOr .unableToExtractGrantor (messageAuthor p message)
    let grant ← parsePermissionGrant p message grantor
    return grant.scope
  else do
    let bytes ← permissionRecordDataBytes p message
    let data ← okOr (.invalidGrant .parseFailed) (p.requestData bytes)
    return data.scope

def writeScopeTarget (descriptor : WriteDescriptor) : Except GrantError ProtocolScopeTarget :=
  if descriptor.protocol = permissionsProtocolUri then do
    let scope ← getScopeFromPermissionRecord p store tenant message descriptor
    return { protocol := scope.protocol, protocolPath := scope.protocolPath,
             contextId := message.contextId }
  else .ok (recordsTarget descriptor message.contextId)

def resolveMessagesScopeTarget : Except GrantError ProtocolScopeTarget :=
  match message.descriptor with
  | .recordsWrite descriptor => writeScopeTarget p store tenant message descriptor
  -- A delete stands at the newest write of its record.
  | .recordsDelete delete => do
      let newest ← okOr (.notFound delete.recordId)
        (store.first tenant [newestWriteFilters delete.recordId] (.timestamp .descending))
      let descriptor ← okOr .invalidRecordsDescriptorType newest.writeDescriptor
      writeScopeTarget p store tenant newest descriptor
  | .protocolsConfigure configure => .ok { protocol := some configure.definition.protocol }
  | .protocolsQuery _ => .error .invalidProtocolDescriptorType
  | .recordsRead _ | .recordsCount _ | .recordsQuery _ | .recordsSubscribe _ =>
      .error .invalidRecordsDescriptorType
  | .messagesRead _ | .messagesQuery _ | .messagesSubscribe _ | .messagesSync _ =>
      .error .invalidDescriptorType

def fetchAndValidateMessagesGrants : Except GrantError (List PermissionGrant) := do
  let ids ← okOr (.badRequest .permissionGrantIdsRequired) auth.permissionGrantIds
  ids.mapM fun permissionGrantId => do
    let grant ← fetchGrant p store tenant permissionGrantId
    performBaseValidation store incoming tenant auth.author grant
    return grant

inductive MessagesReadGrantAccess
  | full
  | metadataOnly
  deriving DecidableEq

def authorizeMessagesReadWithGrants (incoming stored : Message) (auth : AuthorizationContext) :
    Except GrantError MessagesReadGrantAccess := do
  let grants ← fetchAndValidateMessagesGrants p store tenant incoming auth
  let target ← resolveMessagesScopeTarget p store tenant stored
  ensure (grants.any fun grant => grant.scope.matchesProtocolTarget target) .outsideScope
  return if grants.any fun grant => grant.scope.isUnscoped then .full else .metadataOnly

def authorizeMessagesRead (incoming stored : Message) (auth : AuthorizationContext) :
    Except GrantError MessagesReadGrantAccess :=
  if auth.author = tenant then .ok .full
  else if auth.permissionGrantIds.isSome then
    authorizeMessagesReadWithGrants p store tenant incoming stored auth
  else
    .error (.invalidGrant (.unauthorized
      "MessagesReadAuthorizationFailed: protocol message failed authorization"))

def authorizeMessagesSync : Except GrantError Unit :=
  ensure (auth.author = tenant)
    (.invalidGrant (.unauthorized "MessagesSyncAuthorizationFailed: sync is disabled"))

end

end Enbox
