import Enbox.Records.Authorize

/-!
# Following the messages of a tenant

The filters of a request are compiled to maps of clauses. For the owner and an unscoped grant each
filter of a protocol is joined by shadow filters for its permission records and its definition.
-/

namespace Enbox

open Lib

/-- A clause is about an index property or about a tag, and carries its name. -/
inductive FilterKey
  | index (name : IndexKey)
  | tag (name : IndexKey)
  deriving DecidableEq

/-- `filter_key`: a tag is looked up under its bare name, as an index property is. -/
def filterKey : FilterKey → IndexKey
  | .index name => name
  | .tag name => name

abbrev FilterMap := List (FilterKey × Filter)

def messagesStringFilter (key : IndexKey) (value : Option Scalar) : FilterMap :=
  (value.map fun value => (.index key, .equal value)).toList

def messageRangeFilter (key : IndexKey) (range : Option (RangeFilter Scalar)) : FilterMap :=
  (range.map fun range => (.index key, .range range.lower range.upper)).toList

namespace MessagesFilter

/-- In the order they are inserted: the prefix of the path replaces the path. -/
def clauses (filter : MessagesFilter) : FilterMap :=
  messagesStringFilter .interface (filter.interface.map .string) ++
  messagesStringFilter .method (filter.method.map .string) ++
  messagesStringFilter .protocolPath (filter.protocolPath.map .path) ++
  messagesStringFilter .protocol (filter.protocol.map .string) ++
  (filter.protocolPathPrefix.map fun root => (.index .protocolPath, .subtree root)).toList ++
  (filter.contextIdPrefix.map fun root => (.index .contextId, .subtree root)).toList ++
  messageRangeFilter .messageTimestamp filter.messageTimestamp

def permissionShadow (filter : MessagesFilter) (protocol : String) : FilterMap :=
  assocInsertAll
    (messagesStringFilter .protocol (some (.string permissionsProtocolUri)) ++
      [(.tag .protocol, stringFilter protocol)] ++
      messageRangeFilter .messageTimestamp filter.messageTimestamp) []

def hasPathScope (filter : MessagesFilter) : Bool :=
  filter.protocolPath.isSome || filter.protocolPathPrefix.isSome || filter.contextIdPrefix.isSome

def protocolShadow (filter : MessagesFilter) (protocol : String) : FilterMap :=
  assocInsertAll
    (messagesStringFilter .interface (some (.string protocolsInterface)) ++
      messagesStringFilter .method (some (.string configureMethod)) ++
      messagesStringFilter .protocol (some (.string protocol)) ++
      messageRangeFilter .messageTimestamp filter.messageTimestamp) []

end MessagesFilter

def shadowFilters (filter : MessagesFilter) : List FilterMap :=
  match filter.protocol with
  | none => []
  | some protocol =>
      filter.permissionShadow protocol ::
        if filter.hasPathScope then [filter.protocolShadow protocol] else []

def messagesFilterToFilterMaps (filter : MessagesFilter) (includeShadowFilters : Bool) :
    List FilterMap :=
  assocInsertAll filter.clauses [] ::
    if includeShadowFilters then shadowFilters filter else []

def FilterMap.toSet (map : FilterMap) : FilterSet :=
  map.map fun clause => (filterKey clause.1, clause.2)

def messagesFiltersToFilters (filters : List MessagesFilter) (includeShadowFilters : Bool) :
    Option Filters :=
  if filters.isEmpty then none
  else some ((filters.flatMap (messagesFilterToFilterMaps · includeShadowFilters)).map
    FilterMap.toSet)

structure MessagesGrantAccess where
  metadataOnly : Bool
  deriving DecidableEq

def hasUnscopedGrants (grants : List PermissionGrant) : Bool := grants.any (·.scope.isUnscoped)

def coversFilter (grants : List PermissionGrant) (filter : MessagesFilter) : Bool :=
  grants.any (·.scope.matchesProtocolTarget filter.scopeTarget)

def authorizeMessagesFilterScope (grants : List PermissionGrant) (filters : List MessagesFilter) :
    Except GrantError MessagesGrantAccess :=
  if filters.isEmpty then do
    ensure (hasUnscopedGrants grants) .outsideScope
    return ⟨false⟩
  else do
    ensure (filters.all (coversFilter grants)) .outsideScope
    return ⟨!hasUnscopedGrants grants⟩

structure MessagesRoleAuthorization where
  author : Did
  metadataOnly : Bool
  resolvedRole : ResolvedProtocolRole
  deriving DecidableEq

inductive MessagesAuthorization
  | owner
  | grant (metadataOnly : Bool)
  | role (role : MessagesRoleAuthorization)
  deriving DecidableEq

namespace MessagesAuthorization

def includeShadowFilters : MessagesAuthorization → Bool
  | owner => true
  | grant metadataOnly => !metadataOnly
  | role _ => false

def roleRecordId : MessagesAuthorization → Option String
  | role authorization => some authorization.resolvedRole.roleRecordId
  | owner | grant _ => none

end MessagesAuthorization

structure QueryAuthorization where
  includeDeleteInitialWrite : Bool
  includeEncodedData : Bool
  includeShadowFilters : Bool
  roleRecordId : Option String
  deriving DecidableEq

def MessagesAuthorization.forQuery : MessagesAuthorization → QueryAuthorization
  | owner => ⟨false, true, true, none⟩
  | grant metadataOnly => ⟨false, !metadataOnly, !metadataOnly, none⟩
  | role authorization =>
      ⟨true, !authorization.metadataOnly, false, some authorization.resolvedRole.roleRecordId⟩

def queryFilters (authorization : MessagesAuthorization) (filters : List MessagesFilter) :
    Option Filters :=
  messagesFiltersToFilters filters authorization.forQuery.includeShadowFilters

/-- `subscription_filters`: under a role the changes of the role record wake the subscription. -/
def subscriptionFilters (authorization : MessagesAuthorization) (filters : List MessagesFilter) :
    Option Filters :=
  match authorization.roleRecordId with
  | none => messagesFiltersToFilters filters authorization.includeShadowFilters
  | some roleRecordId =>
      some ((messagesFiltersToFilters filters authorization.includeShadowFilters).getD [] ++
        [[(.interface, stringFilter recordsInterface), (.recordId, stringFilter roleRecordId)]])

def invalidRoleMessage : Failure :=
  .detail "role-authorized message filters require Records, protocol, protocolPath, and contextIdPrefix to be specified"

def shareProtoContext : Failure :=
  .detail "role-authorized message filters must all be for the same protocol and contextIdPrefix"

def expectedMessage : Failure :=
  .detail "role-authorized message filters must contain at least one filter"

def missingProtocolRole : Failure := .detail "missing protocol role in authorization context"

def inconsistentResolvedRole : Failure :=
  .detail "role-authorized message filters resolved to inconsistent protocol roles from records"

structure ExactRoleFilter where
  protocol : String
  protocolPath : Path
  contextIdPrefix : Path
  deriving DecidableEq

def exactRoleFilter (filter : MessagesFilter) : Except Failure ExactRoleFilter := do
  let protocol ← okOr invalidRoleMessage filter.protocol
  let protocolPath ← okOr invalidRoleMessage filter.protocolPath
  let contextIdPrefix ← okOr invalidRoleMessage filter.contextIdPrefix
  ensure (filter.interface = some recordsInterface ∧ filter.protocolPathPrefix = none ∧
      protocol ≠ "" ∧ protocolPath ≠ [""] ∧ contextIdPrefix ≠ [""]) invalidRoleMessage
  return ⟨protocol, protocolPath, contextIdPrefix⟩

def requireExactRoleFilters (filters : List MessagesFilter) :
    Except Failure (List ExactRoleFilter) := do
  ensure (filters ≠ []) expectedMessage
  let exact ← filters.mapM exactRoleFilter
  ensure (∀ first ∈ exact.head?, ∀ filter ∈ exact,
      filter.protocol = first.protocol ∧ filter.contextIdPrefix = first.contextIdPrefix)
    shareProtoContext
  return exact

def roleRecordsFilter (filter : ExactRoleFilter) : RecordsFilter where
  protocol := some filter.protocol
  protocolPath := some filter.protocolPath
  contextId := some filter.contextIdPrefix

def requestTimestamp (message : Message) : Except Failure Timestamp :=
  match message.descriptor with
  | .messagesQuery descriptor => .ok descriptor.messageTimestamp
  | .messagesSubscribe descriptor => .ok descriptor.messageTimestamp
  | _ => .error expectedMessage

section

variable (p : Primitives) (store : MessageStore) (tenant : Did)

def authorizeMessagesSubscribeAndQuery (incoming : Message) (filters : List MessagesFilter)
    (auth : AuthorizationContext) : Except GrantError MessagesGrantAccess := do
  let grants ← fetchAndValidateMessagesGrants p store tenant incoming auth
  authorizeMessagesFilterScope grants filters

def authorizeDelegatedMessagesSubscribeAndQuery (incoming : Message)
    (filters : List MessagesFilter) (auth : AuthorizationContext) :
    Except GrantError (Option MessagesGrantAccess) :=
  match auth.authorDelegatedGrant with
  | none => .ok none
  | some grant => do
      performBaseValidation store incoming auth.author auth.signer grant
      let access ← authorizeMessagesFilterScope [grant] filters
      return some access

def resolveRoles (auth : AuthorizationContext) (timestamp : Timestamp) :
    Option ResolvedProtocolRole → List ExactRoleFilter → Except Failure ResolvedProtocolRole
  | resolved, [] => okOr expectedMessage resolved
  | resolved, filter :: rest => do
      let candidate ← (authorizeProtocolQueryOrSubscribe store tenant (roleRecordsFilter filter) auth
        timestamp).mapError .printed
      ensure (∀ first ∈ resolved, first = candidate) inconsistentResolvedRole
      resolveRoles auth timestamp (resolved.or (some candidate)) rest

def authorizeRole (message : Message) (filters : List MessagesFilter)
    (auth : AuthorizationContext) : Except Failure MessagesAuthorization := do
  let exact ← requireExactRoleFilters filters
  ensure auth.protocolRole.isSome missingProtocolRole
  let access ← (authorizeDelegatedMessagesSubscribeAndQuery store message filters auth).mapError
    .permission
  let timestamp ← requestTimestamp message
  let resolvedRole ← resolveRoles store tenant auth timestamp none exact
  return .role ⟨auth.author, access.any (·.metadataOnly), resolvedRole⟩

def authorizeQueryOrSubscribe (message : Message) (filters : List MessagesFilter)
    (auth : AuthorizationContext) : Except Failure MessagesAuthorization :=
  if auth.author = tenant ∧ auth.signer = tenant then .ok .owner
  else if auth.permissionGrantIds.isSome then do
    let access ← (authorizeMessagesSubscribeAndQuery p store tenant message filters auth).mapError
      .permission
    return .grant access.metadataOnly
  else if auth.protocolRole.isSome then authorizeRole store tenant message filters auth
  else .error (.detail "message failed authorization")

end

end Enbox
