import Enbox.Records.Control

/-! # Collections: queries, counts and subscriptions -/

namespace Enbox

open Lib

inductive PlanMode
  | snapshot
  | event
  deriving DecidableEq

inductive VisibilityClass
  | owner
  | published
  | nonOwner
  deriving DecidableEq

structure CollectionAuthorization where
  visibility : VisibilityClass
  author : Option Did
  protocolAuthorized : Bool
  grantAuthorized : Bool
  deriving DecidableEq

variable (filter : RecordsFilter) (dateSort : Option DateSort) (author : Did)

def stringVecFilter : List String → Option Filter
  | [] => none
  | [value] => some (stringFilter value)
  | values => some (.oneOf (values.map .string))

def boundU64ToValue : Bound U64 → Bound Scalar
  | .unbounded => .unbounded
  | .included value => .included (.number (asI64 value))
  | .excluded value => .excluded (.number (asI64 value))

def rangeU64Filter (range : RangeFilter U64) : Filter :=
  .range (boundU64ToValue range.lower) (boundU64ToValue range.upper)

def DateSort.isPublished : DateSort → Bool
  | .publishedAscending | .publishedDescending => true
  | _ => false

/-- The clauses of a filter in the order they are inserted. A later clause replaces an earlier one
for the same property. -/
def RecordsFilter.clauses : FilterSet :=
  ((filter.author.bind stringVecFilter).map (IndexKey.author, ·)).toList ++
  (filter.attester.map fun v => (IndexKey.attester, stringFilter v)).toList ++
  ((filter.recipient.bind stringVecFilter).map (IndexKey.recipient, ·)).toList ++
  (filter.protocol.map fun v => (IndexKey.protocol, stringFilter v)).toList ++
  (filter.protocolPath.map fun v => (IndexKey.protocolPath, pathFilter v)).toList ++
  (filter.published.map fun v => (IndexKey.published, boolFilter v)).toList ++
  (filter.schema.map fun v => (IndexKey.schema, stringFilter v)).toList ++
  (filter.recordId.map fun v => (IndexKey.recordId, stringFilter v)).toList ++
  (filter.parentId.map fun v => (IndexKey.parentId, stringFilter v)).toList ++
  (filter.dataFormat.map fun v => (IndexKey.dataFormat, stringFilter v)).toList ++
  (filter.contextId.map fun v => (IndexKey.contextId, Filter.subtree v)).toList ++
  (filter.dataCid.map fun v => (IndexKey.dataCid, stringFilter v)).toList ++
  (filter.dataSize.map fun r => (IndexKey.dataSize, rangeU64Filter r)).toList ++
  (filter.dateCreated.map fun r => (IndexKey.dateCreated, Filter.range r.lower r.upper)).toList ++
  (filter.datePublished.toList.flatMap fun r =>
    [(IndexKey.published, boolFilter true), (IndexKey.datePublished, .range r.lower r.upper)]) ++
  (filter.dateUpdated.map fun r => (IndexKey.messageTimestamp, Filter.range r.lower r.upper)).toList ++
  (if filter.published ≠ some true ∧ dateSort.any DateSort.isPublished then
    [(IndexKey.published, boolFilter true)] else []) ++
  (filter.tags.getD []).map fun (name, clause) => (IndexKey.tag name, clause)

def recordsFilterToFilterMap : FilterSet :=
  (filter.clauses dateSort).foldl (fun map clause => assocInsert clause.1 clause.2 map) []

def ownerRecordsFilter : FilterSet :=
  assocInsert .isLatestBaseState (boolFilter true)
    (assocInsert .method (stringFilter writeMethod)
      (assocInsert .interface (stringFilter recordsInterface)
        (recordsFilterToFilterMap filter dateSort)))

def ownerRecordsEventFilter : FilterSet :=
  assocInsert .method (.oneOf [.string writeMethod, .string deleteMethod])
    (assocInsert .interface (stringFilter recordsInterface) (recordsFilterToFilterMap filter none))

def publishedFilter (owner : FilterSet) : FilterSet := assocInsert .published (boolFilter true) owner

def unpublishedFilter (owner : FilterSet) : FilterSet :=
  assocInsert .published (boolFilter false) owner

def publishedRecordsFilter : FilterSet :=
  publishedFilter (ownerRecordsFilter filter dateSort)

def publishedRecordsEventFilter : FilterSet :=
  publishedFilter (ownerRecordsEventFilter filter)

def filterIncludesPublishedRecords : Bool :=
  filter.datePublished.isSome || filter.published ≠ some false

def filterIncludesUnpublishedRecords : Bool :=
  (filter.datePublished.isNone && filter.published.isNone) || filter.published = some false

def listAdmits (names : Option (List Did)) (requester : Did) : Bool :=
  names.all fun names => names.isEmpty || requester ∈ names

def shouldBuildAuthorFilter : Bool :=
  listAdmits filter.author author

def shouldBuildRecipientFilter (recipient : Did) : Bool :=
  listAdmits filter.recipient recipient

def nonOwnerFilters (owner : FilterSet) (filter : RecordsFilter) (author : Did)
    (protocolAuthorized exactAudience : Bool) : Filters :=
  (if filterIncludesPublishedRecords filter then [publishedFilter owner] else []) ++
  if filterIncludesUnpublishedRecords filter then
    (if exactAudience then [unpublishedFilter owner] else []) ++
    (if shouldBuildAuthorFilter filter author then
      [unpublishedFilter (assocInsert .author (stringFilter author) owner)] else []) ++
    (if protocolAuthorized then [unpublishedFilter owner] else []) ++
    if shouldBuildRecipientFilter filter author then
      [unpublishedFilter (assocInsert .recipient (stringFilter author) owner)] else []
  else []

def nonOwnerRecordsFilters (protocolAuthorized exactAudience : Bool) : Filters :=
  nonOwnerFilters (ownerRecordsFilter filter dateSort) filter author protocolAuthorized exactAudience

def nonOwnerRecordsEventFilters (protocolAuthorized exactAudience : Bool) : Filters :=
  nonOwnerFilters (ownerRecordsEventFilter filter) filter author protocolAuthorized exactAudience

def collectionFilters (auth : CollectionAuthorization) (filter : RecordsFilter)
    (dateSort : Option DateSort) : PlanMode → Filters
  | .snapshot =>
    match auth.visibility with
    | .published => [publishedRecordsFilter filter dateSort]
    | .owner => [ownerRecordsFilter filter dateSort]
    | .nonOwner => nonOwnerRecordsFilters filter dateSort (auth.author.getD "")
        auth.protocolAuthorized (filterPinsAnAudienceScope filter)
  | .event =>
    match auth.visibility with
    | .published => [publishedRecordsEventFilter filter]
    | .owner => [ownerRecordsEventFilter filter]
    | .nonOwner => nonOwnerRecordsEventFilters filter (auth.author.getD "")
        auth.protocolAuthorized (filterPinsAnAudienceScope filter)

section

variable (p : Primitives) (store : MessageStore) (tenant : Did)

def visibilityOf (author : Did) : VisibilityClass := if author = tenant then .owner else .nonOwner

def authorizeControlCollection (message : Message) (auth : AuthorizationContext) :
    Except Failure CollectionAuthorization := do
  -- A request for control records only: the invoked role is not verified here.
  (authorizeControlReadRequest p store tenant message auth).mapError .printed
  return {
    visibility := visibilityOf tenant auth.author
    author := some auth.author
    protocolAuthorized := auth.protocolRole.isSome || auth.permissionGrantId.isSome
    grantAuthorized := auth.protocolRole.isSome || auth.permissionGrantId.isSome }

def verifyCollectionRole (filter : RecordsFilter) (auth : AuthorizationContext)
    (requestTimestamp : Timestamp) : Except Failure Unit :=
  if auth.protocolRole.isSome then do
    let _ ← authorizeProtocolQueryOrSubscribe store tenant filter auth requestTimestamp
    return ()
  else .ok ()

def authorizeSignedCollection (message : Message) (filter : RecordsFilter)
    (auth : AuthorizationContext) (requestTimestamp : Timestamp) :
    Except Failure CollectionAuthorization :=
  if filterTargetsOnlyControls filter then authorizeControlCollection p store tenant message auth
  else do
    let grantAuthorized ←
      (authorizeRecordsQueryOrSubscribeWithGrant p store tenant message filter auth).mapError
        .permission
    verifyCollectionRole store tenant filter auth requestTimestamp
    return {
      visibility := visibilityOf tenant auth.author
      author := some auth.author
      protocolAuthorized := auth.protocolRole.isSome || grantAuthorized
      grantAuthorized }

def authorizeCollection (message : Message) (filter : RecordsFilter)
    (signature : Option AuthorizationContext) (requestTimestamp : Timestamp) :
    Except Failure CollectionAuthorization :=
  match signature with
  | some auth => authorizeSignedCollection p store tenant message filter auth requestTimestamp
  | none =>
    if filterIncludesPublishedRecords filter then
      .ok ⟨.published, none, false, false⟩
    else .error (.detail "AuthenticateJwsMissing: authorization signature is required")

end

end Enbox
