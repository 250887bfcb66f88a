import Enbox.Proof.Authority.Delegation
import Enbox.Records.Collection

/-! # What a collection shows of unpublished records -/

namespace Enbox.Proof.Authority

open Lib Permission Concrete

variable {filter : RecordsFilter} {row : Indexes} {p : Primitives} {store : MessageStore}
  {tenant : Did} {message : Message} {ctx : AuthorizationContext} {timestamp : Timestamp} {u : Unit}

/-! ## Clauses of a filter -/

theorem lookup_tagClauses {key : IndexKey} (notTag : ∀ name, key ≠ .tag name)
    (tags : List (String × Filter)) :
    (tags.map fun (name, clause) => (IndexKey.tag name, clause)).reverse.lookup key = none := by
  induction tags with
  | nil => rfl
  | cons tag rest ih =>
    rw [List.map_cons, List.reverse_cons, List.lookup_append, ih, lookup_cons_eq_ite,
      if_neg (notTag _)]
    rfl

theorem lookup_recordsFilterToFilterMap (filter : RecordsFilter) (dateSort : Option DateSort)
    (key : IndexKey) :
    (recordsFilterToFilterMap filter dateSort).lookup key =
      (filter.clauses dateSort).reverse.lookup key := by
  rw [show recordsFilterToFilterMap filter dateSort = assocInsertAll (filter.clauses dateSort) []
    from rfl, lookup_assocInsertAll, List.lookup_nil, Option.or_none]

theorem lookup_publicationClauses (range : Option (RangeFilter Scalar)) (other : IndexKey) :
    (range.toList.flatMap fun r => [(IndexKey.published, boolFilter true),
      (IndexKey.datePublished, Filter.range r.lower r.upper)]).reverse.lookup other =
      if other = .published ∧ range.isSome then some (boolFilter true)
      else if other = .datePublished then range.map fun r => .range r.lower r.upper else none := by
  cases range with
  | none => simp
  | some r => by_cases other = .published <;> simp_all [lookup_cons_eq_ite]

theorem lookup_sortClause (asked : Prop) [Decidable asked] (other : IndexKey) :
    (if asked then [(IndexKey.published, boolFilter true)] else []).reverse.lookup other =
      if other = .published ∧ asked then some (boolFilter true) else none := by
  by_cases asked <;> simp_all [lookup_cons_eq_ite]

theorem lookup_listClause (key other : IndexKey) (clause : Option Filter) :
    (clause.map (key, ·)).toList.reverse.lookup other = if other = key then clause else none := by
  cases clause <;> simp [lookup_cons_eq_ite]

/-! ## Alternatives of a requester that is not the owner -/

def Unpublished (row : Indexes) : Prop :=
  ∀ value, row.lookup .published = some value → matchesFilter value (boolFilter true) = false

def SelectedUnpublished (owner : FilterSet) (row : Indexes) : Prop :=
  matchesSet row (unpublishedFilter owner) = true

def OwnRow (owner : FilterSet) (filter : RecordsFilter) (author : Did) (row : Indexes) : Prop :=
  (shouldBuildAuthorFilter filter author = true ∧
    SelectedUnpublished (assocInsert .author (stringFilter author) owner) row) ∨
  (shouldBuildRecipientFilter filter author = true ∧
    SelectedUnpublished (assocInsert .recipient (stringFilter author) owner) row)

def NoAlternative (filter : RecordsFilter) (author : Did) (widened : Bool) : Prop :=
  -- No alternative is built at all, and an empty list selects every row.
  filterIncludesPublishedRecords filter = false ∧ widened = false ∧
    shouldBuildAuthorFilter filter author = false ∧ shouldBuildRecipientFilter filter author = false

def SeesUnpublished (owner : FilterSet) (filter : RecordsFilter) (author : Did) (widened : Bool)
    (row : Indexes) : Prop :=
  NoAlternative filter author widened ∨
    (filterIncludesUnpublishedRecords filter = true ∧
      ((widened = true ∧ SelectedUnpublished owner row) ∨ OwnRow owner filter author row))

section

variable {owner : FilterSet} {author : Did}

theorem publishedFilter_unpublished (unpublished : Unpublished row) :
    matchesSet row (publishedFilter owner) = false := by
  refine Bool.eq_false_iff.mpr fun selected => ?_
  have clause : (IndexKey.published, boolFilter true) ∈ publishedFilter owner := List.mem_cons_self
  obtain ⟨value, found, isTrue⟩ := matchesSet_clause selected clause
  rw [unpublished value found] at isTrue
  cases isTrue

theorem includesUnpublished_of_not_published
    (unpublished : filterIncludesPublishedRecords filter = false) :
    filterIncludesUnpublishedRecords filter = true := by
  simp only [filterIncludesPublishedRecords, Bool.or_eq_false_iff, decide_eq_false_iff_not,
    not_not] at unpublished
  simp [filterIncludesUnpublishedRecords, unpublished.2]

theorem nonOwnerFilters_eq_nil_iff {granted exact : Bool} :
    nonOwnerFilters owner filter author granted exact = [] ↔
      NoAlternative filter author (granted || exact) := by
  unfold nonOwnerFilters NoAlternative
  cases published : filterIncludesPublishedRecords filter with
  | true => simp
  | false =>
    rw [includesUnpublished_of_not_published published]
    simp
    tauto

theorem matches_nonOwnerFilters (granted exact : Bool) :
    matchesFilters row (nonOwnerFilters owner filter author granted exact) = true ↔
      (filterIncludesPublishedRecords filter = true ∧
        matchesSet row (publishedFilter owner) = true) ∨
      SeesUnpublished owner filter author (granted || exact) row := by
  rw [matchesFilters_iff, nonOwnerFilters_eq_nil_iff, SeesUnpublished, or_left_comm]
  refine or_congr_right ?_
  simp only [nonOwnerFilters, List.mem_append, List.mem_ite_nil_right, List.mem_singleton, or_and_right,
    and_or_left, exists_or, and_assoc, exists_and_left, exists_eq_left, Bool.or_eq_true,
    OwnRow, SelectedUnpublished]
  tauto

end

/-! ## Admission -/

structure CollectionRolePermits (store : MessageStore) (tenant author : Did) (role : Reference)
    (filter : RecordsFilter) (timestamp : Timestamp) : Prop where
  rule : ∃ protocol protocolPath definition ruleSet,
    filter.protocol = some protocol ∧ filter.protocolPath = some protocolPath ∧
    fetchProtocolDefinition store tenant protocol (some timestamp) = .ok definition ∧
    definition.ruleAt protocolPath = some ruleSet ∧
    HoldsRole store tenant author role protocol filter.contextId definition timestamp ∧
    (ruleSet.actions.any fun
      | .role allowed can => allowed = role && .read ∈ can
      | .who who _ can => who = .anyone && .read ∈ can) = true

theorem authorizeProtocolQueryOrSubscribe_ok_iff {role : Reference}
    (invoked : ctx.protocolRole = some role) :
    (∃ resolved, authorizeProtocolQueryOrSubscribe store tenant filter ctx timestamp =
      .ok resolved) ↔
      CollectionRolePermits store tenant ctx.author role filter timestamp := by
  simp only [authorizeProtocolQueryOrSubscribe, invoked, ok_iff, exists_const, Option.some.injEq,
    exists_eq_left']
  constructor
  · rintro ⟨resolved, protocol, named, path, atPath, definition, fetched, ruleSet, rule, _, held,
      allowed, -⟩
    exact ⟨protocol, path, definition, ruleSet, named, atPath, fetched, rule,
      verifyInvokedRole_ok_iff.mp ⟨_, held⟩, allowed⟩
  · rintro ⟨protocol, path, definition, ruleSet, named, atPath, fetched, rule, held, allowed⟩
    obtain ⟨resolved, held⟩ := verifyInvokedRole_ok_iff.mpr held
    exact ⟨resolved, protocol, named, path, atPath, definition, fetched, ruleSet, rule, resolved, held,
      allowed, rfl⟩

theorem verifyCollectionRole_ok_iff :
    verifyCollectionRole store tenant filter ctx timestamp = .ok u ↔
      ∀ role ∈ ctx.protocolRole,
        CollectionRolePermits store tenant ctx.author role filter timestamp := by
  unfold verifyCollectionRole
  cases invoked : ctx.protocolRole with
  | none => simp
  | some role =>
    simp only [Option.isSome_some, if_true, ok_iff, and_true,
      authorizeProtocolQueryOrSubscribe_ok_iff invoked, Option.mem_some_iff, forall_eq']

def invokes (ctx : AuthorizationContext) : Bool :=
  ctx.protocolRole.isSome || ctx.permissionGrantId.isSome

/-- The delegated request is admitted: its embedded grant is in force and reaches what the filter
asks for, and the author holds the role it invokes. A request for control records only is admitted
on the grant's validity alone, and not even that when the delegate is the tenant. -/
def DelegatedAdmitted (store : MessageStore) (tenant : Did) (message : Message)
    (filter : RecordsFilter) (timestamp : Timestamp) (ctx : AuthorizationContext)
    (grant : PermissionGrant) : Prop :=
  if filterTargetsOnlyControls filter then
    ctx.signer = tenant ∨ InForce store message grant.grantor ctx.signer grant
  else
    InForce store message ctx.author ctx.signer grant ∧
      grant.scope.matchesProtocolTarget filter.scopeTarget = true ∧
      ∀ role ∈ ctx.protocolRole,
        CollectionRolePermits store tenant ctx.author role filter timestamp

def DirectAdmitted (p : Primitives) (store : MessageStore) (tenant : Did) (message : Message)
    (filter : RecordsFilter) (timestamp : Timestamp) (ctx : AuthorizationContext) : Prop :=
  if filterTargetsOnlyControls filter then ∃ grant, NamedGrant p store tenant message ctx grant
  else
    NamedGrantOr p store tenant ctx
        (fun grant => InForce store message tenant ctx.author grant ∧
          grant.scope.matchesProtocolTarget filter.scopeTarget = true) True ∧
      ∀ role ∈ ctx.protocolRole,
        CollectionRolePermits store tenant ctx.author role filter timestamp

def ownerFilter (filter : RecordsFilter) (dateSort : Option DateSort) : PlanMode → FilterSet
  | .snapshot => ownerRecordsFilter filter dateSort
  | .event => ownerRecordsEventFilter filter

def Matches (p : Primitives) (store : MessageStore) (tenant : Did) (message : Message)
    (filter : RecordsFilter) (dateSort : Option DateSort) (mode : PlanMode) (timestamp : Timestamp)
    (ctx : AuthorizationContext) (row : Indexes) : Prop :=
  ∃ plan, authorizeCollection p store tenant message filter (some ctx) timestamp = .ok plan ∧
    matchesFilters row (collectionFilters plan filter dateSort mode) = true

section

variable {dateSort : Option DateSort} {mode : PlanMode} {grant : PermissionGrant}

theorem collectionFilters_nonOwner (author : Did) (granted decided : Bool) :
    collectionFilters ⟨.nonOwner, some author, granted, decided⟩ filter dateSort mode =
      nonOwnerFilters (ownerFilter filter dateSort mode) filter author granted
        (filterPinsAnAudienceScope filter) := by
  cases mode <;> rfl

theorem matches_plan_iff (unpublished : Unpublished row) (other : ctx.author ≠ tenant)
    (granted decided : Bool) :
    matchesFilters row (collectionFilters
      ⟨visibilityOf tenant ctx.author, some ctx.author, granted, decided⟩ filter dateSort mode) =
        true ↔
      SeesUnpublished (ownerFilter filter dateSort mode) filter ctx.author
        (granted || filterPinsAnAudienceScope filter) row := by
  rw [visibilityOf, if_neg other, collectionFilters_nonOwner, matches_nonOwnerFilters,
    publishedFilter_unpublished unpublished]
  simp

theorem authorizeControlReadRequest_delegated (embedded : ctx.authorDelegatedGrant = some grant) :
    authorizeControlReadRequest p store tenant message ctx = .ok u ↔
      ctx.signer = tenant ∨ InForce store message grant.grantor ctx.signer grant := by
  have requester : readRequester ctx = ctx.signer := by simp [readRequester, embedded]
  unfold authorizeControlReadRequest
  rw [requester]
  split
  · rename_i isTenant
    simp [isTenant]
  · rename_i notTenant
    simp [invokedReadGrant, embedded, requester, performBaseValidation_ok_iff, notTenant]

theorem authorizeControlReadRequest_direct (direct : ctx.authorDelegatedGrant = none)
    (other : ctx.author ≠ tenant) :
    authorizeControlReadRequest p store tenant message ctx = .ok u ↔
      ∃ grant, NamedGrant p store tenant message ctx grant := by
  have requester : readRequester ctx = ctx.author := by simp [readRequester, direct]
  simp only [authorizeControlReadRequest, requester, other, if_false, ok_iff, and_true,
    invokedReadGrant_direct direct]

theorem matches_delegated_iff (unpublished : Unpublished row)
    (embedded : ctx.authorDelegatedGrant = some grant) (other : ctx.author ≠ tenant) :
    Matches p store tenant message filter dateSort mode timestamp ctx row ↔
      DelegatedAdmitted store tenant message filter timestamp ctx grant ∧
        SeesUnpublished (ownerFilter filter dateSort mode) filter ctx.author
          ((!filterTargetsOnlyControls filter || invokes ctx) || filterPinsAnAudienceScope filter)
          row := by
  simp only [Matches, authorizeCollection, authorizeSignedCollection, DelegatedAdmitted]
  cases filterTargetsOnlyControls filter with
  | true =>
    simp only [if_true, authorizeControlCollection, ok_iff,
      authorizeControlReadRequest_delegated embedded, Bool.not_true, Bool.false_or]
    simp [matches_plan_iff unpublished other, invokes]
  | false =>
    simp only [Bool.false_eq_true, if_false, authorizeRecordsQueryOrSubscribeWithGrant, ok_iff,
      authorizeWithInvokedGrant_some embedded, verifyCollectionRole_ok_iff, Bool.not_false,
      Bool.true_or]
    simp [matches_plan_iff unpublished other, and_assoc]

theorem matches_direct_iff (unpublished : Unpublished row)
    (direct : ctx.authorDelegatedGrant = none) (other : ctx.author ≠ tenant) :
    Matches p store tenant message filter dateSort mode timestamp ctx row ↔
      DirectAdmitted p store tenant message filter timestamp ctx ∧
        SeesUnpublished (ownerFilter filter dateSort mode) filter ctx.author
          (invokes ctx || filterPinsAnAudienceScope filter) row := by
  simp only [Matches, authorizeCollection, authorizeSignedCollection, DirectAdmitted]
  cases filterTargetsOnlyControls filter with
  | true =>
    simp only [if_true, authorizeControlCollection, ok_iff,
      authorizeControlReadRequest_direct direct other]
    simp [matches_plan_iff unpublished other, invokes]
  | false =>
    simp only [Bool.false_eq_true, if_false, authorizeRecordsQueryOrSubscribeWithGrant, ok_iff,
      authorizeWithInvokedGrant_none direct, verifyCollectionRole_ok_iff, NamedGrantOr, invokes]
    -- The named grant, once valid, sets the flag exactly as naming it does.
    cases ctx.permissionGrantId with
    | none => simp [matches_plan_iff unpublished other]
    | some id => simp [matches_plan_iff unpublished other, and_assoc]

/-- An unpublished row that a delegated collection matches is matched by the author's own, exactly
when the request is not admitted, the row is not selected, or the author's own request is admitted
and sees the row. -/
theorem delegated_collection_bounded_iff_author_sees {ctx' : AuthorizationContext}
    {resolver : Option DidResolver} {required : Bool} (signature : Jws)
    (delegated : validateAuthorizationSignature p resolver message required = .ok (some ctx))
    (embedded : ctx.authorDelegatedGrant = some grant) (other : grant.grantor ≠ tenant)
    (direct : validateAuthorizationSignature p resolver (signedDirectly message signature) required =
      .ok (some ctx'))
    (byGrantor : ctx'.signer = grant.grantor) (unpublished : Unpublished row) :
    (Matches p store tenant message filter dateSort mode timestamp ctx row →
      Matches p store tenant (signedDirectly message signature) filter dateSort mode timestamp ctx'
        row) ↔
    (DelegatedAdmitted store tenant message filter timestamp ctx grant →
      SeesUnpublished (ownerFilter filter dateSort mode) filter grant.grantor
        ((!filterTargetsOnlyControls filter || invokes ctx) || filterPinsAnAudienceScope filter)
        row →
      DirectAdmitted p store tenant (signedDirectly message signature) filter timestamp ctx' ∧
        SeesUnpublished (ownerFilter filter dateSort mode) filter grant.grantor
          (invokes ctx' || filterPinsAnAudienceScope filter) row) := by
  have author := ((validateAuthorizationSignature_ok delegated).delegate embedded).1
  have signed := (validateAuthorizationSignature_ok direct).author_eq_signer rfl
  have author' : ctx'.author = grant.grantor := signed.2.trans byGrantor
  rw [matches_delegated_iff unpublished embedded (by rwa [author]),
    matches_direct_iff unpublished signed.1 (by rwa [author']), author, author', and_imp]

end

def notesQuery : QueryDescriptor where
  messageTimestamp := 5
  filter := { protocol := some "notes" }

def delegatedQuery : Message :=
  { delegatedRead "query" "notes" with descriptor := .recordsQuery notesQuery }

def queryScript : Script :=
  { readScript with
    cids := (.descriptor (.recordsQuery notesQuery), "query") :: readScript.cids
    payloads := [("query", readPayload "query"), ("own", { descriptorCid := "query" })] }

def queryContext : AuthorizationContext := readContext "query" "notes"

def ownQueryContext : AuthorizationContext :=
  ownContext "did:ex:alice" (.generic { descriptorCid := "query" })

def privateNote (author : Did) : Indexes :=
  [(.interface, .string recordsInterface), (.method, .string writeMethod),
    (.protocol, .string "notes"), (.published, .bool false), (.author, .string author),
    (.isLatestBaseState, .bool true)]

theorem privateNote_unpublished (author : Did) : Unpublished (privateNote author) := by
  intro value found
  cases found
  rfl

theorem delegated_query_of_own_note :
    Matches queryScript.primitives [] "did:ex:dave" delegatedQuery notesQuery.filter none .snapshot 5
        queryContext (privateNote "did:ex:alice") ∧
      Matches queryScript.primitives [] "did:ex:dave"
        (signedDirectly delegatedQuery (signedBy "own" "alice")) notesQuery.filter none .snapshot 5
        ownQueryContext (privateNote "did:ex:alice") := by
  have delegated : validateAuthorizationSignature queryScript.primitives (some openResolver)
      delegatedQuery false = .ok (some queryContext) := rfl
  have embedded : queryContext.authorDelegatedGrant = some (readGrant "notes") := rfl
  refine ⟨?matched, (delegated_collection_bounded_iff_author_sees (signedBy "own" "alice") delegated
    embedded (by decide) rfl rfl (privateNote_unpublished "did:ex:alice")).mpr (fun _ _ => ?_)
      ?matched⟩
  · exact ⟨_, rfl, rfl⟩
  · exact ⟨⟨trivial, fun _ invoked => nomatch invoked⟩, .inr ⟨rfl, .inr (.inl ⟨rfl, rfl⟩)⟩⟩

theorem self_issued_grant_widens_query :
    validateAuthorizationSignature queryScript.primitives (some openResolver) delegatedQuery false =
        .ok (some queryContext) ∧
      validateAuthorizationSignature queryScript.primitives (some openResolver)
        (signedDirectly delegatedQuery (signedBy "own" "alice")) false =
          .ok (some ownQueryContext) ∧
      Unpublished (privateNote "did:ex:dave") ∧
      Matches queryScript.primitives [] "did:ex:dave" delegatedQuery notesQuery.filter none .snapshot
        5 queryContext (privateNote "did:ex:dave") ∧
      ¬ Matches queryScript.primitives [] "did:ex:dave"
        (signedDirectly delegatedQuery (signedBy "own" "alice")) notesQuery.filter none .snapshot 5
        ownQueryContext (privateNote "did:ex:dave") := by
  refine ⟨rfl, rfl, privateNote_unpublished "did:ex:dave", ⟨_, rfl, rfl⟩, ?_⟩
  rintro ⟨plan, admitted, selected⟩
  cases admitted
  exact absurd selected (by decide)

end Enbox.Proof.Authority
