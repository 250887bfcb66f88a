import Enbox.Proof.Authority.Collection
import Enbox.Proof.Run.Context

/-! # Roles stay in their context -/

namespace Enbox.Proof.Run

open Lib Authority Concrete List

variable {n : Nat} {rolePath ancestors : Path} {contextId : Option Path} {definition : Definition}
  {protocol : String} {role : Reference} {row : Row} {set : FilterSet} {d : WriteDescriptor}
  {store : MessageStore} {filter : RecordsFilter} {sort : MessageSort} {message target : Message}
  {dateSort : Option DateSort} {plan : CollectionAuthorization} {auth : AuthorizationContext}
  {kind : RecordsAuthorizationKind} {timestamp : Option Timestamp}

/-! ## Agreement of contexts -/

def AgreeIn (n : Nat) (a b : Option Path) : Prop :=
  n = 0 ∨ ∃ c c', a = some c ∧ b = some c' ∧ n ≤ c.length ∧ n ≤ c'.length ∧ c.take n = c'.take n

theorem AgreeIn.trans {a b c : Option Path} (first : AgreeIn n a b) (second : AgreeIn n b c) :
    AgreeIn n a c := by
  rcases first with zero | ⟨x, y, rfl, rfl, deep, -, same⟩
  · exact .inl zero
  · rcases second with zero | ⟨y', z, isY, rfl, -, deep', same'⟩
    · exact .inl zero
    · cases isY
      exact .inr ⟨x, z, rfl, rfl, deep, deep', same.trans same'⟩

theorem AgreeIn.symm {a b : Option Path} (agree : AgreeIn n a b) : AgreeIn n b a := by
  rcases agree with zero | ⟨x, y, isX, isY, deep, deep', same⟩
  · exact .inl zero
  · exact .inr ⟨y, x, isY, isX, deep', deep, same.symm⟩

theorem agreeIn_of_prefix {c c' : Path} (deep : n ≤ c.length) (below : c <+: c') :
    AgreeIn n (some c) (some c') := by
  obtain ⟨rest, rfl⟩ := below
  refine .inr ⟨c, c ++ rest, rfl, rfl, deep, ?_, ?_⟩
  · rw [length_append]
    omega
  · rw [take_append_of_le_length deep]

theorem roleAudienceContextId_some
    (found : roleAudienceContextId rolePath contextId = some ancestors) :
    (rolePath.length - 1 = 0 ∧ ancestors = []) ∨
      ∃ context, contextId = some context ∧ rolePath.length - 1 ≤ context.length ∧
        ancestors = context.take (rolePath.length - 1) ∧ rolePath.length - 1 ≠ 0 := by
  unfold roleAudienceContextId at found
  split at found
  · rename_i root
    cases found
    exact .inl ⟨root, rfl⟩
  · rename_i nested
    obtain ⟨context, rfl, taken⟩ := Option.bind_eq_some_iff.mp found
    split at taken
    · cases taken
    · rename_i deep
      cases taken
      rw [not_or, not_lt] at deep
      exact .inr ⟨context, rfl, deep.1, rfl, nested⟩

theorem agreeIn_self (found : roleAudienceContextId rolePath contextId = some ancestors) :
    AgreeIn (rolePath.length - 1) contextId contextId := by
  rcases roleAudienceContextId_some found with ⟨root, -⟩ | ⟨context, rfl, deep, -⟩
  · exact .inl root
  · exact agreeIn_of_prefix deep (prefix_refl _)

/-! ## Role records -/

structure RoleRecord (stores : Stores) (tenant author : Did) (rolePath : Path)
    (record : Message) : Prop where
  latest : ∃ row ∈ stores.messages, row.tenant = tenant ∧ row.message = record ∧
    row.indexes.lookup .isLatestBaseState = some (.bool true)
  role : ∃ d, record.descriptor = .recordsWrite d ∧ d.protocolPath = rolePath ∧
    d.recipient = some author

theorem resolveRole_path {roleProtocol : String}
    (resolved : resolveRole definition protocol role = some (roleProtocol, rolePath)) :
    rolePath = role.path := by
  cases role with
  | plain path =>
    cases resolved
    rfl
  | cross usesAlias path =>
    obtain ⟨uri, -, same⟩ := Option.map_eq_some_iff.mp resolved
    cases same
    rfl

section

variable {p : Primitives} {journal : Journal} {tenant author : Did} {recordId : String}

theorem write_of_selected (history : History p journal) (stored : row ∈ journal.stores.messages)
    (selected : matchesSet row.indexes set = true)
    (interface : (IndexKey.interface, stringFilter recordsInterface) ∈ set)
    (method : (IndexKey.method, stringFilter writeMethod) ∈ set) :
    ∃ admission d id author latest,
      WriteOrigin p journal.accepted row admission d id author latest := by
  cases history.origin row stored with
  | write origin => exact ⟨_, _, _, _, _, origin⟩
  | delete _ _ _ _ indexed =>
    exact absurd (text_of_matchesSet selected method indexed.method) (by decide)
  | configure _ isProtocols =>
    exact absurd (text_of_matchesSet selected interface isProtocols) (by decide)

structure SelectedRole (author : Did) (rolePath ancestors : Path) (record : Message)
    (d : WriteDescriptor) (latest : Bool) : Prop where
  latest : latest = true
  path : d.protocolPath = rolePath
  recipient : d.recipient = some author
  context : ancestors ≠ [] → ∃ context, record.contextId = some context ∧ ancestors <+: context

theorem selectedRole_of_matches {id roleProtocol : String} {indexedAs : Did} {latest : Bool}
    (indexed : IndexedWrite p row.message indexedAs latest row.indexes d id)
    (selected : matchesSet row.indexes (roleRecordFilters author roleProtocol rolePath ancestors) =
      true) : SelectedRole author rolePath ancestors row.message d latest := by
  simp only [roleRecordFilters, matchesSet_append, matchesSet_cons, Bool.and_eq_true,
    indexed.protocolPath, indexed.recipient, indexed.isLatestBaseState] at selected
  obtain ⟨⟨-, -, -, path, recipient, isLatest, -⟩, context⟩ := selected
  refine ⟨by simpa using isLatest, by simpa using path, ?_, fun nested => ?_⟩
  · cases named : d.recipient with
    | none => simp [named] at recipient
    | some other => simpa [named] using recipient
  · rw [if_neg nested] at context
    exact path_of_matchesSet context (mem_singleton_self _) indexed.contextId

theorem roleRecord_of_holdsRole (history : History p journal) {timestamp : Timestamp}
    (holds : HoldsRole journal.stores.messages tenant author role protocol contextId definition
      timestamp) :
    AgreeIn (role.path.length - 1) contextId contextId ∧
    ∃ record, RoleRecord journal.stores tenant author role.path record ∧
      AgreeIn (role.path.length - 1) record.contextId contextId := by
  obtain ⟨roleProtocol, rolePath, governing, ancestors, record, resolved, -, -, asked, found⟩ :=
    holds.held
  cases resolveRole_path resolved
  refine ⟨agreeIn_self asked, record, ?_⟩
  obtain ⟨row, stored, ofTenant, rfl, selected⟩ := mem_first found
  obtain ⟨admission, d, id, indexedAs, latest, origin⟩ :=
    write_of_selected history stored selected (by simp [roleRecordFilters])
      (by simp [roleRecordFilters])
  have isRole := selectedRole_of_matches origin.indexed selected
  have latestState := origin.indexed.isLatestBaseState
  rw [isRole.latest] at latestState
  refine ⟨⟨⟨row, stored, ofTenant, rfl, latestState⟩, d, origin.indexed.descriptor, isRole.path,
    isRole.recipient⟩, ?_⟩
  rcases roleAudienceContextId_some asked with ⟨root, -⟩ | ⟨context, rfl, deep, rfl, nested⟩
  · exact .inl root
  · have depth : (context.take (role.path.length - 1)).length = role.path.length - 1 :=
      length_take_of_le deep
    obtain ⟨held, isHeld, below⟩ := isRole.context fun empty => by
      rw [empty] at depth
      exact nested depth.symm
    rw [isHeld]
    have outer := agreeIn_of_prefix depth.ge below
    have inner := agreeIn_of_prefix depth.ge ( take_prefix (role.path.length - 1) context)
    exact outer.symm.trans inner

/-! ## Requests that reach a record through a role -/

def readTarget (store : MessageStore) (tenant : Did) (candidate : Message) :
    Except Failure Message :=
  if candidate.deleteDescriptor.isSome then deletedRecordWrite store tenant candidate
  else .ok candidate

inductive RoleAccess (p : Primitives) (stores : Stores) (tenant : Did) (auth : AuthorizationContext)
    (recordId : String) : Prop
  | update {request : Request} {d : WriteDescriptor} (addressed : request.tenant = tenant)
      (isWrite : request.message.descriptor = .recordsWrite d)
      (record : request.message.recordId = some recordId)
      (signed : validateAuthorizationSignature p request.resolver request.message true =
        .ok (some auth))
      (update : p.isInitialWrite request.message auth.author = false)
      (conforming : conforms p stores (.request request) = true)
      (success : (processMessage p stores request).1.isSuccess = true)
      (decided : authorizeAgainstProtocol p stores.messages tenant request.message auth .write none =
        .ok ())
  | read {row : Row} {target : Message} {timestamp : Timestamp} (stored : row ∈ stores.messages)
      (addressed : row.tenant = tenant) (record : messageRecordId row.message = some recordId)
      (found : readTarget stores.messages tenant row.message = .ok target)
      (decided : authorizeAgainstProtocol p stores.messages tenant target auth .read
        (some timestamp) = .ok ())
  | delete {target : Message} {prune : Bool} {timestamp : Timestamp}
      (found : deletedWrite p (fetchRecordMessages stores.messages tenant recordId) = some target)
      (decided : authorizeAgainstProtocol p stores.messages tenant target auth (.delete prune)
        (some timestamp) = .ok ())
  | query {message : Message} {filter : RecordsFilter} {dateSort : Option DateSort}
      {sort : MessageSort} {timestamp : Timestamp} {plan : CollectionAuthorization} {row : Row}
      (records : filterTargetsOnlyControls filter = false)
      (admitted : authorizeCollection p stores.messages tenant message filter (some auth) timestamp =
        .ok plan)
      (returned : row ∈ stores.messages.rows tenant
        (collectionFilters plan filter dateSort .snapshot) sort)
      (record : row.message.recordId = some recordId)

def AcceptedAs (p : Primitives) (accepted : List Admission) (tenant : Did) (recordId : String)
    (message : Message) : Prop :=
  ∃ admission ∈ accepted, admission.tenant = tenant ∧
    admission.message.contextId = message.contextId ∧
    ∃ d, Founded p accepted admission d recordId

theorem acceptedAs_of_stored (history : History p journal) (stored : row ∈ journal.stores.messages)
    (isWrite : row.message.descriptor = .recordsWrite d)
    (record : row.message.recordId = some recordId) :
    AcceptedAs p journal.accepted row.tenant recordId row.message := by
  obtain ⟨admission, listed, ofTenant, sameContext, founded⟩ :=
    history.stored_as stored isWrite record
  exact ⟨admission, listed, ofTenant, sameContext, d, founded⟩

theorem acceptedAs_of_selected (history : History p journal)
    (found : message ∈ journal.stores.messages.query tenant [set] sort)
    (clause : (IndexKey.recordId, stringFilter recordId) ∈ set)
    (isWrite : message.descriptor = .recordsWrite d) :
    AcceptedAs p journal.accepted tenant recordId message := by
  obtain ⟨row, stored, rfl, rfl, selected⟩ := mem_query found
  obtain ⟨admission, listed, ofTenant, ⟨encodedData, message⟩, id, founded, indexed⟩ :=
    history.stored stored isWrite
  cases text_of_matchesSet selected clause indexed
  exact ⟨admission, listed, ofTenant, by rw [message]; rfl, d, founded⟩

theorem retains_of_deleted (history : History p journal) (stored : row ∈ journal.stores.messages)
    (addressed : row.tenant = tenant) (isDelete : row.message.deleteDescriptor.isSome = true)
    (record : messageRecordId row.message = some recordId) :
    retains journal.stores tenant recordId = true := by
  obtain ⟨d, isDelete⟩ := Option.isSome_iff_exists.mp isDelete
  have descriptor := Message.deleteDescriptor_eq_some.mp isDelete
  cases history.origin row stored with
  | write origin => cases origin.indexed.descriptor.symm.trans descriptor
  | configure isConfigure => cases isConfigure.symm.trans descriptor
  | delete _ bare _ _ indexed =>
    cases indexed.isDelete.symm.trans descriptor
    simp only [messageRecordId, bare, isDelete, Option.map_some] at record
    cases record
    simp only [retains, any_eq_true, Bool.and_eq_true, decide_eq_true_eq]
    exact ⟨row, stored, addressed, indexed.recordId⟩

theorem acceptedAs_of_readTarget (law : p.CollisionFree) (conformed : Conformed p journal)
    (stored : row ∈ journal.stores.messages) (addressed : row.tenant = tenant)
    (record : messageRecordId row.message = some recordId)
    (found : readTarget journal.stores.messages tenant row.message = .ok target)
    (isWrite : target.descriptor = .recordsWrite d) :
    AcceptedAs p journal.accepted tenant recordId target := by
  unfold readTarget at found
  split at found
  · rename_i isDelete
    simp only [deletedRecordWrite, record, Option.getD_some, ok_iff] at found
    obtain ⟨initial, isInitial, rfl⟩ := found
    cases newest : fetchNewestWrite journal.stores.messages tenant recordId with
    | ok write =>
      rw [newest] at isWrite
      simp only [fetchNewestWrite, okOr_eq_ok] at newest
      exact acceptedAs_of_selected conformed.history (mem_of_mem_head? newest)
        (by simp [newestWriteFilters]) isWrite
    | error failure =>
      rw [newest] at isWrite
      have retained := retains_of_deleted conformed.history stored addressed isDelete record
      obtain ⟨-, carried⟩ :=
        fetchInitialWriteMessage_initial law conformed.history conformed.dated retained isInitial
      obtain ⟨initialRow, storedInitial, rfl, rfl, -⟩ := mem_first isInitial
      exact acceptedAs_of_stored conformed.history storedInitial isWrite carried
  · rename_i notDelete
    cases found
    have carried : row.message.recordId = some recordId := by
      simpa [messageRecordId, Option.not_isSome_iff_eq_none.mp notDelete] using record
    exact addressed ▸ acceptedAs_of_stored conformed.history stored isWrite carried

/-! ## What a query returns -/

theorem context_mem_ownerFilter (dateSort : Option DateSort) {context : Path}
    (asked : filter.contextId = some context) :
    (IndexKey.contextId, Filter.subtree context) ∈ ownerRecordsFilter filter dateSort := by
  refine mem_of_lookup ?_
  simp only [ownerRecordsFilter, lookup_assocInsert, lookup_recordsFilterToFilterMap,
    RecordsFilter.clauses, reverse_append, lookup_append, lookup_optional,
    lookup_publicationClauses, lookup_sortClause, lookup_listClause, asked, reduceCtorEq, if_false,
    false_and, Option.none_or, Option.map_some]
  rw [lookup_tagClauses (by simp)]
  rfl

def varies (key : IndexKey) : Bool := key = .published || key = .author || key = .recipient

theorem mem_of_mem_nonOwnerFilters {owner : FilterSet} {granted exact : Bool}
    (listed : set ∈ nonOwnerFilters owner filter author granted exact) {clause : IndexKey × Filter}
    (fixed : varies clause.1 = false) (mem : clause ∈ owner) :
    clause ∈ set := by
  simp only [varies, Bool.or_eq_false_iff, decide_eq_false_iff_not] at fixed
  obtain ⟨⟨notPublished, notAuthor⟩, notRecipient⟩ := fixed
  have plain (published : Bool) : clause ∈ assocInsert .published (boolFilter published) owner :=
    mem_assocInsert_of_ne notPublished _ mem
  have narrowed {key : IndexKey} (different : clause.1 ≠ key) (value : Filter) :
      clause ∈ unpublishedFilter (assocInsert key value owner) :=
    mem_assocInsert_of_ne notPublished _ (mem_assocInsert_of_ne different _ mem)
  simp only [nonOwnerFilters, mem_append, mem_ite_nil_right, mem_singleton] at listed
  rcases listed with ⟨-, rfl⟩ | ⟨-, ((⟨-, rfl⟩ | ⟨-, rfl⟩) | ⟨-, rfl⟩) | ⟨-, rfl⟩⟩
  · exact plain true
  · exact plain false
  · exact narrowed notAuthor _
  · exact plain false
  · exact narrowed notRecipient _

theorem returned_by_query {timestamp : Timestamp} (invoked : auth.protocolRole = some role)
    (records : filterTargetsOnlyControls filter = false)
    (admitted : authorizeCollection p store tenant message filter (some auth) timestamp = .ok plan)
    (returned : row ∈ store.rows tenant (collectionFilters plan filter dateSort .snapshot) sort) :
    CollectionRolePermits store tenant auth.author role filter timestamp ∧
    ∃ set, matchesSet row.indexes set = true ∧
      ∀ clause ∈ ownerRecordsFilter filter dateSort, varies clause.1 = false → clause ∈ set := by
  simp only [authorizeCollection, authorizeSignedCollection, records, Bool.false_eq_true, if_false,
    ok_iff, verifyCollectionRole_ok_iff] at admitted
  obtain ⟨granted, -, _, permits, rfl⟩ := admitted
  refine ⟨permits role invoked, ?_⟩
  obtain ⟨-, -, selected⟩ := mem_rows returned
  rw [visibilityOf] at selected
  split at selected
  · exact ⟨_, by simpa [collectionFilters] using selected, fun _ listed _ => listed⟩
  · rw [collectionFilters_nonOwner, matchesFilters_iff, nonOwnerFilters_eq_nil_iff] at selected
    rcases selected with ⟨-, narrow, -⟩ | ⟨set, listed, selected⟩
    · simp [invoked] at narrow
    · exact ⟨set, selected, fun clause mem fixed => mem_of_mem_nonOwnerFilters listed fixed mem⟩

/-! ## Isolation -/

theorem AcceptedAs.founds {accepted : List Admission}
    (write : AcceptedAs p accepted tenant recordId message) :
    ∃ initial d₀, Founds p accepted tenant recordId initial d₀ := by
  obtain ⟨admission, -, ofTenant, -, d, founded⟩ := write
  obtain ⟨initial, d₀, founds, -⟩ := founded.founded
  exact ⟨initial, d₀, ofTenant ▸ founds⟩

theorem context_of_initial (law : p.CollisionFree) (conformed : Conformed p journal)
    (write : AcceptedAs p journal.accepted tenant recordId message) {initial : Admission}
    {d₀ : WriteDescriptor} (founds : Founds p journal.accepted tenant recordId initial d₀)
    (ordinary : isOrdinary d₀ = true) : message.contextId = initial.message.contextId := by
  obtain ⟨admission, listed, -, sameContext, d, founded⟩ := write
  have foundedInitial := conformed.founded founds.listed founds.isWrite founds.record
  rw [← sameContext]
  exact conformed.same_context law founds.listed foundedInitial ordinary listed founded

theorem holdsRole_of_decided (invoked : auth.protocolRole = some role)
    (decided : authorizeAgainstProtocol p store tenant target auth kind timestamp = .ok ()) :
    (∃ d, target.descriptor = .recordsWrite d) ∧ ∃ protocol definition evaluated,
      HoldsRole store tenant auth.author role protocol target.contextId definition evaluated := by
  obtain ⟨d, evaluated, definition, ruleSet, chain, isWrite, -, -, -, held, -⟩ :=
    (authorizeAgainstProtocol_ok_iff.mp decided).rule
  exact ⟨⟨d, Message.writeDescriptor_eq_some.mp isWrite⟩, d.protocol, definition, evaluated,
    held role invoked⟩

theorem roleRecord_of_decided (history : History p journal)
    (invoked : auth.protocolRole = some role)
    (decided : authorizeAgainstProtocol p journal.stores.messages tenant target auth kind timestamp =
      .ok ()) :
    ∃ record, RoleRecord journal.stores tenant auth.author role.path record ∧
      AgreeIn (role.path.length - 1) record.contextId target.contextId := by
  obtain ⟨-, protocol, definition, evaluated, holds⟩ := holdsRole_of_decided invoked decided
  exact (roleRecord_of_holdsRole history holds).2

structure Isolated (p : Primitives) (journal : Journal) (tenant author : Did) (role : Reference)
    (recordId : String) : Prop where
  founded : ∃ initial d₀, Founds p journal.accepted tenant recordId initial d₀
  held : ∀ initial d₀, Founds p journal.accepted tenant recordId initial d₀ →
    isOrdinary d₀ = true → ∃ record, RoleRecord journal.stores tenant author role.path record ∧
      AgreeIn (role.path.length - 1) record.contextId initial.message.contextId

section

variable (law : p.CollisionFree) (conformed : Conformed p journal)

include law conformed

theorem isolated_of_decided (invoked : auth.protocolRole = some role)
    (decided : authorizeAgainstProtocol p journal.stores.messages tenant target auth kind timestamp =
      .ok ()) (write : AcceptedAs p journal.accepted tenant recordId target) :
    Isolated p journal tenant auth.author role recordId := by
  obtain ⟨record, isRole, agree⟩ := roleRecord_of_decided conformed.history invoked decided
  refine ⟨write.founds, fun initial d₀ founds ordinary => ⟨record, isRole, ?_⟩⟩
  rw [← context_of_initial law conformed write founds ordinary]
  exact agree

theorem isolated_of_update {request : Request}
    (isWrite : request.message.descriptor = .recordsWrite d)
    (record : request.message.recordId = some recordId)
    (signed : validateAuthorizationSignature p request.resolver request.message true =
      .ok (some auth)) (update : p.isInitialWrite request.message auth.author = false)
    (conforming : conforms p journal.stores (.request request) = true)
    (success : (processMessage p journal.stores request).1.isSuccess = true)
    (invoked : auth.protocolRole = some role)
    (decided : authorizeAgainstProtocol p journal.stores.messages request.tenant request.message auth
      .write none = .ok ()) :
    Isolated p journal request.tenant auth.author role recordId := by
  -- An accepted update is isolated by the journal in which it is recorded.
  have after := conformed.step law conforming
  have listed := admission_mem isWrite signed success
  have accepted : (⟨request.tenant, request.message, auth.author⟩ : Admission) ∈
      (journal.record p (.request request)).accepted := mem_append_right _ listed
  have write : AcceptedAs p (journal.record p (.request request)).accepted request.tenant recordId
      request.message := ⟨_, accepted, rfl, rfl, d, after.founded accepted isWrite record⟩
  obtain ⟨roleRecord, isRole, agree⟩ := roleRecord_of_decided conformed.history invoked decided
  refine ⟨?_, fun initial d₀ founds ordinary => ⟨roleRecord, isRole, ?_⟩⟩
  · obtain ⟨d', auth', id, accepts, same⟩ := mem_admissions listed
    cases signed.symm.trans accepts.signed
    cases record.symm.trans accepts.record
    obtain ⟨initial, d₀, founds, -⟩ := update_founded law conformed.history accepts update
    exact ⟨initial, d₀, founds⟩
  · rw [← context_of_initial law after write founds.append ordinary]
    exact agree

theorem isolated_of_query {timestamp : Timestamp} (invoked : auth.protocolRole = some role)
    (records : filterTargetsOnlyControls filter = false)
    (admitted : authorizeCollection p journal.stores.messages tenant message filter (some auth)
      timestamp = .ok plan) (returned : row ∈ journal.stores.messages.rows tenant
      (collectionFilters plan filter dateSort .snapshot) sort)
    (record : row.message.recordId = some recordId) :
    Isolated p journal tenant auth.author role recordId := by
  obtain ⟨permits, set, selected, keeps⟩ := returned_by_query invoked records admitted returned
  obtain ⟨stored, ofTenant, -⟩ := mem_rows returned
  have interface : (IndexKey.interface, stringFilter recordsInterface) ∈
      ownerRecordsFilter filter dateSort :=
    mem_assocInsert_of_ne (by decide) _ (mem_assocInsert_of_ne (by decide) _
      (mem_assocInsert_self _ _ _))
  have method : (IndexKey.method, stringFilter writeMethod) ∈ ownerRecordsFilter filter dateSort :=
    mem_assocInsert_of_ne (by decide) _ (mem_assocInsert_self _ _ _)
  obtain ⟨admission, d, id, indexedAs, latest, origin⟩ :=
    write_of_selected conformed.history stored selected (keeps _ interface rfl)
      (keeps _ method rfl)
  have write := acceptedAs_of_stored conformed.history stored origin.indexed.descriptor record
  rw [ofTenant] at write
  obtain ⟨protocol, path, definition, ruleSet, -, -, -, -, holds, -⟩ := permits.rule
  obtain ⟨asked, roleRecord, isRole, agree⟩ := roleRecord_of_holdsRole conformed.history holds
  refine ⟨write.founds, fun initial d₀ founds ordinary => ⟨roleRecord, isRole, agree.trans ?_⟩⟩
  rw [← context_of_initial law conformed write founds ordinary]
  -- The row lies below the context of the filter, as far as the role asks for one.
  rcases asked with root | ⟨context, _, isContext, -, deep, -, -⟩
  · exact .inl root
  · obtain ⟨below, isBelow, under⟩ := path_of_matchesSet selected
      (keeps _ (context_mem_ownerFilter dateSort isContext) rfl) origin.indexed.contextId
    rw [isContext, isBelow]
    exact agreeIn_of_prefix deep under

theorem isolated_of_access (invoked : auth.protocolRole = some role)
    (access : RoleAccess p journal.stores tenant auth recordId) :
    Isolated p journal tenant auth.author role recordId := by
  cases access with
  | update addressed isWrite record signed update conforming success decided =>
    subst addressed
    exact isolated_of_update law conformed isWrite record signed update conforming success invoked
      decided
  | read stored addressed record found decided =>
    obtain ⟨⟨d, isWrite⟩, -⟩ := holdsRole_of_decided invoked decided
    exact isolated_of_decided law conformed invoked decided
      (acceptedAs_of_readTarget law conformed stored addressed record found isWrite)
  | delete found decided =>
    obtain ⟨⟨d, isWrite⟩, -⟩ := holdsRole_of_decided invoked decided
    exact isolated_of_decided law conformed invoked decided
      (acceptedAs_of_selected conformed.history (mem_deletedWrite found) (by simp) isWrite)
  | query records admitted returned record =>
    exact isolated_of_query law conformed invoked records admitted returned record

end

end

/-- In every conforming run, a request that reaches a record through a role comes from the recipient
of a latest role record, and the contexts of the two agree as far as the role is nested. -/
theorem role_isolation_in_conforming_run {p : Primitives} (law : p.CollisionFree) {journal : Journal}
    (run : ConformingRun p journal) {tenant : Did} {recordId : String} {auth : AuthorizationContext}
    {role : Reference} (invoked : auth.protocolRole = some role)
    (access : RoleAccess p journal.stores tenant auth recordId) :
    (∃ initial d₀, Founds p journal.accepted tenant recordId initial d₀) ∧
    ∀ initial d₀, Founds p journal.accepted tenant recordId initial d₀ → isOrdinary d₀ = true →
      ∃ record, RoleRecord journal.stores tenant auth.author role.path record ∧
        AgreeIn (role.path.length - 1) record.contextId initial.message.contextId := by
  have isolated := isolated_of_access law (conformed_of_run law run) invoked access
  exact ⟨isolated.founded, isolated.held⟩

namespace Threads

theorem participant_edits_own_thread :
    p.CollisionFree ∧
    AllowedAlong (Journal.record p) (fun journal event => conforms p journal.stores event = true) {}
      joined ∧
    editContext.protocolRole = some (.plain ["thread", "participant"]) ∧
    RoleAccess p (journal joined).stores "did:ex:alice" editContext "T2" ∧
    ∀ initial d₀, Founds p (journal joined).accepted "did:ex:alice" "T2" initial d₀ →
      isOrdinary d₀ = true →
      ∃ record, RoleRecord (journal joined).stores "did:ex:alice" "did:ex:bob"
          ["thread", "participant"] record ∧
        AgreeIn 1 record.contextId initial.message.contextId := by
  have invoked : editContext.protocolRole = some (.plain ["thread", "participant"]) := rfl
  refine ⟨collisionFree, ?along, invoked, ?access, (role_isolation_in_conforming_run collisionFree
    (AllowedAlong.reaches ?along) invoked ?access).2⟩
  · exact ⟨rfl, rfl, rfl, rfl, trivial⟩
  · have addressed : (request edit "two").tenant = "did:ex:alice" := rfl
    exact .update addressed rfl rfl rfl rfl rfl rfl rfl

theorem participant_of_second_thread_updates_first :
    p.CollisionFree ∧
    validateAuthorizationSignature p (some openResolver) movedByBob true =
      .ok (some movedContext) ∧
    movedContext.protocolRole = some (.plain ["thread", "participant"]) ∧
    authorizeAgainstProtocol p (journal joined).stores.messages "did:ex:alice" movedByBob movedContext
      .write none = .ok () ∧
    (processMessage p (journal joined).stores (request movedByBob "one")).1 = accepted ∧
    movedByBob.recordId = some "T1" ∧
    Founds p (journal joined).accepted "did:ex:alice" "T1"
      ⟨"did:ex:alice", one, "did:ex:alice"⟩ (thread "one" 2) ∧
    isOrdinary (thread "one" 2) = true ∧
    ¬ ∃ record, RoleRecord (journal joined).stores "did:ex:alice" "did:ex:bob"
        ["thread", "participant"] record ∧
      AgreeIn 1 record.contextId one.contextId := by
  have listed : (⟨"did:ex:alice", one, "did:ex:alice"⟩ : Admission) ∈ (journal joined).accepted :=
    mem_cons_self
  refine ⟨collisionFree, rfl, rfl, rfl, rfl, rfl, ⟨listed, rfl, rfl, rfl, rfl, rfl⟩, rfl, ?_⟩
  rintro ⟨record, ⟨⟨row, stored, -, rfl, -⟩, d, isWrite, path, -⟩, agree⟩
  have inSecond : ((journal joined).stores.messages.all fun row =>
      row.message.writeDescriptor.all fun d =>
        d.protocolPath ≠ ["thread", "participant"] || row.message.contextId = some ["T2", "R1"]) =
      true := rfl
  have context := all_eq_true.mp inSecond row stored
  simp only [Message.writeDescriptor_eq_some.mpr isWrite, Option.all_some, path, ne_eq,
    not_true_eq_false, decide_false, Bool.false_or, decide_eq_true_eq] at context
  rcases agree with zero | ⟨c, c', isC, isC', -, -, same⟩
  · cases zero
  · cases isC.symm.trans context
    cases isC'
    exact absurd same (by decide)

end Threads

end Enbox.Proof.Run
