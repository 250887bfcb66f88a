import Enbox.Proof.Authority.Grants
import Enbox.Proof.Permission.Signature
import Enbox.Proof.State.Convergence

/-! # Revocations and the order of writes -/

namespace Enbox.Proof.State

open Lib Run Authority Enbox.Message

variable {p : Primitives} {tenant author other revoker : Did}
  {grantId otherId writeId revocationId : String} {d e : WriteDescriptor} {stores : Stores}
  {auth : AuthorizationContext} {row : Row} {revoking : Request} {requests : List Request}

structure Invokes (p : Primitives) (tenant : Did) (recordId grantId : String) (request : Request)
    (d : WriteDescriptor) : Prop where
  ofTenant : request.tenant = tenant
  isWrite : request.message.descriptor = .recordsWrite d
  record : request.message.recordId = some recordId
  grant : d.permissionGrantId = some grantId
  invoked : ∀ auth, validateAuthorizationSignature p request.resolver request.message true =
    .ok (some auth) → auth.author ≠ tenant ∧ auth.authorDelegatedGrant = none
  ordinary : ControlKind.of request.message = none
  plain : d.squash ≠ some true
  unrevoking : d.protocol ≠ permissionsProtocolUri ∨ d.protocolPath ≠ permissionsRevocationPath

structure Revocation (p : Primitives) (tenant : Did) (recordId grantId : String) (author : Did)
    (request : Request) (d : WriteDescriptor) : Prop where
  ofTenant : request.tenant = tenant
  isWrite : request.message.descriptor = .recordsWrite d
  record : request.message.recordId = some recordId
  protocol : d.protocol = permissionsProtocolUri
  protocolPath : d.protocolPath = permissionsRevocationPath
  parent : d.parentId = some grantId
  grant : d.permissionGrantId ≠ some grantId
  isInitial : p.isInitialWrite request.message author = true
  signed : requestAuthor p request = some author

section

variable {recordId : String} {request : Request}

theorem Invokes.sameRows (law : p.CollisionFree) (sound : Sound p stores.messages)
    (invokes : Invokes p tenant recordId grantId request d)
    (apart : ¬ (other = tenant ∧ otherId = recordId)) :
    SameRows other otherId (processMessage p stores request).2.messages stores.messages := by
  intro row ofRow
  have foreign : ¬ OfRecord request.tenant recordId row := fun ofRecord =>
    apart ⟨ofRow.tenant.symm.trans (ofRecord.tenant.trans invokes.ofTenant),
      ofRow.state.unique ofRecord.state⟩
  rw [mem_write_other law sound invokes.isWrite invokes.record foreign]
  refine and_iff_left_of_imp fun _ => ?_
  rintro ⟨-, -, squashed | revokes⟩
  · exact invokes.plain squashed.squash
  · exact invokes.unrevoking.elim (· revokes.protocol) (· revokes.protocolPath)

theorem Revocation.plain (revocation : Revocation p tenant recordId grantId author request d)
    (passed : Passed p stores.messages request auth recordId) :
    d.squash ≠ some true := by
  intro isSquash
  obtain ⟨-, policy, resolved, declared⟩ := squash_of_passed revocation.isWrite
    (by rw [revocation.protocolPath]; decide) passed isSquash
  simp only [resolvePolicy, writeDescriptorOr_eq_ok.mpr revocation.isWrite, ok_bind, ok_iff]
    at resolved
  obtain ⟨timestamp, -, definition, fetched, ruleSet, ruled, referenced, -, _, -, rfl⟩ := resolved
  rw [revocation.protocol] at fetched
  cases fetched
  rw [revocation.protocolPath] at ruled
  cases ruled
  cases declared

section

variable (law : p.CollisionFree) (sound : Sound p stores.messages)
  (revocation : Revocation p tenant recordId grantId author request d)

include law sound revocation

theorem Revocation.mem_other (accepted : Accepted p stores request)
    (other : ¬ OfRecord tenant recordId row) :
    row ∈ (processMessage p stores request).2.messages ↔
      row ∈ stores.messages ∧ ¬ (row.tenant = tenant ∧ Revokes d row) := by
  obtain ⟨auth, passed⟩ := passed_of_accepted revocation.isWrite revocation.record accepted
  have plain := revocation.plain passed
  rw [mem_write_other law sound revocation.isWrite revocation.record
    (revocation.ofTenant ▸ other), revocation.ofTenant]
  refine and_congr_right fun _ => not_congr ⟨?_, ?_⟩
  · rintro ⟨-, ofTenant, squashed | revokes⟩
    · exact absurd squashed.squash plain
    · exact ⟨ofTenant, revokes⟩
  · exact fun ⟨ofTenant, revokes⟩ => ⟨accepted, ofTenant, .inr revokes⟩

omit law sound revocation in
theorem Revocation.sentWithData (revocation : Revocation p tenant recordId grantId author request d)
    (accepted : Accepted p stores request) : sentWithData p request = true := by
  obtain ⟨admitted, staged, transition, committed, wrote, -⟩ :=
    processMessage_write revocation.isWrite accepted
  have isAuthor : admitted.auth.author = author :=
    Option.some.inj ((requestAuthor_of_passed (wrote.passed revocation.record).1).symm.trans
      revocation.signed)
  by_contra unsent
  rw [Bool.not_eq_true, State.sentWithData, Option.isSome_eq_false_iff, Option.isNone_iff_eq_none]
    at unsent
  have stages := wrote.stages
  simp only [stageWrite, unsent, stageWithoutData, isAuthor, revocation.isInitial, if_true,
    bind_eq_ok] at stages
  obtain ⟨_, -, stages⟩ := stages
  cases stages
  have valid := wrote.valid
  simp only [validateRecord, validatePermissionsRecordSchema,
    writeDescriptor_eq_some.mpr revocation.isWrite, okOr, ok_bind, revocation.protocol,
    ne_eq, not_true_eq_false, if_false, ok_iff] at valid
  obtain ⟨_, ⟨bytes, decoded, -⟩, -⟩ := valid
  simp only [permissionRecordDataBytes, ok_iff] at decoded
  obtain ⟨encoded, inline, decoded⟩ := decoded
  simp [encodedDataBytes, inline, decoded] at unsent

theorem Revocation.standing (fresh : retained stores.messages tenant recordId = ∅)
    (accepted : Accepted p stores request) :
    retained (processMessage p stores request).2.messages tenant recordId =
      {p.messageCid request.message} ∧
    latest (processMessage p stores request).2.messages tenant recordId =
      {p.messageCid request.message} := by
  have unrevoked : revokesGrantOf request.message request = false := by
    simp [revokesGrantOf, writeDescriptor_eq_some.mpr revocation.isWrite,
      revocation.parent, revocation.grant]
  obtain ⟨retainedIs, latestIs⟩ := accepted_first law sound revocation.isWrite revocation.record
    revocation.isInitial revocation.signed unrevoked (revocation.ofTenant ▸ fresh) accepted
  rw [revocation.ofTenant] at retainedIs latestIs
  refine ⟨retainedIs, latestIs.trans ?_⟩
  simp [revocation.sentWithData accepted]

omit law sound revocation in
theorem fetchGrant_id {store : MessageStore} (sound : Sound p store) {grant : PermissionGrant}
    (fetched : fetchGrant p store tenant grantId = .ok grant) : grant.id = grantId := by
  simp only [fetchGrant, ok_iff] at fetched
  obtain ⟨message, found, grantor, -, parsed⟩ := fetched
  obtain ⟨row, stored, -, rfl, selected⟩ := mem_first found
  obtain ⟨e, -, -, -, isWrite, -, -, -, record, -⟩ :=
    (Permission.parsePermissionGrant_ok parsed).parsed
  obtain ⟨id, _, _, indexed⟩ := (sound.filed row stored).of_isWrite isWrite
  have named : id = grantId := text_of_matchesSet selected List.mem_cons_self indexed.recordId
  have same : some id = some grant.id := indexed.record.symm.trans record
  cases same
  exact named

theorem Revocation.refuses
    (standing : p.messageCid request.message ∈ latest stores.messages tenant recordId)
    {write : Request} (invokes : Invokes p tenant writeId grantId write e)
    (later : d.messageTimestamp ≤ e.messageTimestamp) : ¬ Accepted p stores write := by
  intro accepted
  obtain ⟨auth, passed⟩ := passed_of_accepted invokes.isWrite invokes.record accepted
  obtain ⟨foreign, direct⟩ := invokes.invoked _ passed.signed
  have named : auth.permissionGrantId = some grantId := by
    rw [AuthorizationContext.permissionGrantId,
      (Permission.validateAuthorizationSignature_ok passed.signed).invocation, invokes.isWrite]
    simp only [Descriptor.permissionGrantInvocation, invokes.grant]
    rfl
  have authorized := passed.authorized
  rw [invokes.ofTenant] at authorized
  simp only [authorizeRecordsWrite, invokes.ordinary, authorizeOrdinaryWrite, orElseUnless_ok_iff,
    authorizeDelegatedRecordsWrite_none direct, foreign, if_false,
    authorizeRecordsWriteWithGrantId_ok_iff, named] at authorized
  obtain ⟨grant, fetched, permits⟩ : StoredGrantPermits p stores.messages tenant grantId fun grant =>
      PermitsWrite stores.messages write.message tenant auth.author grant := by
    simpa using authorized
  have unrevoked := permits.inForce.unrevoked
  rw [fetchGrant_id sound fetched] at unrevoked
  obtain ⟨row, stored, ofRecord, isLatest, cid⟩ := standing
  rw [sound.addressed row stored] at cid
  have same := messageCid_inj law cid
  have descriptor : row.message.descriptor = .recordsWrite d :=
    (descriptor_congr same).trans revocation.isWrite
  obtain ⟨_, _, _, indexed⟩ := (sound.filed row stored).of_isWrite descriptor
  have found : row.message ∈ stores.messages.query tenant [revocationFilters grantId] := by
    refine (mem_query_iff sound.filed).mpr ⟨row, stored, ofRecord.tenant, rfl, ?_⟩
    have isLatest : row.indexes.lookup .isLatestBaseState = some (.bool true) := isLatest
    simp [revocationFilters, indexed.parentId, indexed.protocolPath, isLatest, revocation.parent,
      revocation.protocolPath]
  have revoked : isRevokedAt stores.messages tenant write.message.messageTimestamp grantId =
      true := by
    refine List.any_eq_true.mpr ⟨row.message, found, ?_⟩
    simpa [messageTimestamp, descriptor, invokes.isWrite, Descriptor.messageTimestamp]
      using later
  rw [unrevoked] at revoked
  cases revoked

end

end

/-! ## The other records -/

structure Pending (tenant : Did) (writeId revocationId : String) (base store : MessageStore) :
    Prop where
  fresh : retained store tenant revocationId = ∅
  others : ∀ other otherId, ¬ (other = tenant ∧ otherId = writeId) →
    SameRows other otherId store base

structure Swept (p : Primitives) (tenant : Did) (writeId revocationId : String)
    (revoking : Request) (d : WriteDescriptor) (base store : MessageStore) : Prop where
  retainedIs : retained store tenant revocationId = {p.messageCid revoking.message}
  latestIs : latest store tenant revocationId = {p.messageCid revoking.message}
  others : ∀ other otherId, ¬ (other = tenant ∧ (otherId = writeId ∨ otherId = revocationId)) →
    ∀ row, OfRecord other otherId row →
      (row ∈ store ↔ row ∈ base ∧ ¬ (row.tenant = tenant ∧ Revokes d row))

section

variable {base : MessageStore} {request : Request}

section

variable (law : p.CollisionFree) (sound : Sound p stores.messages)

include law sound

theorem Pending.write (apart : revocationId ≠ writeId)
    (pending : Pending tenant writeId revocationId base stores.messages)
    (invokes : Invokes p tenant writeId grantId request e) :
    Pending tenant writeId revocationId base (processMessage p stores request).2.messages where
  fresh := (invokes.sameRows law sound fun ⟨_, same⟩ => apart same).retained.trans pending.fresh
  others _ _ foreign row ofRow :=
    (invokes.sameRows law sound foreign row ofRow).trans (pending.others _ _ foreign row ofRow)

theorem Swept.write (apart : revocationId ≠ writeId)
    (swept : Swept p tenant writeId revocationId revoking d base stores.messages)
    (invokes : Invokes p tenant writeId grantId request e) :
    Swept p tenant writeId revocationId revoking d base
      (processMessage p stores request).2.messages := by
  have same : SameRows tenant revocationId _ stores.messages :=
    invokes.sameRows law sound fun ⟨_, same⟩ => apart same
  refine ⟨same.retained.trans swept.retainedIs, same.latest.trans swept.latestIs,
    fun other otherId foreign row ofRow => ?_⟩
  have elsewhere : ¬ (other = tenant ∧ otherId = writeId) :=
    fun ⟨ofTenant, same⟩ => foreign ⟨ofTenant, .inl same⟩
  exact (invokes.sameRows law sound elsewhere row ofRow).trans
    (swept.others _ _ foreign row ofRow)

theorem Pending.revoke (pending : Pending tenant writeId revocationId base stores.messages)
    (revocation : Revocation p tenant revocationId grantId revoker revoking d)
    (accepted : Accepted p stores revoking) :
    Swept p tenant writeId revocationId revoking d base
      (processMessage p stores revoking).2.messages := by
  obtain ⟨retainedIs, latestIs⟩ := revocation.standing law sound pending.fresh accepted
  refine ⟨retainedIs, latestIs, fun other otherId foreign row ofRow => ?_⟩
  have notRevocation : ¬ OfRecord tenant revocationId row := fun ofRevocation =>
    foreign ⟨ofRow.tenant.symm.trans ofRevocation.tenant,
      .inr (ofRow.state.unique ofRevocation.state)⟩
  rw [revocation.mem_other law sound accepted notRevocation, pending.others other otherId
    (fun ⟨ofTenant, same⟩ => foreign ⟨ofTenant, .inl same⟩) row ofRow]

theorem Swept.not_accepted
    (swept : Swept p tenant writeId revocationId revoking d base stores.messages)
    (revocation : Revocation p tenant revocationId grantId revoker revoking d) :
    ¬ Accepted p stores revoking := by
  refine not_accepted_of_retained law sound revocation.isWrite revocation.record ?_
  rw [revocation.ofTenant, swept.retainedIs]
  exact rfl

end

def RevokesOrInvokes (p : Primitives) (tenant : Did) (writeId grantId : String)
    (revoking : Request) (stores : Stores) (request : Request) : Prop :=
  (request = revoking ∧ Accepted p stores request) ∨
    ∃ e, Invokes p tenant writeId grantId request e

theorem swept_of_run (law : p.CollisionFree) (apart : revocationId ≠ writeId)
    (revocation : Revocation p tenant revocationId grantId revoker revoking d)
    (sound : Sound p stores.messages)
    (pending : Pending tenant writeId revocationId base stores.messages)
    (listed : revoking ∈ requests)
    (along : AllowedAlong (proceed p) (RevokesOrInvokes p tenant writeId grantId revoking) stores
      requests) :
    Swept p tenant writeId revocationId revoking d base
      (requests.foldl (proceed p) stores).messages := by
  refine AllowedAlong.switch
    (B := fun stores => Pending tenant writeId revocationId base stores.messages)
    (A := fun stores => Swept p tenant writeId revocationId revoking d base stores.messages)
    ?_ ?_ ?_ pending listed (sound_along sound along)
  · rintro stores request pending ⟨sound, ⟨same, -⟩ | ⟨e, invokes⟩⟩ other
    · exact absurd same other
    · exact pending.write law sound apart invokes
  · rintro stores pending ⟨sound, ⟨-, accepted⟩ | ⟨e, invokes⟩⟩
    · exact pending.revoke law sound revocation accepted
    · exact absurd (Option.some.inj (revocation.record.symm.trans invokes.record)) apart
  · rintro stores request swept ⟨sound, ⟨rfl, accepted⟩ | ⟨e, invokes⟩⟩
    · exact absurd accepted (swept.not_accepted law sound revocation)
    · exact swept.write law sound apart invokes

end

/-! ## The record itself -/

/-- Every write of the record is older than the revocation, and none is refused but for a message
that outranks it. -/
inductive OlderStep (p : Primitives) (tenant : Did) (writeId grantId : String) (author : Did)
    (initial revoking : Request) (d : WriteDescriptor) (stores : Stores) (request : Request) : Prop
  | revokes (same : request = revoking) (accepted : Accepted p stores request)
  | founds {e : WriteDescriptor} (same : request = initial) (accepted : Accepted p stores request)
      (invokes : Invokes p tenant writeId grantId request e)
      (older : e.messageTimestamp < d.messageTimestamp)
  | later {e : WriteDescriptor} (later : Later p tenant writeId author request)
      (answered : Answered p tenant writeId stores request)
      (invokes : Invokes p tenant writeId grantId request e)
      (older : e.messageTimestamp < d.messageTimestamp)

inductive NewerStep (p : Primitives) (tenant : Did) (writeId grantId : String)
    (revoking : Request) (d : WriteDescriptor) (stores : Stores) (request : Request) : Prop
  | revokes (same : request = revoking) (accepted : Accepted p stores request)
  | writes {e : WriteDescriptor} (invokes : Invokes p tenant writeId grantId request e)
      (newer : ∀ author, p.isInitialWrite request.message author = true →
        d.messageTimestamp ≤ e.messageTimestamp)

section

variable {initial : Request} {request : Request}

def AllOlder (tenant : Did) (writeId : String) (d : WriteDescriptor) (store : MessageStore) : Prop :=
  ∀ row ∈ store, OfRecord tenant writeId row →
    row.message.messageTimestamp < d.messageTimestamp

theorem AllOlder.write (law : p.CollisionFree) (sound : Sound p stores.messages)
    (older : AllOlder tenant writeId d stores.messages)
    (invokes : Invokes p tenant writeId grantId request e)
    (isOlder : e.messageTimestamp < d.messageTimestamp) :
    AllOlder tenant writeId d (processMessage p stores request).2.messages := by
  obtain ⟨rfl, isWrite, record, -⟩ := invokes
  intro row stored ofRecord
  rcases write_row_message law sound isWrite record stored ofRecord with
    ⟨-, same⟩ | ⟨old, oldStored, ofOld, same⟩
  all_goals have descriptor := descriptor_congr same
  · simpa [messageTimestamp, descriptor, isWrite, Descriptor.messageTimestamp] using isOlder
  · simpa [messageTimestamp, descriptor] using older old oldStored ofOld

theorem Revocation.sameRows (law : p.CollisionFree) (sound : Sound p stores.messages)
    (apart : revocationId ≠ writeId)
    (revocation : Revocation p tenant revocationId grantId revoker revoking d)
    (accepted : Accepted p stores revoking) (older : AllOlder tenant writeId d stores.messages) :
    SameRows tenant writeId (processMessage p stores revoking).2.messages stores.messages := by
  intro row ofRecord
  rw [revocation.mem_other law sound accepted fun ofRevocation =>
    apart (ofRevocation.state.unique ofRecord.state)]
  refine and_iff_left_of_imp fun stored ⟨_, revokes⟩ => ?_
  exact (older row stored ofRecord).not_ge revokes.later

section

variable (law : p.CollisionFree) (apart : revocationId ≠ writeId)
  (revocation : Revocation p tenant revocationId grantId revoker revoking d)
  (sound : Sound p stores.messages) (older : AllOlder tenant writeId d stores.messages)
  (step : OlderStep p tenant writeId grantId author initial revoking d stores request)

include law apart revocation sound older step

theorem OlderStep.follows :
    Follows p tenant writeId author initial stores request := by
  cases step with
  | revokes same accepted =>
    subst same
    refine .beside ?_ (revocation.sameRows law sound apart accepted older)
    have state : StateMessage request.message revocationId :=
      .write revocation.isWrite revocation.record
    simp [onRecord, state.messageRecordId, apart]
  | founds same accepted => exact .founds same accepted
  | later later answered => exact answered.follows law sound later

theorem OlderStep.allOlder :
    AllOlder tenant writeId d (processMessage p stores request).2.messages := by
  cases step with
  | revokes same accepted =>
    subst same
    exact fun row stored ofRecord => older row
      ((revocation.sameRows law sound apart accepted older row ofRecord).mp stored) ofRecord
  | founds _ _ invokes isOlder => exact older.write law sound invokes isOlder
  | later _ _ invokes isOlder => exact older.write law sound invokes isOlder

end

def AllSwept (tenant : Did) (writeId grantId : String) (d : WriteDescriptor)
    (store : MessageStore) : Prop :=
  ∀ row ∈ store, OfRecord tenant writeId row → ∃ e, row.message.descriptor = .recordsWrite e ∧
    e.permissionGrantId = some grantId ∧ d.messageTimestamp ≤ e.messageTimestamp

theorem AllSwept.write (law : p.CollisionFree) (sound : Sound p stores.messages)
    (allSwept : AllSwept tenant writeId grantId d stores.messages)
    (invokes : Invokes p tenant writeId grantId request e)
    (newer : ∀ author, p.isInitialWrite request.message author = true →
      d.messageTimestamp ≤ e.messageTimestamp) :
    AllSwept tenant writeId grantId d (processMessage p stores request).2.messages := by
  obtain ⟨rfl, isWrite, record, grant, -⟩ := invokes
  intro row stored ofRecord
  rcases write_row_message law sound isWrite record stored ofRecord with
    ⟨accepted, same⟩ | ⟨old, oldStored, ofOld, same⟩
  all_goals have descriptor := descriptor_congr same
  · refine ⟨e, descriptor.trans isWrite, grant, ?_⟩
    obtain ⟨_, -, isInitial | ⟨old, oldStored, ofOld, e₀, isOld, below⟩⟩ :=
      initial_or_updates sound isWrite record accepted
    · exact newer _ isInitial
    · obtain ⟨e₁, isOld', -, later⟩ := allSwept old oldStored ofOld
      cases isOld.symm.trans isOld'
      exact later.trans below
  · rw [descriptor]
    exact allSwept old oldStored ofOld

theorem AllSwept.revoke (law : p.CollisionFree) (sound : Sound p stores.messages)
    (apart : revocationId ≠ writeId)
    (revocation : Revocation p tenant revocationId grantId revoker revoking d)
    (accepted : Accepted p stores revoking)
    (allSwept : AllSwept tenant writeId grantId d stores.messages) :
    retained (processMessage p stores revoking).2.messages tenant writeId = ∅ := by
  refine retained_eq_empty fun row stored ofRecord => ?_
  rw [revocation.mem_other law sound accepted fun ofRevocation =>
    apart (ofRevocation.state.unique ofRecord.state)] at stored
  obtain ⟨e, isWrite, grant, later⟩ := allSwept row stored.1 ofRecord
  obtain ⟨_, _, _, indexed⟩ := (sound.filed row stored.1).of_isWrite isWrite
  refine stored.2 ⟨ofRecord.tenant, revocation.protocol, revocation.protocolPath,
    ⟨grantId, revocation.parent, ?_⟩, ?_⟩
  · rw [indexed.permissionGrantId, grant]
    rfl
  · simpa [messageTimestamp, isWrite, Descriptor.messageTimestamp] using later

theorem OlderStep.revokesOrInvokes
    (step : OlderStep p tenant writeId grantId author initial revoking d stores request) :
    RevokesOrInvokes p tenant writeId grantId revoking stores request := by
  cases step with
  | revokes same accepted => exact .inl ⟨same, accepted⟩
  | founds _ _ invokes => exact .inr ⟨_, invokes⟩
  | later _ _ invokes => exact .inr ⟨_, invokes⟩

theorem NewerStep.revokesOrInvokes
    (step : NewerStep p tenant writeId grantId revoking d stores request) :
    RevokesOrInvokes p tenant writeId grantId revoking stores request := by
  cases step with
  | revokes same accepted => exact .inl ⟨same, accepted⟩
  | writes invokes => exact .inr ⟨_, invokes⟩

theorem Swept.refuses (law : p.CollisionFree) (sound : Sound p stores.messages)
    {base : MessageStore}
    (swept : Swept p tenant writeId revocationId revoking d base stores.messages)
    (revocation : Revocation p tenant revocationId grantId revoker revoking d)
    (empty : retained stores.messages tenant writeId = ∅)
    (invokes : Invokes p tenant writeId grantId request e)
    (newer : ∀ author, p.isInitialWrite request.message author = true →
      d.messageTimestamp ≤ e.messageTimestamp) : ¬ Accepted p stores request := by
  intro accepted
  obtain ⟨_, -, isInitial | ⟨old, stored, ofOld, -⟩⟩ :=
    initial_or_updates sound invokes.isWrite invokes.record accepted
  · refine revocation.refuses law sound ?_ invokes (newer _ isInitial) accepted
    rw [swept.latestIs]
    exact rfl
  · exact not_ofRecord_of_empty empty stored (invokes.ofTenant ▸ ofOld)

section

variable (law : p.CollisionFree) (apart : revocationId ≠ writeId)
  (revocation : Revocation p tenant revocationId grantId revoker revoking d)

include law apart revocation

theorem empty_of_newer {base : MessageStore} (sound : Sound p stores.messages)
    (pending : Pending tenant writeId revocationId base stores.messages)
    (fresh : retained stores.messages tenant writeId = ∅) (listed : revoking ∈ requests)
    (along : AllowedAlong (proceed p) (NewerStep p tenant writeId grantId revoking d) stores
      requests) :
    retained (requests.foldl (proceed p) stores).messages tenant writeId = ∅ := by
  refine (AllowedAlong.switch
    (B := fun stores => Pending tenant writeId revocationId base stores.messages ∧
      AllSwept tenant writeId grantId d stores.messages)
    (A := fun stores => Swept p tenant writeId revocationId revoking d base stores.messages ∧
      retained stores.messages tenant writeId = ∅)
    ?_ ?_ ?_ ⟨pending, fun row stored ofRecord =>
      absurd ofRecord (not_ofRecord_of_empty fresh stored)⟩ listed (sound_along sound along)).2
  · rintro stores request ⟨pending, allSwept⟩ ⟨sound, ⟨same, -⟩ | ⟨invokes, newer⟩⟩ other
    · exact absurd same other
    · exact ⟨pending.write law sound apart invokes, allSwept.write law sound invokes newer⟩
  · rintro stores ⟨pending, allSwept⟩ ⟨sound, ⟨-, accepted⟩ | ⟨invokes, -⟩⟩
    · exact ⟨pending.revoke law sound revocation accepted,
        allSwept.revoke law sound apart revocation accepted⟩
    · exact absurd (Option.some.inj (revocation.record.symm.trans invokes.record)) apart
  · rintro stores request ⟨swept, empty⟩ ⟨sound, ⟨rfl, accepted⟩ | ⟨invokes, newer⟩⟩
    · exact absurd accepted (swept.not_accepted law sound revocation)
    · refine ⟨swept.write law sound apart invokes, ?_⟩
      rw [proceed, refused_write_unchanged invokes.isWrite
        (swept.refuses law sound revocation empty invokes newer)]
      exact empty

theorem stands_of_older (founding : Founding p tenant writeId author initial)
    (sound : Sound p stores.messages) (fresh : retained stores.messages tenant writeId = ∅)
    (along : AllowedAlong (proceed p)
      (OlderStep p tenant writeId grantId author initial revoking d) stores requests) :
    Stands p tenant writeId initial (received tenant writeId requests)
      (requests.foldl (proceed p) stores).messages := by
  have follows : AllowedAlong (proceed p) (Follows p tenant writeId author initial) stores
      requests := by
    refine (sound_along sound along).imp (P := fun stores =>
      AllOlder tenant writeId d stores.messages) ?_ ?_ fun row stored ofRecord =>
        absurd ofRecord (not_ofRecord_of_empty fresh stored)
    · exact fun _ _ older ⟨sound, step⟩ => step.allOlder law apart revocation sound older
    · exact fun _ _ older ⟨sound, step⟩ => step.follows law apart revocation sound older
  exact stands_of_run law founding sound (.fresh rfl fresh) follows

end

end

/-! ## Two orders -/

inductive TakesIn (p : Primitives) (tenant : Did) (writeId grantId : String) (author : Did)
    (initial revoking : Request) (d : WriteDescriptor) (base : Stores)
    (requests others : List Request) : Prop
  | older (founding : Founding p tenant writeId author initial)
      (along : AllowedAlong (proceed p)
        (OlderStep p tenant writeId grantId author initial revoking d) base requests)
      (along' : AllowedAlong (proceed p)
        (OlderStep p tenant writeId grantId author initial revoking d) base others)
  | newer (along : AllowedAlong (proceed p) (NewerStep p tenant writeId grantId revoking d) base
        requests)
      (along' : AllowedAlong (proceed p) (NewerStep p tenant writeId grantId revoking d) base
        others)

section

variable {initial : Request} {base after after' : MessageStore}

theorem Swept.latest_eq (swept : Swept p tenant writeId revocationId revoking d base after)
    (swept' : Swept p tenant writeId revocationId revoking d base after')
    (own : latest after tenant writeId = latest after' tenant writeId) :
    latest after other otherId = latest after' other otherId := by
  by_cases foreign : other = tenant ∧ (otherId = writeId ∨ otherId = revocationId)
  · obtain ⟨rfl, rfl | rfl⟩ := foreign
    · exact own
    · exact swept.latestIs.trans swept'.latestIs.symm
  · have same : SameRows other otherId after after' := fun row ofRow =>
      (swept.others other otherId foreign row ofRow).trans
        (swept'.others other otherId foreign row ofRow).symm
    exact same.latest

theorem Stands.latest_of_greatest (law : p.CollisionFree) (sound : Sound p after)
    {messages : List Message} (stands : Stands p tenant writeId initial messages after)
    (stored : row ∈ after) (ofRecord : OfRecord tenant writeId row)
    (greatest : ∀ other ∈ after, OfRecord tenant writeId other →
      rank p other.message ≤ rank p row.message)
    (sent : row.cid = p.messageCid initial.message → sentWithData p initial = true) :
    row.cid ∈ latest after tenant writeId := by
  cases stands with
  | fresh _ empty => exact absurd ofRecord (not_ofRecord_of_empty empty stored)
  | @settled top settled =>
    obtain ⟨topRow, topStored, ofTop, cid⟩ := settled.exists_row sound (.inr rfl)
    have above : rank p top ≤ rank p row.message :=
      (rank_congr law cid).symm.le.trans (greatest topRow topStored ofTop)
    have below := settled.rank_le law sound stored ofRecord
    have isTop : row.cid = p.messageCid top :=
      (sound.addressed row stored).trans (rank_inj (below.antisymm above))
    rw [settled.latestIs]
    exact ⟨isTop, fun same => sent (isTop.trans same)⟩

end

/-- While all writes of a record are older than the revocation of their grant, or its initial write
is not, the latest states of all records are those of any other order. -/
theorem latest_states_of_any_order {p : Primitives} (law : p.CollisionFree) {tenant : Did}
    {writeId revocationId grantId : String} {author revoker : Did} {initial revoking : Request}
    {d : WriteDescriptor} {base : Stores} {requests others : List Request}
    (reached : Reaches (step p) (fun _ _ => True) {} base)
    (fresh : ∀ row ∈ base.messages, ¬ OfRecord tenant writeId row)
    (unrevoked : ∀ row ∈ base.messages, ¬ OfRecord tenant revocationId row)
    (apart : revocationId ≠ writeId)
    (revocation : Revocation p tenant revocationId grantId revoker revoking d)
    (listed : revoking ∈ requests) (same : requests.Perm others)
    (takesIn : TakesIn p tenant writeId grantId author initial revoking d base requests others) :
    (∀ other otherId, latest (requests.foldl (proceed p) base).messages other otherId =
      latest (others.foldl (proceed p) base).messages other otherId) ∧
    ∀ row ∈ (requests.foldl (proceed p) base).messages, OfRecord tenant writeId row →
      (∀ other ∈ (requests.foldl (proceed p) base).messages, OfRecord tenant writeId other →
        rank p other.message ≤ rank p row.message) →
      (row.cid = p.messageCid initial.message → sentWithData p initial = true) →
      row.cid ∈ latest (requests.foldl (proceed p) base).messages tenant writeId := by
  have sound := sound_of_reaches sound_nil reached
  have empty := retained_eq_empty fresh
  have pending : Pending tenant writeId revocationId base.messages base.messages :=
    ⟨retained_eq_empty unrevoked, fun _ _ _ _ _ => Iff.rfl⟩
  have listed' := same.mem_iff.mp listed
  obtain ⟨invoked, invoked'⟩ : AllowedAlong (proceed p)
      (RevokesOrInvokes p tenant writeId grantId revoking) base requests ∧
      AllowedAlong (proceed p) (RevokesOrInvokes p tenant writeId grantId revoking) base others := by
    cases takesIn with
    | older _ along along' | newer along along' =>
      exact ⟨along.mono fun _ _ step => step.revokesOrInvokes,
        along'.mono fun _ _ step => step.revokesOrInvokes⟩
  have swept := swept_of_run law apart revocation sound pending listed invoked
  have swept' := swept_of_run law apart revocation sound pending listed' invoked'
  cases takesIn with
  | older founding along along' =>
    have stands := stands_of_older law apart revocation founding sound empty along
    have stands' := stands_of_older law apart revocation founding sound empty along'
    exact ⟨fun _ _ => swept.latest_eq swept' (stands.agree stands' (received_perm same)).2,
      fun row stored ofRecord =>
        stands.latest_of_greatest law (sound_of_run sound requests) stored ofRecord⟩
  | newer along along' =>
    have gone := empty_of_newer law apart revocation sound pending empty listed along
    have gone' := empty_of_newer law apart revocation sound pending empty listed' along'
    exact ⟨fun _ _ => swept.latest_eq swept'
      ((latest_of_empty gone).trans (latest_of_empty gone').symm), fun row stored ofRecord =>
        absurd ofRecord (not_ofRecord_of_empty gone stored)⟩

namespace Revoked

open Concrete Run.Threads

def protocolTag : List (String × Value) := [("protocol", .scalar (.string uri))]

def permission (path : Path) (data : String) (timestamp : Timestamp) : WriteDescriptor where
  protocol := permissionsProtocolUri
  protocolPath := path
  tags := some protocolTag
  dataCid := data
  dataSize := data.length
  dateCreated := timestamp
  messageTimestamp := timestamp
  dataFormat := "application/json"

def grantOf : WriteDescriptor :=
  { permission permissionsGrantPath "grant" 3 with recipient := some "did:ex:bob" }

def revocationOf : WriteDescriptor :=
  { permission permissionsRevocationPath "revoke" 7 with parentId := some "G" }

def post (data : String) (timestamp : Timestamp) : WriteDescriptor :=
  { thread data timestamp with dateCreated := 5, permissionGrantId := some "G" }

def grant : Message := write grantOf "grant" "alice" "G" ["G"]
def revoke : Message := write revocationOf "revoke" "alice" "V" ["G", "V"]

def first : Message := write (post "first" 5) "first" "bob" "P" ["P"]
def earlier : Message := write (post "earlier" 6) "earlier" "bob" "P" ["P"]
def later : Message := write (post "later" 9) "later" "bob" "P" ["P"]

def script : Script :=
  { Run.Threads.script.posted grant "dg" "mg" "G" |>.posted revoke "dv" "mv" "V"
      |>.posted first "df" "mf" "P" "did:ex:bob" |>.posted earlier "de" "me" "ee" "did:ex:bob"
      |>.posted later "dl" "ml" "el" "did:ex:bob" with
    grants := [("grant", { dateExpires := 20, scope := .records .write uri none })] }

noncomputable abbrev q : Primitives := { script.primitives with revocationData := fun _ => some () }

theorem collisionFree : q.CollisionFree :=
  have free := script.collisionFree (by decide) (by decide)
  ⟨free.1, free.2⟩

noncomputable def base : Stores :=
  [.request (request configureMessage ""), .request (request grant "grant")].foldl (step q) {}

theorem base_reached : Reaches (step q) (fun _ _ => True) {} base :=
  AllowedAlong.reaches ⟨trivial, trivial, trivial⟩

theorem revocation : Revocation q "did:ex:alice" "V" "G" "did:ex:alice" (request revoke "revoke")
    revocationOf :=
  ⟨rfl, rfl, rfl, rfl, rfl, rfl, by decide, rfl, rfl⟩

theorem invokes {message : Message} {data : String} (isWrite : message.descriptor = .recordsWrite d)
    (record : message.recordId = some "P") (grant : d.permissionGrantId = some "G")
    (ordinary : ControlKind.of message = none) (plain : d.squash = none)
    (unrevoking : d.protocol = uri)
    (signed : validateAuthorizationSignature q (some openResolver) message true = .ok (some auth))
    (byBob : auth.author = "did:ex:bob" ∧ auth.authorDelegatedGrant = none) :
    Invokes q "did:ex:alice" "P" "G" (request message data) d where
  ofTenant := rfl
  isWrite := isWrite
  record := record
  grant := grant
  invoked auth' signed' := by
    cases signed.symm.trans signed'
    exact ⟨by rw [byBob.1]; decide, byBob.2⟩
  ordinary := ordinary
  plain := by simp [plain]
  unrevoking := .inl (by rw [unrevoking]; decide)

end Revoked

open Revoked Run.Threads in
theorem revocation_after_earlier_posts :
    q.CollisionFree ∧ Reaches (step q) (fun _ _ => True) {} base ∧
    TakesIn q "did:ex:alice" "P" "G" "did:ex:bob" (request first "first")
      (request revoke "revoke") revocationOf base
      [request first "first", request earlier "earlier", request revoke "revoke"]
      [request first "first", request revoke "revoke", request earlier "earlier"] ∧
    ∀ other otherId,
      latest ([request first "first", request earlier "earlier", request revoke "revoke"].foldl
        (proceed q) base).messages other otherId =
      latest ([request first "first", request revoke "revoke", request earlier "earlier"].foldl
        (proceed q) base).messages other otherId := by
  have firstInvokes : Invokes q "did:ex:alice" "P" "G" (request first "first") (post "first" 5) :=
    invokes rfl rfl rfl rfl rfl rfl rfl ⟨rfl, rfl⟩
  have earlierInvokes : Invokes q "did:ex:alice" "P" "G" (request earlier "earlier")
      (post "earlier" 6) := invokes rfl rfl rfl rfl rfl rfl rfl ⟨rfl, rfl⟩
  have isLater : Later q "did:ex:alice" "P" "did:ex:bob" (request earlier "earlier") :=
    ⟨⟨rfl, .write rfl rfl⟩, fun _ _ => ⟨rfl, rfl⟩⟩
  refine ⟨Revoked.collisionFree, base_reached, ?takesIn,
    (latest_states_of_any_order Revoked.collisionFree base_reached (not_ofRecord_of_cids rfl)
      (not_ofRecord_of_cids rfl) (by decide) revocation (by simp) ?_ ?takesIn).1⟩
  · refine .older ⟨rfl, rfl, rfl, rfl, rfl, rfl⟩ ⟨.founds rfl rfl firstInvokes (by decide), ?_⟩
      ⟨.founds rfl rfl firstInvokes (by decide), ?_⟩
    · exact ⟨.later isLater (.inl rfl) earlierInvokes (by decide), .revokes rfl rfl, trivial⟩
    · exact ⟨.revokes rfl rfl, .later isLater (.inl rfl) earlierInvokes (by decide), trivial⟩
  · exact (List.Perm.swap _ _ _).cons _

open Revoked Run.Threads in
theorem revocation_after_later_post_loses_thread :
    q.CollisionFree ∧ Reaches (step q) (fun _ _ => True) {} base ∧
    Accepted q base (request first "first") ∧
    Accepted q (proceed q base (request first "first")) (request later "later") ∧
    Accepted q ([request first "first", request later "later"].foldl (proceed q) base)
      (request revoke "revoke") ∧
    Accepted q (proceed q base (request first "first")) (request revoke "revoke") ∧
    Founding q "did:ex:alice" "P" "did:ex:bob" (request first "first") ∧
    Revocation q "did:ex:alice" "V" "G" "did:ex:alice" (request revoke "revoke") revocationOf ∧
    Invokes q "did:ex:alice" "P" "G" (request first "first") (post "first" 5) ∧
    Invokes q "did:ex:alice" "P" "G" (request later "later") (post "later" 9) ∧
    q.messageCid first ∈ retained
      ([request first "first", request later "later", request revoke "revoke"].foldl
        (proceed q) base).messages "did:ex:alice" "P" ∧
    latest ([request first "first", request later "later", request revoke "revoke"].foldl
      (proceed q) base).messages "did:ex:alice" "P" = ∅ ∧
    latest ([request first "first", request revoke "revoke", request later "later"].foldl
      (proceed q) base).messages "did:ex:alice" "P" = {q.messageCid first} := by
  refine ⟨Revoked.collisionFree, base_reached, rfl, rfl, rfl, rfl, ⟨rfl, rfl, rfl, rfl, rfl, rfl⟩,
    revocation, invokes rfl rfl rfl rfl rfl rfl rfl ⟨rfl, rfl⟩,
    invokes rfl rfl rfl rfl rfl rfl rfl ⟨rfl, rfl⟩, mem_retainedCids.mpr (List.mem_of_mem_head? rfl),
    ?_, ?_⟩
  · exact (latest_eq_of_cids (l := []) rfl).trans (by simp)
  · exact (latest_eq_of_cids (l := [q.messageCid first]) rfl).trans (by simp)

end Enbox.Proof.State
