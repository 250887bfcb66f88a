import Enbox.Records.Access

/-! # What a grant confers -/

namespace Enbox.Proof.Authority

open Lib

variable {scope : PermissionScope} {u : Unit} {granted : Bool}

structure InForce (store : MessageStore) (incoming : Message) (grantor grantee : Did)
    (grant : PermissionGrant) : Prop where
  toGrantee : grantee = grant.grantee
  fromGrantor : grantor = grant.grantor
  active : grant.dateGranted ≤ incoming.messageTimestamp
  unexpired : incoming.messageTimestamp < grant.dateExpires
  unrevoked : isRevokedAt store grantor incoming.messageTimestamp grant.id = false
  covers : grant.scope.covers incoming.descriptor.kind = true

theorem interface_of_covers {kind : MessageKind} (covers : scope.covers kind = true) :
    kind.interface = scope.interface := by
  cases scope with
  | protocols method protocol => cases kind <;> simp_all [PermissionScope.covers,
      PermissionScope.interface, MessageKind.interface]
  | messages protocol selector => cases kind <;> simp_all [PermissionScope.covers,
      PermissionScope.interface, MessageKind.interface]
  | records method protocol selector => cases method <;> cases kind <;>
      simp_all [PermissionScope.covers, PermissionScope.interface, MessageKind.interface]

section

variable {p : Primitives} {store : MessageStore} {tenant : Did} {incoming message : Message}
  {grantor grantee : Did} {grant : PermissionGrant} {auth : AuthorizationContext}

theorem performBaseValidation_ok_iff :
    performBaseValidation store incoming grantor grantee grant = .ok u ↔
      InForce store incoming grantor grantee grant := by
  simp only [performBaseValidation, verifyGrantNotRevoked, ok_iff, exists_const, Bool.not_eq_true]
  constructor
  · rintro ⟨grantee, grantor, active, unexpired, unrevoked, -, covers⟩
    exact ⟨grantee, grantor, active, unexpired, unrevoked, covers⟩
  · rintro ⟨grantee, grantor, active, unexpired, unrevoked, covers⟩
    exact ⟨grantee, grantor, active, unexpired, unrevoked, interface_of_covers covers, covers⟩

def RecordInScope (record : Message) (scope : PermissionScope) : Prop :=
  ∃ d, record.writeDescriptor = some d ∧
    scope.matchesProtocolTarget (recordsTarget d record.contextId) = true

theorem verifyRecordsScope_ok_iff :
    verifyRecordsScope message scope = .ok u ↔ RecordInScope message scope := by
  simp only [verifyRecordsScope, ok_iff, RecordInScope]

def ConditionsMet (message : Message) (conditions : Option PermissionConditions) : Prop :=
  ∃ d, message.writeDescriptor = some d ∧
    (conditions.bind (·.publication) = some .required → d.published = some true) ∧
    (conditions.bind (·.publication) = some .prohibited → d.published ≠ some true)

theorem verifyRecordsWriteConditions_ok_iff {conditions : Option PermissionConditions} :
    verifyRecordsWriteConditions message conditions = .ok u ↔ ConditionsMet message conditions := by
  simp only [verifyRecordsWriteConditions, ok_iff, exists_const, ConditionsMet]

structure PermitsWrite (store : MessageStore) (message : Message) (grantor grantee : Did)
    (grant : PermissionGrant) : Prop where
  inForce : InForce store message grantor grantee grant
  inScope : RecordInScope message grant.scope
  conditions : ConditionsMet message grant.conditions

theorem authorizeRecordsWriteWithGrant_ok_iff :
    authorizeRecordsWriteWithGrant store message grantor grantee grant = .ok u ↔
      PermitsWrite store message grantor grantee grant := by
  simp only [authorizeRecordsWriteWithGrant, bind_eq_ok, performBaseValidation_ok_iff,
    verifyRecordsScope_ok_iff, verifyRecordsWriteConditions_ok_iff, exists_const]
  constructor
  · rintro ⟨inForce, inScope, conditions⟩
    exact ⟨inForce, inScope, conditions⟩
  · rintro ⟨inForce, inScope, conditions⟩
    exact ⟨inForce, inScope, conditions⟩

def StoredGrantPermits (p : Primitives) (store : MessageStore) (tenant : Did) (id : String)
    (test : PermissionGrant → Prop) : Prop :=
  ∃ grant, fetchGrant p store tenant id = .ok grant ∧ test grant

theorem orElseUnless_ok_iff {decided : Except GrantError Bool} {otherwise : Except Failure Unit} :
    orElseUnless decided otherwise = .ok u ↔
      decided = .ok true ∨ (decided = .ok false ∧ otherwise = .ok u) := by
  unfold orElseUnless
  cases decided with
  | error error => simp [Except.mapError, bind, Except.bind]
  | ok granted => cases granted <;> simp [Except.mapError]

theorem authorizeDelegatedRecordsWrite_some (embedded : auth.authorDelegatedGrant = some grant) :
    authorizeDelegatedRecordsWrite store message auth = .ok granted ↔
      granted = true ∧ PermitsWrite store message auth.author auth.signer grant := by
  simp only [authorizeDelegatedRecordsWrite, embedded, ok_iff,
    authorizeRecordsWriteWithGrant_ok_iff, exists_const]
  rw [eq_comm, and_comm]

theorem authorizeDelegatedRecordsWrite_none (direct : auth.authorDelegatedGrant = none) :
    authorizeDelegatedRecordsWrite store message auth = .ok false := by
  simp only [authorizeDelegatedRecordsWrite, direct]

theorem authorizeRecordsWriteWithGrantId_ok_iff :
    authorizeRecordsWriteWithGrantId p store tenant message auth = .ok granted ↔
      match auth.permissionGrantId with
      | none => granted = false
      | some id => granted = true ∧ StoredGrantPermits p store tenant id fun grant =>
          PermitsWrite store message tenant auth.author grant := by
  unfold authorizeRecordsWriteWithGrantId
  cases auth.permissionGrantId with
  | none => simp [eq_comm]
  | some id =>
    simp only [ok_iff, authorizeRecordsWriteWithGrant_ok_iff, exists_const, StoredGrantPermits]
    constructor
    · rintro ⟨grant, fetched, permits, rfl⟩
      exact ⟨rfl, grant, fetched, permits⟩
    · rintro ⟨rfl, grant, fetched, permits⟩
      exact ⟨grant, fetched, permits, rfl⟩

section

variable {verifyScope : PermissionScope → Except GrantError Unit}

theorem authorizeWithInvokedGrant_some (embedded : auth.authorDelegatedGrant = some grant) :
    authorizeWithInvokedGrant p store tenant incoming auth verifyScope = .ok granted ↔
      granted = true ∧ InForce store incoming auth.author auth.signer grant ∧
        verifyScope grant.scope = .ok () := by
  simp only [authorizeWithInvokedGrant, invokedGrant, embedded, ok_bind, ok_iff,
    performBaseValidation_ok_iff, exists_const]
  constructor
  · rintro ⟨inForce, u, inScope, rfl⟩
    exact ⟨rfl, inForce, inScope⟩
  · rintro ⟨rfl, inForce, inScope⟩
    exact ⟨inForce, (), inScope, rfl⟩

theorem authorizeWithInvokedGrant_none (direct : auth.authorDelegatedGrant = none) :
    authorizeWithInvokedGrant p store tenant incoming auth verifyScope = .ok granted ↔
      match auth.permissionGrantId with
      | none => granted = false
      | some id => granted = true ∧ StoredGrantPermits p store tenant id fun grant =>
          InForce store incoming tenant auth.author grant ∧ verifyScope grant.scope = .ok () := by
  cases named : auth.permissionGrantId with
  | none => simp [authorizeWithInvokedGrant, invokedGrant, direct, named, eq_comm]
  | some id =>
    simp only [authorizeWithInvokedGrant, invokedGrant, direct, named, ok_iff, StoredGrantPermits]
    constructor
    · rintro ⟨_, ⟨grant, fetched, rfl⟩, decided⟩
      simp only [ok_iff, performBaseValidation_ok_iff, exists_const] at decided
      obtain ⟨inForce, u, inScope, rfl⟩ := decided
      exact ⟨rfl, grant, fetched, inForce, inScope⟩
    · rintro ⟨rfl, grant, fetched, inForce, inScope⟩
      refine ⟨_, ⟨grant, fetched, rfl⟩, ?_⟩
      simp only [ok_iff, performBaseValidation_ok_iff, exists_const]
      exact ⟨inForce, (), inScope, trivial⟩

end

end

end Enbox.Proof.Authority
