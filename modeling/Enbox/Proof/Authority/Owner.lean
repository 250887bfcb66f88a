import Enbox.Proof.Authority.Delegation

/-! # A delegate of the tenant -/

namespace Enbox.Proof.Authority

open Lib Permission Concrete

inductive TenantRead
  | message (stored : Message)
  | sync
  | protocols (descriptor : ProtocolsQueryDescriptor)
  | record (candidate : Message)

namespace TenantRead

section

variable (p : Primitives) (store : MessageStore) (tenant : Did)

def PublishedRecord (candidate : Message) : Prop :=
  ∃ record d, DecidedOn store tenant candidate record ∧ record.writeDescriptor = some d ∧
    d.published = some true

def AuthorizesUnpublished (request : Message) (ctx : AuthorizationContext) : TenantRead → Prop
  | message stored => ∃ access, authorizeMessagesRead p store tenant request stored ctx = .ok access
  | sync => authorizeMessagesSync tenant ctx = .ok ()
  | protocols descriptor => authorizeProtocolsQuery p store tenant request descriptor ctx = .ok true
  | record candidate =>
      authorizeReadCandidate p store tenant request (readFilter request) (some ctx) candidate =
        .ok () ∧ ¬ PublishedRecord store tenant candidate

def InScope (scope : PermissionScope) : TenantRead → Prop
  | message stored => ∃ target, resolveMessagesScopeTarget p store tenant stored = .ok target ∧
      scope.matchesProtocolTarget target = true
  | sync => scope.isUnscoped = true
  | protocols descriptor => scope.protocol.isSome →
      descriptor.filter.bind (·.protocol) = scope.protocol
  | record candidate => ∃ record, DecidedOn store tenant candidate record ∧
      RecordInScope record scope

def BoundedBy (request : Message) (signer : Did) (grant : PermissionGrant) (read : TenantRead) :
    Prop :=
  InForce store request tenant signer grant ∧ read.InScope p store tenant grant.scope

/-- The read meets the grant by itself: it asks for something published, or the grant is in force and
contains what is returned. A control record is out of reach unless the delegate can see it. -/
def WithinGrant (request : Message) (ctx : AuthorizationContext) (grant : PermissionGrant) :
    TenantRead → Prop
  | record candidate =>
    match ControlKind.of candidate with
    | none => (∃ record d, DecidedOn store tenant candidate record ∧ record.writeDescriptor = some d) →
        PublishedRecord store tenant candidate ∨
          (record candidate).BoundedBy p store tenant request ctx.signer grant
    | some kind => PublishedRecord store tenant candidate ∨
        (∀ id, AudienceId.fromMessage candidate kind = .ok id →
          InForce store request tenant ctx.signer grant →
          ControlVisible p store tenant request ctx.signer ctx.protocolRole candidate id
            (some grant) kind → (record candidate).InScope p store tenant grant.scope)
  | read => read.BoundedBy p store tenant request ctx.signer grant

end

variable {p : Primitives} {store : MessageStore} {tenant : Did} {request : Message}
  {ctx : AuthorizationContext} {grant : PermissionGrant}

theorem authorizeRecordsRead_tenant {record : Message} (author : ctx.author = tenant) :
    authorizeRecordsRead p store tenant request (some ctx) record = .ok () ↔
      ∃ d, record.writeDescriptor = some d := by
  simp [authorizeRecordsRead, Message.writeDescriptorOr, author]

theorem authorizesUnpublished_of_tenant (author : ctx.author = tenant) (read : TenantRead)
    (ordinary : ∀ candidate, read ≠ record candidate) :
    read.AuthorizesUnpublished p store tenant request ctx := by
  cases read with
  | message stored => exact ⟨.full, by simp [authorizeMessagesRead, author]⟩
  | sync => simp [AuthorizesUnpublished, authorizeMessagesSync, author]
  | protocols descriptor => simp [AuthorizesUnpublished, authorizeProtocolsQuery, author]
  | record candidate => exact absurd rfl (ordinary candidate)

theorem record_bounded_iff {candidate : Message} (author : ctx.author = tenant)
    (embedded : ctx.authorDelegatedGrant = some grant) (grantor : grant.grantor = tenant)
    (delegate : ctx.signer ≠ tenant) :
    ((record candidate).AuthorizesUnpublished p store tenant request ctx →
      (record candidate).BoundedBy p store tenant request ctx.signer grant) ↔
    (record candidate).WithinGrant p store tenant request ctx grant := by
  simp only [AuthorizesUnpublished, authorizeReadCandidate_ok_iff, WithinGrant]
  cases control : ControlKind.of candidate with
  | none =>
    simp only [authorizeRecordsRead_tenant author]
    constructor
    · intro bounded written
      obtain ⟨record, d, decided, isWrite⟩ := written
      by_cases published : PublishedRecord store tenant candidate
      · exact .inl published
      · exact .inr (bounded ⟨⟨record, decided, d, isWrite⟩, published⟩)
    · rintro within ⟨⟨record, decided, d, isWrite⟩, unpublished⟩
      exact (within ⟨record, d, decided, isWrite⟩).resolve_left unpublished
  | some kind =>
    simp only [canReadControl_delegated embedded, delegate, false_or, grantor]
    constructor
    · intro bounded
      by_cases published : PublishedRecord store tenant candidate
      · exact .inl published
      · exact .inr fun id tagged inForce visible =>
          (bounded ⟨⟨inForce, id, tagged, visible⟩, published⟩).2
    · rintro within ⟨⟨inForce, id, tagged, visible⟩, unpublished⟩
      exact ⟨inForce, within.resolve_left unpublished id tagged inForce visible⟩

/-- A delegate of the tenant is bounded by its grant exactly on the reads that meet the grant by
themselves: the grant is not what decides. -/
theorem tenant_delegate_bounded_iff_within_grant {resolver : Option DidResolver} {required : Bool}
    (valid : validateAuthorizationSignature p resolver request required = .ok (some ctx))
    (embedded : ctx.authorDelegatedGrant = some grant) (author : ctx.author = tenant)
    (delegate : ctx.signer ≠ ctx.author) (read : TenantRead) :
    (read.AuthorizesUnpublished p store tenant request ctx →
      read.BoundedBy p store tenant request ctx.signer grant) ↔
    read.WithinGrant p store tenant request ctx grant := by
  have grantor : grant.grantor = tenant :=
    ((validateAuthorizationSignature_ok valid).delegate embedded).1.symm.trans author
  rw [author] at delegate
  cases read with
  | record candidate => exact record_bounded_iff author embedded grantor delegate
  | message stored =>
    exact imp_iff_right (authorizesUnpublished_of_tenant author _ (by simp))
  | sync => exact imp_iff_right (authorizesUnpublished_of_tenant author _ (by simp))
  | protocols descriptor =>
    exact imp_iff_right (authorizesUnpublished_of_tenant author _ (by simp))

def aliceRecord (protocol : String) : Message where
  descriptor := .recordsWrite { note with protocol }
  fields :=
    { authorization := { signature := signedBy "note" "alice" }
      recordId := some "r1"
      contextId := some ["r1"] }

theorem aliceRecord_private (protocol : String) :
    ¬ PublishedRecord [] "did:ex:alice" (aliceRecord protocol) := by
  rintro ⟨record, d, rfl, isWrite, published⟩
  cases isWrite
  cases published

theorem delegated_read_within_grant :
    (record (aliceRecord "notes")).AuthorizesUnpublished readScript.primitives [] "did:ex:alice"
        (delegatedRead "r1" "notes") (readContext "r1" "notes") ∧
      (record (aliceRecord "notes")).BoundedBy readScript.primitives [] "did:ex:alice"
        (delegatedRead "r1" "notes") "did:ex:bob" (readGrant "notes") := by
  have valid : validateAuthorizationSignature readScript.primitives (some openResolver)
      (delegatedRead "r1" "notes") true = .ok (some (readContext "r1" "notes")) := rfl
  refine ⟨?authorized, (tenant_delegate_bounded_iff_within_grant valid rfl rfl (by decide)
    (record (aliceRecord "notes"))).mpr (fun _ => .inr ?_) ?authorized⟩
  · exact ⟨rfl, aliceRecord_private "notes"⟩
  · exact ⟨⟨rfl, rfl, by decide, by decide, rfl, rfl⟩, aliceRecord "notes", rfl, _, rfl, rfl⟩

theorem tenant_delegate_reads_outside_scope :
    validateAuthorizationSignature readScript.primitives (some openResolver)
        (delegatedRead "r1" "notes") true = .ok (some (readContext "r1" "notes")) ∧
      (record (aliceRecord "chats")).AuthorizesUnpublished readScript.primitives [] "did:ex:alice"
        (delegatedRead "r1" "notes") (readContext "r1" "notes") ∧
      ¬ (record (aliceRecord "chats")).BoundedBy readScript.primitives [] "did:ex:alice"
        (delegatedRead "r1" "notes") "did:ex:bob" (readGrant "notes") := by
  refine ⟨rfl, ⟨rfl, aliceRecord_private "chats"⟩, ?_⟩
  rintro ⟨-, record, rfl, d, isWrite, covered⟩
  cases isWrite
  exact absurd covered (by decide)

end TenantRead

end Enbox.Proof.Authority
