import Enbox.Permission.Signature

/-! # What a validated signature establishes -/

namespace Enbox.Proof.Permission

open Lib

def grantAuthorization (p : Primitives) (resolver : Option DidResolver) :
    Option WriteMessage → Except GrantError (Option AuthorizationContext)
  | none => .ok none
  | some grant => validateAuthorizationSignatureInner p resolver grant.toMessage true false

structure EmbeddedGrant (p : Primitives) (resolver : Option DidResolver)
    (grantMessage : Option WriteMessage) (signedGrantId : Option Cid) (signer : Did)
    (grant : PermissionGrant) : Prop where
  bound : ∃ message, grantMessage = some message ∧
    signedGrantId = some (p.messageCid message.toMessage) ∧
    ∃ auth, validateAuthorizationSignatureInner p resolver message.toMessage true false =
        .ok (some auth) ∧
      parsePermissionGrant p message.toMessage auth.author = .ok grant
  delegated : grant.delegated = some true
  grantee : grant.grantee = signer

def EmbeddedGrants (p : Primitives) (resolver : Option DidResolver)
    (grantMessage : Option WriteMessage) (signedGrantId : Option Cid) (signer : Did) :
    Option PermissionGrant → Prop
  | none => grantMessage = none ∧ signedGrantId = none
  | some grant => EmbeddedGrant p resolver grantMessage signedGrantId signer grant

section

variable {p : Primitives} {resolver : Option DidResolver} {message : Message}
  {required validateDelegatedGrant : Bool} {ctx : AuthorizationContext}

theorem validateInner_eq : validateAuthorizationSignatureInner p resolver message required
      validateDelegatedGrant =
    validateSignatureLevel p resolver message required validateDelegatedGrant
      (grantAuthorization p resolver message.fields.authorization.authorDelegatedGrant)
      (grantAuthorization p resolver message.fields.authorization.ownerDelegatedGrant) := by
  obtain ⟨descriptor, ⟨⟨signature, author, ownerSignature, owner⟩, r, c, e, t, d⟩⟩ := message
  unfold validateAuthorizationSignatureInner
  rw [validateFields.eq_def]
  cases author <;> cases owner <;> rfl

theorem validateEmbeddedDelegatedGrant_ok {side : DelegationSide}
    {grantMessage : Option WriteMessage} {signedGrantId : Option Cid} {signer : Did}
    {grant : Option PermissionGrant}
    (valid : validateEmbeddedDelegatedGrant p side grantMessage
      (grantAuthorization p resolver grantMessage) signedGrantId signer = .ok grant) :
    EmbeddedGrants p resolver grantMessage signedGrantId signer grant := by
  unfold validateEmbeddedDelegatedGrant at valid
  split at valid
  · cases valid
    exact ⟨rfl, rfl⟩
  · simp only [ok_iff] at valid
    obtain ⟨-, cid, auth, authorized, ctx, rfl, grant, parsed, -, delegated, -, grantee, rfl⟩ := valid
    subst cid
    exact ⟨⟨_, rfl, rfl, ctx, authorized, parsed⟩, delegated, grantee⟩
  · cases valid

structure OwnerEstablished (p : Primitives) (resolver : Option DidResolver) (message : Message)
    (owner : OwnerAuthorization) : Prop where
  signed : ∃ jws payload, message.fields.authorization.ownerSignature = some jws ∧
    jwsSigner p resolver jws = .ok owner.signer ∧
    decodeJwsPayload p p.authorizationPayload jws = .ok payload ∧
    payload.descriptorCid = p.descriptorCid message.descriptor ∧
    EmbeddedGrants p resolver message.fields.authorization.ownerDelegatedGrant
      payload.delegatedGrantId owner.signer owner.delegatedGrant
  owner : owner.owner = (owner.delegatedGrant.map (·.grantor)).getD owner.signer

theorem validateOwnerSignature_ok {owner : OwnerAuthorization}
    (valid : validateOwnerSignature p resolver message
      (grantAuthorization p resolver message.fields.authorization.ownerDelegatedGrant) =
        .ok (some owner)) : OwnerEstablished p resolver message owner := by
  unfold validateOwnerSignature at valid
  split at valid
  · simp only [ok_iff, reduceCtorEq, and_false, exists_const] at valid
  · rename_i jws signature
    simp only [ok_iff, validateDescriptorCid] at valid
    obtain ⟨signer, signed, payload, decoded, -, cid, grant, embedded, made⟩ := valid
    cases made
    exact ⟨⟨jws, payload, signature, signed, decoded, cid,
      validateEmbeddedDelegatedGrant_ok embedded⟩, rfl⟩

structure Established (p : Primitives) (resolver : Option DidResolver) (message : Message)
    (validateDelegatedGrant : Bool) (ctx : AuthorizationContext) : Prop where
  payload : validatePayload p message message.fields.authorization.signature = .ok ctx.payload
  invocation : ctx.permissionGrantInvocation = message.descriptor.permissionGrantInvocation
  signer : jwsSigner p resolver message.fields.authorization.signature = .ok ctx.signer
  authorGrant : validateDelegatedGrant = true →
    EmbeddedGrants p resolver message.fields.authorization.authorDelegatedGrant
      ctx.payload.delegatedGrantId ctx.signer ctx.authorDelegatedGrant
  noAuthorGrant : validateDelegatedGrant = false → ctx.authorDelegatedGrant = none
  author : ctx.author = (ctx.authorDelegatedGrant.map (·.grantor)).getD ctx.signer
  owner : ∀ owner, ctx.owner = some owner → OwnerEstablished p resolver message owner

theorem validateInner_ok (valid : validateAuthorizationSignatureInner p resolver message required
      validateDelegatedGrant = .ok (some ctx)) :
    Established p resolver message validateDelegatedGrant ctx := by
  rw [validateInner_eq] at valid
  unfold validateSignatureLevel at valid
  split at valid
  · split at valid <;> simp at valid
  · simp only [ok_iff, validatePermissionGrant] at valid
    obtain ⟨-, -, payload, validPayload, -, -, _, ⟨invocation, -, -, sameInvocation, rfl⟩, signer,
      signed, grant, embedded, owner, owned, made⟩ := valid
    cases made
    refine ⟨validPayload, sameInvocation, signed, ?_, ?_, rfl, ?_⟩
    · rintro rfl
      exact validateEmbeddedDelegatedGrant_ok embedded
    · rintro rfl
      cases embedded
      rfl
    · rintro owner rfl
      exact validateOwnerSignature_ok owned

theorem validateAuthorizationSignature_ok
    (valid : validateAuthorizationSignature p resolver message required = .ok (some ctx)) :
    Established p resolver message true ctx :=
  validateInner_ok valid

theorem Established.author_eq_signer (valid : Established p resolver message true ctx)
    (direct : message.fields.authorization.authorDelegatedGrant = none) :
    ctx.authorDelegatedGrant = none ∧ ctx.author = ctx.signer := by
  have embedded := valid.authorGrant rfl
  cases present : ctx.authorDelegatedGrant with
  | none => exact ⟨rfl, by simp [valid.author, present]⟩
  | some grant =>
    rw [present] at embedded
    obtain ⟨message, found, -⟩ := embedded.bound
    rw [direct] at found
    cases found

theorem Established.delegate (valid : Established p resolver message true ctx)
    {grant : PermissionGrant} (embedded : ctx.authorDelegatedGrant = some grant) :
    ctx.author = grant.grantor ∧ ctx.signer = grant.grantee ∧ grant.delegated = some true := by
  have bound := valid.authorGrant rfl
  rw [embedded] at bound
  exact ⟨by simp [valid.author, embedded], bound.grantee.symm, bound.delegated⟩

end

structure ParsedGrant (p : Primitives) (message : Message) (grantor : Did)
    (grant : PermissionGrant) : Prop where
  parsed : ∃ d encoded bytes data, message.descriptor = .recordsWrite d ∧
    message.fields.encodedData = some encoded ∧ p.base64Url encoded = some bytes ∧
    p.grantData bytes = some data ∧ message.fields.recordId = some grant.id ∧
    d.recipient = some grant.grantee ∧ d.protocol = permissionsProtocolUri ∧
    d.protocolPath = permissionsGrantPath ∧ grant.dateGranted = d.dateCreated ∧
    grant.dateExpires = data.dateExpires ∧ grant.delegated = data.delegated ∧
    grant.scope = data.scope ∧ grant.conditions = data.conditions ∧
    grant.connectSession = data.connectSession
  grantor : grant.grantor = grantor

theorem parsePermissionGrant_ok {p : Primitives} {message : Message} {grantor : Did}
    {grant : PermissionGrant} (parsed : parsePermissionGrant p message grantor = .ok grant) :
    ParsedGrant p message grantor grant := by
  simp only [parsePermissionGrant, permissionRecordDataBytes, ok_iff,
    Message.writeDescriptor_eq_some] at parsed
  obtain ⟨d, isWrite, -, ⟨uri, path⟩, bytes, ⟨encoded, inline, decoded⟩, data, read, id, recordId,
    grantee, recipient, rfl⟩ := parsed
  exact ⟨⟨d, encoded, bytes, data, isWrite, inline, decoded, read, recordId, recipient, uri, path,
    rfl, rfl, rfl, rfl, rfl, rfl⟩, rfl⟩

end Enbox.Proof.Permission
