import Enbox.Auth.Jws

/-! # Authorization signatures -/

namespace Enbox

open Lib

inductive DelegationSide
  | author
  | owner
  deriving DecidableEq

inductive AuthorizationRequestError
  | permissionGrantIdsConflict
  | validation (message : String)
  | delegatedGrantIdExistenceMismatch (side : DelegationSide)
  | delegatedGrantCidMismatch (side : DelegationSide)
  | notADelegatedGrant (side : DelegationSide)
  | delegatedGrantGranteeMismatch (side : DelegationSide)
  | missingCid
  | cidMismatch
  | grantScopeMismatch (kind : MessageKind) (grantId : String)
  | kidRequired
  | permissionGrantIdsRequired
  | signatureRequired
  | signatureMismatch
  | signatureDecode
  | invalidSignature (error : JwsError)
  | invalidBase64
  | expectedOneSignature
  | noSignerFound
  deriving DecidableEq

inductive AuthorizationValidationError
  | badRequest (error : AuthorizationRequestError)
  | parseFailed
  | unexpectedGrantee (given expected : Did)
  | unexpectedGrantor (given expected : Did)
  | protocolInvalidTags
  | unexpectedPermissionRecord (path : Path)
  | unauthorized (message : String)
  deriving DecidableEq

inductive ProtocolValidationError
  | missingEncodedData
  | invalidBase64
  | missingRevocationParentId
  deriving DecidableEq

inductive GrantError
  | invalidRecordsDescriptorType
  | invalidProtocolDescriptorType
  | invalidDescriptorType
  | unableToExtractGrantor
  | notFound (recordId : String)
  | invalidMessageType
  | recordIdRequired
  | recipientRequired
  | invalidGrant (error : AuthorizationValidationError)
  | protocolValidation (error : ProtocolValidationError)
  | invalidScopeForTarget (scope : PermissionScope) (target : ProtocolScopeTarget)
  | revocationParentIdRequired
  | unpublishedGrant
  | publishProhibited
  | notActive
  | expired
  | revoked
  | outsideScope
  | unauthorized
  deriving DecidableEq

abbrev GrantError.badRequest (error : AuthorizationRequestError) : GrantError :=
  .invalidGrant (.badRequest error)

inductive VerifiedAuthorizationPayload
  | generic (payload : AuthorizationPayloadData)
  | recordsWrite (payload : RecordsWriteAuthorizationPayloadData)
  deriving DecidableEq

namespace VerifiedAuthorizationPayload

def descriptorCid : VerifiedAuthorizationPayload → Cid
  | generic payload => payload.descriptorCid
  | recordsWrite payload => payload.descriptorCid

def delegatedGrantId : VerifiedAuthorizationPayload → Option Cid
  | generic payload => payload.delegatedGrantId
  | recordsWrite payload => payload.delegatedGrantId

def protocolRole : VerifiedAuthorizationPayload → Option Reference
  | generic payload => payload.protocolRole
  | recordsWrite payload => payload.protocolRole

def permissionGrantInvocation :
    VerifiedAuthorizationPayload → Except GrantError PermissionGrantInvocation
  | generic payload =>
      match payload.permissionGrantId, payload.permissionGrantIds with
      | some id, none => .ok (.single id)
      | none, some ids => .ok (.multi ids)
      | none, none => .ok .none
      | some _, some _ => .error (.badRequest .permissionGrantIdsConflict)
  | recordsWrite payload => .ok (payload.permissionGrantId.elim .none .single)

end VerifiedAuthorizationPayload

structure OwnerAuthorization where
  owner : Did
  signer : Did
  delegatedGrant : Option PermissionGrant
  deriving DecidableEq

structure AuthorizationContext where
  signer : Did
  author : Did
  payload : VerifiedAuthorizationPayload
  permissionGrantInvocation : PermissionGrantInvocation
  authorDelegatedGrant : Option PermissionGrant
  owner : Option OwnerAuthorization
  deriving DecidableEq

namespace AuthorizationContext

def permissionGrantId (auth : AuthorizationContext) : Option String :=
  match auth.permissionGrantInvocation with
  | .single id => some id
  | _ => none

def permissionGrantIds (auth : AuthorizationContext) : Option (List String) :=
  match auth.permissionGrantInvocation with
  | .multi ids => some ids
  | _ => none

def protocolRole (auth : AuthorizationContext) : Option Reference := auth.payload.protocolRole

end AuthorizationContext

section

variable (p : Primitives)

variable (resolver : Option DidResolver) (message : Message)

def decodeJwsPayload {T : Type} (parse : Bytes → Option T) (jws : Jws) : Except GrantError T := do
  let payload ← okOr (.badRequest (.invalidSignature .missingPayload)) jws.payload
  let bytes ← okOr (.badRequest .invalidBase64) (p.base64Url payload)
  okOr (.badRequest .signatureDecode) (parse bytes)

def validateDescriptorCid (descriptor : Descriptor) (payloadDescriptorCid : Cid) :
    Except GrantError Unit :=
  ensure (payloadDescriptorCid = p.descriptorCid descriptor) (.badRequest .cidMismatch)

inductive AuthorizationPayloadKind
  | recordsWrite
  | direct
  | messageGrantSet
  | noGrant
  deriving DecidableEq

def authorizationPayloadKind : Descriptor → AuthorizationPayloadKind
  | .recordsWrite _ => .recordsWrite
  | .messagesRead _ | .messagesQuery _ | .messagesSubscribe _ => .messageGrantSet
  | .messagesSync _ => .noGrant
  | _ => .direct

def AuthorizationPayloadKind.admits : AuthorizationPayloadKind → PermissionGrantInvocation → Bool
  | _, .none => true
  | .recordsWrite, .single _ => true
  | .direct, .single _ => true
  | .messageGrantSet, .multi _ => true
  | _, _ => false

def validateInvocationAndKind (descriptor : Descriptor) (payload : VerifiedAuthorizationPayload) :
    Except GrantError PermissionGrantInvocation := do
  let invocation ← payload.permissionGrantInvocation
  ensure (descriptor.permissionGrantInvocation = invocation) (.badRequest .signatureMismatch)
  ensure ((authorizationPayloadKind descriptor).admits invocation) .invalidDescriptorType
  return invocation

def validateRecordsWritePayload
    (payload : RecordsWriteAuthorizationPayloadData) : Except GrantError Unit := do
  let contextId ← okOr (.badRequest .signatureMismatch) message.contextId
  let recordId ← okOr (.badRequest .signatureMismatch) message.recordId
  ensure (payload.contextId = contextId) (.badRequest .signatureMismatch)
  ensure (payload.recordId = recordId) (.badRequest .signatureMismatch)
  -- The attestation is compared only when the payload names one.
  ensure (∀ attestationCid ∈ payload.attestationCid,
      message.fields.attestation.map (fun a => p.cid (.jws a)) = some attestationCid)
    (.badRequest .signatureMismatch)
  ensure (message.fields.encryption.map (fun e => p.cid (.encryption e)) = payload.encryptionCid)
    (.badRequest .signatureMismatch)
  ensure (payload.delegatedGrantId =
      message.fields.authorization.authorDelegatedGrant.map fun grant =>
        p.messageCid (WriteMessage.toMessage grant))
    (.badRequest .signatureMismatch)

def validatePayload (jws : Jws) : Except GrantError VerifiedAuthorizationPayload :=
  match authorizationPayloadKind message.descriptor with
  | .recordsWrite => do
      let payload ← decodeJwsPayload p p.recordsWritePayload jws
      validateDescriptorCid p message.descriptor payload.descriptorCid
      let _ ← validateInvocationAndKind message.descriptor (.recordsWrite payload)
      validateRecordsWritePayload p message payload
      return .recordsWrite payload
  | _ => do
      let payload ← decodeJwsPayload p p.authorizationPayload jws
      validateDescriptorCid p message.descriptor payload.descriptorCid
      let _ ← validateInvocationAndKind message.descriptor (.generic payload)
      return .generic payload

def validatePermissionGrant (descriptor : Descriptor) (payload : VerifiedAuthorizationPayload) :
    Except GrantError PermissionGrantInvocation := do
  let invocation ← payload.permissionGrantInvocation
  ensure (invocation = descriptor.permissionGrantInvocation) (.badRequest .signatureMismatch)
  return invocation

def signerDidFromJws (jws : Jws) : Except AuthorizationRequestError Did := do
  let signatures ← okOr .signatureRequired jws.signatures
  let header ← okOr .signatureRequired (signatures.head?.bind (·.protectedHeader))
  let bytes ← okOr .invalidBase64 (p.base64Url header)
  let protectedHeader ← okOr .signatureDecode (p.protectedHeader bytes)
  let kid ← okOr .kidRequired protectedHeader.kid
  ensure (beforeHash kid ≠ "") .kidRequired
  return beforeHash kid

def jwsSigner (jws : Jws) : Except GrantError Did := do
  let unverified ← (signerDidFromJws p jws).mapError GrantError.badRequest
  match resolver with
  | some resolver =>
      let signers ← (jws.verifySignatures p resolver).mapError (.badRequest <| .invalidSignature ·)
      okOr (.badRequest .noSignerFound) signers.head?
  | none => return unverified

def permissionRecordDataBytes : Except GrantError Bytes := do
  let encoded ← okOr (.protocolValidation .missingEncodedData) message.fields.encodedData
  okOr (.protocolValidation .invalidBase64) (p.base64Url encoded)

def parsePermissionGrant (grantor : Did) : Except GrantError PermissionGrant := do
  let descriptor ← okOr .invalidMessageType message.writeDescriptor
  ensure (descriptor.protocol = permissionsProtocolUri ∧
    descriptor.protocolPath = permissionsGrantPath) .invalidMessageType
  let bytes ← permissionRecordDataBytes p message
  let data ← okOr (.invalidGrant .parseFailed) (p.grantData bytes)
  let id ← okOr .recordIdRequired message.recordId
  let grantee ← okOr .unableToExtractGrantor descriptor.recipient
  return {
    id, grantor, grantee
    dateGranted := descriptor.dateCreated
    dateExpires := data.dateExpires
    delegated := data.delegated
    scope := data.scope
    conditions := data.conditions
    connectSession := data.connectSession }

def validateEmbeddedDelegatedGrant (side : DelegationSide) (grantMessage : Option WriteMessage)
    (grantAuthorization : Except GrantError (Option AuthorizationContext))
    (signedGrantId : Option Cid) (signer : Did) : Except GrantError (Option PermissionGrant) :=
  -- `grantAuthorization` is the outcome of validating the grant's own signature.
  match grantMessage, signedGrantId with
  | none, none => .ok none
  | some grantMessage, some signedGrantId => do
      ensure (signedGrantId = p.messageCid grantMessage.toMessage)
        (.badRequest (.delegatedGrantCidMismatch side))
      let authorization ← grantAuthorization
      let authorization ← okOr (.badRequest .signatureRequired) authorization
      let grant ← parsePermissionGrant p grantMessage.toMessage authorization.author
      ensure (grant.delegated = some true) (.badRequest (.notADelegatedGrant side))
      ensure (grant.grantee = signer) (.badRequest (.delegatedGrantGranteeMismatch side))
      return some grant
  | _, _ => .error (.badRequest (.delegatedGrantIdExistenceMismatch side))

def validateOwnerSignature (grantAuthorization : Except GrantError (Option AuthorizationContext)) :
    Except GrantError (Option OwnerAuthorization) :=
  match message.fields.authorization.ownerSignature with
  | none => do
      ensure message.fields.authorization.ownerDelegatedGrant.isNone
        (.badRequest (.delegatedGrantIdExistenceMismatch .owner))
      return none
  | some ownerSignature => do
      let signer ← jwsSigner p resolver ownerSignature
      let payload ← decodeJwsPayload p p.authorizationPayload ownerSignature
      validateDescriptorCid p message.descriptor payload.descriptorCid
      let delegatedGrant ← validateEmbeddedDelegatedGrant p .owner
        message.fields.authorization.ownerDelegatedGrant grantAuthorization
        payload.delegatedGrantId signer
      return some { owner := (delegatedGrant.map (·.grantor)).getD signer, signer, delegatedGrant }

def validateAuthorDelegatedGrant (validateDelegatedGrant : Bool)
    (grantAuthorization : Except GrantError (Option AuthorizationContext))
    (signedGrantId : Option Cid) (signer : Did) : Except GrantError (Option PermissionGrant) :=
  -- The author side of the delegation, followed only for the outermost message.
  if validateDelegatedGrant then
    validateEmbeddedDelegatedGrant p .author message.fields.authorization.authorDelegatedGrant
      grantAuthorization signedGrantId signer
  else .ok none

def validateSignatureLevel (required validateDelegatedGrant : Bool)
    (authorGrant ownerGrant : Except GrantError (Option AuthorizationContext)) :
    Except GrantError (Option AuthorizationContext) :=
  if message.fields.authorization.isEmpty then
    if required then .error (.badRequest .signatureRequired) else .ok none
  else do
    ensure ((message.fields.authorization.signature.signatures.map List.length).getD 0 = 1)
      (.badRequest .expectedOneSignature)
    let payload ← validatePayload p message message.fields.authorization.signature
    validateDescriptorCid p message.descriptor payload.descriptorCid
    let invocation ← validatePermissionGrant message.descriptor payload
    let signer ← jwsSigner p resolver message.fields.authorization.signature
    let authorDelegatedGrant ←
      validateAuthorDelegatedGrant p message validateDelegatedGrant authorGrant
        payload.delegatedGrantId signer
    let owner ← validateOwnerSignature p resolver message ownerGrant
    return some {
      signer
      author := (authorDelegatedGrant.map (·.grantor)).getD signer
      payload
      permissionGrantInvocation := invocation
      authorDelegatedGrant
      owner }

/-- `validate_authorization_signature_inner`: an embedded grant is validated as a message of its
own, without following its author delegation. -/
def validateFields (resolver : Option DidResolver) :
    Fields → Descriptor → Bool → Bool → Except GrantError (Option AuthorizationContext)
  | ⟨⟨signature, authorGrant, ownerSignature, ownerGrant⟩, recordId, contextId, encryption,
      attestation, encodedData⟩, descriptor, required, validateDelegatedGrant =>
    validateSignatureLevel p resolver
      ⟨descriptor, ⟨⟨signature, authorGrant, ownerSignature, ownerGrant⟩, recordId, contextId,
        encryption, attestation, encodedData⟩⟩
      required validateDelegatedGrant
      (match authorGrant with
        | none => .ok none
        | some ⟨d, fields⟩ => validateFields resolver fields (.recordsWrite d) true false)
      (match ownerGrant with
        | none => .ok none
        | some ⟨d, fields⟩ => validateFields resolver fields (.recordsWrite d) true false)

def validateAuthorizationSignatureInner
    (required validateDelegatedGrant : Bool) : Except GrantError (Option AuthorizationContext) :=
  validateFields p resolver message.fields message.descriptor required validateDelegatedGrant

def validateAuthorizationSignature
    (required : Bool) : Except GrantError (Option AuthorizationContext) :=
  validateAuthorizationSignatureInner p resolver message required true

def messageSigner : Option Did :=
  (signerDidFromJws p message.fields.authorization.signature).toOption

/-- The author of a stored message: the signer of its embedded author-delegated grant, or its own
signer. -/
def messageAuthor : Option Did :=
  (message.fields.authorization.authorDelegatedGrant.bind fun grant =>
    messageSigner p (WriteMessage.toMessage grant)) <|> messageSigner p message

end

end Enbox
