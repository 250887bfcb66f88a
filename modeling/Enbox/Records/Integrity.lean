import Enbox.Records.Control

/-! # Referential integrity of records writes -/

namespace Enbox

open Lib

def lastSegment (path : Path) : String := path.getLastD ""

def validationFailure : ProtocolDefinitionLookupError → Failure
  | .notFound protocol => .dwn .protocolAuthorizationProtocolNotFound
      ("unable to find protocol definition for " ++ protocol)
  | error => .detail error.text

structure EffectivePolicy where
  definition : Definition
  ruleSet : RuleSet
  typeName : String
  encryptionRequired : Bool
  keyAgreement : Option Jwk
  deriving DecidableEq

section

variable (p : Primitives) (store : MessageStore) (tenant : Did)

variable (message : Message) (descriptor : WriteDescriptor) (author : Did)
  (definition : Definition) (id : AudienceId)

def maxControlDataSize : Nat := 30000

def validateLifecycle : Except Failure Unit := do
  let descriptor ← okOr
    (unexpected "RecordsWriteDescriptorExpected: message is not RecordsWrite")
    message.writeDescriptor
  ensure (p.isInitialWrite message author) (unexpected "encryption control records are immutable")
  ensure (descriptor.published ≠ some true)
    (unexpected "encryption control records must not be published")
  ensure (descriptor.dataSize ≤ maxControlDataSize)
    (unexpected ("encryption control records must be at most " ++ toString maxControlDataSize ++
      " bytes, got " ++ toString descriptor.dataSize))

def storedAudienceFilters : FilterSet :=
  [(.interface, stringFilter recordsInterface), (.method, stringFilter writeMethod),
    (.protocol, stringFilter id.scope.protocol),
    (.protocolPath, pathFilter ControlKind.audience.protocolPath),
    (.isLatestBaseState, boolFilter true),
    (.tag "protocol", stringFilter id.scope.protocol),
    (.tag "rolePath", stringFilter id.scope.rolePath),
    (.tag "contextId", stringFilter id.scope.contextId),
    (.tag "keyId", stringFilter id.keyId)]

def storedAudienceExists : Bool :=
  (store.first tenant [storedAudienceFilters id]).isSome

def validateDeliveryReferences (recipient : Did) : Except Failure Unit := do
  let authority ← requiredStringTag message "recipientAuthority" .delivery
  ensure (authority = "roleHolder")
    (.dwn .encryptionControlValidateDeliveryRecipientAuthorityInvalid
      ("unsupported delivery recipient authority '" ++ authority ++ "'"))
  ensure (storedAudienceExists store tenant id)
    (.dwn .encryptionControlValidateDeliveryAudienceMissing
      "delivery control record references a missing audience")
  ensure (roleRecordExists store tenant recipient id.scope.protocol id.scope.role
      (some id.scope.context))
    (.dwn .encryptionControlValidateDeliveryRecipientRoleRecordMissing
      "delivery recipient does not hold the referenced role")

def validateControlRepresentation : ControlKind → Except Failure Unit
  | .audience =>
      ensure message.fields.encryption.isNone
        (unexpected "audience control records must be plaintext")
  | .delivery => do
      ensure message.fields.encryption.isSome
        (unexpected "delivery control records must be encrypted")
      let recipient ← okOr
        (.dwn .encryptionControlValidateDeliveryRecipientMissing
          "delivery control records must have a recipient")
        descriptor.recipient
      validateDeliveryReferences store tenant message id recipient

def validateControlIntegrity (kind : ControlKind) (author : Did) : Except Failure Unit := do
  validateLifecycle p message author
  let descriptor ← okOr
    (unexpected "RecordsWriteDescriptorExpected: message is not RecordsWrite")
    message.writeDescriptor
  let id ← AudienceId.fromMessage message kind
  let _ ← resolveRoleAudienceDefinition store tenant id descriptor.messageTimestamp
  validateControlRepresentation store tenant message descriptor id kind

def AudiencePayload.claimedId (payload : AudiencePayload) : AudienceId :=
  ⟨⟨payload.protocol, payload.rolePath, payload.contextId⟩, payload.keyId⟩

def AudiencePayload.verifyKeyId (payload : AudiencePayload) : Except Failure Unit :=
  ensure (p.thumbprint payload.publicKeyJwk = some payload.keyId)
    (.dwn .encryptionControlValidateAudienceKeyIdMismatch
      "audience keyId must match publicKeyJwk thumbprint")

def AudiencePayload.verifySealKeyId (payload : AudiencePayload) (roleKey : Jwk) :
    Except Failure Unit :=
  ensure (p.thumbprint roleKey = some payload.sealKeyId)
    (.dwn .encryptionControlValidateAudienceSealKeyIdMismatch
      "audience seal keyId must match the role $keyAgreement thumbprint")

def validateControlPayload (data : Bytes) : ControlKind → Except Failure Unit
  -- `control::validate_payload`: the ciphertext of a delivery is never opened.
  | .delivery => .ok ()
  | .audience => do
      let descriptor ← okOr
        (unexpected "RecordsWriteDescriptorExpected: message is not RecordsWrite")
        message.writeDescriptor
      let id ← AudienceId.fromMessage message .audience
      let payload ← okOr (.dwn .schemaValidatorFailure "audience payload must be JSON")
        (p.audiencePayload data)
      ensure (payload.claimedId = id)
        (.dwn .encryptionControlValidateAudienceTagsMismatch
          "audience tags must match payload fields")
      payload.verifyKeyId p
      let role ← resolveRoleAudienceDefinition store tenant id descriptor.messageTimestamp
      let roleKey ← okOr
        (.dwn .encryptionControlValidateAudienceRolePathInvalid "governing role has no $keyAgreement")
        role.ruleSet.keyAgreement
      payload.verifySealKeyId p roleKey

def referencedDefinitionForRefPath (timestamp : Timestamp) : Except Failure (Option Definition) :=
  match definition.refPosition descriptor.protocolPath with
  | none => .ok none
  | some (usesAlias, _) => do
      let uri ← okOr
        (.detail ("ProtocolsConfigureInvalidRefAlias: '$ref' alias '" ++ usesAlias ++
          "' at protocol path '" ++ pathText descriptor.protocolPath ++
          "' does not exist in the 'uses' map."))
        (definition.uses.bind (·.lookup usesAlias))
      let referenced ← (fetchProtocolDefinition store tenant uri (some timestamp)).mapError
        validationFailure
      return some referenced

def policyType :
    Option Definition → String × Option ProtocolType
  -- The type of a record: looked up under the whole path in the referenced definition, under the
  -- last segment in the definition itself.
  | some referenced =>
      (pathText descriptor.protocolPath, referenced.types.lookup (pathText descriptor.protocolPath))
  | none =>
      (lastSegment descriptor.protocolPath,
        definition.types.lookup (lastSegment descriptor.protocolPath))

def resolvePolicy : Except Failure EffectivePolicy := do
  let descriptor ← message.writeDescriptorOr
  let timestamp ← governingTimestamp p store tenant message author
  let definition ← (fetchProtocolDefinition store tenant descriptor.protocol
    (some timestamp)).mapError validationFailure
  let ruleSet ← okOr (invalidProtocolPath descriptor.protocolPath)
    (definition.ruleAt descriptor.protocolPath)
  let referenced ← referencedDefinitionForRefPath store tenant descriptor definition timestamp
  ensure (referenced.isSome → (policyType descriptor definition referenced).2.isSome)
    (.dwn .protocolAuthorizationInvalidType ("type '" ++
      (policyType descriptor definition referenced).1 ++
      "' is not defined in the referenced protocol for '$ref' path '" ++
      pathText descriptor.protocolPath ++ "'"))
  return {
    definition
    ruleSet
    typeName := (policyType descriptor definition referenced).1
    encryptionRequired := (policyType descriptor definition referenced).2.any
      (·.encryptionRequired = some true)
    keyAgreement := ruleSet.keyAgreement }

def roleAudienceKeyIds (envelope : EncryptionEnvelope) (protocol : String) (rolePath : Path) :
    List String :=
  envelope.keyEncryption.filterMap fun
    | .roleAudience keyId _ _ entryProtocol entryRolePath =>
        if entryProtocol = protocol ∧ entryRolePath = rolePath then some keyId else none
    | .protocolPath _ _ _ => none

def validateRoleAudience (contextId : Option Path) (definition : Definition)
    (envelope : EncryptionEnvelope) : Action → Except Failure Unit
  -- An alias that does not resolve and a context that is too shallow are passed over.
  | .who _ _ _ => .ok ()
  | .role role can =>
      if .read ∉ can then .ok ()
      else
        match resolveRole definition definition.protocol role with
        | none => .ok ()
        | some (protocol, rolePath) =>
          match roleAudienceContextId rolePath contextId with
          | none => .ok ()
          | some audienceContext => do
              ensure (roleAudienceKeyIds envelope protocol rolePath ≠ [])
                (.dwn .protocolAuthorizationEncryptionRoleAudienceEntryMissing
                  ("encrypted record is missing a roleAudience keyEncryption entry for role '" ++
                    pathText rolePath ++ "'"))
              ensure ((roleAudienceKeyIds envelope protocol rolePath).any fun keyId =>
                  storedAudienceExists store tenant
                    ⟨⟨protocol, pathText rolePath, pathText audienceContext⟩, keyId⟩)
                (.dwn .protocolAuthorizationEncryptionRoleAudienceMissing
                  ("encrypted record references no retained audience for protocol '" ++ protocol ++
                    "', role '" ++ pathText rolePath ++ "', context '" ++ pathText audienceContext ++
                    "', and key IDs [" ++
                    ", ".intercalate (roleAudienceKeyIds envelope protocol rolePath) ++ "]"))

def validateRoleAudiences (contextId : Option Path) (definition : Definition) (ruleSet : RuleSet)
    (envelope : EncryptionEnvelope) : Except Failure Unit :=
  ruleSet.actions.forM (validateRoleAudience store tenant contextId definition envelope)

def encryptionRequiredFailure (typeName : String) : Failure :=
  .dwn .protocolAuthorizationEncryptionRequired
    ("type '" ++ typeName ++ "' requires encryption but message has no encryption metadata")

def validateEncryptedRecord (policy : EffectivePolicy) : Except Failure Unit :=
  match policy.keyAgreement with
  | some key => do
      let keyId ← okOr (.internal "thumbprint") (p.thumbprint key)
      let envelope ← okOr (encryptionRequiredFailure policy.typeName) message.fields.encryption
      ensure (envelope.keyEncryption.any fun
          | .protocolPath id _ _ => id = keyId
          | .roleAudience _ _ _ _ _ => false)
        (.dwn .protocolAuthorizationEncryptionProtocolPathEntryMissing
          ("encrypted record is missing a protocolPath keyEncryption entry for '" ++
            pathText descriptor.protocolPath ++ "'"))
      validateRoleAudiences store tenant message.contextId policy.definition policy.ruleSet envelope
  | none =>
      ensure (policy.definition.protocol = encryptionProtocolUri ∧
          descriptor.protocolPath = grantKeyPath)
        (.dwn .protocolAuthorizationEncryptionKeyAgreementMissing ("encrypted protocol path '" ++
          pathText descriptor.protocolPath ++ "' has no $keyAgreement"))

def validateRepresentation (policy : EffectivePolicy) : Except Failure Unit := do
  ensure (policy.encryptionRequired → message.fields.encryption.isSome)
    (encryptionRequiredFailure policy.typeName)
  ensure (¬ policy.encryptionRequired → message.fields.encryption.isNone)
    (.dwn .protocolAuthorizationEncryptionNotAllowed ("type '" ++ policy.typeName ++
      "' requires plaintext but message has encryption metadata"))
  if policy.encryptionRequired then validateEncryptedRecord p store tenant message descriptor policy
  else .ok ()

def parentNotFound (parentId parentProtocol : String) (descriptor : WriteDescriptor) : Failure :=
  .dwn (if parentProtocol ≠ descriptor.protocol then
      .protocolAuthorizationCrossProtocolParentNotFound
    else .protocolAuthorizationParentRecordNotFound)
    ("could not find parent record '" ++ parentId ++ "' in protocol '" ++ parentProtocol ++ "'")

def validateChild (parent : Message) : Except Failure Unit := do
  -- A record id is a CID, so it is one segment.
  let parentDescriptor ← parent.writeDescriptorOr
  ensure (parentDescriptor.protocolPath ++ [lastSegment descriptor.protocolPath] =
      descriptor.protocolPath)
    (.dwn .protocolAuthorizationIncorrectProtocolPath ("declared protocol path '" ++
      pathText descriptor.protocolPath ++ "' does not extend parent path '" ++
      pathText parentDescriptor.protocolPath ++ "'"))
  let parentContext ← okOr
    (.dwn .protocolAuthorizationIncorrectContextId "parent contextId is required") parent.contextId
  let recordId ← okOr (.dwn .protocolAuthorizationIncorrectContextId "recordId is required")
    (messageRecordId message)
  let contextId ← okOr (.dwn .protocolAuthorizationIncorrectContextId "contextId is required")
    message.contextId
  ensure (contextId = parentContext ++ [recordId])
    (.dwn .protocolAuthorizationIncorrectContextId ("declared contextId '" ++ pathText contextId ++
      "' is not the expected '" ++ pathText (parentContext ++ [recordId]) ++ "'"))

/-- The contextId of a record without a parent is not looked at. -/
def validateParentage : Except Failure Unit :=
  match descriptor.parentId with
  | some parentId => do
      let parent ← okOr
        (parentNotFound parentId (definition.parentProtocol descriptor.protocolPath) descriptor)
        (fetchParentRecord store tenant parentId
          (definition.parentProtocol descriptor.protocolPath))
      validateChild message descriptor parent
  | none =>
      ensure (descriptor.protocolPath.length ≤ 1)
        (.dwn .protocolAuthorizationParentlessIncorrectProtocolPath ("declared protocol path '" ++
          pathText descriptor.protocolPath ++ "' is not valid for records with no parent"))

def validateSize (ruleSet : RuleSet) : Except Failure Unit := do
  ensure (∀ min ∈ ruleSet.size.bind (·.min), min ≤ descriptor.dataSize)
    (.detail ("ProtocolAuthorizationInvalidDataSize: dataSize " ++ toString descriptor.dataSize ++
      " is smaller than minimum " ++ toString ((ruleSet.size.bind (·.min)).getD 0)))
  ensure (∀ max ∈ ruleSet.size.bind (·.max), descriptor.dataSize ≤ max)
    (.detail ("ProtocolAuthorizationInvalidDataSize: dataSize " ++ toString descriptor.dataSize ++
      " exceeds maximum " ++ toString ((ruleSet.size.bind (·.max)).getD 0)))

def validateOrdinaryIntegrity : Except Failure Unit := do
  let policy ← resolvePolicy p store tenant message author
  validateRepresentation p store tenant message descriptor policy
  ensure (policy.ruleSet.immutable = some true → p.isInitialWrite message author)
    (.dwn .protocolAuthorizationImmutableRecord ("record at protocol path '" ++
      pathText descriptor.protocolPath ++ "' is immutable: updates are not allowed."))
  validateSize descriptor policy.ruleSet
  ensure (descriptor.squash = some true →
      policy.ruleSet.squash = some true ∧ p.isInitialWrite message author)
    (.detail "ProtocolAuthorizationInvalidSquash: squash writes must be initial writes at a $squash path")
  validateParentage store tenant message descriptor policy.definition

def validateReferentialIntegrity : Except Failure Unit := do
  let descriptor ← message.writeDescriptorOr
  match ControlKind.fromProtocolPath descriptor.protocolPath with
  | some kind => validateControlIntegrity p store tenant message kind author
  | none => validateOrdinaryIntegrity p store tenant message descriptor author

end

end Enbox
