import Enbox.Records.Integrity

/-!
# Repair of control records

The definition that governs a control record's own timestamp is asked whether the record was
admissible, the newest one only whether its role is still a role.
-/

namespace Enbox

open Lib

inductive ControlConfigValidity
  | valid
  | invalid
  | unknown
  deriving DecidableEq

def DwnErrorCode.isControlInvalidity : DwnErrorCode → Bool
  | .encryptionControlValidateAudienceRolePathInvalid
  | .encryptionControlValidateAudienceSealKeyIdMismatch
  | .protocolAuthorizationStoredInitialWriteActionRulesNotFound
  | .protocolAuthorizationStoredInitialWriteActionNotAllowed => true
  | _ => false

def actionCan : Action → List Can
  | .role _ can => can
  | .who _ _ can => can

section

variable (p : Primitives)

/-- Decoded as the payload of any message, whatever type it was validated at. -/
def storedSignaturePayload (message : Message) : Option AuthorizationPayloadData :=
  (decodeJwsPayload p p.authorizationPayload message.fields.authorization.signature).toOption

def verifyStoredSeal (control : Message) (governing : RoleAudienceDefinition) :
    ControlKind → Except Failure Unit
  | .delivery => .ok ()
  | .audience =>
    match control.fields.encodedData with
    | none => .ok ()
    | some encoded => do
        let bytes ← okOr (unexpected "Invalid base64url data") (p.base64Url encoded)
        let payload ← okOr (.dwn .schemaValidatorFailure "audience payload must be JSON")
          (p.audiencePayload bytes)
        let roleKey ← okOr
          (.dwn .encryptionControlValidateAudienceRolePathInvalid
            "governing role has no $keyAgreement")
          governing.ruleSet.keyAgreement
        payload.verifySealKeyId p roleKey

def validateStoredControlRecord (store : MessageStore) (tenant : Did) (control : Message)
    (kind : ControlKind) : Except Failure RuleSet := do
  let descriptor ← okOr
    (unexpected "RecordsWriteDescriptorExpected: message is not RecordsWrite")
    control.writeDescriptor
  let id ← AudienceId.fromMessage control kind
  let governing ← resolveRoleAudienceDefinition store tenant id descriptor.messageTimestamp
  verifyStoredSeal p control governing kind
  -- The role has to survive, its key agreement does not.
  let newest ← (fetchProtocolDefinition store tenant id.scope.protocol none).mapError
    validationFailure
  ensure ((newest.ruleAt id.scope.role).any (·.role = some true))
    (.dwn .encryptionControlValidateAudienceRolePathInvalid ("role audience path '" ++
      id.scope.rolePath ++ "' no longer exists as a role in protocol '" ++ id.scope.protocol ++
      "'"))
  return governing.ruleSet

def storedWriteIsDirectlyAuthorized (tenant : Did) (control : Message) : Bool :=
  control.fields.authorization.ownerSignature.isSome ||
    control.fields.authorization.ownerDelegatedGrant.isSome ||
    messageAuthor p control = some tenant ||
    control.fields.authorization.authorDelegatedGrant.isSome ||
    (storedSignaturePayload p control).any (·.permissionGrantId.isSome)

def actionsSoughtByStoredWrite (control : Message) (ruleSet : RuleSet) : List Can :=
  if (control.writeDescriptor.bind (·.squash)) ≠ some true then [.create]
  else if ruleSet.actions.any fun action => .squash ∈ actionCan action then [.squash]
  else [.squash, .create]

def storedActionAnswers (sought : List Can) (invokedRole : Option Reference) (action : Action) :
    Bool :=
  (actionCan action).any (· ∈ sought) &&
    match action with
    | .role role _ => invokedRole = some role
    -- Author and recipient are not resolved: their parents may have gone.
    | .who _ _ _ => invokedRole.isNone

def verifyStoredCreateAction (tenant : Did) (control : Message) (ruleSet : RuleSet) :
    Except Failure Unit :=
  if storedWriteIsDirectlyAuthorized p tenant control then .ok ()
  else do
    ensure (ruleSet.actions ≠ [])
      (.dwn .protocolAuthorizationStoredInitialWriteActionRulesNotFound
        "no create action rule defined for the stored control record")
    ensure (ruleSet.actions.any (storedActionAnswers (actionsSoughtByStoredWrite control ruleSet)
        ((storedSignaturePayload p control).bind (·.protocolRole))))
      (.dwn .protocolAuthorizationStoredInitialWriteActionNotAllowed
        "the stored control record is not allowed by the resolved protocol configuration")

def controlVerdict : Except Failure Unit → Except String ControlConfigValidity
  | .ok () => .ok .valid
  | .error (.dwn code _) | .error (.coded code _) =>
      .ok (if code.isControlInvalidity then .invalid else .unknown)
  | .error (.internal detail) => .error detail
  | .error _ => .ok .unknown

def controlConfigValidity (store : MessageStore) (tenant : Did) (control : Message) :
    Except String ControlConfigValidity :=
  match ControlKind.of control with
  | none => .ok .valid
  | some kind => controlVerdict do
      let ruleSet ← validateStoredControlRecord p store tenant control kind
      verifyStoredCreateAction p tenant control ruleSet

end

end Enbox
