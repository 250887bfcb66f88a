import Enbox.Permission.Signature

/-!
# Failures of the handlers

A permission failure is kept as it is; a handler only prints it.
-/

namespace Enbox

inductive DwnErrorCode
  | encryptionControlReadUnauthorized
  | encryptionControlValidateAudienceContextIdInvalid
  | encryptionControlValidateAudienceKeyIdMismatch
  | encryptionControlValidateAudienceMissingRequiredTag
  | encryptionControlValidateAudienceRolePathInvalid
  | encryptionControlValidateAudienceSealKeyIdMismatch
  | encryptionControlValidateAudienceTagsMismatch
  | encryptionControlValidateAudienceWriterUnauthorized
  | encryptionControlValidateDeliveryAudienceMissing
  | encryptionControlValidateDeliveryMissingRequiredTag
  | encryptionControlValidateDeliveryRecipientAuthorityInvalid
  | encryptionControlValidateDeliveryRecipientMissing
  | encryptionControlValidateDeliveryRecipientRoleRecordMissing
  | encryptionControlValidateDeliveryTagsMismatch
  | encryptionControlValidateUnexpectedRecord
  | encryptionProtocolValidateEncryptedDeliveryMissingEncryption
  | encryptionProtocolValidateGrantKeyAuthorMismatch
  | encryptionProtocolValidateGrantKeyGrantScopeMismatch
  | encryptionProtocolValidateGrantKeyRecipientMismatch
  | encryptionProtocolValidateGrantKeyWrappedDeliveryInvalid
  | encryptionProtocolValidateSchemaUnexpectedRecord
  | grantAuthorizationGrantExpired
  | grantAuthorizationGrantMissing
  | grantAuthorizationGrantNotYetActive
  | grantAuthorizationGrantRevoked
  | protocolAuthorizationCrossProtocolParentNotFound
  | protocolAuthorizationEncryptionKeyAgreementMissing
  | protocolAuthorizationEncryptionNotAllowed
  | protocolAuthorizationEncryptionProtocolPathEntryMissing
  | protocolAuthorizationEncryptionRequired
  | protocolAuthorizationEncryptionRoleAudienceEntryMissing
  | protocolAuthorizationEncryptionRoleAudienceMissing
  | protocolAuthorizationImmutableRecord
  | protocolAuthorizationIncorrectContextId
  | protocolAuthorizationIncorrectProtocolPath
  | protocolAuthorizationInvalidType
  | protocolAuthorizationMatchingRoleRecordNotFound
  | protocolAuthorizationMissingContextId
  | protocolAuthorizationNotARole
  | protocolAuthorizationParentRecordNotFound
  | protocolAuthorizationParentlessIncorrectProtocolPath
  | protocolAuthorizationProtocolNotFound
  | protocolAuthorizationSquashBackstop
  | protocolAuthorizationStoredInitialWriteActionNotAllowed
  | protocolAuthorizationStoredInitialWriteActionRulesNotFound
  | protocolAuthorizationTagsInvalidSchema
  | recordsWriteDataCidMismatch
  | recordsWriteDataSizeMismatch
  | recordsWriteGetInitialWriteNotFound
  | recordsWriteImmutablePropertyChanged
  | recordsWriteMissingDataInPrevious
  | recordsWriteMissingEncodedDataInPrevious
  | recordsWriteNotAllowedAfterDelete
  | schemaValidatorFailure
  deriving DecidableEq

inductive Failure
  | dwn (code : DwnErrorCode) (detail : String)
  | detail (text : String)
  | internal (text : String)
  | permission (error : GrantError)
  | printed (failure : Failure)
  | coded (code : DwnErrorCode) (failure : Failure)
  -- The request is never answered.
  | diverges
  deriving DecidableEq

def Failure.underCode (code : DwnErrorCode) : Failure → Failure
  | diverges => diverges
  | failure => coded code failure

structure Status where
  code : Nat
  failure : Option Failure := none
  deriving DecidableEq

end Enbox
