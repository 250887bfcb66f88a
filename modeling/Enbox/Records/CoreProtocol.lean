import Enbox.Permission.Coverage
import Enbox.Records.Transition

/-! # Hooks of the core protocols -/

namespace Enbox

open Lib

def WriteDescriptor.stringTag (descriptor : WriteDescriptor) (tag : String) : Option String :=
  match descriptor.tags.bind (·.lookup tag) with
  | some (.scalar (.string value)) => some value
  | _ => none

section

variable (p : Primitives) (store : MessageStore) (tenant : Did)

variable (message : Message) (descriptor : WriteDescriptor)

def preProcessPermissionsWrite : Except GrantError Unit := do
  let descriptor ← okOr .invalidMessageType message.writeDescriptor
  if descriptor.protocol ≠ permissionsProtocolUri ∨
      descriptor.protocolPath ≠ permissionsRevocationPath then .ok ()
  else do
    let parentId ← okOr (.protocolValidation .missingRevocationParentId) descriptor.parentId
    let grant ← fetchGrant p store tenant parentId
    ensure (grant.scope.protocol = descriptor.stringTag "protocol")
      (.protocolValidation .missingRevocationParentId)

def validateScopeAndTags (scope : PermissionScope) (descriptor : WriteDescriptor) :
    Except GrantError Unit :=
  ensure (∀ protocol ∈ scope.protocol, descriptor.stringTag "protocol" = some protocol)
    (.invalidGrant .protocolInvalidTags)

def validatePermissionsData (data : Bytes) : Except GrantError Unit :=
  if descriptor.protocolPath = permissionsRequestPath then do
    let request ← okOr (.invalidGrant .parseFailed) (p.requestData data)
    validateScopeAndTags request.scope descriptor
  else if descriptor.protocolPath = permissionsGrantPath then do
    let grant ← okOr (.invalidGrant .parseFailed) (p.grantData data)
    validateScopeAndTags grant.scope descriptor
  else if descriptor.protocolPath = permissionsRevocationPath then do
    let _ ← okOr (.invalidGrant .parseFailed) (p.revocationData data)
    return ()
  else .error (.invalidGrant (.unexpectedPermissionRecord descriptor.protocolPath))

def validatePermissionsRecordSchema : Except GrantError Unit := do
  let descriptor ← okOr .invalidMessageType message.writeDescriptor
  if descriptor.protocol ≠ permissionsProtocolUri then .ok ()
  else do
    let data ← permissionRecordDataBytes p message
    validatePermissionsData p descriptor data

def removeAuthorizedOps : List StoreOp :=
  match message.writeDescriptor, message.recordId with
  | some descriptor, some recordId =>
      if maxEncodedDataSize < descriptor.dataSize then
        [.deleteData recordId descriptor.dataCid, .deleteMessage (p.messageCid message)]
      else [.deleteMessage (p.messageCid message)]
  | _, _ => [.deleteMessage (p.messageCid message)]

def revokedMessages : List Message :=
  match message.writeDescriptor with
  | none => []
  | some descriptor =>
    if descriptor.protocol ≠ permissionsProtocolUri ∨
        descriptor.protocolPath ≠ permissionsRevocationPath then []
    else
      match descriptor.parentId with
      | none => []
      | some grantId => (store.query tenant [[(.permissionGrantId, stringFilter grantId)]]).filter
          fun m => descriptor.messageTimestamp ≤ m.messageTimestamp

def postProcessPermissionsWriteOps : List StoreOp :=
  (revokedMessages store tenant message).flatMap (removeAuthorizedOps p)

def postProcessPermissionsWrite (stores : Stores) (message : Message) : Stores :=
  performOps p tenant stores (postProcessPermissionsWriteOps p stores.messages tenant message)

def keyIdLength : Nat := 43

def isKeyIdChar (c : Char) : Bool := c.isAlphanum || c = '-' || c = '_'

def invalidTags (detail : String) : Failure := .dwn .protocolAuthorizationTagsInvalidSchema detail

def definedTags : List String := ["grantId", "protocol", "protocolPath", "keyId"]

def tagStr : Value → Option String
  -- Texts that look like a CID, as every grant id does, arrive as `Cid`.
  | .scalar (.string text) => some text
  | .scalar (.cid text) => some text
  | _ => none

def requiredTag (name : String) : Except Failure String :=
  okOr (invalidTags ("grantKey tag '" ++ name ++ "' must be a defined string tag."))
    ((descriptor.tags.bind (·.lookup name)).bind tagStr)

def optionalTag (name : String) : Except Failure (Option String) :=
  if (descriptor.tags.bind (·.lookup name)).isNone then .ok none
  else do
    let value ← requiredTag descriptor name
    return some value

def grantKeyFailure : GrantError → Failure
  | .notFound id =>
      .dwn .grantAuthorizationGrantMissing ("could not find permission grant " ++ id)
  | .expired =>
      .dwn .grantAuthorizationGrantExpired "grant-key references an expired permission grant"
  | .revoked =>
      .dwn .grantAuthorizationGrantRevoked "grant-key references a revoked permission grant"
  | _ => .internal "grant-key admission failed"

def validateDeliveryRepresentation : Except Failure Unit :=
  if descriptor.protocolPath = grantKeyPath then
    ensure message.fields.encryption.isSome
      (.dwn .encryptionProtocolValidateEncryptedDeliveryMissingEncryption
        "grantKey records must be encrypted.")
  else do
    ensure message.fields.encryption.isNone
      (.dwn .protocolAuthorizationEncryptionNotAllowed
        "wrappedGrantKey records must be plaintext at the DWN record level.")
    ensure (descriptor.dataSize ≤ maxEncodedDataSize)
      (.dwn .encryptionProtocolValidateEncryptedDeliveryMissingEncryption
        ("wrappedGrantKey records must be at most " ++ toString maxEncodedDataSize ++
          " bytes to validate inline, got " ++ toString descriptor.dataSize ++ "."))

structure DeliveryTags where
  grantId : String
  protocol : String
  protocolPath : Option String
  keyId : String
  deriving DecidableEq

def deliveryTags : Except Failure DeliveryTags := do
  ensure ((descriptor.tags.getD []).all fun tag => tag.1 ∈ definedTags)
    (invalidTags ("grantKey records must not carry undefined tag '" ++
      (((descriptor.tags.getD []).find? fun tag => tag.1 ∉ definedTags).map (·.1)).getD "" ++ "'."))
  let grantId ← requiredTag descriptor "grantId"
  let protocol ← requiredTag descriptor "protocol"
  let protocolPath ← optionalTag descriptor "protocolPath"
  let keyId ← requiredTag descriptor "keyId"
  ensure (keyId.toList.length = keyIdLength ∧ keyId.toList.all isKeyIdChar)
    (invalidTags ("grantKey tag 'keyId' must match ^[A-Za-z0-9_-]\x7b43\x7d$, got '" ++ keyId ++
      "'."))
  return ⟨grantId, protocol, protocolPath, keyId⟩

def scopeMismatch (detail : String) : Failure :=
  .dwn .encryptionProtocolValidateGrantKeyGrantScopeMismatch detail

def validateDeliveredScope (grant : PermissionGrant) (tags : DeliveryTags)
    (timestamp : Timestamp) : Except Failure Unit := do
  let eligible ← okOr
    (scopeMismatch "grant-key must reference an eligible Records Read or Write grant.")
    (eligibleGrantScope grant.scope)
  ensure (eligible.protocol = tags.protocol)
    (scopeMismatch ("grant-key protocol " ++ tags.protocol ++
      " is outside the permission grant scope."))
  if grantCoversDeliveredScope eligible ⟨tags.protocol, tags.protocolPath.map splitPath⟩ none then
    .ok ()
  else do
    let path ← okOr
      (scopeMismatch "grant-key protocolPath <protocol> is outside the permission grant scope.")
      tags.protocolPath
    let definition ← (fetchProtocolDefinition store tenant tags.protocol
      (some timestamp)).mapError fun
        | .notFound uri => .dwn .protocolAuthorizationProtocolNotFound
            ("unable to find protocol definition for " ++ uri)
        | _ => .internal "grant-key admission failed"
    ensure (grantCoversDeliveredScope eligible ⟨tags.protocol, some (splitPath path)⟩
        (some definition))
      (scopeMismatch ("grant-key protocolPath " ++ path ++
        " is outside the permission grant scope."))

def validateDeliveryGrant (grant : PermissionGrant) : Except Failure Unit := do
  ensure (grant.dateGranted ≤ descriptor.messageTimestamp)
    (.dwn .grantAuthorizationGrantNotYetActive
      "grant-key references a permission grant that is not active yet.")
  ensure (descriptor.messageTimestamp < grant.dateExpires)
    (.dwn .grantAuthorizationGrantExpired "grant-key references an expired permission grant.")
  (verifyGrantNotRevoked store tenant descriptor.messageTimestamp grant).mapError grantKeyFailure
  ensure (messageAuthor p message = some grant.grantor)
    (.dwn .encryptionProtocolValidateGrantKeyAuthorMismatch
      ("grant-key author must be permission grantor " ++ grant.grantor ++ "."))
  ensure (descriptor.recipient = some grant.grantee)
    (.dwn .encryptionProtocolValidateGrantKeyRecipientMismatch
      ("grant-key recipient must be permission grantee " ++ grant.grantee ++ "."))

def isDelivery : Bool :=
  descriptor.protocol = encryptionProtocolUri &&
    (descriptor.protocolPath = grantKeyPath || descriptor.protocolPath = wrappedGrantKeyPath)

def preProcessEncryptionWrite : Except Failure Unit := do
  let descriptor ← message.writeDescriptorOr
  if isDelivery descriptor then do
    validateDeliveryRepresentation message descriptor
    let tags ← deliveryTags descriptor
    let grant ← (fetchGrant p store tenant tags.grantId).mapError grantKeyFailure
    validateDeliveryGrant p store tenant message descriptor grant
    validateDeliveredScope store tenant grant tags descriptor.messageTimestamp
  else .ok ()

def validateEncryptionDelivery (data : Bytes) : Except Failure Unit := do
  let descriptor ← message.writeDescriptorOr
  if descriptor.protocol ≠ encryptionProtocolUri ∨
      descriptor.protocolPath ≠ wrappedGrantKeyPath then .ok ()
  else do
    let valid ← okOr
      (.dwn .encryptionProtocolValidateEncryptedDeliveryMissingEncryption
        "wrappedGrantKey records must carry a valid wrapped grantKey envelope")
      (p.wrappedGrantKeyEnvelope data)
    ensure valid (.dwn .encryptionProtocolValidateGrantKeyWrappedDeliveryInvalid
      "wrapped grantKey envelope does not match its schema")

def validateEncryptionRecordSchema : Except Failure Unit := do
  let descriptor ← message.writeDescriptorOr
  ensure (descriptor.protocol = encryptionProtocolUri → isDelivery descriptor)
    (.dwn .encryptionProtocolValidateSchemaUnexpectedRecord
      ("unexpected encryption record: " ++ pathText descriptor.protocolPath))

def preProcessWrite : Except Failure Unit := do
  (preProcessPermissionsWrite p store tenant message).mapError .permission
  preProcessEncryptionWrite p store tenant message

def validateRecord : Except Failure Unit := do
  (validatePermissionsRecordSchema p message).mapError .permission
  validateEncryptionRecordSchema message

def coreProtocolStatus : Failure → Nat
  | .dwn .encryptionProtocolValidateGrantKeyAuthorMismatch _ => 401
  | .internal _ => 500
  | _ => 400

end

end Enbox
