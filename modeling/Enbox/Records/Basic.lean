import Enbox.Permission.Grant

/-!
# RecordsWrite messages: integrity, indexes and order
-/

namespace Enbox

open Lib

def maxEncodedDataSize : Nat := 30000

def Message.writeDescriptorOr (m : Message) : Except Failure WriteDescriptor :=
  okOr (.detail "RecordsWriteDescriptorExpected: message is not RecordsWrite") m.writeDescriptor

theorem Message.writeDescriptorOr_eq_ok {m : Message} {d : WriteDescriptor} :
    m.writeDescriptorOr = .ok d ↔ m.descriptor = .recordsWrite d := by
  rw [writeDescriptorOr, okOr_eq_ok, writeDescriptor_eq_some]

def Message.deleteDescriptor (m : Message) : Option DeleteDescriptor :=
  match m.descriptor with
  | .recordsDelete d => some d
  | _ => none

theorem Message.deleteDescriptor_eq_some {m : Message} {d : DeleteDescriptor} :
    m.deleteDescriptor = some d ↔ m.descriptor = .recordsDelete d := by
  unfold deleteDescriptor
  split <;> simp_all

def messageRecordId (m : Message) : Option String :=
  m.recordId <|> m.deleteDescriptor.map (·.recordId)

def setEncodedData (m : Message) (encodedData : Option String) : Message :=
  ⟨m.descriptor, { m.fields with encodedData }⟩

section

variable (p : Primitives)

/-- `EncryptionEnvelope::validate`, with the texts the RecordsWrite handler reports. -/
def EncryptionEnvelope.validate (envelope : EncryptionEnvelope) : Except Failure Unit := do
  let vector ← okOr
    (.detail "RecordsWriteValidateIntegrityEncryptionInitializationVectorInvalid: initializationVector must be valid base64url")
    (p.base64Url envelope.initializationVector)
  ensure (vector.length = 16)
    (.detail "RecordsWriteValidateIntegrityEncryptionInitializationVectorInvalid: A256CTR initializationVector must decode to 16 bytes")
  ensure (envelope.keyEncryption.all fun entry => p.validPublicKey entry.ephemeralPublicKey)
    (.detail "RecordsWriteValidateIntegrityEncryptionEphemeralPublicKeyInvalid")

def validateEncryption : Option EncryptionEnvelope → Except Failure Unit
  | none => .ok ()
  | some envelope => envelope.validate p

def VerifiedAuthorizationPayload.asRecordsWrite :
    VerifiedAuthorizationPayload → Option RecordsWriteAuthorizationPayloadData
  | .recordsWrite payload => some payload
  | .generic _ => none

def validateInitialWriteIntegrity (message : Message) (recordId : String) (author : Did) :
    Except Failure Unit :=
  if p.isInitialWrite message author then do
    let descriptor ← message.writeDescriptorOr
    ensure (descriptor.messageTimestamp = descriptor.dateCreated)
      (.detail ("RecordsWriteValidateIntegrityDateCreatedMismatch: messageTimestamp " ++
        toString descriptor.messageTimestamp ++ " must match dateCreated " ++
        toString descriptor.dateCreated ++ " for the initial write"))
    ensure (descriptor.parentId = none → message.contextId = some [recordId])
      (.detail "RecordsWriteValidateIntegrityContextIdMismatch: root contextId must match recordId")
  else .ok ()

def validateRecordsWriteIntegrity (message : Message) (auth : AuthorizationContext) :
    Except Failure Unit := do
  let payload ← okOr
    (.detail "RecordsWriteValidateIntegrityAuthorizationPayloadMissing: authorization payload is required")
    auth.payload.asRecordsWrite
  let recordId ← okOr (.detail "RecordsWriteValidateIntegrityRecordIdMissing: recordId is required")
    message.recordId
  ensure (payload.recordId = recordId)
    (.detail "RecordsWriteValidateIntegrityRecordIdUnauthorized: recordId in message does not match recordId in authorization")
  validateEncryption p message.fields.encryption
  ensure (message.contextId = some payload.contextId)
    (.detail "RecordsWriteValidateIntegrityContextIdNotInSignerSignaturePayload: contextId in message does not match contextId in authorization")
  validateInitialWriteIntegrity p message recordId auth.author

def isOwnInitialWrite (message : Message) : Bool :=
  message.writeDescriptor.isSome && p.isInitialWrite message ((messageAuthor p message).getD "")

def findInitialWrite (messages : List Message) : Option Message :=
  messages.find? (isOwnInitialWrite p)

def changedProperty (initial new : WriteDescriptor) : Option String :=
  -- The interface and the method of two RecordsWrite descriptors are the same.
  if initial.protocol ≠ new.protocol then some "protocol"
  else if initial.protocolPath ≠ new.protocolPath then some "protocolPath"
  else if initial.recipient ≠ new.recipient then some "recipient"
  else if initial.schema ≠ new.schema then some "schema"
  else if initial.parentId ≠ new.parentId then some "parentId"
  else if initial.permissionGrantId ≠ new.permissionGrantId then some "permissionGrantId"
  else if initial.dateCreated ≠ new.dateCreated then some "dateCreated"
  else if initial.squash ≠ new.squash then some "squash"
  else none

def verifyImmutableProperties (initialWrite newMessage : Message) : Except Failure Unit := do
  let initial ← okOr (.dwn .recordsWriteImmutablePropertyChanged
    "RecordsWriteDescriptorExpected: message is not RecordsWrite") initialWrite.writeDescriptor
  let new ← okOr (.dwn .recordsWriteImmutablePropertyChanged
    "RecordsWriteDescriptorExpected: message is not RecordsWrite") newMessage.writeDescriptor
  ensure (changedProperty initial new = none)
    (.dwn .recordsWriteImmutablePropertyChanged
      ((changedProperty initial new).getD "" ++ " is an immutable property"))

def validateDataIntegrity (expectedDataCid : Cid) (expectedDataSize : Nat) (actualDataCid : Cid)
    (actualDataSize : Nat) : Except Failure Unit := do
  ensure (expectedDataCid = actualDataCid)
    (.dwn .recordsWriteDataCidMismatch ("actual data CID " ++ actualDataCid ++
      " does not match dataCid in descriptor: " ++ expectedDataCid))
  ensure (expectedDataSize = actualDataSize)
    (.dwn .recordsWriteDataSizeMismatch ("actual data size " ++ toString actualDataSize ++
      " bytes does not match dataSize in descriptor: " ++ toString expectedDataSize))

def encodedDataBytes (message : Message) : Option Bytes :=
  message.fields.encodedData.bind p.base64Url

def optionalIndex {α : Type} (key : IndexKey) (wrap : α → Value) (value : Option α) : Indexes :=
  value.toList.map fun v => (key, wrap v)

/-- A `u64` as an `i64`: `as_i64` where it fits, and `as i64` where it does not. -/
def asI64 (value : Nat) : Int := if value < 2 ^ 63 then value else value - 2 ^ 64

def writeDescriptorIndexes (d : WriteDescriptor) : Indexes :=
  [(.interface, .string recordsInterface), (.method, .string writeMethod),
    (.protocol, .string d.protocol), (.protocolPath, .path d.protocolPath)] ++
  optionalIndex .recipient .string d.recipient ++
  optionalIndex .schema .string d.schema ++
  optionalIndex .parentId .string d.parentId ++
  [(.dataCid, .string d.dataCid), (.dataSize, .number (asI64 d.dataSize)),
    (.dateCreated, .dateTime d.dateCreated), (.messageTimestamp, .dateTime d.messageTimestamp)] ++
  optionalIndex .datePublished .dateTime d.datePublished ++
  [(.dataFormat, .string d.dataFormat)] ++
  optionalIndex .permissionGrantId .string d.permissionGrantId

def recordsWriteIndexes (message : Message) (author : Did) (isLatestBaseState : Bool) :
    Except Failure Indexes := do
  let descriptor ← message.writeDescriptorOr
  let recordId ← okOr (.detail "RecordsWriteMissingRecordId: recordId is required") message.recordId
  return writeDescriptorIndexes descriptor ++
    [(.isLatestBaseState, .bool isLatestBaseState),
      (.published, .bool (descriptor.published.getD false)),
      (.squash, .bool (descriptor.squash.getD false)),
      (.author, .string author),
      (.recordId, .string recordId),
      (.entryId, .string (p.entryId author descriptor))] ++
    optionalIndex .contextId .path message.contextId ++
    if isLatestBaseState then
      (descriptor.tags.getD []).map fun tag => (.tag tag.1, tag.2)
    else []

def recordsDeleteIndexes (message initialWrite : Message) (author : Did) :
    Except Failure Indexes := do
  let descriptor ← okOr (.detail "RecordsDeleteDescriptorExpected: message is not RecordsDelete")
    message.deleteDescriptor
  let initial ← initialWrite.writeDescriptorOr
  return [(.interface, .string recordsInterface), (.method, .string deleteMethod),
      (.messageTimestamp, .dateTime descriptor.messageTimestamp)] ++
    optionalIndex .permissionGrantId .string descriptor.permissionGrantId ++
    [(.recordId, .string descriptor.recordId), (.prune, .bool descriptor.prune),
      (.isLatestBaseState, .bool true), (.author, .string author),
      (.protocol, .string initial.protocol), (.protocolPath, .path initial.protocolPath)] ++
    optionalIndex .recipient .string initial.recipient ++
    optionalIndex .schema .string initial.schema ++
    optionalIndex .parentId .string initial.parentId ++
    [(.dateCreated, .dateTime initial.dateCreated)] ++
    optionalIndex .contextId .path initialWrite.contextId

def compareMessages (a b : Message) : Ordering :=
  (compare a.messageTimestamp b.messageTimestamp).then
    (compareText (p.messageCid a) (p.messageCid b))

/-- `Iterator::max_by`: the last of the greatest. -/
def maxBy {α : Type} (compare : α → α → Ordering) : List α → Option α
  | [] => none
  | a :: rest => some (rest.foldl (fun best b => if compare best b = .gt then best else b) a)

def newestMessage (messages : List Message) : Option Message := maxBy (compareMessages p) messages

end

end Enbox
