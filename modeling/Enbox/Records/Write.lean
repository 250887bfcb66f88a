import Enbox.Records.Access
import Enbox.Records.CoreProtocol
import Enbox.Records.Integrity

/-! # The RecordsWrite handler -/

namespace Enbox

open Lib

def signatureStatus : GrantError → Nat
  | .invalidGrant (.unauthorized _) => 401
  | _ => 400

def validationStatus : Failure → Nat
  | .internal _ => 500
  | _ => 400

def replying {α : Type} (status : Failure → Nat) (check : Except Failure α) : Except Status α :=
  check.mapError fun failure => ⟨status failure, some failure⟩

def always (code : Nat) : Failure → Nat := fun _ => code

def badRequest (failure : Failure) : Status := ⟨400, some failure⟩
def unauthorized (failure : Failure) : Status := ⟨401, some failure⟩
def conflict : Status := ⟨409, none⟩
def accepted : Status := ⟨202, none⟩
def noContent : Status := ⟨204, none⟩
def notFound : Status := ⟨404, none⟩

def Status.isSuccess (status : Status) : Bool := status.code = 202 || status.code = 204

section

variable (p : Primitives)

variable (stores : Stores) (tenant : Did) (message : Message) (admitted : AdmittedWrite)

def requireSignature (resolver : Option DidResolver) (missing : String) (message : Message) :
    Except Status AuthorizationContext := do
  let context ← (validateAuthorizationSignature p resolver message true).mapError fun error =>
    ⟨signatureStatus error, some (.permission error)⟩
  okOr (unauthorized (.detail missing)) context

structure AdmittedWrite where
  existing : List Message
  plan : RecordsTransitionPlan
  auth : AuthorizationContext
  deriving DecidableEq

def RecordsTransitionPlan.isDuplicate : RecordsTransitionPlan → Bool
  | duplicate _ => true
  | _ => false

def verifyUpdate (author : Did) (existing : List Message) : Except Failure Unit :=
  if p.isInitialWrite message author then .ok ()
  else do
    let initialWrite ← okOr
      (.dwn .recordsWriteGetInitialWriteNotFound "Initial write is not found.")
      (findInitialWrite p existing)
    verifyImmutableProperties initialWrite message

def refuseSuperseded (existing : List Message) :
    RecordsTransitionPlan → Except Status Unit
  | .superseded _ _ =>
      if (newestMessage p existing).any fun newest =>
          newest.deleteDescriptor.isSome && compareMessages p message newest = .gt then
        .error (badRequest (.dwn .recordsWriteNotAllowedAfterDelete
          "RecordsWrite is not allowed after a RecordsDelete."))
      else .error conflict
  | _ => .ok ()

def admitWrite (resolver : Option DidResolver) (store : MessageStore) (tenant : Did)
    (message : Message) : Except Status AdmittedWrite := do
  let recordId ← okOr (badRequest (.detail "RecordsWriteMissingRecordId: recordId is required"))
    message.recordId
  let plan ← replying (always 400)
    (planRecordsTransition p message (fetchRecordMessages store tenant recordId))
  ensure (¬ plan.isDuplicate) conflict
  let auth ← requireSignature p resolver
    "AuthenticateJwsMissing: authorization signature is required" message
  replying (always 400) (validateRecordsWriteIntegrity p message auth)
  replying validationStatus (validateReferentialIntegrity p store tenant message auth.author)
  replying (always 401) (authorizeRecordsWrite p store tenant message auth)
  replying coreProtocolStatus (preProcessWrite p store tenant message)
  replying (always 400)
    (verifyUpdate p message auth.author (fetchRecordMessages store tenant recordId))
  replying (always 409) (enforceSquashBackstop store tenant message)
  refuseSuperseded p message (fetchRecordMessages store tenant recordId) plan
  return ⟨fetchRecordMessages store tenant recordId, plan, auth⟩

structure StagedWrite where
  stores : Stores
  message : Message
  isLatestBaseState : Bool
  deriving DecidableEq

def validateControlData (store : MessageStore) (tenant : Did) (message : Message)
    (descriptor : WriteDescriptor) (data : Bytes) : Except Failure Unit :=
  match ControlKind.fromProtocolPath descriptor.protocolPath with
  | some kind => validateControlPayload p store tenant message data kind
  | none => .ok ()

def storeData (descriptor : WriteDescriptor) (data : Bytes) : Except Failure StagedWrite :=
  if descriptor.dataSize ≤ maxEncodedDataSize then do
    validateEncryptionDelivery p message data
    return ⟨stores, setEncodedData message (some (p.base64UrlText data)), true⟩
  else do
    let recordId ← okOr (.detail "RecordsWriteMissingRecordId: recordId is required")
      message.recordId
    return ⟨{ stores with data := stores.data.put tenant recordId descriptor.dataCid data },
      setEncodedData message none, true⟩

def processMessageWithDataStream (data : Bytes) : Except Failure StagedWrite := do
  let descriptor ← message.writeDescriptorOr
  validateDataIntegrity descriptor.dataCid descriptor.dataSize (p.dataCid data) data.length
  validateControlData p stores.messages tenant message descriptor data
  storeData p stores tenant message descriptor data

def missingDataInPrevious (code : DwnErrorCode) : Failure :=
  .dwn code "No dataStream was provided and unable to get data from previous message"

def reuseData (descriptor : WriteDescriptor) (newest : Message) : Except Failure StagedWrite :=
  if descriptor.dataSize ≤ maxEncodedDataSize then do
    let encodedData ← okOr (missingDataInPrevious .recordsWriteMissingEncodedDataInPrevious)
      newest.fields.encodedData
    return ⟨stores, setEncodedData message (some encodedData), true⟩
  else do
    let recordId ← okOr (.detail "RecordsWriteMissingRecordId: previous recordId is required")
      newest.recordId
    ensure (stores.data.get tenant recordId descriptor.dataCid).isSome
      (missingDataInPrevious .recordsWriteMissingDataInPrevious)
    return ⟨stores, setEncodedData message none, true⟩

def processMessageWithoutDataStream (message newest : Message) : Except Failure StagedWrite := do
  let descriptor ← message.writeDescriptorOr
  let newestDescriptor ← newest.writeDescriptorOr
  validateDataIntegrity descriptor.dataCid descriptor.dataSize newestDescriptor.dataCid
    newestDescriptor.dataSize
  reuseData stores tenant message descriptor newest

def stageWithoutData : Except Failure StagedWrite := do
  ensure (ControlKind.of message).isNone
    (unexpected "encryption control records must be written with their data")
  if p.isInitialWrite message admitted.auth.author then .ok ⟨stores, message, false⟩
  else do
    let newest ← okOr (missingDataInPrevious .recordsWriteMissingDataInPrevious)
      ((newestMessage p admitted.existing).filter (·.writeDescriptor.isSome))
    processMessageWithoutDataStream stores tenant message newest

def stageWrite (data : Option Bytes) (admitted : AdmittedWrite) : Except Failure StagedWrite :=
  match data <|> encodedDataBytes p message with
  | some data => processMessageWithDataStream p stores tenant message data
  | none => stageWithoutData p stores tenant message admitted

def RecordsTransitionPlan.cleanupCids : RecordsTransitionPlan → List Cid
  | apply _ outranked => outranked
  | _ => []

def commitWrite (staged : StagedWrite) : Except Status MessageStore := do
  replying coreProtocolStatus (validateRecord p staged.message)
  let indexes ← replying (always 400)
    (recordsWriteIndexes p staged.message admitted.auth.author staged.isLatestBaseState)
  let transition ← replying (always 400)
    (recordsWriteTransition p staged.message indexes admitted.existing admitted.plan
      admitted.auth.author)
  replying (always 500) (staged.stores.messages.commitLatestState p tenant transition)

def squashSiblings (stores : Stores) (message : Message) : Except Failure Stores :=
  if message.writeDescriptor.any (·.squash = some true) then
    performRecordsSquash p tenant stores message
  else .ok stores

def finishWrite (staged : StagedWrite) (committed : Stores) : Status × Stores :=
  -- The sweeps after a commit; one that fails leaves the commit in place.
  match squashSiblings p tenant
      (cleanUpData p committed tenant staged.message admitted.plan.cleanupCids admitted.existing)
      staged.message with
  | .error failure =>
      (⟨500, some failure⟩,
        cleanUpData p committed tenant staged.message admitted.plan.cleanupCids admitted.existing)
  | .ok swept =>
      (if p.isInitialWrite staged.message admitted.auth.author && !staged.isLatestBaseState then
          noContent
        else accepted,
        postProcessPermissionsWrite p tenant swept staged.message)

/-- `RecordsWriteHandler::handle`. Data that was staged stays when the commit is refused. -/
def handleWrite (resolver : Option DidResolver) (stores : Stores) (tenant : Did)
    (message : Message) (data : Option Bytes) : Status × Stores :=
  match admitWrite p resolver stores.messages tenant message with
  | .error status => (status, stores)
  | .ok admitted =>
    match replying validationStatus (stageWrite p stores tenant message data admitted) with
    | .error status => (status, stores)
    | .ok staged =>
      match commitWrite p tenant admitted staged with
      | .error status => (status, staged.stores)
      | .ok messages =>
          finishWrite p tenant admitted staged { staged.stores with messages }

end

end Enbox
