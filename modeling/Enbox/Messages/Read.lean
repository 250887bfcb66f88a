import Enbox.Records.Write

/-! # The MessagesRead handler -/

namespace Enbox

open Lib

def maxInlineDataSize : Nat := 30000

structure ReadEntry where
  cid : Cid
  message : Option Message
  encodedData : Option String
  deriving DecidableEq

section

variable (p : Primitives)

def stripEncodedData (message : Message) : Message × Option String :=
  if message.writeDescriptor.isSome then (setEncodedData message none, message.fields.encodedData)
  else (message, none)

def recordsWriteDataReference (message : Message) : Option (String × Cid × Nat) := do
  let descriptor ← message.writeDescriptor
  let recordId ← message.recordId
  return (recordId, descriptor.dataCid, descriptor.dataSize)

def externalReadData (data : DataStore) (tenant : Did) (message : Message) : Option String := do
  let (recordId, dataCid, dataSize) ← recordsWriteDataReference message
  if maxInlineDataSize < dataSize then none
  else do
    let bytes ← data.get tenant recordId dataCid
    if maxInlineDataSize < bytes.length then none else some (p.base64UrlText bytes)

def readData (data : DataStore) (tenant : Did) (stored : Message) :
    MessagesReadGrantAccess → Option String
  | .metadataOnly => none
  | .full =>
      (stripEncodedData stored).2 <|> externalReadData p data tenant (stripEncodedData stored).1

/-- `MessagesReadHandler::handle`. The entry carries the request itself, not the message read. -/
def handleMessagesRead (resolver : Option DidResolver) (stores : Stores) (tenant : Did)
    (message : Message) (descriptor : MessagesReadDescriptor) : Except Status ReadEntry := do
  let messageCid ← okOr (badRequest
    (.detail "MessagesReadMissingMessageCid: descriptor.messageCid is required"))
    descriptor.messageCid
  let auth ← requireSignature p resolver
    "MessagesReadAuthorizationFailed: message failed authorization" message
  let stored ← okOr notFound (stores.messages.get tenant messageCid)
  let access ← (authorizeMessagesRead p stores.messages tenant message stored auth).mapError
    fun error => unauthorized (.permission error)
  return ⟨messageCid, some message, readData p stores.data tenant stored access⟩

end

end Enbox
