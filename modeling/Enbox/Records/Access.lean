import Enbox.Records.Control

/-! # The authorization decision of each records handler -/

namespace Enbox

open Lib

section

variable (p : Primitives) (store : MessageStore) (tenant : Did)

def authorizeOrdinaryWrite (message : Message) (auth : AuthorizationContext) :
    Except Failure Unit :=
  orElseUnless (authorizeDelegatedRecordsWrite store message auth)
    (if auth.author = tenant then .ok ()
    else
      orElseUnless (authorizeRecordsWriteWithGrantId p store tenant message auth)
        (authorizeAgainstProtocol p store tenant message auth .write none))

def authorizeRecordsWrite (message : Message) (auth : AuthorizationContext) :
    Except Failure Unit :=
  match ControlKind.of message with
  | some kind =>
      (authorizeControlWrite p store tenant message kind auth).mapError .printed
  | none => authorizeOrdinaryWrite p store tenant message auth

def deletedRecordWrite (candidate : Message) : Except Failure Message := do
  let initial ← okOr
    (.detail "RecordsReadInitialWriteNotFound: initial write for deleted record not found")
    (fetchInitialWriteMessage store tenant ((messageRecordId candidate).getD ""))
  return ((fetchNewestWrite store tenant ((messageRecordId candidate).getD "")).toOption).getD initial

def authorizeReadCandidate (readMessage : Message) (filter : RecordsFilter)
    (signature : Option AuthorizationContext) (candidate : Message) : Except Failure Unit :=
  if candidate.deleteDescriptor.isSome then do
    let newest ← deletedRecordWrite store tenant candidate
    authorizeRecordsRead p store tenant readMessage signature newest
  else if (ControlKind.of candidate).isSome then do
    let visible ← canRead p store tenant readMessage signature candidate filter
    ensure visible (.detail
      "EncryptionControlReadUnauthorized: requester is not authorized to read the encryption control record")
  else authorizeRecordsRead p store tenant readMessage signature candidate

def authorizeDeleteRequest (deleteMessage : Message) (descriptor : DeleteDescriptor)
    (initialWrite : Message) (auth : AuthorizationContext) : Except Failure Unit := do
  ensure (ControlKind.of initialWrite).isNone
    (unexpected "encryption control records cannot be deleted")
  authorizeRecordsDelete p store tenant deleteMessage descriptor initialWrite auth

end

end Enbox
