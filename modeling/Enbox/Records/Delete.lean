import Enbox.Records.Write

/-!
# The RecordsDelete handler
-/

namespace Enbox

open Lib

structure AdmittedDelete where
  existing : List Message
  plan : RecordsTransitionPlan
  initialWrite : Message
  deriving DecidableEq

def RecordsTransitionPlan.applies : RecordsTransitionPlan → Bool
  | apply _ _ => true
  | _ => false

def deleteStatus : Failure → Nat
  -- A control record is undeletable whoever asks.
  | .dwn .encryptionControlValidateUnexpectedRecord _ => 400
  | _ => 401

section

variable (p : Primitives)

/-- The write a delete is decided on: the initial write, or some retained write when the initial
write is gone. -/
def deletedWrite (existing : List Message) : Option Message :=
  findInitialWrite p existing <|> existing.find? (·.writeDescriptor.isSome)

def admitDelete (resolver : Option DidResolver) (store : MessageStore) (tenant : Did)
    (message : Message) (descriptor : DeleteDescriptor) : Except Status AdmittedDelete := do
  let auth ← requireSignature p resolver
    "AuthenticateJwsMissing: authorization signature is required" message
  ensure (fetchRecordMessages store tenant descriptor.recordId ≠ []) notFound
  let plan ← replying (always 400)
    (planRecordsTransition p message (fetchRecordMessages store tenant descriptor.recordId))
  ensure plan.applies conflict
  let initialWrite ← okOr
    (unauthorized (.detail "RecordsDeleteAuthorizationFailed: initial write not found"))
    (deletedWrite p (fetchRecordMessages store tenant descriptor.recordId))
  replying deleteStatus
    (authorizeDeleteRequest p store tenant message descriptor initialWrite auth)
  return ⟨fetchRecordMessages store tenant descriptor.recordId, plan, initialWrite⟩

def commitDelete (store : MessageStore) (tenant : Did) (message : Message)
    (admitted : AdmittedDelete) : Except Failure (MessageStore × List Cid) := do
  let author ← okOr (.detail "RecordsDeleteMissingAuthor: author is required")
    (messageAuthor p message)
  let indexes ← recordsDeleteIndexes message admitted.initialWrite author
  let (transition, cleanupCids) ← prepareRecordsDeleteTransition p message indexes
    admitted.existing admitted.plan
  let committed ← store.commitLatestState p tenant transition
  return (committed, cleanupCids)

def pruneDescendants (tenant : Did) (stores : Stores) (descriptor : DeleteDescriptor) :
    Except Failure Stores :=
  if descriptor.prune then purgeRecordDescendants p tenant stores descriptor.recordId
  else .ok stores

/-- `perform_records_delete`; a sweep that fails leaves the commit in place. -/
def performRecordsDelete (stores : Stores) (tenant : Did) (message : Message)
    (descriptor : DeleteDescriptor) (admitted : AdmittedDelete) : Status × Stores :=
  match commitDelete p stores.messages tenant message admitted with
  | .error failure => (⟨500, some failure⟩, stores)
  | .ok (messages, cleanupCids) =>
    match pruneDescendants p tenant { stores with messages } descriptor with
    | .error failure => (⟨500, some failure⟩, { stores with messages })
    | .ok pruned => (accepted, cleanUpData p pruned tenant message cleanupCids admitted.existing)

def handleDelete (resolver : Option DidResolver) (stores : Stores) (tenant : Did)
    (message : Message) (descriptor : DeleteDescriptor) : Status × Stores :=
  match admitDelete p resolver stores.messages tenant message descriptor with
  | .error status => (status, stores)
  | .ok admitted => performRecordsDelete p stores tenant message descriptor admitted

end

end Enbox
