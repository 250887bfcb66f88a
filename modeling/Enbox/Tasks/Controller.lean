import Enbox.Records.Delete

/-!
# Resumable deletes

The operations of a delete are listed one by one, so that it can be cut short between any two.
-/

namespace Enbox

open Lib

section

variable (p : Primitives) (tenant : Did)

/-- `purge_record_descendants`: the descendants of every child before the children themselves. -/
def purgeDescendantsOps : Nat → Stores → String → Except Failure (List StoreOp)
  | 0, _, _ => .error .diverges
  | fuel + 1, stores, recordId => do
      let below ← (groupByRecord (stores.messages.query tenant [childFilters recordId])).foldlM
        (fun ops child => do
          let more ← purgeDescendantsOps fuel (performOps p tenant stores ops) child.1
          return ops ++ more) []
      return below ++ (groupByRecord (stores.messages.query tenant [childFilters recordId])).flatMap
        fun child => purgeRecordMessagesOps p child.2

def pruneDescendantsOps (stores : Stores) (descriptor : DeleteDescriptor) :
    Except Failure (List StoreOp) :=
  if descriptor.prune then
    purgeDescendantsOps p tenant (stores.messages.length + 1) stores descriptor.recordId
  else .ok []

def unneededDataOp (newest message : Message) : Option StoreOp :=
  match message.writeDescriptor, message.recordId with
  | some descriptor, some recordId =>
      if descriptor.dataSize ≤ maxEncodedDataSize ∨
          newest.writeDescriptor.any (·.dataCid = descriptor.dataCid) then none
      else some (.deleteData recordId descriptor.dataCid)
  | _, _ => none

def cleanUpDataOps (newest : Message) (cleanupCids : List Cid) (existing : List Message) :
    List StoreOp :=
  (existing.filter fun m => p.messageCid m ∈ cleanupCids).filterMap (unneededDataOp newest)

def performRecordsDeleteOps (stores : Stores) (message : Message) (descriptor : DeleteDescriptor)
    (admitted : AdmittedDelete) : Except Failure (List StoreOp) := do
  let author ← okOr (.detail "RecordsDeleteMissingAuthor: author is required")
    (messageAuthor p message)
  let indexes ← recordsDeleteIndexes message admitted.initialWrite author
  let (transition, cleanupCids) ← prepareRecordsDeleteTransition p message indexes
    admitted.existing admitted.plan
  let messages ← stores.messages.commitLatestState p tenant transition
  let below ← pruneDescendantsOps p tenant { stores with messages } descriptor
  return .commitLatestState transition :: below ++
    cleanUpDataOps p message cleanupCids admitted.existing

/-- The operations of the RecordsDelete handler; none when the message is refused before them. -/
def handleDeleteOps (resolver : Option DidResolver) (stores : Stores) (message : Message)
    (descriptor : DeleteDescriptor) : List StoreOp :=
  match admitDelete p resolver stores.messages tenant message descriptor with
  | .error _ => []
  | .ok admitted =>
      ((performRecordsDeleteOps p tenant stores message descriptor admitted).toOption).getD []

end

namespace StorageController

variable (p : Primitives) (tenant : Did)

/-- The delete is retained: what may still be owed is the purge and the data of retained writes. -/
def finishRetainedDelete (stores : Stores) (message : Message) (descriptor : DeleteDescriptor)
    (existing : List Message) : Except Failure Unit × Stores :=
  match pruneDescendants p tenant stores descriptor with
  | .error failure => (.error failure, stores)
  | .ok pruned =>
      (.ok (), (existing.filter (·.writeDescriptor.isSome)).foldl
        (fun stores m => deleteFromDataStoreIfNeeded stores tenant message m) pruned)

def performRecordsDelete (stores : Stores) (message : Message) : Except Failure Unit × Stores :=
  match message.deleteDescriptor with
  | none => (.error (.detail "RecordsDeleteDescriptorExpected: message is not RecordsDelete"), stores)
  | some descriptor =>
    let existing := fetchRecordMessages stores.messages tenant descriptor.recordId
    if existing.isEmpty then (.ok (), stores)
    else
      match planRecordsTransition p message existing with
      | .error failure => (.error failure, stores)
      | .ok (.superseded _ _) => (.ok (), stores)
      | .ok (.duplicate _) => finishRetainedDelete p tenant stores message descriptor existing
      | .ok plan =>
        match deletedWrite p existing with
        | none =>
            (.error (.detail "RecordsDeleteAuthorizationFailed: initial write not found"), stores)
        | some initialWrite =>
            let (status, after) := Enbox.performRecordsDelete p stores tenant message descriptor
              ⟨existing, plan, initialWrite⟩
            (status.failure.elim (.ok ()) .error, after)

end StorageController

end Enbox
