import Enbox.Node

/-!
# Handlers side by side

No lock is held between the query of a handler and its commit. A handler of a records message queries
the retained messages of its record, plans its transition on that snapshot, commits it, and sweeps.
-/

namespace Enbox

open Lib

section

variable (p : Primitives)

variable (stores : Stores) (request : Request)

def admitWriteOn (resolver : Option DidResolver) (store : MessageStore) (tenant : Did)
    (message : Message) (existing : List Message) : Except Status AdmittedWrite := do
  let plan ← replying (always 400) (planRecordsTransition p message existing)
  ensure (¬ plan.isDuplicate) conflict
  let auth ← requireSignature p resolver
    "AuthenticateJwsMissing: authorization signature is required" message
  replying (always 400) (validateRecordsWriteIntegrity p message auth)
  replying validationStatus (validateReferentialIntegrity p store tenant message auth.author)
  replying (always 401) (authorizeRecordsWrite p store tenant message auth)
  replying coreProtocolStatus (preProcessWrite p store tenant message)
  replying (always 400) (verifyUpdate p message auth.author existing)
  replying (always 409) (enforceSquashBackstop store tenant message)
  refuseSuperseded p message existing plan
  return ⟨existing, plan, auth⟩

def admitDeleteOn (resolver : Option DidResolver) (store : MessageStore) (tenant : Did)
    (message : Message) (descriptor : DeleteDescriptor) (existing : List Message) :
    Except Status AdmittedDelete := do
  let auth ← requireSignature p resolver
    "AuthenticateJwsMissing: authorization signature is required" message
  ensure (existing ≠ []) notFound
  let plan ← replying (always 400) (planRecordsTransition p message existing)
  ensure plan.applies conflict
  let initialWrite ← okOr
    (unauthorized (.detail "RecordsDeleteAuthorizationFailed: initial write not found"))
    (deletedWrite p existing)
  replying deleteStatus
    (authorizeDeleteRequest p store tenant message descriptor initialWrite auth)
  return ⟨existing, plan, initialWrite⟩

def writeTransition (admitted : AdmittedWrite) (staged : StagedWrite) :
    Except Status LatestStateTransition := do
  replying coreProtocolStatus (validateRecord p staged.message)
  let indexes ← replying (always 400)
    (recordsWriteIndexes p staged.message admitted.auth.author staged.isLatestBaseState)
  replying (always 400) (recordsWriteTransition p staged.message indexes admitted.existing
    admitted.plan admitted.auth.author)

def deleteTransition (message : Message) (admitted : AdmittedDelete) :
    Except Failure (LatestStateTransition × List Cid) := do
  let author ← okOr (.detail "RecordsDeleteMissingAuthor: author is required")
    (messageAuthor p message)
  let indexes ← recordsDeleteIndexes message admitted.initialWrite author
  prepareRecordsDeleteTransition p message indexes admitted.existing admitted.plan

inductive Planned
  | write (admitted : AdmittedWrite) (staged : StagedWrite)
  | delete (admitted : AdmittedDelete) (descriptor : DeleteDescriptor) (cleanupCids : List Cid)
  deriving DecidableEq

inductive Stage
  | arrived
  | queried (existing : List Message)
  | planned (planned : Planned) (transition : LatestStateTransition)
  | committed (planned : Planned)
  | done (status : Status)
  deriving DecidableEq

def queryStep : Stage :=
  match admitMessage request.message with
  | .error failure => .done (badRequest failure)
  | .ok _ =>
      .queried (fetchRecordMessages stores.messages request.tenant
        ((messageRecordId request.message).getD ""))

/-- The data of a write is stored while it is planned, and stays when the plan fails. -/
def planWriteStep (existing : List Message) : Stage × Stores :=
  match admitWriteOn p request.resolver stores.messages request.tenant request.message existing with
  | .error status => (.done status, stores)
  | .ok admitted =>
    match replying validationStatus
        (stageWrite p stores request.tenant request.message request.data admitted) with
    | .error status => (.done status, stores)
    | .ok staged =>
      match writeTransition p admitted staged with
      | .error status => (.done status, staged.stores)
      | .ok transition => (.planned (.write admitted staged) transition, staged.stores)

def planDeleteStep (descriptor : DeleteDescriptor) (existing : List Message) : Stage × Stores :=
  match admitDeleteOn p request.resolver stores.messages request.tenant request.message descriptor
      existing with
  | .error status => (.done status, stores)
  | .ok admitted =>
    match deleteTransition p request.message admitted with
    | .error failure => (.done ⟨500, some failure⟩, stores)
    | .ok (transition, cleanupCids) =>
        (.planned (.delete admitted descriptor cleanupCids) transition, stores)

def commitStep (planned : Planned) (transition : LatestStateTransition) : Stage × Stores :=
  match stores.messages.commitLatestState p request.tenant transition with
  | .error failure => (.done ⟨500, some failure⟩, stores)
  | .ok messages => (.committed planned, { stores with messages })

def finishStep : Planned → Status × Stores
  | .write admitted staged => finishWrite p request.tenant admitted staged stores
  | .delete admitted descriptor cleanupCids =>
    match pruneDescendants p request.tenant stores descriptor with
    | .error failure => (⟨500, some failure⟩, stores)
    | .ok pruned =>
        (accepted, cleanUpData p pruned request.tenant request.message cleanupCids
          admitted.existing)

def handlerStep : Stage → Stage × Stores
  | .arrived => (queryStep stores request, stores)
  | .queried existing =>
    match request.message.descriptor with
    | .recordsWrite _ => planWriteStep p stores request existing
    | .recordsDelete descriptor => planDeleteStep p stores request descriptor existing
    | _ => (.done ⟨200, none⟩, stores)
  | .planned planned transition => commitStep p stores request planned transition
  | .committed planned =>
      (.done (finishStep p stores request planned).1, (finishStep p stores request planned).2)
  | .done status => (.done status, stores)

structure World where
  stores : Stores
  handlers : List (Request × Stage) := []
  accepted : List Message := []

inductive Move
  | arrive (request : Request)
  | advance (handler : Nat)

def commits : Stage → Stage → Bool
  | .planned _ _, .committed _ => true
  | _, _ => false

def World.step (world : World) : Move → World
  | .arrive request => { world with handlers := world.handlers ++ [(request, .arrived)] }
  | .advance handler =>
    match world.handlers[handler]? with
    | none => world
    | some (request, stage) =>
        { stores := (handlerStep p world.stores request stage).2
          handlers := world.handlers.set handler
            (request, (handlerStep p world.stores request stage).1)
          accepted :=
            if commits stage (handlerStep p world.stores request stage).1 then
              world.accepted ++ [request.message]
            else world.accepted }

end

end Enbox
