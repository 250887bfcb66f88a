import Enbox.Records.Authorize
import Enbox.Store.DataStore

/-! # Latest-state transitions of records -/

namespace Enbox

open Lib

inductive RecordsStateClass
  | write
  | delete
  | prune
  deriving DecidableEq

def RecordsStateClass.rank : RecordsStateClass → Nat
  | write => 0
  | delete => 1
  | prune => 2

structure RecordsStateOrder where
  stateClass : RecordsStateClass
  messageTimestamp : Timestamp
  messageCid : Cid
  recordId : String
  deriving DecidableEq

def compareOrder (left right : RecordsStateOrder) : Ordering :=
  (compare left.stateClass.rank right.stateClass.rank).then
    ((compare left.messageTimestamp right.messageTimestamp).then
      (compareText left.messageCid right.messageCid))

inductive RecordsTransitionPlan
  | duplicate (messageCid : Cid)
  | superseded (messageCid winnerCid : Cid)
  | apply (messageCid : Cid) (outrankedCids : List Cid)
  deriving DecidableEq

inductive StoreOp
  | commitLatestState (transition : LatestStateTransition)
  | deleteMessage (cid : Cid)
  | deleteData (recordId : String) (dataCid : Cid)
  deriving DecidableEq

def sortTexts (texts : List String) : List String :=
  texts.insertionSort fun a b => compareText a b ≠ .gt

section

variable (p : Primitives)

variable (tenant : Did) (stores : Stores) (recordId : String) (message : Message)

def RecordsStateOrder.of : Except Failure RecordsStateOrder :=
  match message.descriptor with
  | .recordsWrite descriptor => do
      let recordId ← okOr
        (.detail "RecordsStateRecordIdMissing: RecordsWrite recordId is required") message.recordId
      return ⟨.write, descriptor.messageTimestamp, p.messageCid message, recordId⟩
  | .recordsDelete descriptor =>
      .ok ⟨if descriptor.prune then .prune else .delete, descriptor.messageTimestamp,
        p.messageCid message, descriptor.recordId⟩
  | _ => .error
      (.detail "RecordsStateMessageExpected: message must be RecordsWrite or RecordsDelete")

def retainedStates (candidate : RecordsStateOrder) :
    List Message → Except Failure (Option (List RecordsStateOrder))
  | [] => .ok (some [])
  | message :: rest => do
      let state ← RecordsStateOrder.of p message
      ensure (state.recordId = candidate.recordId)
        (.detail ("RecordsStateRecordIdMismatch: candidate record '" ++ candidate.recordId ++
          "' was planned with retained record '" ++ state.recordId ++ "'"))
      if state.messageCid = candidate.messageCid then .ok none
      else do
        let states ← retainedStates candidate rest
        return states.map (state :: ·)

def outrankedCids (candidate : RecordsStateOrder) (states : List RecordsStateOrder) : List Cid :=
  sortTexts ((states.filter (compareOrder · candidate = .lt)).map (·.messageCid))

def planAgainst (candidate : RecordsStateOrder) (states : List RecordsStateOrder) :
    RecordsTransitionPlan :=
  match maxBy compareOrder states with
  | none => .apply candidate.messageCid (outrankedCids candidate states)
  | some winner =>
      if compareOrder candidate winner ≠ .gt then
        .superseded candidate.messageCid winner.messageCid
      else .apply candidate.messageCid (outrankedCids candidate states)

def planRecordsTransition (retained : List Message) : Except Failure RecordsTransitionPlan := do
  let candidate ← RecordsStateOrder.of p message
  let states ← retainedStates p candidate retained
  return states.elim (.duplicate candidate.messageCid) (planAgainst candidate)

def RecordsTransitionPlan.outranked (what : String) :
    RecordsTransitionPlan → Except Failure (List Cid)
  | apply _ cids => .ok cids
  | duplicate _ => .ok []
  | superseded _ _ => .error (.detail
      ("RecordsStateSupersededTransition: superseded " ++ what ++ " cannot be committed"))

def retainedInitialWrite (existing : Message) (author : Did) :
    Except Failure LatestStateMutation := do
  let indexes ← recordsWriteIndexes p (setEncodedData existing none) author false
  return ⟨setEncodedData existing none, indexes⟩

def replaceOutranked (outranked : List Cid) (keepAs : Message → Option Did) :
    List Message → Except Failure (List LatestStateMutation × List Cid)
  | [] => .ok ([], [])
  | existing :: rest =>
      if p.messageCid existing ∉ outranked then replaceOutranked outranked keepAs rest
      else
        match keepAs existing with
        | some author => do
            let retained ← retainedInitialWrite p existing author
            let (retains, deletes) ← replaceOutranked outranked keepAs rest
            return (retained :: retains, deletes)
        | none => do
            let (retains, deletes) ← replaceOutranked outranked keepAs rest
            return (retains, p.messageCid existing :: deletes)

/-- An update keeps the initial write of its own author; another author's is deleted. -/
def keptByWrite (author : Did) (existing : Message) : Option Did :=
  if p.isInitialWrite existing author then some author else none

def recordsWriteTransition (indexes : Indexes) (existing : List Message)
    (plan : RecordsTransitionPlan) (author : Did) : Except Failure LatestStateTransition := do
  let outranked ← plan.outranked "write"
  let (retains, deletes) ← replaceOutranked p outranked (keptByWrite p author) existing
  return { put := ⟨message, indexes⟩, retains, deletes }

def keptByDelete (existing : Message) : Option Did :=
  if existing.recordId = some recordId ∧ isOwnInitialWrite p existing then
    some ((messageAuthor p existing).getD "")
  else none

def prepareRecordsDeleteTransition (indexes : Indexes)
    (existing : List Message) (plan : RecordsTransitionPlan) :
    Except Failure (LatestStateTransition × List Cid) := do
  let cleanupCids ← plan.outranked "delete"
  let descriptor ← okOr (.detail "RecordsDeleteDescriptorExpected: message is not RecordsDelete")
    message.deleteDescriptor
  let (retains, deletes) ← replaceOutranked p cleanupCids (keptByDelete p descriptor.recordId)
    existing
  return ({ put := ⟨message, indexes⟩, retains, deletes }, cleanupCids)

def deleteFromDataStoreIfNeeded (tenant : Did) (newest : Message) (message : Message) : Stores :=
  match message.writeDescriptor, message.recordId with
  | some descriptor, some recordId =>
      if descriptor.dataSize ≤ maxEncodedDataSize ∨
          newest.writeDescriptor.any (·.dataCid = descriptor.dataCid) then stores
      else stores.deleteData tenant recordId descriptor.dataCid
  | _, _ => stores

def cleanUpData (tenant : Did) (newest : Message) (cleanupCids : List Cid)
    (existing : List Message) : Stores :=
  (existing.filter fun m => p.messageCid m ∈ cleanupCids).foldl
    (fun stores m => deleteFromDataStoreIfNeeded stores tenant newest m) stores

def performOp : StoreOp → Stores
  | .commitLatestState transition =>
      match stores.messages.commitLatestState p tenant transition with
      | .error _ => stores
      | .ok messages => { stores with messages }
  | .deleteMessage cid => stores.deleteMessage tenant cid
  | .deleteData recordId dataCid => stores.deleteData tenant recordId dataCid

def performOps (ops : List StoreOp) : Stores := ops.foldl (performOp p tenant) stores

def newestDataOp (messages : List Message) : Option StoreOp := do
  let newest ← newestMessage p (messages.filter (·.writeDescriptor.isSome))
  let recordId ← newest.recordId
  let descriptor ← newest.writeDescriptor
  return .deleteData recordId descriptor.dataCid

def purgeRecordMessagesOps (messages : List Message) : List StoreOp :=
  (newestDataOp p messages).toList ++ messages.map fun m => .deleteMessage (p.messageCid m)

def purgeRecordMessages (messages : List Message) : Stores :=
  performOps p tenant stores (purgeRecordMessagesOps p messages)

def groupByRecord (messages : List Message) : List (String × List Message) :=
  (sortTexts (messages.filterMap messageRecordId).dedup).map fun recordId =>
    (recordId, messages.filter fun m => messageRecordId m = some recordId)

def childFilters : FilterSet :=
  [(.interface, stringFilter recordsInterface), (.parentId, stringFilter recordId)]

/-- The source recurses without a bound; more levels than rows means a cycle of parents. -/
def purgeDescendants (tenant : Did) : Nat → Stores → String → Except Failure Stores
  | 0, _, _ => .error .diverges
  | fuel + 1, stores, recordId => do
      let purged ← (groupByRecord (stores.messages.query tenant [childFilters recordId])).foldlM
        (fun stores child => purgeDescendants tenant fuel stores child.1) stores
      return (groupByRecord (stores.messages.query tenant [childFilters recordId])).foldl
        (fun stores child => purgeRecordMessages p tenant stores child.2) purged

def purgeRecordDescendants : Except Failure Stores :=
  purgeDescendants p tenant (stores.messages.length + 1) stores recordId

def siblingContext : FilterSet :=
  match message.contextId with
  | none => []
  | some context =>
      if pathText context.dropLast = "" then [] else [(.contextId, .subtree context.dropLast)]

def newestSquashFilters (descriptor : WriteDescriptor) (message : Message) : FilterSet :=
  [(.interface, stringFilter recordsInterface), (.method, stringFilter writeMethod),
    (.isLatestBaseState, boolFilter true), (.protocol, stringFilter descriptor.protocol),
    (.protocolPath, pathFilter descriptor.protocolPath), (.squash, boolFilter true)] ++
  siblingContext message

def declaresSquash (store : MessageStore) (tenant : Did) (descriptor : WriteDescriptor) : Bool :=
  match fetchProtocolDefinition store tenant descriptor.protocol none with
  | .error _ => false
  | .ok definition => (definition.ruleAt descriptor.protocolPath).any (·.squash = some true)

def enforceSquashBackstop (store : MessageStore) (tenant : Did) (message : Message) :
    Except Failure Unit := do
  let descriptor ← message.writeDescriptorOr
  if declaresSquash store tenant descriptor then
    match store.first tenant [newestSquashFilters descriptor message] (.timestamp .descending) with
    | none => .ok ()
    | some newest =>
        ensure (newest.messageTimestamp < descriptor.messageTimestamp)
          (.dwn .protocolAuthorizationSquashBackstop ("incoming message timestamp '" ++
            toString descriptor.messageTimestamp ++
            "' is not newer than the most recent squash record timestamp '" ++
            toString newest.messageTimestamp ++ "' at protocol path '" ++
            pathText descriptor.protocolPath ++ "'."))
  else .ok ()

def siblingFilters (descriptor : WriteDescriptor) (message : Message) : FilterSet :=
  [(.interface, stringFilter recordsInterface), (.protocol, stringFilter descriptor.protocol),
    (.protocolPath, pathFilter descriptor.protocolPath)] ++ siblingContext message

def purgeOlderSiblingOps (timestamp : Timestamp) (sibling : String × List Message) : List StoreOp :=
  if sibling.1 = recordId then []
  else
    match newestMessage p sibling.2 with
    | none => []
    | some newest =>
        if newest.messageTimestamp < timestamp then purgeRecordMessagesOps p sibling.2 else []

def performRecordsSquashOps : Except Failure (List StoreOp) := do
  let descriptor ← message.writeDescriptorOr
  let recordId ← okOr (.detail "RecordsWriteMissingRecordId: recordId is required") message.recordId
  return (groupByRecord (stores.messages.query tenant [siblingFilters descriptor message])).flatMap
    (purgeOlderSiblingOps p recordId descriptor.messageTimestamp)

def performRecordsSquash : Except Failure Stores :=
  (performRecordsSquashOps p tenant stores message).map (performOps p tenant stores)

end

end Enbox
