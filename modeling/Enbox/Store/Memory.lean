import Enbox.Lib.Mutation
import Enbox.Store.FeedReader

/-!
# The memory message store as it is written

The maps of the store are changed one after the other. A message whose CID cannot be computed stops
an operation where the CID is first needed, and `lock` is the outcome of taking the write lock.
-/

namespace Enbox.MemoryMessageStore

open Lib Lib.Mutation

abbrev StoreM := Mutation Failure MemoryMessageState

section

variable (cidOf : Message → Except Failure Cid) (cidContribution : Cid → Fingerprint)
  (deriveStreamId : Did → String) (lock : Except Failure Unit)

def scopesMismatch : Failure := .internal "fingerprint scopes mismatch for existing feed entry"

def positionOverflow : Failure := .internal "feed position overflow"

def putMessageState (tenant : Did) (mutation : LatestStateMutation) : StoreM (Option Wake) := do
  let cid ← check (cidOf mutation.message)
  let row : MessageRow := ⟨cid, mutation.message, mutation.indexes⟩
  if !isFeedMessage mutation.message then
    modify fun state => { state with messages := assocInsert (tenant, cid) row state.messages }
    return none
  let scopes := fingerprintScopes (writeTagProtocol mutation.message) mutation.indexes
  match (← get).positionsByCid.lookup (tenant, cid) with
  | some position =>
      let entry ← check (okOr feedEntryMissing ((← get).entries.lookup (tenant, position)))
      check (ensure (scopesUnchanged entry.fingerprintScopes scopes) scopesMismatch)
      modify fun state => { state with messages := assocInsert (tenant, cid) row state.messages }
      modify fun state => { state with
        entries := assocInsert (tenant, position) { entry with indexes := mutation.indexes }
          state.entries }
      return none
  | none =>
      let nextPosition := (← get).head tenant + 1
      check (ensure (nextPosition < 2 ^ 64) positionOverflow)
      modify fun state => { state with messages := assocInsert (tenant, cid) row state.messages }
      modify fun state => { state with
        entries := assocInsert (tenant, nextPosition) ⟨scopes, mutation.indexes, cid⟩ state.entries }
      modify fun state => { state with
        positionsByCid := assocInsert (tenant, cid) nextPosition state.positionsByCid }
      modify fun state => { state with heads := assocInsert tenant nextPosition state.heads }
      modify fun state => { state with
        fingerprints := foldCidIntoDomain cidContribution state.fingerprints tenant cid scopes }
      return some ⟨tenant, nextPosition⟩

def deleteMessageState (tenant : Did) (cid : Cid) : StoreM Unit := do
  match (← get).positionsByCid.lookup (tenant, cid) with
  | some position =>
      let entry ← check (okOr feedEntryMissing ((← get).entries.lookup (tenant, position)))
      check (ensure (entry.messageCid = cid)
        (.internal "feed entry message CID mismatch for existing feed position"))
      modify fun state => { state with messages := assocErase (tenant, cid) state.messages }
      modify fun state => { state with entries := assocErase (tenant, position) state.entries }
      modify fun state => { state with
        positionsByCid := assocErase (tenant, cid) state.positionsByCid }
      modify fun state => { state with
        fingerprints := foldCidIntoDomain cidContribution state.fingerprints tenant
          entry.messageCid entry.fingerprintScopes }
  | none =>
      modify fun state => { state with messages := assocErase (tenant, cid) state.messages }

def put (tenant : Did) (mutation : LatestStateMutation) : StoreM (Option Wake) := do
  check lock
  putMessageState cidOf cidContribution tenant mutation

def insertMutated (detail : Cid → String) (mutated : List Cid) (cid : Cid) :
    Except Failure (List Cid) := do
  ensure (cid ∉ mutated) (.internal ("MessageStoreLatestStateTransitionInvalid: " ++ detail cid))
  return cid :: mutated

def validate (transition : LatestStateTransition) : Except Failure Unit := do
  let putCid ← cidOf transition.put.message
  let mutated ← transition.retains.foldlM (fun mutated retained => do
    insertMutated (fun cid => "message CID '" ++ cid ++ "' occurs more than once in put/retains")
      mutated (← cidOf retained.message)) [putCid]
  let _ ← transition.deletes.foldlM (insertMutated fun cid =>
    "message CID '" ++ cid ++ "' is both mutated and deleted") mutated

def retainMessageState (tenant : Did) (retained : LatestStateMutation) : StoreM Unit := do
  let cid ← check (cidOf retained.message)
  check (ensure ((← get).messages.lookup (tenant, cid)).isSome
    (.internal ("MessageStoreLatestStateRetainMissing: retained message '" ++ cid ++
      "' does not exist")))
  let _ ← putMessageState cidOf cidContribution tenant retained

def stageTransition (tenant : Did) (transition : LatestStateTransition) :
    StoreM (Option Wake × Option ProgressToken) := do
  let putCid ← check (cidOf transition.put.message)
  let wake ← putMessageState cidOf cidContribution tenant transition.put
  transition.retains.forM (retainMessageState cidOf cidContribution tenant)
  transition.deletes.forM (deleteMessageState cidContribution tenant)
  let staged ← get
  return (wake, (staged.positionsByCid.lookup (tenant, putCid)).map fun position =>
    buildToken deriveStreamId tenant staged.epoch position (some putCid))

def commitLatestState (tenant : Did) (transition : LatestStateTransition) :
    StoreM (Option Wake × Option ProgressToken) := do
  check (validate cidOf transition)
  check lock
  onCopy (stageTransition cidOf cidContribution deriveStreamId tenant transition)

end

end Enbox.MemoryMessageStore
