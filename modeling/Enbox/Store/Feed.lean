import Enbox.Records.CoreProtocol

/-!
# The memory message store and its replication feed

The five maps of the state are updated together.
-/

namespace Enbox

open Lib

structure MessageRow where
  cid : Cid
  message : Message
  indexes : Indexes
  deriving DecidableEq

structure MemoryFeedEntry where
  fingerprintScopes : List String
  indexes : Indexes
  messageCid : Cid
  deriving DecidableEq

abbrev Fingerprint := BitVec 256

structure MemoryMessageState where
  epoch : String := ""
  messages : List ((Did × Cid) × MessageRow) := []
  heads : List (Did × Nat) := []
  entries : List ((Did × Nat) × MemoryFeedEntry) := []
  positionsByCid : List ((Did × Cid) × Nat) := []
  fingerprints : List ((Did × String) × Fingerprint) := []
  deriving DecidableEq

structure Wake where
  tenant : Did
  position : Nat
  deriving DecidableEq

def MemoryMessageState.head (state : MemoryMessageState) (tenant : Did) : Nat :=
  (state.heads.lookup tenant).getD 0

def isFeedMessage (message : Message) : Bool :=
  match message.descriptor with
  | .recordsWrite _ | .recordsDelete _ | .protocolsConfigure _ => true
  | _ => false

def stringIndex (indexes : Indexes) (key : IndexKey) : Option String :=
  match indexes.lookup key with
  | some (.scalar (.string value)) => some value
  | _ => none

def globalDomain : String := ""

def protocolFingerprintScope (protocol : String) : String := "protocol:" ++ protocol

def permissionFingerprintScope (protocol : String) : String := "perm:" ++ protocol

def fingerprintScopes (descriptorTagProtocol : Option String) (indexes : Indexes) : List String :=
  match stringIndex indexes .protocol with
  | none => [globalDomain]
  | some protocol =>
      [globalDomain, protocolFingerprintScope protocol] ++
        if protocol = permissionsProtocolUri then
          (stringIndex indexes (.tag "protocol") <|> descriptorTagProtocol).toList.map
            permissionFingerprintScope
        else []

def writeTagProtocol (message : Message) : Option String :=
  message.writeDescriptor.bind (·.stringTag "protocol")

/-- Compared as sets. -/
def scopesUnchanged (given current : List String) : Bool :=
  given.all (· ∈ current) && current.all (· ∈ given)

section

variable (p : Primitives) (cidContribution : Cid → Fingerprint)

variable (state : MemoryMessageState) (tenant : Did) (mutation : LatestStateMutation)

/-- Folding a contribution in twice takes it out. -/
def foldCidIntoDomain (fingerprints : List ((Did × String) × Fingerprint)) (tenant : Did)
    (messageCid : Cid) (scopes : List String) : List ((Did × String) × Fingerprint) :=
  scopes.foldl (fun fingerprints scope => assocInsert (tenant, scope)
    ((fingerprints.lookup (tenant, scope)).getD 0 ^^^ cidContribution messageCid) fingerprints)
    fingerprints

def feedEntryMissing : Failure := .internal "feed entry missing for existing feed position"

def insertMessage : MemoryMessageState :=
  { state with
    messages := assocInsert (tenant, p.messageCid mutation.message)
      ⟨p.messageCid mutation.message, mutation.message, mutation.indexes⟩ state.messages }

def replaceEntry (position : Nat) : Except Failure MemoryMessageState := do
  let entry ← okOr feedEntryMissing (state.entries.lookup (tenant, position))
  ensure (scopesUnchanged entry.fingerprintScopes
      (fingerprintScopes (writeTagProtocol mutation.message) mutation.indexes))
    (.internal "fingerprint scopes mismatch for existing feed entry")
  return { insertMessage p state tenant mutation with
    entries := assocInsert (tenant, position) { entry with indexes := mutation.indexes }
      state.entries }

def appendEntry : Except Failure (MemoryMessageState × Wake) := do
  -- Positions are `u64`.
  ensure (state.head tenant + 1 < 2 ^ 64) (.internal "feed position overflow")
  return ({ insertMessage p state tenant mutation with
      entries := assocInsert (tenant, state.head tenant + 1)
        ⟨fingerprintScopes (writeTagProtocol mutation.message) mutation.indexes, mutation.indexes,
          p.messageCid mutation.message⟩ state.entries
      positionsByCid := assocInsert (tenant, p.messageCid mutation.message)
        (state.head tenant + 1) state.positionsByCid
      heads := assocInsert tenant (state.head tenant + 1) state.heads
      fingerprints := foldCidIntoDomain cidContribution state.fingerprints tenant
        (p.messageCid mutation.message)
        (fingerprintScopes (writeTagProtocol mutation.message) mutation.indexes) },
    ⟨tenant, state.head tenant + 1⟩)

def putMessageState : Except Failure (MemoryMessageState × Option Wake) :=
  if !isFeedMessage mutation.message then .ok (insertMessage p state tenant mutation, none)
  else
    match state.positionsByCid.lookup (tenant, p.messageCid mutation.message) with
    | some position => do
        let replaced ← replaceEntry p state tenant mutation position
        return (replaced, none)
    | none => do
        let (appended, wake) ← appendEntry p cidContribution state tenant mutation
        return (appended, some wake)

def removeEntry (cid : Cid) (position : Nat) : Except Failure MemoryMessageState := do
  let entry ← okOr feedEntryMissing (state.entries.lookup (tenant, position))
  ensure (entry.messageCid = cid)
    (.internal "feed entry message CID mismatch for existing feed position")
  return { state with
    messages := assocErase (tenant, cid) state.messages
    entries := assocErase (tenant, position) state.entries
    positionsByCid := assocErase (tenant, cid) state.positionsByCid
    fingerprints := foldCidIntoDomain cidContribution state.fingerprints tenant entry.messageCid
      entry.fingerprintScopes }

def deleteMessageState (cid : Cid) : Except Failure MemoryMessageState :=
  match state.positionsByCid.lookup (tenant, cid) with
  | some position => removeEntry cidContribution state tenant cid position
  | none => .ok { state with messages := assocErase (tenant, cid) state.messages }

def retainMessageStates (tenant : Did) : MemoryMessageState → List LatestStateMutation →
    Except Failure (MemoryMessageState × List (Option Wake))
  | state, [] => .ok (state, [])
  | state, retained :: rest => do
      ensure (state.messages.lookup (tenant, p.messageCid retained.message)).isSome
        (.internal ("MessageStoreLatestStateRetainMissing: retained message '" ++
          p.messageCid retained.message ++ "' does not exist"))
      let (staged, wake) ← putMessageState p cidContribution state tenant retained
      let (staged, wakes) ← retainMessageStates tenant staged rest
      return (staged, wake :: wakes)

/-- The staged state, the wake of the put and those of the retained messages, which the source
drops. -/
def stageTransition (transition : LatestStateTransition) :
    Except Failure (MemoryMessageState × Option Wake × List (Option Wake)) := do
  transition.validate p
  let (staged, wake) ← putMessageState p cidContribution state tenant transition.put
  let (staged, wakes) ← retainMessageStates p cidContribution tenant staged transition.retains
  let staged ← transition.deletes.foldlM
    (fun staged cid => deleteMessageState cidContribution staged tenant cid) staged
  return (staged, wake, wakes)

def commitLatestStateInFeed (transition : LatestStateTransition) :
    Except Failure (MemoryMessageState × Option Wake × Option Nat) := do
  let (staged, wake, _) ← stageTransition p cidContribution state tenant transition
  return (staged, wake, staged.positionsByCid.lookup (tenant, p.messageCid transition.put.message))

/-- `clear`; the new epoch is a fresh ULID. -/
def MemoryMessageState.clear (_ : MemoryMessageState) (epoch : String) : MemoryMessageState :=
  { epoch }

inductive FeedEvent
  | put (tenant : Did) (mutation : LatestStateMutation)
  | commit (tenant : Did) (transition : LatestStateTransition)
  | delete (tenant : Did) (cid : Cid)
  | clear (epoch : String)

def feedStep : FeedEvent → MemoryMessageState
  | .put tenant mutation =>
      match putMessageState p cidContribution state tenant mutation with
      | .ok (after, _) => after
      | .error _ => state
  | .commit tenant transition =>
      match commitLatestStateInFeed p cidContribution state tenant transition with
      | .ok (after, _) => after
      | .error _ => state
  | .delete tenant cid =>
      match deleteMessageState cidContribution state tenant cid with
      | .ok after => after
      | .error _ => state
  | .clear epoch => state.clear epoch

end

end Enbox
