import Enbox.Sync.Endpoint

/-!
# The ledger of the sync engine

Times are left out, and a ULID is the number of those generated before it.
-/

namespace Enbox

open Lib

inductive SyncDirection
  | pull
  | push
  | bidirectional
  deriving DecidableEq

namespace SyncDirection

def includesPull : SyncDirection → Bool
  | push => false
  | _ => true

def includesPush : SyncDirection → Bool
  | pull => false
  | _ => true

def text : SyncDirection → String
  | pull => "Pull"
  | push => "Push"
  | bidirectional => "Bidirectional"

end SyncDirection

inductive SyncScope
  | full
  | protocol (protocol : String)
  deriving DecidableEq

namespace SyncScope

def protocolUri : SyncScope → Option String
  | full => none
  | protocol uri => some uri

def id : SyncScope → String
  | full => "global"
  | protocol uri => "protocol:" ++ uri

def fromId (id : String) : Except SyncError SyncScope :=
  if id = "global" then .ok .full
  else if "protocol:".toList.isPrefixOf id.toList ∧ id ≠ "protocol:" then
    .ok (.protocol (String.ofList (id.toList.drop "protocol:".length)))
  else .error (.permanent "SyncScopeInvalid" ("Invalid sync scope id " ++ id))

end SyncScope

inductive SyncProtocols
  | all
  | protocols (uris : List String)
  deriving DecidableEq

structure SyncIdentityOptions where
  did : Did
  protocols : SyncProtocols
  deriving DecidableEq

structure SyncConnectivity where
  online : Bool := true
  expensive : Bool := false
  roaming : Bool := false
  backgroundRestricted : Bool := false
  allowMetered : Bool := true
  allowRoaming : Bool := false
  deriving DecidableEq

structure SyncOnceRequest where
  tenant : Did
  remote : String
  direction : SyncDirection
  protocol : Option String := none
  maxRecords : Option Nat := none
  maxBytes : Option Nat := none
  connectivity : SyncConnectivity := {}
  deriving DecidableEq

/-- `Partial` is `limited`. -/
inductive SyncRunStatus
  | completed
  | limited
  | noConnectivity
  | alreadyRunning
  | failed
  | repairing
  deriving DecidableEq

structure SyncCheckpoint (Hash : Type) where
  key : String
  tenant : Did
  remote : String
  scopeId : String
  direction : SyncDirection
  localRoot : Option Hash := none
  remoteRoot : Option Hash := none
  pendingPullPrefixes : List String := []
  pendingPushPrefixes : List String := []
  pullCursor : Option ProgressToken := none
  pushCursor : Option ProgressToken := none
  recordsPulled : Nat := 0
  recordsPushed : Nat := 0
  bytesDownloaded : Nat := 0
  bytesUploaded : Nat := 0
  lastError : Option SyncError := none
  deriving DecidableEq

structure SyncOnceResult (Hash : Type) where
  status : SyncRunStatus
  checkpoints : List (SyncCheckpoint Hash) := []
  recordsPulled : Nat := 0
  recordsPushed : Nat := 0
  bytesDownloaded : Nat := 0
  bytesUploaded : Nat := 0
  error : Option SyncError := none
  deriving DecidableEq

def SyncOnceResult.absorb {Hash : Type} (result other : SyncOnceResult Hash) :
    SyncOnceResult Hash where
  status := if other.status = .completed then result.status else other.status
  checkpoints := result.checkpoints ++ other.checkpoints
  recordsPulled := result.recordsPulled + other.recordsPulled
  recordsPushed := result.recordsPushed + other.recordsPushed
  bytesDownloaded := result.bytesDownloaded + other.bytesDownloaded
  bytesUploaded := result.bytesUploaded + other.bytesUploaded
  error := other.error <|> result.error

def failedResult {Hash : Type} (error : SyncError) : SyncOnceResult Hash :=
  { status := .failed, error := some error }

def connectivityError (connectivity : SyncConnectivity) : Option SyncError :=
  if !connectivity.online || connectivity.backgroundRestricted then
    some (.transient "NoConnectivity" "network is unavailable or background work is restricted")
  else if connectivity.expensive && !connectivity.allowMetered then
    some (.transient "NoConnectivity" "metered network is not allowed")
  else if connectivity.roaming && !connectivity.allowRoaming then
    some (.transient "NoConnectivity" "roaming network is not allowed")
  else none

def validateIdentityOptions (options : SyncIdentityOptions) : Except SyncError Unit := do
  ensure (options.did ≠ "") (.permanent "SyncIdentityInvalid" "did is required")
  match options.protocols with
  | .all => .ok ()
  | .protocols uris => ensure (uris ≠ [] ∧ "" ∉ uris) (.permanent "SyncIdentityInvalidProtocols"
      "protocols must be 'all' or a non-empty protocol list")

def scopesForRequest (identity : SyncIdentityOptions) :
    Option String → Except SyncError (List SyncScope)
  | some protocol => do
      ensure (protocol ≠ "") (.permanent "SyncScopeInvalid" "protocol must not be empty")
      return [.protocol protocol]
  | none =>
      match identity.protocols with
      | .all => .ok [.full]
      | .protocols uris => .ok (uris.map .protocol)

inductive DeadLetterCategory
  | pullApply
  | pushApply
  | transient
  deriving DecidableEq

structure DeadLetterEntry where
  id : Nat
  tenant : Did
  remote : String
  scopeId : String
  entry : Option SyncEntry
  category : DeadLetterCategory
  error : SyncError
  attempts : Nat := 1
  deriving DecidableEq

structure SyncEngineState (Hash : Type) where
  identities : List (Did × SyncIdentityOptions) := []
  checkpoints : List (String × SyncCheckpoint Hash) := []
  running : List String := []
  deadLetters : List DeadLetterEntry := []
  echoes : List String := []
  generated : Nat := 0
  deriving DecidableEq

def operationKey (tenant : Did) (remote : String) (direction : SyncDirection) : String :=
  tenant ++ "|" ++ remote ++ "|" ++ direction.text

def checkpointKey (tenant : Did) (remote : String) (scope : SyncScope)
    (direction : SyncDirection) : String :=
  tenant ++ "|" ++ remote ++ "|" ++ scope.id ++ "|" ++ direction.text

def echoKey (tenant : Did) (remote : String) (messageCid : Cid) : String :=
  tenant ++ "|" ++ remote ++ "|" ++ messageCid

namespace SyncEngineState

variable {Hash : Type}

variable (state : SyncEngineState Hash) (tenant : Did) (remote : String)

def beginOperation (key : String) : Option (SyncEngineState Hash) :=
  if key ∈ state.running then none else some { state with running := key :: state.running }

/-- The last status of the pair is left out. -/
def endOperation (key : String) : SyncEngineState Hash :=
  { state with running := state.running.erase key }

def rememberEcho (messageCid : Cid) : SyncEngineState Hash :=
  { state with echoes := echoKey tenant remote messageCid :: state.echoes }

def shouldSuppressEcho (messageCid : Cid) : Bool :=
  echoKey tenant remote messageCid ∈ state.echoes

def updateCheckpoint (scope : SyncScope) (direction : SyncDirection)
    (update : SyncCheckpoint Hash → SyncCheckpoint Hash) :
    SyncCheckpoint Hash × SyncEngineState Hash :=
  let key := checkpointKey tenant remote scope direction
  let checkpoint := update ((state.checkpoints.lookup key).getD
    { key, tenant, remote, scopeId := scope.id, direction })
  (checkpoint, { state with checkpoints := assocInsert key checkpoint state.checkpoints })

def recordDeadLetter (scope : SyncScope) (entry : Option SyncEntry) (category : DeadLetterCategory)
    (error : SyncError) : SyncEngineState Hash :=
  { state with
    deadLetters := state.deadLetters ++
      [{ id := state.generated, tenant, remote, scopeId := scope.id, entry, category, error }]
    generated := state.generated + 1 }

def clearDeadLetter (id : Nat) : SyncEngineState Hash :=
  { state with deadLetters := state.deadLetters.filter (·.id ≠ id) }

def updateDeadLetterFailure (id : Nat) (error : SyncError) : SyncEngineState Hash :=
  { state with deadLetters := state.deadLetters.map fun letter =>
      if letter.id = id then { letter with error, attempts := letter.attempts + 1 } else letter }

def registerIdentity (options : SyncIdentityOptions) : Except SyncError (SyncEngineState Hash) := do
  validateIdentityOptions options
  ensure (state.identities.lookup options.did).isNone (.permanent "SyncIdentityAlreadyRegistered"
    ("Identity with DID " ++ options.did ++ " is already registered"))
  return { state with identities := assocInsert options.did options state.identities }

def updateIdentity (options : SyncIdentityOptions) : Except SyncError (SyncEngineState Hash) := do
  validateIdentityOptions options
  ensure (state.identities.lookup options.did).isSome (.permanent "SyncIdentityNotRegistered"
    ("Identity with DID " ++ options.did ++ " is not registered"))
  return { state with identities := assocInsert options.did options state.identities }

def unregisterIdentity (did : Did) : Except SyncError (SyncEngineState Hash) := do
  ensure (state.identities.lookup did).isSome (.permanent "SyncIdentityNotRegistered"
    ("Identity with DID " ++ did ++ " is not registered"))
  return { state with identities := assocErase did state.identities }

def validatePullCursor (scope : SyncScope) (cursor : ProgressToken) : Except SyncError Unit :=
  match (state.checkpoints.lookup (checkpointKey tenant remote scope .pull)).bind (·.pullCursor) with
  | none => .ok ()
  | some previous => do
      ensure (previous.streamId = cursor.streamId ∧ previous.epoch = cursor.epoch)
        (.transient "ProgressGap" "subscription cursor domain changed")
      ensure ((parseU64 previous.position).getD 0 ≤ (parseU64 cursor.position).getD 0)
        (.transient "ProgressGap" "subscription cursor moved backwards")

end SyncEngineState

end Enbox
