import Enbox.Lib.Linearise
import Enbox.Sync.Ledger

/-! # The sync engine -/

namespace Enbox

open Lib

/-! ## The order of a diff -/

def SyncEntry.parentId (entry : SyncEntry) : Option String :=
  entry.message.writeDescriptor.bind (·.parentId)

def isPendingParent (parent child : SyncEntry) : Bool :=
  child.parentId.isSome && parent.message.recordId = child.parentId

def sortByMessageCid (entries : List SyncEntry) : List SyncEntry :=
  entries.insertionSort fun left right => compareText left.messageCid right.messageCid ≠ .gt

def sortDiffEntriesTopologically (entries : List SyncEntry) : List SyncEntry :=
  linearise isPendingParent sortByMessageCid entries.length entries

/-! ## Endpoints -/

structure Endpoint (Node Hash : Type) where
  root : Node → Did → SyncScope → Except SyncError Hash
  subtreeHashes : Node → Did → SyncScope → Nat → Except SyncError (SyncHashes Hash)
  diff : Node → Did → SyncScope → Nat → SyncHashes Hash → Except SyncError MessagesSyncDiff
  apply : Node → Did → SyncEntry → Except SyncError Unit × Node

/-- A node and its state index. No handler changes the index. -/
structure SyncNode where
  stores : Stores := {}
  index : StateIndex := []
  deriving DecidableEq

def SyncNode.step (p : Primitives) (node : SyncNode) (event : Event) : SyncNode :=
  { node with stores := Enbox.step p node.stores event }

section

variable (p : Primitives) {Hash : Type} [DecidableEq Hash] (hasher : StateHasher Hash)
  (process : DwnProcessMessage)

def directSyncEndpoint : Endpoint SyncNode Hash where
  root node tenant scope := .ok (node.index.root hasher tenant scope.protocolUri)
  subtreeHashes node tenant scope depth := do
    let visited ← (SyncEndpoint.collectSubtreeHashes hasher node.index tenant scope.protocolUri
      depth).mapError (.transient "SubtreeHashCollectionFailed")
    return collectedHashes visited
  diff node tenant scope depth hashes :=
    (SyncEndpoint.computeDiff p hasher node.index node.stores tenant scope.protocolUri depth
      hashes).mapError (.transient "MessagesSyncDiffFailed")
  apply node tenant entry :=
    let applied := SyncEndpoint.apply p process node.stores tenant entry
    (applied.1, { node with stores := applied.2 })

/-- `signature` is the outcome of the remote node's check of what the authorizer signs. -/
def httpSyncEndpoint (signature : Did → Except Status AuthorizationContext) :
    Endpoint SyncNode Hash where
  root node tenant scope := SyncEndpoint.replyRoot
    (MessagesSync.handle p hasher node.index node.stores tenant (signature tenant)
      { action := .root, protocol := scope.protocolUri })
  subtreeHashes node tenant scope depth := do
    let visited ← SyncEndpoint.collectSubtreeHashesViaHttp p hasher node.index node.stores tenant
      scope.protocolUri (signature tenant) depth
    return collectedHashes visited
  diff node tenant scope depth hashes := SyncEndpoint.replyDiff
    (MessagesSync.handle p hasher node.index node.stores tenant (signature tenant)
      { action := .diff, protocol := scope.protocolUri, depth := some depth, hashes := some hashes })
  apply node tenant entry :=
    let applied := SyncEndpoint.applyViaHttp process node.stores tenant entry
    (applied.1, { node with stores := applied.2 })

end

structure SyncSession (Local Remote Hash : Type) where
  localNode : Local
  remoteNode : Remote
  engine : SyncEngineState Hash := {}
  deriving DecidableEq

/-! ## Runs -/

inductive SyncLoop
  | finished (status : SyncRunStatus) (records bytes : Nat)
  | stopped (entry : SyncEntry) (error : SyncError)
  deriving DecidableEq

section

variable (p : Primitives) {Local Remote Hash : Type} [DecidableEq Hash] (localEnd : Endpoint Local Hash)
  (remoteEnd : Endpoint Remote Hash) (diffDepth : Nat)

variable (request : SyncOnceRequest)

def encodedDataSize (entry : SyncEntry) : Nat :=
  ((entry.encodedData.bind p.base64Url).map (·.length)).getD 0

def exceedsLimits (records bytes : Nat) (entry : SyncEntry) : Bool :=
  request.maxRecords.any (· ≤ records) || request.maxBytes.any (· < bytes + encodedDataSize p entry)

def pullEntries (request : SyncOnceRequest) :
    List SyncEntry → (records bytes : Nat) → SyncSession Local Remote Hash →
      SyncLoop × SyncSession Local Remote Hash
  | [], records, bytes, session => (.finished .completed records bytes, session)
  | entry :: rest, records, bytes, session =>
      if exceedsLimits p request records bytes entry then
        (.finished .limited records bytes, session)
      else
        match localEnd.apply session.localNode request.tenant entry with
        | (.ok _, node) => pullEntries request rest (records + 1) (bytes + encodedDataSize p entry)
            { session with
              localNode := node
              engine := session.engine.rememberEcho request.tenant request.remote entry.messageCid }
        | (.error error, node) => (.stopped entry error, { session with localNode := node })

def pushEntries (request : SyncOnceRequest) :
    List SyncEntry → (records bytes : Nat) → SyncSession Local Remote Hash →
      SyncLoop × SyncSession Local Remote Hash
  | [], records, bytes, session => (.finished .completed records bytes, session)
  | entry :: rest, records, bytes, session =>
      if session.engine.shouldSuppressEcho request.tenant request.remote entry.messageCid then
        pushEntries request rest records bytes session
      else if exceedsLimits p request records bytes entry then
        (.finished .limited records bytes, session)
      else
        match remoteEnd.apply session.remoteNode request.tenant entry with
        | (.ok _, node) => pushEntries request rest (records + 1) (bytes + encodedDataSize p entry)
            { session with remoteNode := node }
        | (.error error, node) => (.stopped entry error, { session with remoteNode := node })

def checkpointed (session : SyncSession Local Remote Hash) (tenant : Did) (remote : String)
    (scope : SyncScope) (direction : SyncDirection)
    (update : SyncCheckpoint Hash → SyncCheckpoint Hash) (result : SyncOnceResult Hash) :
    SyncOnceResult Hash × SyncSession Local Remote Hash :=
  let (checkpoint, engine) := session.engine.updateCheckpoint tenant remote scope direction update
  ({ result with checkpoints := result.checkpoints ++ [checkpoint] }, { session with engine })

def syncPullScope (scope : SyncScope) (session : SyncSession Local Remote Hash) :
    SyncOnceResult Hash × SyncSession Local Remote Hash :=
  match localEnd.root session.localNode request.tenant scope,
      remoteEnd.root session.remoteNode request.tenant scope with
  | .error error, _ => (failedResult error, session)
  | .ok _, .error error => (failedResult error, session)
  | .ok localRoot, .ok remoteRoot =>
    if localRoot = remoteRoot then
      checkpointed session request.tenant request.remote scope .pull
        (fun checkpoint => { checkpoint with
          localRoot := some localRoot, remoteRoot := some remoteRoot, pendingPullPrefixes := [],
          lastError := none })
        { status := .completed }
    else
      match (do
        let hashes ← localEnd.subtreeHashes session.localNode request.tenant scope diffDepth
        remoteEnd.diff session.remoteNode request.tenant scope diffDepth hashes) with
      | .error error => (failedResult error, session)
      | .ok diff =>
        match pullEntries p localEnd request (sortDiffEntriesTopologically diff.onlyRemote) 0 0
            session with
        | (.stopped entry error, session) =>
            (failedResult error, { session with
              engine := session.engine.recordDeadLetter request.tenant request.remote scope (some entry)
                .pullApply error })
        | (.finished status records bytes, session) =>
            checkpointed session request.tenant request.remote scope .pull
              (fun checkpoint => { checkpoint with
                localRoot := some localRoot, remoteRoot := some remoteRoot,
                pendingPushPrefixes := diff.onlyLocal,
                recordsPulled := checkpoint.recordsPulled + records,
                bytesDownloaded := checkpoint.bytesDownloaded + bytes, lastError := none })
              { status, recordsPulled := records, bytesDownloaded := bytes }

def syncPushScope (scope : SyncScope) (session : SyncSession Local Remote Hash) :
    SyncOnceResult Hash × SyncSession Local Remote Hash :=
  match localEnd.root session.localNode request.tenant scope,
      remoteEnd.root session.remoteNode request.tenant scope with
  | .error error, _ => (failedResult error, session)
  | .ok _, .error error => (failedResult error, session)
  | .ok localRoot, .ok remoteRoot =>
    if localRoot = remoteRoot then
      checkpointed session request.tenant request.remote scope .push
        (fun checkpoint => { checkpoint with
          localRoot := some localRoot, remoteRoot := some remoteRoot, pendingPushPrefixes := [],
          lastError := none })
        { status := .completed }
    else
      match (do
        let hashes ← remoteEnd.subtreeHashes session.remoteNode request.tenant scope diffDepth
        localEnd.diff session.localNode request.tenant scope diffDepth hashes) with
      | .error error => (failedResult error, session)
      | .ok diff =>
        match pushEntries p remoteEnd request (sortDiffEntriesTopologically diff.onlyRemote) 0 0
            session with
        | (.stopped entry error, session) =>
            (failedResult error, { session with
              engine := session.engine.recordDeadLetter request.tenant request.remote scope (some entry)
                .pushApply error })
        | (.finished status records bytes, session) =>
            checkpointed session request.tenant request.remote scope .push
              (fun checkpoint => { checkpoint with
                localRoot := some localRoot, remoteRoot := some remoteRoot,
                pendingPullPrefixes := diff.onlyLocal,
                recordsPushed := checkpoint.recordsPushed + records,
                bytesUploaded := checkpoint.bytesUploaded + bytes, lastError := none })
              { status, recordsPushed := records, bytesUploaded := bytes }

def syncScope (scope : SyncScope) (session : SyncSession Local Remote Hash) :
    SyncOnceResult Hash × SyncSession Local Remote Hash :=
  let pulled :=
    if request.direction.includesPull then
      syncPullScope p localEnd remoteEnd diffDepth request scope session
    else ({ status := .completed }, session)
  if pulled.1.status = .completed && request.direction.includesPush then
    let pushed := syncPushScope p localEnd remoteEnd diffDepth request scope pulled.2
    (pulled.1.absorb pushed.1, pushed.2)
  else pulled

def syncScopes (request : SyncOnceRequest) :
    List SyncScope → SyncOnceResult Hash → SyncSession Local Remote Hash →
      SyncOnceResult Hash × SyncSession Local Remote Hash
  | [], result, session => (result, session)
  | scope :: rest, result, session =>
      let (scopeResult, session) := syncScope p localEnd remoteEnd diffDepth request scope session
      if scopeResult.status = .failed || scopeResult.status = .limited ||
          scopeResult.status = .repairing then
        (result.absorb scopeResult, session)
      else syncScopes request rest (result.absorb scopeResult) session

def syncOnceUnlocked (session : SyncSession Local Remote Hash) :
    SyncOnceResult Hash × SyncSession Local Remote Hash :=
  match session.engine.identities.lookup request.tenant with
  | none => (failedResult (.permanent "SyncIdentityNotRegistered"
      ("Identity with DID " ++ request.tenant ++ " is not registered")), session)
  | some identity =>
    match scopesForRequest identity request.protocol with
    | .error error => (failedResult error, session)
    | .ok scopes =>
        syncScopes p localEnd remoteEnd diffDepth request scopes { status := .completed } session

/-- From `begin_operation` to `end_operation`. An operation that is running is not started again. -/
def SyncSession.exclusively (session : SyncSession Local Remote Hash) (key : String)
    (operate : SyncSession Local Remote Hash → SyncOnceResult Hash × SyncSession Local Remote Hash) :
    SyncOnceResult Hash × SyncSession Local Remote Hash :=
  match session.engine.beginOperation key with
  | none => ({ status := .alreadyRunning }, session)
  | some engine =>
    let (result, ended) := operate { session with engine }
    (result, { ended with engine := ended.engine.endOperation key })

/-- `sync_once`. -/
def syncOnce (session : SyncSession Local Remote Hash) :
    SyncOnceResult Hash × SyncSession Local Remote Hash :=
  match connectivityError request.connectivity with
  | some error => ({ status := .noConnectivity, error := some error }, session)
  | none => session.exclusively (operationKey request.tenant request.remote request.direction)
      (syncOnceUnlocked p localEnd remoteEnd diffDepth request)

end

/-! ## Live events -/

/-- `SyncMessageEntry::from_subscription_event`. The data beside the event are left behind. -/
def entryFromSubscriptionEvent (cursor : ProgressToken) (event : MessageEvent) : SyncEntry :=
  ⟨cursor.messageCid.getD "", event.message, none⟩

def SubscriptionError.toSyncError (error : SubscriptionError) : SyncError :=
  ⟨.text error.code.text, .subscription error.detail, true⟩

section

variable (p : Primitives) {Local Remote Hash : Type} (localEnd : Endpoint Local Hash)
  (remoteEnd : Endpoint Remote Hash) (tenant : Did) (remote : String) (scope : SyncScope)
  (session : SyncSession Local Remote Hash)

def subscriptionFailed (error : SubscriptionError) :
    SyncOnceResult Hash × SyncSession Local Remote Hash :=
  (failedResult error.toSyncError, { session with
    engine := session.engine.recordDeadLetter tenant remote scope none .transient
      error.toSyncError })

def handleProgressGap (gap : SyncError) : SyncOnceResult Hash × SyncSession Local Remote Hash :=
  checkpointed session tenant remote scope .pull
    (fun checkpoint => { checkpoint with lastError := some gap })
    { status := .repairing, error := some gap }

def pullEvent (cursor : ProgressToken) (entry : SyncEntry) :
    SyncOnceResult Hash × SyncSession Local Remote Hash :=
  match localEnd.apply session.localNode tenant entry with
  | (.ok _, node) =>
      checkpointed
        { session with
          localNode := node
          engine := session.engine.rememberEcho tenant remote entry.messageCid }
        tenant remote scope .pull
        (fun checkpoint => { checkpoint with
          pullCursor := some cursor, recordsPulled := checkpoint.recordsPulled + 1,
          bytesDownloaded := checkpoint.bytesDownloaded + encodedDataSize p entry,
          lastError := none })
        { status := .completed, recordsPulled := 1, bytesDownloaded := encodedDataSize p entry }
  | (.error error, node) =>
      (failedResult error, { session with
        localNode := node
        engine := session.engine.recordDeadLetter tenant remote scope (some entry) .pullApply error })

def handleRemoteSubscriptionMessage :
    SubscriptionMessage → SyncOnceResult Hash × SyncSession Local Remote Hash
  | .event cursor event _ _ _ _ _ =>
      match session.engine.validatePullCursor tenant remote scope cursor with
      | .error gap => handleProgressGap tenant remote scope session gap
      | .ok _ => pullEvent p localEnd tenant remote scope session cursor
          (entryFromSubscriptionEvent cursor event)
  | .eose cursor => checkpointed session tenant remote scope .pull
      (fun checkpoint => { checkpoint with pullCursor := some cursor }) { status := .completed }
  | .error _ error => subscriptionFailed tenant remote scope session error

def pushEvent (cursor : ProgressToken) (entry : SyncEntry) :
    SyncOnceResult Hash × SyncSession Local Remote Hash :=
  match remoteEnd.apply session.remoteNode tenant entry with
  | (.ok _, node) =>
      checkpointed { session with remoteNode := node } tenant remote scope .push
        (fun checkpoint => { checkpoint with
          pushCursor := some cursor, recordsPushed := checkpoint.recordsPushed + 1,
          bytesUploaded := checkpoint.bytesUploaded + encodedDataSize p entry, lastError := none })
        { status := .completed, recordsPushed := 1, bytesUploaded := encodedDataSize p entry }
  | (.error error, node) =>
      (failedResult error, { session with
        remoteNode := node
        engine := session.engine.recordDeadLetter tenant remote scope (some entry) .pushApply error })

def handleLocalSubscriptionMessage :
    SubscriptionMessage → SyncOnceResult Hash × SyncSession Local Remote Hash
  | .event cursor event _ _ _ _ _ =>
      if cursor.messageCid.any (session.engine.shouldSuppressEcho tenant remote) then
        checkpointed session tenant remote scope .push
          (fun checkpoint => { checkpoint with pushCursor := some cursor }) { status := .completed }
      else pushEvent p remoteEnd tenant remote scope session cursor
        (entryFromSubscriptionEvent cursor event)
  | .eose cursor => checkpointed session tenant remote scope .push
      (fun checkpoint => { checkpoint with pushCursor := some cursor }) { status := .completed }
  | .error _ error => subscriptionFailed tenant remote scope session error

end

/-! ## Dead letters -/

section

variable (p : Primitives) {Local Remote Hash : Type} (localEnd : Endpoint Local Hash)
  (remoteEnd : Endpoint Remote Hash) (session : SyncSession Local Remote Hash)

def deadLetterError (code : String) (id : Nat) (problem : String) : SyncError :=
  .permanent code ("Dead letter " ++ toString id ++ " " ++ problem)

def retryDirection (letter : DeadLetterEntry) : Except SyncError SyncDirection :=
  match letter.category with
  | .pullApply => .ok .pull
  | .pushApply => .ok .push
  | .transient => .error (deadLetterError "DeadLetterRetryUnsupported" letter.id
      "category is not retryable")

structure DeadLetterRetry where
  letter : DeadLetterEntry
  entry : SyncEntry
  scope : SyncScope
  direction : SyncDirection

def retryableDeadLetter (id : Nat) : Except SyncError DeadLetterRetry := do
  let letter ← okOr (deadLetterError "DeadLetterNotFound" id "was not found")
    (session.engine.deadLetters.find? (·.id = id))
  ensure letter.error.retryable (deadLetterError "DeadLetterNotRetryable" id "is not retryable")
  let entry ← okOr (deadLetterError "DeadLetterRetryUnavailable" id
    "does not retain a sync message entry") letter.entry
  let scope ← SyncScope.fromId letter.scopeId
  let direction ← retryDirection letter
  return ⟨letter, entry, scope, direction⟩

def retryPull (retry : DeadLetterRetry) : SyncOnceResult Hash × SyncSession Local Remote Hash :=
  let letter := retry.letter
  match localEnd.apply session.localNode letter.tenant retry.entry with
  | (.ok _, node) =>
      checkpointed
        { session with
          localNode := node
          engine := (session.engine.rememberEcho letter.tenant letter.remote
            retry.entry.messageCid).clearDeadLetter letter.id }
        letter.tenant letter.remote retry.scope .pull
        (fun checkpoint => { checkpoint with
          recordsPulled := checkpoint.recordsPulled + 1,
          bytesDownloaded := checkpoint.bytesDownloaded + encodedDataSize p retry.entry,
          lastError := none })
        { status := .completed, recordsPulled := 1,
          bytesDownloaded := encodedDataSize p retry.entry }
  | (.error error, node) =>
      (failedResult error, { session with
        localNode := node
        engine := session.engine.updateDeadLetterFailure letter.id error })

def retryPush (retry : DeadLetterRetry) : SyncOnceResult Hash × SyncSession Local Remote Hash :=
  let letter := retry.letter
  match remoteEnd.apply session.remoteNode letter.tenant retry.entry with
  | (.ok _, node) =>
      checkpointed
        { session with
          remoteNode := node
          engine := session.engine.clearDeadLetter letter.id }
        letter.tenant letter.remote retry.scope .push
        (fun checkpoint => { checkpoint with
          recordsPushed := checkpoint.recordsPushed + 1,
          bytesUploaded := checkpoint.bytesUploaded + encodedDataSize p retry.entry,
          lastError := none })
        { status := .completed, recordsPushed := 1, bytesUploaded := encodedDataSize p retry.entry }
  | (.error error, node) =>
      (failedResult error, { session with
        remoteNode := node
        engine := session.engine.updateDeadLetterFailure letter.id error })

def retryDeadLetter (id : Nat) : SyncOnceResult Hash × SyncSession Local Remote Hash :=
  match retryableDeadLetter session id with
  | .error error => (failedResult error, session)
  | .ok retry =>
    session.exclusively (operationKey retry.letter.tenant retry.letter.remote retry.direction)
      fun started =>
        if retry.direction = .pull then retryPull p localEnd started retry
        else retryPush p remoteEnd started retry

end

/-! ## Histories -/

inductive SyncEvent
  | onLocal (event : Event)
  | onRemote (event : Event)
  | once (request : SyncOnceRequest)
  | remoteMessage (tenant : Did) (remote : String) (scope : SyncScope) (message : SubscriptionMessage)
  | localMessage (tenant : Did) (remote : String) (scope : SyncScope) (message : SubscriptionMessage)
  | retry (id : Nat)
  | clear (id : Nat)
  | register (options : SyncIdentityOptions)
  | update (options : SyncIdentityOptions)
  | unregister (did : Did)

section

variable (p : Primitives) {Hash : Type} [DecidableEq Hash] (localEnd remoteEnd : Endpoint SyncNode Hash)
  (diffDepth : Nat)

def SyncSession.step (session : SyncSession SyncNode SyncNode Hash) :
    SyncEvent → SyncSession SyncNode SyncNode Hash
  | .onLocal event => { session with localNode := session.localNode.step p event }
  | .onRemote event => { session with remoteNode := session.remoteNode.step p event }
  | .once request => (syncOnce p localEnd remoteEnd diffDepth request session).2
  | .remoteMessage tenant remote scope message =>
      (handleRemoteSubscriptionMessage p localEnd tenant remote scope session message).2
  | .localMessage tenant remote scope message =>
      (handleLocalSubscriptionMessage p remoteEnd tenant remote scope session message).2
  | .retry id => (retryDeadLetter p localEnd remoteEnd session id).2
  | .clear id => { session with engine := session.engine.clearDeadLetter id }
  | .register options =>
      { session with engine := (session.engine.registerIdentity options).toOption.getD session.engine }
  | .update options =>
      { session with engine := (session.engine.updateIdentity options).toOption.getD session.engine }
  | .unregister did =>
      { session with engine := (session.engine.unregisterIdentity did).toOption.getD session.engine }

end

end Enbox
