import Enbox.Proof.Sync.Order

/-! # Histories of two nodes -/

namespace Enbox.Proof.Sync

open Lib

variable {Hash : Type} {hasher : StateHasher Hash} {diffDepth : Nat}
  {localEnd remoteEnd : Endpoint SyncNode Hash} {tenant : Did} {entry : SyncEntry}
  {outcome : Except SyncError Unit} {node : SyncNode} {engine : SyncEngineState Hash}
  {session : SyncSession SyncNode SyncNode Hash}

/-! ## Endpoints -/

structure ServesIndex (hasher : StateHasher Hash) (endpoint : Endpoint SyncNode Hash) : Prop where
  root : ∀ node tenant scope hash, endpoint.root node tenant scope = .ok hash →
    hash = node.index.root hasher tenant scope.protocolUri
  keeps : ∀ node tenant entry, (endpoint.apply node tenant entry).2.index = node.index

inductive IsEndpoint [DecidableEq Hash] (p : Primitives) (hasher : StateHasher Hash) :
    Endpoint SyncNode Hash → Prop
  | direct (process : DwnProcessMessage) : IsEndpoint p hasher (directSyncEndpoint p hasher process)
  | http (process : DwnProcessMessage) (signature : Did → Except Status AuthorizationContext) :
      IsEndpoint p hasher (httpSyncEndpoint p hasher process signature)

theorem IsEndpoint.servesIndex [DecidableEq Hash] {p : Primitives}
    {endpoint : Endpoint SyncNode Hash} (kind : IsEndpoint p hasher endpoint) :
    ServesIndex hasher endpoint := by
  cases kind with
  | direct process =>
    exact ⟨fun _ _ _ _ answer => (Except.ok.inj answer).symm, fun _ _ _ => rfl⟩
  | http process signature =>
    refine ⟨fun node tenant scope hash answer => ?_, fun _ _ _ => rfl⟩
    change SyncEndpoint.replyRoot (MessagesSync.handle p hasher node.index node.stores tenant
      (signature tenant) { action := .root, protocol := scope.protocolUri }) = .ok hash at answer
    cases handled : MessagesSync.handle p hasher node.index node.stores tenant (signature tenant)
        { action := .root, protocol := scope.protocolUri } with
    | error status => rw [handled] at answer; cases answer
    | ok reply =>
      rw [handled] at answer
      simp only [MessagesSync.handle, ok_iff] at handled
      obtain ⟨_, _, _, _, _, _, rfl⟩ := handled
      exact (Except.ok.inj answer).symm

section

variable [DecidableEq Hash] {Local Remote : Type}

structure ScopeRule (p : Primitives) (localEnd : Endpoint Local Hash)
    (remoteEnd : Endpoint Remote Hash) (diffDepth : Nat) (request : SyncOnceRequest)
    (R : SyncSession Local Remote Hash → SyncSession Local Remote Hash → Prop) : Prop where
  refl : ∀ session, R session session
  trans : ∀ {first second third}, R first second → R second third → R first third
  pull : ∀ scope session,
    R session (syncPullScope p localEnd remoteEnd diffDepth request scope session).2
  push : ∀ scope session,
    R session (syncPushScope p localEnd remoteEnd diffDepth request scope session).2

structure RunRule (p : Primitives) (localEnd : Endpoint Local Hash) (remoteEnd : Endpoint Remote Hash)
    (diffDepth : Nat) (request : SyncOnceRequest)
    (R : SyncSession Local Remote Hash → SyncSession Local Remote Hash → Prop) : Prop
    extends ScopeRule p localEnd remoteEnd diffDepth request R where
  running : ∀ {before after keys keys'},
    R { before with engine := { before.engine with running := keys } } after →
      R before { after with engine := { after.engine with running := keys' } }

variable {p : Primitives} {localEnd : Endpoint Local Hash} {remoteEnd : Endpoint Remote Hash}
  {request : SyncOnceRequest}
  {R : SyncSession Local Remote Hash → SyncSession Local Remote Hash → Prop}

section

variable (rule : ScopeRule p localEnd remoteEnd diffDepth request R)

include rule

theorem ScopeRule.scope (scope : SyncScope) (session : SyncSession Local Remote Hash) :
    R session (syncScope p localEnd remoteEnd diffDepth request scope session).2 := by
  have pulled : R session (if request.direction.includesPull then
      syncPullScope p localEnd remoteEnd diffDepth request scope session
      else ({ status := .completed }, session)).2 := by
    split
    · exact rule.pull scope session
    · exact rule.refl session
  unfold syncScope
  dsimp only
  generalize (if request.direction.includesPull then
    syncPullScope p localEnd remoteEnd diffDepth request scope session
    else ({ status := .completed }, session)) = first at pulled ⊢
  split
  · exact rule.trans pulled (rule.push scope _)
  · exact pulled

theorem ScopeRule.scopes (scopes : List SyncScope) :
    ∀ (result : SyncOnceResult Hash) (session : SyncSession Local Remote Hash),
      R session (syncScopes p localEnd remoteEnd diffDepth request scopes result session).2 := by
  induction scopes with
  | nil => exact fun _ session => rule.refl session
  | cons scope rest ih =>
    intro result session
    rw [syncScopes]
    dsimp only
    split
    · exact rule.scope scope session
    · exact rule.trans (rule.scope scope session) (ih _ _)

theorem ScopeRule.unlocked (session : SyncSession Local Remote Hash) :
    R session (syncOnceUnlocked p localEnd remoteEnd diffDepth request session).2 := by
  rw [syncOnceUnlocked]
  split
  · exact rule.refl session
  · split
    · exact rule.refl session
    · exact rule.scopes _ _ session

end

omit [DecidableEq Hash] in
theorem exclusively_keeps (refl : ∀ session, R session session)
    (running : ∀ {before after keys keys'},
      R { before with engine := { before.engine with running := keys } } after →
        R before { after with engine := { after.engine with running := keys' } })
    {operate : SyncSession Local Remote Hash → SyncOnceResult Hash × SyncSession Local Remote Hash}
    (operates : ∀ session, R session (operate session).2) (session : SyncSession Local Remote Hash)
    (key : String) : R session (session.exclusively key operate).2 := by
  rw [SyncSession.exclusively, SyncEngineState.beginOperation]
  by_cases runs : key ∈ session.engine.running
  · rw [if_pos runs]
    exact refl session
  · rw [if_neg runs]
    exact running (operates _)

theorem RunRule.once (rule : RunRule p localEnd remoteEnd diffDepth request R)
    (session : SyncSession Local Remote Hash) :
    R session (syncOnce p localEnd remoteEnd diffDepth request session).2 := by
  rw [syncOnce]
  split
  · exact rule.refl session
  · exact exclusively_keeps rule.refl rule.running rule.unlocked session _

end

section

variable {p : Primitives} {Local Remote : Type} {localEnd : Endpoint Local Hash}
  {remoteEnd : Endpoint Remote Hash}
  {R : SyncSession Local Remote Hash → SyncSession Local Remote Hash → Prop}
  {session : SyncSession Local Remote Hash} {remote : String} {scope : SyncScope}
  {message : SubscriptionMessage} {request : SyncOnceRequest}

structure StepRule (localEnd : Endpoint Local Hash) (remoteEnd : Endpoint Remote Hash)
    (R : SyncSession Local Remote Hash → SyncSession Local Remote Hash → Prop) : Prop where
  refl : ∀ session, R session session
  trans : ∀ {first second third}, R first second → R second third → R first third
  engine : ∀ {before after engine engine'},
    R { before with engine } after → R before { after with engine := engine' }
  applyLocal : ∀ {session tenant entry outcome node engine},
    localEnd.apply session.localNode tenant entry = (outcome, node) →
      R session { session with localNode := node, engine }
  applyRemote : ∀ {session tenant entry outcome node engine},
    remoteEnd.apply session.remoteNode tenant entry = (outcome, node) →
      R session { session with remoteNode := node, engine }

namespace StepRule

variable (rule : StepRule localEnd remoteEnd R)

include rule

theorem checkpointed (session : SyncSession Local Remote Hash) (direction : SyncDirection)
    (update : SyncCheckpoint Hash → SyncCheckpoint Hash) (result : SyncOnceResult Hash) :
    R session (checkpointed session tenant remote scope direction update result).2 :=
  rule.engine (rule.refl session)

theorem remoteMessage :
    R session (handleRemoteSubscriptionMessage p localEnd tenant remote scope session message).2 := by
  cases message with
  | event cursor message =>
    rw [handleRemoteSubscriptionMessage]
    split
    · exact rule.checkpointed session _ _ _
    · rw [pullEvent]
      split
      all_goals
        rename_i applied
        exact rule.applyLocal applied
  | eose cursor => exact rule.checkpointed session _ _ _
  | error code detail => exact rule.engine (rule.refl session)

theorem localMessage :
    R session (handleLocalSubscriptionMessage p remoteEnd tenant remote scope session message).2 := by
  cases message with
  | event cursor message =>
    rw [handleLocalSubscriptionMessage]
    split
    · exact rule.checkpointed session _ _ _
    · rw [pushEvent]
      split
      all_goals
        rename_i applied
        exact rule.applyRemote applied
  | eose cursor => exact rule.checkpointed session _ _ _
  | error code detail => exact rule.engine (rule.refl session)

theorem retryPull (retry : DeadLetterRetry) : R session (retryPull p localEnd session retry).2 := by
  rw [Enbox.retryPull]
  split
  all_goals
    rename_i applied
    exact rule.applyLocal applied

theorem retryPush (retry : DeadLetterRetry) : R session (retryPush p remoteEnd session retry).2 := by
  rw [Enbox.retryPush]
  split
  all_goals
    rename_i applied
    exact rule.applyRemote applied

theorem pullEntries (entries : List SyncEntry) :
    ∀ (records bytes : Nat) (session : SyncSession Local Remote Hash),
      R session (pullEntries p localEnd request entries records bytes session).2 := by
  induction entries with
  | nil => exact fun _ _ session => rule.refl session
  | cons entry rest ih =>
    intro records bytes session
    rw [Enbox.pullEntries]
    split
    · exact rule.refl session
    · split
      · rename_i applied
        exact rule.trans (rule.applyLocal applied) (ih _ _ _)
      · rename_i applied
        exact rule.applyLocal applied

theorem pushEntries (entries : List SyncEntry) :
    ∀ (records bytes : Nat) (session : SyncSession Local Remote Hash),
      R session (pushEntries p remoteEnd request entries records bytes session).2 := by
  induction entries with
  | nil => exact fun _ _ session => rule.refl session
  | cons entry rest ih =>
    intro records bytes session
    rw [Enbox.pushEntries]
    split
    · exact ih _ _ _
    · split
      · exact rule.refl session
      · split
        · rename_i applied
          exact rule.trans (rule.applyRemote applied) (ih _ _ _)
        · rename_i applied
          exact rule.applyRemote applied

variable [DecidableEq Hash]

theorem scopeRule : ScopeRule p localEnd remoteEnd diffDepth request R where
  refl := rule.refl
  trans := rule.trans
  pull scope session := by
    rw [syncPullScope]
    split
    · exact rule.refl session
    · exact rule.refl session
    · split
      · exact rule.checkpointed session _ _ _
      · split
        · exact rule.refl session
        · rename_i diff _
          have loop : R session (Enbox.pullEntries p localEnd request
              (sortDiffEntriesTopologically diff.onlyRemote) 0 0 session).2 :=
            rule.pullEntries _ 0 0 session
          split <;> rename_i ended <;> rw [ended] at loop <;> exact rule.engine loop
  push scope session := by
    rw [syncPushScope]
    split
    · exact rule.refl session
    · exact rule.refl session
    · split
      · exact rule.checkpointed session _ _ _
      · split
        · exact rule.refl session
        · rename_i diff _
          have loop : R session (Enbox.pushEntries p remoteEnd request
              (sortDiffEntriesTopologically diff.onlyRemote) 0 0 session).2 :=
            rule.pushEntries _ 0 0 session
          split <;> rename_i ended <;> rw [ended] at loop <;> exact rule.engine loop

end StepRule

end

/-! ## What every operation keeps -/

structure Follows (before after : SyncSession SyncNode SyncNode Hash) : Prop where
  localIndex : after.localNode.index = before.localNode.index
  remoteIndex : after.remoteNode.index = before.remoteNode.index

theorem follows_rule (localServes : ServesIndex hasher localEnd)
    (remoteServes : ServesIndex hasher remoteEnd) : StepRule localEnd remoteEnd Follows where
  refl _ := ⟨rfl, rfl⟩
  trans before after :=
    ⟨after.localIndex.trans before.localIndex, after.remoteIndex.trans before.remoteIndex⟩
  engine follows := ⟨follows.localIndex, follows.remoteIndex⟩
  applyLocal {session tenant entry _ _ _} applied :=
    ⟨by simpa only [applied] using localServes.keeps session.localNode tenant entry, rfl⟩
  applyRemote {session tenant entry _ _ _} applied :=
    ⟨rfl, by simpa only [applied] using remoteServes.keeps session.remoteNode tenant entry⟩

section

variable [DecidableEq Hash] {p : Primitives}

section

variable (localServes : ServesIndex hasher localEnd) (remoteServes : ServesIndex hasher remoteEnd)

include localServes remoteServes

theorem step_follows (session : SyncSession SyncNode SyncNode Hash) (event : SyncEvent) :
    Follows session (session.step p localEnd remoteEnd diffDepth event) := by
  have rule : StepRule localEnd remoteEnd Follows := follows_rule localServes remoteServes
  cases event with
  | once request =>
    have once : RunRule p localEnd remoteEnd diffDepth request Follows :=
      { rule.scopeRule with running := rule.engine }
    exact once.once session
  | remoteMessage tenant remote scope message => exact rule.remoteMessage
  | localMessage tenant remote scope message => exact rule.localMessage
  | retry id =>
    rw [SyncSession.step, retryDeadLetter]
    split
    · exact rule.refl session
    · refine exclusively_keeps rule.refl rule.engine (fun started => ?_) session _
      split
      · exact rule.retryPull _
      · exact rule.retryPush _
  | onLocal | onRemote | clear | register | update | unregister => exact ⟨rfl, rfl⟩

theorem reaches_follows {start : SyncSession SyncNode SyncNode Hash}
    (reached : Reaches (SyncSession.step p localEnd remoteEnd diffDepth) (fun _ _ => True) start
      session) : Follows start session :=
  reached.invariant ⟨rfl, rfl⟩ fun _ event follows _ =>
    (follows_rule localServes remoteServes).trans follows (step_follows localServes remoteServes _ event)

end

end

section

def SameNodes (before after : SyncSession SyncNode SyncNode Hash) : Prop :=
  after.localNode = before.localNode ∧ after.remoteNode = before.remoteNode

def SameIndex (session : SyncSession SyncNode SyncNode Hash) : Prop :=
  session.localNode.index = session.remoteNode.index

theorem SameIndex.of_sameNodes {before after : SyncSession SyncNode SyncNode Hash}
    (same : SameIndex before) (nodes : SameNodes before after) : SameIndex after := by
  rw [SameIndex, nodes.1, nodes.2]
  exact same

variable {p : Primitives} (localServes : ServesIndex hasher localEnd)
  (remoteServes : ServesIndex hasher remoteEnd) (request : SyncOnceRequest)

include localServes remoteServes

theorem roots_eq (same : SameIndex session) {scope : SyncScope} {localRoot remoteRoot : Hash}
    (ours : localEnd.root session.localNode tenant scope = .ok localRoot)
    (theirs : remoteEnd.root session.remoteNode tenant scope = .ok remoteRoot) :
    localRoot = remoteRoot := by
  rw [localServes.root _ _ _ _ ours, remoteServes.root _ _ _ _ theirs, same]

variable [DecidableEq Hash]

theorem syncScope_sameNodes (scope : SyncScope) (same : SameIndex session) :
    SameNodes session (syncPullScope p localEnd remoteEnd diffDepth request scope session).2 ∧
    SameNodes session (syncPushScope p localEnd remoteEnd diffDepth request scope session).2 := by
  rw [syncPullScope, syncPushScope]
  split
  · exact ⟨⟨rfl, rfl⟩, rfl, rfl⟩
  · exact ⟨⟨rfl, rfl⟩, rfl, rfl⟩
  · rename_i ours theirs
    rw [if_pos (roots_eq localServes remoteServes same ours theirs),
      if_pos (roots_eq localServes remoteServes same ours theirs)]
    exact ⟨⟨rfl, rfl⟩, rfl, rfl⟩

theorem sameNodes_rule : RunRule p localEnd remoteEnd diffDepth request
    fun before after => SameIndex before → SameNodes before after where
  refl _ _ := ⟨rfl, rfl⟩
  trans first second same :=
    have later := second (same.of_sameNodes (first same))
    ⟨later.1.trans (first same).1, later.2.trans (first same).2⟩
  running kept same := kept same
  pull scope _ same := (syncScope_sameNodes localServes remoteServes request scope same).1
  push scope _ same := (syncScope_sameNodes localServes remoteServes request scope same).2

theorem syncOnce_sameNodes (same : SameIndex session) :
    SameNodes session (syncOnce p localEnd remoteEnd diffDepth request session).2 :=
  (sameNodes_rule localServes remoteServes request).once session same

end

section

theorem absorb_completed {first second : SyncOnceResult Hash} (ours : first.status = .completed)
    (theirs : second.status = .completed) : (first.absorb second).status = .completed := by
  rw [SyncOnceResult.absorb, if_pos theirs, ours]

variable [DecidableEq Hash] {p : Primitives} {process remoteProcess : DwnProcessMessage}
  {request : SyncOnceRequest}

theorem syncPullScope_completed (scope : SyncScope) (same : SameIndex session) :
    (syncPullScope p (directSyncEndpoint p hasher process)
      (directSyncEndpoint p hasher remoteProcess) diffDepth request scope session).1.status =
        .completed := by
  simp only [syncPullScope, directSyncEndpoint]
  rw [if_pos (by rw [same])]
  rfl

theorem syncPushScope_completed (scope : SyncScope) (same : SameIndex session) :
    (syncPushScope p (directSyncEndpoint p hasher process)
      (directSyncEndpoint p hasher remoteProcess) diffDepth request scope session).1.status =
        .completed := by
  simp only [syncPushScope, directSyncEndpoint]
  rw [if_pos (by rw [same])]
  rfl

theorem direct_sameNodes_rule :
    RunRule p (directSyncEndpoint p hasher process) (directSyncEndpoint p hasher remoteProcess)
      diffDepth request fun before after => SameIndex before → SameNodes before after :=
  sameNodes_rule (IsEndpoint.direct process).servesIndex (IsEndpoint.direct remoteProcess).servesIndex
    request

theorem syncScope_completed (scope : SyncScope) (same : SameIndex session) :
    (syncScope p (directSyncEndpoint p hasher process) (directSyncEndpoint p hasher remoteProcess)
      diffDepth request scope session).1.status = .completed := by
  rw [syncScope]
  split
  · split
    · exact absorb_completed (syncPullScope_completed scope same) (syncPushScope_completed scope
        (same.of_sameNodes (direct_sameNodes_rule.pull scope session same)))
    · exact syncPullScope_completed scope same
  · split
    · exact absorb_completed rfl (syncPushScope_completed scope same)
    · rfl

theorem syncScopes_completed (scopes : List SyncScope) :
    ∀ {result : SyncOnceResult Hash} {session : SyncSession SyncNode SyncNode Hash},
      result.status = .completed → SameIndex session →
        (syncScopes p (directSyncEndpoint p hasher process)
          (directSyncEndpoint p hasher remoteProcess) diffDepth request scopes result
            session).1.status = .completed := by
  induction scopes with
  | nil => exact fun completed _ => completed
  | cons scope rest ih =>
    intro result session completed same
    have first : (syncScope p (directSyncEndpoint p hasher process)
        (directSyncEndpoint p hasher remoteProcess) diffDepth request scope session).1.status =
          .completed := syncScope_completed scope same
    rw [syncScopes]
    dsimp only
    rw [if_neg (by rw [first]; decide)]
    exact ih (absorb_completed completed first)
      (same.of_sameNodes (direct_sameNodes_rule.scope scope session same))

theorem syncOnce_completed (online : connectivityError request.connectivity = none)
    (idle : operationKey request.tenant request.remote request.direction ∉ session.engine.running)
    {identity : SyncIdentityOptions} (registered : session.engine.identities.lookup request.tenant =
      some identity)
    {scopes : List SyncScope} (covers : scopesForRequest identity request.protocol = .ok scopes)
    (same : SameIndex session) :
    (syncOnce p (directSyncEndpoint p hasher process) (directSyncEndpoint p hasher remoteProcess)
      diffDepth request session).1.status = .completed := by
  simp only [syncOnce, online, SyncSession.exclusively,
    SyncEngineState.beginOperation, if_neg idle, syncOnceUnlocked, registered, covers]
  exact syncScopes_completed scopes rfl same

end

section

variable [DecidableEq Hash]

def SameCids (session : SyncSession SyncNode SyncNode Hash) (tenant : Did) : Prop :=
  ∀ cid, (session.localNode.stores.messages.get tenant cid).isSome =
    (session.remoteNode.stores.messages.get tenant cid).isSome

def SameRoots (hasher : StateHasher Hash) (session : SyncSession SyncNode SyncNode Hash)
    (tenant : Did) : Prop :=
  session.localNode.index.root hasher tenant none = session.remoteNode.index.root hasher tenant none

def opened : SyncSession SyncNode SyncNode Hash where
  localNode := {}
  remoteNode := {}

omit [DecidableEq Hash] in
theorem SameIndex.sameRoots (same : SameIndex session) (tenant : Did) :
    SameRoots hasher session tenant := by
  rw [SameRoots, same]

theorem sameIndex_of_reaches {p : Primitives} (localServes : ServesIndex hasher localEnd)
    (remoteServes : ServesIndex hasher remoteEnd)
    (reached : Reaches (SyncSession.step p localEnd remoteEnd diffDepth) (fun _ _ => True) opened
      session) : SameIndex session := by
  have follows := reaches_follows localServes remoteServes reached
  rw [SameIndex, follows.localIndex, follows.remoteIndex]
  rfl

/-- After any history of two nodes, a run that completes leaves them with the same messages just when
they had the same messages before. -/
theorem completed_run_converges_iff (p : Primitives) (hasher : StateHasher Hash)
    {localEnd remoteEnd : Endpoint SyncNode Hash} (localKind : IsEndpoint p hasher localEnd)
    (remoteKind : IsEndpoint p hasher remoteEnd) (diffDepth : Nat)
    {session : SyncSession SyncNode SyncNode Hash}
    (reached : Reaches (SyncSession.step p localEnd remoteEnd diffDepth) (fun _ _ => True) opened
      session) (request : SyncOnceRequest) :
    ((syncOnce p localEnd remoteEnd diffDepth request session).1.status = .completed →
      SameCids (syncOnce p localEnd remoteEnd diffDepth request session).2 request.tenant ∧
      SameRoots hasher (syncOnce p localEnd remoteEnd diffDepth request session).2 request.tenant) ↔
    ((syncOnce p localEnd remoteEnd diffDepth request session).1.status = .completed →
      SameCids session request.tenant) := by
  have same := sameIndex_of_reaches localKind.servesIndex remoteKind.servesIndex reached
  have nodes : SameNodes session (syncOnce p localEnd remoteEnd diffDepth request session).2 :=
    syncOnce_sameNodes localKind.servesIndex remoteKind.servesIndex request same
  refine imp_congr_right fun _ => ?_
  rw [and_iff_left ((same.of_sameNodes nodes).sameRoots request.tenant), SameCids, SameCids,
    nodes.1, nodes.2]

end

section

open Run.Threads Concrete

noncomputable def threadsEnd : Endpoint SyncNode Digest :=
  directSyncEndpoint p (digestHasher configureLast) (dwnProcessMessage p (some openResolver))

noncomputable def threadsSession (events : List SyncEvent) : SyncSession SyncNode SyncNode Digest :=
  events.foldl (SyncSession.step p threadsEnd threadsEnd 0) opened

def registerAlice : SyncEvent := .register { did := "did:ex:alice", protocols := .all }

def configureThreads : Event := .request (request configureMessage "")

def startThread : Event := .request (request one "one")

def fullSync : SyncOnceRequest where
  tenant := "did:ex:alice"
  remote := "https://remote"
  direction := .bidirectional

theorem threadsSession_reached (events : List SyncEvent) :
    Reaches (SyncSession.step p threadsEnd threadsEnd 0) (fun _ _ => True) opened
      (threadsSession events) := by
  refine AllowedAlong.reaches ?_
  generalize (opened : SyncSession SyncNode SyncNode Digest) = start
  induction events generalizing start with
  | nil => trivial
  | cons event rest ih => exact ⟨trivial, ih _⟩

theorem threadsEnd_isEndpoint : IsEndpoint p (digestHasher configureLast) threadsEnd := .direct _

theorem threadsSession_sameIndex (events : List SyncEvent) : SameIndex (threadsSession events) :=
  sameIndex_of_reaches threadsEnd_isEndpoint.servesIndex threadsEnd_isEndpoint.servesIndex
    (threadsSession_reached events)

theorem threads_completed {events : List SyncEvent}
    (idle : (threadsSession events).engine.running = [])
    (registered : (threadsSession events).engine.identities.lookup "did:ex:alice" =
      some { did := "did:ex:alice", protocols := .all }) :
    (syncOnce p threadsEnd threadsEnd 0 fullSync (threadsSession events)).1.status = .completed := by
  refine syncOnce_completed rfl ?_ registered rfl (threadsSession_sameIndex events)
  rw [idle]
  exact List.not_mem_nil

def threadOnBoth : List SyncEvent :=
  [registerAlice, .onLocal configureThreads, .onRemote configureThreads, .onLocal startThread,
    .onRemote startThread]

theorem thread_on_both_nodes_kept :
    (syncOnce p threadsEnd threadsEnd 0 fullSync (threadsSession threadOnBoth)).1.status =
      .completed ∧
    SameCids (syncOnce p threadsEnd threadsEnd 0 fullSync (threadsSession threadOnBoth)).2
      "did:ex:alice" := by
  have converges := (completed_run_converges_iff p (digestHasher configureLast) threadsEnd_isEndpoint
    threadsEnd_isEndpoint 0 (threadsSession_reached threadOnBoth) fullSync).mpr fun _ _ => rfl
  refine ⟨?completed, (converges ?completed).1⟩
  exact threads_completed rfl rfl

def threadOnRemote : List SyncEvent :=
  [registerAlice, .onRemote configureThreads, .onRemote startThread]

theorem thread_left_behind :
    p.CollisionFree ∧ (digestHasher configureLast).CollisionFree ∧
    Reaches (SyncSession.step p threadsEnd threadsEnd 0) (fun _ _ => True) opened
      (threadsSession threadOnRemote) ∧
    ∃ result session, syncOnce p threadsEnd threadsEnd 0 fullSync (threadsSession threadOnRemote) =
        (result, session) ∧
      result.status = .completed ∧
      SameRoots (digestHasher configureLast) session "did:ex:alice" ∧
      session.localNode.stores.messages.get "did:ex:alice" "m3" = none ∧
      session.remoteNode.stores.messages.get "did:ex:alice" "m3" ≠ none ∧
      ¬ SameCids session "did:ex:alice" := by
  have nodes : SameNodes (threadsSession threadOnRemote)
      (syncOnce p threadsEnd threadsEnd 0 fullSync (threadsSession threadOnRemote)).2 :=
    syncOnce_sameNodes threadsEnd_isEndpoint.servesIndex threadsEnd_isEndpoint.servesIndex fullSync
      (threadsSession_sameIndex _)
  refine ⟨collisionFree, digestHasher_collisionFree _, threadsSession_reached _, _, _, Prod.mk.eta.symm,
    threads_completed rfl rfl, ((threadsSession_sameIndex _).of_sameNodes nodes).sameRoots _, ?_, ?_,
    fun same => ?_⟩
  · rw [nodes.1]
    rfl
  · rw [nodes.2]
    exact Option.isSome_iff_ne_none.mp rfl
  · have both := same "m3"
    rw [nodes.1, nodes.2] at both
    cases show false = true from both

end

end Enbox.Proof.Sync
