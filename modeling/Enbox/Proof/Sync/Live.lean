import Enbox.Proof.Sync.Apply
import Enbox.Proof.Sync.Pull

/-! # Live events -/

namespace Enbox.Proof.Sync

open Lib Run SyncEndpoint

section

variable {Local Remote Hash : Type} {p : Primitives} {localEnd : Endpoint Local Hash}
  {remoteEnd : Endpoint Remote Hash} {tenant : Did} {remote : String} {scope : SyncScope}
  {request : SyncOnceRequest} {session : SyncSession Local Remote Hash}

theorem pullEvent_localNode (cursor : ProgressToken) (entry : SyncEntry) :
    (pullEvent p localEnd tenant remote scope session cursor entry).2.localNode =
      (localEnd.apply session.localNode tenant entry).2 := by
  rw [pullEvent]
  obtain ⟨outcome, node⟩ := localEnd.apply session.localNode tenant entry
  cases outcome <;> rfl

theorem pushEvent_remoteNode (cursor : ProgressToken) (entry : SyncEntry) :
    (pushEvent p remoteEnd tenant remote scope session cursor entry).2.remoteNode =
      (remoteEnd.apply session.remoteNode tenant entry).2 := by
  rw [pushEvent]
  obtain ⟨outcome, node⟩ := remoteEnd.apply session.remoteNode tenant entry
  cases outcome <;> rfl

theorem pullEntries_localNode {entry : SyncEntry}
    (within : exceedsLimits p request 0 0 entry = false) :
    (pullEntries p localEnd request [entry] 0 0 session).2.localNode =
      (localEnd.apply session.localNode request.tenant entry).2 := by
  simp only [pullEntries, within, Bool.false_eq_true, if_false]
  obtain ⟨outcome, node⟩ := localEnd.apply session.localNode request.tenant entry
  cases outcome <;> rfl

theorem pushEntries_remoteNode {entry : SyncEntry}
    (within : exceedsLimits p request 0 0 entry = false) :
    (pushEntries p remoteEnd request [entry] 0 0 session).2.remoteNode =
      if session.engine.shouldSuppressEcho request.tenant request.remote entry.messageCid then
        session.remoteNode
      else (remoteEnd.apply session.remoteNode request.tenant entry).2 := by
  simp only [pushEntries, within, Bool.false_eq_true, if_false]
  split
  · rfl
  · obtain ⟨outcome, node⟩ := remoteEnd.apply session.remoteNode request.tenant entry
    cases outcome <;> rfl

end

/-! ## Live and polled -/

structure FedWrite (p : Primitives) (feed : MemoryMessageState) (tenant : Did)
    (event : EventLogEntry) (row : MessageRow) (d : WriteDescriptor) : Prop where
  read : ∃ position entry, feed.messages.lookup (tenant, entry.messageCid) = some row ∧
    readEntry p feed tenant position entry = .ok event
  isWrite : row.message.descriptor = .recordsWrite d
  small : d.dataSize ≤ maxEncodedDataSize

def liveEntry (event : EventLogEntry) (pageCursor : ProgressToken) : SyncEntry :=
  entryFromSubscriptionEvent (entryCursor event pageCursor) ⟨event.message, none⟩

def polledEntry (p : Primitives) (data : DataStore) (tenant : Did) (row : MessageRow) : SyncEntry :=
  diffEntry p maxInlineDataSize data tenant row.cid row.message

section

variable {p : Primitives} {resolver : Option DidResolver} {tenant : Did} {stores : Stores}
  {message : Message} {d : WriteDescriptor} {sent : Option Bytes}

def LiveAlike (accepted : Prop) (p : Primitives) (resolver : Option DidResolver) (stores : Stores)
    (tenant : Did) (message : Message) (sent : Option Bytes) : Prop :=
  (∀ admitted, ¬ ReadsData p resolver stores tenant message admitted) ∨
    accepted ∧ SameWithoutData p resolver stores tenant message sent

/-- The condition is enough for both ways to leave a node alike, and exact where the node accepts
the polled write. -/
def AgreeWhen (condition accepts : Prop) (d : WriteDescriptor) (live polled : Stores) : Prop :=
  (condition → SameStores live polled) ∧
    (¬ RevokesOwnGrant d → accepts → SameStores live polled → condition)

def Accepts (p : Primitives) (resolver : Option DidResolver) (stores : Stores) (tenant : Did)
    (message : Message) (sent : Option Bytes) : Prop :=
  (dwnProcessMessage p resolver stores tenant message sent).1.isSuccess = true

theorem agreeWhen (law : p.CollisionFree) (sound : Sound p stores.messages)
    (isWrite : message.descriptor = .recordsWrite d) (small : d.dataSize ≤ maxEncodedDataSize)
    {accepted : Prop} {live : Stores}
    (taken : accepted → live = (dwnProcessMessage p resolver stores tenant message none).2)
    (dropped : ¬ accepted → live = stores) :
    AgreeWhen (LiveAlike accepted p resolver stores tenant message sent)
      (Accepts p resolver stores tenant message sent) d live
      (dwnProcessMessage p resolver stores tenant message sent).2 := by
  constructor
  · rintro (unread | ⟨isAccepted, same⟩)
    · obtain ⟨status, refused⟩ := unread_refused isWrite unread
      have unchanged : live = stores := by
        by_cases isAccepted : accepted
        · rw [taken isAccepted, refused]
        · exact dropped isAccepted
      rw [unchanged, refused]
      exact SameStores.refl _
    · rw [taken isAccepted]
      exact same.reply.2.sameStores
  · intro lasts accepts same
    by_cases isAccepted : accepted
    · rw [taken isAccepted] at same
      exact .inr ⟨isAccepted, sameWithoutData_of_rows law sound isWrite small lasts accepts
        fun row => (same.messages row).mpr⟩
    · let request : Request := { tenant, message, data := sent, resolver }
      have requestWrite : request.message.descriptor = .recordsWrite d := isWrite
      obtain ⟨-, -, row, -, -, stored, new, -⟩ :=
        row_of_success law sound requestWrite lasts accepts
      rw [dropped isAccepted] at same
      exact absurd ((same.messages row).mpr stored) new

end

section

variable {Hash : Type} {p : Primitives} {resolver : Option DidResolver} {tenant : Did}
  {feed : MemoryMessageState} {event : EventLogEntry} {row : MessageRow} {d : WriteDescriptor}

section

variable (fed : FedWrite p feed tenant event row d)

include fed

theorem FedWrite.event_eq :
    event.message = setEncodedData row.message none ∧ event.messageCid = some row.cid := by
  obtain ⟨position, entry, stored, read⟩ := fed.read
  simp only [readEntry, stored, okOr, ok_bind, ok_iff] at read
  obtain ⟨_, -, _, -, rfl⟩ := read
  exact ⟨rfl, rfl⟩

theorem FedWrite.entries (pageCursor : ProgressToken) (data : DataStore) :
    (liveEntry event pageCursor).message = setEncodedData row.message none ∧
      (polledEntry p data tenant row).message = setEncodedData row.message none := by
  refine ⟨fed.event_eq.1, ?_⟩
  simp [polledEntry, diffEntry, stripEncodedData, Message.writeDescriptor_eq_some.mpr fed.isWrite]

theorem FedWrite.live_intact (pageCursor : ProgressToken) {data : DataStore} {sent : Option Bytes}
    (intact : checkEntry p (polledEntry p data tenant row) = .ok sent) :
    checkEntry p (liveEntry event pageCursor) = .ok none := by
  have cid : (liveEntry event pageCursor).messageCid = row.cid := by
    simp [liveEntry, entryFromSubscriptionEvent, entryCursor, fed.event_eq.2]
  obtain ⟨live, polled⟩ := fed.entries pageCursor data
  simp only [checkEntry, ok_iff, polled] at intact
  obtain ⟨_, same, -⟩ := intact
  have sameCid : p.messageCid (liveEntry event pageCursor).message =
      (liveEntry event pageCursor).messageCid := by
    rw [live, cid, same]
    rfl
  simp only [checkEntry, ensure_true sameCid, ok_bind]
  rfl

end

variable {remote : String} {scope : SyncScope} {request : SyncOnceRequest}
  {session : SyncSession SyncNode SyncNode Hash}

theorem handleLocal_stores (fed : FedWrite p feed tenant event row d)
    (remoteEnd : Endpoint SyncNode Hash) (pageCursor : ProgressToken)
    (initialWrite : Option Message) :
    (handleLocalSubscriptionMessage p remoteEnd tenant remote scope session
        (eventMessage event pageCursor initialWrite)).2.remoteNode =
      if session.engine.shouldSuppressEcho tenant remote row.cid then session.remoteNode
      else (remoteEnd.apply session.remoteNode tenant (liveEntry event pageCursor)).2 := by
  have cid : (entryCursor event pageCursor).messageCid = some row.cid := fed.event_eq.2
  simp only [handleLocalSubscriptionMessage, eventMessage, cid, Option.any_some]
  split
  · rfl
  · rw [pushEvent_remoteNode]
    rfl

variable [DecidableEq Hash] {hasher : StateHasher Hash}

theorem direct_stores {node : SyncNode} {entry : SyncEntry} {sent : Option Bytes}
    (intact : checkEntry p entry = .ok sent) :
    ((directSyncEndpoint p hasher (dwnProcessMessage p resolver)).apply node tenant entry).2.stores =
      (dwnProcessMessage p resolver node.stores tenant entry.message sent).2 := by
  change (SyncEndpoint.apply p (dwnProcessMessage p resolver) node.stores tenant entry).2 = _
  simp only [SyncEndpoint.apply, intact]

/-- What comes in live leaves a node as a diff would when the cursor is accepted and the node does
as much without the data, and only then if the node accepts the diff entry. Through HTTP the data
are sent in neither way. -/
theorem live_as_polled_iff (law : p.CollisionFree) (fed : FedWrite p feed tenant event row d)
    (pageCursor : ProgressToken) (initialWrite : Option Message) (data : DataStore)
    (ofTenant : request.tenant = tenant) (ofRemote : request.remote = remote)
    (within : exceedsLimits p request 0 0 (polledEntry p data tenant row) = false)
    {sent : Option Bytes} (intact : checkEntry p (polledEntry p data tenant row) = .ok sent)
    (signature : Did → Except Status AuthorizationContext)
    (localReached : Reaches (step p) (fun _ _ => True) {} session.localNode.stores)
    (remoteReached : Reaches (step p) (fun _ _ => True) {} session.remoteNode.stores) :
    let direct := directSyncEndpoint p hasher (dwnProcessMessage p resolver)
    let http := httpSyncEndpoint p hasher (dwnProcessMessage p resolver) signature
    let message := setEncodedData row.message none
    let live := eventMessage event pageCursor initialWrite
    let polled := [polledEntry p data tenant row]
    let pulls := session.localNode.stores
    let pushes := session.remoteNode.stores
    AgreeWhen
      (LiveAlike
        (session.engine.validatePullCursor tenant remote scope (entryCursor event pageCursor) = .ok ())
        p resolver pulls tenant message sent)
      (Accepts p resolver pulls tenant message sent) d
      (handleRemoteSubscriptionMessage p direct tenant remote scope session live).2.localNode.stores
      (pullEntries p direct request polled 0 0 session).2.localNode.stores ∧
    AgreeWhen
      (session.engine.shouldSuppressEcho tenant remote row.cid = true ∨
        SameWithoutData p resolver pushes tenant message sent)
      (Accepts p resolver pushes tenant message sent) d
      (handleLocalSubscriptionMessage p direct tenant remote scope session live).2.remoteNode.stores
      (pushEntries p direct request polled 0 0 session).2.remoteNode.stores ∧
    SameStores
      (handleLocalSubscriptionMessage p http tenant remote scope session live).2.remoteNode.stores
      (pushEntries p http request polled 0 0 session).2.remoteNode.stores := by
  subst ofTenant ofRemote
  intro direct http message live polled pulls pushes
  have isWrite : message.descriptor = .recordsWrite d := fed.isWrite
  obtain ⟨isLive, isPolled⟩ := fed.entries pageCursor data
  have liveIntact := fed.live_intact pageCursor intact
  have cid : (polledEntry p data request.tenant row).messageCid = row.cid := rfl
  refine ⟨?_, ?_, ?_⟩
  · rw [pullEntries_localNode within, direct_stores intact, isPolled]
    refine agreeWhen law (sound_of_reaches sound_nil localReached) isWrite fed.small ?_ ?_
    · intro accepted
      simp only [live, handleRemoteSubscriptionMessage, eventMessage, accepted,
        pullEvent_localNode]
      exact (direct_stores liveIntact).trans (by rw [isLive])
    · intro refused
      simp only [live, handleRemoteSubscriptionMessage, eventMessage]
      split
      · rfl
      · rename_i accepted
        exact absurd accepted refused
  · rw [handleLocal_stores fed, pushEntries_remoteNode within, cid]
    split
    · rename_i echo
      exact ⟨fun _ => SameStores.refl _, fun _ _ _ => .inl echo⟩
    · rename_i sentOn
      rw [direct_stores intact, direct_stores liveIntact, isLive, isPolled]
      have agree :
          AgreeWhen (LiveAlike True p resolver pushes request.tenant message sent) _ d _ _ :=
        agreeWhen law (sound_of_reaches sound_nil remoteReached) isWrite fed.small (fun _ => rfl)
          (absurd trivial)
      refine ⟨fun condition => agree.1 (.inr ⟨trivial, condition.resolve_left sentOn⟩),
        fun lasts accepts same => .inr ?_⟩
      rcases agree.2 lasts accepts same with unread | ⟨-, alike⟩
      · exact .inl unread
      · exact alike
  · rw [handleLocal_stores fed, pushEntries_remoteNode within, cid]
    split
    · exact SameStores.refl _
    · change SameStores (dwnProcessMessage p resolver _ _ _ none).2
        (dwnProcessMessage p resolver _ _ _ none).2
      rw [isLive, isPolled]
      exact SameStores.refl _

end

namespace LiveThread

open Threads Concrete

noncomputable section

section

variable (message : Message) (author : Did) (data : String)

def feed : MemoryMessageState :=
  feedStep p (fun _ => 0) { epoch := "e" } (.put "did:ex:alice"
    ⟨setEncodedData message (some data),
      (recordsWriteIndexes p (setEncodedData message (some data)) author true).toOption.getD []⟩)

def row : MessageRow :=
  ((feed message author data).messages.lookup ("did:ex:alice", p.messageCid message)).getD
    ⟨"", message, []⟩

def event : EventLogEntry :=
  ⟨"1", message, (row message author data).indexes, some (p.messageCid message), some data⟩

end

def pageCursor : ProgressToken := ⟨"stream", "e", "1", none⟩

def threadRow : MessageRow := row one "did:ex:alice" "one"
def threadEvent : EventLogEntry := event one "did:ex:alice" "one"
def editRow : MessageRow := row edit "did:ex:bob" "two"
def editEvent : EventLogEntry := event edit "did:ex:bob" "two"

theorem thread_fed : FedWrite p (feed one "did:ex:alice" "one") "did:ex:alice" threadEvent threadRow
    (thread "one" 2) where
  read := ⟨1, ⟨[globalDomain, protocolFingerprintScope uri], threadRow.indexes, "m3"⟩, rfl, rfl⟩
  isWrite := rfl
  small := by decide

theorem edit_fed : FedWrite p (feed edit "did:ex:bob" "two") "did:ex:alice" editEvent editRow
    (thread "two" 4) where
  read := ⟨1, ⟨[globalDomain, protocolFingerprintScope uri], editRow.indexes, "m5"⟩, rfl, rfl⟩
  isWrite := rfl
  small := by decide

abbrev Session := SyncSession SyncNode SyncNode Digest

def directEnd : Endpoint SyncNode Digest :=
  directSyncEndpoint p (digestHasher halves) (dwnProcessMessage p (some openResolver))

def request : SyncOnceRequest where
  tenant := "did:ex:alice"
  remote := "https://remote"
  direction := .pull

def heard (session : Session) (event : EventLogEntry) : SyncOnceResult Digest × Session :=
  handleRemoteSubscriptionMessage p directEnd "did:ex:alice" "https://remote" .full session
    (eventMessage event pageCursor none)

def pulled (session : Session) (row : MessageRow) : SyncLoop × Session :=
  pullEntries p directEnd request [polledEntry p [] "did:ex:alice" row] 0 0 session

def sessionAt (stores : Stores) : Session where
  localNode := { stores }
  remoteNode := {}

def session : Session := sessionAt configured

/-- The edit brings the data that the thread has. -/
theorem edit_live_as_polled :
    SameStores (heard (sessionAt (stores joined)) editEvent).2.localNode.stores
        (pulled (sessionAt (stores joined)) editRow).2.localNode.stores ∧
      ("m5", some "two", some (.bool true)) ∈
        (heard (sessionAt (stores joined)) editEvent).2.localNode.stores.messages.map
          dataAndState := by
  have localReached :
      Reaches (step p) (fun _ _ => True) {} (sessionAt (stores joined)).localNode.stores :=
    reaches_foldl _ _ _
  have ofTenant : request.tenant = "did:ex:alice" := rfl
  exact ⟨(live_as_polled_iff collisionFree edit_fed pageCursor none [] ofTenant rfl rfl rfl
    (fun _ => .error conflict) localReached .refl).1.1 (.inr ⟨rfl, edit_reuses_data⟩), by decide⟩

theorem thread_live_without_data :
    p.CollisionFree ∧ Reaches (step p) (fun _ _ => True) {} session.localNode.stores ∧
    FedWrite p (feed one "did:ex:alice" "one") "did:ex:alice" threadEvent threadRow (thread "one" 2) ∧
    threadEvent.encodedData = some "one" ∧
    (heard session threadEvent).1.status = .completed ∧
    (heard session threadEvent).2.localNode.stores.messages.map dataAndState =
      [("m3", none, some (.bool false)), ("m0", none, some (.bool true))] ∧
    (pulled session threadRow).2.localNode.stores.messages.map dataAndState =
      [("m3", some "one", some (.bool true)), ("m0", none, some (.bool true))] ∧
    ¬ SameStores (heard session threadEvent).2.localNode.stores
      (pulled session threadRow).2.localNode.stores := by
  exact ⟨collisionFree, reaches_foldl _ _ _, thread_fed, rfl, rfl, rfl, rfl, not_sameStores rfl rfl⟩

end

end LiveThread

end Enbox.Proof.Sync
