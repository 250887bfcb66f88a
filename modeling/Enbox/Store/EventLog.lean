import Enbox.Store.Subscription

/-!
# The durable event log

`subscribe`, the drains, the wakes and the closing of subscriptions are tasks that run side by side.
Each step is one access to what they share. The delivery gate, the wake handles and the joining of
tasks only let a task wait and are left out.
-/

namespace Enbox

open Lib

/-! ## The feed reader -/

structure FeedReader (Feed : Type) where
  logRead : Feed → Did → EventLogReadOptions → Except EventLogError EventLogReadResult
  logBounds : Feed → Did → Option ReplicationBounds

/-- What a step meets outside of the event log: a failure of the reader or of the resolver, and the
initial write that the resolver finds. -/
structure Outside where
  failure : Option EventLogError := none
  initialWrite : Option Message := none

def Outside.meets {α : Type} (outside : Outside) (result : Except EventLogError α) :
    Except EventLogError α :=
  match outside.failure with
  | some error => .error error
  | none => result

/-! ## Delivery -/

inductive DeliveryStage
  | entered
  | resolving
  | gated (initialWrite : Option Message)
  | listening (initialWrite : Option Message)

/-- `deliver_entry`: the stage that follows, or the cursor that is returned. -/
def deliverEntry (closed : Bool) (outside : Outside) (entry : EventLogEntry)
    (pageCursor : ProgressToken) :
    DeliveryStage → Except EventLogError (DeliveryStage ⊕ ProgressToken)
  | .entered => do
      let _ ← parseFeedPosition entry.seq
      return if closed then .inr pageCursor else .inl .resolving
  | .resolving => do
      let initialWrite ← outside.meets (.ok outside.initialWrite)
      return .inl (.gated initialWrite)
  | .gated initialWrite =>
      .ok (if closed then .inr (entryCursor entry pageCursor) else .inl (.listening initialWrite))
  | .listening _ => .ok (.inr (entryCursor entry pageCursor))

def DeliveryStage.says (entry : EventLogEntry) (pageCursor : ProgressToken) :
    DeliveryStage → List SubscriptionMessage
  | .listening initialWrite => [eventMessage entry pageCursor initialWrite]
  | _ => []

/-! ## Tasks -/

structure ReplayPage where
  rest : List EventLogEntry
  scan : ProgressToken
  scanPosition : Nat
  last : Nat

inductive ReplayStage
  | checking
  | reading
  | received (result : EventLogReadResult)
  | entries (page : ReplayPage)
  | delivering (page : ReplayPage) (entry : EventLogEntry) (stage : DeliveryStage)
  | storing (page : ReplayPage) (cursor : ProgressToken)
  | turning (page : ReplayPage)

structure Replay where
  frozen : ProgressToken
  frozenPosition : Nat
  readCursor : ProgressToken
  readPosition : Nat
  stage : ReplayStage := .checking

inductive EoseStage
  | checking
  | sending
  | opening

inductive SubscribeTask
  | validating
  | installing
  | displacing (displaced : Option Nat)
  | inserting
  | bounding
  | anchoring
  | replaying (replay : Replay)
  | eosing (frozen : ProgressToken) (stage : EoseStage)
  | following (frozen : ProgressToken)
  | starting
  | failing (error : EventLogError)
  | unregistering (error : EventLogError)
  | returned (error : Option EventLogError)

structure DrainPage where
  rest : List EventLogEntry
  scan : ProgressToken
  drained : Bool

inductive DrainTask
  | checking (cursor : Option ProgressToken)
  | reading (cursor : Option ProgressToken)
  | entries (page : DrainPage)
  | delivering (page : DrainPage) (entry : EventLogEntry) (stage : DeliveryStage)
  | storing (page : DrainPage) (cursor : ProgressToken)
  | turning (page : DrainPage)
  | settling
  | gap (info : ProgressGapInfo)
  | gapSending (info : ProgressGapInfo)
  | gapClosing
  | gapUnregistering
  | gapEnding

/-! ## Subscriptions -/

inductive SubscriptionPhase
  | replay
  | live
  | closed
  deriving DecidableEq

structure EventLogSubscribeOptions where
  cursor : Option ProgressToken := none
  filters : Option Filters := none

/-- A subscription with its mutable state, the tasks that work for it and what its listener has been
told. `waking` counts the wakes that are about to start a drain. -/
structure Subscription where
  id : String
  tenant : Did
  resume : Option ProgressToken
  filters : Option Filters
  cursor : Option ProgressToken
  phase : SubscriptionPhase := .replay
  draining : Bool := false
  redrainRequested : Bool := false
  terminalErrorSent : Bool := false
  task : SubscribeTask := .validating
  drain : Option DrainTask := none
  waking : Nat := 0
  heard : List SubscriptionMessage := []

namespace Subscription

def made (tenant : Did) (id : String) (options : EventLogSubscribeOptions) : Subscription where
  id := id
  tenant := tenant
  resume := options.cursor
  filters := options.filters
  cursor := options.cursor

def isClosed (sub : Subscription) : Bool := sub.phase = .closed

def cleanup (sub : Subscription) : Subscription :=
  { sub with phase := .closed, redrainRequested := false }

def requestDrain (sub : Subscription) : Subscription :=
  if sub.isClosed || sub.terminalErrorSent then sub
  else { sub with
    redrainRequested := true
    waking := if sub.phase = .live then sub.waking + 1 else sub.waking }

def tryStartDrain (sub : Subscription) : Subscription :=
  if sub.phase ≠ .live || sub.draining || sub.terminalErrorSent then sub
  else { sub with
    draining := true
    redrainRequested := false
    drain := some (.checking sub.cursor) }

/-! ### Replay -/

def becameLive : EventLogError := .internal "subscription became live during replay"

def phaseChanged : EventLogError :=
  .internal "subscription phase changed unexpectedly during replay"

def replayPage (replay : Replay) (result : EventLogReadResult) : Except EventLogError ReplayPage := do
  let scan ← okOr (.internal "feed reader returned no replay scan cursor") result.cursor
  ensure (scan.streamId = replay.frozen.streamId)
    (.internal "replay scan cursor stream does not match frozen cursor")
  ensure (scan.epoch = replay.frozen.epoch)
    (.internal "replay scan cursor epoch does not match frozen cursor")
  let scanPosition ← parseFeedPosition scan.position
  ensure (¬ (scanPosition < replay.frozenPosition ∧ scanPosition ≤ replay.readPosition))
    (.internal "replay scan cursor did not advance toward frozen cursor")
  return ⟨result.events, scan, scanPosition, replay.readPosition⟩

def endPage (replay : Replay) (page : ReplayPage) : SubscribeTask :=
  if replay.frozenPosition ≤ page.scanPosition then .eosing replay.frozen .checking
  else .replaying { replay with stage := .turning page }

def nextEntry (replay : Replay) (page : ReplayPage) (entry : EventLogEntry)
    (rest : List EventLogEntry) : SubscribeTask :=
  match parseFeedPosition entry.seq with
  | .error error => .failing error
  | .ok position =>
      if position ≤ page.last then
        .failing (.internal "replay entries are not in strictly increasing position order")
      else if replay.frozenPosition < position then endPage replay { page with rest, last := position }
      else .replaying { replay with
        stage := .delivering { page with rest, last := position } entry .entered }

section

variable {Feed : Type} (reader : FeedReader Feed) (readLimit : Nat) (feed : Feed) (outside : Outside)
  (sub : Subscription)

def read (options : EventLogReadOptions) : Except EventLogError EventLogReadResult :=
  outside.meets (reader.logRead feed sub.tenant options)

def replayStep (replay : Replay) : Subscription :=
  match replay.stage with
  | .checking => { sub with
      task := if sub.isClosed then .returned none else .replaying { replay with stage := .reading } }
  | .reading =>
      match sub.read reader feed outside
          ⟨some replay.readCursor, some (max readLimit 1), sub.filters⟩ with
      | .error error => { sub with task := .failing error }
      | .ok result => { sub with task := .replaying { replay with stage := .received result } }
  | .received result =>
      if sub.isClosed then { sub with task := .returned none }
      else match replayPage replay result with
        | .error error => { sub with task := .failing error }
        | .ok page => { sub with task := .replaying { replay with stage := .entries page } }
  | .entries page =>
      match page.rest with
      | [] => { sub with task := endPage replay page }
      | entry :: rest => { sub with
          task := if sub.isClosed then .returned none else nextEntry replay page entry rest }
  | .delivering page entry stage =>
      match deliverEntry sub.isClosed outside entry page.scan stage with
      | .error error => { sub with task := .failing error }
      | .ok (.inl later) => { sub with
          task := .replaying { replay with stage := .delivering page entry later } }
      | .ok (.inr cursor) => { sub with
          heard := sub.heard ++ stage.says entry page.scan
          task := .replaying { replay with stage := .storing page cursor } }
  | .storing page cursor =>
      match sub.phase with
      | .replay => { sub with
          cursor := some cursor, task := .replaying { replay with stage := .entries page } }
      | .closed => { sub with task := .returned none }
      | .live => { sub with task := .failing becameLive }
  | .turning page =>
      match sub.phase with
      | .replay => { sub with
          cursor := some page.scan
          task := .replaying { replay with
            readCursor := page.scan, readPosition := page.scanPosition, stage := .checking } }
      | .closed => { sub with task := .returned none }
      | .live => { sub with task := .failing becameLive }

/-! ### Subscribe -/

def invalidPosition (which : String) (error : EventLogError) : EventLogError :=
  match error with
  | .invalidProgressToken position => .invalidProgressToken
      ("invalid " ++ which ++ " position: invalid progress token position: " ++ position)
  | other => other

def frozenGap (cursor frozen : ProgressToken) (bounds : Option ReplicationBounds)
    (reason : ProgressGapReason) : EventLogError :=
  .progressGap ⟨cursor, (bounds.map (·.1)).getD frozen, frozen, reason⟩

def checkFrozen (frozen : ProgressToken) (bounds : Option ReplicationBounds)
    (cursor : Option ProgressToken) : Except EventLogError Unit := do
  let frozenPosition ← (parseFeedPosition frozen.position).mapError (invalidPosition "frozen cursor")
  match cursor with
  | none => return ()
  | some cursor => do
      let position ← (parseFeedPosition cursor.position).mapError (invalidPosition "cursor")
      ensure (cursor.epoch = frozen.epoch) (frozenGap cursor frozen bounds .epochMismatch)
      ensure (cursor.streamId = frozen.streamId) (frozenGap cursor frozen bounds .streamMismatch)
      ensure (position ≤ frozenPosition) (frozenGap cursor frozen bounds .tokenTooNew)

def startReplay (requested frozen : ProgressToken) : Except EventLogError SubscribeTask := do
  let readPosition ← parseFeedPosition requested.position
  let frozenPosition ← parseFeedPosition frozen.position
  ensure (readPosition ≤ frozenPosition)
    (.internal "validated replay cursor is ahead of the frozen cursor")
  return if readPosition = frozenPosition then .eosing frozen .checking
    else .replaying
      { frozen, frozenPosition, readCursor := requested, readPosition }

def freeze (frozen : ProgressToken) (bounds : Option ReplicationBounds) : SubscribeTask :=
  match (do
    checkFrozen frozen bounds sub.resume
    match sub.resume with
    | some requested => startReplay requested frozen
    | none => return .following frozen) with
  | .error error => .failing error
  | .ok task => task

def eoseStep (frozen : ProgressToken) : EoseStage → Subscription
  | .checking =>
      match sub.phase with
      | .closed => { sub with task := .returned none }
      | .live => { sub with task := .failing phaseChanged }
      | .replay => { sub with cursor := some frozen, task := .eosing frozen .sending }
  | .sending => { sub with heard := sub.heard ++ [.eose frozen], task := .eosing frozen .opening }
  | .opening =>
      match sub.phase with
      | .closed => { sub with task := .returned none }
      | .live => { sub with task := .failing phaseChanged }
      | .replay => { sub with
          cursor := some frozen, phase := .live
          task := if sub.redrainRequested then .starting else .returned none }

def subscribeStep : Subscription :=
  match sub.task with
  | .validating =>
      match sub.resume with
      | none => { sub with task := .installing }
      | some cursor =>
          match sub.read reader feed outside ⟨some cursor, some 0, sub.filters⟩ with
          | .error error => { sub with task := .returned (some error) }
          | .ok _ => { sub with task := .installing }
  | .bounding =>
      match outside.meets (.ok (reader.logBounds feed sub.tenant)) with
      | .error error => { sub with task := .failing error }
      | .ok none => { sub with task := .anchoring }
      | .ok (some bounds) => { sub with task := sub.freeze bounds.2 (some bounds) }
  | .anchoring =>
      match sub.read reader feed outside ⟨none, some 0, none⟩ with
      | .error error => { sub with task := .failing error }
      | .ok result =>
          match result.cursor with
          | none => { sub with
              task := .failing (.internal "feed reader returned no empty-feed anchor") }
          | some anchor => { sub with task := sub.freeze anchor none }
  | .replaying replay => sub.replayStep reader readLimit feed outside replay
  | .eosing frozen stage => sub.eoseStep frozen stage
  | .following frozen =>
      if sub.isClosed then { sub with cursor := some frozen, task := .returned none }
      else { sub with
        cursor := some frozen, phase := .live
        task := if sub.redrainRequested then .starting else .returned none }
  | .starting => { sub.tryStartDrain with task := .returned none }
  | .failing error => { sub.cleanup with task := .unregistering error }
  | _ => sub

/-! ### Drains -/

def drainFailed : EventLogError → DrainTask
  | .progressGap info => .gap info
  | _ => .settling

def drainStep (drain : DrainTask) : Subscription :=
  match drain with
  | .checking cursor => { sub with
      drain := some (if sub.isClosed then .settling else .reading cursor) }
  | .reading cursor =>
      match (do
        let result ← sub.read reader feed outside ⟨cursor, some (max readLimit 1), sub.filters⟩
        let scan ← okOr (.internal "feed reader returned no live-drain scan cursor") result.cursor
        return DrainPage.mk result.events scan result.drained) with
      | .error error => { sub with drain := some (drainFailed error) }
      | .ok page => { sub with drain := some (.entries page) }
  | .entries page =>
      match page.rest with
      | [] => { sub with drain := some (.turning page) }
      | entry :: rest => { sub with
          drain := some (if sub.isClosed then .settling
            else .delivering { page with rest } entry .entered) }
  | .delivering page entry stage =>
      match deliverEntry sub.isClosed outside entry page.scan stage with
      | .error error => { sub with drain := some (drainFailed error) }
      | .ok (.inl later) => { sub with drain := some (.delivering page entry later) }
      | .ok (.inr cursor) => { sub with
          heard := sub.heard ++ stage.says entry page.scan, drain := some (.storing page cursor) }
  | .storing page cursor =>
      if sub.isClosed then { sub with drain := some .settling }
      else { sub with cursor := some cursor, drain := some (.entries page) }
  | .turning page =>
      if sub.isClosed then { sub with drain := some .settling }
      else { sub with
        cursor := some page.scan
        drain := some (if page.drained then .settling else .checking (some page.scan)) }
  | .settling =>
      if sub.phase = .live && sub.redrainRequested then
        { sub with redrainRequested := false, drain := some (.checking sub.cursor) }
      else { sub with draining := false, drain := none }
  | .gap info =>
      if sub.isClosed || sub.terminalErrorSent then { sub with drain := some .gapClosing }
      else { sub with terminalErrorSent := true, drain := some (.gapSending info) }
  | .gapSending info => { sub with
      heard := sub.heard ++ [.error info.requested ⟨.progressGap, .progressGap info⟩]
      drain := some .gapClosing }
  | .gapClosing => { sub.cleanup with drain := some .gapUnregistering }
  | .gapUnregistering => { sub with drain := some .gapEnding }
  | .gapEnding => { sub with draining := false, drain := none }

end

end Subscription

/-! ## The event log -/

/-- Subscriptions have a name of their own, as they may share an id. `installing` names the holder of
the installation gate. -/
structure DurableEventLog (Feed : Type) where
  feed : Feed
  closed : Bool := false
  subscriptions : Nat → Option Subscription := fun _ => none
  registry : List (String × Nat) := []
  installing : Option Nat := none

inductive EventLogEvent (Feed : Type)
  | commit (feed : Feed)
  | subscribe (name : Nat) (tenant : Did) (id : String) (options : EventLogSubscribeOptions)
  | advance (name : Nat) (outside : Outside)
  | drain (name : Nat) (outside : Outside)
  | wake (name : Nat)
  | start (name : Nat)
  | close (name : Nat)
  | unregister (name : Nat)
  | shut

namespace DurableEventLog

variable {Feed : Type} (reader : FeedReader Feed) (readLimit : Nat) (log : DurableEventLog Feed)

def put (name : Nat) (sub : Subscription) : DurableEventLog Feed :=
  { log with subscriptions := Function.update log.subscriptions name (some sub) }

def change (name : Nat) (update : Subscription → Subscription) : DurableEventLog Feed :=
  match log.subscriptions name with
  | none => log
  | some sub => log.put name (update sub)

/-- `cleanup_subscription` at the registry. -/
def unregister (name : Nat) (sub : Subscription) : DurableEventLog Feed :=
  if log.registry.lookup sub.id = some name then
    { log with registry := assocErase sub.id log.registry }
  else log

/-- The next step of `subscribe`; the installation is the part that works on the registry. -/
def advance (outside : Outside) (name : Nat) (sub : Subscription) : DurableEventLog Feed :=
  match sub.task with
  | .installing =>
      if log.installing.isSome then log
      else if log.closed then log.put name { sub with task := .returned (some .closed) }
      else
        { log.put name { sub with task := .displacing (log.registry.lookup sub.id) } with
          installing := some name
          registry := assocErase sub.id log.registry }
  | .displacing displaced =>
      let cleaned := match displaced with
        | some other => log.change other Subscription.cleanup
        | none => log
      cleaned.put name { sub with task := .inserting }
  | .inserting =>
      { log.put name { sub with task := .bounding } with
        registry := assocInsert sub.id name log.registry
        installing := none }
  | .unregistering error =>
      (log.unregister name sub).put name { sub with task := .returned (some error) }
  | _ => log.put name (sub.subscribeStep reader readLimit log.feed outside)

def drainStep (outside : Outside) (name : Nat) (sub : Subscription) : DurableEventLog Feed :=
  match sub.drain with
  | none => log
  | some .gapUnregistering =>
      (log.unregister name sub).put name
        (sub.drainStep reader readLimit log.feed outside .gapUnregistering)
  | some drain => log.put name (sub.drainStep reader readLimit log.feed outside drain)

/-- The second half of `request_drain`. -/
def startDrain (sub : Subscription) : Subscription :=
  if sub.waking = 0 then sub else { sub.tryStartDrain with waking := sub.waking - 1 }

def step : EventLogEvent Feed → DurableEventLog Feed
  | .commit feed => { log with feed }
  | .subscribe name tenant id options =>
      if log.closed || (log.subscriptions name).isSome then log
      else log.put name (.made tenant id options)
  | .advance name outside =>
      match log.subscriptions name with
      | none => log
      | some sub => log.advance reader readLimit outside name sub
  | .drain name outside =>
      match log.subscriptions name with
      | none => log
      | some sub => log.drainStep reader readLimit outside name sub
  | .wake name => log.change name Subscription.requestDrain
  | .start name => log.change name startDrain
  | .close name => log.change name Subscription.cleanup
  | .unregister name =>
      match log.subscriptions name with
      | none => log
      | some sub => if sub.isClosed then log.unregister name sub else log
  | .shut => { log with closed := true }

end DurableEventLog

/-! ## The memory store as a feed reader -/

/-- A feed whose positions are `u64`. -/
abbrev MemoryFeed := { state : MemoryMessageState // ∀ tenant, state.head tenant < 2 ^ 64 }

def memoryFeedReader (p : Primitives) (deriveStreamId : Did → String) : FeedReader MemoryFeed where
  logRead feed := logRead p deriveStreamId feed.1
  logBounds feed := logBounds deriveStreamId feed.1

end Enbox
