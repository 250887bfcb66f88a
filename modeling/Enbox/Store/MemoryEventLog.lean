import Enbox.Store.Subscription

/-!
# The memory event log

The log of one tenant: the logs of different tenants do not meet. The initial write that an event may
carry is left out.
-/

namespace Enbox

open Lib

structure StoredEvent where
  message : Message
  indexes : Indexes
  messageCid : Cid

/-- In the order of the keys, which are `u64`. -/
structure TenantLog where
  seq : Nat := 0
  log : List (Nat × StoredEvent) := []

inductive EventLogTrimBound
  | sequence (sequence : Nat)
  | timestamp (timestamp : String)

def EventLogTrimBound.keeps : EventLogTrimBound → Nat × StoredEvent → Bool
  | .sequence first, stored => first ≤ stored.1
  | .timestamp time, stored =>
      (stringIndex stored.2.indexes .messageTimestamp).all (compareText · time ≠ .lt)

namespace TenantLog

def entryOf (stored : Nat × StoredEvent) : EventLogEntry :=
  ⟨toString stored.1, stored.2.message, stored.2.indexes, some stored.2.messageCid, none⟩

def shows (after : Option Nat) (filters : Option Filters) (stored : Nat × StoredEvent) : Bool :=
  after.all (· < stored.1) && matchesOptionalFilters stored.2.indexes filters

/-- An event is taken before the limit is looked at. -/
def scan (wanted : Nat × StoredEvent → Bool) (limit : Nat) :
    List (Nat × StoredEvent) → List (Nat × StoredEvent) → List (Nat × StoredEvent) × Bool
  | [], events => (events, true)
  | stored :: rest, events =>
      if !wanted stored then scan wanted limit rest events
      else if limit ≤ (events ++ [stored]).length then (events ++ [stored], false)
      else scan wanted limit rest (events ++ [stored])

variable (deriveStreamId : Did → String) (tenant : Did) (epoch : String) (state : TenantLog)

/-- The sum wraps around, as it does where overflow is not checked. -/
def nextSeq : Nat := (state.seq + 1) % 2 ^ 64

def emit (maxEventsPerTenant : Nat) (event : StoredEvent) : TenantLog :=
  let log := state.log.filter (·.1 < state.nextSeq) ++
    (state.nextSeq, event) :: state.log.filter (state.nextSeq < ·.1)
  ⟨state.nextSeq, log.drop (log.length - maxEventsPerTenant)⟩

def trim (bound : EventLogTrimBound) : TenantLog :=
  { state with log := state.log.filter bound.keeps }

def tokenOf (stored : Nat × StoredEvent) : ProgressToken :=
  buildToken deriveStreamId tenant epoch stored.1 (some stored.2.messageCid)

def gapFromLog (cursor : ProgressToken) : ProgressGapReason → EventLogError :=
  progressGap cursor do
    let oldest ← state.log.head?
    let latest ← state.log.getLast?
    return (tokenOf deriveStreamId tenant epoch oldest, tokenOf deriveStreamId tenant epoch latest)

def validateCursor (cursor : ProgressToken) : Except EventLogError Nat := do
  let gap := gapFromLog deriveStreamId tenant epoch state cursor
  ensure (cursor.streamId = deriveStreamId tenant) (gap .streamMismatch)
  ensure (cursor.epoch = epoch) (gap .epochMismatch)
  let seq ← (parseFeedPosition cursor.position).mapError fun _ =>
    .internal ("invalid cursor position: " ++ cursor.position)
  ensure (∀ oldest ∈ state.log.head?, oldest.1 - 1 ≤ seq) (gap .tokenTooOld)
  return seq

def readAfter (options : EventLogReadOptions) (after : Option Nat) : EventLogReadResult :=
  let (events, drained) := scan (shows after options.filters) (options.limit.getD (2 ^ 64 - 1))
    state.log []
  ⟨events.map entryOf,
    (events.getLast?.map (tokenOf deriveStreamId tenant epoch)).or options.cursor, drained⟩

/-- The log is not locked between the check of the cursor and the scan. -/
def read (scanned : TenantLog) (options : EventLogReadOptions) :
    Except EventLogError EventLogReadResult := do
  let after ← options.cursor.mapM (validateCursor deriveStreamId tenant epoch state)
  return readAfter deriveStreamId tenant epoch scanned options after

def told (entry : EventLogEntry) : SubscriptionMessage :=
  .event ⟨deriveStreamId tenant, epoch, entry.seq, entry.messageCid⟩ ⟨entry.message, none⟩
    (some entry.seq) entry.messageCid none none none

end TenantLog

/-! ## Subscriptions with a cursor -/

inductive SubscribeStage
  | validating
  | registering
  | reading
  | scanning (after : Nat)
  | telling (queue : List SubscriptionMessage)
  | refused (error : EventLogError)
  | failed (error : EventLogError)

/-- Emits owe the listener calls, which they make outside of the lock. -/
structure MemorySubscription where
  stage : SubscribeStage := .validating
  owed : List SubscriptionMessage := []
  heard : List SubscriptionMessage := []

namespace MemorySubscription

open TenantLog

variable (deriveStreamId : Did → String) (tenant : Did) (epoch : String) (cursor : ProgressToken)
  (filters : Option Filters) (sub : MemorySubscription)

/-- `subscribe`, from one access to the log or call of the listener to the next. -/
def advance (state : TenantLog) : MemorySubscription :=
  match sub.stage with
  | .validating => { sub with
      stage := match state.validateCursor deriveStreamId tenant epoch cursor with
        | .ok _ => .registering
        | .error error => .refused error }
  | .registering => { sub with stage := .reading }
  | .reading => { sub with
      stage := match state.validateCursor deriveStreamId tenant epoch cursor with
        | .ok after => .scanning after
        | .error error => .failed error }
  | .scanning after =>
      let result := state.readAfter deriveStreamId tenant epoch ⟨cursor, none, filters⟩ (some after)
      { sub with stage := .telling (result.events.map (told deriveStreamId tenant epoch) ++
          [.eose (result.cursor.getD cursor)]) }
  | .telling (message :: queue) =>
      { sub with stage := .telling queue, heard := sub.heard ++ [message] }
  | .telling [] | .refused _ | .failed _ => sub

def notify (stored : Nat × StoredEvent) : MemorySubscription :=
  match sub.stage with
  | .validating | .registering | .refused _ => sub
  | .reading | .scanning _ | .telling _ | .failed _ =>
      if matchesOptionalFilters stored.2.indexes filters then
        { sub with owed := sub.owed ++ [told deriveStreamId tenant epoch (entryOf stored)] }
      else sub

def deliver (index : Nat) : MemorySubscription :=
  match sub.owed[index]? with
  | none => sub
  | some message => { sub with owed := sub.owed.eraseIdx index, heard := sub.heard ++ [message] }

end MemorySubscription

end Enbox
