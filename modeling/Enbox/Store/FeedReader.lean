import Enbox.Store.Feed

/-! # Reading the replication feed -/

namespace Enbox

open Lib

structure EventLogReadOptions where
  cursor : Option ProgressToken := none
  limit : Option Nat := none
  filters : Option Filters := none
  deriving DecidableEq

/-- The `encodedData` of the message is detached from it. -/
structure EventLogEntry where
  seq : String
  message : Message
  indexes : Indexes
  messageCid : Option Cid
  encodedData : Option String
  deriving DecidableEq

structure EventLogReadResult where
  events : List EventLogEntry
  cursor : Option ProgressToken
  drained : Bool
  deriving DecidableEq

inductive ProgressGapReason
  | tokenTooOld
  | epochMismatch
  | streamMismatch
  | tokenTooNew
  | messageMismatch
  deriving DecidableEq

structure ProgressGapInfo where
  requested : ProgressToken
  oldestAvailable : ProgressToken
  latestAvailable : ProgressToken
  reason : ProgressGapReason
  deriving DecidableEq

inductive EventLogError
  | progressGap (info : ProgressGapInfo)
  | invalidProgressToken (position : String)
  | invalidSubtreeFilter
  | missingMessage (messageCid : Cid)
  | cidsMismatch (expected actual : Cid)
  | messageCidMismatch
  | closed
  | internal (detail : String)
  deriving DecidableEq

def hasValidSubtreeFilters (filters : Filters) : Bool :=
  filters.all fun set => set.all fun clause =>
    match clause.2 with
    | .subtree _ => clause.1 = .contextId || clause.1 = .protocolPath
    | _ => true

def matchesOptionalFilters (indexes : Indexes) (filters : Option Filters) : Bool :=
  filters.all (matchesFilters indexes)

/-- A leading `+` is allowed before the digits of a number. -/
def unsigned (text : String) : List Char :=
  match text.toList with
  | '+' :: digits => digits
  | digits => digits

/-- `str::parse::<u64>`. -/
def parseU64 (text : String) : Option Nat :=
  let digits := unsigned text
  if digits ≠ [] ∧ digits.all Char.isDigit ∧ Nat.ofDigitChars 10 digits 0 < 2 ^ 64 then
    some (Nat.ofDigitChars 10 digits 0)
  else none

def parseFeedPosition (position : String) : Except EventLogError Nat := do
  let parsed ← okOr (.invalidProgressToken position) (parseU64 position)
  ensure (toString parsed = position) (.invalidProgressToken position)
  return parsed

section

variable (p : Primitives) (deriveStreamId : Did → String)

variable (state : MemoryMessageState) (tenant : Did)

def buildToken (epoch : String) (seq : Nat) (messageCid : Option Cid) : ProgressToken where
  streamId := deriveStreamId tenant
  epoch := epoch
  position := toString seq
  messageCid := messageCid

abbrev ReplicationBounds := ProgressToken × ProgressToken

structure FeedCursorState where
  expectedStreamId : String
  expectedEpoch : String
  head : Nat
  oldestReplayable : Nat
  messageCidAtPosition : Option Cid
  bounds : Option ReplicationBounds

def progressGap (requested : ProgressToken) (bounds : Option ReplicationBounds)
    (reason : ProgressGapReason) : EventLogError :=
  let available := bounds.getD (requested, requested)
  .progressGap ⟨requested, available.1, available.2, reason⟩

def validateFeedCursor (cursor : ProgressToken) (state : FeedCursorState) :
    Except EventLogError Nat := do
  ensure (cursor.streamId = state.expectedStreamId)
    (progressGap cursor state.bounds .streamMismatch)
  ensure (cursor.epoch = state.expectedEpoch) (progressGap cursor state.bounds .epochMismatch)
  let position ← parseFeedPosition cursor.position
  ensure (position ≤ state.head) (progressGap cursor state.bounds .tokenTooNew)
  ensure (state.oldestReplayable ≤ position) (progressGap cursor state.bounds .tokenTooOld)
  ensure (∀ expected ∈ cursor.messageCid, ∀ actual ∈ state.messageCidAtPosition, expected = actual)
    (progressGap cursor state.bounds .messageMismatch)
  return position

def logBounds : Option ReplicationBounds :=
  if state.head tenant = 0 then none
  else some (buildToken deriveStreamId tenant state.epoch 0 none,
    buildToken deriveStreamId tenant state.epoch (state.head tenant)
      ((state.entries.lookup (tenant, state.head tenant)).map (·.messageCid)))

def cursorState (cursor : ProgressToken) : FeedCursorState where
  expectedStreamId := deriveStreamId tenant
  expectedEpoch := state.epoch
  head := state.head tenant
  oldestReplayable := 0
  messageCidAtPosition :=
    (state.entries.lookup (tenant, (parseFeedPosition cursor.position).toOption.getD 0)).map
      (·.messageCid)
  bounds := some ((logBounds deriveStreamId state tenant).getD
    (buildToken deriveStreamId tenant state.epoch 0 none,
      buildToken deriveStreamId tenant state.epoch 0 none))

def readEntry (position : Nat) (entry : MemoryFeedEntry) : Except EventLogError EventLogEntry := do
  let row ← okOr (.missingMessage entry.messageCid)
    (state.messages.lookup (tenant, entry.messageCid))
  ensure (row.cid = entry.messageCid) (.cidsMismatch entry.messageCid row.cid)
  ensure (p.messageCid row.message = entry.messageCid) .messageCidMismatch
  return ⟨toString position, row.message.withoutEncodedData, entry.indexes, some row.cid,
    row.message.fields.encodedData⟩

def scanFeed (state : MemoryMessageState) (tenant : Did) (filters : Option Filters)
    (maxEvents : Nat) : List Nat → Nat → List EventLogEntry →
    Except EventLogError (Nat × List EventLogEntry)
  | [], last, events => .ok (last, events)
  | position :: rest, _, events =>
    match state.entries.lookup (tenant, position) with
    | none => scanFeed state tenant filters maxEvents rest position events
    | some entry =>
      if !matchesOptionalFilters entry.indexes filters then
        scanFeed state tenant filters maxEvents rest position events
      else do
        let event ← readEntry p state tenant position entry
        if maxEvents ≤ (events ++ [event]).length then return (position, events ++ [event])
        else scanFeed state tenant filters maxEvents rest position (events ++ [event])

def positionOfEvent (event : EventLogEntry) : Nat := (parseFeedPosition event.seq).toOption.getD 0

def logRead (options : EventLogReadOptions) : Except EventLogError EventLogReadResult := do
  ensure (options.filters.all hasValidSubtreeFilters) .invalidSubtreeFilter
  let _ ← options.cursor.mapM fun cursor =>
    validateFeedCursor cursor (cursorState deriveStreamId state tenant cursor)
  let head := state.head tenant
  let token := buildToken deriveStreamId tenant state.epoch
  if head = 0 then
    return ⟨[], some (options.cursor.getD (token 0 none)), true⟩
  else
    let start := (options.cursor.bind fun cursor =>
      (parseFeedPosition cursor.position).toOption).getD 0
    let maxEvents := options.limit.getD (2 ^ 64 - 1)
    if maxEvents = 0 then
      return ⟨[], some (options.cursor.getD (token start none)), head ≤ start⟩
    else if start = head then
      return ⟨[], some (token start none), true⟩
    else if head < start then
      return ⟨[], options.cursor, true⟩
    else do
      let (last, events) ← scanFeed p state tenant options.filters maxEvents
        (List.range' (start + 1) (head - start)) start []
      let messageCid := if last = (events.getLast?.map positionOfEvent).getD 0
        then events.getLast?.bind (·.messageCid) else none
      return ⟨events, some (token last messageCid), head ≤ last⟩

end

def normalizeScopes (scopes : List String) : List String :=
  (scopes.insertionSort fun a b => compareText a b ≠ .gt).dedup

def MemoryMessageState.fingerprint (state : MemoryMessageState) (tenant : Did)
    (scopes : List String) : Fingerprint :=
  (normalizeScopes scopes).foldl (fun fingerprint scope =>
    fingerprint ^^^ (state.fingerprints.lookup (tenant, scope)).getD 0) 0

end Enbox
