import Enbox.Proof.Store.Fingerprint

/-! # Cursors and pages of the feed -/

namespace Enbox.Proof.Store

open Lib List Option

variable {contribution : Cid → Fingerprint} {streamId : Did → String} {after : MemoryMessageState}
  {tenant : Did} {token : ProgressToken} {entry : MemoryFeedEntry} {event : EventLogEntry}
  {cursor : Option ProgressToken} {start : Nat} {options : EventLogReadOptions}
  {result : EventLogReadResult} {events : List FeedEvent}

/-! ## Positions -/

theorem parseFeedPosition_ok {text : String} {position : Nat}
    (parsed : parseFeedPosition text = .ok position) :
    text = toString position ∧ position < 2 ^ 64 := by
  simp only [parseFeedPosition, ok_iff] at parsed
  obtain ⟨_, isNumber, _, canonical, rfl⟩ := parsed
  refine ⟨canonical.symm, ?_⟩
  simp only [parseU64, ite_none_right_eq_some, Option.some.injEq] at isNumber
  obtain ⟨⟨-, -, bounded⟩, rfl⟩ := isNumber
  exact bounded

theorem parseFeedPosition_toString {position : Nat} (bounded : position < 2 ^ 64) :
    parseFeedPosition (toString position) = .ok position := by
  have chars : (toString position).toList = Nat.toDigits 10 position := by
    rw [Nat.toString_eq_ofList_toDigits, String.toList_ofList]
  have digits : ∀ c ∈ Nat.toDigits 10 position, c.isDigit = true := fun c mem =>
    Nat.isDigit_of_mem_toDigits (by omega) (by omega) mem
  have noSign : unsigned (toString position) = Nat.toDigits 10 position := by
    unfold unsigned
    split
    · rename_i rest plus
      have sign := digits '+' (by rw [← chars, plus]; exact mem_cons_self)
      cases sign
    · exact chars
  have number : parseU64 (toString position) = some position := by
    simp only [parseU64, noSign, Nat.ofDigitChars_ten_toDigits]
    exact if_pos ⟨Nat.toDigits_ne_nil, all_eq_true.mpr digits, bounded⟩
  simp only [parseFeedPosition, ok_iff]
  exact ⟨position, number, (), rfl, rfl⟩

def cursorPosition (cursor : Option ProgressToken) : Nat :=
  (cursor.bind fun cursor => (parseFeedPosition cursor.position).toOption).getD 0

section

variable {p : Primitives} {state : MemoryMessageState} {position : Nat}

structure Resumes (streamId : Did → String) (state : MemoryMessageState) (tenant : Did)
    (token : ProgressToken) (position : Nat) : Prop where
  stream : token.streamId = streamId tenant
  epoch : token.epoch = state.epoch
  parsed : parseFeedPosition token.position = .ok position
  within : position ≤ state.head tenant
  message : ∀ expected, token.messageCid = some expected →
    ∀ entry, state.entries.lookup (tenant, position) = some entry → expected = entry.messageCid

theorem validateFeedCursor_ok_iff :
    validateFeedCursor token (cursorState streamId state tenant token) = .ok position ↔
      Resumes streamId state tenant token position := by
  simp only [validateFeedCursor, ok_iff]
  simp only [cursorState, Nat.zero_le, mem_def, map_eq_some_iff]
  constructor
  · rintro ⟨_, stream, _, epoch, _, parsed, _, within, _, -, _, message, rfl⟩
    rw [parsed] at message
    exact ⟨stream, epoch, parsed, within,
      fun expected isExpected entry found => message expected isExpected _ ⟨entry, found, rfl⟩⟩
  · intro resumes
    refine ⟨(), resumes.stream, (), resumes.epoch, position, resumes.parsed, (), resumes.within, (),
      trivial, (), ?_, rfl⟩
    rintro expected isExpected _ ⟨entry, found, rfl⟩
    rw [resumes.parsed] at found
    exact resumes.message expected isExpected entry found

theorem Resumes.cursorPosition_eq (resumes : Resumes streamId state tenant token position) :
    cursorPosition (some token) = position := by
  simp [cursorPosition, resumes.parsed, Except.toOption]

theorem resumes_buildToken {messageCid : Option Cid} (within : position ≤ state.head tenant)
    (bounded : state.head tenant < 2 ^ 64)
    (message : ∀ expected, messageCid = some expected →
      ∀ entry, state.entries.lookup (tenant, position) = some entry →
      expected = entry.messageCid) :
    Resumes streamId state tenant (buildToken streamId tenant state.epoch position messageCid)
      position :=
  ⟨rfl, rfl, parseFeedPosition_toString (by omega), within, message⟩

structure Stable (tenant : Did) (before after : MemoryMessageState) : Prop where
  epoch : after.epoch = before.epoch
  head : before.head tenant ≤ after.head tenant
  entries : ∀ position entry, position ≤ before.head tenant →
    after.entries.lookup (tenant, position) = some entry →
    ∃ old, before.entries.lookup (tenant, position) = some old ∧ old.messageCid = entry.messageCid

theorem Stable.refl (tenant : Did) (state : MemoryMessageState) : Stable tenant state state :=
  ⟨rfl, le_rfl, fun _ entry _ found => ⟨entry, found, rfl⟩⟩

theorem Stable.trans {a b c : MemoryMessageState} (first : Stable tenant a b)
    (second : Stable tenant b c) : Stable tenant a c := by
  refine ⟨second.epoch.trans first.epoch, first.head.trans second.head,
    fun position entry within found => ?_⟩
  obtain ⟨middle, isMiddle, sameCid⟩ :=
    second.entries position entry (within.trans first.head) found
  obtain ⟨old, isOld, sameCid'⟩ := first.entries position middle within isMiddle
  exact ⟨old, isOld, sameCid'.trans sameCid⟩

theorem Resumes.stable (resumes : Resumes streamId state tenant token position)
    (stable : Stable tenant state after) : Resumes streamId after tenant token position := by
  refine ⟨resumes.stream, resumes.epoch.trans stable.epoch.symm, resumes.parsed,
    resumes.within.trans stable.head, fun expected isExpected entry found => ?_⟩
  obtain ⟨old, isOld, sameCid⟩ := stable.entries position entry resumes.within found
  rw [resumes.message expected isExpected old isOld, sameCid]

theorem stable_put {actor : Did} {mutation : LatestStateMutation} {wake : Option Wake}
    (put : putMessageState p contribution state actor mutation = .ok (after, wake)) :
    Stable tenant state after := by
  have epoch : after.epoch = state.epoch := by cases puts_of_ok put <;> rfl
  rcases putMessageState_cases put with ⟨-, replaced⟩ | ⟨-, entry, appended⟩
  · refine ⟨epoch, ?_, fun position entry _ found => ?_⟩
    · rw [MemoryMessageState.head, MemoryMessageState.head, replaced.heads]
    · have same := replaced.entries (tenant, position)
      rw [found, map_some] at same
      exact map_eq_some_iff.mp same.symm
  · refine ⟨epoch, ?_, fun position found within isFound => ?_⟩
    · rw [appended.head]
      split
      · rename_i same
        rw [same]
        omega
      · exact le_rfl
    · rw [appended.entries, lookup_assocInsert, if_neg] at isFound
      · exact ⟨found, isFound, rfl⟩
      · intro same
        cases same
        omega

theorem stable_delete {actor : Did} {cid : Cid}
    (deleted : deleteMessageState contribution state actor cid = .ok after) :
    Stable tenant state after := by
  have removed := deleteMessageState_ok deleted
  refine ⟨by cases deletes_of_ok deleted <;> rfl, ?_, fun position entry _ found => ?_⟩
  · rw [MemoryMessageState.head, MemoryMessageState.head, removed.heads]
  · exact ⟨entry, ((removed.entries _ _).mp found).1, rfl⟩

theorem stable_step (tenant : Did) {event : FeedEvent} (lasts : FeedEvent.actor event ≠ none) :
    Stable tenant state (feedStep p contribution state event) := by
  obtain ⟨actor, isActor⟩ := ne_none_iff_exists'.mp lasts
  exact feedStep_relates (Stable.refl tenant) Stable.trans isActor stable_put stable_delete

def Bounded (state : MemoryMessageState) : Prop := ∀ tenant, state.head tenant < 2 ^ 64

theorem bounded_initial (epoch : String) : Bounded { epoch } := fun _ => Nat.two_pow_pos 64

theorem Bounded.step (bounded : Bounded state) (event : FeedEvent) :
    Bounded (feedStep p contribution state event) := by
  refine feedStep_invariant bounded_initial ?_ ?_ event bounded
  · intro actor state after mutation wake bounded put tenant
    cases puts_of_ok put with
    | stored notFeed => exact bounded tenant
    | replaced isFeed position entry positioned isEntry unchanged => exact bounded tenant
    | appended isFeed unpositioned within =>
      change ((assocInsert actor _ _).lookup tenant).getD 0 < _
      rw [lookup_assocInsert]
      split
      · exact within
      · exact bounded tenant
  · intro actor state after cid bounded deleted tenant
    rw [MemoryMessageState.head, (deleteMessageState_ok deleted).heads]
    exact bounded tenant

end

section

variable {p : Primitives} {state : MemoryMessageState} {filters : Option Filters} {maxEvents : Nat}

def eventAt (p : Primitives) (state : MemoryMessageState) (tenant : Did)
    (filters : Option Filters) (position : Nat) : Option EventLogEntry :=
  (state.entries.lookup (tenant, position)).bind fun entry =>
    if matchesOptionalFilters entry.indexes filters then
      (readEntry p state tenant position entry).toOption
    else none

def eventsIn (p : Primitives) (state : MemoryMessageState) (tenant : Did)
    (filters : Option Filters) (first last : Nat) : List EventLogEntry :=
  (List.range' (first + 1) (last - first)).filterMap (eventAt p state tenant filters)

theorem readEntry_ok {position : Nat} (read : readEntry p state tenant position entry = .ok event) :
    event.seq = toString position ∧ event.messageCid = some entry.messageCid := by
  simp only [readEntry, ok_iff] at read
  obtain ⟨row, -, _, sameCid, _, -, rfl⟩ := read
  exact ⟨rfl, congrArg some sameCid⟩

theorem eventAt_some {position : Nat}
    (delivered : eventAt p state tenant filters position = some event) :
    ∃ entry, state.entries.lookup (tenant, position) = some entry ∧
      event.seq = toString position ∧ event.messageCid = some entry.messageCid := by
  obtain ⟨entry, found, read⟩ := bind_eq_some_iff.mp delivered
  refine ⟨entry, found, ?_⟩
  split at read
  · cases result : readEntry p state tenant position entry with
    | error failure => rw [result] at read; cases read
    | ok event' =>
      rw [result] at read
      cases read
      exact readEntry_ok result
  · cases read

theorem scanFeed_ok (count : Nat) : ∀ {first last : Nat} {events delivered : List EventLogEntry},
    scanFeed p state tenant filters maxEvents (List.range' (first + 1) count) first events =
      .ok (last, delivered) →
    first ≤ last ∧ last ≤ first + count ∧ (0 < count → first < last) ∧
      delivered = events ++ eventsIn p state tenant filters first last := by
  induction count with
  | zero =>
    intro first last events delivered scanned
    cases scanned
    simp [eventsIn]
  | succ count ih =>
    intro first last events delivered scanned
    rw [range'_succ] at scanned
    -- The event at the first position, then those of the rest.
    have split : ∀ {last}, first + 1 ≤ last → eventsIn p state tenant filters first last =
        (eventAt p state tenant filters (first + 1)).toList ++
          eventsIn p state tenant filters (first + 1) last := by
      intro last bound
      have size : last - first = (last - (first + 1)) + 1 := by omega
      rw [eventsIn, size, range'_succ, filterMap_cons, eventsIn]
      cases eventAt p state tenant filters (first + 1) <;> rfl
    unfold scanFeed at scanned
    split at scanned
    · rename_i missing
      obtain ⟨lower, upper, -, rfl⟩ := ih scanned
      refine ⟨by omega, by omega, fun _ => by omega, ?_⟩
      rw [split lower, eventAt, missing]
      rfl
    · rename_i entry found
      split at scanned
      · rename_i filtered
        obtain ⟨lower, upper, -, rfl⟩ := ih scanned
        refine ⟨by omega, by omega, fun _ => by omega, ?_⟩
        have hidden : eventAt p state tenant filters (first + 1) = none := by
          rw [eventAt, found, bind_some, if_neg]
          simpa using filtered
        rw [split lower, hidden]
        rfl
      · rename_i passes
        simp only [bind_eq_ok] at scanned
        obtain ⟨event, read, rest⟩ := scanned
        have shown : eventAt p state tenant filters (first + 1) = some event := by
          rw [eventAt, found, bind_some, if_pos (by simpa using passes), read]
          rfl
        split at rest
        · cases rest
          refine ⟨by omega, by omega, fun _ => by omega, ?_⟩
          rw [split le_rfl, shown]
          simp [eventsIn]
        · obtain ⟨lower, upper, -, rfl⟩ := ih rest
          refine ⟨by omega, by omega, fun _ => by omega, ?_⟩
          rw [split lower, shown, append_assoc]
          rfl

section

variable (consistent : Consistent p contribution state)

include consistent

theorem Consistent.readEntry_succeeds {position : Nat}
    (found : state.entries.lookup (tenant, position) = some entry) :
    ∃ event, readEntry p state tenant position entry = .ok event := by
  obtain ⟨handed, coherent⟩ := consistent.coherent
  have positioned := (coherent.entry tenant position entry found).1
  obtain ⟨row, isRow, -⟩ := consistent.aligned.aligned _ _ _ _ positioned found
  obtain ⟨ofCid, ofMessage⟩ := consistent.aligned.addressed _ _ _ isRow
  simp only [readEntry, ok_iff]
  exact ⟨_, row, isRow, (), ofCid, (), ofMessage, rfl⟩

theorem Consistent.scanFeed_succeeds (positions : List Nat) :
    ∀ (last : Nat) (events : List EventLogEntry),
    ∃ result, scanFeed p state tenant filters maxEvents positions last events = .ok result := by
  induction positions with
  | nil => exact fun last events => ⟨(last, events), rfl⟩
  | cons position rest ih =>
    intro last events
    unfold scanFeed
    split
    · exact ih _ _
    · rename_i entry found
      split
      · exact ih _ _
      · obtain ⟨event, read⟩ := consistent.readEntry_succeeds found
        rw [read, ok_bind]
        split
        · exact ⟨_, rfl⟩
        · exact ih _ _

theorem Consistent.eventAt_of_entry {position : Nat}
    (found : state.entries.lookup (tenant, position) = some entry)
    (passes : matchesOptionalFilters entry.indexes filters = true) :
    ∃ event, eventAt p state tenant filters position = some event := by
  obtain ⟨event, read⟩ := consistent.readEntry_succeeds found
  exact ⟨event, by rw [eventAt, found, bind_some, if_pos passes, read]; rfl⟩

end

def StartsAt (streamId : Did → String) (state : MemoryMessageState) (tenant : Did)
    (cursor : Option ProgressToken) (start : Nat) : Prop :=
  cursorPosition cursor = start ∧ ∀ token, cursor = some token →
    Resumes streamId state tenant token start

theorem StartsAt.within (starts : StartsAt streamId state tenant cursor start) :
    start ≤ state.head tenant := by
  cases cursor with
  | none =>
    rw [← starts.1]
    exact Nat.zero_le _
  | some token => exact (starts.2 token rfl).within

theorem StartsAt.stable (starts : StartsAt streamId state tenant cursor start)
    (stable : Stable tenant state after) :
    StartsAt streamId after tenant cursor start :=
  ⟨starts.1, fun token given => (starts.2 token given).stable stable⟩

inductive Reads (p : Primitives) (streamId : Did → String) (state : MemoryMessageState)
    (tenant : Did) (options : EventLogReadOptions) (start : Nat) :
    Nat → EventLogReadResult → Prop
  | nothing (unread : state.head tenant = 0 ∨ options.limit = some 0) :
      Reads p streamId state tenant options start start
        ⟨[], some (options.cursor.getD (buildToken streamId tenant state.epoch start none)),
          state.head tenant ≤ start⟩
  | exhausted (atHead : start = state.head tenant) :
      Reads p streamId state tenant options start start
        ⟨[], some (buildToken streamId tenant state.epoch start none), true⟩
  | scanned (last : Nat) (messageCid : Option Cid) (lower : start < last)
      (upper : last ≤ state.head tenant)
      (message : ∀ expected, messageCid = some expected →
        ∀ entry, state.entries.lookup (tenant, last) = some entry → expected = entry.messageCid) :
      Reads p streamId state tenant options start last
        ⟨eventsIn p state tenant options.filters start last,
          some (buildToken streamId tenant state.epoch last messageCid),
          state.head tenant ≤ last⟩

theorem startsAt_of_validated {validated : Option Nat} (validates : (cursor.mapM fun cursor =>
      validateFeedCursor cursor (cursorState streamId state tenant cursor)) = .ok validated) :
    StartsAt streamId state tenant cursor (cursorPosition cursor) := by
  refine ⟨rfl, fun token given => ?_⟩
  subst given
  cases valid : validateFeedCursor token (cursorState streamId state tenant token) with
  | error failure =>
    rw [mapM_some, valid] at validates
    cases validates
  | ok position =>
    have resumes := validateFeedCursor_ok_iff.mp valid
    rwa [resumes.cursorPosition_eq]

theorem lastEvent_message {last : Nat} (bounded : last < 2 ^ 64) {events : List EventLogEntry}
    (delivered : events = eventsIn p state tenant filters start last) (expected : Cid)
    (token : (if last = (events.getLast?.map positionOfEvent).getD 0 then
      events.getLast?.bind (·.messageCid) else none) = some expected) (entry : MemoryFeedEntry)
    (found : state.entries.lookup (tenant, last) = some entry) : expected = entry.messageCid := by
  split at token
  · rename_i isLast
    obtain ⟨event, lastEvent, ofEvent⟩ := bind_eq_some_iff.mp token
    have mem : event ∈ eventsIn p state tenant filters start last := by
      rw [← delivered]
      exact mem_of_getLast? lastEvent
    obtain ⟨position, inRange, shown⟩ := mem_filterMap.mp mem
    obtain ⟨entry', found', seq, ofCid⟩ := eventAt_some shown
    have within := mem_range'_1.mp inRange
    have here : position = last := by
      rw [lastEvent, map_some, getD_some, positionOfEvent, seq,
        parseFeedPosition_toString (by omega)] at isLast
      exact isLast.symm
    subst here
    cases found.symm.trans found'
    rw [ofCid] at ofEvent
    exact (Option.some.inj ofEvent).symm
  · cases token

theorem reads_of_ok (bounded : Bounded state)
    (read : logRead p streamId state tenant options = .ok result) :
    StartsAt streamId state tenant options.cursor (cursorPosition options.cursor) ∧
      ∃ last, Reads p streamId state tenant options (cursorPosition options.cursor) last result := by
  simp only [logRead, ok_iff] at read
  obtain ⟨_, -, validated, validates, read⟩ := read
  have starts := startsAt_of_validated validates
  have within := starts.within
  refine ⟨starts, ?_⟩
  have start_eq : (options.cursor.bind fun cursor =>
      (parseFeedPosition cursor.position).toOption).getD 0 = cursorPosition options.cursor := rfl
  rw [start_eq] at read
  split at read
  · rename_i empty
    cases read
    have zero : cursorPosition options.cursor = 0 := by omega
    have nothing : Reads p streamId state tenant options (cursorPosition options.cursor) _ _ :=
      .nothing (Or.inl empty)
    rw [zero, empty] at nothing
    rw [zero]
    exact ⟨0, nothing⟩
  · rename_i nonempty
    split at read
    · rename_i noLimit
      cases read
      refine ⟨_, .nothing (Or.inr ?_)⟩
      cases limit : options.limit with
      | none => rw [limit] at noLimit; cases noLimit
      | some max => rw [limit] at noLimit; exact congrArg some noLimit
    · split at read
      · rename_i atHead
        cases read
        exact ⟨_, .exhausted atHead⟩
      · rename_i notAtHead
        rw [if_neg (by omega)] at read
        simp only [ok_iff] at read
        obtain ⟨⟨last, events⟩, scanned, rfl⟩ := read
        obtain ⟨-, upper, lower, delivered⟩ := scanFeed_ok _ scanned
        rw [nil_append] at delivered
        have belowHead : last ≤ state.head tenant := by omega
        have message := lastEvent_message (belowHead.trans_lt (bounded tenant)) delivered
        subst delivered
        exact ⟨last, .scanned last _ (lower (by omega)) belowHead message⟩

theorem Consistent.logRead_succeeds (consistent : Consistent p contribution state)
    (options : EventLogReadOptions) (starts : StartsAt streamId state tenant options.cursor start)
    (valid : options.filters.all hasValidSubtreeFilters = true) :
    ∃ result, logRead p streamId state tenant options = .ok result := by
  have validates : ∃ validated, (options.cursor.mapM fun cursor =>
      validateFeedCursor cursor (cursorState streamId state tenant cursor)) = .ok validated := by
    cases given : options.cursor with
    | none => exact ⟨none, rfl⟩
    | some token =>
      have accepted := validateFeedCursor_ok_iff.mpr (starts.2 token given)
      rw [mapM_some, accepted]
      exact ⟨some start, rfl⟩
  obtain ⟨validated, validates⟩ := validates
  rw [logRead, ensure_true valid, ok_bind, validates, ok_bind]
  dsimp only
  split
  · exact ⟨_, rfl⟩
  · split
    · exact ⟨_, rfl⟩
    · split
      · exact ⟨_, rfl⟩
      · split
        · exact ⟨_, rfl⟩
        · obtain ⟨result, scanned⟩ := consistent.scanFeed_succeeds _ _ _
          rw [scanned, ok_bind]
          exact ⟨_, rfl⟩

theorem Reads.resumes {last : Nat} (reads : Reads p streamId state tenant options start last result)
    (bounded : Bounded state) (starts : StartsAt streamId state tenant options.cursor start) :
    ∃ token, result.cursor = some token ∧ Resumes streamId state tenant token last := by
  cases reads with
  | nothing unread =>
    cases given : options.cursor with
    | none =>
      exact ⟨_, rfl,
        resumes_buildToken starts.within (bounded tenant) fun _ absent => by cases absent⟩
    | some token => exact ⟨token, rfl, starts.2 token given⟩
  | exhausted atHead =>
    exact ⟨_, rfl,
      resumes_buildToken starts.within (bounded tenant) fun _ absent => by cases absent⟩
  | scanned last messageCid lower upper message =>
    exact ⟨_, rfl, resumes_buildToken upper (bounded tenant) message⟩

theorem resumes_of_logBounds (bounded : Bounded state) {oldest latest : ProgressToken}
    (bounds : logBounds streamId state tenant = some (oldest, latest)) :
    Resumes streamId state tenant oldest 0 ∧
      Resumes streamId state tenant latest (state.head tenant) := by
  unfold logBounds at bounds
  split at bounds
  · cases bounds
  · cases bounds
    refine ⟨resumes_buildToken (Nat.zero_le _) (bounded tenant) ?_,
      resumes_buildToken le_rfl (bounded tenant) ?_⟩
    · intro _ absent
      cases absent
    · intro expected isExpected entry found
      rw [found] at isExpected
      exact (Option.some.inj isExpected).symm

end

/-! ## The lifetime of a token -/

structure EpochLog where
  state : MemoryMessageState
  epochs : List String

def EpochLog.record (p : Primitives) (contribution : Cid → Fingerprint) (log : EpochLog)
    (event : FeedEvent) : EpochLog where
  state := feedStep p contribution log.state event
  epochs :=
    match event with
    | .clear epoch => epoch :: log.epochs
    | _ => log.epochs

def FreshEpoch (log : EpochLog) : FeedEvent → Prop
  | .clear epoch => epoch ∉ log.epochs
  | _ => True

def Returned (p : Primitives) (streamId : Did → String) (state : MemoryMessageState) (tenant : Did)
    (token : ProgressToken) : Prop :=
  (∃ options result, logRead p streamId state tenant options = .ok result ∧
    result.cursor = some token) ∨
  ∃ oldest latest, logBounds streamId state tenant = some (oldest, latest) ∧
    (token = oldest ∨ token = latest)

section

variable {p : Primitives}

theorem Returned.resumes {state : MemoryMessageState} (bounded : Bounded state)
    (returned : Returned p streamId state tenant token) :
    ∃ position, Resumes streamId state tenant token position := by
  rcases returned with ⟨options, result, read, isToken⟩ | ⟨oldest, latest, bounds, isToken⟩
  · obtain ⟨starts, last, reads⟩ := reads_of_ok bounded read
    obtain ⟨token', isToken', resumes⟩ := reads.resumes bounded starts
    cases isToken.symm.trans isToken'
    exact ⟨last, resumes⟩
  · obtain ⟨first, second⟩ := resumes_of_logBounds bounded bounds
    rcases isToken with rfl | rfl
    · exact ⟨0, first⟩
    · exact ⟨_, second⟩

theorem validateFeedCursor_of_other_epoch {state : MemoryMessageState}
    (stream : token.streamId = streamId tenant) (other : token.epoch ≠ state.epoch) :
    ∃ info, validateFeedCursor token (cursorState streamId state tenant token) =
      .error (.progressGap info) ∧ info.reason = .epochMismatch := by
  have sameStream : token.streamId = (cursorState streamId state tenant token).expectedStreamId :=
    stream
  have otherEpoch : ¬ token.epoch = (cursorState streamId state tenant token).expectedEpoch := other
  rw [validateFeedCursor, ensure_true sameStream, ok_bind, ensure, if_neg otherEpoch]
  exact ⟨_, rfl, rfl⟩

theorem resumes_while_epoch_lasts {position : Nat} :
    ∀ {log : EpochLog}, Resumes streamId log.state tenant token position →
      (∀ event ∈ events, FeedEvent.actor event ≠ none) →
      Resumes streamId (events.foldl (EpochLog.record p contribution) log).state tenant token
        position := by
  induction events with
  | nil => exact fun resumes _ => resumes
  | cons event rest ih =>
    intro log resumes lasts
    obtain ⟨first, others⟩ := forall_mem_cons.mp lasts
    exact @ih (log.record p contribution event) (resumes.stable (stable_step tenant first)) others

theorem EpochLog.record_of_lasts (p : Primitives) (contribution : Cid → Fingerprint)
    (log : EpochLog) {event : FeedEvent} (lasts : FeedEvent.actor event ≠ none) :
    (log.record p contribution event).state.epoch = log.state.epoch ∧
      (log.record p contribution event).epochs = log.epochs := by
  refine ⟨(stable_step "" lasts).epoch, ?_⟩
  cases event with
  | clear drawn => exact absurd rfl lasts
  | _ => rfl

theorem epoch_after_clear {epoch : String} :
    ∀ {log : EpochLog}, epoch ∈ log.epochs →
      (log.state.epoch ≠ epoch ∨ ∃ event ∈ events, FeedEvent.actor event = none) →
      AllowedAlong (EpochLog.record p contribution) FreshEpoch log events →
      (events.foldl (EpochLog.record p contribution) log).state.epoch ≠ epoch := by
  induction events with
  | nil =>
    intro log used replaced _
    exact replaced.resolve_right fun ⟨_, listed, _⟩ => absurd listed not_mem_nil
  | cons event rest ih =>
    intro log used replaced ⟨fresh, along⟩
    cases isClear : FeedEvent.actor event with
    | none =>
      cases event with
      | clear drawn =>
        refine ih (mem_cons_of_mem _ used) (.inl fun same => fresh ?_) along
        change drawn = epoch at same
        rwa [same]
      | _ => cases isClear
    | some actor =>
      have lasts : FeedEvent.actor event ≠ none := by simp [isClear]
      obtain ⟨sameEpoch, sameEpochs⟩ := log.record_of_lasts p contribution lasts
      refine ih (sameEpochs ▸ used) ?_ along
      rcases replaced with other | ⟨clear, listed, isNone⟩
      · exact .inl (sameEpoch ▸ other)
      · rcases mem_cons.mp listed with rfl | later
        · exact absurd isNone lasts
        · exact .inr ⟨clear, later, isNone⟩

theorem bounded_and_used {epoch : String} {log : EpochLog}
    (reached : Reaches (EpochLog.record p contribution) FreshEpoch ⟨{ epoch }, [epoch]⟩ log) :
    Bounded log.state ∧ log.state.epoch ∈ log.epochs := by
  refine reached.invariant (P := fun log => Bounded log.state ∧ log.state.epoch ∈ log.epochs)
    ⟨bounded_initial epoch, mem_cons_self⟩ ?_
  rintro log event ⟨bounded, used⟩ -
  refine ⟨bounded.step event, ?_⟩
  cases isClear : FeedEvent.actor event with
  | none =>
    cases event with
    | clear drawn => exact mem_cons_self
    | _ => cases isClear
  | some actor =>
    have lasts : FeedEvent.actor event ≠ none := by simp [isClear]
    obtain ⟨sameEpoch, sameEpochs⟩ := log.record_of_lasts p contribution lasts
    rwa [sameEpoch, sameEpochs]

end

/-- A token is accepted as long as no clear follows, whatever is put, committed and deleted, and
rejected for its epoch after one. -/
theorem token_lasts_for_its_epoch {p : Primitives} {contribution : Cid → Fingerprint}
    {streamId : Did → String} {tenant : Did} {epoch : String} {log : EpochLog}
    {token : ProgressToken} {events : List FeedEvent}
    (reached : Reaches (EpochLog.record p contribution) FreshEpoch ⟨{ epoch }, [epoch]⟩ log)
    (returned : Returned p streamId log.state tenant token)
    (later : AllowedAlong (EpochLog.record p contribution) FreshEpoch log events) :
    ((∀ event ∈ events, FeedEvent.actor event ≠ none) →
      ∃ position, validateFeedCursor token (cursorState streamId
        (events.foldl (EpochLog.record p contribution) log).state tenant token) = .ok position) ∧
    ((∃ event ∈ events, FeedEvent.actor event = none) →
      ∃ info, validateFeedCursor token (cursorState streamId
        (events.foldl (EpochLog.record p contribution) log).state tenant token) =
          .error (.progressGap info) ∧ info.reason = .epochMismatch) := by
  obtain ⟨bounded, used⟩ := bounded_and_used reached
  obtain ⟨position, resumes⟩ := returned.resumes bounded
  refine ⟨fun lasts => ⟨position, ?_⟩, fun cleared => ?_⟩
  · exact validateFeedCursor_ok_iff.mpr (resumes_while_epoch_lasts resumes lasts)
  · refine validateFeedCursor_of_other_epoch resumes.stream fun same => ?_
    rw [resumes.epoch] at same
    exact epoch_after_clear used (.inr cleared) later same.symm

section

open Run.Threads (p one two)

noncomputable def twoThreads : EpochLog :=
  [FeedEvent.put "did:ex:alice" ⟨one, threadIndexes⟩,
    FeedEvent.put "did:ex:alice" ⟨two, threadIndexes⟩].foldl
    (EpochLog.record p threadContribution) ⟨{ epoch := "1" }, ["1"]⟩

def secondThread : ProgressToken :=
  { streamId := "did:ex:alice", epoch := "1", position := "2", messageCid := some "m1" }

def deletion : FeedEvent := .delete "did:ex:alice" "m1"

theorem token_of_deleted_message :
    Returned p id twoThreads.state "did:ex:alice" secondThread ∧
    (∃ position, validateFeedCursor secondThread (cursorState id
      ([deletion].foldl (EpochLog.record p threadContribution) twoThreads).state "did:ex:alice"
      secondThread) = .ok position) ∧
    ∃ info, validateFeedCursor secondThread (cursorState id
      ([deletion, .clear "2"].foldl (EpochLog.record p threadContribution) twoThreads).state
      "did:ex:alice" secondThread) = .error (.progressGap info) ∧
        info.reason = .epochMismatch := by
  have reached : Reaches (EpochLog.record p threadContribution) FreshEpoch
      ⟨{ epoch := "1" }, ["1"]⟩ twoThreads := AllowedAlong.reaches ⟨trivial, trivial, trivial⟩
  have fresh : "2" ∉ twoThreads.epochs := by
    change "2" ∉ ["1"]
    decide
  refine ⟨?returned, (token_lasts_for_its_epoch reached ?returned ?_).1 ?_,
    (token_lasts_for_its_epoch reached ?returned ?_).2 ?_⟩
  · exact .inr ⟨_, _, rfl, .inr rfl⟩
  · exact ⟨trivial, trivial⟩
  · simp [deletion, FeedEvent.actor]
  · exact ⟨trivial, fresh, trivial⟩
  · exact ⟨.clear "2", by simp, rfl⟩

end

end Enbox.Proof.Store
