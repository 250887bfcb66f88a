import Enbox.Proof.EventLog.Delivery
import Enbox.Store.MemoryEventLog

/-! # Reads of the memory event log -/

namespace Enbox.Proof.EventLog

open Lib TenantLog List

section

variable {wanted : Nat × StoredEvent → Bool} {limit : Nat}

theorem scan_eq (log events : List (Nat × StoredEvent)) (room : events.length < limit) :
    scan wanted limit log events =
      (events ++ (log.filter wanted).take (limit - events.length),
        decide (events.length + (log.filter wanted).length < limit)) := by
  induction log generalizing events with
  | nil => simp [scan, room]
  | cons stored rest ih =>
    rw [scan]
    cases isWanted : wanted stored with
    | false =>
      rw [filter_cons_of_neg (by simp [isWanted])]
      exact ih events room
    | true =>
      obtain ⟨more, isMore⟩ : ∃ more, limit - events.length = more + 1 :=
        Nat.exists_eq_add_one.mpr (Nat.sub_pos_of_lt room)
      rw [filter_cons_of_pos isWanted, isMore, take_succ_cons]
      simp only [Bool.not_true, Bool.false_eq_true, if_false, length_append, length_cons,
        length_nil]
      split
      · obtain rfl : more = 0 := by omega
        simp
        omega
      · rw [ih _ (by simp; omega)]
        simp only [length_append, length_singleton, append_assoc,
          singleton_append, Prod.mk.injEq, decide_eq_decide]
        exact ⟨by congr 3; omega, by omega⟩

end

/-! ## What was emitted -/

/-- The log beside all that was ever emitted. -/
structure Recorded where
  state : TenantLog := {}
  emitted : List (Nat × StoredEvent) := []

inductive LogEvent
  | emit (event : StoredEvent)
  | trim (bound : EventLogTrimBound)

def Recorded.step (maxEvents : Nat) (recorded : Recorded) : LogEvent → Recorded
  | .emit event => ⟨recorded.state.emit maxEvents event,
      recorded.emitted ++ [(recorded.state.nextSeq, event)]⟩
  | .trim bound => { recorded with state := recorded.state.trim bound }

/-- A trim keeps the newest event, and what comes after an event that it keeps. -/
def KeepsTail (recorded : Recorded) : LogEvent → Prop
  | .emit _ => True
  | .trim bound => (∀ newest ∈ recorded.state.log.getLast?, bound.keeps newest = true) ∧
      recorded.state.log.Pairwise fun a b => bound.keeps a = true → bound.keeps b = true

structure Tail (recorded : Recorded) : Prop where
  suffix : recorded.state.log <:+ recorded.emitted
  last : recorded.state.log = [] → recorded.emitted = []
  sorted : recorded.emitted.Pairwise (·.1 < ·.1)
  bounded : ∀ stored ∈ recorded.emitted, stored.1 ≤ recorded.state.seq
  counted : recorded.state.seq = recorded.emitted.length

theorem tail_start : Tail {} := ⟨suffix_rfl, fun _ => rfl, .nil, by simp, rfl⟩

theorem nextSeq_eq {state : TenantLog} (fits : state.seq + 1 < 2 ^ 64) :
    state.nextSeq = state.seq + 1 :=
  Nat.mod_eq_of_lt fits

theorem emit_log {state : TenantLog} (fits : state.seq + 1 < 2 ^ 64)
    (bounded : ∀ stored ∈ state.log, stored.1 ≤ state.seq) (maxEvents : Nat) (event : StoredEvent) :
    (state.emit maxEvents event).log = (state.log ++ [(state.seq + 1, event)]).drop
      ((state.log ++ [(state.seq + 1, event)]).length - maxEvents) := by
  have before : state.log.filter (·.1 < state.seq + 1) = state.log :=
    filter_eq_self.mpr fun stored listed => by simpa using Nat.lt_succ_of_le (bounded stored listed)
  have none : state.log.filter (state.seq + 1 < ·.1) = [] :=
    filter_eq_nil_iff.mpr fun stored listed => by simpa using Nat.le_succ_of_le (bounded stored listed)
  simp only [emit, nextSeq_eq fits, before, none]

theorem Tail.step {maxEvents : Nat} (room : 0 < maxEvents) {recorded : Recorded} {event : LogEvent}
    (tail : Tail recorded) (fits : (recorded.step maxEvents event).emitted.length < 2 ^ 64)
    (keeps : KeepsTail recorded event) : Tail (recorded.step maxEvents event) := by
  cases event with
  | emit event =>
    obtain ⟨removed, isTail⟩ := tail.suffix
    have next : recorded.state.seq + 1 < 2 ^ 64 := by
      rw [tail.counted]
      simpa [Recorded.step] using fits
    have log := emit_log next (fun stored listed => tail.bounded stored (tail.suffix.mem listed))
      maxEvents event
    refine ⟨?_, fun empty => ?_, ?_, ?_, ?_⟩
    · rw [Recorded.step, log, nextSeq_eq next]
      exact (drop_suffix _ _).trans ⟨removed, by rw [← append_assoc, isTail]⟩
    · have gone := congrArg List.length (log.symm.trans empty)
      simp only [length_drop, length_append, length_singleton, length_nil] at gone
      omega
    · refine pairwise_append.mpr ⟨tail.sorted, pairwise_singleton _ _, ?_⟩
      intro stored listed new isNew
      rw [mem_singleton.mp isNew, nextSeq_eq next]
      exact Nat.lt_succ_of_le (tail.bounded stored listed)
    · intro stored listed
      rcases mem_append.mp listed with old | new
      · exact (Nat.le_succ_of_le (tail.bounded stored old)).trans (nextSeq_eq next).ge
      · rw [mem_singleton.mp new]
        exact Nat.le_refl _
    · exact (nextSeq_eq next).trans (by simp [Recorded.step, tail.counted])
  | trim bound =>
    have kept : recorded.state.log = [] ∨ (recorded.state.log.filter bound.keeps) ≠ [] := by
      refine (eq_nil_or_concat recorded.state.log).imp_right ?_
      rintro ⟨older, newest, isLog⟩ none
      have isKept := keeps.1 newest (by simp [isLog])
      exact filter_eq_nil_iff.mp none newest (by simp [isLog]) isKept
    exact ⟨(filter_suffix keeps.2).trans tail.suffix, fun empty => tail.last (kept.resolve_right
      (not_not_intro empty)), tail.sorted, tail.bounded, tail.counted⟩

theorem Tail.filter_eq {recorded : Recorded} (tail : Tail recorded) {after : Nat}
    (recent : ∀ oldest ∈ recorded.state.log.head?, oldest.1 - 1 ≤ after)
    (filters : Option Filters) :
    recorded.state.log.filter (shows (some after) filters) =
      recorded.emitted.filter (shows (some after) filters) := by
  obtain ⟨removed, isTail⟩ := tail.suffix
  have sorted := tail.sorted
  rw [← isTail, filter_append, self_eq_append_left, filter_eq_nil_iff]
  rw [← isTail, pairwise_append] at sorted
  intro stored gone
  cases isLog : recorded.state.log with
  | nil =>
    rw [tail.last isLog] at isTail
    simp [(append_eq_nil_iff.mp isTail).1] at gone
  | cons oldest rest =>
    have older := sorted.2.2 stored gone oldest (by simp [isLog])
    have near := recent oldest (by simp [isLog])
    simp only [shows, Option.all_some, Bool.and_eq_true, decide_eq_true_eq, not_and]
    omega

def Recorded.due (recorded : Recorded) (after : Nat) (filters : Option Filters) :
    List (Nat × StoredEvent) :=
  recorded.emitted.filter (shows (some after) filters)

section

variable {streamId : Did → String} {tenant : Did} {cursor : ProgressToken} {after : Nat}

theorem validateCursor_ok_iff {state : TenantLog} :
    state.validateCursor streamId tenant cursor.epoch cursor = .ok after ↔
      cursor.streamId = streamId tenant ∧ parseFeedPosition cursor.position = .ok after ∧
      ∀ oldest ∈ state.log.head?, oldest.1 - 1 ≤ after := by
  simp only [validateCursor, ok_iff]
  constructor
  · rintro ⟨_, ofStream, _, -, _, parsed, _, recent, rfl⟩
    exact ⟨ofStream, parsed, recent⟩
  · rintro ⟨ofStream, parsed, recent⟩
    exact ⟨(), ofStream, (), trivial, after, parsed, (), recent, rfl⟩

theorem Tail.readAfter_eq {recorded : Recorded} (tail : Tail recorded) {limit : Option Nat}
    {bound : Nat} (filters : Option Filters) (epoch : String)
    (recent : ∀ oldest ∈ recorded.state.log.head?, oldest.1 - 1 ≤ after)
    (isBound : limit.getD (2 ^ 64 - 1) = bound) (positive : 0 < bound) :
    readAfter streamId tenant epoch recorded.state ⟨cursor, limit, filters⟩ (some after) =
      ⟨((recorded.due after filters).take bound).map entryOf,
        (((recorded.due after filters).take bound).getLast?.map
          (tokenOf streamId tenant epoch)).or cursor,
        decide ((recorded.due after filters).length < bound)⟩ := by
  rw [Recorded.due, ← tail.filter_eq recent]
  simp only [readAfter, isBound, scan_eq _ [] positive, nil_append, length_nil, Nat.sub_zero,
    Nat.zero_add]

end

open Changes (fromStart)

def threadEvent : StoredEvent := ⟨Run.Threads.one, [], "m1"⟩

def recorded (maxEvents : Nat) : List LogEvent → Recorded :=
  List.foldl (Recorded.step maxEvents) {}

def trimmed : List LogEvent :=
  [.emit threadEvent, .emit threadEvent, .emit threadEvent, .emit threadEvent,
    .trim (.sequence 3)]

/-- A subscription beside the log, with what was emitted before it was registered. -/
structure Followed where
  recorded : Recorded := {}
  backlog : List (Nat × StoredEvent) := []
  sub : MemorySubscription := {}

inductive FollowEvent
  | emit (event : StoredEvent)
  | deliver (index : Nat)
  | advance

def replays : SubscribeStage → Bool
  | .reading | .scanning _ | .telling (_ :: _) => true
  | _ => false

/-- An emit waits until the calls of the listener are made, and comes before the registration or
after the replay. -/
def Apart (followed : Followed) : FollowEvent → Prop
  | .emit _ => followed.sub.owed = [] ∧ replays followed.sub.stage = false
  | _ => True

section

variable (streamId : Did → String) (tenant : Did) (cursor : ProgressToken) (filters : Option Filters)
  (maxEvents : Nat) (followed : Followed)

def Followed.step : FollowEvent → Followed
  | .emit event => { followed with
      recorded := followed.recorded.step maxEvents (.emit event)
      sub := followed.sub.notify streamId tenant cursor.epoch filters
        (followed.recorded.state.nextSeq, event) }
  | .deliver index => { followed with sub := followed.sub.deliver index }
  | .advance => { followed with
      backlog := match followed.sub.stage with
        | .registering => followed.recorded.emitted
        | _ => followed.backlog
      sub := followed.sub.advance streamId tenant cursor.epoch cursor filters followed.recorded.state }

def tell (events : List (Nat × StoredEvent)) : List SubscriptionMessage :=
  events.map fun stored => told streamId tenant cursor.epoch (entryOf stored)

def StageFits : SubscribeStage → Prop
  | .reading => followed.sub.owed = [] ∧ followed.sub.heard = [] ∧
      followed.backlog = followed.recorded.emitted
  | .scanning after => followed.sub.owed = [] ∧ followed.sub.heard = [] ∧
      followed.backlog = followed.recorded.emitted ∧
      parseFeedPosition cursor.position = .ok after ∧
      ∀ oldest ∈ followed.recorded.state.log.head?, oldest.1 - 1 ≤ after
  | .telling queue => (followed.sub.owed = [] ∨ queue = [] ∧ ∃ message, followed.sub.owed = [message]) ∧
      ∃ after eose live, parseFeedPosition cursor.position = .ok after ∧
        followed.recorded.emitted = followed.backlog ++ live ∧
        followed.sub.heard ++ queue ++ followed.sub.owed =
          tell streamId tenant cursor
            ((followed.backlog.filter (shows (some after) filters)).take (2 ^ 64 - 1)) ++
          .eose eose :: tell streamId tenant cursor (live.filter (shows none filters))
  | .failed _ => True
  | _ => followed.sub.owed = [] ∧ followed.sub.heard = []

structure Fit : Prop where
  tail : Tail followed.recorded
  stage : StageFits streamId tenant cursor filters followed followed.sub.stage

end

section

variable {streamId : Did → String} {tenant : Did} {cursor : ProgressToken}
  {filters : Option Filters} {maxEvents : Nat} {followed : Followed}
  (fit : Fit streamId tenant cursor filters followed)

include fit

theorem Fit.emit (room : 0 < maxEvents) {event : StoredEvent} (apart : Apart followed (.emit event))
    (fits : (followed.recorded.step maxEvents (.emit event)).emitted.length < 2 ^ 64) :
    Fit streamId tenant cursor filters
      (followed.step streamId tenant cursor filters maxEvents (.emit event)) := by
  obtain ⟨tail, stage⟩ := fit
  refine ⟨tail.step room fits trivial, ?_⟩
  obtain ⟨recorded, backlog, isStage, owed, heard⟩ := followed
  obtain ⟨rfl, idle⟩ : owed = [] ∧ replays isStage = false := apart
  cases isStage with
  | validating | registering | refused => exact stage
  | reading | scanning => cases idle
  | failed error =>
    simp only [Followed.step, MemorySubscription.notify]
    split <;> trivial
  | telling queue =>
    cases queue with
    | cons message queue => cases idle
    | nil =>
      obtain ⟨-, after, eose, live, parsed, whole, isHeard⟩ := stage
      have grown : recorded.emitted ++ [(recorded.state.nextSeq, event)] =
          backlog ++ (live ++ [(recorded.state.nextSeq, event)]) := by
        rw [← append_assoc, ← whole]
      simp only [append_nil] at isHeard
      simp only [Followed.step, MemorySubscription.notify]
      split
      · rename_i isMatch
        refine ⟨.inr ⟨rfl, _, rfl⟩, after, eose, _, parsed, grown, ?_⟩
        simp [isHeard, tell, shows, isMatch]
      · rename_i isMatch
        refine ⟨.inl rfl, after, eose, _, parsed, grown, ?_⟩
        simp [isHeard, tell, shows, isMatch]

theorem Fit.deliver (index : Nat) :
    Fit streamId tenant cursor filters
      (followed.step streamId tenant cursor filters maxEvents (.deliver index)) := by
  refine ⟨fit.tail, ?_⟩
  have stage := fit.stage
  simp only [Followed.step, MemorySubscription.deliver]
  split
  · exact stage
  · rename_i message isOwed
    obtain ⟨recorded, backlog, isStage, owed, heard⟩ := followed
    cases isStage with
    | failed error => trivial
    | telling queue =>
      obtain ⟨rfl | ⟨rfl, other, rfl⟩, rest⟩ := stage
      · cases isOwed
      · cases index with
        | zero =>
          cases isOwed
          refine ⟨.inl rfl, ?_⟩
          simpa using rest
        | succ index => cases isOwed
    | _ =>
      obtain rfl : owed = [] := stage.1
      cases isOwed

theorem Fit.advance :
    Fit streamId tenant cursor filters
      (followed.step streamId tenant cursor filters maxEvents .advance) := by
  obtain ⟨tail, stage⟩ := fit
  refine ⟨tail, ?_⟩
  obtain ⟨recorded, backlog, isStage, owed, heard⟩ := followed
  cases isStage with
  | refused | failed => exact stage
  | registering => exact ⟨stage.1, stage.2, rfl⟩
  | validating =>
    simp only [Followed.step, MemorySubscription.advance]
    cases recorded.state.validateCursor streamId tenant cursor.epoch cursor <;> exact stage
  | reading =>
    simp only [Followed.step, MemorySubscription.advance]
    cases valid : recorded.state.validateCursor streamId tenant cursor.epoch cursor with
    | error error => trivial
    | ok after => exact ⟨stage.1, stage.2.1, stage.2.2, (validateCursor_ok_iff.mp valid).2⟩
  | scanning after =>
    obtain ⟨rfl, rfl, isBacklog, parsed, recent⟩ := stage
    obtain rfl : backlog = recorded.emitted := isBacklog
    simp only [Followed.step, MemorySubscription.advance]
    rw [tail.readAfter_eq filters cursor.epoch recent rfl (by decide)]
    refine ⟨.inl rfl, after, ?eose, [], parsed, (append_nil _).symm, ?heard⟩
    case heard =>
      rw [append_nil, tell, ← Function.comp_def (told _ _ _), ← map_map]
      rfl
  | telling queue =>
    cases queue with
    | nil => exact stage
    | cons message queue =>
      obtain ⟨rfl | ⟨impossible, -⟩, rest⟩ := stage
      · refine ⟨.inl rfl, ?_⟩
        simpa [Followed.step, MemorySubscription.advance] using rest
      · cases impossible

end

/-- Where the emits keep apart from the replay and from each other's calls, the listener is told the
stored events after the cursor, the end of them and the events since, each once and in order. -/
theorem replay_then_live {streamId : Did → String} {tenant : Did} {cursor : ProgressToken}
    {filters : Option Filters} {maxEvents : Nat} (room : 0 < maxEvents) {followed : Followed}
    (reached : Reaches (Followed.step streamId tenant cursor filters maxEvents) Apart {} followed)
    (returned : followed.sub.stage = .telling []) (delivered : followed.sub.owed = [])
    (fits : followed.recorded.emitted.length < 2 ^ 64) :
    ∃ after eose live, parseFeedPosition cursor.position = .ok after ∧
      followed.recorded.emitted = followed.backlog ++ live ∧
      followed.recorded.emitted.Pairwise (·.1 < ·.1) ∧
      followed.sub.heard =
        tell streamId tenant cursor (followed.backlog.filter (shows (some after) filters)) ++
        .eose eose :: tell streamId tenant cursor (live.filter (shows none filters)) := by
  have fit : Fit streamId tenant cursor filters followed := by
    refine reached.invariant (P := fun followed => followed.recorded.emitted.length < 2 ^ 64 →
      Fit streamId tenant cursor filters followed) (fun _ => ⟨tail_start, rfl, rfl⟩)
      (fun followed event fit apart fits => ?_) fits
    cases event with
    | emit event =>
      refine (fit (Nat.lt_of_le_of_lt ?_ fits)).emit room apart fits
      simp [Followed.step, Recorded.step]
    | deliver index => exact (fit fits).deliver index
    | advance => exact (fit fits).advance
  have stage := fit.stage
  rw [returned] at stage
  obtain ⟨-, after, eose, live, parsed, whole, heard⟩ := stage
  refine ⟨after, eose, live, parsed, whole, fit.tail.sorted, ?_⟩
  rw [take_of_length_le] at heard
  · simpa [delivered] using heard
  · have few := length_filter_le (shows (some after) filters) followed.backlog
    rw [whole, length_append] at fits
    omega

def toldThread (seq : Nat) : SubscriptionMessage :=
  told id "did:ex:alice" "e" (entryOf (seq, threadEvent))

def following : List FollowEvent → Followed :=
  List.foldl (Followed.step id "did:ex:alice" fromStart none 1) {}

def emitsApart : List FollowEvent :=
  [.emit threadEvent, .advance, .advance, .advance, .advance, .advance, .advance, .emit threadEvent,
    .deliver 0]

theorem thread_told_before_and_after :
    ∃ eose, (following emitsApart).sub.heard = [toldThread 1, .eose eose, toldThread 2] := by
  have reached : Reaches (Followed.step id "did:ex:alice" fromStart none 1) Apart {}
      (following emitsApart) :=
    AllowedAlong.reaches ⟨⟨rfl, rfl⟩, trivial, trivial, trivial, trivial, trivial, trivial,
      ⟨rfl, rfl⟩, trivial, trivial⟩
  obtain ⟨after, eose, live, parsed, whole, -, heard⟩ :=
    replay_then_live Nat.one_pos reached rfl rfl (by decide)
  cases parsed
  cases whole
  exact ⟨eose, heard⟩

theorem replayed_event_told_twice :
    ∃ followed, Reaches (Followed.step id "did:ex:alice" fromStart none 1) (fun _ _ => True) {}
        followed ∧
      followed.sub.stage = .telling [] ∧ followed.sub.owed = [] ∧
      followed.recorded.emitted = [(1, threadEvent)] ∧
      ∃ eose, followed.sub.heard = [toldThread 1, toldThread 1, .eose eose] :=
  ⟨following [.advance, .advance, .emit threadEvent, .deliver 0, .advance, .advance, .advance,
      .advance],
    reaches_foldl _ _ _, rfl, rfl, rfl, _, rfl⟩

end Enbox.Proof.EventLog
