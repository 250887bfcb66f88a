import Enbox.Proof.Sync.Live

/-! # The pull cursor of a subscription -/

namespace Enbox.Proof.Sync

open Lib List

variable {event : ProgressToken × MessageEvent}

/-! ## Cursors -/

def cursorAt (cursor : ProgressToken) : Nat := (parseU64 cursor.position).getD 0

def SameDomain (first second : ProgressToken) : Prop :=
  first.streamId = second.streamId ∧ first.epoch = second.epoch

theorem SameDomain.trans {first second third : ProgressToken} (same : SameDomain first second)
    (next : SameDomain second third) : SameDomain first third :=
  ⟨same.1.trans next.1, same.2.trans next.2⟩

def Advances (stored : Option ProgressToken) (cursor : ProgressToken) : Prop :=
  ∀ previous ∈ stored, SameDomain previous cursor ∧ cursorAt previous ≤ cursorAt cursor

def eventOf : SubscriptionMessage → Option (ProgressToken × MessageEvent)
  | .event cursor event _ _ _ _ _ => some (cursor, event)
  | _ => none

section

variable {Local Remote Hash : Type} (p : Primitives) (localEnd : Endpoint Local Hash) (tenant : Did)
  (remote : String) (scope : SyncScope)

def pullCursor (session : SyncSession Local Remote Hash) : Option ProgressToken :=
  (session.engine.checkpoints.lookup (checkpointKey tenant remote scope .pull)).bind (·.pullCursor)

structure Listener (Local Remote Hash : Type) where
  session : SyncSession Local Remote Hash
  applied : List SyncEntry := []
  repairing : Bool := false

def appliedEntries (status : SyncRunStatus) : SubscriptionMessage → List SyncEntry
  | .event cursor event _ _ _ _ _ =>
      if status = .completed then [entryFromSubscriptionEvent cursor event] else []
  | _ => []

def Listener.hear (listener : Listener Local Remote Hash) (message : SubscriptionMessage) :
    Listener Local Remote Hash :=
  let heard := handleRemoteSubscriptionMessage p localEnd tenant remote scope listener.session message
  { session := heard.2
    applied := listener.applied ++ appliedEntries heard.1.status message
    repairing := listener.repairing || heard.1.status = .repairing }

def DeadLettered (session : SyncSession Local Remote Hash) (entry : SyncEntry) : Prop :=
  ∃ letter ∈ session.engine.deadLetters, letter.tenant = tenant ∧ letter.remote = remote ∧
    letter.scopeId = scope.id ∧ letter.entry = some entry

inductive Heard (before after : SyncSession Local Remote Hash) :
    SubscriptionMessage → SyncRunStatus → Prop
  | refused {cursor event seq messageCid latest protocol data}
      (rejected : ¬ Advances (pullCursor tenant remote scope before) cursor)
      (kept : pullCursor tenant remote scope after = pullCursor tenant remote scope before)
      (letters : after.engine.deadLetters = before.engine.deadLetters) :
      Heard before after (.event cursor event seq messageCid latest protocol data) .repairing
  | applied {cursor event seq messageCid latest protocol data}
      (advances : Advances (pullCursor tenant remote scope before) cursor)
      (moved : pullCursor tenant remote scope after = some cursor)
      (letters : after.engine.deadLetters = before.engine.deadLetters) :
      Heard before after (.event cursor event seq messageCid latest protocol data) .completed
  | failed {cursor event seq messageCid latest protocol data}
      (advances : Advances (pullCursor tenant remote scope before) cursor)
      (kept : pullCursor tenant remote scope after = pullCursor tenant remote scope before)
      (letters : ∀ letter ∈ before.engine.deadLetters, letter ∈ after.engine.deadLetters)
      (recorded : DeadLettered tenant remote scope after (entryFromSubscriptionEvent cursor event)) :
      Heard before after (.event cursor event seq messageCid latest protocol data) .failed
  | eose {cursor}
      (moved : pullCursor tenant remote scope after = some cursor)
      (letters : after.engine.deadLetters = before.engine.deadLetters) :
      Heard before after (.eose cursor) .completed
  | error {cursor error}
      (kept : pullCursor tenant remote scope after = pullCursor tenant remote scope before)
      (letters : ∀ letter ∈ before.engine.deadLetters, letter ∈ after.engine.deadLetters) :
      Heard before after (.error cursor error) .failed

variable {p localEnd tenant remote scope} {session : SyncSession Local Remote Hash}

theorem pullCursor_checkpointed (update : SyncCheckpoint Hash → SyncCheckpoint Hash)
    (result : SyncOnceResult Hash) :
    pullCursor tenant remote scope
        (checkpointed session tenant remote scope .pull update result).2 =
      (update ((session.engine.checkpoints.lookup (checkpointKey tenant remote scope .pull)).getD
        { key := checkpointKey tenant remote scope .pull, tenant, remote, scopeId := scope.id,
          direction := .pull })).pullCursor := by
  simp only [pullCursor, checkpointed, SyncEngineState.updateCheckpoint, lookup_assocInsert, if_true]
  rfl

theorem validatePullCursor_ok_iff {cursor : ProgressToken} :
    session.engine.validatePullCursor tenant remote scope cursor = .ok () ↔
      Advances (pullCursor tenant remote scope session) cursor := by
  simp only [SyncEngineState.validatePullCursor, Advances, pullCursor]
  cases (session.engine.checkpoints.lookup (checkpointKey tenant remote scope .pull)).bind
      (·.pullCursor) with
  | none => simp
  | some previous =>
    simp [bind_eq_ok, ensure_eq_ok, SameDomain, cursorAt]

theorem heard (message : SubscriptionMessage) :
    Heard tenant remote scope session
      (handleRemoteSubscriptionMessage p localEnd tenant remote scope session message).2 message
      (handleRemoteSubscriptionMessage p localEnd tenant remote scope session message).1.status := by
  cases message with
  | eose cursor => exact .eose (pullCursor_checkpointed _ _) rfl
  | error cursor error => exact .error rfl fun letter old => mem_append_left _ old
  | event cursor event =>
    simp only [handleRemoteSubscriptionMessage]
    cases checked : session.engine.validatePullCursor tenant remote scope cursor with
    | error gap =>
      refine .refused ?_ ?_ rfl
      · rw [← validatePullCursor_ok_iff, checked]
        exact fun same => by cases same
      · unfold handleProgressGap
        rw [pullCursor_checkpointed, pullCursor]
        cases session.engine.checkpoints.lookup (checkpointKey tenant remote scope .pull) <;> rfl
    | ok =>
      have advances := validatePullCursor_ok_iff.mp checked
      simp only [pullEvent]
      obtain ⟨outcome, node⟩ := localEnd.apply session.localNode tenant
        (entryFromSubscriptionEvent cursor event)
      cases outcome with
      | ok => exact .applied advances (pullCursor_checkpointed _ _) rfl
      | error error =>
        exact .failed advances rfl (fun letter old => mem_append_left _ old)
          ⟨_, mem_append_right _ mem_cons_self, rfl, rfl, rfl, rfl⟩

/-! ## Runs -/

structure InOrder (stored : Option ProgressToken) (messages : List SubscriptionMessage) : Prop where
  beyond : ∀ previous ∈ stored, ∀ event ∈ messages.filterMap eventOf, SameDomain previous event.1 →
    cursorAt previous < cursorAt event.1
  increasing : (messages.filterMap eventOf).Pairwise fun first second =>
    SameDomain first.1 second.1 → cursorAt first.1 < cursorAt second.1

def EoseInOrder (stored : Option ProgressToken) (cursor : ProgressToken)
    (rest : List SubscriptionMessage) : Prop :=
  Advances stored cursor ∧ ∀ event ∈ rest.filterMap eventOf, SameDomain cursor event.1 →
    cursorAt cursor < cursorAt event.1

def KeepsCourse (tenant : Did) (remote : String) (scope : SyncScope)
    (before after : Listener Local Remote Hash) : Prop :=
  before.repairing = false → ∀ previous ∈ pullCursor tenant remote scope before.session,
    ∃ next ∈ pullCursor tenant remote scope after.session,
      SameDomain previous next ∧ cursorAt previous ≤ cursorAt next

def Handled (tenant : Did) (remote : String) (scope : SyncScope)
    (listener : Listener Local Remote Hash) (event : ProgressToken × MessageEvent) : Prop :=
  entryFromSubscriptionEvent event.1 event.2 ∈ listener.applied ∨
    DeadLettered tenant remote scope listener.session (entryFromSubscriptionEvent event.1 event.2)

structure OnCourse (tenant : Did) (remote : String) (scope : SyncScope)
    (listener : Listener Local Remote Hash) (past future : List SubscriptionMessage) : Prop where
  ahead : ∀ stored ∈ pullCursor tenant remote scope listener.session,
    ∀ event ∈ future.filterMap eventOf, SameDomain stored event.1 →
      cursorAt stored < cursorAt event.1
  handled : ∀ event ∈ past.filterMap eventOf,
    (∀ stored ∈ pullCursor tenant remote scope listener.session, SameDomain stored event.1) →
      Handled tenant remote scope listener event

variable {listener : Listener Local Remote Hash} {message : SubscriptionMessage}
  {past future : List SubscriptionMessage}

theorem Listener.heard (p : Primitives) (localEnd : Endpoint Local Hash) (tenant : Did)
    (remote : String) (scope : SyncScope) (listener : Listener Local Remote Hash)
    (message : SubscriptionMessage) :
    ∃ status, Heard tenant remote scope listener.session
        (listener.hear p localEnd tenant remote scope message).session message status ∧
      (listener.hear p localEnd tenant remote scope message).applied =
        listener.applied ++ appliedEntries status message :=
  ⟨_, Sync.heard message, rfl⟩

theorem Heard.deadLetters {before after : SyncSession Local Remote Hash} {status : SyncRunStatus}
    (was : Heard tenant remote scope before after message status) :
    ∀ letter ∈ before.engine.deadLetters, letter ∈ after.engine.deadLetters := by
  intro letter listed
  cases was with
  | refused _ _ letters => rwa [letters]
  | applied _ _ letters => rwa [letters]
  | failed _ _ letters _ => exact letters letter listed
  | eose _ letters => rwa [letters]
  | error _ letters => exact letters letter listed

theorem Handled.hear (handled : Handled tenant remote scope listener event)
    (message : SubscriptionMessage) :
    Handled tenant remote scope (listener.hear p localEnd tenant remote scope message) event := by
  rcases handled with applied | ⟨letter, listed, known⟩
  · exact .inl (mem_append_left _ applied)
  · obtain ⟨status, was, -⟩ := listener.heard p localEnd tenant remote scope message
    exact .inr ⟨letter, was.deadLetters letter listed, known⟩

theorem mem_eventOf_snoc :
    event ∈ (past ++ [message]).filterMap eventOf ↔
      event ∈ past.filterMap eventOf ∨ eventOf message = some event := by
  simp only [mem_filterMap, mem_append, mem_singleton, or_and_right, exists_or,
    exists_eq_left]

theorem OnCourse.hear (course : OnCourse tenant remote scope listener past (message :: future))
    (increasing : ((message :: future).filterMap eventOf).Pairwise fun first second =>
      SameDomain first.1 second.1 → cursorAt first.1 < cursorAt second.1)
    (ends : ∀ cursor, message = .eose cursor →
      EoseInOrder (pullCursor tenant remote scope listener.session) cursor future) :
    OnCourse tenant remote scope (listener.hear p localEnd tenant remote scope message)
      (past ++ [message]) future ∧
    KeepsCourse tenant remote scope listener
      (listener.hear p localEnd tenant remote scope message) := by
  have earlier {event : ProgressToken × MessageEvent} (listed : event ∈ past.filterMap eventOf)
      (inDomain : ∀ stored ∈ pullCursor tenant remote scope listener.session,
        SameDomain stored event.1) :
      Handled tenant remote scope (listener.hear p localEnd tenant remote scope message) event :=
    (course.handled event listed inDomain).hear message
  obtain ⟨status, was, applied⟩ := listener.heard p localEnd tenant remote scope message
  generalize listener.hear p localEnd tenant remote scope message = after at *
  have proceeds
      (further : ∀ previous ∈ pullCursor tenant remote scope listener.session,
        ∃ next ∈ pullCursor tenant remote scope after.session,
          SameDomain previous next ∧ cursorAt previous ≤ cursorAt next)
      (ahead : ∀ stored ∈ pullCursor tenant remote scope after.session,
        ∀ event ∈ future.filterMap eventOf, SameDomain stored event.1 →
          cursorAt stored < cursorAt event.1)
      (here : ∀ event, eventOf message = some event →
        (∀ stored ∈ pullCursor tenant remote scope after.session, SameDomain stored event.1) →
          Handled tenant remote scope after event) :
      OnCourse tenant remote scope after (past ++ [message]) future ∧
        KeepsCourse tenant remote scope listener after := by
    refine ⟨⟨ahead, fun event listed inDomain => ?_⟩, fun _ => further⟩
    rcases mem_eventOf_snoc.mp listed with old | new
    · refine earlier old fun stored isStored => ?_
      obtain ⟨next, isNext, same, -⟩ := further stored isStored
      exact same.trans (inDomain next isNext)
    · exact here event new inDomain
  have stays (kept : pullCursor tenant remote scope after.session =
      pullCursor tenant remote scope listener.session) :=
    proceeds (fun previous stored => ⟨previous, kept ▸ stored, ⟨rfl, rfl⟩, le_rfl⟩)
      fun stored isStored event listed => course.ahead stored (kept ▸ isStored) event
        (((sublist_cons_self message future).filterMap eventOf).subset listed)
  have moves {cursor : ProgressToken} (moved : pullCursor tenant remote scope after.session = cursor)
      (advances : Advances (pullCursor tenant remote scope listener.session) cursor)
      (before : ∀ event ∈ future.filterMap eventOf, SameDomain cursor event.1 →
        cursorAt cursor < cursorAt event.1) :=
    proceeds (fun previous stored => ⟨cursor, moved, advances previous stored⟩)
      fun stored isStored => Option.some.inj (moved.symm.trans isStored) ▸ before
  cases was with
  | refused rejected kept _ =>
    refine stays kept fun listed isEvent inDomain => ?_
    cases isEvent
    rw [kept] at inDomain
    refine absurd (fun previous stored => ?_) rejected
    exact ⟨inDomain previous stored,
      (course.ahead previous stored _ mem_cons_self (inDomain previous stored)).le⟩
  | applied advances moved _ =>
    refine moves moved advances (pairwise_cons.mp increasing).1 fun listed isEvent _ => ?_
    cases isEvent
    left
    rw [applied]
    exact mem_append_right _ mem_cons_self
  | failed _ kept _ recorded =>
    refine stays kept fun listed isEvent _ => ?_
    cases isEvent
    exact .inr recorded
  | eose moved _ =>
    obtain ⟨advances, before⟩ := ends _ rfl
    exact moves moved advances before fun listed isEvent => by cases isEvent
  | error kept _ => exact stays kept fun listed isEvent => by cases isEvent

/-- Over every sequence of messages with events and ends of stored events in order, the stored
cursor stays in its domain and does not move back, and every event at or before it was applied or is
a dead letter. -/
theorem pull_cursor_of_run (p : Primitives) (localEnd : Endpoint Local Hash) (tenant : Did)
    (remote : String) (scope : SyncScope) (start : SyncSession Local Remote Hash)
    {messages : List SubscriptionMessage}
    (ordered : InOrder (pullCursor tenant remote scope start) messages)
    (ends : ∀ past cursor future, messages = past ++ .eose cursor :: future →
      EoseInOrder (pullCursor tenant remote scope
        (past.foldl (Listener.hear p localEnd tenant remote scope) ⟨start, [], false⟩).session)
        cursor future) :
    (∀ past message future, messages = past ++ message :: future →
      KeepsCourse tenant remote scope
        (past.foldl (Listener.hear p localEnd tenant remote scope) ⟨start, [], false⟩)
        ((past ++ [message]).foldl (Listener.hear p localEnd tenant remote scope)
          ⟨start, [], false⟩)) ∧
    ∀ past future, messages = past ++ future → ∀ event ∈ messages.filterMap eventOf,
      ∀ stored ∈ pullCursor tenant remote scope
        (past.foldl (Listener.hear p localEnd tenant remote scope) ⟨start, [], false⟩).session,
      SameDomain stored event.1 → cursorAt event.1 ≤ cursorAt stored →
        Handled tenant remote scope
          (past.foldl (Listener.hear p localEnd tenant remote scope) ⟨start, [], false⟩) event := by
  have increasing {past future : List SubscriptionMessage} (split : messages = past ++ future) :
      (future.filterMap eventOf).Pairwise fun first second =>
        SameDomain first.1 second.1 → cursorAt first.1 < cursorAt second.1 := by
    have whole := ordered.increasing
    rw [split, filterMap_append] at whole
    exact (pairwise_append.mp whole).2.1
  have course : ∀ past future, messages = past ++ future → OnCourse tenant remote scope
      (past.foldl (Listener.hear p localEnd tenant remote scope) ⟨start, [], false⟩) past future := by
    intro past
    induction past using List.reverseRecOn with
    | nil =>
      rintro future rfl
      exact ⟨ordered.beyond, fun event listed => by cases listed⟩
    | append_singleton past message ih =>
      intro future split
      rw [append_assoc, singleton_append] at split
      rw [foldl_append]
      exact ((ih _ split).hear (increasing split) fun cursor isEose =>
        ends past cursor future (isEose ▸ split)).1
  refine ⟨fun past message future split => ?_, fun past future split event listed stored isStored
    inDomain below => ?_⟩
  · rw [foldl_append]
    exact ((course past _ split).hear (increasing split) fun cursor isEose =>
      ends past cursor future (isEose ▸ split)).2
  · have here := course past future split
    rw [split, filterMap_append, mem_append] at listed
    rcases listed with old | new
    · refine here.handled event old fun other isOther => ?_
      cases isStored.symm.trans isOther
      exact inDomain
    · exact absurd (here.ahead stored isStored event new inDomain) below.not_gt

end

namespace LiveThread

open Run.Threads Concrete

def token (stream position : String) : ProgressToken := ⟨stream, "e", position, none⟩

noncomputable section

def eventAt (position cid : String) (message : Message) : SubscriptionMessage :=
  eventMessage ⟨position, message, [], some cid, none⟩ (token "stream" position) none

def listen (messages : List SubscriptionMessage) : Listener SyncNode SyncNode Digest :=
  messages.foldl (Listener.hear p directEnd "did:ex:alice" "https://remote" .full) ⟨session, [], false⟩

def stored (messages : List SubscriptionMessage) : Option ProgressToken :=
  pullCursor "did:ex:alice" "https://remote" .full (listen messages).session

theorem inOrder_single (messages : List SubscriptionMessage)
    (increasing : (messages.filterMap eventOf).Pairwise fun first second =>
      SameDomain first.1 second.1 → cursorAt first.1 < cursorAt second.1) :
    InOrder (stored []) messages :=
  ⟨fun _ isStored => (by cases isStored), increasing⟩

theorem thread_handled :
    Handled "did:ex:alice" "https://remote" .full
      (listen [eventAt "5" "m3" one, .eose (token "stream" "5")])
      (⟨"stream", "e", "5", some "m3"⟩, ⟨one, none⟩) := by
  have ordered := inOrder_single [eventAt "5" "m3" one, .eose (token "stream" "5")]
    (pairwise_singleton _ _)
  refine (pull_cursor_of_run p directEnd "did:ex:alice" "https://remote" .full session ordered
    fun past cursor future split => ?_).2 _ [] (append_nil _).symm _ mem_cons_self
      (token "stream" "5") rfl ⟨rfl, rfl⟩ le_rfl
  obtain _ | ⟨first, _ | ⟨second, rest⟩⟩ := past
  · cases split
  · cases split
    refine ⟨fun previous isStored => ?_, fun event listed => by cases listed⟩
    cases isStored
    exact ⟨⟨rfl, rfl⟩, le_rfl⟩
  · simp at split

theorem eose_moves_cursor :
    InOrder (stored []) [eventAt "5" "m3" one, .eose (token "other" "2")] ∧
    stored [eventAt "5" "m3" one] = some ⟨"stream", "e", "5", some "m3"⟩ ∧
    stored [eventAt "5" "m3" one, .eose (token "other" "2")] = some (token "other" "2") ∧
    ¬ KeepsCourse "did:ex:alice" "https://remote" .full (listen [eventAt "5" "m3" one])
      (listen [eventAt "5" "m3" one, .eose (token "other" "2")]) ∧
    InOrder (stored []) [eventAt "5" "m3" one, .eose (token "stream" "9"), eventAt "7" "m1" two] ∧
    stored [eventAt "5" "m3" one, .eose (token "stream" "9"), eventAt "7" "m1" two] =
      some (token "stream" "9") ∧
    ¬ Handled "did:ex:alice" "https://remote" .full
      (listen [eventAt "5" "m3" one, .eose (token "stream" "9"), eventAt "7" "m1" two])
      (⟨"stream", "e", "7", some "m1"⟩, ⟨two, none⟩) := by
  refine ⟨inOrder_single _ (pairwise_singleton _ _), rfl, rfl, fun keeps => ?_,
    inOrder_single _ ?_, rfl, ?_⟩
  · obtain ⟨next, isNext, ⟨sameStream, -⟩, -⟩ := keeps rfl ⟨"stream", "e", "5", some "m3"⟩ rfl
    cases isNext
    exact absurd sameStream (by decide)
  · refine pairwise_cons.mpr ⟨fun event listed _ => ?_, pairwise_singleton _ _⟩
    cases mem_singleton.mp listed
    decide
  · rintro (applied | ⟨letter, listed, -⟩)
    · have cids : (listen [eventAt "5" "m3" one, .eose (token "stream" "9"),
        eventAt "7" "m1" two]).applied.map (·.messageCid) = ["m3"] := rfl
      have named := mem_map_of_mem (f := (·.messageCid)) applied
      rw [cids] at named
      exact absurd named (by decide)
    · cases listed

end

end LiveThread

end Enbox.Proof.Sync
