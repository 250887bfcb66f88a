import Enbox.Proof.EventLog.History

/-! # The replay keeps to its history -/

namespace Enbox.Proof.EventLog

open Lib Proof.Store Subscription History

variable {Feed : Type} {entryAt : Feed → Did → Nat → Option EventLogEntry} {sub : Subscription}
  {history : History Feed}

/-! ## Entries -/

section

variable {heard more : List SubscriptionMessage} {reached further : Nat}

theorem positions_append (heard more : List SubscriptionMessage) :
    positions (heard ++ more) = positions heard ++ positions more :=
  List.filterMap_append

theorem NoEose.append (first : NoEose heard) (second : NoEose more) :
    NoEose (heard ++ more) := fun frozen listed =>
  (List.mem_append.mp listed).elim (first frozen) (second frozen)

theorem NoEose.event {entry : EventLogEntry} (scan : ProgressToken)
    (initialWrite : Option Message) :
    NoEose [eventMessage entry scan initialWrite] := fun frozen listed => by
  cases List.mem_singleton.mp listed

theorem Ended.grow (ended : Ended heard reached) (once : NoEose more)
    (beyond : ∀ position ∈ positions more, reached < position) (later : reached ≤ further) :
    Ended (heard ++ more) further := by
  obtain ⟨before, frozen, after, ends⟩ := ended
  refine ⟨before, frozen, after ++ more, ?_⟩
  exact
    { ends with
      split := by rw [ends.split, List.append_assoc, List.cons_append]
      onceAfter := ends.onceAfter.append once
      above := fun position listed => by
        rw [positions_append, List.mem_append] at listed
        exact listed.elim (ends.above position) fun new => ends.passed.trans_lt (beyond position new)
      passed := ends.passed.trans later }

end

section

variable {reader : FeedReader Feed} {entry : EventLogEntry} {rest : List EventLogEntry} {last : Nat}

theorem Ahead.next (contract : PagingContract reader entryAt)
    (ahead : Ahead entryAt sub history (entry :: rest) last) :
    ∃ feed, history.snapshot = some feed ∧ history.course.reached < positionOfEvent entry ∧
      positionOfEvent entry ≤ last ∧ last < 2 ^ 64 ∧ Shown entryAt sub feed (positionOfEvent entry) ∧
      (∀ other, history.course.reached < other → other < positionOfEvent entry →
        ¬ Shown entryAt sub feed other) ∧
      rest = window (shownAt entryAt feed sub.tenant sub.filters) (positionOfEvent entry) last := by
  obtain ⟨feed, isFeed, -, bounded, shows⟩ := ahead
  obtain ⟨position, after, within, shown, nothing, isRest⟩ := window_eq_cons _ rfl shows.symm
  have seq : entry.seq = toString position := contract.seq (Option.filter_eq_some_iff.mp shown).1
  have here : positionOfEvent entry = position := by
    rw [positionOfEvent, seq, parseFeedPosition_toString (by omega)]
    rfl
  rw [here]
  refine ⟨feed, isFeed, after, within, bounded, Option.isSome_iff_exists.mpr ⟨entry, shown⟩,
    fun other later before isShown => ?_, isRest⟩
  rw [Shown, nothing other later before] at isShown
  cases isShown

theorem Ahead.nothing (ahead : Ahead entryAt sub history [] last) :
    ∃ feed, history.snapshot = some feed ∧ history.course.reached ≤ last ∧
      ∀ other, history.course.reached < other → other ≤ last → ¬ Shown entryAt sub feed other := by
  obtain ⟨feed, isFeed, below, -, shows⟩ := ahead
  refine ⟨feed, isFeed, below, fun other after within isShown => ?_⟩
  rw [Shown, window_eq_nil shows.symm after within] at isShown
  cases isShown

/-- A step of a delivery calls the listener, or says nothing and returns only if it is closed. -/
theorem delivery_cases (history : History Feed) (closed : Bool) (outside : Outside)
    (entry : EventLogEntry) (scan : ProgressToken) (stage : DeliveryStage) :
    (∃ initialWrite, stage = .listening initialWrite) ∨
    history.afterDelivery entry stage = history ∧ stage.says entry scan = [] ∧
      ∀ cursor, deliverEntry closed outside entry scan stage = .ok (.inr cursor) →
        closed = true := by
  cases stage with
  | listening initialWrite => exact .inl ⟨initialWrite, rfl⟩
  | entered =>
    refine .inr ⟨rfl, rfl, fun cursor returns => ?_⟩
    simp only [deliverEntry, ok_iff] at returns
    obtain ⟨_, -, returns⟩ := returns
    cases closed
    · cases returns
    · rfl
  | resolving =>
    refine .inr ⟨rfl, rfl, fun cursor returns => ?_⟩
    simp only [deliverEntry, ok_iff] at returns
    obtain ⟨_, -, returns⟩ := returns
    cases returns
  | gated initialWrite =>
    refine .inr ⟨rfl, rfl, fun cursor returns => ?_⟩
    cases closed
    · cases returns
    · rfl

structure HandedOver (entryAt : Feed → Did → Nat → Option EventLogEntry) (sub : Subscription)
    (before after : History Feed) (position : Nat) (rest : List EventLogEntry) (last : Nat) : Prop where
  exact : after.course.Exact (Shown entryAt sub)
  start : after.course.start = before.course.start
  handed : after.course.handed = before.course.handed ++ [position]
  reached : after.course.reached = position
  beyond : before.course.reached < position
  ahead : Ahead entryAt sub after rest last

theorem Ahead.hand (contract : PagingContract reader entryAt)
    (exact : history.course.Exact (Shown entryAt sub))
    (ahead : Ahead entryAt sub history (entry :: rest) last) :
    HandedOver entryAt sub history (history.hand (positionOfEvent entry)) (positionOfEvent entry)
      rest last := by
  obtain ⟨feed, isFeed, beyond, within, bounded, shown, nothing, isRest⟩ := ahead.next contract
  have hands : history.hand (positionOfEvent entry) =
      { history with course := history.course.hand feed (positionOfEvent entry) } := by
    rw [History.hand, isFeed]
  rw [hands]
  exact
    { exact := exact.hand beyond shown nothing
      start := rfl
      handed := rfl
      reached := rfl
      beyond := beyond
      ahead := ⟨feed, isFeed, within, bounded, isRest⟩ }

theorem History.pass_of_nothing {position : Nat} (exact : history.course.Exact (Shown entryAt sub))
    (ahead : history.course.reached ≤ position)
    (unread : history.snapshot = none → history.course.reached = position)
    (nothing : ∀ feed, history.snapshot = some feed → ∀ other, history.course.reached < other →
      other ≤ position → ¬ Shown entryAt sub feed other) :
    (history.pass position).course.Exact (Shown entryAt sub) ∧
      (history.pass position).course.reached = position ∧
      (history.pass position).course.start = history.course.start ∧
      (history.pass position).course.handed = history.course.handed := by
  rw [History.pass]
  cases isFeed : history.snapshot with
  | none => exact ⟨exact, unread isFeed, rfl, rfl⟩
  | some feed => exact ⟨exact.pass ahead (nothing feed isFeed), rfl, rfl, rfl⟩

theorem Ahead.pass (exact : history.course.Exact (Shown entryAt sub))
    (ahead : Ahead entryAt sub history [] last) :
    (history.pass last).course.Exact (Shown entryAt sub) ∧
      (history.pass last).course.reached = last ∧
      (history.pass last).course.start = history.course.start ∧
      (history.pass last).course.handed = history.course.handed := by
  obtain ⟨feed, isFeed, below, empty⟩ := ahead.nothing
  refine pass_of_nothing exact below (fun unread => ?_) fun other isOther => ?_
  · cases isFeed.symm.trans unread
  · cases isFeed.symm.trans isOther
    exact empty

end

/-! ## Changes of one part -/

section

variable (fits : Fits entryAt sub history) {task : SubscribeTask}

include fits

theorem Fits.retask (stands : TaskFits entryAt sub history task) :
    Fits entryAt { sub with task } history :=
  { fits with task := stands }

theorem Fits.task_as (isTask : sub.task = task) :
    TaskFits entryAt sub history task := isTask ▸ fits.task

omit fits in
theorem TaskFits.cleanup (stands : TaskFits entryAt sub history task) :
    TaskFits entryAt sub.cleanup history task := by
  have notLive : sub.cleanup.phase ≠ .live := by simp [Subscription.cleanup]
  cases task with
  | replaying replay =>
    obtain ⟨⟨waiting, replaying⟩, fits⟩ := stands
    refine ⟨⟨⟨notLive, waiting.2⟩, replaying⟩, ?_⟩
    cases stage : replay.stage with
    | storing page cursor =>
      rw [stage] at fits
      exact ⟨fits.1, fun isReplay => by cases isReplay⟩
    | _ => rw [stage] at fits; exact fits
  | eosing frozen stage =>
    obtain ⟨waiting, resumes, fits⟩ := stands
    refine ⟨⟨notLive, waiting.2⟩, resumes, ?_⟩
    cases stage <;> exact fits
  | following frozen => exact ⟨⟨notLive, stands.1.2⟩, stands.2⟩
  | failing error => exact ⟨notLive, stands.2⟩
  | unregistering error => exact ⟨notLive, stands.2⟩
  | starting => trivial
  | returned error => trivial
  | _ => exact ⟨⟨notLive, stands.1.2⟩, stands.2⟩

theorem Fits.cleanup : Fits entryAt sub.cleanup history :=
  { fits with
    task := fits.task.cleanup
    live := fun isLive => by cases isLive
    idle := fun none => ⟨(fits.idle none).1, fun isLive => by cases isLive⟩
    drain := fun drain isDrain => by
      obtain ⟨draining, -, ended, stands⟩ := fits.drain drain isDrain
      refine ⟨draining, fun isReplay => (by cases isReplay), ended, ?_⟩
      have settled : Settled sub.cleanup history := fun isLive => by cases isLive
      cases drain with
      | checking cursor => exact ⟨settled, stands.2⟩
      | reading cursor => exact ⟨settled, stands.2⟩
      | entries page => exact ⟨settled, stands.2⟩
      | delivering page entry stage => exact ⟨settled, stands.2⟩
      | storing page cursor => exact fun isLive => by cases isLive
      | turning page => exact stands
      | settling => exact settled
      | gapUnregistering => rfl
      | gapEnding => rfl
      | _ => trivial }

theorem Fits.requestDrain :
    Fits entryAt sub.requestDrain history := by
  rw [Subscription.requestDrain]
  split
  · exact fits
  · exact { fits with }

omit fits in
theorem TaskFits.of_live {sub' : Subscription} {history' : History Feed}
    (stands : TaskFits entryAt sub history task) (past : ¬ Waiting sub) :
    TaskFits entryAt sub' history' task := by
  cases task with
  | starting => trivial
  | returned error => trivial
  | replaying replay => exact absurd stands.1.1 past
  | eosing frozen stage => exact absurd stands.1 past
  | following frozen => exact absurd stands.1 past
  | failing error => exact absurd stands past
  | unregistering error => exact absurd stands past
  | _ => exact absurd stands.1 past

theorem Fits.tryStartDrain :
    Fits entryAt sub.tryStartDrain history := by
  rw [Subscription.tryStartDrain]
  split
  · exact fits
  · rename_i starts
    simp only [Bool.or_eq_true, decide_eq_true_eq, not_or, not_not] at starts
    obtain ⟨⟨isLive, idle⟩, -⟩ := starts
    have none : sub.drain = none := by
      cases isDrain : sub.drain with
      | none => rfl
      | some drain => exact absurd (fits.drain drain isDrain).1 idle
    have settled := (fits.idle none).2
    exact
      { fits with
        task := fits.task.of_live fun waiting => waiting.1 isLive
        idle := fun absent => by cases absent
        drain := fun drain isDrain => by
          cases isDrain
          exact ⟨rfl, fun isReplay => (nomatch isLive.symm.trans isReplay), fits.live isLive,
            settled, settled isLive⟩ }

end

section

variable {reader : FeedReader Feed} (contract : PagingContract reader entryAt) {replay : Replay}
  {page : ReplayPage} {entry : EventLogEntry} {feed : Feed} {readLimit : Nat} {outside : Outside}

theorem endPage_fits (replaying : Replaying sub history replay)
    (parsed : parseFeedPosition page.scan.position = .ok page.scanPosition)
    (isFeed : history.snapshot = some feed)
    (nothing : ∀ other, history.course.reached < other → other ≤ page.scanPosition →
      other ≤ replay.frozenPosition → ¬ Shown entryAt sub feed other)
    (short : page.scanPosition < replay.frozenPosition →
      Ahead entryAt sub history [] page.scanPosition) :
    TaskFits entryAt sub history (endPage replay page) := by
  obtain ⟨waiting, once, resumes, frozen, below⟩ := replaying
  rw [endPage]
  split
  · rename_i through
    refine ⟨waiting, resumes, once, frozen ▸ below, fun unread => ?_, fun other isOther => ?_⟩
    · rw [isFeed] at unread
      cases unread
    · cases isFeed.symm.trans isOther
      rw [frozen]
      exact fun position after within => nothing position after (within.trans through) within
  · rename_i notThrough
    have early := not_le.mp notThrough
    exact ⟨⟨waiting, once, resumes, frozen, below⟩, parsed, short early, early⟩

include contract in
theorem nextEntry_fits {rest : List EventLogEntry} (replaying : Replaying sub history replay)
    (parsed : parseFeedPosition page.scan.position = .ok page.scanPosition)
    (ahead : Ahead entryAt sub history (entry :: rest) page.scanPosition) :
    TaskFits entryAt sub history (nextEntry replay page entry rest) := by
  obtain ⟨feed, isFeed, beyond, within, -, -, empty, -⟩ := ahead.next contract
  rw [nextEntry]
  split
  · exact replaying.1
  · rename_i position isPosition
    have here : positionOfEvent entry = position := by
      rw [positionOfEvent, isPosition]
      rfl
    split
    · exact replaying.1
    · rw [← here]
      split
      · rename_i past
        refine endPage_fits replaying parsed isFeed
          (fun other after _ inside => empty other after (inside.trans_lt past)) fun early => ?_
        exact absurd (past.trans_le within) early.not_gt
      · rename_i inside
        exact ⟨replaying, parsed, ahead, not_lt.mp inside⟩

include contract in
theorem ahead_of_read {options : EventLogReadOptions} {result : EventLogReadResult}
    (asked : options.limit ≠ some 0) (ofSub : options.filters = sub.filters)
    (here : cursorPosition options.cursor = history.course.reached)
    (read : sub.read reader feed outside options = .ok result) :
    ∃ scan, result.cursor = some scan ∧
      PageAhead entryAt sub { history with snapshot := some feed } result.events scan := by
  have given : reader.logRead feed sub.tenant options = .ok result := by
    rw [Subscription.read, Outside.meets] at read
    split at read
    · cases read
    · exact read
  obtain ⟨scan, last, isScan, parsed, further, events⟩ := contract.page asked given
  rw [here] at further events
  exact ⟨scan, isScan, last, parsed, feed, rfl, further, (parseFeedPosition_ok parsed).2,
    ofSub ▸ events⟩

theorem Fits.of_waiting (waiting : Waiting sub) (idle : sub.draining = false)
    (exact : history.course.Exact (Shown entryAt sub))
    (heard : positions sub.heard = history.course.handed)
    (resumes : ∀ token, sub.resume = some token → history.course.start = cursorPosition (some token))
    (task : TaskFits entryAt sub history sub.task)
    (marks : NoEose sub.heard ∨ sub.resume.isSome ∧ Ended sub.heard history.course.reached) :
    Fits entryAt sub history :=
  { exact, heard, resumes, task, marks
    live := fun isLive => absurd isLive waiting.1
    idle := fun _ => ⟨idle, fun isLive => absurd isLive waiting.1⟩
    drain := fun _ isDrain => nomatch waiting.2.symm.trans isDrain }

theorem Fits.draining_of_waiting (fits : Fits entryAt sub history) (waiting : Waiting sub) :
    sub.draining = false := (fits.idle waiting.2).1

include contract in
theorem Fits.replayDelivery (fits : Fits entryAt sub history)
    (isTask : sub.task = .replaying replay) {delivery : DeliveryStage}
    (stage : replay.stage = .delivering page entry delivery) :
    Fits entryAt (sub.replayStep reader readLimit feed outside replay)
      (history.afterDelivery entry delivery) := by
  obtain ⟨replaying, stands⟩ := fits.task_as isTask
  have waiting := replaying.1
  have idle := fits.draining_of_waiting waiting
  simp only [Subscription.replayStep, stage]
  rw [stage] at stands
  obtain ⟨parsed, ahead, inside⟩ := stands
  rcases delivery_cases history sub.isClosed outside entry page.scan delivery with
    ⟨initialWrite, rfl⟩ | ⟨same, silent, closed⟩
  · have passed : HandedOver entryAt sub history
        (history.afterDelivery entry (.listening initialWrite)) _ _ _ :=
      ahead.hand contract fits.exact
    refine .of_waiting waiting idle passed.exact ?_ (fun token given => ?_)
      ⟨⟨waiting, ?_, replaying.2.2.1, replaying.2.2.2.1, ?_⟩, parsed, fun _ => passed.ahead⟩
      (.inl ?_)
    · rw [passed.handed, ← fits.heard]
      exact positions_append _ _
    · rw [passed.start]
      exact fits.resumes token given
    · exact replaying.2.1.append (.event _ _)
    · rw [passed.reached]
      exact inside
    · exact replaying.2.1.append (.event _ _)
  · rw [same]
    split
    · exact fits.retask waiting
    · exact fits.retask ⟨replaying, parsed, ahead, inside⟩
    · rename_i returns
      rw [silent, List.append_nil]
      refine fits.retask ⟨replaying, parsed, fun isReplay => ?_⟩
      cases isReplay.symm.trans (of_decide_eq_true (closed _ returns))

theorem Fits.replayTurning (fits : Fits entryAt sub history) (isTask : sub.task = .replaying replay)
    (stage : replay.stage = .turning page) :
    Fits entryAt (sub.replayStep reader readLimit feed outside replay)
      (if sub.phase = .replay then history.pass page.scanPosition else history) := by
  obtain ⟨replaying, stands⟩ := fits.task_as isTask
  have waiting := replaying.1
  have idle := fits.draining_of_waiting waiting
  simp only [Subscription.replayStep, stage]
  rw [stage] at stands
  obtain ⟨parsed, ahead, early⟩ := stands
  split
  · rename_i isReplay
    rw [if_pos isReplay]
    obtain ⟨exact, reached, start, handed⟩ := ahead.pass fits.exact
    refine .of_waiting waiting idle exact (handed ▸ fits.heard) (fun token given => ?_)
      ⟨⟨waiting, replaying.2.1, replaying.2.2.1, replaying.2.2.2.1, ?_⟩, ?_⟩ (.inl replaying.2.1)
    · rw [start]
      exact fits.resumes token given
    · rw [reached]
      exact early.le
    · rw [ReplayFits, cursorPosition_of_parse parsed, reached]
  · rename_i isClosed
    rw [if_neg (by rw [isClosed]; decide)]
    exact fits.retask trivial
  · rename_i isLive
    exact absurd isLive waiting.1

include contract in
theorem Fits.replayStep (fits : Fits entryAt sub history) (isTask : sub.task = .replaying replay) :
    Fits entryAt (sub.replayStep reader readLimit feed outside replay)
      (history.afterSubscribe feed sub) := by
  obtain ⟨replaying, stands⟩ := fits.task_as isTask
  have waiting := replaying.1
  have idle := fits.draining_of_waiting waiting
  rw [afterSubscribe, isTask]
  dsimp only
  cases stage : replay.stage with
  | checking =>
    simp only [Subscription.replayStep, stage]
    rw [stage] at stands
    split
    · exact fits.retask trivial
    · exact fits.retask ⟨replaying, stands⟩
  | reading =>
    simp only [Subscription.replayStep, stage]
    rw [stage] at stands
    split
    · exact .of_waiting waiting idle fits.exact fits.heard fits.resumes waiting fits.marks
    · rename_i result read
      have here : cursorPosition (some replay.readCursor) = history.course.reached := stands
      obtain ⟨scan, isScan, ahead⟩ := ahead_of_read contract (by simp) rfl here read
      exact .of_waiting waiting idle fits.exact fits.heard fits.resumes
        ⟨replaying, scan, isScan, ahead⟩ fits.marks
  | received result =>
    simp only [Subscription.replayStep, stage]
    rw [stage] at stands
    obtain ⟨scan, isScan, last, parsed, ahead⟩ := stands
    split
    · exact fits.retask trivial
    · split
      · exact fits.retask waiting
      · rename_i page isPage
        simp only [replayPage, isScan, ok_iff] at isPage
        obtain ⟨_, same, _, -, _, -, position, isPosition, _, -, rfl⟩ := isPage
        cases same
        cases parsed.symm.trans isPosition
        exact fits.retask ⟨replaying, parsed, ahead⟩
  | entries page =>
    simp only [Subscription.replayStep, stage]
    rw [stage] at stands
    obtain ⟨parsed, ahead⟩ := stands
    split
    · rename_i isRest
      rw [isRest] at ahead
      obtain ⟨shownFeed, isFeed, -, empty⟩ := ahead.nothing
      exact fits.retask (endPage_fits replaying parsed isFeed
        (fun other after within _ => empty other after within) fun _ => ahead)
    · rename_i entry rest isRest
      rw [isRest] at ahead
      split
      · exact fits.retask trivial
      · exact fits.retask (nextEntry_fits contract replaying parsed ahead)
  | delivering page entry delivery => exact fits.replayDelivery contract isTask stage
  | storing page cursor =>
    simp only [Subscription.replayStep, stage]
    rw [stage] at stands
    split
    · rename_i isReplay
      exact .of_waiting waiting idle fits.exact fits.heard fits.resumes
        ⟨replaying, stands.1, stands.2 isReplay⟩ fits.marks
    · exact fits.retask trivial
    · exact fits.retask waiting
  | turning page => exact fits.replayTurning isTask stage

end

section

variable {reader : FeedReader Feed} (contract : PagingContract reader entryAt) {feed : Feed}
  {readLimit : Nat} {outside : Outside} {frozen : ProgressToken}

section

variable (fits : Fits entryAt sub history)

include fits

theorem Fits.goes_live (waiting : Waiting sub)
    (ended : sub.resume.isSome → Ended sub.heard history.course.reached)
    (here : cursorPosition (some frozen) = history.course.reached) (restarts : Bool) :
    Fits entryAt { sub with
      cursor := some frozen, phase := .live
      task := if restarts then .starting else .returned none } history :=
  { fits with
    task := by cases restarts <;> trivial
    live := fun _ => ended
    idle := fun _ => ⟨fits.draining_of_waiting waiting, fun _ => here⟩
    drain := fun _ isDrain => nomatch waiting.2.symm.trans isDrain }

theorem Fits.eoseStep {stage : EoseStage} (isTask : sub.task = .eosing frozen stage) :
    Fits entryAt (sub.eoseStep frozen stage) (history.afterSubscribe feed sub) := by
  obtain ⟨waiting, resumes, stands⟩ := fits.task_as isTask
  have idle := fits.draining_of_waiting waiting
  rw [afterSubscribe, isTask]
  cases stage with
  | checking =>
    obtain ⟨once, below, unread, nothing⟩ := stands
    simp only [Subscription.eoseStep]
    split
    · rename_i isClosed
      rw [if_neg (by rw [isClosed]; decide)]
      exact fits.retask trivial
    · rename_i isLive
      exact absurd isLive waiting.1
    · rename_i isReplay
      rw [if_pos isReplay]
      obtain ⟨exact, reached, start, handed⟩ :=
        pass_of_nothing fits.exact below unread nothing
      refine .of_waiting waiting idle exact (handed ▸ fits.heard) (fun token given => ?_)
        ⟨waiting, resumes, once, reached⟩ (.inl once)
      rw [start]
      exact fits.resumes token given
  | sending =>
    obtain ⟨once, here⟩ := stands
    have ended : Ended (sub.heard ++ [.eose frozen]) history.course.reached := by
      refine ⟨sub.heard, frozen, [], rfl, once, fun _ listed => (by cases listed), ?_,
        fun _ listed => (by cases listed), here.ge⟩
      intro position listed
      rw [fits.heard] at listed
      exact here ▸ (fits.exact.within position listed).2
    refine .of_waiting waiting idle fits.exact ?_ fits.resumes ⟨waiting, resumes, ended, here⟩
      (.inr ⟨resumes, ended⟩)
    rw [← fits.heard]
    exact (positions_append _ _).trans (List.append_nil _)
  | opening =>
    obtain ⟨ended, here⟩ := stands
    simp only [Subscription.eoseStep]
    split
    · exact fits.retask trivial
    · rename_i isLive
      exact absurd isLive waiting.1
    · exact fits.goes_live waiting (fun _ => ended) here.symm _

theorem Fits.followStep (isTask : sub.task = .following frozen) :
    Fits entryAt (sub.subscribeStep reader readLimit feed outside)
      (history.afterSubscribe feed sub) := by
  obtain ⟨waiting, unheard, begins⟩ := fits.task_as isTask
  have fresh : Fits entryAt sub
      { history with course := .startAt (cursorPosition (some frozen)) } := by
    refine .of_waiting waiting (fits.draining_of_waiting waiting) (.startAt _) ?_
      (fun token given => nomatch begins.symm.trans given) ?_ (.inl fun _ listed => ?_)
    · rw [unheard]
      rfl
    · rw [isTask]
      exact ⟨waiting, unheard, begins⟩
    · rw [unheard] at listed
      cases listed
  rw [afterSubscribe, isTask]
  simp only [Subscription.subscribeStep, isTask]
  split
  · exact .of_waiting waiting (fits.draining_of_waiting waiting) fresh.exact fresh.heard
      fresh.resumes trivial fresh.marks
  · exact fresh.goes_live waiting (fun resumes => by rw [begins] at resumes; cases resumes) rfl _

theorem freeze_fits {bounds : Option ReplicationBounds} (waiting : Waiting sub)
    (unheard : sub.heard = []) (unread : history.snapshot = none)
    (begins : history.course.reached = history.course.start) :
    TaskFits entryAt sub history (sub.freeze frozen bounds) := by
  have once : NoEose sub.heard := fun _ listed => by rw [unheard] at listed; cases listed
  rw [freeze]
  split
  · exact waiting
  · rename_i task frozenAt
    simp only [bind_eq_ok] at frozenAt
    obtain ⟨_, -, frozenAt⟩ := frozenAt
    split at frozenAt
    · rename_i requested isRequested
      simp only [startReplay, ok_iff] at frozenAt
      obtain ⟨readPosition, isRead, frozenPosition, isFrozen, _, below, rfl⟩ := frozenAt
      have resumes : sub.resume.isSome = true := by rw [isRequested]; rfl
      have here : history.course.reached = readPosition := by
        rw [begins, fits.resumes requested isRequested, cursorPosition_of_parse isRead]
      have there := cursorPosition_of_parse isFrozen
      split
      · rename_i same
        refine ⟨waiting, resumes, once, ?_, fun _ => ?_, fun feed isFeed => ?_⟩
        · rw [here, there, same]
        · rw [here, there, same]
        · cases unread.symm.trans isFeed
      · exact ⟨⟨waiting, once, resumes, there, here ▸ below⟩,
          (cursorPosition_of_parse isRead).trans here.symm⟩
    · rename_i begun
      cases frozenAt
      exact ⟨waiting, unheard, begun⟩

end

include contract in
theorem Fits.subscribeStep (fits : Fits entryAt sub history) :
    Fits entryAt (sub.subscribeStep reader readLimit feed outside)
      (history.afterSubscribe feed sub) := by
  cases isTask : sub.task with
  | replaying replay =>
    simp only [Subscription.subscribeStep, isTask]
    exact fits.replayStep contract isTask
  | eosing frozen stage =>
    simp only [Subscription.subscribeStep, isTask]
    exact fits.eoseStep isTask
  | following frozen => exact fits.followStep isTask
  | validating =>
    have stands := fits.task_as isTask
    simp only [Subscription.subscribeStep, afterSubscribe, isTask]
    split
    · exact fits.retask stands
    · split
      · exact fits.retask trivial
      · exact fits.retask stands
  | bounding =>
    have stands := fits.task_as isTask
    simp only [Subscription.subscribeStep, afterSubscribe, isTask]
    split
    · exact fits.retask stands.1
    · exact fits.retask stands
    · exact fits.retask (freeze_fits fits stands.1 stands.2.1 stands.2.2.1 stands.2.2.2)
  | anchoring =>
    have stands := fits.task_as isTask
    simp only [Subscription.subscribeStep, afterSubscribe, isTask]
    split
    · exact fits.retask stands.1
    · split
      · exact fits.retask stands.1
      · exact fits.retask (freeze_fits fits stands.1 stands.2.1 stands.2.2.1 stands.2.2.2)
  | starting =>
    simp only [Subscription.subscribeStep, afterSubscribe, isTask]
    exact fits.tryStartDrain.retask trivial
  | failing error =>
    have stands := fits.task_as isTask
    simp only [Subscription.subscribeStep, afterSubscribe, isTask]
    exact fits.cleanup.retask stands.cleanup
  | _ =>
    simp only [Subscription.subscribeStep, afterSubscribe, isTask]
    exact fits

end

end Enbox.Proof.EventLog
