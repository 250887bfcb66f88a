import Enbox.Proof.EventLog.Drain

/-! # What a listener is handed -/

namespace Enbox.Proof.EventLog

open Lib Proof.Store DurableEventLog List

variable {Feed : Type} {entryAt : Feed → Did → Nat → Option EventLogEntry} {name readLimit : Nat}
  {sub : Subscription} {history : History Feed} {reader : FeedReader Feed} {traced : Traced Feed}

section

def AllFit (entryAt : Feed → Did → Nat → Option EventLogEntry)
    (subscriptions : Nat → Option Subscription) (histories : Nat → History Feed) : Prop :=
  ∀ name sub, subscriptions name = some sub → Fits entryAt sub (histories name)

variable {subscriptions : Nat → Option Subscription} {histories : Nat → History Feed}

theorem AllFit.update (all : AllFit entryAt subscriptions histories)
    (fits : Fits entryAt sub history) :
    AllFit entryAt (Function.update subscriptions name (some sub))
      (Function.update histories name history) := by
  intro other known isKnown
  by_cases same : other = name
  · subst same
    rw [Function.update_self] at isKnown ⊢
    cases isKnown
    exact fits
  · rw [Function.update_of_ne same] at isKnown ⊢
    exact all other known isKnown

theorem AllFit.replace (all : AllFit entryAt subscriptions histories)
    (fits : Fits entryAt sub (histories name)) :
    AllFit entryAt (Function.update subscriptions name (some sub)) histories := by
  have updated : AllFit entryAt (Function.update subscriptions name (some sub))
      (Function.update histories name (histories name)) := all.update fits
  rwa [Function.update_eq_self] at updated

variable {log : DurableEventLog Feed}

theorem AllFit.change (all : AllFit entryAt log.subscriptions histories)
    {update : Subscription → Subscription}
    (kept : ∀ {sub history}, Fits entryAt sub history → Fits entryAt (update sub) history) :
    AllFit entryAt (log.change name update).subscriptions histories := by
  rw [DurableEventLog.change]
  split
  · exact all
  · rename_i sub known
    exact all.replace (kept (all name sub known))

theorem unregister_subscriptions (log : DurableEventLog Feed) (name : Nat) (sub : Subscription) :
    (log.unregister name sub).subscriptions = log.subscriptions := by
  rw [unregister]
  split <;> rfl

variable (contract : PagingContract reader entryAt) {outside : Outside}

include contract in
theorem AllFit.advance (all : AllFit entryAt log.subscriptions histories)
    (known : log.subscriptions name = some sub) :
    AllFit entryAt (log.advance reader readLimit outside name sub).subscriptions
      (Function.update histories name ((histories name).afterSubscribe log.feed sub)) := by
  have fits := all name sub known
  cases isTask : sub.task with
  | installing =>
    have stands := fits.task_as isTask
    simp only [DurableEventLog.advance, History.afterSubscribe, isTask, Function.update_eq_self]
    split
    · exact all
    · split
      · exact all.replace (fits.retask trivial)
      · exact all.replace (fits.retask stands)
  | displacing displaced =>
    have stands := fits.task_as isTask
    simp only [DurableEventLog.advance, History.afterSubscribe, isTask, Function.update_eq_self]
    refine AllFit.replace ?_ (fits.retask stands)
    cases displaced with
    | none => exact all
    | some other => exact all.change Fits.cleanup
  | inserting =>
    have stands := fits.task_as isTask
    simp only [DurableEventLog.advance, History.afterSubscribe, isTask, Function.update_eq_self]
    exact all.replace (fits.retask stands)
  | unregistering error =>
    simp only [DurableEventLog.advance, History.afterSubscribe, isTask, Function.update_eq_self,
      put, unregister_subscriptions]
    exact all.replace (fits.retask trivial)
  | _ =>
    simp only [DurableEventLog.advance, isTask]
    exact all.update (fits.subscribeStep contract)

include contract in
theorem AllFit.drainStep (all : AllFit entryAt log.subscriptions histories)
    (known : log.subscriptions name = some sub) :
    AllFit entryAt (log.drainStep reader readLimit outside name sub).subscriptions
      (Function.update histories name ((histories name).afterDrain log.feed sub)) := by
  have fits := all name sub known
  rw [DurableEventLog.drainStep]
  split
  · rename_i isDrain
    rw [History.afterDrain, isDrain, Function.update_eq_self]
    exact all
  · rename_i isDrain
    rw [put, unregister_subscriptions]
    exact all.update (fits.drainStep contract isDrain)
  · rename_i isDrain
    exact all.update (fits.drainStep contract isDrain)

theorem startDrain_fits (fits : Fits entryAt sub history) :
    Fits entryAt (startDrain sub) history := by
  rw [startDrain]
  split
  · exact fits
  · have started := fits.tryStartDrain
    exact { started with }

theorem made_fits (tenant : Did) (id : String) (options : EventLogSubscribeOptions) :
    Fits entryAt (.made tenant id options)
      { course := .startAt (cursorPosition options.cursor) } := by
  have waiting : Waiting (.made tenant id options) := ⟨fun isLive => (by cases isLive), rfl⟩
  refine .of_waiting waiting rfl (.startAt _) rfl (fun token given => ?_)
    ⟨waiting, rfl, rfl, rfl⟩ (.inl fun _ listed => by cases listed)
  exact congrArg cursorPosition given

include contract in
theorem AllFit.step (all : AllFit entryAt traced.log.subscriptions traced.histories)
    (event : EventLogEvent Feed) :
    AllFit entryAt (traced.step reader readLimit event).log.subscriptions
      (traced.step reader readLimit event).histories := by
  cases event with
  | commit feed => exact all
  | subscribe name tenant id options =>
    simp only [Traced.step, DurableEventLog.step]
    split
    · exact all
    · exact all.update (made_fits tenant id options)
  | advance name outside =>
    simp only [Traced.step, DurableEventLog.step, Traced.record]
    cases known : traced.log.subscriptions name with
    | none => exact all
    | some sub => exact all.advance contract known
  | drain name outside =>
    simp only [Traced.step, DurableEventLog.step, Traced.record]
    cases known : traced.log.subscriptions name with
    | none => exact all
    | some sub => exact all.drainStep contract known
  | wake name => exact all.change Fits.requestDrain
  | start name => exact all.change startDrain_fits
  | close name => exact all.change Fits.cleanup
  | unregister name =>
    simp only [Traced.step, DurableEventLog.step]
    split
    · exact all
    · split
      · rw [unregister_subscriptions]
        exact all
      · exact all
  | shut => exact all

end

section

variable {feed : Feed}

def Traced.opened (feed : Feed) : Traced Feed := { log := { feed } }

theorem fits_of_reaches (contract : PagingContract reader entryAt)
    (reached : Reaches (Traced.step reader readLimit) (fun _ _ => True) (.opened feed) traced) :
    AllFit entryAt traced.log.subscriptions traced.histories :=
  reached.invariant (P := fun traced => AllFit entryAt traced.log.subscriptions traced.histories)
    (fun _ _ known => nomatch known) fun _ event all _ => all.step contract event

/-- In every interleaving the positions that are handed over increase, and none is passed over at
which an entry was shown when the feed was read across it. Without a resume cursor the course starts
at the head that was frozen when the subscription began to follow. -/
theorem delivered_in_order (contract : PagingContract reader entryAt)
    (reached : Reaches (Traced.step reader readLimit) (fun _ _ => True) (.opened feed) traced)
    (known : traced.log.subscriptions name = some sub) :
    (positions sub.heard).Pairwise (· < ·) ∧
    (∀ token, sub.resume = some token →
      (traced.histories name).course.start = cursorPosition (some token)) ∧
    ∀ before position after, positions sub.heard = before ++ position :: after →
      (traced.histories name).course.start < position ∧
      ∀ other, (traced.histories name).course.start < other → other < position →
        ∃ feed, (traced.histories name).course.passed other = some feed ∧
          (other ∈ before ↔ Shown entryAt sub feed other) := by
  have fits := fits_of_reaches contract reached name sub known
  rw [fits.heard]
  refine ⟨fits.exact.increasing, fits.resumes, fun before position after split => ⟨?_, ?_⟩⟩
  · exact (fits.exact.within position (by simp [split])).1
  · exact fun other later earlier => fits.exact.before split later earlier

theorem Ends.unique {heard before after before' after' : List SubscriptionMessage} {reached : Nat}
    {frozen frozen' : ProgressToken} (ends : Ends heard reached before frozen after)
    (split : heard = before' ++ .eose frozen' :: after') :
    before' = before ∧ frozen' = frozen ∧ after' = after := by
  have same := ends.split.symm.trans split
  rcases append_eq_append_iff.mp same with ⟨more, isBefore, isAfter⟩ | ⟨more, isBefore, isAfter⟩
  · cases more with
    | nil =>
      cases isAfter
      exact ⟨isBefore.trans (append_nil _), rfl, rfl⟩
    | cons first rest =>
      cases isAfter
      exact absurd (mem_append_right rest mem_cons_self) (ends.onceAfter frozen')
  · cases more with
    | nil =>
      cases isAfter
      exact ⟨(isBefore.trans (append_nil _)).symm, rfl, rfl⟩
    | cons first rest =>
      cases isAfter
      exact absurd (isBefore ▸ mem_append_right before' mem_cons_self)
        (ends.onceBefore frozen')

/-- In every interleaving a listener is told once at most that the stored events have ended, after
what was shown up to the frozen head and before what lies beyond it. -/
theorem ended_once (contract : PagingContract reader entryAt)
    (reached : Reaches (Traced.step reader readLimit) (fun _ _ => True) (.opened feed) traced)
    (known : traced.log.subscriptions name = some sub) {token : ProgressToken}
    (resumes : sub.resume = some token) :
    (sub.drain.isSome → ∃ frozen, .eose frozen ∈ sub.heard) ∧
    ∀ before frozen after, sub.heard = before ++ .eose frozen :: after →
      NoEose before ∧ NoEose after ∧
      (∀ other, cursorPosition (some token) < other → other ≤ cursorPosition (some frozen) →
        ∃ feed, (traced.histories name).course.passed other = some feed ∧
          (other ∈ positions before ↔ Shown entryAt sub feed other)) ∧
      ∀ position ∈ positions sub.heard,
        position ∈ positions after ↔ cursorPosition (some frozen) < position := by
  have fits := fits_of_reaches contract reached name sub known
  refine ⟨fun drains => ?_, fun before frozen after split => ?_⟩
  · obtain ⟨drain, isDrain⟩ := Option.isSome_iff_exists.mp drains
    obtain ⟨-, -, ended, -⟩ := fits.drain drain isDrain
    obtain ⟨before, frozen, after, ends⟩ := ended (by rw [resumes]; rfl)
    exact ⟨frozen, by simp [ends.split]⟩
  · have told : .eose frozen ∈ sub.heard := by simp [split]
    obtain ⟨-, before', frozen', after', ends⟩ := fits.marks.resolve_left fun once => once frozen told
    obtain ⟨rfl, rfl, rfl⟩ := ends.unique split
    have handed : positions sub.heard = positions before ++ positions after := by
      rw [split, positions_append]
      rfl
    refine ⟨ends.onceBefore, ends.onceAfter, fun other later within => ?_, fun position listed => ?_⟩
    · obtain ⟨shownFeed, wasPassed, same⟩ := fits.exact.passed other
        (fits.resumes token resumes ▸ later) (within.trans ends.passed)
      refine ⟨shownFeed, wasPassed, Iff.trans ⟨fun early => ?_, fun any => ?_⟩ same⟩
      · rw [← fits.heard, handed]
        exact mem_append_left _ early
      · rw [← fits.heard, handed] at any
        exact (mem_append.mp any).resolve_right fun late =>
          absurd (ends.above other late) within.not_gt
    · refine ⟨ends.above position, fun beyond => ?_⟩
      rw [handed] at listed
      exact (mem_append.mp listed).resolve_left fun early =>
        absurd (ends.below position early) beyond.not_ge

end

namespace Changes

open Run.Threads (p one two configureMessage)

def flagged (latest : Bool) : Indexes := [(.isLatestBaseState, .scalar (.bool latest))]

def first : FeedEvent := .put "did:ex:alice" ⟨one, flagged true⟩

def second : FeedEvent := .commit "did:ex:alice"
  { put := ⟨two, flagged true⟩, retains := [⟨one, flagged false⟩] }

def third : FeedEvent := .put "did:ex:alice" ⟨configureMessage, flagged false⟩

theorem bounded_run (events : List FeedEvent) :
    Bounded (events.foldl (feedStep p fun _ => 0) { epoch := "e" }) :=
  (reaches_foldl (feedStep p fun _ => 0) events { epoch := "e" }).invariant (bounded_initial "e")
    fun _ event bounded _ => bounded.step event

noncomputable section

def fed (events : List FeedEvent) : MemoryFeed :=
  ⟨events.foldl (feedStep p fun _ => 0) { epoch := "e" }, bounded_run events⟩

def run (feed : MemoryFeed) (events : List (EventLogEvent MemoryFeed)) :
    Traced MemoryFeed :=
  events.foldl (Traced.step (memoryFeedReader p id) 100) (.opened feed)

theorem run_reached (feed : MemoryFeed) (events : List (EventLogEvent MemoryFeed)) :
    Reaches (Traced.step (memoryFeedReader p id) 100) (fun _ _ => True) (.opened feed)
      (run feed events) := reaches_foldl _ events _

def advances (count : Nat) : List (EventLogEvent MemoryFeed) := List.replicate count (.advance 0 {})

def drains (count : Nat) : List (EventLogEvent MemoryFeed) :=
  [.wake 0, .start 0] ++ List.replicate count (.drain 0 {})

def superseded : Option Filters := some [[(.isLatestBaseState, boolFilter false)]]

def followed : Traced MemoryFeed :=
  run (fed []) (.subscribe 0 "did:ex:alice" "s" { filters := superseded } :: advances 8 ++
    [.commit (fed [first])] ++ drains 6 ++
    [.commit (fed [first, second]), .commit (fed [first, second, third])] ++ drains 12)

theorem followed_in_order : ∃ sub, followed.log.subscriptions 0 = some sub ∧
    positions sub.heard = [3] ∧
    ∃ feed, (followed.histories 0).course.passed 2 = some feed ∧
      ¬ Shown (memoryEntryAt p) sub feed 2 := by
  obtain ⟨sub, known⟩ : ∃ sub, followed.log.subscriptions 0 = some sub :=
    Option.isSome_iff_exists.mp rfl
  have heard : positions sub.heard = [3] := by
    have same : (followed.log.subscriptions 0).map (fun sub => positions sub.heard) = some [3] := rfl
    rw [known] at same
    exact Option.some.inj same
  have start : (followed.histories 0).course.start = 0 := rfl
  have reached : Reaches (Traced.step (memoryFeedReader p id) 100) (fun _ _ => True)
      (.opened (fed [])) followed := run_reached _ _
  obtain ⟨-, -, before⟩ := delivered_in_order (memory_contract p id) reached known
  obtain ⟨feed, wasPassed, same⟩ := (before [] 3 [] heard).2 2 (by rw [start]; decide) (by decide)
  exact ⟨sub, known, heard, feed, wasPassed, fun shown => by cases same.mpr shown⟩

theorem reindexed_entry_not_delivered :
    (followed.log.subscriptions 0).map (fun sub => positions sub.heard) = some [3] ∧
    (followed.histories 0).course.start = 0 ∧
    (shownAt (memoryEntryAt p) followed.log.feed "did:ex:alice" superseded 1).isSome = true :=
  ⟨rfl, rfl, rfl⟩

def fromStart : ProgressToken := ⟨"did:ex:alice", "e", "0", none⟩

def subscribed : List (EventLogEvent MemoryFeed) :=
  .subscribe 0 "did:ex:alice" "s" { cursor := some fromStart } :: advances 5

def frozen : Traced MemoryFeed := run (fed [first, third]) subscribed

def replayed : Traced MemoryFeed :=
  run (fed [first, third])
    (subscribed ++ [.commit (fed [first, third, .delete "did:ex:alice" "m3"])] ++ advances 12)

def frozenHead : ProgressToken := ⟨"did:ex:alice", "e", "2", some "m0"⟩

theorem replayed_before_end : ∃ sub event, replayed.log.subscriptions 0 = some sub ∧
    sub.heard = [event, .eose frozenHead] ∧
    ∃ feed, (replayed.histories 0).course.passed 2 = some feed ∧
      (2 ∈ positions [event] ↔ Shown (memoryEntryAt p) sub feed 2) := by
  obtain ⟨sub, known⟩ : ∃ sub, replayed.log.subscriptions 0 = some sub :=
    Option.isSome_iff_exists.mp rfl
  have resumes : sub.resume = some fromStart := by
    have same : (replayed.log.subscriptions 0).map (·.resume) = some (some fromStart) := rfl
    rw [known] at same
    exact Option.some.inj same
  obtain ⟨event, heard⟩ : ∃ event, sub.heard = [event, .eose frozenHead] := by
    have same : ∃ event, (replayed.log.subscriptions 0).map (·.heard) =
      some [event, .eose frozenHead] := ⟨_, rfl⟩
    rw [known] at same
    exact same.imp fun _ => Option.some.inj
  have reached : Reaches (Traced.step (memoryFeedReader p id) 100) (fun _ _ => True)
      (.opened (fed [first, third])) replayed := run_reached _ _
  obtain ⟨-, ends⟩ := ended_once (memory_contract p id) reached known resumes
  obtain ⟨-, -, shown, -⟩ := ends [event] frozenHead [] heard
  exact ⟨sub, event, known, heard, shown 2 (by decide) (by decide)⟩

theorem removed_entry_not_replayed :
    (shownAt (memoryEntryAt p) frozen.log.feed "did:ex:alice" none 1).isSome = true ∧
    (frozen.log.subscriptions 0).map (fun sub => sub.heard) = some [] ∧
    (replayed.log.subscriptions 0).map (fun sub => positions sub.heard) = some [2] ∧
    (replayed.log.subscriptions 0).bind (fun sub => sub.heard.getLast?) = some (.eose frozenHead) :=
  ⟨rfl, rfl, rfl, rfl⟩

end

end Changes

end Enbox.Proof.EventLog
