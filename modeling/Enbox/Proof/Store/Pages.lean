import Enbox.Proof.Store.Reader

/-! # Following the feed page by page -/

namespace Enbox.Proof.Store

open Lib List

structure Page where
  feed : MemoryMessageState
  options : EventLogReadOptions
  result : EventLogReadResult

structure Reader where
  feed : MemoryMessageState
  cursor : Option ProgressToken := none
  pages : List Page := []

inductive ReaderEvent
  | feed (event : FeedEvent)
  | read (limit : Option Nat) (filters : Option Filters)

def ReaderEvent.isRead : ReaderEvent → Bool
  | .feed _ => false
  | .read _ _ => true

section

variable (p : Primitives) (contribution : Cid → Fingerprint) (streamId : Did → String)
  (tenant : Did)

def Reader.step (reader : Reader) : ReaderEvent → Reader
  | .feed event => { reader with feed := feedStep p contribution reader.feed event }
  | .read limit filters =>
      match logRead p streamId reader.feed tenant ⟨reader.cursor, limit, filters⟩ with
      | .ok result =>
          { reader with
            cursor := result.cursor
            pages := reader.pages ++ [⟨reader.feed, ⟨reader.cursor, limit, filters⟩, result⟩] }
      | .error _ => reader

def Follows (_ : Reader) : ReaderEvent → Prop
  | .feed event => FeedEvent.actor event ≠ none
  | .read limit filters => limit ≠ some 0 ∧ filters.all hasValidSubtreeFilters = true

structure Covers (page : Page) (first last : Nat) : Prop where
  consistent : Consistent p contribution page.feed
  given : cursorPosition page.options.cursor = first
  returned : cursorPosition page.result.cursor = last
  ordered : first ≤ last
  events : page.result.events = eventsIn p page.feed tenant page.options.filters first last
  drained : page.result.drained = true ↔ page.feed.head tenant ≤ last
  advances : page.result.drained = false → first < last

inductive Linked : List Page → Nat → Prop
  | nil : Linked [] 0
  | snoc {pages : List Page} {page : Page} {first last : Nat} (linked : Linked pages first)
      (covers : Covers p contribution tenant page first last) : Linked (pages ++ [page]) last

end

section

variable {p : Primitives} {contribution : Cid → Fingerprint} {streamId : Did → String}
  {tenant : Did} {pages : List Page} {last : Nat}

theorem covers_of_read {feed : MemoryMessageState} {options : EventLogReadOptions}
    {result : EventLogReadResult} (consistent : Consistent p contribution feed)
    (bounded : Bounded feed) (limit : options.limit ≠ some 0)
    (read : logRead p streamId feed tenant options = .ok result) :
    ∃ last token, result.cursor = some token ∧ Resumes streamId feed tenant token last ∧
      Covers p contribution tenant ⟨feed, options, result⟩ (cursorPosition options.cursor) last := by
  obtain ⟨starts, last, reads⟩ := reads_of_ok bounded read
  obtain ⟨token, isToken, resumes⟩ := reads.resumes bounded starts
  have within := starts.within
  have returned : cursorPosition result.cursor = last := by
    rw [isToken, resumes.cursorPosition_eq]
  refine ⟨last, token, isToken, resumes, ?_⟩
  cases reads with
  | nothing unread =>
    have empty : feed.head tenant = 0 := unread.resolve_right limit
    exact ⟨consistent, rfl, returned, le_rfl, by simp [eventsIn], by simp, by simp [empty]⟩
  | exhausted atHead =>
    exact ⟨consistent, rfl, returned, le_rfl, by simp [eventsIn], by simp [atHead], by simp⟩
  | scanned last messageCid lower upper message =>
    exact ⟨consistent, rfl, returned, lower.le, rfl, by simp, fun _ => lower⟩

theorem eventsIn_seq (p : Primitives) (feed : MemoryMessageState) (tenant : Did)
    (filters : Option Filters) (first last : Nat) :
    ∃ positions : List Nat, positions.Sublist (List.range' (first + 1) (last - first)) ∧
      (eventsIn p feed tenant filters first last).map (·.seq) = positions.map toString := by
  rw [eventsIn]
  generalize List.range' (first + 1) (last - first) = range
  induction range with
  | nil => exact ⟨[], List.Sublist.refl _, rfl⟩
  | cons position rest ih =>
    obtain ⟨positions, listed, sameSeq⟩ := ih
    rw [filterMap_cons]
    cases shown : eventAt p feed tenant filters position with
    | none => exact ⟨positions, listed.cons position, sameSeq⟩
    | some event =>
      obtain ⟨entry, -, seq, -⟩ := eventAt_some shown
      exact ⟨position :: positions, listed.cons_cons position, by simp [seq, sameSeq]⟩

theorem Linked.positions (linked : Linked p contribution tenant pages last) :
    ∃ positions : List Nat, positions.Pairwise (· < ·) ∧ (∀ position ∈ positions, position ≤ last) ∧
      (pages.flatMap (·.result.events)).map (·.seq) = positions.map toString := by
  induction linked with
  | nil => exact ⟨[], List.Pairwise.nil, by simp, rfl⟩
  | snoc linked covers ih =>
    rename_i pages page first last
    obtain ⟨earlier, increasing, below, sameSeq⟩ := ih
    obtain ⟨here, listed, sameHere⟩ :=
      eventsIn_seq p page.feed tenant page.options.filters first last
    have ordered := covers.ordered
    have within : ∀ position ∈ here, first < position ∧ position ≤ last := fun position mem => by
      have inRange := mem_range'_1.mp (listed.subset mem)
      omega
    refine ⟨earlier ++ here, pairwise_append.mpr ⟨increasing,
      List.Pairwise.sublist listed pairwise_lt_range', fun a inEarlier b inHere => ?_⟩,
      fun a mem => ?_, ?_⟩
    · exact (below a inEarlier).trans_lt (within b inHere).1
    · rcases mem_append.mp mem with inEarlier | inHere
      · exact (below a inEarlier).trans ordered
      · exact (within a inHere).2
    · rw [flatMap_append, map_append, sameSeq, map_append, ← sameHere, ← covers.events]
      simp

theorem Linked.page_of_position (linked : Linked p contribution tenant pages last) {position : Nat}
    (positive : 0 < position) (reached : position ≤ last) :
    ∃ page ∈ pages, ∃ first last, Covers p contribution tenant page first last ∧
      first < position ∧ position ≤ last := by
  induction linked with
  | nil => omega
  | snoc linked covers ih =>
    rename_i pages page first last
    by_cases earlier : position ≤ first
    · obtain ⟨found, mem, rest⟩ := ih earlier
      exact ⟨found, mem_append_left _ mem, rest⟩
    · exact ⟨page, by simp, first, last, covers, by omega, reached⟩

theorem Covers.delivers {page : Page} {first last position : Nat}
    (covers : Covers p contribution tenant page first last) (after : first < position)
    (upTo : position ≤ last) {entry : MemoryFeedEntry}
    (retained : page.feed.entries.lookup (tenant, position) = some entry)
    (passes : matchesOptionalFilters entry.indexes page.options.filters = true) :
    ∃ event ∈ page.result.events, event.seq = toString position ∧
      event.messageCid = some entry.messageCid := by
  obtain ⟨event, shown⟩ := covers.consistent.eventAt_of_entry retained passes
  obtain ⟨entry', found, seq, ofCid⟩ := eventAt_some shown
  cases retained.symm.trans found
  refine ⟨event, ?_, seq, ofCid⟩
  rw [covers.events, eventsIn]
  exact mem_filterMap.mpr ⟨position, mem_range'_1.mpr (by omega), shown⟩

theorem Linked.covers_of_mem (linked : Linked p contribution tenant pages last) {page : Page}
    (mem : page ∈ pages) : ∃ first stop, Covers p contribution tenant page first stop ∧
      stop ≤ last := by
  induction linked with
  | nil => cases mem
  | snoc linked covers ih =>
    rcases mem_append.mp mem with earlier | here
    · obtain ⟨first, stop, covers', below⟩ := ih earlier
      exact ⟨first, stop, covers', below.trans covers.ordered⟩
    · cases mem_singleton.mp here
      exact ⟨_, _, covers, le_rfl⟩

structure Session (p : Primitives) (contribution : Cid → Fingerprint) (streamId : Did → String)
    (tenant : Did) (floor : Nat) (reader : Reader) (position : Nat) : Prop where
  consistent : Consistent p contribution reader.feed
  bounded : Bounded reader.feed
  grown : floor ≤ reader.feed.head tenant ∧ ∀ page ∈ reader.pages, floor ≤ page.feed.head tenant
  starts : StartsAt streamId reader.feed tenant reader.cursor position
  linked : Linked p contribution tenant reader.pages position

variable {reader : Reader} {position floor : Nat}

theorem Session.feed (law : p.CollisionFree)
    (session : Session p contribution streamId tenant floor reader position) {event : FeedEvent}
    (lasts : FeedEvent.actor event ≠ none) :
    Session p contribution streamId tenant floor
      (reader.step p contribution streamId tenant (.feed event)) position where
  consistent := session.consistent.step law event
  bounded := session.bounded.step event
  grown := ⟨session.grown.1.trans (stable_step tenant lasts).head, session.grown.2⟩
  starts := session.starts.stable (stable_step tenant lasts)
  linked := session.linked

theorem Session.read (session : Session p contribution streamId tenant floor reader position)
    {limit : Option Nat} {filters : Option Filters} (positive : limit ≠ some 0)
    (valid : filters.all hasValidSubtreeFilters = true) :
    ∃ page last, Covers p contribution tenant page position last ∧
      (reader.step p contribution streamId tenant (.read limit filters)).pages =
        reader.pages ++ [page] ∧
      Session p contribution streamId tenant floor
        (reader.step p contribution streamId tenant (.read limit filters)) last := by
  obtain ⟨result, read⟩ :=
    session.consistent.logRead_succeeds ⟨reader.cursor, limit, filters⟩ session.starts valid
  obtain ⟨last, token, isToken, resumes, covers⟩ :=
    covers_of_read session.consistent session.bounded positive read
  rw [session.starts.1] at covers
  refine ⟨_, last, covers, by rw [Reader.step, read], ?_⟩
  rw [Reader.step, read]
  refine ⟨session.consistent, session.bounded, ⟨session.grown.1, ?_⟩, ⟨covers.returned, ?_⟩,
    .snoc session.linked covers⟩
  · intro page mem
    rcases mem_append.mp mem with earlier | here
    · exact session.grown.2 page earlier
    · cases mem_singleton.mp here
      exact session.grown.1
  · intro token' isToken'
    cases isToken.symm.trans isToken'
    exact resumes

theorem session_of_reaches (law : p.CollisionFree) {epoch : String} {feed : MemoryMessageState}
    (reached : Reaches (feedStep p contribution) (fun _ _ => True) { epoch } feed)
    (followed : Reaches (Reader.step p contribution streamId tenant) Follows { feed } reader) :
    ∃ position, Session p contribution streamId tenant (feed.head tenant) reader position := by
  refine followed.invariant (P := fun reader =>
    ∃ position, Session p contribution streamId tenant (feed.head tenant) reader position) ?_ ?_
  · have bounded : Bounded feed :=
      reached.invariant (bounded_initial epoch) fun _ event bounded _ => bounded.step event
    exact ⟨0, consistent_of_reaches law reached, bounded, ⟨le_rfl, by simp⟩,
      ⟨rfl, fun _ absent => by cases absent⟩, .nil⟩
  · rintro reader event ⟨position, session⟩ allowed
    cases event with
    | feed event => exact ⟨position, session.feed law allowed⟩
    | read limit filters =>
      obtain ⟨_, last, -, -, next⟩ := session.read allowed.1 allowed.2
      exact ⟨last, next⟩

theorem Session.drains (law : p.CollisionFree) {events : List ReaderEvent} :
    ∀ {reader : Reader} {position : Nat},
      Session p contribution streamId tenant floor reader position →
      AllowedAlong (Reader.step p contribution streamId tenant) Follows reader events →
      ∃ last new, Session p contribution streamId tenant floor
          (events.foldl (Reader.step p contribution streamId tenant) reader) last ∧
        (events.foldl (Reader.step p contribution streamId tenant) reader).pages =
          reader.pages ++ new ∧
        ((∃ page ∈ new, page.result.drained = true) ∨
          position + events.countP (·.isRead) ≤ last) := by
  induction events with
  | nil =>
    intro reader position session _
    exact ⟨position, [], session, by simp, .inr le_rfl⟩
  | cons event rest ih =>
    intro reader position session ⟨allowed, along⟩
    cases event with
    | feed event =>
      obtain ⟨last, new, final, pages, drained⟩ := ih (session.feed law allowed) along
      exact ⟨last, new, final, pages, by simpa [ReaderEvent.isRead] using drained⟩
    | read limit filters =>
      obtain ⟨page, middle, covers, added, next⟩ := session.read allowed.1 allowed.2
      obtain ⟨last, new, final, pages, drained⟩ := ih next along
      refine ⟨last, page :: new, final, ?_, ?_⟩
      · rw [foldl_cons, pages, added, append_assoc]
        rfl
      · cases isDrained : page.result.drained with
        | true => exact .inl ⟨page, mem_cons_self, isDrained⟩
        | false =>
          have advanced := covers.advances isDrained
          rcases drained with ⟨page, mem, isDrained'⟩ | moved
          · exact .inl ⟨page, mem_cons_of_mem _ mem, isDrained'⟩
          · refine .inr ?_
            rw [countP_cons_of_pos (by rfl)]
            omega

end

/-- The pages of a client that follows its cursors, while the store takes puts, commits and deletes:
their positions increase, each delivers what it covers, every read succeeds, and a feed that does
not grow is drained. -/
theorem pages_of_followed_feed {p : Primitives} (law : p.CollisionFree)
    {contribution : Cid → Fingerprint} {streamId : Did → String} {tenant : Did} {epoch : String}
    {feed : MemoryMessageState} {reader : Reader}
    (reached : Reaches (feedStep p contribution) (fun _ _ => True) { epoch } feed)
    (followed : Reaches (Reader.step p contribution streamId tenant) Follows { feed } reader) :
    (∃ positions : List Nat, positions.Pairwise (· < ·) ∧
      (reader.pages.flatMap (·.result.events)).map (·.seq) = positions.map toString) ∧
    (∀ page ∈ reader.pages,
      (page.result.drained = false →
        cursorPosition page.options.cursor < cursorPosition page.result.cursor) ∧
      (page.result.drained = true → feed.head tenant ≤ cursorPosition reader.cursor)) ∧
    (∀ position, 0 < position → position ≤ cursorPosition reader.cursor →
      ∃ page ∈ reader.pages, cursorPosition page.options.cursor < position ∧
        position ≤ cursorPosition page.result.cursor ∧
        ∀ entry, page.feed.entries.lookup (tenant, position) = some entry →
          matchesOptionalFilters entry.indexes page.options.filters = true →
          ∃ event ∈ page.result.events, event.seq = toString position ∧
            event.messageCid = some entry.messageCid) ∧
    (∀ limit filters, limit ≠ some 0 → filters.all hasValidSubtreeFilters = true →
      ∃ result, logRead p streamId reader.feed tenant ⟨reader.cursor, limit, filters⟩ =
        .ok result) ∧
    ∀ events, AllowedAlong (Reader.step p contribution streamId tenant) Follows reader events →
      (events.foldl (Reader.step p contribution streamId tenant) reader).feed.head tenant =
        reader.feed.head tenant →
      reader.feed.head tenant < events.countP (·.isRead) →
      ∃ page ∈ (events.foldl (Reader.step p contribution streamId tenant) reader).pages.drop
        reader.pages.length, page.result.drained = true := by
  obtain ⟨position, session⟩ := session_of_reaches law reached followed
  have here : cursorPosition reader.cursor = position := session.starts.1
  refine ⟨?_, fun page mem => ?_, fun asked positive upTo => ?_, fun limit filters _ valid => ?_,
    fun events along stopped many => ?_⟩
  · obtain ⟨positions, increasing, -, sameSeq⟩ := session.linked.positions
    exact ⟨positions, increasing, sameSeq⟩
  · obtain ⟨first, last, covers, below⟩ := session.linked.covers_of_mem mem
    rw [covers.given, covers.returned, here]
    refine ⟨covers.advances, fun drained => ?_⟩
    exact (session.grown.2 page mem).trans ((covers.drained.mp drained).trans below)
  · rw [here] at upTo
    obtain ⟨page, mem, first, last, covers, after, within⟩ :=
      session.linked.page_of_position positive upTo
    refine ⟨page, mem, ?_, ?_, fun entry retained passes => covers.delivers after within retained passes⟩
    · rwa [covers.given]
    · rwa [covers.returned]
  · exact session.consistent.logRead_succeeds _ session.starts valid
  · obtain ⟨last, new, final, pages, drained⟩ := session.drains law along
    rw [pages, drop_left]
    refine drained.resolve_right fun moved => ?_
    have within := final.starts.within
    omega


section

open Run.Threads (p one two role collisionFree)

def betweenReads : List ReaderEvent :=
  [.read (some 1) none, .feed deletion, .feed (.put "did:ex:alice" ⟨role, threadIndexes⟩),
    .read none none]

noncomputable def threadReader : Reader :=
  betweenReads.foldl (Reader.step p threadContribution id "did:ex:alice") { feed := twoThreads.state }

theorem pages_of_threads :
    (threadReader.pages.flatMap (·.result.events)).map (·.seq) = ["1", "3"] ∧
    threadReader.pages.map (·.result.drained) = [false, true] ∧
    ∃ positions : List Nat, positions.Pairwise (· < ·) ∧
      (threadReader.pages.flatMap (·.result.events)).map (·.seq) = positions.map toString := by
  have along : AllowedAlong (feedStep p threadContribution) (fun _ _ => True) { epoch := "1" }
      [.put "did:ex:alice" ⟨one, threadIndexes⟩, .put "did:ex:alice" ⟨two, threadIndexes⟩] :=
    ⟨trivial, trivial, trivial⟩
  have reached : Reaches (feedStep p threadContribution) (fun _ _ => True) { epoch := "1" }
      twoThreads.state := along.reaches
  have follows : AllowedAlong (Reader.step p threadContribution id "did:ex:alice") Follows
      { feed := twoThreads.state } betweenReads := by
    refine ⟨?_, ?_, ?_, ?_, trivial⟩ <;> simp [Follows, FeedEvent.actor, deletion]
  exact ⟨rfl, rfl, (pages_of_followed_feed collisionFree reached follows.reaches).1⟩

end

end Enbox.Proof.Store
