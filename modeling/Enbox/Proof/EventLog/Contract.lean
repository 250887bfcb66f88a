import Enbox.Lib.Course
import Enbox.Proof.Store.Reader
import Enbox.Store.EventLog

/-! # The paging contract -/

namespace Enbox.Proof.EventLog

open Lib Proof.Store

def shownAt {Feed : Type} (entryAt : Feed → Did → Nat → Option EventLogEntry) (feed : Feed)
    (tenant : Did) (filters : Option Filters) (position : Nat) : Option EventLogEntry :=
  (entryAt feed tenant position).filter fun entry => matchesOptionalFilters entry.indexes filters

structure PagingContract {Feed : Type} (reader : FeedReader Feed)
    (entryAt : Feed → Did → Nat → Option EventLogEntry) : Prop where
  seq : ∀ {feed tenant position entry}, entryAt feed tenant position = some entry →
    entry.seq = toString position
  page : ∀ {feed tenant options result}, options.limit ≠ some 0 →
    reader.logRead feed tenant options = .ok result →
      ∃ scan last, result.cursor = some scan ∧ parseFeedPosition scan.position = .ok last ∧
        cursorPosition options.cursor ≤ last ∧
        result.events = window (shownAt entryAt feed tenant options.filters)
          (cursorPosition options.cursor) last

theorem cursorPosition_of_parse {token : ProgressToken} {position : Nat}
    (parsed : parseFeedPosition token.position = .ok position) :
    cursorPosition (some token) = position := by
  simp [cursorPosition, parsed, Except.toOption]

section

variable {p : Primitives} {streamId : Did → String}

def memoryEntryAt (p : Primitives) (feed : MemoryFeed) (tenant : Did) (position : Nat) :
    Option EventLogEntry :=
  (feed.1.entries.lookup (tenant, position)).bind fun entry =>
    (readEntry p feed.1 tenant position entry).toOption

theorem toOption_readEntry {state : MemoryMessageState} {tenant : Did} {position : Nat}
    {entry : MemoryFeedEntry} {event : EventLogEntry}
    (read : (readEntry p state tenant position entry).toOption = some event) :
    event.seq = toString position ∧ event.indexes = entry.indexes := by
  cases result : readEntry p state tenant position entry with
  | error failure =>
    rw [result] at read
    cases read
  | ok given =>
    rw [result] at read
    cases read
    simp only [readEntry, ok_iff] at result
    obtain ⟨row, -, _, -, _, -, rfl⟩ := result
    exact ⟨rfl, rfl⟩

theorem shownAt_memory (feed : MemoryFeed) (tenant : Did) (filters : Option Filters) :
    shownAt (memoryEntryAt p) feed tenant filters = eventAt p feed.1 tenant filters := by
  funext position
  rw [shownAt, memoryEntryAt, eventAt]
  cases feed.1.entries.lookup (tenant, position) with
  | none => rfl
  | some entry =>
    simp only [Option.bind_some]
    cases read : (readEntry p feed.1 tenant position entry).toOption with
    | none => simp
    | some event =>
      rw [Option.filter_some, (toOption_readEntry read).2]

theorem memory_contract (p : Primitives) (streamId : Did → String) :
    PagingContract (memoryFeedReader p streamId) (memoryEntryAt p) where
  seq found := by
    obtain ⟨entry, -, read⟩ := Option.bind_eq_some_iff.mp found
    exact (toOption_readEntry read).1
  page {feed tenant options result} asked read := by
    obtain ⟨starts, last, reads⟩ := reads_of_ok feed.2 read
    obtain ⟨scan, isScan, resumes⟩ := reads.resumes feed.2 starts
    refine ⟨scan, last, isScan, resumes.parsed, ?_, ?_⟩
    · cases reads <;> omega
    · rw [shownAt_memory]
      cases reads with
      | nothing unread => exact (window_of_le le_rfl).symm
      | exhausted atHead => exact (window_of_le le_rfl).symm
      | scanned last messageCid lower upper message => rfl

end

end Enbox.Proof.EventLog
