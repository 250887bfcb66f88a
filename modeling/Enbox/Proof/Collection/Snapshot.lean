import Enbox.Proof.Run.Sound
import Enbox.Proof.Authority.Collection
import Enbox.Proof.Run.Threads

/-! # What a snapshot shows to a requester that is not the owner -/

namespace Enbox.Proof.Collection

open Lib Run Authority

variable {p : Primitives} {message : Message} {author requester : Did} {indexes row : Indexes}
  {key : IndexKey} {filter : RecordsFilter} {dateSort : Option DateSort}

/-! ## Stored rows -/

def Plain (row : Indexes) : Prop :=
  ∀ key ∈ [IndexKey.author, .recipient, .published], ∀ value, row.lookup key = some value →
    ∃ scalar, value = .scalar scalar ∧ ∀ text, scalar ≠ .cid text

theorem plain_of_filed {row : Row} (filed : Filed p row) : Plain row.indexes := by
  simp only [Plain, List.mem_cons, List.not_mem_nil, or_false, forall_eq_or_imp, forall_eq]
  cases filed with
  | write indexed =>
    simp only [indexed.author, indexed.recipient, indexed.published, Option.map_eq_some_iff]
    refine ⟨?_, ?_, ?_⟩ <;> grind
  | delete _ indexed =>
    simp only [indexed.author, indexed.recipient, indexed.published, Option.map_eq_some_iff]
    refine ⟨?_, ?_, ?_⟩ <;> grind
  | @configure d author latest _ indexed =>
    have isIndexed := configureIndexes_indexed d author latest
    simp only [indexed, isIndexed.author, isIndexed.recipient, isIndexed.published,
      Option.map_eq_some_iff]
    refine ⟨?_, ?_, ?_⟩ <;> grind

/-! ## Clauses of the owner's set -/

theorem distinct_ownerRecordsFilter (filter : RecordsFilter) (dateSort : Option DateSort) :
    DistinctKeys (ownerRecordsFilter filter dateSort) := by
  have empty : DistinctKeys ([] : FilterSet) := List.nodup_nil
  exact (((empty.assocInsertAll (filter.clauses dateSort)).assocInsert _ _).assocInsert _
    _).assocInsert _ _

def publishedAsked (filter : RecordsFilter) (dateSort : Option DateSort) : Option Bool :=
  if filter.datePublished.isSome ∨ dateSort.any DateSort.isPublished then some true
  else filter.published

section

variable (filter : RecordsFilter) (dateSort : Option DateSort)

theorem lookup_owner_clauses :
    (ownerRecordsFilter filter dateSort).lookup .author = filter.author.bind stringVecFilter ∧
    (ownerRecordsFilter filter dateSort).lookup .recipient =
      filter.recipient.bind stringVecFilter ∧
    (ownerRecordsFilter filter dateSort).lookup .published =
      (publishedAsked filter dateSort).map boolFilter := by
  simp only [ownerRecordsFilter, lookup_assocInsert, lookup_recordsFilterToFilterMap,
    RecordsFilter.clauses, List.reverse_append, List.lookup_append, lookup_optional,
    lookup_publicationClauses, lookup_sortClause, lookup_listClause, publishedAsked, reduceCtorEq,
    if_false, false_and, Option.none_or, Option.or_none, if_true, true_and]
  refine ⟨?_, ?_, ?_⟩ <;> rw [lookup_tagClauses (by simp), Option.none_or]
  grind

end

/-! ## The alternatives -/

def IsParty (requester : Did) (row : Indexes) : Prop :=
  row.lookup .author = some (.string requester) ∨ row.lookup .recipient = some (.string requester)

def Selected (filter : RecordsFilter) (dateSort : Option DateSort) (published : Bool)
    (row : Indexes) : Prop :=
  row.lookup .published = some (.bool published) ∧
    HoldsExcept matchesFilter .published row (ownerRecordsFilter filter dateSort)

theorem Plain.clause_iff (plain : Plain row)
    (single : key ∈ [IndexKey.author, .recipient, .published]) {asked : Scalar}
    (textual : ∀ text, asked ≠ .cid text) :
    clauseHolds matchesFilter row (key, .equal asked) = true ↔
      row.lookup key = some (.scalar asked) := by
  rw [clauseHolds_iff]
  constructor
  · rintro ⟨value, found, holds⟩
    obtain ⟨scalar, rfl, noCid⟩ := plain key single value found
    have same : valuesEqualFlexibly scalar asked = true := holds
    grind [valuesEqualFlexibly_iff]
  · intro found
    exact ⟨_, found, valuesEqualFlexibly_iff.mpr (.inl rfl)⟩

theorem stringVecFilter_holds {names : List String} {clause : Filter}
    (compiled : stringVecFilter names = some clause) (name : String) :
    matchesFilter (.string name) clause = true ↔ name ∈ names := by
  unfold stringVecFilter at compiled
  split at compiled
  · cases compiled
  · cases compiled
    simp [matchesFilter]
  · cases compiled
    simp [matchesFilter]

theorem listAdmits_iff (names : Option (List Did))
    (indexed : row.lookup key = some (.string requester)) :
    listAdmits names requester = true ↔ ∀ clause, names.bind stringVecFilter = some clause →
      clauseHolds matchesFilter row (key, clause) = true := by
  have holds (clause : Filter) : clauseHolds matchesFilter row (key, clause) =
      matchesFilter (.string requester) clause := by
    simp [clauseHolds, indexed]
  cases names with
  | none => simp [listAdmits]
  | some names =>
    cases compiled : stringVecFilter names with
    | none =>
      have empty : names = [] := by
        unfold stringVecFilter at compiled
        split at compiled <;> first | rfl | cases compiled
      subst empty
      simp [listAdmits, stringVecFilter]
    | some clause =>
      have listed := stringVecFilter_holds compiled requester
      have nonempty : names ≠ [] := by
        rintro rfl
        cases compiled
      simp [listAdmits, compiled, holds, listed, nonempty]

section

variable (plain : Plain row)

include plain

theorem matchesSet_published (published : Bool) :
    matchesSet row (assocInsert .published (boolFilter published)
      (ownerRecordsFilter filter dateSort)) = true ↔ Selected filter dateSort published row := by
  rw [matchesSet, filterSetHolds_assocInsert (distinct_ownerRecordsFilter filter dateSort),
    plain.clause_iff (by simp) (by simp), Selected]

theorem matchesSet_pinned {names : Option (List Did)} (party : key = .author ∨ key = .recipient)
    (asked : (ownerRecordsFilter filter dateSort).lookup key = names.bind stringVecFilter) :
    listAdmits names requester = true ∧ SelectedUnpublished
        (assocInsert key (stringFilter requester) (ownerRecordsFilter filter dateSort)) row ↔
      Selected filter dateSort false row ∧ row.lookup key = some (.string requester) := by
  have single : key ∈ [IndexKey.author, .recipient, .published] := by
    rcases party with rfl | rfl <;> simp
  have notPublished : key ≠ .published := by
    rcases party with rfl | rfl <;> decide
  have pinned : clauseHolds matchesFilter row (key, stringFilter requester) = true ↔
      row.lookup key = some (.string requester) := plain.clause_iff single (by simp)
  rw [SelectedUnpublished, unpublishedFilter, matchesSet, filterSetHolds_assocInsert
    ((distinct_ownerRecordsFilter filter dateSort).assocInsert key _), plain.clause_iff (by simp) (by simp),
    Selected]
  constructor
  · rintro ⟨admits, unpublished, holds⟩
    have isPinned : row.lookup key = some (.string requester) := pinned.mp
      (holds key _ notPublished (by rw [lookup_assocInsert, if_pos rfl]))
    rw [holdsExcept_assocInsert_of_ne notPublished] at holds
    · exact ⟨⟨unpublished, holds.2⟩, isPinned⟩
    · intro clause found _
      exact (listAdmits_iff names isPinned).mp admits clause (asked ▸ found)
  · rintro ⟨⟨unpublished, holds⟩, isPinned⟩
    have clauses : ∀ clause, names.bind stringVecFilter = some clause →
        clauseHolds matchesFilter row (key, clause) = true :=
      fun clause found => holds key clause notPublished (asked ▸ found)
    refine ⟨(listAdmits_iff names isPinned).mpr clauses, unpublished, ?_⟩
    rw [holdsExcept_assocInsert_of_ne notPublished]
    · exact ⟨pinned.mpr isPinned, holds⟩
    · exact fun clause found _ => clauses clause (asked ▸ found)

theorem ownRow_iff :
    OwnRow (ownerRecordsFilter filter dateSort) filter requester row ↔
      Selected filter dateSort false row ∧ IsParty requester row := by
  obtain ⟨author, recipient, -⟩ := lookup_owner_clauses filter dateSort
  rw [OwnRow, shouldBuildAuthorFilter, shouldBuildRecipientFilter,
    matchesSet_pinned plain (.inl rfl) author, matchesSet_pinned plain (.inr rfl) recipient, IsParty,
    and_or_left]

theorem matches_nonOwnerRecordsFilters (granted exact : Bool) :
    matchesFilters row (nonOwnerRecordsFilters filter dateSort requester granted exact) = true ↔
      NoAlternative filter requester (granted || exact) ∨
      (filterIncludesPublishedRecords filter = true ∧ Selected filter dateSort true row) ∨
      (filterIncludesUnpublishedRecords filter = true ∧ Selected filter dateSort false row ∧
        (IsParty requester row ∨ granted = true ∨ exact = true)) := by
  rw [nonOwnerRecordsFilters, matches_nonOwnerFilters, SeesUnpublished, ownRow_iff plain,
    publishedFilter, matchesSet_published plain, SelectedUnpublished, unpublishedFilter,
    matchesSet_published plain, Bool.or_eq_true]
  tauto

theorem matches_ownerRecordsFilter :
    matchesSet row (ownerRecordsFilter filter dateSort) = true ↔
      HoldsExcept matchesFilter .published row (ownerRecordsFilter filter dateSort) ∧
      ∀ asked ∈ publishedAsked filter dateSort, row.lookup .published = some (.bool asked) := by
  rw [matchesSet, filterSetHolds_split (distinct_ownerRecordsFilter filter dateSort) .published,
    (lookup_owner_clauses filter dateSort).2.2, and_comm]
  cases publishedAsked filter dateSort with
  | none => simp
  | some asked => simp [plain.clause_iff]

end

/-! ## Visibility -/

/-- What the requester is meant to see: a row of the owner's own snapshot that is published, or that
is theirs or opened to them by a flag. -/
@[mk_iff]
structure Visible (filter : RecordsFilter) (dateSort : Option DateSort) (requester : Did)
    (protocolAuthorized exactAudience : Bool) (row : Indexes) : Prop where
  owned : matchesSet row (ownerRecordsFilter filter dateSort) = true
  shown : row.lookup .published = some (.bool true) ∨
    (row.lookup .published = some (.bool false) ∧
      (IsParty requester row ∨ protocolAuthorized = true ∨ exactAudience = true))

/-- The filter takes in unpublished records although its range or the sort asks for published
ones. -/
def Contradicts (filter : RecordsFilter) (dateSort : Option DateSort) : Prop :=
  filterIncludesUnpublishedRecords filter = true ∧
    (filter.datePublished.isSome = true ∨ dateSort.any DateSort.isPublished = true)

/-- An unpublished row that the requester may see is not selected against the filter's own demand
for published records, and some alternative is built. Only for unpublished records sorted by
publication, which queries refuse, is a row also shown rightly by the lack of an alternative. -/
@[mk_iff]
structure Consistent (filter : RecordsFilter) (dateSort : Option DateSort) (requester : Did)
    (protocolAuthorized exactAudience : Bool) (row : Indexes) : Prop where
  unpublished : Contradicts filter dateSort → Selected filter dateSort false row →
    ¬ (IsParty requester row ∨ protocolAuthorized = true ∨ exactAudience = true)
  alternative : NoAlternative filter requester (protocolAuthorized || exactAudience) ↔
    (filterIncludesPublishedRecords filter = false ∧ dateSort.any DateSort.isPublished = true ∧
      Selected filter dateSort true row)

section

variable {granted exact : Bool}

theorem visible_iff_selected (plain : Plain row) :
    Visible filter dateSort requester granted exact row ↔
      (publishedAsked filter dateSort ≠ some false ∧ Selected filter dateSort true row) ∨
      (publishedAsked filter dateSort ≠ some true ∧ Selected filter dateSort false row ∧
        (IsParty requester row ∨ granted = true ∨ exact = true)) := by
  rw [visible_iff, matches_ownerRecordsFilter plain, Selected, Selected]
  cases publishedAsked filter dateSort with
  | none => simp; tauto
  | some asked => cases asked <;> simp <;> grind

theorem not_party_of_noAlternative (plain : Plain row)
    (none : NoAlternative filter requester (granted || exact))
    (selected : Selected filter dateSort false row) :
    ¬ (IsParty requester row ∨ granted = true ∨ exact = true) := by
  obtain ⟨-, notWidened, notAuthor, notRecipient⟩ := none
  rintro (party | widened)
  · obtain ⟨admits, -⟩ | ⟨admits, -⟩ := (ownRow_iff plain).mpr ⟨selected, party⟩
    · rw [notAuthor] at admits
      cases admits
    · rw [notRecipient] at admits
      cases admits
  · rw [Bool.or_eq_false_iff] at notWidened
    simp [notWidened] at widened

theorem included_cases (filter : RecordsFilter) (dateSort : Option DateSort) :
    (publishedAsked filter dateSort = none ∧ filterIncludesPublishedRecords filter = true ∧
      filterIncludesUnpublishedRecords filter = true ∧ ¬ Contradicts filter dateSort) ∨
    (publishedAsked filter dateSort = some false ∧ filterIncludesPublishedRecords filter = false ∧
      filterIncludesUnpublishedRecords filter = true ∧ dateSort.any DateSort.isPublished = false ∧
      ¬ Contradicts filter dateSort) ∨
    (publishedAsked filter dateSort = some true ∧
      (filterIncludesPublishedRecords filter = false → Contradicts filter dateSort ∧
        dateSort.any DateSort.isPublished = true) ∧
      (filterIncludesUnpublishedRecords filter = true ↔ Contradicts filter dateSort)) := by
  unfold publishedAsked filterIncludesPublishedRecords filterIncludesUnpublishedRecords Contradicts
    filterIncludesUnpublishedRecords
  rcases filter.published with _ | (_ | _) <;> cases filter.datePublished <;>
    cases dateSort.any DateSort.isPublished <;> simp

end

theorem nonOwner_snapshot_shows_visible_iff_consistent {p : Primitives}
    {allowed : Stores → Event → Prop} {stores : Stores}
    (reached : Reaches (step p) allowed {} stores) {row : Row} (stored : row ∈ stores.messages)
    (filter : RecordsFilter) (dateSort : Option DateSort) (requester : Did)
    (protocolAuthorized exactAudience : Bool) :
    (matchesFilters row.indexes (nonOwnerRecordsFilters filter dateSort requester protocolAuthorized
        exactAudience) = true ↔
      Visible filter dateSort requester protocolAuthorized exactAudience row.indexes) ↔
    Consistent filter dateSort requester protocolAuthorized exactAudience row.indexes := by
  have plain := plain_of_filed ((sound_of_reaches sound_nil reached).filed row stored)
  rw [matches_nonOwnerRecordsFilters plain, visible_iff_selected plain, consistent_iff]
  generalize known : NoAlternative filter requester (protocolAuthorized || exactAudience) = none
  have excluded : none → filterIncludesPublishedRecords filter = false := by
    rw [← known]
    exact fun none => none.1
  have noParty : none → Selected filter dateSort false row.indexes →
      ¬ (IsParty requester row.indexes ∨ protocolAuthorized = true ∨ exactAudience = true) := by
    rw [← known]
    exact not_party_of_noAlternative plain
  have unique : Selected filter dateSort true row.indexes →
      ¬ Selected filter dateSort false row.indexes := by
    intro isPublished isUnpublished
    cases isPublished.1.symm.trans isUnpublished.1
  rcases included_cases filter dateSort with
    ⟨asked, published, unpublished, consistent⟩ | ⟨asked, published, unpublished, sorted, consistent⟩ |
    ⟨asked, published, unpublished⟩
  · simp only [asked, published, unpublished, consistent] at excluded ⊢
    grind
  · simp only [asked, published, unpublished, sorted, consistent] at excluded ⊢
    grind
  · simp only [asked]
    grind

def aliceToAlice (published : Option Bool) : RecordsFilter where
  protocol := some Threads.uri
  author := some ["did:ex:alice"]
  recipient := some ["did:ex:alice"]
  published := published

theorem snapshot_of_threads_for_eve :
    Reaches (step Threads.p) (fun _ _ => True) {} (Threads.stores Threads.started) ∧
    ∃ row ∈ (Threads.stores Threads.started).messages,
      Consistent (aliceToAlice none) none "did:ex:eve" false false row.indexes ∧
      (matchesFilters row.indexes
          (nonOwnerRecordsFilters (aliceToAlice none) none "did:ex:eve" false false) = true ↔
        Visible (aliceToAlice none) none "did:ex:eve" false false row.indexes) := by
  refine ⟨?reached, _, List.mem_cons_self, ?consistent,
    (nonOwner_snapshot_shows_visible_iff_consistent ?reached List.mem_cons_self (aliceToAlice none)
      none "did:ex:eve" false false).mpr ?consistent⟩
  · exact AllowedAlong.reaches ⟨trivial, trivial, trivial, trivial⟩
  · refine ⟨fun contradicts => ?_, ?_⟩
    · simp [Contradicts, aliceToAlice] at contradicts
    · simp [NoAlternative, aliceToAlice, filterIncludesPublishedRecords]

theorem eve_sees_private_thread :
    Reaches (step Threads.p) (fun _ _ => True) {} (Threads.stores Threads.started) ∧
    ∃ row ∈ (Threads.stores Threads.started).messages,
      row.message.recordId = some "T2" ∧
      matchesFilters row.indexes
        (nonOwnerRecordsFilters (aliceToAlice (some false)) none "did:ex:eve" false false) = true ∧
      matchesSet row.indexes (ownerRecordsFilter (aliceToAlice (some false)) none) = false ∧
      ¬ Visible (aliceToAlice (some false)) none "did:ex:eve" false false row.indexes := by
  refine ⟨AllowedAlong.reaches ⟨trivial, trivial, trivial, trivial⟩, _, List.mem_cons_self, rfl, rfl,
    rfl, fun visible => ?_⟩
  cases visible.owned

end Enbox.Proof.Collection
