import Enbox.Proof.Run.Data
import Enbox.Proof.State.Record

/-! # Data behind the rows of a record -/

namespace Enbox.Proof.State

open Lib Run

variable {p : Primitives} {stores : Stores} {row other : Row} {d : WriteDescriptor}
  {recordId parent : String} {tenant : Did} {m message : Message} {store : MessageStore}
  {dataCid : Cid} {sibling : String × List Message}

/-! ## What the rows of a record share -/

def Entered (p : Primitives) (row : Row) : Prop :=
  ∀ recordId, StateMessage row.message recordId → ∃ author d₀, p.entryId author d₀ = recordId ∧
    row.indexes.lookup .parentId = d₀.parentId.map .string ∧
    ∀ d, row.message.descriptor = .recordsWrite d → d.permissionGrantId = d₀.permissionGrantId

section

variable {request : Request}

/-- A new row of a record enters it or follows a stored row of it. -/
theorem newRow_enters_or_follows (sound : Sound p stores.messages)
    (new : NewRow p stores request row) (state : StateMessage row.message recordId) :
    (∃ auth d, Accepts p stores.messages request d auth recordId ∧
      p.entryId auth.author d = recordId ∧ row.message.descriptor = .recordsWrite d ∧
      row.indexes.lookup .parentId = d.parentId.map .string) ∨
    ∃ old ∈ stores.messages, StateMessage old.message recordId ∧
      row.indexes.lookup .parentId = old.indexes.lookup .parentId ∧
      ∀ d, row.message.descriptor = .recordsWrite d →
        ∃ d₀, old.message.descriptor = .recordsWrite d₀ ∧
          d₀.permissionGrantId = d.permissionGrantId ∧ d₀.protocolPath = d.protocolPath := by
  cases new with
  | @written auth _ encodedData latest indexes passed success indexed =>
    obtain ⟨d, id, isIndexed⟩ := recordsWriteIndexes_ok indexed
    have isWrite : request.message.descriptor = .recordsWrite d := isIndexed.descriptor
    cases (stateMessage_write isIndexed.descriptor isIndexed.record).mp state
    cases isIndexed.record.symm.trans passed.record
    cases isInitial : p.isInitialWrite request.message auth.author with
    | true =>
      obtain ⟨d', isWrite', record⟩ := isInitialWrite_iff.mp isInitial
      cases isWrite.symm.trans isWrite'
      exact .inl ⟨auth, d, ⟨passed, isWrite, (passed_of_success isWrite success).1⟩,
        Option.some.inj (record.symm.trans passed.record), isWrite, isIndexed.parentId⟩
    | false =>
      obtain ⟨old, stored, ofRecord, -, d₀, isOld, unchanged⟩ :=
        existing_of_passed sound isWrite passed isInitial
      obtain ⟨_, _, _, oldIndexed⟩ := (sound.filed old stored).of_isWrite isOld
      have same := changedProperty_eq_none unchanged
      refine .inr ⟨old, stored, ofRecord.state, ?_, fun e isE => ?_⟩
      · rw [oldIndexed.parentId, same.parentId]
        exact isIndexed.parentId
      · cases isWrite.symm.trans isE
        exact ⟨d₀, isOld, same.permissionGrantId, same.protocolPath⟩
  | @kept mutation kept =>
    obtain ⟨old, stored, -, _, -, isKept, indexed⟩ := kept
    obtain ⟨d, id, isIndexed⟩ := recordsWriteIndexes_ok indexed
    have same : (rowOf p request.tenant mutation).message = setEncodedData old.message none := isKept
    have isWrite := isIndexed.descriptor
    rw [isKept] at isWrite
    obtain ⟨_, _, _, oldIndexed⟩ := (sound.filed old stored).of_isWrite isWrite
    rw [same, stateMessage_setEncodedData] at state
    rw [same]
    exact .inr ⟨old, stored, state,
      isIndexed.parentId.trans oldIndexed.parentId.symm, fun e isE => ⟨e, isE, rfl, rfl⟩⟩
  | deleted isDelete bare found indexed =>
    obtain ⟨_, _, isIndexed⟩ := recordsDeleteIndexes_ok indexed
    cases isDelete.symm.trans isIndexed.isDelete
    obtain ⟨old, stored, ofRecord, rfl⟩ := sound.mem_fetchRecordMessages.mp found
    obtain ⟨_, _, _, oldIndexed⟩ := (sound.filed old stored).of_isWrite isIndexed.isWrite
    cases (stateMessage_delete isDelete bare).mp state
    refine .inr ⟨old, stored, ofRecord.state, isIndexed.parentId.trans oldIndexed.parentId.symm,
      fun e isWrite => ?_⟩
    cases isDelete.symm.trans isWrite
  | configured isConfigure => exact absurd state (not_stateMessage_configure isConfigure)

section

variable (sound : Sound p stores.messages) (entered : ∀ row ∈ stores.messages, Entered p row)

include sound entered

theorem entered_newRow (new : NewRow p stores request row) : Entered p row := by
  intro recordId state
  rcases newRow_enters_or_follows sound new state with
    ⟨auth, d, -, entry, isWrite, parentId⟩ | ⟨old, stored, ofOld, parentId, follows⟩
  · refine ⟨auth.author, d, entry, parentId, fun e isE => ?_⟩
    cases isWrite.symm.trans isE
    rfl
  · obtain ⟨author, d₀, entry, oldParent, grants⟩ := entered old stored recordId ofOld
    refine ⟨author, d₀, entry, parentId.trans oldParent, fun e isE => ?_⟩
    obtain ⟨e₀, isOld, sameGrant, -⟩ := follows e isE
    exact sameGrant.symm.trans (grants e₀ isOld)

theorem entered_commit {transition : LatestStateTransition} {committed : MessageStore}
    (commits : stores.messages.commitLatestState p request.tenant transition = .ok committed)
    (new : ∀ mutation ∈ transition.put :: transition.retains,
      NewRow p stores request (rowOf p request.tenant mutation)) :
    ∀ row ∈ committed, Entered p row := by
  intro row stored
  rcases mem_commitLatestState commits stored with old | rfl | ⟨mutation, retained, rfl⟩
  · exact entered row old
  · exact entered_newRow sound entered (new _ List.mem_cons_self)
  · exact entered_newRow sound entered (new _ (List.mem_cons_of_mem _ retained))

end

theorem entered_of_reaches {allowed : Stores → Event → Prop}
    (reached : Reaches (step p) allowed {} stores) : ∀ row ∈ stores.messages, Entered p row :=
  rows_of_reaches entered_newRow reached

section

variable {a b : Row} (law : p.CollisionFree) (first : Entered p a) (second : Entered p b)
  (stateA : StateMessage a.message recordId) (stateB : StateMessage b.message recordId)

include law first second stateA stateB

theorem Entered.parentId_eq :
    a.indexes.lookup .parentId = b.indexes.lookup .parentId := by
  obtain ⟨_, d, entryA, parentA, -⟩ := first recordId stateA
  obtain ⟨_, e, entryB, parentB, -⟩ := second recordId stateB
  obtain ⟨-, rfl⟩ := entryId_inj law (entryA.trans entryB.symm)
  rw [parentA, parentB]

theorem Entered.grant_eq {e : WriteDescriptor} (isWriteA : a.message.descriptor = .recordsWrite d)
    (isWriteB : b.message.descriptor = .recordsWrite e) :
    d.permissionGrantId = e.permissionGrantId := by
  obtain ⟨_, d₀, entryA, -, grantA⟩ := first recordId stateA
  obtain ⟨_, e₀, entryB, -, grantB⟩ := second recordId stateB
  obtain ⟨-, rfl⟩ := entryId_inj law (entryA.trans entryB.symm)
  rw [grantA d isWriteA, grantB e isWriteB]

end

end

/-! ## Backed records -/

structure Holds (p : Primitives) (store : MessageStore) (tenant : Did) (recordId : String)
    (dataCid : Cid) (row : Row) : Prop where
  stored : row ∈ store
  ofRecord : OfRecord tenant recordId row
  greatest : ∀ other ∈ store, OfRecord tenant recordId other →
    rank p other.message ≤ rank p row.message
  large : ∃ d, row.message.descriptor = .recordsWrite d ∧ d.dataCid = dataCid ∧
    maxEncodedDataSize < d.dataSize

structure Backed (p : Primitives) (stores : Stores) (tenant : Did) (recordId : String) : Prop where
  present : ∀ row ∈ stores.messages, OfRecord tenant recordId row → IsLatest row → ∀ d,
    row.message.descriptor = .recordsWrite d → maxEncodedDataSize < d.dataSize →
      (tenant, recordId, d.dataCid) ∈ references stores.data
  held : ∀ dataCid, (tenant, recordId, dataCid) ∈ references stores.data →
    ∃ row, Holds p stores.messages tenant recordId dataCid row

section

variable {after before : Stores}

theorem record_of_refers {key : DataKey} (refers : Refers tenant m key)
    (state : StateMessage m recordId) : key.1 = tenant ∧ key.2.1 = recordId := by
  obtain ⟨d, id, isWrite, record, -, rfl⟩ := refers
  exact ⟨rfl, (stateMessage_write isWrite record).mp state⟩

theorem Holds.refers (holds : Holds p store tenant recordId dataCid row) :
    Refers tenant row.message (tenant, recordId, dataCid) := by
  obtain ⟨d, isWrite, rfl, large⟩ := holds.large
  rcases holds.ofRecord.state with ⟨-, record⟩ | ⟨isDelete, -, -⟩
  · exact ⟨d, recordId, isWrite, record, large, rfl⟩
  · cases isWrite.symm.trans isDelete

theorem Holds.dataCid_eq (law : p.CollisionFree) (holds : Holds p store tenant recordId dataCid row)
    (stored : other ∈ store) (ofRecord : OfRecord tenant recordId other)
    (greater : rank p row.message ≤ rank p other.message) :
    ∃ d, other.message.descriptor = .recordsWrite d ∧ d.dataCid = dataCid ∧
      maxEncodedDataSize < d.dataSize := by
  have same := rank_inj (le_antisymm greater (holds.greatest other stored ofRecord))
  rw [← descriptor_congr (messageCid_inj law same)]
  exact holds.large

theorem Backed.congr (backed : Backed p before tenant recordId)
    (rows : SameRows tenant recordId after.messages before.messages)
    (data : ∀ dataCid, (tenant, recordId, dataCid) ∈ references after.data ↔
      (tenant, recordId, dataCid) ∈ references before.data) :
    Backed p after tenant recordId := by
  constructor
  · intro row stored ofRecord latest d isWrite large
    rw [data]
    exact backed.present row ((rows row ofRecord).mp stored) ofRecord latest d isWrite large
  · intro dataCid present
    obtain ⟨row, stored, ofRecord, greatest, large⟩ := backed.held dataCid ((data dataCid).mp present)
    exact ⟨row, (rows row ofRecord).mpr stored, ofRecord, fun other otherStored otherOf =>
      greatest other ((rows other otherOf).mp otherStored) otherOf, large⟩

theorem backed_of_empty (rows : ∀ row ∈ after.messages, ¬ OfRecord tenant recordId row)
    (data : ∀ dataCid, (tenant, recordId, dataCid) ∉ references after.data) :
    Backed p after tenant recordId :=
  ⟨fun row stored ofRecord => absurd ofRecord (rows row stored),
    fun dataCid present => absurd present (data dataCid)⟩

end

/-! ## Purges of whole records -/

structure GroupOf (store : MessageStore) (tenant : Did) (recordId : String)
    (messages : List Message) : Prop where
  states : ∀ m ∈ messages, StateMessage m recordId
  complete : ∀ row ∈ store, OfRecord tenant recordId row → row.message ∈ messages
  current : (∀ m ∈ messages, ∃ row ∈ store, row.tenant = tenant ∧ row.message = m) ∨
    ∀ row ∈ store, ¬ OfRecord tenant recordId row

structure Purges (p : Primitives) (tenant : Did) (after before : Stores) : Prop where
  rows : ∃ gone : Set String, ∀ row, row ∈ after.messages ↔
    row ∈ before.messages ∧ ∀ recordId ∈ gone, ¬ OfRecord tenant recordId row
  data : ∀ row ∈ after.data, row ∈ before.data
  backed : ∀ tenant recordId, Backed p before tenant recordId → Backed p after tenant recordId

section

variable {after before : Stores} {messages : List Message}

theorem Purges.refl (p : Primitives) (tenant : Did) (stores : Stores) :
    Purges p tenant stores stores :=
  ⟨⟨∅, by simp⟩, fun _ stored => stored, fun _ _ backed => backed⟩

theorem Purges.trans {middle : Stores} (second : Purges p tenant after middle)
    (first : Purges p tenant middle before) : Purges p tenant after before := by
  obtain ⟨gone, rows⟩ := first.rows
  obtain ⟨gone', rows'⟩ := second.rows
  refine ⟨⟨gone ∪ gone', fun row => ?_⟩, fun row stored => first.data row (second.data row stored),
    fun tenant recordId backed => second.backed tenant recordId (first.backed tenant recordId backed)⟩
  rw [rows' row, rows row, and_assoc]
  simp only [Set.mem_union, or_imp, forall_and]

theorem Purges.mem (purges : Purges p tenant after before) (stored : row ∈ after.messages) :
    row ∈ before.messages := by
  obtain ⟨_, rows⟩ := purges.rows
  exact ((rows row).mp stored).1

theorem GroupOf.purges (purges : Purges p tenant after before)
    (group : GroupOf before.messages tenant recordId messages) :
    GroupOf after.messages tenant recordId messages := by
  refine ⟨group.states, fun row stored => group.complete row (purges.mem stored), ?_⟩
  obtain ⟨gone, rows⟩ := purges.rows
  by_cases isGone : recordId ∈ gone
  · exact .inr fun row stored => ((rows row).mp stored).2 recordId isGone
  · refine group.current.imp (fun listed m isListed => ?_) fun none row stored =>
      none row (purges.mem stored)
    obtain ⟨row, stored, ofTenant, rfl⟩ := listed m isListed
    refine ⟨row, (rows row).mpr ⟨stored, fun other otherGone ofOther => isGone ?_⟩, ofTenant, rfl⟩
    rwa [(group.states _ isListed).unique ofOther.state]

theorem GroupOf.mem_purge (law : p.CollisionFree) (sound : Sound p stores.messages)
    (group : GroupOf stores.messages tenant recordId messages) (row : Row) :
    row ∈ (purgeRecordMessages p tenant stores messages).messages ↔
      row ∈ stores.messages ∧ ¬ OfRecord tenant recordId row := by
  constructor
  · intro kept
    have stored := (removes_purgeRecordMessages stores messages).mem kept
    refine ⟨stored, fun ofRecord => ?_⟩
    refine ((removes_purgeRecordMessages stores messages row).mp kept).2 ⟨ofRecord.tenant, ?_⟩
    rw [sound.addressed row stored]
    exact List.mem_map_of_mem (group.complete row stored ofRecord)
  · rintro ⟨stored, other⟩
    by_contra removed
    exact other (purgeRecordMessages_removed law sound group.states stored removed)

theorem rank_le_newestMessage {newest : Message} (found : newestMessage p messages = some newest)
    (listed : m ∈ messages) (sameClass : stateClass m.descriptor = stateClass newest.descriptor) :
    rank p m ≤ rank p newest := by
  obtain ⟨-, greatest⟩ := maxBy_eq_some (compareMessages_eq_compare p) found
  rw [rank, rank, Prod.Lex.toLex_le_toLex]
  exact .inr ⟨congrArg RecordsStateClass.rank sameClass, greatest m listed⟩

theorem GroupOf.newest_holds (law : p.CollisionFree)
    (group : GroupOf stores.messages tenant recordId messages)
    (holds : Holds p stores.messages tenant recordId dataCid row) :
    ∃ newest d, NewestWrite p messages newest ∧ newest.descriptor = .recordsWrite d ∧
      newest.recordId = some recordId ∧ d.dataCid = dataCid := by
  obtain ⟨e, isWrite, -, -⟩ := holds.large
  have listed : row.message ∈ messages.filter (·.writeDescriptor.isSome) :=
    List.mem_filter.mpr ⟨group.complete row holds.stored holds.ofRecord,
      by rw [Message.writeDescriptor_eq_some.mpr isWrite]; rfl⟩
  cases found : newestMessage p (messages.filter (·.writeDescriptor.isSome)) with
  | none =>
    rw [maxBy_eq_none.mp found] at listed
    cases listed
  | some newest =>
    obtain ⟨member, isSome⟩ := List.mem_filter.mp (newestMessage_eq_some found).1
    obtain ⟨d, isNewest⟩ := Option.isSome_iff_exists.mp isSome
    rw [Message.writeDescriptor_eq_some] at isNewest
    have below := rank_le_newestMessage found listed (by rw [isWrite, isNewest]; rfl)
    rcases group.current with current | none
    · obtain ⟨other, stored, ofTenant, rfl⟩ := current newest member
      have state := group.states _ member
      obtain ⟨d', isWrite', same, -⟩ := holds.dataCid_eq law stored ⟨ofTenant, state⟩ below
      cases isNewest.symm.trans isWrite'
      rcases state with ⟨-, record⟩ | ⟨isDelete, -, -⟩
      · exact ⟨_, d, found, isNewest, record, same⟩
      · cases isNewest.symm.trans isDelete
    · exact absurd holds.ofRecord (none row holds.stored)

theorem GroupOf.purges_purgeRecordMessages (law : p.CollisionFree) (sound : Sound p stores.messages)
    (group : GroupOf stores.messages tenant recordId messages) :
    Purges p tenant (purgeRecordMessages p tenant stores messages) stores := by
  have drops : Drops _ (purgeRecordMessages p tenant stores messages) stores :=
    drops_purgeRecordMessages stores messages
  have rows := group.mem_purge law sound
  refine ⟨⟨{recordId}, by simpa using rows⟩, fun row stored => ((drops row).mp stored).1,
    fun tenant' recordId' backed => ?_⟩
  by_cases same : tenant' = tenant ∧ recordId' = recordId
  · obtain ⟨rfl, rfl⟩ := same
    refine backed_of_empty (fun row stored => ((rows row).mp stored).2) fun dataCid present => ?_
    rw [drops.references] at present
    obtain ⟨holder, holds⟩ := backed.held dataCid present.1
    obtain ⟨newest, d, isNewest, isWrite, record, rfl⟩ := group.newest_holds law holds
    exact present.2 ⟨newest, d, recordId', isNewest, isWrite, record, rfl⟩
  · refine backed.congr (fun row ofRecord => ?_) fun dataCid => ?_
    · rw [rows, and_iff_left]
      rintro ⟨ofTenant, state⟩
      exact same ⟨ofRecord.tenant.symm.trans ofTenant, ofRecord.state.unique state⟩
    · rw [drops.references, Set.mem_sdiff, and_iff_left]
      rintro ⟨newest, d, id, isNewest, isWrite, record, keys⟩
      have member := (List.mem_filter.mp (newestMessage_eq_some isNewest).1).1
      cases (stateMessage_write isWrite record).mp (group.states newest member)
      cases keys
      exact same ⟨rfl, rfl⟩

theorem groupOf_query (sound : Sound p store) {set : FilterSet}
    (clause : (.interface, stringFilter recordsInterface) ∈ set) {group : String × List Message}
    (listed : group ∈ groupByRecord (store.query tenant [set]))
    (uniform : ∀ a ∈ store, OfRecord tenant group.1 a → matchesSet a.indexes set = true →
      ∀ b ∈ store, OfRecord tenant group.1 b → matchesSet b.indexes set = true) :
    GroupOf store tenant group.1 group.2 := by
  obtain ⟨recordId, members⟩ := group
  obtain ⟨⟨m, found, named⟩, rfl⟩ := mem_groupByRecord.mp listed
  have rows {m : Message} : m ∈ (store.query tenant [set]).filter
      (fun m => messageRecordId m = some recordId) ↔ _ := sound.mem_group clause
  obtain ⟨selected, isStored, ofSelected, isSelected, -⟩ :=
    rows.mp (List.mem_filter.mpr ⟨found, decide_eq_true named⟩)
  refine ⟨fun m member => ?_, fun row stored ofRecord => ?_, .inl fun m member => ?_⟩
  · obtain ⟨row, -, ofRecord, -, rfl⟩ := rows.mp member
    exact ofRecord.state
  · exact rows.mpr ⟨row, stored, ofRecord,
      uniform selected isStored ofSelected isSelected row stored ofRecord, rfl⟩
  · obtain ⟨row, stored, ofRecord, -, same⟩ := rows.mp member
    exact ⟨row, stored, ofRecord.tenant, same⟩

theorem Purges.sound (purges : Purges p tenant after before) (sound : Sound p before.messages) :
    Sound p after.messages :=
  sound.subset fun _ => purges.mem

theorem purges_foldl {drop : Stores → String × List Message → Stores}
    {groups : List (String × List Message)} (each : ∀ group ∈ groups, ∀ current,
      Purges p tenant current stores → Purges p tenant (drop current group) current) :
    Purges p tenant (groups.foldl drop stores) stores :=
  List.foldlRecOn groups drop (.refl p tenant stores) fun current purges group listed =>
    (each group listed current purges).trans purges

theorem purges_purgeOlderSibling (law : p.CollisionFree) (sound : Sound p stores.messages)
    {timestamp : Timestamp} (group : sibling.1 ≠ recordId →
      (newestMessage p sibling.2).any (·.messageTimestamp < timestamp) = true →
      GroupOf stores.messages tenant sibling.1 sibling.2) :
    Purges p tenant (performOps p tenant stores (purgeOlderSiblingOps p recordId timestamp sibling))
      stores := by
  rw [purgeOlderSiblingOps_eq]
  split
  · rename_i older
    exact (group older.1 older.2).purges_purgeRecordMessages law sound
  · exact .refl p tenant stores

def SquashesWhole (store : MessageStore) (tenant : Did) (message : Message) (d : WriteDescriptor)
    (recordId : String) : Prop :=
  ∀ a ∈ store, Squashed store tenant message d recordId a → ∀ sibling, OfRecord tenant sibling a →
    ∀ b ∈ store, OfRecord tenant sibling b → matchesSet b.indexes (siblingFilters d message) = true

theorem groupOf_sibling (sound : Sound p store) (isSquash : d.squash = some true)
    (whole : SquashesWhole store tenant message d recordId)
    (listed : sibling ∈ groupByRecord (store.query tenant [siblingFilters d message]))
    (other : sibling.1 ≠ recordId)
    (older : (newestMessage p sibling.2).any (·.messageTimestamp < d.messageTimestamp) = true) :
    GroupOf store tenant sibling.1 sibling.2 := by
  refine groupOf_query sound interface_mem_siblingFilters listed
    fun a storedA ofA inScope b storedB ofB => ?_
  obtain ⟨id, members⟩ := sibling
  obtain ⟨-, rfl⟩ := mem_groupByRecord.mp listed
  obtain ⟨newest, found, before⟩ := (Option.any_eq_true _ _).mp older
  refine whole a storedA ⟨isSquash, inScope, id, other, ofA, fun row stored ofRow selected => ?_⟩ id
    ofA b storedB ofB
  have member := (sound.mem_group interface_mem_siblingFilters).mpr ⟨row, stored, ofRow, selected, rfl⟩
  exact ((newestMessage_eq_some found).2 _ member).trans_lt (by simpa using before)

section

variable (law : p.CollisionFree)

include law

theorem purges_squashSiblings (sound : Sound p stores.messages)
    (isWrite : message.descriptor = .recordsWrite d) (record : message.recordId = some recordId)
    (whole : SquashesWhole stores.messages tenant message d recordId)
    (squashes : squashSiblings p tenant stores message = .ok after) :
    Purges p tenant after stores := by
  unfold squashSiblings at squashes
  split at squashes
  · rename_i isSquash
    simp only [Message.writeDescriptor_eq_some.mpr isWrite, Option.any_some,
      decide_eq_true_eq] at isSquash
    cases (performRecordsSquash_eq p tenant stores isWrite record).symm.trans squashes
    exact purges_foldl fun sibling listed current purges =>
      purges_purgeOlderSibling law (purges.sound sound) fun other older =>
        (groupOf_sibling sound isSquash whole listed other older).purges purges
  · cases squashes
    exact .refl p tenant stores

theorem selected_of_entered {a b : Row} (enteredA : Entered p a) (enteredB : Entered p b)
    (filed : Filed p b) (ofA : OfRecord tenant recordId a)
    (selected : matchesSet a.indexes (childFilters parent) = true)
    (ofB : OfRecord tenant recordId b) : matchesSet b.indexes (childFilters parent) = true := by
  have parentB := enteredA.parentId_eq law enteredB ofA.state ofB.state
  have interfaceB : b.indexes.lookup .interface = some (.string recordsInterface) := by
    cases filed with
    | write indexed => exact indexed.interface
    | delete _ indexed => exact indexed.interface
    | configure isConfigure _ => exact absurd ofB.state (not_stateMessage_configure isConfigure)
  simp only [childFilters, matchesSet_cons, Bool.and_eq_true, parentB] at selected ⊢
  exact ⟨by simp [interfaceB], selected.2⟩

theorem selected_child (sound : Sound p store) (entered : ∀ row ∈ store, Entered p row) {a b : Row}
    (storedA : a ∈ store) (ofA : OfRecord tenant recordId a)
    (selected : matchesSet a.indexes (childFilters parent) = true) (storedB : b ∈ store)
    (ofB : OfRecord tenant recordId b) :
    matchesSet b.indexes (childFilters parent) = true :=
  selected_of_entered law (entered a storedA) (entered b storedB) (sound.filed b storedB) ofA selected
    ofB

theorem purges_purgeDescendants (fuel : Nat) :
    ∀ {stores after : Stores} {recordId : String}, Sound p stores.messages →
      (∀ row ∈ stores.messages, Entered p row) →
      purgeDescendants p tenant fuel stores recordId = .ok after → Purges p tenant after stores := by
  induction fuel with
  | zero => exact fun _ _ purged => by cases purged
  | succ fuel ih =>
    intro stores after recordId sound entered purged
    simp only [purgeDescendants, ok_iff] at purged
    obtain ⟨middle, descendants, rfl⟩ := purged
    have below : Purges p tenant middle stores := (foldlM_ok (P := (Purges p tenant · stores))
      (fun _ _ _ _ purges purged => (ih (purges.sound sound) (fun row stored =>
        entered row (purges.mem stored)) purged).trans purges) (.refl p tenant stores) descendants).1
    refine (purges_foldl fun group listed current purges => ?_).trans below
    have whole := groupOf_query sound (by simp [childFilters]) listed
      fun a storedA ofA selected b storedB ofB =>
        selected_child law sound entered storedA ofA selected storedB ofB
    have purges := purges.trans below
    exact (whole.purges purges).purges_purgeRecordMessages law (purges.sound sound)

theorem purges_pruneDescendants (sound : Sound p stores.messages)
    (entered : ∀ row ∈ stores.messages, Entered p row) {d : DeleteDescriptor}
    (prunes : pruneDescendants p tenant stores d = .ok after) : Purges p tenant after stores := by
  unfold pruneDescendants at prunes
  split at prunes
  · exact purges_purgeDescendants law _ sound entered prunes
  · cases prunes
    exact .refl p tenant stores

end

end

/-! ## Revocations -/

theorem revokes_of_greater (law : p.CollisionFree) (sound : Sound p store)
    (entered : ∀ row ∈ store, Entered p row) (revokes : Revokes d other) (stored : row ∈ store)
    (otherStored : other ∈ store) (state : StateMessage row.message recordId)
    (otherState : StateMessage other.message recordId) {e e' : WriteDescriptor}
    (isWrite : row.message.descriptor = .recordsWrite e)
    (otherWrite : other.message.descriptor = .recordsWrite e')
    (greater : rank p other.message ≤ rank p row.message) : Revokes d row := by
  obtain ⟨grantId, parent, named⟩ := revokes.grant
  obtain ⟨_, _, _, indexed⟩ := (sound.filed row stored).of_isWrite isWrite
  obtain ⟨_, _, _, otherIndexed⟩ := (sound.filed other otherStored).of_isWrite otherWrite
  have sameGrant := (entered row stored).grant_eq law (entered other otherStored) state otherState
    isWrite otherWrite
  refine ⟨revokes.protocol, revokes.protocolPath, ⟨grantId, parent, ?_⟩, revokes.later.trans ?_⟩
  · rw [indexed.permissionGrantId, sameGrant, ← otherIndexed.permissionGrantId]
    exact named
  · exact timestamp_le_of_rank_le (by rw [isWrite, otherWrite]; rfl) greater

theorem Backed.revoke (law : p.CollisionFree) (sound : Sound p stores.messages)
    (entered : ∀ row ∈ stores.messages, Entered p row)
    (latestGreatest : LatestGreatest p stores.messages)
    (isWrite : message.descriptor = .recordsWrite d) {tenant' : Did}
    (backed : Backed p stores tenant' recordId) :
    Backed p (postProcessPermissionsWrite p tenant stores message) tenant' recordId := by
  have rows (row : Row) :
      row ∈ (postProcessPermissionsWrite p tenant stores message).messages ↔
        row ∈ stores.messages ∧ ¬ (row.tenant = tenant ∧ Revokes d row) := by
    rw [removes_postProcessPermissionsWrite]
    refine and_congr_right fun stored => not_congr (and_congr_right fun ofTenant => ?_)
    exact sound.mem_revoked isWrite stored ofTenant
  have drops : Drops _ (postProcessPermissionsWrite p tenant stores message) stores :=
    drops_postProcessPermissionsWrite stores message
  constructor
  · intro row isKept ofRecord latest e isRowWrite large
    obtain ⟨stored, kept⟩ := (rows row).mp isKept
    rw [drops.references]
    refine ⟨backed.present row stored ofRecord latest e isRowWrite large, ?_⟩
    rintro ⟨_, revoked, e', id, otherWrite, record, -, keys⟩
    obtain ⟨other, otherStored, otherTenant, isRevoked, rfl⟩ :=
      (sound.mem_revokedMessages isWrite).mp revoked
    simp only [Prod.mk.injEq] at keys
    obtain ⟨rfl, rfl, -⟩ := keys
    have otherOf : OfRecord tenant' recordId other := ⟨otherTenant, .write otherWrite record⟩
    exact kept ⟨ofRecord.tenant, revokes_of_greater law sound entered isRevoked stored
      otherStored ofRecord.state otherOf.state isRowWrite otherWrite
      (latestGreatest tenant' recordId row stored ofRecord latest other otherStored otherOf)⟩
  · intro dataCid present
    rw [drops.references] at present
    obtain ⟨row, holds⟩ := backed.held dataCid present.1
    refine ⟨row, (rows row).mpr ⟨holds.stored, ?_⟩, holds.ofRecord,
      fun other stored => holds.greatest other ((rows other).mp stored).1, holds.large⟩
    rintro ⟨ofTenant, isRevoked⟩
    cases holds.ofRecord.tenant.symm.trans ofTenant
    exact present.2 ⟨row.message, (sound.mem_revokedMessages isWrite).mpr
      ⟨row, holds.stored, ofTenant, isRevoked, rfl⟩, holds.refers⟩

end Enbox.Proof.State
