import Enbox.Proof.State.Backed

/-! # Data of latest states -/

namespace Enbox.Proof.State

open Lib Run List

variable {stores : Stores} {request : Request} {transition : LatestStateTransition}
  {d : WriteDescriptor} {recordId : String}

structure Stocked (p : Primitives) (stores : Stores) : Prop where
  sound : Sound p stores.messages
  latestGreatest : LatestGreatest p stores.messages
  entered : ∀ row ∈ stores.messages, Entered p row
  faithful : ∀ row ∈ stores.data, p.dataCid row.data = row.dataCid ∧
    maxEncodedDataSize < row.data.length
  backed : ∀ tenant recordId, Backed p stores tenant recordId

/-- The request is accepted and leaves no record with a part of its rows or with data that its writes
claim at another size. -/
structure Orderly (p : Primitives) (stores : Stores) (request : Request) : Prop where
  success : (processMessage p stores request).1.isSuccess = true
  whole : ∀ d recordId, request.message.descriptor = .recordsWrite d →
    request.message.recordId = some recordId →
    SquashesWhole stores.messages request.tenant request.message d recordId
  unsent : ∀ d recordId author, request.message.descriptor = .recordsWrite d →
    request.message.recordId = some recordId → p.isInitialWrite request.message author = true →
    request.data = none → d.dataSize ≤ maxEncodedDataSize →
      stores.data.get request.tenant recordId d.dataCid = none

section

variable {p : Primitives} {admitted : AdmittedWrite} {staged : StagedWrite}
  {committed : MessageStore}

theorem references_staged (staging : Staging p stores request admitted d staged)
    (record : request.message.recordId = some recordId) :
    references staged.stores.data = references stores.data ∨
    references staged.stores.data =
      insert (request.tenant, recordId, d.dataCid) (references stores.data) := by
  cases staging with
  | stored _ _ _ _ record' =>
    cases record.symm.trans record'
    exact .inr (references_put ..)
  | _ => exact .inl rfl

theorem faithful_staged (stocked : Stocked p stores)
    (staging : Staging p stores request admitted d staged) :
    ∀ row ∈ staged.stores.data, p.dataCid row.data = row.dataCid ∧
      maxEncodedDataSize < row.data.length := by
  cases staging with
  | stored _ dataCid size large =>
    intro row stored
    rcases mem_putData.mp stored with rfl | ⟨stored, -⟩
    · exact ⟨dataCid, by rw [size]; exact large⟩
    · exact stocked.faithful row stored
  | _ => exact stocked.faithful

def cleanedUp (p : Primitives) (request : Request) (admitted : AdmittedWrite)
    (staged : StagedWrite) (committed : MessageStore) : Stores :=
  cleanUpData p { staged.stores with messages := committed } request.tenant staged.message
    admitted.plan.cleanupCids admitted.existing

theorem cleanedUp_messages :
    (cleanedUp p request admitted staged committed).messages = committed :=
  cleanUpData_messages ..

section

variable (sound : Sound p stores.messages) (isWrite : request.message.descriptor = .recordsWrite d)
  (record : request.message.recordId = some recordId)
  (wrote : Wrote p stores request admitted staged transition committed)

include sound isWrite record wrote

theorem mem_references_cleanedUp (key : DataKey) :
    key ∈ references (cleanedUp p request admitted staged committed).data ↔
      key ∈ references staged.stores.data ∧
      ((∃ old ∈ stores.messages, OfRecord request.tenant recordId old ∧
        Refers request.tenant old.message key) → key.2.2 = d.dataCid) := by
  have all := wrote.replaces.all
  obtain ⟨stagedWrite, -⟩ := wrote.stagedAs isWrite record
  have drops : Drops _ (cleanedUp p request admitted staged committed) _ :=
    drops_cleanUpData { staged.stores with messages := committed } request.tenant staged.message
      admitted.plan.cleanupCids admitted.existing
  rw [drops.references, Set.mem_sdiff]
  refine and_congr_right fun _ => ?_
  rw [Set.mem_ofPred_eq, (wrote.passed record).2, Message.writeDescriptor_eq_some.mpr stagedWrite,
    Option.any_some, decide_eq_true_eq]
  rw [(wrote.passed record).2] at all
  constructor
  · rintro kept ⟨old, stored, ofRecord, refers⟩
    by_contra other
    have listed := sound.mem_fetchRecordMessages.mpr ⟨old, stored, ofRecord, rfl⟩
    exact kept ⟨old.message, listed, (all _).mpr (mem_map_of_mem listed), refers,
      fun same => other same.symm⟩
  · rintro same ⟨m, listed, -, refers, other⟩
    obtain ⟨old, stored, ofRecord, rfl⟩ := sound.mem_fetchRecordMessages.mp listed
    exact other (same ⟨old, stored, ofRecord, refers⟩).symm

omit sound isWrite record wrote in
theorem large_of_reference (law : p.CollisionFree) (stocked : Stocked p stores)
    (orderly : Orderly p stores request)
    (isWrite : request.message.descriptor = .recordsWrite d)
    (record : request.message.recordId = some recordId)
    (wrote : Wrote p stores request admitted staged transition committed)
    (present : (request.tenant, recordId, d.dataCid) ∈ references staged.stores.data) :
    maxEncodedDataSize < d.dataSize := by
  by_contra small
  rw [not_lt] at small
  have backed := stocked.backed request.tenant recordId
  cases stageWrite_as wrote.stages isWrite with
  | inline _ dataCid size =>
    -- The bytes sent would be those stored.
    obtain ⟨row, stored, keys⟩ := present
    obtain ⟨filed, large⟩ := stocked.faithful row stored
    have sameCid : row.dataCid = d.dataCid := congrArg (·.2.2) keys
    rw [law.dataCid (dataCid.trans (sameCid.symm.trans filed.symm))] at size
    exact large.not_ge (size ▸ small)
  | stored _ _ _ large => exact large.not_ge small
  | missing unsent isInitial =>
    have absent := orderly.unsent d recordId _ isWrite record isInitial
      ((Option.orElse_eq_none _ _).mp unsent).1 small
    rw [← get_isSome_iff, absent] at present
    cases present
  | reused _ _ found isNewest dataCid size =>
    obtain ⟨row, holds⟩ := backed.held _ present
    obtain ⟨e, isHolder, -, -⟩ := holds.large
    rw [(wrote.passed record).2] at found
    obtain ⟨newest, stored, ofRecord, rfl⟩ :=
      stocked.sound.mem_fetchRecordMessages.mp (newestMessage_eq_some found).1
    have below := rank_le_newestMessage found
      (stocked.sound.mem_fetchRecordMessages.mpr ⟨row, holds.stored, holds.ofRecord, rfl⟩)
      (by rw [isHolder, isNewest]; rfl)
    obtain ⟨e', isNewest', -, large⟩ := holds.dataCid_eq law stored ofRecord below
    cases isNewest.symm.trans isNewest'
    exact large.not_ge (size ▸ small)

theorem staged_of_latest (isLatest : staged.isLatestBaseState = true)
    (large : maxEncodedDataSize < d.dataSize) :
    (request.tenant, recordId, d.dataCid) ∈ references staged.stores.data := by
  cases stageWrite_as wrote.stages isWrite with
  | inline _ _ _ small => exact absurd small large.not_ge
  | stored _ _ _ _ record' =>
    cases record.symm.trans record'
    rw [references_put]
    exact Set.mem_insert _ _
  | missing => cases isLatest
  | reused _ _ found isNewest _ _ present =>
    obtain ⟨id, newestRecord, isPresent⟩ := present large
    rw [(wrote.passed record).2] at found
    obtain ⟨row, -, ofRecord, rfl⟩ :=
      sound.mem_fetchRecordMessages.mp (newestMessage_eq_some found).1
    cases (stateMessage_write isNewest newestRecord).mp ofRecord.state
    exact get_isSome_iff.mp isPresent

end

section

variable (law : p.CollisionFree)

include law

theorem committed_cases (sound : Sound p stores.messages)
    (record : request.message.recordId = some recordId)
    (wrote : Wrote p stores request admitted staged transition committed) {row : Row}
    (stored : row ∈ committed) (ofRecord : OfRecord request.tenant recordId row) :
    row = rowOf p request.tenant transition.put ∨
      ¬ IsLatest row ∧ rank p row.message < rank p transition.put.message := by
  rcases (wrote.mem_committed law sound record row).mp stored with isPut |
      ⟨old, oldStored, ofOld, -, kept⟩ | ⟨-, other⟩
  · exact .inl isPut
  · obtain ⟨encodedData, same⟩ := wrote.put
    rw [same, rank_setEncodedData, kept.rank]
    exact .inr ⟨kept.stale, wrote.outranks sound record oldStored ofOld⟩
  · exact absurd ofRecord other

section

variable (stocked : Stocked p stores) (orderly : Orderly p stores request)
  (isWrite : request.message.descriptor = .recordsWrite d)
  (record : request.message.recordId = some recordId)
  (wrote : Wrote p stores request admitted staged transition committed)

include stocked orderly isWrite record wrote

theorem Stocked.backed_own :
    Backed p (cleanedUp p request admitted staged committed) request.tenant recordId := by
  have kept := mem_references_cleanedUp stocked.sound isWrite record wrote
  have put := wrote.indexedPut isWrite record
  constructor
  · intro row stored ofRecord latest e isRow large
    rw [cleanedUp_messages] at stored
    rcases committed_cases law stocked.sound record wrote stored ofRecord with rfl | ⟨stale, -⟩
    · cases put.descriptor.symm.trans isRow
      have isLatest : staged.isLatestBaseState = true := by
        simpa using put.isLatestBaseState.symm.trans latest
      exact (kept _).mpr ⟨staged_of_latest stocked.sound isWrite record wrote isLatest large,
        fun _ => rfl⟩
    · exact absurd latest stale
  · intro dataCid present
    obtain ⟨isStaged, displaced⟩ := (kept _).mp present
    have same : dataCid = d.dataCid := by
      rcases references_staged (stageWrite_as wrote.stages isWrite) record with old | new
      · obtain ⟨holder, holds⟩ := (stocked.backed _ _).held dataCid (old ▸ isStaged)
        exact displaced ⟨holder, holds.stored, holds.ofRecord, holds.refers⟩
      · rcases new ▸ isStaged with isPut | old
        · simpa using isPut
        · obtain ⟨holder, holds⟩ := (stocked.backed _ _).held dataCid old
          exact displaced ⟨holder, holds.stored, holds.ofRecord, holds.refers⟩
    subst same
    refine ⟨rowOf p request.tenant transition.put, ?_, ⟨rfl, wrote.state record⟩,
      fun other stored ofRecord => ?_, d, put.descriptor, rfl,
      large_of_reference law stocked orderly isWrite record wrote isStaged⟩
    · rw [cleanedUp_messages]
      exact (wrote.mem_committed law stocked.sound record _).mpr (.inl rfl)
    · rw [cleanedUp_messages] at stored
      rcases committed_cases law stocked.sound record wrote stored ofRecord with rfl | ⟨-, below⟩
      · exact le_rfl
      · exact below.le

theorem Stocked.backed_cleanedUp (tenant : Did) (id : String) :
    Backed p (cleanedUp p request admitted staged committed) tenant id := by
  by_cases own : tenant = request.tenant ∧ id = recordId
  · obtain ⟨rfl, rfl⟩ := own
    exact stocked.backed_own law orderly isWrite record wrote
  · refine (stocked.backed tenant id).congr (fun row ofRecord => ?_) fun dataCid => ?_
    · rw [cleanedUp_messages]
      refine wrote.mem_committed_other law stocked.sound record fun ofOwn => own ?_
      exact ⟨ofRecord.tenant.symm.trans ofOwn.tenant, ofRecord.state.unique ofOwn.state⟩
    · have foreign : (tenant, id, dataCid) ≠ (request.tenant, recordId, d.dataCid) :=
        fun same => own ⟨congrArg (·.1) same, congrArg (·.2.1) same⟩
      rw [mem_references_cleanedUp stocked.sound isWrite record wrote, and_iff_left]
      · rcases references_staged (stageWrite_as wrote.stages isWrite) record with old | new
        · rw [old]
        · rw [new, Set.mem_insert_iff, or_iff_right foreign]
      · rintro ⟨old, -, ofOwn, refers⟩
        exact absurd (record_of_refers refers ofOwn.state) own

end

theorem squashesWhole_staged (sound : Sound p stores.messages)
    (record : request.message.recordId = some recordId)
    (wrote : Wrote p stores request admitted staged transition committed)
    (whole : SquashesWhole stores.messages request.tenant request.message d recordId) :
    SquashesWhole committed request.tenant staged.message d recordId := by
  obtain ⟨encodedData, same⟩ := (stageWrite_ok wrote.stages).message
  intro a storedA squashed sibling ofA b storedB ofB
  rw [same, squashed_setEncodedData, wrote.squashed_iff law sound record] at squashed
  obtain ⟨sibling', other, ofSibling, -⟩ := squashed.older
  cases ofSibling.state.unique ofA.state
  have before {row : Row} (ofRow : OfRecord request.tenant sibling row) :
      row ∈ committed ↔ row ∈ stores.messages :=
    wrote.mem_committed_other law sound record fun ofOwn => other (ofRow.state.unique ofOwn.state)
  rw [same]
  exact whole a ((before ofA).mp storedA) squashed sibling ofA b ((before ofB).mp storedB) ofB

theorem Stocked.write (stocked : Stocked p stores) (orderly : Orderly p stores request)
    (isWrite : request.message.descriptor = .recordsWrite d) :
    (∀ tenant id, Backed p (processMessage p stores request).2 tenant id) ∧
    ∀ row ∈ (processMessage p stores request).2.data, p.dataCid row.data = row.dataCid ∧
      maxEncodedDataSize < row.data.length := by
  obtain ⟨admitted, staged, transition, committed, wrote, after⟩ :=
    processMessage_write isWrite orderly.success
  obtain ⟨recordId, passed, -⟩ := admitWrite_ok wrote.admits
  obtain ⟨stagedWrite, stagedRecord⟩ := wrote.stagedAs isWrite passed.record
  obtain ⟨-, swept, squashes, -, finished⟩ := finishWrite_spec p request.tenant admitted
    { staged.stores with messages := committed } stagedWrite stagedRecord
  have new := wrote.newRow orderly.success
  have sound := wrote.sound stocked.sound orderly.success
  have greatest := stocked.latestGreatest.commit law stocked.sound (.write wrote) wrote.commits
    sound.addressed
  have entered := entered_commit stocked.sound stocked.entered wrote.commits new
  have purges : Purges p request.tenant swept (cleanedUp p request admitted staged committed) := by
    refine purges_squashSiblings law (by rwa [cleanedUp_messages]) stagedWrite stagedRecord ?_ squashes
    rw [cleanedUp_messages]
    exact squashesWhole_staged law stocked.sound passed.record wrote
      (orderly.whole d recordId isWrite passed.record)
  have mem (row : Row) (stored : row ∈ swept.messages) : row ∈ committed := by
    have cleaned := purges.mem stored
    rwa [cleanedUp_messages] at cleaned
  rw [after, finished]
  constructor
  · intro tenant id
    refine Backed.revoke law (sound.subset mem) (fun row stored => entered row (mem row stored))
      (greatest.subset mem) stagedWrite (purges.backed tenant id ?_)
    exact stocked.backed_cleanedUp law orderly isWrite passed.record wrote tenant id
  · intro row stored
    exact faithful_staged stocked (stageWrite_as wrote.stages isWrite) row
      ((drops_cleanUpData _ _ _ _ _ row).mp (purges.data row
        ((drops_postProcessPermissionsWrite swept staged.message row).mp stored).1)).1

end

end

section

variable {p : Primitives} {d : DeleteDescriptor} {admitted : AdmittedDelete} {author : Did}
  {cleanupCids : List Cid} {committed : MessageStore}

theorem backed_deleted (law : p.CollisionFree) (sound : Sound p stores.messages)
    (deleted : Deleted p stores request d admitted author transition cleanupCids committed)
    {after : Stores} (mem : ∀ row ∈ after.messages, row ∈ committed)
    (gone : ∀ dataCid, (request.tenant, d.recordId, dataCid) ∉ references after.data) :
    Backed p after request.tenant d.recordId := by
  refine ⟨fun row stored ofRecord latest e isWrite _ => ?_, fun dataCid present =>
    absurd present (gone dataCid)⟩
  rcases (deleted.mem_committed law sound row).mp (mem row stored) with rfl |
      ⟨old, -, -, -, kept⟩ | ⟨-, other⟩
  · obtain ⟨put, -⟩ := prepareRecordsDeleteTransition_ok deleted.isDelete deleted.builds
    rw [put] at isWrite
    cases deleted.isDelete.symm.trans isWrite
  · exact absurd latest kept.stale
  · exact absurd ofRecord other

theorem Stocked.delete (law : p.CollisionFree) (stocked : Stocked p stores)
    (isDelete : request.message.descriptor = .recordsDelete d)
    (success : (processMessage p stores request).1.isSuccess = true) :
    (∀ tenant id, Backed p (processMessage p stores request).2 tenant id) ∧
    ∀ row ∈ (processMessage p stores request).2.data, row ∈ stores.data := by
  obtain ⟨admitted, author, transition, cleanupCids, committed, pruned, deleted, prunes, after⟩ :=
    processMessage_delete isDelete success
  have purges := purges_pruneDescendants law (deleted.sound stocked.sound)
    (entered_commit stocked.sound stocked.entered deleted.commits deleted.newRow) prunes
  have all := deleted.replaces.all
  rw [(admitDelete_ok deleted.admits).1] at all after
  have drops := drops_cleanUpData (p := p) pruned request.tenant request.message cleanupCids
    (fetchRecordMessages stores.messages request.tenant d.recordId)
  rw [← after] at drops
  have messages : (processMessage p stores request).2.messages = pruned.messages := by
    rw [after, cleanUpData_messages]
  refine ⟨fun tenant id => ?_, fun row stored => purges.data row ((drops row).mp stored).1⟩
  by_cases own : tenant = request.tenant ∧ id = d.recordId
  · obtain ⟨rfl, rfl⟩ := own
    refine backed_deleted law stocked.sound deleted
      (fun row stored => purges.mem (messages ▸ stored)) fun dataCid present => ?_
    rw [drops.references] at present
    obtain ⟨dataRow, inPruned, keys⟩ := present.1
    obtain ⟨holder, holds⟩ := (stocked.backed request.tenant d.recordId).held dataCid
      ⟨dataRow, purges.data dataRow inPruned, keys⟩
    have listed := stocked.sound.mem_fetchRecordMessages.mpr
      ⟨holder, holds.stored, holds.ofRecord, rfl⟩
    refine present.2 ⟨holder.message, listed, (all _).mpr (mem_map_of_mem listed),
      holds.refers, ?_⟩
    simp [Message.writeDescriptor, isDelete]
  · have committedBacked : Backed p { stores with messages := committed } tenant id := by
      refine (stocked.backed tenant id).congr (fun row ofRecord => ?_) fun _ => Iff.rfl
      refine deleted.mem_committed_other law stocked.sound fun ofOwn => own ?_
      exact ⟨ofRecord.tenant.symm.trans ofOwn.tenant, ofRecord.state.unique ofOwn.state⟩
    refine (purges.backed tenant id committedBacked).congr (.of_eq messages) fun dataCid => ?_
    rw [drops.references, Set.mem_sdiff, and_iff_left]
    rintro ⟨m, listed, -, refers, -⟩
    obtain ⟨old, -, ofOwn, rfl⟩ := stocked.sound.mem_fetchRecordMessages.mp listed
    exact own (record_of_refers refers ofOwn.state)

end

section

variable {p : Primitives}

theorem unchanged_of_other (law : p.CollisionFree) (sound : Sound p stores.messages)
    (notWrite : ∀ d, request.message.descriptor ≠ .recordsWrite d)
    (notDelete : ∀ d, request.message.descriptor ≠ .recordsDelete d) :
    (processMessage p stores request).2.data = stores.data ∧ ∀ tenant recordId,
      SameRows tenant recordId (processMessage p stores request).2.messages stores.messages := by
  rcases processMessage_other_cases notWrite notDelete with
    unchanged | ⟨-, transition, committed, -, commits, after, deletes, new⟩
  · rw [unchanged]
    exact ⟨rfl, fun _ _ => .of_eq rfl⟩
  · rw [after]
    exact ⟨rfl, fun _ _ _ => mem_configured law sound commits deletes
      fun mutation mutates => (new mutation mutates).2⟩

theorem Stocked.processMessage (law : p.CollisionFree) (stocked : Stocked p stores)
    (orderly : Orderly p stores request) : Stocked p (processMessage p stores request).2 := by
  have sound := stocked.sound.processMessage request
  have greatest := stocked.latestGreatest.step law stocked.sound (.request request)
  have entered : ∀ row ∈ (Enbox.processMessage p stores request).2.messages, Entered p row :=
    fun row stored => (mem_processMessage stored).elim (stocked.entered row)
      (entered_newRow stocked.sound stocked.entered)
  by_cases isWrite : ∃ d, request.message.descriptor = .recordsWrite d
  · obtain ⟨d, isWrite⟩ := isWrite
    obtain ⟨backed, faithful⟩ := stocked.write law orderly isWrite
    exact ⟨sound, greatest, entered, faithful, backed⟩
  by_cases isDelete : ∃ d, request.message.descriptor = .recordsDelete d
  · obtain ⟨d, isDelete⟩ := isDelete
    obtain ⟨backed, mem⟩ := stocked.delete law isDelete orderly.success
    exact ⟨sound, greatest, entered, fun row stored => stocked.faithful row (mem row stored), backed⟩
  · obtain ⟨data, rows⟩ := unchanged_of_other law stocked.sound (not_exists.mp isWrite)
      (not_exists.mp isDelete)
    refine ⟨sound, greatest, entered, data ▸ stocked.faithful, fun tenant recordId => ?_⟩
    exact (stocked.backed tenant recordId).congr (rows tenant recordId) fun _ => by rw [data]

theorem stocked_nil : Stocked p {} where
  sound := sound_nil
  latestGreatest _ _ _ stored := absurd stored not_mem_nil
  entered _ stored := absurd stored not_mem_nil
  faithful _ stored := absurd stored not_mem_nil
  backed _ _ := backed_of_empty (fun _ stored => absurd stored not_mem_nil)
    fun _ ⟨_, stored, _⟩ => absurd stored not_mem_nil

def OrderlyEvent (p : Primitives) (stores : Stores) : Event → Prop
  | .request request => Orderly p stores request
  | .controlPurge _ _ _ => False

theorem stocked_of_reaches (law : p.CollisionFree)
    (reached : Reaches (step p) (OrderlyEvent p) {} stores) : Stocked p stores :=
  reached.invariant (P := Stocked p) stocked_nil fun _ event stocked allowed => by
    cases event with
    | request request => exact stocked.processMessage law allowed
    | controlPurge => exact allowed.elim

/-- In every run of orderly requests, the latest write of a record has its data if they are too large
for its row, and data of a record are those of its latest state. -/
theorem data_of_latest_states (law : p.CollisionFree)
    (reached : Reaches (step p) (OrderlyEvent p) {} stores) (tenant : Did) (recordId : String)
    {row : Row} (stored : row ∈ stores.messages) (ofRecord : OfRecord tenant recordId row)
    (latest : IsLatest row) :
    (∀ d, row.message.descriptor = .recordsWrite d → maxEncodedDataSize < d.dataSize →
      ∃ data, stores.data.get tenant recordId d.dataCid = some data ∧ p.dataCid data = d.dataCid) ∧
    ∀ dataCid, (stores.data.get tenant recordId dataCid).isSome = true →
      ∃ d, row.message.descriptor = .recordsWrite d ∧ d.dataCid = dataCid := by
  have stocked := stocked_of_reaches law reached
  have backed := stocked.backed tenant recordId
  constructor
  · intro d isWrite large
    have present := backed.present row stored ofRecord latest d isWrite large
    obtain ⟨data, found⟩ := Option.isSome_iff_exists.mp (get_isSome_iff.mpr present)
    refine ⟨data, found, ?_⟩
    obtain ⟨dataRow, isFound, rfl⟩ := Option.map_eq_some_iff.mp found
    have isKeyed := List.find?_some isFound
    rw [(stocked.faithful dataRow (mem_of_find?_eq_some isFound)).1]
    exact congrArg (·.2.2) (keyed_iff.mp isKeyed)
  · intro dataCid present
    obtain ⟨holder, holds⟩ := backed.held dataCid (get_isSome_iff.mp present)
    obtain ⟨d, isWrite, same, -⟩ := holds.dataCid_eq law stored ofRecord
      (stocked.latestGreatest tenant recordId row stored ofRecord latest holder holds.stored
        holds.ofRecord)
    exact ⟨d, isWrite, same⟩

end

section

variable {p : Primitives} {bytes : Bytes}

def uploaded (stores : Stores) (request : Request) (recordId : String) (d : WriteDescriptor)
    (bytes : Bytes) : StagedWrite where
  stores := { stores with data := stores.data.put request.tenant recordId d.dataCid bytes }
  message := setEncodedData request.message none
  isLatestBaseState := true

-- What is left of `handleWrite` once the bytes are known to be those of the descriptor: no further
-- step reads them, so it evaluates whatever their size.
def handleUpload (p : Primitives) (stores : Stores) (request : Request) (recordId : String)
    (d : WriteDescriptor) (bytes : Bytes) : Status × Stores :=
  match admitWrite p request.resolver stores.messages request.tenant request.message with
  | .error status => (status, stores)
  | .ok admitted =>
    let staged := uploaded stores request recordId d bytes
    match commitWrite p request.tenant admitted staged with
    | .error status => (status, staged.stores)
    | .ok messages => finishWrite p request.tenant admitted staged { staged.stores with messages }

section

variable (isWrite : request.message.descriptor = .recordsWrite d)
  (record : request.message.recordId = some recordId) (sent : request.data = some bytes)
  (dataCid : d.dataCid = p.dataCid bytes) (size : d.dataSize = bytes.length)
  (large : maxEncodedDataSize < d.dataSize)
  (ordinary : ControlKind.fromProtocolPath d.protocolPath = none)

include isWrite record sent dataCid size large ordinary

theorem stageWrite_upload (admitted : AdmittedWrite) :
    stageWrite p stores request.tenant request.message request.data admitted =
      .ok (uploaded stores request recordId d bytes) := by
  rw [stageWrite, sent]
  change processMessageWithDataStream p stores request.tenant request.message bytes = .ok _
  simp only [processMessageWithDataStream, Message.writeDescriptorOr_eq_ok.mpr isWrite, ok_bind, ok_iff,
    validateDataIntegrity, validateControlData, ordinary]
  refine ⟨(), ⟨(), dataCid, size⟩, ?_⟩
  rw [storeData, if_neg (not_le.mpr large), record]
  rfl

theorem processMessage_upload (wellFormed : admitMessage request.message = .ok ()) :
    processMessage p stores request = handleUpload p stores request recordId d bytes := by
  simp only [processMessage, wellFormed, isWrite, handleWrite, replying, Except.mapError,
    stageWrite_upload isWrite record sent dataCid size large ordinary]
  rfl

theorem reaches_upload {allowed : Stores → Event → Prop} {start : Stores}
    (reached : Reaches (step p) allowed start stores) (ok : allowed stores (.request request))
    (wellFormed : admitMessage request.message = .ok ()) :
    Reaches (step p) allowed start (handleUpload p stores request recordId d bytes).2 := by
  have next := reached.next ok
  rwa [step, processMessage_upload isWrite record sent dataCid size large ordinary wellFormed] at next

end

end

namespace Uploads

open Concrete Threads

def big : Bytes := List.replicate 30001 0

def dataCid (data : Bytes) : Cid := if data = big then "big" else "." ++ bytesText data

theorem dataCid_injective : Function.Injective dataCid := shortCid_injective big (by decide)

def post (dataCid : Cid) (dataSize : Nat) (timestamp : Timestamp) : WriteDescriptor :=
  { thread "" timestamp with dataCid, dataSize }

def claim : Message := write (post "big" 4 2) "claim" "alice" "T" ["T"]
def claimAgain : Message := write (post "big" 4 2) "claimAgain" "alice" "T" ["T"]

def upload : Message := write (post "big" 30001 2) "upload" "alice" "T" ["T"]
def update : Message := write (post ".new" 3 5) "update" "alice" "T" ["T"]

def first : Message := write (post "big" 30001 2) "first" "alice" "V" ["V"]

def start : Message := write (post ".new" 3 2) "start" "alice" "S" ["S"]

def script : Script :=
  configuring.posted claim "d1" "m1" "T" |>.posted upload "d2" "m2" "V"
    |>.signed claimAgain "d1" "m3" |>.posted update "d3" "m4" "e1" |>.signed first "d2" "m5"

noncomputable section

abbrev p : Primitives := { script.primitives with dataCid }

theorem collisionFree : p.CollisionFree :=
  ⟨(script.collisionFree (by decide) (by decide)).cid, dataCid_injective⟩

def sent (message : Message) (data : Option Bytes) : Request where
  tenant := "did:ex:alice"
  message := message
  data := data
  resolver := some openResolver

def started (p : Primitives) : Stores :=
  step p (step p {} (.request (sent configureMessage none)))
    (.request (sent start (some (textBytes "new"))))

theorem reaches_started (p : Primitives) : Reaches (step p) (fun _ _ => True) {} (started p) :=
  (Reaches.next .refl trivial).next trivial

def configured : Stores := step p {} (.request (sent configureMessage none))

def claimed : Stores := step p configured (.request (sent claim none))

theorem big_length : big.length = 30001 := length_replicate

theorem primitives_dataCid (data : Bytes) : p.dataCid data = dataCid data := rfl

theorem dataCid_big : p.dataCid big = "big" := by
  rw [primitives_dataCid, dataCid, if_pos rfl]

def stored : Stores := (handleUpload p claimed (sent upload big) "T" (post "big" 30001 2) big).2

theorem processMessage_stored :
    processMessage p claimed (sent upload big) = (accepted, stored) :=
  (processMessage_upload rfl rfl rfl dataCid_big.symm big_length.symm (by decide) rfl rfl).trans rfl

def begun : Stores := (handleUpload p configured (sent first big) "V" (post "big" 30001 2) big).2

theorem processMessage_begun :
    processMessage p configured (sent first big) = (accepted, begun) :=
  (processMessage_upload rfl rfl rfl dataCid_big.symm big_length.symm (by decide) rfl rfl).trans rfl

def displaced : Stores := step p stored (.request (sent claimAgain none))

def updated : Stores :=
  step p displaced (.request (sent update (some (textBytes "new"))))

end

end Uploads

open Concrete (textBytes)
open Threads (configureMessage)
open Uploads

theorem first_upload_present :
    p.CollisionFree ∧ Reaches (step p) (OrderlyEvent p) {} begun ∧
    ∃ row ∈ begun.messages, OfRecord "did:ex:alice" "V" row ∧ IsLatest row ∧
      row.message.descriptor = .recordsWrite (post "big" 30001 2) ∧
      ∃ data, begun.data.get "did:ex:alice" "V" "big" = some data ∧ p.dataCid data = "big" := by
  have configures : OrderlyEvent p {} (.request (sent configureMessage none)) :=
    ⟨rfl, fun _ _ isWrite => (by cases isWrite), fun _ _ _ isWrite => (by cases isWrite)⟩
  have begins : OrderlyEvent p configured (.request (sent first big)) := by
    refine ⟨by rw [processMessage_begun]; rfl, ?_, ?_⟩
    · intro d _ isWrite _ _ _ squashed
      cases isWrite
      cases squashed.squash
    · intro _ _ _ _ _ _ unsent
      cases unsent
  have atConfigured : Reaches (step p) (OrderlyEvent p) {} configured := .next .refl configures
  have reached : Reaches (step p) (OrderlyEvent p) {} begun :=
    reaches_upload rfl rfl rfl dataCid_big.symm big_length.symm (by decide) rfl atConfigured begins rfl
  obtain ⟨row, isStored, ofRecord, latest, isFirst⟩ : ∃ row ∈ begun.messages,
      OfRecord "did:ex:alice" "V" row ∧ IsLatest row ∧
        row.message.descriptor = .recordsWrite (post "big" 30001 2) :=
    exists_mem_of_find? (·.cid == "m5") ⟨_, rfl, ⟨rfl, .write rfl rfl⟩, rfl, rfl⟩
  exact ⟨collisionFree, reached, row, isStored, ofRecord, latest, isFirst,
    (data_of_latest_states collisionFree reached "did:ex:alice" "V" isStored ofRecord latest).1 _
      isFirst (by decide)⟩

def AcceptedEvent (p : Primitives) (stores : Stores) : Event → Prop
  | .request request => (processMessage p stores request).1.isSuccess = true
  | .controlPurge _ _ _ => False

theorem upload_outlives_its_write :
    p.CollisionFree ∧ Reaches (step p) (AcceptedEvent p) {} updated ∧
    (updated.data.get "did:ex:alice" "T" "big").isSome = true ∧
    ∃ row ∈ updated.messages, OfRecord "did:ex:alice" "T" row ∧ IsLatest row ∧
      row.message.descriptor = .recordsWrite (post ".new" 3 5) := by
  have along : AllowedAlong (step p) (AcceptedEvent p) {}
      [.request (sent configureMessage none), .request (sent claim none)] := ⟨rfl, rfl, trivial⟩
  have atClaimed : Reaches (step p) (AcceptedEvent p) {} claimed := along.reaches
  have uploads : AcceptedEvent p claimed (.request (sent upload big)) := by
    rw [AcceptedEvent, processMessage_stored]
    rfl
  have atStored : Reaches (step p) (AcceptedEvent p) {} stored :=
    reaches_upload rfl rfl rfl dataCid_big.symm big_length.symm (by decide) rfl atClaimed uploads rfl
  have displaces : AcceptedEvent p stored (.request (sent claimAgain none)) := rfl
  have updates : AcceptedEvent p displaced (.request (sent update (some (textBytes "new")))) := rfl
  exact ⟨collisionFree, (atStored.next displaces).next updates, rfl,
    exists_mem_of_find? (·.cid == "m4") ⟨_, rfl, ⟨rfl, .write rfl rfl⟩, rfl, rfl⟩⟩

end Enbox.Proof.State
