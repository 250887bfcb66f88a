import Enbox.Proof.Run.Journal
import Enbox.Proof.Run.Sound

/-! # What an accepted message does to the rows -/

namespace Enbox.Proof.Run

open Lib List

variable {p : Primitives} {recordId : String} {m : Message} {author tenant : Did}
  {d : WriteDescriptor} {old : Row} {outranked : List Cid} {keepAs : Message → Option Did}
  {existing : List Message} {committed : MessageStore} {transition : LatestStateTransition}
  {stores : Stores} {request : Request}

theorem messageCid_inj (law : p.CollisionFree) {a b : Message}
    (same : p.messageCid a = p.messageCid b) : setEncodedData a none = setEncodedData b none := by
  have inputs := law.cid same
  rw [CidInput.message.injEq] at inputs
  exact inputs

theorem descriptor_congr {a b : Message}
    (same : setEncodedData a none = setEncodedData b none) : a.descriptor = b.descriptor := by
  simpa using congrArg MessageOf.descriptor same

theorem stateMessage_setEncodedData (m : Message) (data : Option String) (recordId : String) :
    StateMessage (setEncodedData m data) recordId ↔ StateMessage m recordId := by
  constructor
  · rintro (⟨isWrite, record⟩ | ⟨isDelete, bare, record⟩)
    · exact .write isWrite record
    · exact .delete isDelete bare record
  · rintro (⟨isWrite, record⟩ | ⟨isDelete, bare, record⟩)
    · exact .write isWrite record
    · exact .delete isDelete bare record

theorem stateMessage_congr (law : p.CollisionFree) {a b : Message}
    (same : p.messageCid a = p.messageCid b) :
    StateMessage a recordId ↔ StateMessage b recordId := by
  rw [← stateMessage_setEncodedData a none, messageCid_inj law same, stateMessage_setEncodedData]

theorem StateMessage.unique {x y : String} (first : StateMessage m x) (second : StateMessage m y) :
    x = y := by
  have same := first.messageRecordId.symm.trans second.messageRecordId
  cases same
  rfl

theorem isInitialWrite_unique (law : p.CollisionFree) (initial : p.isInitialWrite m author = true)
    (other : Did) :
    p.isInitialWrite m other = true ↔ other = author := by
  refine ⟨fun also => ?_, fun same => same ▸ initial⟩
  obtain ⟨d, isWrite, record⟩ := isInitialWrite_iff.mp initial
  obtain ⟨e, isWrite', record'⟩ := isInitialWrite_iff.mp also
  cases isWrite.symm.trans isWrite'
  exact (entryId_inj law (Option.some.inj (record'.symm.trans record))).1

structure KeptAs (p : Primitives) (author : Did) (old row : Row) : Prop where
  tenant : row.tenant = old.tenant
  cid : row.cid = old.cid
  message : row.message = setEncodedData old.message none
  indexed : recordsWriteIndexes p row.message author false = .ok row.indexes

theorem recordsWriteIndexes_total (p : Primitives) (message : Message)
    (isWrite : message.descriptor = .recordsWrite d) (record : message.recordId = some recordId)
    (author : Did) (latest : Bool) :
    ∃ indexes, recordsWriteIndexes p message author latest = .ok indexes := by
  simp only [recordsWriteIndexes, Message.writeDescriptorOr_eq_ok.mpr isWrite, record, okOr, ok_bind]
  exact ⟨_, rfl⟩

theorem exists_keptAs (p : Primitives) (isWrite : old.message.descriptor = .recordsWrite d)
    (record : old.message.recordId = some recordId) (author : Did) :
    ∃ row, KeptAs p author old row := by
  obtain ⟨indexes, indexed⟩ := recordsWriteIndexes_total p
    (setEncodedData old.message none) isWrite record author false
  exact ⟨⟨old.tenant, old.cid, setEncodedData old.message none, indexes⟩, rfl, rfl, rfl, indexed⟩

theorem KeptAs.ofRecord {row : Row} (kept : KeptAs p author old row) :
    OfRecord tenant recordId row ↔ OfRecord tenant recordId old := by
  have state : StateMessage row.message recordId ↔ StateMessage old.message recordId := by
    rw [kept.message, stateMessage_setEncodedData]
  exact ⟨fun of => ⟨kept.tenant ▸ of.tenant, state.mp of.state⟩,
    fun of => ⟨kept.tenant.trans of.tenant, state.mpr of.state⟩⟩

structure Replaces (p : Primitives) (existing : List Message) (message : Message)
    (keepAs : Message → Option Did) (outranked : List Cid) (transition : LatestStateTransition) :
    Prop where
  outranks : ∀ m ∈ existing, rank p m < rank p message
  all : ∀ cid, cid ∈ outranked ↔ cid ∈ existing.map p.messageCid
  retains : ∀ mutation, mutation ∈ transition.retains ↔ ∃ m ∈ existing, ∃ author,
    keepAs m = some author ∧ retainedInitialWrite p m author = .ok mutation
  deletes : ∀ cid, cid ∈ transition.deletes ↔ ∃ m ∈ existing, keepAs m = none ∧ p.messageCid m = cid
  cids : ∀ cid, (cid ∈ transition.retains.map fun m => p.messageCid m.message) ∨
    cid ∈ transition.deletes ↔ cid ∈ existing.map p.messageCid

theorem replaces_of_planned {cid : Cid}
    (planned : planRecordsTransition p m existing = .ok (.apply cid outranked))
    (replaced : replaceOutranked p outranked keepAs existing =
      .ok (transition.retains, transition.deletes)) :
    Replaces p existing m keepAs outranked transition := by
  obtain ⟨outranks, all⟩ := plans_of_ok planned
  obtain ⟨retains, deletes, cids⟩ := replaceOutranked_ok replaced
  have listed {m : Message} (found : m ∈ existing) : p.messageCid m ∈ outranked :=
    (all _).mpr (mem_map_of_mem found)
  refine ⟨outranks, all, fun mutation => ?_, fun cid => ?_,
    fun cid => by rw [cids, all, and_self]⟩
  · rw [retains]
    exact exists_congr fun m => and_congr_right fun found => and_iff_right (listed found)
  · rw [deletes]
    exact exists_congr fun m => and_congr_right fun found => and_iff_right (listed found)

section

variable {store : MessageStore} (replaces : Replaces p existing m keepAs outranked transition)
  (fetched : existing = fetchRecordMessages store tenant recordId) (sound : Sound p store)

include replaces fetched sound

theorem Replaces.outranks_row (stored : old ∈ store) (ofRecord : OfRecord tenant recordId old) :
    rank p old.message < rank p m := by
  subst fetched
  exact replaces.outranks _ (sound.mem_fetchRecordMessages.mpr ⟨old, stored, ofRecord, rfl⟩)

theorem Replaces.mem_deletes (stored : old ∈ store) (ofRecord : OfRecord tenant recordId old) :
    old.cid ∈ transition.deletes ↔ keepAs old.message = none := by
  subst fetched
  rw [replaces.deletes]
  constructor
  · rintro ⟨m, found, unkept, same⟩
    obtain ⟨other, otherStored, ofOther, rfl⟩ := sound.mem_fetchRecordMessages.mp found
    cases sound.unique other otherStored old stored (ofOther.tenant.trans ofRecord.tenant.symm)
      ((sound.addressed other otherStored).trans same)
    exact unkept
  · intro unkept
    exact ⟨old.message, sound.mem_fetchRecordMessages.mpr ⟨old, stored, ofRecord, rfl⟩, unkept,
      (sound.addressed old stored).symm⟩

variable (commits : store.commitLatestState p tenant transition = .ok committed)

include commits

theorem Replaces.held_iff (stored : old ∈ store) (ofRecord : OfRecord tenant recordId old) :
    (∃ row ∈ committed, row.tenant = tenant ∧ row.cid = old.cid) ↔
      old.cid ∉ transition.deletes := by
  have distinct := commitLatestState_nodup commits
  constructor
  · rintro ⟨row, stored, ofTenant, same⟩ deleted
    rw [← same] at deleted
    have apart {mutation : LatestStateMutation}
        (listed : mutation ∈ transition.put :: transition.retains) :
        p.messageCid mutation.message ≠ row.cid :=
      (nodup_append.mp distinct).2.2 _ (mem_map.mpr ⟨mutation, listed, rfl⟩) _ deleted
    rcases (mem_commitLatestState_iff commits).mp stored with rfl | ⟨mutation, listed, rfl⟩ |
        ⟨-, untouched⟩
    · exact apart mem_cons_self rfl
    · exact apart (mem_cons_of_mem _ listed) rfl
    · exact untouched ⟨ofTenant, mem_append_right _ deleted⟩
  · intro kept
    have replaced := (replaces.cids old.cid).mpr (by
      rw [sound.addressed old stored, fetched]
      exact mem_map_of_mem (sound.mem_fetchRecordMessages.mpr ⟨old, stored, ofRecord, rfl⟩))
    obtain ⟨mutation, listed, same⟩ := mem_map.mp (replaced.resolve_right kept)
    exact ⟨rowOf p tenant mutation,
      (mem_commitLatestState_iff commits).mpr (.inr (.inl ⟨mutation, listed, rfl⟩)), rfl, same⟩

variable (law : p.CollisionFree) (state : StateMessage transition.put.message recordId)

include law state

theorem Replaces.mem_committed (row : Row) :
    row ∈ committed ↔ row = rowOf p tenant transition.put ∨
      (∃ old ∈ store, OfRecord tenant recordId old ∧ ∃ author, keepAs old.message = some author ∧
        KeptAs p author old row) ∨
      row ∈ store ∧ ¬ OfRecord tenant recordId row := by
  subst fetched
  rw [mem_commitLatestState_iff commits]
  refine or_congr_right (or_congr ?_ (and_congr_right fun stored => not_congr ?_))
  · constructor
    · rintro ⟨mutation, retained, rfl⟩
      obtain ⟨m, listed, author, keeps, isRetained⟩ := (replaces.retains mutation).mp retained
      obtain ⟨old, stored, ofRecord, rfl⟩ := sound.mem_fetchRecordMessages.mp listed
      simp only [retainedInitialWrite, ok_iff] at isRetained
      obtain ⟨indexes, indexed, rfl⟩ := isRetained
      exact ⟨old, stored, ofRecord, author, keeps, ofRecord.tenant.symm,
        (sound.addressed old stored).symm, rfl, indexed⟩
    · rintro ⟨old, stored, ofRecord, author, keeps, kept⟩
      refine ⟨⟨row.message, row.indexes⟩, (replaces.retains _).mpr ⟨old.message,
        sound.mem_fetchRecordMessages.mpr ⟨old, stored, ofRecord, rfl⟩, author, keeps, ?_⟩, ?_⟩
      · have indexed := kept.indexed
        rw [kept.message] at indexed ⊢
        simp only [retainedInitialWrite, indexed, ok_bind]
        rfl
      · have cid : row.cid = p.messageCid row.message := by
          rw [kept.cid, sound.addressed old stored, kept.message]
          rfl
        obtain ⟨rowTenant, rowCid, rowMessage, rowIndexes⟩ := row
        simp only [rowOf, Row.mk.injEq, and_true]
        exact ⟨kept.tenant.trans ofRecord.tenant, cid⟩
  · rw [touched, map_cons, cons_append, mem_cons, mem_append, replaces.cids]
    constructor
    · rintro ⟨ofTenant, same | listed⟩
      · rw [sound.addressed row stored] at same
        exact ⟨ofTenant, (stateMessage_congr law same).mpr state⟩
      · obtain ⟨m, found, same⟩ := mem_map.mp listed
        obtain ⟨other, -, ofRecord, rfl⟩ := sound.mem_fetchRecordMessages.mp found
        rw [sound.addressed row stored] at same
        exact ⟨ofTenant, (stateMessage_congr law same).mp ofRecord.state⟩
    · intro ofRecord
      refine ⟨ofRecord.tenant, .inr ?_⟩
      rw [sound.addressed row stored]
      exact mem_map_of_mem (sound.mem_fetchRecordMessages.mpr ⟨row, stored, ofRecord, rfl⟩)

theorem Replaces.mem_committed_other {row : Row} (other : ¬ OfRecord tenant recordId row) :
    row ∈ committed ↔ row ∈ store := by
  rw [replaces.mem_committed fetched sound commits law state, and_iff_left other]
  refine ⟨?_, fun stored => .inr (.inr stored)⟩
  rintro (rfl | ⟨old, -, ofOld, _, -, kept⟩ | stored)
  · exact absurd ⟨rfl, state⟩ other
  · exact absurd (kept.ofRecord.mpr ofOld) other
  · exact stored

end

theorem keptByDelete_eq_some {as : Did} :
    keptByDelete p recordId m = some as ↔
      m.recordId = some recordId ∧ isOwnInitialWrite p m = true ∧
        as = (messageAuthor p m).getD "" := by
  unfold keptByDelete
  split
  · simp_all only [Option.some.injEq, true_and]
    exact eq_comm
  · simp only [reduceCtorEq, false_iff]
    tauto

theorem own_recordId (own : isOwnInitialWrite p m = true) (state : StateMessage m recordId) :
    m.recordId = some recordId := by
  rcases state with ⟨-, record⟩ | ⟨isDelete, -, -⟩
  · exact record
  · simp [isOwnInitialWrite, Message.writeDescriptor, isDelete] at own

section

variable {admitted : AdmittedWrite} {staged : StagedWrite}

section

variable (built : BuildsWrite p stores request admitted staged transition)

include built

theorem BuildsWrite.passed (record : request.message.recordId = some recordId) :
    Passed p stores.messages request admitted.auth recordId ∧
      admitted.existing = fetchRecordMessages stores.messages request.tenant recordId := by
  obtain ⟨id, passed, existing, -⟩ := admitWrite_ok built.admits
  cases passed.record.symm.trans record
  exact ⟨passed, existing⟩

theorem BuildsWrite.put :
    ∃ encodedData, transition.put.message = setEncodedData request.message encodedData := by
  obtain ⟨encodedData, same⟩ := (stageWrite_ok built.stages).message
  obtain ⟨put, -⟩ := recordsWriteTransition_ok built.builds
  exact ⟨encodedData, by rw [put, same]⟩

theorem BuildsWrite.indexedPut (isWrite : request.message.descriptor = .recordsWrite d)
    (record : request.message.recordId = some recordId) :
    IndexedWrite p transition.put.message admitted.auth.author staged.isLatestBaseState
      transition.put.indexes d recordId := by
  obtain ⟨encodedData, same⟩ := (stageWrite_ok built.stages).message
  obtain ⟨put, -⟩ := recordsWriteTransition_ok built.builds
  obtain ⟨d', id, indexed⟩ := recordsWriteIndexes_ok built.indexed
  have descriptor := indexed.descriptor
  have hasRecord := indexed.record
  rw [same] at descriptor hasRecord
  cases isWrite.symm.trans descriptor
  cases record.symm.trans hasRecord
  rw [show transition.put.message = staged.message by rw [put]]
  exact indexed

theorem BuildsWrite.state (record : request.message.recordId = some recordId) :
    StateMessage transition.put.message recordId := by
  obtain ⟨d, id, indexed⟩ := recordsWriteIndexes_ok built.indexed
  obtain ⟨encodedData, same⟩ := (stageWrite_ok built.stages).message
  obtain ⟨put, -⟩ := recordsWriteTransition_ok built.builds
  rw [put]
  exact .write indexed.descriptor (by rw [same]; exact record)

theorem BuildsWrite.replaces :
    Replaces p admitted.existing request.message (keptByWrite p admitted.auth.author)
      admitted.plan.cleanupCids transition := by
  obtain ⟨id, -, -, planned, cid, outranked, isApply⟩ := admitWrite_ok built.admits
  obtain ⟨-, _, planOutranks, replaced⟩ := recordsWriteTransition_ok built.builds
  rw [isApply] at planned planOutranks ⊢
  cases planOutranks
  exact replaces_of_planned planned replaced

end

theorem Wrote.outranks (sound : Sound p stores.messages)
    (wrote : Wrote p stores request admitted staged transition committed)
    (record : request.message.recordId = some recordId) (stored : old ∈ stores.messages)
    (ofRecord : OfRecord request.tenant recordId old) :
    rank p old.message < rank p request.message :=
  wrote.replaces.outranks_row (wrote.passed record).2 sound stored ofRecord

theorem Wrote.mem_committed (law : p.CollisionFree) (sound : Sound p stores.messages)
    (wrote : Wrote p stores request admitted staged transition committed)
    (record : request.message.recordId = some recordId) (row : Row) :
    row ∈ committed ↔ row = rowOf p request.tenant transition.put ∨
      (∃ old ∈ stores.messages, OfRecord request.tenant recordId old ∧
        p.isInitialWrite old.message admitted.auth.author = true ∧
        KeptAs p admitted.auth.author old row) ∨
      row ∈ stores.messages ∧ ¬ OfRecord request.tenant recordId row := by
  rw [wrote.replaces.mem_committed (wrote.passed record).2 sound wrote.commits law
    (wrote.state record)]
  simp only [keptByWrite_eq_some, exists_and_left, and_assoc, exists_eq_left]

end

section

variable {d : DeleteDescriptor} {admitted : AdmittedDelete} {cleanupCids : List Cid}

section

variable (built : BuildsDelete p stores request d admitted author transition cleanupCids)

include built

theorem BuildsDelete.state :
    StateMessage transition.put.message d.recordId := by
  obtain ⟨put, -⟩ := prepareRecordsDeleteTransition_ok built.isDelete built.builds
  rw [put]
  exact .delete built.isDelete built.bare rfl

theorem BuildsDelete.target (sound : Sound p stores.messages) :
    ∃ old ∈ stores.messages, OfRecord request.tenant d.recordId old ∧
      old.message = admitted.initialWrite := by
  obtain ⟨existing, -, -, found⟩ := admitDelete_ok built.admits
  exact sound.mem_fetchRecordMessages.mp (existing ▸ mem_deletedWrite found)

theorem BuildsDelete.replaces :
    Replaces p admitted.existing request.message (keptByDelete p d.recordId) cleanupCids
      transition := by
  obtain ⟨-, planned, applies, -⟩ := admitDelete_ok built.admits
  obtain ⟨-, planOutranks, replaced⟩ :=
    prepareRecordsDeleteTransition_ok built.isDelete built.builds
  cases isApply : admitted.plan with
  | duplicate => rw [isApply] at applies; cases applies
  | superseded => rw [isApply] at applies; cases applies
  | apply cid outranked =>
    rw [isApply] at planned planOutranks
    cases planOutranks
    exact replaces_of_planned planned replaced

end

theorem Deleted.outranks (sound : Sound p stores.messages)
    (deleted : Deleted p stores request d admitted author transition cleanupCids committed)
    (stored : old ∈ stores.messages) (ofRecord : OfRecord request.tenant d.recordId old) :
    rank p old.message < rank p request.message :=
  deleted.replaces.outranks_row (admitDelete_ok deleted.admits).1 sound stored ofRecord

theorem Deleted.mem_committed (law : p.CollisionFree) (sound : Sound p stores.messages)
    (deleted : Deleted p stores request d admitted author transition cleanupCids committed)
    (row : Row) :
    row ∈ committed ↔ row = rowOf p request.tenant transition.put ∨
      (∃ old ∈ stores.messages, OfRecord request.tenant d.recordId old ∧
        isOwnInitialWrite p old.message = true ∧
        KeptAs p ((messageAuthor p old.message).getD "") old row) ∨
      row ∈ stores.messages ∧ ¬ OfRecord request.tenant d.recordId row := by
  rw [deleted.replaces.mem_committed (admitDelete_ok deleted.admits).1 sound deleted.commits law
    deleted.state]
  refine or_congr_right (or_congr_left (exists_congr fun old => and_congr_right fun stored =>
    and_congr_right fun ofRecord => ?_))
  simp only [keptByDelete_eq_some]
  constructor
  · rintro ⟨as, ⟨-, own, rfl⟩, kept⟩
    exact ⟨own, kept⟩
  · rintro ⟨own, kept⟩
    exact ⟨_, ⟨own_recordId own ofRecord.state, own, rfl⟩, kept⟩

end

end Enbox.Proof.Run
