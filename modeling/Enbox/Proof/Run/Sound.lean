import Enbox.Proof.Run.Order

/-! # Sound stores -/

namespace Enbox.Proof.Run

open Lib

variable {p : Primitives} {store : MessageStore} {tenant : Did} {stores : Stores} {row : Row}
  {d : WriteDescriptor} {message : Message} {recordId : String}

inductive Filed (p : Primitives) (row : Row) : Prop
  | write {d : WriteDescriptor} {recordId : String} {author : Did} {latest : Bool}
      (indexed : IndexedWrite p row.message author latest row.indexes d recordId)
  | delete {d : DeleteDescriptor} {initialWrite : Message} {author : Did}
      {initial : WriteDescriptor} (bare : row.message.recordId = none)
      (indexed : IndexedDelete row.message initialWrite author row.indexes d initial)
  | configure {d : ConfigureDescriptor} {author : Option Did} {latest : Bool}
      (isConfigure : row.message.descriptor = .protocolsConfigure d)
      (indexed : row.indexes = configureIndexes d author latest)

structure Sound (p : Primitives) (store : MessageStore) : Prop where
  addressed : ∀ row ∈ store, row.cid = p.messageCid row.message
  unique : ∀ a ∈ store, ∀ b ∈ store, a.tenant = b.tenant → a.cid = b.cid → a = b
  filed : ∀ row ∈ store, Filed p row

theorem filed_newRow (stores : Stores) (request : Request) (row : Row)
    (new : NewRow p stores request row) : Filed p row := by
  cases new with
  | written _ _ indexed =>
    obtain ⟨d, recordId, isIndexed⟩ := recordsWriteIndexes_ok indexed
    exact .write isIndexed
  | kept kept =>
    obtain ⟨_, _, _, _, _, _, indexed⟩ := kept
    obtain ⟨d, recordId, isIndexed⟩ := recordsWriteIndexes_ok indexed
    exact .write isIndexed
  | deleted _ bare _ indexed =>
    obtain ⟨d, initial, isIndexed⟩ := recordsDeleteIndexes_ok indexed
    exact .delete bare isIndexed
  | configured isConfigure => exact .configure isConfigure rfl

theorem Sound.commit {committed : MessageStore} (sound : Sound p store)
    {transition : LatestStateTransition}
    (commits : store.commitLatestState p tenant transition = .ok committed)
    (filed : ∀ mutation ∈ transition.put :: transition.retains, Filed p (rowOf p tenant mutation)) :
    Sound p committed := by
  have rows {row : Row} (stored : row ∈ committed) :
      (∃ mutation ∈ transition.put :: transition.retains, row = rowOf p tenant mutation) ∨
      row ∈ store ∧ ¬ (row.tenant = tenant ∧ row.cid ∈ touched p transition) := by
    rw [List.exists_mem_cons_iff, or_assoc]
    exact (mem_commitLatestState_iff commits).mp stored
  have listed {mutation : LatestStateMutation}
      (mutates : mutation ∈ transition.put :: transition.retains) :
      p.messageCid mutation.message ∈ touched p transition :=
    List.mem_append_left _ (List.mem_map.mpr ⟨mutation, mutates, rfl⟩)
  have distinct := (List.nodup_append.mp (commitLatestState_nodup commits)).1
  refine ⟨fun row stored => ?_, fun a storedA b storedB sameTenant sameCid => ?_,
    fun row stored => ?_⟩
  · rcases rows stored with ⟨mutation, -, rfl⟩ | ⟨old, -⟩
    · rfl
    · exact sound.addressed row old
  · rcases rows storedA with ⟨m, mutates, rfl⟩ | ⟨oldA, untouchedA⟩ <;>
      rcases rows storedB with ⟨n, mutates', rfl⟩ | ⟨oldB, untouchedB⟩
    · rw [List.inj_on_of_nodup_map distinct mutates mutates' sameCid]
    · exact absurd ⟨sameTenant.symm, sameCid ▸ listed mutates⟩ untouchedB
    · exact absurd ⟨sameTenant, sameCid ▸ listed mutates'⟩ untouchedA
    · exact sound.unique a oldA b oldB sameTenant sameCid
  · rcases rows stored with ⟨mutation, mutates, rfl⟩ | ⟨old, -⟩
    · exact filed mutation mutates
    · exact sound.filed row old

theorem Sound.subset {after before : MessageStore} (sound : Sound p before)
    (mem : ∀ row ∈ after, row ∈ before) : Sound p after where
  addressed row stored := sound.addressed row (mem row stored)
  unique a storedA b storedB := sound.unique a (mem a storedA) b (mem b storedB)
  filed row stored := sound.filed row (mem row stored)

theorem Removes.sound {after before : Stores} {cids : List Cid}
    (removes : Removes tenant cids after before) (sound : Sound p before.messages) :
    Sound p after.messages :=
  sound.subset fun _ => removes.mem

theorem Sound.processMessage (sound : Sound p stores.messages) (request : Request) :
    Sound p (processMessage p stores request).2.messages := by
  rcases processMessage_cases p stores request with unchanged |
      ⟨transition, committed, cids, -, commits, removes, new⟩
  · exact unchanged ▸ sound
  · exact removes.sound (sound.commit commits fun mutation mutates =>
      filed_newRow stores request _ (new mutation mutates))

theorem Sound.step (sound : Sound p stores.messages) (event : Event) :
    Sound p (step p stores event).messages := by
  cases event with
  | request request => exact sound.processMessage request
  | controlPurge tenant recordId dataCids =>
    exact (removes_performControlPurge p tenant stores recordId dataCids).sound sound

theorem sound_of_reaches {allowed : Stores → Event → Prop} {base : Stores}
    (sound : Sound p base.messages) (reached : Reaches (Enbox.step p) allowed base stores) :
    Sound p stores.messages :=
  reached.invariant (P := fun stores => Sound p stores.messages) sound
    fun _ event sound _ => sound.step event

theorem sound_nil : Sound p [] :=
  ⟨by simp, by simp, by simp⟩

theorem rows_of_reaches {allowed : Stores → Event → Prop} {P : Row → Prop}
    (added : ∀ {stores request row}, Sound p stores.messages → (∀ row ∈ stores.messages, P row) →
      NewRow p stores request row → P row)
    (reached : Reaches (Enbox.step p) allowed {} stores) : ∀ row ∈ stores.messages, P row := by
  refine (reached.invariant (P := fun stores => Sound p stores.messages ∧
    ∀ row ∈ stores.messages, P row) ⟨sound_nil, fun row stored => by cases stored⟩ ?_).2
  rintro stores event ⟨sound, holds⟩ -
  refine ⟨sound.step event, fun row stored => ?_⟩
  rcases mem_step stored with old | ⟨request, new⟩
  · exact holds row old
  · exact added sound holds new

structure OfRecord (tenant : Did) (recordId : String) (row : Row) : Prop where
  tenant : row.tenant = tenant
  state : StateMessage row.message recordId

theorem Filed.of_isWrite (filed : Filed p row) (isWrite : row.message.descriptor = .recordsWrite d) :
    ∃ recordId author latest,
      IndexedWrite p row.message author latest row.indexes d recordId := by
  cases filed with
  | write indexed =>
    cases indexed.descriptor.symm.trans isWrite
    exact ⟨_, _, _, indexed⟩
  | delete _ indexed => cases indexed.isDelete.symm.trans isWrite
  | configure isConfigure => cases isConfigure.symm.trans isWrite

theorem Filed.timestamp (filed : Filed p row) :
    row.indexes.lookup .messageTimestamp = some (.dateTime row.message.messageTimestamp) := by
  cases filed with
  | write indexed =>
    rw [indexed.timestamp, Message.messageTimestamp, indexed.descriptor]
    rfl
  | delete _ indexed =>
    rw [indexed.timestamp, Message.messageTimestamp, indexed.isDelete]
    rfl
  | configure isConfigure indexed =>
    rw [indexed, Message.messageTimestamp, isConfigure]
    rfl

theorem stateMessage_write {id : String} (isWrite : message.descriptor = .recordsWrite d)
    (record : message.recordId = some id) :
    StateMessage message recordId ↔ id = recordId := by
  constructor
  · rintro (⟨-, same⟩ | ⟨isDelete, -, -⟩)
    · cases record.symm.trans same
      rfl
    · cases isWrite.symm.trans isDelete
  · rintro rfl
    exact .write isWrite record

theorem stateMessage_delete {d : DeleteDescriptor}
    (isDelete : message.descriptor = .recordsDelete d) (bare : message.recordId = none) :
    StateMessage message recordId ↔ d.recordId = recordId := by
  constructor
  · rintro (⟨isWrite, -⟩ | ⟨same, -, record⟩)
    · cases isDelete.symm.trans isWrite
    · cases isDelete.symm.trans same
      exact record
  · exact .delete isDelete bare

theorem not_stateMessage_configure {d : ConfigureDescriptor}
    (isConfigure : message.descriptor = .protocolsConfigure d) :
    ¬ StateMessage message recordId := by
  rintro (⟨isWrite, -⟩ | ⟨isDelete, -, -⟩)
  · cases isConfigure.symm.trans isWrite
  · cases isConfigure.symm.trans isDelete

theorem Filed.selected_record (filed : Filed p row) :
    matchesSet row.indexes [(.interface, stringFilter recordsInterface),
      (.recordId, stringFilter recordId)] = true ↔ StateMessage row.message recordId := by
  cases filed with
  | write indexed =>
    simp [indexed.interface, indexed.recordId, stateMessage_write indexed.descriptor indexed.record]
  | delete bare indexed =>
    simp [indexed.interface, indexed.recordId, stateMessage_delete indexed.isDelete bare]
  | configure isConfigure indexed =>
    simp [indexed, (configureIndexes_indexed _ _ _).recordId, not_stateMessage_configure isConfigure]

theorem mem_query_iff (filed : ∀ row ∈ store, Filed p row) {set : FilterSet}
    {direction : SortDirection} :
    message ∈ store.query tenant [set] (.timestamp direction) ↔
      ∃ row ∈ store, row.tenant = tenant ∧ row.message = message ∧
        matchesSet row.indexes set = true := by
  refine ⟨mem_query, fun ⟨row, stored, ofTenant, same, selected⟩ => ?_⟩
  refine List.mem_map.mpr ⟨row, ?_, same⟩
  unfold MessageStore.rows MessageStore.selected
  rw [List.mem_insertionSort, List.mem_filter, List.mem_filter]
  refine ⟨⟨stored, by simp [ofTenant, selected]⟩, ?_⟩
  rw [show MessageSort.property (.timestamp direction) = .messageTimestamp from rfl,
    (filed row stored).timestamp]
  rfl

theorem Sound.mem_fetchRecordMessages (sound : Sound p store) :
    message ∈ fetchRecordMessages store tenant recordId ↔
      ∃ row ∈ store, OfRecord tenant recordId row ∧ row.message = message := by
  rw [fetchRecordMessages, mem_query_iff sound.filed]
  constructor
  · rintro ⟨row, stored, ofTenant, same, selected⟩
    exact ⟨row, stored, ⟨ofTenant, (sound.filed row stored).selected_record.mp selected⟩, same⟩
  · rintro ⟨row, stored, ⟨ofTenant, state⟩, same⟩
    exact ⟨row, stored, ofTenant, same, (sound.filed row stored).selected_record.mpr state⟩

end Enbox.Proof.Run
