import Enbox.Proof.State.Data
import Enbox.Proof.Tasks.Purge

/-! # Deletes that are resumed -/

namespace Enbox.Proof.Tasks

open Lib Run State Relation List

variable {p : Primitives} {tenant : Did} {request : Request} {d : DeleteDescriptor}
  {existing : List Message} {pruned stores : Stores}

/-! ## Data that are no longer needed -/

def reclaim (tenant : Did) (newest : Message) (messages : List Message) (stores : Stores) : Stores :=
  messages.foldl (fun stores m => deleteFromDataStoreIfNeeded stores tenant newest m) stores

section

variable {newest : Message}

theorem performOps_unneededDataOp (stores : Stores) (m : Message) :
    performOps p tenant stores (unneededDataOp newest m).toList =
      deleteFromDataStoreIfNeeded stores tenant newest m := by
  unfold unneededDataOp deleteFromDataStoreIfNeeded
  cases m.writeDescriptor with
  | none => rfl
  | some descriptor =>
    cases m.recordId with
    | none => rfl
    | some recordId =>
      dsimp only
      split <;> rfl

theorem performOps_reclaim (messages : List Message) (stores : Stores) :
    performOps p tenant stores (messages.filterMap (unneededDataOp newest)) =
      reclaim tenant newest messages stores := by
  simp only [filterMap_eq_flatMap_toList, performOps_flatMap, performOps_unneededDataOp, reclaim]

theorem trims_deleteFromDataStoreIfNeeded (stores : Stores) (m : Message) :
    Trims (deleteFromDataStoreIfNeeded stores tenant newest m) stores := by
  unfold deleteFromDataStoreIfNeeded
  split
  · split
    · exact .refl stores
    · exact trims_deleteData stores tenant _ _
  · exact .refl stores

theorem trims_reclaim (messages : List Message) (stores : Stores) :
    Trims (reclaim tenant newest messages stores) stores :=
  List.foldlRecOn messages _ (.refl stores) fun current trims m _ =>
    (trims_deleteFromDataStoreIfNeeded current m).trans trims

theorem mem_reclaim (tenant : Did) (isDelete : newest.writeDescriptor = none)
    (messages : List Message) (stores : Stores) (row : DataRow) :
    row ∈ (reclaim tenant newest messages stores).data ↔
      row ∈ stores.data ∧ ∀ m ∈ messages, ¬ Refers tenant m (reference row) := by
  rw [reclaim, drops_foldl (fun stores m =>
    drops_deleteFromDataStoreIfNeeded stores tenant newest m) messages stores row]
  simp [isDelete]

theorem reclaim_messages (messages : List Message) (stores : Stores) :
    (reclaim tenant newest messages stores).messages = stores.messages :=
  List.foldlRecOn (motive := fun current => current.messages = stores.messages) messages _ rfl
    fun current same m _ => (deleteFromDataStoreIfNeeded_messages current tenant newest m).trans same

end

/-! ## Between two operations of a delete -/

structure Performed (p : Primitives) (request : Request) (d : DeleteDescriptor)
    (existing : List Message) (whole pruned : Stores) : Prop where
  isDelete : request.message.descriptor = .recordsDelete d
  sound : Sound p whole.messages
  entered : ∀ row ∈ whole.messages, Entered p row
  states : ∀ m ∈ existing, StateMessage m d.recordId
  outranks : ∀ m ∈ existing, rank p m < rank p request.message
  retained : ∀ m, m ∈ fetchRecordMessages whole.messages request.tenant d.recordId ↔
    m = request.message ∨ ∃ old ∈ existing, isOwnInitialWrite p old = true ∧
      m = setEncodedData old none
  prunes : pruneDescendants p request.tenant whole d = .ok pruned

inductive Between (p : Primitives) (tenant : Did) (d : DeleteDescriptor) (existing : List Message)
    (whole pruned current : Stores) : Prop
  | purging (partway : Partway p tenant whole d.recordId current)
      (idle : d.prune = false → current = whole)
  | cleaning (messages : current.messages = pruned.messages) (trims : Trims current pruned)
      (data : ∀ row ∈ pruned.data, row ∉ current.data → ∃ m ∈ existing,
        Refers tenant m (reference row))

section

variable {whole current : Stores}

theorem exists_ops_of_prune (prunes : pruneDescendants p tenant current d = .ok pruned) :
    ∃ below, pruneDescendantsOps p tenant current d = .ok below ∧
      performOps p tenant current below = pruned := by
  rw [pruneDescendants_eq_ops] at prunes
  cases found : pruneDescendantsOps p tenant current d with
  | error failure =>
    rw [found] at prunes
    cases prunes
  | ok below =>
    rw [found] at prunes
    cases prunes
    exact ⟨below, rfl, rfl⟩

theorem Performed.whole_of_idle (performed : Performed p request d existing whole pruned)
    (idle : d.prune = false) : pruned = whole := by
  have prunes := performed.prunes
  rw [pruneDescendants, idle] at prunes
  cases prunes
  rfl

section

variable (law : p.CollisionFree) (performed : Performed p request d existing whole pruned)

include law performed

theorem Performed.purged (isPrune : d.prune = true) :
    Purged p request.tenant whole d.recordId pruned := by
  obtain ⟨below, found, rfl⟩ := exists_ops_of_prune performed.prunes
  rw [pruneDescendantsOps, if_pos isPrune] at found
  exact purged_of_ok law performed.sound performed.entered .refl found

theorem Performed.acyclic (isPrune : d.prune = true) :
    ¬ Below whole.messages request.tenant d.recordId d.recordId := by
  have prunes := performed.prunes
  rw [pruneDescendants, if_pos isPrune] at prunes
  exact acyclic_of_purge law performed.sound prunes .refl

theorem Performed.trims : Trims pruned whole := by
  cases isPrune : d.prune with
  | true => exact (performed.purged law isPrune).trims
  | false =>
    rw [performed.whole_of_idle isPrune]
    exact .refl whole

section

variable (between : Between p request.tenant d existing whole pruned current)

include between

theorem Between.trims :
    Trims current whole := by
  cases between with
  | purging partway => exact partway.trims
  | cleaning _ trims => exact trims.trans (performed.trims law)

theorem Between.sound :
    Sound p current.messages :=
  performed.sound.subset fun _ => (between.trims law performed).row

theorem Between.own_row {row : Row} (ofRecord : OfRecord request.tenant d.recordId row) :
    row ∈ current.messages ↔ row ∈ whole.messages := by
  refine ⟨(between.trims law performed).row, fun stored => ?_⟩
  by_contra gone
  cases between with
  | purging partway idle =>
    obtain ⟨recordId, ofOther, below, -⟩ := partway.lost row stored gone
    cases ofOther.state.unique ofRecord.state
    cases isPrune : d.prune with
    | true => exact performed.acyclic law isPrune below
    | false => exact gone (idle isPrune ▸ stored)
  | cleaning messages =>
    rw [messages] at gone
    obtain ⟨child, other, ofChild⟩ :=
      pruneDescendants_keeps law performed.prunes performed.sound stored gone
    exact other (ofChild.state.unique ofRecord.state)

theorem Between.retained (m : Message) :
    m ∈ fetchRecordMessages current.messages request.tenant d.recordId ↔
      m = request.message ∨ ∃ old ∈ existing, isOwnInitialWrite p old = true ∧
        m = setEncodedData old none := by
  rw [← performed.retained, (between.sound law performed).mem_fetchRecordMessages,
    performed.sound.mem_fetchRecordMessages]
  refine exists_congr fun row => ?_
  constructor
  · rintro ⟨stored, ofRecord, same⟩
    exact ⟨(between.own_row law performed ofRecord).mp stored, ofRecord, same⟩
  · rintro ⟨stored, ofRecord, same⟩
    exact ⟨(between.own_row law performed ofRecord).mpr stored, ofRecord, same⟩

theorem Between.duplicate :
    ∃ cid, planRecordsTransition p request.message
      (fetchRecordMessages current.messages request.tenant d.recordId) = .ok (.duplicate cid) := by
  have retained := between.retained law performed
  have present := (retained request.message).mpr (.inl rfl)
  have states (m : Message)
      (listed : m ∈ fetchRecordMessages current.messages request.tenant d.recordId) :
      StateMessage m d.recordId := by
    obtain ⟨row, -, ofRecord, rfl⟩ :=
      (between.sound law performed).mem_fetchRecordMessages.mp listed
    exact ofRecord.state
  obtain ⟨plan, planned⟩ := planRecordsTransition_total (p := p) (states _ present) states
  have plans := plans_of_ok planned
  cases plan with
  | duplicate cid => exact ⟨cid, planned⟩
  | apply cid outranked => exact absurd (plans.1 _ present) (lt_irrefl _)
  | superseded cid winner =>
    obtain ⟨m, listed, above⟩ := plans
    rcases (retained m).mp listed with rfl | ⟨old, found, -, rfl⟩
    · exact absurd above (lt_irrefl _)
    · exact absurd (above.trans (performed.outranks old found)) (lt_irrefl _)

end

/-! ## What the purge of the task leaves -/

theorem prune_pruned (messages : current.messages = pruned.messages) :
    pruneDescendants p request.tenant current d = .ok current := by
  cases isPrune : d.prune with
  | false => rw [pruneDescendants, isPrune]; rfl
  | true =>
    have purged := performed.purged law isPrune
    have soundNow : Sound p current.messages := by
      rw [messages]
      exact performed.sound.subset fun _ => purged.trims.row
    have childless :
        groupByRecord (current.messages.query request.tenant [childFilters d.recordId]) = [] := by
      refine eq_nil_iff_forall_not_mem.mpr fun group listed => ?_
      obtain ⟨row, stored, ofRecord, selected⟩ :=
        (soundNow.grouped request.tenant d.recordId group listed).child
      rw [messages] at stored
      exact purged.gone group.1 (.single ⟨row, purged.trims.row stored, ofRecord, selected⟩) row
        stored ofRecord
    rw [pruneDescendants, if_pos isPrune, purgeRecordDescendants, purgeDescendants, childless]
    rfl

end

theorem own_data_of_partway (acyclic : ¬ Below whole.messages tenant d.recordId d.recordId)
    (partway : Partway p tenant whole d.recordId current) (dataCid : Cid) :
    (tenant, d.recordId, dataCid) ∈ references current.data ↔
      (tenant, d.recordId, dataCid) ∈ references whole.data := by
  refine ⟨partway.trims.references, ?_⟩
  rintro ⟨row, stored, same⟩
  refine ⟨row, ?_, same⟩
  by_contra gone
  obtain ⟨recordId, newest, e, below, -, key⟩ := partway.data row stored gone
  cases same.symm.trans key
  exact acyclic below

structure PrunedAgain (tenant : Did) (d : DeleteDescriptor) (existing : List Message)
    (pruned current again : Stores) : Prop where
  messages : again.messages = pruned.messages
  trims : Trims again pruned
  data : ∀ row ∈ pruned.data, row ∉ again.data → ∃ m ∈ existing, Refers tenant m (reference row)
  own : ∀ dataCid, (tenant, d.recordId, dataCid) ∈ references again.data ↔
    (tenant, d.recordId, dataCid) ∈ references current.data

theorem Between.prune (law : p.CollisionFree)
    (performed : Performed p request d existing whole pruned)
    (between : Between p request.tenant d existing whole pruned current) :
    ∃ again, pruneDescendants p request.tenant current d = .ok again ∧
      PrunedAgain request.tenant d existing pruned current again := by
  cases between with
  | cleaning messages trims data =>
    exact ⟨current, prune_pruned law performed messages, messages, trims, data, fun _ => Iff.rfl⟩
  | purging partway idle =>
    have complete (own : ∀ dataCid, (request.tenant, d.recordId, dataCid) ∈
        references pruned.data ↔ (request.tenant, d.recordId, dataCid) ∈ references current.data) :
        PrunedAgain request.tenant d existing pruned current pruned :=
      ⟨rfl, .refl pruned, fun row stored gone => absurd stored gone, own⟩
    refine ⟨pruned, ?_⟩
    cases isPrune : d.prune with
    | false =>
      rw [idle isPrune] at complete ⊢
      exact ⟨performed.prunes, complete fun _ => by rw [performed.whole_of_idle isPrune]⟩
    | true =>
      have purged := performed.purged law isPrune
      have acyclic := performed.acyclic law isPrune
      have ends := performed.prunes
      rw [pruneDescendants, if_pos isPrune] at ends
      obtain ⟨ops, found⟩ := purge_ends law performed.sound ends partway.trims
      have again : pruneDescendants p request.tenant current d =
          .ok (performOps p request.tenant current ops) := by
        rw [pruneDescendants_eq_ops, pruneDescendantsOps, if_pos isPrune, found]
        rfl
      rw [(purged_of_ok law performed.sound performed.entered partway found).unique purged] at again
      refine ⟨again, complete fun dataCid => ?_⟩
      rw [own_data_of_partway acyclic purged.toPartway, own_data_of_partway acyclic partway]

end

/-! ## What the task leaves -/

def resume (p : Primitives) (tenant : Did) (message : Message) (stores : Stores) : Stores :=
  (StorageController.performRecordsDelete p tenant stores message).2

def Recalled (p : Primitives) (tenant : Did) (messages : List Message) (key : DataKey) : Prop :=
  ∃ m ∈ messages, isOwnInitialWrite p m = true ∧ Refers tenant m key

section

variable {whole current again : Stores}

theorem Performed.not_write (performed : Performed p request d existing whole pruned) :
    request.message.writeDescriptor = none := by
  rw [Message.writeDescriptor, performed.isDelete]

section

variable (law : p.CollisionFree) (performed : Performed p request d existing whole pruned)
  (between : Between p request.tenant d existing whole pruned current)
  (prunes : pruneDescendants p request.tenant current d = .ok again)

include law performed between prunes

theorem Between.resume_eq :
    resume p request.tenant request.message current = reclaim request.tenant request.message
      ((fetchRecordMessages current.messages request.tenant d.recordId).filter
        (·.writeDescriptor.isSome)) again := by
  obtain ⟨cid, planned⟩ := between.duplicate law performed
  have present := (between.retained law performed request.message).mpr (.inl rfl)
  have nonempty : (fetchRecordMessages current.messages request.tenant d.recordId).isEmpty = false :=
    isEmpty_eq_false_iff.mpr (ne_nil_of_mem present)
  simp only [resume, StorageController.performRecordsDelete,
    Message.deleteDescriptor_eq_some.mpr performed.isDelete, nonempty, planned,
    StorageController.finishRetainedDelete, prunes]
  rfl

theorem Between.mem_resume (row : DataRow) :
    row ∈ (resume p request.tenant request.message current).data ↔
      row ∈ again.data ∧ ¬ Recalled p request.tenant existing (reference row) := by
  rw [between.resume_eq law performed prunes, mem_reclaim _ performed.not_write]
  refine and_congr_right fun _ => ⟨?_, ?_⟩
  · rintro kept ⟨old, found, initial, refers⟩
    have isWrite : (setEncodedData old none).writeDescriptor.isSome = true := by
      rw [isOwnInitialWrite, Bool.and_eq_true] at initial
      exact initial.1
    exact kept _ (mem_filter.mpr ⟨(between.retained law performed _).mpr
      (.inr ⟨old, found, initial, rfl⟩), isWrite⟩) refers
  · intro unrecalled m listed refers
    obtain ⟨found, isWrite⟩ := mem_filter.mp listed
    rcases (between.retained law performed m).mp found with rfl | ⟨old, isOld, initial, rfl⟩
    · rw [performed.not_write] at isWrite
      cases isWrite
    · exact unrecalled ⟨old, isOld, initial, refers⟩

theorem Between.resume_cleaned
    (isAgain : PrunedAgain request.tenant d existing pruned current again) :
    (resume p request.tenant request.message current).messages = pruned.messages ∧
      Trims (resume p request.tenant request.message current) pruned := by
  rw [between.resume_eq law performed prunes]
  exact ⟨(reclaim_messages _ again).trans isAgain.messages,
    (trims_reclaim _ again).trans isAgain.trims⟩

end

section

variable (law : p.CollisionFree) (performed : Performed p request d existing whole pruned)

include law performed

theorem resume_fixed (messages : current.messages = pruned.messages) (trims : Trims current pruned)
    (data : ∀ row ∈ pruned.data, row ∉ current.data → ∃ m ∈ existing,
      Refers request.tenant m (reference row))
    (unrecalled : ∀ row ∈ current.data, ¬ Recalled p request.tenant existing (reference row)) :
    resume p request.tenant request.message current = current := by
  have between : Between p request.tenant d existing whole pruned current :=
    .cleaning messages trims data
  have prunes := prune_pruned law performed messages
  have isAgain : PrunedAgain request.tenant d existing pruned current current :=
    ⟨messages, trims, data, fun _ => Iff.rfl⟩
  obtain ⟨sameMessages, trimsAfter⟩ := between.resume_cleaned law performed prunes isAgain
  refine trimsAfter.ext trims (fun row => by rw [sameMessages, messages]) fun row => ?_
  rw [between.mem_resume law performed prunes]
  exact and_iff_left_of_imp (unrecalled row)

theorem Between.resume_resume (between : Between p request.tenant d existing whole pruned current) :
    resume p request.tenant request.message (resume p request.tenant request.message current) =
      resume p request.tenant request.message current := by
  obtain ⟨again, prunes, isAgain⟩ := between.prune law performed
  obtain ⟨messages, trims⟩ := between.resume_cleaned law performed prunes isAgain
  have left := between.mem_resume law performed prunes
  refine resume_fixed law performed messages trims (fun row stored gone => ?_)
    fun row stored => ((left row).mp stored).2
  by_cases isKept : row ∈ again.data
  · obtain ⟨m, found, -, refers⟩ := not_not.mp fun unrecalled => gone ((left row).mpr
      ⟨isKept, unrecalled⟩)
    exact ⟨m, found, refers⟩
  · exact isAgain.data row stored isKept

end

theorem own_of_refers (performed : Performed p request d existing whole pruned) {m : Message}
    (found : m ∈ existing) {key : DataKey} (refers : Refers request.tenant m key) :
    ∃ dataCid, key = (request.tenant, d.recordId, dataCid) := by
  obtain ⟨e, recordId, isWrite, record, -, rfl⟩ := refers
  cases (stateMessage_write isWrite record).mp (performed.states m found)
  exact ⟨e.dataCid, rfl⟩

theorem Between.resume_eq_iff (law : p.CollisionFree)
    (performed : Performed p request d existing whole pruned)
    (between : Between p request.tenant d existing whole pruned current) :
    resume p request.tenant request.message current =
        reclaim request.tenant request.message existing pruned ↔
      ∀ m ∈ existing, ∀ key, Refers request.tenant m key → key ∈ references current.data →
        Recalled p request.tenant existing key := by
  obtain ⟨again, prunes, isAgain⟩ := between.prune law performed
  obtain ⟨messages, trims⟩ := between.resume_cleaned law performed prunes isAgain
  have left := between.mem_resume law performed prunes
  have right := mem_reclaim request.tenant performed.not_write existing pruned
  constructor
  · intro same m found key refers present
    obtain ⟨dataCid, rfl⟩ := own_of_refers performed found refers
    obtain ⟨row, stored, isKey⟩ := (isAgain.own dataCid).mpr present
    by_contra unrecalled
    have kept := (left row).mpr ⟨stored, by rwa [isKey]⟩
    rw [same, right] at kept
    exact kept.2 m found (by rwa [isKey])
  · intro recalled
    refine trims.ext (trims_reclaim existing pruned)
      (fun row => by rw [messages, reclaim_messages]) fun row => ?_
    rw [left, right]
    constructor
    · rintro ⟨stored, unrecalled⟩
      refine ⟨isAgain.trims.dataRow stored, fun m found refers => unrecalled ?_⟩
      obtain ⟨dataCid, isKey⟩ := own_of_refers performed found refers
      have present : reference row ∈ references current.data := by
        rw [isKey, ← isAgain.own]
        exact ⟨row, stored, isKey⟩
      exact recalled m found _ refers present
    · rintro ⟨stored, unneeded⟩
      refine ⟨not_not.mp fun gone => ?_, ?_⟩
      · obtain ⟨m, found, refers⟩ := isAgain.data row stored gone
        exact unneeded m found refers
      · rintro ⟨m, found, -, refers⟩
        exact unneeded m found refers

end

/-! ## Deletes cut short -/

def interruptedAt (p : Primitives) (stores : Stores) (request : Request) (d : DeleteDescriptor)
    (count : Nat) : Stores :=
  performOps p request.tenant stores
    ((handleDeleteOps p request.tenant request.resolver stores request.message d).take count)

section

variable {admitted : AdmittedDelete} {author : Did} {transition : LatestStateTransition}
  {cleanupCids : List Cid} {committed : MessageStore}

theorem mem_retained (law : p.CollisionFree) (sound : Sound p stores.messages)
    (deleted : Deleted p stores request d admitted author transition cleanupCids committed)
    (m : Message) :
    m ∈ fetchRecordMessages committed request.tenant d.recordId ↔ m = request.message ∨
      ∃ old ∈ admitted.existing, isOwnInitialWrite p old = true ∧ m = setEncodedData old none := by
  obtain ⟨put, -⟩ := prepareRecordsDeleteTransition_ok deleted.isDelete deleted.builds
  have isPut : (rowOf p request.tenant transition.put).message = request.message := by
    rw [put]
    rfl
  rw [(deleted.sound sound).mem_fetchRecordMessages, (admitDelete_ok deleted.admits).1]
  constructor
  · rintro ⟨row, stored, ofRecord, rfl⟩
    rcases (deleted.mem_committed law sound row).mp stored with
      rfl | ⟨old, isOld, ofOld, initial, kept⟩ | ⟨-, other⟩
    · exact .inl isPut
    · exact .inr ⟨old.message, sound.mem_fetchRecordMessages.mpr ⟨old, isOld, ofOld, rfl⟩, initial,
        kept.message⟩
    · exact absurd ofRecord other
  · rintro (rfl | ⟨m, found, initial, rfl⟩)
    · exact ⟨_, (deleted.mem_committed law sound _).mpr (.inl rfl), ⟨rfl, deleted.state⟩, isPut⟩
    · obtain ⟨old, isOld, ofOld, rfl⟩ := sound.mem_fetchRecordMessages.mp found
      have own := initial
      rw [isOwnInitialWrite, Bool.and_eq_true] at own
      obtain ⟨e, isWrite⟩ := Option.isSome_iff_exists.mp own.1
      obtain ⟨row, kept⟩ := exists_keptAs p (Message.writeDescriptor_eq_some.mp isWrite)
        (own_recordId initial ofOld.state) ((messageAuthor p old.message).getD "")
      exact ⟨row, (deleted.mem_committed law sound row).mpr
        (.inr (.inl ⟨old, isOld, ofOld, initial, kept⟩)), kept.ofRecord.mpr ofOld, kept.message⟩

theorem performed_of_deleted (law : p.CollisionFree) (sound : Sound p stores.messages)
    (entered : ∀ row ∈ stores.messages, Entered p row)
    (deleted : Deleted p stores request d admitted author transition cleanupCids committed)
    (prunes : pruneDescendants p request.tenant { stores with messages := committed } d =
      .ok pruned) :
    Performed p request d admitted.existing { stores with messages := committed } pruned where
  isDelete := deleted.isDelete
  sound := deleted.sound sound
  entered := entered_commit sound entered deleted.commits deleted.newRow
  states m found := by
    rw [(admitDelete_ok deleted.admits).1] at found
    obtain ⟨row, -, ofRecord, rfl⟩ := sound.mem_fetchRecordMessages.mp found
    exact ofRecord.state
  outranks := deleted.replaces.outranks
  retained := mem_retained law sound deleted
  prunes := prunes

section

variable (deleted : Deleted p stores request d admitted author transition cleanupCids committed)

include deleted

theorem cleanUp_existing :
    admitted.existing.filter (fun m => p.messageCid m ∈ cleanupCids) = admitted.existing :=
  filter_eq_self.mpr fun _ found =>
    decide_eq_true ((deleted.replaces.all _).mpr (mem_map_of_mem found))

theorem cleanUpData_eq_reclaim :
    cleanUpData p pruned request.tenant request.message cleanupCids admitted.existing =
      reclaim request.tenant request.message admitted.existing pruned := by
  rw [cleanUpData, cleanUp_existing deleted, reclaim]

theorem handleDeleteOps_eq {below : List StoreOp} (found : pruneDescendantsOps p request.tenant
      { stores with messages := committed } d = .ok below) :
    handleDeleteOps p request.tenant request.resolver stores request.message d =
      .commitLatestState transition ::
        (below ++ admitted.existing.filterMap (unneededDataOp request.message)) := by
  rw [handleDeleteOps, deleted.admits]
  simp only [performRecordsDeleteOps, deleted.signed, okOr, ok_bind, deleted.indexed, deleted.builds,
    deleted.commits, found, cleanUpDataOps, cleanUp_existing deleted]
  rfl

theorem performOps_committed (rest : List StoreOp) :
    performOps p request.tenant stores (.commitLatestState transition :: rest) =
      performOps p request.tenant { stores with messages := committed } rest := by
  simp only [performOps, foldl_cons, performOp, deleted.commits]

end

theorem performOps_handleDeleteOps (isDelete : request.message.descriptor = .recordsDelete d)
    (success : (processMessage p stores request).1.isSuccess = true) :
    performOps p request.tenant stores
        (handleDeleteOps p request.tenant request.resolver stores request.message d) =
      (processMessage p stores request).2 := by
  obtain ⟨admitted, author, transition, cleanupCids, committed, pruned, deleted, prunes, after⟩ :=
    processMessage_delete isDelete success
  obtain ⟨below, found, rfl⟩ := exists_ops_of_prune prunes
  rw [handleDeleteOps_eq deleted found, performOps_committed deleted, performOps_append,
    performOps_reclaim, after, cleanUpData_eq_reclaim deleted]

theorem between_interruptedAt (law : p.CollisionFree) (sound : Sound p stores.messages)
    (entered : ∀ row ∈ stores.messages, Entered p row)
    (deleted : Deleted p stores request d admitted author transition cleanupCids committed)
    (prunes : pruneDescendants p request.tenant { stores with messages := committed } d =
      .ok pruned) (count : Nat) :
    Between p request.tenant d admitted.existing { stores with messages := committed } pruned
      (interruptedAt p stores request d (count + 1)) := by
  have performed := performed_of_deleted law sound entered deleted prunes
  obtain ⟨below, found, isPruned⟩ := exists_ops_of_prune prunes
  rw [interruptedAt, handleDeleteOps_eq deleted found, take_succ_cons,
    performOps_committed deleted]
  rcases Nat.le_total count below.length with early | late
  · rw [take_append_of_le_length early]
    rw [pruneDescendantsOps] at found
    cases isPrune : d.prune with
    | false =>
      rw [isPrune] at found
      cases found
      rw [take_nil]
      exact .purging .refl fun _ => rfl
    | true =>
      rw [if_pos isPrune] at found
      obtain ⟨along, -⟩ := justified_purgeDescendants law performed.sound performed.entered _
        .refl .refl found
      exact .purging (Partway.refl.along (along.take count)).1 fun idle => by
        cases isPrune.symm.trans idle
  · obtain ⟨listed, isPrefix, same⟩ := prefix_filterMap_iff.mp ( take_prefix
      (count - below.length) (admitted.existing.filterMap (unneededDataOp request.message)))
    rw [take_append, take_of_length_le late, performOps_append, isPruned, same,
      performOps_reclaim]
    refine .cleaning (reclaim_messages listed pruned) (trims_reclaim listed pruned) ?_
    intro row stored gone
    rw [mem_reclaim _ performed.not_write, not_and] at gone
    have unneeded := gone stored
    push Not at unneeded
    obtain ⟨m, isListed, refers⟩ := unneeded
    exact ⟨m, isPrefix.subset isListed, refers⟩

section

variable (deleted : Deleted p stores request d admitted author transition cleanupCids committed)
  (prunes : pruneDescendants p request.tenant { stores with messages := committed } d = .ok pruned)

include deleted prunes

theorem performRecordsDelete_of_deleted :
    performRecordsDelete p stores request.tenant request.message d admitted =
      (accepted, reclaim request.tenant request.message admitted.existing pruned) := by
  have commits : commitDelete p stores.messages request.tenant request.message admitted =
      .ok (committed, cleanupCids) := by
    simp only [commitDelete, deleted.signed, okOr, ok_bind, deleted.indexed, deleted.builds,
      deleted.commits]
    rfl
  simp only [performRecordsDelete, commits, prunes, cleanUpData_eq_reclaim deleted]

theorem resume_of_deleted :
    resume p request.tenant request.message stores =
      reclaim request.tenant request.message admitted.existing pruned := by
  obtain ⟨existing, planned, applies, found⟩ := admitDelete_ok deleted.admits
  have nonempty : admitted.existing.isEmpty = false := by
    cases none : admitted.existing with
    | nil =>
      rw [none] at found
      cases found
    | cons m rest => rfl
  cases isApply : admitted.plan with
  | duplicate => rw [isApply] at applies; cases applies
  | superseded => rw [isApply] at applies; cases applies
  | apply cid outranked =>
    simp only [resume, StorageController.performRecordsDelete,
      Message.deleteDescriptor_eq_some.mpr deleted.isDelete, ← existing, nonempty, planned, isApply,
      found]
    rw [← isApply]
    exact congrArg Prod.snd (performRecordsDelete_of_deleted deleted prunes)

end

end

/-! ## Deletes that are resumed -/

/-- A task that is run again changes nothing. It ends where the delete would have if it is run before
the commit, or if each piece of data that is left of the record is also data of an initial write. -/
theorem resumed_delete_iff (law : p.CollisionFree)
    (reached : Reaches (step p) (fun _ _ => True) {} stores)
    (isDelete : request.message.descriptor = .recordsDelete d)
    (success : (processMessage p stores request).1.isSuccess = true) (count : Nat) :
    (∀ n, (resume p request.tenant request.message)^[n + 1] (interruptedAt p stores request d count) =
      resume p request.tenant request.message (interruptedAt p stores request d count)) ∧
    (resume p request.tenant request.message (interruptedAt p stores request d count) =
        (processMessage p stores request).2 ↔
      count = 0 ∨ ∀ m ∈ fetchRecordMessages stores.messages request.tenant d.recordId, ∀ key,
        Refers request.tenant m key → key ∈ references (interruptedAt p stores request d count).data →
        Recalled p request.tenant
          (fetchRecordMessages stores.messages request.tenant d.recordId) key) := by
  have sound := sound_of_reaches sound_nil reached
  have entered := entered_of_reaches reached
  obtain ⟨admitted, author, transition, cleanupCids, committed, pruned, deleted, prunes, after⟩ :=
    processMessage_delete isDelete success
  have performed := performed_of_deleted law sound entered deleted prunes
  rw [after, cleanUpData_eq_reclaim deleted, ← (admitDelete_ok deleted.admits).1]
  cases count with
  | zero =>
    have whole := resume_of_deleted deleted prunes
    have left := mem_reclaim request.tenant performed.not_write admitted.existing pruned
    have again : resume p request.tenant request.message
        (resume p request.tenant request.message stores) =
          resume p request.tenant request.message stores := by
      rw [whole]
      refine resume_fixed law performed (reclaim_messages _ pruned) (trims_reclaim _ pruned) ?_ ?_
      · intro row stored gone
        by_contra unneeded
        push Not at unneeded
        exact gone ((left row).mpr ⟨stored, unneeded⟩)
      · rintro row stored ⟨m, found, -, refers⟩
        exact ((left row).mp stored).2 m found refers
    exact ⟨Function.iterate_fixed again, iff_of_true whole (.inl rfl)⟩
  | succ count =>
    have between := between_interruptedAt law sound entered deleted prunes count
    refine ⟨Function.iterate_fixed (between.resume_resume law performed), ?_⟩
    rw [between.resume_eq_iff law performed]
    exact ⟨.inr, fun recalled => recalled.resolve_left (Nat.succ_ne_zero count)⟩

namespace Removals

open Concrete Threads Uploads

def removal (recordId : String) (prune : Bool) : DeleteDescriptor where
  messageTimestamp := 9
  recordId := recordId
  prune := prune

def remove (recordId : String) (prune : Bool) : Message :=
  signedMessage (.recordsDelete (removal recordId prune)) "remove"

def removeThread : Request := Threads.request (remove "T2" true) ""

def removeRecord : Request := sent (remove "S" false) none

def threadScript : Script := Threads.script.adding (remove "T2" true) "dd" "m8"

noncomputable section

abbrev r : Primitives := threadScript.primitives

def inThread : Stores := joined.foldl (step r) {}

def grow : Message := write (post "big" 30001 5) "grow" "alice" "S" ["S"]

def growScript : Script :=
  configuring.adding (remove "S" false) "dd" "m3" |>.posted start "d1" "m1" "S"
    |>.posted grow "d2" "m2" "e1"

abbrev q : Primitives := { growScript.primitives with dataCid := Uploads.dataCid }

def grown : Stores := (handleUpload q (started q) (sent grow big) "S" (post "big" 30001 5) big).2

theorem reaches_grown : Reaches (step q) (fun _ _ => True) {} grown :=
  reaches_upload rfl rfl rfl dataCid_big.symm big_length.symm (by decide) rfl (reaches_started q)
    trivial rfl

end

end Removals

open Removals

theorem thread_removal_resumed :
    r.CollisionFree ∧ Reaches (step r) (fun _ _ => True) {} inThread ∧
    (processMessage r inThread removeThread).1 = accepted ∧
    (∃ row ∈ (interruptedAt r inThread removeThread (removal "T2" true) 2).messages,
      OfRecord "did:ex:alice" "R1" row) ∧
    resume r "did:ex:alice" (remove "T2" true)
        (interruptedAt r inThread removeThread (removal "T2" true) 2) =
      (processMessage r inThread removeThread).2 := by
  have law : r.CollisionFree := threadScript.collisionFree (by decide) (by decide)
  have reached : Reaches (step r) (fun _ _ => True) {} inThread := reaches_foldl _ _ _
  have success : (processMessage r inThread removeThread).1 = accepted := rfl
  have resumes := (resumed_delete_iff law reached (d := removal "T2" true) rfl
    (by rw [success]; rfl) 2).2
  refine ⟨law, reached, success, ?_, resumes.mpr (.inr ?_)⟩
  · exact exists_mem_of_find? (·.cid == "m4") ⟨_, rfl, rfl, .write rfl rfl⟩
  · rintro m - key - ⟨row, stored, -⟩
    cases stored

theorem thread_removal_performed :
    performOps r removeThread.tenant inThread (handleDeleteOps r removeThread.tenant
        removeThread.resolver inThread removeThread.message (removal "T2" true)) =
      (processMessage r inThread removeThread).2 := performOps_handleDeleteOps rfl rfl

theorem resumed_removal_leaves_data :
    q.CollisionFree ∧ Reaches (step q) (fun _ _ => True) {} grown ∧
    (processMessage q grown removeRecord).1 = accepted ∧
    (processMessage q grown removeRecord).2.data = [] ∧
    ∀ n, ("did:ex:alice", "S", "big") ∈ references
      ((resume q "did:ex:alice" (remove "S" false))^[n]
        (interruptedAt q grown removeRecord (removal "S" false) 1)).data := by
  have law : q.CollisionFree :=
    ⟨(growScript.collisionFree (by decide) (by decide)).cid, Uploads.dataCid_injective⟩
  have unchanged : resume q "did:ex:alice" (remove "S" false)
      (interruptedAt q grown removeRecord (removal "S" false) 1) =
    interruptedAt q grown removeRecord (removal "S" false) 1 := rfl
  refine ⟨law, reaches_grown, rfl, rfl, fun n => ?_⟩
  rw [Function.iterate_fixed unchanged]
  exact ⟨_, mem_cons_self, rfl⟩

end Enbox.Proof.Tasks
