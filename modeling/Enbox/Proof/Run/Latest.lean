import Enbox.Proof.Run.Effect
import Enbox.Proof.Run.Threads

/-! # Latest states -/

namespace Enbox.Proof.Run

open Lib

variable {tenant author : Did} {row : Row} {transition : LatestStateTransition} {recordId : String}
  {committed : MessageStore}

def IsLatest (row : Row) : Prop := row.indexes.lookup .isLatestBaseState = some (.bool true)

def LatestGreatest (p : Primitives) (store : MessageStore) : Prop :=
  ∀ (tenant : Did) (recordId : String), ∀ row ∈ store, OfRecord tenant recordId row →
    IsLatest row → ∀ other ∈ store, OfRecord tenant recordId other →
      rank p other.message ≤ rank p row.message

section

variable {p : Primitives} {stores : Stores} {request : Request}

theorem rank_congr (law : p.CollisionFree) {a b : Message}
    (same : p.messageCid a = p.messageCid b) : rank p a = rank p b := by
  rw [← rank_setEncodedData p a none, messageCid_inj law same, rank_setEncodedData]

theorem KeptAs.stale {old : Row} (kept : KeptAs p author old row) :
    ¬ IsLatest row := by
  obtain ⟨d, id, isIndexed⟩ := recordsWriteIndexes_ok kept.indexed
  intro latest
  cases isIndexed.isLatestBaseState.symm.trans latest

theorem KeptAs.rank {old : Row} (kept : KeptAs p author old row) :
    rank p row.message = rank p old.message := by
  rw [kept.message, rank_setEncodedData]

def RowCases (p : Primitives) (stores : Stores) (request : Request) (recordId : String)
    (row : Row) : Prop :=
  ¬ StateMessage request.message recordId ∧ row ∈ stores.messages ∨
  StateMessage request.message recordId ∧ (row.cid = p.messageCid request.message ∨
    ¬ IsLatest row ∧ rank p row.message < rank p request.message)

theorem Commits.replaces (kind : Commits p stores request transition committed) :
    (∃ id keepAs outranked, StateMessage request.message id ∧
      Replaces p (fetchRecordMessages stores.messages request.tenant id) request.message keepAs
        outranked transition ∧
      StateMessage transition.put.message id ∧
      p.messageCid transition.put.message = p.messageCid request.message) ∨
    (∃ d, request.message.descriptor = .protocolsConfigure d) ∧ transition.deletes = [] ∧
      ∀ mutation ∈ transition.put :: transition.retains,
        ∃ d, mutation.message.descriptor = .protocolsConfigure d := by
  rcases kind with wrote | deleted | ⟨isConfigure, configures, deletes⟩
  · obtain ⟨id, passed, fetched, -⟩ := admitWrite_ok wrote.admits
    obtain ⟨encodedData, same⟩ := wrote.put
    have putState := wrote.state passed.record
    refine .inl ⟨id, _, _, ?_, fetched ▸ wrote.replaces, putState, by rw [same]; rfl⟩
    rwa [same, stateMessage_setEncodedData] at putState
  · have same := (prepareRecordsDeleteTransition_ok deleted.isDelete deleted.builds).1
    exact .inl ⟨_, _, _, .delete deleted.isDelete deleted.bare rfl,
      (admitDelete_ok deleted.admits).1 ▸ deleted.replaces, deleted.state, by rw [same]⟩
  · exact .inr ⟨⟨_, isConfigure⟩, deletes, configures⟩

section

variable (law : p.CollisionFree) (sound : Sound p stores.messages)
  (commits : stores.messages.commitLatestState p request.tenant transition = .ok committed)

include law sound commits

theorem mem_configured (deletes : transition.deletes = [])
    (configures : ∀ mutation ∈ transition.put :: transition.retains,
      ∃ d, mutation.message.descriptor = .protocolsConfigure d)
    (ofRecord : OfRecord tenant recordId row) : row ∈ committed ↔ row ∈ stores.messages := by
  have foreign (mutation : LatestStateMutation)
      (mutates : mutation ∈ transition.put :: transition.retains) :
      ¬ StateMessage mutation.message recordId := by
    obtain ⟨d, isConfigure⟩ := configures mutation mutates
    exact not_stateMessage_configure isConfigure
  constructor
  · intro stored
    rcases mem_commitLatestState commits stored with old | rfl | ⟨mutation, retained, rfl⟩
    · exact old
    · exact absurd ofRecord.state (foreign _ List.mem_cons_self)
    · exact absurd ofRecord.state (foreign _ (List.mem_cons_of_mem _ retained))
  · intro stored
    refine (mem_commitLatestState_iff commits).mpr (.inr (.inr ⟨stored, ?_⟩))
    rintro ⟨-, isTouched⟩
    rw [touched, deletes, List.append_nil, List.mem_map] at isTouched
    obtain ⟨mutation, mutates, same⟩ := isTouched
    rw [sound.addressed row stored] at same
    exact foreign mutation mutates ((stateMessage_congr law same).mpr ofRecord.state)

variable (kind : Commits p stores request transition committed)

include kind

theorem Commits.row_cases (stored : row ∈ committed)
    (ofRecord : OfRecord request.tenant recordId row) :
    RowCases p stores request recordId row := by
  rcases kind.replaces with ⟨id, keepAs, outranked, state, replaces, putState, put⟩ |
      ⟨⟨_, isConfigure⟩, deletes, configures⟩
  · rcases (replaces.mem_committed rfl sound commits law putState row).mp stored with
      rfl | ⟨old, oldStored, ofOld, author, -, kept⟩ | ⟨oldStored, other⟩
    · cases putState.unique ofRecord.state
      exact .inr ⟨state, .inl put⟩
    · cases (kept.ofRecord.mpr ofOld).state.unique ofRecord.state
      exact .inr ⟨state, .inr ⟨kept.stale, kept.rank ▸ replaces.outranks_row rfl sound oldStored ofOld⟩⟩
    · refine .inl ⟨fun same => other ?_, oldStored⟩
      cases state.unique same
      exact ofRecord
  · exact .inl ⟨not_stateMessage_configure isConfigure,
      (mem_configured law sound commits deletes configures ofRecord).mp stored⟩

theorem Commits.all_row_cases (tenant : Did) (recordId : String) :
    (∀ row ∈ committed, OfRecord tenant recordId row → row ∈ stores.messages) ∨
    ∀ row ∈ committed, OfRecord tenant recordId row →
      row.cid = p.messageCid request.message ∨
        ¬ IsLatest row ∧ rank p row.message < rank p request.message := by
  by_cases on : request.tenant = tenant ∧ StateMessage request.message recordId
  · obtain ⟨rfl, state⟩ := on
    refine .inr fun row stored ofRecord => ?_
    rcases kind.row_cases law sound commits stored ofRecord with ⟨other, -⟩ | ⟨-, rows⟩
    · exact absurd state other
    · exact rows
  · refine .inl fun row stored ofRecord => ?_
    by_cases same : request.tenant = tenant
    · subst same
      rcases kind.row_cases law sound commits stored ofRecord with ⟨-, old⟩ | ⟨state, -⟩
      · exact old
      · exact absurd ⟨rfl, state⟩ on
    · rcases mem_commitLatestState commits stored with old | rfl | ⟨_, -, rfl⟩
      · exact old
      · exact absurd ofRecord.tenant same
      · exact absurd ofRecord.tenant same

end

theorem LatestGreatest.subset {store after : MessageStore} (greatest : LatestGreatest p store)
    (mem : ∀ row ∈ after, row ∈ store) : LatestGreatest p after :=
  fun tenant recordId row stored ofRecord latest other otherStored =>
    greatest tenant recordId row (mem row stored) ofRecord latest other (mem other otherStored)

section

variable (law : p.CollisionFree) (sound : Sound p stores.messages)
  (greatest : LatestGreatest p stores.messages)

include law sound greatest

theorem LatestGreatest.commit (kind : Commits p stores request transition committed)
    (commits : stores.messages.commitLatestState p request.tenant transition = .ok committed)
    (addressed : ∀ row ∈ committed, row.cid = p.messageCid row.message) :
    LatestGreatest p committed := by
  intro tenant recordId row stored ofRecord latest other otherStored otherOf
  rcases kind.all_row_cases law sound commits tenant recordId with old | new
  · exact greatest tenant recordId row (old row stored ofRecord) ofRecord latest other
      (old other otherStored otherOf) otherOf
  · rcases new row stored ofRecord with cid | ⟨stale, -⟩
    · rw [addressed row stored] at cid
      rw [rank_congr law cid]
      rcases new other otherStored otherOf with otherCid | ⟨-, below⟩
      · rw [addressed other otherStored] at otherCid
        exact (rank_congr law otherCid).le
      · exact below.le
    · exact absurd latest stale

theorem LatestGreatest.step (event : Event) :
    LatestGreatest p (step p stores event).messages := by
  cases event with
  | request request =>
    rcases processMessage_cases p stores request with unchanged |
        ⟨transition, committed, cids, kind, commits, removes, new⟩
    · exact greatest.subset fun row stored => unchanged ▸ stored
    · have soundCommitted : Sound p committed := sound.commit commits fun mutation mutates =>
        filed_newRow stores request _ (new mutation mutates)
      exact (greatest.commit law sound kind commits soundCommitted.addressed).subset
        fun row => removes.mem
  | controlPurge tenant recordId dataCids =>
    exact greatest.subset fun row =>
      (removes_performControlPurge p tenant stores recordId dataCids).mem

end

theorem latestGreatest_of_reaches (law : p.CollisionFree) {allowed : Stores → Event → Prop}
    (reached : Reaches (step p) allowed {} stores) : LatestGreatest p stores.messages := by
  have both : Sound p stores.messages ∧ LatestGreatest p stores.messages :=
    reached.invariant (P := fun stores => Sound p stores.messages ∧
      LatestGreatest p stores.messages)
      ⟨sound_nil, fun _ _ _ stored => absurd stored List.not_mem_nil⟩
      fun _ event ⟨sound, greatest⟩ _ => ⟨sound.step event, greatest.step law sound event⟩
  exact both.2

/-- In every reached state one row of a record at most is its latest, and it outranks the others. -/
theorem latest_row_outranks (law : p.CollisionFree) {allowed : Stores → Event → Prop}
    (reached : Reaches (step p) allowed {} stores) (stored : row ∈ stores.messages)
    (ofRecord : OfRecord tenant recordId row) (latest : IsLatest row) {other : Row}
    (otherStored : other ∈ stores.messages) (otherOf : OfRecord tenant recordId other) :
    other = row ∨ ¬ IsLatest other ∧ rank p other.message < rank p row.message := by
  have sound := sound_of_reaches sound_nil reached
  have greatest := latestGreatest_of_reaches law reached tenant recordId
  rcases (greatest row stored ofRecord latest other otherStored otherOf).eq_or_lt with same | below
  · refine .inl (sound.unique other otherStored row stored
      (otherOf.tenant.trans ofRecord.tenant.symm) ?_)
    rw [sound.addressed other otherStored, sound.addressed row stored]
    exact congrArg (·.2.2) same
  · exact .inr ⟨fun otherLatest =>
      (greatest other otherStored otherOf otherLatest row stored ofRecord).not_gt below, below⟩

end

open Threads in
theorem edit_outranks : ∃ row ∈ (stores edited).messages, row.cid = "m5" ∧
    ∀ other ∈ (stores edited).messages, OfRecord "did:ex:alice" "T2" other →
      other = row ∨ ¬ IsLatest other ∧ rank p other.message < rank p row.message := by
  obtain ⟨row, stored, isEdit, ofRecord, latest⟩ : ∃ row ∈ (stores edited).messages,
      row.cid = "m5" ∧ OfRecord "did:ex:alice" "T2" row ∧ IsLatest row :=
    exists_mem_of_find? (·.cid == "m5") ⟨_, rfl, rfl, ⟨rfl, .write rfl rfl⟩, rfl⟩
  exact ⟨row, stored, isEdit, fun _ =>
    latest_row_outranks collisionFree (reaches_foldl _ edited _) stored ofRecord latest⟩

end Enbox.Proof.Run
