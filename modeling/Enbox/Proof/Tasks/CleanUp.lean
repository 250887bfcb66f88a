import Enbox.Proof.Tasks.Resume
import Enbox.Tasks.CleanUp

/-! # Data go before messages -/

namespace Enbox.Proof.Tasks

open Lib Run State Relation List

variable {p : Primitives} {tenant : Did}

/-! ## Removals cut short -/

def Intact (start current : Stores) : Prop :=
  ∀ row ∈ current.messages, IsLatest row → ∀ key, Refers row.tenant row.message key →
    key ∈ references start.data → key ∈ references current.data

def DataFirst (ops : List StoreOp) (cid : Cid) (key : DataKey) : Prop :=
  ∀ count, .deleteMessage cid ∈ ops.take count → .deleteData key.2.1 key.2.2 ∈ ops.take count

section

variable {start : Stores} {ops : List StoreOp} {key : DataKey} {cid : Cid}

theorem mem_references_performOps (removals : ∀ op ∈ ops, Removal op) :
    key ∈ references (performOps p tenant start ops).data ↔
      key ∈ references start.data ∧ ¬ (key.1 = tenant ∧ .deleteData key.2.1 key.2.2 ∈ ops) := by
  rw [(drops_performOps removals).references]
  exact Iff.rfl

theorem dataFirst_append {first second : List StoreOp} (left : DataFirst first cid key)
    (right : DataFirst second cid key) :
    DataFirst (first ++ second) cid key := by
  intro count
  rw [take_append, mem_append, mem_append]
  exact Or.imp (left count) (right _)

theorem dataFirst_flatMap {α : Type} {blocks : α → List StoreOp} {items : List α}
    (each : ∀ a ∈ items, DataFirst (blocks a) cid key) :
    DataFirst (items.flatMap blocks) cid key := by
  induction items with
  | nil =>
    intro count listed
    rw [flatMap_nil, take_nil] at listed
    cases listed
  | cons a rest ih =>
    rw [flatMap_cons]
    exact dataFirst_append (each a mem_cons_self)
      (ih fun other listed => each other (mem_cons_of_mem _ listed))

theorem dataFirst_of_head (key : DataKey) (rest : List StoreOp) :
    DataFirst (.deleteData key.2.1 key.2.2 :: rest) cid key := by
  intro count listed
  cases count with
  | zero => cases listed
  | succ count => exact mem_cons_self

theorem dataFirst_of_not_mem (other : .deleteMessage cid ∉ ops) :
    DataFirst ops cid key :=
  fun _ listed => absurd (mem_of_mem_take listed) other

/-- The cuts of the operations leave the data of the latest states just if nothing reclaims them. -/
def IntactUnless (p : Primitives) (tenant : Did) (start : Stores) (ops : List StoreOp)
    (reclaims : DataKey → Prop) : Prop :=
  (∀ count, Intact start (performOps p tenant start (ops.take count))) ↔
    ∀ row ∈ start.messages, IsLatest row → ∀ key, Refers row.tenant row.message key →
      key ∈ references start.data → ¬ reclaims key

theorem intact_iff_of_dataFirst {reclaims : DataKey → Prop} (removals : ∀ op ∈ ops, Removal op)
    (removed : ∀ key ∈ references start.data,
      key.1 = tenant ∧ .deleteData key.2.1 key.2.2 ∈ ops ↔ reclaims key)
    (first : ∀ row ∈ start.messages, row.tenant = tenant → IsLatest row → ∀ key,
      Refers row.tenant row.message key → key ∈ references start.data → DataFirst ops row.cid key) :
    IntactUnless p tenant start ops reclaims := by
  have cut (count : Nat) : ∀ op ∈ ops.take count, Removal op :=
    fun op listed => removals op (mem_of_mem_take listed)
  constructor
  · intro intact row stored latest key refers present isReclaimed
    obtain ⟨ofTenant, listed⟩ := (removed key present).mpr isReclaimed
    have rowTenant : row.tenant = tenant := by
      obtain ⟨_, _, -, -, -, rfl⟩ := refers
      exact ofTenant
    -- Just after the operation that removes the data, the message is there.
    obtain ⟨before, after, split, fresh⟩ := eq_append_cons_of_mem listed
    have done : ops.take (before.length + 1) = before ++ [.deleteData key.2.1 key.2.2] := by
      rw [split]
      simp [take_append]
    have kept : row ∈ (performOps p tenant start (ops.take (before.length + 1))).messages := by
      refine (mem_performOps (cut _)).mpr ⟨stored, fun ⟨_, gone⟩ => ?_⟩
      rw [done, mem_append, mem_singleton] at gone
      rcases gone with early | same
      · have data := first row stored rowTenant latest key refers present before.length (by
          rwa [split, take_left])
        rw [split, take_left] at data
        exact fresh data
      · cases same
    have left := intact (before.length + 1) row kept latest key refers present
    refine ((mem_references_performOps (cut _)).mp left).2 ⟨ofTenant, ?_⟩
    rw [done]
    exact mem_append_right _ (mem_singleton.mpr rfl)
  · intro unreclaimed count row kept latest key refers present
    have stored := ((mem_performOps (cut count)).mp kept).1
    refine (mem_references_performOps (cut count)).mpr ⟨present, fun ⟨ofTenant, listed⟩ => ?_⟩
    exact unreclaimed row stored latest key refers present
      ((removed key present).mp ⟨ofTenant, mem_of_mem_take listed⟩)

end

/-! ## The data that a clean-up removes -/

def scopeOf (store : MessageStore) (d : WriteDescriptor) (message : Message) : MessageStore :=
  store.filter fun row => matchesSet row.indexes (siblingFilters d message)

def Reclaims (p : Primitives) (tenant : Did) (start : Stores) : CleanUp → DataKey → Prop
  | .prune root, key => ∃ recordId row d, Below start.messages tenant root recordId ∧
      NewestOf p start.messages tenant recordId row d ∧ key = (tenant, recordId, d.dataCid)
  | .squash message, key => ∃ d recordId, message.descriptor = .recordsWrite d ∧
      message.recordId = some recordId ∧ ∃ sibling row e,
        Squashed start.messages tenant message d recordId row ∧
        NewestOf p (scopeOf start.messages d message) tenant sibling row e ∧
        key = (tenant, sibling, e.dataCid)
  | .revocation message, key => ∃ d, message.descriptor = .recordsWrite d ∧
      ∃ row ∈ start.messages, row.tenant = tenant ∧ Revokes d row ∧ Refers tenant row.message key

section

variable {start : Stores} {message : Message} {d : WriteDescriptor} {recordId : String}
  {ops : List StoreOp}

theorem dataFirst_removeAuthorizedOps {m : Message} {key : DataKey} {cid : Cid}
    (refers : Refers tenant m key) :
    DataFirst (removeAuthorizedOps p m) cid key := by
  obtain ⟨d, recordId, isWrite, record, large, rfl⟩ := refers
  simp only [removeAuthorizedOps, Message.writeDescriptor_eq_some.mpr isWrite, record, if_pos large]
  exact dataFirst_of_head (tenant, recordId, d.dataCid) _

theorem intact_revocation_iff (sound : Sound p start.messages)
    (isWrite : message.descriptor = .recordsWrite d) :
    IntactUnless p tenant start (postProcessPermissionsWriteOps p start.messages tenant message)
      (Reclaims p tenant start (.revocation message)) := by
  have revoked {m : Message} : m ∈ revokedMessages start.messages tenant message ↔ _ :=
    sound.mem_revokedMessages isWrite
  refine intact_iff_of_dataFirst removal_postProcessPermissionsWriteOps (fun key _ => ⟨?_, ?_⟩) ?_
  · rintro ⟨rfl, listed⟩
    obtain ⟨m, isRevoked, inBlock⟩ := mem_flatMap.mp listed
    obtain ⟨removed, stored, isTenant, revokes, rfl⟩ := revoked.mp isRevoked
    rcases mem_removeAuthorizedOps.mp inBlock with same | ⟨e, id, isDescriptor, record, large, same⟩
    · cases same
    · exact ⟨d, isWrite, removed, stored, isTenant, revokes, e, id, isDescriptor, record, large,
        by rw [Prod.ext_iff, Prod.ext_iff, ← StoreOp.deleteData.injEq]; exact ⟨rfl, same⟩⟩
  · rintro ⟨e, isDescriptor, removed, stored, isTenant, revokes, e', id, named, record, large, rfl⟩
    cases isWrite.symm.trans isDescriptor
    exact ⟨rfl, mem_flatMap.mpr ⟨removed.message,
      revoked.mpr ⟨removed, stored, isTenant, revokes, rfl⟩,
      mem_removeAuthorizedOps.mpr (.inr ⟨e', id, named, record, large, rfl⟩)⟩⟩
  · rintro row stored rfl - key refers -
    refine dataFirst_flatMap fun m isRevoked => ?_
    obtain ⟨removed, isStored, isTenant, -, rfl⟩ := revoked.mp isRevoked
    by_cases same : row = removed
    · subst same
      exact dataFirst_removeAuthorizedOps refers
    · refine dataFirst_of_not_mem fun listed => ?_
      rcases mem_removeAuthorizedOps.mp listed with sameCid | ⟨_, _, -, -, -, sameCid⟩
      · exact same (sound.unique row stored removed isStored isTenant.symm
          ((StoreOp.deleteMessage.inj sameCid).trans (sound.addressed removed isStored).symm))
      · cases sameCid

theorem age_le_of_rank_le {a b : Message} {e : WriteDescriptor}
    (isWriteA : a.descriptor = .recordsWrite d) (isWriteB : b.descriptor = .recordsWrite e)
    (below : rank p a ≤ rank p b) : age p a ≤ age p b := by
  rw [rank, rank, isWriteA, isWriteB, Prod.Lex.toLex_le_toLex] at below
  rcases below with less | ⟨-, le⟩
  · exact absurd less (lt_irrefl _)
  · exact le

theorem newestOf_of_latest {store : MessageStore} {row : Row}
    (greatest : LatestGreatest p store) (stored : row ∈ store) (latest : IsLatest row)
    (ofRecord : OfRecord tenant recordId row)
    (isWrite : row.message.descriptor = .recordsWrite d) :
    NewestOf p store tenant recordId row d where
  stored := stored
  ofRecord := ofRecord
  isWrite := isWrite
  newest other isOther ofOther _ isOtherWrite := age_le_of_rank_le isOtherWrite isWrite
    (greatest tenant recordId row stored ofRecord latest other isOther ofOther)

theorem intact_prune_iff (law : p.CollisionFree) (sound : Sound p start.messages)
    (entered : ∀ row ∈ start.messages, Entered p row) (greatest : LatestGreatest p start.messages)
    {root : String} {fuel : Nat}
    (listed : purgeDescendantsOps p tenant fuel start root = .ok ops) :
    IntactUnless p tenant start ops (Reclaims p tenant start (.prune root)) := by
  obtain ⟨along, -⟩ := justified_purgeDescendants law sound entered fuel .refl .refl listed
  have removals : ∀ op ∈ ops, Removal op := along.forall_mem fun _ op justified => by
    cases op with
    | commitLatestState transition => exact justified.elim
    | deleteMessage cid => exact trivial
    | deleteData recordId dataCid => exact trivial
  refine intact_iff_of_dataFirst removals (fun key present => ⟨?_, ?_⟩) ?_
  · rintro ⟨ofTenant, isListed⟩
    have justified := along.forall_mem (Q := fun op => ∀ recordId dataCid,
      op = .deleteData recordId dataCid → ∃ row d, Below start.messages tenant root recordId ∧
        NewestOf p start.messages tenant recordId row d ∧ d.dataCid = dataCid)
      (fun _ op justified recordId dataCid same => by subst same; exact justified) _ isListed
    obtain ⟨row, d, below, newest, same⟩ := justified _ _ rfl
    exact ⟨_, row, d, below, newest, Prod.ext ofTenant (Prod.ext rfl same.symm)⟩
  · rintro ⟨recordId, row, d, below, newest, rfl⟩
    have purged := purged_of_ok law sound entered .refl listed
    have gone : (tenant, recordId, d.dataCid) ∉ references (performOps p tenant start ops).data := by
      rintro ⟨data, stored, same⟩
      exact ((purged.mem_data data).mp stored).2 recordId row d below newest same
    rw [mem_references_performOps removals, not_and, not_not] at gone
    exact gone present
  · rintro row stored rfl latest key refers present count isListed
    have cut : ∀ op ∈ ops.take count, Removal op :=
      fun op inCut => removals op (mem_of_mem_take inCut)
    have lost : row ∉ (performOps p row.tenant start (ops.take count)).messages :=
      fun kept => ((mem_performOps cut).mp kept).2 ⟨rfl, isListed⟩
    obtain ⟨recordId, ofRecord, -, ready⟩ :=
      ((Partway.refl (p := p)).along (along.take count)).1.lost row stored lost
    obtain ⟨d, id, isWrite, record, -, rfl⟩ := refers
    cases (StateMessage.write isWrite record).unique ofRecord.state
    have gone := ready.data row d (newestOf_of_latest greatest stored latest ofRecord isWrite)
    rw [mem_references_performOps cut, not_and, not_not] at gone
    exact (gone present).2

theorem intact_squash_iff (sound : Sound p start.messages)
    (greatest : LatestGreatest p start.messages) (isWrite : message.descriptor = .recordsWrite d)
    (record : message.recordId = some recordId) (squash : d.squash = some true)
    (listed : performRecordsSquashOps p tenant start message = .ok ops) :
    IntactUnless p tenant start ops (Reclaims p tenant start (.squash message)) := by
  simp only [performRecordsSquashOps, Message.writeDescriptorOr_eq_ok.mpr isWrite, record, okOr,
    ok_bind, pure_eq_ok] at listed
  subst listed
  have soundScope : Sound p (scopeOf start.messages d message) :=
    sound.subset fun _ => mem_of_mem_filter
  have inScope {row : Row} : row ∈ scopeOf start.messages d message ↔ row ∈ start.messages ∧
      matchesSet row.indexes (siblingFilters d message) = true := mem_filter
  -- Each group holds the messages of one sibling in scope.
  have grouped {sibling : String} {m : Message} :
      m ∈ (start.messages.query tenant [siblingFilters d message]).filter
        (fun m => messageRecordId m = some sibling) ↔
      ∃ row ∈ scopeOf start.messages d message, OfRecord tenant sibling row ∧ row.message = m := by
    rw [sound.mem_group interface_mem_siblingFilters]
    constructor
    · rintro ⟨row, stored, ofRecord, selected, rfl⟩
      exact ⟨row, inScope.mpr ⟨stored, selected⟩, ofRecord, rfl⟩
    · rintro ⟨row, isScoped, ofRecord, rfl⟩
      exact ⟨row, (inScope.mp isScoped).1, ofRecord, (inScope.mp isScoped).2, rfl⟩
  refine intact_iff_of_dataFirst ?_ (fun key _ => ⟨?_, ?_⟩) ?_
  · intro op isListed
    obtain ⟨group, -, inBlock⟩ := mem_flatMap.mp isListed
    rw [purgeOlderSiblingOps_eq, mem_ite_nil_right, mem_purgeRecordMessagesOps] at inBlock
    obtain ⟨-, ⟨_, _, -, rfl⟩ | ⟨_, -, rfl⟩⟩ := inBlock <;> exact trivial
  · rintro ⟨ofTenant, isListed⟩
    obtain ⟨⟨sibling, group⟩, isGroup, inBlock⟩ := mem_flatMap.mp isListed
    obtain ⟨-, rfl⟩ := mem_groupByRecord.mp isGroup
    rw [purgeOlderSiblingOps_eq, mem_ite_nil_right, mem_purgeRecordMessagesOps] at inBlock
    obtain ⟨⟨other, older⟩, ⟨_, _, data, same⟩ | ⟨_, -, same⟩⟩ := inBlock
    · obtain ⟨row, e, newest, isKey⟩ := (newestDataOp_iff soundScope fun _ => grouped).mp data
      obtain ⟨stored, selected⟩ := inScope.mp newest.stored
      rw [← same, StoreOp.deleteData.injEq] at isKey
      exact ⟨d, recordId, isWrite, record, sibling, row, e, ⟨squash, selected, sibling, other,
        newest.ofRecord, (sound.older_group_iff stored newest.ofRecord selected).mp older⟩,
        newest, Prod.ext ofTenant (Prod.ext isKey.1 isKey.2)⟩
    · cases same
  · rintro ⟨d', id, isDescriptor, isRecord, sibling, row, e, squashed, newest, rfl⟩
    cases isWrite.symm.trans isDescriptor
    cases record.symm.trans isRecord
    obtain ⟨stored, selected⟩ := inScope.mp newest.stored
    obtain ⟨-, -, other, isOther, ofOther, older⟩ := squashed
    cases newest.ofRecord.state.unique ofOther.state
    have member := grouped.mpr ⟨row, newest.stored, newest.ofRecord, rfl⟩
    refine ⟨rfl, mem_flatMap.mpr ⟨(sibling, _), mem_groupByRecord.mpr ⟨⟨row.message,
      (mem_filter.mp member).1, newest.ofRecord.state.messageRecordId⟩, rfl⟩, ?_⟩⟩
    rw [purgeOlderSiblingOps_eq, mem_ite_nil_right, mem_purgeRecordMessagesOps]
    exact ⟨⟨isOther, (sound.older_group_iff stored newest.ofRecord selected).mpr older⟩,
      .inl ⟨_, _, (newestDataOp_iff soundScope fun _ => grouped).mpr ⟨row, e, newest, rfl⟩, rfl⟩⟩
  · rintro row stored rfl latest key refers -
    obtain ⟨e, id, isLatestWrite, hasRecord, -, rfl⟩ := refers
    have ofRecord : OfRecord row.tenant id row := ⟨rfl, .write isLatestWrite hasRecord⟩
    refine dataFirst_flatMap fun entry isGroup => ?_
    obtain ⟨sibling, group⟩ := entry
    obtain ⟨-, rfl⟩ := mem_groupByRecord.mp isGroup
    rw [purgeOlderSiblingOps_eq]
    split
    · by_cases isListed : .deleteMessage row.cid ∈ purgeRecordMessagesOps p
          ((start.messages.query row.tenant [siblingFilters d message]).filter
            (fun m => messageRecordId m = some sibling))
      · rcases mem_purgeRecordMessagesOps.mp isListed with ⟨_, _, -, isData⟩ | ⟨m, member, sameOp⟩
        · cases isData
        have sameCid := StoreOp.deleteMessage.inj sameOp
        obtain ⟨other, isScoped, ofOther, rfl⟩ := grouped.mp member
        have otherStored := (inScope.mp isScoped).1
        have isRow := sound.unique row stored other otherStored ofOther.tenant.symm
          (sameCid.trans (sound.addressed other otherStored).symm)
        subst isRow
        cases ofOther.state.unique ofRecord.state
        -- The latest state is the newest write of its group.
        have newest := newestOf_of_latest (greatest.subset fun _ => mem_of_mem_filter) isScoped
          latest ofRecord isLatestWrite
        rw [purgeRecordMessagesOps,
          (newestDataOp_iff soundScope fun _ => grouped).mpr ⟨row, e, newest, rfl⟩]
        exact dataFirst_of_head (row.tenant, id, e.dataCid) _
      · exact dataFirst_of_not_mem isListed
    · exact dataFirst_of_not_mem not_mem_nil

end

/-! ## The clean-ups of a request -/

inductive Starts (p : Primitives) (stores : Stores) (request : Request) : CleanUp → Stores → Prop
  | prune {d : DeleteDescriptor} {admitted : AdmittedDelete} {author : Did}
      {transition : LatestStateTransition} {cleanupCids : List Cid} {committed : MessageStore}
      (deleted : Deleted p stores request d admitted author transition cleanupCids committed)
      (prune : d.prune = true) :
      Starts p stores request (.prune d.recordId) { stores with messages := committed }
  | squash {admitted : AdmittedWrite} {staged : StagedWrite} {transition : LatestStateTransition}
      {committed : MessageStore}
      (wrote : Wrote p stores request admitted staged transition committed)
      (squash : staged.message.writeDescriptor.any (·.squash = some true) = true) :
      Starts p stores request (.squash staged.message)
        (cleanUpData p { staged.stores with messages := committed } request.tenant staged.message
          admitted.plan.cleanupCids admitted.existing)
  | revocation {admitted : AdmittedWrite} {staged : StagedWrite}
      {transition : LatestStateTransition} {committed : MessageStore} {swept : Stores}
      (wrote : Wrote p stores request admitted staged transition committed)
      (squashed : squashSiblings p request.tenant
        (cleanUpData p { staged.stores with messages := committed } request.tenant staged.message
          admitted.plan.cleanupCids admitted.existing) staged.message = .ok swept) :
      Starts p stores request (.revocation staged.message) swept

section

variable {stores start : Stores} {request : Request} {cleanUp : CleanUp}

/-- Between two operations of a prune, a squash or a revocation every latest write above the inline
limit has its data just in case the clean-up removes none of them. -/
theorem cleanUp_intact_iff (law : p.CollisionFree)
    (reached : Reaches (step p) (fun _ _ => True) {} stores)
    (success : (processMessage p stores request).1.isSuccess = true)
    (starts : Starts p stores request cleanUp start) {ops : List StoreOp}
    (listed : cleanUp.ops p request.tenant start = .ok ops) :
    (∀ count, Intact start (performOps p request.tenant start (ops.take count))) ↔
      ∀ row ∈ start.messages, IsLatest row → ∀ key, Refers row.tenant row.message key →
        key ∈ references start.data → ¬ Reclaims p request.tenant start cleanUp key := by
  have sound := sound_of_reaches sound_nil reached
  have greatest := latestGreatest_of_reaches law reached
  cases starts with
  | prune deleted prune =>
    have soundCommitted := deleted.sound sound
    exact intact_prune_iff law soundCommitted
      (entered_commit sound (entered_of_reaches reached) deleted.commits deleted.newRow)
      (greatest.commit law sound (.delete deleted) deleted.commits soundCommitted.addressed) listed
  | @squash admitted staged transition committed wrote squash =>
    have soundCommitted := wrote.sound sound success
    have greatestCommitted :=
      greatest.commit law sound (.write wrote) wrote.commits soundCommitted.addressed
    obtain ⟨d, recordId, indexed⟩ := recordsWriteIndexes_ok wrote.indexed
    rw [Message.writeDescriptor_eq_some.mpr indexed.descriptor, Option.any_some,
      decide_eq_true_eq] at squash
    refine intact_squash_iff ?_ ?_ indexed.descriptor indexed.record squash listed
    all_goals
      rw [cleanUpData_messages]
      assumption
  | @revocation admitted staged transition committed swept wrote squashed =>
    obtain ⟨d, recordId, indexed⟩ := recordsWriteIndexes_ok wrote.indexed
    obtain ⟨_, done, removes⟩ := squashSiblings_ok p request.tenant (cleanUpData p
      { staged.stores with messages := committed } request.tenant staged.message
      admitted.plan.cleanupCids admitted.existing) indexed.descriptor indexed.record
    cases squashed.symm.trans done
    cases listed
    refine intact_revocation_iff (removes.sound ?_) indexed.descriptor
    rw [cleanUpData_messages]
    exact wrote.sound sound success

end

namespace Attachments

open Concrete Threads Uploads

def member : WriteDescriptor :=
  { participant with parentId := some "S", dataCid := ".new", dataSize := 3 }

def attachment : WriteDescriptor :=
  { participant with parentId := some "S", dataCid := "big", dataSize := 30001 }

def join : Message := write member "join" "alice" "P" ["S", "P"]
def attach : Message := write attachment "attach" "alice" "R" ["S", "R"]
def other : Message := write (post "big" 30001 2) "other" "alice" "V" ["V"]

def removeThread : Request := sent (Removals.remove "S" true) none

def script : Script :=
  configuring.adding (Removals.remove "S" true) "dd" "m5" |>.posted start "d1" "m1" "S"
    |>.posted join "d2" "m2" "P" |>.posted attach "d3" "m3" "R" |>.posted other "d4" "m4" "V"

noncomputable section

abbrev s : Primitives := { script.primitives with dataCid := Uploads.dataCid }

theorem collisionFree : s.CollisionFree :=
  ⟨(script.collisionFree (by decide) (by decide)).cid, Uploads.dataCid_injective⟩

def joined : Stores := step s (started s) (.request (sent join (some (textBytes "new"))))

def attached : Stores := (handleUpload s (started s) (sent attach big) "R" attachment big).2

def beside : Stores := (handleUpload s joined (sent other big) "V" (post "big" 30001 2) big).2

theorem reaches_attached : Reaches (step s) (fun _ _ => True) {} attached :=
  reaches_upload rfl rfl rfl dataCid_big.symm big_length.symm (by decide) rfl (reaches_started s)
    trivial rfl

theorem reaches_beside : Reaches (step s) (fun _ _ => True) {} beside :=
  reaches_upload rfl rfl rfl dataCid_big.symm big_length.symm (by decide) rfl
    ((reaches_started s).next trivial) trivial rfl

end

end Attachments

open Attachments

theorem prune_starts {stores : Stores} (reached : Reaches (step s) (fun _ _ => True) {} stores)
    (success : (processMessage s stores removeThread).1.isSuccess = true) (ops : List StoreOp)
    {transition : LatestStateTransition}
    (computed : handleDeleteOps s removeThread.tenant removeThread.resolver stores
      removeThread.message (Removals.removal "S" true) = .commitLatestState transition :: (ops ++
        (fetchRecordMessages stores.messages removeThread.tenant "S").filterMap
          (unneededDataOp removeThread.message))) :
    ∃ committed, Starts s stores removeThread (.prune "S") { stores with messages := committed } ∧
      (CleanUp.prune "S").ops s "did:ex:alice" { stores with messages := committed } = .ok ops ∧
      ∀ row recordId, OfRecord "did:ex:alice" recordId row → recordId ≠ "S" →
        (row ∈ committed ↔ row ∈ stores.messages) := by
  obtain ⟨admitted, author, transition, cleanupCids, committed, pruned, deleted, prunes, -⟩ :=
    processMessage_delete rfl success
  obtain ⟨ops', found, -⟩ := exists_ops_of_prune prunes
  rw [handleDeleteOps_eq deleted found, (admitDelete_ok deleted.admits).1] at computed
  cases append_cancel_right (List.cons.inj computed).2
  refine ⟨committed, .prune deleted rfl, found, fun row recordId ofRecord other => ?_⟩
  exact deleted.mem_committed_other collisionFree (sound_of_reaches sound_nil reached) fun own =>
    other (ofRecord.state.unique own.state)

theorem other_thread_intact :
    Reaches (step s) (fun _ _ => True) {} beside ∧
    ("did:ex:alice", "V", "big") ∈ references beside.data ∧
    ∃ start, Starts s beside removeThread (.prune "S") start ∧
      (CleanUp.prune "S").ops s "did:ex:alice" start =
        .ok [.deleteData "P" ".new", .deleteMessage "m2"] ∧
      ∀ count, Intact start (performOps s "did:ex:alice" start
        ([.deleteData "P" ".new", .deleteMessage "m2"].take count)) := by
  obtain ⟨committed, starts, listed, rows⟩ :=
    prune_starts reaches_beside rfl [.deleteData "P" ".new", .deleteMessage "m2"] rfl
  refine ⟨reaches_beside, ⟨_, mem_cons_self, rfl⟩, _, starts, listed,
    (cleanUp_intact_iff collisionFree reaches_beside rfl starts listed).mpr ?_⟩
  -- The only data are those of `V`, which has no parent.
  rintro row - - key - ⟨data, stored, rfl⟩ ⟨recordId, newest, d, below, -, isKey⟩
  cases mem_singleton.mp (show data ∈ [_] from stored)
  have isV : "V" = recordId := congrArg (·.2.1) isKey
  subst isV
  obtain ⟨parent, -, child, isChild, ofRecord, selected⟩ := TransGen.tail'_iff.mp below
  have roots : beside.messages.all (fun row => messageRecordId row.message ≠ some "V" ||
    (row.indexes.lookup .parentId).isNone) = true := rfl
  have root := all_eq_true.mp roots child ((rows child "V" ofRecord (by decide)).mp isChild)
  rw [ofRecord.state.messageRecordId] at root
  simp only [ne_eq, not_true_eq_false, decide_false, Bool.false_or, Option.isNone_iff_eq_none]
    at root
  simp [childFilters, root] at selected

theorem attachment_lost_before_message :
    s.CollisionFree ∧ Reaches (step s) (fun _ _ => True) {} attached ∧
    (processMessage s attached removeThread).1.isSuccess = true ∧
    ∃ start ops, Starts s attached removeThread (.prune "S") start ∧
      (CleanUp.prune "S").ops s "did:ex:alice" start = .ok ops ∧
      ¬ Intact start (performOps s "did:ex:alice" start (ops.take 1)) := by
  obtain ⟨committed, starts, listed, rows⟩ :=
    prune_starts reaches_attached rfl [.deleteData "R" "big", .deleteMessage "m3"] rfl
  refine ⟨collisionFree, reaches_attached, rfl, _, _, starts, listed, fun intact => ?_⟩
  obtain ⟨row, isStored, ofRecord, latest, refers⟩ : ∃ row ∈ attached.messages,
      OfRecord "did:ex:alice" "R" row ∧ IsLatest row ∧
        Refers row.tenant row.message ("did:ex:alice", "R", "big") :=
    exists_mem_of_find? (·.cid == "m3")
      ⟨_, rfl, ⟨rfl, .write rfl rfl⟩, rfl, attachment, "R", rfl, rfl, by decide, rfl⟩
  have kept := (rows row "R" ofRecord (by decide)).mpr isStored
  obtain ⟨data, stored, -⟩ := intact row kept latest _ refers ⟨_, mem_cons_self, rfl⟩
  cases stored

end Enbox.Proof.Tasks
