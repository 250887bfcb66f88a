import Enbox.Proof.State.Level
import Enbox.Proof.Tasks.CleanUp

/-! # What a prune leaves -/

namespace Enbox.Proof.Tasks

open Lib Run State Relation Attachments

variable {p : Primitives} {stores : Stores} {tenant author : Did} {request : Request}
  {d : DeleteDescriptor} {transition : LatestStateTransition} {cleanupCids : List Cid}
  {committed : MessageStore} {recordId : String}

theorem below_self_of_below {α : Type} {r : α → α → Prop}
    (unique : ∀ a b child, r a child → r b child → a = b) {root node : α}
    (below : TransGen r root node) (cycle : TransGen r node node) : TransGen r root root := by
  induction below with
  | single isChild =>
    obtain ⟨last, rest, isLast⟩ := TransGen.tail'_iff.mp cycle
    cases unique _ _ _ isLast isChild
    exact TransGen.head' isChild rest
  | tail _ isChild ih =>
    obtain ⟨last, rest, isLast⟩ := TransGen.tail'_iff.mp cycle
    cases unique _ _ _ isLast isChild
    exact ih (TransGen.head' isChild rest)

section

variable {root : String}

theorem purge_ends_of_acyclic (law : p.CollisionFree) (sound : Sound p stores.messages)
    (entered : ∀ row ∈ stores.messages, Entered p row)
    (acyclic : ¬ Below stores.messages tenant root root) :
    ∃ after, purgeDescendants p tenant (stores.messages.length + 1) stores root = .ok after := by
  cases purged : purgeDescendants p tenant (stores.messages.length + 1) stores root with
  | ok after => exact ⟨after, rfl⟩
  | error failure =>
    obtain ⟨chain, length, isChain⟩ := chain_of_error _ sound purged
    have unique (a b child : String) (first : ChildOf stores.messages tenant a child)
        (second : ChildOf stores.messages tenant b child) : a = b :=
      childOf_unique law entered first second
    have bounded := length_le_of_chain (fun recordId below cycle =>
      acyclic (below_self_of_below unique below cycle)) isChain
    omega

end

section

variable {admitted : AdmittedDelete}

theorem level_of_deleted (sound : Sound p stores.messages)
    (nested : ∀ row ∈ stores.messages, Nested p row)
    (deleted : Deleted p stores request d admitted author transition cleanupCids committed) :
    ∃ depth, Level p d.recordId depth := by
  obtain ⟨row, stored, ofRecord, isInitial⟩ := deleted.target sound
  obtain ⟨_, e, indexed⟩ := recordsDeleteIndexes_ok deleted.indexed
  have ordinary : isOrdinary e = true := by
    have admits := deleted.admits
    simp only [admitDelete, replying, authorizeDeleteRequest, ok_iff] at admits
    obtain ⟨_, -, _, -, _, -, _, -, _, -, _, ⟨_, uncontrolled, -⟩, rfl⟩ := admits
    simpa [ControlKind.of, Message.writeDescriptor_eq_some.mpr indexed.isWrite, isOrdinary]
      using uncontrolled
  obtain ⟨founder, d₀, entry, paths, -⟩ := nested row stored _ ofRecord.state
  refine ⟨_, founder, d₀, entry, ?_, rfl⟩
  rw [isOrdinary, ← paths e (isInitial ▸ indexed.isWrite)]
  exact ordinary

section

variable (law : p.CollisionFree) (sound : Sound p stores.messages)
  (entered : ∀ row ∈ stores.messages, Entered p row)

include law sound entered

section

variable (deleted : Deleted p stores request d admitted author transition cleanupCids committed)

include deleted

theorem childOf_committed (parent child : String) :
    ChildOf committed request.tenant parent child ↔
      ChildOf stores.messages request.tenant parent child := by
  have enteredNow := entered_commit sound entered deleted.commits deleted.newRow
  have soundNow := deleted.sound sound
  by_cases own : child = d.recordId
  · -- The record has rows before and after, and all of them name its parent.
    subst own
    obtain ⟨old, stored, ofOld, -⟩ := deleted.target sound
    have isPut := (deleted.mem_committed law sound _).mpr (.inl rfl)
    have ofPut : OfRecord request.tenant d.recordId (rowOf p request.tenant transition.put) :=
      ⟨rfl, deleted.state⟩
    constructor
    · rintro ⟨row, isStored, ofRecord, selected⟩
      exact ⟨old, stored, ofOld, selected_of_entered law (enteredNow row isStored)
        (entered old stored) (sound.filed old stored) ofRecord selected ofOld⟩
    · rintro ⟨row, isStored, ofRecord, selected⟩
      exact ⟨_, isPut, ofPut, selected_of_entered law (entered row isStored) (enteredNow _ isPut)
        (soundNow.filed _ isPut) ofRecord selected ofPut⟩
  · refine exists_congr fun row => ?_
    constructor
    all_goals
      rintro ⟨stored, ofRecord, selected⟩
      have other : ¬ OfRecord request.tenant d.recordId row :=
        fun isOwn => own (ofRecord.state.unique isOwn.state)
      refine ⟨?_, ofRecord, selected⟩
    · exact (deleted.mem_committed_other law sound other).mp stored
    · exact (deleted.mem_committed_other law sound other).mpr stored

theorem below_committed :
    Below committed request.tenant = Below stores.messages request.tenant := by
  unfold Below
  congr 1
  funext parent child
  exact propext (childOf_committed law sound entered deleted parent child)

end

theorem prune_ends (nested : ∀ row ∈ stores.messages, Nested p row)
    (deleted : Deleted p stores request d admitted author transition cleanupCids committed) :
    ¬ Below stores.messages request.tenant d.recordId d.recordId ∧
    ∃ pruned, pruneDescendants p request.tenant { stores with messages := committed } d =
      .ok pruned := by
  obtain ⟨depth, level⟩ := level_of_deleted sound nested deleted
  have acyclic : ¬ Below stores.messages request.tenant d.recordId d.recordId :=
    not_below_self law entered nested level
  refine ⟨acyclic, ?_⟩
  unfold pruneDescendants
  split
  · refine purge_ends_of_acyclic law (deleted.sound sound)
      (entered_commit sound entered deleted.commits deleted.newRow) ?_
    rw [below_committed law sound entered deleted]
    exact acyclic
  · exact ⟨_, rfl⟩

end

end

structure Untouched (before after : Stores) (tenant : Did) (root : String) : Prop where
  messages : ∀ row, (∀ recordId, OfRecord tenant recordId row →
    recordId ≠ root ∧ ¬ Below before.messages tenant root recordId) →
    (row ∈ after.messages ↔ row ∈ before.messages)
  data : ∀ row : DataRow, (row.tenant = tenant →
    row.recordId ≠ root ∧ ¬ Below before.messages tenant root row.recordId) →
    (row ∈ after.data ↔ row ∈ before.data)

theorem reference_eq {row : DataRow} {dataCid : Cid} :
    reference row = (tenant, recordId, dataCid) ↔
      row.tenant = tenant ∧ row.recordId = recordId ∧ row.dataCid = dataCid := by
  simp [reference]

section

variable {admitted : AdmittedDelete}

theorem newestOf_committed (law : p.CollisionFree) (sound : Sound p stores.messages)
    (deleted : Deleted p stores request d admitted author transition cleanupCids committed)
    (other : recordId ≠ d.recordId) {row : Row} {e : WriteDescriptor} :
    NewestOf p committed request.tenant recordId row e ↔
      NewestOf p stores.messages request.tenant recordId row e := by
  have rows {row : Row} (ofRecord : OfRecord request.tenant recordId row) :
      row ∈ committed ↔ row ∈ stores.messages :=
    deleted.mem_committed_other law sound fun own => other (ofRecord.state.unique own.state)
  constructor
  · exact fun newest => ⟨(rows newest.ofRecord).mp newest.stored, newest.ofRecord, newest.isWrite,
      fun row stored ofRecord => newest.newest row ((rows ofRecord).mpr stored) ofRecord⟩
  · exact fun newest => ⟨(rows newest.ofRecord).mpr newest.stored, newest.ofRecord, newest.isWrite,
      fun row stored ofRecord => newest.newest row ((rows ofRecord).mp stored) ofRecord⟩

/-- A prune that is admitted ends and is accepted. No message of a record below is left and nothing
else is touched; no data of one are left just in case they all are those of the newest write. -/
theorem prune_leaves_nothing_below_iff (law : p.CollisionFree)
    (reached : Reaches (step p) (fun _ _ => True) {} stores)
    (wellFormed : admitMessage request.message = .ok ())
    (deleted : Deleted p stores request d admitted author transition cleanupCids committed)
    (prune : d.prune = true) :
    (processMessage p stores request).1 = accepted ∧
    (∀ recordId, Below stores.messages request.tenant d.recordId recordId →
      Gone (processMessage p stores request).2 request.tenant recordId) ∧
    Untouched stores (processMessage p stores request).2 request.tenant d.recordId ∧
    ((∀ recordId, Below stores.messages request.tenant d.recordId recordId → ∀ dataCid,
        (request.tenant, recordId, dataCid) ∉ references (processMessage p stores request).2.data) ↔
      ∀ recordId, Below stores.messages request.tenant d.recordId recordId → ∀ dataCid,
        (request.tenant, recordId, dataCid) ∈ references stores.data →
        ∃ row e, NewestOf p stores.messages request.tenant recordId row e ∧ e.dataCid = dataCid) := by
  have sound := sound_of_reaches sound_nil reached
  have entered := entered_of_reaches reached
  obtain ⟨acyclic, pruned, prunes⟩ :=
    prune_ends law sound entered (rows_of_reaches nested_newRow reached) deleted
  have performed := performed_of_deleted law sound entered deleted prunes
  have purged := performed.purged law prune
  have processed : processMessage p stores request =
      (accepted, reclaim request.tenant request.message admitted.existing pruned) := by
    simp only [processMessage, wellFormed, deleted.isDelete, handleDelete, deleted.admits,
      performRecordsDelete_of_deleted deleted prunes]
  have sameBelow := below_committed law sound entered deleted
  have ownOf {recordId : String} (below : Below stores.messages request.tenant d.recordId recordId) :
      recordId ≠ d.recordId := by
    rintro rfl
    exact acyclic below
  have reclaimed {row : DataRow} := mem_reclaim request.tenant performed.not_write
    admitted.existing pruned row
  rw [processed]
  refine ⟨rfl, ?_, ⟨?_, ?_⟩, ?_⟩
  · intro recordId below row stored
    rw [reclaim_messages] at stored
    exact purged.gone recordId (by rw [sameBelow]; exact below) row stored
  · intro row outside
    have foreign : ¬ OfRecord request.tenant d.recordId row := fun own => (outside _ own).1 rfl
    rw [reclaim_messages, purged.mem_messages, sameBelow,
      deleted.mem_committed_other law sound foreign]
    exact and_iff_left fun recordId below ofRecord => (outside recordId ofRecord).2 below
  · intro row outside
    rw [reclaimed, purged.mem_data, sameBelow]
    constructor
    · exact fun kept => kept.1.1
    · refine fun stored => ⟨⟨stored, fun recordId newest e below isNewest same => ?_⟩, ?_⟩
      · obtain ⟨ofTenant, isRecord, -⟩ := reference_eq.mp same
        exact (outside ofTenant).2 (isRecord ▸ below)
      · intro m found refers
        obtain ⟨dataCid, same⟩ := own_of_refers performed found refers
        obtain ⟨ofTenant, isRecord, -⟩ := reference_eq.mp same
        exact (outside ofTenant).1 isRecord
  · refine forall₂_congr fun recordId below => forall_congr' fun dataCid => ?_
    have newest {row : Row} {e : WriteDescriptor} :
        NewestOf p committed request.tenant recordId row e ↔ _ :=
      newestOf_committed law sound deleted (ownOf below)
    constructor
    · rintro gone ⟨row, stored, same⟩
      by_contra unnamed
      push Not at unnamed
      refine gone ⟨row, reclaimed.mpr ⟨(purged.mem_data row).mpr ⟨stored, ?_⟩, ?_⟩, same⟩
      · intro id top e isBelow isNewest also
        have equal := same.symm.trans also
        simp only [Prod.mk.injEq, true_and] at equal
        obtain ⟨rfl, rfl⟩ := equal
        exact unnamed top e (newest.mp isNewest) rfl
      · intro m found refers
        obtain ⟨_, also⟩ := own_of_refers performed found refers
        exact ownOf below (congrArg (·.2.1) (same.symm.trans also))
    · rintro named ⟨row, kept, same⟩
      obtain ⟨left, -⟩ := (reclaimed.mp kept)
      obtain ⟨stored, others⟩ := (purged.mem_data row).mp left
      obtain ⟨top, e, isNewest, rfl⟩ := named ⟨row, stored, same⟩
      exact others recordId top e (by rw [sameBelow]; exact below) (newest.mpr isNewest) same

end

namespace Leftovers

open Concrete Threads Uploads Attachments

def child (dataCid : Cid) (dataSize : Nat) (timestamp : Timestamp) : WriteDescriptor :=
  { participant with parentId := some "S", dataCid, dataSize, messageTimestamp := timestamp }

def claim : Message := write (child "big" 4 3) "claim" "alice" "Q" ["S", "Q"]
def claimAgain : Message := write (child "big" 4 3) "claimAgain" "alice" "Q" ["S", "Q"]

def upload : Message := write (child "big" 30001 3) "upload" "alice" "Q" ["S", "Q"]
def update : Message := write (child ".new" 3 5) "update" "alice" "Q" ["S", "Q"]

def script : Script :=
  configuring.adding (Removals.remove "S" true) "dd" "m6" |>.posted start "d0" "m1" "S"
    |>.posted claim "d1" "m2" "Q" |>.posted upload "d2" "m3" "e1" |>.signed claimAgain "d1" "m4"
    |>.posted update "d3" "m5" "e2"

noncomputable section

abbrev l : Primitives := { script.primitives with dataCid := Uploads.dataCid }

theorem collisionFree : l.CollisionFree :=
  ⟨(script.collisionFree (by decide) (by decide)).cid, Uploads.dataCid_injective⟩

def claimed : Stores := step l (started l) (.request (sent claim none))

def stored : Stores := (handleUpload l claimed (sent upload big) "Q" (child "big" 30001 3) big).2

def displaced : Stores := step l stored (.request (sent claimAgain none))

def updated : Stores :=
  step l displaced (.request (sent update (some (textBytes "new"))))

theorem reaches_updated : Reaches (step l) (fun _ _ => True) {} updated := by
  have atStored : Reaches (step l) (fun _ _ => True) {} stored :=
    reaches_upload rfl rfl rfl dataCid_big.symm big_length.symm (by decide) rfl
      ((reaches_started l).next trivial) trivial rfl
  exact (atStored.next trivial).next trivial

end

end Leftovers

open Attachments in
theorem attachment_pruned :
    Reaches (step s) (fun _ _ => True) {} attached ∧
    ("did:ex:alice", "R", "big") ∈ references attached.data ∧
    Below attached.messages "did:ex:alice" "S" "R" ∧
    (processMessage s attached removeThread).1 = accepted ∧
    ("did:ex:alice", "R", "big") ∉ references (processMessage s attached removeThread).2.data := by
  obtain ⟨row, stored, isWrite, ofRecord, latest, selected⟩ : ∃ row ∈ attached.messages,
      row.message.descriptor = .recordsWrite attachment ∧ OfRecord "did:ex:alice" "R" row ∧
        IsLatest row ∧ matchesSet row.indexes (childFilters "S") = true :=
    exists_mem_of_find? (·.cid == "m3") ⟨_, rfl, rfl, ⟨rfl, .write rfl rfl⟩, rfl, rfl⟩
  have below : Below attached.messages "did:ex:alice" "S" "R" :=
    .single ⟨row, stored, ofRecord, selected⟩
  have success : (processMessage s attached removeThread).1.isSuccess = true := rfl
  obtain ⟨_, _, _, _, _, _, deleted, -, -⟩ :=
    processMessage_delete (d := Removals.removal "S" true) rfl success
  obtain ⟨isAccepted, -, -, data⟩ :=
    prune_leaves_nothing_below_iff collisionFree reaches_attached rfl deleted rfl
  refine ⟨reaches_attached, ⟨_, List.mem_cons_self, rfl⟩, below, isAccepted,
    data.mpr ?_ "R" below "big"⟩
  rintro recordId - dataCid ⟨dataRow, isData, isKey⟩
  cases List.mem_singleton.mp (show dataRow ∈ [_] from isData)
  cases isKey
  exact ⟨row, attachment, newestOf_of_latest (latestGreatest_of_reaches collisionFree
    reaches_attached) stored latest ofRecord isWrite, rfl⟩

open Leftovers in
theorem old_data_not_pruned :
    l.CollisionFree ∧ Reaches (step l) (fun _ _ => True) {} updated ∧
    (processMessage l updated Attachments.removeThread).1 = accepted ∧
    Below updated.messages "did:ex:alice" "S" "Q" ∧
    ("did:ex:alice", "Q", "big") ∈
      references (processMessage l updated Attachments.removeThread).2.data := by
  have kept : ((processMessage l updated removeThread).2.data.get "did:ex:alice" "Q"
      "big").isSome = true := by decide +kernel
  exact ⟨Leftovers.collisionFree, reaches_updated, rfl, .single (exists_mem_of_find? (·.cid == "m5")
    ⟨_, rfl, ⟨rfl, .write rfl rfl⟩, rfl⟩), get_isSome_iff.mp kept⟩

end Enbox.Proof.Tasks
