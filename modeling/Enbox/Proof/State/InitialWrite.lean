import Enbox.Proof.Run.Entry
import Enbox.Proof.Run.Purge

/-! # The retention of initial writes -/

namespace Enbox.Proof.State

open Lib Run

def holds (p : Primitives) (stores : Stores) (tenant : Did) (message : Message) : Bool :=
  stores.messages.any fun row => row.tenant = tenant && row.cid = p.messageCid message

structure OnRecord (tenant : Did) (recordId : String) (request : Request) : Prop where
  tenant : request.tenant = tenant
  state : StateMessage request.message recordId

def Accepted (p : Primitives) (stores : Stores) (request : Request) : Prop :=
  (processMessage p stores request).1.isSuccess = true

inductive Builds (p : Primitives) (stores : Stores) (request : Request)
    (transition : LatestStateTransition) : Prop
  | write {admitted : AdmittedWrite} {staged : StagedWrite}
      (built : BuildsWrite p stores request admitted staged transition)
  | delete {d : DeleteDescriptor} {admitted : AdmittedDelete} {author : Did}
      {cleanupCids : List Cid}
      (built : BuildsDelete p stores request d admitted author transition cleanupCids)

def recognizes (p : Primitives) (initial : Message) (author : Did) (request : Request) : Bool :=
  match request.message.descriptor with
  | .recordsWrite _ => requestAuthor p request = some author
  | _ => isOwnInitialWrite p initial

def revokesGrantOf (initial : Message) (request : Request) : Bool :=
  request.message.writeDescriptor.any fun d =>
    d.protocol = permissionsProtocolUri && d.protocolPath = permissionsRevocationPath &&
      d.parentId.isSome && (initial.writeDescriptor.bind (·.permissionGrantId)) = d.parentId &&
      d.messageTimestamp ≤ initial.messageTimestamp

section

variable {p : Primitives} {stores : Stores} {request : Request} {tenant : Did} {recordId : String}
  {author : Did} {initial : Message}

theorem holds_iff : holds p stores tenant initial = true ↔
    ∃ row ∈ stores.messages, row.tenant = tenant ∧ row.cid = p.messageCid initial := by
  simp [holds]

structure InitialRow (p : Primitives) (tenant : Did) (recordId : String) (author : Did)
    (initial : Message) (row : Row) : Prop where
  ofRecord : OfRecord tenant recordId row
  cid : row.cid = p.messageCid initial
  same : setEncodedData row.message none = setEncodedData initial none
  isInitial : p.isInitialWrite row.message author = true

theorem initialRow_of_cid (law : p.CollisionFree) {store : MessageStore} (sound : Sound p store)
    (isInitial : p.isInitialWrite initial author = true)
    (record : initial.recordId = some recordId) {row : Row} (stored : row ∈ store)
    (ofTenant : row.tenant = tenant) (cid : row.cid = p.messageCid initial) :
    InitialRow p tenant recordId author initial row := by
  have sameCid : p.messageCid row.message = p.messageCid initial := by
    rw [← sound.addressed row stored, cid]
  have same := messageCid_inj law sameCid
  obtain ⟨d, isWrite, -⟩ := isInitialWrite_iff.mp isInitial
  refine ⟨⟨ofTenant, (stateMessage_congr law sameCid).mpr (.write isWrite record)⟩, cid, same, ?_⟩
  rw [← isInitialWrite_setEncodedData p row.message none, same, isInitialWrite_setEncodedData]
  exact isInitial

theorem isOwnInitialWrite_congr {a b : Message}
    (same : setEncodedData a none = setEncodedData b none) :
    isOwnInitialWrite p a = isOwnInitialWrite p b := by
  have bare (m : Message) : isOwnInitialWrite p m = isOwnInitialWrite p (setEncodedData m none) := rfl
  rw [bare a, same, ← bare b]

theorem requestAuthor_of_passed {store : MessageStore} {auth : AuthorizationContext}
    (passed : Passed p store request auth recordId) :
    requestAuthor p request = some auth.author := by
  simp [requestAuthor, passed.signed]

section

variable (law : p.CollisionFree) (sound : Sound p stores.messages)
  (isInitial : p.isInitialWrite initial author = true) (record : initial.recordId = some recordId)
  (retained : holds p stores tenant initial = true) (on : OnRecord tenant recordId request)

include law sound isInitial record retained on

theorem Builds.mem_deletes {transition : LatestStateTransition}
    (built : Builds p stores request transition) :
    p.messageCid initial ∈ transition.deletes ↔ recognizes p initial author request = false := by
  obtain ⟨row, stored, ofTenant, cid⟩ := holds_iff.mp retained
  have isRow := initialRow_of_cid law sound isInitial record stored ofTenant cid
  rw [← cid]
  rcases built with built | built
  · rcases on.state with ⟨isWrite, hasRecord⟩ | ⟨-, bare, -⟩
    · obtain ⟨passed, fetched⟩ := built.passed hasRecord
      rw [built.replaces.mem_deletes (on.tenant ▸ fetched) sound stored isRow.ofRecord, recognizes,
        isWrite, requestAuthor_of_passed passed]
      simp [keptByWrite, isInitialWrite_unique law isRow.isInitial]
    · obtain ⟨id, passed, -⟩ := admitWrite_ok built.admits
      cases bare.symm.trans passed.record
  · rcases on.state with ⟨-, hasRecord⟩ | ⟨isDelete, -, rfl⟩
    · cases hasRecord.symm.trans built.bare
    · cases isDelete.symm.trans built.isDelete
      rw [built.replaces.mem_deletes (on.tenant ▸ (admitDelete_ok built.admits).1) sound stored
        isRow.ofRecord, recognizes, isDelete, ← isOwnInitialWrite_congr isRow.same]
      simpa [keptByDelete, or_iff_not_imp_right] using fun own => own_recordId own isRow.ofRecord.state

omit law sound isInitial record retained on in
theorem revokes_iff {row : Row} (filed : Filed p row) {message : Message}
    (same : setEncodedData row.message none = setEncodedData message none)
    {d₀ : WriteDescriptor} (isRow : message.descriptor = .recordsWrite d₀) {d : WriteDescriptor}
    (isWrite : request.message.descriptor = .recordsWrite d) :
    Revokes d row ↔ revokesGrantOf message request = true := by
  have descriptor : row.message.descriptor = .recordsWrite d₀ :=
    (congrArg MessageOf.descriptor same).trans isRow
  have timestamp : row.message.messageTimestamp = message.messageTimestamp := by
    rw [Message.messageTimestamp, Message.messageTimestamp, descriptor, isRow]
  obtain ⟨_, _, _, indexed⟩ := filed.of_isWrite descriptor
  have granted (grantId : String) :
      row.indexes.lookup .permissionGrantId = some (.string grantId) ↔
        d₀.permissionGrantId = some grantId := by
    rw [indexed.permissionGrantId]
    cases d₀.permissionGrantId <;> simp
  simp only [revokesGrantOf, Message.writeDescriptor_eq_some.mpr isWrite, Option.any_some,
    Message.writeDescriptor_eq_some.mpr isRow, Option.bind_some, Bool.and_eq_true,
    decide_eq_true_eq, ← timestamp]
  constructor
  · rintro ⟨protocol, protocolPath, ⟨grantId, parent, isGranted⟩, later⟩
    exact ⟨⟨⟨⟨protocol, protocolPath⟩, by simp [parent]⟩,
      ((granted grantId).mp isGranted).trans parent.symm⟩, later⟩
  · rintro ⟨⟨⟨⟨protocol, protocolPath⟩, hasParent⟩, same⟩, later⟩
    obtain ⟨grantId, parent⟩ := Option.isSome_iff_exists.mp hasParent
    exact ⟨protocol, protocolPath, ⟨grantId, parent, (granted grantId).mpr (same.trans parent)⟩,
      later⟩

omit sound retained on in
theorem held_iff_of_rows {later earlier : MessageStore} {C : Prop} (soundLater : Sound p later)
    (soundEarlier : Sound p earlier)
    (rows : ∀ row, InitialRow p tenant recordId author initial row → Filed p row →
      (row ∈ later ↔ row ∈ earlier ∧ C)) :
    (∃ row ∈ later, row.tenant = tenant ∧ row.cid = p.messageCid initial) ↔
      (∃ row ∈ earlier, row.tenant = tenant ∧ row.cid = p.messageCid initial) ∧ C := by
  have rowsOf {store : MessageStore} (sound : Sound p store) {row : Row} (stored : row ∈ store)
      (held : row.tenant = tenant ∧ row.cid = p.messageCid initial) :=
    rows row (initialRow_of_cid law sound isInitial record stored held.1 held.2)
      (sound.filed row stored)
  constructor
  · rintro ⟨row, stored, held⟩
    obtain ⟨before, holds⟩ := (rowsOf soundLater stored held).mp stored
    exact ⟨⟨row, before, held⟩, holds⟩
  · rintro ⟨⟨row, stored, held⟩, holds⟩
    exact ⟨row, (rowsOf soundEarlier stored held).mpr ⟨stored, holds⟩, held⟩

theorem holds_after_iff (accepted : Accepted p stores request) :
    holds p (processMessage p stores request).2 tenant initial = true ↔
      recognizes p initial author request = true ∧ revokesGrantOf initial request = false := by
  obtain ⟨row, stored, ofTenant, cid⟩ := holds_iff.mp retained
  have isRow := initialRow_of_cid law sound isInitial record stored ofTenant cid
  have deletes {transition : LatestStateTransition} (built : Builds p stores request transition) :=
    built.mem_deletes law sound isInitial record retained on
  obtain ⟨d₀, isInitialWrite, -⟩ := isInitialWrite_iff.mp isInitial
  obtain ⟨rfl, state⟩ := on
  rw [holds_iff, ← Bool.not_eq_false (recognizes p initial author request)]
  rcases state with @⟨d, isWrite, hasRecord⟩ | @⟨d, isDelete, bare, rfl⟩
  · obtain ⟨admitted, staged, transition, committed, wrote, after⟩ :=
      processMessage_write isWrite accepted
    have committedIff := wrote.replaces.held_iff (wrote.passed hasRecord).2 sound wrote.commits
      stored isRow.ofRecord
    rw [cid, deletes (.write wrote.toBuildsWrite)] at committedIff
    rw [← committedIff, after]
    refine held_iff_of_rows law isInitial record (after ▸ sound.processMessage request)
      (wrote.sound sound accepted) fun other isOther filed => ?_
    rw [wrote.mem_after_record sound isWrite hasRecord accepted isOther.ofRecord,
      revokes_iff filed isOther.same isInitialWrite isWrite, Bool.not_eq_true]
  · obtain ⟨admitted, by_, transition, cids, committed, pruned, deleted, prunes, after⟩ :=
      processMessage_delete isDelete accepted
    have committedIff := deleted.replaces.held_iff (admitDelete_ok deleted.admits).1 sound
      deleted.commits stored isRow.ofRecord
    rw [cid, deletes (.delete deleted.toBuildsDelete)] at committedIff
    rw [← committedIff, after]
    refine held_iff_of_rows law isInitial record (after ▸ sound.processMessage request)
      (deleted.sound sound) fun other isOther _ => ?_
    rw [deleted.mem_after_record law sound prunes isOther.ofRecord, and_iff_left]
    simp [revokesGrantOf, Message.writeDescriptor, isDelete]

end

end

structure Keeps (p : Primitives) (initial : Message) (author : Did) (tenant : Did)
    (recordId : String) (stores : Stores) (request : Request) : Prop where
  on : OnRecord tenant recordId request
  accepted : Accepted p stores request
  recognizes : recognizes p initial author request = true
  unrevoked : revokesGrantOf initial request = false

/-- In every run of accepted messages of the record that recognize its initial write and do not
revoke its grant, the initial write is retained; the next message keeps it exactly if it does the
same. -/
theorem initialWrite_retained_while_recognized {p : Primitives} (law : p.CollisionFree)
    {allowed : Stores → Event → Prop} {base stores : Stores}
    (reached : Reaches (step p) allowed {} base) {tenant : Did} {recordId : String}
    {initial : Message} {author : Did} (isInitial : p.isInitialWrite initial author = true)
    (record : initial.recordId = some recordId) (retained : holds p base tenant initial = true)
    (run : Reaches (step p) (fun stores event => ∃ request, event = .request request ∧
      Keeps p initial author tenant recordId stores request) base stores) :
    holds p stores tenant initial = true ∧
    ∀ request, OnRecord tenant recordId request →
      (Accepted p stores request →
        (holds p (processMessage p stores request).2 tenant initial = true ↔
          recognizes p initial author request = true ∧ revokesGrantOf initial request = false)) ∧
      ∀ transition, Builds p stores request transition →
        (p.messageCid initial ∈ transition.deletes ↔
          recognizes p initial author request = false) := by
  have sound := sound_of_reaches sound_nil reached
  have kept : Sound p stores.messages ∧ holds p stores tenant initial = true := by
    refine run.invariant (P := fun stores => Sound p stores.messages ∧
      holds p stores tenant initial = true) ⟨sound, retained⟩ ?_
    rintro stores _ ⟨sound, retained⟩ ⟨request, rfl, keeps⟩
    exact ⟨sound.step _, (holds_after_iff law sound isInitial record retained keeps.on
      keeps.accepted).mpr ⟨keeps.recognizes, keeps.unrevoked⟩⟩
  refine ⟨kept.2, fun request on => ⟨fun accepted => ?_, fun transition built => ?_⟩⟩
  · exact holds_after_iff law kept.1 isInitial record kept.2 on accepted
  · exact built.mem_deletes law kept.1 isInitial record kept.2 on

open Threads in
theorem two_retained_by_own_update :
    p.CollisionFree ∧ Reaches (step p) (fun _ _ => True) {} (stores joined) ∧
    p.isInitialWrite two "did:ex:alice" = true ∧ two.recordId = some "T2" ∧
    holds p (stores joined) "did:ex:alice" two = true ∧
    holds p (stores (joined ++ [.request (request twoAsOne "one")])) "did:ex:alice" two = true := by
  refine ⟨collisionFree, ?reached, ?isInitial, rfl, rfl,
    (initialWrite_retained_while_recognized collisionFree ?reached ?isInitial rfl rfl ?run).1⟩
  · exact AllowedAlong.reaches ⟨trivial, trivial, trivial, trivial, trivial⟩
  · rfl
  · exact .tail .refl ⟨.request (request twoAsOne "one"),
      ⟨_, rfl, ⟨rfl, .write rfl rfl⟩, rfl, rfl, rfl⟩, rfl⟩

open Threads in
theorem two_deleted_by_edit :
    p.CollisionFree ∧ Reaches (step p) (fun _ _ => True) {} (stores joined) ∧
    p.isInitialWrite two "did:ex:alice" = true ∧
    holds p (stores joined) "did:ex:alice" two = true ∧
    OnRecord "did:ex:alice" "T2" (request edit "two") ∧
    Accepted p (stores joined) (request edit "two") ∧
    holds p (processMessage p (stores joined) (request edit "two")).2 "did:ex:alice" two = false ∧
    ∃ transition, Builds p (stores joined) (request edit "two") transition ∧
      p.messageCid two ∈ transition.deletes := by
  have accepted : Accepted p (stores joined) (request edit "two") := rfl
  obtain ⟨_, _, transition, _, wrote, -⟩ := processMessage_write rfl accepted
  have built := Builds.write wrote.toBuildsWrite
  have isInitial : p.isInitialWrite two "did:ex:alice" = true := rfl
  refine ⟨collisionFree, ?reached, isInitial, rfl, ?on, accepted, rfl, transition, built, (built.mem_deletes
    collisionFree (sound_of_reaches sound_nil ?reached) isInitial rfl rfl ?on).mpr rfl⟩
  · exact AllowedAlong.reaches ⟨trivial, trivial, trivial, trivial, trivial⟩
  · exact ⟨rfl, .write rfl rfl⟩

end Enbox.Proof.State
