import Enbox.Proof.Run.Effect
import Mathlib.Data.List.Dedup

/-! # Sweeps -/

namespace Enbox.Proof.Run

open Lib List

variable {p : Primitives} {tenant : Did} {messages : List Message} {row : Row} {recordId : String}
  {set : FilterSet} {m message : Message} {d : WriteDescriptor}

section

variable {store : MessageStore}

theorem Sound.eq_of_message (sound : Sound p store) {a b : Row} (storedA : a ∈ store)
    (storedB : b ∈ store) (sameTenant : a.tenant = b.tenant) (same : a.message = b.message) :
    a = b :=
  sound.unique a storedA b storedB sameTenant
    (by rw [sound.addressed a storedA, sound.addressed b storedB, same])

theorem Sound.cid_mem_iff (sound : Sound p store)
    (listed : ∀ m ∈ messages, ∃ row ∈ store, row.tenant = tenant ∧ row.message = m)
    (stored : row ∈ store) (ofTenant : row.tenant = tenant) :
    row.cid ∈ messages.map p.messageCid ↔ row.message ∈ messages := by
  rw [sound.addressed row stored]
  refine ⟨fun mapped => ?_, mem_map_of_mem⟩
  obtain ⟨m, isListed, same⟩ := mem_map.mp mapped
  obtain ⟨other, otherStored, otherTenant, rfl⟩ := listed m isListed
  have sameCid : other.cid = row.cid := by
    rw [sound.addressed other otherStored, sound.addressed row stored, same]
  rwa [← sound.unique other otherStored row stored (otherTenant.trans ofTenant.symm) sameCid]

theorem mem_groupByRecord {members : List Message} :
    (recordId, members) ∈ groupByRecord messages ↔
      (∃ m ∈ messages, messageRecordId m = some recordId) ∧
      members = messages.filter fun m => messageRecordId m = some recordId := by
  simp only [groupByRecord, sortTexts, mem_map, mem_insertionSort, mem_dedup,
    mem_filterMap, Prod.mk.injEq]
  constructor
  · rintro ⟨_, found, rfl, rfl⟩
    exact ⟨found, rfl⟩
  · rintro ⟨found, rfl⟩
    exact ⟨_, found, rfl, rfl⟩

theorem Filed.messageRecordId_iff (filed : Filed p row)
    (selected : matchesSet row.indexes set = true)
    (clause : (.interface, stringFilter recordsInterface) ∈ set) :
    messageRecordId row.message = some recordId ↔ StateMessage row.message recordId := by
  refine ⟨fun named => ?_, StateMessage.messageRecordId⟩
  cases filed with
  | write indexed =>
    simp only [messageRecordId, indexed.record] at named
    exact .write indexed.descriptor (indexed.record.trans named)
  | delete bare indexed =>
    simp only [messageRecordId, bare, Message.deleteDescriptor_eq_some.mpr indexed.isDelete] at named
    exact .delete indexed.isDelete bare (Option.some.inj named)
  | configure isConfigure indexed =>
    rw [indexed] at selected
    exact absurd (text_of_matchesSet selected clause rfl) (by decide)

theorem Sound.mem_group (sound : Sound p store)
    (clause : (.interface, stringFilter recordsInterface) ∈ set) :
    m ∈ (store.query tenant [set]).filter (fun m => messageRecordId m = some recordId) ↔
      ∃ row ∈ store, OfRecord tenant recordId row ∧ matchesSet row.indexes set = true ∧
        row.message = m := by
  rw [mem_filter, mem_query_iff sound.filed, decide_eq_true_eq]
  constructor
  · rintro ⟨⟨row, stored, ofTenant, rfl, selected⟩, named⟩
    exact ⟨row, stored, ⟨ofTenant,
      ((sound.filed row stored).messageRecordId_iff selected clause).mp named⟩, selected, rfl⟩
  · rintro ⟨row, stored, ofRecord, selected, rfl⟩
    exact ⟨⟨row, stored, ofRecord.tenant, rfl, selected⟩, ofRecord.state.messageRecordId⟩

structure Squashed (store : MessageStore) (tenant : Did) (message : Message) (d : WriteDescriptor)
    (recordId : String) (row : Row) : Prop where
  squash : d.squash = some true
  inScope : matchesSet row.indexes (siblingFilters d message) = true
  older : ∃ sibling, sibling ≠ recordId ∧ OfRecord tenant sibling row ∧
    ∀ other ∈ store, OfRecord tenant sibling other →
      matchesSet other.indexes (siblingFilters d message) = true →
      other.message.messageTimestamp < d.messageTimestamp

theorem OfRecord.not_squashed (ofRecord : OfRecord tenant recordId row) :
    ¬ Squashed store tenant message d recordId row := by
  rintro ⟨-, -, sibling, other, ofSibling, -⟩
  exact other (ofSibling.state.unique ofRecord.state)

theorem squashed_setEncodedData {data : Option String} :
    Squashed store tenant (setEncodedData message data) d recordId row ↔
      Squashed store tenant message d recordId row :=
  ⟨fun gone => ⟨gone.squash, gone.inScope, gone.older⟩,
    fun gone => ⟨gone.squash, gone.inScope, gone.older⟩⟩

theorem interface_mem_siblingFilters :
    (.interface, stringFilter recordsInterface) ∈ siblingFilters d message := by
  simp [siblingFilters]

theorem Sound.older_group_iff (sound : Sound p store) {sibling : String} (stored : row ∈ store)
    (ofRecord : OfRecord tenant sibling row)
    (inScope : matchesSet row.indexes (siblingFilters d message) = true) {timestamp : Timestamp} :
    (newestMessage p ((store.query tenant [siblingFilters d message]).filter
      (fun m => messageRecordId m = some sibling))).any (·.messageTimestamp < timestamp) = true ↔
      ∀ other ∈ store, OfRecord tenant sibling other →
        matchesSet other.indexes (siblingFilters d message) = true →
        other.message.messageTimestamp < timestamp := by
  have members {m : Message} : m ∈ (store.query tenant [siblingFilters d message]).filter
      (fun m => messageRecordId m = some sibling) ↔ _ :=
    sound.mem_group interface_mem_siblingFilters
  cases found : newestMessage p ((store.query tenant [siblingFilters d message]).filter
      fun m => messageRecordId m = some sibling) with
  | none =>
    have member := members.mpr ⟨row, stored, ofRecord, inScope, rfl⟩
    rw [maxBy_eq_none.mp found] at member
    cases member
  | some newest =>
    obtain ⟨isMember, greatest⟩ := newestMessage_eq_some found
    rw [Option.any_some, decide_eq_true_eq]
    constructor
    · intro older other isStored ofOther selected
      exact (greatest _ (members.mpr ⟨other, isStored, ofOther, selected, rfl⟩)).trans_lt older
    · intro older
      obtain ⟨other, isStored, ofOther, selected, rfl⟩ := members.mp isMember
      exact older other isStored ofOther selected

theorem Sound.mem_squashedCids (sound : Sound p store) (squash : d.squash = some true)
    (stored : row ∈ store) (ofTenant : row.tenant = tenant) :
    row.cid ∈ squashedCids p tenant store message d recordId ↔
      Squashed store tenant message d recordId row := by
  have members {sibling : String} {m : Message} :
      m ∈ (store.query tenant [siblingFilters d message]).filter
        (fun m => messageRecordId m = some sibling) ↔ _ :=
    sound.mem_group interface_mem_siblingFilters
  have cidIff (sibling : String) : row.cid ∈ ((store.query tenant [siblingFilters d message]).filter
      (fun m => messageRecordId m = some sibling)).map p.messageCid ↔ _ :=
    sound.cid_mem_iff (fun m listed => by
      obtain ⟨other, otherStored, ofRecord, -, same⟩ := members.mp listed
      exact ⟨other, otherStored, ofRecord.tenant, same⟩) stored ofTenant
  rw [squashedCids, mem_flatMap]
  constructor
  · rintro ⟨⟨sibling, group⟩, grouped, gone⟩
    obtain ⟨-, rfl⟩ := mem_groupByRecord.mp grouped
    unfold oldSiblingCids at gone
    split at gone
    · rename_i older
      obtain ⟨same, sameStored, ofRecord, isSelected, sameMessage⟩ := members.mp ((cidIff _).mp gone)
      cases sound.eq_of_message sameStored stored (ofRecord.tenant.trans ofTenant.symm) sameMessage
      exact ⟨squash, isSelected, sibling, older.1, ofRecord,
        (sound.older_group_iff stored ofRecord isSelected).mp older.2⟩
    · cases gone
  · rintro ⟨-, isSelected, sibling, other, ofRecord, older⟩
    have member := members.mpr ⟨row, stored, ofRecord, isSelected, rfl⟩
    refine ⟨(sibling, _), mem_groupByRecord.mpr ⟨⟨row.message, (mem_filter.mp member).1,
      ofRecord.state.messageRecordId⟩, rfl⟩, ?_⟩
    rw [oldSiblingCids,
      if_pos ⟨other, (sound.older_group_iff stored ofRecord isSelected).mpr older⟩]
    exact (cidIff sibling).mpr member

structure Revokes (d : WriteDescriptor) (row : Row) : Prop where
  protocol : d.protocol = permissionsProtocolUri
  protocolPath : d.protocolPath = permissionsRevocationPath
  grant : ∃ grantId, d.parentId = some grantId ∧
    row.indexes.lookup .permissionGrantId = some (.string grantId)
  later : d.messageTimestamp ≤ row.message.messageTimestamp

theorem Filed.lookup_permissionGrantId (filed : Filed p row) :
    ∃ grantId : Option String, row.indexes.lookup .permissionGrantId = grantId.map .string := by
  cases filed with
  | write indexed => exact ⟨_, indexed.permissionGrantId⟩
  | delete _ indexed => exact ⟨_, indexed.permissionGrantId⟩
  | @configure d _ _ _ indexed =>
    refine ⟨d.permissionGrantId, ?_⟩
    rw [indexed]
    exact (configureIndexes_indexed d _ _).permissionGrantId

theorem Filed.selected_grant (filed : Filed p row) {grantId : String} :
    matchesSet row.indexes [(.permissionGrantId, stringFilter grantId)] = true ↔
      row.indexes.lookup .permissionGrantId = some (.string grantId) := by
  obtain ⟨named, indexed⟩ := filed.lookup_permissionGrantId
  cases named <;> simp [indexed]

theorem Sound.mem_revokedMessages (sound : Sound p store)
    (isWrite : message.descriptor = .recordsWrite d) :
    m ∈ revokedMessages store tenant message ↔
      ∃ row ∈ store, row.tenant = tenant ∧ Revokes d row ∧ row.message = m := by
  have descriptor : message.writeDescriptor = some d := Message.writeDescriptor_eq_some.mpr isWrite
  by_cases revokes : d.protocol = permissionsProtocolUri ∧ d.protocolPath = permissionsRevocationPath
  · cases parent : d.parentId with
    | none =>
      simp only [revokedMessages, descriptor, revokes, parent]
      constructor
      · intro listed
        simp at listed
      · rintro ⟨_, -, -, ⟨-, -, ⟨_, hasParent, -⟩, -⟩, -⟩
        cases parent.symm.trans hasParent
    | some grantId =>
      have listed : revokedMessages store tenant message =
          (store.query tenant [[(.permissionGrantId, stringFilter grantId)]]).filter
            fun m => d.messageTimestamp ≤ m.messageTimestamp := by
        simp [revokedMessages, descriptor, revokes, parent]
      rw [listed, mem_filter, mem_query_iff sound.filed, decide_eq_true_eq]
      constructor
      · rintro ⟨⟨row, stored, ofTenant, rfl, selected⟩, later⟩
        exact ⟨row, stored, ofTenant, ⟨revokes.1, revokes.2, ⟨grantId, parent,
          (sound.filed row stored).selected_grant.mp selected⟩, later⟩, rfl⟩
      · rintro ⟨row, stored, ofTenant, ⟨-, -, ⟨_, hasParent, indexed⟩, later⟩, rfl⟩
        cases parent.symm.trans hasParent
        exact ⟨⟨row, stored, ofTenant, rfl, (sound.filed row stored).selected_grant.mpr indexed⟩,
          later⟩
  · have none : revokedMessages store tenant message = [] := by
      simp only [revokedMessages, descriptor]
      rw [if_pos (by tauto)]
    rw [none]
    refine ⟨fun listed => (by cases listed), ?_⟩
    rintro ⟨_, -, -, isRevoked, -⟩
    exact absurd ⟨isRevoked.protocol, isRevoked.protocolPath⟩ revokes

theorem Sound.mem_revoked (sound : Sound p store) (isWrite : message.descriptor = .recordsWrite d)
    (stored : row ∈ store) (ofTenant : row.tenant = tenant) :
    row.cid ∈ (revokedMessages store tenant message).map p.messageCid ↔ Revokes d row := by
  have members {m : Message} : m ∈ revokedMessages store tenant message ↔ _ :=
    sound.mem_revokedMessages isWrite
  rw [sound.cid_mem_iff (fun m isListed => by
    obtain ⟨other, otherStored, otherTenant, -, same⟩ := members.mp isListed
    exact ⟨other, otherStored, otherTenant, same⟩) stored ofTenant, members]
  constructor
  · rintro ⟨other, otherStored, otherTenant, isRevoked, same⟩
    cases sound.eq_of_message otherStored stored (otherTenant.trans ofTenant.symm) same
    exact isRevoked
  · exact fun isRevoked => ⟨row, stored, ofTenant, isRevoked, rfl⟩

end

section

variable {stores : Stores} {request : Request} {admitted : AdmittedWrite} {staged : StagedWrite}
  {transition : LatestStateTransition} {committed : MessageStore}

theorem Wrote.sound (sound : Sound p stores.messages)
    (wrote : Wrote p stores request admitted staged transition committed)
    (success : (processMessage p stores request).1.isSuccess = true) : Sound p committed :=
  sound.commit wrote.commits fun mutation mutates =>
    filed_newRow stores request _ (wrote.newRow success mutation mutates)

theorem mem_finishWrite (stores : Stores) (sound : Sound p stores.messages)
    (isWrite : staged.message.descriptor = .recordsWrite d)
    (record : staged.message.recordId = some recordId) (row : Row) :
    row ∈ (finishWrite p tenant admitted staged stores).2.messages ↔
      row ∈ stores.messages ∧ ¬ (row.tenant = tenant ∧
        (Squashed stores.messages tenant staged.message d recordId row ∨ Revokes d row)) := by
  obtain ⟨-, swept, -, squashed, finished⟩ :=
    finishWrite_spec p tenant admitted stores isWrite record
  have soundSwept := squashed.sound sound
  have squashedIff (stored : row ∈ stores.messages) (ofTenant : row.tenant = tenant) :
      row.cid ∈ sweptCids p tenant stores.messages staged.message d recordId ↔
        Squashed stores.messages tenant staged.message d recordId row := by
    unfold sweptCids
    split
    · rename_i squash
      exact sound.mem_squashedCids squash stored ofTenant
    · rename_i plain
      simp only [not_mem_nil, false_iff]
      exact fun isSquashed => plain isSquashed.squash
  rw [finished, removes_postProcessPermissionsWrite, squashed row]
  constructor
  · rintro ⟨⟨stored, kept⟩, unrevoked⟩
    refine ⟨stored, fun ⟨ofTenant, gone⟩ => ?_⟩
    rcases gone with isSquashed | isRevoked
    · exact kept ⟨ofTenant, (squashedIff stored ofTenant).mpr isSquashed⟩
    · exact unrevoked ⟨ofTenant, (soundSwept.mem_revoked isWrite
        ((squashed row).mpr ⟨stored, kept⟩) ofTenant).mpr isRevoked⟩
  · rintro ⟨stored, left⟩
    have kept : ¬ (row.tenant = tenant ∧
        row.cid ∈ sweptCids p tenant stores.messages staged.message d recordId) :=
      fun ⟨ofTenant, gone⟩ => left ⟨ofTenant, .inl ((squashedIff stored ofTenant).mp gone)⟩
    refine ⟨⟨stored, kept⟩, fun ⟨ofTenant, gone⟩ => left ⟨ofTenant, .inr ?_⟩⟩
    exact (soundSwept.mem_revoked isWrite ((squashed row).mpr ⟨stored, kept⟩) ofTenant).mp gone

theorem Wrote.stagedAs (wrote : Wrote p stores request admitted staged transition committed)
    (isWrite : request.message.descriptor = .recordsWrite d)
    (record : request.message.recordId = some recordId) :
    staged.message.descriptor = .recordsWrite d ∧ staged.message.recordId = some recordId := by
  obtain ⟨encodedData, same⟩ := (stageWrite_ok wrote.stages).message
  exact ⟨by rw [same]; exact isWrite, by rw [same]; exact record⟩

section

variable (sound : Sound p stores.messages)
  (isWrite : request.message.descriptor = .recordsWrite d)
  (record : request.message.recordId = some recordId)
  (success : (processMessage p stores request).1.isSuccess = true)
  (wrote : Wrote p stores request admitted staged transition committed)

include sound isWrite record success wrote

theorem Wrote.mem_after (row : Row) :
    row ∈ (finishWrite p request.tenant admitted staged
        { staged.stores with messages := committed }).2.messages ↔
      row ∈ committed ∧ ¬ (row.tenant = request.tenant ∧
        (Squashed committed request.tenant request.message d recordId row ∨ Revokes d row)) := by
  obtain ⟨stagedWrite, stagedRecord⟩ := wrote.stagedAs isWrite record
  obtain ⟨encodedData, same⟩ := (stageWrite_ok wrote.stages).message
  rw [← squashed_setEncodedData, ← same]
  exact mem_finishWrite { staged.stores with messages := committed }
    (wrote.sound sound success) stagedWrite stagedRecord row

theorem Wrote.mem_after_record (ofRecord : OfRecord request.tenant recordId row) :
    row ∈ (finishWrite p request.tenant admitted staged
        { staged.stores with messages := committed }).2.messages ↔
      row ∈ committed ∧ ¬ Revokes d row := by
  rw [wrote.mem_after sound isWrite record success]
  simp [ofRecord.not_squashed, ofRecord.tenant]

end

section

variable (law : p.CollisionFree) (sound : Sound p stores.messages)

include law sound

theorem Wrote.mem_committed_other (record : request.message.recordId = some recordId)
    (wrote : Wrote p stores request admitted staged transition committed)
    (other : ¬ OfRecord request.tenant recordId row) :
    row ∈ committed ↔ row ∈ stores.messages :=
  wrote.replaces.mem_committed_other (wrote.passed record).2 sound wrote.commits law
    (wrote.state record) other

theorem Wrote.squashed_iff (record : request.message.recordId = some recordId)
    (wrote : Wrote p stores request admitted staged transition committed) (row : Row) :
    Squashed committed request.tenant request.message d recordId row ↔
      Squashed stores.messages request.tenant request.message d recordId row := by
  -- The rows of the siblings are those from before the commit.
  have siblings {sibling : String} (other : sibling ≠ recordId) {row : Row}
      (ofSibling : OfRecord request.tenant sibling row) :
      row ∈ committed ↔ row ∈ stores.messages :=
    wrote.mem_committed_other law sound record
      fun ofRecord => other (ofSibling.state.unique ofRecord.state)
  constructor
  · rintro ⟨squash, inScope, sibling, other, ofSibling, older⟩
    exact ⟨squash, inScope, sibling, other, ofSibling, fun row stored ofRow =>
      older row ((siblings other ofRow).mpr stored) ofRow⟩
  · rintro ⟨squash, inScope, sibling, other, ofSibling, older⟩
    exact ⟨squash, inScope, sibling, other, ofSibling, fun row stored ofRow =>
      older row ((siblings other ofRow).mp stored) ofRow⟩

theorem mem_write_other (isWrite : request.message.descriptor = .recordsWrite d)
    (record : request.message.recordId = some recordId)
    (other : ¬ OfRecord request.tenant recordId row) :
    row ∈ (processMessage p stores request).2.messages ↔ row ∈ stores.messages ∧
      ¬ ((processMessage p stores request).1.isSuccess = true ∧ row.tenant = request.tenant ∧
        (Squashed stores.messages request.tenant request.message d recordId row ∨
          Revokes d row)) := by
  by_cases success : (processMessage p stores request).1.isSuccess = true
  · obtain ⟨admitted, staged, transition, committed, wrote, after⟩ :=
      processMessage_write isWrite success
    rw [after, wrote.mem_after sound isWrite record success, wrote.squashed_iff law sound record,
      wrote.mem_committed_other law sound record other]
    simp [success]
  · rw [refused_write_unchanged isWrite success]
    simp [success]

end

end

end Enbox.Proof.Run
