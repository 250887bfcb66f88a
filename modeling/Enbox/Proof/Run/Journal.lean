import Enbox.Proof.Run.Step

/-! # The journal of accepted writes -/

namespace Enbox.Proof.Run

open Lib List

variable {p : Primitives} {stores : Stores} {d : WriteDescriptor} {request : Request}
  {admission initial : Admission} {auth : AuthorizationContext} {row : Row} {recordId : String}
  {key : IndexKey} {tenant : Did} {store : MessageStore}

structure Admission where
  tenant : Did
  message : Message
  author : Did

structure Journal where
  stores : Stores := {}
  accepted : List Admission := []

def admissions (p : Primitives) (stores : Stores) (request : Request) : List Admission :=
  match request.message.descriptor,
    validateAuthorizationSignature p request.resolver request.message true with
  | .recordsWrite _, .ok (some auth) =>
      if (processMessage p stores request).1.isSuccess then
        [⟨request.tenant, request.message, auth.author⟩]
      else []
  | _, _ => []

def Journal.record (p : Primitives) (journal : Journal) (event : Event) : Journal where
  stores := step p journal.stores event
  accepted := journal.accepted ++
    match event with
    | .request request => admissions p journal.stores request
    | .controlPurge _ _ _ => []

theorem entryId_inj (law : p.CollisionFree) {a b : Did} {e : WriteDescriptor}
    (same : p.entryId a d = p.entryId b e) : a = b ∧ d = e := by
  have inputs := law.cid same
  cases inputs
  exact ⟨rfl, rfl⟩

/-! ## Admissions -/

structure Accepts (p : Primitives) (store : MessageStore) (request : Request) (d : WriteDescriptor)
    (auth : AuthorizationContext) (recordId : String) : Prop
    extends Passed p store request auth recordId where
  isWrite : request.message.descriptor = .recordsWrite d
  path : isProtocolPath d.protocolPath = true

theorem mem_admissions (listed : admission ∈ admissions p stores request) :
    ∃ d auth recordId, Accepts p stores.messages request d auth recordId ∧
      admission = ⟨request.tenant, request.message, auth.author⟩ := by
  unfold admissions at listed
  split at listed
  · rename_i d auth isWrite signed
    split at listed
    · rename_i success
      obtain ⟨path, auth', recordId, passed⟩ := passed_of_success isWrite success
      have same : auth' = auth := by
        have both := passed.signed.symm.trans signed
        cases both
        rfl
      subst same
      exact ⟨d, auth', recordId, ⟨passed, isWrite, path⟩, mem_singleton.mp listed⟩
    · cases listed
  · cases listed

theorem admission_mem (isWrite : request.message.descriptor = .recordsWrite d)
    (signed : validateAuthorizationSignature p request.resolver request.message true =
      .ok (some auth)) (success : (processMessage p stores request).1.isSuccess = true) :
    ⟨request.tenant, request.message, auth.author⟩ ∈ admissions p stores request := by
  simp [admissions, isWrite, signed, success]

/-! ## Where a row came from -/

structure WriteOrigin (p : Primitives) (accepted : List Admission) (row : Row)
    (admission : Admission) (d : WriteDescriptor) (recordId : String) (author : Did)
    (latest : Bool) : Prop where
  listed : admission ∈ accepted
  tenant : admission.tenant = row.tenant
  message : ∃ encodedData, row.message = setEncodedData admission.message encodedData
  indexed : IndexedWrite p row.message author latest row.indexes d recordId
  author : author = admission.author ∨ p.isInitialWrite row.message author = true

inductive Origin (p : Primitives) (accepted : List Admission) (row : Row) : Prop
  | write {admission : Admission} {d : WriteDescriptor} {recordId : String} {author : Did}
      {latest : Bool} (origin : WriteOrigin p accepted row admission d recordId author latest)
  | delete {admission : Admission} {initialWrite : Message} {author : Did} {d : DeleteDescriptor}
      {initial : WriteDescriptor} (listed : admission ∈ accepted)
      (bare : row.message.recordId = none)
      (tenant : admission.tenant = row.tenant)
      (record : admission.message.recordId = some d.recordId)
      (indexed : IndexedDelete row.message initialWrite author row.indexes d initial)
  | configure {d : ConfigureDescriptor}
      (isConfigure : row.message.descriptor = .protocolsConfigure d)
      (interface : row.indexes.lookup .interface = some (.string protocolsInterface))
      (recordId : row.indexes.lookup .recordId = none)
      (entryId : row.indexes.lookup .entryId = none)

section

variable {accepted more : List Admission}

section

variable (origin : Origin p accepted row)

include origin

theorem Origin.append : Origin p (accepted ++ more) row := by
  cases origin with
  | write origin =>
    exact .write ⟨mem_append_left _ origin.listed, origin.tenant, origin.message,
      origin.indexed, origin.author⟩
  | delete listed bare tenant record indexed =>
    exact .delete (mem_append_left _ listed) bare tenant record indexed
  | configure isConfigure interface recordId entryId =>
    exact .configure isConfigure interface recordId entryId

theorem Origin.of_isWrite (isWrite : row.message.descriptor = .recordsWrite d) :
    ∃ admission recordId author latest,
      WriteOrigin p accepted row admission d recordId author latest := by
  cases origin with
  | write origin =>
    have same := origin.indexed.descriptor.symm.trans isWrite
    cases same
    exact ⟨_, _, _, _, origin⟩
  | delete _ _ _ _ indexed =>
    rw [indexed.isDelete] at isWrite
    cases isWrite
  | configure isConfigure =>
    rw [isConfigure] at isWrite
    cases isWrite

theorem Origin.of_recordId (indexed : row.indexes.lookup .recordId = some (.string recordId)) :
    ∃ admission ∈ accepted, admission.tenant = row.tenant ∧
      admission.message.recordId = some recordId := by
  cases origin with
  | write origin =>
    have same := origin.indexed.recordId.symm.trans indexed
    cases same
    obtain ⟨encodedData, message⟩ := origin.message
    refine ⟨_, origin.listed, origin.tenant, ?_⟩
    rw [← origin.indexed.record, message]
    rfl
  | delete listed _ tenant record isIndexed =>
    have same := isIndexed.recordId.symm.trans indexed
    cases same
    exact ⟨_, listed, tenant, record⟩
  | configure _ _ noRecord =>
    rw [noRecord] at indexed
    cases indexed

theorem Origin.of_entryId {entryId : String}
    (indexed : row.indexes.lookup .entryId = some (.string entryId)) :
    ∃ admission d recordId author latest,
      WriteOrigin p accepted row admission d recordId author latest ∧
      p.entryId author d = entryId := by
  cases origin with
  | write origin =>
    have same := origin.indexed.entryId.symm.trans indexed
    cases same
    exact ⟨_, _, _, _, _, origin, rfl⟩
  | delete _ _ _ _ isIndexed =>
    rw [isIndexed.entryId] at indexed
    cases indexed
  | configure _ _ _ noEntry =>
    rw [noEntry] at indexed
    cases indexed

theorem Origin.lookup_text (textual : key = .recordId ∨ key = .entryId) :
    row.indexes.lookup key = none ∨ ∃ text, row.indexes.lookup key = some (.string text) := by
  cases origin with
  | write origin =>
    rcases textual with rfl | rfl
    · exact .inr ⟨_, origin.indexed.recordId⟩
    · exact .inr ⟨_, origin.indexed.entryId⟩
  | delete _ _ _ _ indexed =>
    rcases textual with rfl | rfl
    · exact .inr ⟨_, indexed.recordId⟩
    · exact .inl indexed.entryId
  | configure _ _ noRecord noEntry =>
    rcases textual with rfl | rfl
    · exact .inl noRecord
    · exact .inl noEntry

theorem Origin.lookup_selected {set : FilterSet} (selected : matchesSet row.indexes set = true)
    (textual : key = .recordId ∨ key = .entryId) {asked : String}
    (clause : (key, stringFilter asked) ∈ set) :
    row.indexes.lookup key = some (.string asked) := by
  rcases origin.lookup_text textual with none | ⟨text, indexed⟩
  · obtain ⟨value, found, -⟩ := matchesSet_clause selected clause
    rw [none] at found
    cases found
  · rw [indexed, text_of_matchesSet selected clause indexed]

end

end

/-! ## The initial write of a record -/

structure Founds (p : Primitives) (accepted : List Admission) (tenant : Did) (recordId : String)
    (initial : Admission) (d : WriteDescriptor) : Prop where
  listed : initial ∈ accepted
  tenant : initial.tenant = tenant
  isWrite : initial.message.descriptor = .recordsWrite d
  record : initial.message.recordId = some recordId
  entry : p.entryId initial.author d = recordId
  dated : d.messageTimestamp = d.dateCreated

structure Founded (p : Primitives) (accepted : List Admission) (admission : Admission)
    (d : WriteDescriptor) (recordId : String) : Prop where
  isWrite : admission.message.descriptor = .recordsWrite d
  record : admission.message.recordId = some recordId
  path : isProtocolPath d.protocolPath = true
  founded : ∃ initial d₀, Founds p accepted admission.tenant recordId initial d₀ ∧
    changedProperty d₀ d = none

structure History (p : Primitives) (journal : Journal) : Prop where
  origin : ∀ row ∈ journal.stores.messages, Origin p journal.accepted row
  founded : ∀ admission ∈ journal.accepted, ∃ d recordId,
    Founded p journal.accepted admission d recordId

structure SameProperties (d₀ d : WriteDescriptor) : Prop where
  protocol : d₀.protocol = d.protocol
  protocolPath : d₀.protocolPath = d.protocolPath
  parentId : d₀.parentId = d.parentId
  permissionGrantId : d₀.permissionGrantId = d.permissionGrantId
  dateCreated : d₀.dateCreated = d.dateCreated
  squash : d₀.squash = d.squash

theorem changedProperty_eq_none {d₀ : WriteDescriptor} (same : changedProperty d₀ d = none) :
    SameProperties d₀ d := by
  simp only [changedProperty, ne_eq] at same
  constructor <;> grind

section

variable {accepted more : List Admission} {journal : Journal}

theorem Founds.append (founds : Founds p accepted tenant recordId initial d) :
    Founds p (accepted ++ more) tenant recordId initial d :=
  { founds with listed := mem_append_left _ founds.listed }

theorem Founded.append (founded : Founded p accepted admission d recordId) :
    Founded p (accepted ++ more) admission d recordId := by
  obtain ⟨initial, d₀, founds, same⟩ := founded.founded
  exact { founded with founded := ⟨initial, d₀, founds.append, same⟩ }

section

variable (history : History p journal)

include history

theorem History.founded_as (listed : admission ∈ journal.accepted)
    (record : admission.message.recordId = some recordId) :
    ∃ d, Founded p journal.accepted admission d recordId := by
  obtain ⟨d, id, founded⟩ := history.founded admission listed
  cases founded.record.symm.trans record
  exact ⟨d, founded⟩

theorem History.stored (stored : row ∈ journal.stores.messages)
    (isWrite : row.message.descriptor = .recordsWrite d) :
    ∃ admission ∈ journal.accepted, admission.tenant = row.tenant ∧
      (∃ encodedData, row.message = setEncodedData admission.message encodedData) ∧
      ∃ recordId, Founded p journal.accepted admission d recordId ∧
        row.indexes.lookup .recordId = some (.string recordId) := by
  obtain ⟨admission, id, author, latest, origin⟩ := (history.origin row stored).of_isWrite isWrite
  obtain ⟨encodedData, message⟩ := origin.message
  obtain ⟨d', recordId, founded⟩ := history.founded admission origin.listed
  have sameDescriptor : d' = d := by
    have both := founded.isWrite
    rw [← setEncodedData_descriptor admission.message encodedData, ← message, isWrite] at both
    cases both
    rfl
  have sameRecord : recordId = id := by
    have both : row.message.recordId = some recordId := by
      rw [message]
      exact founded.record
    rw [origin.indexed.record] at both
    cases both
    rfl
  subst sameDescriptor sameRecord
  exact ⟨admission, origin.listed, origin.tenant, ⟨encodedData, message⟩, _, founded,
    origin.indexed.recordId⟩

theorem History.stored_as (stored : row ∈ journal.stores.messages)
    (isWrite : row.message.descriptor = .recordsWrite d)
    (record : row.message.recordId = some recordId) :
    ∃ admission ∈ journal.accepted, admission.tenant = row.tenant ∧
      admission.message.contextId = row.message.contextId ∧
      Founded p journal.accepted admission d recordId := by
  obtain ⟨admission, listed, ofTenant, ⟨encodedData, message⟩, id, founded, -⟩ :=
    history.stored stored isWrite
  rw [message] at record ⊢
  cases founded.record.symm.trans record
  exact ⟨admission, listed, ofTenant, rfl, founded⟩

theorem History.retained {message : Message} (isWrite : message.descriptor = .recordsWrite d)
    (found : message ∈ fetchRecordMessages journal.stores.messages tenant recordId) :
    ∃ admission ∈ journal.accepted, admission.tenant = tenant ∧
      (∃ encodedData, message = setEncodedData admission.message encodedData) ∧
      Founded p journal.accepted admission d recordId := by
  obtain ⟨row, stored, rfl, rfl, selected⟩ := mem_query found
  obtain ⟨admission, listed, ofTenant, message, id, founded, indexed⟩ :=
    history.stored stored isWrite
  have sameId : id = recordId := text_of_matchesSet selected (by simp) indexed
  exact ⟨admission, listed, ofTenant, message, sameId ▸ founded⟩

end

theorem Accepts.initialWrite (accepts : Accepts p store request d auth recordId)
    (update : p.isInitialWrite request.message auth.author = false) :
    ∃ initialWrite d₁,
      findInitialWrite p (fetchRecordMessages store request.tenant recordId) = some initialWrite ∧
      initialWrite.descriptor = .recordsWrite d₁ ∧ changedProperty d₁ d = none := by
  have checked := accepts.update
  simp only [verifyUpdate, update, Bool.false_eq_true, if_false, verifyImmutableProperties, ok_iff,
    Message.writeDescriptor_eq_some] at checked
  obtain ⟨initialWrite, found, d₁, isInitial, d', isWrite, unchanged⟩ := checked
  have same := accepts.isWrite.symm.trans isWrite
  cases same
  exact ⟨initialWrite, d₁, found, isInitial, unchanged⟩

theorem update_founded (law : p.CollisionFree) (history : History p journal)
    (accepts : Accepts p journal.stores.messages request d auth recordId)
    (update : p.isInitialWrite request.message auth.author = false) :
    ∃ initial d₀, Founds p journal.accepted request.tenant recordId initial d₀ ∧
      changedProperty d₀ d = none := by
  obtain ⟨initialWrite, d₁, found, isInitial, unchanged⟩ := accepts.initialWrite update
  have own : isOwnInitialWrite p initialWrite = true := by
    simpa using List.find?_some found
  obtain ⟨admission, listed, ofTenant, ⟨encodedData, rfl⟩, founded⟩ :=
    history.retained isInitial (mem_of_find?_eq_some found)
  obtain ⟨initial, d₀, founds, -⟩ := founded.founded
  rw [ofTenant] at founds
  have entry : ∃ author, recordId = p.entryId author d₁ := by
    simp only [isOwnInitialWrite, Bool.and_eq_true] at own
    obtain ⟨e, isWrite, record⟩ := isInitialWrite_iff.mp own.2
    rw [isInitial] at isWrite
    cases isWrite
    have both := founded.record.symm.trans record
    cases both
    exact ⟨_, rfl⟩
  obtain ⟨author, entry⟩ := entry
  have sameDescriptor : d₀ = d₁ := (entryId_inj law (founds.entry.trans entry)).2
  exact ⟨initial, d₀, founds, sameDescriptor ▸ unchanged⟩

theorem initial_founds (accepts : Accepts p store request d auth recordId)
    (initial : p.isInitialWrite request.message auth.author = true) :
    p.entryId auth.author d = recordId ∧ d.messageTimestamp = d.dateCreated ∧
      (d.parentId = none → request.message.contextId = some [recordId]) := by
  obtain ⟨e, isWrite, record⟩ := isInitialWrite_iff.mp initial
  have sameDescriptor := accepts.isWrite.symm.trans isWrite
  cases sameDescriptor
  have sameRecord := accepts.record.symm.trans record
  cases sameRecord
  have checked := accepts.integrity
  simp only [validateRecordsWriteIntegrity, validateInitialWriteIntegrity, initial, if_true,
    Message.writeDescriptorOr_eq_ok, ok_iff] at checked
  obtain ⟨payload, -, id, hasId, _, -, _, -, _, -, e, isWrite', _, dated, context⟩ := checked
  have sameDescriptor := accepts.isWrite.symm.trans isWrite'
  cases sameDescriptor
  have sameRecord := accepts.record.symm.trans hasId
  cases sameRecord
  exact ⟨rfl, dated, context⟩

/-! ## Every run keeps its history -/

theorem founded_of_accepts (law : p.CollisionFree) (history : History p journal)
    (accepts : Accepts p journal.stores.messages request d auth recordId)
    (listed : ⟨request.tenant, request.message, auth.author⟩ ∈ more) :
    Founded p (journal.accepted ++ more) ⟨request.tenant, request.message, auth.author⟩ d
      recordId := by
  refine ⟨accepts.isWrite, accepts.record, accepts.path, ?_⟩
  cases initial : p.isInitialWrite request.message auth.author with
  | true =>
    obtain ⟨entry, dated, -⟩ := initial_founds accepts initial
    exact ⟨_, d, ⟨mem_append_right _ listed, rfl, accepts.isWrite, accepts.record, entry,
      dated⟩, by simp [changedProperty]⟩
  | false =>
    obtain ⟨initial, d₀, founds, unchanged⟩ := update_founded law history accepts initial
    exact ⟨initial, d₀, founds.append, unchanged⟩

theorem origin_of_newRow (history : History p journal) (new : NewRow p journal.stores request row) :
    Origin p (journal.accepted ++ admissions p journal.stores request) row := by
  cases new with
  | written passed success indexed =>
    obtain ⟨d, id, isIndexed⟩ := recordsWriteIndexes_ok indexed
    have listed := admission_mem isIndexed.descriptor passed.signed success
    exact .write ⟨mem_append_right _ listed, rfl, ⟨_, rfl⟩, isIndexed, .inl rfl⟩
  | kept kept =>
    obtain ⟨old, stored, ofTenant, author, initial, message, indexed⟩ := kept
    obtain ⟨d, id, isIndexed⟩ := recordsWriteIndexes_ok indexed
    have isWrite : old.message.descriptor = .recordsWrite d := by
      rw [message] at isIndexed
      exact isIndexed.descriptor
    obtain ⟨admission, _, _, _, origin⟩ := (history.origin old stored).of_isWrite isWrite
    obtain ⟨encodedData, same⟩ := origin.message
    refine .write ⟨mem_append_left _ origin.listed, origin.tenant.trans ofTenant, ⟨none, ?_⟩,
      isIndexed, .inr ?_⟩
    · rw [rowOf, message, same, setEncodedData_setEncodedData]
    · rw [rowOf, message, isInitialWrite_setEncodedData]
      exact initial
  | deleted isDelete bare found indexed =>
    obtain ⟨d, initial, isIndexed⟩ := recordsDeleteIndexes_ok indexed
    have same := isDelete.symm.trans isIndexed.isDelete
    cases same
    obtain ⟨admission, listed, ofTenant, -, founded⟩ := history.retained isIndexed.isWrite found
    exact .delete (mem_append_left _ listed) bare ofTenant founded.record isIndexed
  | @configured _ d author latest isConfigure =>
    have indexed := configureIndexes_indexed d author latest
    exact .configure isConfigure indexed.interface indexed.recordId indexed.entryId

theorem History.step (law : p.CollisionFree) (history : History p journal) (event : Event) :
    History p (journal.record p event) := by
  cases event with
  | controlPurge tenant recordId dataCids =>
    refine ⟨fun row stored => ?_, fun admission listed => ?_⟩
    · have old := (removes_performControlPurge p tenant journal.stores recordId dataCids).mem stored
      exact (history.origin row old).append
    · obtain ⟨d, id, founded⟩ := history.founded admission (by simpa [Journal.record] using listed)
      exact ⟨d, id, founded.append⟩
  | request request =>
    refine ⟨fun row stored => ?_, fun admission listed => ?_⟩
    · rcases mem_processMessage stored with old | new
      · exact (history.origin row old).append
      · exact origin_of_newRow history new
    · rcases mem_append.mp listed with old | new
      · obtain ⟨d, id, founded⟩ := history.founded admission old
        exact ⟨d, id, founded.append⟩
      · obtain ⟨d, auth, recordId, accepts, rfl⟩ := mem_admissions new
        exact ⟨d, recordId, founded_of_accepts law history accepts new⟩

theorem history_of_reaches (law : p.CollisionFree) {allowed : Journal → Event → Prop}
    (reached : Reaches (Journal.record p) allowed {} journal) : History p journal := by
  refine reached.invariant ⟨fun row stored => ?_, fun admission listed => ?_⟩
    fun journal event history _ => history.step law event
  · cases stored
  · cases listed

end

end Enbox.Proof.Run
