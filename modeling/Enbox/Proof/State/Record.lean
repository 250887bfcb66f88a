import Enbox.Proof.Run.Latest
import Enbox.Proof.State.InitialWrite

/-! # The history of one record -/

namespace Enbox.Proof.State

open Lib Run List Enbox.Message

variable {tenant author : Did} {recordId : String} {after before store : MessageStore} {row : Row}
  {cid : Cid} {p : Primitives} {stores : Stores} {request : Request} {d : WriteDescriptor}
  {auth : AuthorizationContext} {keeps : Message → Prop} {messages : List Message} {top : Message}
  {requests : List Request}

/-! ## What is retained of a record -/

def retained (store : MessageStore) (tenant : Did) (recordId : String) : Set Cid :=
  {cid | ∃ row ∈ store, OfRecord tenant recordId row ∧ row.cid = cid}

def latest (store : MessageStore) (tenant : Did) (recordId : String) : Set Cid :=
  {cid | ∃ row ∈ store, OfRecord tenant recordId row ∧ IsLatest row ∧ row.cid = cid}

def SameRows (tenant : Did) (recordId : String) (after before : MessageStore) : Prop :=
  ∀ row, OfRecord tenant recordId row → (row ∈ after ↔ row ∈ before)

theorem SameRows.of_eq (unchanged : after = before) : SameRows tenant recordId after before :=
  fun row _ => by rw [unchanged]

theorem SameRows.retained (same : SameRows tenant recordId after before) :
    retained after tenant recordId = retained before tenant recordId := by
  ext cid
  exact exists_congr fun row => and_congr_left fun ⟨ofRecord, _⟩ => same row ofRecord

theorem SameRows.latest (same : SameRows tenant recordId after before) :
    latest after tenant recordId = latest before tenant recordId := by
  ext cid
  exact exists_congr fun row => and_congr_left fun ⟨ofRecord, _⟩ => same row ofRecord

def isOfRecord (tenant : Did) (recordId : String) (row : Row) : Bool :=
  row.tenant = tenant && match row.message.descriptor with
    | .recordsWrite _ => row.message.recordId = some recordId
    | .recordsDelete d => row.message.recordId = none && d.recordId = recordId
    | _ => false

theorem isOfRecord_iff :
    isOfRecord tenant recordId row = true ↔ OfRecord tenant recordId row := by
  constructor
  · intro checked
    simp only [isOfRecord, Bool.and_eq_true, decide_eq_true_eq] at checked
    obtain ⟨ofTenant, checked⟩ := checked
    refine ⟨ofTenant, ?_⟩
    split at checked
    · exact .write ‹_› (of_decide_eq_true checked)
    · simp only [Bool.and_eq_true, decide_eq_true_eq] at checked
      exact .delete ‹_› checked.1 checked.2
    · cases checked
  · rintro ⟨ofTenant, ⟨isWrite, record⟩ | ⟨isDelete, bare, record⟩⟩
    · simp [isOfRecord, ofTenant, isWrite, record]
    · simp [isOfRecord, ofTenant, isDelete, bare, record]

def retainedCids (store : MessageStore) (tenant : Did) (recordId : String) : List Cid :=
  (store.filter (isOfRecord tenant recordId)).map (·.cid)

def latestCids (store : MessageStore) (tenant : Did) (recordId : String) : List Cid :=
  (store.filter fun row => isOfRecord tenant recordId row &&
    row.indexes.lookup .isLatestBaseState = some (.bool true)).map (·.cid)

theorem mem_retainedCids :
    cid ∈ retained store tenant recordId ↔ cid ∈ retainedCids store tenant recordId := by
  simp [retained, retainedCids, isOfRecord_iff, and_assoc]

theorem latest_eq_of_cids {l : List Cid} (listed : latestCids store tenant recordId = l) :
    latest store tenant recordId = {cid | cid ∈ l} := by
  simp [← listed, latest, latestCids, isOfRecord_iff, IsLatest, and_assoc]

theorem not_ofRecord_of_cids (absent : retainedCids store tenant recordId = []) :
    ∀ row ∈ store, ¬ OfRecord tenant recordId row := by
  intro row stored ofRecord
  have listed := mem_retainedCids.mp ⟨row, stored, ofRecord, rfl⟩
  rw [absent] at listed
  cases listed

def Outranked (p : Primitives) (tenant : Did) (recordId : String) (stores : Stores)
    (request : Request) : Prop :=
  ∃ row ∈ stores.messages, OfRecord tenant recordId row ∧
    rank p request.message ≤ rank p row.message

theorem Outranked.unchanged (sound : Sound p stores.messages)
    (outranked : Outranked p request.tenant recordId stores request)
    (state : StateMessage request.message recordId) :
    (processMessage p stores request).2.messages = stores.messages := by
  obtain ⟨row, stored, ofRecord, below⟩ := outranked
  rcases processMessage_cases p stores request with unchanged |
      ⟨transition, committed, cids, kind, -⟩
  · exact unchanged
  · exfalso
    rcases kind.replaces with ⟨_, _, _, state', replaces, -⟩ | ⟨⟨_, isConfigure⟩, -⟩
    · cases state'.unique state
      exact (replaces.outranks_row rfl sound stored ofRecord).not_ge below
    · exact not_stateMessage_configure isConfigure state

/-! ## Accepted writes -/

def sentWithData (p : Primitives) (request : Request) : Bool :=
  (request.data <|> encodedDataBytes p request.message).isSome

theorem BuildsWrite.latest_iff {admitted : AdmittedWrite} {staged : StagedWrite}
    {transition : LatestStateTransition}
    (built : BuildsWrite p stores request admitted staged transition) :
    staged.isLatestBaseState = true ↔
      (p.isInitialWrite request.message admitted.auth.author = true →
        sentWithData p request = true) := by
  obtain ⟨_, -, staging⟩ := stageWrite_cases built.stages
  have isSent : sentWithData p request = (supplied p request).isSome := rfl
  cases staging with
  | inline sent | stored sent => simp [isSent, sent]
  | missing unsent isInitial => simp [isSent, unsent, isInitial]
  | reused _ update => simp [update]

theorem passed_of_accepted (isWrite : request.message.descriptor = .recordsWrite d)
    (record : request.message.recordId = some recordId) (accepted : Accepted p stores request) :
    ∃ auth, Passed p stores.messages request auth recordId := by
  obtain ⟨admitted, staged, transition, committed, wrote, -⟩ :=
    processMessage_write isWrite accepted
  exact ⟨admitted.auth, (wrote.passed record).1⟩

theorem existing_of_passed (sound : Sound p stores.messages)
    (isWrite : request.message.descriptor = .recordsWrite d)
    (passed : Passed p stores.messages request auth recordId)
    (update : p.isInitialWrite request.message auth.author = false) :
    ∃ row ∈ stores.messages, OfRecord request.tenant recordId row ∧
      isOwnInitialWrite p row.message = true ∧
      ∃ d₀, row.message.descriptor = .recordsWrite d₀ ∧ changedProperty d₀ d = none := by
  have checked := passed.update
  simp only [verifyUpdate, update, Bool.false_eq_true, if_false, verifyImmutableProperties, ok_iff,
    writeDescriptor_eq_some] at checked
  obtain ⟨initialWrite, found, d₀, isFound, d', isWrite', unchanged⟩ := checked
  cases isWrite.symm.trans isWrite'
  obtain ⟨row, stored, ofRecord, rfl⟩ :=
    sound.mem_fetchRecordMessages.mp (mem_of_find?_eq_some found)
  exact ⟨row, stored, ofRecord, List.find?_some found, d₀, isFound, unchanged⟩

structure PutBy (p : Primitives) (request : Request) (recordId : String) (put : Row) : Prop where
  cid : put.cid = p.messageCid request.message
  ofRecord : OfRecord request.tenant recordId put
  same : setEncodedData put.message none = setEncodedData request.message none
  filed : Filed p put

section

variable (law : p.CollisionFree) (sound : Sound p stores.messages)
  (isWrite : request.message.descriptor = .recordsWrite d)
  (record : request.message.recordId = some recordId)

include sound isWrite record

theorem accepted_outranks (accepted : Accepted p stores request) (stored : row ∈ stores.messages)
    (ofRecord : OfRecord request.tenant recordId row) :
    rank p row.message < rank p request.message := by
  obtain ⟨admitted, staged, transition, committed, wrote, -⟩ :=
    processMessage_write isWrite accepted
  exact wrote.outranks sound record stored ofRecord

theorem initial_or_updates (accepted : Accepted p stores request) :
    ∃ author, requestAuthor p request = some author ∧
      (p.isInitialWrite request.message author = true ∨
        ∃ old ∈ stores.messages, OfRecord request.tenant recordId old ∧
          ∃ e, old.message.descriptor = .recordsWrite e ∧
            e.messageTimestamp ≤ d.messageTimestamp) := by
  obtain ⟨auth, passed⟩ := passed_of_accepted isWrite record accepted
  refine ⟨auth.author, requestAuthor_of_passed passed, ?_⟩
  by_cases isInitial : p.isInitialWrite request.message auth.author = true
  · exact .inl isInitial
  · obtain ⟨old, stored, ofOld, -, e, isOld, -⟩ :=
      existing_of_passed sound isWrite passed (Bool.not_eq_true _ ▸ isInitial)
    have below := timestamp_le_of_rank_le (by rw [isOld, isWrite]; rfl)
      (accepted_outranks sound isWrite record accepted stored ofOld).le
    simp only [messageTimestamp, isOld, isWrite, Descriptor.messageTimestamp] at below
    exact .inr ⟨old, stored, ofOld, e, isOld, below⟩

include law

theorem accepted_write_rows (accepted : Accepted p stores request)
    (by_ : requestAuthor p request = some author) :
    ∃ put, PutBy p request recordId put ∧
      (IsLatest put ↔
        (p.isInitialWrite request.message author = true → sentWithData p request = true)) ∧
      (∀ row ∈ stores.messages, OfRecord request.tenant recordId row →
        rank p row.message < rank p request.message) ∧
      ∀ row, OfRecord request.tenant recordId row →
        (row ∈ (processMessage p stores request).2.messages ↔
          (row = put ∨ ∃ old ∈ stores.messages, OfRecord request.tenant recordId old ∧
            p.isInitialWrite old.message author = true ∧ KeptAs p author old row) ∧
          ¬ Revokes d row) := by
  obtain ⟨admitted, staged, transition, committed, wrote, after⟩ :=
    processMessage_write isWrite accepted
  obtain ⟨passed, -⟩ := wrote.passed record
  obtain ⟨encodedData, same⟩ := wrote.put
  have isAuthor : admitted.auth.author = author := by
    rw [requestAuthor_of_passed passed] at by_
    exact Option.some.inj by_
  have indexed := wrote.indexedPut isWrite record
  refine ⟨rowOf p request.tenant transition.put, ⟨by rw [rowOf, same]; rfl,
    ⟨rfl, wrote.state record⟩, by rw [rowOf, same]; rfl, .write indexed⟩, ?_,
    fun row => accepted_outranks sound isWrite record accepted, fun row ofRecord => ?_⟩
  · rw [← isAuthor, ← BuildsWrite.latest_iff wrote.toBuildsWrite, IsLatest]
    change transition.put.indexes.lookup .isLatestBaseState = _ ↔ _
    simp [indexed.isLatestBaseState]
  · rw [after, wrote.mem_after_record sound isWrite record accepted ofRecord,
      wrote.mem_committed law sound record, isAuthor]
    refine and_congr_left' (or_congr_right ?_)
    exact or_iff_left fun outside => outside.2 ofRecord

theorem write_row_message (stored : row ∈ (processMessage p stores request).2.messages)
    (ofRecord : OfRecord request.tenant recordId row) :
    (Accepted p stores request ∧
      setEncodedData row.message none = setEncodedData request.message none) ∨
    ∃ old ∈ stores.messages, OfRecord request.tenant recordId old ∧
      setEncodedData row.message none = setEncodedData old.message none := by
  by_cases accepted : Accepted p stores request
  · obtain ⟨auth, passed⟩ := passed_of_accepted isWrite record accepted
    obtain ⟨put, isPut, -, -, rows⟩ := accepted_write_rows law sound isWrite record accepted
      (requestAuthor_of_passed passed)
    obtain ⟨rfl | ⟨old, oldStored, ofOld, -, kept⟩, -⟩ := (rows row ofRecord).mp stored
    · exact .inl ⟨accepted, isPut.same⟩
    · exact .inr ⟨old, oldStored, ofOld, by rw [kept.message, setEncodedData_setEncodedData]⟩
  · rw [refused_write_unchanged isWrite accepted] at stored
    exact .inr ⟨row, stored, ofRecord, rfl⟩

end

theorem squash_of_passed (isWrite : request.message.descriptor = .recordsWrite d)
    (ordinary : ControlKind.fromProtocolPath d.protocolPath = none)
    (passed : Passed p stores.messages request auth recordId) (isSquash : d.squash = some true) :
    p.isInitialWrite request.message auth.author = true ∧
      ∃ policy, resolvePolicy p stores.messages request.tenant request.message auth.author =
        .ok policy ∧ policy.ruleSet.squash = some true := by
  have checked := passed.references
  simp only [validateReferentialIntegrity, writeDescriptorOr_eq_ok.mpr isWrite, ok_bind,
    ordinary, validateOrdinaryIntegrity, ok_iff] at checked
  obtain ⟨policy, resolved, _, -, _, -, _, -, _, squash, -⟩ := checked
  exact ⟨(squash isSquash).2, policy, resolved, (squash isSquash).1⟩

theorem accepted_delete_rows (law : p.CollisionFree) (sound : Sound p stores.messages)
    {d : DeleteDescriptor} (isDelete : request.message.descriptor = .recordsDelete d)
    (accepted : Accepted p stores request) :
    ∃ put, PutBy p request d.recordId put ∧ IsLatest put ∧
      (∀ row ∈ stores.messages, OfRecord request.tenant d.recordId row →
        rank p row.message < rank p request.message) ∧
      (∃ row ∈ stores.messages, OfRecord request.tenant d.recordId row) ∧
      ∀ row, OfRecord request.tenant d.recordId row →
        (row ∈ (processMessage p stores request).2.messages ↔
          row = put ∨ ∃ old ∈ stores.messages, OfRecord request.tenant d.recordId old ∧
            isOwnInitialWrite p old.message = true ∧
            KeptAs p ((messageAuthor p old.message).getD "") old row) := by
  obtain ⟨admitted, author, transition, cids, committed, pruned, deleted, prunes, after⟩ :=
    processMessage_delete isDelete accepted
  have same := (prepareRecordsDeleteTransition_ok deleted.isDelete deleted.builds).1
  obtain ⟨e, initial, indexed⟩ := recordsDeleteIndexes_ok deleted.indexed
  obtain ⟨old, stored, ofOld, -⟩ := deleted.target sound
  refine ⟨rowOf p request.tenant transition.put, ⟨by rw [rowOf, same], ⟨rfl, deleted.state⟩,
    by rw [rowOf, same], ?_⟩, ?_,
    fun row stored ofRecord => deleted.outranks sound stored ofRecord, ⟨old, stored, ofOld⟩,
    fun row ofRecord => ?_⟩
  · rw [same]
    exact .delete deleted.bare indexed
  · exact indexed.isLatestBaseState
  · rw [after, deleted.mem_after_record law sound prunes ofRecord,
      deleted.mem_committed law sound]
    exact or_congr_right (or_iff_left fun outside => outside.2 ofRecord)

structure Replaced (p : Primitives) (stores : Stores) (request : Request) (recordId : String)
    (keeps : Message → Prop) (isLatest : Prop) : Prop where
  outranks : ∀ row ∈ stores.messages, OfRecord request.tenant recordId row →
    rank p row.message < rank p request.message
  retainedIs : retained (processMessage p stores request).2.messages request.tenant recordId =
    insert (p.messageCid request.message) {cid | ∃ row ∈ stores.messages,
      OfRecord request.tenant recordId row ∧ keeps row.message ∧ row.cid = cid}
  latestIs : latest (processMessage p stores request).2.messages request.tenant recordId =
    {cid | cid = p.messageCid request.message ∧ isLatest}

theorem replaced_of_rows {isLatest : Prop} {put : Row} (keptAs : Message → Did)
    (isPut : PutBy p request recordId put) (putLatest : IsLatest put ↔ isLatest)
    (initial : ∀ m, keeps m → ∃ author, p.isInitialWrite m author = true)
    (outranks : ∀ row ∈ stores.messages, OfRecord request.tenant recordId row →
      rank p row.message < rank p request.message)
    (rows : ∀ row, OfRecord request.tenant recordId row →
      (row ∈ (processMessage p stores request).2.messages ↔
        row = put ∨ ∃ old ∈ stores.messages, OfRecord request.tenant recordId old ∧
          keeps old.message ∧ KeptAs p (keptAs old.message) old row)) :
    Replaced p stores request recordId keeps isLatest := by
  refine ⟨outranks, Set.ext fun cid => ⟨?_, ?_⟩, Set.ext fun cid => ⟨?_, ?_⟩⟩
  · rintro ⟨row, stored, ofRecord, rfl⟩
    rcases (rows row ofRecord).mp stored with rfl | ⟨old, oldStored, ofOld, keeps, kept⟩
    · exact .inl isPut.cid
    · exact .inr ⟨old, oldStored, ofOld, keeps, kept.cid.symm⟩
  · rintro (rfl | ⟨old, oldStored, ofOld, keeps, rfl⟩)
    · exact ⟨put, (rows put isPut.ofRecord).mpr (.inl rfl), isPut.ofRecord, isPut.cid⟩
    · obtain ⟨author, isInitial⟩ := initial _ keeps
      obtain ⟨d, isWrite, record⟩ := isInitialWrite_iff.mp isInitial
      obtain ⟨row, kept⟩ := exists_keptAs p isWrite record (keptAs old.message)
      have ofRecord := kept.ofRecord.mpr ofOld
      exact ⟨row, (rows row ofRecord).mpr (.inr ⟨old, oldStored, ofOld, keeps, kept⟩), ofRecord,
        kept.cid⟩
  · rintro ⟨row, stored, ofRecord, latest, rfl⟩
    rcases (rows row ofRecord).mp stored with rfl | ⟨old, -, -, -, kept⟩
    · exact ⟨isPut.cid, putLatest.mp latest⟩
    · exact absurd latest kept.stale
  · rintro ⟨rfl, latest⟩
    exact ⟨put, (rows put isPut.ofRecord).mpr (.inl rfl), isPut.ofRecord, putLatest.mpr latest,
      isPut.cid⟩

theorem accepted_write_replaced (law : p.CollisionFree) (sound : Sound p stores.messages)
    (isWrite : request.message.descriptor = .recordsWrite d)
    (record : request.message.recordId = some recordId) (accepted : Accepted p stores request)
    (by_ : requestAuthor p request = some author)
    (unrevoked : revokesGrantOf request.message request = false)
    (keptUnrevoked : ∀ row ∈ stores.messages, OfRecord request.tenant recordId row →
      p.isInitialWrite row.message author = true → revokesGrantOf row.message request = false) :
    Replaced p stores request recordId (fun m => p.isInitialWrite m author = true)
      (p.isInitialWrite request.message author = true → sentWithData p request = true) := by
  obtain ⟨put, isPut, putLatest, outranks, rows⟩ :=
    accepted_write_rows law sound isWrite record accepted by_
  refine replaced_of_rows (fun _ => author) isPut putLatest (fun m isInitial =>
    ⟨author, isInitial⟩) outranks fun row ofRecord => ?_
  rw [rows row ofRecord]
  refine and_iff_left_of_imp ?_
  rintro (rfl | ⟨old, stored, ofOld, isInitial, kept⟩) revokes
  · rw [revokes_iff isPut.filed isPut.same isWrite isWrite, unrevoked] at revokes
    cases revokes
  · obtain ⟨d₀, isOld, -⟩ := isInitialWrite_iff.mp isInitial
    obtain ⟨e, id, indexed⟩ := recordsWriteIndexes_ok kept.indexed
    rw [revokes_iff (.write indexed) (by rw [kept.message]; rfl) isOld isWrite,
      keptUnrevoked old stored ofOld isInitial] at revokes
    cases revokes

theorem accepted_delete_replaced (law : p.CollisionFree) (sound : Sound p stores.messages)
    {d : DeleteDescriptor} (isDelete : request.message.descriptor = .recordsDelete d)
    (accepted : Accepted p stores request) :
    Replaced p stores request d.recordId (fun m => isOwnInitialWrite p m = true) True := by
  obtain ⟨put, isPut, putLatest, outranks, -, rows⟩ :=
    accepted_delete_rows law sound isDelete accepted
  refine replaced_of_rows (fun m => (messageAuthor p m).getD "") isPut
    (iff_true_intro putLatest) (fun m own => ?_) outranks rows
  simp only [isOwnInitialWrite, Bool.and_eq_true] at own
  exact ⟨_, own.2⟩

/-! ## A record and its messages -/

structure Founding (p : Primitives) (tenant : Did) (recordId : String) (author : Did)
    (initial : Request) : Prop where
  tenant : initial.tenant = tenant
  record : initial.message.recordId = some recordId
  isInitial : p.isInitialWrite initial.message author = true
  signed : requestAuthor p initial = some author
  own : isOwnInitialWrite p initial.message = true
  unrevoked : revokesGrantOf initial.message initial = false

structure Later (p : Primitives) (tenant : Did) (recordId : String) (author : Did)
    (request : Request) : Prop where
  on : OnRecord tenant recordId request
  update : ∀ d, request.message.descriptor = .recordsWrite d →
    requestAuthor p request = some author ∧ p.isInitialWrite request.message author = false

def onRecord (tenant : Did) (recordId : String) (request : Request) : Bool :=
  request.tenant = tenant && messageRecordId request.message = some recordId

inductive Follows (p : Primitives) (tenant : Did) (recordId : String) (author : Did)
    (initial : Request) (stores : Stores) (request : Request) : Prop
  | founds (same : request = initial) (accepted : Accepted p stores request)
  | later (later : Later p tenant recordId author request)
      (answered : Accepted p stores request ∨ Outranked p tenant recordId stores request)
  | beside (other : onRecord tenant recordId request = false)
      (kept : SameRows tenant recordId (processMessage p stores request).2.messages
        stores.messages)

def received (tenant : Did) (recordId : String) (requests : List Request) : List Message :=
  (requests.filter (onRecord tenant recordId)).map (·.message)

structure Settled (p : Primitives) (tenant : Did) (recordId : String) (initial : Request)
    (received : List Message) (store : MessageStore) (top : Message) : Prop where
  listed : top ∈ received
  founded : initial.message ∈ received
  greatest : ∀ m ∈ received, rank p m ≤ rank p top
  plain : p.messageCid top = p.messageCid initial.message ∨
    ∀ author, p.isInitialWrite top author = false
  retainedIs : retained store tenant recordId = {p.messageCid initial.message, p.messageCid top}
  latestIs : latest store tenant recordId = {cid | cid = p.messageCid top ∧
    (p.messageCid top = p.messageCid initial.message → sentWithData p initial = true)}

inductive Stands (p : Primitives) (tenant : Did) (recordId : String) (initial : Request)
    (received : List Message) (store : MessageStore) : Prop
  | fresh (none : received = []) (empty : retained store tenant recordId = ∅)
  | settled {top : Message} (settled : Settled p tenant recordId initial received store top)

section

variable {initial : Request}

theorem onRecord_of_on (on : OnRecord tenant recordId request) :
    onRecord tenant recordId request = true := by
  simp [onRecord, on.tenant, on.state.messageRecordId]

theorem Founding.on (founding : Founding p tenant recordId author initial) :
    OnRecord tenant recordId initial := by
  obtain ⟨d, isWrite, -⟩ := isInitialWrite_iff.mp founding.isInitial
  exact ⟨founding.tenant, .write isWrite founding.record⟩

section

variable (law : p.CollisionFree) (founding : Founding p tenant recordId author initial)

include law founding

theorem Founding.unique {m : Message} {other : Did} (record : m.recordId = some recordId)
    (isInitial : p.isInitialWrite m other = true) :
    other = author ∧ m.descriptor = initial.message.descriptor := by
  obtain ⟨d₀, isFounding, founds⟩ := isInitialWrite_iff.mp founding.isInitial
  obtain ⟨d, isWrite, entry⟩ := isInitialWrite_iff.mp isInitial
  rw [founding.record] at founds
  rw [record] at entry
  obtain ⟨rfl, rfl⟩ := entryId_inj law (Option.some.inj (entry.symm.trans founds))
  exact ⟨rfl, isWrite.trans isFounding.symm⟩

theorem Founding.unchanged (sound : Sound p stores.messages) {d₀ : WriteDescriptor}
    (isFounding : initial.message.descriptor = .recordsWrite d₀)
    (isWrite : request.message.descriptor = .recordsWrite d)
    (passed : Passed p stores.messages request auth recordId)
    (update : p.isInitialWrite request.message auth.author = false) :
    changedProperty d₀ d = none ∧ ∃ row ∈ stores.messages, OfRecord request.tenant recordId row := by
  obtain ⟨row, stored, ofRecord, own, d₁, isRow, unchanged⟩ :=
    existing_of_passed sound isWrite passed update
  have record := own_recordId own ofRecord.state
  simp only [isOwnInitialWrite, Bool.and_eq_true] at own
  have same := (founding.unique law record own.2).2
  rw [isRow, isFounding] at same
  cases same
  exact ⟨unchanged, row, stored, ofRecord⟩

theorem Founding.update_unrevoked (sound : Sound p stores.messages)
    (later : Later p tenant recordId author request)
    (isWrite : request.message.descriptor = .recordsWrite d) (accepted : Accepted p stores request) :
    revokesGrantOf request.message request = false ∧
    revokesGrantOf initial.message request = false ∧
    ∃ row ∈ stores.messages, OfRecord tenant recordId row := by
  obtain ⟨d₀, isFounding, -⟩ := isInitialWrite_iff.mp founding.isInitial
  obtain ⟨signed, update⟩ := later.update d isWrite
  have record : request.message.recordId = some recordId := by
    rcases later.on.state with ⟨-, record⟩ | ⟨isDelete, -⟩
    · exact record
    · cases isWrite.symm.trans isDelete
  obtain ⟨auth, passed⟩ := passed_of_accepted isWrite record accepted
  have isAuthor := Option.some.inj ((requestAuthor_of_passed passed).symm.trans signed)
  obtain ⟨unchanged, row, stored, ofRecord⟩ :=
    founding.unchanged law sound isFounding isWrite passed (isAuthor ▸ update)
  have same := changedProperty_eq_none unchanged
  -- The initial write revokes no grant of its own, and the update names the same grant and parent.
  have unrevoked := founding.unrevoked
  simp only [revokesGrantOf, writeDescriptor_eq_some.mpr isFounding,
    writeDescriptor_eq_some.mpr isWrite, Option.any_some, Option.bind_some, same.protocol,
    same.protocolPath, same.parentId, same.permissionGrantId, messageTimestamp,
    Descriptor.messageTimestamp, isFounding, isWrite, le_refl, decide_true, Bool.and_true] at unrevoked ⊢
  exact ⟨unrevoked, by rw [unrevoked, Bool.false_and], row, stored, later.on.tenant ▸ ofRecord⟩

end

section

variable (law : p.CollisionFree) (sound : Sound p store)
  (settled : Settled p tenant recordId initial messages store top)

include law sound settled

omit law in
theorem Settled.exists_row (listed : cid = p.messageCid initial.message ∨ cid = p.messageCid top) :
    ∃ row ∈ store, OfRecord tenant recordId row ∧ p.messageCid row.message = cid := by
  have isRetained : cid ∈ retained store tenant recordId := by
    rwa [settled.retainedIs]
  obtain ⟨row, stored, ofRecord, rfl⟩ := isRetained
  exact ⟨row, stored, ofRecord, (sound.addressed row stored).symm⟩

theorem Settled.row_message (stored : row ∈ store) (ofRecord : OfRecord tenant recordId row) :
    setEncodedData row.message none = setEncodedData initial.message none ∨
      setEncodedData row.message none = setEncodedData top none := by
  have listed : row.cid ∈ retained store tenant recordId := ⟨row, stored, ofRecord, rfl⟩
  rw [settled.retainedIs, sound.addressed row stored] at listed
  exact listed.imp (messageCid_inj law) (messageCid_inj law)

theorem Settled.rank_le (stored : row ∈ store) (ofRecord : OfRecord tenant recordId row) :
    rank p row.message ≤ rank p top := by
  rw [← rank_setEncodedData p row.message none]
  rcases settled.row_message law sound stored ofRecord with same | same
  · rw [same, rank_setEncodedData]
    exact settled.greatest _ settled.founded
  · rw [same, rank_setEncodedData]

end

section

variable (law : p.CollisionFree) (sound : Sound p stores.messages)

include law sound

theorem Settled.accepted (founding : Founding p tenant recordId author initial)
    (settled : Settled p tenant recordId initial messages stores.messages top)
    (on : OnRecord tenant recordId request)
    (replaced : Replaced p stores request recordId keeps True)
    (plain : ∀ author, p.isInitialWrite request.message author = false)
    (congr : ∀ a b : Message, setEncodedData a none = setEncodedData b none → (keeps a ↔ keeps b))
    (keepsInitial : keeps initial.message)
    (keepsOnly : ∀ m, keeps m → ∃ author, p.isInitialWrite m author = true) :
    Settled p tenant recordId initial (messages ++ [request.message])
      (processMessage p stores request).2.messages request.message := by
  obtain ⟨rfl, state⟩ := on
  have notInitial : p.messageCid request.message ≠ p.messageCid initial.message := by
    intro same
    have isInitial := founding.isInitial
    rw [← isInitialWrite_setEncodedData p _ none, ← messageCid_inj law same,
      isInitialWrite_setEncodedData, plain] at isInitial
    cases isInitial
  have above (m : Message) (listed : m ∈ messages) : rank p m ≤ rank p request.message := by
    obtain ⟨row, stored, ofRecord, cid⟩ := settled.exists_row sound (.inr rfl)
    refine ((settled.greatest m listed).trans_lt ?_).le
    rw [← rank_congr law cid]
    exact replaced.outranks row stored ofRecord
  refine ⟨by simp, mem_append_left _ settled.founded, fun m listed => ?_, .inr plain, ?_, ?_⟩
  · rcases mem_append.mp listed with old | new
    · exact above m old
    · rw [mem_singleton.mp new]
  · rw [replaced.retainedIs, Set.pair_comm]
    congr 1
    ext cid
    constructor
    · rintro ⟨row, stored, ofRecord, keepsRow, rfl⟩
      rcases settled.row_message law sound stored ofRecord with isInitial | isTop
      · rw [sound.addressed row stored]
        exact congrArg (fun m => p.cid (.message m)) isInitial
      · rcases settled.plain with same | never
        · rw [sound.addressed row stored, Set.mem_singleton_iff, ← same]
          exact congrArg (fun m => p.cid (.message m)) isTop
        · obtain ⟨other, isInitial⟩ := keepsOnly _ ((congr _ _ isTop).mp keepsRow)
          rw [never] at isInitial
          cases isInitial
    · rintro rfl
      obtain ⟨row, stored, ofRecord, cid⟩ := settled.exists_row sound (.inl rfl)
      exact ⟨row, stored, ofRecord, (congr _ _ (messageCid_inj law cid)).mpr keepsInitial,
        (sound.addressed row stored).trans cid⟩
  · rw [replaced.latestIs]
    simp [notInitial]

theorem Settled.outranked (settled : Settled p tenant recordId initial messages stores.messages top)
    (outranked : Outranked p tenant recordId stores request) :
    Settled p tenant recordId initial (messages ++ [request.message]) stores.messages top := by
  refine ⟨mem_append_left _ settled.listed, mem_append_left _ settled.founded,
    fun m listed => ?_, settled.plain, settled.retainedIs, settled.latestIs⟩
  rcases mem_append.mp listed with old | new
  · exact settled.greatest m old
  · rw [mem_singleton.mp new]
    obtain ⟨row, stored, ofRecord, below⟩ := outranked
    exact below.trans (settled.rank_le law sound stored ofRecord)

end

theorem Settled.congr (settled : Settled p tenant recordId initial messages before top)
    (same : SameRows tenant recordId after before) :
    Settled p tenant recordId initial messages after top :=
  { settled with
    retainedIs := same.retained.trans settled.retainedIs
    latestIs := same.latest.trans settled.latestIs }

theorem retained_eq_empty (none : ∀ row ∈ store, ¬ OfRecord tenant recordId row) :
    retained store tenant recordId = ∅ :=
  Set.eq_empty_of_forall_notMem fun _ ⟨row, stored, ofRecord, _⟩ => none row stored ofRecord

theorem not_ofRecord_of_empty (empty : retained store tenant recordId = ∅) (stored : row ∈ store) :
    ¬ OfRecord tenant recordId row := by
  intro ofRecord
  have listed : row.cid ∈ retained store tenant recordId := ⟨row, stored, ofRecord, rfl⟩
  rw [empty] at listed
  exact listed

section

variable (law : p.CollisionFree) (sound : Sound p stores.messages)
  (isWrite : request.message.descriptor = .recordsWrite d)
  (record : request.message.recordId = some recordId)

include law sound isWrite record

theorem accepted_first (isInitial : p.isInitialWrite request.message author = true)
    (signed : requestAuthor p request = some author)
    (unrevoked : revokesGrantOf request.message request = false)
    (fresh : retained stores.messages request.tenant recordId = ∅)
    (accepted : Accepted p stores request) :
    retained (processMessage p stores request).2.messages request.tenant recordId =
      {p.messageCid request.message} ∧
    latest (processMessage p stores request).2.messages request.tenant recordId =
      {cid | cid = p.messageCid request.message ∧ sentWithData p request = true} := by
  have replaced := accepted_write_replaced law sound isWrite record accepted signed unrevoked
    fun row stored ofRecord _ => (not_ofRecord_of_empty fresh stored ofRecord).elim
  constructor
  · rw [replaced.retainedIs, ← insert_empty_eq]
    congr 1
    exact Set.eq_empty_of_forall_notMem fun _ ⟨_, stored, ofRecord, _⟩ =>
      not_ofRecord_of_empty fresh stored ofRecord
  · rw [replaced.latestIs]
    simp [isInitial]

theorem not_accepted_of_retained
    (listed : p.messageCid request.message ∈ retained stores.messages request.tenant recordId) :
    ¬ Accepted p stores request := by
  intro accepted
  obtain ⟨row, stored, ofRecord, cid⟩ := listed
  rw [sound.addressed row stored] at cid
  exact (accepted_outranks sound isWrite record accepted stored ofRecord).ne (rank_congr law cid)

end

section

variable (law : p.CollisionFree) (sound : Sound p stores.messages)
  (founding : Founding p tenant recordId author initial)

include law sound founding

theorem Founding.settles (fresh : retained stores.messages tenant recordId = ∅)
    (accepted : Accepted p stores initial) :
    Settled p tenant recordId initial [initial.message]
      (processMessage p stores initial).2.messages initial.message := by
  obtain ⟨rfl, record, isInitial, signed, own, unrevoked⟩ := founding
  obtain ⟨d, isWrite, -⟩ := isInitialWrite_iff.mp isInitial
  obtain ⟨retainedIs, latestIs⟩ :=
    accepted_first law sound isWrite record isInitial signed unrevoked fresh accepted
  refine ⟨by simp, by simp, by simp, .inl rfl, ?_, ?_⟩
  · rw [retainedIs, Set.pair_eq_singleton]
  · rw [latestIs]
    simp

theorem Later.replaced (settled : Settled p tenant recordId initial messages stores.messages top)
    (later : Later p tenant recordId author request) (accepted : Accepted p stores request) :
    Settled p tenant recordId initial (messages ++ [request.message])
      (processMessage p stores request).2.messages request.message := by
  rcases later.on.state with @⟨d, isWrite, record⟩ | @⟨d, isDelete, bare, rfl⟩
  · obtain ⟨signed, update⟩ := later.update d isWrite
    obtain ⟨unrevoked, initialUnrevoked, -⟩ :=
      founding.update_unrevoked law sound later isWrite accepted
    have replaced := accepted_write_replaced law sound isWrite record accepted signed unrevoked
      fun row _ ofRecord isInitial => by
        rcases ofRecord.state with ⟨-, rowRecord⟩ | ⟨isDelete, -⟩
        · have same := (founding.unique law rowRecord isInitial).2
          rw [revokesGrantOf, writeDescriptor, messageTimestamp, same]
          exact initialUnrevoked
        · obtain ⟨_, isRowWrite, -⟩ := isInitialWrite_iff.mp isInitial
          cases isDelete.symm.trans isRowWrite
    simp only [update, Bool.false_eq_true, false_implies] at replaced
    refine settled.accepted law sound founding later.on replaced (fun other => ?_)
      (fun a b same => ?_) founding.isInitial fun m isInitial => ⟨author, isInitial⟩
    · by_contra isInitial
      rw [Bool.not_eq_false] at isInitial
      obtain ⟨rfl, -⟩ := founding.unique law record isInitial
      rw [update] at isInitial
      cases isInitial
    · rw [← isInitialWrite_setEncodedData p a none, same, isInitialWrite_setEncodedData]
  · have replaced := accepted_delete_replaced law sound isDelete accepted
    refine settled.accepted law sound founding later.on replaced (fun other => ?_)
      (fun a b same => by rw [isOwnInitialWrite_congr same]) founding.own fun m own => ?_
    · simp [Primitives.isInitialWrite, writeDescriptor, isDelete]
    · simp only [isOwnInitialWrite, Bool.and_eq_true] at own
      exact ⟨_, own.2⟩

theorem Later.nonempty (later : Later p tenant recordId author request)
    (answered : Accepted p stores request ∨ Outranked p tenant recordId stores request) :
    ∃ row ∈ stores.messages, OfRecord tenant recordId row := by
  rcases answered with accepted | ⟨row, stored, ofRecord, -⟩
  · rcases later.on.state with @⟨d, isWrite, -⟩ | @⟨d, isDelete, -, rfl⟩
    · exact (founding.update_unrevoked law sound later isWrite accepted).2.2
    · obtain ⟨-, -, -, -, ⟨row, stored, ofRecord⟩, -⟩ :=
        accepted_delete_rows law sound isDelete accepted
      exact ⟨row, stored, later.on.tenant ▸ ofRecord⟩
  · exact ⟨row, stored, ofRecord⟩

theorem Stands.step (stands : Stands p tenant recordId initial messages stores.messages)
    (follows : Follows p tenant recordId author initial stores request) :
    Stands p tenant recordId initial (messages ++ received tenant recordId [request])
      (processMessage p stores request).2.messages := by
  cases follows with
  | founds same accepted =>
    subst same
    cases stands with
    | fresh nothing fresh =>
      subst nothing
      simp only [received, filter_singleton, onRecord_of_on founding.on]
      exact .settled (founding.settles law sound fresh accepted)
    | settled settled =>
      obtain ⟨d, isWrite, -⟩ := isInitialWrite_iff.mp founding.isInitial
      refine absurd accepted (not_accepted_of_retained law sound isWrite founding.record ?_)
      rw [founding.tenant, settled.retainedIs]
      exact .inl rfl
  | later later answered =>
    simp only [received, filter_singleton, onRecord_of_on later.on]
    cases stands with
    | fresh _ empty =>
      obtain ⟨row, stored, ofRecord⟩ := later.nonempty law sound founding answered
      exact absurd ofRecord (not_ofRecord_of_empty empty stored)
    | settled settled =>
      rcases answered with accepted | outranked
      · exact .settled (later.replaced law sound founding settled accepted)
      · have unchanged := Outranked.unchanged sound (later.on.tenant.symm ▸ outranked)
          later.on.state
        rw [unchanged]
        exact .settled (settled.outranked law sound outranked)
  | beside other kept =>
    simp only [received, filter_singleton, other]
    cases stands with
    | fresh nothing empty => exact .fresh (by simp [nothing]) (kept.retained.trans empty)
    | settled settled =>
      simp only [cond_false, map_nil, append_nil]
      exact .settled (settled.congr kept)

end

/-! ## Runs -/

def proceed (p : Primitives) (stores : Stores) (request : Request) : Stores :=
  (processMessage p stores request).2

theorem received_perm {others : List Request} (same : requests.Perm others) (m : Message) :
    m ∈ received tenant recordId requests ↔ m ∈ received tenant recordId others :=
  ((same.filter _).map _).mem_iff

theorem sound_of_run (sound : Sound p stores.messages) (requests : List Request) :
    Sound p (requests.foldl (proceed p) stores).messages := by
  induction requests generalizing stores with
  | nil => exact sound
  | cons request rest ih => exact ih (sound.processMessage request)

theorem sound_along {allowed : Stores → Request → Prop} (sound : Sound p stores.messages)
    (along : AllowedAlong (proceed p) allowed stores requests) :
    AllowedAlong (proceed p) (fun stores request => Sound p stores.messages ∧ allowed stores request)
      stores requests :=
  along.imp (P := fun stores => Sound p stores.messages)
    (fun _ request sound _ => sound.processMessage request) (fun _ _ => .intro) sound

theorem stands_of_run (law : p.CollisionFree) (founding : Founding p tenant recordId author initial) :
    ∀ {stores : Stores} {messages : List Message}, Sound p stores.messages →
      Stands p tenant recordId initial messages stores.messages →
      AllowedAlong (proceed p) (Follows p tenant recordId author initial) stores requests →
      Stands p tenant recordId initial (messages ++ received tenant recordId requests)
        (requests.foldl (proceed p) stores).messages := by
  induction requests with
  | nil => exact fun _ stands _ => by simpa [received] using stands
  | cons request rest ih =>
    intro stores messages sound stands ⟨follows, along⟩
    have next := ih (sound.processMessage request) (stands.step law sound founding follows) along
    rw [append_assoc, received, received, ← map_append, ← filter_append] at next
    exact next

theorem latest_of_empty (empty : retained store tenant recordId = ∅) :
    latest store tenant recordId = ∅ := by
  refine Set.subset_empty_iff.mp (subset_of_subset_of_eq ?_ empty)
  exact fun _ ⟨row, stored, ofRecord, _, cid⟩ => ⟨row, stored, ofRecord, cid⟩

theorem Stands.agree {others : List Message} {store' : MessageStore}
    (stands : Stands p tenant recordId initial messages store)
    (stands' : Stands p tenant recordId initial others store')
    (same : ∀ m, m ∈ messages ↔ m ∈ others) :
    retained store tenant recordId = retained store' tenant recordId ∧
      latest store tenant recordId = latest store' tenant recordId := by
  cases stands with
  | fresh nothing empty =>
    cases stands' with
    | fresh _ empty' =>
      rw [empty, empty', latest_of_empty empty, latest_of_empty empty']
      exact ⟨rfl, rfl⟩
    | settled settled' =>
      have founded := (same _).mpr settled'.founded
      rw [nothing] at founded
      cases founded
  | @settled top settled =>
    cases stands' with
    | fresh nothing' _ =>
      have founded := (same _).mp settled.founded
      rw [nothing'] at founded
      cases founded
    | @settled top' settled' =>
      have sameTop : p.messageCid top = p.messageCid top' :=
        rank_inj ((settled'.greatest top ((same _).mp settled.listed)).antisymm
          (settled.greatest top' ((same _).mpr settled'.listed)))
      rw [settled.retainedIs, settled'.retainedIs, settled.latestIs, settled'.latestIs, sameTop]
      exact ⟨rfl, rfl⟩

end

end Enbox.Proof.State
