import Enbox.Proof.Run.Data
import Enbox.Proof.Run.Latest
import Enbox.Sync.Endpoint

/-! # Writes with and without their data -/

namespace Enbox.Proof.Sync

open Lib Run

variable {p : Primitives} {resolver : Option DidResolver} {stores : Stores} {tenant : Did}
  {message : Message} {d : WriteDescriptor} {data : Bytes} {admitted : AdmittedWrite}

structure SameStores (left right : Stores) : Prop where
  messages : ∀ row, row ∈ left.messages ↔ row ∈ right.messages
  data : ∀ tenant recordId dataCid,
    left.data.get tenant recordId dataCid = right.data.get tenant recordId dataCid

theorem SameStores.refl (stores : Stores) : SameStores stores stores :=
  ⟨fun _ => Iff.rfl, fun _ _ _ => rfl⟩

theorem not_sameStores {left right : Stores}
    (bare : left.messages.any (·.message.fields.encodedData.isSome) = false)
    (inlined : right.messages.any (·.message.fields.encodedData.isSome) = true) :
    ¬ SameStores left right := by
  intro same
  obtain ⟨row, stored, hasData⟩ := List.any_eq_true.mp inlined
  exact Bool.eq_false_iff.mp bare
    (List.any_eq_true.mpr ⟨row, (same.messages row).mpr stored, hasData⟩)

/-! ## Stores whose data are read alike -/

structure Alike (left right : Stores) : Prop where
  messages : left.messages = right.messages
  data : ∀ tenant recordId dataCid,
    left.data.get tenant recordId dataCid = right.data.get tenant recordId dataCid

section

variable {left right : Stores}

theorem Alike.sameStores (alike : Alike left right) : SameStores left right :=
  ⟨fun row => by rw [alike.messages], alike.data⟩

section

variable (store : DataStore) (tenant tenant' : Did) (recordId recordId' : String)
  (dataCid dataCid' : Cid)

theorem get_deleteData :
    (store.delete tenant recordId dataCid).get tenant' recordId' dataCid' =
      if (tenant', recordId', dataCid') = (tenant, recordId, dataCid) then none
      else store.get tenant' recordId' dataCid' := by
  simp only [DataStore.get, DataStore.delete, List.find?_filter]
  split
  · rename_i same
    cases same
    rw [List.find?_eq_none.mpr fun row _ => by simp, Option.map_none]
  · rename_i other
    congr 2
    funext row
    rw [Bool.eq_iff_iff]
    simp only [decide_eq_true_eq, keyed_iff, and_iff_right_iff_imp]
    exact fun isOther same => other (isOther.symm.trans same)

theorem get_putData (data : Bytes) :
    (store.put tenant recordId dataCid data).get tenant' recordId' dataCid' =
      if (tenant', recordId', dataCid') = (tenant, recordId, dataCid) then some data
      else store.get tenant' recordId' dataCid' := by
  split
  · rename_i same
    cases same
    simp [DataStore.get, DataStore.put, DataStore.keyed]
  · rename_i other
    have skipped : DataStore.keyed ⟨tenant, recordId, dataCid, data⟩ tenant' recordId' dataCid' =
        false := by
      rw [← Bool.not_eq_true, keyed_iff]
      exact fun same => other same.symm
    rw [DataStore.put, DataStore.get, List.find?_cons, skipped]
    exact (get_deleteData _ _ _ _ _ _ _).trans (if_neg other)

end

theorem Alike.deleteData (alike : Alike left right) (tenant : Did) (recordId : String)
    (dataCid : Cid) :
    Alike (left.deleteData tenant recordId dataCid) (right.deleteData tenant recordId dataCid) := by
  refine ⟨alike.messages, fun tenant' recordId' dataCid' => ?_⟩
  simp only [Stores.deleteData, get_deleteData, alike.data]

theorem Alike.performOps (alike : Alike left right) (tenant : Did) (ops : List StoreOp) :
    Alike (performOps p tenant left ops) (performOps p tenant right ops) := by
  refine List.foldl_rel alike fun op _ left right alike => ?_
  cases op with
  | commitLatestState transition =>
    simp only [performOp, alike.messages]
    split
    · exact alike
    · exact ⟨rfl, alike.data⟩
  | deleteMessage cid =>
    exact ⟨congrArg (MessageStore.delete · tenant cid) alike.messages, alike.data⟩
  | deleteData recordId dataCid => exact alike.deleteData tenant recordId dataCid

theorem Alike.cleanUpData (alike : Alike left right) (tenant : Did) (newest : Message)
    (cids : List Cid) (existing : List Message) :
    Alike (cleanUpData p left tenant newest cids existing)
      (cleanUpData p right tenant newest cids existing) := by
  refine List.foldl_rel alike fun m _ left right alike => ?_
  unfold deleteFromDataStoreIfNeeded
  split
  · split
    · exact alike
    · exact alike.deleteData _ _ _
  · exact alike

theorem Alike.postProcess (alike : Alike left right) (tenant : Did) (message : Message) :
    Alike (postProcessPermissionsWrite p tenant left message)
      (postProcessPermissionsWrite p tenant right message) := by
  simp only [postProcessPermissionsWrite, alike.messages]
  exact alike.performOps tenant _

theorem Alike.squashOps (alike : Alike left right) (tenant : Did) (message : Message) :
    performRecordsSquashOps p tenant left message =
      performRecordsSquashOps p tenant right message := by
  simp only [performRecordsSquashOps, alike.messages]

theorem Alike.finishWrite (alike : Alike left right) (tenant : Did) (admitted : AdmittedWrite)
    {staged other : StagedWrite} (sameMessage : staged.message = other.message)
    (sameState : staged.isLatestBaseState = other.isLatestBaseState) :
    (finishWrite p tenant admitted staged left).1 = (finishWrite p tenant admitted other right).1 ∧
    Alike (finishWrite p tenant admitted staged left).2
      (finishWrite p tenant admitted other right).2 := by
  have cleaned := alike.cleanUpData (p := p) tenant other.message admitted.plan.cleanupCids
    admitted.existing
  simp only [Enbox.finishWrite, sameMessage, sameState, squashSiblings]
  by_cases squash : other.message.writeDescriptor.any (·.squash = some true) = true
  · simp only [if_pos squash, performRecordsSquash, cleaned.squashOps]
    cases performRecordsSquashOps p tenant _ other.message with
    | error failure => exact ⟨rfl, cleaned⟩
    | ok ops =>
      exact ⟨rfl, (cleaned.performOps tenant ops).postProcess tenant other.message⟩
  · simp only [if_neg squash]
    exact ⟨trivial, cleaned.postProcess tenant other.message⟩

end

/-! ## Updates that keep the data -/

structure ReadsData (p : Primitives) (resolver : Option DidResolver) (stores : Stores) (tenant : Did)
    (message : Message) (admitted : AdmittedWrite) : Prop where
  wellFormed : admitMessage message = .ok ()
  isWrite : message.writeDescriptor.isSome = true
  admits : admitWrite p resolver stores.messages tenant message = .ok admitted

theorem ReadsData.of_write (isWrite : message.descriptor = .recordsWrite d)
    (wellFormed : admitMessage message = .ok ())
    (admits : admitWrite p resolver stores.messages tenant message = .ok admitted) :
    ReadsData p resolver stores tenant message admitted :=
  ⟨wellFormed, by rw [Message.writeDescriptor_eq_some.mpr isWrite]; rfl, admits⟩

theorem unread_refused (isWrite : message.descriptor = .recordsWrite d)
    (unread : ∀ admitted, ¬ ReadsData p resolver stores tenant message admitted) :
    ∃ status, ∀ data, dwnProcessMessage p resolver stores tenant message data = (status, stores) := by
  simp only [dwnProcessMessage, processMessage, isWrite, handleWrite]
  cases wellFormed : admitMessage message with
  | error failure => exact ⟨_, fun _ => rfl⟩
  | ok =>
    cases admits : admitWrite p resolver stores.messages tenant message with
    | error status => exact ⟨status, fun _ => rfl⟩
    | ok admitted => exact absurd (.of_write isWrite wellFormed admits) (unread admitted)

theorem process_ignores_data (data : Option Bytes)
    (unread : ∀ admitted, ¬ ReadsData p resolver stores tenant message admitted) :
    dwnProcessMessage p resolver stores tenant message data =
      dwnProcessMessage p resolver stores tenant message none := by
  cases isWrite : message.descriptor with
  | recordsWrite descriptor =>
    obtain ⟨status, refused⟩ := unread_refused isWrite unread
    rw [refused, refused]
  | _ => simp only [dwnProcessMessage, processMessage, isWrite]

/-- The data of an update are those of the newest write that the node has of the record. -/
structure ReusesNewest (p : Primitives) (stores : Stores) (tenant : Did) (message : Message)
    (author : Did) (d : WriteDescriptor) (data : Bytes) : Prop where
  uncontrolled : ControlKind.of message = none
  update : p.isInitialWrite message author = false
  dataCid : p.dataCid data = d.dataCid
  size : data.length = d.dataSize
  held : ∃ recordId newest e, message.recordId = some recordId ∧
    newestMessage p (fetchRecordMessages stores.messages tenant recordId) = some newest ∧
    newest.descriptor = .recordsWrite e ∧ e.dataCid = d.dataCid ∧ e.dataSize = d.dataSize ∧
    (d.dataSize ≤ maxEncodedDataSize → validateEncryptionDelivery p message data = .ok () ∧
      newest.fields.encodedData = some (p.base64UrlText data)) ∧
    (maxEncodedDataSize < d.dataSize → newest.recordId = some recordId ∧
      stores.data.get tenant recordId d.dataCid = some data)

theorem bare_of_admitted (isWrite : message.descriptor = .recordsWrite d)
    (wellFormed : admitMessage message = .ok ()) : encodedDataBytes p message = none := by
  simp only [admitMessage, isWrite, admitRecordsWrite, ok_iff] at wellFormed
  obtain ⟨_, -, _, -, _, bare, -⟩ := wellFormed
  simp [encodedDataBytes, Option.isNone_iff_eq_none.mp bare]

theorem ReadsData.record (reads : ReadsData p resolver stores tenant message admitted) :
    ∃ recordId, message.recordId = some recordId ∧
      admitted.existing = fetchRecordMessages stores.messages tenant recordId := by
  let request : Request := { tenant, message, data := none, resolver }
  have admits : admitWrite p request.resolver stores.messages request.tenant request.message =
      .ok admitted := reads.admits
  obtain ⟨recordId, passed, existing, -⟩ := admitWrite_ok admits
  exact ⟨recordId, passed.record, existing⟩

theorem ReusesNewest.stages (reads : ReadsData p resolver stores tenant message admitted)
    (isWrite : message.descriptor = .recordsWrite d)
    (reuses : ReusesNewest p stores tenant message admitted.auth.author d data) :
    ∃ bare full, stageWrite p stores tenant message none admitted = .ok bare ∧
      stageWrite p stores tenant message (some data) admitted = .ok full ∧
      bare.message = full.message ∧ bare.isLatestBaseState = full.isLatestBaseState ∧
      Alike bare.stores full.stores := by
  obtain ⟨uncontrolled, update, dataCid, size, recordId, newest, e, record, found, isNewest, sameCid,
    sameSize, small, large⟩ := reuses
  obtain ⟨_, record', existing⟩ := reads.record
  cases record.symm.trans record'
  have isNewestWrite : (some newest).filter (·.writeDescriptor.isSome) = some newest := by
    simp [Option.filter, Message.writeDescriptor_eq_some.mpr isNewest]
  have ordinary : ControlKind.fromProtocolPath d.protocolPath = none := by
    simpa [ControlKind.of, Message.writeDescriptor_eq_some.mpr isWrite] using uncontrolled
  have asNewest : validateDataIntegrity d.dataCid d.dataSize e.dataCid e.dataSize = .ok () := by
    simp [validateDataIntegrity, sameCid, sameSize, ensure]
  have asDescribed : validateDataIntegrity d.dataCid d.dataSize (p.dataCid data) data.length =
      .ok () := by
    simp [validateDataIntegrity, dataCid, size, ensure]
  have bare : stageWrite p stores tenant message none admitted =
      reuseData stores tenant message d newest := by
    simp [stageWrite, bare_of_admitted isWrite reads.wellFormed, stageWithoutData, uncontrolled,
      existing, found, update, isNewestWrite, processMessageWithoutDataStream,
      Message.writeDescriptorOr_eq_ok.mpr isWrite, Message.writeDescriptorOr_eq_ok.mpr isNewest,
      asNewest, ensure, okOr]
  have full : stageWrite p stores tenant message (some data) admitted =
      storeData p stores tenant message d data := by
    simp [stageWrite, processMessageWithDataStream, Message.writeDescriptorOr_eq_ok.mpr isWrite,
      asDescribed, validateControlData, ordinary]
  rw [bare, full, reuseData, storeData]
  by_cases isSmall : d.dataSize ≤ maxEncodedDataSize
  · simp only [if_pos isSmall, (small isSmall).1, (small isSmall).2, okOr]
    exact ⟨_, _, rfl, rfl, rfl, rfl, rfl, fun _ _ _ => rfl⟩
  · obtain ⟨ofRecord, stored⟩ := large (not_le.mp isSmall)
    simp only [if_neg isSmall, ofRecord, record, okOr, ok_bind, stored, ensure, Option.isSome_some,
      if_true]
    refine ⟨_, _, rfl, rfl, rfl, rfl, rfl, fun tenant' recordId' dataCid' => ?_⟩
    rw [get_putData]
    split
    · rename_i same
      cases same
      exact stored
    · rfl

theorem ReusesNewest.reply (reads : ReadsData p resolver stores tenant message admitted)
    (isWrite : message.descriptor = .recordsWrite d)
    (reuses : ReusesNewest p stores tenant message admitted.auth.author d data) :
    (dwnProcessMessage p resolver stores tenant message none).1 =
      (dwnProcessMessage p resolver stores tenant message (some data)).1 ∧
    Alike (dwnProcessMessage p resolver stores tenant message none).2
      (dwnProcessMessage p resolver stores tenant message (some data)).2 := by
  obtain ⟨bare, full, stages, stages', sameMessage, sameState, alike⟩ := reuses.stages reads isWrite
  have commits : commitWrite p tenant admitted bare = commitWrite p tenant admitted full := by
    simp only [commitWrite, sameMessage, sameState, alike.messages]
  simp only [dwnProcessMessage, processMessage, reads.wellFormed, isWrite, handleWrite, reads.admits,
    stages, stages', replying, Except.mapError, commits]
  cases commitWrite p tenant admitted full with
  | error status => exact ⟨rfl, alike⟩
  | ok messages =>
    have committed : Alike { bare.stores with messages } { full.stores with messages } :=
      ⟨rfl, alike.data⟩
    exact committed.finishWrite tenant admitted sameMessage sameState

/-- A node that gets no data with a message does as with them: it does not come to reading them,
there are none, or it has them already. -/
def SameWithoutData (p : Primitives) (resolver : Option DidResolver) (stores : Stores) (tenant : Did)
    (message : Message) (sent : Option Bytes) : Prop :=
  (∀ admitted, ¬ ReadsData p resolver stores tenant message admitted) ∨ sent = none ∨
    ∃ admitted d data, ReadsData p resolver stores tenant message admitted ∧
      message.descriptor = .recordsWrite d ∧ sent = some data ∧
      ReusesNewest p stores tenant message admitted.auth.author d data

theorem SameWithoutData.reply {sent : Option Bytes}
    (same : SameWithoutData p resolver stores tenant message sent) :
    (dwnProcessMessage p resolver stores tenant message none).1 =
      (dwnProcessMessage p resolver stores tenant message sent).1 ∧
    Alike (dwnProcessMessage p resolver stores tenant message none).2
      (dwnProcessMessage p resolver stores tenant message sent).2 := by
  obtain unread | rfl | ⟨admitted, d, data, reads, isWrite, rfl, reuses⟩ := same
  · rw [process_ignores_data sent unread]
    exact ⟨rfl, rfl, fun _ _ _ => rfl⟩
  · exact ⟨rfl, rfl, fun _ _ _ => rfl⟩
  · exact reuses.reply reads isWrite

/-! ## Writes that a node accepts -/

def RevokesOwnGrant (d : WriteDescriptor) : Prop :=
  d.protocol = permissionsProtocolUri ∧ d.protocolPath = permissionsRevocationPath ∧
    ∃ grantId, d.parentId = some grantId ∧ d.permissionGrantId = some grantId

theorem row_of_success (law : p.CollisionFree) (sound : Sound p stores.messages) {request : Request}
    (isWrite : request.message.descriptor = .recordsWrite d) (lasts : ¬ RevokesOwnGrant d)
    (success : (processMessage p stores request).1.isSuccess = true) :
    ∃ admitted staged row,
      admitWrite p request.resolver stores.messages request.tenant request.message = .ok admitted ∧
      stageWrite p stores request.tenant request.message request.data admitted = .ok staged ∧
      row ∈ (processMessage p stores request).2.messages ∧ row ∉ stores.messages ∧
      row.tenant = request.tenant ∧ row.cid = p.messageCid request.message ∧
      row.message = staged.message ∧
      row.indexes.lookup .isLatestBaseState = some (.bool staged.isLatestBaseState) := by
  obtain ⟨admitted, staged, transition, committed, wrote, processed⟩ :=
    processMessage_write isWrite success
  obtain ⟨recordId, passed, -⟩ := admitWrite_ok wrote.admits
  have record := passed.record
  have indexed := wrote.indexedPut isWrite record
  have ofRecord : OfRecord request.tenant recordId (rowOf p request.tenant transition.put) :=
    ⟨rfl, wrote.state record⟩
  have cid : p.messageCid transition.put.message = p.messageCid request.message := by
    obtain ⟨encodedData, same⟩ := wrote.put
    rw [same]
    rfl
  have message : transition.put.message = staged.message := by
    rw [(recordsWriteTransition_ok wrote.builds).1]
  have unrevoked : ¬ Revokes d (rowOf p request.tenant transition.put) := by
    rintro ⟨protocol, path, ⟨grantId, parent, granted⟩, -⟩
    refine lasts ⟨protocol, path, grantId, parent, ?_⟩
    have named := indexed.permissionGrantId.symm.trans granted
    cases under : d.permissionGrantId with
    | none => simp [under] at named
    | some id => simpa [under] using named
  refine ⟨admitted, staged, rowOf p request.tenant transition.put, wrote.admits, wrote.stages, ?_,
    fun stored => ?_, rfl, cid, message, indexed.isLatestBaseState⟩
  · rw [processed, wrote.mem_after_record sound isWrite record success ofRecord,
      wrote.mem_committed law sound record]
    exact ⟨.inl rfl, unrevoked⟩
  · have below := wrote.outranks sound record stored ofRecord
    exact below.ne (rank_congr law cid)

theorem wellFormed_of_success {request : Request}
    (success : (processMessage p stores request).1.isSuccess = true) :
    admitMessage request.message = .ok () := by
  cases wellFormed : admitMessage request.message with
  | ok => rfl
  | error failure =>
    simp only [processMessage, wellFormed] at success
    cases success

theorem reuses_of_stages (isWrite : message.descriptor = .recordsWrite d)
    (small : d.dataSize ≤ maxEncodedDataSize)
    (reads : ReadsData p resolver stores tenant message admitted) {staged staged' : StagedWrite}
    (full : stageWrite p stores tenant message (some data) admitted = .ok staged)
    (bare : stageWrite p stores tenant message none admitted = .ok staged')
    (sameMessage : staged'.message = staged.message)
    (sameState : staged'.isLatestBaseState = staged.isLatestBaseState) :
    ReusesNewest p stores tenant message admitted.auth.author d data := by
  change processMessageWithDataStream p stores tenant message data = _ at full
  simp only [processMessageWithDataStream, Message.writeDescriptorOr_eq_ok, ok_iff,
    validateDataIntegrity, storeData] at full
  obtain ⟨d', isWrite', _, ⟨_, dataCid, size⟩, _, -, full⟩ := full
  cases isWrite.symm.trans isWrite'
  simp only [if_pos small, ok_iff] at full
  obtain ⟨_, delivers, rfl⟩ := full
  have unsent : (none <|> encodedDataBytes p message) = none :=
    bare_of_admitted isWrite reads.wellFormed
  simp only [stageWrite, unsent, stageWithoutData, bind_eq_ok] at bare
  obtain ⟨_, uncontrolled, bare⟩ := bare
  split at bare
  · cases bare
    cases sameState
  · rename_i update
    simp only [ok_iff, processMessageWithoutDataStream, Message.writeDescriptorOr_eq_ok,
      validateDataIntegrity, Option.filter_eq_some_iff] at bare
    obtain ⟨newest, ⟨found, -⟩, d', isWrite', e, isNewest, _, ⟨_, sameCid, sameSize⟩, bare⟩ := bare
    cases isWrite.symm.trans isWrite'
    simp only [reuseData, if_pos small, ok_iff] at bare
    obtain ⟨encoded, held, rfl⟩ := bare
    cases congrArg (·.fields.encodedData) sameMessage
    obtain ⟨recordId, record, existing⟩ := reads.record
    rw [existing] at found
    rw [Bool.not_eq_true] at update
    exact ⟨Option.isNone_iff_eq_none.mp (ensure_eq_ok.mp uncontrolled), update, dataCid.symm,
      size.symm, recordId, newest, e, record, found, isNewest, sameCid.symm, sameSize.symm,
      fun _ => ⟨delivers, held⟩, fun large => absurd small large.not_ge⟩

/-- For a small write that the node accepts with its data, the condition is exact. -/
theorem sameWithoutData_of_rows (law : p.CollisionFree) (sound : Sound p stores.messages)
    (isWrite : message.descriptor = .recordsWrite d) (small : d.dataSize ≤ maxEncodedDataSize)
    (lasts : ¬ RevokesOwnGrant d) {sent : Option Bytes}
    (success : (dwnProcessMessage p resolver stores tenant message sent).1.isSuccess = true)
    (rows : ∀ row ∈ (dwnProcessMessage p resolver stores tenant message sent).2.messages,
      row ∈ (dwnProcessMessage p resolver stores tenant message none).2.messages) :
    SameWithoutData p resolver stores tenant message sent := by
  cases sent with
  | none => exact .inr (.inl rfl)
  | some data =>
    let bare : Request := { tenant, message, data := none, resolver }
    have isBare : bare.message.descriptor = .recordsWrite d := isWrite
    obtain ⟨admitted, staged, row, admits, stages, stored, new, ofTenant, cid, staged_eq, state⟩ :=
      row_of_success law sound isWrite lasts success
    have alsoStored := rows row stored
    by_cases accepted : (processMessage p stores bare).1.isSuccess = true
    · obtain ⟨admitted', staged', row', admits', stages', stored', -, ofTenant', cid', staged_eq',
        state'⟩ := row_of_success law sound isBare lasts accepted
      obtain rfl : admitted = admitted' := Except.ok.inj (admits.symm.trans admits')
      obtain rfl : row = row' := (sound.processMessage bare).unique row alsoStored row' stored'
        (ofTenant.trans ofTenant'.symm) (cid.trans cid'.symm)
      have sameState := state'.symm.trans state
      simp only [Option.some.injEq, Value.scalar.injEq, Scalar.bool.injEq] at sameState
      have reads := ReadsData.of_write isWrite (wellFormed_of_success success) admits
      exact .inr (.inr ⟨admitted, d, data, reads, isWrite, rfl, reuses_of_stages isWrite small reads
        stages stages' (staged_eq'.symm.trans staged_eq) sameState⟩)
    · have unchanged : (dwnProcessMessage p resolver stores tenant message none).2.messages =
          stores.messages := refused_write_unchanged isBare accepted
      rw [unchanged] at alsoStored
      exact absurd alsoStored new

end Enbox.Proof.Sync
