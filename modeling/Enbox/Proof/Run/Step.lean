import Enbox.Proof.Run.Rows

/-! # What one step can do -/

namespace Enbox.Proof.Run

open Lib Enbox.Message

variable {p : Primitives} {author tenant : Did} {message : Message} {existing : List Message}
  {plan : RecordsTransitionPlan} {u : Unit} {store committed : MessageStore} {request : Request}
  {admitted : AdmittedWrite} {stores after : Stores} {staged : StagedWrite}
  {outranked cids : List Cid} {keepAs : Message → Option Did} {recordId : String}
  {indexes : Indexes} {transition : LatestStateTransition} {status : Status} {d : DeleteDescriptor}

/-! ## Messages up to their inline data -/

@[simp] theorem setEncodedData_descriptor (m : Message) (data : Option String) :
    (setEncodedData m data).descriptor = m.descriptor := rfl

@[simp] theorem setEncodedData_setEncodedData (m : Message) (first second : Option String) :
    setEncodedData (setEncodedData m first) second = setEncodedData m second := rfl

theorem setEncodedData_self (m : Message) : setEncodedData m m.fields.encodedData = m := by
  obtain ⟨descriptor, fields⟩ := m
  cases fields
  rfl

@[simp] theorem isInitialWrite_setEncodedData (p : Primitives) (m : Message) (data : Option String)
    (author : Did) : p.isInitialWrite (setEncodedData m data) author = p.isInitialWrite m author :=
  rfl

theorem isInitialWrite_iff {m : Message} :
    p.isInitialWrite m author = true ↔
      ∃ d, m.descriptor = .recordsWrite d ∧ m.recordId = some (p.entryId author d) := by
  unfold Primitives.isInitialWrite
  split
  · rename_i d recordId isWrite hasId
    rw [writeDescriptor_eq_some] at isWrite
    simp only [decide_eq_true_eq, isWrite, Descriptor.recordsWrite.injEq, exists_eq_left', hasId,
      Option.some.injEq]
    exact eq_comm
  · rename_i missing
    simp only [Bool.false_eq_true, false_iff, not_exists, not_and]
    intro d isWrite hasId
    exact missing d _ (writeDescriptor_eq_some.mpr isWrite) hasId

/-! ## Refusals -/

def Refused (status : Status) : Prop := status.isSuccess = false

def Refuses (status : Failure → Nat) : Prop :=
  ∀ failure, status failure ≠ 202 ∧ status failure ≠ 204

theorem validationStatus_refuses : Refuses validationStatus := by
  intro failure
  unfold validationStatus
  split <;> decide

theorem coreProtocolStatus_refuses : Refuses coreProtocolStatus := by
  intro failure
  unfold coreProtocolStatus
  split <;> decide

theorem deleteStatus_refuses : Refuses deleteStatus := by
  intro failure
  unfold deleteStatus
  split <;> decide

theorem failsWith_replying {α : Type} {status : Failure → Nat} (refuses : Refuses status)
    (check : Except Failure α) : FailsWith Refused (replying status check) :=
  failsWith_mapError (fun failure => by simp [Refused, Status.isSuccess, refuses failure]) check

theorem always_refuses {α : Type} {code : Nat} (check : Except Failure α)
    (other : code ≠ 202 ∧ code ≠ 204 := by decide) :
    FailsWith Refused (replying (always code) check) :=
  failsWith_replying (fun _ => other) check

theorem requireSignature_refuses (p : Primitives) (resolver : Option DidResolver) (missing : String)
    (message : Message) : FailsWith Refused (requireSignature p resolver missing message) := by
  refine FailsWith.bind (failsWith_mapError (fun error => ?_) _) fun context => ?_
  · unfold signatureStatus
    split <;> rfl
  · exact failsWith_okOr (by exact rfl) context

theorem refuseSuperseded_refuses (p : Primitives) (message : Message) (existing : List Message)
    (plan : RecordsTransitionPlan) :
    FailsWith Refused (refuseSuperseded p message existing plan) := by
  unfold refuseSuperseded
  split
  · split
    · exact failsWith_error rfl
    · exact failsWith_error rfl
  · exact failsWith_ok ()

theorem admitWrite_refuses (p : Primitives) (resolver : Option DidResolver) (store : MessageStore)
    (tenant : Did) (message : Message) :
    FailsWith Refused (admitWrite p resolver store tenant message) := by
  refine FailsWith.bind (failsWith_okOr (by exact rfl) _) fun recordId => ?_
  refine FailsWith.bind (always_refuses _) fun plan => ?_
  refine FailsWith.bind (failsWith_ensure rfl) fun _ => ?_
  refine FailsWith.bind (requireSignature_refuses _ _ _ _) fun auth => ?_
  refine FailsWith.bind (always_refuses _) fun _ => ?_
  refine FailsWith.bind (failsWith_replying validationStatus_refuses _) fun _ => ?_
  refine FailsWith.bind (always_refuses _) fun _ => ?_
  refine FailsWith.bind (failsWith_replying coreProtocolStatus_refuses _) fun _ => ?_
  refine FailsWith.bind (always_refuses _) fun _ => ?_
  refine FailsWith.bind (always_refuses _) fun _ => ?_
  exact FailsWith.bind (refuseSuperseded_refuses _ _ _ _) fun _ => failsWith_ok _

theorem commitWrite_refuses (p : Primitives) (tenant : Did) (admitted : AdmittedWrite)
    (staged : StagedWrite) : FailsWith Refused (commitWrite p tenant admitted staged) := by
  refine FailsWith.bind (failsWith_replying coreProtocolStatus_refuses _) fun _ => ?_
  refine FailsWith.bind (always_refuses _) fun indexes => ?_
  refine FailsWith.bind (always_refuses _) fun transition => ?_
  exact always_refuses _

/-! ## Accepted writes -/

structure Passed (p : Primitives) (store : MessageStore) (request : Request)
    (auth : AuthorizationContext) (recordId : String) : Prop where
  record : request.message.recordId = some recordId
  signed : validateAuthorizationSignature p request.resolver request.message true = .ok (some auth)
  integrity : validateRecordsWriteIntegrity p request.message auth = .ok ()
  references :
    validateReferentialIntegrity p store request.tenant request.message auth.author = .ok ()
  authorized : authorizeRecordsWrite p store request.tenant request.message auth = .ok ()
  hooks : preProcessWrite p store request.tenant request.message = .ok ()
  update : verifyUpdate p request.message auth.author
    (fetchRecordMessages store request.tenant recordId) = .ok ()
  backstop : enforceSquashBackstop store request.tenant request.message = .ok ()

theorem refuseSuperseded_ok (fresh : ¬ plan.isDuplicate)
    (passes : refuseSuperseded p message existing plan = .ok u) :
    ∃ cid outranked, plan = .apply cid outranked := by
  cases plan with
  | duplicate => exact absurd rfl fresh
  | superseded =>
    unfold refuseSuperseded at passes
    split at passes
    · split at passes <;> cases passes
    · rename_i other
      exact absurd rfl (other _ _)
  | apply cid outranked => exact ⟨cid, outranked, rfl⟩

theorem admitWrite_ok
    (admits : admitWrite p request.resolver store request.tenant request.message = .ok admitted) :
    ∃ recordId, Passed p store request admitted.auth recordId ∧
      admitted.existing = fetchRecordMessages store request.tenant recordId ∧
      planRecordsTransition p request.message admitted.existing = .ok admitted.plan ∧
      ∃ cid outranked, admitted.plan = .apply cid outranked := by
  simp only [admitWrite, replying, requireSignature, ok_iff] at admits
  obtain ⟨recordId, record, plan, planned, _, fresh, auth, ⟨_, signed, rfl⟩, _, integrity, _,
    references, _, authorized, _, hooks, _, update, _, backstop, _, passes, rfl⟩ := admits
  exact ⟨recordId, ⟨record, signed, integrity, references, authorized, hooks, update, backstop⟩,
    rfl, planned, refuseSuperseded_ok fresh passes⟩

structure StagedFrom (stores : Stores) (message : Message) (staged : StagedWrite) : Prop where
  messages : staged.stores.messages = stores.messages
  message : ∃ encodedData, staged.message = setEncodedData message encodedData

def supplied (p : Primitives) (request : Request) : Option Bytes :=
  request.data <|> encodedDataBytes p request.message

inductive Staging (p : Primitives) (stores : Stores) (request : Request) (admitted : AdmittedWrite)
    (d : WriteDescriptor) : StagedWrite → Prop
  | inline {data : Bytes} (sent : supplied p request = some data)
      (dataCid : p.dataCid data = d.dataCid) (size : data.length = d.dataSize)
      (small : d.dataSize ≤ maxEncodedDataSize) :
      Staging p stores request admitted d
        ⟨stores, setEncodedData request.message (some (p.base64UrlText data)), true⟩
  | stored {data : Bytes} {recordId : String} (sent : supplied p request = some data)
      (dataCid : p.dataCid data = d.dataCid) (size : data.length = d.dataSize)
      (large : maxEncodedDataSize < d.dataSize) (record : request.message.recordId = some recordId) :
      Staging p stores request admitted d
        ⟨{ stores with data := stores.data.put request.tenant recordId d.dataCid data },
          setEncodedData request.message none, true⟩
  | missing (unsent : supplied p request = none)
      (isInitial : p.isInitialWrite request.message admitted.auth.author = true) :
      Staging p stores request admitted d ⟨stores, request.message, false⟩
  | reused {newest : Message} {e : WriteDescriptor} {encoded : Option String}
      (unsent : supplied p request = none)
      (update : p.isInitialWrite request.message admitted.auth.author = false)
      (found : newestMessage p admitted.existing = some newest)
      (isNewest : newest.descriptor = .recordsWrite e) (dataCid : e.dataCid = d.dataCid)
      (size : e.dataSize = d.dataSize)
      (present : maxEncodedDataSize < d.dataSize → ∃ recordId, newest.recordId = some recordId ∧
        (stores.data.get request.tenant recordId d.dataCid).isSome = true)
      (kept : encoded = none ∨ encoded = newest.fields.encodedData) :
      Staging p stores request admitted d ⟨stores, setEncodedData request.message encoded, true⟩

section

variable {d : WriteDescriptor}
  (stages : stageWrite p stores request.tenant request.message request.data admitted = .ok staged)

include stages

theorem stageWrite_cases :
    ∃ d, request.message.descriptor = .recordsWrite d ∧ Staging p stores request admitted d staged := by
  unfold stageWrite at stages
  split at stages
  · rename_i sent
    simp only [processMessageWithDataStream, writeDescriptorOr_eq_ok, ok_iff,
      validateDataIntegrity] at stages
    obtain ⟨d, isWrite, _, ⟨_, dataCid, size⟩, _, -, stages⟩ := stages
    refine ⟨d, isWrite, ?_⟩
    unfold storeData at stages
    split at stages
    · rename_i small
      simp only [ok_iff] at stages
      obtain ⟨_, -, rfl⟩ := stages
      exact .inline sent dataCid.symm size.symm small
    · rename_i large
      simp only [ok_iff] at stages
      obtain ⟨recordId, record, rfl⟩ := stages
      exact .stored sent dataCid.symm size.symm (not_le.mp large) record
  · rename_i unsent
    simp only [stageWithoutData, bind_eq_ok] at stages
    obtain ⟨_, -, stages⟩ := stages
    split at stages
    · rename_i isInitial
      cases stages
      obtain ⟨d, isWrite, -⟩ := isInitialWrite_iff.mp isInitial
      exact ⟨d, isWrite, .missing unsent isInitial⟩
    · rename_i update
      simp only [ok_iff, processMessageWithoutDataStream, writeDescriptorOr_eq_ok,
        validateDataIntegrity, Option.filter_eq_some_iff] at stages
      obtain ⟨newest, ⟨found, -⟩, d, isWrite, e, isNewest, _, ⟨_, dataCid, size⟩, stages⟩ := stages
      rw [Bool.not_eq_true] at update
      refine ⟨d, isWrite, ?_⟩
      unfold reuseData at stages
      split at stages
      · rename_i small
        simp only [ok_iff] at stages
        obtain ⟨_, encoded, rfl⟩ := stages
        exact .reused unsent update found isNewest dataCid.symm size.symm
          (fun large => absurd small large.not_ge) (.inr encoded.symm)
      · simp only [ok_iff] at stages
        obtain ⟨recordId, record, _, present, rfl⟩ := stages
        exact .reused unsent update found isNewest dataCid.symm size.symm
          (fun _ => ⟨recordId, record, present⟩) (.inl rfl)

theorem stageWrite_as (isWrite : request.message.descriptor = .recordsWrite d) :
    Staging p stores request admitted d staged := by
  obtain ⟨_, isWrite', staging⟩ := stageWrite_cases stages
  cases isWrite.symm.trans isWrite'
  exact staging

theorem stageWrite_ok : StagedFrom stores request.message staged := by
  obtain ⟨_, -, staging⟩ := stageWrite_cases stages
  cases staging with
  | missing => exact ⟨rfl, _, (setEncodedData_self _).symm⟩
  | _ => exact ⟨rfl, _, rfl⟩

end

/-! ## Rows a request can add -/

structure Kept (p : Primitives) (store : MessageStore) (tenant : Did)
    (mutation : LatestStateMutation) : Prop where
  kept : ∃ old ∈ store, old.tenant = tenant ∧ ∃ author, p.isInitialWrite old.message author = true ∧
    mutation.message = setEncodedData old.message none ∧
    recordsWriteIndexes p mutation.message author false = .ok mutation.indexes

theorem replaceOutranked_ok {retains : List LatestStateMutation} {deletes : List Cid}
    (replaced : replaceOutranked p outranked keepAs existing = .ok (retains, deletes)) :
    (∀ mutation, mutation ∈ retains ↔ ∃ m ∈ existing, p.messageCid m ∈ outranked ∧
      ∃ author, keepAs m = some author ∧ retainedInitialWrite p m author = .ok mutation) ∧
    (∀ cid, cid ∈ deletes ↔ ∃ m ∈ existing, p.messageCid m ∈ outranked ∧ keepAs m = none ∧
      p.messageCid m = cid) ∧
    ∀ cid, (cid ∈ retains.map fun m => p.messageCid m.message) ∨ cid ∈ deletes ↔
      cid ∈ outranked ∧ cid ∈ existing.map p.messageCid := by
  induction existing generalizing retains deletes with
  | nil =>
    cases replaced
    simp
  | cons m rest ih =>
    rw [replaceOutranked] at replaced
    split at replaced
    · rename_i passed
      obtain ⟨retained, deleted, cids⟩ := ih replaced
      exact ⟨by simp [retained, passed], by simp [deleted, passed], by grind⟩
    · rename_i listed
      rw [not_not] at listed
      cases keeps : keepAs m with
      | some author =>
        simp only [keeps, retainedInitialWrite, ok_iff, Prod.mk.injEq] at replaced
        obtain ⟨_, ⟨indexes, indexed, rfl⟩, _, replaced, rfl, rfl⟩ := replaced
        obtain ⟨retained, deleted, cids⟩ := ih replaced
        have sameCid : p.messageCid (setEncodedData m none) = p.messageCid m := rfl
        exact ⟨by simp [retained, keeps, listed, retainedInitialWrite, indexed, eq_comm],
          by simp [deleted, keeps], by grind⟩
      | none =>
        simp only [keeps, ok_iff, Prod.mk.injEq] at replaced
        obtain ⟨_, replaced, rfl, rfl⟩ := replaced
        obtain ⟨retained, deleted, cids⟩ := ih replaced
        exact ⟨by simp [retained, keeps], by simp [deleted, keeps, listed, eq_comm], by grind⟩

theorem kept_of_mem_replaceOutranked (initial : ∀ message author, keepAs message = some author →
      p.isInitialWrite message author = true) {retains : List LatestStateMutation}
    {deletes : List Cid}
    (replaced : replaceOutranked p outranked keepAs (fetchRecordMessages store tenant recordId) =
      .ok (retains, deletes)) : ∀ mutation ∈ retains, Kept p store tenant mutation := by
  intro mutation listed
  obtain ⟨message, found, -, author, keeps, retained⟩ :=
    ((replaceOutranked_ok replaced).1 mutation).mp listed
  obtain ⟨old, stored, ofTenant, rfl, -⟩ := mem_query found
  simp only [retainedInitialWrite, ok_iff] at retained
  obtain ⟨indexes, indexed, rfl⟩ := retained
  exact ⟨old, stored, ofTenant, author, initial _ _ keeps, rfl, indexed⟩

theorem keptByWrite_eq_some {as : Did} :
    keptByWrite p author message = some as ↔ p.isInitialWrite message author = true ∧ as = author := by
  unfold keptByWrite
  split
  · simp_all only [Option.some.injEq, true_and]
    exact eq_comm
  · simp_all

theorem keptByDelete_initial (message : Message) (as : Did)
    (keeps : keptByDelete p recordId message = some as) : p.isInitialWrite message as = true := by
  unfold keptByDelete at keeps
  split at keeps
  · rename_i own
    cases keeps
    exact (Bool.and_eq_true _ _ ▸ own.2 : _ ∧ _).2
  · cases keeps

inductive NewRow (p : Primitives) (stores : Stores) (request : Request) : Row → Prop
  | written {auth : AuthorizationContext} {recordId : String} {encodedData : Option String}
      {latest : Bool} {indexes : Indexes} (passed : Passed p stores.messages request auth recordId)
      (success : (processMessage p stores request).1.isSuccess = true)
      (indexed : recordsWriteIndexes p (setEncodedData request.message encodedData) auth.author
        latest = .ok indexes) :
      NewRow p stores request
        (rowOf p request.tenant ⟨setEncodedData request.message encodedData, indexes⟩)
  | kept {mutation : LatestStateMutation}
      (kept : Kept p stores.messages request.tenant mutation) :
      NewRow p stores request (rowOf p request.tenant mutation)
  | deleted {d : DeleteDescriptor} {initialWrite : Message} {author : Did} {indexes : Indexes}
      (isDelete : request.message.descriptor = .recordsDelete d)
      (bare : request.message.recordId = none)
      (found : initialWrite ∈ fetchRecordMessages stores.messages request.tenant d.recordId)
      (indexed : recordsDeleteIndexes request.message initialWrite author = .ok indexes) :
      NewRow p stores request (rowOf p request.tenant ⟨request.message, indexes⟩)
  | configured {message : Message} {d : ConfigureDescriptor} {author : Option Did} {latest : Bool}
      (isConfigure : message.descriptor = .protocolsConfigure d) :
      NewRow p stores request (rowOf p request.tenant ⟨message, configureIndexes d author latest⟩)

/-! ## Writes -/

structure BuildsWrite (p : Primitives) (stores : Stores) (request : Request)
    (admitted : AdmittedWrite) (staged : StagedWrite) (transition : LatestStateTransition) :
    Prop where
  admits : admitWrite p request.resolver stores.messages request.tenant request.message =
    .ok admitted
  stages : stageWrite p stores request.tenant request.message request.data admitted = .ok staged
  valid : validateRecord p staged.message = .ok ()
  indexed : recordsWriteIndexes p staged.message admitted.auth.author staged.isLatestBaseState =
    .ok transition.put.indexes
  builds : recordsWriteTransition p staged.message transition.put.indexes admitted.existing
    admitted.plan admitted.auth.author = .ok transition

structure Wrote (p : Primitives) (stores : Stores) (request : Request) (admitted : AdmittedWrite)
    (staged : StagedWrite) (transition : LatestStateTransition) (committed : MessageStore)
    extends BuildsWrite p stores request admitted staged transition where
  commits : stores.messages.commitLatestState p request.tenant transition = .ok committed

theorem recordsWriteTransition_ok
    (builds : recordsWriteTransition p message indexes existing plan author = .ok transition) :
    transition.put = ⟨message, indexes⟩ ∧ ∃ outranked, plan.outranked "write" = .ok outranked ∧
      replaceOutranked p outranked (keptByWrite p author) existing =
        .ok (transition.retains, transition.deletes) := by
  simp only [recordsWriteTransition, ok_iff] at builds
  obtain ⟨outranked, planned, ⟨retains, deletes⟩, replaced, rfl⟩ := builds
  exact ⟨rfl, outranked, planned, replaced⟩

theorem commitWrite_ok
    (admits : admitWrite p request.resolver stores.messages request.tenant request.message =
      .ok admitted)
    (stages : stageWrite p stores request.tenant request.message request.data admitted =
      .ok staged) (commits : commitWrite p request.tenant admitted staged = .ok committed) :
    ∃ transition, Wrote p stores request admitted staged transition committed := by
  simp only [commitWrite, replying, ok_iff, (stageWrite_ok stages).messages]
    at commits
  obtain ⟨_, valid, indexes, indexed, transition, builds, commits⟩ := commits
  obtain ⟨put, -⟩ := recordsWriteTransition_ok builds
  exact ⟨transition, ⟨admits, stages, valid, by rw [put, indexed], by rw [put, builds]⟩, commits⟩

def sweptCids (p : Primitives) (tenant : Did) (store : MessageStore) (message : Message)
    (d : WriteDescriptor) (recordId : String) : List Cid :=
  if d.squash = some true then squashedCids p tenant store message d recordId else []

theorem performRecordsSquash_eq (p : Primitives) (tenant : Did) (stores : Stores)
    {d : WriteDescriptor} (isWrite : message.descriptor = .recordsWrite d)
    (record : message.recordId = some recordId) :
    performRecordsSquash p tenant stores message =
      .ok ((groupByRecord (stores.messages.query tenant [siblingFilters d message])).foldl
        (fun stores sibling => performOps p tenant stores
          (purgeOlderSiblingOps p recordId d.messageTimestamp sibling)) stores) := by
  rw [← performOps_flatMap]
  simp [performRecordsSquash, performRecordsSquashOps, writeDescriptorOr_eq_ok.mpr isWrite, record,
    okOr, Except.map]

theorem squashSiblings_ok (p : Primitives) (tenant : Did) (stores : Stores) {d : WriteDescriptor}
    (isWrite : message.descriptor = .recordsWrite d) (record : message.recordId = some recordId) :
    ∃ swept, squashSiblings p tenant stores message = .ok swept ∧
      Removes tenant (sweptCids p tenant stores.messages message d recordId) swept stores := by
  -- The sweep of a squash cannot fail: a write that was indexed has a descriptor and a record.
  have descriptor : message.writeDescriptor = some d := writeDescriptor_eq_some.mpr isWrite
  by_cases squash : d.squash = some true
  · refine ⟨_, by simpa [squashSiblings, descriptor, squash] using
      performRecordsSquash_eq p tenant stores isWrite record, ?_⟩
    rw [sweptCids, if_pos squash]
    exact removes_foldl (removes_purgeOlderSibling recordId d.messageTimestamp) _ stores
  · refine ⟨stores, by simp [squashSiblings, descriptor, squash], ?_⟩
    rw [sweptCids, if_neg squash]
    exact Removes.of_eq rfl

theorem finishWrite_spec (p : Primitives) (tenant : Did) (admitted : AdmittedWrite)
    (committed : Stores) {d : WriteDescriptor}
    (isWrite : staged.message.descriptor = .recordsWrite d)
    (record : staged.message.recordId = some recordId) :
    (finishWrite p tenant admitted staged committed).1.isSuccess = true ∧
    ∃ swept, squashSiblings p tenant (cleanUpData p committed tenant staged.message
        admitted.plan.cleanupCids admitted.existing) staged.message = .ok swept ∧
      Removes tenant (sweptCids p tenant committed.messages staged.message d recordId) swept
        committed ∧
      (finishWrite p tenant admitted staged committed).2 =
        postProcessPermissionsWrite p tenant swept staged.message := by
  obtain ⟨swept, done, removes⟩ := squashSiblings_ok p tenant (cleanUpData p committed tenant
    staged.message admitted.plan.cleanupCids admitted.existing) isWrite record
  rw [cleanUpData_messages] at removes
  refine ⟨?_, swept, done, fun row => ?_, ?_⟩
  · simp only [finishWrite, done]
    split <;> rfl
  · rw [removes row, cleanUpData_messages]
  · simp only [finishWrite, done]

section

variable {d : WriteDescriptor} (isWrite : request.message.descriptor = .recordsWrite d)

include isWrite

theorem admitMessage_write (admits : admitMessage request.message = .ok u) :
    isProtocolPath d.protocolPath = true := by
  simp only [admitMessage, isWrite, admitRecordsWrite, ok_iff] at admits
  obtain ⟨_, -, _, -, _, -, _, path, -⟩ := admits
  exact path

theorem processMessage_write_cases :
    ((processMessage p stores request).1.isSuccess = false ∧
      (processMessage p stores request).2.messages = stores.messages) ∨
    ((processMessage p stores request).1.isSuccess = true ∧ isProtocolPath d.protocolPath = true ∧
      ∃ admitted staged transition committed,
        Wrote p stores request admitted staged transition committed ∧
        (processMessage p stores request).2 = (finishWrite p request.tenant admitted staged
          { staged.stores with messages := committed }).2) := by
  simp only [processMessage, isWrite, handleWrite]
  split
  · exact .inl ⟨rfl, rfl⟩
  · rename_i admits
    split
    · rename_i refused
      exact .inl ⟨admitWrite_refuses _ _ _ _ _ _ refused, rfl⟩
    · rename_i admitted isAdmitted
      split
      · rename_i refused
        exact .inl ⟨failsWith_replying validationStatus_refuses _ _ refused, rfl⟩
      · rename_i staged stages
        have isStaged := mapError_eq_ok.mp stages
        split
        · rename_i refused
          exact .inl ⟨commitWrite_refuses _ _ _ _ _ refused, (stageWrite_ok isStaged).messages⟩
        · rename_i committed commits
          obtain ⟨transition, wrote⟩ := commitWrite_ok isAdmitted isStaged commits
          obtain ⟨_, _, isIndexed⟩ := recordsWriteIndexes_ok wrote.indexed
          exact .inr ⟨(finishWrite_spec p request.tenant admitted _ isIndexed.descriptor
            isIndexed.record).1, admitMessage_write isWrite admits, admitted, staged, transition,
            committed, wrote, rfl⟩

theorem processMessage_write (success : (processMessage p stores request).1.isSuccess = true) :
    ∃ admitted staged transition committed,
      Wrote p stores request admitted staged transition committed ∧
      (processMessage p stores request).2 = (finishWrite p request.tenant admitted staged
        { staged.stores with messages := committed }).2 := by
  rcases processMessage_write_cases isWrite with ⟨refused, -⟩ | ⟨-, -, done⟩
  · cases refused.symm.trans success
  · exact done

theorem passed_of_success (success : (processMessage p stores request).1.isSuccess = true) :
    isProtocolPath d.protocolPath = true ∧
      ∃ auth recordId, Passed p stores.messages request auth recordId := by
  rcases processMessage_write_cases isWrite with ⟨refused, -⟩ | ⟨-, path, _, _, _, _, wrote, -⟩
  · cases refused.symm.trans success
  · obtain ⟨recordId, passed, -⟩ := admitWrite_ok wrote.admits
    exact ⟨path, _, recordId, passed⟩

theorem refused_write_unchanged (refused : ¬ (processMessage p stores request).1.isSuccess = true) :
    (processMessage p stores request).2.messages = stores.messages := by
  rcases processMessage_write_cases isWrite with ⟨-, unchanged⟩ | ⟨success, -⟩
  · exact unchanged
  · exact absurd success refused

end

theorem mem_deletedWrite {initialWrite : Message}
    (found : deletedWrite p existing = some initialWrite) : initialWrite ∈ existing := by
  unfold deletedWrite findInitialWrite at found
  cases own : existing.find? (isOwnInitialWrite p) with
  | some message =>
    rw [own] at found
    cases found
    exact List.mem_of_find?_eq_some own
  | none =>
    rw [own] at found
    exact List.mem_of_find?_eq_some found

theorem admitDelete_ok {resolver : Option DidResolver} {admitted : AdmittedDelete}
    (admits : admitDelete p resolver store tenant message d = .ok admitted) :
    admitted.existing = fetchRecordMessages store tenant d.recordId ∧
      planRecordsTransition p message admitted.existing = .ok admitted.plan ∧
      admitted.plan.applies = true ∧
      deletedWrite p admitted.existing = some admitted.initialWrite := by
  simp only [admitDelete, replying, requireSignature, ok_iff] at admits
  obtain ⟨auth, -, _, -, plan, planned, _, applies, initialWrite, found, _, -, rfl⟩ := admits
  exact ⟨rfl, planned, applies, found⟩

structure BuildsDelete (p : Primitives) (stores : Stores) (request : Request) (d : DeleteDescriptor)
    (admitted : AdmittedDelete) (author : Did) (transition : LatestStateTransition)
    (cleanupCids : List Cid) : Prop where
  isDelete : request.message.descriptor = .recordsDelete d
  bare : request.message.recordId = none
  admits : admitDelete p request.resolver stores.messages request.tenant request.message d =
    .ok admitted
  signed : messageAuthor p request.message = some author
  indexed : recordsDeleteIndexes request.message admitted.initialWrite author =
    .ok transition.put.indexes
  builds : prepareRecordsDeleteTransition p request.message transition.put.indexes
    admitted.existing admitted.plan = .ok (transition, cleanupCids)

structure Deleted (p : Primitives) (stores : Stores) (request : Request) (d : DeleteDescriptor)
    (admitted : AdmittedDelete) (author : Did) (transition : LatestStateTransition)
    (cleanupCids : List Cid) (committed : MessageStore)
    extends BuildsDelete p stores request d admitted author transition cleanupCids where
  commits : stores.messages.commitLatestState p request.tenant transition = .ok committed

theorem prepareRecordsDeleteTransition_ok (isDelete : message.descriptor = .recordsDelete d)
    (builds : prepareRecordsDeleteTransition p message indexes existing plan =
      .ok (transition, cids)) :
    transition.put = ⟨message, indexes⟩ ∧ plan.outranked "delete" = .ok cids ∧
      replaceOutranked p cids (keptByDelete p d.recordId) existing =
        .ok (transition.retains, transition.deletes) := by
  simp only [prepareRecordsDeleteTransition, deleteDescriptor_eq_some.mpr isDelete, okOr,
    ok_bind, ok_iff, Prod.mk.injEq] at builds
  obtain ⟨outranked, planned, ⟨retains, deletes⟩, replaced, rfl, rfl⟩ := builds
  exact ⟨rfl, planned, replaced⟩

theorem removes_pruneDescendants {pruned : Stores}
    (prunes : pruneDescendants p tenant stores d = .ok pruned) :
    ∃ cids, Removes tenant cids pruned stores := by
  unfold pruneDescendants at prunes
  split at prunes
  · exact removes_purgeDescendants _ prunes
  · cases prunes
    exact ⟨[], Removes.of_eq rfl⟩

theorem admitMessage_delete (isDelete : message.descriptor = .recordsDelete d)
    (admits : admitMessage message = .ok u) : message.recordId = none := by
  simp only [admitMessage, isDelete, admitBareFields, ensure_eq_ok] at admits
  exact admits.1

theorem processMessage_delete_cases (isDelete : request.message.descriptor = .recordsDelete d) :
    ((processMessage p stores request).1.isSuccess = false ∧
      (processMessage p stores request).2.messages = stores.messages) ∨
    ∃ admitted author transition cleanupCids committed,
      Deleted p stores request d admitted author transition cleanupCids committed ∧
      (((processMessage p stores request).1.isSuccess = false ∧
          (processMessage p stores request).2 = { stores with messages := committed }) ∨
        ((processMessage p stores request).1.isSuccess = true ∧ ∃ pruned,
          pruneDescendants p request.tenant { stores with messages := committed } d = .ok pruned ∧
          (processMessage p stores request).2 = cleanUpData p pruned request.tenant request.message
            cleanupCids admitted.existing)) := by
  simp only [processMessage, isDelete, handleDelete]
  split
  · exact .inl ⟨rfl, rfl⟩
  · rename_i admits
    split
    · rename_i refused
      refine .inl ⟨?_, rfl⟩
      refine FailsWith.bind (requireSignature_refuses _ _ _ _) (fun auth => ?_) _ refused
      refine FailsWith.bind (failsWith_ensure rfl) fun _ => ?_
      refine FailsWith.bind (always_refuses _) fun plan => ?_
      refine FailsWith.bind (failsWith_ensure rfl) fun _ => ?_
      refine FailsWith.bind (failsWith_okOr (by exact rfl) _) fun initialWrite => ?_
      exact FailsWith.bind (failsWith_replying deleteStatus_refuses _) fun _ => failsWith_ok _
    · rename_i admitted isAdmitted
      unfold performRecordsDelete
      split
      · exact .inl ⟨rfl, rfl⟩
      · rename_i committed cids commits
        simp only [commitDelete, ok_iff, Prod.mk.injEq] at commits
        obtain ⟨author, named, indexes, indexed, ⟨transition, _⟩, builds, _, commits, rfl, rfl⟩ :=
          commits
        obtain ⟨put, -⟩ := prepareRecordsDeleteTransition_ok isDelete builds
        refine .inr ⟨admitted, author, transition, _, _, ⟨⟨isDelete, admitMessage_delete isDelete
          admits, isAdmitted, named, by rw [put, indexed], by rw [put, builds]⟩, commits⟩, ?_⟩
        split
        · exact .inl ⟨rfl, rfl⟩
        · rename_i pruned prunes
          exact .inr ⟨rfl, pruned, prunes, rfl⟩

theorem processMessage_delete (isDelete : request.message.descriptor = .recordsDelete d)
    (success : (processMessage p stores request).1.isSuccess = true) :
    ∃ admitted author transition cleanupCids committed pruned,
      Deleted p stores request d admitted author transition cleanupCids committed ∧
      pruneDescendants p request.tenant { stores with messages := committed } d = .ok pruned ∧
      (processMessage p stores request).2 =
        cleanUpData p pruned request.tenant request.message cleanupCids admitted.existing := by
  rcases processMessage_delete_cases isDelete with ⟨refused, -⟩ | ⟨admitted, author, transition,
      cids, committed, deleted, ⟨refused, -⟩ | ⟨-, pruned, prunes, after⟩⟩
  · cases refused.symm.trans success
  · cases refused.symm.trans success
  · exact ⟨admitted, author, transition, cids, committed, pruned, deleted, prunes, after⟩

/-! ## One step -/

theorem Wrote.newRow (wrote : Wrote p stores request admitted staged transition committed)
    (success : (processMessage p stores request).1.isSuccess = true) :
    ∀ mutation ∈ transition.put :: transition.retains,
      NewRow p stores request (rowOf p request.tenant mutation) := by
  obtain ⟨recordId, passed, existing, -⟩ := admitWrite_ok wrote.admits
  obtain ⟨encodedData, sameMessage⟩ := (stageWrite_ok wrote.stages).message
  obtain ⟨put, outranked, -, replaced⟩ := recordsWriteTransition_ok wrote.builds
  rw [existing] at replaced
  intro mutation listed
  rcases List.mem_cons.mp listed with rfl | retained
  · have indexed := wrote.indexed
    rw [put, sameMessage]
    rw [sameMessage] at indexed
    exact .written passed success indexed
  · refine .kept (kept_of_mem_replaceOutranked (fun _ _ keeps => ?_) replaced mutation retained)
    obtain ⟨initial, rfl⟩ := keptByWrite_eq_some.mp keeps
    exact initial

theorem Deleted.newRow {admitted : AdmittedDelete}
    (deleted : Deleted p stores request d admitted author transition cids committed) :
    ∀ mutation ∈ transition.put :: transition.retains,
      NewRow p stores request (rowOf p request.tenant mutation) := by
  obtain ⟨existing, -, -, found⟩ := admitDelete_ok deleted.admits
  obtain ⟨put, -, replaced⟩ := prepareRecordsDeleteTransition_ok deleted.isDelete deleted.builds
  rw [existing] at found replaced
  intro mutation listed
  rcases List.mem_cons.mp listed with rfl | retained
  · rw [put]
    exact .deleted deleted.isDelete deleted.bare (mem_deletedWrite found) deleted.indexed
  · exact .kept (kept_of_mem_replaceOutranked keptByDelete_initial replaced mutation retained)

theorem processMessage_other_cases (notWrite : ∀ d, request.message.descriptor ≠ .recordsWrite d)
    (notDelete : ∀ d, request.message.descriptor ≠ .recordsDelete d) :
    (processMessage p stores request).2 = stores ∨
    ∃ d transition committed, request.message.descriptor = .protocolsConfigure d ∧
      stores.messages.commitLatestState p request.tenant transition = .ok committed ∧
      (processMessage p stores request).2 = { stores with messages := committed } ∧
      transition.deletes = [] ∧
      ∀ mutation ∈ transition.put :: transition.retains,
        NewRow p stores request (rowOf p request.tenant mutation) ∧
        ∃ d, mutation.message.descriptor = .protocolsConfigure d := by
  unfold processMessage
  split
  · exact .inl rfl
  split
  · exact absurd ‹_› (notWrite _)
  · exact absurd ‹_› (notDelete _)
  · rename_i d isConfigure
    unfold handleConfigure
    split
    · exact .inl rfl
    rename_i committed commits
    simp only [commitConfigure, planConfigureTransition, replying, ok_iff] at commits
    obtain ⟨auth, -, _, -, _, -, _, -, _, -, _, -, _, ⟨incoming, isIncoming, retains, reindexed,
      rfl⟩, commits⟩ := commits
    refine .inr ⟨d, _, committed, isConfigure, commits, rfl, rfl, fun mutation listed => ?_⟩
    rcases List.mem_cons.mp listed with rfl | retained
    · have descriptor := configureDescriptor_eq_some.mp isIncoming
      exact ⟨.configured descriptor, _, descriptor⟩
    · obtain ⟨message, -, reindexes⟩ := mem_of_mapM_ok reindexed retained
      simp only [reindexConfigure, ok_iff] at reindexes
      obtain ⟨descriptor, isConfigure, rfl⟩ := reindexes
      have descriptor := configureDescriptor_eq_some.mp isConfigure
      exact ⟨.configured descriptor, _, descriptor⟩
  · exact .inl rfl

inductive Commits (p : Primitives) (stores : Stores) (request : Request)
    (transition : LatestStateTransition) (committed : MessageStore) : Prop
  | write {admitted : AdmittedWrite} {staged : StagedWrite}
      (wrote : Wrote p stores request admitted staged transition committed)
  | delete {d : DeleteDescriptor} {admitted : AdmittedDelete} {author : Did}
      {cleanupCids : List Cid}
      (deleted : Deleted p stores request d admitted author transition cleanupCids committed)
  | configure {d : ConfigureDescriptor}
      (isConfigure : request.message.descriptor = .protocolsConfigure d)
      (configures : ∀ mutation ∈ transition.put :: transition.retains,
        ∃ d, mutation.message.descriptor = .protocolsConfigure d)
      (deletes : transition.deletes = [])

theorem processMessage_cases (p : Primitives) (stores : Stores) (request : Request) :
    (processMessage p stores request).2.messages = stores.messages ∨
    ∃ transition committed cids, Commits p stores request transition committed ∧
      stores.messages.commitLatestState p request.tenant transition = .ok committed ∧
      Removes request.tenant cids (processMessage p stores request).2 { messages := committed } ∧
      ∀ mutation ∈ transition.put :: transition.retains,
        NewRow p stores request (rowOf p request.tenant mutation) := by
  by_cases isWrite : ∃ d, request.message.descriptor = .recordsWrite d
  · obtain ⟨d, isWrite⟩ := isWrite
    rcases processMessage_write_cases isWrite with ⟨-, unchanged⟩ |
      ⟨success, -, admitted, staged, transition, committed, wrote, after⟩
    · exact .inl unchanged
    · obtain ⟨d, id, isIndexed⟩ := recordsWriteIndexes_ok wrote.indexed
      obtain ⟨-, swept, -, squashed, finished⟩ := finishWrite_spec p request.tenant admitted
        { staged.stores with messages := committed } isIndexed.descriptor isIndexed.record
      rw [after, finished]
      exact .inr ⟨transition, committed, _, .write wrote, wrote.commits,
        (removes_postProcessPermissionsWrite p request.tenant swept staged.message).trans squashed,
        wrote.newRow success⟩
  by_cases isDelete : ∃ d, request.message.descriptor = .recordsDelete d
  · obtain ⟨d, isDelete⟩ := isDelete
    rcases processMessage_delete_cases isDelete with ⟨-, unchanged⟩ | ⟨admitted, author,
      transition, cids, committed, deleted, ⟨-, after⟩ | ⟨-, pruned, prunes, after⟩⟩
    · exact .inl unchanged
    · exact .inr ⟨transition, committed, [], .delete deleted, deleted.commits,
        Removes.of_eq (by rw [after]), deleted.newRow⟩
    · obtain ⟨gone, removes⟩ := removes_pruneDescendants prunes
      refine .inr ⟨transition, committed, gone, .delete deleted, deleted.commits, fun row => ?_,
        deleted.newRow⟩
      rw [after, cleanUpData_messages]
      exact removes row
  · rcases processMessage_other_cases (not_exists.mp isWrite) (not_exists.mp isDelete) with
      unchanged | ⟨d, transition, committed, isConfigure, commits, after, deletes, new⟩
    · exact .inl (by rw [unchanged])
    · exact .inr ⟨transition, committed, [],
        .configure isConfigure (fun mutation mutates => (new mutation mutates).2) deletes, commits,
        Removes.of_eq (by rw [after]), fun mutation mutates => (new mutation mutates).1⟩

theorem mem_processMessage {row : Row} (stored : row ∈ (processMessage p stores request).2.messages) :
    row ∈ stores.messages ∨ NewRow p stores request row := by
  rcases processMessage_cases p stores request with unchanged |
      ⟨transition, committed, cids, -, commits, removes, new⟩
  · exact .inl (unchanged ▸ stored)
  · rcases mem_commitLatestState commits (removes.mem stored) with old | rfl |
        ⟨mutation, retained, rfl⟩
    · exact .inl old
    · exact .inr (new _ List.mem_cons_self)
    · exact .inr (new _ (List.mem_cons_of_mem _ retained))

theorem mem_step {event : Event} {row : Row} (stored : row ∈ (step p stores event).messages) :
    row ∈ stores.messages ∨ ∃ request, NewRow p stores request row := by
  cases event with
  | request request => exact (mem_processMessage stored).imp_right fun new => ⟨request, new⟩
  | controlPurge tenant recordId dataCids =>
    exact .inl ((removes_performControlPurge p tenant stores recordId dataCids).mem stored)

end Enbox.Proof.Run
