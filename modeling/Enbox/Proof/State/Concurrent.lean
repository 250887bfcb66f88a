import Enbox.Concurrent
import Enbox.Proof.Run.Latest
import Enbox.Proof.State.InitialWrite

/-! # Concurrent messages on one record -/

namespace Enbox.Proof.State

open Lib Run List

variable {store : MessageStore} {tenant : Did} {message : Message} {recordId : String}
  {d : WriteDescriptor} {outranked : List Cid} {keepAs : Message → Option Did}
  {transition : LatestStateTransition} {stage : Stage}

section

variable (p : Primitives)

def alone (request : Request) (stage : Stage × Stores) : Stage × Stores :=
  handlerStep p stage.2 request stage.1

variable {p}

theorem admitWrite_eq {resolver : Option DidResolver} (record : message.recordId = some recordId) :
    admitWrite p resolver store tenant message =
      admitWriteOn p resolver store tenant message (fetchRecordMessages store tenant recordId) := by
  rw [admitWrite, record]
  rfl

theorem commitWrite_eq (tenant : Did) (admitted : AdmittedWrite) (staged : StagedWrite) :
    commitWrite p tenant admitted staged = writeTransition p admitted staged >>= fun transition =>
      replying (always 500) (staged.stores.messages.commitLatestState p tenant transition) := by
  simp only [commitWrite, writeTransition, bind_assoc]

theorem commitDelete_eq (store : MessageStore) (tenant : Did) (message : Message)
    (admitted : AdmittedDelete) :
    commitDelete p store tenant message admitted =
      deleteTransition p message admitted >>= fun prepared =>
        store.commitLatestState p tenant prepared.1 >>= fun committed =>
          pure (committed, prepared.2) := by
  simp only [commitDelete, deleteTransition, bind_assoc]

theorem alone_write (stores : Stores) (request : Request)
    (isWrite : request.message.descriptor = .recordsWrite d) :
    (alone p request)^[4] (.arrived, stores) =
      (.done (processMessage p stores request).1, (processMessage p stores request).2) := by
  simp only [Function.iterate_succ, Function.iterate_zero, Function.comp, id_eq, alone, handlerStep,
    queryStep, processMessage, isWrite]
  cases admits : admitMessage request.message with
  | error failure => rfl
  | ok _ =>
    simp only [admitMessage, isWrite, admitRecordsWrite, ok_iff] at admits
    obtain ⟨recordId, record⟩ := Option.isSome_iff_exists.mp admits.choose_spec.1
    have named : (messageRecordId request.message).getD "" = recordId := by
      simp [messageRecordId, record]
    simp only [named, planWriteStep, handleWrite, admitWrite_eq record]
    cases admitWriteOn p request.resolver stores.messages request.tenant request.message
        (fetchRecordMessages stores.messages request.tenant recordId) with
    | error status => rfl
    | ok admitted =>
      dsimp only
      cases replying validationStatus (stageWrite p stores request.tenant request.message
          request.data admitted) with
      | error status => rfl
      | ok staged =>
        dsimp only
        rw [commitWrite_eq]
        cases writeTransition p admitted staged with
        | error status => rfl
        | ok transition =>
          dsimp only [commitStep, ok_bind]
          cases staged.stores.messages.commitLatestState p request.tenant transition <;> rfl

theorem alone_delete (stores : Stores) (request : Request) {d : DeleteDescriptor}
    (isDelete : request.message.descriptor = .recordsDelete d) :
    (alone p request)^[4] (.arrived, stores) =
      (.done (processMessage p stores request).1, (processMessage p stores request).2) := by
  simp only [Function.iterate_succ, Function.iterate_zero, Function.comp, id_eq, alone, handlerStep,
    queryStep, processMessage, isDelete]
  cases admits : admitMessage request.message with
  | error failure => rfl
  | ok _ =>
    have named : (messageRecordId request.message).getD "" = d.recordId := by
      simp [messageRecordId, admitMessage_delete isDelete admits,
        Message.deleteDescriptor_eq_some.mpr isDelete]
    simp only [named, planDeleteStep, handleDelete]
    rw [show admitDelete p request.resolver stores.messages request.tenant request.message d =
      admitDeleteOn p _ _ _ _ d (fetchRecordMessages stores.messages request.tenant d.recordId)
      from rfl]
    cases admitDeleteOn p request.resolver stores.messages request.tenant request.message d
        (fetchRecordMessages stores.messages request.tenant d.recordId) with
    | error status => rfl
    | ok admitted =>
      dsimp only [performRecordsDelete]
      rw [commitDelete_eq]
      cases deleteTransition p request.message admitted with
      | error failure => rfl
      | ok prepared =>
        dsimp only [commitStep, ok_bind]
        cases stores.messages.commitLatestState p request.tenant prepared.1 <;> rfl

theorem advance_last (request : Request) (before : List (Request × Stage)) (count : Nat) :
    ∀ stage stores accepted, ∃ accepted',
      (replicate count (Move.advance before.length)).foldl (World.step p)
          ⟨stores, before ++ [(request, stage)], accepted⟩ =
        ⟨((alone p request)^[count] (stage, stores)).2,
          before ++ [(request, ((alone p request)^[count] (stage, stores)).1)], accepted'⟩ := by
  induction count with
  | zero => exact fun _ _ accepted => ⟨accepted, rfl⟩
  | succ count ih =>
    intro stage stores accepted
    simp only [replicate_succ, foldl_cons, World.step, getElem?_concat_length, set_append_right,
      le_refl, Nat.sub_self, set_cons_zero]
    exact ih _ _ _

variable (p) in
def replies : Stores → List Request → List (Request × Stage)
  | _, [] => []
  | stores, request :: rest =>
      (request, .done (processMessage p stores request).1) ::
        replies (processMessage p stores request).2 rest

/-- Every run of the node over records messages is an interleaving of handlers. -/
theorem node_run_is_interleaving (requests : List Request)
    (records : ∀ request ∈ requests, (∃ d, request.message.descriptor = .recordsWrite d) ∨
      ∃ d, request.message.descriptor = .recordsDelete d) (world : World) :
    ∃ moves : List Move,
      (moves.foldl (World.step p) world).stores =
        (requests.map Event.request).foldl (step p) world.stores ∧
      (moves.foldl (World.step p) world).handlers =
        world.handlers ++ replies p world.stores requests := by
  induction requests generalizing world with
  | nil => exact ⟨[], rfl, (append_nil _).symm⟩
  | cons request rest ih =>
    obtain ⟨accepted, ran⟩ :=
      advance_last (p := p) request world.handlers 4 .arrived world.stores world.accepted
    obtain ⟨moves, stores, handlers⟩ := ih (fun other listed => records other (.tail _ listed))
      ⟨(processMessage p world.stores request).2,
        world.handlers ++ [(request, .done (processMessage p world.stores request).1)], accepted⟩
    refine ⟨.arrive request :: replicate 4 (.advance world.handlers.length) ++ moves, ?_⟩
    have handled := (records request mem_cons_self).elim
      (fun ⟨_, isWrite⟩ => alone_write (p := p) world.stores request isWrite)
      fun ⟨_, isDelete⟩ => alone_delete world.stores request isDelete
    rw [foldl_append, foldl_cons, World.step, ran, handled]
    exact ⟨stores, handlers.trans (append_assoc ..)⟩

end

open Run.Threads in
theorem edit_interleaves : ∃ moves : List Move,
    (moves.foldl (World.step p) { stores := stores started }).stores = stores edited ∧
    (moves.foldl (World.step p) { stores := stores started }).handlers =
      [(request role "role", .done accepted), (request edit "two", .done accepted)] := by
  have records : ∀ next ∈ [request role "role", request edit "two"],
      (∃ d, next.message.descriptor = .recordsWrite d) ∨
        ∃ d, next.message.descriptor = .recordsDelete d := by
    simpa using ⟨.inl ⟨_, rfl⟩, .inl ⟨_, rfl⟩⟩
  exact node_run_is_interleaving _ records { stores := stores started }

/-! ## The condition -/

def Planned.existing : Planned → List Message
  | .write admitted _ => admitted.existing
  | .delete admitted _ _ => admitted.existing

def Meets (p : Primitives) (tenant : Did) (recordId : String) (store : MessageStore)
    (stage : Stage) : Prop :=
  ∀ row ∈ store, OfRecord tenant recordId row →
    match stage with
    | .planned planned _ => row.cid ∈ (Planned.existing planned).map p.messageCid
    | .committed (.write _ staged) => ∀ d, staged.message.descriptor = .recordsWrite d →
        ¬ Revokes d row
    | _ => True

/-- The messages are of one record, and no step is disturbed by a step in between. -/
def Undisturbed (p : Primitives) (tenant : Did) (recordId : String) (world : World) : Move → Prop
  | .arrive request => OnRecord tenant recordId request
  | .advance handler => ∀ request stage, world.handlers[handler]? = some (request, stage) →
      Meets p tenant recordId world.stores.messages stage

structure Tops (p : Primitives) (tenant : Did) (recordId : String) (store : MessageStore)
    (accepted : List Message) (top : Message) : Prop where
  isAccepted : top ∈ accepted
  greatest : ∀ m ∈ accepted, rank p m ≤ rank p top
  retained : ∃ row ∈ store, OfRecord tenant recordId row ∧ row.cid = p.messageCid top
  latest : ∀ row ∈ store, OfRecord tenant recordId row → IsLatest row →
    row.cid = p.messageCid top

structure PlansOn (p : Primitives) (tenant : Did) (recordId : String) (message : Message)
    (existing : List Message) (transition : LatestStateTransition) : Prop where
  put : p.messageCid transition.put.message = p.messageCid message
  state : StateMessage transition.put.message recordId
  above : ∀ m ∈ existing, rank p m < rank p message
  replaced : ∀ cid, (cid ∈ transition.retains.map fun m => p.messageCid m.message) ∨
    cid ∈ transition.deletes ↔ cid ∈ existing.map p.messageCid
  filed : ∀ mutation ∈ transition.put :: transition.retains, Filed p (rowOf p tenant mutation)
  stale : ∀ mutation ∈ transition.retains,
    mutation.indexes.lookup .isLatestBaseState = some (.bool false)

def PlannedFor (request : Request) : Planned → Prop
  | .write _ staged => ∃ d, request.message.descriptor = .recordsWrite d ∧
      ∃ encodedData, staged.message = setEncodedData request.message encodedData
  | .delete _ d _ => request.message.descriptor = .recordsDelete d

def StageOk (p : Primitives) (tenant : Did) (recordId : String) (request : Request) : Stage → Prop
  | .planned planned transition => PlannedFor request planned ∧
      PlansOn p tenant recordId request.message (Planned.existing planned) transition
  | .committed planned => PlannedFor request planned
  | _ => True

structure Inv (p : Primitives) (tenant : Did) (recordId : String) (world : World) : Prop where
  sound : Sound p world.stores.messages
  handlers : ∀ request stage, (request, stage) ∈ world.handlers →
    OnRecord tenant recordId request ∧ StageOk p tenant recordId request stage
  latest : (world.accepted = [] ∧ ∀ row ∈ world.stores.messages, ¬ OfRecord tenant recordId row) ∨
    ∃ top, Tops p tenant recordId world.stores.messages world.accepted top

section

variable {p : Primitives} {request : Request} {stores : Stores}

theorem retained_stale (tenant : Did) {existing : List Message} {retains : List LatestStateMutation}
    {deletes : List Cid}
    (replaced : replaceOutranked p outranked keepAs existing = .ok (retains, deletes)) :
    ∀ mutation ∈ retains, Filed p (rowOf p tenant mutation) ∧
      mutation.indexes.lookup .isLatestBaseState = some (.bool false) := by
  intro mutation listed
  obtain ⟨m, -, -, author, -, retained⟩ := ((replaceOutranked_ok replaced).1 mutation).mp listed
  simp only [retainedInitialWrite, ok_iff] at retained
  obtain ⟨indexes, indexed, rfl⟩ := retained
  obtain ⟨d, id, isIndexed⟩ := recordsWriteIndexes_ok indexed
  exact ⟨.write isIndexed, isIndexed.isLatestBaseState⟩

theorem plansOn_of_replaced {existing : List Message} {cid : Cid}
    (planned : planRecordsTransition p message existing = .ok (.apply cid outranked))
    (replaced : replaceOutranked p outranked keepAs existing =
      .ok (transition.retains, transition.deletes))
    (put : ∃ encodedData, transition.put.message = setEncodedData message encodedData)
    (state : StateMessage message recordId) (filed : Filed p (rowOf p tenant transition.put)) :
    PlansOn p tenant recordId message existing transition := by
  obtain ⟨encodedData, same⟩ := put
  have replaces := replaces_of_planned planned replaced
  refine ⟨by rw [same]; rfl, by rw [same, stateMessage_setEncodedData]; exact state,
    replaces.outranks, replaces.cids, ?_,
    fun mutation listed => (retained_stale tenant replaced mutation listed).2⟩
  exact forall_mem_cons.mpr
    ⟨filed, fun mutation listed => (retained_stale tenant replaced mutation listed).1⟩

variable (p stores) in
theorem planWriteStep_ok (on : OnRecord tenant recordId request)
    (isWrite : request.message.descriptor = .recordsWrite d) (existing : List Message) :
    StageOk p tenant recordId request (planWriteStep p stores request existing).1 ∧
      (planWriteStep p stores request existing).2.messages = stores.messages := by
  unfold planWriteStep
  split
  · exact ⟨trivial, rfl⟩
  · rename_i admitted admits
    split
    · exact ⟨trivial, rfl⟩
    · rename_i staged stages
      obtain ⟨unchanged, encodedData, same⟩ := stageWrite_ok (mapError_eq_ok.mp stages)
      split
      · exact ⟨trivial, unchanged⟩
      · rename_i transition builds
        refine ⟨⟨⟨d, isWrite, encodedData, same⟩, ?_⟩, unchanged⟩
        simp only [admitWriteOn, replying, ok_iff] at admits
        obtain ⟨plan, planned, _, fresh, auth, -, _, -, _, -, _, -, _, -, _, -, _, -, _, passes,
          rfl⟩ := admits
        obtain ⟨cid, outranked, rfl⟩ := refuseSuperseded_ok fresh passes
        simp only [writeTransition, replying, ok_iff] at builds
        obtain ⟨_, -, indexes, indexed, builds⟩ := builds
        obtain ⟨put, _, outranks, replaced⟩ := recordsWriteTransition_ok builds
        cases outranks
        obtain ⟨d, id, isIndexed⟩ := recordsWriteIndexes_ok indexed
        refine plansOn_of_replaced planned replaced ⟨encodedData, by rw [put, same]⟩ on.state ?_
        rw [put]
        exact .write isIndexed

variable (p stores) in
theorem planDeleteStep_ok (on : OnRecord tenant recordId request) {d : DeleteDescriptor}
    (isDelete : request.message.descriptor = .recordsDelete d) (existing : List Message) :
    StageOk p tenant recordId request (planDeleteStep p stores request d existing).1 ∧
      (planDeleteStep p stores request d existing).2 = stores := by
  have bare : request.message.recordId = none := by
    rcases on.state with ⟨isWrite, -⟩ | ⟨-, bare, -⟩
    · cases isDelete.symm.trans isWrite
    · exact bare
  unfold planDeleteStep
  split
  · exact ⟨trivial, rfl⟩
  · rename_i admitted admits
    split
    · exact ⟨trivial, rfl⟩
    · rename_i transition cids builds
      refine ⟨⟨isDelete, ?_⟩, rfl⟩
      simp only [admitDeleteOn, replying, ok_iff] at admits
      obtain ⟨auth, -, _, -, plan, planned, _, applies, initialWrite, -, _, -, rfl⟩ := admits
      simp only [deleteTransition, ok_iff] at builds
      obtain ⟨author, -, indexes, indexed, builds⟩ := builds
      obtain ⟨put, outranks, replaced⟩ := prepareRecordsDeleteTransition_ok isDelete builds
      obtain ⟨e, initial, isIndexed⟩ := recordsDeleteIndexes_ok indexed
      cases plan with
      | duplicate => cases applies
      | superseded => cases applies
      | apply cid outranked =>
        cases outranks
        refine plansOn_of_replaced planned replaced
          ⟨request.message.fields.encodedData, by rw [put, setEncodedData_self]⟩ on.state ?_
        rw [put]
        exact .delete bare isIndexed

theorem PlansOn.commit {committed : MessageStore} {existing : List Message}
    {accepted : List Message} (plans : PlansOn p tenant recordId message existing transition)
    (known : ∀ row ∈ store, OfRecord tenant recordId row →
      row.cid ∈ existing.map p.messageCid)
    (commits : store.commitLatestState p tenant transition = .ok committed)
    (below : ∀ m ∈ accepted, ∃ row ∈ store, OfRecord tenant recordId row ∧
      rank p m ≤ rank p row.message) (sound : Sound p store) (law : p.CollisionFree) :
    Tops p tenant recordId committed (accepted ++ [message]) message := by
  have touchedIff {cid : Cid} : cid ∈ touched p transition ↔
      cid = p.messageCid message ∨ cid ∈ existing.map p.messageCid := by
    rw [touched, map_cons, cons_append, mem_cons, mem_append, plans.replaced,
      plans.put]
  refine ⟨by simp, fun m listed => ?_, ?_, fun row stored ofRecord latest => ?_⟩
  · rcases mem_append.mp listed with old | same
    · obtain ⟨row, stored, ofRecord, le⟩ := below m old
      obtain ⟨other, found, sameCid⟩ := mem_map.mp (known row stored ofRecord)
      rw [sound.addressed row stored] at sameCid
      exact (le.trans_lt (rank_congr law sameCid ▸ plans.above other found)).le
    · rw [mem_singleton.mp same]
  · exact ⟨rowOf p tenant transition.put, (mem_commitLatestState_iff commits).mpr (.inl rfl),
      ⟨rfl, plans.state⟩, plans.put⟩
  · rcases (mem_commitLatestState_iff commits).mp stored with rfl | ⟨mutation, listed, rfl⟩ |
        ⟨old, untouched⟩
    · exact plans.put
    · cases (plans.stale mutation listed).symm.trans latest
    · exact absurd ⟨ofRecord.tenant, touchedIff.mpr (.inr (known row old ofRecord))⟩ untouched

theorem finishStep_keeps (law : p.CollisionFree) (sound : Sound p stores.messages)
    (on : OnRecord tenant recordId request) {planned : Planned}
    (isFor : PlannedFor request planned)
    (meets : Meets p tenant recordId stores.messages (.committed planned)) :
    Sound p (finishStep p stores request planned).2.messages ∧
    ∀ row, OfRecord tenant recordId row →
      (row ∈ (finishStep p stores request planned).2.messages ↔ row ∈ stores.messages) := by
  obtain ⟨rfl, state⟩ := on
  cases planned with
  | write admitted staged =>
    obtain ⟨d, isWrite, encodedData, same⟩ := isFor
    have stagedWrite : staged.message.descriptor = .recordsWrite d := by rw [same]; exact isWrite
    have stagedRecord : staged.message.recordId = some recordId := by
      rcases state with ⟨-, record⟩ | ⟨isDelete, -, -⟩
      · rw [same]
        exact record
      · cases isWrite.symm.trans isDelete
    obtain ⟨-, swept, -, removes, finished⟩ :=
      finishWrite_spec p request.tenant admitted stores stagedWrite stagedRecord
    refine ⟨?_, fun row ofRecord => ?_⟩
    · simp only [finishStep, finished]
      exact (removes_postProcessPermissionsWrite p request.tenant swept staged.message).sound
        (removes.sound sound)
    · simp only [finishStep, mem_finishWrite stores sound stagedWrite stagedRecord,
        ofRecord.not_squashed, ofRecord.tenant, true_and, false_or]
      exact and_iff_left_of_imp fun stored => meets row stored ofRecord d stagedWrite
  | delete admitted d cids =>
    have named : d.recordId = recordId := by
      rcases state with ⟨isWrite, -⟩ | ⟨isDelete, -, rfl⟩
      · cases isFor.symm.trans isWrite
      · cases isFor.symm.trans isDelete
        rfl
    simp only [finishStep]
    split
    · exact ⟨sound, fun _ _ => Iff.rfl⟩
    · rename_i pruned prunes
      rw [cleanUpData_messages]
      obtain ⟨gone, removes⟩ := removes_pruneDescendants prunes
      refine ⟨removes.sound sound, fun row ofRecord => ⟨removes.mem, fun stored => ?_⟩⟩
      by_contra removed
      obtain ⟨child, other, ofChild⟩ := pruneDescendants_keeps law prunes sound stored removed
      exact other (named ▸ ofChild.state.unique ofRecord.state)

inductive Advances (p : Primitives) (tenant : Did) (recordId : String) (stores : Stores)
    (stage : Stage) (next : Stage × Stores) : Prop
  | quiet (still : commits stage next.1 = false) (sound : Sound p next.2.messages)
      (rows : ∀ row, OfRecord tenant recordId row →
        (row ∈ next.2.messages ↔ row ∈ stores.messages))
  | commit {planned : Planned} {transition : LatestStateTransition}
      (isPlanned : stage = .planned planned transition) (isCommit : commits stage next.1 = true)
      (committed : stores.messages.commitLatestState p tenant transition = .ok next.2.messages)

theorem Advances.unchanged (sound : Sound p stores.messages) {next : Stage × Stores}
    (still : commits stage next.1 = false) (unchanged : next.2.messages = stores.messages) :
    Advances p tenant recordId stores stage next :=
  .quiet still (unchanged ▸ sound) fun row _ => by rw [unchanged]

theorem queryStep_cases (stores : Stores) (request : Request) :
    (∃ status, queryStep stores request = .done status) ∨
      ∃ existing, queryStep stores request = .queried existing := by
  unfold queryStep
  split
  · exact .inl ⟨_, rfl⟩
  · exact .inr ⟨_, rfl⟩

theorem handlerStep_ok (law : p.CollisionFree) (sound : Sound p stores.messages)
    (on : OnRecord tenant recordId request) (ok : StageOk p tenant recordId request stage)
    (meets : Meets p tenant recordId stores.messages stage) :
    StageOk p tenant recordId request (handlerStep p stores request stage).1 ∧
    Advances p tenant recordId stores stage (handlerStep p stores request stage) := by
  cases stage with
  | arrived =>
    rcases queryStep_cases stores request with ⟨status, queried⟩ | ⟨existing, queried⟩
    all_goals
      simp only [handlerStep, queried]
      exact ⟨trivial, .unchanged sound rfl rfl⟩
  | queried existing =>
    unfold handlerStep
    rcases on.state with @⟨d, isWrite, -⟩ | @⟨d, isDelete, -⟩
    · obtain ⟨nextOk, unchanged⟩ := planWriteStep_ok p stores on isWrite existing
      simp only [isWrite]
      exact ⟨nextOk, .unchanged sound rfl unchanged⟩
    · obtain ⟨nextOk, unchanged⟩ := planDeleteStep_ok p stores on isDelete existing
      simp only [isDelete]
      exact ⟨nextOk, .unchanged sound rfl (by rw [unchanged])⟩
  | planned planned transition =>
    simp only [handlerStep, commitStep, on.tenant]
    split
    · exact ⟨trivial, .unchanged sound rfl rfl⟩
    · rename_i committed commits
      exact ⟨ok.1, .commit rfl rfl commits⟩
  | committed planned =>
    obtain ⟨soundAfter, rows⟩ := finishStep_keeps law sound on ok meets
    exact ⟨trivial, .quiet rfl soundAfter rows⟩
  | done status => exact ⟨trivial, .unchanged sound rfl rfl⟩

theorem Tops.congr {after : MessageStore} {accepted : List Message} {top : Message}
    (tops : Tops p tenant recordId store accepted top)
    (rows : ∀ row, OfRecord tenant recordId row → (row ∈ after ↔ row ∈ store)) :
    Tops p tenant recordId after accepted top := by
  obtain ⟨row, stored, ofRecord, cid⟩ := tops.retained
  exact ⟨tops.isAccepted, tops.greatest, ⟨row, (rows row ofRecord).mpr stored, ofRecord, cid⟩,
    fun row stored ofRecord => tops.latest row ((rows row ofRecord).mp stored) ofRecord⟩

theorem Inv.below (law : p.CollisionFree) {world : World} (inv : Inv p tenant recordId world) :
    ∀ m ∈ world.accepted, ∃ row ∈ world.stores.messages, OfRecord tenant recordId row ∧
      rank p m ≤ rank p row.message := by
  intro m listed
  rcases inv.latest with ⟨nothing, -⟩ | ⟨top, tops⟩
  · rw [nothing] at listed
    cases listed
  · obtain ⟨row, stored, ofRecord, cid⟩ := tops.retained
    rw [inv.sound.addressed row stored] at cid
    exact ⟨row, stored, ofRecord, rank_congr law cid ▸ tops.greatest m listed⟩

theorem Inv.step (law : p.CollisionFree) {world : World} (inv : Inv p tenant recordId world)
    {move : Move} (undisturbed : Undisturbed p tenant recordId world move) :
    Inv p tenant recordId (world.step p move) := by
  cases move with
  | arrive request =>
    refine ⟨inv.sound, fun other stage listed => ?_, inv.latest⟩
    rcases mem_append.mp listed with old | new
    · exact inv.handlers other stage old
    · cases mem_singleton.mp new
      exact ⟨undisturbed, trivial⟩
  | advance handler =>
    cases found : world.handlers[handler]? with
    | none =>
      simp only [World.step, found]
      exact inv
    | some entry =>
      obtain ⟨request, stage⟩ := entry
      obtain ⟨on, ok⟩ := inv.handlers request stage (mem_of_getElem? found)
      have meets := undisturbed request stage found
      obtain ⟨nextOk, advances⟩ := handlerStep_ok law inv.sound on ok meets
      simp only [World.step, found]
      have handlers (other : Request) (next : Stage) (listed : (other, next) ∈
          world.handlers.set handler (request, (handlerStep p world.stores request stage).1)) :
          OnRecord tenant recordId other ∧ StageOk p tenant recordId other next := by
        rcases mem_or_eq_of_mem_set listed with old | same
        · exact inv.handlers other next old
        · cases same
          exact ⟨on, nextOk⟩
      cases advances with
      | quiet still sound rows =>
        refine ⟨sound, handlers, ?_⟩
        rw [still]
        refine inv.latest.imp (fun ⟨nothing, fresh⟩ => ⟨nothing, fun row stored ofRecord => ?_⟩)
          fun ⟨top, tops⟩ => ⟨top, tops.congr rows⟩
        exact fresh row ((rows row ofRecord).mp stored) ofRecord
      | commit isPlanned isCommit committed =>
        subst isPlanned
        refine ⟨inv.sound.commit committed ok.2.filed, handlers, .inr ⟨request.message, ?_⟩⟩
        rw [isCommit]
        exact ok.2.commit meets committed (inv.below law) inv.sound law

theorem Inv.start (sound : Sound p stores.messages) (greatest : LatestGreatest p stores.messages) :
    Inv p tenant recordId
      { stores, accepted := fetchRecordMessages stores.messages tenant recordId } := by
  refine ⟨sound, by simp, ?_⟩
  cases found : (fetchRecordMessages stores.messages tenant recordId).argmax (rank p) with
  | none =>
    have nothing := argmax_eq_none.mp found
    refine .inl ⟨nothing, fun row stored ofRecord => ?_⟩
    have listed := sound.mem_fetchRecordMessages.mpr ⟨row, stored, ofRecord, rfl⟩
    rw [nothing] at listed
    cases listed
  | some top =>
    have listed := argmax_mem found
    obtain ⟨row, stored, ofRecord, rfl⟩ := sound.mem_fetchRecordMessages.mp listed
    refine .inr ⟨row.message, listed, fun m other => le_of_mem_argmax other found,
      ⟨row, stored, ofRecord, sound.addressed row stored⟩, fun other otherStored otherOf latest => ?_⟩
    have below := le_of_mem_argmax
      (sound.mem_fetchRecordMessages.mpr ⟨other, otherStored, otherOf, rfl⟩) found
    rw [sound.addressed other otherStored]
    exact rank_inj (below.antisymm
      (greatest tenant recordId other otherStored otherOf latest row stored ofRecord))

end

/-- In every undisturbed interleaving at most one retained message of the record is the latest state,
and it is the greatest of the accepted ones and those that were retained before. -/
theorem latest_greatest_while_undisturbed {p : Primitives} (law : p.CollisionFree)
    {allowed : Stores → Event → Prop} {base : Stores} (reached : Reaches (step p) allowed {} base)
    {tenant : Did} {recordId : String} {world : World}
    (run : Reaches (World.step p) (Undisturbed p tenant recordId)
      { stores := base, accepted := fetchRecordMessages base.messages tenant recordId } world)
    {row : Row} (stored : row ∈ world.stores.messages) (ofRecord : OfRecord tenant recordId row)
    (latest : IsLatest row) :
    (∃ top ∈ world.accepted, row.cid = p.messageCid top ∧
      ∀ m ∈ world.accepted, rank p m ≤ rank p top) ∧
    ∀ other ∈ world.stores.messages, OfRecord tenant recordId other → IsLatest other →
      other = row := by
  have inv : Inv p tenant recordId world :=
    run.invariant (P := Inv p tenant recordId)
      (.start (sound_of_reaches sound_nil reached) (latestGreatest_of_reaches law reached))
      fun world move inv undisturbed => inv.step law undisturbed
  rcases inv.latest with ⟨-, nothing⟩ | ⟨top, tops⟩
  · exact absurd ofRecord (nothing row stored)
  · refine ⟨⟨top, tops.isAccepted, tops.latest row stored ofRecord latest, tops.greatest⟩, ?_⟩
    intro other otherStored otherOf otherLatest
    exact inv.sound.unique other otherStored row stored (otherOf.tenant.trans ofRecord.tenant.symm)
      ((tops.latest other otherStored otherOf otherLatest).trans
        (tops.latest row stored ofRecord latest).symm)

namespace Threads

open Run.Threads

noncomputable def start : World where
  stores := stores joined
  accepted := fetchRecordMessages (stores joined).messages "did:ex:alice" "T2"

noncomputable def world (moves : List Move) : World := moves.foldl (World.step p) start

def inTurn : List Move :=
  [.arrive (request twoAsOne "one"), .advance 0, .advance 0, .advance 0, .advance 0]

def crossing : List Move :=
  [.arrive (request twoAsOne "one"), .arrive (request edit "two"), .advance 0, .advance 1,
    .advance 0, .advance 1, .advance 0, .advance 1, .advance 0, .advance 1]

theorem two_only : ∀ row ∈ (stores joined).messages, OfRecord "did:ex:alice" "T2" row →
    row.cid = "m1" := by
  have rows : (stores joined).messages.all (fun row =>
      messageRecordId row.message != some "T2" || row.cid == "m1") = true := rfl
  intro row stored ofRecord
  have checked := all_eq_true.mp rows row stored
  rw [ofRecord.state.messageRecordId] at checked
  simpa using checked

theorem undisturbed_inTurn :
    AllowedAlong (World.step p) (Undisturbed p "did:ex:alice" "T2") start inTurn := by
  refine ⟨⟨rfl, .write rfl rfl⟩, fun _ stage found => ?_, fun _ stage found => ?_,
    fun _ stage found => ?_, fun _ stage found => ?_, trivial⟩
  · have isArrived : Stage.arrived = stage :=
      congrArg (fun entry => (entry.map Prod.snd).getD .arrived) found
    subst isArrived
    exact fun _ _ _ => trivial
  · obtain ⟨existing, isQueried⟩ : ∃ existing, Stage.queried existing = stage :=
      ⟨_, congrArg (fun entry => (entry.map Prod.snd).getD .arrived) found⟩
    subst isQueried
    exact fun _ _ _ => trivial
  · obtain ⟨planned, transition, isPlanned, queried⟩ : ∃ planned transition,
        Stage.planned planned transition = stage ∧
          (Planned.existing planned).map p.messageCid = ["m1"] :=
      ⟨_, _, congrArg (fun entry => (entry.map Prod.snd).getD .arrived) found, rfl⟩
    subst isPlanned
    intro row stored ofRecord
    change row ∈ (stores joined).messages at stored
    simp only [queried, two_only row stored ofRecord, mem_singleton]
  · obtain ⟨admitted, staged, isCommitted, descriptor⟩ : ∃ admitted staged,
        Stage.committed (.write admitted staged) = stage ∧
          staged.message.descriptor = .recordsWrite (thread "one" 2) :=
      ⟨_, _, congrArg (fun entry => (entry.map Prod.snd).getD .arrived) found, rfl⟩
    subst isCommitted
    intro row stored ofRecord d isWrite revokes
    cases isWrite.symm.trans descriptor
    exact absurd revokes.protocol (by decide)

theorem reached : Reaches (step p) (fun _ _ => True) {} (stores joined) :=
  AllowedAlong.reaches ⟨trivial, trivial, trivial, trivial, trivial⟩

end Threads

open Threads in
theorem two_latest_in_turn :
    p.CollisionFree ∧ Reaches (step p) (fun _ _ => True) {} (stores joined) ∧
    Reaches (World.step p) (Undisturbed p "did:ex:alice" "T2") start (world inTurn) ∧
    ∃ row ∈ (world inTurn).stores.messages, row.cid = "m2" ∧
      OfRecord "did:ex:alice" "T2" row ∧ IsLatest row ∧
      ∃ top ∈ (world inTurn).accepted, row.cid = p.messageCid top ∧
        ∀ m ∈ (world inTurn).accepted, rank p m ≤ rank p top := by
  have run := undisturbed_inTurn.reaches
  obtain ⟨row, stored, isTwo, ofRecord, latest⟩ : ∃ row ∈ (world inTurn).stores.messages,
      row.cid = "m2" ∧ OfRecord "did:ex:alice" "T2" row ∧ IsLatest row :=
    exists_mem_of_find? (·.cid == "m2") ⟨_, rfl, rfl, ⟨rfl, .write rfl rfl⟩, rfl⟩
  exact ⟨collisionFree, reached, run, row, stored, isTwo, ofRecord, latest,
    (latest_greatest_while_undisturbed collisionFree reached run stored ofRecord latest).1⟩

open Threads in
theorem two_latest_twice :
    p.CollisionFree ∧ Reaches (step p) (fun _ _ => True) {} (stores joined) ∧
    (world crossing).handlers.map Prod.snd = [.done accepted, .done accepted] ∧
    ∃ row ∈ (world crossing).stores.messages, ∃ other ∈ (world crossing).stores.messages,
      OfRecord "did:ex:alice" "T2" row ∧ IsLatest row ∧
      OfRecord "did:ex:alice" "T2" other ∧ IsLatest other ∧ row.cid ≠ other.cid := by
  refine ⟨collisionFree, reached, rfl, exists_mem_of_find? (·.cid == "m2") ⟨_, rfl,
    exists_mem_of_find? (·.cid == "m5") ⟨_, rfl, ⟨rfl, .write rfl rfl⟩, rfl,
      ⟨rfl, .write rfl rfl⟩, rfl, ?_⟩⟩⟩
  exact show "m2" ≠ "m5" by decide

end Enbox.Proof.State
