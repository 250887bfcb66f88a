import Enbox.Lib.Run
import Enbox.Node

/-! # Rows of the message store -/

namespace Enbox.Proof.Run

open Lib List MessageStore

variable {store : MessageStore} {tenant author : Did} {sort : MessageSort} {row : Row}
  {set : FilterSet} {message : Message} {indexes : Indexes} {key : IndexKey} {p : Primitives}
  {cids : List Cid} {transition : LatestStateTransition}

/-! ## Queries -/

theorem mem_rows {filters : Filters} (found : row ∈ store.rows tenant filters sort) :
    row ∈ store ∧ row.tenant = tenant ∧ matchesFilters row.indexes filters = true := by
  unfold MessageStore.rows MessageStore.selected at found
  rw [mem_insertionSort, mem_filter, mem_filter] at found
  simpa using found.1

theorem mem_query (found : message ∈ store.query tenant [set] sort) :
    ∃ row ∈ store, row.tenant = tenant ∧ row.message = message ∧
      matchesSet row.indexes set = true := by
  obtain ⟨row, listed, same⟩ := mem_map.mp found
  obtain ⟨stored, ofTenant, selected⟩ := mem_rows listed
  exact ⟨row, stored, ofTenant, same, by simpa using selected⟩

theorem mem_first (found : store.first tenant [set] sort = some message) :
    ∃ row ∈ store, row.tenant = tenant ∧ row.message = message ∧
      matchesSet row.indexes set = true :=
  mem_query (mem_of_mem_head? found)

theorem text_of_matchesSet (selected : matchesSet indexes set) {asked value : String}
    (clause : (key, stringFilter asked) ∈ set) (indexed : indexes.lookup key = some (.string value)) :
    value = asked := by
  obtain ⟨found, lookup, holds⟩ := matchesSet_clause selected clause
  rw [indexed] at lookup
  cases lookup
  simpa using holds

theorem path_of_matchesSet (selected : matchesSet indexes set) {root : Path}
    (clause : (key, Filter.subtree root) ∈ set) {path : Option Path}
    (indexed : indexes.lookup key = path.map .path) :
    ∃ below, path = some below ∧ root <+: below := by
  obtain ⟨found, lookup, holds⟩ := matchesSet_clause selected clause
  rw [indexed] at lookup
  obtain ⟨below, rfl, rfl⟩ := Option.map_eq_some_iff.mp lookup
  exact ⟨below, rfl, by simpa [matchesFilter, underPath] using holds⟩

/-! ## Commits -/

def rowOf (p : Primitives) (tenant : Did) (mutation : LatestStateMutation) : Row :=
  ⟨tenant, p.messageCid mutation.message, mutation.message, mutation.indexes⟩

theorem mem_delete {cid : Cid} :
    row ∈ store.delete tenant cid ↔ row ∈ store ∧ ¬ (row.tenant = tenant ∧ row.cid = cid) := by
  rw [MessageStore.delete, mem_filter, decide_eq_true_eq]

theorem mem_put {mutation : LatestStateMutation} :
    row ∈ store.put p tenant mutation ↔ row = rowOf p tenant mutation ∨
      row ∈ store ∧ ¬ (row.tenant = tenant ∧ row.cid = p.messageCid mutation.message) := by
  unfold MessageStore.put
  rw [mem_cons, mem_delete]
  rfl

theorem mem_foldl_delete :
    row ∈ cids.foldl (fun staged cid => MessageStore.delete staged tenant cid) store ↔
      row ∈ store ∧ ¬ (row.tenant = tenant ∧ row.cid ∈ cids) :=
  foldl_iff (P := (row ∈ ·)) (fun _ _ _ => mem_delete) store

theorem mem_retain {mutations : List LatestStateMutation} : ∀ {store store' : MessageStore},
      MessageStore.retain p tenant store mutations = .ok store' →
      (mutations.map fun m => p.messageCid m.message).Nodup →
      (row ∈ store' ↔ (∃ mutation ∈ mutations, row = rowOf p tenant mutation) ∨ row ∈ store ∧
        ¬ (row.tenant = tenant ∧ row.cid ∈ mutations.map fun m => p.messageCid m.message)) := by
  induction mutations with
  | nil =>
    intro store store' retained _
    cases retained
    simp
  | cons mutation rest ih =>
    intro store store' retained distinct
    simp only [MessageStore.retain, ok_iff] at retained
    obtain ⟨-, -, retained⟩ := retained
    rw [map_cons, nodup_cons] at distinct
    rw [ih retained distinct.2, mem_put]
    simp only [map_cons, mem_cons, exists_eq_or_imp]
    constructor
    · rintro (kept | ⟨same | old, untouched⟩)
      · exact .inl (.inr kept)
      · exact .inl (.inl same)
      · exact .inr ⟨old.1, by tauto⟩
    · rintro ((rfl | kept) | ⟨old, untouched⟩)
      · exact .inr ⟨.inl rfl, fun touched => distinct.1 touched.2⟩
      · exact .inl kept
      · exact .inr ⟨.inr ⟨old, by tauto⟩, by tauto⟩

def touched (p : Primitives) (transition : LatestStateTransition) : List Cid :=
  ((transition.put :: transition.retains).map fun m => p.messageCid m.message) ++ transition.deletes

section

variable {store' : MessageStore}
  (committed : store.commitLatestState p tenant transition = .ok store')

include committed

theorem commitLatestState_nodup :
    (touched p transition).Nodup := by
  simp only [commitLatestState, LatestStateTransition.validate, ok_iff] at committed
  obtain ⟨-, ⟨-, -, distinct⟩, -⟩ := committed
  exact distinct

theorem mem_commitLatestState_iff :
    row ∈ store' ↔ row = rowOf p tenant transition.put ∨
      (∃ mutation ∈ transition.retains, row = rowOf p tenant mutation) ∨
      row ∈ store ∧ ¬ (row.tenant = tenant ∧ row.cid ∈ touched p transition) := by
  have distinct := commitLatestState_nodup committed
  simp only [commitLatestState, ok_iff] at committed
  obtain ⟨-, -, retained, isRetained, rfl⟩ := committed
  have mutated := (nodup_append.mp distinct).1
  have apart {mutation : LatestStateMutation}
      (listed : mutation ∈ transition.put :: transition.retains) :
      p.messageCid mutation.message ∉ transition.deletes := fun deleted =>
    (nodup_append.mp distinct).2.2 _ (mem_map.mpr ⟨mutation, listed, rfl⟩) _ deleted rfl
  rw [map_cons, nodup_cons] at mutated
  rw [mem_foldl_delete, mem_retain isRetained mutated.2, mem_put]
  simp only [touched, map_cons, mem_append, mem_cons]
  constructor
  · rintro ⟨kept | ⟨same | old, untouched⟩, undeleted⟩
    · exact .inr (.inl kept)
    · exact .inl same
    · exact .inr (.inr ⟨old.1, by tauto⟩)
  · rintro (rfl | ⟨mutation, listed, rfl⟩ | ⟨old, untouched⟩)
    · exact ⟨.inr ⟨.inl rfl, fun touched => mutated.1 touched.2⟩,
        fun touched => apart mem_cons_self touched.2⟩
    · exact ⟨.inl ⟨mutation, listed, rfl⟩,
        fun touched => apart (mem_cons_of_mem _ listed) touched.2⟩
    · exact ⟨.inr ⟨.inr ⟨old, by tauto⟩, by tauto⟩, by tauto⟩

theorem mem_commitLatestState (stored : row ∈ store') :
    row ∈ store ∨ row = rowOf p tenant transition.put ∨
      ∃ mutation ∈ transition.retains, row = rowOf p tenant mutation := by
  have cases := (mem_commitLatestState_iff committed).mp stored
  tauto

end

/-! ## Removals -/

def Removes (tenant : Did) (cids : List Cid) (after before : Stores) : Prop :=
  ∀ row, row ∈ after.messages ↔ row ∈ before.messages ∧ ¬ (row.tenant = tenant ∧ row.cid ∈ cids)

section

variable {stores after before : Stores}

theorem Removes.of_eq (same : after.messages = before.messages) : Removes tenant [] after before := by
  intro row
  simp [same]

theorem Removes.trans {middle : Stores} {xs ys : List Cid} (second : Removes tenant ys after middle)
    (first : Removes tenant xs middle before) : Removes tenant (xs ++ ys) after before := by
  intro row
  rw [second row, first row, mem_append]
  tauto

theorem Removes.mem (removes : Removes tenant cids after before) (stored : row ∈ after.messages) :
    row ∈ before.messages :=
  ((removes row).mp stored).1

theorem removes_deleteMessage (stores : Stores) (tenant : Did) (cid : Cid) :
    Removes tenant [cid] (stores.deleteMessage tenant cid) stores := by
  intro row
  rw [Stores.deleteMessage, mem_delete, mem_singleton]

theorem removes_foldl {α : Type} {remove : Stores → α → Stores} {gone : α → List Cid}
    (removes : ∀ stores item, Removes tenant (gone item) (remove stores item) stores)
    (items : List α) (stores : Stores) :
    Removes tenant (items.flatMap gone) (items.foldl remove stores) stores := by
  induction items generalizing stores with
  | nil => exact Removes.of_eq rfl
  | cons item rest ih => exact (ih _).trans (removes stores item)

theorem removes_deleteMessages (messages : List Message) (stores : Stores) :
    Removes tenant (messages.map p.messageCid)
      (messages.foldl (fun stores m => stores.deleteMessage tenant (p.messageCid m)) stores)
      stores := by
  rw [map_eq_flatMap]
  exact removes_foldl (fun stores m => removes_deleteMessage stores tenant (p.messageCid m))
    messages stores

theorem deleteFromDataStoreIfNeeded_messages (stores : Stores) (tenant : Did) (newest m : Message) :
    (deleteFromDataStoreIfNeeded stores tenant newest m).messages = stores.messages := by
  unfold deleteFromDataStoreIfNeeded
  split
  · split <;> rfl
  · rfl

theorem cleanUpData_messages (p : Primitives) (stores : Stores) (tenant : Did) (newest : Message)
    (cids : List Cid) (existing : List Message) :
    (cleanUpData p stores tenant newest cids existing).messages = stores.messages := by
  unfold cleanUpData
  induction existing.filter fun m => p.messageCid m ∈ cids generalizing stores with
  | nil => rfl
  | cons m rest ih => rw [foldl_cons, ih, deleteFromDataStoreIfNeeded_messages]

theorem performOps_append (stores : Stores) (first second : List StoreOp) :
    performOps p tenant stores (first ++ second) =
      performOps p tenant (performOps p tenant stores first) second :=
  foldl_append

theorem performOps_flatMap {α : Type} {ops : α → List StoreOp} (items : List α) (stores : Stores) :
    performOps p tenant stores (items.flatMap ops) =
      items.foldl (fun stores a => performOps p tenant stores (ops a)) stores := by
  rw [performOps, foldl_flatMap]
  rfl

def Removal : StoreOp → Prop
  | .commitLatestState _ => False
  | .deleteMessage _ => True
  | .deleteData _ _ => True

theorem mem_performOps {ops : List StoreOp} (removals : ∀ op ∈ ops, Removal op) :
    row ∈ (performOps p tenant stores ops).messages ↔
      row ∈ stores.messages ∧ ¬ (row.tenant = tenant ∧ .deleteMessage row.cid ∈ ops) := by
  refine foldl_iff (P := (row ∈ ·.messages)) (fun op listed current => ?_) stores
  cases op with
  | commitLatestState transition => exact (removals _ listed).elim
  | deleteData recordId dataCid => simp [performOp, Stores.deleteData]
  | deleteMessage cid => rw [performOp, Stores.deleteMessage, mem_delete, StoreOp.deleteMessage.injEq]

theorem mem_purgeRecordMessagesOps {messages : List Message} {op : StoreOp} :
    op ∈ purgeRecordMessagesOps p messages ↔
      (∃ recordId dataCid, newestDataOp p messages = some (.deleteData recordId dataCid) ∧
        op = .deleteData recordId dataCid) ∨ ∃ m ∈ messages, op = .deleteMessage (p.messageCid m) := by
  rw [purgeRecordMessagesOps, mem_append, Option.mem_toList, mem_map]
  refine or_congr ⟨fun isOp => ?_, ?_⟩ (by simp only [eq_comm])
  · obtain ⟨_, -, recordId, -, d, -, rfl⟩ : ∃ _, _ := by
      simpa only [newestDataOp, Option.bind_eq_bind, Option.bind_eq_some_iff, Option.pure_def,
        Option.some.injEq] using isOp
    exact ⟨recordId, d.dataCid, isOp, rfl⟩
  · rintro ⟨_, _, isOp, rfl⟩
    exact isOp

theorem removal_purgeRecordMessagesOps {messages : List Message} :
    ∀ op ∈ purgeRecordMessagesOps p messages, Removal op := by
  intro op listed
  obtain ⟨_, _, -, rfl⟩ | ⟨_, -, rfl⟩ := mem_purgeRecordMessagesOps.mp listed <;> exact trivial

theorem removes_purgeRecordMessages (stores : Stores) (messages : List Message) :
    Removes tenant (messages.map p.messageCid) (purgeRecordMessages p tenant stores messages)
      stores := by
  intro row
  rw [purgeRecordMessages, mem_performOps removal_purgeRecordMessagesOps]
  simp [mem_purgeRecordMessagesOps, eq_comm]

def oldSiblingCids (p : Primitives) (recordId : String) (timestamp : Timestamp)
    (sibling : String × List Message) : List Cid :=
  if sibling.1 ≠ recordId ∧
      (newestMessage p sibling.2).any (·.messageTimestamp < timestamp) then
    sibling.2.map p.messageCid
  else []

theorem purgeOlderSiblingOps_eq (recordId : String) (timestamp : Timestamp)
    (sibling : String × List Message) : purgeOlderSiblingOps p recordId timestamp sibling =
      if sibling.1 ≠ recordId ∧ (newestMessage p sibling.2).any (·.messageTimestamp < timestamp) then
        purgeRecordMessagesOps p sibling.2
      else [] := by
  unfold purgeOlderSiblingOps
  by_cases own : sibling.1 = recordId
  · simp [own]
  · cases newestMessage p sibling.2 <;> simp [own]

theorem removes_purgeOlderSibling (recordId : String) (timestamp : Timestamp) (stores : Stores)
    (sibling : String × List Message) :
    Removes tenant (oldSiblingCids p recordId timestamp sibling)
      (performOps p tenant stores (purgeOlderSiblingOps p recordId timestamp sibling)) stores := by
  rw [purgeOlderSiblingOps_eq, oldSiblingCids]
  split
  · exact removes_purgeRecordMessages stores sibling.2
  · exact Removes.of_eq rfl

def squashedCids (p : Primitives) (tenant : Did) (store : MessageStore) (message : Message)
    (d : WriteDescriptor) (recordId : String) : List Cid :=
  (groupByRecord (store.query tenant [siblingFilters d message])).flatMap
    (oldSiblingCids p recordId d.messageTimestamp)

theorem mem_removeAuthorizedOps {m : Message} {op : StoreOp} : op ∈ removeAuthorizedOps p m ↔
    op = .deleteMessage (p.messageCid m) ∨ ∃ d recordId, m.descriptor = .recordsWrite d ∧
      m.recordId = some recordId ∧ maxEncodedDataSize < d.dataSize ∧
        op = .deleteData recordId d.dataCid := by
  simp only [← Message.writeDescriptor_eq_some]
  unfold removeAuthorizedOps
  cases m.writeDescriptor with
  | none => simp
  | some d =>
    cases m.recordId with
    | none => simp
    | some recordId =>
      dsimp only
      split
      · rename_i large
        simp [large, or_comm]
      · rename_i small
        simp [small]

theorem removal_postProcessPermissionsWriteOps :
    ∀ op ∈ postProcessPermissionsWriteOps p store tenant message, Removal op := by
  intro op listed
  obtain ⟨m, -, inBlock⟩ := mem_flatMap.mp listed
  obtain rfl | ⟨_, _, -, -, -, rfl⟩ := mem_removeAuthorizedOps.mp inBlock <;> exact trivial

theorem removes_postProcessPermissionsWrite (p : Primitives) (tenant : Did) (stores : Stores)
    (message : Message) :
    Removes tenant ((revokedMessages stores.messages tenant message).map p.messageCid)
      (postProcessPermissionsWrite p tenant stores message) stores := by
  intro row
  rw [postProcessPermissionsWrite, mem_performOps removal_postProcessPermissionsWriteOps]
  simp [postProcessPermissionsWriteOps, mem_removeAuthorizedOps, eq_comm]

theorem removes_performControlPurge (p : Primitives) (tenant : Did) (stores : Stores)
    (recordId : String) (dataCids : List Cid) :
    Removes tenant ((fetchRecordMessages stores.messages tenant recordId).map p.messageCid)
      (performControlPurge p stores tenant recordId dataCids) stores := by
  have data (stores : Stores) :
      (dataCids.foldl (fun stores dataCid => stores.deleteData tenant recordId dataCid)
        stores).messages = stores.messages := by
    induction dataCids generalizing stores with
    | nil => rfl
    | cons dataCid rest ih => rw [foldl_cons, ih, Stores.deleteData]
  intro row
  rw [performControlPurge, data]
  exact removes_deleteMessages _ stores row

theorem removes_purgeDescendants (fuel : Nat) : ∀ {stores after : Stores} {recordId : String},
    purgeDescendants p tenant fuel stores recordId = .ok after →
    ∃ cids, Removes tenant cids after stores := by
  induction fuel with
  | zero => exact fun purged => by cases purged
  | succ fuel ih =>
    intro stores after recordId purged
    simp only [purgeDescendants, ok_iff] at purged
    obtain ⟨middle, descendants, rfl⟩ := purged
    obtain ⟨⟨cids, removed⟩, -⟩ := foldlM_ok
      (P := fun current => ∃ cids, Removes tenant cids current stores)
      (fun _ _ _ _ before purged => before.elim fun _ before => (ih purged).elim fun _ removes =>
        ⟨_, removes.trans before⟩) ⟨[], .of_eq rfl⟩ descendants
    exact ⟨_, (removes_foldl (fun stores child => removes_purgeRecordMessages stores child.2)
      _ middle).trans removed⟩

end

/-! ## Indexes -/

@[simp] theorem lookup_optionalIndex {α : Type} (key other : IndexKey) (wrap : α → Value)
    (value : Option α) :
    (optionalIndex key wrap value).lookup other = if other = key then value.map wrap else none := by
  cases value <;> simp [optionalIndex, lookup_cons_eq_ite]

theorem lookup_tags (notTag : ∀ name, key ≠ .tag name) (tags : List (String × Value)) :
    (tags.map fun tag => (IndexKey.tag tag.1, tag.2)).lookup key = none := by
  induction tags with
  | nil => rfl
  | cons tag rest ih => rw [map_cons, lookup_cons, beq_false_of_ne (notTag _), ih]

structure IndexedWrite (p : Primitives) (message : Message) (author : Did) (latest : Bool)
    (indexes : Indexes) (d : WriteDescriptor) (recordId : String) : Prop where
  descriptor : message.descriptor = .recordsWrite d
  record : message.recordId = some recordId
  interface : indexes.lookup .interface = some (.string recordsInterface)
  method : indexes.lookup .method = some (.string writeMethod)
  protocol : indexes.lookup .protocol = some (.string d.protocol)
  protocolPath : indexes.lookup .protocolPath = some (.path d.protocolPath)
  recipient : indexes.lookup .recipient = d.recipient.map .string
  parentId : indexes.lookup .parentId = d.parentId.map .string
  permissionGrantId : indexes.lookup .permissionGrantId = d.permissionGrantId.map .string
  timestamp : indexes.lookup .messageTimestamp = some (.dateTime d.messageTimestamp)
  dataSize : indexes.lookup .dataSize = some (.number (asI64 d.dataSize))
  published : indexes.lookup .published = some (.bool (d.published.getD false))
  squash : indexes.lookup .squash = some (.bool (d.squash.getD false))
  recordId : indexes.lookup .recordId = some (.string recordId)
  entryId : indexes.lookup .entryId = some (.string (p.entryId author d))
  contextId : indexes.lookup .contextId = message.contextId.map .path
  isLatestBaseState : indexes.lookup .isLatestBaseState = some (.bool latest)
  author : indexes.lookup .author = some (.string author)
  tags : latest = true → ∀ name, indexes.lookup (.tag name) = d.tags.bind (·.lookup name)

theorem lookup_tag (name : String) (tags : Option (List (String × Value))) :
    ((tags.getD []).map fun tag => (IndexKey.tag tag.1, tag.2)).lookup (.tag name) =
      tags.bind (·.lookup name) := by
  cases tags with
  | none => rfl
  | some tags =>
    simp only [Option.getD_some, Option.bind_some]
    induction tags with
    | nil => rfl
    | cons tag rest ih =>
      cases tag
      simp [lookup_cons_eq_ite, ih]

theorem recordsWriteIndexes_ok {latest : Bool}
    (indexed : recordsWriteIndexes p message author latest = .ok indexes) :
    ∃ d recordId, IndexedWrite p message author latest indexes d recordId := by
  simp only [recordsWriteIndexes, Message.writeDescriptorOr_eq_ok, ok_iff] at indexed
  obtain ⟨d, isWrite, recordId, hasId, rfl⟩ := indexed
  have noTags : ∀ {key : IndexKey}, (∀ name, key ≠ .tag name) →
      (if latest = true then (d.tags.getD []).map fun tag => (IndexKey.tag tag.1, tag.2)
        else []).lookup key = none := by
    intro key notTag
    split
    · exact lookup_tags notTag _
    · rfl
  refine ⟨d, recordId, ?_⟩
  constructor <;>
    simp +contextual [isWrite, hasId, writeDescriptorIndexes, lookup_append, lookup_cons_eq_ite,
      noTags, lookup_tag, -append_assoc, -cons_append]

structure IndexedDelete (message initialWrite : Message) (author : Did) (indexes : Indexes)
    (d : DeleteDescriptor) (initial : WriteDescriptor) : Prop where
  isDelete : message.descriptor = .recordsDelete d
  isWrite : initialWrite.descriptor = .recordsWrite initial
  interface : indexes.lookup .interface = some (.string recordsInterface)
  method : indexes.lookup .method = some (.string deleteMethod)
  protocol : indexes.lookup .protocol = some (.string initial.protocol)
  parentId : indexes.lookup .parentId = initial.parentId.map .string
  permissionGrantId : indexes.lookup .permissionGrantId = d.permissionGrantId.map .string
  timestamp : indexes.lookup .messageTimestamp = some (.dateTime d.messageTimestamp)
  squash : indexes.lookup .squash = none
  isLatestBaseState : indexes.lookup .isLatestBaseState = some (.bool true)
  recipient : indexes.lookup .recipient = initial.recipient.map .string
  published : indexes.lookup .published = none
  recordId : indexes.lookup .recordId = some (.string d.recordId)
  entryId : indexes.lookup .entryId = none
  protocolPath : indexes.lookup .protocolPath = some (.path initial.protocolPath)
  contextId : indexes.lookup .contextId = initialWrite.contextId.map .path
  author : indexes.lookup .author = some (.string author)

theorem recordsDeleteIndexes_ok {initialWrite : Message}
    (indexed : recordsDeleteIndexes message initialWrite author = .ok indexes) :
    ∃ d initial, IndexedDelete message initialWrite author indexes d initial := by
  simp only [recordsDeleteIndexes, Message.writeDescriptorOr_eq_ok, ok_iff,
    Message.deleteDescriptor_eq_some] at indexed
  obtain ⟨d, isDelete, initial, isWrite, rfl⟩ := indexed
  refine ⟨d, initial, ?_⟩
  constructor <;>
    simp [isDelete, isWrite, lookup_append, lookup_cons_eq_ite, -append_assoc,
      -cons_append]

structure IndexedConfigure (d : ConfigureDescriptor) (author : Option Did) (indexes : Indexes) :
    Prop where
  interface : indexes.lookup .interface = some (.string protocolsInterface)
  published : indexes.lookup .published = some (.bool d.definition.published)
  permissionGrantId : indexes.lookup .permissionGrantId = d.permissionGrantId.map .string
  recipient : indexes.lookup .recipient = none
  recordId : indexes.lookup .recordId = none
  entryId : indexes.lookup .entryId = none
  author : indexes.lookup .author = author.map .string

theorem configureIndexes_indexed (d : ConfigureDescriptor) (author : Option Did) (latest : Bool) :
    IndexedConfigure d author (configureIndexes d author latest) := by
  constructor <;>
    simp [configureIndexes, lookup_append, lookup_cons_eq_ite, -append_assoc,
      -cons_append]

end Enbox.Proof.Run
