import Enbox.Proof.State.Backed
import Enbox.Tasks.Controller

/-! # Purges in progress -/

namespace Enbox.Proof.Tasks

open Lib Run State Relation List

variable {p : Primitives} {tenant : Did} {whole stores : Stores} {recordId : String}
  {d : WriteDescriptor}

theorem purgeDescendants_eq_ops (fuel : Nat) : ∀ (stores : Stores) (recordId : String),
    purgeDescendants p tenant fuel stores recordId =
      (purgeDescendantsOps p tenant fuel stores recordId).map (performOps p tenant stores) := by
  induction fuel with
  | zero => exact fun _ _ => rfl
  | succ fuel ih =>
    intro stores recordId
    have walked : ∀ (groups : List (String × List Message)) (ops : List StoreOp),
        groups.foldlM (fun stores child => purgeDescendants p tenant fuel stores child.1)
          (performOps p tenant stores ops) =
        (groups.foldlM (fun (ops : List StoreOp) (child : String × List Message) => do
          let more ← purgeDescendantsOps p tenant fuel (performOps p tenant stores ops) child.1
          return (ops ++ more : List StoreOp)) ops).map (performOps p tenant stores) := by
      intro groups
      induction groups with
      | nil => exact fun _ => rfl
      | cons group rest ihRest =>
        intro ops
        rw [foldlM_cons, foldlM_cons, ih]
        cases purgeDescendantsOps p tenant fuel (performOps p tenant stores ops) group.1 with
        | error failure => rfl
        | ok more =>
          change rest.foldlM _ (performOps p tenant (performOps p tenant stores ops) more) = _
          rw [← performOps_append]
          exact ihRest (ops ++ more)
    rw [purgeDescendants, purgeDescendantsOps]
    have below := walked (groupByRecord (stores.messages.query tenant [childFilters recordId])) []
    rw [show performOps p tenant stores [] = stores from rfl] at below
    rw [below]
    generalize (List.foldlM _ ([] : List StoreOp) _ : Except Failure (List StoreOp)) = found
    cases found with
    | error failure => rfl
    | ok ops =>
      change Except.ok _ = Except.ok _
      rw [performOps_append, performOps_flatMap]
      rfl

theorem pruneDescendants_eq_ops (stores : Stores) (d : DeleteDescriptor) :
    pruneDescendants p tenant stores d =
      (pruneDescendantsOps p tenant stores d).map (performOps p tenant stores) := by
  unfold pruneDescendants pruneDescendantsOps
  split
  · exact purgeDescendants_eq_ops _ stores d.recordId
  · rfl

structure Trims (after before : Stores) : Prop where
  messages : ∃ keep : Row → Bool, after.messages = before.messages.filter keep
  data : ∃ keep : DataRow → Bool, after.data = before.data.filter keep

section

variable {after before middle : Stores}

theorem Trims.refl (stores : Stores) : Trims stores stores :=
  ⟨⟨fun _ => true, by simp⟩, fun _ => true, by simp⟩

theorem Trims.trans (second : Trims after middle) (first : Trims middle before) :
    Trims after before := by
  obtain ⟨⟨keep, messages⟩, keepData, data⟩ := first
  obtain ⟨⟨keep', messages'⟩, keepData', data'⟩ := second
  exact ⟨⟨_, by rw [messages', messages, filter_filter]⟩,
    _, by rw [data', data, filter_filter]⟩

theorem Trims.row (trims : Trims after before) {row : Row} (stored : row ∈ after.messages) :
    row ∈ before.messages := by
  obtain ⟨keep, messages⟩ := trims.messages
  rw [messages] at stored
  exact mem_of_mem_filter stored

theorem Trims.dataRow (trims : Trims after before) {row : DataRow} (stored : row ∈ after.data) :
    row ∈ before.data := by
  obtain ⟨keep, data⟩ := trims.data
  rw [data] at stored
  exact mem_of_mem_filter stored

theorem filter_eq_of_mem_iff {α : Type} {items : List α} {keep keep' : α → Bool}
    (same : ∀ a, a ∈ items.filter keep ↔ a ∈ items.filter keep') :
    items.filter keep = items.filter keep' := by
  refine filter_congr fun a listed => ?_
  have agree := same a
  simp only [mem_filter, listed, true_and] at agree
  exact Bool.eq_iff_iff.mpr agree

theorem Trims.ext {left right : Stores} (first : Trims left whole) (second : Trims right whole)
    (rows : ∀ row, row ∈ left.messages ↔ row ∈ right.messages)
    (data : ∀ row, row ∈ left.data ↔ row ∈ right.data) : left = right := by
  obtain ⟨⟨keep, isLeft⟩, keepData, isLeftData⟩ := first
  obtain ⟨⟨keep', isRight⟩, keepData', isRightData⟩ := second
  obtain ⟨leftMessages, leftData⟩ := left
  obtain ⟨rightMessages, rightData⟩ := right
  subst isLeft isRight isLeftData isRightData
  rw [filter_eq_of_mem_iff rows, filter_eq_of_mem_iff data]

theorem trims_deleteMessage (stores : Stores) (tenant : Did) (cid : Cid) :
    Trims (stores.deleteMessage tenant cid) stores :=
  ⟨⟨_, rfl⟩, fun _ => true, by simp [Stores.deleteMessage]⟩

theorem trims_deleteData (stores : Stores) (tenant : Did) (recordId : String) (dataCid : Cid) :
    Trims (stores.deleteData tenant recordId dataCid) stores :=
  ⟨⟨fun _ => true, by simp [Stores.deleteData]⟩, _, rfl⟩

theorem mem_deleteMessage {cid : Cid} {row : Row} :
    row ∈ (stores.deleteMessage tenant cid).messages ↔
      row ∈ stores.messages ∧ ¬ (row.tenant = tenant ∧ row.cid = cid) :=
  mem_delete

theorem mem_deleteData {dataCid : Cid} {row : DataRow} :
    row ∈ (stores.deleteData tenant recordId dataCid).data ↔
      row ∈ stores.data ∧ reference row ≠ (tenant, recordId, dataCid) := by
  have drops := drops_deleteData stores tenant recordId dataCid row
  simpa using drops

theorem Trims.references (trims : Trims after before) {key : DataKey}
    (present : key ∈ references after.data) : key ∈ references before.data := by
  obtain ⟨row, stored, same⟩ := present
  exact ⟨row, trims.dataRow stored, same⟩

end

def age (p : Primitives) (m : Message) : ℕ ×ₗ String := toLex (m.messageTimestamp, p.messageCid m)

structure NewestOf (p : Primitives) (store : MessageStore) (tenant : Did) (recordId : String)
    (row : Row) (d : WriteDescriptor) : Prop where
  stored : row ∈ store
  ofRecord : OfRecord tenant recordId row
  isWrite : row.message.descriptor = .recordsWrite d
  newest : ∀ other ∈ store, OfRecord tenant recordId other → ∀ e,
    other.message.descriptor = .recordsWrite e → age p other.message ≤ age p row.message

abbrev Below (store : MessageStore) (tenant : Did) : String → String → Prop :=
  TransGen (ChildOf store tenant)

def Gone (current : Stores) (tenant : Did) (recordId : String) : Prop :=
  ∀ row ∈ current.messages, ¬ OfRecord tenant recordId row

section

variable (p : Primitives) (tenant : Did) (whole : Stores) (root : String)

structure Ready (current : Stores) (recordId : String) : Prop where
  children : ∀ child, ChildOf whole.messages tenant recordId child → Gone current tenant child
  data : ∀ row d, NewestOf p whole.messages tenant recordId row d →
    (tenant, recordId, d.dataCid) ∉ references current.data

structure Partway (current : Stores) : Prop where
  trims : Trims current whole
  lost : ∀ row ∈ whole.messages, row ∉ current.messages → ∃ recordId, OfRecord tenant recordId row ∧
    Below whole.messages tenant root recordId ∧ Ready p tenant whole current recordId
  newest : ∀ recordId row d, NewestOf p whole.messages tenant recordId row d →
    row ∉ current.messages → ∀ other ∈ current.messages, OfRecord tenant recordId other → ∀ e,
      other.message.descriptor ≠ .recordsWrite e
  data : ∀ row ∈ whole.data, row ∉ current.data → ∃ recordId newest d,
    Below whole.messages tenant root recordId ∧
      NewestOf p whole.messages tenant recordId newest d ∧
      reference row = (tenant, recordId, d.dataCid)

def Justified (current : Stores) : StoreOp → Prop
  | .commitLatestState _ => False
  | .deleteData recordId dataCid => ∃ row d, Below whole.messages tenant root recordId ∧
      NewestOf p whole.messages tenant recordId row d ∧ d.dataCid = dataCid
  | .deleteMessage cid => ∀ row ∈ current.messages, row.tenant = tenant → row.cid = cid →
      ∃ recordId, OfRecord tenant recordId row ∧ Below whole.messages tenant root recordId ∧
        Ready p tenant whole current recordId ∧
        ∀ d, NewestOf p whole.messages tenant recordId row d → ∀ other ∈ current.messages,
          OfRecord tenant recordId other → ∀ e, other.message.descriptor = .recordsWrite e →
            other = row

variable {p tenant whole root} {current later : Stores}

theorem Gone.mono (gone : Gone current tenant recordId) (trims : Trims later current) :
    Gone later tenant recordId :=
  fun row stored => gone row (trims.row stored)

theorem Ready.mono (ready : Ready p tenant whole current recordId) (trims : Trims later current) :
    Ready p tenant whole later recordId where
  children child isChild := (ready.children child isChild).mono trims
  data row d newest present := ready.data row d newest (trims.references present)

theorem Partway.refl : Partway p tenant whole root whole where
  trims := .refl whole
  lost _ stored gone := absurd stored gone
  newest _ _ _ newest gone := absurd newest.stored gone
  data _ stored gone := absurd stored gone

theorem Partway.step {op : StoreOp} (partway : Partway p tenant whole root current)
    (justified : Justified p tenant whole root current op) :
    Partway p tenant whole root (performOp p tenant current op) := by
  cases op with
  | commitLatestState transition => exact justified.elim
  | deleteData recordId dataCid =>
    obtain ⟨holder, d, below, newest, rfl⟩ := justified
    have trims := trims_deleteData current tenant recordId d.dataCid
    refine ⟨trims.trans partway.trims, fun row stored gone => ?_, partway.newest, ?_⟩
    · obtain ⟨id, ofRecord, isBelow, ready⟩ := partway.lost row stored gone
      exact ⟨id, ofRecord, isBelow, ready.mono trims⟩
    · intro row stored gone
      by_cases same : reference row = (tenant, recordId, d.dataCid)
      · exact ⟨recordId, holder, d, below, newest, same⟩
      · exact partway.data row stored fun kept => gone (mem_deleteData.mpr ⟨kept, same⟩)
  | deleteMessage cid =>
    have trims := trims_deleteMessage current tenant cid
    refine ⟨trims.trans partway.trims, fun row stored gone => ?_, ?_, partway.data⟩
    · by_cases kept : row ∈ current.messages
      · have isRow := not_not.mp fun other => gone (mem_deleteMessage.mpr ⟨kept, other⟩)
        obtain ⟨id, ofRecord, below, ready, -⟩ := justified row kept isRow.1 isRow.2
        exact ⟨id, ofRecord, below, ready.mono trims⟩
      · obtain ⟨id, ofRecord, isBelow, ready⟩ := partway.lost row stored kept
        exact ⟨id, ofRecord, isBelow, ready.mono trims⟩
    · intro id row d newest gone other isOther ofRecord e isWrite
      have otherKept := trims.row isOther
      by_cases kept : row ∈ current.messages
      · have isRow := not_not.mp fun other => gone (mem_deleteMessage.mpr ⟨kept, other⟩)
        obtain ⟨id', ofRow, -, -, last⟩ := justified row kept isRow.1 isRow.2
        cases newest.ofRecord.state.unique ofRow.state
        exact gone (last d newest other otherKept ofRecord e isWrite ▸ isOther)
      · exact partway.newest id row d newest kept other otherKept ofRecord e isWrite

theorem Partway.along {ops : List StoreOp} (partway : Partway p tenant whole root current)
    (along : AllowedAlong (performOp p tenant) (Justified p tenant whole root) current ops) :
    Partway p tenant whole root (performOps p tenant current ops) ∧
      Trims (performOps p tenant current ops) current := by
  refine along.reaches.invariant (P := fun later => Partway p tenant whole root later ∧
    Trims later current) ⟨partway, .refl current⟩ ?_
  rintro later op ⟨partway, trims⟩ justified
  refine ⟨partway.step justified, Trims.trans ?_ trims⟩
  cases op with
  | commitLatestState transition => exact justified.elim
  | deleteData recordId dataCid => exact trims_deleteData later tenant recordId dataCid
  | deleteMessage cid => exact trims_deleteMessage later tenant cid

end

section

variable {store : MessageStore} {row : Row}

theorem eq_of_age_eq (sound : Sound p store) {a b : Row} (storedA : a ∈ store) (storedB : b ∈ store)
    (sameTenant : a.tenant = b.tenant) (same : age p a.message = age p b.message) : a = b := by
  refine sound.unique a storedA b storedB sameTenant ?_
  rw [sound.addressed a storedA, sound.addressed b storedB]
  exact (Prod.mk.inj (toLex.injective same)).2

theorem NewestOf.eq (sound : Sound p store) {a b : Row} {e : WriteDescriptor}
    (first : NewestOf p store tenant recordId a d)
    (second : NewestOf p store tenant recordId b e) : a = b ∧ d = e := by
  have same := eq_of_age_eq sound first.stored second.stored
    (first.ofRecord.tenant.trans second.ofRecord.tenant.symm)
    (le_antisymm (second.newest a first.stored first.ofRecord d first.isWrite)
      (first.newest b second.stored second.ofRecord e second.isWrite))
  subst same
  cases first.isWrite.symm.trans second.isWrite
  exact ⟨rfl, rfl⟩

theorem NewestOf.subset {fewer : MessageStore} (newest : NewestOf p store tenant recordId row d)
    (mem : ∀ row ∈ fewer, row ∈ store) (stored : row ∈ fewer) :
    NewestOf p fewer tenant recordId row d :=
  ⟨stored, newest.ofRecord, newest.isWrite, fun other isOther => newest.newest other (mem other isOther)⟩

theorem newestWrite_cases {members : List Message} (isMember : ∀ m, m ∈ members ↔
      ∃ row ∈ store, OfRecord tenant recordId row ∧ row.message = m) :
    newestMessage p (members.filter (·.writeDescriptor.isSome)) = none ∧
      (∀ row ∈ store, OfRecord tenant recordId row → ∀ d, row.message.descriptor ≠ .recordsWrite d) ∨
    ∃ row d, NewestOf p store tenant recordId row d ∧
      newestMessage p (members.filter (·.writeDescriptor.isSome)) = some row.message := by
  have writes {row : Row} {d : WriteDescriptor} (stored : row ∈ store)
      (ofRecord : OfRecord tenant recordId row)
      (isWrite : row.message.descriptor = .recordsWrite d) :
      row.message ∈ members.filter (·.writeDescriptor.isSome) :=
    mem_filter.mpr ⟨(isMember _).mpr ⟨row, stored, ofRecord, rfl⟩,
      by rw [Message.writeDescriptor_eq_some.mpr isWrite]; rfl⟩
  cases found : newestMessage p (members.filter (·.writeDescriptor.isSome)) with
  | none =>
    refine .inl ⟨rfl, fun row stored ofRecord d isWrite => ?_⟩
    have listed := writes stored ofRecord isWrite
    rw [maxBy_eq_none.mp found] at listed
    cases listed
  | some newest =>
    obtain ⟨listed, greatest⟩ := maxBy_eq_some (compareMessages_eq_compare p) found
    obtain ⟨member, isSome⟩ := mem_filter.mp listed
    obtain ⟨d, isDescriptor⟩ := Option.isSome_iff_exists.mp isSome
    obtain ⟨row, stored, ofRecord, rfl⟩ := (isMember newest).mp member
    exact .inr ⟨row, d, ⟨stored, ofRecord, Message.writeDescriptor_eq_some.mp isDescriptor,
      fun other isOther ofOther _ isWrite => greatest _ (writes isOther ofOther isWrite)⟩, rfl⟩

theorem exists_newestOf (sound : Sound p store) (stored : row ∈ store)
    (ofRecord : OfRecord tenant recordId row) (isWrite : row.message.descriptor = .recordsWrite d) :
    ∃ top e, NewestOf p store tenant recordId top e := by
  rcases newestWrite_cases (p := p) fun _ => sound.mem_fetchRecordMessages with
    ⟨-, none⟩ | ⟨top, e, newest, -⟩
  · exact absurd isWrite (none row stored ofRecord d)
  · exact ⟨top, e, newest⟩

theorem newestDataOp_iff (sound : Sound p store) {members : List Message} {op : StoreOp}
    (isMember : ∀ m, m ∈ members ↔
      ∃ row ∈ store, OfRecord tenant recordId row ∧ row.message = m) :
    newestDataOp p members = some op ↔ ∃ row d, NewestOf p store tenant recordId row d ∧
      op = .deleteData recordId d.dataCid := by
  rcases newestWrite_cases (p := p) isMember with ⟨found, none⟩ | ⟨row, d, newest, found⟩
  · simp only [newestDataOp, found, Option.bind_eq_bind, Option.bind_none, reduceCtorEq, false_iff]
    rintro ⟨row, d, newest, -⟩
    exact none row newest.stored newest.ofRecord d newest.isWrite
  · have record : row.message.recordId = some recordId := by
      cases newest.ofRecord.state with
      | write _ record => exact record
      | delete isDelete => cases newest.isWrite.symm.trans isDelete
    have isOp : newestDataOp p members = some (.deleteData recordId d.dataCid) := by
      simp [newestDataOp, found, record, Message.writeDescriptor_eq_some.mpr newest.isWrite]
    rw [isOp, Option.some.injEq]
    constructor
    · rintro rfl
      exact ⟨row, d, newest, rfl⟩
    · rintro ⟨other, e, isOther, rfl⟩
      obtain ⟨-, rfl⟩ := newest.eq sound isOther
      rfl

end

abbrev Precedes (p : Primitives) (direction : SortDirection) (a b : Message) : Prop :=
  direction.apply (compare (age p a) (age p b)) ≠ .gt

theorem precedes_ascending {a b : Message} :
    Precedes p .ascending a b ↔ age p a ≤ age p b := by
  rw [Precedes, SortDirection.apply, Ne, compare_gt_iff_gt, not_lt]

theorem precedes_descending {a b : Message} :
    Precedes p .descending a b ↔ age p b ≤ age p a := by
  rw [Precedes, SortDirection.apply, Ne, Ordering.swap_eq_gt, compare_lt_iff_lt, not_lt]

theorem query_sorted {store : MessageStore} (sound : Sound p store) (filters : Filters)
    (direction : SortDirection) :
    (store.query tenant filters (.timestamp direction)).Pairwise (Precedes p direction) := by
  have : Std.Total (Precedes p direction) := ⟨fun a b => by
    cases direction <;> simp only [precedes_ascending, precedes_descending, le_total]⟩
  have : IsTrans Message (Precedes p direction) := ⟨fun a b c => by
    cases direction
    · simpa only [precedes_ascending] using le_trans
    · simpa only [precedes_descending] using fun ab bc => le_trans bc ab⟩
  have sorted := map_insertionSort
    (fun a b : Row => compareRows (.timestamp direction) a b ≠ .gt) (Precedes p direction)
    (fun row : Row => row.message)
    ((store.selected tenant filters).filter fun row =>
      (row.indexes.lookup (MessageSort.property (.timestamp direction))).isSome)
    fun a listedA b listedB => by
      have storedA := mem_of_mem_filter (mem_of_mem_filter listedA)
      have storedB := mem_of_mem_filter (mem_of_mem_filter listedB)
      rw [Precedes, age, age, compare_toLex, compareRows, MessageSort.property,
        (sound.filed a storedA).timestamp, (sound.filed b storedB).timestamp,
        sound.addressed a storedA, sound.addressed b storedB, compareText_eq_compare]
      rfl
  rw [MessageStore.query, MessageStore.rows, sorted]
  exact pairwise_insertionSort _ _

end Enbox.Proof.Tasks
