import Enbox.Proof.State.Convergence

/-! # Squashes and the order of writes -/

namespace Enbox.Proof.State

open Lib Run Enbox.Message

variable {p : Primitives} {stores : Stores} {recordId otherId : String} {d : WriteDescriptor}
  {row : Row} {m : Message} {store : MessageStore} {tenant other author : Did}
  {requests : List Request}

/-! ## Scopes -/

structure Scope where
  tenant : Did
  protocol : String
  path : Path
  context : FilterSet

def Scope.filters (scope : Scope) : FilterSet :=
  [(.interface, stringFilter recordsInterface), (.protocol, stringFilter scope.protocol),
    (.protocolPath, pathFilter scope.path)] ++ scope.context

structure Scope.Holds (scope : Scope) (m : Message) (d : WriteDescriptor) : Prop where
  isWrite : m.descriptor = .recordsWrite d
  protocol : d.protocol = scope.protocol
  path : d.protocolPath = scope.path
  context : siblingContext m = scope.context

structure ScopeWrite (scope : Scope) (base : MessageStore) (request : Request) (recordId : String)
    (d : WriteDescriptor) : Prop where
  ofTenant : request.tenant = scope.tenant
  record : request.message.recordId = some recordId
  inScope : scope.Holds request.message d
  fresh : ∀ row ∈ base, ¬ OfRecord scope.tenant recordId row

section

variable {scope : Scope} {base : MessageStore} {request : Request}

theorem Scope.Holds.siblingFilters (holds : scope.Holds m d) :
    siblingFilters d m = scope.filters := by
  rw [Enbox.siblingFilters, Scope.filters, holds.protocol, holds.path, holds.context]

theorem Scope.Holds.congr {a b : Message} (holds : scope.Holds b d)
    (same : setEncodedData a none = setEncodedData b none) : scope.Holds a d :=
  ⟨(descriptor_congr same).trans holds.isWrite, holds.protocol, holds.path,
    (congrArg siblingContext same).trans holds.context⟩

theorem siblingContext_selected {indexes : Indexes}
    (indexed : indexes.lookup .contextId = m.contextId.map .path) :
    matchesSet indexes (siblingContext m) = true := by
  unfold siblingContext
  split
  · rfl
  · rename_i context isContext
    split
    · rfl
    · simp [indexed, isContext, matchesFilter, underPath, List.dropLast_prefix]

theorem Scope.Holds.selected (filed : Filed p row) (holds : scope.Holds row.message d) :
    matchesSet row.indexes scope.filters = true := by
  obtain ⟨id, author, latest, indexed⟩ := filed.of_isWrite holds.isWrite
  have inContext := siblingContext_selected indexed.contextId
  rw [holds.context] at inContext
  simp [Scope.filters, indexed.interface, indexed.protocol, indexed.protocolPath, holds.protocol,
    holds.path, inContext]

theorem unrevoking_of_declared (declared : declaresSquash store tenant d = true) :
    d.protocol ≠ permissionsProtocolUri ∨ d.protocolPath ≠ permissionsRevocationPath := by
  by_contra core
  simp only [not_or, ne_eq, not_not] at core
  rw [declaresSquash, core.1, core.2] at declared
  cases declared

theorem newestSquash_selects_iff (inScope : scope.Holds m d) :
    matchesSet row.indexes (newestSquashFilters d m) = true ↔
      matchesSet row.indexes scope.filters = true ∧
      matchesSet row.indexes [(.method, stringFilter writeMethod),
        (.isLatestBaseState, boolFilter true), (.squash, boolFilter true)] = true := by
  simp only [newestSquashFilters, Scope.filters, matchesSet_append, matchesSet_cons,
    Bool.and_eq_true, inScope.protocol, inScope.path, inScope.context]
  tauto

theorem newestSquash_selected {e : WriteDescriptor} (inScope : scope.Holds m d)
    (filed : Filed p row) (holds : scope.Holds row.message e) (isSquash : e.squash = some true)
    (isLatest : IsLatest row) :
    matchesSet row.indexes (newestSquashFilters d m) = true := by
  obtain ⟨id, author, latest, indexed⟩ := filed.of_isWrite holds.isWrite
  have isLatest : row.indexes.lookup .isLatestBaseState = some (.bool true) := isLatest
  refine (newestSquash_selects_iff inScope).mpr ⟨holds.selected filed, ?_⟩
  simp [indexed.method, indexed.squash, isLatest, isSquash]

theorem exists_older_squash (sound : Sound p store) (isWrite : m.descriptor = .recordsWrite d)
    (declared : declaresSquash store tenant d = true)
    (passed : enforceSquashBackstop store tenant m = .ok ()) (stored : row ∈ store)
    (ofTenant : row.tenant = tenant)
    (selected : matchesSet row.indexes (newestSquashFilters d m) = true) :
    ∃ newest ∈ store, newest.tenant = tenant ∧
      matchesSet newest.indexes (newestSquashFilters d m) = true ∧
      newest.message.messageTimestamp < d.messageTimestamp := by
  simp only [enforceSquashBackstop, writeDescriptorOr_eq_ok.mpr isWrite, ok_bind, declared,
    if_true] at passed
  have listed : row.message ∈ store.query tenant [newestSquashFilters d m] (.timestamp .descending) :=
    (mem_query_iff sound.filed).mpr ⟨row, stored, ofTenant, rfl, selected⟩
  split at passed
  · rename_i nothing
    rw [MessageStore.first, List.head?_eq_none_iff] at nothing
    rw [nothing] at listed
    cases listed
  · rename_i newest found
    obtain ⟨newestRow, newestStored, newestTenant, rfl, newestSelected⟩ := mem_first found
    exact ⟨newestRow, newestStored, newestTenant, newestSelected, ensure_eq_ok.mp passed⟩

section

variable (law : p.CollisionFree) (sound : Sound p stores.messages)
  (write : ScopeWrite scope base request recordId d)
  (declared : declaresSquash stores.messages scope.tenant d = true)

include law sound write declared

theorem ScopeWrite.mem_other (other : ¬ OfRecord scope.tenant recordId row) :
    row ∈ (processMessage p stores request).2.messages ↔ row ∈ stores.messages ∧
      ¬ (Accepted p stores request ∧ row.tenant = scope.tenant ∧
        Squashed stores.messages scope.tenant request.message d recordId row) := by
  have unrevoking := unrevoking_of_declared declared
  rw [mem_write_other law sound write.inScope.isWrite write.record (write.ofTenant ▸ other),
    write.ofTenant]
  refine and_congr_right fun _ => not_congr (and_congr_right fun _ => and_congr_right fun _ => ?_)
  refine or_iff_left fun revokes => ?_
  exact unrevoking.elim (· revokes.protocol) (· revokes.protocolPath)

theorem ScopeWrite.mem_before (other : ¬ OfRecord scope.tenant recordId row)
    (stored : row ∈ (processMessage p stores request).2.messages) : row ∈ stores.messages :=
  ((write.mem_other law sound declared other).mp stored).1

theorem ScopeWrite.stays (other : ¬ OfRecord scope.tenant recordId row) {floor : Timestamp}
    (bounded : d.squash = some true → d.messageTimestamp ≤ floor)
    (above : row.tenant = scope.tenant → matchesSet row.indexes scope.filters = true →
      floor ≤ row.message.messageTimestamp) (stored : row ∈ stores.messages) :
    row ∈ (processMessage p stores request).2.messages := by
  refine (write.mem_other law sound declared other).mpr ⟨stored, ?_⟩
  rintro ⟨-, ofTenant, squash, inScope, sibling, -, ofSibling, older⟩
  have earlier := older row stored ofSibling inScope
  rw [write.inScope.siblingFilters] at inScope
  exact (earlier.trans_le (bounded squash)).not_ge (above ofTenant inScope)

theorem ScopeWrite.sameRows (plain : d.squash ≠ some true)
    (apart : ¬ (other = scope.tenant ∧ otherId = recordId)) :
    SameRows other otherId (processMessage p stores request).2.messages stores.messages := by
  intro row ofRow
  rw [write.mem_other law sound declared fun ofRecord => apart
    ⟨ofRow.tenant.symm.trans ofRecord.tenant, ofRow.state.unique ofRecord.state⟩]
  exact and_iff_left_of_imp fun _ ⟨_, _, squashed⟩ => plain squashed.squash

end

end

/-! ## The greatest squash -/

/-- The records of a scope with the greatest of its squashes: `newer` are those whose initial write is
newer than that squash. The store at the start has nothing in the scope. -/
structure Scene (p : Primitives) where
  scope : Scope
  base : Stores
  squash : Request
  squashId : String
  squasher : Did
  squashed : WriteDescriptor
  newer : Set String
  founder : String → Did
  initial : String → Request
  reached : Reaches (step p) (fun _ _ => True) {} base
  empty : ∀ row ∈ base.messages, row.tenant = scope.tenant →
    matchesSet row.indexes scope.filters = false
  write : ScopeWrite scope base.messages squash squashId squashed
  isSquash : squashed.squash = some true
  isInitial : p.isInitialWrite squash.message squasher = true
  signed : requestAuthor p squash = some squasher
  sent : sentWithData p squash = true
  apart : squashId ∉ newer
  fresh : ∀ recordId ∈ newer, ∀ row ∈ base.messages, ¬ OfRecord scope.tenant recordId row
  founding : ∀ recordId ∈ newer,
    Founding p scope.tenant recordId (founder recordId) (initial recordId)

namespace Scene

variable (scene : Scene p)

abbrev floor : Timestamp := scene.squashed.messageTimestamp

abbrev Writes (request : Request) (recordId : String) (d : WriteDescriptor) : Prop :=
  ScopeWrite scene.scope scene.base.messages request recordId d

/-- A step of a run: the squash; an update of it; a write, or another squash, that is older; the
initial write of a newer record, or an update of it. -/
inductive Takes (stores : Stores) (request : Request) : Prop
  | squashes (same : request = scene.squash) (accepted : Accepted p stores request)
  | updates {d : WriteDescriptor} (write : scene.Writes request scene.squashId d)
      (ordinary : ControlKind.fromProtocolPath scene.scope.path = none)
      (update : ∀ author, p.isInitialWrite request.message author = false)
  | older {recordId : String} {d : WriteDescriptor} (write : scene.Writes request recordId d)
      (other : recordId ≠ scene.squashId) (notNewer : recordId ∉ scene.newer)
      (before : d.messageTimestamp < scene.floor)
  | founds {recordId : String} {d : WriteDescriptor} (write : scene.Writes request recordId d)
      (isNewer : recordId ∈ scene.newer) (same : request = scene.initial recordId)
      (accepted : Accepted p stores request) (plain : d.squash ≠ some true)
      (after : scene.floor < d.messageTimestamp)
  | later {recordId : String} {d : WriteDescriptor} (write : scene.Writes request recordId d)
      (isNewer : recordId ∈ scene.newer)
      (later : Later p scene.scope.tenant recordId (scene.founder recordId) request)
      (answered : Answered p scene.scope.tenant recordId stores request)
      (plain : d.squash ≠ some true)

def Allowed (stores : Stores) (request : Request) : Prop :=
  declaresSquash stores.messages scene.scope.tenant scene.squashed = true ∧
    scene.Takes stores request

def Recent (row : Row) : Prop :=
  ∃ recordId ∈ scene.newer, OfRecord scene.scope.tenant recordId row ∧
    ∃ d, row.message.descriptor = .recordsWrite d ∧ scene.floor < d.messageTimestamp

def Old (row : Row) : Prop :=
  ∃ recordId, recordId ∉ scene.newer ∧ recordId ≠ scene.squashId ∧
    (∀ row ∈ scene.base.messages, ¬ OfRecord scene.scope.tenant recordId row) ∧
    OfRecord scene.scope.tenant recordId row ∧
    ∃ d, scene.scope.Holds row.message d ∧ d.messageTimestamp < scene.floor

def NotNewer (row : Row) : Prop :=
  ∃ recordId, recordId ∉ scene.newer ∧ OfRecord scene.scope.tenant recordId row

structure Keeps (Further : Row → Prop) (store : MessageStore) : Prop where
  stays : ∀ row ∈ scene.base.messages, row ∈ store
  rows : ∀ row ∈ store, row ∈ scene.base.messages ∨ scene.Recent row ∨ Further row

abbrev Before (store : MessageStore) : Prop := scene.Keeps scene.Old store

def OfSquash (row : Row) : Prop :=
  OfRecord scene.scope.tenant scene.squashId row ∧ row.cid = p.messageCid scene.squash.message

structure After (store : MessageStore) : Prop extends scene.Keeps scene.OfSquash store where
  retainedIs : retained store scene.scope.tenant scene.squashId =
    {p.messageCid scene.squash.message}
  latestIs : latest store scene.scope.tenant scene.squashId =
    {p.messageCid scene.squash.message}

variable {scene} {request : Request} {Further : Row → Prop}

theorem declared_of_holds (inScope : scene.scope.Holds m d)
    (declared : declaresSquash stores.messages scene.scope.tenant scene.squashed = true) :
    declaresSquash stores.messages scene.scope.tenant d = true := by
  rw [declaresSquash, inScope.protocol, inScope.path, ← scene.write.inScope.protocol,
    ← scene.write.inScope.path]
  exact declared

theorem Recent.timestamp (recent : scene.Recent row) :
    scene.floor < row.message.messageTimestamp := by
  obtain ⟨_, -, -, d, isWrite, after⟩ := recent
  rwa [messageTimestamp, isWrite]

theorem base_stays (law : p.CollisionFree) (sound : Sound p stores.messages)
    (declared : declaresSquash stores.messages scene.scope.tenant scene.squashed = true)
    (write : scene.Writes request recordId d)
    (bounded : d.squash = some true → d.messageTimestamp ≤ scene.floor)
    (kept : ∀ row ∈ scene.base.messages, row ∈ stores.messages) :
    ∀ row ∈ scene.base.messages, row ∈ (processMessage p stores request).2.messages := by
  intro row listed
  refine write.stays law sound (declared_of_holds write.inScope declared) (write.fresh row listed)
    bounded (fun ofTenant selected => ?_) (kept row listed)
  rw [scene.empty row listed ofTenant] at selected
  cases selected

theorem recent_rows (law : p.CollisionFree) (sound : Sound p stores.messages)
    (write : scene.Writes request recordId d) (isNewer : recordId ∈ scene.newer)
    (signed : requestAuthor p request = some author)
    (after : p.isInitialWrite request.message author = true → scene.floor < d.messageTimestamp)
    (recent : ∀ row ∈ stores.messages, OfRecord scene.scope.tenant recordId row → scene.Recent row)
    (stored : row ∈ (processMessage p stores request).2.messages)
    (ofRecord : OfRecord scene.scope.tenant recordId row) : scene.Recent row := by
  refine ⟨recordId, isNewer, ofRecord, ?_⟩
  have ofTenant := write.ofTenant
  rcases write_row_message law sound write.inScope.isWrite write.record stored
    (ofTenant ▸ ofRecord) with ⟨accepted, same⟩ | ⟨old, oldStored, ofOld, same⟩
  · refine ⟨d, (descriptor_congr same).trans write.inScope.isWrite, ?_⟩
    obtain ⟨other, isAuthor, initial | ⟨old, oldStored, ofOld, e, isOld, below⟩⟩ :=
      initial_or_updates sound write.inScope.isWrite write.record accepted
    · cases isAuthor.symm.trans signed
      exact after initial
    · obtain ⟨_, -, -, e', isOld', later⟩ := recent old oldStored (ofTenant ▸ ofOld)
      cases isOld.symm.trans isOld'
      exact later.trans_le below
  · obtain ⟨_, -, -, e, isOld, later⟩ := recent old oldStored (ofTenant ▸ ofOld)
    exact ⟨e, (descriptor_congr same).trans isOld, later⟩

theorem Old.notNewer (old : scene.Old row) : scene.NotNewer row :=
  have ⟨recordId, notNewer, _, _, ofRecord, _⟩ := old
  ⟨recordId, notNewer, ofRecord⟩

theorem OfSquash.notNewer (ofSquash : scene.OfSquash row) : scene.NotNewer row :=
  ⟨scene.squashId, scene.apart, ofSquash.1⟩

theorem Keeps.recent (keeps : scene.Keeps Further stores.messages)
    (apart : ∀ {row}, Further row → scene.NotNewer row) (isNewer : recordId ∈ scene.newer)
    (stored : row ∈ stores.messages) (ofRecord : OfRecord scene.scope.tenant recordId row) :
    scene.Recent row := by
  rcases keeps.rows row stored with listed | recent | further
  · exact absurd ofRecord (scene.fresh recordId isNewer row listed)
  · exact recent
  · obtain ⟨other, notNewer, ofOther⟩ := apart further
    exact absurd (ofOther.state.unique ofRecord.state ▸ isNewer) notNewer

theorem Keeps.old (before : scene.Before stores.messages) (notNewer : recordId ∉ scene.newer)
    (fresh : ∀ row ∈ scene.base.messages, ¬ OfRecord scene.scope.tenant recordId row)
    (stored : row ∈ stores.messages) (ofRecord : OfRecord scene.scope.tenant recordId row) :
    recordId ≠ scene.squashId ∧
      ∃ d, scene.scope.Holds row.message d ∧ d.messageTimestamp < scene.floor := by
  rcases before.rows row stored with listed | ⟨other, isNewer, ofOther, -⟩ |
      ⟨other, -, notSquash, -, ofOther, old⟩
  · exact absurd ofRecord (fresh row listed)
  · exact absurd (ofOther.state.unique ofRecord.state ▸ isNewer) notNewer
  · exact ⟨ofOther.state.unique ofRecord.state ▸ notSquash, old⟩

section

variable (law : p.CollisionFree) (sound : Sound p stores.messages)
  (declared : declaresSquash stores.messages scene.scope.tenant scene.squashed = true)

include law sound declared

theorem Keeps.newer (keeps : scene.Keeps Further stores.messages)
    (apart : ∀ {row}, Further row → scene.NotNewer row)
    (write : scene.Writes request recordId d) (isNewer : recordId ∈ scene.newer)
    (signed : requestAuthor p request = some author)
    (after : p.isInitialWrite request.message author = true → scene.floor < d.messageTimestamp)
    (plain : d.squash ≠ some true) :
    scene.Keeps Further (processMessage p stores request).2.messages where
  stays := base_stays law sound declared write (fun isSquash => absurd isSquash plain) keeps.stays
  rows row stored := by
    by_cases own : OfRecord scene.scope.tenant recordId row
    · exact .inr (.inl (recent_rows law sound write isNewer signed after
        (fun _ => keeps.recent apart isNewer) stored own))
    · exact keeps.rows row
        (write.mem_before law sound (declared_of_holds write.inScope declared) own stored)

theorem After.newer (after : scene.After stores.messages) (write : scene.Writes request recordId d)
    (isNewer : recordId ∈ scene.newer) (signed : requestAuthor p request = some author)
    (later : p.isInitialWrite request.message author = true → scene.floor < d.messageTimestamp)
    (plain : d.squash ≠ some true) :
    scene.After (processMessage p stores request).2.messages := by
  have same : SameRows scene.scope.tenant scene.squashId _ stores.messages :=
    write.sameRows law sound (declared_of_holds write.inScope declared) plain
      fun ⟨_, same⟩ => scene.apart (same ▸ isNewer)
  exact ⟨after.toKeeps.newer law sound declared OfSquash.notNewer write isNewer signed later plain,
    same.retained.trans after.retainedIs, same.latest.trans after.latestIs⟩

theorem Keeps.older (before : scene.Before stores.messages)
    (write : scene.Writes request recordId d) (other : recordId ≠ scene.squashId)
    (notNewer : recordId ∉ scene.newer) (earlier : d.messageTimestamp < scene.floor) :
    scene.Before (processMessage p stores request).2.messages where
  stays := base_stays law sound declared write (fun _ => earlier.le) before.stays
  rows row stored := by
    by_cases own : OfRecord scene.scope.tenant recordId row
    · refine .inr (.inr ⟨recordId, notNewer, other, write.fresh, own, ?_⟩)
      have ofTenant := write.ofTenant
      rcases write_row_message law sound write.inScope.isWrite write.record stored
        (ofTenant ▸ own) with ⟨-, same⟩ | ⟨old, oldStored, ofOld, same⟩
      · exact ⟨d, write.inScope.congr same, earlier⟩
      · obtain ⟨-, e, inScope, before⟩ :=
          before.old notNewer write.fresh oldStored (ofTenant ▸ ofOld)
        exact ⟨e, inScope.congr same, before⟩
    · exact before.rows row
        (write.mem_before law sound (declared_of_holds write.inScope declared) own stored)

theorem Keeps.squash (before : scene.Before stores.messages)
    (accepted : Accepted p stores scene.squash) :
    scene.After (processMessage p stores scene.squash).2.messages := by
  have write := scene.write
  have ofTenant := write.ofTenant
  have fresh := retained_eq_empty fun row stored ofRecord =>
    (before.old scene.apart write.fresh stored (ofTenant ▸ ofRecord)).1 rfl
  have unrevoked : revokesGrantOf scene.squash.message scene.squash = false := by
    rcases unrevoking_of_declared declared with protocol | path
    · simp [revokesGrantOf, writeDescriptor_eq_some.mpr write.inScope.isWrite, protocol]
    · simp [revokesGrantOf, writeDescriptor_eq_some.mpr write.inScope.isWrite, path]
  obtain ⟨retainedIs, latestIs⟩ := accepted_first law sound write.inScope.isWrite write.record
    scene.isInitial scene.signed unrevoked fresh accepted
  rw [ofTenant] at retainedIs latestIs
  refine ⟨⟨base_stays law sound declared write (fun _ => le_rfl) before.stays, fun row stored => ?_⟩,
    retainedIs, latestIs.trans (by simp [scene.sent])⟩
  by_cases own : OfRecord scene.scope.tenant scene.squashId row
  · have listed : row.cid ∈ retained _ scene.scope.tenant scene.squashId := ⟨row, stored, own, rfl⟩
    rw [retainedIs] at listed
    exact .inr (.inr ⟨own, listed⟩)
  · obtain ⟨stored, unsquashed⟩ := (write.mem_other law sound declared own).mp stored
    rcases before.rows row stored with listed | recent |
        ⟨sibling, notNewer, notSquash, siblingFresh, ofSibling, e, inScope, -⟩
    · exact .inl listed
    · exact .inr (.inl recent)
    · refine absurd ⟨accepted, ofSibling.tenant, scene.isSquash, ?_, sibling, notSquash, ofSibling,
        fun other otherStored ofOther _ => ?_⟩ unsquashed
      · rw [write.inScope.siblingFilters]
        exact inScope.selected (sound.filed row stored)
      · obtain ⟨-, e, inScope, earlier⟩ := before.old notNewer siblingFresh otherStored ofOther
        rwa [messageTimestamp, inScope.isWrite]

omit law declared in
theorem Keeps.refuses_update (before : scene.Before stores.messages)
    (write : scene.Writes request scene.squashId d)
    (update : ∀ author, p.isInitialWrite request.message author = false) :
    ¬ Accepted p stores request := by
  intro accepted
  obtain ⟨auth, passed⟩ := passed_of_accepted write.inScope.isWrite write.record accepted
  obtain ⟨row, stored, ofRecord, -⟩ :=
    existing_of_passed sound write.inScope.isWrite passed (update _)
  exact (before.old scene.apart write.fresh stored (write.ofTenant ▸ ofRecord)).1 rfl

omit declared in
theorem After.refuses_update (after : scene.After stores.messages)
    (write : scene.Writes request scene.squashId d)
    (ordinary : ControlKind.fromProtocolPath scene.scope.path = none)
    (update : ∀ author, p.isInitialWrite request.message author = false) :
    ¬ Accepted p stores request := by
  intro accepted
  obtain ⟨auth, passed⟩ := passed_of_accepted write.inScope.isWrite write.record accepted
  obtain ⟨row, stored, ofRecord, -, e, isRow, unchanged⟩ :=
    existing_of_passed sound write.inScope.isWrite passed (update _)
  have listed : row.cid ∈ retained stores.messages scene.scope.tenant scene.squashId :=
    ⟨row, stored, write.ofTenant ▸ ofRecord, rfl⟩
  rw [after.retainedIs, sound.addressed row stored] at listed
  have descriptor := descriptor_congr (messageCid_inj law listed)
  rw [isRow, scene.write.inScope.isWrite] at descriptor
  cases descriptor
  have isSquash := (changedProperty_eq_none unchanged).squash.symm.trans scene.isSquash
  have initial := (squash_of_passed write.inScope.isWrite (write.inScope.path ▸ ordinary) passed
    isSquash).1
  rw [update] at initial
  cases initial

theorem After.refuses (after : scene.After stores.messages)
    (write : scene.Writes request recordId d) (earlier : d.messageTimestamp < scene.floor) :
    ¬ Accepted p stores request := by
  intro accepted
  obtain ⟨auth, passed⟩ := passed_of_accepted write.inScope.isWrite write.record accepted
  have backstop := passed.backstop
  rw [write.ofTenant] at backstop
  have standing : p.messageCid scene.squash.message ∈
      latest stores.messages scene.scope.tenant scene.squashId := by
    rw [after.latestIs]
    exact rfl
  obtain ⟨row, stored, ofSquash, isLatest, cid⟩ := standing
  rw [sound.addressed row stored] at cid
  have selected := newestSquash_selected write.inScope (sound.filed row stored)
    (scene.write.inScope.congr (messageCid_inj law cid)) scene.isSquash isLatest
  obtain ⟨newest, newestStored, ofTenant, newestSelected, below⟩ := exists_older_squash sound
    write.inScope.isWrite (declared_of_holds write.inScope declared) backstop stored
    ofSquash.tenant selected
  have inScope := ((newestSquash_selects_iff write.inScope).mp newestSelected).1
  refine below.not_ge (earlier.le.trans ?_)
  rcases after.rows newest newestStored with listed | recent | ⟨-, cid⟩
  · rw [scene.empty newest listed ofTenant] at inScope
    cases inScope
  · exact recent.timestamp.le
  · rw [sound.addressed newest newestStored] at cid
    rw [messageTimestamp, descriptor_congr (messageCid_inj law cid),
      scene.write.inScope.isWrite]
    exact le_rfl

theorem Keeps.step (before : scene.Before stores.messages)
    (takes : scene.Takes stores request) :
    (request = scene.squash → scene.After (processMessage p stores request).2.messages) ∧
    (request ≠ scene.squash → scene.Before (processMessage p stores request).2.messages) := by
  have other {otherId : String} {e : WriteDescriptor} (write : scene.Writes request otherId e)
      (apart : otherId ≠ scene.squashId) : request ≠ scene.squash := by
    rintro rfl
    exact apart (Option.some.inj (write.record.symm.trans scene.write.record))
  cases takes with
  | squashes same accepted =>
    subst same
    exact ⟨fun _ => before.squash law sound declared accepted, fun other => absurd rfl other⟩
  | updates write ordinary update =>
    have unchanged := refused_write_unchanged write.inScope.isWrite
      (before.refuses_update sound write update)
    refine ⟨fun same => ?_, fun _ => unchanged ▸ before⟩
    subst same
    have isInitial := scene.isInitial
    rw [update] at isInitial
    cases isInitial
  | older write notSquash notNewer earlier =>
    exact ⟨fun same => absurd same (other write notSquash),
      fun _ => before.older law sound declared write notSquash notNewer earlier⟩
  | founds write isNewer same _ plain after =>
    have apart := other write fun same => scene.apart (same ▸ isNewer)
    subst same
    exact ⟨fun same => absurd same apart, fun _ => before.newer law sound declared
      Old.notNewer write isNewer (scene.founding _ isNewer).signed (fun _ => after) plain⟩
  | later write isNewer later _ plain =>
    obtain ⟨signed, update⟩ := later.update _ write.inScope.isWrite
    exact ⟨fun same => absurd same (other write fun same => scene.apart (same ▸ isNewer)),
      fun _ => before.newer law sound declared Old.notNewer write isNewer signed
        (fun isInitial => by rw [update] at isInitial; cases isInitial) plain⟩

theorem After.step (after : scene.After stores.messages) (takes : scene.Takes stores request) :
    scene.After (processMessage p stores request).2.messages := by
  cases takes with
  | squashes same accepted =>
    subst same
    refine absurd accepted (not_accepted_of_retained law sound scene.write.inScope.isWrite
      scene.write.record ?_)
    rw [scene.write.ofTenant, after.retainedIs]
    exact rfl
  | updates write ordinary update =>
    rw [refused_write_unchanged write.inScope.isWrite
      (after.refuses_update law sound write ordinary update)]
    exact after
  | older write _ _ earlier =>
    rw [refused_write_unchanged write.inScope.isWrite
      (after.refuses law sound declared write earlier)]
    exact after
  | founds write isNewer same _ plain later =>
    subst same
    exact after.newer law sound declared write isNewer (scene.founding _ isNewer).signed
      (fun _ => later) plain
  | later write isNewer later _ plain =>
    obtain ⟨signed, update⟩ := later.update _ write.inScope.isWrite
    exact after.newer law sound declared write isNewer signed
      (fun isInitial => by rw [update] at isInitial; cases isInitial) plain

theorem Takes.follows (takes : scene.Takes stores request) (isNewer : recordId ∈ scene.newer)
    (recent : ∀ row ∈ stores.messages, OfRecord scene.scope.tenant recordId row →
      scene.Recent row)
    (refuses : ∀ {d}, scene.Writes request scene.squashId d →
      ControlKind.fromProtocolPath scene.scope.path = none →
      (∀ author, p.isInitialWrite request.message author = false) → ¬ Accepted p stores request) :
    Follows p scene.scope.tenant recordId (scene.founder recordId) (scene.initial recordId) stores
      request := by
  have elsewhere {otherId : String} {e : WriteDescriptor} (write : scene.Writes request otherId e)
      (apart : otherId ≠ recordId) : onRecord scene.scope.tenant recordId request = false := by
    have state : StateMessage request.message otherId := .write write.inScope.isWrite write.record
    simp [onRecord, state.messageRecordId, apart]
  have beside {otherId : String} {e : WriteDescriptor} (write : scene.Writes request otherId e)
      (apart : otherId ≠ recordId)
      (bounded : e.squash = some true → e.messageTimestamp ≤ scene.floor) :
      Follows p scene.scope.tenant recordId (scene.founder recordId) (scene.initial recordId)
        stores request := by
    have foreign {row : Row} (ofRecord : OfRecord scene.scope.tenant recordId row) :
        ¬ OfRecord scene.scope.tenant otherId row := fun ofOther =>
      apart (ofOther.state.unique ofRecord.state)
    have declared' := declared_of_holds write.inScope declared
    exact .beside (elsewhere write apart) fun row ofRecord =>
      ⟨write.mem_before law sound declared' (foreign ofRecord), fun stored =>
        write.stays law sound declared' (foreign ofRecord) bounded
          (fun _ _ => (recent row stored ofRecord).timestamp.le) stored⟩
  have notSquash : scene.squashId ≠ recordId := fun same => scene.apart (same ▸ isNewer)
  cases takes with
  | squashes same =>
    subst same
    exact beside scene.write notSquash fun _ => le_rfl
  | updates write ordinary update =>
    exact .beside (elsewhere write notSquash) (.of_eq
      (refused_write_unchanged write.inScope.isWrite (refuses write ordinary update)))
  | older write _ notNewer earlier =>
    exact beside write (fun same => notNewer (same ▸ isNewer)) fun _ => earlier.le
  | @founds otherId _ write _ same accepted plain =>
    by_cases own : otherId = recordId
    · subst own
      exact .founds same accepted
    · exact beside write own fun isSquash => absurd isSquash plain
  | @later otherId _ write _ later answered plain =>
    by_cases own : otherId = recordId
    · subst own
      exact answered.follows law sound later
    · exact beside write own fun isSquash => absurd isSquash plain

end

/-! ## Runs -/

theorem before_base (scene : Scene p) : scene.Before scene.base.messages :=
  ⟨fun _ listed => listed, fun _ stored => .inl stored⟩

theorem after_of_run (law : p.CollisionFree) (scene : Scene p) (listed : scene.squash ∈ requests)
    (along : AllowedAlong (proceed p) scene.Allowed scene.base requests) :
    scene.After (requests.foldl (proceed p) scene.base).messages := by
  refine AllowedAlong.switch (B := fun stores => scene.Before stores.messages)
    (A := fun stores => scene.After stores.messages) ?_ ?_ ?_ scene.before_base listed
    (sound_along (sound_of_reaches sound_nil scene.reached) along)
  · exact fun _ _ before ⟨sound, declared, takes⟩ => (before.step law sound declared takes).2
  · exact fun _ before ⟨sound, declared, takes⟩ => (before.step law sound declared takes).1 rfl
  · exact fun _ _ after ⟨sound, declared, takes⟩ => after.step law sound declared takes

theorem stands_of_newer (law : p.CollisionFree) (scene : Scene p) (isNewer : recordId ∈ scene.newer)
    (along : AllowedAlong (proceed p) scene.Allowed scene.base requests) :
    Stands p scene.scope.tenant recordId (scene.initial recordId)
      (received scene.scope.tenant recordId requests)
      (requests.foldl (proceed p) scene.base).messages := by
  have sound := sound_of_reaches sound_nil scene.reached
  have follows : AllowedAlong (proceed p) (Follows p scene.scope.tenant recordId
      (scene.founder recordId) (scene.initial recordId)) scene.base requests := by
    refine (sound_along sound along).imp (P := fun stores =>
      scene.Before stores.messages ∨ scene.After stores.messages) ?_ ?_ (.inl scene.before_base)
    · rintro stores request (before | after) ⟨sound, declared, takes⟩
      · have next := before.step law sound declared takes
        by_cases same : request = scene.squash
        · exact .inr (next.1 same)
        · exact .inl (next.2 same)
      · exact .inr (after.step law sound declared takes)
    · rintro stores request (before | after) ⟨sound, declared, takes⟩
      · exact takes.follows law sound declared isNewer (fun _ => before.recent Old.notNewer isNewer)
          fun write _ => before.refuses_update sound write
      · exact takes.follows law sound declared isNewer
          (fun _ => after.toKeeps.recent OfSquash.notNewer isNewer)
          (after.refuses_update law sound)
  exact stands_of_run law (scene.founding recordId isNewer) sound
    (.fresh rfl (retained_eq_empty (scene.fresh recordId isNewer))) follows

theorem After.sameRows (after : scene.After store)
    (notNewer : ¬ (other = scene.scope.tenant ∧ otherId ∈ scene.newer))
    (notSquash : ¬ (other = scene.scope.tenant ∧ otherId = scene.squashId)) :
    SameRows other otherId store scene.base.messages := by
  refine fun row ofRow => ⟨fun stored => ?_, after.stays row⟩
  rcases after.rows row stored with listed | ⟨recordId, isNewer, ofRecord, -⟩ | ⟨ofSquash, -⟩
  · exact listed
  · exact absurd ⟨ofRow.tenant.symm.trans ofRecord.tenant,
      ofRow.state.unique ofRecord.state ▸ isNewer⟩ notNewer
  · exact absurd ⟨ofRow.tenant.symm.trans ofSquash.tenant,
      ofRow.state.unique ofSquash.state⟩ notSquash

theorem latest_eq (law : p.CollisionFree) (scene : Scene p) {others : List Request}
    (listed : scene.squash ∈ requests) (same : requests.Perm others)
    (along : AllowedAlong (proceed p) scene.Allowed scene.base requests)
    (along' : AllowedAlong (proceed p) scene.Allowed scene.base others) (other : Did)
    (otherId : String) :
    latest (requests.foldl (proceed p) scene.base).messages other otherId =
      latest (others.foldl (proceed p) scene.base).messages other otherId := by
  have after := scene.after_of_run law listed along
  have after' := scene.after_of_run law (same.mem_iff.mp listed) along'
  by_cases isNewer : other = scene.scope.tenant ∧ otherId ∈ scene.newer
  · obtain ⟨rfl, isNewer⟩ := isNewer
    exact ((scene.stands_of_newer law isNewer along).agree
      (scene.stands_of_newer law isNewer along') (received_perm same)).2
  · by_cases isSquash : other = scene.scope.tenant ∧ otherId = scene.squashId
    · obtain ⟨rfl, rfl⟩ := isSquash
      exact after.latestIs.trans after'.latestIs.symm
    · exact (after.sameRows isNewer isSquash).latest.trans
        (after'.sameRows isNewer isSquash).latest.symm

end Scene

def liveRecords (store : MessageStore) : Set (Did × String) :=
  {record | ∃ row ∈ store, OfRecord record.1 record.2 row ∧ IsLatest row ∧
    ∃ d, row.message.descriptor = .recordsWrite d}

def isLiveRecord (store : MessageStore) (tenant : Did) (recordId : String) : Bool :=
  store.any fun row => isOfRecord tenant recordId row &&
    row.indexes.lookup .isLatestBaseState = some (.bool true) && row.message.writeDescriptor.isSome

theorem mem_liveRecords :
    (tenant, recordId) ∈ liveRecords store ↔ isLiveRecord store tenant recordId = true := by
  simp [liveRecords, isLiveRecord, isOfRecord_iff, IsLatest, Option.isSome_iff_exists,
    writeDescriptor_eq_some, and_assoc]

theorem liveRecords_subset (law : p.CollisionFree) {store' : MessageStore} (sound : Sound p store)
    (sound' : Sound p store')
    (same : ∀ tenant recordId, latest store tenant recordId = latest store' tenant recordId) :
    liveRecords store ⊆ liveRecords store' := by
  rintro ⟨tenant, recordId⟩ ⟨row, stored, ofRecord, isLatest, d, isWrite⟩
  have listed : row.cid ∈ latest store tenant recordId := ⟨row, stored, ofRecord, isLatest, rfl⟩
  rw [same] at listed
  obtain ⟨row', stored', ofRecord', isLatest', cid⟩ := listed
  refine ⟨row', stored', ofRecord', isLatest', d, ?_⟩
  rw [sound.addressed row stored, sound'.addressed row' stored'] at cid
  exact (descriptor_congr (messageCid_inj law cid)).trans isWrite

/-- A scope is left with the same live records in any order, as long as its greatest squash has no
equal, comes with data, and cuts no record in two. -/
theorem live_records_of_any_order {p : Primitives} (law : p.CollisionFree) (scene : Scene p)
    {requests others : List Request} (listed : scene.squash ∈ requests)
    (same : requests.Perm others)
    (along : AllowedAlong (proceed p) scene.Allowed scene.base requests)
    (along' : AllowedAlong (proceed p) scene.Allowed scene.base others) :
    liveRecords (requests.foldl (proceed p) scene.base).messages =
      liveRecords (others.foldl (proceed p) scene.base).messages := by
  have sound := sound_of_reaches sound_nil scene.reached
  have latest := scene.latest_eq law listed same along along'
  exact Set.Subset.antisymm
    (liveRecords_subset law (sound_of_run sound _) (sound_of_run sound _) latest)
    (liveRecords_subset law (sound_of_run sound _) (sound_of_run sound _)
      fun tenant recordId => (latest tenant recordId).symm)

namespace Notes

open Concrete
open Run.Threads (write request payload)

def uri : String := "https://notes"

def configure : ConfigureDescriptor where
  messageTimestamp := 1
  definition :=
    { protocol := uri
      published := true
      types := [("note", {})]
      structure_ := [("note", { squash := some true })] }

def configureMessage : Message := signedMessage (.protocolsConfigure configure) "configure"

def note (data : String) (created timestamp : Timestamp) : WriteDescriptor where
  protocol := uri
  protocolPath := ["note"]
  dataCid := data
  dataSize := data.length
  dateCreated := created
  messageTimestamp := timestamp
  dataFormat := "text/plain"

def summary : WriteDescriptor := { note "summary" 5 5 with squash := some true }

def old : Message := write (note "old" 2 2) "old" "alice" "N" ["N"]
def edited : Message := write (note "edited" 2 3) "edited" "alice" "N" ["N"]
def late : Message := write (note "late" 2 9) "late" "alice" "N" ["N"]
def squash : Message := write summary "squash" "alice" "S" ["S"]
def new : Message := write (note "new" 7 7) "new" "alice" "M" ["M"]

def script : Script :=
  parties.adding configureMessage "dc" "mc"
    |>.posted old "do" "mo" "N" |>.posted edited "de" "me" "ee" |>.posted late "dl" "ml" "el"
    |>.posted squash "ds" "ms" "S" |>.posted new "dn" "mn" "M"

noncomputable section

abbrev q : Primitives := script.primitives

theorem collisionFree : q.CollisionFree := script.collisionFree (by decide) (by decide)

def base : Stores := step q {} (.request (request configureMessage ""))

def scope : Scope where
  tenant := "did:ex:alice"
  protocol := uri
  path := ["note"]
  context := []

theorem base_reached : Reaches (step q) (fun _ _ => True) {} base :=
  Reaches.next .refl trivial

theorem writes {message : Message} {data : String} (record : message.recordId = some recordId)
    (isWrite : message.descriptor = .recordsWrite d) (protocol : d.protocol = uri)
    (path : d.protocolPath = ["note"]) (context : siblingContext message = [])
    (absent : retainedCids base.messages "did:ex:alice" recordId = []) :
    ScopeWrite scope base.messages (request message data) recordId d :=
  ⟨rfl, record, ⟨isWrite, protocol, path, context⟩, not_ofRecord_of_cids absent⟩

def scene : Scene q where
  scope := scope
  base := base
  squash := request squash "summary"
  squashId := "S"
  squasher := "did:ex:alice"
  squashed := summary
  newer := {"M"}
  founder _ := "did:ex:alice"
  initial _ := request new "new"
  reached := base_reached
  empty row stored _ := by
    have outside : base.messages.all (fun row => !matchesSet row.indexes scope.filters) = true := rfl
    simpa using List.all_eq_true.mp outside row stored
  write := writes rfl rfl rfl rfl rfl rfl
  isSquash := rfl
  isInitial := rfl
  signed := rfl
  sent := rfl
  apart := by simp
  fresh := by
    rintro _ rfl
    exact not_ofRecord_of_cids rfl
  founding := by
    rintro _ rfl
    exact ⟨rfl, rfl, rfl, rfl, rfl, rfl⟩

end

end Notes

open Notes Run.Threads in
theorem notes_squashed_in_any_order :
    q.CollisionFree ∧
    AllowedAlong (proceed q) scene.Allowed base
      [request old "old", request Notes.edited "edited", request new "new",
        request squash "summary"] ∧
    AllowedAlong (proceed q) scene.Allowed base
      [request squash "summary", request old "old", request Notes.edited "edited",
        request new "new"] ∧
    liveRecords ([request old "old", request Notes.edited "edited", request new "new",
      request squash "summary"].foldl (proceed q) base).messages =
    liveRecords ([request squash "summary", request old "old", request Notes.edited "edited",
      request new "new"].foldl (proceed q) base).messages := by
  have oldWrites : scene.Writes (request old "old") "N" (note "old" 2 2) :=
    writes rfl rfl rfl rfl rfl rfl
  have editedWrites : scene.Writes (request Notes.edited "edited") "N" (note "edited" 2 3) :=
    writes rfl rfl rfl rfl rfl rfl
  have newWrites : scene.Writes (request new "new") "M" (note "new" 7 7) :=
    writes rfl rfl rfl rfl rfl rfl
  refine ⟨Notes.collisionFree, ?last, ?first, live_records_of_any_order Notes.collisionFree scene
    (by simp [scene]) ?_ ?last ?first⟩
  · refine ⟨⟨rfl, .older oldWrites (by decide) ?_ (by decide)⟩,
      ⟨rfl, .older editedWrites (by decide) ?_ (by decide)⟩,
      ⟨rfl, .founds newWrites rfl rfl rfl (by decide) (by decide)⟩, ⟨rfl, .squashes rfl rfl⟩,
      trivial⟩ <;> simp [scene]
  · refine ⟨⟨rfl, .squashes rfl rfl⟩, ⟨rfl, .older oldWrites (by decide) ?_ (by decide)⟩,
      ⟨rfl, .older editedWrites (by decide) ?_ (by decide)⟩,
      ⟨rfl, .founds newWrites rfl rfl rfl (by decide) (by decide)⟩, trivial⟩ <;> simp [scene]
  · exact (List.perm_append_comm : ([_, _, _] ++ [_] : List Request).Perm ([_] ++ [_, _, _]))

open Notes Run.Threads in
theorem note_updated_after_squash_depends_on_order :
    q.CollisionFree ∧ Reaches (step q) (fun _ _ => True) {} base ∧
    declaresSquash base.messages "did:ex:alice" summary = true ∧
    ScopeWrite scope base.messages (request old "old") "N" (note "old" 2 2) ∧
    ScopeWrite scope base.messages (request late "late") "N" (note "late" 2 9) ∧
    ScopeWrite scope base.messages (request squash "summary") "S" summary ∧
    Accepted q base (request old "old") ∧
    Accepted q (proceed q base (request old "old")) (request late "late") ∧
    Accepted q ([request old "old", request late "late"].foldl (proceed q) base)
      (request squash "summary") ∧
    Accepted q base (request squash "summary") ∧
    ("did:ex:alice", "N") ∈ liveRecords ([request old "old", request late "late",
      request squash "summary"].foldl (proceed q) base).messages ∧
    ("did:ex:alice", "N") ∉ liveRecords ([request squash "summary", request old "old",
      request late "late"].foldl (proceed q) base).messages := by
  refine ⟨Notes.collisionFree, Notes.base_reached, rfl, writes rfl rfl rfl rfl rfl rfl,
    writes rfl rfl rfl rfl rfl rfl, writes rfl rfl rfl rfl rfl rfl, rfl, rfl, rfl, rfl,
    mem_liveRecords.mpr rfl, mem_liveRecords.not.mpr (Bool.eq_false_iff.mp rfl)⟩

end Enbox.Proof.State
