import Enbox.Proof.Tasks.Progress

/-! # Purges that were cut short -/

namespace Enbox.Proof.Tasks

open Lib Run State Relation List TransGen

variable {p : Primitives} {tenant : Did} {root recordId : String} {row : Row} {fuel : Nat}
  {after : Stores}

/-! ## The operations of a purge are justified -/

structure Listed (p : Primitives) (tenant : Did) (whole : Stores) (root : String) (asked : Stores)
    (recordId : String) (messages : List Message) : Prop where
  below : Below whole.messages tenant root recordId
  member : ∀ m ∈ messages, ∃ row ∈ asked.messages, OfRecord tenant recordId row ∧ row.message = m
  complete : ∀ row ∈ asked.messages, OfRecord tenant recordId row → row.message ∈ messages
  sorted : messages.Pairwise fun a b => age p a ≤ age p b

section

variable {whole asked current : Stores} {messages : List Message}

theorem justified_deletes (sound : Sound p whole.messages) (trimmed : Trims asked whole)
    (below : Below whole.messages tenant root recordId) :
    ∀ {messages : List Message} {current : Stores}, Trims current asked →
      Ready p tenant whole current recordId →
      (∀ m ∈ messages, ∃ row ∈ asked.messages, OfRecord tenant recordId row ∧ row.message = m) →
      (∀ row ∈ current.messages, OfRecord tenant recordId row → row.message ∈ messages) →
      messages.Pairwise (fun a b => age p a ≤ age p b) →
      AllowedAlong (performOp p tenant) (Justified p tenant whole root) current
        (messages.map fun m => .deleteMessage (p.messageCid m)) := by
  intro messages
  induction messages with
  | nil => exact fun _ _ _ _ _ => trivial
  | cons m rest ih =>
    intro current trims ready member complete sorted
    obtain ⟨listed, isListed, ofListed, isMessage⟩ := member m mem_cons_self
    -- The row that goes is the one the message was listed for.
    have isRow {row : Row} (stored : row ∈ current.messages) (ofTenant : row.tenant = tenant)
        (same : row.cid = p.messageCid m) : row = listed := by
      refine sound.unique row (trimmed.row (trims.row stored)) listed (trimmed.row isListed)
        (ofTenant.trans ofListed.tenant.symm) ?_
      rw [same, sound.addressed listed (trimmed.row isListed), isMessage]
    constructor
    · intro row stored ofTenant same
      cases isRow stored ofTenant same
      refine ⟨recordId, ofListed, below, ready, fun d newest other isOther ofOther e isWrite => ?_⟩
      have otherWhole := trimmed.row (trims.row isOther)
      rcases mem_cons.mp (complete other isOther ofOther) with isM | inRest
      · exact isRow isOther ofOther.tenant (by rw [sound.addressed other otherWhole, isM])
      · refine eq_of_age_eq sound otherWhole newest.stored
          (ofOther.tenant.trans newest.ofRecord.tenant.symm)
          (le_antisymm (newest.newest other otherWhole ofOther e isWrite) ?_)
        rw [isMessage]
        exact rel_of_pairwise_cons sorted inRest
    · have next := trims_deleteMessage current tenant (p.messageCid m)
      refine ih (next.trans trims) (ready.mono next)
        (fun m' isM' => member m' (mem_cons_of_mem _ isM')) (fun row stored ofRecord => ?_)
        sorted.of_cons
      obtain ⟨kept, other⟩ := mem_deleteMessage.mp stored
      refine (mem_cons.mp (complete row kept ofRecord)).resolve_left fun isM => ?_
      exact other ⟨ofRecord.tenant,
        by rw [sound.addressed row (trimmed.row (trims.row kept)), isM]⟩

section

variable (sound : Sound p whole.messages) (partway : Partway p tenant whole root asked)

include sound partway

theorem Partway.newestOf {d : WriteDescriptor}
    (newest : NewestOf p asked.messages tenant recordId row d) :
    NewestOf p whole.messages tenant recordId row d := by
  have inWhole := partway.trims.row newest.stored
  obtain ⟨top, e, isTop⟩ := exists_newestOf sound inWhole newest.ofRecord newest.isWrite
  have kept : top ∈ asked.messages := by
    by_contra gone
    exact partway.newest recordId top e isTop gone row newest.stored newest.ofRecord d newest.isWrite
  exact ⟨inWhole, newest.ofRecord, newest.isWrite, fun other stored ofOther e' isOther =>
    (isTop.newest other stored ofOther e' isOther).trans
      (newest.newest top kept isTop.ofRecord e isTop.isWrite)⟩

theorem newestDataOp_cases (listed : Listed p tenant whole root asked recordId messages) :
    (∃ row d, NewestOf p whole.messages tenant recordId row d ∧
      newestDataOp p messages = some (.deleteData recordId d.dataCid)) ∨
    newestDataOp p messages = none ∧ ∀ row d, NewestOf p whole.messages tenant recordId row d →
      row ∉ asked.messages := by
  have found {op : StoreOp} : newestDataOp p messages = some op ↔ _ :=
    newestDataOp_iff (sound.subset fun _ => partway.trims.row) fun m =>
      ⟨listed.member m, fun ⟨row, stored, ofRecord, same⟩ => same ▸ listed.complete row stored ofRecord⟩
  cases isOp : newestDataOp p messages with
  | some op =>
    obtain ⟨row, d, newest, rfl⟩ := found.mp isOp
    exact .inl ⟨row, d, partway.newestOf sound newest, rfl⟩
  | none =>
    refine .inr ⟨rfl, fun row d newest stored => ?_⟩
    cases isOp.symm.trans (found.mpr
      ⟨row, d, newest.subset (fun _ => partway.trims.row) stored, rfl⟩)

theorem justified_purgeRecordMessages (listed : Listed p tenant whole root asked recordId messages)
    (trims : Trims current asked)
    (children : ∀ child, ChildOf whole.messages tenant recordId child → Gone current tenant child) :
    AllowedAlong (performOp p tenant) (Justified p tenant whole root) current
      (purgeRecordMessagesOps p messages) ∧
    Gone (performOps p tenant current (purgeRecordMessagesOps p messages)) tenant recordId := by
  have deletes {later : Stores} (next : Trims later current)
      (data : ∀ row d, NewestOf p whole.messages tenant recordId row d →
        (tenant, recordId, d.dataCid) ∉ references later.data) :
      AllowedAlong (performOp p tenant) (Justified p tenant whole root) later
        (messages.map fun m => .deleteMessage (p.messageCid m)) :=
    justified_deletes sound partway.trims listed.below (next.trans trims)
      ⟨fun child isChild => (children child isChild).mono next, data⟩ listed.member
      (fun row stored => listed.complete row (trims.row (next.row stored))) listed.sorted
  constructor
  · rw [purgeRecordMessagesOps]
    rcases newestDataOp_cases sound partway listed with ⟨top, d, isTop, isOp⟩ | ⟨noOp, lost⟩
    · rw [isOp]
      refine ⟨⟨top, d, listed.below, isTop, rfl⟩,
        deletes (trims_deleteData current tenant recordId d.dataCid) ?_⟩
      rintro row e newest ⟨data, stored, same⟩
      obtain ⟨-, rfl⟩ := newest.eq sound isTop
      exact (mem_deleteData.mp stored).2 same
    · rw [noOp]
      refine deletes (.refl current) fun row d newest present => ?_
      obtain ⟨id, ofRecord, -, ready⟩ := partway.lost row newest.stored (lost row d newest)
      cases ofRecord.state.unique newest.ofRecord.state
      exact ready.data row d newest (trims.references present)
  · rw [← purgeRecordMessages]
    intro row stored ofRecord
    obtain ⟨kept, undeleted⟩ := (removes_purgeRecordMessages current messages row).mp stored
    refine undeleted ⟨ofRecord.tenant, ?_⟩
    rw [sound.addressed row (partway.trims.row (trims.row kept))]
    exact mem_map_of_mem (listed.complete row (trims.row kept) ofRecord)

theorem justified_purgeGroups :
    ∀ {groups : List (String × List Message)} {current : Stores},
      Partway p tenant whole root current → Trims current asked →
      (∀ group ∈ groups, Listed p tenant whole root asked group.1 group.2 ∧
        ∀ child, ChildOf whole.messages tenant group.1 child → Gone current tenant child) →
      AllowedAlong (performOp p tenant) (Justified p tenant whole root) current
        (groups.flatMap fun child => purgeRecordMessagesOps p child.2) ∧
      ∀ group ∈ groups, Gone (performOps p tenant current
        (groups.flatMap fun child => purgeRecordMessagesOps p child.2)) tenant group.1 := by
  intro groups
  induction groups with
  | nil => exact fun _ _ _ => ⟨trivial, by simp⟩
  | cons group rest ih =>
    intro current isPartway trims ready
    obtain ⟨listed, children⟩ := ready group mem_cons_self
    obtain ⟨first, gone⟩ := justified_purgeRecordMessages sound partway listed trims children
    obtain ⟨nextPartway, next⟩ := isPartway.along first
    obtain ⟨others, othersGone⟩ := ih nextPartway (next.trans trims) fun other isOther =>
      ⟨(ready other (mem_cons_of_mem _ isOther)).1, fun child isChild =>
        ((ready other (mem_cons_of_mem _ isOther)).2 child isChild).mono next⟩
    refine ⟨first.append others, ?_⟩
    rw [flatMap_cons, performOps_append]
    exact forall_mem_cons.mpr ⟨gone.mono (nextPartway.along others).2, othersGone⟩

end

section

variable (partway : Partway p tenant whole root current) (stored : row ∈ whole.messages)
  (ofRecord : OfRecord tenant recordId row) (gone : row ∉ current.messages)

include partway stored ofRecord gone

theorem Partway.children_gone {child : String}
    (isChild : ChildOf whole.messages tenant recordId child) : Gone current tenant child := by
  obtain ⟨id, ofRow, -, ready⟩ := partway.lost row stored gone
  cases ofRow.state.unique ofRecord.state
  exact ready.children child isChild

theorem Partway.below_gone {descendant : String}
    (below : Below whole.messages tenant recordId descendant) : Gone current tenant descendant := by
  have walked : Gone current tenant descendant ∧
      ∃ row ∈ whole.messages, OfRecord tenant descendant row := by
    induction below with
    | single isChild =>
      obtain ⟨childRow, isStored, ofChild, -⟩ := id isChild
      exact ⟨partway.children_gone stored ofRecord gone isChild, childRow, isStored, ofChild⟩
    | tail _ isChild ih =>
      obtain ⟨parentGone, parentRow, parentStored, ofParent⟩ := ih
      obtain ⟨childRow, isStored, ofChild, -⟩ := id isChild
      exact ⟨partway.children_gone parentStored ofParent (fun kept => parentGone _ kept ofParent)
        isChild, childRow, isStored, ofChild⟩
  exact walked.1

end

theorem listed_of_group (law : p.CollisionFree) (sound : Sound p whole.messages)
    (entered : ∀ row ∈ whole.messages, Entered p row)
    (partway : Partway p tenant whole root current)
    (reached : ReflTransGen (ChildOf whole.messages tenant) root recordId)
    {group : String × List Message}
    (isGroup : group ∈ groupByRecord (current.messages.query tenant [childFilters recordId])) :
    ChildOf whole.messages tenant recordId group.1 ∧
      Listed p tenant whole root current group.1 group.2 := by
  have soundNow := sound.subset fun _ => partway.trims.row
  have child := (soundNow.grouped tenant recordId group isGroup).child
  have isChild : ChildOf whole.messages tenant recordId group.1 :=
    child.mono fun _ => partway.trims.row
  have groupOf : GroupOf current.messages tenant group.1 group.2 :=
    groupOf_query soundNow (by simp [childFilters]) isGroup
      fun a storedA ofA selected b storedB ofB => selected_child law soundNow
        (fun row stored => entered row (partway.trims.row stored)) storedA ofA selected storedB ofB
  refine ⟨isChild, TransGen.tail' reached isChild, fun m member => ?_, groupOf.complete, ?_⟩
  · obtain current | none := groupOf.current
    · obtain ⟨row, stored, ofTenant, rfl⟩ := current m member
      exact ⟨row, stored, ⟨ofTenant, groupOf.states _ member⟩, rfl⟩
    · obtain ⟨row, stored, ofRecord, -⟩ := child
      exact absurd ofRecord (none row stored)
  · obtain ⟨id, members⟩ := group
    obtain ⟨-, rfl⟩ := mem_groupByRecord.mp isGroup
    exact ((query_sorted soundNow _ .ascending).imp precedes_ascending.mp).filter _

def PurgesBelow (p : Primitives) (tenant : Did) (whole : Stores) (root : String) (fuel : Nat) :
    Prop :=
  ∀ ⦃current : Stores⦄ ⦃recordId : String⦄ ⦃ops : List StoreOp⦄,
    Partway p tenant whole root current →
    ReflTransGen (ChildOf whole.messages tenant) root recordId →
    purgeDescendantsOps p tenant fuel current recordId = .ok ops →
    AllowedAlong (performOp p tenant) (Justified p tenant whole root) current ops ∧
    ∀ descendant, Below whole.messages tenant recordId descendant →
      Gone (performOps p tenant current ops) tenant descendant

theorem PurgesBelow.children (each : PurgesBelow p tenant whole root fuel)
    (partway : Partway p tenant whole root current)
    (reached : ReflTransGen (ChildOf whole.messages tenant) root recordId) {below : List StoreOp}
    (groups : List (String × List Message)) : ∀ ops : List StoreOp,
    (∀ group ∈ groups, ChildOf whole.messages tenant recordId group.1) →
    AllowedAlong (performOp p tenant) (Justified p tenant whole root) current ops →
    groups.foldlM (fun (ops : List StoreOp) (child : String × List Message) => do
      let more ← purgeDescendantsOps p tenant fuel (performOps p tenant current ops) child.1
      return (ops ++ more : List StoreOp)) ops = .ok below →
    AllowedAlong (performOp p tenant) (Justified p tenant whole root) current below ∧
    Trims (performOps p tenant current below) (performOps p tenant current ops) ∧
    ∀ group ∈ groups, ∀ descendant, Below whole.messages tenant group.1 descendant →
      Gone (performOps p tenant current below) tenant descendant := by
  induction groups with
  | nil =>
    intro ops _ along same
    simp only [foldlM_nil, pure_eq_ok] at same
    subst same
    exact ⟨along, .refl _, by simp⟩
  | cons group rest ih =>
    intro ops children along walks
    simp only [foldlM_cons, ok_iff] at walks
    obtain ⟨_, ⟨more, first, rfl⟩, others⟩ := walks
    obtain ⟨isPartway, -⟩ := partway.along along
    obtain ⟨justified, gone⟩ := each isPartway
      (reached.tail (children group mem_cons_self)) first
    obtain ⟨all, trims, restGone⟩ := ih (ops ++ more)
      (fun group listed => children group (mem_cons_of_mem _ listed))
      (along.append justified) others
    rw [performOps_append] at trims
    exact ⟨all, trims.trans (isPartway.along justified).2, forall_mem_cons.mpr
      ⟨fun descendant below => (gone descendant below).mono trims, restGone⟩⟩

theorem justified_purgeDescendants (law : p.CollisionFree) (sound : Sound p whole.messages)
    (entered : ∀ row ∈ whole.messages, Entered p row) (fuel : Nat) :
    PurgesBelow p tenant whole root fuel := by
  induction fuel with
  | zero => exact fun _ _ _ _ _ purged => by cases purged
  | succ fuel ih =>
    intro current recordId ops partway reached purged
    simp only [purgeDescendantsOps, ok_iff] at purged
    obtain ⟨below, descendants, rfl⟩ := purged
    have grouped (group : String × List Message) (isGroup : group ∈ groupByRecord
        (current.messages.query tenant [childFilters recordId])) :=
      listed_of_group law sound entered partway reached isGroup
    have found {child : String} (isChild : ChildOf current.messages tenant recordId child) :=
      (sound.subset fun _ => partway.trims.row).grouped_of_child isChild
    generalize groupByRecord (current.messages.query tenant [childFilters recordId]) = groups at *
    obtain ⟨along, trims, belowGone⟩ := ih.children partway reached groups []
      (fun group listed => (grouped group listed).1) trivial descendants
    obtain ⟨isPartway, -⟩ := partway.along along
    obtain ⟨purges, childrenGone⟩ := justified_purgeGroups sound partway isPartway trims
      fun group isGroup => ⟨(grouped group isGroup).2, fun child isChild =>
        belowGone group isGroup child (.single isChild)⟩
    have last := (isPartway.along purges).2
    refine ⟨along.append purges, fun descendant isBelow => ?_⟩
    rw [performOps_append]
    obtain ⟨child, isChild, rest⟩ := head'_iff.mp isBelow
    obtain ⟨row, stored, ofChild, selected⟩ := isChild
    -- A child that is still there is listed; one that is not was purged with all below it.
    by_cases kept : ∃ other ∈ current.messages, OfRecord tenant child other
    · obtain ⟨other, isOther, ofOther⟩ := kept
      obtain ⟨group, listed, rfl⟩ := found ⟨other, isOther, ofOther, selected_child law sound entered
        stored ofChild selected (partway.trims.row isOther) ofOther⟩
      obtain rfl | farther := reflTransGen_iff_eq_or_transGen.mp rest
      · exact childrenGone group listed
      · exact (belowGone group listed descendant farther).mono last
    · have childGone : Gone current tenant child :=
        fun other isOther ofOther => kept ⟨other, isOther, ofOther⟩
      have everGone : Gone current tenant descendant := by
        obtain rfl | farther := reflTransGen_iff_eq_or_transGen.mp rest
        · exact childGone
        · exact partway.below_gone stored ofChild (fun isKept => childGone row isKept ofChild) farther
      exact everGone.mono (last.trans (partway.along along).2)

/-! ## The end of a purge -/

structure Purged (p : Primitives) (tenant : Did) (whole : Stores) (root : String)
    (after : Stores) : Prop extends Partway p tenant whole root after where
  gone : ∀ descendant, Below whole.messages tenant root descendant → Gone after tenant descendant

theorem Purged.mem_messages (purged : Purged p tenant whole root after) (row : Row) :
    row ∈ after.messages ↔ row ∈ whole.messages ∧
      ∀ recordId, Below whole.messages tenant root recordId → ¬ OfRecord tenant recordId row := by
  constructor
  · exact fun stored => ⟨purged.trims.row stored, fun recordId below => purged.gone recordId below row
      stored⟩
  · rintro ⟨stored, outside⟩
    by_contra lost
    obtain ⟨recordId, ofRecord, below, -⟩ := purged.lost row stored lost
    exact outside recordId below ofRecord

theorem Purged.mem_data (purged : Purged p tenant whole root after) (row : DataRow) :
    row ∈ after.data ↔ row ∈ whole.data ∧
      ∀ recordId newest d, Below whole.messages tenant root recordId →
        NewestOf p whole.messages tenant recordId newest d →
        reference row ≠ (tenant, recordId, d.dataCid) := by
  constructor
  · refine fun stored => ⟨purged.trims.dataRow stored, fun recordId newest d below isNewest same => ?_⟩
    obtain ⟨id, ofRecord, -, ready⟩ := purged.lost newest isNewest.stored
      fun kept => purged.gone recordId below newest kept isNewest.ofRecord
    cases ofRecord.state.unique isNewest.ofRecord.state
    exact ready.data newest d isNewest ⟨row, stored, same⟩
  · rintro ⟨stored, other⟩
    by_contra lost
    obtain ⟨recordId, newest, d, below, isNewest, same⟩ := purged.data row stored lost
    exact other recordId newest d below isNewest same

theorem Purged.unique {left right : Stores} (first : Purged p tenant whole root left)
    (second : Purged p tenant whole root right) : left = right :=
  first.trims.ext second.trims
    (fun row => (first.mem_messages row).trans (second.mem_messages row).symm)
    fun row => (first.mem_data row).trans (second.mem_data row).symm

theorem purged_of_ok (law : p.CollisionFree) (sound : Sound p whole.messages)
    (entered : ∀ row ∈ whole.messages, Entered p row)
    (partway : Partway p tenant whole root current) {ops : List StoreOp}
    (purged : purgeDescendantsOps p tenant fuel current root = .ok ops) :
    Purged p tenant whole root (performOps p tenant current ops) := by
  obtain ⟨along, gone⟩ := justified_purgeDescendants law sound entered fuel partway .refl purged
  exact ⟨(partway.along along).1, gone⟩

end

/-! ## Purges end -/

theorem chain_of_error (fuel : Nat) : ∀ {stores : Stores} {recordId : String} {failure : Failure},
    Sound p stores.messages → purgeDescendants p tenant fuel stores recordId = .error failure →
    ∃ chain : List String, chain.length = fuel ∧
      List.IsChain (ChildOf stores.messages tenant) (recordId :: chain) := by
  induction fuel with
  | zero => exact fun _ _ => ⟨[], rfl, .singleton _⟩
  | succ fuel ih =>
    intro stores recordId failure sound purged
    have grouped := sound.grouped tenant recordId
    rw [purgeDescendants] at purged
    cases below : (groupByRecord (stores.messages.query tenant [childFilters recordId])).foldlM
        (fun stores child => purgeDescendants p tenant fuel stores child.1) stores with
    | ok middle =>
      rw [below] at purged
      cases purged
    | error other =>
      rw [below] at purged
      cases purged
      obtain ⟨group, listed, middle, fewer, failed⟩ := foldlM_error
        (P := fun current => ∀ row ∈ current.messages, row ∈ stores.messages)
        (fun _ _ _ fewer purged row stored => (removes_purgeDescendants _ purged).elim
          fun _ removes => fewer row (removes.mem stored)) (fun _ stored => stored) below
      obtain ⟨chain, length, isChain⟩ := ih (sound.subset fewer) failed
      refine ⟨group.1 :: chain, by rw [length_cons, length], ?_⟩
      exact .cons_cons (grouped group listed).child
        (isChain.imp fun _ _ child => child.mono fewer)

theorem length_le_of_chain {store : MessageStore} {chain : List String}
    (acyclic : ∀ recordId, Below store tenant root recordId → ¬ Below store tenant recordId recordId)
    (isChain : List.IsChain (ChildOf store tenant) (root :: chain)) :
    chain.length ≤ store.length := by
  have pairwise : List.Pairwise (Below store tenant) (root :: chain) :=
    isChain_iff_pairwise.mp (isChain.imp fun _ _ => TransGen.single)
  obtain ⟨below, ordered⟩ := pairwise_cons.mp pairwise
  have distinct : (chain.map some).Nodup := by
    refine (nodup_map_iff (Option.some_injective _)).mpr (ordered.imp_of_mem ?_)
    rintro a b listed - isBelow rfl
    exact acyclic a (below a listed) isBelow
  have stored : chain.map some ⊆ store.map fun row => messageRecordId row.message := by
    intro _ mapped
    obtain ⟨recordId, listed, rfl⟩ := mem_map.mp mapped
    obtain ⟨parent, -, row, isStored, ofRecord, -⟩ := tail'_iff.mp (below recordId listed)
    exact mem_map.mpr ⟨row, isStored, ofRecord.state.messageRecordId⟩
  simpa using distinct.length_le_of_subset stored

section

variable {whole : Stores} (law : p.CollisionFree) (sound : Sound p whole.messages)
  (purged : purgeDescendants p tenant fuel whole root = .ok after)

include law sound purged

theorem acyclic_of_purge (reached : ReflTransGen (ChildOf whole.messages tenant) root recordId) :
    ¬ Below whole.messages tenant recordId recordId := by
  intro cycle
  have endless : Endless whole.messages tenant
      { id | ReflTransGen (ChildOf whole.messages tenant) id recordId } := by
    intro parent above
    obtain ⟨child, isChild, rest⟩ := head'_iff.mp (trans_right above cycle)
    exact ⟨child, rest, isChild⟩
  exact (purgeDescendants_endless law fuel sound endless purged).1 reached

theorem purge_ends {current : Stores} (trims : Trims current whole) :
    ∃ ops, purgeDescendantsOps p tenant (current.messages.length + 1) current root = .ok ops := by
  cases ops : purgeDescendantsOps p tenant (current.messages.length + 1) current root with
  | ok found => exact ⟨found, rfl⟩
  | error failure =>
    have failed : purgeDescendants p tenant (current.messages.length + 1) current root =
        .error failure := by
      rw [purgeDescendants_eq_ops, ops]
      rfl
    obtain ⟨chain, length, isChain⟩ := chain_of_error _ (sound.subset fun _ => trims.row) failed
    have mono {a b : String} (below : Below current.messages tenant a b) :
        Below whole.messages tenant a b :=
      TransGen.mono (fun _ _ child => child.mono fun _ => trims.row) _ _ below
    have bounded := length_le_of_chain (fun recordId below cycle =>
      acyclic_of_purge law sound purged (mono below).to_reflTransGen (mono cycle)) isChain
    omega

end

end Enbox.Proof.Tasks
