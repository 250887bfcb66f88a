import Enbox.Proof.Run.Sweep

/-! # Purges of descendants -/

namespace Enbox.Proof.Run

open Lib Relation

variable {p : Primitives} {store : MessageStore} {stores pruned : Stores} {recordId : String}
  {row : Row} {d : DeleteDescriptor}

def ChildOf (store : MessageStore) (tenant : Did) (parent child : String) : Prop :=
  ∃ row ∈ store, OfRecord tenant child row ∧ matchesSet row.indexes (childFilters parent) = true

def Endless (store : MessageStore) (tenant : Did) (records : Set String) : Prop :=
  ∀ parent ∈ records, ∃ child ∈ records, ChildOf store tenant parent child

section

variable {tenant : Did}

theorem ChildOf.mono {smaller : MessageStore} (fewer : ∀ row ∈ smaller, row ∈ store)
    {parent child : String} (isChild : ChildOf smaller tenant parent child) :
    ChildOf store tenant parent child := by
  obtain ⟨row, stored, ofRecord, selected⟩ := isChild
  exact ⟨row, fewer row stored, ofRecord, selected⟩

structure Grouped (store : MessageStore) (tenant : Did) (parent : String)
    (group : String × List Message) : Prop where
  child : ChildOf store tenant parent group.1
  members : ∀ m ∈ group.2, StateMessage m group.1

theorem Sound.grouped (sound : Sound p store) (tenant : Did) (parent : String) :
    ∀ group ∈ groupByRecord (store.query tenant [childFilters parent]),
      Grouped store tenant parent group := by
  rintro ⟨child, members⟩ listed
  obtain ⟨⟨m, found, named⟩, rfl⟩ := mem_groupByRecord.mp listed
  have rows {m : Message} : m ∈ (store.query tenant [childFilters parent]).filter
      (fun m => messageRecordId m = some child) ↔ _ :=
    sound.mem_group (by simp [childFilters])
  constructor
  · obtain ⟨row, stored, ofRecord, selected, -⟩ :=
      rows.mp (List.mem_filter.mpr ⟨found, decide_eq_true named⟩)
    exact ⟨row, stored, ofRecord, selected⟩
  · intro n member
    obtain ⟨row, -, ofRecord, -, rfl⟩ := rows.mp member
    exact ofRecord.state

theorem Sound.grouped_of_child (sound : Sound p store) {parent child : String}
    (isChild : ChildOf store tenant parent child) :
    ∃ group ∈ groupByRecord (store.query tenant [childFilters parent]), group.1 = child := by
  obtain ⟨row, stored, ofRecord, selected⟩ := isChild
  exact ⟨(child, _), mem_groupByRecord.mpr ⟨⟨row.message, (mem_query_iff sound.filed).mpr
    ⟨row, stored, ofRecord.tenant, rfl, selected⟩, ofRecord.state.messageRecordId⟩, rfl⟩, rfl⟩

section

variable (law : p.CollisionFree)

include law

theorem purgeRecordMessages_removed (sound : Sound p stores.messages) {messages : List Message}
    (states : ∀ m ∈ messages, StateMessage m recordId) (stored : row ∈ stores.messages)
    (removed : row ∉ (purgeRecordMessages p tenant stores messages).messages) :
    OfRecord tenant recordId row := by
  rw [removes_purgeRecordMessages stores messages row, not_and, not_not] at removed
  obtain ⟨ofTenant, gone⟩ := removed stored
  obtain ⟨m, listed, same⟩ := List.mem_map.mp gone
  rw [sound.addressed row stored] at same
  exact ⟨ofTenant, (stateMessage_congr law same).mp (states m listed)⟩

theorem purgeGroups_removed (sound : Sound p stores.messages)
    {groups : List (String × List Message)}
    (states : ∀ group ∈ groups, ∀ m ∈ group.2, StateMessage m group.1)
    (stored : row ∈ stores.messages) (removed : row ∉ (groups.foldl (fun stores child =>
      purgeRecordMessages p tenant stores child.2) stores).messages) :
    ∃ group ∈ groups, OfRecord tenant group.1 row := by
  induction groups generalizing stores with
  | nil => exact absurd stored removed
  | cons group rest ih =>
    by_cases first : row ∈ (purgeRecordMessages p tenant stores group.2).messages
    · obtain ⟨other, listed, ofRecord⟩ := ih ((removes_purgeRecordMessages _ _).sound sound)
        (fun group listed => states group (List.mem_cons_of_mem _ listed)) first removed
      exact ⟨other, List.mem_cons_of_mem _ listed, ofRecord⟩
    · exact ⟨group, List.mem_cons_self, purgeRecordMessages_removed law sound
        (states group List.mem_cons_self) stored first⟩

theorem purgeDescendants_endless {records : Set String} (fuel : Nat) :
    ∀ {stores after : Stores} {recordId : String}, Sound p stores.messages →
      Endless stores.messages tenant records →
      purgeDescendants p tenant fuel stores recordId = .ok after →
      recordId ∉ records ∧ Endless after.messages tenant records := by
  induction fuel with
  | zero => exact fun _ _ purged => by cases purged
  | succ fuel ih =>
    intro stores after recordId sound endless purged
    simp only [purgeDescendants, ok_iff] at purged
    obtain ⟨middle, descendants, rfl⟩ := purged
    have grouped := sound.grouped tenant recordId
    have found (child : String) (isChild : ChildOf stores.messages tenant recordId child) :=
      sound.grouped_of_child isChild
    generalize groupByRecord (stores.messages.query tenant [childFilters recordId]) = groups at *
    obtain ⟨⟨soundMiddle, endlessMiddle⟩, each⟩ := foldlM_ok
      (P := fun current => Sound p current.messages ∧ Endless current.messages tenant records)
      (fun _ _ _ _ kept purged => (removes_purgeDescendants _ purged).elim fun _ removes =>
        ⟨removes.sound kept.1, (ih kept.1 kept.2 purged).2⟩) ⟨sound, endless⟩ descendants
    have outside (group : String × List Message) (listed : group ∈ groups) :
        group.1 ∉ records := by
      obtain ⟨_, _, ⟨sound, endless⟩, purged⟩ := each group listed
      exact (ih sound endless purged).1
    constructor
    · intro inside
      obtain ⟨child, isInside, isChild⟩ := endless recordId inside
      obtain ⟨group, listed, rfl⟩ := found child isChild
      exact outside group listed isInside
    · intro parent inside
      obtain ⟨child, isInside, row, stored, ofRecord, selected⟩ := endlessMiddle parent inside
      refine ⟨child, isInside, row, ?_, ofRecord, selected⟩
      by_contra removed
      obtain ⟨group, listed, ofGroup⟩ := purgeGroups_removed law soundMiddle
        (fun group listed => (grouped group listed).members) stored removed
      exact outside group listed (ofGroup.state.unique ofRecord.state ▸ isInside)

theorem purgeDescendants_removed (fuel : Nat) :
    ∀ {stores after : Stores} {recordId : String}, Sound p stores.messages →
      purgeDescendants p tenant fuel stores recordId = .ok after →
      ∀ row ∈ stores.messages, row ∉ after.messages → ∃ child, OfRecord tenant child row ∧
        TransGen (ChildOf stores.messages tenant) recordId child := by
  induction fuel with
  | zero => exact fun _ purged => by cases purged
  | succ fuel ih =>
    intro stores after recordId sound purged row stored removed
    simp only [purgeDescendants, ok_iff] at purged
    obtain ⟨middle, descendants, rfl⟩ := purged
    have grouped := sound.grouped tenant recordId
    generalize groupByRecord (stores.messages.query tenant [childFilters recordId]) = groups at *
    by_cases inMiddle : row ∈ middle.messages
    · obtain ⟨soundMiddle, -⟩ := foldlM_ok (P := fun current => Sound p current.messages)
        (fun _ _ _ _ sound purged => (removes_purgeDescendants _ purged).elim fun _ removes =>
          removes.sound sound) sound descendants
      obtain ⟨group, listed, ofRecord⟩ := purgeGroups_removed law soundMiddle
        (fun group listed => (grouped group listed).members) inMiddle removed
      exact ⟨group.1, ofRecord, .single (grouped group listed).child⟩
    · by_contra unfound
      refine inMiddle (foldlM_ok (P := fun current => Sound p current.messages ∧
        (∀ row ∈ current.messages, row ∈ stores.messages) ∧ row ∈ current.messages)
        (fun group listed current next kept purged => ?_)
        ⟨sound, fun _ stored => stored, stored⟩ descendants).1.2.2
      obtain ⟨sound, fewer, isStored⟩ := kept
      obtain ⟨cids, removes⟩ := removes_purgeDescendants _ purged
      refine ⟨removes.sound sound, fun row stored => fewer row (removes.mem stored), ?_⟩
      by_contra lost
      obtain ⟨child, ofRecord, descends⟩ := ih sound purged row isStored lost
      exact unfound ⟨child, ofRecord, .head (grouped group listed).child
        (TransGen.mono (fun _ _ isChild => isChild.mono fewer) _ _ descends)⟩

end

theorem endless_of_cycle (cycle : TransGen (ChildOf store tenant) recordId recordId) :
    Endless store tenant { r | ReflTransGen (ChildOf store tenant) recordId r ∧
      TransGen (ChildOf store tenant) r recordId } := by
  rintro parent ⟨below, above⟩
  obtain ⟨child, isChild, rest⟩ := (TransGen.head'_iff).mp above
  refine ⟨child, ⟨below.tail isChild, ?_⟩, isChild⟩
  exact (reflTransGen_iff_eq_or_transGen.mp rest).elim (fun same => same ▸ cycle) id

theorem pruneDescendants_keeps (law : p.CollisionFree)
    (prunes : pruneDescendants p tenant stores d = .ok pruned) (sound : Sound p stores.messages)
    (stored : row ∈ stores.messages) (removed : row ∉ pruned.messages) :
    ∃ child, child ≠ d.recordId ∧ OfRecord tenant child row := by
  unfold pruneDescendants at prunes
  split at prunes
  · obtain ⟨child, ofRecord, descends⟩ :=
      purgeDescendants_removed law _ sound prunes row stored removed
    refine ⟨child, fun same => ?_, ofRecord⟩
    subst same
    exact (purgeDescendants_endless law _ sound (endless_of_cycle descends) prunes).1
      ⟨.refl, descends⟩
  · cases prunes
    exact absurd stored removed

end

section

variable {request : Request} {admitted : AdmittedDelete} {author : Did}
  {transition : LatestStateTransition} {cleanupCids : List Cid} {committed : MessageStore}

theorem Deleted.sound (sound : Sound p stores.messages)
    (deleted : Deleted p stores request d admitted author transition cleanupCids committed) :
    Sound p committed :=
  sound.commit deleted.commits fun mutation mutates =>
    filed_newRow stores request _ (deleted.newRow mutation mutates)

section

variable (law : p.CollisionFree) (sound : Sound p stores.messages)
  (deleted : Deleted p stores request d admitted author transition cleanupCids committed)

include law sound deleted

theorem Deleted.mem_committed_other (other : ¬ OfRecord request.tenant d.recordId row) :
    row ∈ committed ↔ row ∈ stores.messages :=
  deleted.replaces.mem_committed_other (admitDelete_ok deleted.admits).1 sound deleted.commits law
    deleted.state other

theorem Deleted.mem_after_record
    (prunes : pruneDescendants p request.tenant { stores with messages := committed } d =
      .ok pruned) (ofRecord : OfRecord request.tenant d.recordId row) :
    row ∈ (cleanUpData p pruned request.tenant request.message cleanupCids
      admitted.existing).messages ↔ row ∈ committed := by
  rw [cleanUpData_messages]
  constructor
  · obtain ⟨cids, removes⟩ := removes_pruneDescendants prunes
    exact removes.mem
  · intro stored
    by_contra removed
    obtain ⟨child, other, ofChild⟩ := pruneDescendants_keeps law prunes (deleted.sound sound)
      stored removed
    exact other (ofChild.state.unique ofRecord.state)

end

end

end Enbox.Proof.Run
