import Enbox.Proof.Collection.Snapshot

/-! # What a subscription shows of deletions -/

namespace Enbox.Proof.Collection

open Lib Run Authority Concrete List

def OnlyInherited (filter : RecordsFilter) : Prop :=
  filter = {
    protocol := filter.protocol
    protocolPath := filter.protocolPath
    contextId := filter.contextId
    recipient := filter.recipient
    schema := filter.schema
    parentId := filter.parentId
    recordId := filter.recordId
    dateCreated := filter.dateCreated }

instance instDecidableOnlyInherited (filter : RecordsFilter) : Decidable (OnlyInherited filter) := by
  unfold OnlyInherited
  infer_instance

section

variable {auth : CollectionAuthorization} {filter : RecordsFilter} {dateSort : Option DateSort}

theorem asksPublished_of_mem (other : auth.visibility ≠ .owner) {set : FilterSet}
    (mem : set ∈ collectionFilters auth filter dateSort .event) :
    ∃ published, (IndexKey.published, boolFilter published) ∈ set := by
  obtain ⟨visibility, author, granted, decided⟩ := auth
  cases visibility with
  | owner => exact absurd rfl other
  | published =>
    cases mem_singleton.mp mem
    exact ⟨true, mem_cons_self⟩
  | nonOwner =>
    simp only [collectionFilters, nonOwnerRecordsEventFilters, nonOwnerFilters, mem_append,
      mem_ite_nil_right, mem_singleton] at mem
    rcases mem with ⟨-, rfl⟩ | ⟨-, ((⟨-, rfl⟩ | ⟨-, rfl⟩) | ⟨-, rfl⟩) | ⟨-, rfl⟩⟩
    · exact ⟨true, mem_cons_self⟩
    all_goals exact ⟨false, mem_cons_self⟩

theorem collectionFilters_ne_nil (included : filterIncludesPublishedRecords filter = true) :
    collectionFilters auth filter dateSort .event ≠ [] := by
  obtain ⟨visibility, author, granted, decided⟩ := auth
  cases visibility with
  | owner => simp [collectionFilters]
  | published => simp [collectionFilters]
  | nonOwner => simp [collectionFilters, nonOwnerRecordsEventFilters, nonOwnerFilters, included]

theorem not_matches_of_unpublished (other : auth.visibility ≠ .owner)
    (included : filterIncludesPublishedRecords filter = true) {row : Indexes}
    (missing : row.lookup .published = none) :
    matchesFilters row (collectionFilters auth filter dateSort .event) = false := by
  refine Bool.eq_false_iff.mpr fun selected => ?_
  rcases matchesFilters_iff.mp selected with empty | ⟨set, mem, holds⟩
  · exact collectionFilters_ne_nil included empty
  · obtain ⟨published, clause⟩ := asksPublished_of_mem other mem
    obtain ⟨value, found, -⟩ := matchesSet_clause holds clause
    rw [missing] at found
    cases found

end

/-- A subscriber that is not the owner is told of the deletion of a record whose write they were
shown only if they were not shown it: no stored RecordsDelete matches. -/
theorem deletion_announced_iff_write_not_shown {p : Primitives} {allowed : Stores → Event → Prop}
    {stores : Stores} (reached : Reaches (step p) allowed {} stores) {deleted : Row}
    (stored : deleted ∈ stores.messages) {d : DeleteDescriptor}
    (isDelete : deleted.message.descriptor = .recordsDelete d) {auth : CollectionAuthorization}
    (other : auth.visibility ≠ .owner) {filter : RecordsFilter} (inherited : OnlyInherited filter)
    (dateSort : Option DateSort) (written : Row) :
    (matchesFilters written.indexes (collectionFilters auth filter dateSort .event) = true →
      matchesFilters deleted.indexes (collectionFilters auth filter dateSort .event) = true) ↔
    matchesFilters written.indexes (collectionFilters auth filter dateSort .event) = false := by
  have missing : deleted.indexes.lookup .published = none := by
    cases (sound_of_reaches sound_nil reached).filed deleted stored with
    | write indexed => cases isDelete.symm.trans indexed.descriptor
    | delete _ indexed => exact indexed.published
    | configure isConfigure => cases isDelete.symm.trans isConfigure
  rw [not_matches_of_unpublished other (by rw [inherited]; rfl) missing]
  cases matchesFilters written.indexes (collectionFilters auth filter dateSort .event) <;> simp

def removal : DeleteDescriptor where
  messageTimestamp := 9
  recordId := "R1"
  prune := false

def remove : Message := signedMessage (.recordsDelete removal) "remove"

def removalScript : Script := Threads.script.adding remove "dd" "m8"

noncomputable abbrev q : Primitives := removalScript.primitives

def removing : List Event := Threads.joined ++ [Event.request (Threads.request remove "")]

def roleFilter : RecordsFilter where
  protocol := some Threads.uri
  protocolPath := some ["thread", "participant"]

def bobSubscribes : Message where
  descriptor := .recordsSubscribe { messageTimestamp := 5, filter := roleFilter }
  fields := {}

def bobSubscription : AuthorizationContext :=
  ownContext "did:ex:bob" (.generic { descriptorCid := "ds" })

def bobPlan : CollectionAuthorization := ⟨.nonOwner, some "did:ex:bob", false, false⟩

theorem removal_announced_iff_role_not_shown :
    Reaches (step q) (fun _ _ => True) {} (removing.foldl (step q) {}) ∧
    ∃ deleted ∈ (removing.foldl (step q) {}).messages,
      deleted.message.descriptor = .recordsDelete removal ∧ OnlyInherited roleFilter ∧
      ∃ written ∈ (Threads.joined.foldl (step q) {}).messages,
        (matchesFilters written.indexes (collectionFilters bobPlan roleFilter none .event) = true →
          matchesFilters deleted.indexes (collectionFilters bobPlan roleFilter none .event) =
            true) ↔
        matchesFilters written.indexes (collectionFilters bobPlan roleFilter none .event) = false := by
  have reached : Reaches (step q) (fun _ _ => True) {} (removing.foldl (step q) {}) :=
    AllowedAlong.reaches ⟨trivial, trivial, trivial, trivial, trivial, trivial⟩
  refine ⟨reached, _, mem_cons_of_mem _ mem_cons_self, rfl, by decide, _,
    mem_cons_self, ?_⟩
  exact deletion_announced_iff_write_not_shown reached
    (mem_cons_of_mem _ mem_cons_self) rfl (by decide) (by decide) none _

theorem removal_not_announced_to_bob :
    q.CollisionFree ∧
    authorizeCollection q (Threads.joined.foldl (step q) {}).messages "did:ex:alice" bobSubscribes
      roleFilter (some bobSubscription) 5 = .ok bobPlan ∧
    OnlyInherited roleFilter ∧
    (processMessage q (Threads.joined.foldl (step q) {}) (Threads.request remove "")).1 = accepted ∧
    (∃ written ∈ (Threads.joined.foldl (step q) {}).messages,
      written.message.recordId = some "R1" ∧
      written.indexes.lookup .isLatestBaseState = some (.bool true) ∧
      written.indexes.lookup .author = some (.string "did:ex:alice") ∧
      matchesFilters written.indexes (collectionFilters bobPlan roleFilter none .event) = true) ∧
    ∃ deleted ∈ (removing.foldl (step q) {}).messages,
      deleted.message = remove ∧
      deleted.indexes.lookup .author = some (.string "did:ex:alice") ∧
      matchesFilters deleted.indexes (collectionFilters bobPlan roleFilter none .event) = false :=
  ⟨removalScript.collisionFree (by decide) (by decide), rfl, by decide, rfl,
    ⟨_, mem_cons_self, rfl, rfl, rfl, rfl⟩,
    ⟨_, mem_cons_of_mem _ mem_cons_self, rfl, rfl, rfl⟩⟩

end Enbox.Proof.Collection
