import Enbox.Proof.Sync.Apply
import Enbox.Proof.Sync.Diff
import Enbox.Sync.Engine

/-! # The order of a pull -/

namespace Enbox.Proof.Sync

open Lib

variable {tenant : Did} {maxSize : Nat} {cids : List Cid}

section

variable {p : Primitives} {stores : Stores} {a b : SyncEntry}

def storedCids (stores : Stores) (tenant : Did) : List Cid :=
  ((stores.messages.filter (·.tenant = tenant)).map (·.cid)).dedup

def completeEntries (p : Primitives) (stores : Stores) (tenant : Did) : List SyncEntry :=
  storedEntries p SyncEndpoint.maxInlineDataSize stores tenant (storedCids stores tenant)

theorem eq_of_messageCid_eq (left : a ∈ storedEntries p maxSize stores tenant cids)
    (right : b ∈ storedEntries p maxSize stores tenant cids) (same : a.messageCid = b.messageCid) :
    a = b := by
  simp only [storedEntries, List.mem_filterMap, Option.map_eq_some_iff] at left right
  obtain ⟨cid, -, stored, found, rfl⟩ := left
  obtain ⟨cid', -, stored', found', rfl⟩ := right
  cases (same : cid = cid')
  cases found.symm.trans found'
  rfl

theorem nodup_storedEntries (nodup : cids.Nodup) :
    (storedEntries p maxSize stores tenant cids).Nodup := by
  refine List.Nodup.filterMap (fun cid cid' entry inFirst inSecond => ?_) nodup
  rw [Option.mem_def, Option.map_eq_some_iff] at inFirst inSecond
  obtain ⟨stored, -, rfl⟩ := inFirst
  obtain ⟨stored', -, same⟩ := inSecond
  exact (congrArg (·.messageCid) same).symm

theorem nodup_completeEntries : (completeEntries p stores tenant).Nodup :=
  nodup_storedEntries (List.nodup_dedup _)

end

section

variable {p : Primitives} {stores : Stores}

def CidBefore (a b : SyncEntry) : Prop := a.messageCid < b.messageCid

theorem sortByMessageCid_sorted (entries : List SyncEntry) :
    (sortByMessageCid entries).Pairwise fun a b => a.messageCid ≤ b.messageCid := by
  have order (a b : SyncEntry) : compareText a.messageCid b.messageCid ≠ .gt ↔
      a.messageCid ≤ b.messageCid := by
    rw [compareText_eq_compare, Ne, compare_gt_iff_gt, not_lt]
  have total : Std.Total fun a b : SyncEntry => compareText a.messageCid b.messageCid ≠ .gt :=
    ⟨fun a b => by simpa only [order] using le_total a.messageCid b.messageCid⟩
  have trans : IsTrans SyncEntry fun a b => compareText a.messageCid b.messageCid ≠ .gt :=
    ⟨fun a b c => by simpa only [order] using le_trans⟩
  simpa only [sortByMessageCid, order] using
    List.pairwise_insertionSort (fun a b => compareText a.messageCid b.messageCid ≠ .gt) entries

theorem sortByMessageCid_lists :
    Lists sortByMessageCid CidBefore (completeEntries p stores tenant) where
  perm entries := List.perm_insertionSort _ entries
  asymm _ _ := lt_asymm
  sorted entries subset nodup := by
    have distinct : (sortByMessageCid entries).Nodup :=
      (List.perm_insertionSort _ entries).nodup_iff.mpr nodup
    refine ((sortByMessageCid_sorted entries).and distinct).imp_of_mem fun {a b} left right pair => ?_
    have inside {x : SyncEntry} (sorted : x ∈ sortByMessageCid entries) :
        x ∈ completeEntries p stores tenant :=
      subset ((List.perm_insertionSort _ entries).mem_iff.mp sorted)
    exact lt_of_le_of_ne pair.1 fun same =>
      pair.2 (eq_of_messageCid_eq (inside left) (inside right) same)

end

section

variable {p : Primitives} {stores : Stores}

inductive Requires (p : Primitives) (store : MessageStore) (tenant : Did) (earlier later : SyncEntry) :
    Prop
  | configure {d : WriteDescriptor} (isWrite : later.message.descriptor = .recordsWrite d)
      (isInstalled : coreDefinition d.protocol = none)
      (governs : governingConfiguration store tenant d.protocol (some d.messageTimestamp) =
        some earlier.message) : Requires p store tenant earlier later
  | initialWrite {recordId : String} (isInitial : isOwnInitialWrite p earlier.message = true)
      (record : earlier.message.recordId = some recordId)
      (ofRecord : later.message.recordId = some recordId ∨
        later.message.deleteDescriptor.any (·.recordId = recordId) = true)
      (different : earlier ≠ later) : Requires p store tenant earlier later
  | parent {recordId : String} (record : earlier.message.recordId = some recordId)
      (child : later.parentId = some recordId) : Requires p store tenant earlier later
  | grant {d : WriteDescriptor} {grantId : String} (record : earlier.message.recordId = some grantId)
      (isWrite : later.message.descriptor = .recordsWrite d)
      (invokes : d.permissionGrantId = some grantId) : Requires p store tenant earlier later

/-- The dependencies of a tenant's messages come first in every complete diff, once it is sorted,
just when each of them is one of the parents a message waits for. -/
theorem dependencies_first_iff (p : Primitives) (stores : Stores) (tenant : Did) :
    (∀ entries, entries.Perm (completeEntries p stores tenant) →
      ∀ earlier ∈ entries, ∀ later ∈ entries, Requires p stores.messages tenant earlier later →
        [earlier, later].Sublist (sortDiffEntriesTopologically entries)) ↔
    ∀ earlier ∈ completeEntries p stores tenant, ∀ later ∈ completeEntries p stores tenant,
      Requires p stores.messages tenant earlier later →
        ComesBefore isPendingParent CidBefore (completeEntries p stores tenant) earlier later := by
  constructor
  · intro always earlier left later right requires
    refine (linearise_pair_iff sortByMessageCid_lists nodup_completeEntries left right).mp
      fun entries perm => ?_
    exact always entries perm earlier (perm.mem_iff.mpr left) later (perm.mem_iff.mpr right) requires
  · intro comes entries perm earlier left later right requires
    exact (comes earlier (perm.mem_iff.mp left) later (perm.mem_iff.mp right) requires).in_order
      sortByMessageCid_lists nodup_completeEntries (perm.mem_iff.mp left) (perm.mem_iff.mp right) perm

end

section

open Run.Threads Concrete

def configureLast (cid : Cid) : BitVec 256 := if cid = "m0" then BitVec.twoPow 256 255 else 0

noncomputable def source : Stores :=
  stores [.request (request configureMessage ""), .request (request one "one")]

def configureEntry : SyncEntry := ⟨"m0", configureMessage, none⟩

def noHashes : SyncHashes Digest :=
  collectedHashes (endpointVisits (digestHasher configureLast) .empty 0)

theorem computeDiff_thread_first :
    SyncEndpoint.computeDiff p (digestHasher configureLast) (indexOf ["m0", "m3"]) source
      "did:ex:alice" none 0 noHashes =
        .ok { onlyRemote := [threadEntry, configureEntry], onlyLocal := [""] } :=
  (computeDiff_of_compared ["m3", "m0"] [""] (Nat.zero_le _) (by decide +kernel)).trans rfl

theorem thread_pulled_before_its_protocol :
    p.CollisionFree ∧ (digestHasher configureLast).CollisionFree ∧
    SyncEndpoint.computeDiff p (digestHasher configureLast) (indexOf ["m0", "m3"]) source
      "did:ex:alice" none 0 noHashes =
        .ok { onlyRemote := [threadEntry, configureEntry], onlyLocal := [""] } ∧
    [threadEntry, configureEntry].Perm (completeEntries p source "did:ex:alice") ∧
    Requires p source.messages "did:ex:alice" configureEntry threadEntry ∧
    sortDiffEntriesTopologically [threadEntry, configureEntry] = [threadEntry, configureEntry] ∧
    ¬ [configureEntry, threadEntry].Sublist (sortDiffEntriesTopologically
      [threadEntry, configureEntry]) ∧
    ∃ status, SyncEndpoint.apply p (dwnProcessMessage p (some openResolver)) {} "did:ex:alice"
      threadEntry =
        (.error ⟨.dwn .protocolAuthorizationProtocolNotFound, .reply status, true⟩, {}) := by
  have nodup : [threadEntry, configureEntry].Nodup := by
    simp [threadEntry, configureEntry]
  exact ⟨collisionFree, digestHasher_collisionFree _, computeDiff_thread_first, .of_eq rfl,
    .configure rfl rfl rfl, rfl, pair_sublist_asymm nodup (.refl _), _, rfl⟩

end

end Enbox.Proof.Sync
