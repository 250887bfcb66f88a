import Enbox.Proof.Run.Sweep

/-! # Effects on the data store -/

namespace Enbox.Proof.Run

open Lib

variable {row : DataRow} {tenant : Did} {recordId : String} {dataCid : Cid} {data : DataStore}
  {p : Primitives} {stores : Stores}

abbrev DataKey := Did × String × Cid

def reference (row : DataRow) : DataKey := (row.tenant, row.recordId, row.dataCid)

def references (data : DataStore) : Set DataKey := {key | ∃ row ∈ data, reference row = key}

theorem keyed_iff :
    DataStore.keyed row tenant recordId dataCid = true ↔
      reference row = (tenant, recordId, dataCid) := by
  simp [DataStore.keyed, reference, and_assoc]

theorem get_isSome_iff :
    (data.get tenant recordId dataCid).isSome = true ↔
      (tenant, recordId, dataCid) ∈ references data := by
  simp [DataStore.get, references, keyed_iff]

theorem mem_putData {bytes : Bytes} : row ∈ data.put tenant recordId dataCid bytes ↔
      row = ⟨tenant, recordId, dataCid, bytes⟩ ∨
        row ∈ data ∧ reference row ≠ (tenant, recordId, dataCid) := by
  simp [DataStore.put, DataStore.delete, keyed_iff]

theorem references_put (data : DataStore) (tenant : Did) (recordId : String) (dataCid : Cid)
    (bytes : Bytes) : references (data.put tenant recordId dataCid bytes) =
      insert (tenant, recordId, dataCid) (references data) := by
  ext key
  rw [Set.mem_insert_iff]
  constructor
  · rintro ⟨row, stored, rfl⟩
    rcases mem_putData.mp stored with rfl | ⟨old, -⟩
    · exact .inl rfl
    · exact .inr ⟨row, old, rfl⟩
  · by_cases same : key = (tenant, recordId, dataCid)
    · exact fun _ => ⟨⟨tenant, recordId, dataCid, bytes⟩, mem_putData.mpr (.inl rfl), same.symm⟩
    · rintro (isPut | ⟨row, old, rfl⟩)
      · exact absurd isPut same
      · exact ⟨row, mem_putData.mpr (.inr ⟨old, same⟩), rfl⟩

def Drops (gone : Set DataKey) (after before : Stores) : Prop :=
  ∀ row, row ∈ after.data ↔ row ∈ before.data ∧ reference row ∉ gone

section

variable {after before : Stores}

theorem Drops.of_eq (same : after.data = before.data) : Drops ∅ after before := by
  intro row
  simp [same]

theorem Drops.congr {xs ys : Set DataKey} (drops : Drops xs after before)
    (same : ∀ key, key ∈ xs ↔ key ∈ ys) : Drops ys after before := by
  rwa [← Set.ext same]

theorem Drops.trans {middle : Stores} {xs ys : Set DataKey} (second : Drops ys after middle)
    (first : Drops xs middle before) : Drops (xs ∪ ys) after before := by
  intro row
  rw [second row, first row, Set.mem_union]
  tauto

theorem Drops.references {gone : Set DataKey} (drops : Drops gone after before) :
    references after.data = references before.data \ gone := by
  ext key
  constructor
  · rintro ⟨row, stored, rfl⟩
    exact ⟨⟨row, ((drops row).mp stored).1, rfl⟩, ((drops row).mp stored).2⟩
  · rintro ⟨⟨row, stored, rfl⟩, kept⟩
    exact ⟨row, (drops row).mpr ⟨stored, kept⟩, rfl⟩

theorem drops_foldl {α : Type} {drop : Stores → α → Stores} {gone : α → Set DataKey}
    (drops : ∀ stores item, Drops (gone item) (drop stores item) stores) (items : List α)
    (stores : Stores) :
    Drops {key | ∃ item ∈ items, key ∈ gone item} (items.foldl drop stores) stores := by
  induction items generalizing stores with
  | nil => exact (Drops.of_eq rfl).congr (by simp)
  | cons item rest ih => exact ((ih (drop stores item)).trans (drops stores item)).congr (by simp)

theorem drops_deleteData (stores : Stores) (tenant : Did) (recordId : String) (dataCid : Cid) :
    Drops {(tenant, recordId, dataCid)} (stores.deleteData tenant recordId dataCid) stores := by
  intro row
  simp [Stores.deleteData, DataStore.delete, keyed_iff]

def Refers (tenant : Did) (m : Message) (key : DataKey) : Prop :=
  ∃ d recordId, m.descriptor = .recordsWrite d ∧ m.recordId = some recordId ∧
    maxEncodedDataSize < d.dataSize ∧ key = (tenant, recordId, d.dataCid)

theorem drops_deleteFromDataStoreIfNeeded (stores : Stores) (tenant : Did) (newest m : Message) :
    Drops {key | Refers tenant m key ∧ ¬ newest.writeDescriptor.any (·.dataCid = key.2.2)}
      (deleteFromDataStoreIfNeeded stores tenant newest m) stores := by
  unfold deleteFromDataStoreIfNeeded
  split
  · rename_i d recordId isWrite record
    rw [Message.writeDescriptor_eq_some] at isWrite
    have refers {key : DataKey} : Refers tenant m key ↔ maxEncodedDataSize < d.dataSize ∧
        key = (tenant, recordId, d.dataCid) := by
      simp [Refers, isWrite, record]
    split
    · rename_i unneeded
      refine (Drops.of_eq rfl).congr fun key => ?_
      rw [Set.mem_ofPred_eq, refers]
      refine ⟨False.elim, ?_⟩
      rintro ⟨⟨large, rfl⟩, other⟩
      exact unneeded.elim large.not_ge other
    · rename_i needed
      refine (drops_deleteData stores tenant recordId d.dataCid).congr fun key => ?_
      rw [Set.mem_ofPred_eq, refers, Set.mem_singleton_iff]
      rw [not_or, not_le] at needed
      constructor
      · rintro rfl
        exact ⟨⟨needed.1, rfl⟩, needed.2⟩
      · exact fun ⟨⟨_, same⟩, _⟩ => same
  · rename_i unnamed
    refine (Drops.of_eq rfl).congr fun key => ⟨False.elim, ?_⟩
    rintro ⟨⟨d, recordId, isWrite, record, -⟩, -⟩
    exact unnamed d recordId (Message.writeDescriptor_eq_some.mpr isWrite) record

theorem drops_cleanUpData (stores : Stores) (tenant : Did) (newest : Message)
    (cleanupCids : List Cid) (existing : List Message) :
    Drops {key | ∃ m ∈ existing, p.messageCid m ∈ cleanupCids ∧ Refers tenant m key ∧
        ¬ newest.writeDescriptor.any (·.dataCid = key.2.2)}
      (cleanUpData p stores tenant newest cleanupCids existing) stores := by
  refine (drops_foldl (fun stores m => drops_deleteFromDataStoreIfNeeded stores tenant newest m)
    (existing.filter fun m => p.messageCid m ∈ cleanupCids) stores).congr fun key => ?_
  simp [and_assoc]

def NewestWrite (p : Primitives) (messages : List Message) (newest : Message) : Prop :=
  newestMessage p (messages.filter (·.writeDescriptor.isSome)) = some newest

theorem drops_performOps {ops : List StoreOp} (removals : ∀ op ∈ ops, Removal op) :
    Drops {key | key.1 = tenant ∧ .deleteData key.2.1 key.2.2 ∈ ops} (performOps p tenant stores ops)
      stores := by
  intro row
  refine foldl_iff (P := (row ∈ ·.data)) (fun op listed current => ?_) stores
  cases op with
  | commitLatestState transition => exact (removals _ listed).elim
  | deleteMessage cid => simp [performOp, Stores.deleteMessage]
  | deleteData recordId dataCid =>
    rw [performOp, drops_deleteData current tenant recordId dataCid row, Set.mem_singleton_iff,
      StoreOp.deleteData.injEq, Prod.ext_iff, Prod.ext_iff]

theorem drops_purgeRecordMessages (stores : Stores) (messages : List Message) :
    Drops {key | ∃ newest d recordId, NewestWrite p messages newest ∧
        newest.descriptor = .recordsWrite d ∧ newest.recordId = some recordId ∧
        key = (tenant, recordId, d.dataCid)}
      (purgeRecordMessages p tenant stores messages) stores := by
  refine (drops_performOps removal_purgeRecordMessagesOps).congr fun key => ?_
  simp only [Set.mem_ofPred_eq, mem_purgeRecordMessagesOps, newestDataOp, Option.bind_eq_bind,
    Option.bind_eq_some_iff, Option.pure_def, Option.some.injEq, StoreOp.deleteData.injEq,
    Message.writeDescriptor_eq_some, reduceCtorEq, and_false, exists_false, or_false, NewestWrite,
    Prod.ext_iff]
  constructor
  · rintro ⟨rfl, _, _, ⟨newest, found, recordId, record, d, isWrite, rfl, rfl⟩, same, cid⟩
    exact ⟨newest, d, recordId, found, isWrite, record, rfl, same, cid⟩
  · rintro ⟨newest, d, recordId, found, isWrite, record, ofTenant, same, cid⟩
    exact ⟨ofTenant, recordId, d.dataCid, ⟨newest, found, recordId, record, d, isWrite, rfl, rfl⟩,
      same, cid⟩

theorem drops_postProcessPermissionsWrite (stores : Stores) (message : Message) :
    Drops {key | ∃ m ∈ revokedMessages stores.messages tenant message, Refers tenant m key}
      (postProcessPermissionsWrite p tenant stores message) stores := by
  refine (drops_performOps removal_postProcessPermissionsWriteOps).congr fun key => ?_
  simp only [Set.mem_ofPred_eq, postProcessPermissionsWriteOps, List.mem_flatMap,
    mem_removeAuthorizedOps, Refers, Prod.ext_iff, reduceCtorEq, false_or, StoreOp.deleteData.injEq]
  constructor
  · rintro ⟨ofTenant, m, revoked, d, recordId, isWrite, record, large, same⟩
    exact ⟨m, revoked, d, recordId, isWrite, record, large, ofTenant, same⟩
  · rintro ⟨m, revoked, d, recordId, isWrite, record, large, ofTenant, same⟩
    exact ⟨ofTenant, m, revoked, d, recordId, isWrite, record, large, same⟩

end

end Enbox.Proof.Run
