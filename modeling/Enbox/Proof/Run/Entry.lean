import Enbox.Proof.Run.Threads

/-! # Entry ids and the records they stand for -/

namespace Enbox.Proof.Run

open Lib

def requestAuthor (p : Primitives) (request : Request) : Option Did :=
  match validateAuthorizationSignature p request.resolver request.message true with
  | .ok (some auth) => some auth.author
  | _ => none

def isUpdate (p : Primitives) (request : Request) : Bool :=
  (requestAuthor p request).any fun author => !p.isInitialWrite request.message author

def datedApart (p : Primitives) : Event → Bool
  | .request request => !isUpdate p request ||
      request.message.writeDescriptor.all fun d => d.messageTimestamp ≠ d.dateCreated
  | .controlPurge _ _ _ => true

def DatedApart (p : Primitives) (accepted : List Admission) : Prop :=
  ∀ admission ∈ accepted, ∀ d, admission.message.descriptor = .recordsWrite d →
    p.isInitialWrite admission.message admission.author = false →
    d.messageTimestamp ≠ d.dateCreated

section

variable {p : Primitives} {journal : Journal}

theorem isUpdate_iff {request : Request} {auth : AuthorizationContext}
    (signed : validateAuthorizationSignature p request.resolver request.message true =
      .ok (some auth)) :
    isUpdate p request = true ↔ p.isInitialWrite request.message auth.author = false := by
  simp [isUpdate, requestAuthor, signed]

theorem DatedApart.step (dated : DatedApart p journal.accepted) {event : Event}
    (ok : datedApart p event = true) : DatedApart p (journal.record p event).accepted := by
  intro admission listed d isWrite update
  rcases List.mem_append.mp listed with old | new
  · exact dated admission old d isWrite update
  · cases event with
    | controlPurge => cases new
    | request request =>
      obtain ⟨d', auth, recordId, accepts, rfl⟩ := mem_admissions new
      have descriptor := Message.writeDescriptor_eq_some.mpr isWrite
      have isUpdate := (isUpdate_iff accepts.signed).mpr update
      simpa [datedApart, isUpdate, descriptor] using ok

theorem datedApart_of_reaches {allowed : Journal → Event → Prop}
    (implies : ∀ journal event, allowed journal event → datedApart p event = true)
    (reached : Reaches (Journal.record p) allowed {} journal) : DatedApart p journal.accepted := by
  have initially : DatedApart p ({} : Journal).accepted := fun admission listed => by cases listed
  exact reached.invariant (P := fun journal => DatedApart p journal.accepted) initially
    fun journal event dated ok => DatedApart.step dated (implies journal event ok)

theorem initial_of_entryId (law : p.CollisionFree) (history : History p journal)
    (dated : DatedApart p journal.accepted) {row : Row} (stored : row ∈ journal.stores.messages)
    {recordId : String} (entry : row.indexes.lookup .entryId = some (.string recordId))
    {admission : Admission} (listed : admission ∈ journal.accepted)
    (record : admission.message.recordId = some recordId) :
    ∃ author, p.isInitialWrite row.message author = true ∧
      row.message.recordId = some recordId := by
  obtain ⟨source, d, id, author, latest, origin, sameEntry⟩ :=
    (history.origin row stored).of_entryId entry
  have initial : p.isInitialWrite row.message author = true := by
    rcases origin.author with rfl | initial
    · by_contra update
      -- The founding write of the record has the same entry id, so the update is dated as it is.
      obtain ⟨e, founded⟩ := history.founded_as listed record
      obtain ⟨founder, d₀, founds, -⟩ := founded.founded
      have sameDescriptor := (entryId_inj law (founds.entry.trans sameEntry.symm)).2
      subst sameDescriptor
      obtain ⟨encodedData, message⟩ := origin.message
      have isWrite := origin.indexed.descriptor
      rw [message] at isWrite update
      exact dated source origin.listed d₀ isWrite (by simpa using update) founds.dated
    · exact initial
  obtain ⟨e, isWrite, carried⟩ := isInitialWrite_iff.mp initial
  have sameDescriptor := isWrite.symm.trans origin.indexed.descriptor
  cases sameDescriptor
  exact ⟨author, initial, sameEntry ▸ carried⟩

def retains (stores : Stores) (tenant : Did) (recordId : String) : Bool :=
  stores.messages.any fun row =>
    row.tenant = tenant && row.indexes.lookup .recordId = some (.string recordId)

theorem History.of_retains (history : History p journal) {tenant : Did} {recordId : String}
    (retained : retains journal.stores tenant recordId = true) :
    ∃ admission ∈ journal.accepted, admission.tenant = tenant ∧
      admission.message.recordId = some recordId := by
  simp only [retains, List.any_eq_true, Bool.and_eq_true, decide_eq_true_eq] at retained
  obtain ⟨row, stored, rfl, indexed⟩ := retained
  exact (history.origin row stored).of_recordId indexed

theorem initial_of_found (law : p.CollisionFree) (history : History p journal)
    (dated : DatedApart p journal.accepted) {admission : Admission}
    (listed : admission ∈ journal.accepted) {tenant : Did} {recordId : String}
    (record : admission.message.recordId = some recordId) {message : Message}
    (found : fetchInitialWriteMessage journal.stores.messages tenant recordId = some message) :
    (∃ author, p.isInitialWrite message author = true) ∧ message.recordId = some recordId := by
  obtain ⟨row, stored, ofTenant, rfl, selected⟩ := mem_first found
  have entry := (history.origin row stored).lookup_selected selected (.inr rfl) List.mem_cons_self
  obtain ⟨author, initial, carried⟩ :=
    initial_of_entryId law history dated stored entry listed record
  exact ⟨⟨author, initial⟩, carried⟩

theorem fetchInitialWriteMessage_initial (law : p.CollisionFree) (history : History p journal)
    (dated : DatedApart p journal.accepted) {tenant : Did} {recordId : String}
    (retained : retains journal.stores tenant recordId = true) {message : Message}
    (found : fetchInitialWriteMessage journal.stores.messages tenant recordId = some message) :
    (∃ author, p.isInitialWrite message author = true) ∧ message.recordId = some recordId := by
  obtain ⟨admission, listed, -, record⟩ := history.of_retains retained
  exact initial_of_found law history dated listed record found

end

/-- In every run whose updates are dated apart from the creation of their records, the messages
indexed under the entry id of a record that was ever accepted are of that record, and its initial
write is found. -/
theorem entry_of_record_in_dated_run {p : Primitives} (law : p.CollisionFree) {journal : Journal}
    (recorded : Reaches (Journal.record p) (fun _ event => datedApart p event = true) {} journal)
    {admission : Admission} (listed : admission ∈ journal.accepted) {recordId : String}
    (record : admission.message.recordId = some recordId) (tenant : Did) :
    (∀ row ∈ journal.stores.messages, row.tenant = tenant →
      row.indexes.lookup .entryId = some (.string recordId) →
      row.message.recordId = some recordId) ∧
    ∀ message, fetchInitialWriteMessage journal.stores.messages tenant recordId = some message →
      message.recordId = some recordId ∧ ∃ author, p.isInitialWrite message author = true := by
  have history := history_of_reaches law recorded
  have dated := datedApart_of_reaches (fun _ _ ok => ok) recorded
  refine ⟨fun row stored ofTenant entry => ?_, fun message found => ?_⟩
  · obtain ⟨-, -, carried⟩ := initial_of_entryId law history dated stored entry listed record
    exact carried
  · exact (initial_of_found law history dated listed record found).symm

namespace Threads

theorem entry_of_second_thread :
    p.CollisionFree ∧
    AllowedAlong (Journal.record p) (fun _ event => datedApart p event = true) {} edited ∧
    ⟨"did:ex:alice", edit, "did:ex:bob"⟩ ∈ (journal edited).accepted ∧
    ∀ message, fetchInitialWriteMessage (journal edited).stores.messages "did:ex:alice" "T2" =
        some message →
      message.recordId = some "T2" ∧ ∃ author, p.isInitialWrite message author = true := by
  have listed : ⟨"did:ex:alice", edit, "did:ex:bob"⟩ ∈ (journal edited).accepted :=
    .tail _ (.tail _ (.tail _ (.head _)))
  refine ⟨collisionFree, ?along, listed, (entry_of_record_in_dated_run collisionFree
    (AllowedAlong.reaches ?along) listed rfl "did:ex:alice").2⟩
  exact ⟨rfl, rfl, rfl, rfl, rfl, trivial⟩

theorem update_of_second_thread_found_for_first :
    p.CollisionFree ∧
    (processMessage p (stores started) (request twoAsOne "one")).1 = accepted ∧
    retains (stores (started ++ [.request (request twoAsOne "one")])) "did:ex:alice" "T1" = true ∧
    (fetchInitialWriteMessage (stores (started ++ [.request (request twoAsOne "one")])).messages
      "did:ex:alice" "T1").map (·.recordId) = some (some "T2") :=
  ⟨collisionFree, rfl, rfl, rfl⟩

end Threads

/-- All writes of a record that a run accepts agree with its initial write. -/
theorem writes_agree_with_initial {p : Primitives} (law : p.CollisionFree) {journal : Journal}
    {allowed : Journal → Event → Prop} (reached : Reaches (Journal.record p) allowed {} journal)
    {a : Admission} (listed : a ∈ journal.accepted) :
    ∃ d₀ author, a.message.recordId = some (p.entryId author d₀) ∧ ∀ b ∈ journal.accepted,
      b.message.recordId = a.message.recordId →
        ∃ d, b.message.descriptor = .recordsWrite d ∧ changedProperty d₀ d = none := by
  have history := history_of_reaches law reached
  obtain ⟨_, _, -, record, -, initial, d₀, founds, -⟩ := history.founded a listed
  refine ⟨d₀, initial.author, founds.entry ▸ record, fun b listed same => ?_⟩
  obtain ⟨d, _, isWrite, record', -, _, _, founds', kept⟩ := history.founded b listed
  cases record'.symm.trans (same.trans record)
  obtain ⟨-, rfl⟩ := entryId_inj law (founds.entry.trans founds'.entry.symm)
  exact ⟨d, isWrite, kept⟩

open Threads in
theorem edit_agrees : ∃ d₀, ∀ b ∈ (journal edited).accepted, b.message.recordId = some "T2" →
    ∃ d, b.message.descriptor = .recordsWrite d ∧ changedProperty d₀ d = none := by
  obtain ⟨d₀, -, -, agree⟩ := writes_agree_with_initial collisionFree (reaches_foldl _ edited _)
    (.tail _ (.head _))
  exact ⟨d₀, agree⟩

end Enbox.Proof.Run
