import Enbox.Messages.Read
import Enbox.Proof.Run.Sound
import Enbox.Proof.Run.Threads

/-! # What MessagesRead returns -/

namespace Enbox.Proof.Messages

open Lib Run Concrete

theorem not_messagesRead_of_filed {p : Primitives} {row : Row} (filed : Filed p row)
    (d : MessagesReadDescriptor) : row.message.descriptor ≠ .messagesRead d := by
  intro isRead
  cases filed with
  | write indexed => cases indexed.descriptor.symm.trans isRead
  | delete _ indexed => cases indexed.isDelete.symm.trans isRead
  | configure isConfigure => cases isConfigure.symm.trans isRead

theorem get_eq_some {store : MessageStore} {tenant : Did} {cid : Cid} {message : Message}
    (found : store.get tenant cid = some message) :
    ∃ row ∈ store, row.tenant = tenant ∧ row.cid = cid ∧ row.message = message := by
  obtain ⟨row, isFound, rfl⟩ := Option.map_eq_some_iff.mp found
  have keyed := List.find?_some isFound
  simp only [Bool.and_eq_true, decide_eq_true_eq] at keyed
  exact ⟨row, List.mem_of_find?_eq_some isFound, keyed.1, keyed.2, rfl⟩

structure Replied (p : Primitives) (stores : Stores) (request : Request)
    (auth : AuthorizationContext) (stored : Message) (access : MessagesReadGrantAccess)
    (cid : Cid) (entry : ReadEntry) : Prop where
  signed : validateAuthorizationSignature p request.resolver request.message true = .ok (some auth)
  found : stores.messages.get request.tenant cid = some stored
  authorized : authorizeMessagesRead p stores.messages request.tenant request.message stored auth =
    .ok access
  entry : entry = ⟨cid, some request.message, readData p stores.data request.tenant stored access⟩

structure Faithful (p : Primitives) (stores : Stores) (tenant : Did) (stored : Message)
    (access : MessagesReadGrantAccess) (cid : Cid) (entry : ReadEntry) : Prop where
  named : entry.cid = cid
  message : ∃ message, entry.message = some message ∧ p.messageCid message = cid ∧
    message.fields.encodedData = none
  data : access = .full → ∀ d recordId, stored.descriptor = .recordsWrite d →
    stored.recordId = some recordId →
    (stored.fields.encodedData.isSome ∨ (stores.data.get tenant recordId d.dataCid).isSome) →
    ∃ text bytes, entry.encodedData = some text ∧ p.base64Url text = some bytes ∧
      p.dataCid bytes = d.dataCid
  metadata : access = .metadataOnly → entry.encodedData = none

/-- The reply to a read carries the CID that was asked for, and no data under scoped grants, but its
message is the request: no reply is faithful. -/
theorem messagesRead_returns_request {p : Primitives} (law : p.CollisionFree)
    {allowed : Stores → Event → Prop} {stores : Stores}
    (reached : Reaches (step p) allowed {} stores) {request : Request} {d : MessagesReadDescriptor}
    (isRead : request.message.descriptor = .messagesRead d) {cid : Cid}
    (named : d.messageCid = some cid) {entry : ReadEntry}
    (replied : handleMessagesRead p request.resolver stores request.tenant request.message d =
      .ok entry) : ∃ auth stored access, Replied p stores request auth stored access cid entry ∧
      p.messageCid stored = cid ∧ entry.cid = cid ∧
      (access = .metadataOnly → entry.encodedData = none) ∧
      entry.message = some request.message ∧
      ¬ Faithful p stores request.tenant stored access cid entry := by
  simp only [handleMessagesRead, requireSignature, named, ok_iff, Option.some.injEq,
    exists_eq_left'] at replied
  obtain ⟨auth, ⟨_, signed, rfl⟩, stored, found, access, authorized, isEntry⟩ := replied
  have reply : Replied p stores request auth stored access cid entry :=
    ⟨signed, found, authorized, isEntry.symm⟩
  obtain ⟨row, isStored, -, hasCid, rfl⟩ := get_eq_some reply.found
  have sound := sound_of_reaches sound_nil reached
  have ownCid := sound.addressed row isStored
  refine ⟨auth, row.message, access, reply, ownCid.symm.trans hasCid, by rw [reply.entry], ?_,
    by rw [reply.entry], fun faithful => ?_⟩
  · rintro rfl
    rw [reply.entry, readData]
  · obtain ⟨message, carried, sameCid, -⟩ := faithful.message
    rw [reply.entry] at carried
    cases carried
    have same : p.messageCid request.message = p.messageCid row.message := by
      rw [sameCid, ← hasCid, ownCid]
    have inputs := law.cid same
    rw [CidInput.message.injEq] at inputs
    have descriptors : request.message.withoutEncodedData.descriptor =
        row.message.withoutEncodedData.descriptor := congrArg MessageOf.descriptor inputs
    exact not_messagesRead_of_filed (sound.filed row isStored) d (descriptors.symm.trans isRead)

def readOne : MessagesReadDescriptor where
  messageTimestamp := 6
  messageCid := some "m3"

def readOneMessage : Message := signedMessage (.messagesRead readOne) "read"

def readOneScript : Script := Threads.script.adding readOneMessage "dm" "m8"

noncomputable abbrev p : Primitives := readOneScript.primitives

theorem readOne_collisionFree : p.CollisionFree := readOneScript.collisionFree (by decide) (by decide)

noncomputable def started : Stores := Threads.started.foldl (step p) {}

theorem readOne_returns_request :
    p.CollisionFree ∧ Reaches (step p) (fun _ _ => True) {} started ∧
    ∃ entry, handleMessagesRead p (some openResolver) started "did:ex:alice" readOneMessage readOne =
        .ok entry ∧
      entry.message = some readOneMessage := by
  have reached : Reaches (step p) (fun _ _ => True) {} started :=
    AllowedAlong.reaches ⟨trivial, trivial, trivial, trivial⟩
  have replied : handleMessagesRead p (Threads.request readOneMessage "").resolver started
      (Threads.request readOneMessage "").tenant (Threads.request readOneMessage "").message readOne =
        .ok ⟨"m3", some readOneMessage, some "one"⟩ := rfl
  obtain ⟨_, _, _, _, _, _, _, returned, -⟩ :=
    messagesRead_returns_request readOne_collisionFree reached rfl rfl replied
  exact ⟨readOne_collisionFree, reached, _, replied, returned⟩

theorem readOne_not_faithful :
    p.CollisionFree ∧ started.messages.get "did:ex:alice" "m3" ≠ none ∧
    ∃ entry, handleMessagesRead p (some openResolver) started "did:ex:alice" readOneMessage readOne =
        .ok entry ∧
      entry.cid = "m3" ∧ entry.message.map p.messageCid = some "m8" :=
  ⟨readOne_collisionFree, nofun, ⟨"m3", some readOneMessage, some "one"⟩, rfl, rfl, rfl⟩

end Enbox.Proof.Messages
