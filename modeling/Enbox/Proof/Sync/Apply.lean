import Enbox.Proof.Sync.Commit

/-! # Applying an entry -/

namespace Enbox.Proof.Sync

open Lib Run SyncEndpoint

variable {tenant : Did} {resolver : Option DidResolver} {data : Option Bytes}

def isAnswered (error : SyncError) : Bool :=
  match error.detail with
  | .reply status => status.failure ≠ some .diverges
  | _ => true

def settled : Except SyncError Unit → Option Bool
  | .ok _ => some true
  | .error error => if isAnswered error then some false else none

def SameOutcome (left right : Except SyncError Unit × Stores) : Prop :=
  SameStores left.2 right.2 ∧ settled left.1 = settled right.1

section

variable {message : Message} {status : Status} {store : MessageStore}

/-- A record above the message in its context was pruned. -/
def PrunedAncestor (tenant : Did) (message : Message) (store : MessageStore) : Prop :=
  ∃ parentId, message.writeDescriptor.bind (·.parentId) = some parentId ∧
    ∃ ancestor ∈ replyAncestors message parentId, recordHasPrune store tenant ancestor = true

theorem settleApply_classify_eq (alreadyStored parentPruned : Bool) :
    settleApply status (classifyApplyReplyWithParentState status message alreadyStored parentPruned) =
      settleApply status (classifyApplyReplyWithParentState status message false parentPruned) := by
  unfold classifyApplyReplyWithParentState
  by_cases isConflict : status.code = 409
  · cases alreadyStored <;> simp [isConflict, settleApply]
  · simp [isConflict]

theorem not_terminal (unpruned : ¬ PrunedAncestor tenant message store) :
    parentReplyIsTerminal tenant message status store = false := by
  unfold parentReplyIsTerminal
  split
  · rename_i parentId isParent
    rw [Bool.and_eq_false_iff, ← Bool.not_eq_true, ← Bool.not_eq_true, List.any_eq_true]
    exact .inr fun ⟨ancestor, listed, pruned⟩ => unpruned ⟨parentId, isParent, ancestor, listed, pruned⟩
  · exact Bool.and_false _

end

section

variable {p : Primitives} {stores : Stores} {entry : SyncEntry}

theorem applied_of_success {message : Message} {status : Status} {alreadyStored parentPruned : Bool}
    (success : status.isSuccess = true) :
    settled (settleApply status
      (classifyApplyReplyWithParentState status message alreadyStored parentPruned)) = some true := by
  rw [settleApply_classify_eq]
  simp only [Status.isSuccess, Bool.or_eq_true, decide_eq_true_eq] at success
  rcases success with code | code <;>
    simp [classifyApplyReplyWithParentState, code, settleApply, settled]

/-- When no ancestor is pruned, direct and HTTP endpoints leave a node in the same state and report
the same for an intact entry, if the node does as much without the data; and only then, if the data
are small and the node accepts the write with them. -/
theorem apply_transport_independent_iff {sent : Option Bytes}
    (intact : checkEntry p entry = .ok sent)
    (unpruned : ¬ PrunedAncestor tenant entry.message stores.messages) :
    let viaHttp := applyViaHttp (dwnProcessMessage p resolver) stores tenant entry
    let direct := apply p (dwnProcessMessage p resolver) stores tenant entry
    let reply := dwnProcessMessage p resolver stores tenant entry.message sent
    (SameWithoutData p resolver stores tenant entry.message sent → SameOutcome viaHttp direct) ∧
    ∀ d, entry.message.descriptor = .recordsWrite d → d.dataSize ≤ maxEncodedDataSize →
      ¬ RevokesOwnGrant d → p.CollisionFree → Reaches (step p) (fun _ _ => True) {} stores →
      reply.1.isSuccess = true → SameOutcome viaHttp direct →
      SameWithoutData p resolver stores tenant entry.message sent := by
  intro viaHttp direct reply
  have processed : direct.2 = reply.2 := by
    simp only [direct, reply, apply, intact]
  refine ⟨fun same => ⟨processed ▸ same.reply.2.sameStores, ?_⟩, ?_⟩
  · simp only [viaHttp, direct, applyViaHttp, apply, intact, same.reply.1]
    by_cases success : reply.1.isSuccess = true
    · exact (applied_of_success success).trans (applied_of_success success).symm
    · have still : ¬ PrunedAncestor tenant entry.message reply.2.messages := by
        -- A refused write leaves the messages alone, so the ancestor was pruned before.
        rintro ⟨parentId, isParent, pruned⟩
        obtain ⟨d, isWrite, -⟩ := Option.bind_eq_some_iff.mp isParent
        rw [Message.writeDescriptor_eq_some] at isWrite
        have unchanged : reply.2.messages = stores.messages :=
          refused_write_unchanged isWrite success
        rw [unchanged] at pruned
        exact unpruned ⟨parentId, isParent, pruned⟩
      rw [not_terminal still, settleApply_classify_eq, classifyApplyReply]
  · intro d isWrite small lasts law reached success outcome
    refine sameWithoutData_of_rows law (sound_of_reaches sound_nil reached) isWrite small lasts
      success fun row stored => (outcome.1.messages row).mpr ?_
    rwa [processed]

end

section

open Threads Concrete

def editEntry : SyncEntry := ⟨"m5", edit, some "two"⟩
def threadEntry : SyncEntry := ⟨"m3", one, some "one"⟩

noncomputable section

def appliedDirectly (stores : Stores) (entry : SyncEntry) : Except SyncError Unit × Stores :=
  apply p (dwnProcessMessage p (some openResolver)) stores "did:ex:alice" entry

def appliedViaHttp (stores : Stores) (entry : SyncEntry) : Except SyncError Unit × Stores :=
  applyViaHttp (dwnProcessMessage p (some openResolver)) stores "did:ex:alice" entry

theorem edit_reuses_data :
    SameWithoutData p (some openResolver) (stores joined) "did:ex:alice" edit
      (some (textBytes "two")) :=
  .inr (.inr ⟨_, thread "two" 4, textBytes "two", ⟨rfl, rfl, rfl⟩, rfl, rfl, rfl, rfl, rfl, rfl,
    "T2", _, thread "two" 2, rfl, rfl, rfl, rfl, rfl, fun _ => ⟨rfl, rfl⟩,
    fun large => absurd large (by decide)⟩)

theorem edit_applied_alike :
    SameOutcome (appliedViaHttp (stores joined) editEntry)
        (appliedDirectly (stores joined) editEntry) ∧
      (appliedDirectly (stores joined) editEntry).2 = stores edited := by
  have unpruned : ¬ PrunedAncestor "did:ex:alice" editEntry.message (stores joined).messages :=
    fun ⟨_, isParent, _⟩ => by cases isParent
  exact ⟨(apply_transport_independent_iff rfl unpruned).1 edit_reuses_data, rfl⟩

def configured : Stores := stores [.request (request configureMessage "")]

def dataAndState (row : Row) : Cid × Option String × Option Value :=
  (row.cid, row.message.fields.encodedData, row.indexes.lookup .isLatestBaseState)

theorem thread_via_http_without_data :
    p.CollisionFree ∧
    SyncEndpoint.checkEntry p threadEntry = .ok (some (textBytes "one")) ∧
    let direct := appliedDirectly configured threadEntry
    let viaHttp := appliedViaHttp configured threadEntry
    direct.1 = .ok () ∧ viaHttp.1 = .ok () ∧
    direct.2.messages.map dataAndState =
      [("m3", some "one", some (.bool true)), ("m0", none, some (.bool true))] ∧
    viaHttp.2.messages.map dataAndState =
      [("m3", none, some (.bool false)), ("m0", none, some (.bool true))] ∧
    ¬ SameOutcome viaHttp direct :=
  ⟨collisionFree, rfl, rfl, rfl, rfl, rfl, fun same => not_sameStores rfl rfl same.1⟩

end

end

end Enbox.Proof.Sync
