import Enbox.Proof.Store.Fingerprint
import Enbox.Store.Memory

/-! # Failed operations of the memory message store -/

namespace Enbox.Proof.Store

open Lib Lib.Mutation Std.Do MemoryMessageStore List

set_option mvcgen.warning false

/-- Whenever a put or a commit of the memory store fails, the whole state is the one before the
call. -/
theorem failed_operation_keeps_state (cidOf : Message → Except Failure Cid)
    (contribution : Cid → Fingerprint) (streamId : Did → String) (lock : Except Failure Unit)
    (tenant : Did) (state : MemoryMessageState) :
    (∀ mutation failure after,
      exec (MemoryMessageStore.put cidOf contribution lock tenant mutation) state =
        (.error failure, after) → after = state) ∧
    ∀ transition failure after,
      exec (MemoryMessageStore.commitLatestState cidOf contribution streamId lock tenant transition)
        state = (.error failure, after) → after = state := by
  refine ⟨fun mutation failure after failed => ?_, fun transition failure after failed => ?_⟩
  · have keeps : ⦃fun s => ⌜s = state⌝⦄ put cidOf contribution lock tenant mutation
        ⦃post⟨fun _ _ => ⌜True⌝, fun _ s => ⌜s = state⌝⟩⦄ := by
      mvcgen [put, MemoryMessageStore.putMessageState]
    have kept := exec_of_triple keeps rfl
    rwa [failed] at kept
  · have keeps : ⦃fun s => ⌜s = state⌝⦄ commitLatestState cidOf contribution
        streamId lock tenant transition ⦃post⟨fun _ _ => ⌜True⌝, fun _ s => ⌜s = state⌝⟩⦄ := by
      mvcgen [commitLatestState, onCopy]
    have kept := exec_of_triple keeps rfl
    rwa [failed] at kept

def failingTransition : LatestStateTransition :=
  ⟨⟨Run.Threads.two, threadIndexes⟩, [⟨Run.Threads.role, threadIndexes⟩], []⟩

theorem failed_commit_of_second_thread :
    ∃ failure after,
      exec (MemoryMessageStore.commitLatestState (fun m => .ok (Run.Threads.p.messageCid m))
        threadContribution id (.ok ()) "did:ex:alice" failingTransition) scopedFeed =
          (.error failure, after) ∧
      (exec (MemoryMessageStore.stageTransition (fun m => .ok (Run.Threads.p.messageCid m))
        threadContribution id "did:ex:alice" failingTransition) scopedFeed).2.head "did:ex:alice" =
          scopedFeed.head "did:ex:alice" + 1 ∧
      after = scopedFeed := by
  exact ⟨_, _, rfl, rfl, (failed_operation_keeps_state (fun m => .ok (Run.Threads.p.messageCid m))
    threadContribution id (.ok ()) "did:ex:alice" scopedFeed).2 failingTransition _ _ rfl⟩

section

variable {p : Primitives} {contribution : Cid → Fingerprint} {streamId : Did → String}
  {tenant : Did} {state : MemoryMessageState}

theorem outcome_putMessageState (mutation : LatestStateMutation) :
    outcome (MemoryMessageStore.putMessageState (fun m => .ok (p.messageCid m)) contribution tenant
      mutation) state = putMessageState p contribution state tenant mutation := by
  unfold MemoryMessageStore.putMessageState putMessageState
  cases isFeedMessage mutation.message with
  | false => rfl
  | true =>
    simp only [Bool.not_true, Bool.false_eq_true, if_false, outcome_bind, outcome_check, outcome_get,
      ok_bind]
    cases found : state.positionsByCid.lookup (tenant, p.messageCid mutation.message) <;>
      simp only [found, outcome_bind, outcome_check, outcome_get, outcome_modify, replaceEntry,
        appendEntry, ok_bind, bind_assoc, pure_bind, map_eq_pure_bind] <;>
      rfl

theorem outcome_deleteMessageState (cid : Cid) :
    outcome (MemoryMessageStore.deleteMessageState contribution tenant cid) state =
      (·, ()) <$> deleteMessageState contribution state tenant cid := by
  unfold MemoryMessageStore.deleteMessageState deleteMessageState
  simp only [outcome_bind, outcome_get, ok_bind]
  cases state.positionsByCid.lookup (tenant, cid) with
  | some position =>
    simp only [outcome_bind, outcome_check, outcome_get, outcome_modify, removeEntry, ok_bind,
      bind_assoc, pure_bind, map_eq_pure_bind]
    rfl
  | none => rfl

theorem outcome_retains {retains : List LatestStateMutation} : ∀ {state : MemoryMessageState},
    Prod.fst <$> outcome (retains.forM (retainMessageState
        (fun m => .ok (p.messageCid m)) contribution tenant)) state =
      Prod.fst <$> retainMessageStates p contribution tenant state retains := by
  induction retains with
  | nil => exact fun {_} => rfl
  | cons mutation rest ih =>
    intro state
    simp only [forM_eq_forM, forM_cons, retainMessageState,
      retainMessageStates, outcome_bind, outcome_check, outcome_get, outcome_putMessageState,
      map_eq_pure_bind, bind_assoc, ok_bind, pure_bind] at ih ⊢
    simp only [ih]

theorem outcome_deletes {cids : List Cid} : ∀ {state : MemoryMessageState},
    Prod.fst <$> outcome (cids.forM (MemoryMessageStore.deleteMessageState contribution tenant)) state =
      cids.foldlM (fun staged cid => deleteMessageState contribution staged tenant cid) state := by
  induction cids with
  | nil => exact fun {_} => rfl
  | cons cid rest ih =>
    intro state
    simp only [forM_eq_forM, forM_cons, foldlM_cons, outcome_bind,
      outcome_deleteMessageState, map_eq_pure_bind, bind_assoc, pure_bind] at ih ⊢
    simp only [ih]

theorem insertMutated_foldlM {detail : Cid → String} {cids : List Cid} :
    ∀ {mutated result : List Cid},
      cids.foldlM (insertMutated detail) mutated = .ok result ↔
        result = cids.reverse ++ mutated ∧ cids.Nodup ∧ ∀ cid ∈ cids, cid ∉ mutated := by
  induction cids with
  | nil =>
    intro mutated result
    rw [foldlM_nil, pure_eq_ok]
    simp [eq_comm]
  | cons cid rest ih =>
    intro mutated result
    simp only [foldlM_cons, insertMutated, ok_iff, nodup_cons,
      forall_mem_cons]
    constructor
    · rintro ⟨_, ⟨_, fresh, rfl⟩, others⟩
      obtain ⟨rfl, distinct, apart⟩ := ih.mp others
      simp only [mem_cons, not_or] at apart
      refine ⟨by simp, ⟨fun listed => (apart cid listed).1 rfl, distinct⟩, fresh,
        fun other listed => (apart other listed).2⟩
    · rintro ⟨rfl, ⟨notLater, distinct⟩, fresh, apart⟩
      refine ⟨_, ⟨(), fresh, rfl⟩, ih.mpr ⟨by simp, distinct, fun other listed => ?_⟩⟩
      rw [mem_cons, not_or]
      exact ⟨fun same => notLater (same ▸ listed), apart other listed⟩

theorem validate_ok_iff (transition : LatestStateTransition) :
    validate (fun m => .ok (p.messageCid m)) transition = .ok () ↔
      transition.validate p = .ok () := by
  simp only [validate, ok_bind, ok_iff, LatestStateTransition.validate,
    map_cons]
  have retained (detail : Cid → String) := @insertMutated_foldlM detail
    (transition.retains.map fun m => p.messageCid m.message)
  simp only [foldlM_map] at retained
  simp only [retained, insertMutated_foldlM, mem_singleton]
  grind

theorem outcome_stageTransition {transition : LatestStateTransition}
    (valid : transition.validate p = .ok ()) :
    Prod.fst <$> outcome (MemoryMessageStore.stageTransition (fun m => .ok (p.messageCid m))
      contribution streamId tenant transition) state =
      Prod.fst <$> commitLatestStateInFeed p contribution state tenant transition := by
  simp only [MemoryMessageStore.stageTransition, commitLatestStateInFeed, Enbox.stageTransition, valid,
    outcome_bind, outcome_check, outcome_get, outcome_pure, outcome_putMessageState,
    ← outcome_deletes, map_eq_pure_bind, bind_assoc, ok_bind, pure_bind]
  refine bind_congr fun put => ?_
  have retains := @outcome_retains p contribution tenant transition.retains put.1
  have same := congrArg (· >>= fun staged => Prod.fst <$> outcome (transition.deletes.forM
    (MemoryMessageStore.deleteMessageState contribution tenant)) staged) retains
  simpa only [map_eq_pure_bind, bind_assoc, pure_bind] using same

theorem exec_commitLatestState (transition : LatestStateTransition) :
    (exec (commitLatestState (fun m => .ok (p.messageCid m)) contribution streamId
      (.ok ()) tenant transition) state).2 =
      feedStep p contribution state (.commit tenant transition) := by
  simp only [commitLatestState, exec_check_bind, feedStep]
  cases valid : transition.validate p with
  | error failure =>
    simp only [commitLatestStateInFeed, Enbox.stageTransition, valid]
    cases checked : validate (fun m => .ok (p.messageCid m)) transition with
    | error => rfl
    | ok =>
      rw [validate_ok_iff, valid] at checked
      cases checked
  | ok =>
    rw [(validate_ok_iff transition).mpr valid]
    dsimp only
    rw [exec_onCopy_snd, outcome_stageTransition valid]
    cases commitLatestStateInFeed p contribution state tenant transition <;> rfl

end

end Enbox.Proof.Store
