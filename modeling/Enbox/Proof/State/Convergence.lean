import Enbox.Proof.State.Record

/-! # The messages of a record in any order -/

namespace Enbox.Proof.State

open Lib Run

variable {recordId : String} {resolver : Option DidResolver} {store : MessageStore}
  {tenant author : Did} {message : Message} {initial : Request}

section

variable {p : Primitives} {stores : Stores} {request : Request}

theorem replying_not_conflict {α : Type} (status : Failure → Nat) (check : Except Failure α) :
    FailsWith (· ≠ conflict) (replying status check) :=
  failsWith_mapError (fun _ => by simp [conflict]) check

theorem requireSignature_not_conflict (resolver : Option DidResolver) (missing : String)
    (message : Message) :
    FailsWith (· ≠ conflict) (requireSignature p resolver missing message) :=
  FailsWith.bind (failsWith_mapError (fun _ => by simp [conflict]) _) fun context =>
    failsWith_okOr (by simp [conflict, unauthorized]) context

theorem admitWrite_conflict (record : message.recordId = some recordId)
    (refused : admitWrite p resolver store tenant message = .error conflict) :
    ∃ plan, planRecordsTransition p message (fetchRecordMessages store tenant recordId) = .ok plan ∧
      plan.applies = false := by
  simp only [admitWrite, record, okOr, ok_bind] at refused
  cases planned : planRecordsTransition p message (fetchRecordMessages store tenant recordId) with
  | error failure =>
    rw [planned] at refused
    cases refused
  | ok plan =>
    refine ⟨plan, rfl, ?_⟩
    by_contra applies
    cases plan with
    | duplicate => exact applies rfl
    | superseded => exact applies rfl
    | apply cid outranked =>
      have fresh : ¬ (RecordsTransitionPlan.apply cid outranked).isDuplicate = true :=
        Bool.false_ne_true
      rw [planned, replying, Except.mapError, ok_bind, ensure_true fresh, ok_bind] at refused
      refine absurd rfl ((?_ : FailsWith (fun status => status ≠ conflict) _) _ refused)
      refine FailsWith.bind (requireSignature_not_conflict _ _ _) fun auth => ?_
      iterate 6 refine FailsWith.bind (replying_not_conflict _ _) fun _ => ?_
      exact FailsWith.bind (failsWith_ok ()) fun _ => failsWith_ok _

theorem admitDelete_conflict {d : DeleteDescriptor}
    (refused : admitDelete p resolver store tenant message d = .error conflict) :
    ∃ plan, planRecordsTransition p message (fetchRecordMessages store tenant d.recordId) =
      .ok plan ∧ plan.applies = false := by
  unfold admitDelete at refused
  by_contra none
  refine absurd rfl ((?_ : FailsWith (fun status => status ≠ conflict) _) _ refused)
  refine FailsWith.bind (requireSignature_not_conflict _ _ _) fun auth => ?_
  refine FailsWith.bind (failsWith_ensure (by simp [conflict, notFound])) fun _ => ?_
  cases planned : planRecordsTransition p message (fetchRecordMessages store tenant d.recordId) with
  | error failure =>
    rintro _ ⟨⟩ ⟨⟩
  | ok plan =>
    have applies : plan.applies = true := by
      by_contra refuses
      exact none ⟨plan, planned, by simpa using refuses⟩
    rw [replying, Except.mapError, ok_bind, ensure_true applies, ok_bind]
    refine FailsWith.bind (failsWith_okOr (by simp [conflict, unauthorized]) _) fun _ => ?_
    exact FailsWith.bind (replying_not_conflict _ _) fun _ => failsWith_ok _

theorem commitWrite_not_conflict (tenant : Did) (admitted : AdmittedWrite) (staged : StagedWrite) :
    FailsWith (· ≠ conflict) (commitWrite p tenant admitted staged) := by
  refine FailsWith.bind (replying_not_conflict _ _) fun _ => ?_
  refine FailsWith.bind (replying_not_conflict _ _) fun _ => ?_
  exact FailsWith.bind (replying_not_conflict _ _) fun _ => replying_not_conflict _ _

theorem outranked_of_conflict (law : p.CollisionFree) (sound : Sound p stores.messages)
    (state : StateMessage request.message recordId)
    (refused : (processMessage p stores request).1 = conflict) :
    Outranked p request.tenant recordId stores request := by
  have planned : ∃ plan, planRecordsTransition p request.message
      (fetchRecordMessages stores.messages request.tenant recordId) = .ok plan ∧
        plan.applies = false := by
    unfold processMessage at refused
    split at refused
    · cases refused
    · rcases state with @⟨d, isWrite, record⟩ | @⟨d, isDelete, -, rfl⟩
      · simp only [isWrite] at refused
        unfold handleWrite at refused
        split at refused
        · rename_i status refuses
          cases refused
          exact admitWrite_conflict record refuses
        · split at refused
          · rename_i status refuses
            exact absurd refused (replying_not_conflict _ _ _ refuses)
          · split at refused
            · rename_i status refuses
              exact absurd refused (commitWrite_not_conflict _ _ _ _ refuses)
            · unfold finishWrite at refused
              split at refused
              · cases refused
              · dsimp only at refused
                split at refused <;> cases refused
      · simp only [isDelete] at refused
        unfold handleDelete at refused
        split at refused
        · rename_i status refuses
          cases refused
          exact admitDelete_conflict refuses
        · unfold performRecordsDelete at refused
          split at refused
          · cases refused
          · split at refused <;> cases refused
  obtain ⟨plan, planned, applies⟩ := planned
  have plans := plans_of_ok planned
  cases plan with
  | duplicate =>
    obtain ⟨m, listed, same⟩ := List.mem_map.mp plans
    obtain ⟨row, stored, ofRecord, rfl⟩ := sound.mem_fetchRecordMessages.mp listed
    exact ⟨row, stored, ofRecord, (rank_congr law same).ge⟩
  | superseded =>
    obtain ⟨m, listed, above⟩ := plans
    obtain ⟨row, stored, ofRecord, rfl⟩ := sound.mem_fetchRecordMessages.mp listed
    exact ⟨row, stored, ofRecord, above.le⟩
  | apply => cases applies

end

def Answered (p : Primitives) (tenant : Did) (recordId : String) (stores : Stores)
    (request : Request) : Prop :=
  Accepted p stores request ∨ (processMessage p stores request).1 = conflict ∨
    Outranked p tenant recordId stores request

theorem Answered.follows {p : Primitives} {stores : Stores} {request : Request}
    (law : p.CollisionFree) (sound : Sound p stores.messages)
    (answered : Answered p tenant recordId stores request)
    (later : Later p tenant recordId author request) :
    Follows p tenant recordId author initial stores request := by
  rcases answered with accepted | refused | outranked
  · exact .later later (.inl accepted)
  · refine .later later (.inr ?_)
    exact later.on.tenant ▸ outranked_of_conflict law sound later.on.state refused
  · exact .later later (.inr outranked)

structure Receives (p : Primitives) (tenant : Did) (recordId : String) (author : Did)
    (initial : Request) (base : Stores) (requests : List Request) : Prop where
  reached : Reaches (step p) (fun _ _ => True) {} base
  fresh : ∀ row ∈ base.messages, ¬ OfRecord tenant recordId row
  founding : Founding p tenant recordId author initial
  accepted : Accepted p base initial
  along : AllowedAlong (proceed p) (fun stores request => Later p tenant recordId author request ∧
    Answered p tenant recordId stores request) (proceed p base initial) requests

section

variable {p : Primitives} {base : Stores} {requests : List Request}

theorem Receives.stands (law : p.CollisionFree)
    (receives : Receives p tenant recordId author initial base requests) :
    Stands p tenant recordId initial (initial.message :: requests.map (·.message))
      (requests.foldl (proceed p) (proceed p base initial)).messages := by
  have sound := sound_of_reaches sound_nil receives.reached
  have along : AllowedAlong (proceed p) (Follows p tenant recordId author initial) base
      (initial :: requests) := by
    refine ⟨.founds rfl receives.accepted, (sound_along (sound.processMessage initial)
      receives.along).mono ?_⟩
    exact fun _ _ ⟨sound, later, answered⟩ => answered.follows law sound later
  have all : (initial :: requests).filter (onRecord tenant recordId) = initial :: requests := by
    refine List.filter_eq_self.mpr (List.forall_mem_cons.mpr
      ⟨onRecord_of_on receives.founding.on, receives.along.forall_mem ?_⟩)
    exact fun _ _ ⟨later, _⟩ => onRecord_of_on later.on
  have stands := stands_of_run law receives.founding sound
    (.fresh rfl (retained_eq_empty receives.fresh)) along
  rw [List.nil_append, received, all] at stands
  exact stands

end

/-- Whatever the order of its messages, the record is in the end its initial write and the greatest
of them, and two nodes that take them in in different orders agree on it. -/
theorem retained_initial_and_greatest {p : Primitives} (law : p.CollisionFree) {tenant : Did}
    {recordId : String} {author : Did} {initial : Request} {base : Stores} {requests : List Request}
    (receives : Receives p tenant recordId author initial base requests) :
    (∃ top ∈ initial.message :: requests.map (·.message),
      (∀ m ∈ initial.message :: requests.map (·.message), rank p m ≤ rank p top) ∧
      retained (requests.foldl (proceed p) (proceed p base initial)).messages tenant recordId =
        {p.messageCid initial.message, p.messageCid top}) ∧
    ∀ (other : Stores) (reordered : List Request), requests.Perm reordered →
      Receives p tenant recordId author initial other reordered →
      retained (requests.foldl (proceed p) (proceed p base initial)).messages tenant recordId =
        retained (reordered.foldl (proceed p) (proceed p other initial)).messages tenant recordId ∧
      latest (requests.foldl (proceed p) (proceed p base initial)).messages tenant recordId =
        latest (reordered.foldl (proceed p) (proceed p other initial)).messages tenant recordId := by
  have stands := receives.stands law
  constructor
  · cases stands with
    | fresh nothing => cases nothing
    | settled settled => exact ⟨_, settled.listed, settled.greatest, settled.retainedIs⟩
  · intro other reordered perm receives'
    refine stands.agree (receives'.stands law) fun m => ?_
    exact ((perm.map _).cons _).mem_iff

namespace Reordered

open Threads

def again : Message := write (thread "one" 4) "again" "alice" "T2" ["T2"]

def script : Concrete.Script := Threads.script.signed again "d3" "m9"

noncomputable section

abbrev r : Primitives := script.primitives

def base : Stores := (started.take 2).foldl (step r) {}

def updates : List Request := [request twoAsOne "one", request again "one"]

def taken (requests : List Request) : MessageStore :=
  (requests.foldl (proceed r) (proceed r base (request two "two"))).messages

end

end Reordered

open Threads Reordered in
/-- In the reverse order the older of the two updates is answered with a conflict. -/
theorem second_thread_settles :
    r.CollisionFree ∧
    (∃ top ∈ [two, twoAsOne, again], (∀ m ∈ [two, twoAsOne, again], rank r m ≤ rank r top) ∧
      retained (taken updates) "did:ex:alice" "T2" = {r.messageCid two, r.messageCid top}) ∧
    retained (taken updates) "did:ex:alice" "T2" =
      retained (taken updates.reverse) "did:ex:alice" "T2" ∧
    latest (taken updates) "did:ex:alice" "T2" =
      latest (taken updates.reverse) "did:ex:alice" "T2" := by
  have law : r.CollisionFree := script.collisionFree (by decide) (by decide)
  have receives {requests : List Request} (along : AllowedAlong (proceed r) (fun stores request =>
      Later r "did:ex:alice" "T2" "did:ex:alice" request ∧
        Answered r "did:ex:alice" "T2" stores request)
      (proceed r base (request two "two")) requests) :
      Receives r "did:ex:alice" "T2" "did:ex:alice" (request two "two") base requests :=
    ⟨reaches_foldl _ _ _, not_ofRecord_of_cids rfl, ⟨rfl, rfl, rfl, rfl, rfl, rfl⟩, rfl, along⟩
  have older : Later r "did:ex:alice" "T2" "did:ex:alice" (request twoAsOne "one") :=
    ⟨⟨rfl, .write rfl rfl⟩, fun _ _ => ⟨rfl, rfl⟩⟩
  have newer : Later r "did:ex:alice" "T2" "did:ex:alice" (request again "one") :=
    ⟨⟨rfl, .write rfl rfl⟩, fun _ _ => ⟨rfl, rfl⟩⟩
  have first : Receives r _ _ _ (request two "two") base updates :=
    receives ⟨⟨older, .inl rfl⟩, ⟨newer, .inl rfl⟩, trivial⟩
  have second : Receives r _ _ _ (request two "two") base updates.reverse :=
    receives ⟨⟨newer, .inl rfl⟩, ⟨older, .inr (.inl rfl)⟩, trivial⟩
  obtain ⟨greatest, agree⟩ := retained_initial_and_greatest law first
  exact ⟨law, greatest, agree _ _ updates.reverse_perm.symm second⟩

namespace Aliased

open Concrete Run.Threads

def two : Message := write (thread "two" 2) "two" "alias" "T2" ["T2"]

def removal : DeleteDescriptor where
  messageTimestamp := 9
  recordId := "T2"
  prune := false

def remove : Message := signedMessage (.recordsDelete removal) "remove"

def script : Script :=
  let removing := Run.Threads.script.adding remove "dd" "m9"
  { removing with
    cids := (.message two, "m8") ::
      (.entry "did:ex:alice?alias=did:ex:alice" (thread "two" 2), "e6") :: removing.cids
    headers := ("alias", { kid := some "did:ex:alice?alias=did:ex:alice#k", alg := some "EdDSA" }) ::
      partyHeaders }

noncomputable section

abbrev q : Primitives := script.primitives

def base : Stores := (started.take 2).foldl (step q) {}

def deleted : Stores :=
  proceed q (proceed q base (request two "two")) (request remove "")

end

end Aliased

open Aliased in
theorem aliased_thread_loses_initial_write :
    q.CollisionFree ∧ Reaches (step q) (fun _ _ => True) {} base ∧
    q.isInitialWrite two "did:ex:alice" = true ∧
    requestAuthor q (Run.Threads.request two "two") = some "did:ex:alice" ∧
    requestAuthor q (Run.Threads.request remove "") = some "did:ex:alice" ∧
    Accepted q base (Run.Threads.request two "two") ∧
    Accepted q (proceed q base (Run.Threads.request two "two")) (Run.Threads.request remove "") ∧
    q.messageCid two ∉ retained deleted.messages "did:ex:alice" "T2" := by
  refine ⟨script.collisionFree (by decide) (by decide),
    AllowedAlong.reaches ⟨trivial, trivial, trivial⟩, rfl, rfl, rfl, rfl, rfl, ?_⟩
  have left : retainedCids deleted.messages "did:ex:alice" "T2" = ["m9"] := rfl
  rw [mem_retainedCids, left]
  decide

end Enbox.Proof.State
