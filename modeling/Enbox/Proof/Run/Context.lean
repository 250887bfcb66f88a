import Enbox.Lib.Lineage
import Enbox.Proof.Run.Entry

/-! # The context of a record -/

namespace Enbox.Proof.Run

open Lib

variable {store : MessageStore} {parentId : String} {more : List Admission}
  {admission write : Admission} {d' : WriteDescriptor}

def NamesParent (p : Primitives) (recordId : String) (parentId : Option String) : Prop :=
  ∃ author d, p.entryId author d = recordId ∧ d.parentId = parentId

theorem singleParent {p : Primitives} (law : p.CollisionFree) : SingleParent (NamesParent p) := by
  rintro recordId _ _ ⟨author, d, entry, rfl⟩ ⟨author', d', entry', rfl⟩
  rw [(entryId_inj law (entry.trans entry'.symm)).2]

def isOrdinary (d : WriteDescriptor) : Bool := (ControlKind.fromProtocolPath d.protocolPath).isNone

def keepsContext (p : Primitives) (stores : Stores) : Event → Bool
  | .request request =>
      match request.message.writeDescriptor, request.message.recordId with
      | some d, some recordId =>
          !isUpdate p request || d.parentId.isSome ||
            (findInitialWrite p (fetchRecordMessages stores.messages request.tenant recordId)).all
              fun initial => initial.contextId = request.message.contextId
      | _, _ => true
  | .controlPurge _ _ _ => true

def namesRetainedParent (stores : Stores) : Event → Bool
  | .request request =>
      (request.message.writeDescriptor.bind (·.parentId)).all (retains stores request.tenant)
  | .controlPurge _ _ _ => true

def conforms (p : Primitives) (stores : Stores) (event : Event) : Bool :=
  datedApart p event && keepsContext p stores event && namesRetainedParent stores event

section

variable {p : Primitives} {journal : Journal} {request : Request} {d : WriteDescriptor}
  {auth : AuthorizationContext} {recordId : String}

theorem isOrdinary_of_child {parent : Path} {last : String}
    (path : isProtocolPath d.protocolPath = true) (ordinary : isOrdinary d = true)
    (extends_ : parent ++ [last] = d.protocolPath) :
    ControlKind.fromProtocolPath parent = none := by
  have letters : ∀ segment ∈ parent, segment ≠ "$encryption" := by
    simp only [isOrdinary, Option.isNone_iff_eq_none] at ordinary
    simp only [isProtocolPath, ordinary, Option.isSome_none, Bool.false_or, Bool.and_eq_true] at path
    rintro segment listed rfl
    have named := List.all_eq_true.mp path.2 "$encryption"
      (extends_ ▸ List.mem_append_left _ listed)
    exact absurd named (by decide)
  have different (kind : ControlKind) : parent ≠ kind.protocolPath := by
    rintro rfl
    cases kind <;> exact letters _ List.mem_cons_self rfl
  rw [ControlKind.fromProtocolPath, if_neg (different _), if_neg (different _)]

section

variable (accepts : Accepts p store request d auth recordId) (ordinary : isOrdinary d = true)

include accepts ordinary

theorem validateParentage_of_accepts :
    ∃ definition, validateParentage store request.tenant request.message d definition = .ok () := by
  have checked := accepts.references
  simp only [isOrdinary, Option.isNone_iff_eq_none] at ordinary
  simp only [validateReferentialIntegrity, Message.writeDescriptorOr_eq_ok.mpr accepts.isWrite, ok_bind,
    ordinary, validateOrdinaryIntegrity, bind_eq_ok] at checked
  obtain ⟨policy, -, _, -, _, -, _, -, _, -, parentage⟩ := checked
  exact ⟨policy.definition, parentage⟩

theorem parent_of_accepts (named : d.parentId = some parentId) :
    ∃ parent d' context, fetchInitialWriteMessage store request.tenant parentId = some parent ∧
      parent.descriptor = .recordsWrite d' ∧ isOrdinary d' = true ∧
      d'.protocolPath.length + 1 = d.protocolPath.length ∧ parent.contextId = some context ∧
      request.message.contextId = some (context ++ [recordId]) := by
  obtain ⟨definition, parentage⟩ := validateParentage_of_accepts accepts ordinary
  simp only [validateParentage, named, validateChild, Message.writeDescriptorOr_eq_ok, ok_iff]
    at parentage
  obtain ⟨parent, found, d', isWrite, _, path, context, parentContext, id, isRecord, declared,
    isDeclared, same⟩ := parentage
  have initial : fetchInitialWriteMessage store request.tenant parentId = some parent := by
    unfold fetchParentRecord at found
    split at found
    · cases found
    · exact (Option.filter_eq_some_iff.mp found).1
  have sameId : id = recordId := by
    simp only [messageRecordId, accepts.record] at isRecord
    cases isRecord
    rfl
  subst sameId
  refine ⟨parent, d', context, initial, isWrite, ?_, ?_, parentContext, same ▸ isDeclared⟩
  · simpa [isOrdinary] using isOrdinary_of_child accepts.path ordinary path
  · simpa using congrArg List.length path

end

structure Placed (p : Primitives) (accepted : List Admission) (admission : Admission)
    (d : WriteDescriptor) (recordId : String) : Prop where
  context : ∃ context, admission.message.contextId = some context ∧
    Lineage (NamesParent p) recordId context
  parent : ∀ parentId, d.parentId = some parentId → ∃ parent ∈ accepted,
    parent.tenant = admission.tenant ∧ ∃ d', Founded p accepted parent d' parentId ∧
      isOrdinary d' = true

def AllPlaced (p : Primitives) (accepted : List Admission) : Prop :=
  ∀ admission ∈ accepted, ∀ d recordId, admission.message.descriptor = .recordsWrite d →
    admission.message.recordId = some recordId → isOrdinary d = true →
    Placed p accepted admission d recordId

theorem Placed.append {accepted : List Admission} (placed : Placed p accepted admission d recordId) :
    Placed p (accepted ++ more) admission d recordId := by
  refine ⟨placed.context, fun parentId named => ?_⟩
  obtain ⟨parent, listed, ofTenant, d', founded, ordinary⟩ := placed.parent parentId named
  exact ⟨parent, List.mem_append_left _ listed, ofTenant, d', founded.append, ordinary⟩

theorem Founded.namesParent {accepted : List Admission}
    (founded : Founded p accepted admission d recordId) : NamesParent p recordId d.parentId := by
  obtain ⟨initial, d₀, founds, unchanged⟩ := founded.founded
  exact ⟨initial.author, d₀, founds.entry, (changedProperty_eq_none unchanged).parentId⟩

section

variable (law : p.CollisionFree) (history : History p journal)
  (dated : DatedApart p journal.accepted) (placed : AllPlaced p journal.accepted)
  (accepts : Accepts p journal.stores.messages request d auth recordId)
  (ordinary : isOrdinary d = true)

include law history dated placed accepts ordinary

theorem placed_parent (names : namesRetainedParent journal.stores (.request request) = true)
    (named : d.parentId = some parentId) :
    ∃ context, request.message.contextId = some (context ++ [recordId]) ∧
      Lineage (NamesParent p) parentId context ∧
      ∃ parent ∈ journal.accepted, parent.tenant = request.tenant ∧
        ∃ d', Founded p journal.accepted parent d' parentId ∧ isOrdinary d' = true := by
  obtain ⟨parent, d', context, found, isParent, ordinaryParent, -, parentContext, extended⟩ :=
    parent_of_accepts accepts ordinary named
  have descriptor := Message.writeDescriptor_eq_some.mpr accepts.isWrite
  have retained : retains journal.stores request.tenant parentId = true := by
    simpa [namesRetainedParent, descriptor, named] using names
  obtain ⟨-, carried⟩ := fetchInitialWriteMessage_initial law history dated retained found
  obtain ⟨row, stored, ofTenant, rfl, -⟩ := mem_first found
  obtain ⟨admission, listed, sameTenant, sameContext, founded⟩ :=
    history.stored_as stored isParent carried
  have parentPlaced :=
    placed admission listed d' parentId founded.isWrite founded.record ordinaryParent
  obtain ⟨context', isContext, lineage⟩ := parentPlaced.context
  cases isContext.symm.trans (sameContext.trans parentContext)
  exact ⟨context, extended, lineage, admission, listed, sameTenant.trans ofTenant, d', founded,
    ordinaryParent⟩

omit law history dated placed accepts ordinary in
theorem lineage_of_update (history : History p journal) (placed : AllPlaced p journal.accepted)
    (accepts : Accepts p journal.stores.messages request d auth recordId)
    (ordinary : isOrdinary d = true)
    (keeps : keepsContext p journal.stores (.request request) = true)
    (update : p.isInitialWrite request.message auth.author = false)
    (orphan : d.parentId = none) :
    ∃ context, request.message.contextId = some context ∧
      Lineage (NamesParent p) recordId context := by
  obtain ⟨initialWrite, d₁, found, isInitial, unchanged⟩ := accepts.initialWrite update
  have descriptor := Message.writeDescriptor_eq_some.mpr accepts.isWrite
  have isUpdate := (isUpdate_iff accepts.signed).mpr update
  have repeated : initialWrite.contextId = request.message.contextId := by
    simpa [keepsContext, descriptor, accepts.record, isUpdate, orphan, found] using keeps
  obtain ⟨admission, listed, -, ⟨encodedData, rfl⟩, founded⟩ :=
    history.retained isInitial (List.mem_of_find?_eq_some found)
  have ordinaryInitial : isOrdinary d₁ = true := by
    simpa [isOrdinary, (changedProperty_eq_none unchanged).protocolPath] using ordinary
  have initialPlaced :=
    placed admission listed d₁ recordId founded.isWrite founded.record ordinaryInitial
  obtain ⟨context, isContext, lineage⟩ := initialPlaced.context
  exact ⟨context, repeated ▸ isContext, lineage⟩

theorem placed_of_accepts (ok : conforms p journal.stores (.request request) = true)
    (listed : ⟨request.tenant, request.message, auth.author⟩ ∈ more) :
    Placed p (journal.accepted ++ more) ⟨request.tenant, request.message, auth.author⟩ d
      recordId := by
  simp only [conforms, Bool.and_eq_true] at ok
  obtain ⟨⟨-, keeps⟩, names⟩ := ok
  have names_parent := (founded_of_accepts law history accepts listed).namesParent
  cases named : d.parentId with
  | some parentId =>
    obtain ⟨context, extended, lineage, parent, listed, ofTenant, d', founded, ordinary'⟩ :=
      placed_parent law history dated placed accepts ordinary names named
    rw [named] at names_parent
    refine ⟨⟨_, extended, .child names_parent lineage⟩, fun other same => ?_⟩
    cases named.symm.trans same
    exact ⟨parent, List.mem_append_left _ listed, ofTenant, d', founded.append, ordinary'⟩
  | none =>
    refine ⟨?_, fun other same => by cases named.symm.trans same⟩
    cases initial : p.isInitialWrite request.message auth.author with
    | true =>
      rw [named] at names_parent
      exact ⟨_, (initial_founds accepts initial).2.2 named, .root names_parent⟩
    | false => exact lineage_of_update history placed accepts ordinary keeps initial named

end

abbrev ConformingRun (p : Primitives) : Journal → Prop :=
  Reaches (Journal.record p) (fun journal event => conforms p journal.stores event = true) {}

structure Conformed (p : Primitives) (journal : Journal) : Prop where
  history : History p journal
  dated : DatedApart p journal.accepted
  placed : AllPlaced p journal.accepted

theorem Conformed.step (law : p.CollisionFree) (conformed : Conformed p journal) {event : Event}
    (ok : conforms p journal.stores event = true) : Conformed p (journal.record p event) := by
  have datedEvent : datedApart p event = true := by
    simp only [conforms, Bool.and_eq_true] at ok
    exact ok.1.1
  refine ⟨conformed.history.step law event, conformed.dated.step datedEvent, ?_⟩
  intro admission listed d recordId isWrite record ordinary
  rcases List.mem_append.mp listed with old | new
  · exact (conformed.placed admission old d recordId isWrite record ordinary).append
  · cases event with
    | controlPurge => cases new
    | request request =>
      obtain ⟨d', auth, id, accepts, rfl⟩ := mem_admissions new
      have sameDescriptor := accepts.isWrite.symm.trans isWrite
      cases sameDescriptor
      have sameRecord := accepts.record.symm.trans record
      cases sameRecord
      exact placed_of_accepts law conformed.history conformed.dated conformed.placed accepts
        ordinary ok new

theorem conformed_of_run (law : p.CollisionFree) (run : ConformingRun p journal) :
    Conformed p journal := by
  refine run.invariant ⟨⟨?_, ?_⟩, ?_, ?_⟩ fun journal event conformed ok => conformed.step law ok
  · intro row stored
    cases stored
  · intro admission listed
    cases listed
  · intro admission listed
    cases listed
  · intro admission listed
    cases listed

theorem Conformed.founded (conformed : Conformed p journal) (listed : write ∈ journal.accepted)
    (isWrite : write.message.descriptor = .recordsWrite d)
    (record : write.message.recordId = some recordId) :
    Founded p journal.accepted write d recordId := by
  obtain ⟨d', founded⟩ := conformed.history.founded_as listed record
  cases founded.isWrite.symm.trans isWrite
  exact founded

theorem Founded.sameOrdinary (law : p.CollisionFree) {accepted : List Admission} {other : Admission}
    (founded : Founded p accepted write d recordId)
    (founded' : Founded p accepted other d' recordId) : isOrdinary d = isOrdinary d' := by
  obtain ⟨initial, d₀, founds, unchanged⟩ := founded.founded
  obtain ⟨initial', d₁, founds', unchanged'⟩ := founded'.founded
  cases (entryId_inj law (founds.entry.trans founds'.entry.symm)).2
  simp only [isOrdinary, ← (changedProperty_eq_none unchanged).protocolPath,
    ← (changedProperty_eq_none unchanged').protocolPath]

theorem Conformed.lineage (law : p.CollisionFree) (conformed : Conformed p journal)
    {other : Admission} (founded : Founded p journal.accepted write d recordId)
    (ordinary : isOrdinary d = true) (listed : other ∈ journal.accepted)
    (founded' : Founded p journal.accepted other d' recordId) :
    ∃ context, other.message.contextId = some context ∧
      Lineage (NamesParent p) recordId context := by
  have ordinary' : isOrdinary d' = true := founded.sameOrdinary law founded' ▸ ordinary
  exact (conformed.placed other listed d' recordId founded'.isWrite founded'.record
    ordinary').context

theorem Conformed.same_context (law : p.CollisionFree) (conformed : Conformed p journal)
    {other : Admission} (listed : write ∈ journal.accepted)
    (founded : Founded p journal.accepted write d recordId) (ordinary : isOrdinary d = true)
    (listed' : other ∈ journal.accepted) (founded' : Founded p journal.accepted other d' recordId) :
    other.message.contextId = write.message.contextId := by
  obtain ⟨context, isContext, lineage⟩ :=
    conformed.lineage law founded ordinary listed founded
  obtain ⟨context', isContext', lineage'⟩ :=
    conformed.lineage law founded ordinary listed' founded'
  rw [isContext, isContext', lineage.unique (singleParent law) lineage']

end

/-- In every conforming run, an accepted write at an ordinary path is its own context or extends
that of the accepted initial write of its parent, and the writes of a record share their context. -/
theorem context_of_write_in_conforming_run {p : Primitives} (law : p.CollisionFree)
    {journal : Journal} (run : ConformingRun p journal) {write : Admission}
    (listed : write ∈ journal.accepted) {d : WriteDescriptor} {recordId : String}
    (isWrite : write.message.descriptor = .recordsWrite d)
    (record : write.message.recordId = some recordId) (ordinary : isOrdinary d = true) :
    (d.parentId = none → write.message.contextId = some [recordId]) ∧
    (∀ parentId, d.parentId = some parentId →
      (∃ initial d₀, Founds p journal.accepted write.tenant parentId initial d₀) ∧
      ∀ initial d₀, Founds p journal.accepted write.tenant parentId initial d₀ →
        ∃ context, initial.message.contextId = some context ∧
          write.message.contextId = some (context ++ [recordId])) ∧
    ∀ other ∈ journal.accepted, other.tenant = write.tenant →
      other.message.recordId = some recordId →
      other.message.contextId = write.message.contextId := by
  have conformed := conformed_of_run law run
  have founded := conformed.founded listed isWrite record
  have placed := conformed.placed write listed d recordId isWrite record ordinary
  obtain ⟨context, isContext, lineage⟩ := placed.context
  refine ⟨fun orphan => ?_, fun parentId named => ?_, fun other listed' _ record' => ?_⟩
  · have isOrphan := founded.namesParent
    rw [orphan] at isOrphan
    rw [isContext, lineage.eq_of_orphan (singleParent law) isOrphan]
  · obtain ⟨parent, listed', ofTenant, d', foundedParent, ordinary'⟩ := placed.parent parentId named
    obtain ⟨founder, dFounder, founds, -⟩ := foundedParent.founded
    refine ⟨⟨founder, dFounder, ofTenant ▸ founds⟩, fun initial d₀ founds => ?_⟩
    have foundedInitial := conformed.founded founds.listed founds.isWrite founds.record
    obtain ⟨outer, isOuter, outerLineage⟩ :=
      conformed.lineage law foundedParent ordinary' founds.listed foundedInitial
    have under := founded.namesParent
    rw [named] at under
    obtain ⟨outer', outerLineage', rfl⟩ := lineage.outer_of_child (singleParent law) under
    cases outerLineage.unique (singleParent law) outerLineage'
    exact ⟨outer, isOuter, isContext⟩
  · obtain ⟨d', founded'⟩ := conformed.history.founded_as listed' record'
    exact conformed.same_context law listed founded ordinary listed' founded'

namespace Threads

theorem context_of_participant :
    p.CollisionFree ∧
    AllowedAlong (Journal.record p) (fun journal event => conforms p journal.stores event = true) {}
      edited ∧
    (⟨"did:ex:alice", role, "did:ex:alice"⟩ : Admission) ∈ (journal edited).accepted ∧
    (∃ initial d₀, Founds p (journal edited).accepted "did:ex:alice" "T2" initial d₀) ∧
    ∀ initial d₀, Founds p (journal edited).accepted "did:ex:alice" "T2" initial d₀ →
      ∃ context, initial.message.contextId = some context ∧
        role.contextId = some (context ++ ["R1"]) := by
  refine ⟨collisionFree, ?along, ?listed, (context_of_write_in_conforming_run collisionFree
    (AllowedAlong.reaches ?along) ?listed rfl rfl rfl).2.1 "T2" rfl⟩
  · exact ⟨rfl, rfl, rfl, rfl, rfl, trivial⟩
  · exact .tail _ (.tail _ (.head _))

theorem update_moves_first_thread :
    p.CollisionFree ∧
    (processMessage p (stores started) (request moved "one")).1 = accepted ∧
    (journal (started ++ [.request (request moved "one")])).accepted =
      (journal started).accepted ++ [⟨"did:ex:alice", moved, "did:ex:alice"⟩] ∧
    isOrdinary (thread "one" 4) = true ∧ (thread "one" 4).parentId = none ∧
    moved.descriptor = .recordsWrite (thread "one" 4) ∧
    moved.recordId = some "T1" ∧ moved.contextId = some ["T2"] :=
  ⟨collisionFree, rfl, rfl, rfl, rfl, rfl, rfl, rfl⟩

end Threads

end Enbox.Proof.Run
