import Enbox.Proof.Run.Role

/-! # Creators and actor rules -/

namespace Enbox.Proof.Run

open Lib Authority List

variable {recordId : String} {author : Did} {row : Row} {d : WriteDescriptor} {chain : List Message}
  {of : Reference} {target : Message}

def InChain (p : Primitives) (target recordId : String) : Prop :=
  Relation.ReflTransGen (fun child parent => NamesParent p child (some parent)) target recordId

def SelectsCreator (p : Primitives) (journal : Journal) (tenant author : Did)
    (definition : Definition) (target : String) (who : Who) (of : Option Reference) : Prop :=
  ∃ recordId initial d₀, Founds p journal.accepted tenant recordId initial d₀ ∧
    retains journal.stores tenant recordId = true ∧ InChain p target recordId ∧
    (match of with
      | some of => referenceMatches definition d₀ of = true
      | none => recordId = target) ∧
    (who = .author ∧ initial.author = author ∨ who = .recipient ∧ d₀.recipient = some author)

def writtenByCreator (p : Primitives) (stores : Stores) : Event → Bool
  | .request request =>
      match request.message.writeDescriptor, requestAuthor p request with
      | some _, some author =>
          messageAuthor p request.message = some author && (p.isInitialWrite request.message author ||
            authoredInitialWrite p stores.messages request.tenant request.message.recordId author)
      | _, _ => true
  | .controlPurge _ _ _ => true

inductive AsksAbout (p : Primitives) (stores : Stores) (tenant : Did) (auth : AuthorizationContext) :
    Message → RecordsAuthorizationKind → Option Timestamp → Prop
  | write {request : Request} {d : WriteDescriptor} {recordId : String}
      (addressed : request.tenant = tenant)
      (accepts : Accepts p stores.messages request d auth recordId) :
      AsksAbout p stores tenant auth request.message .write none
  | read {row : Row} {target : Message} {timestamp : Timestamp} (stored : row ∈ stores.messages)
      (addressed : row.tenant = tenant)
      (found : readTarget stores.messages tenant row.message = .ok target) :
      AsksAbout p stores tenant auth target .read (some timestamp)
  | delete {target : Message} {recordId : String} {prune : Bool} {timestamp : Timestamp}
      (found : deletedWrite p (fetchRecordMessages stores.messages tenant recordId) = some target) :
      AsksAbout p stores tenant auth target (.delete prune) (some timestamp)

structure Governs (p : Primitives) (store : MessageStore) (tenant author : Did) (target : Message)
    (requestTimestamp : Option Timestamp) (d : WriteDescriptor) (definition : Definition)
    (ruleSet : RuleSet) : Prop where
  isWrite : target.writeDescriptor = some d
  fetched : ∃ timestamp,
    evaluationTimestamp p store tenant target author requestTimestamp = .ok timestamp ∧
    fetchProtocolDefinition store tenant d.protocol (some timestamp) = .ok definition
  atPath : definition.ruleAt d.protocolPath = some ruleSet

def isAboutOwn (path : Path) (of : Option Reference) : Bool :=
  of.all (·.path = path)

/-! ## Writes by creators -/

def ByCreators (p : Primitives) (accepted : List Admission) : Prop :=
  ∀ admission ∈ accepted, messageAuthor p admission.message = some admission.author ∧
    ∀ recordId, admission.message.recordId = some recordId →
      ∃ d, p.entryId admission.author d = recordId

section

variable {p : Primitives} {journal : Journal} {tenant : Did}

theorem entry_of_authored (history : History p journal) (creators : ByCreators p journal.accepted)
    (authored : authoredInitialWrite p journal.stores.messages tenant (some recordId) author = true) :
    ∃ d, p.entryId author d = recordId := by
  simp only [authoredInitialWrite, Option.bind_some, decide_eq_true_eq, Option.bind_eq_some_iff]
    at authored
  obtain ⟨message, found, isAuthor⟩ := authored
  obtain ⟨row, stored, -, rfl, selected⟩ := mem_first found
  have origin := history.origin row stored
  obtain ⟨admission, d, id, indexedAs, latest, origin, entry⟩ := origin.of_entryId
    (origin.lookup_selected selected (.inr rfl) (mem_singleton.mpr rfl))
  obtain ⟨encodedData, message⟩ := origin.message
  obtain ⟨carries, created⟩ := creators admission origin.listed
  have same : admission.author = author := by
    rw [message] at isAuthor
    exact Option.some.inj (carries.symm.trans isAuthor)
  subst same
  rcases origin.author with rfl | initial
  · exact ⟨d, entry⟩
  · obtain ⟨e, isWrite, record⟩ := isInitialWrite_iff.mp initial
    cases isWrite.symm.trans origin.indexed.descriptor
    rw [entry, message] at record
    exact created recordId record

theorem ByCreators.step (history : History p journal)
    (creators : ByCreators p journal.accepted) {event : Event}
    (ok : writtenByCreator p journal.stores event = true) :
    ByCreators p (journal.record p event).accepted := by
  intro admission listed
  rcases mem_append.mp listed with old | new
  · exact creators admission old
  · cases event with
    | controlPurge => cases new
    | request request =>
      obtain ⟨d, auth, recordId, accepts, rfl⟩ := mem_admissions new
      have isAuthor : requestAuthor p request = some auth.author := by
        simp [requestAuthor, accepts.signed]
      simp only [writtenByCreator, Message.writeDescriptor_eq_some.mpr accepts.isWrite, isAuthor,
        Bool.and_eq_true, Bool.or_eq_true, decide_eq_true_eq, accepts.record] at ok
      refine ⟨ok.1, fun id record => ?_⟩
      cases accepts.record.symm.trans record
      rcases ok.2 with initial | authored
      · exact ⟨d, (initial_founds accepts initial).1⟩
      · exact entry_of_authored history creators authored

theorem byCreators_of_run (law : p.CollisionFree) (run : Reaches (Journal.record p)
      (fun journal event => writtenByCreator p journal.stores event = true) {} journal) :
    History p journal ∧ ByCreators p journal.accepted := by
  refine run.invariant (P := fun journal => History p journal ∧ ByCreators p journal.accepted)
    ⟨history_of_reaches law (show Reaches _ (fun _ _ => True) _ _ from .refl),
      fun _ listed => by cases listed⟩ ?_
  rintro journal event ⟨history, creators⟩ ok
  exact ⟨history.step law event, creators.step history ok⟩

theorem creator_of_stored (law : p.CollisionFree) (history : History p journal)
    (creators : ByCreators p journal.accepted) (stored : row ∈ journal.stores.messages)
    (isWrite : row.message.descriptor = .recordsWrite d) :
    ∃ recordId initial d₀, row.message.recordId = some recordId ∧
      row.indexes.lookup .recordId = some (.string recordId) ∧
      Founds p journal.accepted row.tenant recordId initial d₀ ∧ changedProperty d₀ d = none ∧
      messageAuthor p row.message = some initial.author := by
  obtain ⟨admission, listed, ofTenant, ⟨encodedData, message⟩, recordId, founded, indexed⟩ :=
    history.stored stored isWrite
  obtain ⟨initial, d₀, founds, unchanged⟩ := founded.founded
  obtain ⟨carries, created⟩ := creators admission listed
  obtain ⟨e, entry⟩ := created recordId founded.record
  refine ⟨recordId, initial, d₀, message ▸ founded.record, indexed, ofTenant ▸ founds, unchanged, ?_⟩
  rw [message, (entryId_inj law (founds.entry.trans entry.symm)).1]
  exact carries

/-! ## The record chain -/

theorem mem_recordChain (history : History p journal) (fuel : Nat) {record : Message} {id : String}
    (isWrite : record.descriptor = .recordsWrite d) (parent : NamesParent p id d.parentId)
    (chained : recordChain journal.stores.messages tenant fuel record = .ok chain) :
    chain.getLast? = some record ∧ ∀ m ∈ chain, m = record ∨ ∃ row ∈ journal.stores.messages,
      row.tenant = tenant ∧ row.message = m ∧ ∃ ancestor, m.recordId = some ancestor ∧
        InChain p id ancestor := by
  induction fuel generalizing record d id chain with
  | zero => cases chained
  | succ fuel ih =>
    simp only [recordChain, Message.writeDescriptorOr_eq_ok.mpr isWrite, ok_bind] at chained
    split at chained
    · cases chained
      exact ⟨rfl, fun m listed => .inl (mem_singleton.mp listed)⟩
    · rename_i parentId named
      simp only [ok_iff, fetchNewestWrite] at chained
      obtain ⟨newest, found, ancestors, above, rfl⟩ := chained
      obtain ⟨row, stored, ofTenant, rfl, selected⟩ := mem_first found
      obtain ⟨_, e, _, _, _, origin⟩ := write_of_selected history stored selected
        (by simp [newestWriteFilters]) (by simp [newestWriteFilters])
      obtain ⟨admission, listed, -, message, recordId, founded, indexed⟩ :=
        history.stored stored origin.indexed.descriptor
      have same : recordId = parentId :=
        text_of_matchesSet selected (by simp [newestWriteFilters]) indexed
      subst same
      have under : InChain p id recordId := .single (named ▸ parent)
      refine ⟨List.getLast?_concat, fun m listed => ?_⟩
      rcases mem_append.mp listed with higher | own
      · refine .inr ?_
        rcases (ih origin.indexed.descriptor founded.namesParent above).2 m higher with rfl |
            ⟨other, isOther, ofOther, same, ancestor, isRecord, higher⟩
        · obtain ⟨encodedData, same⟩ := message
          exact ⟨row, stored, ofTenant, rfl, recordId, same ▸ founded.record, under⟩
        · exact ⟨other, isOther, ofOther, same, ancestor, isRecord, under.trans higher⟩
      · exact .inl (mem_singleton.mp own)

theorem path_of_referenceMatches {definition : Definition}
    (named : referenceMatches definition d of = true) : of.path = d.protocolPath := by
  cases of with
  | plain path => exact (decide_eq_true_eq.mp named).symm
  | cross usesAlias path =>
    obtain ⟨protocol, -, same⟩ := Option.any_eq_true _ _ |>.mp named
    simp only [Bool.and_eq_true, decide_eq_true_eq] at same
    exact same.2.symm

theorem referenceMatches_congr {definition : Definition} {d₀ : WriteDescriptor}
    (unchanged : changedProperty d₀ d = none) :
    referenceMatches definition d₀ of = referenceMatches definition d of := by
  have same := changedProperty_eq_none unchanged
  cases of <;> simp [referenceMatches, same.protocol, same.protocolPath]

theorem recipient_of_unchanged {d₀ : WriteDescriptor} (unchanged : changedProperty d₀ d = none) :
    d₀.recipient = d.recipient := by
  simp only [changedProperty, ne_eq] at unchanged
  grind

def Credits (p : Primitives) (m : Message) (d : WriteDescriptor) (author : Did) (who : Who) : Prop :=
  who = .author ∧ messageAuthor p m = some author ∨ who = .recipient ∧ d.recipient = some author

theorem actionAllows_cases {actions : List Can} {definition : Definition} {action : Action}
    (allowed : actionAllows p author none actions chain definition action = true) :
    ∃ who of can, action = .who who of can ∧ can.any (· ∈ actions) = true ∧
      (who = .anyone ∨ ∃ m d, m.descriptor = .recordsWrite d ∧ Credits p m d author who ∧
        match of with
        | some of => m ∈ chain ∧ referenceMatches definition d of = true
        | none => chain.getLast? = some m) := by
  cases action with
  | role role can => simp [actionAllows] at allowed
  | who who of can =>
    unfold actionAllows at allowed
    rw [Bool.and_eq_true] at allowed
    refine ⟨who, of, can, rfl, allowed.1, ?_⟩
    have selected := allowed.2
    obtain - | of := of
    · cases who with
      | anyone => exact .inl rfl
      | author => simp [checkActor] at selected
      | recipient =>
        simp only [Option.isNone_none, Bool.true_and, decide_eq_true_eq, Option.bind_eq_some_iff]
          at selected
        obtain ⟨d, ⟨m, last, isWrite⟩, recipient⟩ := selected
        exact .inr ⟨m, d, Message.writeDescriptor_eq_some.mp isWrite, .inr ⟨rfl, recipient⟩, last⟩
    · cases who with
      | anyone => exact .inl rfl
      | _ =>
        simp only [Option.isNone_none, Bool.true_and, checkActor, Option.any_some, any_eq_true,
          Option.any_eq_true, Bool.and_eq_true, decide_eq_true_eq] at selected
        obtain ⟨m, listed, d, isWrite, named, credited⟩ := selected
        refine .inr ⟨m, d, Message.writeDescriptor_eq_some.mp isWrite, ?_, listed, named⟩
        simp [Credits, credited]

/-! ## The target -/

theorem retains_of_stored (stored : row ∈ journal.stores.messages)
    (indexed : row.indexes.lookup .recordId = some (.string recordId)) :
    retains journal.stores row.tenant recordId = true := by
  simp only [retains, any_eq_true, Bool.and_eq_true, decide_eq_true_eq]
  exact ⟨row, stored, rfl, indexed⟩

theorem readTarget_stored (stored : row ∈ journal.stores.messages) (addressed : row.tenant = tenant)
    (found : readTarget journal.stores.messages tenant row.message = .ok target) :
    ∃ row ∈ journal.stores.messages, row.tenant = tenant ∧ row.message = target := by
  unfold readTarget at found
  split at found
  · simp only [deletedRecordWrite, ok_iff] at found
    obtain ⟨initial, isInitial, rfl⟩ := found
    cases newest : fetchNewestWrite journal.stores.messages tenant
      ((messageRecordId row.message).getD "") with
    | ok write =>
      simp only [fetchNewestWrite, okOr_eq_ok] at newest
      obtain ⟨other, isStored, ofTenant, same, -⟩ := mem_first newest
      exact ⟨other, isStored, ofTenant, same⟩
    | error failure =>
      obtain ⟨other, isStored, ofTenant, same, -⟩ := mem_first isInitial
      exact ⟨other, isStored, ofTenant, same⟩
  · cases found
    exact ⟨row, stored, addressed, rfl⟩

theorem target_cases (law : p.CollisionFree) (history : History p journal)
    {auth : AuthorizationContext} {kind : RecordsAuthorizationKind} {timestamp : Option Timestamp}
    (asks : AsksAbout p journal.stores tenant auth target kind timestamp)
    (isWrite : target.descriptor = .recordsWrite d) (record : target.recordId = some recordId) :
    NamesParent p recordId d.parentId ∧
      ((∃ row ∈ journal.stores.messages, row.tenant = tenant ∧ row.message = target) ∨
        kind = .write ∧ (p.isInitialWrite target auth.author = true ∨
          retains journal.stores tenant recordId = true ∧ ∃ initial d₀,
            Founds p journal.accepted tenant recordId initial d₀ ∧ changedProperty d₀ d = none)) := by
  have ofStored {row : Row} (stored : row ∈ journal.stores.messages) (ofTenant : row.tenant = tenant)
      (same : row.message = target) : NamesParent p recordId d.parentId ∧
        ∃ row ∈ journal.stores.messages, row.tenant = tenant ∧ row.message = target := by
    obtain ⟨admission, -, -, -, founded⟩ :=
      history.stored_as stored (same ▸ isWrite) (same ▸ record)
    exact ⟨founded.namesParent, row, stored, ofTenant, same⟩
  cases asks with
  | read stored addressed found =>
    obtain ⟨row, isStored, ofTenant, same⟩ := readTarget_stored stored addressed found
    exact (ofStored isStored ofTenant same).imp_right .inl
  | delete found =>
    obtain ⟨row, isStored, ofTenant, same, -⟩ := mem_query (mem_deletedWrite found)
    exact (ofStored isStored ofTenant same).imp_right .inl
  | @write request e id addressed accepts =>
    subst addressed
    cases accepts.isWrite.symm.trans isWrite
    cases accepts.record.symm.trans record
    cases initial : p.isInitialWrite request.message auth.author with
    | true => exact ⟨⟨_, _, (initial_founds accepts initial).1, rfl⟩, .inr ⟨rfl, .inl rfl⟩⟩
    | false =>
      obtain ⟨founder, d₀, founds, unchanged⟩ := update_founded law history accepts initial
      obtain ⟨retained, _, found, isInitial, -⟩ := accepts.initialWrite initial
      obtain ⟨row, stored, ofTenant, rfl, selected⟩ := mem_query (mem_of_find?_eq_some found)
      obtain ⟨_, -, -, -, id, -, indexed⟩ := history.stored stored isInitial
      have same : id = recordId := text_of_matchesSet selected (by simp) indexed
      subst same
      exact ⟨⟨_, _, founds.entry, (changedProperty_eq_none unchanged).parentId⟩, .inr ⟨rfl, .inr
        ⟨ofTenant ▸ retains_of_stored stored indexed, founder, d₀, founds, unchanged⟩⟩⟩

end

/-- In every run of writes by creators, an author who is let in by an action rule without a role is
the creator or the recipient of a stored record in the chain of the target, unless a rule selects by
the record being written. -/
theorem creator_rule_of_ladder {p : Primitives} (law : p.CollisionFree) {journal : Journal}
    (run : Reaches (Journal.record p)
      (fun journal event => writtenByCreator p journal.stores event = true) {} journal)
    {tenant : Did} {auth : AuthorizationContext} {target : Message} {kind : RecordsAuthorizationKind}
    {timestamp : Option Timestamp} {d : WriteDescriptor} {definition : Definition}
    {ruleSet : RuleSet} {recordId : String} {actions : List Can}
    (asks : AsksAbout p journal.stores tenant auth target kind timestamp)
    (record : target.recordId = some recordId)
    (governs : Governs p journal.stores.messages tenant auth.author target timestamp d definition
      ruleSet)
    (sought : actions = actionsForMessageKind p journal.stores.messages tenant target auth.author kind)
    (permitted : authorizeAgainstProtocol p journal.stores.messages tenant target auth kind timestamp =
      .ok ())
    (roleless : auth.protocolRole = none)
    (notAnyone : ∀ of can, .who .anyone of can ∈ ruleSet.actions → can.any (· ∈ actions) = false)
    (notOwn : kind = .write → ∀ who of can, .who who of can ∈ ruleSet.actions →
      can.any (· ∈ actions) = true → isAboutOwn d.protocolPath of = true →
      who = .recipient ∧ p.isInitialWrite target auth.author = false) :
    ∃ who of can, .who who of can ∈ ruleSet.actions ∧ can.any (· ∈ actions) = true ∧
      SelectsCreator p journal tenant auth.author definition recordId who of := by
  subst sought
  obtain ⟨history, creators⟩ := byCreators_of_run law run
  obtain ⟨e, time, definition', ruleSet', chain, isDescriptor, timed, fetched, atPath, -, chained,
    action, listed, allowed⟩ := (authorizeAgainstProtocol_ok_iff.mp permitted).rule
  obtain ⟨time', timed', fetched'⟩ := governs.fetched
  cases governs.isWrite.symm.trans isDescriptor
  cases timed.symm.trans timed'
  cases fetched.symm.trans fetched'
  cases governs.atPath.symm.trans atPath
  have isWrite := Message.writeDescriptor_eq_some.mp isDescriptor
  obtain ⟨parent, place⟩ := target_cases law history asks isWrite record
  obtain ⟨last, inChain⟩ := mem_recordChain history _ isWrite parent chained
  rw [roleless] at allowed
  obtain ⟨who, of, can, rfl, isSought, rfl | ⟨m, e, isMember, credits, selected⟩⟩ :=
    actionAllows_cases allowed
  · cases isSought.symm.trans (notAnyone of can listed)
  refine ⟨who, of, can, listed, isSought, ?_⟩
  -- A stored write of the chain is its creator's.
  have ofStored {row : Row} (stored : row ∈ journal.stores.messages) (ofTenant : row.tenant = tenant)
      (same : row.message = m) {id : String} (isRecord : m.recordId = some id)
      (above : InChain p recordId id) (own : of = none → id = recordId) :
      SelectsCreator p journal tenant auth.author definition recordId who of := by
    subst same ofTenant
    obtain ⟨id', initial, d₀, isRecord', indexed, founds, unchanged, isAuthor⟩ :=
      creator_of_stored law history creators stored isMember
    cases isRecord.symm.trans isRecord'
    refine ⟨id, initial, d₀, founds, retains_of_stored stored indexed, above, ?_, ?_⟩
    · cases of with
      | none => exact own rfl
      | some of => exact (referenceMatches_congr unchanged).trans selected.2
    · rw [Credits, isAuthor, Option.some.injEq] at credits
      rwa [recipient_of_unchanged unchanged]
  have ofTarget (same : m = target) :
      SelectsCreator p journal tenant auth.author definition recordId who of := by
    subst same
    cases isMember.symm.trans isWrite
    rcases place with ⟨row, stored, ofTenant, same⟩ | ⟨isWriting, founded⟩
    · exact ofStored stored ofTenant same record .refl fun _ => rfl
    · have own : isAboutOwn d.protocolPath of = true := by
        cases of with
        | none => rfl
        | some of => simpa [isAboutOwn] using path_of_referenceMatches selected.2
      obtain ⟨rfl, update⟩ := notOwn isWriting who of can listed isSought own
      obtain isInitial | ⟨retained, initial, d₀, founds, unchanged⟩ := founded
      · cases update.symm.trans isInitial
      · obtain ⟨isAuthor, -⟩ | ⟨-, recipient⟩ := credits
        · cases isAuthor
        refine ⟨recordId, initial, d₀, founds, retained, .refl, ?_, .inr ⟨rfl, ?_⟩⟩
        · cases of with
          | none => rfl
          | some of => exact (referenceMatches_congr unchanged).trans selected.2
        · rwa [recipient_of_unchanged unchanged]
  cases of with
  | none => exact ofTarget (Option.some.inj (selected.symm.trans last))
  | some of =>
    rcases inChain m selected.1 with same | ⟨row, stored, ofTenant, same, id, isRecord, above⟩
    · exact ofTarget same
    · exact ofStored stored ofTenant same isRecord above fun none => by cases none

namespace Comments

open Concrete
open Threads (write payload request bobContext)

def definition : Definition where
  protocol := "https://notes"
  published := true
  types := [("note", {}), ("comment", {})]
  structure_ := [("note", { rules := [("comment",
    { actions := [.who .recipient (some (.plain ["note"])) [.read],
        .who .author (some (.plain ["note", "comment"])) [.create]] })] })]

def configure : ConfigureDescriptor := { messageTimestamp := 1, definition }

def configureMessage : Message := signedMessage (.protocolsConfigure configure) "configure"

def note : WriteDescriptor :=
  { Threads.thread "note" 2 with
    protocol := "https://notes", protocolPath := ["note"], recipient := some "did:ex:bob" }

def comment (text : String) : WriteDescriptor :=
  { Threads.thread text 2 with
    protocol := "https://notes", protocolPath := ["note", "comment"], parentId := some "N" }

def noteMessage : Message := write note "note" "alice" "N" ["N"]
def reply : Message := write (comment "reply") "reply" "alice" "R" ["N", "R"]
def remark : Message := write (comment "remark") "remark" "bob" "C" ["N", "C"]

def script : Script :=
  parties.adding configureMessage "d0" "m0"
    |>.posted noteMessage "d1" "m1" "N" |>.posted reply "d2" "m2" "R"
    |>.posted remark "d3" "m3" "C" "did:ex:bob"

noncomputable abbrev q : Primitives := script.primitives

theorem collisionFree : q.CollisionFree := script.collisionFree (by decide) (by decide)

def events : List Event :=
  [.request (request configureMessage ""), .request (request noteMessage "note"),
    .request (request reply "reply")]

noncomputable abbrev journal : Journal := events.foldl (Journal.record q) {}

theorem run : Reaches (Journal.record q)
    (fun journal event => writtenByCreator q journal.stores event = true) {} journal :=
  AllowedAlong.reaches ⟨rfl, rfl, rfl, trivial⟩

def bob : AuthorizationContext := bobContext (payload "d3" "C" ["N", "C"])

def rules : RuleSet :=
  { actions := [.who .recipient (some (.plain ["note"])) [.read],
      .who .author (some (.plain ["note", "comment"])) [.create]] }

end Comments

open Comments in
theorem comment_read_by_recipient :
    ∃ target, target.recordId = some "R" ∧
      AsksAbout q journal.stores "did:ex:alice" bob target .read (some 3) ∧
      ∃ who of can, .who who of can ∈ rules.actions ∧ can.any (· ∈ [Can.read]) = true ∧
        SelectsCreator q journal "did:ex:alice" "did:ex:bob" Comments.definition "R" who of := by
  obtain ⟨row, stored, ofTenant, isTarget, record, governs, permitted⟩ :
      ∃ row ∈ journal.stores.messages, row.tenant = "did:ex:alice" ∧
        readTarget journal.stores.messages "did:ex:alice" row.message = .ok row.message ∧
        row.message.recordId = some "R" ∧
        Governs q journal.stores.messages "did:ex:alice" bob.author row.message (some 3)
          (comment "reply") Comments.definition rules ∧
        authorizeAgainstProtocol q journal.stores.messages "did:ex:alice" row.message bob .read
          (some 3) = .ok () :=
    exists_mem_of_find? (·.cid == "m2") ⟨_, rfl, rfl, rfl, rfl, ⟨rfl, ⟨_, rfl, rfl⟩, rfl⟩, rfl⟩
  have asks : AsksAbout q journal.stores "did:ex:alice" bob row.message .read (some 3) :=
    .read stored ofTenant isTarget
  refine ⟨row.message, record, asks, creator_rule_of_ladder Comments.collisionFree Comments.run asks
    record governs rfl permitted rfl ?_ fun reads => by cases reads⟩
  intro of can listed
  simp [rules] at listed

open Comments in
theorem comment_created_by_its_author :
    q.CollisionFree ∧ Reaches (Journal.record q)
      (fun journal event => writtenByCreator q journal.stores event = true) {} journal ∧
    AsksAbout q journal.stores "did:ex:alice" bob remark .write none ∧
    Governs q journal.stores.messages "did:ex:alice" bob.author remark none (comment "remark")
      Comments.definition rules ∧
    actionsForMessageKind q journal.stores.messages "did:ex:alice" remark bob.author .write =
      [.create] ∧
    authorizeAgainstProtocol q journal.stores.messages "did:ex:alice" remark bob .write none =
      .ok () ∧
    (processMessage q journal.stores (Threads.request remark "remark")).1.isSuccess = true ∧
    ¬ ∃ who of can, .who who of can ∈ rules.actions ∧ can.any (· ∈ [Can.create]) = true ∧
      SelectsCreator q journal "did:ex:alice" "did:ex:bob" Comments.definition "C" who of := by
  have asks : AsksAbout q journal.stores "did:ex:alice" bob remark .write none :=
    .write (show (Threads.request remark "remark").tenant = _ from rfl)
      ⟨⟨rfl, rfl, rfl, rfl, rfl, rfl, rfl, rfl⟩, rfl, rfl⟩
  refine ⟨Comments.collisionFree, Comments.run, asks,
    ⟨rfl, ⟨_, rfl, rfl⟩, rfl⟩, rfl, rfl, rfl, ?_⟩
  rintro ⟨who, of, can, listed, sought, recordId, initial, d₀, founds, -, -, -, selects⟩
  have authors : journal.accepted.all (·.author = "did:ex:alice") = true := rfl
  have isAlice := all_eq_true.mp authors initial founds.listed
  simp only [rules, mem_cons, Action.who.injEq, not_mem_nil, or_false] at listed
  obtain ⟨-, -, rfl⟩ | ⟨rfl, -, -⟩ := listed
  · exact absurd sought (by decide)
  · obtain ⟨-, isBob⟩ | ⟨isRecipient, -⟩ := selects
    · rw [isBob] at isAlice
      exact absurd isAlice (by decide)
    · cases isRecipient

end Enbox.Proof.Run
