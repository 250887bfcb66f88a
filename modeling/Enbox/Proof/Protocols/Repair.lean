import Enbox.Proof.Authority.Control
import Enbox.Proof.Protocols.Timeline
import Enbox.Records.Repair

/-! # Repair and admission -/

namespace Enbox.Proof.Protocols

open Lib Run Tasks Authority Permission ControlKind

variable {p : Primitives} {stores : Stores} {store after : MessageStore} {tenant : Did}
  {protocol : String} {message control : Message} {timestamp : Timestamp} {id : AudienceId}
  {role : RoleAudienceDefinition} {kind : ControlKind}

/-! ## The configuration that governs a time -/

def LeavesGoverning (p : Primitives) (store : MessageStore) (tenant : Did) (protocol : String)
    (timestamp : Timestamp) (message : Message) : Prop :=
  timestamp < message.messageTimestamp ∧
    ∀ governing, governingConfiguration store tenant protocol (some timestamp) = some governing →
      age p governing ≤ age p message

theorem governingConfiguration_kept (sound : Sound p store) (soundAfter : Sound p after)
    {new : List Message} {governing : Message}
    (governs : governingConfiguration store tenant protocol (some timestamp) = some governing)
    (holds : ∀ message, HoldsConfigure after tenant protocol message ↔
      HoldsConfigure store tenant protocol message ∨ message ∈ new)
    (leaves : ∀ message ∈ new, LeavesGoverning p store tenant protocol timestamp message) :
    governingConfiguration after tenant protocol (some timestamp) = some governing := by
  refine (governingConfiguration_iff soundAfter).mpr
    (((governingConfiguration_iff sound).mp governs).kept (fun m held => (holds m).mpr (.inl held))
      fun m held => ((holds m).mp held).imp_right fun listed => ?_)
  exact ⟨(leaves m listed).1, (leaves m listed).2 governing governs⟩

theorem resolveRoleAudienceDefinition_kept
    (resolved : resolveRoleAudienceDefinition store tenant id timestamp = .ok role)
    (kept : ∀ governing,
      governingConfiguration store tenant id.scope.protocol (some timestamp) = some governing →
      governingConfiguration after tenant id.scope.protocol (some timestamp) = some governing) :
    resolveRoleAudienceDefinition after tenant id timestamp = .ok role := by
  have fetched {definition : Definition}
      (found : fetchProtocolDefinition store tenant id.scope.protocol (some timestamp) =
        .ok definition) :
      fetchProtocolDefinition after tenant id.scope.protocol (some timestamp) = .ok definition := by
    unfold fetchProtocolDefinition at found ⊢
    split at found
    · rename_i core
      simpa only [core] using found
    · rename_i core
      simp only [ok_iff] at found
      obtain ⟨message, governs, found⟩ := found
      simp only [ok_iff]
      exact ⟨message, kept message governs, found⟩
  simp only [resolveRoleAudienceDefinition, ok_iff] at resolved ⊢
  obtain ⟨_, depth, definition, found, rest⟩ := resolved
  exact ⟨_, depth, definition, fetched found, rest⟩

/-! ## The record that is held -/

structure AdmitsControl (p : Primitives) (stores : Stores) (request : Request) (d : WriteDescriptor)
    (kind : ControlKind) (id : AudienceId) (role : RoleAudienceDefinition) (row : Row) : Prop where
  isWrite : request.message.descriptor = .recordsWrite d
  isControl : fromProtocolPath d.protocolPath = some kind
  success : (processMessage p stores request).1.isSuccess = true
  names : NamesRole stores.messages request.tenant request.message kind id role
  held : row ∈ (processMessage p stores request).2.messages
  ofTenant : row.tenant = request.tenant
  addressed : row.cid = p.messageCid request.message

section

variable {request : Request} {d : WriteDescriptor} {row : Row}

theorem AdmitsControl.not_revokes (admits : AdmitsControl p stores request d kind id role row)
    {other : Row} : ¬ Revokes d other := by
  rintro ⟨-, path, -⟩
  have ordinary : fromProtocolPath d.protocolPath = none := by rw [path]; decide
  cases ordinary.symm.trans admits.isControl

theorem AdmitsControl.holds (law : p.CollisionFree) (sound : Sound p stores.messages)
    (admits : AdmitsControl p stores request d kind id role row) :
    HoldsConfigure (processMessage p stores request).2.messages tenant protocol message ↔
      HoldsConfigure stores.messages tenant protocol message := by
  obtain ⟨-, auth, recordId, passed⟩ := passed_of_success admits.isWrite admits.success
  have untouched {other : Row} (configures : Configures tenant protocol other) :
      other ∈ (processMessage p stores request).2.messages ↔ other ∈ stores.messages := by
    obtain ⟨-, e, isConfigure, -⟩ := configures
    have stateless {tenant : Did} {recordId : String} : ¬ OfRecord tenant recordId other :=
      fun ofRecord => not_stateMessage_configure isConfigure ofRecord.state
    rw [mem_write_other law sound admits.isWrite passed.record stateless]
    refine and_iff_left ?_
    rintro ⟨-, -, ⟨-, -, _, -, ofRecord, -⟩ | revokes⟩
    · exact stateless ofRecord
    · exact admits.not_revokes revokes
  constructor
  · rintro ⟨other, stored, configures, same⟩
    exact ⟨other, (untouched configures).mp stored, configures, same⟩
  · rintro ⟨other, stored, configures, same⟩
    exact ⟨other, (untouched configures).mpr stored, configures, same⟩

theorem AdmitsControl.held_as (sound : Sound p stores.messages)
    (admits : AdmitsControl p stores request d kind id role row) : ∃ data,
      row.message = setEncodedData request.message (some (p.base64UrlText data)) ∧
      validateControlPayload p stores.messages request.tenant request.message data kind = .ok () := by
  obtain ⟨admitted, staged, transition, committed, wrote, after⟩ :=
    processMessage_write admits.isWrite admits.success
  obtain ⟨recordId, passed, -⟩ := admitWrite_ok wrote.admits
  have isControl := admits.isControl
  have descriptor := Message.writeDescriptor_eq_some.mpr admits.isWrite
  have small : d.dataSize ≤ maxEncodedDataSize := by
    have references := passed.references
    simp only [validateReferentialIntegrity, Message.writeDescriptorOr, descriptor, okOr, isControl,
      validateControlIntegrity, validateLifecycle, ok_iff, Except.ok.injEq,
      exists_eq_left'] at references
    obtain ⟨_, ⟨-, -, -, -, small⟩, -⟩ := references
    exact small
  obtain ⟨data, same, payload⟩ : ∃ data,
      staged.message = setEncodedData request.message (some (p.base64UrlText data)) ∧
      validateControlPayload p stores.messages request.tenant request.message data kind =
        .ok () := by
    have stages := wrote.stages
    unfold stageWrite at stages
    split at stages
    · rename_i data _
      simp only [processMessageWithDataStream, Message.writeDescriptorOr, descriptor, okOr,
        validateControlData, isControl, storeData, if_pos small, ok_iff, Except.ok.injEq,
        exists_eq_left'] at stages
      obtain ⟨_, -, _, payload, _, -, rfl⟩ := stages
      exact ⟨data, rfl, payload⟩
    · simp [stageWithoutData, ControlKind.of, descriptor, isControl, bind_eq_ok,
        ensure_eq_ok] at stages
  refine ⟨data, ?_, payload⟩
  -- The row that is put is not swept, and no other has its CID.
  obtain ⟨put, -⟩ := recordsWriteTransition_ok wrote.builds
  have stored : rowOf p request.tenant transition.put ∈
      (processMessage p stores request).2.messages := by
    rw [after, wrote.mem_after_record sound admits.isWrite passed.record admits.success
      ⟨rfl, wrote.state passed.record⟩]
    exact ⟨(mem_commitLatestState_iff wrote.commits).mpr (.inl rfl), admits.not_revokes⟩
  have soundAfter := sound.step (.request request)
  have unique := soundAfter.unique row admits.held _ stored admits.ofTenant (by
    rw [admits.addressed, soundAfter.addressed _ stored, rowOf, put, same]
    rfl)
  rw [unique, ← same, rowOf, put]

end

/-! ## The verdict -/

def Replays (p : Primitives) (tenant : Did) (control : Message) (ruleSet : RuleSet) : Prop :=
  storedWriteIsDirectlyAuthorized p tenant control = true ∨
    ∃ action ∈ ruleSet.actions,
      storedActionAnswers (actionsSoughtByStoredWrite control ruleSet)
        ((storedSignaturePayload p control).bind (·.protocolRole)) action = true

theorem verdict_verifyStoredCreateAction {ruleSet : RuleSet} :
    controlVerdict (verifyStoredCreateAction p tenant control ruleSet) ≠ .ok .invalid ↔
      Replays p tenant control ruleSet := by
  unfold verifyStoredCreateAction Replays
  by_cases direct : storedWriteIsDirectlyAuthorized p tenant control = true
  · simp [direct, controlVerdict]
  · by_cases ruled : ruleSet.actions = []
    · simp [direct, ruled, ensure, controlVerdict, DwnErrorCode.isControlInvalidity, bind, Except.bind]
    · by_cases answered : ruleSet.actions.any (storedActionAnswers
          (actionsSoughtByStoredWrite control ruleSet)
          ((storedSignaturePayload p control).bind (·.protocolRole))) = true
      · rw [if_neg direct, ← List.any_eq_true]
        simp [direct, ruled, answered, ensure, controlVerdict, bind, Except.bind]
      · rw [if_neg direct, ← List.any_eq_true]
        simp [direct, ruled, answered, ensure, controlVerdict, DwnErrorCode.isControlInvalidity, bind,
          Except.bind]

theorem controlConfigValidity_ne_invalid_iff (isControl : ControlKind.of control = some kind)
    (names : NamesRole after tenant control kind id role)
    (sealed : verifyStoredSeal p control role kind = .ok ()) :
    controlConfigValidity p after tenant control ≠ .ok .invalid ↔
      ∀ newest, fetchProtocolDefinition after tenant id.scope.protocol none = .ok newest →
        (newest.ruleAt id.scope.role).any (·.role = some true) = true ∧
          Replays p tenant control role.ruleSet := by
  obtain ⟨d, isWrite, tagged, resolved⟩ := names
  simp only [controlConfigValidity, isControl, validateStoredControlRecord, isWrite, okOr, tagged,
    resolved, sealed, bind, Except.bind]
  cases fetchProtocolDefinition after tenant id.scope.protocol none with
  | error error =>
    cases error <;> simp [Except.mapError, validationFailure, controlVerdict,
      DwnErrorCode.isControlInvalidity]
  | ok newest =>
    by_cases isRole : (newest.ruleAt id.scope.role).any (·.role = some true) = true
    · simp only [Except.mapError, ensure, isRole, if_true, pure, Except.pure, Except.ok.injEq,
        forall_eq', true_and]
      exact verdict_verifyStoredCreateAction
    · simp [Except.mapError, ensure, isRole, controlVerdict, DwnErrorCode.isControlInvalidity]

/-! ## What admission leaves to be replayed -/

structure ShowsAuthority (p : Primitives) (message : Message) (ctx : AuthorizationContext)
    (ruleSet : RuleSet) : Prop where
  author : messageAuthor p message = some ctx.author
  payload : ∃ stored, storedSignaturePayload p message = some stored ∧
    stored.permissionGrantId = ctx.permissionGrantId ∧ stored.protocolRole = ctx.protocolRole
  plain : message.writeDescriptor.bind (·.squash) ≠ some true
  invoked : ∀ role, ctx.protocolRole = some role →
    ∃ can, .role role can ∈ ruleSet.actions ∧ .create ∈ can

theorem replays_of_admitted {resolver : Option DidResolver} {ctx : AuthorizationContext}
    {actor : ControlActor} (valid : Established p resolver message true ctx)
    (acts : resolveControlActor p store tenant message ctx = .ok actor)
    (may : MayCreateRole p store tenant actor ctx.protocolRole id role)
    (shows : ShowsAuthority p message ctx role.ruleSet) :
    Replays p tenant message role.ruleSet := by
  obtain ⟨stored, decoded, grantId, invoked⟩ := shows.payload
  have sought : actionsSoughtByStoredWrite message role.ruleSet = [.create] := if_pos shows.plain
  simp only [resolveControlActor, bind_eq_ok, resolveUndelegatedActor] at acts
  obtain ⟨_, -, acts⟩ := acts
  cases embedded : ctx.authorDelegatedGrant with
  | some grant =>
    have bound := valid.authorGrant rfl
    rw [embedded] at bound
    obtain ⟨grantMessage, found, -⟩ := bound.bound
    exact .inl (by simp [storedWriteIsDirectlyAuthorized, found])
  | none =>
    cases countersigned : ctx.owner with
    | some owner =>
      obtain ⟨jws, -, signature, -⟩ := (valid.owner owner countersigned).signed
      exact .inl (by simp [storedWriteIsDirectlyAuthorized, signature])
    | none =>
      cases named : ctx.permissionGrantId with
      | some grantId' =>
        exact .inl (by simp [storedWriteIsDirectlyAuthorized, decoded, grantId, named])
      | none =>
        simp only [embedded, countersigned, named, Except.ok.injEq] at acts
        subst acts
        obtain isTenant | ⟨_, same, -⟩ | ⟨chain, -, action, listed, allowed⟩ := may
        · exact .inl (by simp [storedWriteIsDirectlyAuthorized, shows.author, ← isTenant])
        · cases same
        · refine .inr ?_
          simp only [sought, decoded, Option.bind_some, invoked]
          cases role' : ctx.protocolRole with
          | some invokedRole =>
            obtain ⟨can, listed, creates⟩ := shows.invoked invokedRole role'
            exact ⟨_, listed, by simpa [storedActionAnswers, actionCan] using creates⟩
          | none =>
            rw [role'] at allowed
            cases action with
            | who who of can =>
              exact ⟨_, listed, by simpa [storedActionAnswers, actionCan] using
                (Bool.and_eq_true_iff.mp allowed).1⟩
            | role _ _ => simp [roleActionAllows] at allowed

/-- An accepted control record, after any further configurations that leave the one that governs it,
is not condemned exactly when its role is still one and its authority can be replayed. -/
theorem control_record_kept_iff (law : p.CollisionFree)
    (decodes : ∀ data, p.base64Url (p.base64UrlText data) = some data)
    (reached : Reaches (step p) (fun _ _ => True) {} stores) {request : Request}
    {d : WriteDescriptor} {kind : ControlKind} {id : AudienceId} {role : RoleAudienceDefinition}
    {row : Row} (admits : AdmitsControl p stores request d kind id role row)
    {requests : List Request}
    (accepted : AllowedAlong (step p) (AcceptsConfigure p request.tenant id.scope.protocol)
      (processMessage p stores request).2 (requests.map .request))
    (leaves : ∀ further ∈ requests, LeavesGoverning p stores.messages request.tenant
      id.scope.protocol d.messageTimestamp further.message) :
    (controlConfigValidity p ((requests.map .request).foldl (step p)
          (processMessage p stores request).2).messages request.tenant row.message ≠ .ok .invalid ↔
      ∀ newest, fetchProtocolDefinition ((requests.map .request).foldl (step p)
          (processMessage p stores request).2).messages request.tenant id.scope.protocol none =
          .ok newest →
        (newest.ruleAt id.scope.role).any (·.role = some true) = true ∧
          Replays p request.tenant request.message role.ruleSet) ∧
    ∀ ctx, validateAuthorizationSignature p request.resolver request.message true =
        .ok (some ctx) → ShowsAuthority p request.message ctx role.ruleSet →
      Replays p request.tenant request.message role.ruleSet := by
  have sound := sound_of_reaches sound_nil reached
  have soundAfter := sound.step (.request request)
  have names := admits.names
  obtain ⟨_, isWrite, tagged, resolved⟩ := names
  cases (Message.writeDescriptor_eq_some.mpr admits.isWrite).symm.trans isWrite
  constructor
  · obtain ⟨data, same, payload⟩ := admits.held_as sound
    have kept := resolveRoleAudienceDefinition_kept resolved fun governing governs =>
      governingConfiguration_kept sound (sound_of_reaches soundAfter accepted.reaches) governs
        (fun message => (holds_of_accepted soundAfter accepted).trans
          (or_congr_left (admits.holds law sound)))
        (by simpa using leaves)
    have sealed : verifyStoredSeal p row.message role kind = .ok () := by
      rw [same]
      cases kind with
      | delivery => rfl
      | audience =>
        simp only [validateControlPayload, isWrite, tagged, ok_iff, Except.ok.injEq,
          exists_eq_left', Option.some.injEq, resolved] at payload
        obtain ⟨read, parsed, _, -, _, -, key, keyed, sealed⟩ := payload
        simp only [verifyStoredSeal, setEncodedData, decodes, okOr, parsed, keyed, bind, Except.bind]
        exact sealed
    have descriptor : row.message.writeDescriptor = some d := by rw [same]; exact isWrite
    have isControl : ControlKind.of row.message = some kind := by
      rw [ControlKind.of, descriptor]
      exact admits.isControl
    have heldNames : NamesRole _ request.tenant row.message kind id role :=
      ⟨d, descriptor, by rw [same]; exact tagged, kept⟩
    rw [controlConfigValidity_ne_invalid_iff isControl heldNames sealed, same]
    rfl
  · intro ctx valid shows
    obtain ⟨-, auth, recordId, passed⟩ := passed_of_success admits.isWrite admits.success
    cases passed.signed.symm.trans valid
    have authorized := passed.authorized
    simp only [authorizeRecordsWrite, ControlKind.of, isWrite, Option.bind_some, admits.isControl,
      mapError_eq_ok] at authorized
    obtain ⟨id', role', actor, names, acts, may⟩ := authorizeControlWrite_ok_iff.mp authorized
    obtain ⟨rfl, rfl⟩ := admits.names.unique names
    exact replays_of_admitted (validateAuthorizationSignature_ok valid) acts may shows

namespace Rooms

open Concrete Threads

def member : RuleSet where
  role := some true
  keyAgreement := some "key"
  actions := [.who .author (some (.plain ["hall", "room"])) [.create]]

def createdByAnyone (rules : List (String × RuleSet)) : RuleSet where
  actions := [.who .anyone none [.create]]
  rules

def rooms (published : Bool) : Definition where
  protocol := "https://rooms"
  published
  types := [("hall", {}), ("room", {}), ("member", {})]
  structure_ := [("hall", createdByAnyone [("room", createdByAnyone [("member", member)])])]

def configured (published : Bool) (timestamp : Timestamp) : ConfigureDescriptor where
  messageTimestamp := timestamp
  definition := rooms published

def hallWrite : WriteDescriptor :=
  { thread "hall" 2 with protocol := "https://rooms", protocolPath := ["hall"] }

def roomWrite : WriteDescriptor :=
  { thread "room" 2 with
    protocol := "https://rooms", protocolPath := ["hall", "room"], parentId := some "H" }

def audience : WriteDescriptor where
  protocol := "https://rooms"
  protocolPath := ControlKind.audience.protocolPath
  tags := some [("protocol", .string "https://rooms"), ("rolePath", .string "hall/room/member"),
    ("contextId", .string "H/R"), ("keyId", .string "fresh")]
  dataCid := "audience"
  dataSize := 8
  dateCreated := 3
  messageTimestamp := 3
  dataFormat := "application/json"

def configure : Message := Settled.message (configured true 1) "configure"
def unlist : Message := Settled.message (configured false 4) "unlist"
def hall : Message := write hallWrite "hall" "bob" "H" ["H"]
def room : Message := write roomWrite "room" "bob" "R" ["H", "R"]
def minted : Message := write audience "minted" "bob" "A" ["A"]
def mintedAs : Message := write audience "mintedAs" "bob" "A" ["A"]

def own : Message :=
  write { audience with dateCreated := 5, messageTimestamp := 5 } "own" "alice" "B" ["B"]

def asMember : Option Reference := some (.plain ["hall", "room", "member"])

def script : Script :=
  let posted := parties.adding configure "dc" "m0"
    |>.adding unlist "du" "m1" |>.posted hall "dh" "m5" "H" "did:ex:bob"
    |>.posted room "dr" "m2" "R" "did:ex:bob" |>.posted minted "da" "m3" "A" "did:ex:bob"
    |>.posted own "do" "m6" "B"
  { posted with
    cids := (.message mintedAs, "m4") :: posted.cids
    payloads := ("minted", { descriptorCid := "da" }) ::
      ("mintedAs", { descriptorCid := "da", protocolRole := asMember }) :: posted.payloads
    writePayloads := ("mintedAs", payload "da" "A" ["A"] asMember) :: posted.writePayloads }

def key : AudiencePayload where
  protocol := "https://rooms"
  rolePath := "hall/room/member"
  contextId := "H/R"
  keyId := "fresh"
  publicKeyJwk := "fresh"
  sealKeyId := "key"

noncomputable def primitives : Primitives :=
  { script.primitives with audiencePayload := fun _ => some key }

theorem collisionFree : primitives.CollisionFree :=
  have law := script.collisionFree (by decide) (by decide)
  ⟨law.cid, law.dataCid⟩

noncomputable def world : Stores :=
  [Event.request (request configure ""), .request (request hall "hall"),
    .request (request room "room")].foldl (step primitives) {}

end Rooms

open Rooms in
theorem minted_key_kept :
    controlConfigValidity primitives (step primitives
        (processMessage primitives world (Threads.request minted "audience")).2
        (.request (Threads.request unlist ""))).messages "did:ex:alice"
      (setEncodedData minted (some "audience")) ≠ .ok .invalid := by
  have admits : AdmitsControl primitives world (Threads.request minted "audience") audience
      .audience ⟨⟨"https://rooms", "hall/room/member", "H/R"⟩, "fresh"⟩ ⟨rooms true, member⟩
      (rowOf primitives "did:ex:alice" ⟨setEncodedData minted (some "audience"),
        ((recordsWriteIndexes primitives (setEncodedData minted (some "audience")) "did:ex:bob"
          true).toOption).getD []⟩) :=
    ⟨rfl, rfl, rfl, ⟨_, rfl, rfl, rfl⟩, List.mem_of_mem_head? rfl, rfl, rfl⟩
  have accepted : AllowedAlong (step primitives) (AcceptsConfigure primitives "did:ex:alice"
      "https://rooms") (processMessage primitives world (Threads.request minted "audience")).2
      ([Threads.request unlist ""].map .request) := ⟨⟨rfl, ⟨_, rfl, rfl⟩, rfl⟩, trivial⟩
  have leaves : ∀ further ∈ [Threads.request unlist ""], LeavesGoverning primitives world.messages
      "did:ex:alice" "https://rooms" 3 further.message := by
    intro further listed
    cases List.mem_singleton.mp listed
    refine ⟨by decide, fun governing governs => ?_⟩
    cases governs
    exact Prod.Lex.toLex_le_toLex.mpr (.inl (by decide))
  have kept := control_record_kept_iff Rooms.collisionFree
    (fun data => congrArg some (Concrete.textBytes_bytesText data)) (reaches_foldl _ _ _) admits
    accepted leaves
  refine kept.1.mpr fun newest fetched => ?_
  cases fetched
  exact ⟨rfl, kept.2 _ rfl ⟨rfl, ⟨_, rfl, rfl, rfl⟩, by decide, fun _ invoked => by cases invoked⟩⟩

open Rooms in
theorem minted_key_condemned :
    (processMessage primitives world (Threads.request mintedAs "audience")).1 =
        Enbox.accepted ∧
      (processMessage primitives world (Threads.request mintedAs "audience")).2.messages.get
        "did:ex:alice" "m4" = some (setEncodedData mintedAs (some "audience")) ∧
      controlConfigValidity primitives
        (processMessage primitives world (Threads.request mintedAs "audience")).2.messages
        "did:ex:alice" (setEncodedData mintedAs (some "audience")) = .ok .invalid :=
  ⟨rfl, rfl, rfl⟩

end Enbox.Proof.Protocols
