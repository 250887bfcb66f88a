import Enbox.Proof.Authority.Control

/-! # A delegated request against the author's own -/

namespace Enbox.Proof.Authority

open Lib Permission Concrete

variable {p : Primitives} {store : MessageStore} {tenant : Did} {ctx : AuthorizationContext}
  {grant : PermissionGrant} {verifyScope : PermissionScope → Except GrantError Unit}
  {otherwise : Except Failure Unit} {id : AudienceId} {invoked : Option PermissionGrant}
  {control : Message} {kind : ControlKind}

def readFilter (message : Message) : RecordsFilter :=
  match message.descriptor with
  | .recordsRead d => d.filter
  | _ => {}

inductive RecordRequest
  | write (message : Message)
  | read (message candidate : Message)
  | delete (message initialWrite : Message)

namespace RecordRequest

def message : RecordRequest → Message
  | write message => message
  | read message _ => message
  | delete message _ => message

def withMessage (other : Message) : RecordRequest → RecordRequest
  | write _ => write other
  | read _ candidate => read other candidate
  | delete _ initialWrite => delete other initialWrite

def authorize (p : Primitives) (store : MessageStore) (tenant : Did) (auth : AuthorizationContext) :
    RecordRequest → Except Failure Unit
  | write message => authorizeRecordsWrite p store tenant message auth
  | read message candidate =>
      authorizeReadCandidate p store tenant message (readFilter message) (some auth) candidate
  | delete message initialWrite => do
      let descriptor ← okOr (.detail "RecordsDeleteDescriptorExpected: message is not RecordsDelete")
        message.deleteDescriptor
      authorizeDeleteRequest p store tenant message descriptor initialWrite auth

end RecordRequest

def signedDirectly (message : Message) (signature : Jws) : Message :=
  ⟨message.descriptor, { message.fields with
    authorization := { message.fields.authorization with signature, authorDelegatedGrant := none } }⟩

section

variable (p : Primitives) (store : MessageStore) (tenant : Did)

def OpenTo (reader : Did) (record : Message) : Prop :=
  ∃ d, record.writeDescriptor = some d ∧
    (d.published = some true ∨ d.recipient = some reader ∨ messageAuthor p record = some reader)

def DecidedOn (candidate record : Message) : Prop :=
  if candidate.deleteDescriptor.isSome then deletedRecordWrite store tenant candidate = .ok record
  else record = candidate

def ControlVisible (readMessage : Message) (reader : Did) (role : Option Reference)
    (control : Message) (id : AudienceId) (grant : Option PermissionGrant) : ControlKind → Prop
  | .delivery => control.writeDescriptor.bind (·.recipient) = some reader ∨
      messageAuthor p control = some reader ∨
      deliveryReachableByGrant store tenant readMessage control id grant = true
  | .audience => exactAudienceRequestMatches (readFilter readMessage) id control = true ∨
      (∃ g, grant = some g ∧ grantCoversRole g.scope id .read = true) ∨
      ∃ resolved, resolveRoleAudienceDefinition store tenant id readMessage.messageTimestamp =
          .ok resolved ∧
        MayCreateRole p store tenant ⟨reader, none⟩ role id resolved

end

def GrantSuffices (p : Primitives) (store : MessageStore) (tenant : Did) (ctx : AuthorizationContext)
    (grant : PermissionGrant) : RecordRequest → Prop
  | .write message =>
    match ControlKind.of message with
    | none => PermitsWrite store message grant.grantor grant.grantee grant
    | some kind => ∃ id role, NamesRole store tenant message kind id role ∧
        (∀ owner ∈ ctx.owner, owner.owner = tenant) ∧
        InForce store message grant.grantor grant.grantee grant ∧
        ConditionsMet message grant.conditions ∧
        MayCreateRole p store tenant ⟨grant.grantee, some grant⟩ ctx.protocolRole id role
  | .read message candidate =>
    match ControlKind.of candidate with
    | none => ∃ record, DecidedOn store tenant candidate record ∧
        (OpenTo p grant.grantor record ∨
          (InForce store message grant.grantor grant.grantee grant ∧
            RecordInScope record grant.scope))
    | some kind => grant.grantee = tenant ∨
        (InForce store message grant.grantor grant.grantee grant ∧
          ∃ id, AudienceId.fromMessage candidate kind = .ok id ∧
            ControlVisible p store tenant message grant.grantee ctx.protocolRole candidate id
              (some grant) kind)
  | .delete message initialWrite =>
    ControlKind.of initialWrite = none ∧ message.deleteDescriptor.isSome ∧
      InForce store message grant.grantor grant.grantee grant ∧
      RecordInScope initialWrite grant.scope

def NamedGrant (p : Primitives) (store : MessageStore) (tenant : Did) (message : Message)
    (ctx : AuthorizationContext) : Option PermissionGrant → Prop
  | some grant => ∃ id, ctx.permissionGrantId = some id ∧ fetchGrant p store tenant id = .ok grant ∧
      InForce store message tenant ctx.author grant
  | none => ctx.permissionGrantId = none

def NamedGrantOr (p : Primitives) (store : MessageStore) (tenant : Did)
    (ctx : AuthorizationContext) (byGrant : PermissionGrant → Prop) (byRule : Prop) : Prop :=
  match ctx.permissionGrantId with
  | some id => StoredGrantPermits p store tenant id byGrant
  | none => byRule

def OwnAuthority (p : Primitives) (store : MessageStore) (tenant : Did)
    (ctx : AuthorizationContext) : RecordRequest → Prop
  | .write message =>
    match ControlKind.of message with
    | none => NamedGrantOr p store tenant ctx (PermitsWrite store message tenant ctx.author)
        (ProtocolPermits p store tenant message ctx.author ctx.protocolRole .write none)
    | some kind => ∃ id role actor, NamesRole store tenant message kind id role ∧
        (∀ owner ∈ ctx.owner, owner.owner = tenant) ∧
        resolveUndelegatedActor p store tenant message ctx = .ok actor ∧
        MayCreateRole p store tenant actor ctx.protocolRole id role
  | .read message candidate =>
    match ControlKind.of candidate with
    | none => ∃ record, DecidedOn store tenant candidate record ∧
        (OpenTo p ctx.author record ∨
          NamedGrantOr p store tenant ctx
            (fun grant => InForce store message tenant ctx.author grant ∧
              RecordInScope record grant.scope)
            (ProtocolPermits p store tenant record ctx.author ctx.protocolRole .read
              (some message.messageTimestamp)))
    | some kind => ∃ grant id, NamedGrant p store tenant message ctx grant ∧
        AudienceId.fromMessage candidate kind = .ok id ∧
        ControlVisible p store tenant message ctx.author ctx.protocolRole candidate id grant kind
  | .delete message initialWrite =>
    ControlKind.of initialWrite = none ∧ ∃ d, message.deleteDescriptor = some d ∧
      NamedGrantOr p store tenant ctx
        (fun grant => InForce store message tenant ctx.author grant ∧
          RecordInScope initialWrite grant.scope)
        (ProtocolPermits p store tenant initialWrite ctx.author ctx.protocolRole
          (.delete d.prune) (some message.messageTimestamp))

section

variable {message record : Message} {u : Unit}

theorem orElseUnless_delegated (embedded : ctx.authorDelegatedGrant = some grant) :
    orElseUnless (authorizeWithInvokedGrant p store tenant message ctx verifyScope) otherwise =
        .ok u ↔
      InForce store message ctx.author ctx.signer grant ∧ verifyScope grant.scope = .ok () := by
  simp only [orElseUnless_ok_iff, authorizeWithInvokedGrant_some embedded, true_and,
    Bool.false_eq_true, false_and, or_false]

theorem orElseUnless_direct (direct : ctx.authorDelegatedGrant = none) :
    orElseUnless (authorizeWithInvokedGrant p store tenant message ctx verifyScope) otherwise =
        .ok u ↔
      NamedGrantOr p store tenant ctx
        (fun grant => InForce store message tenant ctx.author grant ∧
          verifyScope grant.scope = .ok ()) (otherwise = .ok u) := by
  simp only [orElseUnless_ok_iff, authorizeWithInvokedGrant_none direct, NamedGrantOr]
  cases ctx.permissionGrantId <;> simp

theorem authorizeOrdinaryWrite_delegated (embedded : ctx.authorDelegatedGrant = some grant) :
    authorizeOrdinaryWrite p store tenant message ctx = .ok u ↔
      PermitsWrite store message ctx.author ctx.signer grant := by
  simp only [authorizeOrdinaryWrite, orElseUnless_ok_iff,
    authorizeDelegatedRecordsWrite_some embedded, true_and, Bool.false_eq_true, false_and, or_false]

theorem authorizeRecordsRead_ok_iff (other : ctx.author ≠ tenant) :
    authorizeRecordsRead p store tenant message (some ctx) record = .ok u ↔
      OpenTo p ctx.author record ∨ ((∃ d, record.writeDescriptor = some d) ∧
        orElseUnless (authorizeRecordsReadWithGrant p store tenant message record ctx)
          (authorizeAgainstProtocol p store tenant record ctx .read
            (some message.messageTimestamp)) = .ok u) := by
  simp only [authorizeRecordsRead, Message.writeDescriptorOr, ok_iff, Option.map_some,
    Option.some.injEq, other, false_or, OpenTo]
  cases isWrite : record.writeDescriptor with
  | none => simp
  | some d =>
    simp only [Option.some.injEq, exists_eq_left', exists_eq', true_and]
    by_cases published : d.published = some true
    · simp [published]
    · by_cases party : d.recipient = some ctx.author ∨ messageAuthor p record = some ctx.author
      · simp [published, party]
      · simp only [published, party, if_false, false_or]

theorem authorizeRecordsRead_delegated (embedded : ctx.authorDelegatedGrant = some grant)
    (other : ctx.author ≠ tenant) :
    authorizeRecordsRead p store tenant message (some ctx) record = .ok u ↔
      OpenTo p ctx.author record ∨ (InForce store message ctx.author ctx.signer grant ∧
        RecordInScope record grant.scope) := by
  rw [authorizeRecordsRead_ok_iff other, authorizeRecordsReadWithGrant,
    orElseUnless_delegated embedded, verifyRecordsScope_ok_iff]
  refine or_congr_right ⟨And.right, fun decided => ⟨?_, decided⟩⟩
  obtain ⟨d, isWrite, -⟩ := decided.2
  exact ⟨d, isWrite⟩

theorem authorizeRecordsRead_direct (direct : ctx.authorDelegatedGrant = none)
    (other : ctx.author ≠ tenant) :
    authorizeRecordsRead p store tenant message (some ctx) record = .ok u ↔
      OpenTo p ctx.author record ∨ NamedGrantOr p store tenant ctx
        (fun grant => InForce store message tenant ctx.author grant ∧
          RecordInScope record grant.scope)
        (ProtocolPermits p store tenant record ctx.author ctx.protocolRole .read
          (some message.messageTimestamp)) := by
  rw [authorizeRecordsRead_ok_iff other, authorizeRecordsReadWithGrant, orElseUnless_direct direct,
    authorizeAgainstProtocol_ok_iff]
  simp only [verifyRecordsScope_ok_iff]
  refine or_congr_right ⟨And.right, fun decided => ⟨?_, decided⟩⟩
  unfold NamedGrantOr at decided
  split at decided
  · obtain ⟨_, -, -, d, isWrite, -⟩ := decided
    exact ⟨d, isWrite⟩
  · obtain ⟨d, _, _, _, _, isWrite, -⟩ := decided.rule
    exact ⟨d, isWrite⟩

/-! ## Control records -/

theorem canEnumerateAudience_ok_iff :
    canEnumerateAudience p store tenant message ctx id invoked = .ok true ↔
      (∃ g, invoked = some g ∧ grantCoversRole g.scope id .read = true) ∨
        ∃ resolved, resolveRoleAudienceDefinition store tenant id message.messageTimestamp =
            .ok resolved ∧
          MayCreateRole p store tenant ⟨readRequester ctx, none⟩ ctx.protocolRole id resolved := by
  unfold canEnumerateAudience
  split
  · rename_i covered
    simp [Option.any_eq_true] at covered
    simp [covered]
  · rename_i uncovered
    have none : ¬ ∃ g, invoked = some g ∧ grantCoversRole g.scope id .read = true := by
      simpa [Option.any_eq_true] using uncovered
    simp only [bind_eq_ok, actorCanCreateRole_ok_iff, none, false_or]

theorem controlVisible_ok_iff :
    controlVisible p store tenant message ctx control (readFilter message) id invoked kind =
        .ok true ↔
      ControlVisible p store tenant message (readRequester ctx) ctx.protocolRole control id invoked
        kind := by
  cases kind with
  | delivery => simp [controlVisible, ControlVisible, or_assoc]
  | audience =>
    by_cases exact : exactAudienceRequestMatches (readFilter message) id control = true
    · simp [controlVisible, ControlVisible, exact]
    · simp only [controlVisible, ControlVisible, exact, if_false, canEnumerateAudience_ok_iff,
        false_or, Bool.false_eq_true]

theorem canReadControl_delegated (embedded : ctx.authorDelegatedGrant = some grant) :
    canReadControl p store tenant message ctx control (readFilter message) kind = .ok true ↔
      ctx.signer = tenant ∨ (InForce store message grant.grantor ctx.signer grant ∧
        ∃ id, AudienceId.fromMessage control kind = .ok id ∧
          ControlVisible p store tenant message ctx.signer ctx.protocolRole control id (some grant)
            kind) := by
  have requester : readRequester ctx = ctx.signer := by simp [readRequester, embedded]
  unfold canReadControl
  rw [requester]
  split
  · rename_i isTenant
    simp [isTenant]
  · rename_i notTenant
    simp only [invokedReadGrant, embedded, requester, ok_iff, performBaseValidation_ok_iff,
      controlVisible_ok_iff, notTenant, false_or]
    constructor
    · rintro ⟨_, ⟨_, inForce, rfl⟩, id, tagged, visible⟩
      exact ⟨inForce, id, tagged, visible⟩
    · rintro ⟨inForce, id, tagged, visible⟩
      exact ⟨_, ⟨(), inForce, rfl⟩, id, tagged, visible⟩

theorem invokedReadGrant_direct (direct : ctx.authorDelegatedGrant = none) :
    invokedReadGrant p store tenant message ctx = .ok invoked ↔
      NamedGrant p store tenant message ctx invoked := by
  have requester : readRequester ctx = ctx.author := by simp [readRequester, direct]
  unfold invokedReadGrant
  rw [direct]
  cases names : ctx.permissionGrantId with
  | none => cases invoked <;> simp [NamedGrant, names]
  | some id =>
    simp only [requester, ok_iff, performBaseValidation_ok_iff, exists_const]
    cases invoked <;> simp [NamedGrant, names]

end

/-! ## The two decisions on one request -/

theorem authorizeReadCandidate_ok_iff {message candidate : Message} {filter : RecordsFilter} :
    authorizeReadCandidate p store tenant message filter (some ctx) candidate = .ok () ↔
      match ControlKind.of candidate with
      | none => ∃ record, DecidedOn store tenant candidate record ∧
          authorizeRecordsRead p store tenant message (some ctx) record = .ok ()
      | some kind => canReadControl p store tenant message ctx candidate filter kind = .ok true := by
  unfold authorizeReadCandidate DecidedOn
  by_cases deleted : candidate.deleteDescriptor.isSome
  · obtain ⟨d, isDelete⟩ := Option.isSome_iff_exists.mp deleted
    have ordinary : ControlKind.of candidate = none := by
      simp [ControlKind.of, Message.writeDescriptor, Message.deleteDescriptor_eq_some.mp isDelete]
    simp only [deleted, if_true, ordinary, bind_eq_ok]
  · simp only [deleted, if_false, Bool.false_eq_true]
    cases control : ControlKind.of candidate with
    | none => simp
    | some kind => simp [canRead, control]

theorem authorize_delegated_iff {message : Message} {resolver : Option DidResolver}
    (valid : Established p resolver message true ctx)
    (embedded : ctx.authorDelegatedGrant = some grant) (other : grant.grantor ≠ tenant)
    (request : RecordRequest) :
    request.authorize p store tenant ctx = .ok () ↔
      GrantSuffices p store tenant ctx grant request := by
  obtain ⟨author, signer, -⟩ := valid.delegate embedded
  have notTenant : ctx.author ≠ tenant := by rwa [author]
  cases request with
  | write message =>
    simp only [RecordRequest.authorize, authorizeRecordsWrite, GrantSuffices]
    cases ControlKind.of message with
    | none => simp only [authorizeOrdinaryWrite_delegated embedded, author, signer]
    | some kind =>
      simp only [mapError_eq_ok, authorizeControlWrite_ok_iff,
        resolveControlActor_delegated embedded, author, signer]
      constructor
      · rintro ⟨id, role, _, names, ⟨owner, inForce, conditions, rfl⟩, may⟩
        exact ⟨id, role, names, owner, inForce, conditions, may⟩
      · rintro ⟨id, role, names, owner, inForce, conditions, may⟩
        exact ⟨id, role, _, names, ⟨owner, inForce, conditions, rfl⟩, may⟩
  | read message candidate =>
    simp only [RecordRequest.authorize, authorizeReadCandidate_ok_iff, GrantSuffices]
    cases ControlKind.of candidate with
    | none => simp only [authorizeRecordsRead_delegated embedded notTenant, author, signer]
    | some kind => simp only [canReadControl_delegated embedded, signer]
  | delete message initialWrite =>
    simp only [RecordRequest.authorize, authorizeDeleteRequest, authorizeRecordsDelete,
      authorizeRecordsDeleteWithGrant, GrantSuffices, ok_iff, exists_const,
      orElseUnless_delegated embedded, verifyRecordsScope_ok_iff, Option.isNone_iff_eq_none,
      Option.isSome_iff_exists, author, signer]
    tauto

theorem authorize_direct_iff (direct : ctx.authorDelegatedGrant = none) (other : ctx.author ≠ tenant)
    (request : RecordRequest) :
    request.authorize p store tenant ctx = .ok () ↔ OwnAuthority p store tenant ctx request := by
  cases request with
  | write message =>
    simp only [RecordRequest.authorize, authorizeRecordsWrite, OwnAuthority]
    cases ControlKind.of message with
    | none =>
      simp only [authorizeOrdinaryWrite, orElseUnless_ok_iff,
        authorizeDelegatedRecordsWrite_none direct, other, if_false,
        authorizeRecordsWriteWithGrantId_ok_iff, authorizeAgainstProtocol_ok_iff, NamedGrantOr]
      cases ctx.permissionGrantId <;> simp
    | some kind =>
      simp only [ok_iff, authorizeControlWrite_ok_iff, resolveControlActor, direct, exists_const,
        and_assoc]
  | read message candidate =>
    simp only [RecordRequest.authorize, authorizeReadCandidate_ok_iff, OwnAuthority]
    cases ControlKind.of candidate with
    | none => simp only [authorizeRecordsRead_direct direct other]
    | some kind =>
      have requester : readRequester ctx = ctx.author := by simp [readRequester, direct]
      simp only [canReadControl, requester, other, if_false, bind_eq_ok,
        invokedReadGrant_direct direct, controlVisible_ok_iff, exists_and_left]
  | delete message initialWrite =>
    simp only [RecordRequest.authorize, authorizeDeleteRequest, authorizeRecordsDelete,
      authorizeRecordsDeleteWithGrant, OwnAuthority, ok_iff, exists_const,
      orElseUnless_direct direct, verifyRecordsScope_ok_iff, other, if_false,
      authorizeAgainstProtocol_ok_iff, Option.isNone_iff_eq_none]
    tauto

/-- A delegated request is authorized only if the author's own would be, exactly when the author has
in its own right whatever the grant it issued suffices for. -/
theorem delegation_bounded_iff_author_has_authority {ctx' : AuthorizationContext}
    {resolver : Option DidResolver} {required : Bool} (request : RecordRequest) (signature : Jws)
    (delegated : validateAuthorizationSignature p resolver request.message required = .ok (some ctx))
    (embedded : ctx.authorDelegatedGrant = some grant) (other : grant.grantor ≠ tenant)
    (direct : validateAuthorizationSignature p resolver (signedDirectly request.message signature)
      required = .ok (some ctx'))
    (byGrantor : ctx'.signer = grant.grantor) :
    (request.authorize p store tenant ctx = .ok () →
      (request.withMessage (signedDirectly request.message signature)).authorize p store tenant ctx' =
        .ok ()) ↔
    (GrantSuffices p store tenant ctx grant request →
      OwnAuthority p store tenant ctx'
        (request.withMessage (signedDirectly request.message signature))) := by
  have signed := (validateAuthorizationSignature_ok direct).author_eq_signer rfl
  have author : ctx'.author ≠ tenant := by rwa [signed.2, byGrantor]
  rw [authorize_delegated_iff (validateAuthorizationSignature_ok delegated) embedded other,
    authorize_direct_iff signed.1 author]

def notesDefinition : Definition where
  protocol := "notes"
  structure_ := [("note", {})]

def notesStore : MessageStore :=
  [{ tenant := "did:ex:dave"
     cid := "configure"
     message :=
      { descriptor := .protocolsConfigure { messageTimestamp := 1, definition := notesDefinition }
        fields := {} }
     indexes := [(.interface, .string protocolsInterface), (.method, .string configureMethod),
       (.protocol, .string "notes"), (.messageTimestamp, .dateTime 1),
       (.isLatestBaseState, .bool true)] }]

def daveNote (published : Option Bool) : Message where
  descriptor := .recordsWrite { note with protocol := "notes", published }
  fields :=
    { authorization := { signature := signedBy "note" "dave" }
      recordId := some "r1"
      contextId := some ["r1"] }

def ownReadScript : Script :=
  { readScript with payloads := ("own", { descriptorCid := "r1" }) :: readScript.payloads }

def ownReadContext : AuthorizationContext :=
  ownContext "did:ex:alice" (.generic { descriptorCid := "r1" })

theorem delegated_read_of_published_note :
    (RecordRequest.read (delegatedRead "r1" "notes") (daveNote (some true))).authorize
        ownReadScript.primitives notesStore "did:ex:dave" (readContext "r1" "notes") = .ok () ∧
      (RecordRequest.read (signedDirectly (delegatedRead "r1" "notes") (signedBy "own" "alice"))
        (daveNote (some true))).authorize ownReadScript.primitives notesStore "did:ex:dave"
        ownReadContext = .ok () := by
  have delegated : validateAuthorizationSignature ownReadScript.primitives (some openResolver)
      (delegatedRead "r1" "notes") true = .ok (some (readContext "r1" "notes")) := rfl
  have embedded : (readContext "r1" "notes").authorDelegatedGrant = some (readGrant "notes") := rfl
  refine ⟨rfl, (delegation_bounded_iff_author_has_authority
    (.read (delegatedRead "r1" "notes") (daveNote (some true))) (signedBy "own" "alice") delegated
    embedded (by decide) rfl rfl).mpr (fun _ => ?_) rfl⟩
  exact ⟨daveNote (some true), rfl, .inl ⟨_, rfl, .inl rfl⟩⟩

theorem self_issued_grant_reads_private_note :
    validateAuthorizationSignature ownReadScript.primitives (some openResolver)
        (delegatedRead "r1" "notes") true = .ok (some (readContext "r1" "notes")) ∧
      validateAuthorizationSignature ownReadScript.primitives (some openResolver)
        (signedDirectly (delegatedRead "r1" "notes") (signedBy "own" "alice")) true =
          .ok (some ownReadContext) ∧
      (RecordRequest.read (delegatedRead "r1" "notes") (daveNote none)).authorize
        ownReadScript.primitives notesStore "did:ex:dave" (readContext "r1" "notes") = .ok () ∧
      (RecordRequest.read (signedDirectly (delegatedRead "r1" "notes") (signedBy "own" "alice"))
        (daveNote none)).authorize ownReadScript.primitives notesStore "did:ex:dave"
        ownReadContext ≠ .ok () :=
  ⟨rfl, rfl, rfl, fun granted => nomatch granted⟩

end Enbox.Proof.Authority
