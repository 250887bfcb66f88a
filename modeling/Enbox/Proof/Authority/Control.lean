import Enbox.Proof.Authority.Protocol
import Enbox.Proof.Concrete
import Enbox.Proof.Permission.Signature

/-! # Who mints role keys -/

namespace Enbox.Proof.Authority

open Lib Permission Concrete

variable {grant : PermissionGrant} {actor : ControlActor}

def TenantSigned (tenant : Did) (ctx : AuthorizationContext) : Prop :=
  ctx.signer = tenant ∨ ∃ owner, ctx.owner = some owner ∧ owner.signer = tenant

def TenantGrantCovers (p : Primitives) (store : MessageStore) (tenant : Did) (message : Message)
    (ctx : AuthorizationContext) (id : AudienceId) : Prop :=
  ∃ grantee grant, InForce store message tenant grantee grant ∧
    ConditionsMet message grant.conditions ∧ grantCoversRoleCreate grant.scope id = true ∧
    ((ctx.authorDelegatedGrant = some grant ∧ grantee = ctx.signer) ∨
      (∃ owner, ctx.owner = some owner ∧ owner.delegatedGrant = some grant ∧
        grantee = owner.signer) ∨
      ∃ grantId, ctx.permissionGrantId = some grantId ∧
        fetchGrant p store tenant grantId = .ok grant ∧ grantee = ctx.author)

def SignerMayCreate (p : Primitives) (store : MessageStore) (tenant : Did)
    (ctx : AuthorizationContext) (id : AudienceId) (role : RoleAudienceDefinition) : Prop :=
  ∃ signer, (signer = ctx.signer ∨ ∃ owner, ctx.owner = some owner ∧ signer = owner.signer) ∧
    RoleRulePermits p store tenant signer ctx.protocolRole id role

def LegitimateWriter (p : Primitives) (store : MessageStore) (tenant : Did) (message : Message)
    (ctx : AuthorizationContext) (id : AudienceId) (role : RoleAudienceDefinition) : Prop :=
  TenantSigned tenant ctx ∨ TenantGrantCovers p store tenant message ctx id ∨
    SignerMayCreate p store tenant ctx id role

structure ForeignGrantCovers (store : MessageStore) (tenant : Did) (message : Message)
    (ctx : AuthorizationContext) (id : AudienceId) (grant : PermissionGrant) : Prop where
  embedded : ctx.authorDelegatedGrant = some grant
  foreign : grant.grantor ≠ tenant
  owner : ∀ owner ∈ ctx.owner, owner.owner = tenant
  inForce : InForce store message ctx.author ctx.signer grant
  conditions : ConditionsMet message grant.conditions
  covers : grantCoversRoleCreate grant.scope id = true

section

variable {p : Primitives} {store : MessageStore} {tenant : Did} {message : Message}
  {ctx : AuthorizationContext} {id : AudienceId} {role : RoleAudienceDefinition}
  {resolver : Option DidResolver} {kind : ControlKind}

theorem validateControlGrant_ok_iff {grantor grantee : Did} {u : Unit} :
    validateControlGrant store message grantor grantee grant = .ok u ↔
      InForce store message grantor grantee grant ∧ ConditionsMet message grant.conditions := by
  simp only [validateControlGrant, bind_eq_ok, performBaseValidation_ok_iff,
    verifyRecordsWriteConditions_ok_iff, exists_const]

theorem resolveControlActor_delegated (embedded : ctx.authorDelegatedGrant = some grant) :
    resolveControlActor p store tenant message ctx = .ok actor ↔
      (∀ owner ∈ ctx.owner, owner.owner = tenant) ∧
        InForce store message ctx.author ctx.signer grant ∧
        ConditionsMet message grant.conditions ∧ ⟨ctx.signer, some grant⟩ = actor := by
  simp only [resolveControlActor, embedded, ok_iff, exists_const, validateControlGrant_ok_iff,
    and_assoc]

theorem legitimate_of_undelegated (valid : Established p resolver message true ctx)
    (direct : ctx.authorDelegatedGrant = none)
    (acts : resolveControlActor p store tenant message ctx = .ok actor)
    (may : MayCreateRole p store tenant actor ctx.protocolRole id role) :
    LegitimateWriter p store tenant message ctx id role := by
  simp only [resolveControlActor, direct, ok_iff, exists_const, resolveUndelegatedActor] at acts
  obtain ⟨ownerIsTenant, acts⟩ := acts
  cases countersigned : ctx.owner with
  | some owner =>
    rw [countersigned] at acts
    have isTenant : owner.owner = tenant := ownerIsTenant owner countersigned
    cases delegated : owner.delegatedGrant with
    | some grant =>
      simp only [delegated, ok_iff, validateControlGrant_ok_iff, exists_const] at acts
      obtain ⟨⟨inForce, conditions⟩, rfl⟩ := acts
      rw [isTenant] at inForce
      obtain signed | ⟨_, same, covers⟩ | rule := may
      · exact .inl (.inr ⟨owner, countersigned, signed⟩)
      · cases same
        exact .inr (.inl ⟨owner.signer, grant, inForce, conditions, covers,
          .inr (.inl ⟨owner, countersigned, delegated, rfl⟩)⟩)
      · exact .inr (.inr ⟨owner.signer, .inr ⟨owner, countersigned, rfl⟩, rule⟩)
    | none =>
      have signer : owner.owner = owner.signer := by
        simpa [delegated] using (valid.owner owner countersigned).owner
      exact .inl (.inr ⟨owner, countersigned, signer.symm.trans isTenant⟩)
  | none =>
    have author : ctx.author = ctx.signer := by simp [valid.author, direct]
    rw [countersigned] at acts
    cases named : ctx.permissionGrantId with
    | none =>
      simp only [named, Except.ok.injEq] at acts
      subst acts
      obtain signed | ⟨_, same, -⟩ | rule := may
      · exact .inl (.inl (author.symm.trans signed))
      · cases same
      · exact .inr (.inr ⟨ctx.author, .inl author, rule⟩)
    | some grantId =>
      simp only [named, ok_iff, validateControlGrant_ok_iff, exists_const] at acts
      obtain ⟨grant, fetched, ⟨inForce, conditions⟩, rfl⟩ := acts
      obtain signed | ⟨_, same, covers⟩ | rule := may
      · exact .inl (.inl (author.symm.trans signed))
      · cases same
        exact .inr (.inl ⟨ctx.author, grant, inForce, conditions, covers,
          .inr (.inr ⟨grantId, named, fetched, rfl⟩)⟩)
      · exact .inr (.inr ⟨ctx.author, .inl author, rule⟩)

theorem legitimate_of_delegated (valid : Established p resolver message true ctx)
    (embedded : ctx.authorDelegatedGrant = some grant)
    (acts : resolveControlActor p store tenant message ctx = .ok actor)
    (may : MayCreateRole p store tenant actor ctx.protocolRole id role)
    (foreign : ForeignGrantCovers store tenant message ctx id grant →
      LegitimateWriter p store tenant message ctx id role) :
    LegitimateWriter p store tenant message ctx id role := by
  obtain ⟨owner, inForce, conditions, rfl⟩ := (resolveControlActor_delegated embedded).mp acts
  obtain signed | ⟨_, same, covers⟩ | rule := may
  · exact .inl (.inl signed)
  · cases same
    by_cases issued : grant.grantor = tenant
    · rw [(valid.delegate embedded).1, issued] at inForce
      exact .inr (.inl ⟨ctx.signer, grant, inForce, conditions, covers, .inl ⟨embedded, rfl⟩⟩)
    · exact foreign ⟨embedded, issued, owner, inForce, conditions, covers⟩
  · exact .inr (.inr ⟨ctx.signer, .inl rfl, rule⟩)

theorem NamesRole.unique {id' : AudienceId} {role' : RoleAudienceDefinition}
    (names : NamesRole store tenant message kind id role)
    (names' : NamesRole store tenant message kind id' role') : id = id' ∧ role = role' := by
  obtain ⟨d, isWrite, tagged, resolved⟩ := names
  obtain ⟨d', isWrite', tagged', resolved'⟩ := names'
  cases isWrite.symm.trans isWrite'
  cases tagged.symm.trans tagged'
  cases resolved.symm.trans resolved'
  exact ⟨rfl, rfl⟩

/-- An accepted control write has a legitimate writer exactly when no foreign author delegation
that covers the role stands in for one. -/
theorem control_writer_legitimate_iff_no_foreign_grant
    (valid : validateAuthorizationSignature p resolver message true = .ok (some ctx)) :
    (authorizeControlWrite p store tenant message kind ctx = .ok () →
      ∃ id role, NamesRole store tenant message kind id role ∧
        LegitimateWriter p store tenant message ctx id role) ↔
    ∀ id role grant, NamesRole store tenant message kind id role →
      ForeignGrantCovers store tenant message ctx id grant →
      LegitimateWriter p store tenant message ctx id role := by
  have established := validateAuthorizationSignature_ok valid
  constructor
  · intro accepted id role grant names foreign
    have acts := (resolveControlActor_delegated (p := p) foreign.embedded).mpr
      ⟨foreign.owner, foreign.inForce, foreign.conditions, rfl⟩
    have may : MayCreateRole p store tenant ⟨ctx.signer, some grant⟩ ctx.protocolRole id role :=
      .inr (.inl ⟨grant, rfl, foreign.covers⟩)
    obtain ⟨id', role', names', legitimate⟩ :=
      accepted (authorizeControlWrite_ok_iff.mpr ⟨id, role, _, names, acts, may⟩)
    obtain ⟨rfl, rfl⟩ := names.unique names'
    exact legitimate
  · intro foreign accepted
    obtain ⟨id, role, actor, names, acts, may⟩ := authorizeControlWrite_ok_iff.mp accepted
    refine ⟨id, role, names, ?_⟩
    cases embedded : ctx.authorDelegatedGrant with
    | none => exact legitimate_of_undelegated established embedded acts may
    | some grant =>
      exact legitimate_of_delegated established embedded acts may (foreign id role grant names)

end

def clubDefinition : Definition where
  protocol := "https://club"
  structure_ := [("member", { role := some true, keyAgreement := some "key" })]

def clubConfigure : Message where
  descriptor := .protocolsConfigure { messageTimestamp := 1, definition := clubDefinition }
  fields := {}

def clubStore : MessageStore :=
  [{ tenant := "did:ex:dave"
     cid := "configure"
     message := clubConfigure
     indexes := [(.interface, .string protocolsInterface), (.method, .string configureMethod),
       (.protocol, .string "https://club"), (.messageTimestamp, .dateTime 1),
       (.isLatestBaseState, .bool true)] }]

def audienceDescriptor : WriteDescriptor where
  protocol := "https://club"
  protocolPath := ControlKind.audience.protocolPath
  tags := some [("protocol", .string "https://club"), ("rolePath", .string "member"),
    ("contextId", .string ""), ("keyId", .string "key-1")]
  dataCid := "audience"
  dataSize := 8
  dateCreated := 5
  messageTimestamp := 5
  dataFormat := "application/json"

def audienceWrite : Message where
  descriptor := .recordsWrite audienceDescriptor
  fields :=
    { authorization :=
        { signature := signedBy "audience" "bob"
          authorDelegatedGrant := some (grantMessage "write") }
      recordId := some "audience"
      contextId := some ["audience"] }

def writeTerms (protocol : String) : PermissionGrantData where
  dateExpires := 10
  scope := .records .write protocol none
  delegated := some true

def audiencePayload : RecordsWriteAuthorizationPayloadData where
  descriptorCid := "audienceDescriptor"
  recordId := "audience"
  contextId := ["audience"]
  delegatedGrantId := some "grantMessage"

def audienceScript : Script where
  cids :=
    [(.descriptor (.recordsWrite grantDescriptor), "grantDescriptor"),
      (.message (WriteMessage.toMessage (grantMessage "")).withoutEncodedData, "grantMessage"),
      (.descriptor (.recordsWrite audienceDescriptor), "audienceDescriptor")]
  writePayloads := [("grant", grantPayload), ("audience", audiencePayload)]
  headers := partyHeaders
  grants := [("write", writeTerms "https://club")]

def audienceContext : AuthorizationContext where
  signer := "did:ex:bob"
  author := "did:ex:alice"
  payload := .recordsWrite audiencePayload
  permissionGrantInvocation := .none
  authorDelegatedGrant := some
    { readGrant "https://club" with scope := .records .write "https://club" none }
  owner := none

def clubRole : RoleAudienceDefinition where
  definition := clubDefinition
  ruleSet := { role := some true, keyAgreement := some "key" }

def clubAudience : AudienceId where
  scope := ⟨"https://club", "member", ""⟩
  keyId := "key-1"

theorem audience_legitimate_on_node_of_grantor :
    ∃ id role, NamesRole (clubStore.map fun row => { row with tenant := "did:ex:alice" })
        "did:ex:alice" audienceWrite .audience id role ∧
      LegitimateWriter audienceScript.primitives
        (clubStore.map fun row => { row with tenant := "did:ex:alice" }) "did:ex:alice" audienceWrite
        audienceContext id role := by
  have valid : validateAuthorizationSignature audienceScript.primitives (some openResolver)
      audienceWrite true = .ok (some audienceContext) := rfl
  refine (control_writer_legitimate_iff_no_foreign_grant valid).mpr ?_ rfl
  intro id role grant names foreign
  have embedded := foreign.embedded
  cases embedded
  exact absurd rfl foreign.foreign

theorem foreign_grant_mints_audience :
    validateAuthorizationSignature audienceScript.primitives (some openResolver) audienceWrite true =
        .ok (some audienceContext) ∧
      authorizeControlWrite audienceScript.primitives clubStore "did:ex:dave" audienceWrite .audience
        audienceContext = .ok () ∧
      NamesRole clubStore "did:ex:dave" audienceWrite .audience clubAudience clubRole ∧
      ¬ LegitimateWriter audienceScript.primitives clubStore "did:ex:dave" audienceWrite
        audienceContext clubAudience clubRole := by
  refine ⟨rfl, rfl, ⟨audienceDescriptor, rfl, rfl, rfl⟩, ?_⟩
  rintro ((signed | ⟨owner, countersigned, -⟩) | ⟨grantee, grant, inForce, -, -, held⟩ |
    ⟨signer, -, chain, -, action, allowed, -⟩)
  · exact absurd signed (by decide)
  · cases countersigned
  · obtain ⟨embedded, -⟩ | ⟨owner, countersigned, -⟩ | ⟨grantId, named, -⟩ := held
    · cases embedded
      exact absurd inForce.fromGrantor (by decide)
    · cases countersigned
    · cases named
  · cases allowed

end Enbox.Proof.Authority
