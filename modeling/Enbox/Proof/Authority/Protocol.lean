import Enbox.Proof.Authority.Grants

/-! # What the protocol confers -/

namespace Enbox.Proof.Authority

open Lib

structure HoldsRole (store : MessageStore) (tenant author : Did) (role : Reference)
    (protocol : String) (contextId : Option Path) (definition : Definition)
    (timestamp : Timestamp) : Prop where
  held : ∃ roleProtocol rolePath governing ancestors record,
    resolveRole definition protocol role = some (roleProtocol, rolePath) ∧
    roleDefinition store tenant definition roleProtocol timestamp role = .ok governing ∧
    ((governing.ruleAt rolePath).any fun ruleSet => ruleSet.role = some true) = true ∧
    roleAudienceContextId rolePath contextId = some ancestors ∧
    store.first tenant [roleRecordFilters author roleProtocol rolePath ancestors] = some record

section

variable {store : MessageStore} {tenant author : Did} {protocol : String} {contextId : Option Path}
  {definition : Definition} {timestamp : Timestamp}

theorem verifyInvokedRole_ok_iff {role : Reference} :
    (∃ resolved, verifyInvokedRole store tenant author role protocol contextId definition timestamp =
      .ok resolved) ↔
      HoldsRole store tenant author role protocol contextId definition timestamp := by
  simp only [verifyInvokedRole, ok_iff, exists_const, Prod.exists, queryRoleRecords,
    Option.bind_eq_some_iff]
  constructor
  · rintro ⟨_, roleProtocol, rolePath, resolved, governing, governs, isRole, -, record, ⟨ancestors,
      context, found⟩, -⟩
    exact ⟨roleProtocol, rolePath, governing, ancestors, record, resolved, governs, isRole, context,
      found⟩
  · rintro ⟨roleProtocol, rolePath, governing, ancestors, record, resolved, governs, isRole, context,
      found⟩
    exact ⟨_, roleProtocol, rolePath, resolved, governing, governs, isRole,
      Option.isSome_iff_exists.mpr ⟨_, context⟩, record, ⟨ancestors, context, found⟩, rfl⟩

theorem verifyOptionalRole_ok_iff {role : Option Reference} :
    (∃ resolved, verifyOptionalRole store tenant author role protocol contextId definition timestamp =
      .ok resolved) ↔
      ∀ invoked ∈ role,
        HoldsRole store tenant author invoked protocol contextId definition timestamp := by
  cases role with
  | none => simp [verifyOptionalRole]
  | some role =>
    simp only [verifyOptionalRole, ok_iff, Option.mem_some_iff, forall_eq']
    rw [← verifyInvokedRole_ok_iff]
    constructor
    · rintro ⟨_, resolved, verified, -⟩
      exact ⟨resolved, verified⟩
    · rintro ⟨resolved, verified⟩
      exact ⟨_, resolved, verified, rfl⟩

end

structure ProtocolPermits (p : Primitives) (store : MessageStore) (tenant : Did) (record : Message)
    (author : Did) (role : Option Reference) (kind : RecordsAuthorizationKind)
    (requestTimestamp : Option Timestamp) : Prop where
  rule : ∃ d timestamp definition ruleSet chain,
    record.writeDescriptor = some d ∧
    evaluationTimestamp p store tenant record author requestTimestamp = .ok timestamp ∧
    fetchProtocolDefinition store tenant d.protocol (some timestamp) = .ok definition ∧
    definition.ruleAt d.protocolPath = some ruleSet ∧
    (∀ invoked ∈ role,
      HoldsRole store tenant author invoked d.protocol record.contextId definition timestamp) ∧
    constructRecordChain store tenant record = .ok chain ∧
    ∃ action ∈ ruleSet.actions,
      actionAllows p author role (actionsForMessageKind p store tenant record author kind) chain
        definition action = true

section

variable {p : Primitives} {store : MessageStore} {tenant : Did} {record message : Message}
  {auth : AuthorizationContext} {u : Unit}

theorem authorizeAgainstProtocol_ok_iff {kind : RecordsAuthorizationKind}
    {requestTimestamp : Option Timestamp} :
    authorizeAgainstProtocol p store tenant record auth kind requestTimestamp = .ok u ↔
      ProtocolPermits p store tenant record auth.author auth.protocolRole kind requestTimestamp := by
  simp only [authorizeAgainstProtocol, Message.writeDescriptorOr, ok_iff, authorizeActions,
    List.any_eq_true]
  constructor
  · rintro ⟨d, isWrite, timestamp, time, definition, fetched, ruleSet, atPath, resolved, role, chain,
      chained, allowed⟩
    exact ⟨d, timestamp, definition, ruleSet, chain, isWrite, time, fetched, atPath,
      verifyOptionalRole_ok_iff.mp ⟨resolved, role⟩, chained, allowed⟩
  · rintro ⟨d, timestamp, definition, ruleSet, chain, isWrite, time, fetched, atPath, role, chained,
      allowed⟩
    obtain ⟨resolved, role⟩ := verifyOptionalRole_ok_iff.mpr role
    exact ⟨d, isWrite, timestamp, time, definition, fetched, ruleSet, atPath, resolved, role, chain,
      chained, allowed⟩

def RoleRulePermits (p : Primitives) (store : MessageStore) (tenant actor : Did)
    (invokedRole : Option Reference) (id : AudienceId) (role : RoleAudienceDefinition) : Prop :=
  ∃ chain, roleParentChain store tenant id = .ok chain ∧
    ∃ action ∈ role.ruleSet.actions,
      roleActionAllows p store tenant actor invokedRole id role.definition chain action = true

def MayCreateRole (p : Primitives) (store : MessageStore) (tenant : Did) (actor : ControlActor)
    (invokedRole : Option Reference) (id : AudienceId) (role : RoleAudienceDefinition) : Prop :=
  actor.did = tenant ∨
    (∃ grant, actor.grant = some grant ∧ grantCoversRoleCreate grant.scope id = true) ∨
    RoleRulePermits p store tenant actor.did invokedRole id role

theorem actorCanCreateRole_ok_iff {actor : ControlActor} {id : AudienceId}
    {role : RoleAudienceDefinition} :
    actorCanCreateRole p store tenant actor id role auth = .ok true ↔
      MayCreateRole p store tenant actor auth.protocolRole id role := by
  unfold actorCanCreateRole MayCreateRole RoleRulePermits
  split
  · rename_i isTenant
    simp [isTenant]
  · rename_i notTenant
    split
    · rename_i covered
      have covers : ∃ grant, actor.grant = some grant ∧
          grantCoversRoleCreate grant.scope id = true := by
        simpa [Option.any_eq_true] using covered
      simp [covers]
    · rename_i uncovered
      have covers : ¬ ∃ grant, actor.grant = some grant ∧
          grantCoversRoleCreate grant.scope id = true := by
        simpa [Option.any_eq_true] using uncovered
      simp only [ok_iff, List.any_eq_true, notTenant, covers, false_or]

def NamesRole (store : MessageStore) (tenant : Did) (message : Message) (kind : ControlKind)
    (id : AudienceId) (role : RoleAudienceDefinition) : Prop :=
  ∃ d, message.writeDescriptor = some d ∧ AudienceId.fromMessage message kind = .ok id ∧
    resolveRoleAudienceDefinition store tenant id d.messageTimestamp = .ok role

theorem authorizeControlWrite_ok_iff {kind : ControlKind} :
    authorizeControlWrite p store tenant message kind auth = .ok u ↔
      ∃ id role actor, NamesRole store tenant message kind id role ∧
        resolveControlActor p store tenant message auth = .ok actor ∧
        MayCreateRole p store tenant actor auth.protocolRole id role := by
  simp only [authorizeControlWrite, ok_iff, NamesRole]
  constructor
  · rintro ⟨d, isWrite, id, tagged, role, resolved, actor, acts, allowed, may, rfl⟩
    exact ⟨id, role, actor, ⟨d, isWrite, tagged, resolved⟩, acts, actorCanCreateRole_ok_iff.mp may⟩
  · rintro ⟨id, role, actor, ⟨d, isWrite, tagged, resolved⟩, acts, may⟩
    exact ⟨d, isWrite, id, tagged, role, resolved, actor, acts, true,
      actorCanCreateRole_ok_iff.mpr may, rfl⟩

end

end Enbox.Proof.Authority
