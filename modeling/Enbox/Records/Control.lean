import Enbox.Permission.Coverage
import Enbox.Records.Authorize

/-!
# Encryption-control records

No rule set governs audiences and deliveries of role keys: they are admitted on a fixed contract.
-/

namespace Enbox

open Lib

inductive ControlKind
  | audience
  | delivery
  deriving DecidableEq

namespace ControlKind

def protocolPath : ControlKind → Path
  | audience => ["$encryption", "audience"]
  | delivery => ["$encryption", "delivery"]

def fromProtocolPath (path : Path) : Option ControlKind :=
  if path = audience.protocolPath then some audience
  else if path = delivery.protocolPath then some delivery
  else none

def of (message : Message) : Option ControlKind :=
  message.writeDescriptor.bind fun d => fromProtocolPath d.protocolPath

def missingTagCode : ControlKind → DwnErrorCode
  | audience => .encryptionControlValidateAudienceMissingRequiredTag
  | delivery => .encryptionControlValidateDeliveryMissingRequiredTag

def tagsMismatchCode : ControlKind → DwnErrorCode
  | audience => .encryptionControlValidateAudienceTagsMismatch
  | delivery => .encryptionControlValidateDeliveryTagsMismatch

end ControlKind

def unexpected (detail : String) : Failure :=
  .dwn .encryptionControlValidateUnexpectedRecord detail

structure AudienceScope where
  protocol : String
  rolePath : String
  contextId : String
  deriving DecidableEq

structure AudienceId where
  scope : AudienceScope
  keyId : String
  deriving DecidableEq

def requiredStringTag (message : Message) (tag : String) (kind : ControlKind) :
    Except Failure String :=
  match (message.writeDescriptor.bind (·.tags)).bind (·.lookup tag) with
  | some (.scalar (.string value)) => .ok value
  | _ => .error (.dwn kind.missingTagCode ("control record requires a string '" ++ tag ++ "' tag"))

def AudienceId.fromMessage (message : Message) (kind : ControlKind) : Except Failure AudienceId := do
  let descriptor ← okOr
    (.dwn kind.missingTagCode "RecordsWriteDescriptorExpected: message is not RecordsWrite")
    message.writeDescriptor
  let protocol ← requiredStringTag message "protocol" kind
  let rolePath ← requiredStringTag message "rolePath" kind
  let contextId ← requiredStringTag message "contextId" kind
  let keyId ← requiredStringTag message "keyId" kind
  ensure (protocol = descriptor.protocol)
    (.dwn kind.tagsMismatchCode ("control record protocol tag '" ++ protocol ++
      "' must match descriptor protocol '" ++ descriptor.protocol ++ "'"))
  return ⟨⟨protocol, rolePath, contextId⟩, keyId⟩

namespace AudienceScope

variable (scope : AudienceScope)

def role : Path := splitPath scope.rolePath

def context : Path := splitPath scope.contextId

def roleParentDepth : Nat := scope.role.length - 1

def validateContextDepth : Except Failure Unit :=
  ensure (scope.roleParentDepth = 0 ↔ scope.contextId = "")
    (.dwn .encryptionControlValidateAudienceContextIdInvalid ("role '" ++ scope.rolePath ++
      "' is inconsistent with contextId '" ++ scope.contextId ++ "'"))

end AudienceScope

def grantCoversRole (scope : PermissionScope) (id : AudienceId) (method : RecordsScopeMethod) :
    Bool :=
  -- The target has no context, so a grant scoped to one covers no role.
  match scope with
  | .records granted _ _ =>
      granted = method && scope.matchesProtocolTarget
        { protocol := some id.scope.protocol, protocolPath := some id.scope.role }
  | _ => false

def grantCoversRoleCreate (scope : PermissionScope) (id : AudienceId) : Bool :=
  grantCoversRole scope id .write

structure RoleAudienceDefinition where
  definition : Definition
  ruleSet : RuleSet
  deriving DecidableEq

structure ControlActor where
  did : Did
  grant : Option PermissionGrant
  deriving DecidableEq

section

variable (p : Primitives) (store : MessageStore) (tenant : Did)

variable (id : AudienceId) (message : Message) (auth : AuthorizationContext)

def resolveRoleAudienceDefinition (timestamp : Timestamp) :
    Except Failure RoleAudienceDefinition := do
  id.scope.validateContextDepth
  let definition ← (fetchProtocolDefinition store tenant id.scope.protocol
    (some timestamp)).mapError fun
      | .notFound uri => .dwn .protocolAuthorizationProtocolNotFound
          ("unable to find protocol definition for " ++ uri)
      | error => .detail error.text
  let ruleSet ← okOr
    (.dwn .encryptionControlValidateAudienceRolePathInvalid ("role audience path '" ++
      id.scope.rolePath ++ "' must be a role path with $keyAgreement"))
    ((definition.ruleAt id.scope.role).filter fun ruleSet =>
      ruleSet.role = some true && ruleSet.keyAgreement.isSome)
  return ⟨definition, ruleSet⟩

def validateControlGrant (expectedGrantor expectedGrantee : Did)
    (grant : PermissionGrant) : Except GrantError Unit := do
  performBaseValidation store message expectedGrantor expectedGrantee grant
  verifyRecordsWriteConditions message grant.conditions

def resolveUndelegatedActor : Except GrantError ControlActor :=
  match auth.owner with
  | some owner =>
    match owner.delegatedGrant with
    | some grant => do
        validateControlGrant store message owner.owner owner.signer grant
        return ⟨owner.signer, some grant⟩
    | none => .ok ⟨owner.owner, none⟩
  | none =>
    match auth.permissionGrantId with
    | none => .ok ⟨auth.author, none⟩
    | some permissionGrantId => do
        let grant ← fetchGrant p store tenant permissionGrantId
        validateControlGrant store message tenant auth.author grant
        return ⟨auth.author, some grant⟩

def resolveControlActor : Except GrantError ControlActor := do
  ensure (∀ owner ∈ auth.owner, owner.owner = tenant)
    (.invalidGrant (.unauthorized ("owner is not the tenant '" ++ tenant ++ "'")))
  match auth.authorDelegatedGrant with
  | some grant => do
      validateControlGrant store message auth.author auth.signer grant
      return ⟨auth.signer, some grant⟩
  | none => resolveUndelegatedActor p store tenant message auth

def roleParentChain : Except Failure (List Message) :=
  match id.scope.context.getLast? with
  | none => .ok []
  | some parentId =>
    if parentId = "" then .ok []
    else
      match fetchNewestWrite store tenant parentId with
      -- A parent that is not retained yields no chain.
      | .error _ => .ok []
      | .ok parent => (constructRecordChain store tenant parent).mapError
          (.underCode .encryptionControlValidateUnexpectedRecord)

def invokedRoleIsHeld (actor : Did) (role : Reference) (id : AudienceId) (definition : Definition) :
    Bool :=
  (resolveRole definition id.scope.protocol role).any fun (protocol, rolePath) =>
    roleRecordExists store tenant actor protocol rolePath (some id.scope.context)

def roleActionAllows (actor : Did) (invokedRole : Option Reference) (id : AudienceId)
    (definition : Definition) (chain : List Message) : Action → Bool
  | .who who of can =>
      .create ∈ can && (who = .anyone || checkActor p actor who of chain definition)
  | .role role can =>
      .create ∈ can && invokedRole = some role &&
        invokedRoleIsHeld store tenant actor role id definition

def actorCanCreateRole (actor : ControlActor) (id : AudienceId) (role : RoleAudienceDefinition)
    (auth : AuthorizationContext) : Except Failure Bool :=
  if actor.did = tenant then .ok true
  else if actor.grant.any fun grant => grantCoversRoleCreate grant.scope id then .ok true
  else do
    let chain ← roleParentChain store tenant id
    return role.ruleSet.actions.any
      (roleActionAllows p store tenant actor.did auth.protocolRole id role.definition chain)

def authorizeControlWrite (kind : ControlKind) (auth : AuthorizationContext) :
    Except Failure Unit := do
  let descriptor ← okOr
    (unexpected "RecordsWriteDescriptorExpected: message is not RecordsWrite")
    message.writeDescriptor
  let id ← AudienceId.fromMessage message kind
  let role ← resolveRoleAudienceDefinition store tenant id descriptor.messageTimestamp
  let actor ← (resolveControlActor p store tenant message auth).mapError fun error =>
    .coded .encryptionControlValidateAudienceWriterUnauthorized (.permission error)
  let allowed ← actorCanCreateRole p store tenant actor id role auth
  ensure allowed (.dwn .encryptionControlValidateAudienceWriterUnauthorized
    "control records must be written by a DID authorized to create the referenced role")

end

variable (filter : RecordsFilter)

/-- For a delegated request the delegate that signed, not the author it signs for. -/
def readRequester (auth : AuthorizationContext) : Did :=
  if auth.authorDelegatedGrant.isSome then auth.signer else auth.author

def namesRecord (control : Message) : Bool :=
  filter.recordId.isSome && filter.recordId = control.recordId

def pinnedTag (tag : String) : Option String :=
  match filter.tags.bind (·.lookup tag) with
  | some (.equal (.string value)) => some value
  | _ => none

def audienceScopePinnedBy : Option AudienceScope :=
  if filter.protocolPath ≠ some ControlKind.audience.protocolPath then none
  else do
    let protocol ← pinnedTag filter "protocol"
    if filter.protocol ≠ some protocol then none
    else do
      let rolePath ← pinnedTag filter "rolePath"
      let contextId ← pinnedTag filter "contextId"
      return ⟨protocol, rolePath, contextId⟩

def filterPinsAnAudienceScope : Bool := (audienceScopePinnedBy filter).isSome

def pinsAudienceScope (id : AudienceId) : Bool :=
  audienceScopePinnedBy filter = some id.scope

def exactAudienceRequestMatches (id : AudienceId) (control : Message) : Bool :=
  namesRecord filter control || pinsAudienceScope filter id

def filterTargetsOnlyControls : Bool :=
  filter.protocolPath.any fun path => (ControlKind.fromProtocolPath path).isSome

section

variable (p : Primitives) (store : MessageStore) (tenant : Did)

variable (readMessage : Message) (auth : AuthorizationContext)

def controlReadUnauthorized (error : GrantError) : Failure :=
  .coded .encryptionControlReadUnauthorized (.permission error)

def invokedReadGrant : Except Failure (Option PermissionGrant) :=
  match auth.authorDelegatedGrant with
  | some grant => do
      (performBaseValidation store readMessage grant.grantor (readRequester auth) grant).mapError
        controlReadUnauthorized
      return some grant
  | none =>
    match auth.permissionGrantId with
    | none => .ok none
    | some permissionGrantId => do
        let grant ← (fetchGrant p store tenant permissionGrantId).mapError controlReadUnauthorized
        (performBaseValidation store readMessage tenant (readRequester auth) grant).mapError
          controlReadUnauthorized
        return some grant

def authorizeControlReadRequest : Except Failure Unit :=
  if readRequester auth = tenant then .ok ()
  else do
    let _ ← invokedReadGrant p store tenant readMessage auth
    return ()

def definitionAt (protocol : String) (timestamp : Timestamp) : Option Definition :=
  (fetchProtocolDefinition store tenant protocol (some timestamp)).toOption

def deliveryReachableByGrant (readMessage control : Message) (id : AudienceId)
    (grant : Option PermissionGrant) : Bool :=
  grant.any fun grant =>
    ((control.writeDescriptor.bind (·.recipient)).any fun recipient =>
      recipient = grant.grantor || recipient = grant.grantee) &&
    (eligibleGrantScope grant.scope).any fun scope =>
      scope.method = .read &&
        (readGrantCoversDeliveredScope scope ⟨id.scope.protocol, some id.scope.role⟩ none ||
          (definitionAt store tenant id.scope.protocol readMessage.messageTimestamp).any fun
            definition => readGrantCoversDeliveredScope scope
              ⟨id.scope.protocol, some id.scope.role⟩ (some definition))

def canEnumerateAudience (id : AudienceId) (grant : Option PermissionGrant) : Except Failure Bool :=
  if grant.any fun grant => grantCoversRole grant.scope id .read then .ok true
  else do
    let role ← resolveRoleAudienceDefinition store tenant id readMessage.messageTimestamp
    actorCanCreateRole p store tenant ⟨readRequester auth, none⟩ id role auth

def controlVisible (control : Message)
    (filter : RecordsFilter) (id : AudienceId) (grant : Option PermissionGrant) :
    ControlKind → Except Failure Bool
  | .delivery =>
      .ok ((control.writeDescriptor.bind (·.recipient)) = some (readRequester auth) ||
        messageAuthor p control = some (readRequester auth) ||
        deliveryReachableByGrant store tenant readMessage control id grant)
  | .audience =>
      if exactAudienceRequestMatches filter id control then .ok true
      else canEnumerateAudience p store tenant readMessage auth id grant

def canReadControl (control : Message)
    (filter : RecordsFilter) (kind : ControlKind) : Except Failure Bool :=
  if readRequester auth = tenant then .ok true
  else do
    let grant ← invokedReadGrant p store tenant readMessage auth
    let id ← AudienceId.fromMessage control kind
    controlVisible p store tenant readMessage auth control filter id grant kind

def canRead (signature : Option AuthorizationContext) (control : Message)
    (filter : RecordsFilter) : Except Failure Bool :=
  match ControlKind.of control, signature with
  | none, _ => .ok true
  | some _, none => .ok false
  | some kind, some auth => canReadControl p store tenant readMessage auth control filter kind

end

end Enbox
