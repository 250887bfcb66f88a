import Enbox.Protocols.Validate
import Enbox.Records.Write

/-! # The ProtocolsConfigure handler -/

namespace Enbox

open Lib

variable (referenced : List (String × Definition)) (path : Path)

def configureIndexes (descriptor : ConfigureDescriptor) (author : Option Did)
    (isLatestBaseState : Bool) : Indexes :=
  [(.interface, .string protocolsInterface), (.method, .string configureMethod),
    (.messageTimestamp, .dateTime descriptor.messageTimestamp),
    (.protocol, .string descriptor.definition.protocol),
    (.published, .bool descriptor.definition.published),
    (.isLatestBaseState, .bool isLatestBaseState)] ++
  optionalIndex .author .string author ++
  optionalIndex .permissionGrantId .string descriptor.permissionGrantId

def followRef (at_ : Path) (target : Path) (definition : Definition) :
    Path → Path → List (String × RuleSet) → Except Failure Unit
  | _, [], _ => .ok ()
  | traversed, segment :: rest, current => do
      let node ← okOr (.detail ("ProtocolsConfigureInvalidRefProtocolPath: '$ref' at protocol path '" ++
        pathText at_ ++ "' references type path '" ++ pathText target ++
        "' which does not exist in protocol '" ++ definition.protocol ++ "'."))
        (current.lookup segment)
      -- A node on the way may not be a `$ref` itself.
      ensure node.reference.isNone
        (.detail ("ProtocolsConfigureInvalidRefTargetThroughRef: '$ref' at protocol path '" ++
          pathText at_ ++ "' references type path '" ++ pathText target ++ "' in protocol '" ++
          definition.protocol ++ "', but node '" ++ pathText (traversed ++ [segment]) ++
          "' is itself a '$ref'."))
      followRef at_ target definition (traversed ++ [segment]) rest node.rules

def aliasNotFound (code what usesAlias : String) (path : Path) : Failure :=
  .detail (code ++ ": " ++ what ++ "alias '" ++ usesAlias ++ "' at protocol path '" ++
    pathText path ++ "' was not found.")

def validateComposedRef (ruleSet : RuleSet) : Except Failure Unit :=
  match ruleSet.reference.bind parseCrossProtocolRef with
  | none => .ok ()
  | some (usesAlias, target) => do
      let definition ← okOr
        (aliasNotFound "ProtocolsConfigureInvalidRefAlias" "'$ref' " usesAlias path)
        (referenced.lookup usesAlias)
      followRef path target definition [] target definition.structure_

def invalidCrossRole (role : Reference) (path : Path) (detail : String) : Failure :=
  .detail ("ProtocolsConfigureInvalidCrossProtocolRole: role '" ++ role.text ++
    "' at protocol path '" ++ pathText path ++ "' " ++ detail)

def validateComposedAction :
    Action → Except Failure Unit
  | .role (.cross usesAlias target) _ => do
      let definition ← okOr
        (aliasNotFound "ProtocolsConfigureInvalidCrossProtocolRole" "" usesAlias path)
        (referenced.lookup usesAlias)
      let ruleSet ← okOr
        (invalidCrossRole (.cross usesAlias target) path
          ("does not exist in protocol '" ++ definition.protocol ++ "'."))
        (definition.ruleAt target)
      ensure (ruleSet.role = some true)
        (invalidCrossRole (.cross usesAlias target) path
          ("does not point to a valid role in protocol '" ++ definition.protocol ++ "'."))
      ensure (¬ definition.typeEncrypted (lastSegment target))
        (.detail ("ProtocolsConfigureInvalidEncryptedRoleType: cross-protocol role '" ++
          (Reference.cross usesAlias target).text ++ "' at protocol path '" ++ pathText path ++
          "' resolves to encrypted type '" ++ lastSegment target ++ "' in protocol '" ++
          definition.protocol ++ "'; role records cannot be encrypted."))
  | .who _ (some (.cross usesAlias target)) _ => do
      let definition ← okOr
        (aliasNotFound "ProtocolsConfigureInvalidCrossProtocolOf" "" usesAlias path)
        (referenced.lookup usesAlias)
      ensure (definition.ruleAt target).isSome
        (.detail ("ProtocolsConfigureInvalidCrossProtocolOf: reference '" ++
          (Reference.cross usesAlias target).text ++ "' at protocol path '" ++ pathText path ++
          "' does not point to a valid type path in protocol '" ++ definition.protocol ++ "'."))
  | _ => .ok ()

def validateComposedRuleSet (ruleSet : RuleSet) : Except Failure Unit := do
  validateComposedRef referenced path ruleSet
  ruleSet.actions.forM (validateComposedAction referenced path)

def validateRefsAndRoles (definition : Definition) (referenced : List (String × Definition)) :
    Except Failure Unit :=
  walkRules (validateComposedRuleSet referenced) [] definition.structure_

section

variable (p : Primitives) (store : MessageStore) (tenant : Did)

variable (incoming : Definition)

def fetchComposed (use : String × String) : Except Failure (String × Definition) := do
  let definition ← (fetchProtocolDefinition store tenant use.2 none).mapError fun
    | .notFound _ => .detail ("ProtocolsConfigureComposedProtocolNotInstalled: composed protocol '" ++
        use.2 ++ "' (alias '" ++ use.1 ++ "') is not installed for tenant '" ++ tenant ++ "'.")
    | error => .detail error.text
  return (use.1, definition)

def validateCompositionDependencies (definition : Definition) : Except Failure Unit :=
  match definition.uses with
  | none => .ok ()
  | some uses => do
      let referenced ← uses.mapM (fetchComposed store tenant)
      validateRefsAndRoles definition referenced

def protocolWrites (protocol : String) : List Message :=
  store.query tenant
    [[(.interface, stringFilter recordsInterface), (.method, stringFilter writeMethod),
      (.protocol, stringFilter protocol)]]

def effectiveIncomingPolicy (timestamp : Timestamp) (path : Path) : Except Failure Bool :=
  -- A `$ref` position is looked up under the last segment of the referenced path.
  match incoming.refPosition path with
  | none => .ok (incoming.typeEncrypted (lastSegment path))
  | some (usesAlias, target) => do
      let uri ← okOr
        (.detail ("ProtocolsConfigureInvalidRefAlias: '$ref' alias '" ++ usesAlias ++
          "' at protocol path '" ++ pathText path ++ "' does not exist in the 'uses' map."))
        (incoming.uses.bind (·.lookup usesAlias))
      let referenced ← (fetchProtocolDefinition store tenant uri (some timestamp)).mapError printLookup
      return referenced.typeEncrypted (lastSegment target)

def validateRecordRepresentation (timestamp : Timestamp)
    (record : Message) : Except Failure Unit := do
  let descriptor ← okOr (.internal "RecordsWriteDescriptorExpected: message is not RecordsWrite")
    record.writeDescriptor
  if (ControlKind.fromProtocolPath descriptor.protocolPath).isSome ∨
      (incoming.ruleAt descriptor.protocolPath).isNone then .ok ()
  else do
    let required ← effectiveIncomingPolicy store tenant incoming timestamp descriptor.protocolPath
    ensure (record.fields.encryption.isSome = required)
      (.detail ("ProtocolsConfigureEncryptionPolicyImmutable: cannot change encryption policy for protocol path '" ++
        pathText descriptor.protocolPath ++
        "' after records exist; install the changed definition under a new protocol URI."))

def importedPolicies (incoming composing : Definition) : List (Path × Bool) :=
  composing.structure_.filterMap fun (root, ruleSet) =>
    (ruleSet.reference.bind parseCrossProtocolRef).bind fun (usesAlias, target) =>
      if (composing.uses.bind (·.lookup usesAlias)) = some incoming.protocol then
        some ([root], incoming.typeEncrypted (lastSegment target))
      else none

def validateImportedRecord (composing : Definition) (policies : List (Path × Bool))
    (record : Message) : Except Failure Unit := do
  let descriptor ← okOr (.internal "RecordsWriteDescriptorExpected: message is not RecordsWrite")
    record.writeDescriptor
  ensure (∀ required ∈ policies.lookup descriptor.protocolPath,
      record.fields.encryption.isSome = required)
    (.detail ("ProtocolsConfigureEncryptionPolicyImmutable: cannot change encryption policy for protocol path '" ++
      pathText descriptor.protocolPath ++ "' imported by protocol '" ++ composing.protocol ++
      "' after records exist; install the changed definition under a new protocol URI."))

def validateComposing (configuration : Message) : Except Failure Unit := do
  let descriptor ← okOr (.internal "expected ProtocolsConfigure message")
    configuration.configureDescriptor
  if importedPolicies incoming descriptor.definition = [] then .ok ()
  else
    (protocolWrites store tenant descriptor.definition.protocol).forM
      (validateImportedRecord descriptor.definition
        (importedPolicies incoming descriptor.definition))

def validateEncryptionPolicyImmutable (timestamp : Timestamp)
    (existing : List Message) : Except Failure Unit :=
  if existing = [] then .ok ()
  else do
    (protocolWrites store tenant incoming.protocol).forM
      (validateRecordRepresentation store tenant incoming timestamp)
    (store.query tenant [latestConfigureFilters]).forM (validateComposing store tenant incoming)

def compareConfigureMessages (left right : Message) : Ordering :=
  (compare ((left.configureDescriptor.map (·.messageTimestamp)).getD 0)
    ((right.configureDescriptor.map (·.messageTimestamp)).getD 0)).then
    (compareText (p.messageCid left) (p.messageCid right))

def reindexConfigure (incomingIsLatest : Bool) (latestExisting : Option Cid) (message : Message) :
    Except Failure LatestStateMutation := do
  let descriptor ← okOr (.detail "expected ProtocolsConfigure message") message.configureDescriptor
  return ⟨message, configureIndexes descriptor (messageAuthor p message)
    (!incomingIsLatest && latestExisting = some (p.messageCid message))⟩

def incomingIsLatest (incoming : Message) (existing : List Message) : Bool :=
  existing.all fun message => compareConfigureMessages p incoming message = .gt

def planConfigureTransition (incoming : Message) (author : Did) (existing : List Message) :
    Except Failure LatestStateTransition := do
  let descriptor ← okOr (.detail "expected ProtocolsConfigure message") incoming.configureDescriptor
  let retains ← existing.mapM (reindexConfigure p (incomingIsLatest p incoming existing)
    ((maxBy (compareConfigureMessages p) existing).map p.messageCid))
  return {
    put := ⟨incoming, configureIndexes descriptor (some author)
      (incomingIsLatest p incoming existing)⟩
    retains }

def commitConfigure (resolver : Option DidResolver) (message : Message)
    (descriptor : ConfigureDescriptor) : Except Status MessageStore := do
  let auth ← requireSignature p resolver
    "ProtocolsConfigureAuthorizationFailed: message failed authorization" message
  ensure (p.messageCid message ∉
      (store.query tenant [protocolConfigureFilters descriptor.definition.protocol false]).map
        p.messageCid) conflict
  replying (always 401) ((authorizeProtocolsConfigure p store tenant message auth).mapError
    .permission)
  replying (always 400) (validateDefinition p descriptor.definition)
  replying (always 400) (validateCompositionDependencies store tenant descriptor.definition)
  replying validationStatus (validateEncryptionPolicyImmutable store tenant descriptor.definition
    descriptor.messageTimestamp
    (store.query tenant [protocolConfigureFilters descriptor.definition.protocol false]))
  let transition ← replying (always 400) (planConfigureTransition p message auth.author
    (store.query tenant [protocolConfigureFilters descriptor.definition.protocol false]))
  replying (always 500) (store.commitLatestState p tenant transition)

/-- `ProtocolsConfigureHandler::handle` of a handler without a repairer. -/
def handleConfigure (resolver : Option DidResolver) (stores : Stores) (tenant : Did)
    (message : Message) (descriptor : ConfigureDescriptor) : Status × Stores :=
  match commitConfigure p stores.messages tenant resolver message descriptor with
  | .error status => (status, stores)
  | .ok messages => (accepted, { stores with messages })

end

end Enbox
