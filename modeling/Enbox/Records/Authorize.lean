import Enbox.Records.Basic

/-! # Protocol authorization of records requests -/

namespace Enbox

open Lib

inductive RecordsAuthorizationKind
  | write
  | read
  | query
  | count
  | delete (prune : Bool)
  | subscribe
  deriving DecidableEq

def roleAudienceContextId (rolePath : Path) (contextId : Option Path) : Option Path :=
  if rolePath.length - 1 = 0 then some []
  else contextId.bind fun context =>
    if context.length < rolePath.length - 1 ∨ "" ∈ context then none
    else some (context.take (rolePath.length - 1))

def roleRecordFilters (recipient : Did) (protocol : String) (rolePath ancestors : Path) : FilterSet :=
  [(.interface, stringFilter recordsInterface), (.method, stringFilter writeMethod),
    (.protocol, stringFilter protocol), (.protocolPath, pathFilter rolePath),
    (.recipient, stringFilter recipient), (.isLatestBaseState, boolFilter true)] ++
  if ancestors = [] then [] else [(.contextId, .subtree ancestors)]

structure ResolvedProtocolRole where
  protocol : String
  protocolPath : Path
  contextIdPrefix : Option Path
  roleRecordId : String
  deriving DecidableEq

def resolveRole (definition : Definition) (protocol : String) : Reference → Option (String × Path)
  | .plain path => some (protocol, path)
  | .cross usesAlias path => (definition.uses.bind (·.lookup usesAlias)).map (·, path)

section

variable (p : Primitives) (store : MessageStore) (tenant : Did)

variable (definition : Definition) (recordId : String) (message : Message) (author : Did)

def queryRoleRecords (recipient : Did) (protocol : String) (rolePath : Path)
    (contextId : Option Path) : Option Message :=
  (roleAudienceContextId rolePath contextId).bind fun ancestors =>
    store.first tenant [roleRecordFilters recipient protocol rolePath ancestors]

def roleRecordExists (recipient : Did) (protocol : String) (rolePath : Path)
    (contextId : Option Path) : Bool :=
  (queryRoleRecords store tenant recipient protocol rolePath contextId).isSome

def roleDefinition (roleProtocol : String) (timestamp : Timestamp) :
    Reference → Except Failure Definition
  | .plain _ => .ok definition
  | .cross _ _ =>
      (fetchProtocolDefinition store tenant roleProtocol (some timestamp)).mapError fun
        | .notFound _ => .dwn .protocolAuthorizationProtocolNotFound
            ("referenced protocol '" ++ roleProtocol ++ "' is not defined at " ++ toString timestamp)
        | error => .dwn .protocolAuthorizationNotARole error.text

def verifyInvokedRole (invokedRole : Reference) (protocol : String)
    (contextId : Option Path) (definition : Definition) (timestamp : Timestamp) :
    Except Failure ResolvedProtocolRole := do
  let (roleProtocol, rolePath) ← okOr
    (.dwn .protocolAuthorizationNotARole ("cross-protocol role alias in '" ++ invokedRole.text ++
      "' does not exist in the protocol's uses map"))
    (resolveRole definition protocol invokedRole)
  let governing ← roleDefinition store tenant definition roleProtocol timestamp invokedRole
  ensure ((governing.ruleAt rolePath).any (·.role = some true))
    (.dwn .protocolAuthorizationNotARole
      ("protocol path '" ++ invokedRole.text ++ "' does not match a role record type"))
  ensure (roleAudienceContextId rolePath contextId).isSome
    (.dwn .protocolAuthorizationMissingContextId
      ("could not verify role '" ++ invokedRole.text ++
        "' because contextId is missing or too shallow"))
  let roleRecord ← okOr
    (.dwn .protocolAuthorizationMatchingRoleRecordNotFound
      ("no matching role record found for protocol path '" ++ pathText rolePath ++ "'"))
    (queryRoleRecords store tenant author roleProtocol rolePath contextId)
  return {
    protocol := roleProtocol
    protocolPath := rolePath
    contextIdPrefix := contextId
    roleRecordId := roleRecord.recordId.getD "" }

def verifyOptionalRole (invokedRole : Option Reference) (protocol : String)
    (contextId : Option Path) (definition : Definition) (timestamp : Timestamp) :
    Except Failure (Option ResolvedProtocolRole) :=
  match invokedRole with
  | none => .ok none
  | some role => do
      let resolved ← verifyInvokedRole store tenant author role protocol contextId definition timestamp
      return some resolved

def fetchRecordMessages : List Message :=
  store.query tenant
    [[(.interface, stringFilter recordsInterface), (.recordId, stringFilter recordId)]]

def fetchNewestWrite : Except Failure Message :=
  okOr (.detail "RecordsWriteGetNewestWriteRecordNotFound: record not found")
    (store.first tenant [newestWriteFilters recordId] (.timestamp .descending))

/-- Any message indexed under the entry id; the record it belongs to is not compared. -/
def fetchInitialWriteMessage : Option Message :=
  store.first tenant [[(.entryId, stringFilter recordId)]]

def recordHasPrune : Bool :=
  (store.first tenant
    [[(.interface, stringFilter recordsInterface), (.method, stringFilter deleteMethod),
      (.recordId, stringFilter recordId), (.prune, boolFilter true)]]).isSome

def fetchParentRecord (recordId protocol : String) : Option Message :=
  if recordHasPrune store tenant recordId then none
  else (fetchInitialWriteMessage store tenant recordId).filter fun initial =>
    initial.writeDescriptor.any (·.protocol = protocol)

/-- The record and its ancestors, outermost first. The source loops without a bound; more steps than
there are rows means a cycle of parents. -/
def recordChain : Nat → Message → Except Failure (List Message)
  | 0, _ => .error .diverges
  | fuel + 1, record => do
      let descriptor ← record.writeDescriptorOr
      match descriptor.parentId with
      | none => return [record]
      | some parentId => do
          let parent ← fetchNewestWrite store tenant parentId
          let ancestors ← recordChain fuel parent
          return ancestors ++ [record]

def constructRecordChain : Except Failure (List Message) :=
  recordChain store tenant (store.length + 1) message

def governingTimestamp : Except Failure Timestamp :=
  if p.isInitialWrite message author then .ok message.messageTimestamp
  else do
    let recordId ← okOr (.detail "RecordsWriteMissingRecordId: recordId is required")
      message.recordId
    let initial ← okOr (.dwn .recordsWriteGetInitialWriteNotFound "Initial write is not found.")
      (fetchInitialWriteMessage store tenant recordId)
    return initial.messageTimestamp

def authoredInitialWrite (recordId : Option String) (author : Did) : Bool :=
  (recordId.bind (fetchInitialWriteMessage store tenant)).bind (messageAuthor p) = some author

def actionsForMessageKind : RecordsAuthorizationKind → List Can
  | .write =>
      if p.isInitialWrite message author then
        if message.writeDescriptor.bind (·.squash) = some true then [.squash, .create] else [.create]
      else if message.recordId.isNone then []
      else if authoredInitialWrite p store tenant message.recordId author then [.coUpdate, .update]
      else [.coUpdate]
  | .read | .query | .count | .subscribe => [.read]
  | .delete prune =>
      [if prune then .coPrune else .coDelete] ++
        if authoredInitialWrite p store tenant (messageRecordId message) author then
          [if prune then .prune else .delete]
        else []

def referenceMatches (d : WriteDescriptor) : Reference → Bool
  | .plain path => d.protocolPath = path
  | .cross usesAlias path =>
      (definition.uses.bind (·.lookup usesAlias)).any fun protocol =>
        d.protocol = protocol && d.protocolPath = path

def checkActor (who : Who) (of : Option Reference) (chain : List Message)
    (definition : Definition) : Bool :=
  of.any fun of => chain.any fun message =>
    message.writeDescriptor.any fun d =>
      referenceMatches definition d of &&
        match who with
        | .author => messageAuthor p message = some author
        | .recipient => d.recipient = some author
        | .anyone => true

/-- An invoked role replaces actor selection: only an `anyone` rule or the matching role rule can
authorize it. -/
def actionAllows (invokedRole : Option Reference) (actions : List Can)
    (chain : List Message) (definition : Definition) : Action → Bool
  | .who who of can =>
      can.any (· ∈ actions) &&
        match who, of with
        | .anyone, _ => true
        | .recipient, none =>
            invokedRole.isNone &&
              (chain.getLast?.bind (·.writeDescriptor)).bind (·.recipient) = some author
        | who, of => invokedRole.isNone && checkActor p author who of chain definition
  | .role role can => can.any (· ∈ actions) && invokedRole = some role

def authorizeActions (invokedRole : Option Reference) (actions : List Can)
    (ruleSet : RuleSet) (chain : List Message) (definition : Definition) : Except Failure Unit :=
  ensure (ruleSet.actions.any (actionAllows p author invokedRole actions chain definition))
    (.detail "ProtocolAuthorizationActionNotAllowed: inbound message action is not allowed")

def invalidProtocolPath (protocolPath : Path) : Failure :=
  .detail ("ProtocolAuthorizationInvalidProtocolPath: " ++ pathText protocolPath ++ " is not defined")

def printLookup : ProtocolDefinitionLookupError → Failure := fun error => .detail error.text

def evaluationTimestamp :
    Option Timestamp → Except Failure Timestamp
  | some timestamp => .ok timestamp
  | none => (governingTimestamp p store tenant message author).mapError .printed

def authorizeAgainstProtocol (auth : AuthorizationContext)
    (kind : RecordsAuthorizationKind) (requestTimestamp : Option Timestamp) :
    Except Failure Unit := do
  let descriptor ← message.writeDescriptorOr
  let timestamp ← evaluationTimestamp p store tenant message auth.author requestTimestamp
  let definition ← (fetchProtocolDefinition store tenant descriptor.protocol
    (some timestamp)).mapError printLookup
  let ruleSet ← okOr (invalidProtocolPath descriptor.protocolPath)
    (definition.ruleAt descriptor.protocolPath)
  let _ ← verifyOptionalRole store tenant auth.author auth.protocolRole descriptor.protocol
    message.contextId definition timestamp
  let chain ← constructRecordChain store tenant message
  authorizeActions p auth.author auth.protocolRole
    (actionsForMessageKind p store tenant message auth.author kind) ruleSet chain definition

def orElseUnless (decided : Except GrantError Bool) (otherwise : Except Failure Unit) :
    Except Failure Unit := do
  let granted ← decided.mapError .permission
  if granted then .ok () else otherwise

def authorizeRecordsRead (readMessage : Message) (signature : Option AuthorizationContext)
    (matched : Message) : Except Failure Unit := do
  let descriptor ← matched.writeDescriptorOr
  if signature.map (·.author) = some tenant ∨ descriptor.published = some true then .ok ()
  else
    match signature with
    | none =>
        .error (.detail "ProtocolAuthorizationActionNotAllowed: anonymous read is not authorized")
    | some auth =>
        if descriptor.recipient = some auth.author ∨ messageAuthor p matched = some auth.author then
          .ok ()
        else
          orElseUnless (authorizeRecordsReadWithGrant p store tenant readMessage matched auth)
            (authorizeAgainstProtocol p store tenant matched auth .read
              (some readMessage.messageTimestamp))

def authorizeRecordsDelete (deleteMessage : Message) (descriptor : DeleteDescriptor)
    (initialWrite : Message) (auth : AuthorizationContext) : Except Failure Unit :=
  orElseUnless (authorizeRecordsDeleteWithGrant p store tenant deleteMessage initialWrite auth)
    (if auth.author = tenant then .ok ()
    else authorizeAgainstProtocol p store tenant initialWrite auth (.delete descriptor.prune)
      (some deleteMessage.messageTimestamp))

def authorizeProtocolQueryOrSubscribe (filter : RecordsFilter) (auth : AuthorizationContext)
    (requestTimestamp : Timestamp) : Except Failure ResolvedProtocolRole := do
  let protocol ← okOr
    (.detail "ProtocolAuthorizationMissingProtocol: role-authorized query must include protocol")
    filter.protocol
  let protocolPath ← okOr
    (.detail "ProtocolAuthorizationMissingProtocolPath: role-authorized query must include protocolPath")
    filter.protocolPath
  let definition ← (fetchProtocolDefinition store tenant protocol
    (some requestTimestamp)).mapError printLookup
  let ruleSet ← okOr (invalidProtocolPath protocolPath) (definition.ruleAt protocolPath)
  let invokedRole ← okOr (.detail "protocolRole is required") auth.protocolRole
  let resolved ← verifyInvokedRole store tenant auth.author invokedRole protocol filter.contextId
    definition requestTimestamp
  ensure (ruleSet.actions.any fun
      | .role role can => role = invokedRole && .read ∈ can
      | .who who _ can => who = .anyone && .read ∈ can)
    (.detail "ProtocolAuthorizationActionNotAllowed: no action rule allows the invoked role")
  return resolved

end

end Enbox
