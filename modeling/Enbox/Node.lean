import Enbox.Protocols.Configure
import Enbox.Records.Delete

/-!
# The node

Requests are taken one at a time. Those that only read are modelled with their authorization.
-/

namespace Enbox

open Lib

def schemaFailure (property : String) : Failure := .dwn .schemaValidatorFailure property

/-- `^[a-zA-Z0-9]+(/[a-zA-Z0-9]+)*$`, at most 600 characters. -/
def isContextId (context : Path) : Bool :=
  context ≠ [] && context.all (fun segment => segment ≠ "" && segment.toList.all Char.isAlphanum) &&
    (pathText context).length ≤ 600

/-- A control path, or `^[a-zA-Z]+(/[a-zA-Z]+)*$`. -/
def isProtocolPath (path : Path) : Bool :=
  (ControlKind.fromProtocolPath path).isSome ||
    path ≠ [] && path.all fun segment => segment ≠ "" && segment.toList.all Char.isAlpha

def isKeyId (keyId : String) : Bool :=
  keyId.toList.length = keyIdLength && keyId.toList.all isKeyIdChar

def admitRecordsWrite (message : Message) (descriptor : WriteDescriptor) : Except Failure Unit := do
  ensure message.recordId.isSome (schemaFailure "recordId")
  ensure (message.contextId.any isContextId) (schemaFailure "contextId")
  ensure message.fields.encodedData.isNone (schemaFailure "encodedData")
  ensure (isProtocolPath descriptor.protocolPath) (schemaFailure "protocolPath")
  ensure (descriptor.squash ≠ some false) (schemaFailure "squash")
  ensure (descriptor.published = some true ↔ descriptor.datePublished.isSome)
    (schemaFailure "datePublished")
  ensure (∀ tags ∈ descriptor.tags, 1 ≤ tags.length ∧ tags.length ≤ 10) (schemaFailure "tags")
  ensure (∀ envelope ∈ message.fields.encryption, envelope.keyEncryption ≠ [] ∧
      envelope.keyEncryption.all fun entry => isKeyId entry.keyId)
    (schemaFailure "encryption")

def admitBareFields (fields : Fields) : Except Failure Unit :=
  ensure (fields.recordId = none ∧ fields.contextId = none ∧ fields.encryption = none ∧
      fields.attestation = none ∧ fields.encodedData = none ∧
      fields.authorization.ownerSignature = none ∧ fields.authorization.ownerDelegatedGrant.isNone)
    (schemaFailure "unevaluatedProperties")

def isPropertyName (name : String) : Bool := name ≠ "" && !startsWithDollar name

def schemaAction : Action → Bool
  | .who _ _ can => can ≠ [] && .subscribe ∉ can && .query ∉ can
  | .role _ can => can ≠ [] && .subscribe ∉ can && .query ∉ can

def admitRuleSet (path : Path) (ruleSet : RuleSet) : Except Failure Unit := do
  ensure (isPropertyName (lastSegment path)) (schemaFailure "structure")
  ensure (ruleSet.actions.all schemaAction) (schemaFailure "$actions")
  ensure (ruleSet.squash ≠ some false) (schemaFailure "$squash")

def admitProtocolsConfigure (message : Message) (definition : Definition) :
    Except Failure Unit := do
  validateReservedControlNamespace definition
  admitBareFields message.fields
  ensure (definition.types.all fun entry => isPropertyName entry.1) (schemaFailure "types")
  ensure (definition.uses ≠ some []) (schemaFailure "uses")
  walkRules admitRuleSet [] definition.structure_

/-- `messages-filter.json`. -/
def admitMessagesFilter (filter : MessagesFilter) : Except Failure Unit := do
  ensure (filter ≠ {}) (schemaFailure "minProperties")
  ensure (filter.protocolPath = none) (schemaFailure "additionalProperties")
  ensure (∀ name ∈ filter.interface, name ∈ ["Messages", "Protocols", "Records"])
    (schemaFailure "interface")
  ensure (∀ name ∈ filter.method, name ∈ ["Configure", "Delete", "Write"]) (schemaFailure "method")

/-- `admit_message`, for the kinds that change the stores and for the filters of messages. -/
def admitMessage (message : Message) : Except Failure Unit :=
  match message.descriptor with
  | .recordsWrite descriptor => admitRecordsWrite message descriptor
  | .recordsDelete _ => admitBareFields message.fields
  | .protocolsConfigure descriptor => admitProtocolsConfigure message descriptor.definition
  | .messagesQuery descriptor => descriptor.filters.forM admitMessagesFilter
  | .messagesSubscribe descriptor => descriptor.filters.forM admitMessagesFilter
  | _ => .ok ()

structure Request where
  tenant : Did
  message : Message
  data : Option Bytes := none
  resolver : Option DidResolver := none

section

variable (p : Primitives)

/-- `Dwn::process_message_with_data`. -/
def processMessage (stores : Stores) (request : Request) : Status × Stores :=
  match admitMessage request.message with
  | .error failure => (badRequest failure, stores)
  | .ok _ =>
    match request.message.descriptor with
    | .recordsWrite _ =>
        handleWrite p request.resolver stores request.tenant request.message request.data
    | .recordsDelete descriptor =>
        handleDelete p request.resolver stores request.tenant request.message descriptor
    | .protocolsConfigure descriptor =>
        handleConfigure p request.resolver stores request.tenant request.message descriptor
    | _ => (⟨200, none⟩, stores)

def performControlPurge (stores : Stores) (tenant : Did) (recordId : String)
    (dataCids : List Cid) : Stores :=
  dataCids.foldl (fun stores dataCid => stores.deleteData tenant recordId dataCid)
    ((fetchRecordMessages stores.messages tenant recordId).foldl
      (fun stores message => stores.deleteMessage tenant (p.messageCid message)) stores)

/-- What happens to a node. Which records are condemned to a purge is left open. -/
inductive Event
  | request (request : Request)
  | controlPurge (tenant : Did) (recordId : String) (dataCids : List Cid)

def step (stores : Stores) : Event → Stores
  | .request request => (processMessage p stores request).2
  | .controlPurge tenant recordId dataCids => performControlPurge p stores tenant recordId dataCids

end

end Enbox
