import Enbox.Store.MessageStore

/-! # Looking up protocol definitions -/

namespace Enbox

open Lib

def recordsInterface : String := "Records"
def writeMethod : String := "Write"
def deleteMethod : String := "Delete"
def protocolsInterface : String := "Protocols"
def configureMethod : String := "Configure"

def encryptionProtocolUri : String := "https://identity.foundation/dwn/protocols/encryption"
def grantKeyPath : Path := ["grantKey"]
def wrappedGrantKeyPath : Path := ["wrappedGrantKey"]

def permissionsProtocolDefinition : Definition where
  protocol := permissionsProtocolUri
  published := true
  types := [
    ("request", { dataFormats := some ["application/json"] }),
    ("grant", { dataFormats := some ["application/json"] }),
    ("revocation", { dataFormats := some ["application/json"] })]
  structure_ := [
    ("request",
      { immutable := some true
        size := some { max := some 10000 }
        actions := [.who .anyone none [.create]] }),
    ("grant",
      { immutable := some true
        size := some { max := some 10000 }
        actions := [.who .recipient (some (.plain ["grant"])) [.read]]
        rules := [
          ("revocation",
            { immutable := some true
              size := some { max := some 10000 }
              actions := [.who .anyone none [.read]] })] })]

def deliveryTagRules : Tags where
  requiredTags := ["grantId", "protocol", "keyId"]
  allowUndefinedTags := some false
  tags := [
    ("grantId", { tagType := "string" }),
    ("keyId", { tagType := "string", minLength := some 43, maxLength := some 43 }),
    ("protocol", { tagType := "string" }),
    ("protocolPath", { tagType := "string" })]

def deliveryRuleSet (path : Path) : RuleSet where
  immutable := some true
  tags := some deliveryTagRules
  actions := [.who .anyone none [.create], .who .recipient (some (.plain path)) [.read]]

def encryptionProtocolDefinition : Definition where
  protocol := encryptionProtocolUri
  published := true
  types := [
    ("grantKey",
      { schema := some "https://identity.foundation/dwn/json-schemas/encryption/grant-key.json"
        dataFormats := some ["application/json"]
        encryptionRequired := some true }),
    ("wrappedGrantKey",
      { schema := some
          "https://identity.foundation/dwn/json-schemas/encryption/wrapped-grant-key-envelope.json"
        dataFormats := some ["application/json"] })]
  structure_ := [
    ("grantKey", deliveryRuleSet grantKeyPath),
    ("wrappedGrantKey", deliveryRuleSet wrappedGrantKeyPath)]

/-- `CoreProtocolRegistry::get_definition` of the registry that holds all core protocols. -/
def coreDefinition (uri : String) : Option Definition :=
  if uri = permissionsProtocolUri then some permissionsProtocolDefinition
  else if uri = encryptionProtocolUri then some encryptionProtocolDefinition
  else none

def Message.configureDescriptor (m : Message) : Option ConfigureDescriptor :=
  match m.descriptor with
  | .protocolsConfigure d => some d
  | _ => none

theorem Message.configureDescriptor_eq_some {m : Message} {d : ConfigureDescriptor} :
    m.configureDescriptor = some d ↔ m.descriptor = .protocolsConfigure d := by
  unfold configureDescriptor
  split <;> simp_all

def protocolDefinitionHistoryFilters (protocol : String) : FilterSet :=
  [(.interface, stringFilter protocolsInterface), (.method, stringFilter configureMethod),
    (.protocol, stringFilter protocol)]

def protocolConfigureFilters (protocol : String) (latestOnly : Bool) : FilterSet :=
  protocolDefinitionHistoryFilters protocol ++
    if latestOnly then [(.isLatestBaseState, boolFilter true)] else []

def latestConfigureFilters : FilterSet :=
  [(.interface, stringFilter protocolsInterface), (.method, stringFilter configureMethod),
    (.isLatestBaseState, boolFilter true)]

def protocolDefinitionLookupFilters (protocol : String) (messageTimestamp : Option Timestamp) :
    FilterSet :=
  protocolDefinitionHistoryFilters protocol ++
    match messageTimestamp with
    | some timestamp => [(.messageTimestamp, .range .unbounded (.included (.dateTime timestamp)))]
    | none => [(.isLatestBaseState, boolFilter true)]

inductive ProtocolDefinitionLookupError
  | notFound (protocol : String)
  | invalidMessage
  deriving DecidableEq

def ProtocolDefinitionLookupError.text : ProtocolDefinitionLookupError → String
  | notFound protocol =>
      "ProtocolAuthorizationProtocolNotFound: unable to find protocol definition for " ++ protocol
  | invalidMessage => "expected ProtocolsConfigure message"

def governingConfiguration (store : MessageStore) (tenant : Did) (protocol : String)
    (messageTimestamp : Option Timestamp) : Option Message :=
  match store.first tenant [protocolDefinitionLookupFilters protocol messageTimestamp]
      (.timestamp .descending) with
  | some message => some message
  | none =>
      if messageTimestamp.isSome then
        store.first tenant [protocolDefinitionHistoryFilters protocol] (.timestamp .ascending)
      else none

def fetchProtocolDefinition (store : MessageStore) (tenant : Did) (protocol : String)
    (messageTimestamp : Option Timestamp) : Except ProtocolDefinitionLookupError Definition :=
  match coreDefinition protocol with
  | some definition => .ok definition
  | none => do
      let message ← okOr (.notFound protocol)
        (governingConfiguration store tenant protocol messageTimestamp)
      let descriptor ← okOr .invalidMessage message.configureDescriptor
      return descriptor.definition

end Enbox
