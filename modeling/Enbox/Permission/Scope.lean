import Enbox.Message.Message

/-!
# Permission scopes and grants
-/

namespace Enbox

def permissionsProtocolUri : String := "https://identity.foundation/dwn/permissions"
def permissionsRequestPath : Path := ["request"]
def permissionsGrantPath : Path := ["grant"]
def permissionsRevocationPath : Path := ["grant", "revocation"]

inductive Selector
  | contextId (id : Path)
  | protocolPath (path : Path)
  deriving DecidableEq

inductive RecordsScopeMethod
  | read | write | delete
  deriving DecidableEq

inductive PermissionScope
  | protocols (method : ProtocolsMethod) (protocol : Option String)
  | messages (protocol : Option String) (selector : Option Selector)
  | records (method : RecordsScopeMethod) (protocol : String) (selector : Option Selector)
  deriving DecidableEq

structure ProtocolScopeTarget where
  protocol : Option String := none
  contextId : Option Path := none
  protocolPath : Option Path := none
  deriving DecidableEq

namespace PermissionScope

def isUnscoped : PermissionScope → Bool
  | messages none none => true
  | _ => false

def interface : PermissionScope → Interface
  | protocols .. => .protocols
  | messages .. => .messages
  | records .. => .records

def covers : PermissionScope → MessageKind → Bool
  -- A Messages scope covers every Messages method but the sync.
  | messages .., .messages method => method ≠ .sync
  | records .read .., .records method => method ≠ .write && method ≠ .delete
  | records .write .., .records method => method = .write
  | records .delete .., .records method => method = .delete
  | protocols method _, .protocols method' => method = method'
  | _, _ => false

def protocol : PermissionScope → Option String
  | protocols _ protocol => protocol
  | messages protocol _ => protocol
  | records _ protocol _ => some protocol

def contextId : PermissionScope → Option Path
  | messages _ (some (.contextId id)) => some id
  | records _ _ (some (.contextId id)) => some id
  | _ => none

def protocolPath : PermissionScope → Option Path
  | messages _ (some (.protocolPath path)) => some path
  | records _ _ (some (.protocolPath path)) => some path
  | _ => none

def matchesSubtree (scope : Path) (target : Option Path) : Bool :=
  target.any (underPath scope)

def matchesProtocolTarget (scope : PermissionScope) (target : ProtocolScopeTarget) : Bool :=
  (scope.protocol.isNone || scope.protocol = target.protocol)
    && (scope.contextId.all fun id => matchesSubtree id target.contextId)
    && (scope.protocolPath.all fun path => matchesSubtree path target.protocolPath)

end PermissionScope

def MessagesFilter.scopeTarget (f : MessagesFilter) : ProtocolScopeTarget where
  protocol := f.protocol
  contextId := f.contextIdPrefix
  protocolPath := f.protocolPath <|> f.protocolPathPrefix

inductive Publication
  | required
  | prohibited
  deriving DecidableEq

structure PermissionConditions where
  publication : Option Publication := none
  deriving DecidableEq

inductive ConnectSessionTransport
  | relay
  | postMessage
  deriving DecidableEq

structure ConnectSessionMetadata where
  id : String
  appName : Option String := none
  appIcon : Option String := none
  origin : Option String := none
  userAgent : Option String := none
  platform : Option String := none
  language : Option String := none
  languages : Option (List String) := none
  timezone : Option String := none
  transport : Option ConnectSessionTransport := none
  createdAt : Timestamp
  expiresAt : Timestamp
  deriving DecidableEq

structure PermissionGrantData where
  dateExpires : Timestamp
  scope : PermissionScope
  description : Option String := none
  requestId : Option String := none
  delegated : Option Bool := none
  conditions : Option PermissionConditions := none
  connectSession : Option ConnectSessionMetadata := none
  deriving DecidableEq

structure PermissionRequestData where
  delegated : Bool
  scope : PermissionScope
  description : Option String := none
  conditions : Option PermissionConditions := none
  deriving DecidableEq

@[ext]
structure PermissionGrant where
  id : String
  grantor : Did
  grantee : Did
  dateGranted : Timestamp
  dateExpires : Timestamp
  delegated : Option Bool
  scope : PermissionScope
  conditions : Option PermissionConditions
  connectSession : Option ConnectSessionMetadata
  deriving DecidableEq

end Enbox
