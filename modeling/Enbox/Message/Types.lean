import Mathlib.Algebra.Group.Int.Defs
import Mathlib.Algebra.Group.Nat.Defs
import Mathlib.Data.List.Basic

/-!
# Values, filters and signatures on the wire

The leaf types of a DWN message. Paths (`protocolPath`, `contextId`) are the list of their
`/`-separated segments: splitting at `/` and joining with `/` are inverse, so every string is one
such list, `starts_with("p/")` is "has `p` as a proper prefix", and `""` is the list `[""]`.
Timestamps are microseconds, the resolution `canonical_rfc3339` writes.
-/

namespace Enbox

abbrev Did := String
abbrev Cid := String
abbrev Bytes := List UInt8
abbrev Timestamp := Nat
abbrev Path := List String

def pathText (path : Path) : String := "/".intercalate path

def splitPath (text : String) : Path := (segments text.toList).map String.ofList
where
  segments : List Char → List (List Char)
    | [] => [[]]
    | c :: rest =>
      match segments rest with
      | [] => [[c]]
      | first :: others => if c = '/' then [] :: first :: others else (c :: first) :: others

/-- `a == p || a.starts_with("p/")`. -/
def underPath (root path : Path) : Bool := root.isPrefixOf path

/-- Index values. A `Cid` is the text it prints. -/
inductive Scalar
  | null
  | bool (b : Bool)
  | string (s : String)
  | number (n : Int)
  | cid (text : Cid)
  | dateTime (t : Timestamp)
  | path (p : Path)
  deriving DecidableEq

inductive Value
  | scalar (s : Scalar)
  | array (items : List Scalar)
  deriving DecidableEq

namespace Value

abbrev bool (b : Bool) : Value := .scalar (.bool b)
abbrev string (s : String) : Value := .scalar (.string s)
abbrev number (n : Int) : Value := .scalar (.number n)
abbrev dateTime (t : Timestamp) : Value := .scalar (.dateTime t)
abbrev path (p : Path) : Value := .scalar (.path p)

end Value

inductive Bound (α : Type)
  | unbounded
  | included (value : α)
  | excluded (value : α)
  deriving DecidableEq

/-- One clause of a filter set. The two `RangeFilter` constructors of the source are matched alike
and are one here. -/
inductive Filter
  | equal (expected : Scalar)
  | oneOf (expected : List Scalar)
  | startsWith (text : String)
  | range (lower upper : Bound Scalar)
  | subtree (root : Path)
  deriving DecidableEq

structure RangeFilter (α : Type) where
  lower : Bound α
  upper : Bound α
  deriving DecidableEq

abbrev U64 : Type := Fin (2 ^ 64)

structure RecordsFilter where
  author : Option (List Did) := none
  attester : Option Did := none
  recipient : Option (List Did) := none
  protocol : Option String := none
  protocolPath : Option Path := none
  published : Option Bool := none
  contextId : Option Path := none
  schema : Option String := none
  tags : Option (List (String × Filter)) := none
  recordId : Option String := none
  parentId : Option String := none
  dataFormat : Option String := none
  dataSize : Option (RangeFilter U64) := none
  dataCid : Option Cid := none
  dateCreated : Option (RangeFilter Scalar) := none
  datePublished : Option (RangeFilter Scalar) := none
  dateUpdated : Option (RangeFilter Scalar) := none
  deriving DecidableEq

structure MessagesFilter where
  interface : Option String := none
  method : Option String := none
  protocol : Option String := none
  protocolPath : Option Path := none
  protocolPathPrefix : Option Path := none
  contextIdPrefix : Option Path := none
  messageTimestamp : Option (RangeFilter Scalar) := none
  deriving DecidableEq

structure Cursor where
  cursor : Cid
  value : Option Value := none
  deriving DecidableEq

structure Pagination where
  cursor : Option Cursor := none
  limit : Option Nat := none
  deriving DecidableEq

structure ProgressToken where
  streamId : String
  epoch : String
  position : String
  messageCid : Option String := none
  deriving DecidableEq

inductive DateSort
  | createdAscending
  | createdDescending
  | publishedAscending
  | publishedDescending
  | updatedAscending
  | updatedDescending
  deriving DecidableEq

structure JwsSignature where
  protectedHeader : Option String := none
  signature : Option String := none
  deriving DecidableEq

structure Jws where
  payload : Option String := none
  signatures : Option (List JwsSignature) := none
  deriving DecidableEq

abbrev Jwk := String

/-- One `keyEncryption` entry; both schemes use the one key-agreement algorithm there is. -/
inductive KeyEncryption
  | protocolPath (keyId : String) (ephemeralPublicKey : Jwk) (encryptedKey : String)
  | roleAudience (keyId : String) (ephemeralPublicKey : Jwk) (encryptedKey : String)
      (protocol : String) (rolePath : Path)
  deriving DecidableEq

def KeyEncryption.keyId : KeyEncryption → String
  | .protocolPath keyId _ _ => keyId
  | .roleAudience keyId _ _ _ _ => keyId

def KeyEncryption.ephemeralPublicKey : KeyEncryption → Jwk
  | .protocolPath _ key _ => key
  | .roleAudience _ key _ _ _ => key

/-- The payload of an audience record; of the sealed private key only its key id is read. -/
structure AudiencePayload where
  protocol : String
  rolePath : String
  contextId : String
  keyId : String
  publicKeyJwk : Jwk
  sealKeyId : String
  deriving DecidableEq

structure EncryptionEnvelope where
  initializationVector : String
  keyEncryption : List KeyEncryption
  deriving DecidableEq

end Enbox
