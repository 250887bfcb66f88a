import Enbox.Lib.Outcome
import Enbox.Permission.Scope

/-!
# Signatures and the identities they establish

The signer of a JWS is derived twice in the code, from the DID URL and from the unverified `kid`.
Decoders, hashes, signature verification and DID-URL parsing are fields of `Primitives`.
-/

namespace Enbox

open Lib

structure ProtectedHeader where
  kid : Option String := none
  alg : Option String := none
  deriving DecidableEq

structure AuthorizationPayloadData where
  descriptorCid : Cid
  delegatedGrantId : Option Cid := none
  permissionGrantId : Option String := none
  permissionGrantIds : Option (List String) := none
  protocolRole : Option Reference := none
  deriving DecidableEq

structure RecordsWriteAuthorizationPayloadData where
  descriptorCid : Cid
  recordId : String
  contextId : Path
  attestationCid : Option Cid := none
  encryptionCid : Option Cid := none
  permissionGrantId : Option String := none
  delegatedGrantId : Option Cid := none
  protocolRole : Option Reference := none
  deriving DecidableEq

structure VerificationMethod where
  id : String
  publicKeyJwk : Option Jwk := none
  deriving DecidableEq

structure Document where
  id : Did
  verificationMethod : List VerificationMethod
  deriving DecidableEq

structure DidResolver where
  resolve : Did → Option Document
  resolveStaticKid : String → Option Jwk := fun _ => none

inductive JwsError
  | missingKid
  | missingAlg
  | missingPayload
  | missingSignatures
  | missingProtected
  | missingSignature
  | base64Url (label : String)
  | parse
  | publicKeyNotFound (kid : String)
  | resolutionFailed (did : Did)
  | invalidSignature
  | unsupported
  deriving DecidableEq

/-- The functions the code takes from other crates. -/
structure Primitives where
  base64Url : String → Option Bytes
  base64UrlText : Bytes → String
  -- `serde_json::from_slice` at the two payload types, at the protected header and at the data of
  -- the three kinds of permission records.
  authorizationPayload : Bytes → Option AuthorizationPayloadData
  recordsWritePayload : Bytes → Option RecordsWriteAuthorizationPayloadData
  protectedHeader : Bytes → Option ProtectedHeader
  requestData : Bytes → Option PermissionRequestData
  grantData : Bytes → Option PermissionGrantData
  revocationData : Bytes → Option Unit
  -- The two encryption payloads, with the JSON Schema checks that go with them; an envelope that is
  -- not JSON has no verdict.
  audiencePayload : Bytes → Option AudiencePayload
  wrappedGrantKeyEnvelope : Bytes → Option Bool
  -- `ssi_jws::verify_bytes` with the algorithm checks around it: algorithm name, signing input,
  -- signature, key.
  verifyBytes : String → String → Bytes → Jwk → Except JwsError Bool
  -- The DID of a DID URL, `none` when the text is not a DID URL.
  didOfUrl : String → Option Did
  cid : CidInput → Cid
  dataCid : Bytes → Cid
  thumbprint : Jwk → Option String
  validPublicKey : Jwk → Bool
  -- The text of a parsed URL without its query and fragment.
  urlText : String → Option String

structure Primitives.CollisionFree (p : Primitives) : Prop where
  cid : Function.Injective p.cid
  dataCid : Function.Injective p.dataCid

namespace Primitives

variable (p : Primitives)

def messageCid (m : Message) : Cid := p.cid (.message m.withoutEncodedData)

def descriptorCid (d : Descriptor) : Cid := p.cid (.descriptor d)

def entryId (author : Did) (d : WriteDescriptor) : Cid := p.cid (.entry author d)

def isInitialWrite (m : Message) (author : Did) : Bool :=
  match m.writeDescriptor, m.recordId with
  | some d, some recordId => p.entryId author d = recordId
  | _, _ => false

end Primitives

def beforeHash (kid : String) : String := String.ofList (kid.toList.takeWhile (· ≠ '#'))

def startsWithDid (kid : String) : Bool := "did:".toList.isPrefixOf kid.toList

def endsWithText (kid id : String) : Bool := id.toList.isSuffixOf kid.toList

namespace Jws

variable (p : Primitives)

def kid (jws : Jws) : Option String := do
  let header ← (← jws.signatures).head?.bind (·.protectedHeader)
  (← p.protectedHeader (← p.base64Url header)).kid

def resolveSigningKey (resolver : DidResolver) (kid : String) : Except JwsError Jwk :=
  if startsWithDid kid then do
    let did ← okOr (.resolutionFailed (beforeHash kid)) (p.didOfUrl kid)
    let document ← okOr (.resolutionFailed did) (resolver.resolve did)
    ensure (document.id = did) (.resolutionFailed did)
    okOr (.publicKeyNotFound kid)
      ((document.verificationMethod.find? fun method => endsWithText kid method.id).bind
        (·.publicKeyJwk))
  else
    okOr (.publicKeyNotFound kid) (resolver.resolveStaticKid kid)

def extractDid (kid : String) : Did := (p.didOfUrl kid).getD kid

def verifySignature (resolver : DidResolver) (payload : String) (signature : JwsSignature) :
    Except JwsError Did := do
  let header ← okOr .missingProtected signature.protectedHeader
  let encoded ← okOr .missingSignature signature.signature
  let headerBytes ← okOr (.base64Url "protected header") (p.base64Url header)
  let protectedHeader ← okOr .parse (p.protectedHeader headerBytes)
  let algorithm ← okOr .missingAlg protectedHeader.alg
  let signatureBytes ← okOr (.base64Url "signature") (p.base64Url encoded)
  let kid ← okOr .missingKid protectedHeader.kid
  let key ← resolveSigningKey p resolver kid
  let valid ← p.verifyBytes algorithm (header ++ "." ++ payload) signatureBytes key
  ensure valid .invalidSignature
  return extractDid p kid

def verifySignatures (resolver : DidResolver) (jws : Jws) : Except JwsError (List Did) := do
  let payload ← okOr .missingPayload jws.payload
  let signatures ← okOr .missingSignatures jws.signatures
  signatures.mapM (verifySignature p resolver payload)

end Jws

end Enbox
