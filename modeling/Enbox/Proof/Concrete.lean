import Enbox.Lib.Assoc
import Enbox.Lib.Lists
import Enbox.Permission.Signature
import Mathlib.Tactic.DeriveCountable

/-! # Concrete primitives -/

namespace Enbox.Proof.Concrete

open Lib List

instance instCountableChar : Countable Char :=
  (show Function.Injective Char.toNat from fun _ _ => Char.toNat_inj.mp).countable

instance instCountableString : Countable String :=
  (show Function.Injective String.toList from fun _ _ => String.toList_inj.mp).countable

deriving instance Countable for Scalar, Value, Bound, Filter, RangeFilter, RecordsFilter,
  MessagesFilter, Cursor, Pagination, ProgressToken, DateSort, JwsSignature, Jws, KeyEncryption,
  EncryptionEnvelope, ProtocolType, Reference, Who, Can, Action, Size, ProvidedTags, Tags

deriving instance Countable for WriteDescriptor, ReadDescriptor, CountDescriptor, QueryDescriptor,
  SubscribeDescriptor, DeleteDescriptor, ProtocolsQueryFilter, ProtocolsQueryDescriptor,
  MessagesReadDescriptor, MessagesQueryDescriptor, MessagesSubscribeDescriptor, SyncAction,
  SyncDescriptor

instance : Countable RuleSet := by
  refine countable_of_parts (fun r => ((r.keyAgreement, r.actions, r.role, r.reference, r.size,
    r.tags, r.recordLimit, r.immutable, r.delivery, r.squash, r.rules.map Prod.fst),
    r.rules.map Prod.snd)) ?_ sizeOf ?_
  · rintro ⟨⟩ ⟨⟩ same
    simp only [Prod.mk.injEq] at same
    obtain ⟨⟨rfl, rfl, rfl, rfl, rfl, rfl, rfl, rfl, rfl, rfl, names⟩, ruleSets⟩ := same
    obtain rfl := (zip_of_prod names ruleSets).trans (zip_of_prod rfl rfl).symm
    rfl
  · rintro ⟨⟩ _ listed
    obtain ⟨⟨name, ruleSet⟩, isRule, rfl⟩ := mem_map.mp listed
    have smaller := sizeOf_lt_of_mem isRule
    simp only [Prod.mk.sizeOf_spec, RuleSet.mk.sizeOf_spec] at smaller ⊢
    omega

deriving instance Countable for Definition, ConfigureDescriptor, Descriptor

instance : Countable Fields := by
  refine countable_of_parts (fun f => ((f.authorization.signature,
    f.authorization.authorDelegatedGrant.map (·.descriptor), f.authorization.ownerSignature,
    f.authorization.ownerDelegatedGrant.map (·.descriptor), f.recordId, f.contextId, f.encryption,
    f.attestation, f.encodedData), (f.authorization.authorDelegatedGrant.toList ++
      f.authorization.ownerDelegatedGrant.toList).map (·.fields))) ?_ sizeOf ?_
  · rintro ⟨⟨_, a, _, g⟩, _, _, _, _, _⟩ ⟨⟨_, a', _, g'⟩, _, _, _, _, _⟩ same
    simp only [Prod.mk.injEq] at same
    obtain ⟨⟨rfl, author, rfl, owner, rfl, rfl, rfl, rfl, rfl⟩, grants⟩ := same
    rcases a with _ | ⟨_, _⟩ <;> rcases a' with _ | ⟨_, _⟩ <;> rcases g with _ | ⟨_, _⟩ <;>
      rcases g' with _ | ⟨_, _⟩ <;> simp_all
  · rintro ⟨⟨_, a, _, g⟩, _, _, _, _, _⟩ _ listed
    simp only [map_append, mem_append, mem_map, Option.mem_toList] at listed
    rcases listed with ⟨⟨_, _⟩, rfl, rfl⟩ | ⟨⟨_, _⟩, rfl, rfl⟩ <;> simp <;> omega

instance : Countable Message :=
  (show Function.Injective (fun m : Message => (m.descriptor, m.fields)) from
    fun ⟨_, _⟩ ⟨_, _⟩ same => by
      obtain ⟨rfl, rfl⟩ := Prod.mk.inj same
      rfl).countable

deriving instance Countable for CidInput

noncomputable section

def freshCid (input : CidInput) : Cid :=
  String.ofList ('~' :: List.replicate (Classical.choose (Countable.exists_injective_nat CidInput)
    input) '~')

theorem freshCid_injective : Function.Injective freshCid := by
  intro a b same
  apply Classical.choose_spec (Countable.exists_injective_nat CidInput)
  have lists := congrArg String.toList same
  simp only [freshCid, String.toList_ofList, List.cons.injEq, true_and] at lists
  simpa using congrArg List.length lists

def tableCid (table : List (CidInput × Cid)) (input : CidInput) : Cid :=
  (table.lookup input).getD (freshCid input)

theorem tableCid_injective {table : List (CidInput × Cid)} (distinct : (table.map (·.2)).Nodup)
    (short : ∀ cid ∈ table.map (·.2), cid.toList.head? ≠ some '~') :
    Function.Injective (tableCid table) := by
  intro a b same
  have fresh (input : CidInput) : (freshCid input).toList.head? = some '~' := by simp [freshCid]
  unfold tableCid at same
  cases ha : table.lookup a with
  | none =>
    cases hb : table.lookup b with
    | none => exact freshCid_injective (by simpa [ha, hb] using same)
    | some cid =>
      have listed := short cid (mem_map.mpr ⟨_, mem_of_lookup hb, rfl⟩)
      have cidEq : freshCid a = cid := by simpa [ha, hb] using same
      rw [← cidEq] at listed
      exact absurd (fresh a) listed
  | some cid =>
    have listedA := mem_of_lookup ha
    cases hb : table.lookup b with
    | none =>
      have listed := short cid (mem_map.mpr ⟨_, listedA, rfl⟩)
      have cidEq : cid = freshCid b := by simpa [ha, hb] using same
      rw [cidEq] at listed
      exact absurd (fresh b) listed
    | some cid' =>
      rw [ha, hb] at same
      cases same
      exact congrArg Prod.fst (inj_on_of_nodup_map distinct listedA (mem_of_lookup hb) rfl)

def textBytes (text : String) : Bytes := text.toList.map fun c => UInt8.ofNat c.toNat

def bytesText (bytes : Bytes) : String := String.ofList (bytes.map fun b => Char.ofNat b.toNat)

theorem textBytes_bytesText (bytes : Bytes) : textBytes (bytesText bytes) = bytes := by
  rw [textBytes, bytesText, String.toList_ofList, map_map]
  refine (map_congr_left fun byte _ => ?_).trans (map_id bytes)
  have valid : byte.toNat.isValidChar := Or.inl (by have := byte.toNat_lt; omega)
  have round : (Char.ofNat byte.toNat).toNat = byte.toNat := by
    unfold Char.ofNat
    rw [dif_pos valid]
    rfl
  rw [Function.comp_apply, round, UInt8.ofNat_toNat, id]

theorem bytesText_injective : Function.Injective bytesText :=
  Function.LeftInverse.injective textBytes_bytesText

/-- Tables for the decoders and the CIDs. A text stands for its own base64url decoding, and every
signature verifies. -/
structure Script where
  cids : List (CidInput × Cid) := []
  payloads : List (String × AuthorizationPayloadData) := []
  writePayloads : List (String × RecordsWriteAuthorizationPayloadData) := []
  headers : List (String × ProtectedHeader) := []
  grants : List (String × PermissionGrantData) := []

def didBeforeUrlParts (url : String) : Did :=
  String.ofList (url.toList.takeWhile fun c => c ≠ '/' ∧ c ≠ '?' ∧ c ≠ '#')

def Script.primitives (script : Script) : Primitives where
  base64Url text := some (textBytes text)
  base64UrlText := bytesText
  authorizationPayload bytes := script.payloads.lookup (bytesText bytes)
  recordsWritePayload bytes := script.writePayloads.lookup (bytesText bytes)
  protectedHeader bytes := script.headers.lookup (bytesText bytes)
  requestData _ := none
  grantData bytes := script.grants.lookup (bytesText bytes)
  revocationData _ := none
  audiencePayload _ := none
  wrappedGrantKeyEnvelope _ := none
  verifyBytes _ _ _ _ := .ok true
  didOfUrl kid := if startsWithDid kid then some (didBeforeUrlParts kid) else none
  cid := tableCid script.cids
  dataCid := bytesText
  thumbprint key := some key
  urlText text := some text
  validPublicKey _ := true

theorem Script.collisionFree (script : Script) (distinct : (script.cids.map (·.2)).Nodup)
    (short : ∀ cid ∈ script.cids.map (·.2), cid.toList.head? ≠ some '~') :
    script.primitives.CollisionFree :=
  ⟨tableCid_injective distinct short, bytesText_injective⟩

section

variable (script : Script) (m : Message) (descriptorCid messageCid : Cid)

def payloadName : String := m.fields.authorization.signature.payload.getD ""

/-- The script that also knows a message and what its signature covers. -/
def Script.adding : Script :=
  { script with
    cids := (.descriptor m.descriptor, descriptorCid) :: (.message m, messageCid) :: script.cids
    payloads := (payloadName m, { descriptorCid }) :: script.payloads }

def Script.signed : Script :=
  { script with
    cids := (.message m, messageCid) :: script.cids
    writePayloads := (payloadName m,
      { descriptorCid
        recordId := m.recordId.getD ""
        contextId := m.contextId.getD []
        permissionGrantId := m.writeDescriptor.bind (·.permissionGrantId) }) ::
      script.writePayloads }

def Script.posted (entryId : Cid) (author : Did := "did:ex:alice") : Script :=
  { script.signed m descriptorCid messageCid with
    cids := (.descriptor m.descriptor, descriptorCid) ::
      (m.writeDescriptor.map fun d => (.entry author d, entryId)).toList ++
      (script.signed m descriptorCid messageCid).cids }

end

def shortCid (large : Bytes) (name : Cid) (data : Bytes) : Cid :=
  if data = large then name else "." ++ bytesText data

theorem shortCid_injective (large : Bytes) {name : Cid} (undotted : name.toList.head? ≠ some '.') :
    Function.Injective (shortCid large name) := by
  intro a b same
  have dot (text : String) : name ≠ "." ++ text := by
    rintro rfl
    simp at undotted
  unfold shortCid at same
  split at same <;> split at same
  · rename_i isA isB
    rw [isA, isB]
  · exact absurd same (dot _)
  · exact absurd same.symm (dot _)
  · exact bytesText_injective (by simpa using same)

def note : WriteDescriptor where
  protocol := "https://notes"
  protocolPath := ["note"]
  dataCid := "data"
  dataSize := 4
  dateCreated := 1
  messageTimestamp := 1
  dataFormat := "text/plain"

def notePayload : RecordsWriteAuthorizationPayloadData where
  descriptorCid := "descriptor"
  recordId := "record"
  contextId := ["record"]

def noteScript (kid : String) : Script where
  cids := [(.descriptor (.recordsWrite note), "descriptor"), (.entry "did:ex:alice" note, "record")]
  writePayloads := [("payload", notePayload)]
  headers := [("header", { kid := some kid, alg := some "EdDSA" })]

def noteSignature : Jws where
  payload := some "payload"
  signatures := some [{ protectedHeader := some "header", signature := some "signature" }]

def noteMessage : Message where
  descriptor := .recordsWrite note
  fields :=
    { authorization := { signature := noteSignature }
      recordId := some "record"
      contextId := some ["record"] }

def aliceResolver : DidResolver where
  resolve did :=
    if did = "did:ex:alice" then some ⟨did, [⟨"did:ex:alice#key-2", some "key"⟩]⟩ else none

def ownContext (author : Did) (payload : VerifiedAuthorizationPayload) : AuthorizationContext where
  signer := author
  author
  payload
  permissionGrantInvocation := .none
  authorDelegatedGrant := none
  owner := none

def noteContext : AuthorizationContext := ownContext "did:ex:alice" (.recordsWrite notePayload)

/-! ## A grant from alice to bob

Payloads and protected headers are named by the texts that stand for them: a header is the name of
the party whose key it names. -/

def signedBy (payload party : String) : Jws where
  payload := some payload
  signatures := some [{ protectedHeader := some party, signature := some "signature" }]

def signedMessage (descriptor : Descriptor) (payload : String) : Message where
  descriptor
  fields := { authorization := { signature := signedBy payload "alice" } }

def partyHeaders : List (String × ProtectedHeader) :=
  [("alice", { kid := some "did:ex:alice#k", alg := some "EdDSA" }),
    ("bob", { kid := some "did:ex:bob#k", alg := some "EdDSA" }),
    ("carol", { kid := some "did:ex:carol#k", alg := some "EdDSA" })]

def parties : Script where
  headers := partyHeaders

def openResolver : DidResolver where
  resolve did := some ⟨did, [⟨did ++ "#k", some "key"⟩]⟩

def grantDescriptor : WriteDescriptor where
  protocol := permissionsProtocolUri
  protocolPath := permissionsGrantPath
  recipient := some "did:ex:bob"
  dataCid := "notes"
  dataSize := 5
  dateCreated := 1
  messageTimestamp := 1
  dataFormat := "application/json"

def grantMessage (data : String) : WriteMessage where
  descriptor := grantDescriptor
  fields :=
    { authorization := { signature := signedBy "grant" "alice" }
      recordId := some "grant"
      contextId := some ["grant"]
      encodedData := some data }

def grantPayload : RecordsWriteAuthorizationPayloadData where
  descriptorCid := "grantDescriptor"
  recordId := "grant"
  contextId := ["grant"]

def readTerms (protocol : String) : PermissionGrantData where
  dateExpires := 10
  scope := .records .read protocol none
  delegated := some true

def readDescriptor (recordId : String) : ReadDescriptor where
  messageTimestamp := 5
  filter := { recordId := some recordId }

def delegatedRead (recordId data : String) : Message where
  descriptor := .recordsRead (readDescriptor recordId)
  fields :=
    { authorization :=
        { signature := signedBy recordId "bob"
          authorDelegatedGrant := some (grantMessage data) } }

def readPayload (recordId : String) : AuthorizationPayloadData where
  descriptorCid := recordId
  delegatedGrantId := some "grantMessage"

def readScript : Script where
  cids :=
    [(.descriptor (.recordsWrite grantDescriptor), "grantDescriptor"),
      (.message (WriteMessage.toMessage (grantMessage "")).withoutEncodedData, "grantMessage"),
      (.descriptor (.recordsRead (readDescriptor "r1")), "r1"),
      (.descriptor (.recordsRead (readDescriptor "r2")), "r2")]
  payloads := [("r1", readPayload "r1"), ("r2", readPayload "r2")]
  writePayloads := [("grant", grantPayload)]
  headers := partyHeaders
  grants := [("notes", readTerms "notes"), ("chats", readTerms "chats")]

def readGrant (protocol : String) : PermissionGrant where
  id := "grant"
  grantor := "did:ex:alice"
  grantee := "did:ex:bob"
  dateGranted := 1
  dateExpires := 10
  delegated := some true
  scope := .records .read protocol none
  conditions := none
  connectSession := none

def readContext (recordId protocol : String) : AuthorizationContext where
  signer := "did:ex:bob"
  author := "did:ex:alice"
  payload := .generic (readPayload recordId)
  permissionGrantInvocation := .none
  authorDelegatedGrant := some (readGrant protocol)
  owner := none

end

end Enbox.Proof.Concrete
