import Enbox.Proof.Permission.Signature
import Enbox.Proof.Concrete
import Enbox.Records.Basic

/-! # What a signature binds -/

namespace Enbox.Proof.Permission

open Lib Concrete WriteMessage

variable {p : Primitives} {message : Message} {resolver : Option DidResolver}
  {payload : RecordsWriteAuthorizationPayloadData} {required : Bool} {grant : PermissionGrant}
  {grantor : Did}

/-! ## The commitments of a RecordsWrite payload -/

structure AcceptedWrite (p : Primitives) (resolver : Option DidResolver) (message : Message) :
    Prop where
  isWrite : ∃ d, message.descriptor = .recordsWrite d
  checked : ∃ ctx, validateAuthorizationSignature p resolver message true = .ok (some ctx) ∧
    validateRecordsWriteIntegrity p message ctx = .ok ()

structure Commits (p : Primitives) (message : Message)
    (payload : RecordsWriteAuthorizationPayloadData) : Prop where
  decoded : decodeJwsPayload p p.recordsWritePayload message.fields.authorization.signature =
    .ok payload
  descriptor : payload.descriptorCid = p.descriptorCid message.descriptor
  contextId : message.contextId = some payload.contextId
  recordId : message.recordId = some payload.recordId
  attestation : ∀ cid ∈ payload.attestationCid,
    message.fields.attestation.map (fun a => p.cid (.jws a)) = some cid
  encryption : message.fields.encryption.map (fun e => p.cid (.encryption e)) = payload.encryptionCid
  grant : payload.delegatedGrantId = message.fields.authorization.authorDelegatedGrant.map fun g =>
    p.messageCid (toMessage g)

theorem validatePayload_write_ok {d : WriteDescriptor}
    (isWrite : message.descriptor = .recordsWrite d) {verified : VerifiedAuthorizationPayload}
    (valid : validatePayload p message message.fields.authorization.signature = .ok verified) :
    ∃ payload, verified = .recordsWrite payload ∧ Commits p message payload := by
  simp only [validatePayload, isWrite, authorizationPayloadKind, ok_iff, validateDescriptorCid,
    validateRecordsWritePayload] at valid
  obtain ⟨payload, decoded, -, descriptor, -, -, -, ⟨contextId, hasContext, recordId, hasRecord, -,
    sameContext, -, sameRecord, -, attestation, -, encryption, grant⟩, rfl⟩ := valid
  subst sameContext sameRecord
  exact ⟨payload, rfl, decoded, by rw [descriptor, isWrite], hasContext, hasRecord, attestation,
    encryption, grant⟩

theorem AcceptedWrite.commits (accepted : AcceptedWrite p resolver message) :
    ∃ payload, Commits p message payload := by
  obtain ⟨d, isWrite⟩ := accepted.isWrite
  obtain ⟨ctx, valid, -⟩ := accepted.checked
  obtain ⟨payload, -, commits⟩ :=
    validatePayload_write_ok isWrite (validateAuthorizationSignature_ok valid).payload
  exact ⟨payload, commits⟩

structure SameSignedContent (p : Primitives) (a b : Message) : Prop where
  descriptor : a.descriptor = b.descriptor
  recordId : a.recordId = b.recordId
  contextId : a.contextId = b.contextId
  encryption : a.fields.encryption = b.fields.encryption
  attestation : a.fields.attestation = b.fields.attestation
  grant : (a.fields.authorization.authorDelegatedGrant.map fun g =>
      p.messageCid (toMessage g)) =
    b.fields.authorization.authorDelegatedGrant.map fun g => p.messageCid (toMessage g)

theorem Commits.sameSignedContent (law : p.CollisionFree) {a b : Message}
    (left : Commits p a payload) (right : Commits p b payload)
    (named : payload.attestationCid ≠ none) :
    SameSignedContent p a b := by
  have optional {α : Type} {wrap : α → CidInput} (injective : Function.Injective wrap)
      {x y : Option α} (same : x.map (fun v => p.cid (wrap v)) = y.map fun v => p.cid (wrap v)) :
      x = y :=
    Option.map_injective (law.cid.comp injective) same
  obtain ⟨cid, named⟩ := Option.ne_none_iff_exists'.mp named
  refine ⟨?_, ?_, ?_, ?_, ?_, ?_⟩
  · exact CidInput.descriptor.inj (law.cid (left.descriptor.symm.trans right.descriptor))
  · rw [left.recordId, right.recordId]
  · rw [left.contextId, right.contextId]
  · exact optional (fun _ _ => CidInput.encryption.inj) (left.encryption.trans right.encryption.symm)
  · exact optional (fun _ _ => CidInput.jws.inj)
      ((left.attestation cid named).trans (right.attestation cid named).symm)
  · exact left.grant.symm.trans right.grant

/-! ## Swapping the attestation -/

def withAttestation (message : Message) (attestation : Option Jws) : Message :=
  ⟨message.descriptor, { message.fields with attestation }⟩

section

variable (commits : Commits p message payload) (unnamed : payload.attestationCid = none)
  (attestation : Option Jws)

include commits unnamed attestation

theorem validatePayload_withAttestation :
    validatePayload p (withAttestation message attestation)
        message.fields.authorization.signature =
      validatePayload p message message.fields.authorization.signature := by
  unfold validatePayload
  simp only [commits.decoded, ok_bind]
  unfold validateRecordsWritePayload withAttestation Message.contextId Message.recordId
  simp only [unnamed, Option.not_mem_none, false_imp_iff, implies_true]

theorem validateAuthorizationSignature_withAttestation :
    validateAuthorizationSignature p resolver (withAttestation message attestation) required =
      validateAuthorizationSignature p resolver message required := by
  unfold validateAuthorizationSignature
  rw [validateInner_eq, validateInner_eq]
  unfold validateSignatureLevel
  rw [show (withAttestation message attestation).fields.authorization =
    message.fields.authorization from rfl, validatePayload_withAttestation commits unnamed attestation]
  rfl

end

theorem AcceptedWrite.withAttestation (accepted : AcceptedWrite p resolver message)
    (commits : Commits p message payload) (unnamed : payload.attestationCid = none)
    (attestation : Option Jws) :
    AcceptedWrite p resolver (withAttestation message attestation) := by
  obtain ⟨ctx, valid, integrity⟩ := accepted.checked
  refine ⟨accepted.isWrite, ctx, ?_, integrity⟩
  rw [validateAuthorizationSignature_withAttestation commits unnamed, valid]

/-- Every accepted RecordsWrite with the signature of an accepted one has its signed content exactly
when the signed payload names an attestation. -/
theorem signature_binds_content_iff_attestation_named {p : Primitives} (law : p.CollisionFree)
    {resolver : Option DidResolver} {message : Message}
    (accepted : AcceptedWrite p resolver message) :
    (∀ resolver' other, AcceptedWrite p resolver' other →
        other.fields.authorization.signature = message.fields.authorization.signature →
        SameSignedContent p message other) ↔
      ∀ payload, decodeJwsPayload p p.recordsWritePayload message.fields.authorization.signature =
        .ok payload → payload.attestationCid ≠ none := by
  obtain ⟨payload, commits⟩ := accepted.commits
  constructor
  · intro bound payload' decoded unnamed
    cases commits.decoded.symm.trans decoded
    -- The same message with its attestation removed, or with one added, is accepted as well.
    have swapped (attestation : Option Jws) : message.fields.attestation = attestation :=
      (bound resolver _ (accepted.withAttestation commits unnamed attestation) rfl).attestation
    exact absurd ((swapped none).symm.trans (swapped (some {}))) (by simp)
  · intro named resolver' other otherAccepted sameSignature
    obtain ⟨payload', commits'⟩ := otherAccepted.commits
    have decoded := commits'.decoded
    rw [sameSignature, commits.decoded] at decoded
    cases decoded
    exact commits.sameSignedContent law commits' (named payload commits.decoded)

def attestedScript : Script :=
  { noteScript "did:ex:alice#key-2" with
    cids := (.jws {}, "attestation") :: (noteScript "did:ex:alice#key-2").cids
    writePayloads := [("payload", { notePayload with attestationCid := some "attestation" })] }

def attestedNote : Message := withAttestation noteMessage (some {})

def attestedContext : AuthorizationContext :=
  { noteContext with
    payload := .recordsWrite { notePayload with attestationCid := some "attestation" } }

theorem attestedNote_accepted (encodedData : Option String) :
    AcceptedWrite attestedScript.primitives (some aliceResolver)
      (setEncodedData attestedNote encodedData) :=
  ⟨⟨note, rfl⟩, attestedContext, rfl, rfl⟩

theorem attested_note_content_bound :
    SameSignedContent attestedScript.primitives (setEncodedData attestedNote none)
      (setEncodedData attestedNote (some "text")) := by
  have law : attestedScript.primitives.CollisionFree :=
    attestedScript.collisionFree (by decide) (by decide)
  refine (signature_binds_content_iff_attestation_named law (attestedNote_accepted none)).mpr ?_
    (some aliceResolver) _ (attestedNote_accepted (some "text")) rfl
  intro payload decoded
  cases decoded
  decide

theorem attestation_added_to_signed_note :
    (noteScript "did:ex:alice#key-2").primitives.CollisionFree ∧
      AcceptedWrite (noteScript "did:ex:alice#key-2").primitives (some aliceResolver) noteMessage ∧
      AcceptedWrite (noteScript "did:ex:alice#key-2").primitives (some aliceResolver) attestedNote ∧
      attestedNote.fields.authorization.signature = noteMessage.fields.authorization.signature ∧
      attestedNote.fields.attestation ≠ noteMessage.fields.attestation :=
  ⟨(noteScript _).collisionFree (by decide) (by decide), ⟨⟨note, rfl⟩, noteContext, rfl, rfl⟩,
    ⟨⟨note, rfl⟩, noteContext, rfl, rfl⟩, rfl, by decide⟩

/-! ## Embedded grants -/

def EnforcedGrant (message : Message) (ctx : AuthorizationContext) (grantMessage : WriteMessage)
    (grant : PermissionGrant) : DelegationSide → Prop
  | .author => message.fields.authorization.authorDelegatedGrant = some grantMessage ∧
      ctx.authorDelegatedGrant = some grant
  | .owner => message.fields.authorization.ownerDelegatedGrant = some grantMessage ∧
      ∃ owner, ctx.owner = some owner ∧ owner.delegatedGrant = some grant

def TermsBound (p : Primitives) (grantMessage : WriteMessage) (grant : PermissionGrant) : Prop :=
  ∃ encoded bytes data, grantMessage.fields.encodedData = some encoded ∧
    p.base64Url encoded = some bytes ∧ p.dataCid bytes = grantMessage.descriptor.dataCid ∧
    p.grantData bytes = some data ∧ grant.dateExpires = data.dateExpires ∧
    grant.delegated = data.delegated ∧ grant.scope = data.scope ∧
    grant.conditions = data.conditions

def InlineDataIntact (p : Primitives) (grantMessage : WriteMessage) : Prop :=
  ∀ bytes, encodedDataBytes p (toMessage grantMessage) = some bytes →
    validateDataIntegrity grantMessage.descriptor.dataCid bytes.length (p.dataCid bytes)
      bytes.length = .ok ()

theorem EnforcedGrant.parsed {ctx : AuthorizationContext} {grantMessage : WriteMessage}
    {side : DelegationSide}
    (valid : validateAuthorizationSignature p resolver message required = .ok (some ctx))
    (enforced : EnforcedGrant message ctx grantMessage grant side) :
    ∃ auth, validateAuthorizationSignatureInner p resolver (toMessage grantMessage)
        true false = .ok (some auth) ∧
      parsePermissionGrant p (toMessage grantMessage) auth.author = .ok grant := by
  have established := validateAuthorizationSignature_ok valid
  -- Both sides go through the same binding of an embedded grant.
  have bound : ∃ signedGrantId signer,
      EmbeddedGrant p resolver (some grantMessage) signedGrantId signer grant := by
    cases side with
    | author =>
      have grants := established.authorGrant rfl
      rw [enforced.1, enforced.2] at grants
      exact ⟨_, _, grants⟩
    | owner =>
      obtain ⟨embedded, owner, isOwner, delegated⟩ := enforced
      obtain ⟨jws, payload, -, -, -, -, grants⟩ := (established.owner owner isOwner).signed
      rw [embedded, delegated] at grants
      exact ⟨_, _, grants⟩
  obtain ⟨signedGrantId, signer, embedded⟩ := bound
  obtain ⟨found, same, -, authorized⟩ := embedded.bound
  cases same
  exact authorized

theorem validateInner_withoutEncodedData (message : Message) (required delegated : Bool) :
    validateAuthorizationSignatureInner p resolver message.withoutEncodedData required delegated =
      validateAuthorizationSignatureInner p resolver message required delegated := by
  rw [validateInner_eq, validateInner_eq]
  rfl

theorem TermsBound.intact {grantMessage : WriteMessage} (bound : TermsBound p grantMessage grant) :
    InlineDataIntact p grantMessage := by
  obtain ⟨encoded, bytes, data, inline, decoded, cid, -⟩ := bound
  intro bytes' found
  simp only [encodedDataBytes, toMessage, inline, Option.bind_some, decoded,
    Option.some.injEq] at found
  subst found
  simp [validateDataIntegrity, cid, ensure_true]

theorem InlineDataIntact.termsBound {grantMessage : WriteMessage}
    (intact : InlineDataIntact p grantMessage)
    (parsed : ParsedGrant p (toMessage grantMessage) grantor grant) :
    TermsBound p grantMessage grant := by
  obtain ⟨d, encoded, bytes, data, isWrite, inline, decoded, read, -, -, -, -, -, expires, delegated,
    scope, conditions, -⟩ := parsed.parsed
  have checked := intact bytes (by simp [encodedDataBytes, inline, decoded])
  simp only [validateDataIntegrity, ok_iff] at checked
  obtain ⟨-, cid, -⟩ := checked
  exact ⟨encoded, bytes, data, inline, decoded, cid.symm, read, expires, delegated, scope, conditions⟩

theorem ParsedGrant.eq_of_termsBound (law : p.CollisionFree) {a b : WriteMessage}
    (same : p.messageCid (toMessage a) = p.messageCid (toMessage b))
    {left right : PermissionGrant}
    (parsedLeft : ParsedGrant p (toMessage a) grantor left)
    (parsedRight : ParsedGrant p (toMessage b) grantor right)
    (boundLeft : InlineDataIntact p a) (boundRight : InlineDataIntact p b) : left = right := by
  have messages := CidInput.message.inj (law.cid same)
  have descriptors : a.descriptor = b.descriptor := by
    have equal := congrArg MessageOf.descriptor messages
    exact Descriptor.recordsWrite.inj equal
  have recordIds : a.fields.recordId = b.fields.recordId :=
    congrArg (fun m : Message => m.fields.recordId) messages
  obtain ⟨_, _, bytes, data, isWrite, inline, decoded, read, id, grantee, -, -, granted, terms⟩ :=
    parsedLeft.parsed
  obtain ⟨_, _, bytes', data', isWrite', inline', decoded', read', id', grantee', -, -, granted',
    terms'⟩ := parsedRight.parsed
  cases isWrite
  cases isWrite'
  -- Both inline data hash to the `dataCid` of the one descriptor, so they are the same bytes.
  have cid := boundLeft bytes (by simp [encodedDataBytes, inline, decoded])
  have cid' := boundRight bytes' (by simp [encodedDataBytes, inline', decoded'])
  simp only [validateDataIntegrity, ok_iff] at cid cid'
  obtain ⟨-, cid, -⟩ := cid
  obtain ⟨-, cid', -⟩ := cid'
  have sameBytes : bytes = bytes' := law.dataCid (by rw [← cid, ← cid', descriptors])
  subst sameBytes
  cases read.symm.trans read'
  obtain ⟨expires, delegated, scope, conditions, session⟩ := terms
  obtain ⟨expires', delegated', scope', conditions', session'⟩ := terms'
  have sameId : left.id = right.id :=
    Option.some.inj ((id.symm.trans recordIds).trans id')
  have sameGrantee : left.grantee = right.grantee :=
    Option.some.inj ((grantee.symm.trans (by rw [descriptors])).trans grantee')
  exact PermissionGrant.ext sameId (parsedLeft.grantor.trans parsedRight.grantor.symm) sameGrantee
    (by rw [granted, granted', descriptors]) (expires.trans expires'.symm)
    (delegated.trans delegated'.symm) (scope.trans scope'.symm) (conditions.trans conditions'.symm)
    (session.trans session'.symm)

/-- The embedded grants with one message CID of two accepted messages are equal, and their terms
those the grantor signed, exactly when their inline data has the CID their descriptor names. -/
theorem embedded_grant_terms_iff_data_intact (law : p.CollisionFree)
    {first second : Message} {required : Bool} {ctx ctx' : AuthorizationContext}
    (valid : validateAuthorizationSignature p resolver first required = .ok (some ctx))
    (valid' : validateAuthorizationSignature p resolver second required = .ok (some ctx'))
    {side side' : DelegationSide} {a b : WriteMessage} {left right : PermissionGrant}
    (enforced : EnforcedGrant first ctx a left side)
    (enforced' : EnforcedGrant second ctx' b right side')
    (same : p.messageCid (WriteMessage.toMessage a) = p.messageCid (WriteMessage.toMessage b)) :
    (TermsBound p a left ∧ TermsBound p b right ∧ left = right) ↔
      InlineDataIntact p a ∧ InlineDataIntact p b := by
  constructor
  · rintro ⟨boundLeft, boundRight, -⟩
    exact ⟨boundLeft.intact, boundRight.intact⟩
  · rintro ⟨intactLeft, intactRight⟩
    obtain ⟨auth, authorized, parsed⟩ := enforced.parsed valid
    obtain ⟨auth', authorized', parsed'⟩ := enforced'.parsed valid'
    have messages := CidInput.message.inj (law.cid same)
    rw [← validateInner_withoutEncodedData, messages, validateInner_withoutEncodedData] at authorized
    cases authorized.symm.trans authorized'
    have parsedLeft := parsePermissionGrant_ok parsed
    have parsedRight := parsePermissionGrant_ok parsed'
    exact ⟨intactLeft.termsBound parsedLeft, intactRight.termsBound parsedRight,
      parsedLeft.eq_of_termsBound law same parsedRight intactLeft intactRight⟩

theorem delegated_reads_share_grant_terms :
    EnforcedGrant (delegatedRead "r1" "notes") (readContext "r1" "notes") (grantMessage "notes")
        (readGrant "notes") .author ∧
      EnforcedGrant (delegatedRead "r2" "notes") (readContext "r2" "notes") (grantMessage "notes")
        (readGrant "notes") .author ∧
      TermsBound readScript.primitives (grantMessage "notes") (readGrant "notes") := by
  have law : readScript.primitives.CollisionFree :=
    readScript.collisionFree (by decide) (by decide)
  have first : validateAuthorizationSignature readScript.primitives (some openResolver)
      (delegatedRead "r1" "notes") true = .ok (some (readContext "r1" "notes")) := rfl
  have second : validateAuthorizationSignature readScript.primitives (some openResolver)
      (delegatedRead "r2" "notes") true = .ok (some (readContext "r2" "notes")) := rfl
  have intact : InlineDataIntact readScript.primitives (grantMessage "notes") := by
    intro bytes found
    cases found
    rfl
  refine ⟨⟨rfl, rfl⟩, ⟨rfl, rfl⟩, ((embedded_grant_terms_iff_data_intact law first second
    (show EnforcedGrant _ _ (grantMessage "notes") (readGrant "notes") .author from ⟨rfl, rfl⟩)
    (show EnforcedGrant _ _ (grantMessage "notes") (readGrant "notes") .author from ⟨rfl, rfl⟩)
    rfl).mpr ⟨intact, intact⟩).1⟩

theorem swapped_grant_data_is_enforced :
    readScript.primitives.CollisionFree ∧
      readScript.primitives.messageCid (WriteMessage.toMessage (grantMessage "notes")) =
        readScript.primitives.messageCid (WriteMessage.toMessage (grantMessage "chats")) ∧
      validateAuthorizationSignature readScript.primitives (some openResolver)
        (delegatedRead "r1" "notes") true = .ok (some (readContext "r1" "notes")) ∧
      validateAuthorizationSignature readScript.primitives (some openResolver)
        (delegatedRead "r1" "chats") true = .ok (some (readContext "r1" "chats")) ∧
      (readContext "r1" "notes").authorDelegatedGrant ≠
        (readContext "r1" "chats").authorDelegatedGrant ∧
      readScript.primitives.dataCid (textBytes "chats") ≠ grantDescriptor.dataCid :=
  ⟨readScript.collisionFree (by decide) (by decide), rfl, rfl, rfl, by decide, by decide +kernel⟩

end Enbox.Proof.Permission
