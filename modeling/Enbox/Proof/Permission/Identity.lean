import Enbox.Proof.Permission.Signature
import Enbox.Proof.Concrete

/-! # The two identities of a signed message -/

namespace Enbox.Proof.Permission

open Lib Concrete

/-- The DID of a DID URL is what precedes its path, query and fragment. -/
def DidUrlSyntax (p : Primitives) : Prop :=
  ∀ kid did, p.didOfUrl kid = some did → did = didBeforeUrlParts kid

/-- A `kid` on which both derivations agree: a DID URL without path and query, or a text without
fragment that is no DID URL. -/
def PlainKid (p : Primitives) (kid : String) : Prop :=
  match p.didOfUrl kid with
  | some _ => ∀ c ∈ kid.toList.takeWhile (· ≠ '#'), c ≠ '/' ∧ c ≠ '?'
  | none => '#' ∉ kid.toList

theorem extractDid_eq_iff {p : Primitives} (law : DidUrlSyntax p) (kid : String) :
    Jws.extractDid p kid = beforeHash kid ↔ PlainKid p kid := by
  unfold Jws.extractDid PlainKid beforeHash
  cases parsed : p.didOfUrl kid with
  | none =>
    rw [Option.getD_none, ← String.toList_inj, String.toList_ofList, eq_comm,
      List.takeWhile_eq_self_iff]
    simp only [decide_eq_true_eq]
    exact ⟨fun plain mem => plain '#' mem rfl, fun absent c mem hash => absent (hash ▸ mem)⟩
  | some did =>
    rw [Option.getD_some, law kid did parsed, didBeforeUrlParts, String.ofList_inj,
      takeWhile_eq_takeWhile_iff (by simp)]
    constructor
    · intro plain c mem
      have parts := plain c mem
      simp only [decide_eq_true_eq] at parts
      exact ⟨parts.1, parts.2.1⟩
    · intro plain c mem
      have notHash : c ≠ '#' := by simpa using List.mem_takeWhile_imp mem
      have parts := plain c mem
      simp [parts.1, parts.2, notHash]

section

variable {p : Primitives} {resolver : DidResolver}

theorem jwsSigner_resolved {jws : Jws} {signer : Did}
    (signed : jwsSigner p (some resolver) jws = .ok signer) :
    ∃ kid, jws.kid p = some kid ∧ signer = Jws.extractDid p kid ∧
      signerDidFromJws p jws = .ok (beforeHash kid) := by
  simp only [jwsSigner, ok_iff] at signed
  obtain ⟨unverified, stored, signers, verified, first⟩ := signed
  simp only [signerDidFromJws, ok_iff] at stored
  obtain ⟨signatures, found, header, protectedFound, bytes, decoded, parsedHeader, parsed, kid,
    kidFound, -, nonempty, -⟩ := stored
  simp only [Jws.verifySignatures, ok_iff] at verified
  obtain ⟨payload, -, signatures', found', mapped⟩ := verified
  cases found.symm.trans found'
  obtain ⟨signature, isFirst, checked⟩ := head_of_mapM_ok mapped first
  simp only [Jws.verifySignature, ok_iff] at checked
  obtain ⟨header', protectedFound', -, -, bytes', decoded', parsedHeader', parsed', -, -, -, -, kid',
    kidFound', -, -, -, -, -, -, rfl⟩ := checked
  -- Both derivations read the protected header of the first signature.
  rw [isFirst, Option.bind_some, protectedFound', Option.some.injEq] at protectedFound
  subst protectedFound
  cases decoded.symm.trans decoded'
  cases parsed.symm.trans parsed'
  cases kidFound.symm.trans kidFound'
  refine ⟨kid, ?_, rfl, ?_⟩
  · simp [Jws.kid, found, isFirst, protectedFound', decoded, parsed, kidFound]
  · simp [signerDidFromJws, found, isFirst, protectedFound', decoded, parsed, kidFound,
      okOr, ensure_true nonempty, pure, Except.pure]

theorem messageSigner_eq_iff (law : DidUrlSyntax p) {message : Message} {signer : Did}
    (signed : jwsSigner p (some resolver) message.fields.authorization.signature = .ok signer) :
    messageSigner p message = some signer ↔
      ∀ kid, message.fields.authorization.signature.kid p = some kid → PlainKid p kid := by
  obtain ⟨kid, found, rfl, stored⟩ := jwsSigner_resolved signed
  rw [messageSigner, stored, found]
  simp only [Except.toOption, Option.some.injEq, forall_eq']
  rw [eq_comm]
  exact extractDid_eq_iff law kid

end

/-- The author and the signer found in a stored message are those established when it was admitted
exactly when its `kid`, and that of its embedded grant, are plain. -/
theorem stored_identity_iff_plain_kids {p : Primitives} (law : DidUrlSyntax p)
    {resolver : DidResolver} {message : Message} {required : Bool} {ctx : AuthorizationContext}
    (valid : validateAuthorizationSignature p (some resolver) message required = .ok (some ctx)) :
    (messageAuthor p message = some ctx.author ∧ messageSigner p message = some ctx.signer) ↔
      (∀ kid, message.fields.authorization.signature.kid p = some kid → PlainKid p kid) ∧
      ∀ grant, message.fields.authorization.authorDelegatedGrant = some grant →
        ∀ kid, grant.fields.authorization.signature.kid p = some kid → PlainKid p kid := by
  have established := validateAuthorizationSignature_ok valid
  have signerIff := messageSigner_eq_iff law established.signer
  rw [← signerIff]
  cases embedded : message.fields.authorization.authorDelegatedGrant with
  | none =>
    have direct := established.author_eq_signer embedded
    have author : messageAuthor p message = messageSigner p message := by
      simp [messageAuthor, embedded]
    rw [author, direct.2]
    simp
  | some grantMessage =>
    -- The author of the context is the verified signer of the embedded grant.
    have grants := established.authorGrant rfl
    cases present : ctx.authorDelegatedGrant with
    | none =>
      rw [present] at grants
      exact absurd (grants.1.symm.trans embedded) (by simp)
    | some grant =>
      rw [present] at grants
      obtain ⟨found, isGrant, -, auth, authorized, parsed⟩ := grants.bound
      cases embedded.symm.trans isGrant
      have grantEstablished := validateInner_ok authorized
      have grantorIff := messageSigner_eq_iff law grantEstablished.signer
      have grantor : ctx.author = auth.signer := by
        rw [(established.delegate present).1, (parsePermissionGrant_ok parsed).grantor,
          grantEstablished.author, grantEstablished.noAuthorGrant rfl]
        rfl
      obtain ⟨kid, -, -, stored⟩ := jwsSigner_resolved grantEstablished.signer
      have isSome : messageSigner p (WriteMessage.toMessage grantMessage) =
          some (beforeHash kid) := by
        simp only [messageSigner, stored, Except.toOption]
      have author : messageAuthor p message =
          messageSigner p (WriteMessage.toMessage grantMessage) := by
        simp [messageAuthor, embedded, isSome]
      rw [author, grantor, grantorIff]
      simp only [Option.some.injEq, forall_eq', WriteMessage.toMessage]
      exact and_comm

theorem scripted_didUrlSyntax (script : Script) : DidUrlSyntax script.primitives := by
  intro kid did parsed
  simp only [Script.primitives] at parsed
  split at parsed
  · exact (Option.some.inj parsed).symm
  · cases parsed

theorem stored_identity_of_plain_note :
    messageAuthor (noteScript "did:ex:alice#key-2").primitives noteMessage = some "did:ex:alice" ∧
    messageSigner (noteScript "did:ex:alice#key-2").primitives noteMessage = some "did:ex:alice" := by
  have accepted : validateAuthorizationSignature (noteScript "did:ex:alice#key-2").primitives
      (some aliceResolver) noteMessage true = .ok (some noteContext) := rfl
  refine (stored_identity_iff_plain_kids (scripted_didUrlSyntax _) accepted).mpr ⟨?_, ?_⟩
  · intro kid found
    cases found
    have plain : ("did:ex:alice#key-2".toList.takeWhile (· ≠ '#')).all
        (fun c => decide (c ≠ '/' ∧ c ≠ '?')) = true := by decide
    exact fun c mem => of_decide_eq_true (List.all_eq_true.mp plain c mem)
  · intro grant embedded
    cases embedded

theorem aliased_kid_changes_author :
    validateAuthorizationSignature
        (noteScript "did:ex:alice?alias=did:ex:alice#key-2").primitives (some aliceResolver)
        noteMessage true = .ok (some noteContext) ∧
      messageAuthor (noteScript "did:ex:alice?alias=did:ex:alice#key-2").primitives noteMessage =
        some "did:ex:alice?alias=did:ex:alice" ∧
      messageSigner (noteScript "did:ex:alice?alias=did:ex:alice#key-2").primitives noteMessage ≠
        some noteContext.signer :=
  ⟨rfl, rfl, by decide +kernel⟩

end Enbox.Proof.Permission
