import Enbox.Proof.Protocols.Convergence

/-! # The encryption that configurations and writes ask for -/

namespace Enbox.Proof.Protocols

open Lib Run

variable {p : Primitives} {store : MessageStore} {tenant author : Did} {definition : Definition}
  {d : WriteDescriptor} {m : Message} {timestamp : Timestamp} {path : Path} {required : Bool}
  {protocol : String}

/-- The path is a `$ref` root, and `referenced` the definition at the time in which `target` is a
path. -/
def Imports (store : MessageStore) (tenant : Did) (definition : Definition) (timestamp : Timestamp)
    (path target : Path) (referenced : Definition) : Prop :=
  ∃ usesAlias uri, definition.refPosition path = some (usesAlias, target) ∧
    definition.uses.bind (·.lookup usesAlias) = some uri ∧
    fetchProtocolDefinition store tenant uri (some timestamp) = .ok referenced

theorem Imports.unique {target target' : Path} {referenced referenced' : Definition}
    (imports : Imports store tenant definition timestamp path target referenced)
    (imports' : Imports store tenant definition timestamp path target' referenced') :
    target = target' ∧ referenced = referenced' := by
  obtain ⟨_, uri, isRef, uses, fetched⟩ := imports
  obtain ⟨_, uri', isRef', uses', fetched'⟩ := imports'
  cases isRef.symm.trans isRef'
  cases uses.symm.trans uses'
  exact ⟨rfl, Except.ok.inj (fetched.symm.trans fetched')⟩

theorem effectiveIncomingPolicy_ok_iff :
    effectiveIncomingPolicy store tenant definition timestamp path = .ok required ↔
      definition.refPosition path = none ∧ definition.typeEncrypted (lastSegment path) = required ∨
      ∃ target referenced, Imports store tenant definition timestamp path target referenced ∧
        referenced.typeEncrypted (lastSegment target) = required := by
  unfold effectiveIncomingPolicy Imports
  cases definition.refPosition path with
  | none => simp
  | some reference =>
    simp only [ok_iff]
    grind

theorem referencedDefinition_ok_iff {imported : Option Definition} :
    referencedDefinitionForRefPath store tenant d definition timestamp = .ok imported ↔
      definition.refPosition d.protocolPath = none ∧ imported = none ∨
      ∃ target referenced, Imports store tenant definition timestamp d.protocolPath target referenced ∧
        imported = some referenced := by
  unfold referencedDefinitionForRefPath Imports
  cases definition.refPosition d.protocolPath with
  | none => simp [eq_comm]
  | some reference =>
    simp only [ok_iff]
    grind

section

variable (isWrite : m.descriptor = .recordsWrite d) (initial : p.isInitialWrite m author = true)
  (governs : fetchProtocolDefinition store tenant d.protocol (some d.messageTimestamp) =
    .ok definition) (placed : (definition.ruleAt d.protocolPath).isSome)

include isWrite initial governs placed

theorem resolvePolicy_ok_iff :
    (∃ policy, resolvePolicy p store tenant m author = .ok policy ∧
        policy.encryptionRequired = required) ↔
      definition.refPosition d.protocolPath = none ∧
        definition.typeEncrypted (lastSegment d.protocolPath) = required ∨
      ∃ target referenced,
        Imports store tenant definition d.messageTimestamp d.protocolPath target referenced ∧
        (referenced.types.lookup (pathText d.protocolPath)).isSome ∧
        referenced.typeEncrypted (pathText d.protocolPath) = required := by
  obtain ⟨ruleSet, isRule⟩ := Option.isSome_iff_exists.mp placed
  have sent : m.messageTimestamp = d.messageTimestamp := by
    rw [Message.messageTimestamp, isWrite]
    rfl
  simp only [resolvePolicy, Message.writeDescriptorOr_eq_ok.mpr isWrite, governingTimestamp, initial,
    if_true, sent, governs, Except.mapError, isRule, okOr, ok_bind, ok_iff, referencedDefinition_ok_iff]
  constructor
  · rintro ⟨_, ⟨_, ⟨isLocal, rfl⟩ | ⟨target, referenced, imports, rfl⟩, _, declared, rfl⟩, rfl⟩
    · exact .inl ⟨isLocal, rfl⟩
    · exact .inr ⟨target, referenced, imports, declared rfl, rfl⟩
  · rintro (⟨isLocal, rfl⟩ | ⟨target, referenced, imports, declared, rfl⟩)
    · exact ⟨_, ⟨none, .inl ⟨isLocal, rfl⟩, (), by simp, rfl⟩, rfl⟩
    · exact ⟨_, ⟨some referenced, .inr ⟨target, referenced, imports, rfl⟩, (), fun _ => declared, rfl⟩,
        rfl⟩

/-- Configuring and writing agree on the encryption of a path just when it is no `$ref` root, or the
referenced protocol has a type of the name of the path that is encrypted as the target is. -/
theorem encryption_policies_agree_iff :
    (∀ required,
      effectiveIncomingPolicy store tenant definition d.messageTimestamp d.protocolPath =
          .ok required ↔
        ∃ policy, resolvePolicy p store tenant m author = .ok policy ∧
          policy.encryptionRequired = required) ↔
      ∀ target referenced,
        Imports store tenant definition d.messageTimestamp d.protocolPath target referenced →
        (referenced.types.lookup (pathText d.protocolPath)).isSome ∧
        referenced.typeEncrypted (pathText d.protocolPath) =
          referenced.typeEncrypted (lastSegment target) := by
  simp only [effectiveIncomingPolicy_ok_iff, resolvePolicy_ok_iff isWrite initial governs placed]
  constructor
  · intro agree target referenced imports
    rcases (agree _).mp (.inr ⟨target, referenced, imports, rfl⟩) with
      ⟨none, -⟩ | ⟨target', referenced', imports', declared, same⟩
    · obtain ⟨_, _, isRef, -⟩ := imports
      cases none.symm.trans isRef
    · obtain ⟨rfl, rfl⟩ := imports.unique imports'
      exact ⟨declared, same⟩
  · intro alike required
    refine or_congr_right (exists₂_congr fun target referenced => and_congr_right fun imports => ?_)
    obtain ⟨declared, same⟩ := alike target referenced imports
    rw [and_iff_right declared, same]

end

open Threads in
theorem threads_encrypted_alike :
    effectiveIncomingPolicy (Threads.stores started).messages "did:ex:alice" Threads.definition 2
        ["thread"] = .ok false ↔
      ∃ policy, resolvePolicy Threads.p (Threads.stores started).messages "did:ex:alice" one
          "did:ex:alice" = .ok policy ∧
        policy.encryptionRequired = false := by
  refine (encryption_policies_agree_iff (d := thread "one" 2) rfl rfl rfl rfl).mpr ?_ false
  rintro _ _ ⟨_, _, ⟨⟩, -⟩

namespace Board

def shelf : Definition :=
  { Threads.definition with
    protocol := "https://shelf"
    types := [("thread", {}), ("post", { encryptionRequired := some true })]
    keyAgreement := some "key"
    structure_ := [("post", { keyAgreement := some "key" })] }

def board : Definition :=
  { Threads.definition with
    uses := some [("shelf", "https://shelf")]
    structure_ := [("thread", { reference := some (.cross "shelf" ["post"]) })] }

def install : Message := Settled.message ⟨1, shelf, none⟩ "shelf"
def compose : Message := Settled.message ⟨1, board, none⟩ "board"

def script : Concrete.Script :=
  Concrete.parties.adding install "d0" "m0" |>.adding compose "dc" "m1"
    |>.posted Threads.one "d1" "m3" "T1"

end Board

open Board in
theorem imported_thread_encrypted_otherwise :
    Board.script.primitives.CollisionFree ∧
    ∃ installed composed written policy,
      processMessage Board.script.primitives {} (Threads.request install "") =
        (accepted, installed) ∧
      processMessage Board.script.primitives installed (Threads.request compose "") =
        (accepted, composed) ∧
      processMessage Board.script.primitives composed (Threads.request Threads.one "one") =
        (accepted, written) ∧
      effectiveIncomingPolicy composed.messages "did:ex:alice" board 2 ["thread"] = .ok true ∧
      resolvePolicy Board.script.primitives composed.messages "did:ex:alice" Threads.one
        "did:ex:alice" = .ok policy ∧
      policy.encryptionRequired = false :=
  ⟨Board.script.collisionFree (by decide) (by decide), _, _, _, _, rfl, rfl, rfl, rfl, rfl, rfl⟩

/-! ## Retained writes -/

/-- Whatever the time, the definition of the protocol declares the path itself, with the one
encryption. -/
def Uniform (store : MessageStore) (tenant : Did) (protocol : String) (path : Path)
    (required : Bool) : Prop :=
  ∀ timestamp definition,
    fetchProtocolDefinition store tenant protocol (some timestamp) = .ok definition →
    definition.refPosition path = none ∧ definition.typeEncrypted (lastSegment path) = required

def WrittenAt (tenant : Did) (protocol : String) (path : Path) (row : Row) : Prop :=
  row.tenant = tenant ∧ ∃ d, row.message.descriptor = .recordsWrite d ∧ d.protocol = protocol ∧
    d.protocolPath = path

theorem enveloped_of_passed {request : Request} {auth : AuthorizationContext} {recordId : String}
    (passed : Passed p store request auth recordId)
    (isWrite : request.message.descriptor = .recordsWrite d)
    (ordinary : ControlKind.fromProtocolPath d.protocolPath = none)
    (uniform : Uniform store request.tenant d.protocol d.protocolPath required) :
    request.message.fields.encryption.isSome = required := by
  have references := passed.references
  simp only [validateReferentialIntegrity, Message.writeDescriptorOr_eq_ok.mpr isWrite, ok_bind,
    ordinary, validateOrdinaryIntegrity, validateRepresentation, resolvePolicy, ok_iff,
    referencedDefinition_ok_iff] at references
  obtain ⟨_, ⟨timestamp, -, definition, governs, _, -, _, imported, _, -, rfl⟩, _,
    ⟨_, encrypted, _, plain, -⟩, -⟩ := references
  obtain ⟨isLocal, rfl⟩ := uniform timestamp definition governs
  rcases imported with ⟨-, rfl⟩ | ⟨_, _, ⟨_, _, isRef, -⟩, -⟩
  · change (definition.typeEncrypted _ = true → _) at encrypted
    change (¬ definition.typeEncrypted _ = true → _) at plain
    cases same : definition.typeEncrypted (lastSegment d.protocolPath) with
    | true => exact encrypted same
    | false => simpa [same] using plain
  · cases isLocal.symm.trans isRef

/-- As long as the definitions of a protocol agree on the encryption of a path, the retained writes
there agree on carrying an envelope. -/
theorem retained_writes_enveloped_alike {stores : Stores}
    (ordinary : ControlKind.fromProtocolPath path = none)
    (reached : Reaches (step p) (fun stores _ => Uniform stores.messages tenant protocol path required)
      {} stores) :
    ∀ row ∈ stores.messages, WrittenAt tenant protocol path row →
      row.message.fields.encryption.isSome = required := by
  refine reached.invariant (P := fun stores => ∀ row ∈ stores.messages,
    WrittenAt tenant protocol path row → row.message.fields.encryption.isSome = required)
    (fun row stored => by cases stored) fun stores event enveloped uniform row stored written => ?_
  rcases mem_step stored with old | ⟨request, new⟩
  · exact enveloped row old written
  obtain ⟨rfl, d, isWrite, rfl, rfl⟩ := written
  cases new with
  | written passed _ _ => exact enveloped_of_passed passed isWrite ordinary uniform
  | kept kept =>
    obtain ⟨old, isOld, ofOld, _, _, same, -⟩ := kept
    simp only [rowOf, same] at isWrite ⊢
    exact enveloped old isOld ⟨ofOld, d, isWrite, rfl, rfl⟩
  | deleted isDelete _ _ _ => cases isDelete.symm.trans isWrite
  | configured isConfigure => cases isConfigure.symm.trans isWrite

open Threads in
theorem first_thread_in_plaintext :
    ∃ a ∈ (stores started).messages, ∃ b ∈ (stores started).messages, a.cid = "m1" ∧ b.cid = "m3" ∧
      WrittenAt "did:ex:alice" uri ["thread"] a ∧ WrittenAt "did:ex:alice" uri ["thread"] b ∧
      a.message.fields.encryption.isSome = false ∧ b.message.fields.encryption.isSome = false := by
  have uniform : AllowedAlong (step Threads.p) (fun stores _ => Uniform stores.messages
      "did:ex:alice" uri ["thread"] false) {} started := by
    refine ⟨(fun _ _ fetched => by cases fetched), fun timestamp _ fetched => ?_,
      fun timestamp _ fetched => ?_, trivial⟩
    all_goals rcases timestamp with _ | _ | _ <;> cases fetched <;> exact ⟨rfl, rfl⟩
  exact ⟨_, .head _, _, .tail _ (.head _), rfl, rfl, ⟨rfl, _, rfl, rfl, rfl⟩, ⟨rfl, _, rfl, rfl, rfl⟩,
    retained_writes_enveloped_alike rfl uniform.reaches _ (.head _) ⟨rfl, _, rfl, rfl, rfl⟩,
    retained_writes_enveloped_alike rfl uniform.reaches _ (.tail _ (.head _)) ⟨rfl, _, rfl, rfl, rfl⟩⟩

namespace Sealed

open Threads

def key : Jwk := "abcdefghijklmnopqrstuvwxyzabcdefghijklmnopq"

def keyed : ConfigureDescriptor where
  messageTimestamp := 5
  definition :=
    { Threads.definition with
      types := [("thread", { encryptionRequired := some true })]
      keyAgreement := some key
      structure_ := [("thread", { keyAgreement := some key })] }

def late : WriteDescriptor := { thread "two" 6 with dateCreated := 6 }

def envelope : EncryptionEnvelope := ⟨"sixteen bytes iv", [.protocolPath key "ephemeral" "wrapped"]⟩

def rekey : Message := Settled.message keyed "rekey"

def secret : Message where
  descriptor := .recordsWrite late
  fields := { (write late "secret" "alice" "T2" ["T2"]).fields with encryption := some envelope }

def script : Concrete.Script :=
  let posted := configuring.adding rekey "d0" "m1" |>.posted one "d1" "m2" "T1"
    |>.posted secret "d2" "m3" "T2"
  { posted with
    cids := (.encryption envelope, "e") :: posted.cids
    writePayloads := ("secret", { payload "d2" "T2" ["T2"] with encryptionCid := some "e" }) ::
      posted.writePayloads }

end Sealed

open Threads Sealed in
theorem late_thread_enveloped_otherwise :
    Sealed.script.primitives.CollisionFree ∧
    ∃ configured rekeyed first stores,
      processMessage Sealed.script.primitives {} (request configureMessage "") =
        (accepted, configured) ∧
      processMessage Sealed.script.primitives configured (request rekey "") = (accepted, rekeyed) ∧
      processMessage Sealed.script.primitives rekeyed (request one "one") = (accepted, first) ∧
      processMessage Sealed.script.primitives first (request secret "two") = (accepted, stores) ∧
      ∀ required, ∃ row ∈ stores.messages, WrittenAt "did:ex:alice" uri ["thread"] row ∧
        row.message.fields.encryption.isSome = required := by
  refine ⟨Sealed.script.collisionFree (by decide) (by decide), _, _, _, _, rfl, rfl, rfl, rfl,
    fun required => ?_⟩
  cases required with
  | true => exact ⟨_, .head _, ⟨rfl, _, rfl, rfl, rfl⟩, rfl⟩
  | false => exact ⟨_, .tail _ (.head _), ⟨rfl, _, rfl, rfl, rfl⟩, rfl⟩

end Enbox.Proof.Protocols
