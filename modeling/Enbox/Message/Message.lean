import Enbox.Message.Protocol

/-!
# Descriptors, fields and messages

A message is a descriptor together with its transport fields. Every field set parses as
`WriteFields` (all of its members are optional), so that is the one shape of fields here;
an embedded delegated grant is itself a RecordsWrite message with its own fields.
-/

namespace Enbox

structure WriteDescriptor where
  protocol : String
  protocolPath : Path
  recipient : Option Did := none
  schema : Option String := none
  tags : Option (List (String × Value)) := none
  parentId : Option String := none
  dataCid : Cid
  dataSize : Nat
  dateCreated : Timestamp
  messageTimestamp : Timestamp
  published : Option Bool := none
  datePublished : Option Timestamp := none
  dataFormat : String
  permissionGrantId : Option String := none
  squash : Option Bool := none
  deriving DecidableEq

structure ReadDescriptor where
  messageTimestamp : Timestamp
  filter : RecordsFilter
  permissionGrantId : Option String := none
  dateSort : Option DateSort := none
  deriving DecidableEq

structure CountDescriptor where
  messageTimestamp : Timestamp
  permissionGrantId : Option String := none
  filter : RecordsFilter
  deriving DecidableEq

structure QueryDescriptor where
  messageTimestamp : Timestamp
  filter : RecordsFilter
  pagination : Option Pagination := none
  permissionGrantId : Option String := none
  dateSort : Option DateSort := none
  deriving DecidableEq

structure SubscribeDescriptor where
  messageTimestamp : Timestamp
  filter : RecordsFilter
  dateSort : Option DateSort := none
  permissionGrantId : Option String := none
  pagination : Option Pagination := none
  cursor : Option ProgressToken := none
  deriving DecidableEq

structure DeleteDescriptor where
  messageTimestamp : Timestamp
  permissionGrantId : Option String := none
  recordId : String
  prune : Bool
  deriving DecidableEq

structure ConfigureDescriptor where
  messageTimestamp : Timestamp
  definition : Definition
  permissionGrantId : Option String := none
  deriving DecidableEq

structure ProtocolsQueryFilter where
  protocol : Option String := none
  recipient : Option Did := none
  deriving DecidableEq

structure ProtocolsQueryDescriptor where
  messageTimestamp : Timestamp
  filter : Option ProtocolsQueryFilter := none
  permissionGrantId : Option String := none
  deriving DecidableEq

structure MessagesReadDescriptor where
  messageTimestamp : Timestamp
  messageCid : Option Cid := none
  permissionGrantIds : Option (List String) := none
  deriving DecidableEq

structure MessagesQueryDescriptor where
  messageTimestamp : Timestamp
  filters : List MessagesFilter := []
  permissionGrantIds : Option (List String) := none
  cursor : Option ProgressToken := none
  limit : Option Nat := none
  cidsOnly : Option Bool := none
  deriving DecidableEq

structure MessagesSubscribeDescriptor where
  messageTimestamp : Timestamp
  filters : List MessagesFilter := []
  permissionGrantIds : Option (List String) := none
  cursor : Option ProgressToken := none
  deriving DecidableEq

inductive SyncAction
  | root
  | subtree
  | leaves
  | diff
  deriving DecidableEq

structure SyncDescriptor where
  messageTimestamp : Timestamp
  action : SyncAction
  protocol : Option String := none
  bitPrefix : Option String := none
  permissionGrantIds : Option (List String) := none
  hashes : Option (List (String × String)) := none
  depth : Option Nat := none
  deriving DecidableEq

inductive Descriptor
  | recordsWrite (d : WriteDescriptor)
  | recordsRead (d : ReadDescriptor)
  | recordsCount (d : CountDescriptor)
  | recordsQuery (d : QueryDescriptor)
  | recordsSubscribe (d : SubscribeDescriptor)
  | recordsDelete (d : DeleteDescriptor)
  | protocolsConfigure (d : ConfigureDescriptor)
  | protocolsQuery (d : ProtocolsQueryDescriptor)
  | messagesRead (d : MessagesReadDescriptor)
  | messagesQuery (d : MessagesQueryDescriptor)
  | messagesSubscribe (d : MessagesSubscribeDescriptor)
  | messagesSync (d : SyncDescriptor)
  deriving DecidableEq

inductive RecordsMethod
  | read | count | query | write | subscribe | delete
  deriving DecidableEq

inductive ProtocolsMethod
  | configure | query
  deriving DecidableEq

inductive MessagesMethod
  | read | query | subscribe | sync
  deriving DecidableEq

inductive MessageKind
  | records (method : RecordsMethod)
  | protocols (method : ProtocolsMethod)
  | messages (method : MessagesMethod)
  deriving DecidableEq

inductive Interface
  | records | protocols | messages
  deriving DecidableEq

def MessageKind.interface : MessageKind → Interface
  | .records _ => .records
  | .protocols _ => .protocols
  | .messages _ => .messages

inductive PermissionGrantInvocation
  | none
  | single (id : String)
  | multi (ids : List String)
  deriving DecidableEq

namespace Descriptor

def kind : Descriptor → MessageKind
  | recordsWrite _ => .records .write
  | recordsRead _ => .records .read
  | recordsCount _ => .records .count
  | recordsQuery _ => .records .query
  | recordsSubscribe _ => .records .subscribe
  | recordsDelete _ => .records .delete
  | protocolsConfigure _ => .protocols .configure
  | protocolsQuery _ => .protocols .query
  | messagesRead _ => .messages .read
  | messagesQuery _ => .messages .query
  | messagesSubscribe _ => .messages .subscribe
  | messagesSync _ => .messages .sync

def messageTimestamp : Descriptor → Timestamp
  | recordsWrite d => d.messageTimestamp
  | recordsRead d => d.messageTimestamp
  | recordsCount d => d.messageTimestamp
  | recordsQuery d => d.messageTimestamp
  | recordsSubscribe d => d.messageTimestamp
  | recordsDelete d => d.messageTimestamp
  | protocolsConfigure d => d.messageTimestamp
  | protocolsQuery d => d.messageTimestamp
  | messagesRead d => d.messageTimestamp
  | messagesQuery d => d.messageTimestamp
  | messagesSubscribe d => d.messageTimestamp
  | messagesSync d => d.messageTimestamp

private def single (id : Option String) : PermissionGrantInvocation :=
  id.elim .none .single

private def multi (ids : Option (List String)) : PermissionGrantInvocation :=
  ids.elim .none .multi

def permissionGrantInvocation : Descriptor → PermissionGrantInvocation
  | recordsWrite d => single d.permissionGrantId
  | recordsRead d => single d.permissionGrantId
  | recordsCount d => single d.permissionGrantId
  | recordsQuery d => single d.permissionGrantId
  | recordsSubscribe d => single d.permissionGrantId
  | recordsDelete d => single d.permissionGrantId
  | protocolsConfigure d => single d.permissionGrantId
  | protocolsQuery d => single d.permissionGrantId
  | messagesRead d => multi d.permissionGrantIds
  | messagesQuery d => multi d.permissionGrantIds
  | messagesSubscribe d => multi d.permissionGrantIds
  -- A sync carries none even when its field is set.
  | messagesSync _ => .none

end Descriptor

structure Authorization (Grant : Type) where
  signature : Jws := {}
  authorDelegatedGrant : Option Grant := none
  ownerSignature : Option Jws := none
  ownerDelegatedGrant : Option Grant := none
  deriving DecidableEq

structure MessageOf (D F : Type) where
  descriptor : D
  fields : F
  deriving DecidableEq

structure Fields where
  authorization : Authorization (MessageOf WriteDescriptor Fields) := {}
  recordId : Option String := none
  contextId : Option Path := none
  encryption : Option EncryptionEnvelope := none
  attestation : Option Jws := none
  encodedData : Option String := none

mutual

def Fields.decEq : (a b : Fields) → Decidable (a = b)
  | ⟨⟨s, a, o, g⟩, r, c, e, t, d⟩, ⟨⟨s', a', o', g'⟩, r', c', e', t', d'⟩ =>
    match decEqGrant a a', decEqGrant g g' with
    | isTrue sameAuthor, isTrue sameOwner =>
        decidable_of_iff (s = s' ∧ o = o' ∧ r = r' ∧ c = c' ∧ e = e' ∧ t = t' ∧ d = d') (by
          simp only [Fields.mk.injEq, Authorization.mk.injEq, sameAuthor, sameOwner, true_and,
            and_true, and_assoc])
    | isFalse otherAuthor, _ => isFalse (by simp [otherAuthor])
    | _, isFalse otherOwner => isFalse (by simp [otherOwner])

def decEqGrant : (a b : Option (MessageOf WriteDescriptor Fields)) → Decidable (a = b)
  | none, none => isTrue rfl
  | none, some _ => isFalse (by simp)
  | some _, none => isFalse (by simp)
  | some ⟨d, f⟩, some ⟨d', f'⟩ =>
    match Fields.decEq f f' with
    | isTrue sameFields => decidable_of_iff (d = d') (by simp [sameFields])
    | isFalse otherFields => isFalse (by simp [otherFields])

end

instance : DecidableEq Fields := Fields.decEq

abbrev Message := MessageOf Descriptor Fields
abbrev WriteMessage := MessageOf WriteDescriptor Fields

def WriteMessage.toMessage (m : WriteMessage) : Message := ⟨.recordsWrite m.descriptor, m.fields⟩

namespace Message

abbrev recordId (m : Message) : Option String := m.fields.recordId
abbrev contextId (m : Message) : Option Path := m.fields.contextId
abbrev messageTimestamp (m : Message) : Timestamp := m.descriptor.messageTimestamp

def writeDescriptor (m : Message) : Option WriteDescriptor :=
  match m.descriptor with
  | .recordsWrite d => some d
  | _ => none

theorem writeDescriptor_eq_some {m : Message} {d : WriteDescriptor} :
    m.writeDescriptor = some d ↔ m.descriptor = .recordsWrite d := by
  unfold writeDescriptor
  split <;> simp_all

def withoutEncodedData (m : Message) : Message :=
  -- Inline `encodedData` is transport-only.
  ⟨m.descriptor, { m.fields with encodedData := none }⟩

end Message

def Authorization.isEmpty {Grant : Type} (a : Authorization Grant) : Bool :=
  a.signature = {} && a.authorDelegatedGrant.isNone && a.ownerSignature.isNone
    && a.ownerDelegatedGrant.isNone

inductive CidInput
  | descriptor (d : Descriptor)
  | entry (author : Did) (d : WriteDescriptor)
  | message (m : Message)
  | jws (j : Jws)
  | encryption (e : EncryptionEnvelope)
  deriving DecidableEq

end Enbox
