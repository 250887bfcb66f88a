import Enbox.Message.Wire
import Enbox.Proof.Concrete
import Enbox.Records.Control
import Mathlib.Data.String.Basic

/-! # What is read back from tags -/

namespace Enbox.Proof.Message

open Lib TagValue

variable {forms : TextForms}

structure StaysText (forms : TextForms) (text : String) : Prop where
  date : forms.parseRfc3339 text = none
  cid : forms.parseCid text = none
  bool : text ≠ "true" ∧ text ≠ "false"

theorem visitStr_eq_string_iff {text other : String} :
    visitStr forms text = .string other ↔ other = text ∧ StaysText forms text := by
  unfold visitStr
  constructor
  · intro same
    split at same
    · cases same
    · split at same
      · cases same
      · split at same
        · cases same
        · split at same <;> cases same
          exact ⟨rfl, ‹_›, ‹_›, ‹_›, ‹_›⟩
  · rintro ⟨rfl, date, cid, isTrue, isFalse⟩
    simp [date, cid, isTrue, isFalse]

theorem lookup_values (tags : TagMap Json) (name : String) :
    (deserializeTags forms tags).values.lookup name =
      (tags.entries.lookup name).bind fun json => (deserialize forms json).value := by
  have distinct : DistinctKeys (deserializeTags forms tags).entries :=
    (deserializeTags forms tags).sorted.imp ne_of_lt
  rw [TagMap.values, lookup_filterMap_values _ distinct]
  change ((tags.entries.map fun entry => (entry.1, deserialize forms entry.2)).lookup
    name).bind _ = _
  rw [lookup_map_entries fun _ => deserialize forms, Option.bind_map]
  rfl

theorem requiredStringTag_eq_ok_iff {message : Message} {d : WriteDescriptor} {kind : ControlKind}
    {tags : TagMap Json} (isWrite : message.writeDescriptor = some d)
    (parsed : d.tags = some (deserializeTags forms tags).values) {name text value : String}
    (carried : tags.entries.lookup name = some (.string text)) :
    requiredStringTag message name kind = .ok value ↔ value = text ∧ StaysText forms text := by
  have found : (message.writeDescriptor.bind (·.tags)).bind (·.lookup name) =
      (visitStr forms text).value := by
    simp [isWrite, parsed, lookup_values, carried, deserialize]
  rw [requiredStringTag, found, ← visitStr_eq_string_iff]
  constructor
  · intro read
    split at read
    · rename_i other isString
      cases read
      revert isString
      cases visitStr forms text <;> simp [TagValue.value, scalar]
    · cases read
  · intro same
    simp [same, TagValue.value, scalar]

theorem audienceId_of_parsed_tags (forms : TextForms) (message : Message) (d : WriteDescriptor)
    (kind : ControlKind) (tags : TagMap Json) (protocol rolePath contextId keyId : String)
    (isWrite : message.writeDescriptor = some d)
    (parsed : d.tags = some (deserializeTags forms tags).values)
    (carriesProtocol : tags.entries.lookup "protocol" = some (.string protocol))
    (carriesRolePath : tags.entries.lookup "rolePath" = some (.string rolePath))
    (carriesContextId : tags.entries.lookup "contextId" = some (.string contextId))
    (carriesKeyId : tags.entries.lookup "keyId" = some (.string keyId))
    (agrees : d.protocol = protocol) :
    AudienceId.fromMessage message kind = .ok ⟨⟨protocol, rolePath, contextId⟩, keyId⟩ ↔
      ∀ text ∈ [protocol, rolePath, contextId, keyId], StaysText forms text := by
  simp only [AudienceId.fromMessage, ok_iff, isWrite,
    requiredStringTag_eq_ok_iff isWrite parsed carriesProtocol,
    requiredStringTag_eq_ok_iff isWrite parsed carriesRolePath,
    requiredStringTag_eq_ok_iff isWrite parsed carriesContextId,
    requiredStringTag_eq_ok_iff isWrite parsed carriesKeyId]
  subst agrees
  simp only [List.forall_mem_cons, List.not_mem_nil, false_imp_iff, implies_true, and_true]
  constructor
  · rintro ⟨_, -, _, ⟨rfl, first⟩, _, ⟨rfl, second⟩, _, ⟨rfl, third⟩, _, ⟨rfl, fourth⟩, -⟩
    exact ⟨first, second, third, fourth⟩
  · rintro ⟨first, second, third, fourth⟩
    exact ⟨d, rfl, _, ⟨rfl, first⟩, _, ⟨rfl, second⟩, _, ⟨rfl, third⟩, _, ⟨rfl, fourth⟩, (), rfl, rfl⟩

namespace Audiences

def thread : String := "bafyreigdyrzt5sfp7udm7hu76uh7y26nf3efuylqabf3oclgtqy55fbzdi"
def topic : String := "bafyreib2rxk3rybk3aobmv5cjuql3bm2twh4jo5uxgf5kpqcsgz7soitae"

def textForms : TextForms where
  parseRfc3339 text := if text = "2025-01-01T00:00:00Z" then some 1735689600 else none
  canonicalRfc3339 _ := "2025-01-01T00:00:00.000000Z"
  parseCid text :=
    if text.toList.take 4 = ['b', 'a', 'f', 'y'] ∧ '/' ∉ text.toList then some text else none

def tags (rolePath contextId : String) : TagMap Json where
  entries := [("contextId", .string contextId), ("keyId", .string "key"),
    ("protocol", .string "https://threads"), ("rolePath", .string rolePath)]
  sorted := show ["contextId", "keyId", "protocol", "rolePath"].Pairwise (· < ·) by decide

def descriptor (rolePath contextId : String) : WriteDescriptor :=
  { Concrete.note with
    protocol := "https://threads"
    protocolPath := ControlKind.audience.protocolPath
    tags := some (deserializeTags textForms (tags rolePath contextId)).values }

def message (rolePath contextId : String) : Message :=
  { Concrete.noteMessage with descriptor := .recordsWrite (descriptor rolePath contextId) }

end Audiences

theorem deep_context_read_back :
    AudienceId.fromMessage (Audiences.message "thread/topic/member"
        (Audiences.thread ++ "/" ++ Audiences.topic)) .audience =
      .ok ⟨⟨"https://threads", "thread/topic/member", Audiences.thread ++ "/" ++ Audiences.topic⟩,
        "key"⟩ := by
  apply (audienceId_of_parsed_tags Audiences.textForms _ _ .audience
    (Audiences.tags "thread/topic/member" (Audiences.thread ++ "/" ++ Audiences.topic))
    "https://threads" "thread/topic/member" (Audiences.thread ++ "/" ++ Audiences.topic) "key"
    rfl rfl rfl rfl rfl rfl rfl).mpr
  simp only [List.forall_mem_cons, List.not_mem_nil, false_imp_iff, implies_true, and_true]
  refine ⟨⟨by decide, by decide, by decide⟩, ⟨by decide, by decide, by decide⟩,
    ⟨by decide +kernel, by decide +kernel, by decide +kernel⟩, by decide, by decide, by decide⟩

theorem thread_context_lost :
    AudienceId.fromMessage (Audiences.message "thread/member" Audiences.thread) .audience =
      .error (.dwn .encryptionControlValidateAudienceMissingRequiredTag
        "control record requires a string 'contextId' tag") := by
  rfl

def CanonicalText (forms : TextForms) (text : String) : Prop :=
  match forms.parseRfc3339 text with
  | some timestamp => forms.canonicalRfc3339 timestamp = text
  | none =>
      match forms.parseCid text with
      | some parsed => parsed = text
      | none => text ≠ "true" ∧ text ≠ "false"

mutual

def CanonicalJson (forms : TextForms) : Json → Prop
  | .null => True
  | .bool _ => True
  | .integer n => n.value ≤ 9223372036854775807
  | .string text => CanonicalText forms text
  | .array items => CanonicalItems forms items

def CanonicalItems (forms : TextForms) : List Json → Prop
  | [] => True
  | item :: rest => CanonicalJson forms item ∧ CanonicalItems forms rest

end

theorem serialize_visitStr_iff {text : String} :
    serialize forms (visitStr forms text) = .string text ↔
      CanonicalText forms text := by
  unfold visitStr CanonicalText
  cases forms.parseRfc3339 text with
  | some timestamp => simp [serialize]
  | none =>
    cases forms.parseCid text with
    | some parsed => simp [serialize]
    | none =>
      dsimp only
      split
      · rename_i isTrue
        simp [serialize, isTrue]
      · split
        · rename_i isFalse
          simp [serialize, isFalse]
        · rename_i isTrue isFalse
          simp [serialize, isTrue, isFalse]

theorem asI64_toJson_iff (n : JsonInteger) : n.asI64.toJson = n ↔ n.value ≤ 9223372036854775807 := by
  obtain ⟨value, low, high⟩ := n
  unfold JsonInteger.asI64 I64.toJson
  dsimp only
  split
  · simp only [true_iff]
    omega
  · simp only [JsonInteger.mk.injEq]
    omega

mutual

theorem serialize_deserialize_iff : ∀ json : Json,
    serialize forms (deserialize forms json) = json ↔ CanonicalJson forms json
  | .null => by simp [deserialize, serialize, CanonicalJson]
  | .bool b => by simp [deserialize, serialize, CanonicalJson]
  | .integer n => by
    simp [deserialize, serialize, CanonicalJson, asI64_toJson_iff]
  | .string text => by
    rw [deserialize, serialize_visitStr_iff, CanonicalJson]
  | .array items => by
    rw [deserialize, serialize, CanonicalJson, Json.array.injEq]
    exact serializeAll_deserializeAll_iff items

theorem serializeAll_deserializeAll_iff : ∀ items : List Json,
    serializeAll forms (deserializeAll forms items) = items ↔
      CanonicalItems forms items
  | [] => by simp [deserializeAll, serializeAll, CanonicalItems]
  | item :: rest => by
    rw [deserializeAll, serializeAll, CanonicalItems, List.cons.injEq,
      serialize_deserialize_iff item, serializeAll_deserializeAll_iff rest]

end

theorem tags_read_back_iff (forms : TextForms) (tags : TagMap Json) :
    (serializeTags forms (deserializeTags forms tags) = tags ↔
      ∀ entry ∈ tags.entries, CanonicalJson forms entry.2) ∧
    ∀ (Rest : Type) (cid : Rest × TagMap Json → Cid), Function.Injective cid → ∀ rest,
      (cid (rest, serializeTags forms (deserializeTags forms tags)) = cid (rest, tags) ↔
        ∀ entry ∈ tags.entries, CanonicalJson forms entry.2) := by
  have same : serializeTags forms (deserializeTags forms tags) = tags ↔
      ∀ entry ∈ tags.entries, CanonicalJson forms entry.2 := by
    obtain ⟨entries, sorted⟩ := tags
    simp only [serializeTags, deserializeTags, TagMap.map, TagMap.mk.injEq, List.map_map]
    nth_rewrite 2 [← List.map_id entries]
    rw [List.map_inj_left]
    simp only [Function.comp_apply, id_eq, Prod.ext_iff, true_and, serialize_deserialize_iff]
  refine ⟨same, fun Rest cid injective rest => ?_⟩
  rw [injective.eq_iff, Prod.mk.injEq, same]
  simp

namespace Labels

def plain : TagMap Json where
  entries := [("archived", .bool true), ("labels", .array [.string "inbox", .string "sent"]),
    ("rank", .integer ⟨3, by decide, by decide⟩)]
  sorted := by decide

def word : TagMap Json where
  entries := [("answer", .string "true")]
  sorted := by decide

end Labels

theorem plain_labels_read_back :
    serializeTags Audiences.textForms (deserializeTags Audiences.textForms Labels.plain) =
      Labels.plain := by
  apply (tags_read_back_iff Audiences.textForms Labels.plain).1.mpr
  simp [Labels.plain, CanonicalJson, CanonicalItems, CanonicalText, Audiences.textForms]

theorem word_not_read_back :
    (serializeTags Audiences.textForms (deserializeTags Audiences.textForms Labels.word)).entries =
      [("answer", .bool true)] ∧
    serializeTags Audiences.textForms (deserializeTags Audiences.textForms Labels.word) ≠
      Labels.word := by
  refine ⟨rfl, fun same => ?_⟩
  have entries := congrArg TagMap.entries same
  change [("answer", Json.bool true)] = [("answer", Json.string "true")] at entries
  simp at entries

end Enbox.Proof.Message
