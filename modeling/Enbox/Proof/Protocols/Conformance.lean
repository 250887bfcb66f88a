import Enbox.Proof.Run.Threads

/-! # What the type of a record and its tag rules enforce -/

namespace Enbox.Proof.Protocols

open Lib Run

variable {p : Primitives} {d : WriteDescriptor}

structure TypeAdmits (type : ProtocolType) (d : WriteDescriptor) : Prop where
  schema : ∀ schema ∈ type.schema, d.schema = some schema
  dataFormat : ∀ formats ∈ type.dataFormats, formats ≠ [] → d.dataFormat ∈ formats

structure TagsAdmit (rules : Tags) (d : WriteDescriptor) : Prop where
  required : ∀ name ∈ rules.requiredTags, name ∈ (d.tags.getD []).map Prod.fst
  undefined : rules.allowUndefinedTags ≠ some true →
    ∀ name ∈ (d.tags.getD []).map Prod.fst, name ∈ rules.tags.map Prod.fst

def Conforms (policy : EffectivePolicy) (d : WriteDescriptor) : Prop :=
  (∀ type ∈ policy.definition.types.lookup (lastSegment d.protocolPath), TypeAdmits type d) ∧
    ∀ rules ∈ policy.ruleSet.tags, TagsAdmit rules d

def DeclaresNothing (policy : EffectivePolicy) (path : Path) : Prop :=
  (∀ type ∈ policy.definition.types.lookup (lastSegment path),
    type.schema = none ∧ ∀ formats ∈ type.dataFormats, formats = []) ∧
    ∀ rules ∈ policy.ruleSet.tags, rules.requiredTags = [] ∧ rules.allowUndefinedTags = some true

theorem DeclaresNothing.conforms {policy : EffectivePolicy}
    (nothing : DeclaresNothing policy d.protocolPath) : Conforms policy d := by
  obtain ⟨noType, noTags⟩ := nothing
  refine ⟨fun type declared => ⟨fun schema isSchema => ?_, fun formats listed some => ?_⟩,
    fun rules declared => ⟨fun name listed => ?_, fun closed => ?_⟩⟩
  · rw [(noType type declared).1] at isSchema
    cases isSchema
  · exact absurd ((noType type declared).2 formats listed) some
  · rw [(noTags rules declared).1] at listed
    cases listed
  · exact absurd (noTags rules declared).2 closed

namespace Strict

open Threads

def definition : Definition :=
  { Threads.definition with
    types := [("thread",
      { schema := some "https://schema", dataFormats := some ["application/json"] }), ("note", {})]
    structure_ := [("thread",
      { tags := some { requiredTags := ["topic"], tags := [("topic", { tagType := "string" })] } }),
      ("note", {})] }

def configured : ConfigureDescriptor := { Threads.configure with definition }

def labelled : WriteDescriptor :=
  { thread "two" 2 with
    schema := some "https://schema", dataFormat := "application/json"
    tags := some [("topic", .string "lean")] }

def noted : WriteDescriptor := { thread "note" 2 with protocolPath := ["note"] }

def configure : Message := { configureMessage with descriptor := .protocolsConfigure configured }
def topical : Message := write labelled "two" "alice" "T2" ["T2"]
def note : Message := write noted "note" "alice" "N" ["N"]

def script : Concrete.Script :=
  Concrete.parties.adding configure "dc" "m0" |>.posted one "d1" "m3" "T1" |>.posted topical "d2" "m4" "T2"
    |>.posted note "dn" "m5" "N"

noncomputable abbrev q : Primitives := script.primitives

def events : List Event :=
  [.request (request configure ""), .request (request topical "two"), .request (request note "note")]

end Strict

end Enbox.Proof.Protocols
