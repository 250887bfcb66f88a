import Enbox.Message.Types

/-!
# Tags on the wire

The tags of a message are read from JSON without a type and typed by their content: a text that reads
as a timestamp becomes an instant, one that reads as a CID a CID, and `true` and `false` become
booleans. What is written back is the canonical text of each. Numbers that are not integers and nested
objects, which the schema of tags refuses, are left out.
-/

namespace Enbox

/-- The integers `serde_json` keeps as integers: from `i64::MIN` to `u64::MAX`. -/
structure JsonInteger where
  value : Int
  low : -9223372036854775808 ≤ value
  high : value < 18446744073709551616
  deriving DecidableEq

inductive Json
  | null
  | bool (b : Bool)
  | integer (n : JsonInteger)
  | string (s : String)
  | array (items : List Json)

structure I64 where
  value : Int
  low : -9223372036854775808 ≤ value
  high : value < 9223372036854775808
  deriving DecidableEq

inductive TagValue
  | null
  | bool (b : Bool)
  | string (s : String)
  | number (n : I64)
  | cid (text : Cid)
  | dateTime (t : Timestamp)
  | array (items : List TagValue)

/-- The parsers and printers of the two kinds of text that are typed. A CID is its canonical text. -/
structure TextForms where
  parseRfc3339 : String → Option Timestamp
  canonicalRfc3339 : Timestamp → String
  parseCid : String → Option Cid

/-- `value as i64`. -/
def JsonInteger.asI64 (n : JsonInteger) : I64 :=
  if small : n.value < 9223372036854775808 then ⟨n.value, n.low, small⟩
  else ⟨n.value - 18446744073709551616, by omega, by have := n.high; omega⟩

def I64.toJson (n : I64) : JsonInteger := ⟨n.value, n.low, by have := n.high; omega⟩

namespace TagValue

variable (forms : TextForms)

def visitStr (text : String) : TagValue :=
  match forms.parseRfc3339 text with
  | some timestamp => .dateTime timestamp
  | none =>
      match forms.parseCid text with
      | some parsed => .cid parsed
      | none =>
          if text = "true" then .bool true
          else if text = "false" then .bool false
          else .string text

mutual

def deserialize : Json → TagValue
  | .null => .null
  | .bool b => .bool b
  | .integer n => .number n.asI64
  | .string text => visitStr forms text
  | .array items => .array (deserializeAll items)

def deserializeAll : List Json → List TagValue
  | [] => []
  | item :: rest => deserialize item :: deserializeAll rest

end

mutual

def serialize : TagValue → Json
  | .null => .null
  | .bool b => .bool b
  | .string text => .string text
  | .number n => .integer n.toJson
  | .cid text => .string text
  | .dateTime timestamp => .string (forms.canonicalRfc3339 timestamp)
  | .array items => .array (serializeAll items)

def serializeAll : List TagValue → List Json
  | [] => []
  | item :: rest => serialize item :: serializeAll rest

end

end TagValue

/-- A `BTreeMap<String, V>`. -/
structure TagMap (V : Type) where
  entries : List (String × V)
  sorted : (entries.map Prod.fst).Pairwise (· < ·)

def TagMap.map {V W : Type} (f : V → W) (tags : TagMap V) : TagMap W where
  entries := tags.entries.map fun entry => (entry.1, f entry.2)
  sorted := by simpa [Function.comp_def] using tags.sorted

def deserializeTags (forms : TextForms) (tags : TagMap Json) : TagMap TagValue :=
  tags.map (TagValue.deserialize forms)

def serializeTags (forms : TextForms) (tags : TagMap TagValue) : TagMap Json :=
  tags.map (TagValue.serialize forms)

def TagValue.scalar : TagValue → Option Scalar
  | .null => some .null
  | .bool b => some (.bool b)
  | .string text => some (.string text)
  | .number n => some (.number n.value)
  | .cid text => some (.cid text)
  | .dateTime timestamp => some (.dateTime timestamp)
  | .array _ => none

def TagValue.value : TagValue → Option Value
  -- The schema of tags admits no array of arrays.
  | .array items => (items.mapM TagValue.scalar).map .array
  | other => other.scalar.map .scalar

def TagMap.values (tags : TagMap TagValue) : List (String × Value) :=
  tags.entries.filterMap fun entry => entry.2.value.map fun value => (entry.1, value)

end Enbox
