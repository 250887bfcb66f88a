import Enbox.Lib.Filter
import Enbox.Message.Message

/-! # Index maps and the filters that select them -/

namespace Enbox

open Lib

/-- The index properties the handlers write; `tag` is the family `tag.<name>`. -/
inductive IndexKey
  | interface
  | method
  | messageTimestamp
  | protocol
  | protocolPath
  | recipient
  | schema
  | parentId
  | dataCid
  | dataSize
  | dataFormat
  | dateCreated
  | datePublished
  | published
  | permissionGrantId
  | squash
  | isLatestBaseState
  | author
  | attester
  | recordId
  | entryId
  | contextId
  | prune
  | tag (name : String)
  deriving DecidableEq

abbrev Indexes := List (IndexKey × Value)
abbrev FilterSet := List (IndexKey × Filter)
abbrev Filters := List FilterSet

def compareText (a b : String) : Ordering := compareChars a.toList b.toList
where
  compareChars : List Char → List Char → Ordering
    | [], [] => .eq
    | [], _ :: _ => .lt
    | _ :: _, [] => .gt
    | a :: as, b :: bs => (compare a.toNat b.toNat).then (compareChars as bs)

/-! ## RFC 3339 -/

abbrev Scan := StateT (List Char) Option

def scanNumber (width : Nat) : Scan Nat := fun text =>
  let digits := text.take width
  if digits.length = width ∧ digits.all Char.isDigit then
    some (Nat.ofDigitChars 10 digits 0, text.drop width)
  else none

def scanOneOf (allowed : List Char) : Scan Char
  | char :: rest => if char ∈ allowed then some (char, rest) else none
  | [] => none

def scanAfter (separators : List Char) (width : Nat) : Scan Nat :=
  scanOneOf separators *> scanNumber width

def scanNanosecond : Scan Nat
  | '.' :: rest =>
      let digits := rest.takeWhile Char.isDigit
      if digits.isEmpty then none
      else some (Nat.ofDigitChars 10 ((digits ++ List.replicate 8 '0').take 9) 0,
        rest.drop digits.length)
  | text => some (0, text)

def scanOffset : Scan Int := do
  let sign ← scanOneOf ['Z', 'z', '+', '-', '−']
  if sign = 'Z' ∨ sign = 'z' then return 0
  let hours ← scanNumber 2
  let minutes ← scanAfter [':'] 2
  guard (hours < 24 ∧ minutes < 60)
  return (if sign = '+' then 60 else -60) * (60 * hours + minutes)

/-- The days since 1970. -/
def scanDate : Scan Int := do
  let year ← scanNumber 4
  let month ← scanAfter ['-'] 2
  let day ← scanAfter ['-'] 2
  let february := if year % 4 = 0 ∧ (year % 100 ≠ 0 ∨ year % 400 = 0) then 29 else 28
  let months := [31, february, 31, 30, 31, 30, 31, 31, 30, 31, 30, 31]
  guard (0 < month ∧ 0 < day ∧ day ≤ months.getD (month - 1) 0)
  let leapDays : Int := (year + 3) / 4 - (year + 99) / 100 + (year + 399) / 400
  return 365 * year + leapDays + (months.take (month - 1)).foldl Nat.add 0 + day - 719529

/-- Orders instants as `chrono` does: the nanoseconds of a leap second pass `10 ^ 9`. -/
def instant (second : Int) (nanosecond : Nat) : Int := 2000000000 * second + nanosecond

def parseRfc3339 (text : String) : Option Int := do
  let scan : Scan Int := do
    let days ← scanDate
    let hour ← scanAfter ['T', 't', ' '] 2
    let minute ← scanAfter [':'] 2
    let second ← scanAfter [':'] 2
    guard (hour < 24 ∧ minute < 60 ∧ second ≤ 60)
    let nanosecond ← scanNanosecond
    let offset ← scanOffset
    return instant (86400 * days + 3600 * hour + 60 * minute + min second 59 - offset)
      (nanosecond + if second = 60 then 1000000000 else 0)
  let (parsed, rest) ← scan text.toList
  guard rest.isEmpty
  return parsed

def datetimeValue : Scalar → Option Int
  | .dateTime time => some (instant (time / 1000000) (time % 1000000 * 1000))
  | .string text => parseRfc3339 text
  | _ => none

def compareDatetimes (left right : Scalar) : Option Ordering :=
  return compare (← datetimeValue left) (← datetimeValue right)

def compareScalars : Scalar → Scalar → Option Ordering
  -- `compare_values`: `none` when the two are not naturally comparable.
  | .number a, .number b => some (compare a b)
  | .string a, .string b => compareDatetimes (.string a) (.string b) <|> some (compareText a b)
  | .dateTime a, .dateTime b => some (compare a b)
  | .cid a, .cid b => some (compareText a b)
  | .bool a, .bool b => some (compare a b)
  | a, b => compareDatetimes a b

def Bound.admitsLower (actual : Scalar) : Bound Scalar → Bool
  | .unbounded => true
  | .included expected => (compareScalars actual expected).any (·.isGE)
  | .excluded expected => (compareScalars actual expected).any (·.isGT)

def Bound.admitsUpper (actual : Scalar) : Bound Scalar → Bool
  | .unbounded => true
  | .included expected => (compareScalars actual expected).any (·.isLE)
  | .excluded expected => (compareScalars actual expected).any (·.isLT)

def valuesEqualFlexibly : Scalar → Scalar → Bool
  -- A `Cid` equals the `String` that prints it.
  | .cid actual, .string expected => actual = expected
  | .string actual, .cid expected => actual = expected
  | actual, expected => actual = expected

def matchesEqual (expected : Scalar) : Value → Bool
  | .scalar actual => valuesEqualFlexibly actual expected
  | .array items => items.any (valuesEqualFlexibly · expected)

def matchesFilter (actual : Value) : Filter → Bool
  | .equal expected => matchesEqual expected actual
  | .oneOf expected => expected.any (matchesEqual · actual)
  | .startsWith text =>
      match actual with
      | .scalar (.string actual) => text.toList.isPrefixOf actual.toList
      | _ => false
  | .range lower upper =>
      match actual with
      | .scalar actual => lower.admitsLower actual && upper.admitsUpper actual
      | .array _ => lower = .unbounded && upper = .unbounded
  | .subtree root =>
      match actual with
      | .scalar (.path actual) => underPath root actual
      | _ => false

section

variable (lower upper : Bound Scalar)

end

def matchesSet (indexes : Indexes) (set : FilterSet) : Bool :=
  filterSetHolds matchesFilter indexes set

def matchesFilters (indexes : Indexes) (filters : Filters) : Bool :=
  filters.isEmpty || filters.any (matchesSet indexes)

abbrev stringFilter (value : String) : Filter := .equal (.string value)
abbrev boolFilter (value : Bool) : Filter := .equal (.bool value)
abbrev pathFilter (value : Path) : Filter := .equal (.path value)

@[simp] theorem matchesSet_nil (indexes : Indexes) : matchesSet indexes [] = true := rfl

@[simp] theorem matchesSet_cons (indexes : Indexes) (key : IndexKey) (filter : Filter)
    (set : FilterSet) : matchesSet indexes ((key, filter) :: set) =
      ((indexes.lookup key).any (matchesFilter · filter) && matchesSet indexes set) := rfl

@[simp] theorem matchesSet_append (indexes : Indexes) (set more : FilterSet) :
    matchesSet indexes (set ++ more) = (matchesSet indexes set && matchesSet indexes more) :=
  List.all_append

@[simp] theorem matchesFilter_equal (actual : Value) (expected : Scalar) :
    matchesFilter actual (.equal expected) = matchesEqual expected actual := rfl

@[simp] theorem matchesEqual_scalar (expected actual : Scalar) :
    matchesEqual expected (.scalar actual) = valuesEqualFlexibly actual expected := rfl

theorem valuesEqualFlexibly_iff {actual expected : Scalar} :
    valuesEqualFlexibly actual expected = true ↔ actual = expected ∨
      ∃ text, (actual = .cid text ∧ expected = .string text) ∨
        (actual = .string text ∧ expected = .cid text) := by
  cases actual <;> cases expected <;> simp [valuesEqualFlexibly, eq_comm]

@[simp] theorem valuesEqualFlexibly_string {actual expected : String} :
    valuesEqualFlexibly (.string actual) (.string expected) = true ↔ actual = expected := by
  simp [valuesEqualFlexibly]

@[simp] theorem valuesEqualFlexibly_bool {actual : Scalar} {expected : Bool} :
    valuesEqualFlexibly actual (.bool expected) = true ↔ actual = .bool expected := by
  simp [valuesEqualFlexibly]

@[simp] theorem valuesEqualFlexibly_path {actual : Scalar} {expected : Path} :
    valuesEqualFlexibly actual (.path expected) = true ↔ actual = .path expected := by
  simp [valuesEqualFlexibly]

@[simp] theorem matchesFilters_singleton (indexes : Indexes) (set : FilterSet) :
    matchesFilters indexes [set] = matchesSet indexes set := by
  simp [matchesFilters]

theorem matchesFilters_iff {indexes : Indexes} {filters : Filters} :
    matchesFilters indexes filters = true ↔
      filters = [] ∨ ∃ set ∈ filters, matchesSet indexes set = true := by
  simp [matchesFilters]

theorem matchesSet_clause {indexes : Indexes} {set : FilterSet} (selected : matchesSet indexes set)
    {key : IndexKey} {filter : Filter} (mem : (key, filter) ∈ set) :
    ∃ value, indexes.lookup key = some value ∧ matchesFilter value filter = true :=
  clauseHolds_iff.mp (filterSetHolds_iff.mp selected _ mem)

end Enbox
