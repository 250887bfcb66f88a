import Enbox.Permission.Failure
import Enbox.Store.Index
import Mathlib.Data.List.Sort

/-! # The message store -/

namespace Enbox

open Lib

structure Row where
  tenant : Did
  cid : Cid
  message : Message
  indexes : Indexes
  deriving DecidableEq

abbrev MessageStore := List Row

inductive SortDirection
  | ascending
  | descending
  deriving DecidableEq

inductive MessageSort
  | dateCreated (direction : SortDirection)
  | datePublished (direction : SortDirection)
  | timestamp (direction : SortDirection)
  deriving DecidableEq

def MessageSort.property : MessageSort → IndexKey
  | dateCreated _ => .dateCreated
  | datePublished _ => .datePublished
  | timestamp _ => .messageTimestamp

def MessageSort.direction : MessageSort → SortDirection
  | dateCreated direction => direction
  | datePublished direction => direction
  | timestamp direction => direction

def compareIndexes : Option Value → Option Value → Ordering
  | some (.scalar a), some (.scalar b) => (compareScalars a b).getD .eq
  | some _, some _ => .eq
  | some _, none => .gt
  | none, some _ => .lt
  | none, none => .eq

def SortDirection.apply : SortDirection → Ordering → Ordering
  | ascending, order => order
  | descending, order => order.swap

def compareRows (sort : MessageSort) (a b : Row) : Ordering :=
  sort.direction.apply
    ((compareIndexes (a.indexes.lookup sort.property) (b.indexes.lookup sort.property)).then
      (compareText a.cid b.cid))

structure LatestStateMutation where
  message : Message
  indexes : Indexes
  deriving DecidableEq

structure LatestStateTransition where
  put : LatestStateMutation
  retains : List LatestStateMutation := []
  deletes : List Cid := []
  deriving DecidableEq

namespace MessageStore

variable (store : MessageStore) (tenant : Did) (filters : Filters)

def selected : List Row :=
  store.filter fun row => row.tenant = tenant && matchesFilters row.indexes filters

/-- `query` without a page limit. Rows without the sort property are left out. -/
def rows (sort : MessageSort := .timestamp .ascending) : List Row :=
  ((store.selected tenant filters).filter fun row => (row.indexes.lookup sort.property).isSome).insertionSort
    fun a b => compareRows sort a b ≠ .gt

def query (sort : MessageSort := .timestamp .ascending) : List Message :=
  (store.rows tenant filters sort).map (·.message)

def first (sort : MessageSort := .timestamp .ascending) : Option Message :=
  (store.query tenant filters sort).head?

def get (cid : Cid) : Option Message :=
  (store.find? fun row => row.tenant = tenant && row.cid = cid).map (·.message)

def delete (cid : Cid) : MessageStore :=
  store.filter fun row => ¬ (row.tenant = tenant ∧ row.cid = cid)

def put (p : Primitives) (store : MessageStore) (tenant : Did) (mutation : LatestStateMutation) :
    MessageStore :=
  { tenant, cid := p.messageCid mutation.message, message := mutation.message,
    indexes := mutation.indexes } :: store.delete tenant (p.messageCid mutation.message)

end MessageStore

/-- Names the first CID that has already occurred. -/
def invalidLatestStateTransition (cids : List Cid) (problem : String) : Failure :=
  .internal ("MessageStoreLatestStateTransitionInvalid: message CID '" ++
    ((cids.inits.find? fun seen => ¬ seen.Nodup).bind (·.getLast?)).getD "" ++ "' " ++ problem)

def LatestStateTransition.validate (p : Primitives) (transition : LatestStateTransition) :
    Except Failure Unit := do
  let mutated := (transition.put :: transition.retains).map fun m => p.messageCid m.message
  ensure mutated.Nodup
    (invalidLatestStateTransition mutated "occurs more than once in put/retains")
  ensure (mutated ++ transition.deletes).Nodup
    (invalidLatestStateTransition (mutated ++ transition.deletes) "is both mutated and deleted")

namespace MessageStore

def retain (p : Primitives) (tenant : Did) :
    MessageStore → List LatestStateMutation → Except Failure MessageStore
  | store, [] => .ok store
  | store, retained :: rest => do
      ensure (store.get tenant (p.messageCid retained.message)).isSome
        (.internal ("MessageStoreLatestStateRetainMissing: retained message '" ++
          p.messageCid retained.message ++ "' does not exist"))
      retain p tenant (store.put p tenant retained) rest

def commitLatestState (p : Primitives) (store : MessageStore) (tenant : Did)
    (transition : LatestStateTransition) : Except Failure MessageStore := do
  transition.validate p
  let retained ← retain p tenant (store.put p tenant transition.put) transition.retains
  return transition.deletes.foldl (fun staged cid => staged.delete tenant cid) retained

end MessageStore

end Enbox
