import Enbox.Lib.Least
import Enbox.Lib.Utf8
import Enbox.Protocols.Definition
import Enbox.Store.TextOrder
import Mathlib.Data.Prod.Lex

/-!
# The occupants of limited record paths

A store over rows keeps the ids of the occupants; a store over SQL compares the rank key of each row
with the cutoff of its group.
-/

namespace Enbox

open Lib

structure OccupancyCandidate where
  recordId : String
  parentId : Option String
  dateCreated : String
  deriving DecidableEq

structure OccupancySelection where
  occupantIds : TextSet
  cutoffs : List (Option String × String)
  deriving DecidableEq

structure RankKey where
  dateCreated : String
  recordId : String
  deriving DecidableEq

namespace RankKey

def pair (rank : RankKey) : Lex (String × String) := toLex (rank.dateCreated, rank.recordId)

theorem pair_injective : Function.Injective pair := by
  intro a b same
  cases a
  cases b
  simpa [pair] using same

instance instLinearOrder : LinearOrder RankKey := LinearOrder.lift' pair pair_injective

def key (rank : RankKey) : String := rank.dateCreated ++ "\x00" ++ rank.recordId

end RankKey

variable (candidates : List OccupancyCandidate)

def OccupancyCandidate.rank (candidate : OccupancyCandidate) : RankKey :=
  ⟨candidate.dateCreated, candidate.recordId⟩

def OccupancyCandidate.selectedBy (parentIds : Option TextSet) (candidate : OccupancyCandidate) :
    Bool :=
  -- Records without a parent are left out of an explicit selection.
  match parentIds with
  | none => true
  | some selected => candidate.parentId.any (· ∈ selected.texts)

def occupancyGroups : List (Option String) :=
  (if candidates.any (·.parentId.isNone) then [none] else []) ++
    (TextSet.ofList (candidates.filterMap (·.parentId))).texts.map some

def rankedGroup (max : Nat) (group : Option String) : List RankKey :=
  least max ((candidates.filter (·.parentId = group)).map (·.rank))

def admitGroups (max : Nat) : OccupancySelection where
  occupantIds := TextSet.ofList ((occupancyGroups candidates).flatMap fun group =>
    (rankedGroup candidates max group).map (·.recordId))
  cutoffs := (occupancyGroups candidates).filterMap fun group =>
    (rankedGroup candidates max group).getLast?.map fun cutoff => (group, cutoff.key)

def selectOccupants (max : Nat) (parentIds : Option TextSet) : Except String OccupancySelection :=
  if max = 0 then
    .error "MessageStoreRecordLimitInvalidMax: record-limit max must be a positive integer"
  else .ok (admitGroups (candidates.filter (·.selectedBy parentIds)) max)

def binaryLe (a b : String) : Bool := ¬ utf8 b.toList < utf8 a.toList

/-- The predicate of the cutoffs, on the columns it reads. No cutoff, no row (`1 = 0`). -/
def occupancyCutoffs (cutoffs : List (Option String × String)) (candidate : OccupancyCandidate) :
    Bool :=
  cutoffs.any fun branch =>
    candidate.parentId = branch.1 && binaryLe candidate.rank.key branch.2

end Enbox
