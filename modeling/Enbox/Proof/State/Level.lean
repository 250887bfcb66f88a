import Enbox.Proof.Run.Context
import Enbox.Proof.State.Backed

/-! # Levels -/

namespace Enbox.Proof.State

open Lib Run Relation

variable {recordId parent : String} {depth : Nat}

def Level (p : Primitives) (recordId : String) (depth : Nat) : Prop :=
  ∃ author d, p.entryId author d = recordId ∧ isOrdinary d = true ∧ d.protocolPath.length = depth

def Nested (p : Primitives) (row : Row) : Prop :=
  ∀ recordId, StateMessage row.message recordId → ∃ author d₀, p.entryId author d₀ = recordId ∧
    (∀ d, row.message.descriptor = .recordsWrite d → d.protocolPath = d₀.protocolPath) ∧
    (isOrdinary d₀ = true → ∀ parent, d₀.parentId = some parent →
      ∃ depth, Level p parent depth ∧ depth + 1 = d₀.protocolPath.length)

section

variable {p : Primitives} {stores : Stores} {request : Request}

theorem Level.unique (law : p.CollisionFree) {m n : Nat} (first : Level p recordId m)
    (second : Level p recordId n) : m = n := by
  obtain ⟨_, d, entry, -, rfl⟩ := first
  obtain ⟨_, e, entry', -, rfl⟩ := second
  rw [(entryId_inj law (entry.trans entry'.symm)).2]

theorem level_of_accepts (sound : Sound p stores.messages) {d : WriteDescriptor}
    {auth : AuthorizationContext} (accepts : Accepts p stores.messages request d auth recordId)
    (ordinary : isOrdinary d = true) (named : d.parentId = some parent) :
    ∃ depth, Level p parent depth ∧ depth + 1 = d.protocolPath.length := by
  obtain ⟨_, d', _, found, isWrite, isParent, above, -⟩ := parent_of_accepts accepts ordinary named
  obtain ⟨row, stored, -, rfl, selected⟩ := mem_first found
  obtain ⟨_, author, _, indexed⟩ := (sound.filed row stored).of_isWrite isWrite
  refine ⟨_, ⟨author, d', ?_, isParent, rfl⟩, above⟩
  simpa [indexed.entryId] using selected

theorem nested_newRow {row : Row} (sound : Sound p stores.messages)
    (nested : ∀ row ∈ stores.messages, Nested p row)
    (new : NewRow p stores request row) : Nested p row := by
  intro recordId state
  rcases newRow_enters_or_follows sound new state with
    ⟨auth, d, accepts, entry, isWrite, -⟩ | ⟨old, stored, ofOld, -, follows⟩
  · refine ⟨auth.author, d, entry, fun e isE => ?_, fun ordinary parent named =>
      level_of_accepts sound accepts ordinary named⟩
    cases isWrite.symm.trans isE
    rfl
  · obtain ⟨author, d₀, entry, paths, parents⟩ := nested old stored recordId ofOld
    refine ⟨author, d₀, entry, fun e isE => ?_, parents⟩
    obtain ⟨e₀, isOld, -, samePath⟩ := follows e isE
    exact samePath.symm.trans (paths e₀ isOld)

variable {store : MessageStore} {tenant : Did}

theorem parent_of_childOf (entered : ∀ row ∈ store, Entered p row) {child : String}
    (isChild : ChildOf store tenant parent child) :
    ∃ row ∈ store, OfRecord tenant child row ∧ ∃ author d, p.entryId author d = child ∧
      d.parentId = some parent := by
  obtain ⟨row, stored, ofRecord, selected⟩ := isChild
  obtain ⟨author, d, entry, parentId, -⟩ := entered row stored _ ofRecord.state
  refine ⟨row, stored, ofRecord, author, d, entry, ?_⟩
  simp only [childFilters, matchesSet_cons, parentId, Bool.and_eq_true] at selected
  cases named : d.parentId with
  | none => simp [named] at selected
  | some id => simpa [named] using selected.2

section

variable (law : p.CollisionFree) (entered : ∀ row ∈ store, Entered p row)

include law entered

theorem childOf_unique {a b child : String} (first : ChildOf store tenant a child)
    (second : ChildOf store tenant b child) : a = b := by
  obtain ⟨_, -, -, _, d, entry, named⟩ := parent_of_childOf entered first
  obtain ⟨_, -, -, _, e, entry', named'⟩ := parent_of_childOf entered second
  obtain ⟨-, rfl⟩ := entryId_inj law (entry.trans entry'.symm)
  exact Option.some.inj (named.symm.trans named')

theorem level_of_childOf (nested : ∀ row ∈ store, Nested p row) {child : String}
    (isChild : ChildOf store tenant parent child) (level : Level p child depth) :
    ∃ above, Level p parent above ∧ above < depth := by
  obtain ⟨row, stored, ofRecord, _, d, entry, named⟩ := parent_of_childOf entered isChild
  obtain ⟨_, d₀, founded, -, parents⟩ := nested row stored _ ofRecord.state
  obtain ⟨_, e, entry', ordinary, rfl⟩ := level
  obtain ⟨-, rfl⟩ := entryId_inj law (entry.trans founded.symm)
  obtain ⟨-, rfl⟩ := entryId_inj law (entry.trans entry'.symm)
  obtain ⟨above, isAbove, next⟩ := parents ordinary parent named
  exact ⟨above, isAbove, by omega⟩

theorem not_below_self (nested : ∀ row ∈ store, Nested p row) (level : Level p recordId depth) :
    ¬ TransGen (ChildOf store tenant) recordId recordId := by
  have climbs {a b : String} (below : TransGen (ChildOf store tenant) a b) :
      ∀ depth, Level p b depth → ∃ above, Level p a above ∧ above < depth := by
    induction below with
    | single isChild => exact fun _ => level_of_childOf law entered nested isChild
    | tail _ isChild ih =>
      intro depth level
      obtain ⟨middle, isMiddle, lower⟩ := level_of_childOf law entered nested isChild level
      obtain ⟨above, isAbove, less⟩ := ih middle isMiddle
      exact ⟨above, isAbove, less.trans lower⟩
  intro cycle
  obtain ⟨above, isAbove, less⟩ := climbs cycle depth level
  exact absurd (isAbove.unique law level) less.ne

end

end

end Enbox.Proof.State
