import Enbox.Proof.Run.Step
import Enbox.Store.TextOrder
import Mathlib.Data.Prod.Lex

/-! # The order of state messages -/

namespace Enbox.Proof.Run

open Lib List

variable {p : Primitives} {message : Message} {recordId : String} {candidate : RecordsStateOrder}
  {retained : List Message}

abbrev Rank := ℕ ×ₗ ℕ ×ₗ String

def rankOf (order : RecordsStateOrder) : Rank :=
  toLex (order.stateClass.rank, toLex (order.messageTimestamp, order.messageCid))

theorem compare_toLex {α β : Type} [LinearOrder α] [LinearOrder β] (a c : α) (b d : β) :
    compare (toLex (a, b)) (toLex (c, d)) = (compare a c).then (compare b d) := by
  rw [Prod.Lex.compare_def]
  rfl

theorem compareOrder_eq_compare (a b : RecordsStateOrder) :
    compareOrder a b = compare (rankOf a) (rankOf b) := by
  rw [compareOrder, rankOf, rankOf, compare_toLex, compare_toLex, compareText_eq_compare]

theorem compareMessages_eq_compare (p : Primitives) (a b : Message) :
    compareMessages p a b = compare (toLex (a.messageTimestamp, p.messageCid a))
      (toLex (b.messageTimestamp, p.messageCid b)) := by
  rw [compareMessages, compare_toLex, compareText_eq_compare]

theorem maxBy_eq_some {α κ : Type} [LinearOrder κ] {cmp : α → α → Ordering} {key : α → κ}
    (agrees : ∀ a b, cmp a b = compare (key a) (key b)) {items : List α} {best : α}
    (found : maxBy cmp items = some best) : best ∈ items ∧ ∀ a ∈ items, key a ≤ key best := by
  cases items with
  | nil => cases found
  | cons first rest =>
    simp only [maxBy, Option.some.injEq] at found
    subst found
    induction rest generalizing first with
    | nil => simp
    | cons next rest ih =>
      have above : cmp first next = .gt ↔ key next < key first := by
        rw [agrees, compare_gt_iff_gt]
      rw [foldl_cons]
      split
      · rename_i isAbove
        obtain ⟨listed, greatest⟩ := ih first
        simp only [mem_cons, forall_eq_or_imp] at listed greatest ⊢
        exact ⟨by tauto, greatest.1, (above.mp isAbove).le.trans greatest.1, greatest.2⟩
      · rename_i notAbove
        obtain ⟨listed, greatest⟩ := ih next
        simp only [mem_cons, forall_eq_or_imp] at listed greatest ⊢
        exact ⟨by tauto, (not_lt.mp (notAbove ∘ above.mpr)).trans greatest.1, greatest⟩

theorem maxBy_eq_none {α : Type} {cmp : α → α → Ordering} {items : List α} :
    maxBy cmp items = none ↔ items = [] := by
  cases items <;> simp [maxBy]

theorem newestMessage_eq_some {messages : List Message} {newest : Message}
    (found : newestMessage p messages = some newest) : newest ∈ messages ∧
      ∀ m ∈ messages, m.messageTimestamp ≤ newest.messageTimestamp := by
  obtain ⟨listed, greatest⟩ := maxBy_eq_some (compareMessages_eq_compare p) found
  refine ⟨listed, fun m other => ?_⟩
  rcases Prod.Lex.toLex_le_toLex.mp (greatest m other) with below | ⟨same, -⟩
  · exact below.le
  · exact same.le

inductive StateMessage (message : Message) (recordId : String) : Prop
  | write {d : WriteDescriptor} (isWrite : message.descriptor = .recordsWrite d)
      (record : message.recordId = some recordId)
  | delete {d : DeleteDescriptor} (isDelete : message.descriptor = .recordsDelete d)
      (bare : message.recordId = none) (record : d.recordId = recordId)

def stateClass : Descriptor → RecordsStateClass
  | .recordsDelete d => if d.prune then .prune else .delete
  | _ => .write

def rank (p : Primitives) (message : Message) : Rank :=
  toLex ((stateClass message.descriptor).rank, toLex (message.messageTimestamp, p.messageCid message))

theorem StateMessage.messageRecordId (state : StateMessage message recordId) :
    messageRecordId message = some recordId := by
  cases state with
  | write isWrite record => simp [Enbox.messageRecordId, record]
  | delete isDelete bare record =>
    simp [Enbox.messageRecordId, bare, Message.deleteDescriptor_eq_some.mpr isDelete, record]

theorem timestamp_le_of_rank_le {a b : Message}
    (sameClass : stateClass a.descriptor = stateClass b.descriptor) (below : rank p a ≤ rank p b) :
    a.messageTimestamp ≤ b.messageTimestamp := by
  by_contra later
  refine below.not_gt ?_
  rw [rank, rank, Prod.Lex.toLex_lt_toLex, Prod.Lex.toLex_lt_toLex]
  exact .inr ⟨congrArg RecordsStateClass.rank sameClass.symm, .inl (not_le.mp later)⟩

theorem rank_inj {a b : Message} (same : rank p a = rank p b) :
    p.messageCid a = p.messageCid b := by
  simp only [rank, EmbeddingLike.apply_eq_iff_eq, Prod.mk.injEq] at same
  exact same.2.2

@[simp] theorem rank_setEncodedData (p : Primitives) (m : Message) (data : Option String) :
    rank p (setEncodedData m data) = rank p m := rfl

theorem RecordsStateOrder.of_ok {order : RecordsStateOrder}
    (ordered : RecordsStateOrder.of p message = .ok order) :
    rankOf order = rank p message ∧ order.messageCid = p.messageCid message := by
  unfold RecordsStateOrder.of at ordered
  split at ordered
  · rename_i d isWrite
    simp only [ok_iff] at ordered
    obtain ⟨recordId, -, rfl⟩ := ordered
    simp [rankOf, rank, stateClass, isWrite, Message.messageTimestamp, Descriptor.messageTimestamp]
  · rename_i d isDelete
    cases ordered
    simp [rankOf, rank, stateClass, isDelete, Message.messageTimestamp, Descriptor.messageTimestamp]
  · cases ordered

theorem StateMessage.order (state : StateMessage message recordId) : ∃ order,
    RecordsStateOrder.of p message = .ok order ∧ order.recordId = recordId := by
  cases state with
  | write isWrite record => simp [RecordsStateOrder.of, isWrite, record, okOr, pure, Except.pure]
  | delete isDelete _ record => simp [RecordsStateOrder.of, isDelete, record]

theorem retainedStates_ok :
    ∀ {states : List RecordsStateOrder}, retainedStates p candidate retained = .ok (some states) →
      states.map rankOf = retained.map (rank p) ∧
      states.map (·.messageCid) = retained.map p.messageCid ∧
      candidate.messageCid ∉ retained.map p.messageCid := by
  induction retained with
  | nil =>
    intro states found
    cases found
    simp
  | cons m rest ih =>
    intro states found
    simp only [retainedStates, ok_iff] at found
    obtain ⟨state, ordered, -, -, found⟩ := found
    split at found
    · cases found
    · rename_i other
      simp only [ok_iff, Option.map_eq_some_iff] at found
      obtain ⟨_, found, others, rfl, rfl⟩ := found
      obtain ⟨ranks, cids, absent⟩ := ih found
      obtain ⟨sameRank, sameCid⟩ := RecordsStateOrder.of_ok ordered
      simp only [map_cons, ranks, cids, sameRank, sameCid, mem_cons, not_or,
        true_and]
      exact ⟨fun same => other (sameCid.trans same.symm), absent⟩

theorem retainedStates_duplicate (found : retainedStates p candidate retained = .ok none) :
    candidate.messageCid ∈ retained.map p.messageCid := by
  induction retained with
  | nil => cases found
  | cons m rest ih =>
    simp only [retainedStates, ok_iff] at found
    obtain ⟨state, ordered, -, -, found⟩ := found
    rw [map_cons, mem_cons]
    split at found
    · rename_i same
      exact .inl (same.symm.trans (RecordsStateOrder.of_ok ordered).2)
    · simp only [ok_iff, Option.map_eq_none_iff] at found
      obtain ⟨_, found, rfl⟩ := found
      exact .inr (ih found)

theorem retainedStates_total (states : ∀ m ∈ retained, StateMessage m candidate.recordId) :
    ∃ found, retainedStates p candidate retained = .ok found := by
  induction retained with
  | nil => exact ⟨_, rfl⟩
  | cons m rest ih =>
    obtain ⟨order, ordered, record⟩ := (states m mem_cons_self).order (p := p)
    obtain ⟨found, isFound⟩ := ih fun m listed => states m (mem_cons_of_mem _ listed)
    rw [retainedStates, ordered, ok_bind, ensure_true record, ok_bind, isFound]
    split
    · exact ⟨_, rfl⟩
    · exact ⟨_, rfl⟩

theorem planRecordsTransition_total (state : StateMessage message recordId)
    (states : ∀ m ∈ retained, StateMessage m recordId) :
    ∃ plan, planRecordsTransition p message retained = .ok plan := by
  obtain ⟨order, ordered, rfl⟩ := state.order (p := p)
  obtain ⟨found, isFound⟩ := retainedStates_total (p := p) states
  exact ⟨_, by rw [planRecordsTransition, ordered, ok_bind, isFound, ok_bind]; rfl⟩

def Plans (p : Primitives) (message : Message) (retained : List Message) :
    RecordsTransitionPlan → Prop
  | .duplicate _ => p.messageCid message ∈ retained.map p.messageCid
  | .superseded _ _ => ∃ m ∈ retained, rank p message < rank p m
  | .apply _ outranked => (∀ m ∈ retained, rank p m < rank p message) ∧
      ∀ cid, cid ∈ outranked ↔ cid ∈ retained.map p.messageCid

theorem plans_of_ok {plan : RecordsTransitionPlan}
    (planned : planRecordsTransition p message retained = .ok plan) :
    Plans p message retained plan := by
  simp only [planRecordsTransition, ok_iff] at planned
  obtain ⟨candidate, ordered, found, isFound, rfl⟩ := planned
  obtain ⟨sameRank, sameCid⟩ := RecordsStateOrder.of_ok ordered
  cases found with
  | none =>
    rw [Option.elim_none, Plans, ← sameCid]
    exact retainedStates_duplicate isFound
  | some states =>
    obtain ⟨ranks, cids, absent⟩ := retainedStates_ok isFound
    have ranked (m : Message) (listed : m ∈ retained) : rank p m ∈ states.map rankOf :=
      ranks ▸ mem_map_of_mem listed
    have applies (above : ∀ state ∈ states, rankOf state < rankOf candidate) :
        Plans p message retained (.apply candidate.messageCid (outrankedCids candidate states)) := by
      refine ⟨fun m listed => ?_, fun cid => ?_⟩
      · obtain ⟨state, isState, same⟩ := mem_map.mp (ranked m listed)
        rw [← same, ← sameRank]
        exact above state isState
      · have all : states.filter (compareOrder · candidate = .lt) = states :=
          filter_eq_self.mpr fun state isState => by
            simpa [compareOrder_eq_compare, compare_lt_iff_lt] using above state isState
        rw [outrankedCids, all, cids, sortTexts, mem_insertionSort]
    rw [Option.elim_some]
    unfold planAgainst
    split
    · rename_i none
      exact applies (by simp [maxBy_eq_none.mp none])
    · rename_i winner isWinner
      obtain ⟨isState, greatest⟩ := maxBy_eq_some compareOrder_eq_compare isWinner
      have gt : compareOrder candidate winner = .gt ↔ rankOf winner < rankOf candidate := by
        rw [compareOrder_eq_compare, compare_gt_iff_gt]
      split
      · rename_i notAbove
        have below := not_lt.mp (notAbove ∘ gt.mpr)
        obtain ⟨m, listed, same⟩ := mem_map.mp (ranks ▸ mem_map_of_mem isState)
        refine ⟨m, listed, lt_of_le_of_ne (by rw [same, ← sameRank]; exact below) fun equal => ?_⟩
        exact absent (sameCid ▸ rank_inj equal ▸ mem_map_of_mem listed)
      · rename_i above
        have winnerBelow := gt.mp (not_not.mp above)
        exact applies fun state isState => (greatest state isState).trans_lt winnerBelow

end Enbox.Proof.Run
