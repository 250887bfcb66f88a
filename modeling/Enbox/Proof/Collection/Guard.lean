import Enbox.Lib.Run
import Enbox.Records.Guard

/-! # What a guarded subscription hands to its listener -/

namespace Enbox.Proof.Collection

open GuardedSubscription List

variable {Close : Type} {processor : Nat → SubscriptionMessage → DeliveryDecision}
  {guard : GuardedSubscription Close}

def deliveries (processor : Nat → SubscriptionMessage → DeliveryDecision) :
    Nat → List GuardCommand → List SubscriptionMessage
  | _, [] => []
  | count, .flush :: rest => deliveries processor (count + 1) rest
  | count, .message message :: rest =>
    match processor count message with
    | .forward message => message :: deliveries processor (count + 1) rest
    | .suppress => deliveries processor (count + 1) rest
    | .fail cursor error => [.error cursor error]

def outstanding (processor : Nat → SubscriptionMessage → DeliveryDecision)
    (guard : GuardedSubscription Close) (commands : List GuardCommand) :
    List SubscriptionMessage :=
  match guard.worker with
  | .closing _ cursor error => [.error cursor error]
  | _ => if guard.terminal then [] else deliveries processor guard.done commands

def inCall : GuardWorker Close → List Close
  | .closing close _ _ => close.toList
  | _ => []

def Staged (terminal : Bool) (done : Nat) (enqueued : List GuardCommand) :
    GuardWorker Close → Prop
  | .receiving => done ≤ enqueued.length
  | .processing message => terminal = false ∧ enqueued[done]? = some (.message message)
  | .closing _ _ _ => terminal = true ∧ done < enqueued.length

structure Guarded (processor : Nat → SubscriptionMessage → DeliveryDecision)
    (guard : GuardedSubscription Close) : Prop where
  conserved : ∀ more, deliveries processor 0 (guard.enqueued ++ more) =
    guard.heard ++ outstanding processor guard (guard.enqueued.drop guard.done ++ more)
  staged : Staged guard.terminal guard.done guard.enqueued guard.worker
  requested : guard.closeRequested = guard.terminal
  closes : guard.installed.length ≤ 1 → guard.close = guard.installed.head? ∧
    guard.invoked ++ inCall guard.worker = if guard.terminal then guard.installed else []

theorem Guarded.work (ok : Guarded processor guard) : Guarded processor (guard.work processor) := by
  rcases guard with ⟨close, requested, held, enqueued, done, worker, terminal, heard, installed,
    invoked, unflushed⟩
  obtain ⟨conserved, staged, same, closes⟩ := ok
  obtain rfl : requested = terminal := same
  have next {command : GuardCommand} (here : enqueued[done]? = some command) :
      enqueued.drop done = command :: enqueued.drop (done + 1) := by
    obtain ⟨within, rfl⟩ := List.getElem?_eq_some_iff.mp here
    exact drop_eq_getElem_cons within
  have within {command : GuardCommand} (here : enqueued[done]? = some command) :
      done < enqueued.length := (List.getElem?_eq_some_iff.mp here).1
  cases worker with
  | receiving =>
    simp only [outstanding] at conserved
    simp only [GuardedSubscription.work]
    rcases here : enqueued[done]? with - | message | -
    · exact ⟨conserved, staged, rfl, closes⟩
    · cases requested with
      | true => exact ⟨conserved, within here, rfl, closes⟩
      | false => exact ⟨conserved, ⟨rfl, here⟩, rfl, closes⟩
    · simp only [next here] at conserved
      exact ⟨conserved, within here, rfl, closes⟩
  | processing message =>
    obtain ⟨rfl, here⟩ : requested = false ∧ enqueued[done]? = some (.message message) := staged
    simp only [outstanding, next here, cons_append, deliveries] at conserved
    simp only [GuardedSubscription.work]
    cases decision : processor done message <;> simp only [decision] at conserved
    case forward other =>
      refine ⟨?_, within here, rfl, closes⟩
      simpa [outstanding, received] using conserved
    case suppress => exact ⟨conserved, within here, rfl, closes⟩
    case fail cursor error =>
      refine ⟨conserved, ⟨rfl, within here⟩, rfl, fun single => ?_⟩
      obtain ⟨isHead, calls⟩ : close = installed.head? ∧ invoked ++ [] = [] := closes single
      obtain rfl := (append_nil invoked).symm.trans calls
      -- The callback read under the lock is the one that was installed.
      exact ⟨isHead, isHead ▸ take_one.symm.trans (take_of_length_le single)⟩
  | closing close cursor error =>
    obtain ⟨rfl, within⟩ : requested = true ∧ done < enqueued.length := staged
    exact ⟨fun more => (conserved more).trans (append_nil _).symm, within, rfl,
      fun single => ⟨(closes single).1, (append_nil _).trans (closes single).2⟩⟩

theorem Staged.append {terminal : Bool} {done : Nat} {enqueued : List GuardCommand}
    {worker : GuardWorker Close} (staged : Staged terminal done enqueued worker)
    (command : GuardCommand) :
    done ≤ enqueued.length ∧ Staged terminal done (enqueued ++ [command]) worker := by
  have longer : enqueued.length ≤ (enqueued ++ [command]).length := by simp
  cases worker with
  | receiving => exact ⟨staged, staged.trans longer⟩
  | processing message =>
    have within := (List.getElem?_eq_some_iff.mp staged.2).1
    exact ⟨within.le, staged.1, (List.getElem?_append_left within).trans staged.2⟩
  | closing => exact ⟨staged.2.le, staged.1, staged.2.trans_le longer⟩

theorem Guarded.enqueue (ok : Guarded processor guard) (command : GuardCommand) :
    Guarded processor { guard with enqueued := guard.enqueued ++ [command] } := by
  obtain ⟨within, staged⟩ := ok.staged.append command
  refine { ok with conserved := fun more => ?_, staged := staged }
  rw [append_assoc, drop_append_of_le_length within, append_assoc]
  exact ok.conserved _

theorem Guarded.act (ok : Guarded processor guard) (action : GuardAction Close) :
    Guarded processor (guard.act processor action) := by
  cases action with
  | work => exact ok.work
  | drop => exact { ok with }
  | send message =>
    rw [GuardedSubscription.act]
    split
    · exact ok.enqueue _
    · exact ok
  | flush borrowed =>
    rw [GuardedSubscription.act]
    split
    · exact ok.enqueue _
    · exact { ok with }
  | installClose close =>
    refine { ok with closes := fun single => ?_ }
    have none : guard.installed = [] := by simpa [GuardedSubscription.act] using single
    have calls := (ok.closes (none ▸ Nat.zero_le 1)).2
    simp only [none, ite_self, append_eq_nil_iff] at calls
    simp [GuardedSubscription.act, none, calls, ok.requested]

structure Rested (guard : GuardedSubscription Close) : Prop where
  worker : guard.worker = .receiving
  done : guard.enqueued.length ≤ guard.done

def toDo (guard : GuardedSubscription Close) : Nat :=
  3 * (guard.enqueued.length - guard.done) - match guard.worker with
    | .receiving => 0
    | .processing _ => 1
    | .closing _ _ _ => 2

theorem toDo_work (ok : Guarded processor guard) (busy : ¬ Rested guard) :
    toDo (guard.work processor) < toDo guard := by
  rcases guard with ⟨close, requested, held, enqueued, done, worker, terminal⟩
  have staged := ok.staged
  cases worker with
  | receiving =>
    have more : done < enqueued.length := Nat.lt_of_not_ge fun rest => busy ⟨rfl, rest⟩
    simp only [work, List.getElem?_eq_getElem more]
    cases enqueued[done] with
    | flush => simp only [toDo, received]; omega
    | message message => cases terminal <;> simp [toDo, received] <;> omega
  | processing message =>
    have more := (List.getElem?_eq_some_iff.mp staged.2).1
    simp only [work]
    cases processor done message <;> simp [toDo, received] at * <;> omega
  | closing =>
    have more : done < enqueued.length := staged.2
    simp [toDo, work, received]
    omega

theorem exists_rested (ok : Guarded processor guard) :
    ∃ count, Rested ((work processor)^[count] guard) := by
  induction size : toDo guard using Nat.strong_induction_on generalizing guard with
  | _ size ih =>
    by_cases rested : Rested guard
    · exact ⟨0, rested⟩
    · obtain ⟨count, rests⟩ := ih _ (size ▸ toDo_work ok rested) ok.work rfl
      exact ⟨count + 1, rests⟩

/-- The listener hears what the processor forwards up to its first failure and then one error, the
callback of `install_close` is called once after a failure, and a flush that finds the sender returns
after the commands before it. The worker comes to rest. -/
theorem guarded_subscription_forwards_and_fences
    (processor : Nat → SubscriptionMessage → DeliveryDecision)
    (actions : List (GuardAction Close)) :
    let guard := actions.foldl (act processor) {}
    guard.heard <+: deliveries processor 0 guard.enqueued ∧
      (Rested guard → guard.heard = deliveries processor 0 guard.enqueued) ∧
      (guard.terminal → ∀ close, guard.installed = [close] →
        guard.invoked.length ≤ 1 ∧ (Rested guard → guard.invoked = [close])) ∧
      (∀ before, guard.Flushed before → before ∉ guard.unflushed → before ≤ guard.done) ∧
      ∃ count, Rested ((work processor)^[count] guard) := by
  intro guard
  have ok : Guarded processor guard := (Lib.reaches_foldl _ actions _).invariant
    ⟨fun _ => rfl, Nat.le_refl 0, rfl, fun _ => ⟨rfl, rfl⟩⟩ fun _ action ok _ => ok.act action
  have conserved := ok.conserved []
  rw [append_nil, append_nil] at conserved
  refine ⟨⟨_, conserved.symm⟩, fun rest => ?_, fun failed close single => ?_,
    fun before flushed found => ?_, exists_rested ok⟩
  · simp only [outstanding, rest.worker, drop_of_length_le rest.done, deliveries, ite_self,
      append_nil] at conserved
    exact conserved.symm
  · have calls := (ok.closes (single ▸ Nat.le_refl 1)).2
    rw [if_pos failed, single] at calls
    refine ⟨?_, fun rest => ?_⟩
    · exact Nat.le.intro (length_append.symm.trans (congrArg List.length calls))
    · simpa only [rest.worker, inCall, append_nil] using calls
  · exact (flushed.resolve_right found).2.le

theorem flush_returns_before_queued_message :
    let guard := [GuardAction.send (.eose ⟨"", "", "", none⟩), .drop, .flush false].foldl
      (act fun _ message => .forward message) ({} : GuardedSubscription Unit)
    guard.enqueued.length = 1 ∧ guard.Flushed 1 ∧ guard.done = 0 ∧ guard.heard = [] :=
  ⟨rfl, .inr (.head _), rfl, rfl⟩

end Enbox.Proof.Collection
