import Enbox.Store.Subscription

/-! # Guarded subscriptions (`handlers/guarded_subscription.rs`) -/

namespace Enbox

inductive DeliveryDecision
  | forward (message : SubscriptionMessage)
  | suppress
  | fail (cursor : ProgressToken) (error : SubscriptionError)

inductive GuardCommand
  | message (message : SubscriptionMessage)
  | flush

/-- Where the worker's loop awaits: the queue, the processor, and the close callback. -/
inductive GuardWorker (Close : Type)
  | receiving
  | processing (message : SubscriptionMessage)
  | closing (close : Option Close) (cursor : ProgressToken) (error : SubscriptionError)

/-- `GuardState` with the channel, the worker and what they have done. The channel is all that was
enqueued, of which the worker is done with the first commands. The guarded listener holds the sender
until it is dropped. A flush that cannot upgrade the sender returns at once. -/
structure GuardedSubscription (Close : Type) where
  close : Option Close := none
  closeRequested : Bool := false
  held : Bool := true
  enqueued : List GuardCommand := []
  done : Nat := 0
  worker : GuardWorker Close := .receiving
  terminal : Bool := false
  heard : List SubscriptionMessage := []
  installed : List Close := []
  invoked : List Close := []
  unflushed : List Nat := []

/-- A dropped listener's sender can be upgraded only while another flush borrows it. -/
inductive GuardAction (Close : Type)
  | send (message : SubscriptionMessage)
  | drop
  | flush (borrowed : Bool)
  | installClose (close : Close)
  | work

namespace GuardedSubscription

variable {Close : Type} (processor : Nat → SubscriptionMessage → DeliveryDecision)

def received (guard : GuardedSubscription Close) : GuardedSubscription Close :=
  { guard with worker := .receiving, done := guard.done + 1 }

/-- The worker of `create_guarded_subscription` up to its next await. The section of `close` under the
lock belongs to the decision it follows. -/
def work (guard : GuardedSubscription Close) : GuardedSubscription Close :=
  match guard.worker with
  | .receiving =>
    match guard.enqueued[guard.done]? with
    | none => guard
    | some .flush => guard.received
    | some (.message message) =>
      if guard.terminal then guard.received else { guard with worker := .processing message }
  | .processing message =>
    match processor guard.done message with
    | .forward message => { guard.received with heard := guard.heard ++ [message] }
    | .suppress => guard.received
    | .fail cursor error =>
      { guard with
        terminal := true
        closeRequested := true
        worker := .closing guard.close cursor error }
  | .closing close cursor error =>
    { guard.received with
      invoked := guard.invoked ++ close.toList
      heard := guard.heard ++ [.error cursor error] }

def act (guard : GuardedSubscription Close) : GuardAction Close → GuardedSubscription Close
  | .send message =>
    if guard.held then { guard with enqueued := guard.enqueued ++ [.message message] } else guard
  | .drop => { guard with held := false }
  | .flush borrowed =>
    if guard.held || borrowed then { guard with enqueued := guard.enqueued ++ [.flush] }
    else { guard with unflushed := guard.unflushed ++ [guard.enqueued.length] }
  | .installClose close =>
    { guard with
      close := some close
      installed := guard.installed ++ [close]
      invoked := guard.invoked ++ if guard.closeRequested then [close] else [] }
  | .work => guard.work processor

def Flushed (guard : GuardedSubscription Close) (before : Nat) : Prop :=
  guard.enqueued[before]? = some .flush ∧ before < guard.done ∨ before ∈ guard.unflushed

end GuardedSubscription

end Enbox
