import Enbox.Proof.EventLog.Contract

/-! # Histories of subscriptions -/

namespace Enbox.Proof.EventLog

open Lib Proof.Store

structure History (Feed : Type) where
  course : Course Feed
  snapshot : Option Feed := none

namespace History

variable {Feed : Type} (history : History Feed)

def pass (position : Nat) : History Feed :=
  match history.snapshot with
  | some feed => { history with course := history.course.pass feed position }
  | none => history

def hand (position : Nat) : History Feed :=
  match history.snapshot with
  | some feed => { history with course := history.course.hand feed position }
  | none => history

def afterDelivery (entry : EventLogEntry) : DeliveryStage → History Feed
  | .listening _ => history.hand (positionOfEvent entry)
  | _ => history

def afterSubscribe (feed : Feed) (sub : Subscription) : History Feed :=
  match sub.task with
  | .replaying replay =>
      match replay.stage with
      | .reading => { history with snapshot := some feed }
      | .delivering _ entry stage => history.afterDelivery entry stage
      | .turning page => if sub.phase = .replay then history.pass page.scanPosition else history
      | _ => history
  | .eosing frozen .checking =>
      if sub.phase = .replay then history.pass (cursorPosition (some frozen)) else history
  | .following frozen => { history with course := .startAt (cursorPosition (some frozen)) }
  | _ => history

def afterDrain (feed : Feed) (sub : Subscription) : History Feed :=
  match sub.drain with
  | some (.reading _) => { history with snapshot := some feed }
  | some (.delivering _ entry stage) => history.afterDelivery entry stage
  | some (.turning page) =>
      if sub.isClosed then history else history.pass (cursorPosition (some page.scan))
  | _ => history

end History

structure Traced (Feed : Type) where
  log : DurableEventLog Feed
  histories : Nat → History Feed := fun _ => { course := .startAt 0 }

section

variable {Feed : Type} (reader : FeedReader Feed) (readLimit : Nat)

def Traced.record (traced : Traced Feed) (name : Nat)
    (update : Subscription → History Feed → History Feed) : Nat → History Feed :=
  match traced.log.subscriptions name with
  | none => traced.histories
  | some sub => Function.update traced.histories name (update sub (traced.histories name))

def Traced.step (traced : Traced Feed) (event : EventLogEvent Feed) : Traced Feed where
  log := traced.log.step reader readLimit event
  histories :=
    match event with
    | .subscribe name _ _ options =>
        if traced.log.closed || (traced.log.subscriptions name).isSome then traced.histories
        else Function.update traced.histories name
          { course := .startAt (cursorPosition options.cursor) }
    | .advance name _ => traced.record name fun sub history =>
        history.afterSubscribe traced.log.feed sub
    | .drain name _ => traced.record name fun sub history => history.afterDrain traced.log.feed sub
    | _ => traced.histories

end

def eventPosition : SubscriptionMessage → Option Nat
  | .event cursor _ _ _ _ _ _ => some (cursorPosition (some cursor))
  | _ => none

def positions (heard : List SubscriptionMessage) : List Nat := heard.filterMap eventPosition

def NoEose (heard : List SubscriptionMessage) : Prop := ∀ frozen, .eose frozen ∉ heard

structure Ends (heard : List SubscriptionMessage) (reached : Nat)
    (before : List SubscriptionMessage) (frozen : ProgressToken)
    (after : List SubscriptionMessage) : Prop where
  split : heard = before ++ .eose frozen :: after
  onceBefore : NoEose before
  onceAfter : NoEose after
  below : ∀ position ∈ positions before, position ≤ cursorPosition (some frozen)
  above : ∀ position ∈ positions after, cursorPosition (some frozen) < position
  passed : cursorPosition (some frozen) ≤ reached

def Ended (heard : List SubscriptionMessage) (reached : Nat) : Prop :=
  ∃ before frozen after, Ends heard reached before frozen after

section

variable {Feed : Type} (entryAt : Feed → Did → Nat → Option EventLogEntry) (sub : Subscription)
  (history : History Feed)

def Shown (feed : Feed) (position : Nat) : Prop :=
  (shownAt entryAt feed sub.tenant sub.filters position).isSome = true

def Ahead (rest : List EventLogEntry) (last : Nat) : Prop :=
  ∃ feed, history.snapshot = some feed ∧ history.course.reached ≤ last ∧ last < 2 ^ 64 ∧
    rest = window (shownAt entryAt feed sub.tenant sub.filters) history.course.reached last

def PageAhead (rest : List EventLogEntry) (scan : ProgressToken) : Prop :=
  ∃ last, parseFeedPosition scan.position = .ok last ∧ Ahead entryAt sub history rest last

def Settled : Prop := sub.phase = .live → cursorPosition sub.cursor = history.course.reached

def Waiting : Prop := sub.phase ≠ .live ∧ sub.drain = none

def Replaying (replay : Replay) : Prop :=
  Waiting sub ∧ NoEose sub.heard ∧ sub.resume.isSome ∧
    cursorPosition (some replay.frozen) = replay.frozenPosition ∧
    history.course.reached ≤ replay.frozenPosition

def ReplayFits (replay : Replay) : ReplayStage → Prop
  | .checking | .reading => cursorPosition (some replay.readCursor) = history.course.reached
  | .received result =>
      ∃ scan, result.cursor = some scan ∧ PageAhead entryAt sub history result.events scan
  | .entries page => parseFeedPosition page.scan.position = .ok page.scanPosition ∧
      Ahead entryAt sub history page.rest page.scanPosition
  | .delivering page entry _ => parseFeedPosition page.scan.position = .ok page.scanPosition ∧
      Ahead entryAt sub history (entry :: page.rest) page.scanPosition ∧
      positionOfEvent entry ≤ replay.frozenPosition
  | .storing page _ => parseFeedPosition page.scan.position = .ok page.scanPosition ∧
      (sub.phase = .replay → Ahead entryAt sub history page.rest page.scanPosition)
  | .turning page => parseFeedPosition page.scan.position = .ok page.scanPosition ∧
      Ahead entryAt sub history [] page.scanPosition ∧ page.scanPosition < replay.frozenPosition

def EoseFits (frozen : ProgressToken) : EoseStage → Prop
  | .checking => NoEose sub.heard ∧ history.course.reached ≤ cursorPosition (some frozen) ∧
      (history.snapshot = none → history.course.reached = cursorPosition (some frozen)) ∧
      ∀ feed, history.snapshot = some feed → ∀ position, history.course.reached < position →
        position ≤ cursorPosition (some frozen) → ¬ Shown entryAt sub feed position
  | .sending => NoEose sub.heard ∧ history.course.reached = cursorPosition (some frozen)
  | .opening => Ended sub.heard history.course.reached ∧ history.course.reached = cursorPosition (some frozen)

def TaskFits : SubscribeTask → Prop
  | .validating | .installing | .displacing _ | .inserting | .bounding | .anchoring =>
      Waiting sub ∧ sub.heard = [] ∧ history.snapshot = none ∧
        history.course.reached = history.course.start
  | .replaying replay => Replaying sub history replay ∧
      ReplayFits entryAt sub history replay replay.stage
  | .eosing frozen stage => Waiting sub ∧ sub.resume.isSome ∧ EoseFits entryAt sub history frozen stage
  | .following _ => Waiting sub ∧ sub.heard = [] ∧ sub.resume = none
  | .failing _ | .unregistering _ => Waiting sub
  | .starting | .returned _ => True

def DrainFits : DrainTask → Prop
  | .checking cursor | .reading cursor =>
      Settled sub history ∧ cursorPosition cursor = history.course.reached
  | .entries page => Settled sub history ∧ PageAhead entryAt sub history page.rest page.scan
  | .delivering page entry _ =>
      Settled sub history ∧ PageAhead entryAt sub history (entry :: page.rest) page.scan
  | .storing page cursor => sub.phase = .live →
      cursorPosition (some cursor) = history.course.reached ∧
        PageAhead entryAt sub history page.rest page.scan
  | .turning page => PageAhead entryAt sub history [] page.scan
  | .settling => Settled sub history
  | .gap _ | .gapSending _ | .gapClosing => True
  | .gapUnregistering | .gapEnding => sub.phase = .closed

structure Fits : Prop where
  exact : history.course.Exact (Shown entryAt sub)
  heard : positions sub.heard = history.course.handed
  resumes : ∀ token, sub.resume = some token → history.course.start = cursorPosition (some token)
  task : TaskFits entryAt sub history sub.task
  marks : NoEose sub.heard ∨ sub.resume.isSome ∧ Ended sub.heard history.course.reached
  live : sub.phase = .live → sub.resume.isSome → Ended sub.heard history.course.reached
  idle : sub.drain = none → sub.draining = false ∧ Settled sub history
  drain : ∀ drain, sub.drain = some drain → sub.draining = true ∧ sub.phase ≠ .replay ∧
    (sub.resume.isSome → Ended sub.heard history.course.reached) ∧
    DrainFits entryAt sub history drain

end

end Enbox.Proof.EventLog
