import Mathlib.Logic.Relation
import Mathlib.Tactic.Tauto

/-! # Runs of a state machine -/

namespace Enbox.Lib

variable {S E : Type} (step : S → E → S) (allowed : S → E → Prop) {P : S → Prop} {events : List E}
  {allowed' : S → E → Prop}

def Moves (s s' : S) : Prop := ∃ event, allowed s event ∧ s' = step s event

abbrev Reaches : S → S → Prop := Relation.ReflTransGen (Moves step allowed)

variable {step allowed} {start s : S}

theorem Reaches.next (reached : Reaches step allowed start s) {event : E} (ok : allowed s event) :
    Reaches step allowed start (step s event) :=
  reached.tail ⟨event, ok, rfl⟩

theorem Reaches.invariant (reached : Reaches step allowed start s) (initially : P start)
    (kept : ∀ s event, P s → allowed s event → P (step s event)) : P s := by
  induction reached with
  | refl => exact initially
  | tail _ move ih =>
    obtain ⟨event, ok, rfl⟩ := move
    exact kept _ event ih ok

theorem foldl_iff {C : Prop} {gone : E}
    (one : ∀ event ∈ events, ∀ s, P (step s event) ↔ P s ∧ ¬ (C ∧ gone = event)) (s : S) :
    P (events.foldl step s) ↔ P s ∧ ¬ (C ∧ gone ∈ events) := by
  induction events generalizing s with
  | nil => simp
  | cons event rest ih =>
    rw [List.foldl_cons, ih fun other listed => one other (List.mem_cons_of_mem _ listed),
      one event List.mem_cons_self, List.mem_cons]
    tauto

def AllowedAlong (step : S → E → S) (allowed : S → E → Prop) : S → List E → Prop
  | _, [] => True
  | s, event :: rest => allowed s event ∧ AllowedAlong step allowed (step s event) rest

theorem AllowedAlong.reaches :
    ∀ {start : S}, AllowedAlong step allowed start events →
      Reaches step allowed start (events.foldl step start) := by
  induction events with
  | nil => exact fun _ => .refl
  | cons event rest ih => exact fun ⟨ok, along⟩ => (ih along).head ⟨event, ok, rfl⟩

theorem reaches_foldl (step : S → E → S) (events : List E) (start : S) :
    Reaches step (fun _ _ => True) start (events.foldl step start) := by
  induction events generalizing start with
  | nil => exact .refl
  | cons event rest ih => exact (ih (step start event)).head ⟨event, trivial, rfl⟩

theorem AllowedAlong.imp (kept : ∀ s event, P s → allowed s event → P (step s event))
    (implies : ∀ s event, P s → allowed s event → allowed' s event) :
    ∀ {start : S}, P start → AllowedAlong step allowed start events →
      AllowedAlong step allowed' start events := by
  induction events with
  | nil => exact fun _ _ => trivial
  | cons event rest ih =>
    exact fun holds ⟨ok, along⟩ => ⟨implies _ event holds ok, ih (kept _ event holds ok) along⟩

theorem AllowedAlong.mono (implies : ∀ s event, allowed s event → allowed' s event)
    (along : AllowedAlong step allowed start events) : AllowedAlong step allowed' start events :=
  along.imp (P := fun _ => True) (fun _ _ _ _ => trivial) (fun s event _ => implies s event) trivial

theorem AllowedAlong.forall_mem {Q : E → Prop} (implies : ∀ s event, allowed s event → Q event) :
    ∀ {start : S}, AllowedAlong step allowed start events → ∀ event ∈ events, Q event := by
  induction events with
  | nil => exact fun _ _ listed => absurd listed List.not_mem_nil
  | cons event rest ih =>
    exact fun ⟨ok, along⟩ => List.forall_mem_cons.mpr ⟨implies _ event ok, ih along⟩

theorem AllowedAlong.append {first second : List E} :
    ∀ {start : S}, AllowedAlong step allowed start first →
      AllowedAlong step allowed (first.foldl step start) second →
      AllowedAlong step allowed start (first ++ second) := by
  induction first with
  | nil => exact fun _ along => along
  | cons event rest ih => exact fun ⟨ok, along⟩ others => ⟨ok, ih along others⟩

theorem AllowedAlong.take (count : Nat) :
    ∀ {start : S}, AllowedAlong step allowed start events →
      AllowedAlong step allowed start (events.take count) := by
  induction events generalizing count with
  | nil =>
    intro start along
    rwa [List.take_nil]
  | cons event rest ih =>
    intro start along
    cases count with
    | zero => exact trivial
    | succ count => exact ⟨along.1, ih count along.2⟩

theorem AllowedAlong.switch {B A : S → Prop} {switch : E}
    (waits : ∀ s event, B s → allowed s event → event ≠ switch → B (step s event))
    (switches : ∀ s, B s → allowed s switch → A (step s switch))
    (kept : ∀ s event, A s → allowed s event → A (step s event)) :
    ∀ {start : S}, B start → switch ∈ events → AllowedAlong step allowed start events →
      A (events.foldl step start) := by
  induction events with
  | nil => exact fun _ listed _ => absurd listed List.not_mem_nil
  | cons event rest ih =>
    intro start holds listed ⟨ok, along⟩
    by_cases isSwitch : event = switch
    · subst isSwitch
      exact along.reaches.invariant (switches start holds ok) kept
    · exact ih (waits start event holds ok isSwitch)
        (List.mem_of_ne_of_mem (Ne.symm isSwitch) listed) along

end Enbox.Lib
