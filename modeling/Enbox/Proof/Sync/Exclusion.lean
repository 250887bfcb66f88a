import Enbox.Proof.Sync.Engine
import Enbox.Sync.Tasks

/-! # Operations that run at the same time -/

namespace Enbox.Proof.Sync

open Lib SyncTasks List SyncEngineState

variable {Local Remote Hash : Type} {operation : SyncOperation} {active : List SyncOperation}

def SamePair (first second : SyncOperation) : Prop :=
  first.tenant = second.tenant ∧ first.remote = second.remote

def SameFlow (first second : SyncOperation) : Prop :=
  (first.direction.includesPull ∧ second.direction.includesPull) ∨
    (first.direction.includesPush ∧ second.direction.includesPush)

def Collides (first second : SyncOperation) : Prop := SamePair first second ∧ SameFlow first second

def Exclusive (active : List SyncOperation) : Prop :=
  active.Pairwise fun first second => ¬ Collides first second

def Separate (tasks : SyncTasks Local Remote Hash) (event : SyncTaskEvent Local Remote Hash) : Prop :=
  Exclusive (tasks.step event).active ∧
    ∀ operation ∈ tasks.called, event = .start operation → ∀ other ∈ tasks.active,
      other.key = operation.key → SamePair other operation

/-- A call that claims its key meets no active operation of its pair and flow in another direction,
and none of another pair whose key reads the same. -/
def StartsApart (tasks : SyncTasks Local Remote Hash) (event : SyncTaskEvent Local Remote Hash) :
    Prop :=
  ∀ operation ∈ tasks.called, event = .start operation → ∀ other ∈ tasks.active,
    (Collides other operation → other.direction = operation.direction) ∧
      (other.key = operation.key → SamePair other operation)

theorem text_injective {first second : SyncDirection} (same : first.text = second.text) :
    first = second := by
  cases first <;> cases second <;> first | rfl | exact absurd same (by decide)

theorem direction_of_key {first second : SyncOperation} (pair : SamePair first second)
    (same : first.key = second.key) : first.direction = second.direction := by
  simp only [SyncOperation.key, operationKey, pair.1, pair.2] at same
  exact text_injective (String.append_right_inj _ |>.mp same)

structure Tracked (tasks : SyncTasks Local Remote Hash) : Prop where
  running : tasks.session.engine.running = tasks.active.map (·.key)
  nodup : (tasks.active.map (·.key)).Nodup

theorem Tracked.opened (session : SyncSession Local Remote Hash) : Tracked (.opened session) :=
  ⟨rfl, nodup_nil⟩

theorem map_erase_of_nodup (nodup : (active.map (·.key)).Nodup) (listed : operation ∈ active) :
    (active.erase operation).map (·.key) = (active.map (·.key)).erase operation.key := by
  induction active with
  | nil => rfl
  | cons first rest ih =>
    obtain ⟨fresh, nodup⟩ := nodup_cons.mp nodup
    by_cases isFirst : first = operation
    · simp [isFirst]
    · have later : operation ∈ rest := mem_of_ne_of_mem (Ne.symm isFirst) listed
      have other : first.key ≠ operation.key := fun same =>
        fresh (mem_map.mpr ⟨operation, later, same.symm⟩)
      rw [erase_cons_tail (by simpa using isFirst), map_cons, map_cons,
        erase_cons_tail (by simpa using other), ih nodup later]

theorem Tracked.step {tasks : SyncTasks Local Remote Hash} (tracked : Tracked tasks)
    (event : SyncTaskEvent Local Remote Hash) : Tracked (tasks.step event) := by
  cases event with
  | once request =>
    rw [SyncTasks.step]
    split <;> exact ⟨tracked.running, tracked.nodup⟩
  | retry id =>
    rw [SyncTasks.step]
    split <;> exact ⟨tracked.running, tracked.nodup⟩
  | start operation =>
    rw [SyncTasks.step]
    split
    · rw [start, beginOperation]
      by_cases running : operation.key ∈ tasks.session.engine.running
      · rw [if_pos running]
        exact ⟨tracked.running, tracked.nodup⟩
      · rw [if_neg running]
        rw [tracked.running] at running
        exact ⟨congrArg (operation.key :: ·) tracked.running,
          nodup_cons.mpr ⟨running, tracked.nodup⟩⟩
    · exact tracked
  | work session => exact ⟨tracked.running, tracked.nodup⟩
  | finish operation =>
    rw [SyncTasks.step]
    split
    · rename_i listed
      have keys := map_erase_of_nodup tracked.nodup listed
      refine ⟨?_, ?_⟩
      · rw [finish, endOperation]
        dsimp only
        rw [tracked.running, keys]
      · rw [finish]
        dsimp only
        rw [keys]
        exact tracked.nodup.erase _
    · exact tracked

section

variable {tasks : SyncTasks Local Remote Hash} {other : SyncOperation}

theorem Collides.symm (collides : Collides operation other) : Collides other operation :=
  ⟨⟨collides.1.1.symm, collides.1.2.symm⟩,
    collides.2.imp And.symm And.symm⟩

theorem key_of_collides (collides : Collides other operation)
    (direction : other.direction = operation.direction) : other.key = operation.key := by
  rw [SyncOperation.key, SyncOperation.key, collides.1.1, collides.1.2, direction]

theorem Exclusive.apart (exclusive : Exclusive active) (first : operation ∈ active)
    (second : other ∈ active) (distinct : operation ≠ other) :
    ¬ Collides operation other := by
  have : Std.Symm fun first second => ¬ Collides first second :=
    ⟨fun _ _ apart collides => apart collides.symm⟩
  exact List.Pairwise.forall exclusive first second distinct

theorem step_start_active (called : operation ∈ tasks.called) :
    (tasks.step (.start operation)).active =
      if operation.key ∈ tasks.session.engine.running then tasks.active
      else operation :: tasks.active := by
  rw [SyncTasks.step, if_pos called, start, beginOperation]
  split
  · rename_i refused
    rw [if_pos (by simpa using refused)]
  · rename_i claimed
    rw [if_neg (by simpa using (Option.ite_none_left_eq_some.mp claimed).1)]

theorem step_active (tasks : SyncTasks Local Remote Hash) (event : SyncTaskEvent Local Remote Hash) :
    (tasks.step event).active.Sublist tasks.active ∨
      ∃ operation ∈ tasks.called, event = .start operation ∧
        operation.key ∉ tasks.session.engine.running ∧
        (tasks.step event).active = operation :: tasks.active := by
  cases event with
  | once request =>
    left
    rw [SyncTasks.step]
    split <;> exact List.Sublist.refl _
  | retry id =>
    left
    rw [SyncTasks.step]
    split <;> exact List.Sublist.refl _
  | start operation =>
    by_cases called : operation ∈ tasks.called
    · rw [step_start_active called]
      split
      · exact .inl (List.Sublist.refl _)
      · rename_i free
        exact .inr ⟨operation, called, rfl, free, rfl⟩
    · left
      rw [SyncTasks.step, if_neg called]
  | work session => exact .inl (List.Sublist.refl _)
  | finish operation =>
    left
    rw [SyncTasks.step]
    split
    · exact erase_sublist
    · exact List.Sublist.refl _

theorem direction_of_refused (exclusive : Exclusive tasks.active)
    (own : ∀ other ∈ tasks.active, other.key = operation.key → SamePair other operation)
    {holder : SyncOperation} (holds : holder ∈ tasks.active) (same : holder.key = operation.key)
    (active : other ∈ tasks.active) (collides : Collides other operation) :
    other.direction = operation.direction := by
  have pair := own holder holds same
  have direction := direction_of_key pair same
  by_cases isHolder : other = holder
  · rw [isHolder, direction]
  · refine absurd ⟨⟨?_, ?_⟩, ?_⟩ (exclusive.apart active holds isHolder)
    · exact collides.1.1.trans pair.1.symm
    · exact collides.1.2.trans pair.2.symm
    · rw [SameFlow, direction]
      exact collides.2

theorem separate_iff_startsApart (tracked : Tracked tasks) (exclusive : Exclusive tasks.active)
    (event : SyncTaskEvent Local Remote Hash) : Separate tasks event ↔ StartsApart tasks event := by
  constructor
  · rintro ⟨after, own⟩ operation called rfl other active
    refine ⟨fun collides => ?_, own operation called rfl other active⟩
    rw [step_start_active called] at after
    split at after
    · rename_i claimed
      rw [tracked.running] at claimed
      obtain ⟨holder, holds, same⟩ := mem_map.mp claimed
      exact direction_of_refused exclusive (own operation called rfl) holds same active collides
    · exact absurd collides.symm ((pairwise_cons.mp after).1 other active)
  · intro apart
    refine ⟨?_, fun operation called isStart other active =>
      (apart operation called isStart other active).2⟩
    rcases step_active tasks event with kept | ⟨operation, called, isStart, free, active⟩
    · exact List.Pairwise.sublist kept exclusive
    · rw [active]
      refine pairwise_cons.mpr ⟨fun other listed collides => free ?_, exclusive⟩
      have direction := (apart operation called isStart other listed).1 collides.symm
      rw [tracked.running, ← key_of_collides collides.symm direction]
      exact mem_map_of_mem listed

/-- Over every interleaving of calls: operations of one pair and flow are kept apart and pairs do not
get in each other's way just when every claim is made apart. -/
theorem separate_along_iff (session : SyncSession Local Remote Hash)
    (events : List (SyncTaskEvent Local Remote Hash)) :
    AllowedAlong SyncTasks.step Separate (.opened session) events ↔
      AllowedAlong SyncTasks.step StartsApart (.opened session) events := by
  have along : ∀ tasks : SyncTasks Local Remote Hash, Tracked tasks → Exclusive tasks.active →
      (AllowedAlong SyncTasks.step Separate tasks events ↔
        AllowedAlong SyncTasks.step StartsApart tasks events) := by
    induction events with
    | nil => exact fun _ _ _ => Iff.rfl
    | cons event rest ih =>
      intro tasks tracked exclusive
      have here := separate_iff_startsApart tracked exclusive event
      constructor
      · rintro ⟨separate, later⟩
        exact ⟨here.mp separate, (ih _ (tracked.step event) separate.1).mp later⟩
      · rintro ⟨apart, later⟩
        exact ⟨here.mpr apart, (ih _ (tracked.step event) (here.mpr apart).1).mpr later⟩
  exact along _ (.opened session) List.Pairwise.nil

end

namespace Overlap

def request (tenant : Did) (remote : String) (direction : SyncDirection) : SyncOnceRequest :=
  { tenant, remote, direction }

def calls (first second : SyncOnceRequest) : List (SyncTaskEvent Unit Unit Unit) :=
  [.once first, .start (.ofRequest first), .once second, .start (.ofRequest second)]

def both : List (SyncTaskEvent Unit Unit Unit) :=
  calls (request "alice" "https://remote" .bidirectional) (request "alice" "https://remote" .pull)

def barred : List (SyncTaskEvent Unit Unit Unit) :=
  calls (request "a|b" "c" .pull) (request "a" "b|c" .pull)

def tasks (events : List (SyncTaskEvent Unit Unit Unit)) : SyncTasks Unit Unit Unit :=
  events.foldl SyncTasks.step (.opened ⟨(), (), {}⟩)

theorem pull_beside_bidirectional_run :
    (tasks both).active =
      [⟨"alice", "https://remote", .pull⟩, ⟨"alice", "https://remote", .bidirectional⟩] ∧
    ¬ Exclusive (tasks both).active ∧
    (tasks barred).active = [⟨"a|b", "c", .pull⟩] ∧ (tasks barred).called = [] ∧
    ¬ SamePair ⟨"a|b", "c", .pull⟩ ⟨"a", "b|c", .pull⟩ := by
  have active : (tasks both).active =
      [⟨"alice", "https://remote", .pull⟩, ⟨"alice", "https://remote", .bidirectional⟩] := by
    decide +kernel
  refine ⟨active, fun exclusive => ?_, by decide +kernel, by decide +kernel, fun pair =>
    absurd pair.1 (by decide)⟩
  rw [active] at exclusive
  exact (pairwise_cons.mp exclusive).1 _ mem_cons_self ⟨⟨rfl, rfl⟩, .inl ⟨rfl, rfl⟩⟩

end Overlap

end Enbox.Proof.Sync
