import Enbox.Proof.EventLog.Delivery

/-! # Subscriptions of different tenants -/

namespace Enbox.Proof.EventLog

open Lib DurableEventLog Subscription

variable {Feed : Type} {sub : Subscription} {reader : FeedReader Feed} {readLimit : Nat}
  {feed : Feed} {outside : Outside} {update : Subscription → Subscription}

/-! ## What a task keeps -/

def Installs : SubscribeTask → Prop
  | .displacing _ | .inserting => True
  | _ => False

structure Keeps (before after : Subscription) : Prop where
  id : after.id = before.id
  tenant : after.tenant = before.tenant
  task : Installs after.task → Installs before.task

theorem Keeps.refl (sub : Subscription) : Keeps sub sub := ⟨rfl, rfl, fun installs => installs⟩

theorem not_installs_endPage (replay : Replay) (page : ReplayPage) :
    ¬ Installs (endPage replay page) := by
  rw [endPage]
  split <;> exact fun installs => installs

theorem not_installs_nextEntry (replay : Replay) (page : ReplayPage) (entry : EventLogEntry)
    (rest : List EventLogEntry) : ¬ Installs (nextEntry replay page entry rest) := by
  rw [nextEntry]
  repeat' split
  all_goals first
    | exact not_installs_endPage _ _
    | exact fun installs => installs

theorem not_installs_freeze (frozen : ProgressToken) (bounds : Option ReplicationBounds) :
    ¬ Installs (sub.freeze frozen bounds) := by
  rw [freeze]
  split
  · exact fun installs => installs
  · rename_i task frozenAt
    simp only [bind_eq_ok] at frozenAt
    obtain ⟨_, -, frozenAt⟩ := frozenAt
    split at frozenAt
    · simp only [startReplay, ok_iff] at frozenAt
      obtain ⟨_, -, _, -, _, -, rfl⟩ := frozenAt
      split <;> exact fun installs => installs
    · cases frozenAt
      exact fun installs => installs

theorem keeps_replayStep (replay : Replay) :
    Keeps sub (sub.replayStep reader readLimit feed outside replay) := by
  rw [replayStep]
  repeat' split
  all_goals first
    | exact ⟨rfl, rfl, False.elim⟩
    | exact ⟨rfl, rfl, fun installs => absurd installs (not_installs_endPage _ _)⟩
    | exact ⟨rfl, rfl, fun installs => absurd installs (not_installs_nextEntry _ _ _ _)⟩

theorem keeps_eoseStep (frozen : ProgressToken) (stage : EoseStage) :
    Keeps sub (sub.eoseStep frozen stage) := by
  cases stage with
  | sending => exact ⟨rfl, rfl, False.elim⟩
  | checking =>
    rw [eoseStep]
    split <;> exact ⟨rfl, rfl, False.elim⟩
  | opening =>
    rw [eoseStep]
    split
    · exact ⟨rfl, rfl, False.elim⟩
    · exact ⟨rfl, rfl, False.elim⟩
    · refine ⟨rfl, rfl, ?_⟩
      dsimp only
      split <;> exact False.elim

theorem keeps_tryStartDrain : Keeps sub sub.tryStartDrain := by
  rw [tryStartDrain]
  split <;> exact ⟨rfl, rfl, fun installs => installs⟩

theorem keeps_subscribeStep : Keeps sub (sub.subscribeStep reader readLimit feed outside) := by
  rw [subscribeStep]
  cases sub.task with
  | replaying replay => exact keeps_replayStep replay
  | eosing frozen stage => exact keeps_eoseStep frozen stage
  | starting => exact ⟨keeps_tryStartDrain.id, keeps_tryStartDrain.tenant, False.elim⟩
  | bounding =>
    dsimp only
    split
    · exact ⟨rfl, rfl, False.elim⟩
    · exact ⟨rfl, rfl, False.elim⟩
    · exact ⟨rfl, rfl, fun installs => absurd installs (not_installs_freeze _ _)⟩
  | anchoring =>
    dsimp only
    split
    · exact ⟨rfl, rfl, False.elim⟩
    · split
      · exact ⟨rfl, rfl, False.elim⟩
      · exact ⟨rfl, rfl, fun installs => absurd installs (not_installs_freeze _ _)⟩
  | validating =>
    dsimp only
    repeat' split
    all_goals exact ⟨rfl, rfl, False.elim⟩
  | following frozen =>
    dsimp only
    split
    · exact ⟨rfl, rfl, False.elim⟩
    · refine ⟨rfl, rfl, ?_⟩
      dsimp only
      split <;> exact False.elim
  | failing error => exact ⟨rfl, rfl, False.elim⟩
  | _ => exact .refl sub

theorem keeps_drainStep (drain : DrainTask) :
    Keeps sub (sub.drainStep reader readLimit feed outside drain) := by
  cases drain <;> simp only [Subscription.drainStep] <;> repeat' split
  all_goals exact ⟨rfl, rfl, fun installs => installs⟩

theorem keeps_requestDrain : Keeps sub sub.requestDrain := by
  rw [requestDrain]
  split <;> exact ⟨rfl, rfl, fun installs => installs⟩

theorem keeps_startDrain : Keeps sub (startDrain sub) := by
  rw [startDrain]
  split
  · exact .refl sub
  · exact ⟨keeps_tryStartDrain.id, keeps_tryStartDrain.tenant, keeps_tryStartDrain.task⟩

theorem keeps_cleanup : Keeps sub sub.cleanup := ⟨rfl, rfl, fun installs => installs⟩

/-! ## The registry -/

structure Registered (log : DurableEventLog Feed) : Prop where
  gate : ∀ name sub, log.subscriptions name = some sub → Installs sub.task →
    log.installing = some name ∧ log.registry.lookup sub.id = none
  known : ∀ id name, log.registry.lookup id = some name →
    ∃ sub, log.subscriptions name = some sub ∧ sub.id = id

section

variable {log : DurableEventLog Feed} {name other : Nat} {after : Subscription}

theorem put_self : (log.put name sub).subscriptions name = some sub := Function.update_self ..

theorem put_of_ne (different : other ≠ name) :
    (log.put name sub).subscriptions other = log.subscriptions other :=
  Function.update_of_ne different ..

theorem change_of_ne (different : other ≠ name) :
    (log.change name update).subscriptions other = log.subscriptions other := by
  rw [DurableEventLog.change]
  split
  · rfl
  · exact put_of_ne different

theorem change_self (known : log.subscriptions name = some sub) :
    (log.change name update).subscriptions name = some (update sub) := by
  rw [DurableEventLog.change, known]
  exact put_self

theorem change_registry :
    (log.change name update).registry = log.registry := by
  rw [DurableEventLog.change]
  split <;> rfl

theorem unregister_known (known : log.subscriptions other = some sub) :
    (log.unregister name after).subscriptions other = some sub := by
  rw [unregister_subscriptions]
  exact known

theorem Registered.known_put {id : String} (registered : Registered log)
    (known : log.subscriptions name = some sub) (sameId : after.id = sub.id)
    (found : log.registry.lookup id = some other) :
    ∃ holder, (log.put name after).subscriptions other = some holder ∧ holder.id = id := by
  obtain ⟨holder, isHolder, ofId⟩ := registered.known id other found
  by_cases same : other = name
  · subst same
    cases known.symm.trans isHolder
    exact ⟨after, put_self, sameId.trans ofId⟩
  · exact ⟨holder, (put_of_ne same).trans isHolder, ofId⟩

theorem Registered.put (registered : Registered log) (known : log.subscriptions name = some sub)
    (keeps : Keeps sub after) : Registered (log.put name after) where
  gate other found isFound installs := by
    by_cases same : other = name
    · subst same
      rw [put_self] at isFound
      cases isFound
      rw [keeps.id]
      exact registered.gate other sub known (keeps.task installs)
    · rw [put_of_ne same] at isFound
      exact registered.gate other found isFound installs
  known _ _ found := registered.known_put known keeps.id found

theorem Registered.change (registered : Registered log) (keeps : ∀ {sub}, Keeps sub (update sub)) :
    Registered (log.change name update) := by
  rw [DurableEventLog.change]
  split
  · exact registered
  · rename_i sub known
    exact registered.put known keeps

theorem Registered.unregister (registered : Registered log) (sub : Subscription) :
    Registered (log.unregister name sub) := by
  rw [DurableEventLog.unregister]
  split
  · refine ⟨fun other found isFound installs => ?_, fun id other found => ?_⟩
    · obtain ⟨holds, free⟩ := registered.gate other found isFound installs
      refine ⟨holds, ?_⟩
      rw [lookup_assocErase, free, ite_self]
    · rw [lookup_assocErase] at found
      split at found
      · cases found
      · exact registered.known id other found
  · exact registered

section

variable (registered : Registered log) (known : log.subscriptions name = some sub)

include registered known

theorem Registered.install (free : log.installing = none) :
    Registered
      { log.put name { sub with task := .displacing (log.registry.lookup sub.id) } with
        installing := some name, registry := assocErase sub.id log.registry } where
  gate other found isFound installs := by
    by_cases same : other = name
    · subst same
      cases put_self.symm.trans isFound
      exact ⟨rfl, by rw [lookup_assocErase, if_pos rfl]⟩
    · have isFound : log.subscriptions other = some found := (put_of_ne same).symm.trans isFound
      cases free.symm.trans (registered.gate other found isFound installs).1
  known id other found := by
    rw [lookup_assocErase] at found
    split at found
    · cases found
    · exact registered.known_put known rfl found

theorem Registered.insert (installs : Installs sub.task) :
    Registered
      { log.put name { sub with task := .bounding } with
        registry := assocInsert sub.id name log.registry, installing := none } where
  gate other found isFound installing := by
    by_cases same : other = name
    · subst same
      cases put_self.symm.trans isFound
      exact installing.elim
    · have isFound : log.subscriptions other = some found := (put_of_ne same).symm.trans isFound
      have holds := (registered.gate other found isFound installing).1
      cases (registered.gate name sub known installs).1.symm.trans holds
      exact absurd rfl same
  known id other found := by
    rw [lookup_assocInsert] at found
    split at found
    · rename_i same
      cases found
      exact ⟨_, put_self, same.symm⟩
    · exact registered.known_put known rfl found

theorem Registered.advance :
    Registered (log.advance reader readLimit outside name sub) := by
  cases isTask : sub.task with
  | installing =>
    rw [DurableEventLog.advance, isTask]
    dsimp only
    split
    · exact registered
    · rename_i free
      split
      · exact registered.put known ⟨rfl, rfl, False.elim⟩
      · exact registered.install known (by simpa using free)
  | displacing displaced =>
    have installs : Installs sub.task := by rw [isTask]; trivial
    rw [DurableEventLog.advance, isTask]
    dsimp only
    cases displaced with
    | none => exact registered.put known ⟨rfl, rfl, fun _ => installs⟩
    | some other =>
      by_cases same : name = other
      · subst same
        exact (registered.change keeps_cleanup).put (change_self known) ⟨rfl, rfl, fun _ => installs⟩
      · exact (registered.change keeps_cleanup).put ((change_of_ne same).trans known)
          ⟨rfl, rfl, fun _ => installs⟩
  | inserting =>
    rw [DurableEventLog.advance, isTask]
    exact registered.insert known (by rw [isTask]; trivial)
  | unregistering error =>
    rw [DurableEventLog.advance, isTask]
    exact (registered.unregister sub).put (unregister_known known) ⟨rfl, rfl, False.elim⟩
  | _ =>
    rw [DurableEventLog.advance, isTask]
    exact registered.put known keeps_subscribeStep

theorem Registered.drainStep :
    Registered (log.drainStep reader readLimit outside name sub) := by
  rw [DurableEventLog.drainStep]
  split
  · exact registered
  · exact (registered.unregister sub).put (unregister_known known) (keeps_drainStep _)
  · exact registered.put known (keeps_drainStep _)

end

theorem Registered.step (registered : Registered log) (event : EventLogEvent Feed) :
    Registered (log.step reader readLimit event) := by
  cases event with
  | commit feed => exact ⟨registered.gate, registered.known⟩
  | subscribe name tenant id options =>
    rw [DurableEventLog.step]
    split
    · exact registered
    · rename_i fresh
      simp only [Bool.or_eq_true, not_or, Bool.not_eq_true, Option.isSome_eq_false_iff,
        Option.isNone_iff_eq_none] at fresh
      refine ⟨fun other found isFound installs => ?_, fun id other found => ?_⟩
      · by_cases same : other = name
        · subst same
          cases put_self.symm.trans isFound
          exact installs.elim
        · exact registered.gate other found ((put_of_ne same).symm.trans isFound) installs
      · obtain ⟨holder, isHolder, ofId⟩ := registered.known id other found
        have same : other ≠ name := fun same => by
          subst same
          cases fresh.2.symm.trans isHolder
        exact ⟨holder, (put_of_ne same).trans isHolder, ofId⟩
  | advance name outside =>
    rw [DurableEventLog.step]
    split
    · exact registered
    · exact registered.advance ‹_›
  | drain name outside =>
    rw [DurableEventLog.step]
    split
    · exact registered
    · exact registered.drainStep ‹_›
  | wake name => exact registered.change keeps_requestDrain
  | start name => exact registered.change keeps_startDrain
  | close name => exact registered.change keeps_cleanup
  | unregister name =>
    rw [DurableEventLog.step]
    split
    · exact registered
    · split
      · exact registered.unregister _
      · exact registered
  | shut => exact ⟨registered.gate, registered.known⟩

end

section

def actingTenant (log : DurableEventLog Feed) : EventLogEvent Feed → Option Did
  | .subscribe _ tenant _ _ => some tenant
  | .advance name _ | .drain name _ | .wake name | .start name | .close name | .unregister name =>
      (log.subscriptions name).map (·.tenant)
  | .commit _ | .shut => none

def Undisturbed (before after : DurableEventLog Feed) (name : Nat) (sub : Subscription) : Prop :=
  after.subscriptions name = some sub ∧
    (before.registry.lookup sub.id = some name → after.registry.lookup sub.id = some name)

def Displaces (log : DurableEventLog Feed) (event : EventLogEvent Feed) (name : Nat)
    (sub : Subscription) : Prop :=
  ∃ other outside installer, event = .advance other outside ∧
    log.subscriptions other = some installer ∧
    ((installer.task = .installing ∧ log.installing = none ∧ log.closed = false ∧
        log.registry.lookup installer.id = some name) ∨
      (installer.task = .displacing (some name) ∧
        ¬ (sub.phase = .closed ∧ sub.redrainRequested = false)))

variable {log after : DurableEventLog Feed} {name other : Nat} {installer : Subscription}

theorem cleanup_eq_self : sub.cleanup = sub ↔ sub.phase = .closed ∧ sub.redrainRequested = false := by
  constructor
  · intro same
    rw [← same]
    exact ⟨rfl, rfl⟩
  · rintro ⟨isClosed, quiet⟩
    cases sub
    cases isClosed
    cases quiet
    rfl

section

variable (known : log.subscriptions name = some sub) (different : name ≠ other)

include known different

theorem undisturbed_put (after : Subscription) : Undisturbed log (log.put other after) name sub :=
  ⟨(put_of_ne different).trans known, fun found => found⟩

theorem undisturbed_change (update : Subscription → Subscription) :
    Undisturbed log (log.change other update) name sub :=
  ⟨(change_of_ne different).trans known, fun found => by rwa [change_registry]⟩

omit known different in
theorem unregister_lookup (different : name ≠ other)
    (found : log.registry.lookup sub.id = some name) :
    (log.unregister other installer).registry.lookup sub.id = some name := by
  rw [DurableEventLog.unregister]
  split
  · rename_i own
    rw [lookup_assocErase, if_neg fun same => different ?_]
    · exact found
    · rw [← same, found] at own
      exact Option.some.inj own
  · exact found

omit known different in
theorem displaces_advance_iff (installs : log.subscriptions other = some installer) :
    Displaces log (.advance other outside) name sub ↔
      (installer.task = .installing ∧ log.installing = none ∧ log.closed = false ∧
        log.registry.lookup installer.id = some name) ∨
      (installer.task = .displacing (some name) ∧
        ¬ (sub.phase = .closed ∧ sub.redrainRequested = false)) := by
  constructor
  · rintro ⟨_, _, _, same, isInstaller, how⟩
    cases same
    cases installs.symm.trans isInstaller
    exact how
  · exact fun how => ⟨other, outside, installer, rfl, installs, how⟩

omit known different in
theorem installing_undisturbed_iff (registered : Registered log)
    (known : log.subscriptions name = some sub) (different : name ≠ other)
    (isTask : installer.task = .installing) :
    Undisturbed log (log.advance reader readLimit outside other installer) name sub ↔
      ¬ (log.installing = none ∧ log.closed = false ∧
        log.registry.lookup installer.id = some name) := by
  rw [DurableEventLog.advance, isTask]
  dsimp only
  split
  · rename_i held
    refine iff_of_true ⟨known, fun found => found⟩ ?_
    rintro ⟨free, -⟩
    rw [free] at held
    cases held
  · rename_i notHeld
    split
    · rename_i isClosed
      refine iff_of_true (undisturbed_put known different _) ?_
      rintro ⟨-, notClosed, -⟩
      cases isClosed.symm.trans notClosed
    · rename_i notClosed
      constructor
      · rintro ⟨-, kept⟩ ⟨-, -, found⟩
        obtain ⟨holder, isHolder, ofId⟩ := registered.known _ _ found
        cases known.symm.trans isHolder
        have still := kept (ofId ▸ found)
        rw [lookup_assocErase, if_pos ofId] at still
        cases still
      · intro notDisplaced
        refine ⟨(put_of_ne different).trans known, fun found => ?_⟩
        have otherId : sub.id ≠ installer.id := fun same => notDisplaced
          ⟨by simpa using notHeld, by simpa using notClosed, same ▸ found⟩
        rw [lookup_assocErase, if_neg otherId]
        exact found

theorem displacing_undisturbed_iff {target : Nat}
    (isTask : installer.task = .displacing (some target)) :
    Undisturbed log (log.advance reader readLimit outside other installer) name sub ↔
      ¬ (target = name ∧ ¬ (sub.phase = .closed ∧ sub.redrainRequested = false)) := by
  rw [DurableEventLog.advance, isTask]
  dsimp only
  by_cases isTarget : target = name
  · subst isTarget
    have cleaned : ((log.change target cleanup).put other
        { installer with task := .inserting }).subscriptions target = some sub.cleanup :=
      (put_of_ne different).trans (change_self known)
    constructor
    · rintro ⟨same, -⟩ ⟨-, running⟩
      exact running (cleanup_eq_self.mp (Option.some.inj (cleaned.symm.trans same)))
    · intro notDisplaced
      have still := not_not.mp fun running => notDisplaced ⟨rfl, running⟩
      refine ⟨cleaned.trans (congrArg some (cleanup_eq_self.mpr still)), fun found => ?_⟩
      exact (congrArg (List.lookup sub.id) change_registry).trans found
  · refine iff_of_true ⟨(put_of_ne different).trans ((change_of_ne (Ne.symm isTarget)).trans known),
      fun found => (congrArg (List.lookup sub.id) change_registry).trans found⟩ ?_
    exact fun displaced => isTarget displaced.1

end

theorem advance_undisturbed_iff (registered : Registered log)
    (known : log.subscriptions name = some sub) (installs : log.subscriptions other = some installer)
    (different : name ≠ other) :
    Undisturbed log (log.advance reader readLimit outside other installer) name sub ↔
      ¬ Displaces log (.advance other outside) name sub := by
  rw [displaces_advance_iff installs]
  cases isTask : installer.task with
  | installing =>
    rw [installing_undisturbed_iff registered known different isTask]
    simp
  | displacing displaced =>
    cases displaced with
    | none =>
      refine iff_of_true ?_ (by simp)
      rw [DurableEventLog.advance, isTask]
      exact undisturbed_put known different _
    | some target =>
      rw [displacing_undisturbed_iff known different isTask]
      simp
  | inserting =>
    have free := (registered.gate other installer installs (by rw [isTask]; trivial)).2
    rw [DurableEventLog.advance, isTask]
    refine iff_of_true ⟨(put_of_ne different).trans known, fun found => ?_⟩ (by simp)
    have otherId : sub.id ≠ installer.id := fun same => by
      rw [same, free] at found
      cases found
    rw [lookup_assocInsert, if_neg otherId]
    exact found
  | unregistering error =>
    refine iff_of_true ?_ (by simp)
    rw [DurableEventLog.advance, isTask]
    exact ⟨(put_of_ne different).trans (unregister_known known), unregister_lookup different⟩
  | _ =>
    refine iff_of_true ?_ (by simp)
    rw [DurableEventLog.advance, isTask]
    exact undisturbed_put known different _

/-- A step made for one tenant leaves a subscription of another alone just when it does not displace
it. -/
theorem undisturbed_iff {feed : Feed}
    (reached : Reaches (DurableEventLog.step reader readLimit) (fun _ _ => True) { feed } log)
    (known : log.subscriptions name = some sub) (event : EventLogEvent Feed) {tenant : Did}
    (acts : actingTenant log event = some tenant) (different : tenant ≠ sub.tenant) :
    Undisturbed log (log.step reader readLimit event) name sub ↔ ¬ Displaces log event name sub := by
  have registered : Registered log := reached.invariant
    ⟨fun _ _ known => (nomatch known), fun _ _ found => (nomatch found)⟩
    fun _ event registered _ => registered.step event
  have apart {other : Nat} (ofOther : (log.subscriptions other).map (·.tenant) = some tenant) :
      name ≠ other := fun same => by
    rw [← same, known] at ofOther
    exact different (Option.some.inj ofOther).symm
  have notAdvance {event : EventLogEvent Feed} (other : ∀ name outside, event ≠ .advance name outside) :
      ¬ Displaces log event name sub := fun ⟨name, outside, _, isAdvance, _⟩ =>
    other name outside isAdvance
  cases event with
  | advance other outside =>
    rw [DurableEventLog.step]
    obtain ⟨installer, installs, -⟩ := Option.map_eq_some_iff.mp acts
    rw [installs]
    exact advance_undisturbed_iff registered known installs (apart acts)
  | commit feed => cases acts
  | shut => cases acts
  | subscribe other otherTenant id options =>
    refine iff_of_true ?_ (notAdvance (by simp))
    rw [DurableEventLog.step]
    split
    · exact ⟨known, fun found => found⟩
    · rename_i fresh
      refine undisturbed_put known (fun same => fresh ?_) _
      rw [← same, known]
      simp
  | drain other outside =>
    refine iff_of_true ?_ (notAdvance (by simp))
    obtain ⟨installer, installs, -⟩ := Option.map_eq_some_iff.mp acts
    rw [DurableEventLog.step, installs]
    dsimp only
    rw [DurableEventLog.drainStep]
    split
    · exact ⟨known, fun found => found⟩
    · exact ⟨(put_of_ne (apart acts)).trans (unregister_known known),
        unregister_lookup (apart acts)⟩
    · exact undisturbed_put known (apart acts) _
  | wake other => exact iff_of_true (undisturbed_change known (apart acts) _) (notAdvance (by simp))
  | start other => exact iff_of_true (undisturbed_change known (apart acts) _) (notAdvance (by simp))
  | close other => exact iff_of_true (undisturbed_change known (apart acts) _) (notAdvance (by simp))
  | unregister other =>
    refine iff_of_true ?_ (notAdvance (by simp))
    rw [DurableEventLog.step]
    split
    · exact ⟨known, fun found => found⟩
    · split
      · exact ⟨unregister_known known, unregister_lookup (apart acts)⟩
      · exact ⟨known, fun found => found⟩

end

namespace Shared

open Changes Run.Threads

def alice : List (EventLogEvent MemoryFeed) :=
  .subscribe 0 "did:ex:alice" "m7" {} :: List.replicate 8 (.advance 0 {})

def bob (id : String) (count : Nat) : List (EventLogEvent MemoryFeed) :=
  .subscribe 1 "did:ex:bob" id {} :: List.replicate count (.advance 1 {})

noncomputable section

def log (events : List (EventLogEvent MemoryFeed)) : DurableEventLog MemoryFeed :=
  events.foldl (DurableEventLog.step (memoryFeedReader p id) 100) { feed := fed [] }

def aliceIn (events : List (EventLogEvent MemoryFeed)) : Option Subscription :=
  (log events).subscriptions 0

def toldLater (events : List (EventLogEvent MemoryFeed)) : Option (List Nat) :=
  (aliceIn (events ++ [.commit (fed [first])] ++ drains 12)).map fun sub => positions sub.heard

theorem undisturbed_under_other_id : ∃ sub, aliceIn (alice ++ bob "m8" 1) = some sub ∧
    Undisturbed (log (alice ++ bob "m8" 1)) (log (alice ++ bob "m8" 2)) 0 sub := by
  have reached : Reaches (DurableEventLog.step (memoryFeedReader p id) 100) (fun _ _ => True)
      { feed := fed [] } (log (alice ++ bob "m8" 1)) := reaches_foldl _ _ _
  obtain ⟨sub, known⟩ : ∃ sub, aliceIn (alice ++ bob "m8" 1) = some sub :=
    Option.isSome_iff_exists.mp rfl
  have ofAlice : "did:ex:bob" ≠ sub.tenant := by
    have same : (aliceIn (alice ++ bob "m8" 1)).map (·.tenant) = some "did:ex:alice" := rfl
    rw [known] at same
    have tenant : sub.tenant = "did:ex:alice" := Option.some.inj same
    rw [tenant]
    decide
  have acts : actingTenant (log (alice ++ bob "m8" 1)) (.advance 1 {}) = some "did:ex:bob" := rfl
  refine ⟨sub, known, (undisturbed_iff reached known (.advance 1 {}) acts ofAlice).mpr ?_⟩
  rintro ⟨other, outside, installer, isAdvance, isInstaller, how⟩
  cases isAdvance
  have ofBob : ((log (alice ++ bob "m8" 1)).subscriptions 1).map (fun sub => (sub.id, sub.task)) =
    some ("m8", .installing) := rfl
  rw [isInstaller] at ofBob
  obtain ⟨ofId, ofTask⟩ := Prod.mk.inj (Option.some.inj ofBob)
  rw [ofId, ofTask] at how
  rcases how with ⟨-, -, -, found⟩ | ⟨task, -⟩
  · cases found
  · cases task

theorem displaced_by_same_id :
    (aliceIn alice).map (·.phase) = some .live ∧ toldLater alice = some [1] ∧
    (aliceIn (alice ++ bob "m7" 3)).map (·.phase) = some .closed ∧
    (log (alice ++ bob "m7" 4)).registry = [("m7", 1)] ∧
    toldLater (alice ++ bob "m7" 4) = some [] :=
  ⟨rfl, rfl, rfl, rfl, rfl⟩

end

end Shared

end Enbox.Proof.EventLog
