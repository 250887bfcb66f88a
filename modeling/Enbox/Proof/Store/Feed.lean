import Enbox.Proof.Run.Threads
import Enbox.Store.Feed

/-! # Positions of the replication feed -/

namespace Enbox.Proof.Store

open Lib List

variable {p : Primitives} {contribution : Cid → Fingerprint} {tenant : Did}
  {mutation : LatestStateMutation} {wake : Option Wake} {entry : MemoryFeedEntry} {cid : Cid}
  {retains : List LatestStateMutation} {cids : List Cid} {event : FeedEvent} {position : Nat}

section

variable {state after : MemoryMessageState}

structure Replaced (p : Primitives) (state after : MemoryMessageState) (tenant : Did)
    (mutation : LatestStateMutation) : Prop where
  positioned : isFeedMessage mutation.message = true →
    (state.positionsByCid.lookup (tenant, p.messageCid mutation.message)).isSome
  messages : after.messages = (insertMessage p state tenant mutation).messages
  heads : after.heads = state.heads
  positions : after.positionsByCid = state.positionsByCid
  entries : ∀ key, (after.entries.lookup key).map (·.messageCid) =
    (state.entries.lookup key).map (·.messageCid)
  others : ∀ other position, other ≠ tenant →
    after.entries.lookup (other, position) = state.entries.lookup (other, position)

structure Appended (p : Primitives) (state after : MemoryMessageState) (tenant : Did)
    (mutation : LatestStateMutation) (entry : MemoryFeedEntry) : Prop where
  unpositioned : state.positionsByCid.lookup (tenant, p.messageCid mutation.message) = none
  messages : after.messages = (insertMessage p state tenant mutation).messages
  heads : after.heads = assocInsert tenant (state.head tenant + 1) state.heads
  positions : after.positionsByCid = assocInsert (tenant, p.messageCid mutation.message)
    (state.head tenant + 1) state.positionsByCid
  entries : after.entries = assocInsert (tenant, state.head tenant + 1) entry state.entries
  cid : entry.messageCid = p.messageCid mutation.message

theorem Appended.head (appended : Appended p state after tenant mutation entry) (other : Did) :
    after.head other = if other = tenant then state.head tenant + 1 else state.head other := by
  rw [MemoryMessageState.head, appended.heads, lookup_assocInsert]
  split <;> rfl

inductive Puts (p : Primitives) (contribution : Cid → Fingerprint) (state : MemoryMessageState)
    (tenant : Did) (mutation : LatestStateMutation) : MemoryMessageState → Option Wake → Prop
  | stored (notFeed : isFeedMessage mutation.message = false) :
      Puts p contribution state tenant mutation (insertMessage p state tenant mutation) none
  | replaced (isFeed : isFeedMessage mutation.message = true) (position : Nat)
      (entry : MemoryFeedEntry)
      (positioned : state.positionsByCid.lookup (tenant, p.messageCid mutation.message) =
        some position)
      (isEntry : state.entries.lookup (tenant, position) = some entry)
      (unchanged : scopesUnchanged entry.fingerprintScopes
        (fingerprintScopes (writeTagProtocol mutation.message) mutation.indexes) = true) :
      Puts p contribution state tenant mutation
        { insertMessage p state tenant mutation with
          entries := assocInsert (tenant, position) { entry with indexes := mutation.indexes }
            state.entries } none
  | appended (isFeed : isFeedMessage mutation.message = true)
      (unpositioned : state.positionsByCid.lookup (tenant, p.messageCid mutation.message) = none)
      (bounded : state.head tenant + 1 < 2 ^ 64) :
      Puts p contribution state tenant mutation
        { insertMessage p state tenant mutation with
          entries := assocInsert (tenant, state.head tenant + 1)
            ⟨fingerprintScopes (writeTagProtocol mutation.message) mutation.indexes,
              mutation.indexes, p.messageCid mutation.message⟩ state.entries
          positionsByCid := assocInsert (tenant, p.messageCid mutation.message)
            (state.head tenant + 1) state.positionsByCid
          heads := assocInsert tenant (state.head tenant + 1) state.heads
          fingerprints := foldCidIntoDomain contribution state.fingerprints tenant
            (p.messageCid mutation.message)
            (fingerprintScopes (writeTagProtocol mutation.message) mutation.indexes) }
        (some ⟨tenant, state.head tenant + 1⟩)

theorem puts_of_ok
    (put : putMessageState p contribution state tenant mutation = .ok (after, wake)) :
    Puts p contribution state tenant mutation after wake := by
  unfold putMessageState at put
  split at put
  · rename_i notFeed
    cases put
    exact .stored (by simpa using notFeed)
  · rename_i isFeed
    have isFeed : isFeedMessage mutation.message = true := by simpa using isFeed
    split at put
    · rename_i position found
      simp only [replaceEntry, ok_iff, Prod.mk.injEq] at put
      obtain ⟨_, ⟨entry, isEntry, _, unchanged, rfl⟩, rfl, rfl⟩ := put
      exact .replaced isFeed position entry found isEntry unchanged
    · rename_i missing
      simp only [appendEntry, ok_iff, Prod.mk.injEq] at put
      obtain ⟨_, ⟨_, bounded, rfl⟩, rfl, rfl⟩ := put
      exact .appended isFeed missing bounded

theorem Puts.messages (puts : Puts p contribution state tenant mutation after wake) :
    after.messages = (insertMessage p state tenant mutation).messages := by
  cases puts <;> rfl

theorem putMessageState_cases
    (put : putMessageState p contribution state tenant mutation = .ok (after, wake)) :
    (wake = none ∧ Replaced p state after tenant mutation) ∨
    (wake = some ⟨tenant, state.head tenant + 1⟩ ∧
      ∃ entry, Appended p state after tenant mutation entry) := by
  cases puts_of_ok put with
  | stored notFeed =>
    refine .inl ⟨rfl, fun isFeed => ?_, rfl, rfl, rfl, fun _ => rfl, fun _ _ _ => rfl⟩
    rw [isFeed] at notFeed
    cases notFeed
  | replaced isFeed position entry positioned isEntry unchanged =>
    refine .inl ⟨rfl, fun _ => by rw [positioned]; rfl, rfl, rfl, rfl, fun key => ?_,
      fun other other' different => ?_⟩
    · change (List.lookup key (assocInsert _ _ _)).map _ = _
      rw [lookup_assocInsert]
      split
      · rename_i same
        rw [same, isEntry]
        rfl
      · rfl
    · change List.lookup _ (assocInsert _ _ _) = _
      rw [lookup_assocInsert, if_neg]
      exact fun same => different (congrArg Prod.fst same)
  | appended isFeed unpositioned bounded =>
    exact .inr ⟨rfl, _, unpositioned, rfl, rfl, rfl, rfl, rfl⟩

structure Removed (state after : MemoryMessageState) (tenant : Did) (cid : Cid) : Prop where
  heads : after.heads = state.heads
  messages : after.messages = assocErase (tenant, cid) state.messages
  positions : ∀ key, after.positionsByCid.lookup key =
    if key = (tenant, cid) then none else state.positionsByCid.lookup key
  entries : ∀ key entry, after.entries.lookup key = some entry ↔
    state.entries.lookup key = some entry ∧
      ¬ (key.1 = tenant ∧ state.positionsByCid.lookup (tenant, cid) = some key.2)

inductive Deletes (contribution : Cid → Fingerprint) (state : MemoryMessageState) (tenant : Did)
    (cid : Cid) : MemoryMessageState → Prop
  | removed (position : Nat) (entry : MemoryFeedEntry)
      (positioned : state.positionsByCid.lookup (tenant, cid) = some position)
      (isEntry : state.entries.lookup (tenant, position) = some entry)
      (ofCid : entry.messageCid = cid) :
      Deletes contribution state tenant cid
        { state with
          messages := assocErase (tenant, cid) state.messages
          entries := assocErase (tenant, position) state.entries
          positionsByCid := assocErase (tenant, cid) state.positionsByCid
          fingerprints := foldCidIntoDomain contribution state.fingerprints tenant
            entry.messageCid entry.fingerprintScopes }
  | unpositioned (missing : state.positionsByCid.lookup (tenant, cid) = none) :
      Deletes contribution state tenant cid
        { state with messages := assocErase (tenant, cid) state.messages }

section

variable (deleted : deleteMessageState contribution state tenant cid = .ok after)

include deleted

theorem deletes_of_ok :
    Deletes contribution state tenant cid after := by
  unfold deleteMessageState at deleted
  split at deleted
  · rename_i position found
    simp only [removeEntry, ok_iff] at deleted
    obtain ⟨entry, isEntry, _, ofCid, rfl⟩ := deleted
    exact .removed position entry found isEntry ofCid
  · rename_i missing
    cases deleted
    exact .unpositioned missing

theorem deleteMessageState_ok :
    Removed state after tenant cid := by
  cases deletes_of_ok deleted with
  | removed position entry positioned isEntry ofCid =>
    refine ⟨rfl, rfl, fun key => lookup_assocErase _ _ _, fun key entry => ?_⟩
    change List.lookup key (assocErase _ _) = _ ↔ _
    rw [lookup_assocErase, positioned]
    obtain ⟨other, at_⟩ := key
    simp only [Prod.mk.injEq, Option.some.injEq]
    split <;> grind
  | unpositioned missing =>
    refine ⟨rfl, rfl, fun key => ?_, fun key entry => ?_⟩
    · split
      · rename_i same
        rw [same, missing]
      · rfl
    · simp [missing]

end

/-! ## One step of the store -/

def FeedEvent.actor : FeedEvent → Option Did
  | .put tenant _ | .commit tenant _ | .delete tenant _ => some tenant
  | .clear _ => none

section

variable {R : MemoryMessageState → MemoryMessageState → Prop} (refl : ∀ state, R state state)
  (trans : ∀ {a b c}, R a b → R b c → R a c)

include refl trans

theorem retainMessageStates_relates (put : ∀ {state after mutation wake},
      putMessageState p contribution state tenant mutation = .ok (after, wake) → R state after) :
    ∀ {state after wakes}, retainMessageStates p contribution tenant state retains = .ok (after, wakes) →
      R state after := by
  induction retains with
  | nil =>
    intro state after wakes retained
    cases retained
    exact refl state
  | cons mutation rest ih =>
    intro state after wakes retained
    simp only [retainMessageStates, ok_iff, Prod.mk.injEq] at retained
    obtain ⟨_, -, ⟨staged, wake⟩, first, ⟨staged', wakes'⟩, others, rfl, rfl⟩ := retained
    exact trans (put first) (ih others)

theorem feedStep_relates (actor : FeedEvent.actor event = some tenant)
    (put : ∀ {state after mutation wake},
      putMessageState p contribution state tenant mutation = .ok (after, wake) → R state after)
    (delete : ∀ {state after cid},
      deleteMessageState contribution state tenant cid = .ok after → R state after) :
    R state (feedStep p contribution state event) := by
  cases event with
  | put tenant mutation =>
    cases actor
    simp only [feedStep]
    split
    · rename_i done
      exact put done
    · exact refl state
  | commit tenant transition =>
    cases actor
    simp only [feedStep]
    split
    · rename_i committed
      simp only [commitLatestStateInFeed, stageTransition, ok_iff, Prod.mk.injEq] at committed
      obtain ⟨⟨_, _, _⟩, ⟨_, -, ⟨first, _⟩, done, ⟨second, _⟩, retained, _, deleted, rfl, rfl, rfl⟩,
        rfl, -⟩ := committed
      exact trans (put done) (trans (retainMessageStates_relates refl trans put retained)
        (foldlM_ok (fun _ _ _ _ related done => trans related (delete done)) (refl _) deleted).1)
    · exact refl state
  | delete tenant cid =>
    cases actor
    simp only [feedStep]
    split
    · rename_i deleted
      exact delete deleted
    · exact refl state
  | clear epoch => cases actor

end

theorem feedStep_invariant {P : MemoryMessageState → Prop} (clear : ∀ epoch, P { epoch })
    (put : ∀ {tenant state after mutation wake}, P state →
      putMessageState p contribution state tenant mutation = .ok (after, wake) → P after)
    (delete : ∀ {tenant state after cid}, P state →
      deleteMessageState contribution state tenant cid = .ok after → P after)
    (event : FeedEvent) (holds : P state) : P (feedStep p contribution state event) := by
  cases actor : FeedEvent.actor event with
  | none =>
    cases event with
    | clear epoch => exact clear epoch
    | _ => cases actor
  | some tenant =>
    exact feedStep_relates (R := fun before after => P before → P after) (fun _ => id)
      (fun first second holds => second (first holds)) actor (fun done holds => put holds done)
      (fun done holds => delete holds done) holds

end

/-! ## Coherence -/

structure Handed where
  tenant : Did
  position : Nat
  messageCid : Cid

def positionsOf (handed : List Handed) (tenant : Did) : List Nat :=
  (handed.filter (·.tenant = tenant)).map (·.position)

structure Coherent (state : MemoryMessageState) (handed : List Handed) : Prop where
  counted : ∀ tenant, positionsOf handed tenant = List.range' 1 (state.head tenant)
  entry : ∀ tenant position entry, state.entries.lookup (tenant, position) = some entry →
    state.positionsByCid.lookup (tenant, entry.messageCid) = some position ∧
      ⟨tenant, position, entry.messageCid⟩ ∈ handed
  position : ∀ tenant cid position, state.positionsByCid.lookup (tenant, cid) = some position →
    ∃ entry, state.entries.lookup (tenant, position) = some entry ∧ entry.messageCid = cid
  feed : ∀ tenant cid row, state.messages.lookup (tenant, cid) = some row →
    isFeedMessage row.message = true → (state.positionsByCid.lookup (tenant, cid)).isSome

section

variable {state after : MemoryMessageState} {handed : List Handed}

section

variable (coherent : Coherent state handed)
  (found : state.entries.lookup (tenant, position) = some entry)

include coherent found

theorem Coherent.position_within :
    0 < position ∧ position ≤ state.head tenant := by
  have listed : position ∈ positionsOf handed tenant :=
    mem_map.mpr ⟨_, mem_filter.mpr ⟨(coherent.entry _ _ _ found).2, by simp⟩, rfl⟩
  rw [coherent.counted, mem_range'_1] at listed
  omega

theorem Coherent.position_le :
    position ≤ state.head tenant :=
  (coherent.position_within found).2

end

theorem Coherent.initial (epoch : String) : Coherent { epoch } [] where
  counted _ := rfl
  entry _ _ _ found := by simp at found
  position _ _ _ found := by simp at found
  feed _ _ _ found := by simp at found

theorem Coherent.replaced (coherent : Coherent state handed)
    (replaced : Replaced p state after tenant mutation) : Coherent after handed where
  counted other := by
    rw [coherent.counted, MemoryMessageState.head, MemoryMessageState.head, replaced.heads]
  entry other position entry found := by
    have same := replaced.entries (other, position)
    rw [found, Option.map_some] at same
    obtain ⟨old, isOld, sameCid⟩ := Option.map_eq_some_iff.mp same.symm
    rw [replaced.positions, ← sameCid]
    exact coherent.entry other position old isOld
  position other cid position found := by
    rw [replaced.positions] at found
    obtain ⟨old, isOld, ofCid⟩ := coherent.position other cid position found
    have same := replaced.entries (other, position)
    rw [isOld, Option.map_some] at same
    obtain ⟨entry, isEntry, sameCid⟩ := Option.map_eq_some_iff.mp same
    exact ⟨entry, isEntry, sameCid.trans ofCid⟩
  feed other cid row found isFeed := by
    rw [replaced.messages, insertMessage, lookup_assocInsert] at found
    rw [replaced.positions]
    split at found
    · rename_i same
      cases found
      rw [same]
      exact replaced.positioned isFeed
    · exact coherent.feed other cid row found isFeed

theorem Coherent.appended (coherent : Coherent state handed)
    (appended : Appended p state after tenant mutation entry) :
    Coherent after
      (handed ++ [⟨tenant, state.head tenant + 1, p.messageCid mutation.message⟩]) where
  counted other := by
    rw [positionsOf, filter_append, map_append]
    change positionsOf handed other ++ _ = _
    rw [coherent.counted, appended.head]
    by_cases same : other = tenant
    · subst same
      rw [if_pos rfl, range'_1_concat, Nat.add_comm 1]
      simp
    · have other' : tenant ≠ other := fun equal => same equal.symm
      simp [same, other']
  entry other position found isFound := by
    rw [appended.entries, lookup_assocInsert] at isFound
    rw [appended.positions, lookup_assocInsert]
    split at isFound
    · rename_i same
      cases isFound
      cases same
      rw [appended.cid]
      simp
    · rename_i notNew
      obtain ⟨positioned, listed⟩ := coherent.entry other position found isFound
      refine ⟨?_, mem_append_left _ listed⟩
      rw [if_neg]
      · exact positioned
      · intro same
        rw [same, appended.unpositioned] at positioned
        cases positioned
  position other cid position found := by
    rw [appended.positions, lookup_assocInsert] at found
    rw [appended.entries]
    split at found
    · rename_i same
      cases found
      cases same
      exact ⟨entry, by rw [lookup_assocInsert, if_pos rfl], appended.cid⟩
    · obtain ⟨old, isOld, ofCid⟩ := coherent.position other cid position found
      refine ⟨old, ?_, ofCid⟩
      rw [lookup_assocInsert, if_neg]
      · exact isOld
      · intro same
        cases same
        have bounded := coherent.position_le isOld
        omega
  feed other cid row found isFeed := by
    rw [appended.messages, insertMessage, lookup_assocInsert] at found
    rw [appended.positions, lookup_assocInsert]
    split at found
    · rename_i same
      rw [if_pos same]
      rfl
    · rename_i different
      rw [if_neg different]
      exact coherent.feed other cid row found isFeed

theorem Coherent.removed (coherent : Coherent state handed)
    (removed : Removed state after tenant cid) : Coherent after handed where
  counted other := by
    rw [coherent.counted, MemoryMessageState.head, MemoryMessageState.head, removed.heads]
  entry other position entry found := by
    obtain ⟨old, notRemoved⟩ := (removed.entries _ _).mp found
    obtain ⟨positioned, listed⟩ := coherent.entry other position entry old
    refine ⟨?_, listed⟩
    rw [removed.positions, if_neg]
    · exact positioned
    · intro same
      cases same
      exact notRemoved ⟨rfl, positioned⟩
  position other key position found := by
    rw [removed.positions] at found
    split at found
    · cases found
    · rename_i different
      obtain ⟨entry, isEntry, ofCid⟩ := coherent.position other key position found
      refine ⟨entry, (removed.entries _ _).mpr ⟨isEntry, ?_⟩, ofCid⟩
      rintro ⟨rfl, sameTenant⟩
      obtain ⟨entry', isEntry', ofCid'⟩ := coherent.position _ _ _ sameTenant
      cases isEntry.symm.trans isEntry'
      exact different (by rw [← ofCid, ofCid'])
  feed other key row found isFeed := by
    rw [removed.messages, lookup_assocErase] at found
    rw [removed.positions]
    split at found
    · cases found
    · rename_i different
      rw [if_neg different]
      exact coherent.feed other key row found isFeed

/-! ## Runs -/

def handedTo (p : Primitives) (mutation : LatestStateMutation) (wake : Option Wake) : List Handed :=
  wake.toList.map fun wake => ⟨wake.tenant, wake.position, p.messageCid mutation.message⟩

theorem Coherent.put (coherent : Coherent state handed)
    (put : putMessageState p contribution state tenant mutation = .ok (after, wake)) :
    Coherent after (handed ++ handedTo p mutation wake) := by
  rcases putMessageState_cases put with ⟨rfl, replaced⟩ | ⟨rfl, entry, appended⟩
  · rw [handedTo, Option.toList_none, map_nil, append_nil]
    exact coherent.replaced replaced
  · exact coherent.appended appended

theorem Coherent.retain : ∀ {state after : MemoryMessageState}
    {handed : List Handed} {wakes : List (Option Wake)}, Coherent state handed →
      retainMessageStates p contribution tenant state retains = .ok (after, wakes) →
      Coherent after (handed ++ (retains.zip wakes).flatMap fun pair => handedTo p pair.1 pair.2) := by
  induction retains with
  | nil =>
    intro state after handed wakes coherent retained
    cases retained
    simpa using coherent
  | cons mutation rest ih =>
    intro state after handed wakes coherent retained
    simp only [retainMessageStates, ok_iff, Prod.mk.injEq] at retained
    obtain ⟨_, -, ⟨staged, wake⟩, put, ⟨staged', wakes'⟩, others, rfl, rfl⟩ := retained
    have later := ih (coherent.put put) others
    rwa [append_assoc] at later

theorem Coherent.deleteAll (coherent : Coherent state handed)
    (deleted : cids.foldlM (fun staged cid => deleteMessageState contribution staged tenant cid) state =
      .ok after) : Coherent after handed :=
  (foldlM_ok (P := fun state => Coherent state handed)
    (fun _ _ _ _ kept first => kept.removed (deleteMessageState_ok first)) coherent deleted).1

end

def handedBy (p : Primitives) (contribution : Cid → Fingerprint) (state : MemoryMessageState) :
    FeedEvent → List Handed
  | .put tenant mutation =>
      match putMessageState p contribution state tenant mutation with
      | .ok (_, wake) => handedTo p mutation wake
      | .error _ => []
  | .commit tenant transition =>
      match stageTransition p contribution state tenant transition with
      | .ok (_, wake, wakes) => handedTo p transition.put wake ++
          (transition.retains.zip wakes).flatMap fun pair => handedTo p pair.1 pair.2
      | .error _ => []
  | .delete _ _ | .clear _ => []

structure FeedJournal where
  state : MemoryMessageState := {}
  handed : List Handed := []

def FeedJournal.record (p : Primitives) (contribution : Cid → Fingerprint) (journal : FeedJournal)
    (event : FeedEvent) : FeedJournal where
  state := feedStep p contribution journal.state event
  handed :=
    -- A clear starts a new epoch.
    match event with
    | .clear _ => []
    | _ => journal.handed ++ handedBy p contribution journal.state event

section

theorem Coherent.record {journal : FeedJournal} (coherent : Coherent journal.state journal.handed)
    (event : FeedEvent) : Coherent (journal.record p contribution event).state
      (journal.record p contribution event).handed := by
  cases event with
  | put tenant mutation =>
    simp only [FeedJournal.record, feedStep, handedBy]
    cases put : putMessageState p contribution journal.state tenant mutation with
    | error failure => simpa using coherent
    | ok result => exact coherent.put put
  | commit tenant transition =>
    simp only [FeedJournal.record, feedStep, handedBy, commitLatestStateInFeed]
    cases staged : stageTransition p contribution journal.state tenant transition with
    | error failure => simpa using coherent
    | ok result =>
      obtain ⟨after, wake, wakes⟩ := result
      simp only [stageTransition, ok_iff, Prod.mk.injEq] at staged
      obtain ⟨_, -, ⟨first, _⟩, put, ⟨second, _⟩, retained, _, deleted, rfl, rfl, rfl⟩ := staged
      have kept := ((coherent.put put).retain retained).deleteAll deleted
      rwa [append_assoc] at kept
  | delete tenant cid =>
    simp only [FeedJournal.record, feedStep, handedBy, append_nil]
    cases deleted : deleteMessageState contribution journal.state tenant cid with
    | error failure => exact coherent
    | ok after => exact coherent.removed (deleteMessageState_ok deleted)
  | clear epoch => exact Coherent.initial epoch

/-! ## Other tenants -/

structure SameFeed (tenant : Did) (after before : MemoryMessageState) : Prop where
  head : after.head tenant = before.head tenant
  entries : ∀ position, after.entries.lookup (tenant, position) =
    before.entries.lookup (tenant, position)
  positions : ∀ cid, after.positionsByCid.lookup (tenant, cid) =
    before.positionsByCid.lookup (tenant, cid)

theorem SameFeed.refl (tenant : Did) (state : MemoryMessageState) : SameFeed tenant state state :=
  ⟨rfl, fun _ => rfl, fun _ => rfl⟩

theorem SameFeed.trans {a b c : MemoryMessageState} (first : SameFeed tenant a b)
    (second : SameFeed tenant b c) : SameFeed tenant a c :=
  ⟨first.head.trans second.head, fun position => (first.entries position).trans
    (second.entries position), fun cid => (first.positions cid).trans (second.positions cid)⟩

variable {state after : MemoryMessageState} {other : Did}

theorem sameFeed_put (different : other ≠ tenant)
    (put : putMessageState p contribution state tenant mutation = .ok (after, wake)) :
    SameFeed other after state := by
  rcases putMessageState_cases put with ⟨-, replaced⟩ | ⟨-, entry, appended⟩
  · refine ⟨?_, fun position => replaced.others other position different, fun cid => ?_⟩
    · rw [MemoryMessageState.head, replaced.heads]
      rfl
    · rw [replaced.positions]
  · refine ⟨?_, fun position => ?_, fun cid => ?_⟩
    · rw [appended.head, if_neg different]
    · rw [appended.entries, lookup_assocInsert, if_neg fun same => different (congrArg Prod.fst same)]
    · rw [appended.positions, lookup_assocInsert,
        if_neg fun same => different (congrArg Prod.fst same)]

theorem sameFeed_delete (different : other ≠ tenant)
    (deleted : deleteMessageState contribution state tenant cid = .ok after) :
    SameFeed other after state := by
  have removed := deleteMessageState_ok deleted
  refine ⟨?_, fun position => Option.ext fun entry => ?_, fun cid => ?_⟩
  · rw [MemoryMessageState.head, removed.heads]
    rfl
  · rw [removed.entries]
    simp [different]
  · rw [removed.positions, if_neg fun same => different (congrArg Prod.fst same)]

def FeedEvent.actsOn (tenant : Did) : FeedEvent → Bool
  | .put actor _ | .commit actor _ | .delete actor _ => actor = tenant
  | .clear _ => true

theorem sameFeed_step (apart : FeedEvent.actsOn other event = false) :
    SameFeed other (feedStep p contribution state event) state := by
  obtain ⟨actor, isActor, different⟩ :
      ∃ actor, FeedEvent.actor event = some actor ∧ other ≠ actor := by
    cases event with
    | put actor _ | commit actor _ | delete actor _ =>
      exact ⟨actor, rfl, fun same => by simp [FeedEvent.actsOn, same] at apart⟩
    | clear epoch => cases apart
  exact feedStep_relates (R := fun before after => SameFeed other after before)
    (SameFeed.refl other) (fun first second => second.trans first) isActor
    (sameFeed_put different) (sameFeed_delete different)

end

/-- In every run, the positions handed out to a tenant since the last clear increase strictly, every
retained feed message has one entry, and the feeds of the other tenants are left as they were. -/
theorem feed_positions_of_run {p : Primitives} {contribution : Cid → Fingerprint}
    {journal : FeedJournal}
    (reached : Reaches (FeedJournal.record p contribution) (fun _ _ => True) {} journal) :
    (∀ tenant, (positionsOf journal.handed tenant).Pairwise (· < ·)) ∧
    (∀ tenant position entry, journal.state.entries.lookup (tenant, position) = some entry →
      position ≤ journal.state.head tenant ∧
        ⟨tenant, position, entry.messageCid⟩ ∈ journal.handed) ∧
    (∀ tenant cid row, journal.state.messages.lookup (tenant, cid) = some row →
      isFeedMessage row.message = true →
      ∃! position, ∃ entry, journal.state.entries.lookup (tenant, position) = some entry ∧
        entry.messageCid = cid) ∧
    ∀ event tenant, FeedEvent.actsOn tenant event = false →
      SameFeed tenant (feedStep p contribution journal.state event) journal.state := by
  have coherent : Coherent journal.state journal.handed :=
    reached.invariant (P := fun journal => Coherent journal.state journal.handed)
      (Coherent.initial "") fun journal event coherent _ => coherent.record event
  refine ⟨fun tenant => ?_, fun tenant position entry found => ?_,
    fun tenant cid row found isFeed => ?_, fun event tenant apart => sameFeed_step apart⟩
  · rw [coherent.counted]
    exact pairwise_lt_range'
  · exact ⟨coherent.position_le found, (coherent.entry tenant position entry found).2⟩
  · obtain ⟨position, positioned⟩ :=
      Option.isSome_iff_exists.mp (coherent.feed tenant cid row found isFeed)
    refine ⟨position, coherent.position tenant cid position positioned, ?_⟩
    rintro position' ⟨entry, isEntry, rfl⟩
    have same := (coherent.entry tenant position' entry isEntry).1
    rw [positioned] at same
    cases same
    rfl

def threadEvents : List FeedEvent :=
  [.put "did:ex:alice" ⟨Run.Threads.one, []⟩, .put "did:ex:alice" ⟨Run.Threads.two, []⟩,
    .delete "did:ex:alice" "m1", .put "did:ex:alice" ⟨Run.Threads.role, []⟩]

noncomputable def threadFeed : FeedJournal :=
  threadEvents.foldl (FeedJournal.record Run.Threads.p fun _ => 0) {}

theorem position_of_deleted_head_not_reused :
    Reaches (FeedJournal.record Run.Threads.p fun _ => 0) (fun _ _ => True) {} threadFeed ∧
    positionsOf threadFeed.handed "did:ex:alice" = [1, 2, 3] ∧
    (positionsOf threadFeed.handed "did:ex:alice").Pairwise (· < ·) ∧
    threadFeed.state.entries.map (·.1.2) = [3, 1] := by
  refine ⟨?reached, rfl, (feed_positions_of_run ?reached).1 "did:ex:alice", rfl⟩
  exact AllowedAlong.reaches ⟨trivial, trivial, trivial, trivial, trivial⟩

/-! ## The messages of the feed -/

def Represents (state : MemoryMessageState) (store : MessageStore) : Prop :=
  ∀ tenant cid, (state.messages.lookup (tenant, cid)).map (fun row => (row.message, row.indexes)) =
    (store.find? fun row => row.tenant = tenant && row.cid = cid).map
      fun row => (row.message, row.indexes)

section

variable {state after : MemoryMessageState} {store : MessageStore}

theorem findRow_delete (store : MessageStore) (tenant other : Did) (cid key : Cid) :
    (store.delete tenant cid).find? (fun row => row.tenant = other && row.cid = key) =
      if (other, key) = (tenant, cid) then none
      else store.find? fun row => row.tenant = other && row.cid = key := by
  rw [MessageStore.delete, List.find?_filter]
  split
  · rename_i same
    cases same
    simp
    tauto
  · rename_i different
    congr 1
    funext row
    grind

section

variable (represents : Represents state store)

include represents

theorem Represents.insert
    (messages : after.messages = (insertMessage p state tenant mutation).messages) :
    Represents after (store.put p tenant mutation) := by
  intro other key
  rw [messages, insertMessage, lookup_assocInsert, MessageStore.put, List.find?_cons]
  by_cases same : (other, key) = (tenant, p.messageCid mutation.message)
  · cases same
    simp
  · have notNew : (decide (tenant = other) && decide (p.messageCid mutation.message = key)) = false := by
      grind
    rw [if_neg same, notNew]
    simp only [findRow_delete, if_neg same]
    exact represents other key

theorem Represents.put
    (put : putMessageState p contribution state tenant mutation = .ok (after, wake)) :
    Represents after (store.put p tenant mutation) := by
  rcases putMessageState_cases put with ⟨-, replaced⟩ | ⟨-, entry, appended⟩
  · exact represents.insert replaced.messages
  · exact represents.insert appended.messages

theorem Represents.delete (deleted : deleteMessageState contribution state tenant cid = .ok after) :
    Represents after (store.delete tenant cid) := by
  intro other key
  rw [(deleteMessageState_ok deleted).messages, lookup_assocErase, findRow_delete]
  split
  · rfl
  · exact represents other key

end

theorem Represents.retain :
    ∀ {state after : MemoryMessageState} {store : MessageStore} {wakes : List (Option Wake)},
      Represents state store →
      retainMessageStates p contribution tenant state retains = .ok (after, wakes) →
      ∃ store', MessageStore.retain p tenant store retains = .ok store' ∧
        Represents after store' := by
  induction retains with
  | nil =>
    intro state after store wakes represents retained
    cases retained
    exact ⟨store, rfl, represents⟩
  | cons mutation rest ih =>
    intro state after store wakes represents retained
    simp only [retainMessageStates, ok_iff, Prod.mk.injEq] at retained
    obtain ⟨_, present, ⟨staged, wake⟩, put, ⟨staged', wakes'⟩, others, rfl, rfl⟩ := retained
    obtain ⟨store', isRetained, represents'⟩ := ih (represents.put put) others
    refine ⟨store', ?_, represents'⟩
    have stored : (store.get tenant (p.messageCid mutation.message)).isSome = true := by
      have same := congrArg Option.isSome (represents tenant (p.messageCid mutation.message))
      simpa [MessageStore.get, present] using same.symm
    simp only [MessageStore.retain, ok_iff]
    exact ⟨(), stored, isRetained⟩

theorem Represents.deleteAll (represents : Represents state store)
    (deleted : cids.foldlM (fun staged cid => deleteMessageState contribution staged tenant cid) state =
      .ok after) :
    Represents after (cids.foldl (fun staged cid => staged.delete tenant cid) store) :=
  foldlM_simulates (fun kept first => kept.delete first) represents deleted

theorem Represents.commit {transition : LatestStateTransition} {position : Option Nat}
    (represents : Represents state store)
    (committed : commitLatestStateInFeed p contribution state tenant transition =
      .ok (after, wake, position)) :
    ∃ store', store.commitLatestState p tenant transition = .ok store' ∧
      Represents after store' := by
  simp only [commitLatestStateInFeed, stageTransition, ok_iff, Prod.mk.injEq] at committed
  obtain ⟨⟨_, _, _⟩, ⟨_, valid, ⟨first, _⟩, put, ⟨second, _⟩, retained, _, deleted, rfl, rfl, rfl⟩, rfl,
    -⟩ := committed
  obtain ⟨store', isRetained, represents'⟩ := (represents.put put).retain retained
  refine ⟨_, ?_, represents'.deleteAll deleted⟩
  simp only [MessageStore.commitLatestState, ok_iff]
  exact ⟨(), valid, store', isRetained, rfl⟩

def storeStep (p : Primitives) (store : MessageStore) : FeedEvent → MessageStore
  | .put tenant mutation => store.put p tenant mutation
  | .commit tenant transition => (store.commitLatestState p tenant transition).toOption.getD store
  | .delete tenant cid => store.delete tenant cid
  | .clear _ => []

def refuses (p : Primitives) (contribution : Cid → Fingerprint) (state : MemoryMessageState) :
    FeedEvent → Bool
  | .put tenant mutation => !(putMessageState p contribution state tenant mutation).isOk
  | .commit tenant transition =>
      !(commitLatestStateInFeed p contribution state tenant transition).isOk
  | .delete tenant cid => !(deleteMessageState contribution state tenant cid).isOk
  | .clear _ => false

def performed (p : Primitives) (contribution : Cid → Fingerprint) :
    MemoryMessageState → List FeedEvent → List FeedEvent
  | _, [] => []
  | state, event :: rest =>
      if refuses p contribution state event then performed p contribution state rest
      else event :: performed p contribution (feedStep p contribution state event) rest

theorem Represents.step (represents : Represents state store) (event : FeedEvent) :
    refuses p contribution state event = true ∧ feedStep p contribution state event = state ∨
    refuses p contribution state event = false ∧
      Represents (feedStep p contribution state event) (storeStep p store event) := by
  cases event with
  | put tenant mutation =>
    simp only [refuses, feedStep]
    cases outcome : putMessageState p contribution state tenant mutation with
    | error failure => exact .inl ⟨rfl, rfl⟩
    | ok result => exact .inr ⟨rfl, represents.put outcome⟩
  | delete tenant cid =>
    simp only [refuses, feedStep]
    cases outcome : deleteMessageState contribution state tenant cid with
    | error failure => exact .inl ⟨rfl, rfl⟩
    | ok after => exact .inr ⟨rfl, represents.delete outcome⟩
  | commit tenant transition =>
    simp only [refuses, feedStep]
    cases outcome : commitLatestStateInFeed p contribution state tenant transition with
    | error failure => exact .inl ⟨rfl, rfl⟩
    | ok result =>
      obtain ⟨after, commits, represents⟩ := represents.commit outcome
      rw [storeStep, commits]
      exact .inr ⟨rfl, represents⟩
  | clear => exact .inr ⟨rfl, fun _ _ => rfl⟩

theorem Represents.run (represents : Represents state store) (events : List FeedEvent) :
    performed p contribution state events <+ events ∧
    events.foldl (feedStep p contribution) state =
      (performed p contribution state events).foldl (feedStep p contribution) state ∧
    Represents (events.foldl (feedStep p contribution) state)
      ((performed p contribution state events).foldl (storeStep p) store) := by
  induction events generalizing state store with
  | nil => exact ⟨.slnil, rfl, represents⟩
  | cons event rest ih =>
    rcases represents.step event with ⟨refused, unchanged⟩ | ⟨done, represents⟩
    · obtain ⟨within, same, represents⟩ := ih represents
      rw [performed, if_pos refused, foldl_cons, unchanged]
      exact ⟨within.cons _, same, represents⟩
    · obtain ⟨within, same, represents⟩ := ih represents
      rw [performed, if_neg (Bool.not_eq_true _ ▸ done), foldl_cons, foldl_cons, foldl_cons]
      exact ⟨within.cons_cons _, same, represents⟩

/-- After any run the memory store holds what a plain store holds after the operations that were not
refused. -/
theorem feed_run_refines_store (p : Primitives) (contribution : Cid → Fingerprint) (epoch : String)
    (events : List FeedEvent) :
    performed p contribution { epoch } events <+ events ∧
      events.foldl (feedStep p contribution) { epoch } =
        (performed p contribution { epoch } events).foldl (feedStep p contribution) { epoch } ∧
      Represents (events.foldl (feedStep p contribution) { epoch })
        ((performed p contribution { epoch } events).foldl (storeStep p) []) := by
  have empty : Represents { epoch } [] := fun _ _ => rfl
  exact empty.run events

end

end Enbox.Proof.Store
