import Enbox.Lib.Aggregate
import Enbox.Proof.Store.Feed
import Enbox.Store.FeedReader

/-! # Fingerprints of the feed -/

namespace Enbox.Proof.Store

open Lib Run.Threads List

variable {scopes : List String} {state : MemoryMessageState} {tenant : Did} {scope : String}
  {cid : Cid} {contribution : Cid → Fingerprint} {row : MessageRow} {wake : Option Wake}

/-! ## Scopes -/

@[simp] theorem protocolScope_inj {a b : String} :
    protocolFingerprintScope a = protocolFingerprintScope b ↔ a = b := by
  simp [protocolFingerprintScope]

@[simp] theorem permissionScope_inj {a b : String} :
    permissionFingerprintScope a = permissionFingerprintScope b ↔ a = b := by
  simp [permissionFingerprintScope]

@[simp] theorem protocolScope_ne_permissionScope (a b : String) :
    protocolFingerprintScope a ≠ permissionFingerprintScope b := by
  intro same
  have chars := congrArg String.toList same
  simp [protocolFingerprintScope, permissionFingerprintScope, String.toList_append] at chars

@[simp] theorem permissionScope_ne_protocolScope (a b : String) :
    permissionFingerprintScope a ≠ protocolFingerprintScope b :=
  (protocolScope_ne_permissionScope b a).symm

@[simp] theorem protocolScope_ne_globalDomain (a : String) :
    protocolFingerprintScope a ≠ globalDomain := by
  intro same
  have chars := congrArg String.toList same
  simp [globalDomain, protocolFingerprintScope, String.toList_append] at chars

@[simp] theorem permissionScope_ne_globalDomain (a : String) :
    permissionFingerprintScope a ≠ globalDomain := by
  intro same
  have chars := congrArg String.toList same
  simp [globalDomain, permissionFingerprintScope, String.toList_append] at chars

section

variable {tag : Option String} {indexes : Indexes} {protocol : String}

theorem globalDomain_mem : globalDomain ∈ fingerprintScopes tag indexes := by
  unfold fingerprintScopes
  split <;> simp

theorem protocolScope_mem :
    protocolFingerprintScope protocol ∈ fingerprintScopes tag indexes ↔
      stringIndex indexes .protocol = some protocol := by
  unfold fingerprintScopes
  split
  · simp [*]
  · split <;> simp [*, eq_comm (a := protocol)]

theorem permissionScope_mem :
    permissionFingerprintScope protocol ∈ fingerprintScopes tag indexes ↔
      stringIndex indexes .protocol = some permissionsProtocolUri ∧
        (stringIndex indexes (.tag "protocol") <|> tag) = some protocol := by
  unfold fingerprintScopes
  split
  · simp [*]
  · split <;> simp [*]

end

theorem fingerprintScopes_nodup (tag : Option String) (indexes : Indexes) :
    (fingerprintScopes tag indexes).Nodup := by
  unfold fingerprintScopes
  split
  · simp
  · split
    · cases stringIndex indexes (.tag "protocol") <|> tag <;> simp [eq_comm (a := globalDomain)]
    · simp [eq_comm (a := globalDomain)]

theorem scopesUnchanged_iff {given current : List String} :
    scopesUnchanged given current = true ↔ ∀ scope, scope ∈ given ↔ scope ∈ current := by
  simp only [scopesUnchanged, Bool.and_eq_true, all_eq_true, decide_eq_true_eq]
  exact ⟨fun both scope => ⟨both.1 scope, both.2 scope⟩,
    fun same => ⟨fun scope => (same scope).mp, fun scope => (same scope).mpr⟩⟩

def xorOver {ι : Type} (indices : Finset ι) (contribution : ι → Fingerprint) : Fingerprint :=
  indices.fold (fun a b : Fingerprint => a ^^^ b) 0 contribution

theorem xorOver_union {ι : Type} [DecidableEq ι] (contribution : ι → Fingerprint) {s t : Finset ι}
    (disjoint : Disjoint s t) :
    xorOver (s ∪ t) contribution = xorOver s contribution ^^^ xorOver t contribution :=
  fold_union (fun _ => BitVec.xor_zero) disjoint

theorem xorOver_family {ι κ : Type} [DecidableEq ι] (contribution : ι → Fingerprint)
    {members : κ → Finset ι} {indices : Finset κ}
    (disjoint : (indices : Set κ).PairwiseDisjoint members) :
    xorOver indices (fun k => xorOver (members k) contribution) =
      xorOver (indices.biUnion members) contribution :=
  fold_family (fun _ => BitVec.xor_zero) disjoint

def stored (state : MemoryMessageState) (tenant : Did) (scope : String) : Fingerprint :=
  (state.fingerprints.lookup (tenant, scope)).getD 0

theorem lookup_foldCidIntoDomain (contribution : Cid → Fingerprint) (tenant other : Did) (cid : Cid)
    (scope : String) (distinct : scopes.Nodup) :
    ∀ fingerprints, ((foldCidIntoDomain contribution fingerprints tenant cid scopes).lookup
        (other, scope)).getD 0 =
      if other = tenant ∧ scope ∈ scopes then
        (fingerprints.lookup (other, scope)).getD 0 ^^^ contribution cid
      else (fingerprints.lookup (other, scope)).getD 0 := by
  induction scopes with
  | nil => intro fingerprints; simp [foldCidIntoDomain]
  | cons first rest ih =>
    intro fingerprints
    obtain ⟨fresh, others⟩ := nodup_cons.mp distinct
    rw [foldCidIntoDomain, foldl_cons]
    change ((foldCidIntoDomain contribution _ tenant cid rest).lookup (other, scope)).getD 0 = _
    rw [ih others, lookup_assocInsert]
    by_cases here : (other, scope) = (tenant, first)
    · cases here
      simp [fresh]
    · rw [if_neg here]
      have notFirst : other = tenant → scope ≠ first := fun same => by
        rintro rfl
        exact here (by rw [same])
      by_cases same : other = tenant
      · simp [same, notFirst same]
      · simp [same]

/-! ## Retained messages -/

def rowScopes (row : MessageRow) : List String :=
  if isFeedMessage row.message then
    fingerprintScopes (writeTagProtocol row.message) row.indexes
  else []

def scopesAt (state : MemoryMessageState) (tenant : Did) (cid : Cid) : List String :=
  ((state.messages.lookup (tenant, cid)).map rowScopes).getD []

def retainedIn (state : MemoryMessageState) (tenant : Did) (scope : String) : Finset Cid :=
  (state.messages.map (·.1.2)).toFinset.filter fun cid => scope ∈ scopesAt state tenant cid

theorem mem_retainedIn :
    cid ∈ retainedIn state tenant scope ↔ scope ∈ scopesAt state tenant cid := by
  simp only [retainedIn, Finset.mem_filter, mem_toFinset, and_iff_right_iff_imp]
  intro placed
  cases found : state.messages.lookup (tenant, cid) with
  | none => simp [scopesAt, found] at placed
  | some row =>
    obtain ⟨before, after, split, -⟩ := lookup_eq_some_iff.mp found
    rw [split]
    simp

theorem mem_scopesAt :
    scope ∈ scopesAt state tenant cid ↔
      ∃ row, state.messages.lookup (tenant, cid) = some row ∧ isFeedMessage row.message = true ∧
        scope ∈ fingerprintScopes (writeTagProtocol row.message) row.indexes := by
  unfold scopesAt rowScopes
  cases state.messages.lookup (tenant, cid) with
  | none => simp
  | some row => cases isFeed : isFeedMessage row.message <;> simp [isFeed]

section

variable {after : MemoryMessageState}

def Tallied (contribution : Cid → Fingerprint) (state : MemoryMessageState) : Prop :=
  ∀ tenant scope, stored state tenant scope = xorOver (retainedIn state tenant scope) contribution

theorem Tallied.same (tallied : Tallied contribution state)
    (fingerprints : after.fingerprints = state.fingerprints)
    (scopes : ∀ tenant cid scope, scope ∈ scopesAt after tenant cid ↔
      scope ∈ scopesAt state tenant cid) : Tallied contribution after := by
  intro tenant scope
  have same : retainedIn after tenant scope = retainedIn state tenant scope := by
    ext cid
    rw [mem_retainedIn, mem_retainedIn, scopes]
  rw [same, ← tallied tenant scope, stored, fingerprints, stored]

theorem Tallied.toggled (tallied : Tallied contribution state) (distinct : scopes.Nodup)
    (fingerprints : after.fingerprints =
      foldCidIntoDomain contribution state.fingerprints tenant cid scopes)
    (others : ∀ other key, (other, key) ≠ (tenant, cid) →
      scopesAt after other key = scopesAt state other key)
    (toggles : ∀ scope, (scope ∈ scopesAt after tenant cid) ↔
      (¬ scope ∈ scopesAt state tenant cid ↔ scope ∈ scopes)) :
    Tallied contribution after := by
  intro other scope
  rw [stored, fingerprints, lookup_foldCidIntoDomain contribution tenant other cid scope distinct]
  change (if _ then stored state other scope ^^^ _ else stored state other scope) = _
  rw [tallied other scope]
  by_cases touched : other = tenant ∧ scope ∈ scopes
  · obtain ⟨rfl, inScopes⟩ := touched
    have toggled : retainedIn after other scope = symmDiff (retainedIn state other scope) {cid} := by
      ext key
      rw [Finset.mem_symmDiff, Finset.mem_singleton, mem_retainedIn, mem_retainedIn]
      by_cases same : key = cid
      · subst same
        rw [toggles scope]
        simp [inScopes]
      · rw [others other key (by simpa using same)]
        simp [same]
    rw [if_pos ⟨rfl, inScopes⟩, toggled]
    exact (fold_symmDiff_singleton (fun a b => by
      rw [BitVec.xor_assoc, BitVec.xor_self, BitVec.xor_zero]) _ cid).symm
  · have same : retainedIn after other scope = retainedIn state other scope := by
      ext key
      rw [mem_retainedIn, mem_retainedIn]
      by_cases here : (other, key) = (tenant, cid)
      · cases here
        rw [toggles scope]
        tauto
      · rw [others other key here]
    rw [if_neg touched, same]

end

/-! ## Entries and rows -/

structure Aligned (p : Primitives) (state : MemoryMessageState) : Prop where
  addressed : ∀ tenant cid row, state.messages.lookup (tenant, cid) = some row →
    row.cid = cid ∧ p.messageCid row.message = cid
  aligned : ∀ tenant cid position entry,
    state.positionsByCid.lookup (tenant, cid) = some position →
    state.entries.lookup (tenant, position) = some entry →
    ∃ row, state.messages.lookup (tenant, cid) = some row ∧ isFeedMessage row.message = true ∧
      row.indexes = entry.indexes ∧
      (∀ scope, scope ∈ entry.fingerprintScopes ↔ scope ∈ scopesAt state tenant cid) ∧
      entry.fingerprintScopes.Nodup

section

variable {p : Primitives} {after : MemoryMessageState} {mutation : LatestStateMutation}
  {handed : List Handed}

theorem descriptor_of_messageCid (law : p.CollisionFree) {a b : Message}
    (same : p.messageCid a = p.messageCid b) : a.descriptor = b.descriptor := by
  have messages := CidInput.message.inj (law.cid same)
  simpa [Message.withoutEncodedData] using congrArg MessageOf.descriptor messages

theorem scopesAt_insert (messages : after.messages = (insertMessage p state tenant mutation).messages)
    (other : Did) (key : Cid) :
    scopesAt after other key =
      if (other, key) = (tenant, p.messageCid mutation.message) then
        rowScopes ⟨p.messageCid mutation.message, mutation.message, mutation.indexes⟩
      else scopesAt state other key := by
  rw [scopesAt, messages, insertMessage, lookup_assocInsert]
  split <;> rfl

theorem scopesAt_erase (messages : after.messages = assocErase (tenant, cid) state.messages)
    (other : Did) (key : Cid) :
    scopesAt after other key =
      if (other, key) = (tenant, cid) then [] else scopesAt state other key := by
  rw [scopesAt, messages, lookup_assocErase]
  split <;> rfl

theorem Coherent.scopesAt_unpositioned (coherent : Coherent state handed)
    (unpositioned : state.positionsByCid.lookup (tenant, cid) = none) :
    scopesAt state tenant cid = [] := by
  refine eq_nil_iff_forall_not_mem.mpr fun scope placed => ?_
  obtain ⟨row, found, isFeed, -⟩ := mem_scopesAt.mp placed
  have positioned := coherent.feed tenant cid row found isFeed
  rw [unpositioned] at positioned
  cases positioned

theorem Aligned.isFeed_eq (law : p.CollisionFree) (aligned : Aligned p state)
    (found : state.messages.lookup (tenant, p.messageCid mutation.message) = some row) :
    isFeedMessage row.message = isFeedMessage mutation.message := by
  rw [isFeedMessage, descriptor_of_messageCid law (aligned.addressed _ _ _ found).2, isFeedMessage]

theorem Aligned.scopesAt_stored (law : p.CollisionFree) (aligned : Aligned p state)
    (notFeed : isFeedMessage mutation.message = false) :
    scopesAt state tenant (p.messageCid mutation.message) = [] := by
  refine eq_nil_iff_forall_not_mem.mpr fun scope placed => ?_
  obtain ⟨row, found, isFeed, -⟩ := mem_scopesAt.mp placed
  rw [aligned.isFeed_eq law found, notFeed] at isFeed
  cases isFeed

theorem Aligned.initial (epoch : String) : Aligned p { epoch } where
  addressed _ _ _ found := by simp at found
  aligned _ _ _ _ found := by simp at found

theorem Aligned.insert (aligned : Aligned p state)
    (messages : after.messages = (insertMessage p state tenant mutation).messages) {other : Did}
    (found : after.messages.lookup (other, cid) = some row) :
    row.cid = cid ∧ p.messageCid row.message = cid := by
  rw [messages, insertMessage, lookup_assocInsert] at found
  split at found
  · rename_i same
    cases same
    cases found
    exact ⟨rfl, rfl⟩
  · exact aligned.addressed other cid row found

theorem Aligned.other (aligned : Aligned p state) {other : Did} {position : Nat}
    {entry : MemoryFeedEntry} (messages : after.messages.lookup (other, cid) =
      state.messages.lookup (other, cid))
    (positioned : state.positionsByCid.lookup (other, cid) = some position)
    (isEntry : state.entries.lookup (other, position) = some entry) :
    ∃ row, after.messages.lookup (other, cid) = some row ∧ isFeedMessage row.message = true ∧
      row.indexes = entry.indexes ∧
      (∀ scope, scope ∈ entry.fingerprintScopes ↔ scope ∈ scopesAt after other cid) ∧
      entry.fingerprintScopes.Nodup := by
  rw [scopesAt, messages]
  exact aligned.aligned other cid position entry positioned isEntry

theorem rowScopes_of_feed (isFeed : isFeedMessage row.message = true) :
    rowScopes row = fingerprintScopes (writeTagProtocol row.message) row.indexes := by
  rw [rowScopes, isFeed]
  rfl

theorem Aligned.put (law : p.CollisionFree) (aligned : Aligned p state)
    (coherent : Coherent state handed)
    (put : putMessageState p contribution state tenant mutation = .ok (after, wake)) :
    Aligned p after := by
  have scopes := scopesAt_insert (puts_of_ok put).messages
  cases puts_of_ok put with
  | stored notFeed =>
    refine ⟨fun _ _ _ found => aligned.insert rfl found,
      fun other cid position entry positioned isEntry => ?_⟩
    have untouched : (other, cid) ≠ (tenant, p.messageCid mutation.message) := by
      intro same
      cases same
      obtain ⟨row, found, isFeed, -⟩ := aligned.aligned _ _ _ _ positioned isEntry
      rw [aligned.isFeed_eq law found, notFeed] at isFeed
      cases isFeed
    refine aligned.other ?_ positioned isEntry
    rw [insertMessage, lookup_assocInsert, if_neg untouched]
  | replaced isFeed position entry positioned isEntry unchanged =>
    refine ⟨fun _ _ _ found => aligned.insert rfl found,
      fun other cid position' entry' positioned' isEntry' => ?_⟩
    change List.lookup _ (assocInsert _ _ _) = _ at isEntry'
    rw [lookup_assocInsert] at isEntry'
    split at isEntry'
    · rename_i same
      cases same
      cases isEntry'
      -- The message at the position is the one that is put.
      have sameCid : cid = p.messageCid mutation.message := by
        obtain ⟨old, isOld, ofCid⟩ := coherent.position _ _ _ positioned'
        obtain ⟨old', isOld', ofCid'⟩ := coherent.position _ _ _ positioned
        cases isOld.symm.trans isOld'
        rw [← ofCid, ofCid']
      subst sameCid
      obtain ⟨-, -, -, -, -, distinct⟩ := aligned.aligned _ _ _ _ positioned isEntry
      refine ⟨_, by rw [insertMessage, lookup_assocInsert, if_pos rfl], isFeed, rfl, ?_, distinct⟩
      intro scope
      rw [scopes, if_pos rfl, rowScopes_of_feed isFeed]
      exact scopesUnchanged_iff.mp unchanged scope
    · rename_i elsewhere
      refine aligned.other ?_ positioned' isEntry'
      rw [insertMessage, lookup_assocInsert, if_neg]
      intro same
      cases same
      cases positioned.symm.trans positioned'
      exact elsewhere rfl
  | appended isFeed unpositioned bounded =>
    refine ⟨fun _ _ _ found => aligned.insert rfl found,
      fun other cid position' entry' positioned' isEntry' => ?_⟩
    change List.lookup _ (assocInsert _ _ _) = _ at isEntry' positioned'
    rw [lookup_assocInsert] at isEntry' positioned'
    split at positioned'
    · rename_i same
      cases same
      cases positioned'
      rw [if_pos rfl] at isEntry'
      cases isEntry'
      refine ⟨_, by rw [insertMessage, lookup_assocInsert, if_pos rfl], isFeed, rfl, ?_,
        fingerprintScopes_nodup _ _⟩
      intro scope
      rw [scopes, if_pos rfl, rowScopes_of_feed isFeed]
    · rename_i different
      have notNew : (other, position') ≠ (tenant, state.head tenant + 1) := by
        intro same
        cases same
        obtain ⟨old, isOld, -⟩ := coherent.position _ _ _ positioned'
        have within := coherent.position_le isOld
        omega
      rw [if_neg notNew] at isEntry'
      refine aligned.other ?_ positioned' isEntry'
      rw [insertMessage, lookup_assocInsert, if_neg different]

theorem Tallied.put (law : p.CollisionFree) (tallied : Tallied contribution state)
    (aligned : Aligned p state) (coherent : Coherent state handed)
    (put : putMessageState p contribution state tenant mutation = .ok (after, wake)) :
    Tallied contribution after := by
  have scopes := scopesAt_insert (puts_of_ok put).messages
  cases puts_of_ok put with
  | stored notFeed =>
    refine tallied.same rfl fun other key scope => ?_
    rw [scopes]
    split
    · rename_i same
      cases same
      rw [aligned.scopesAt_stored law notFeed, rowScopes, notFeed]
      rfl
    · rfl
  | replaced isFeed position entry positioned isEntry unchanged =>
    refine tallied.same rfl fun other key scope => ?_
    rw [scopes]
    split
    · rename_i same
      cases same
      obtain ⟨-, -, -, -, same, -⟩ := aligned.aligned _ _ _ _ positioned isEntry
      rw [← same, rowScopes_of_feed isFeed]
      exact (scopesUnchanged_iff.mp unchanged scope).symm
    · rfl
  | appended isFeed unpositioned bounded =>
    refine tallied.toggled (fingerprintScopes_nodup _ _) rfl (fun other key different => ?_)
      fun scope => ?_
    · rw [scopes, if_neg different]
    · rw [scopes, if_pos rfl, rowScopes_of_feed isFeed,
        coherent.scopesAt_unpositioned unpositioned]
      simp

theorem Aligned.delete (aligned : Aligned p state)
    (deleted : deleteMessageState contribution state tenant cid = .ok after) : Aligned p after := by
  have removed := deleteMessageState_ok deleted
  refine ⟨fun other key row found => ?_, fun other key position entry positioned isEntry => ?_⟩
  · rw [removed.messages, lookup_assocErase] at found
    split at found
    · cases found
    · exact aligned.addressed other key row found
  · rw [removed.positions] at positioned
    split at positioned
    · cases positioned
    · rename_i different
      refine aligned.other ?_ positioned ((removed.entries _ _).mp isEntry).1
      rw [removed.messages, lookup_assocErase, if_neg different]

theorem Tallied.delete (tallied : Tallied contribution state) (aligned : Aligned p state)
    (coherent : Coherent state handed)
    (deleted : deleteMessageState contribution state tenant cid = .ok after) :
    Tallied contribution after := by
  have erased := scopesAt_erase (deleteMessageState_ok deleted).messages
  cases deletes_of_ok deleted with
  | removed position entry positioned isEntry ofCid =>
    obtain ⟨-, -, -, -, scopes, distinct⟩ := aligned.aligned _ _ _ _ positioned isEntry
    subst ofCid
    refine tallied.toggled distinct rfl (fun other key different => ?_) fun scope => ?_
    · rw [erased, if_neg different]
    · rw [erased, if_pos rfl, scopes]
      simp
  | unpositioned missing =>
    refine tallied.same rfl fun other key scope => ?_
    rw [erased]
    split
    · rename_i same
      cases same
      rw [coherent.scopesAt_unpositioned missing]
    · rfl

structure Consistent (p : Primitives) (contribution : Cid → Fingerprint)
    (state : MemoryMessageState) : Prop where
  coherent : ∃ handed, Coherent state handed
  aligned : Aligned p state
  tallied : Tallied contribution state

theorem Consistent.initial (epoch : String) : Consistent p contribution { epoch } where
  coherent := ⟨[], Coherent.initial epoch⟩
  aligned := Aligned.initial epoch
  tallied _ _ := rfl

theorem Consistent.step (law : p.CollisionFree) (event : FeedEvent)
    (consistent : Consistent p contribution state) :
    Consistent p contribution (feedStep p contribution state event) := by
  refine feedStep_invariant Consistent.initial ?_ ?_ event consistent
  · intro tenant state after mutation wake holds put
    obtain ⟨handed, coherent⟩ := holds.coherent
    exact ⟨⟨_, coherent.put put⟩, holds.aligned.put law coherent put,
      holds.tallied.put law holds.aligned coherent put⟩
  · intro tenant state after cid holds deleted
    obtain ⟨handed, coherent⟩ := holds.coherent
    exact ⟨⟨_, coherent.removed (deleteMessageState_ok deleted)⟩,
      holds.aligned.delete deleted, holds.tallied.delete holds.aligned coherent deleted⟩

theorem consistent_of_reaches (law : p.CollisionFree) {epoch : String}
    (reached : Reaches (feedStep p contribution) (fun _ _ => True) { epoch } state) :
    Consistent p contribution state :=
  reached.invariant (Consistent.initial epoch) fun _ event consistent _ => consistent.step law event

theorem fingerprint_eq (state : MemoryMessageState) (tenant : Did) (scopes : List String) :
    state.fingerprint tenant scopes = xorOver scopes.toFinset (stored state tenant) := by
  have distinct : (normalizeScopes scopes).Nodup := nodup_dedup _
  have same : (normalizeScopes scopes).toFinset = scopes.toFinset := by
    ext scope
    simp [normalizeScopes, mem_insertionSort]
  rw [MemoryMessageState.fingerprint, xorOver, ← same]
  exact foldl_eq_fold_toFinset distinct

end

/-- In every run, the fingerprint of a scope is the exclusive or of the contributions of the
retained feed messages in it, and a read of several scopes is the exclusive or of their
fingerprints. -/
theorem fingerprints_of_run {p : Primitives} (law : p.CollisionFree)
    {contribution : Cid → Fingerprint} {epoch : String} {state : MemoryMessageState}
    (reached : Reaches (feedStep p contribution) (fun _ _ => True) { epoch } state)
    (tenant : Did) (scope : String) :
    (state.fingerprints.lookup (tenant, scope)).getD 0 =
      xorOver (retainedIn state tenant scope) contribution ∧
    (∀ cid, cid ∈ retainedIn state tenant scope ↔
      ∃ row, state.messages.lookup (tenant, cid) = some row ∧ isFeedMessage row.message = true ∧
        scope ∈ fingerprintScopes (writeTagProtocol row.message) row.indexes) ∧
    ∀ scopes, state.fingerprint tenant scopes = xorOver scopes.toFinset fun scope =>
      xorOver (retainedIn state tenant scope) contribution := by
  have consistent := consistent_of_reaches law reached
  refine ⟨consistent.tallied tenant scope, fun cid => mem_retainedIn.trans mem_scopesAt,
    fun scopes => ?_⟩
  rw [fingerprint_eq]
  congr 1
  funext scope
  exact consistent.tallied tenant scope

def threadIndexes : Indexes := [(.protocol, .string uri)]

def scopedEvents : List FeedEvent :=
  [.put "did:ex:alice" ⟨one, threadIndexes⟩,
    .put "did:ex:alice" ⟨two, threadIndexes⟩,
    .put "did:ex:alice" ⟨one, (.published, .bool true) :: threadIndexes⟩,
    .delete "did:ex:alice" "m1"]

def threadContribution (cid : Cid) : Fingerprint := if cid = "m1" then 9 else 5

noncomputable def scopedFeed : MemoryMessageState :=
  scopedEvents.foldl (feedStep p threadContribution) { epoch := "1" }

theorem fingerprint_of_first_thread :
    Run.Threads.p.CollisionFree ∧
    Reaches (feedStep Run.Threads.p threadContribution) (fun _ _ => True) { epoch := "1" }
      scopedFeed ∧
    scopedFeed.fingerprints.lookup ("did:ex:alice", "protocol:https://threads") = some 5 ∧
    (scopedFeed.fingerprints.lookup ("did:ex:alice", "protocol:https://threads")).getD 0 =
      xorOver (retainedIn scopedFeed "did:ex:alice" "protocol:https://threads")
        threadContribution := by
  refine ⟨collisionFree, ?reached, rfl,
    (fingerprints_of_run collisionFree ?reached _ _).1⟩
  exact AllowedAlong.reaches ⟨trivial, trivial, trivial, trivial, trivial⟩

end Enbox.Proof.Store
