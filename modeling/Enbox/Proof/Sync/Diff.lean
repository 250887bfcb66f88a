import Enbox.Proof.Concrete
import Enbox.Proof.Sync.Collect

/-! # Completeness of diffs -/

namespace Enbox.Proof.Sync

open Lib List SyncEndpoint

variable {Hash : Type} {hasher : StateHasher Hash} {depth : Nat}
  {hashes clientHashes serverHashes : SyncHashes Hash} {bits : List Bool} {p : Primitives}
  {index : StateIndex} {stores : Stores} {tenant : Did} {protocol : Option String}
  {auth : AuthorizationContext} {signature : Except Status AuthorizationContext} {text : String}
  {cid : Cid} {client server : TextSet} {leaves : String → Except String (List Cid)}
  {cids : List Cid} {onlyLocal : List String}

section

variable {cids : TextSet}

structure Describes (hasher : StateHasher Hash) (cids : TextSet) (depth : Nat)
    (hashes : SyncHashes Hash) : Prop where
  prefixes : ∀ entry ∈ hashes, ∃ bits, bits.length = depth ∧ entry.1 = bitText bits
  lookup : ∀ bits, bits.length = depth →
    hashes.lookup (bitText bits) = some (hasher.subtreeHash cids bits) ∨
      hashes.lookup (bitText bits) = none ∧ below hasher cids bits = []

theorem Describes.lookup_of_mem (describes : Describes hasher cids depth hashes)
    (length : bits.length = depth) (held : cid ∈ below hasher cids bits) :
    hashes.lookup (bitText bits) = some (hasher.subtreeHash cids bits) := by
  refine (describes.lookup bits length).resolve_right fun ⟨_, nothing⟩ => ?_
  simp [nothing] at held

theorem describes_of_entries (kept : List Bool → Prop)
    (entries : ∀ entry, entry ∈ hashes ↔ ∃ bits, bits.length = depth ∧
      entry = (bitText bits, hasher.subtreeHash cids bits) ∧ kept bits)
    (dropped : ∀ bits, bits.length = depth → ¬ kept bits → below hasher cids bits = []) :
    Describes hasher cids depth hashes := by
  refine ⟨fun entry listed => ?_, fun bits length => ?_⟩
  · obtain ⟨bits, length, rfl, -⟩ := (entries entry).mp listed
    exact ⟨bits, length, rfl⟩
  · by_cases isKept : kept bits
    · refine .inl (lookup_of_functional ((entries _).mpr ⟨bits, length, rfl, isKept⟩)
        fun other listed => ?_)
      obtain ⟨bits', -, same, -⟩ := (entries _).mp listed
      rw [Prod.mk.injEq] at same
      rw [same.2, bitText_injective same.1]
    · refine .inr ⟨?_, dropped bits length isKept⟩
      rw [lookup_eq_none_iff]
      intro entry listed
      obtain ⟨bits', -, rfl, kept'⟩ := (entries entry).mp listed
      refine bne_iff_ne.mpr fun same => isKept ?_
      rwa [bitText_injective same]

theorem below_append_eq_nil {more : List Bool} (nothing : below hasher cids bits = []) :
    below hasher cids (bits ++ more) = [] := by
  rw [eq_nil_iff_forall_not_mem] at nothing ⊢
  intro cid held
  have occupied : Occupied hasher cids (bits ++ more) := ⟨cid, mem_below.mp held⟩
  obtain ⟨other, placed⟩ := occupied.shorten
  exact nothing other (mem_below.mpr placed)

/-! ## The three collectors -/

variable [DecidableEq Hash]

theorem endpointVisits_describes (law : hasher.CollisionFree)
    (bounded : depth ≤ maxSyncDepth) :
    Describes hasher cids depth (collectedHashes (endpointVisits hasher cids depth)) :=
  describes_of_entries (fun _ => True)
    (fun entry => by simpa [endpointVisits] using mem_visits_unpruned law bounded List.length)
    (by simp)

def handlerVisits (hasher : StateHasher Hash) (cids : TextSet) (depth : Nat) :
    List (VisitedPrefix Hash) :=
  visits (hasher.subtreeHash cids)
    (fun bits => hasher.defaultHashes MessagesSync.maxSyncDepth bits.length) depth []

theorem handler_collect (bounded : depth ≤ MessagesSync.maxSyncDepth) :
    MessagesSync.collectSubtreeHashes hasher index tenant protocol depth =
      .ok (handlerVisits hasher (scopeCids index tenant protocol) depth) := by
  rw [MessagesSync.collectSubtreeHashes, ensure_true bounded, ok_bind]
  refine walkPrefixes_eq fun bits within => ?_
  have short : bits.length ≤ MessagesSync.maxSyncDepth := within.trans bounded
  rw [MessagesSync.querySubtree, parseBitPrefix_bitText short, ok_bind, MessagesSync.defaultHash,
    ensure_true short, subtreeHash_scope]
  rfl

theorem handlerVisits_describes (law : hasher.CollisionFree) :
    Describes hasher cids depth (collectedHashes (handlerVisits hasher cids depth)) := by
  refine describes_of_entries (fun bits => ∀ n ≤ depth, hasher.subtreeHash cids (bits.take n) ≠
      hasher.defaultHashes MessagesSync.maxSyncDepth (bits.take n).length)
    (fun entry => mem_collectedHashes_visits) fun bits length dropped => ?_
  push Not at dropped
  obtain ⟨n, -, isEmpty⟩ := dropped
  rw [← take_append_drop n bits]
  exact below_append_eq_nil ((subtreeHash_eq_default_iff law).mp isEmpty).1

theorem requestSubtree_bitText (authorized : auth.author = tenant)
    (short : bits.length ≤ MessagesSync.maxSyncDepth) :
    requestSubtree p hasher index stores tenant protocol (.ok auth) (bitText bits) =
      .ok (hasher.subtreeHash (scopeCids index tenant protocol) bits) := by
  simp only [requestSubtree, MessagesSync.handle, MessagesSync.validateSyncDescriptor,
    okOr, ok_bind, parseBitPrefix_bitText short, MessagesSync.authorizeMessagesSync,
    ensure_true authorized, MessagesSync.handleSubtree, Option.getD_some, subtreeHash_scope]
  rfl

theorem requestSubtree_authorized {hash : Hash}
    (answered : requestSubtree p hasher index stores tenant protocol signature text =
      .ok hash) : ∃ auth, signature = .ok auth ∧ auth.author = tenant := by
  rw [requestSubtree] at answered
  cases handled : MessagesSync.handle p hasher index stores tenant signature
      { action := .subtree, protocol, bitPrefix := some text } with
  | error status =>
    rw [handled] at answered
    cases answered
  | ok reply =>
    simp only [MessagesSync.handle, ok_iff, MessagesSync.authorizeMessagesSync] at handled
    obtain ⟨-, -, auth, signed, -, authorized, -⟩ := handled
    exact ⟨auth, signed, authorized⟩

theorem http_collect_describes (law : hasher.CollisionFree) {visited : List (VisitedPrefix Hash)}
    (collected : collectSubtreeHashesViaHttp p hasher index stores tenant protocol
      signature depth = .ok visited) :
    depth ≤ maxSyncDepth ∧
      Describes hasher (scopeCids index tenant protocol) depth (collectedHashes visited) := by
  simp only [collectSubtreeHashesViaHttp, ok_iff] at collected
  obtain ⟨-, bounded, walked⟩ := collected
  have short {bits : List Bool} (within : bits.length ≤ depth) :
      bits.length ≤ MessagesSync.maxSyncDepth := by
    simp only [maxSyncDepth, MessagesSync.maxSyncDepth] at *
    omega
  -- The root is always asked for, so that a walk that succeeds is one of the tenant.
  obtain ⟨auth, rfl, authorized⟩ : ∃ auth, signature = .ok auth ∧ auth.author = tenant := by
    obtain ⟨fuel, positive⟩ := Nat.exists_eq_succ_of_ne_zero (Nat.two_pow_pos (depth + 1)).ne'
    rw [walkPrefixes, positive] at walked
    simp only [drain, visitPrefix, bind_eq_ok] at walked
    obtain ⟨_, ⟨_, ⟨hash, answered, -⟩, -⟩, -⟩ := walked
    exact requestSubtree_authorized answered
  have answers (bits : List Bool) (within : bits.length ≤ depth) : (do
      let hash ← requestSubtree p hasher index stores tenant protocol (.ok auth)
        (bitText bits)
      return (hash, hasher.defaultHashes maxSyncDepth depth)) =
      .ok (hasher.subtreeHash (scopeCids index tenant protocol) bits,
        hasher.defaultHashes maxSyncDepth depth) := by
    rw [requestSubtree_bitText authorized (short within)]
    rfl
  rw [walkPrefixes_eq answers] at walked
  cases walked
  exact ⟨bounded, describes_of_entries (fun _ => True)
    (fun entry => by simpa using mem_visits_unpruned law bounded fun _ => depth) (by simp)⟩

end

inductive Collects {Hash : Type} [DecidableEq Hash] (p : Primitives) (hasher : StateHasher Hash)
    (index : StateIndex) (stores : Stores) (tenant : Did) (protocol : Option String) (depth : Nat) :
    SyncHashes Hash → Prop
  | direct {visited} (collected : collectSubtreeHashes hasher index tenant protocol
      depth = .ok visited) : Collects p hasher index stores tenant protocol depth
        (collectedHashes visited)
  | http {signature visited} (collected : collectSubtreeHashesViaHttp p hasher index
      stores tenant protocol signature depth = .ok visited) :
      Collects p hasher index stores tenant protocol depth (collectedHashes visited)
  | handler {visited} (collected : MessagesSync.collectSubtreeHashes hasher index tenant protocol
      depth = .ok visited) : Collects p hasher index stores tenant protocol depth
        (collectedHashes visited)

theorem Collects.describes [DecidableEq Hash] (law : hasher.CollisionFree)
    (collects : Collects p hasher index stores tenant protocol depth hashes) :
    Describes hasher (scopeCids index tenant protocol) depth hashes := by
  cases collects with
  | direct collected =>
    have bounded : depth ≤ maxSyncDepth := by
      simp only [collectSubtreeHashes, ok_iff] at collected
      exact collected.choose_spec.1
    rw [endpoint_collect bounded] at collected
    cases collected
    exact endpointVisits_describes law bounded
  | http collected => exact (http_collect_describes law collected).2
  | handler collected =>
    have bounded : depth ≤ MessagesSync.maxSyncDepth := by
      simp only [MessagesSync.collectSubtreeHashes, ok_iff] at collected
      exact collected.choose_spec.1
    rw [handler_collect bounded] at collected
    cases collected
    exact handlerVisits_describes law

section

variable {ours theirs : TextSet}

theorem below_ne_of_mem (held : cid ∈ ours.texts) (absent : cid ∉ theirs.texts) :
    below hasher ours (keyPrefix hasher cid depth) ≠
      below hasher theirs (keyPrefix hasher cid depth) := by
  intro same
  have here : cid ∈ below hasher ours (keyPrefix hasher cid depth) :=
    mem_below.mpr ⟨held, by rw [length_keyPrefix]⟩
  exact absent (mem_below.mp (same ▸ here)).1

theorem exists_difference_of_below_ne (differ : below hasher ours bits ≠ below hasher theirs bits) :
    ∃ other, (other ∈ ours.texts ↔ other ∉ theirs.texts) ∧
      keyPrefix hasher other bits.length = bits := by
  by_contra none
  refine differ (pairwise_below.eq_of_mem_iff pairwise_below fun other => ?_)
  rw [mem_below, mem_below]
  refine and_congr_left fun placed => ?_
  by_contra different
  exact none ⟨other, by tauto, placed⟩

end

section

variable [DecidableEq Hash]

def differingCids (leaves : String → Except String (List Cid)) (client server : SyncHashes Hash)
    (texts : List String) : List Cid :=
  (texts.filter fun text => client.lookup text ≠ server.lookup text ∧
    (server.lookup text).isSome).flatMap fun text => (leaves text).toOption.getD []

def differingPrefixes (client server : SyncHashes Hash) (texts : List String) : List String :=
  texts.filter fun text => client.lookup text ≠ server.lookup text ∧ (client.lookup text).isSome

theorem comparePrefixes_eq {texts : List String}
    (reads : ∀ text ∈ texts, ∃ found, leaves text = .ok found) :
    comparePrefixes leaves clientHashes serverHashes texts =
      .ok (differingCids leaves clientHashes serverHashes texts,
        differingPrefixes clientHashes serverHashes texts) := by
  unfold differingCids differingPrefixes
  induction texts with
  | nil => rfl
  | cons text rest ih =>
    have later := ih fun other listed => reads other (by simp [listed])
    rw [comparePrefixes]
    by_cases same : clientHashes.lookup text = serverHashes.lookup text
    · simp [same, later]
    · cases isServer : serverHashes.lookup text with
      | none =>
        obtain ⟨hash, isClient⟩ : ∃ hash, clientHashes.lookup text = some hash :=
          Option.ne_none_iff_exists'.mp (isServer ▸ same)
        simp [isServer, isClient, later]
      | some hash =>
        obtain ⟨found, read⟩ := reads text (by simp)
        rw [isServer] at same
        cases isClient : clientHashes.lookup text with
        | none => simp [isServer, isClient, later, read, Except.toOption]
        | some other =>
          rw [isClient] at same
          simp [isServer, isClient, same, later, read, Except.toOption]

end

structure Compared {Hash : Type} (hasher : StateHasher Hash) (client server : TextSet) (depth : Nat)
    (clientHashes serverHashes : SyncHashes Hash) : Prop where
  law : hasher.CollisionFree
  bounded : depth ≤ smtDepth
  distinct : Set.InjOn hasher.hashKey {cid | cid ∈ client.texts ∨ cid ∈ server.texts}
  client : Describes hasher client depth clientHashes
  server : Describes hasher server depth serverHashes

namespace Compared

section

variable (compared : Compared hasher client server depth clientHashes serverHashes)
  (length : bits.length = depth)

include compared length

theorem lookup_ne (differ : below hasher client bits ≠ below hasher server bits) :
    clientHashes.lookup (bitText bits) ≠ serverHashes.lookup (bitText bits) := by
  rcases compared.client.lookup bits length with isClient | ⟨isClient, noClient⟩
  · rcases compared.server.lookup bits length with isServer | ⟨isServer, -⟩
    · rw [isClient, isServer]
      intro same
      exact differ ((below_eq_iff compared.law (length ▸ compared.bounded) compared.distinct).mp
        (Option.some.inj same))
    · simp [isClient, isServer]
  · rcases compared.server.lookup bits length with isServer | ⟨isServer, noServer⟩
    · simp [isClient, isServer]
    · exact absurd (noClient.trans noServer.symm) differ

theorem below_ne (held : cid ∈ below hasher server bits)
    (differ : clientHashes.lookup (bitText bits) ≠ serverHashes.lookup (bitText bits)) :
    below hasher client bits ≠ below hasher server bits := by
  intro same
  rw [compared.client.lookup_of_mem length (same ▸ held),
    compared.server.lookup_of_mem length held] at differ
  exact differ (congrArg (fun cids => some (hasher.nodeHash cids bits.length)) same)

end

variable [DecidableEq Hash]

section

variable (compared : Compared hasher client server depth clientHashes serverHashes)

include compared

theorem exists_bits {default : Hash}
    (listed : text ∈ (allPrefixes default clientHashes serverHashes).texts) :
    ∃ bits, bits.length = depth ∧ text = bitText bits := by
  rw [allPrefixes, TextSet.mem_ofList, mem_append, mem_map, mem_map] at listed
  rcases listed with ⟨entry, kept, rfl⟩ | ⟨entry, kept, rfl⟩
  · exact compared.client.prefixes entry (mem_of_mem_filter kept)
  · exact compared.server.prefixes entry kept

theorem mem_allPrefixes (length : bits.length = depth)
    (differ : below hasher client bits ≠ below hasher server bits) (maxDepth level : Nat) :
    bitText bits ∈ (allPrefixes (hasher.defaultHashes maxDepth level) clientHashes
      serverHashes).texts := by
  rw [allPrefixes, TextSet.mem_ofList, mem_append, mem_map, mem_map]
  rcases compared.server.lookup bits length with isServer | ⟨-, noServer⟩
  · exact .inr ⟨_, mem_of_lookup isServer, rfl⟩
  · rcases compared.client.lookup bits length with isClient | ⟨-, noClient⟩
    · refine .inl ⟨_, mem_filter.mpr ⟨mem_of_lookup isClient, ?_⟩, rfl⟩
      rw [decide_eq_true_iff]
      intro isEmpty
      exact differ (((subtreeHash_eq_default_iff compared.law).mp isEmpty).1.trans noServer.symm)
    · exact absurd (noClient.trans noServer.symm) differ

end

end Compared

/-! ## The two servers -/

structure Completes {Hash : Type} (hasher : StateHasher Hash) (client server : TextSet) (depth : Nat)
    (held : Cid → Prop) (diff : MessagesSyncDiff) : Prop where
  remote : ∀ cid ∈ server.texts, cid ∉ client.texts → held cid →
    ∃ entry ∈ diff.onlyRemote, entry.messageCid = cid
  ofClient : ∀ cid ∈ client.texts, cid ∉ server.texts →
    ∃ bits, bitText bits ∈ diff.onlyLocal ∧ keyPrefix hasher cid bits.length = bits
  shared : ∀ entry ∈ diff.onlyRemote, entry.messageCid ∈ server.texts ∧
    ∃ other, (other ∈ client.texts ↔ other ∉ server.texts) ∧
      keyPrefix hasher other depth = keyPrefix hasher entry.messageCid depth

section

def storedEntries (p : Primitives) (maxSize : Nat) (stores : Stores) (tenant : Did)
    (cids : List Cid) : List SyncEntry :=
  cids.filterMap fun cid =>
    (stores.messages.get tenant cid).map (diffEntry p maxSize stores.data tenant cid)

theorem mem_storedEntries {maxSize : Nat} :
    (∃ entry ∈ storedEntries p maxSize stores tenant cids, entry.messageCid = cid) ↔
      cid ∈ cids ∧ (stores.messages.get tenant cid).isSome = true := by
  simp only [storedEntries, mem_filterMap, Option.map_eq_some_iff, Option.isSome_iff_exists]
  constructor
  · rintro ⟨entry, ⟨cid, listed, stored, found, rfl⟩, rfl⟩
    exact ⟨listed, stored, found⟩
  · rintro ⟨listed, stored, found⟩
    exact ⟨_, ⟨cid, listed, stored, found, rfl⟩, rfl⟩

theorem mapM_buildDiffEntry {entries : List SyncEntry} :
    cids.mapM (buildDiffEntry p stores tenant) = .ok entries ↔
      entries = storedEntries p SyncEndpoint.maxInlineDataSize stores tenant cids ∧
        ∀ cid ∈ cids, (stores.messages.get tenant cid).isSome = true := by
  induction cids generalizing entries with
  | nil =>
    rw [mapM_nil, pure_eq_ok]
    exact ⟨fun none => ⟨none.symm, nofun⟩, fun none => none.1.symm⟩
  | cons cid cids ih =>
    simp only [mapM_cons, ok_iff, ih, buildDiffEntry, forall_mem_cons,
      Option.isSome_iff_exists]
    constructor
    · rintro ⟨_, ⟨stored, found, rfl⟩, _, ⟨rfl, others⟩, rfl⟩
      exact ⟨by simp [storedEntries, found], ⟨stored, found⟩, others⟩
    · rintro ⟨rfl, ⟨stored, found⟩, others⟩
      exact ⟨_, ⟨stored, found, rfl⟩, _, ⟨rfl, others⟩, by simp [storedEntries, found]⟩

structure Compares (hasher : StateHasher Hash) (client server : TextSet) (depth : Nat)
    (cids : List Cid) (onlyLocal : List String) : Prop where
  nodup : cids.Nodup
  listed : ∀ cid, cid ∈ cids ↔ cid ∈ server.texts ∧
    below hasher client (keyPrefix hasher cid depth) ≠
      below hasher server (keyPrefix hasher cid depth)
  ofClient : ∀ cid ∈ client.texts, cid ∉ server.texts →
    bitText (keyPrefix hasher cid depth) ∈ onlyLocal

theorem Compares.completes (compares : Compares hasher client server depth cids onlyLocal)
    (maxSize : Nat) :
    Completes hasher client server depth
      (fun cid => (stores.messages.get tenant cid).isSome = true)
      { onlyRemote := storedEntries p maxSize stores tenant cids, onlyLocal } where
  remote cid held absent stored :=
    mem_storedEntries.mpr
      ⟨(compares.listed cid).mpr ⟨held, (below_ne_of_mem held absent).symm⟩, stored⟩
  ofClient cid held absent :=
    ⟨keyPrefix hasher cid depth, compares.ofClient cid held absent, by rw [length_keyPrefix]⟩
  shared entry listed := by
    have isListed := (mem_storedEntries.mp ⟨entry, listed, rfl⟩).1
    obtain ⟨held, differ⟩ := (compares.listed entry.messageCid).mp isListed
    obtain ⟨other, different, placed⟩ := exists_difference_of_below_ne differ
    exact ⟨held, other, different, by rwa [length_keyPrefix] at placed⟩

variable [DecidableEq Hash]

def ReadsLeaves (hasher : StateHasher Hash) (server : TextSet) (depth : Nat)
    (leaves : String → Except String (List Cid)) : Prop :=
  ∀ bits, bits.length = depth → ∃ found, leaves (bitText bits) = .ok found ∧
    found.Perm (below hasher server bits)

variable (maxDepth level : Nat)

section

variable (compared : Compared hasher client server depth clientHashes serverHashes)

include compared

theorem Compared.nodup_differingCids (reads : ReadsLeaves hasher server depth leaves) :
    (differingCids leaves clientHashes serverHashes (allPrefixes
      (hasher.defaultHashes maxDepth level) clientHashes serverHashes).texts).Nodup := by
  refine nodup_flatMap.mpr ⟨fun text listed => ?_, ?_⟩
  · obtain ⟨bits, length, rfl⟩ := compared.exists_bits (mem_of_mem_filter listed)
    obtain ⟨found, isFound, perm⟩ := reads bits length
    rw [isFound]
    exact perm.nodup_iff.mpr (pairwise_below.imp ne_of_lt)
  · refine ((TextSet.nodup _).filter _).imp_of_mem fun {text other} listed listed' different => ?_
    obtain ⟨bits, length, rfl⟩ := compared.exists_bits (mem_of_mem_filter listed)
    obtain ⟨bits', length', rfl⟩ := compared.exists_bits (mem_of_mem_filter listed')
    obtain ⟨found, isFound, perm⟩ := reads bits length
    obtain ⟨found', isFound', perm'⟩ := reads bits' length'
    intro cid here there
    simp only [isFound] at here
    simp only [isFound'] at there
    have placed := (mem_below.mp (perm.mem_iff.mp here)).2
    have placed' := (mem_below.mp (perm'.mem_iff.mp there)).2
    rw [length] at placed
    rw [length'] at placed'
    exact different (congrArg bitText (placed.symm.trans placed'))

theorem Compared.mem_differingCids (reads : ReadsLeaves hasher server depth leaves) :
    cid ∈ differingCids leaves clientHashes serverHashes (allPrefixes
        (hasher.defaultHashes maxDepth level) clientHashes serverHashes).texts ↔
      cid ∈ server.texts ∧ below hasher client (keyPrefix hasher cid depth) ≠
        below hasher server (keyPrefix hasher cid depth) := by
  have placed : (keyPrefix hasher cid depth).length = depth := length_keyPrefix cid depth
  simp only [differingCids, mem_flatMap, mem_filter, decide_eq_true_eq]
  constructor
  · rintro ⟨text, ⟨listed, differ, -⟩, found⟩
    obtain ⟨bits, length, rfl⟩ := compared.exists_bits listed
    obtain ⟨leaf, isLeaf, perm⟩ := reads bits length
    rw [isLeaf] at found
    have held : cid ∈ below hasher server bits := perm.mem_iff.mp found
    obtain ⟨inServer, key⟩ := mem_below.mp held
    rw [length] at key
    exact ⟨inServer, key ▸ compared.below_ne length held differ⟩
  · rintro ⟨inServer, differ⟩
    have held : cid ∈ below hasher server (keyPrefix hasher cid depth) :=
      mem_below.mpr ⟨inServer, by rw [placed]⟩
    obtain ⟨leaf, isLeaf, perm⟩ := reads _ placed
    refine ⟨bitText (keyPrefix hasher cid depth),
      ⟨compared.mem_allPrefixes placed differ maxDepth level, compared.lookup_ne placed differ, ?_⟩, ?_⟩
    · simp [compared.server.lookup_of_mem placed held]
    · rw [isLeaf]
      exact perm.mem_iff.mpr held

theorem Compared.mem_differingPrefixes (held : cid ∈ client.texts) (absent : cid ∉ server.texts) :
    bitText (keyPrefix hasher cid depth) ∈ differingPrefixes clientHashes serverHashes
      (allPrefixes (hasher.defaultHashes maxDepth level) clientHashes serverHashes).texts := by
  have placed : (keyPrefix hasher cid depth).length = depth := length_keyPrefix cid depth
  have differ : below hasher client (keyPrefix hasher cid depth) ≠
      below hasher server (keyPrefix hasher cid depth) := below_ne_of_mem held absent
  rw [differingPrefixes, mem_filter, decide_eq_true_eq]
  have here : cid ∈ below hasher client (keyPrefix hasher cid depth) :=
    mem_below.mpr ⟨held, by rw [placed]⟩
  exact ⟨compared.mem_allPrefixes placed differ maxDepth level, compared.lookup_ne placed differ,
    by simp [compared.client.lookup_of_mem placed here]⟩

theorem Compared.compares (reads : ReadsLeaves hasher server depth leaves) :
    ∃ cids onlyLocal, comparePrefixes leaves clientHashes serverHashes
        (allPrefixes (hasher.defaultHashes maxDepth level) clientHashes serverHashes).texts =
          .ok (cids, onlyLocal) ∧ Compares hasher client server depth cids onlyLocal := by
  refine ⟨_, _, comparePrefixes_eq fun text listed => ?_,
    compared.nodup_differingCids maxDepth level reads,
    fun cid => compared.mem_differingCids maxDepth level reads,
    fun cid held absent => compared.mem_differingPrefixes maxDepth level held absent⟩
  obtain ⟨bits, length, rfl⟩ := compared.exists_bits listed
  obtain ⟨found, isFound, -⟩ := reads bits length
  exact ⟨found, isFound⟩

end

end

section

theorem leaves_scope_perm :
    (index.leaves hasher tenant protocol bits).Perm
      (below hasher (scopeCids index tenant protocol) bits) := by
  cases protocol <;> exact perm_insertionSort _ _

theorem endpoint_leavesUnder (short : bits.length ≤ maxSyncDepth) :
    leavesUnder hasher index tenant protocol (bitText bits) =
      .ok (index.leaves hasher tenant protocol bits) := by
  rw [leavesUnder, parseBitPrefix_bitText short]
  rfl

theorem handler_leavesUnder (short : bits.length ≤ MessagesSync.maxSyncDepth) :
    MessagesSync.leavesUnder hasher index tenant protocol (bitText bits) =
      .ok (index.leaves hasher tenant protocol bits) := by
  rw [MessagesSync.leavesUnder, parseBitPrefix_bitText short]
  rfl

theorem validateDiff_of_prefixes (bounded : depth ≤ MessagesSync.maxSyncDepth)
    (prefixes : ∀ entry ∈ hashes, ∃ bits, bits.length = depth ∧ entry.1 = bitText bits) :
    MessagesSync.validateDiff depth hashes = .ok () := by
  induction hashes with
  | nil => rfl
  | cons entry rest ih =>
    obtain ⟨text, hash⟩ := entry
    obtain ⟨⟨bits, length, isText⟩, others⟩ := forall_mem_cons.mp prefixes
    subst isText
    rw [MessagesSync.validateDiff, parseBitPrefix_bitText (length ▸ bounded), ok_bind,
      ensure_true (by rw [utf8ByteSize_bitText, length]), ok_bind, ih others]

variable [DecidableEq Hash]

theorem computeDiff_of_compared (cids : List Cid) (onlyLocal : List String)
    (bounded : depth ≤ maxSyncDepth)
    (compared : comparePrefixes (leavesUnder hasher index tenant protocol) hashes
      (collectedHashes (endpointVisits hasher (scopeCids index tenant protocol) depth))
      (allPrefixes (hasher.defaultHashes maxSyncDepth depth) hashes
        (collectedHashes (endpointVisits hasher (scopeCids index tenant protocol) depth))).texts =
          .ok (cids, onlyLocal)) :
    computeDiff p hasher index stores tenant protocol depth hashes = do
      let onlyRemote ← cids.mapM (buildDiffEntry p stores tenant)
      return { onlyRemote, onlyLocal } := by
  rw [computeDiff, emptySubtreeHash, ensure_true bounded,
    endpoint_collect bounded]
  simp only [ok_bind, pure_bind, compared]

theorem endpoint_compares (p : Primitives) (stores : Stores) (law : hasher.CollisionFree)
    (distinct : Set.InjOn hasher.hashKey
      {cid | cid ∈ client.texts ∨ cid ∈ (scopeCids index tenant protocol).texts})
    (described : Describes hasher client depth hashes)
    (bounded : depth ≤ maxSyncDepth) :
    ∃ cids onlyLocal,
      Compares hasher client (scopeCids index tenant protocol) depth cids onlyLocal ∧
      ∀ diff, computeDiff p hasher index stores tenant protocol depth hashes =
        .ok diff ↔
          diff = { onlyRemote := storedEntries p SyncEndpoint.maxInlineDataSize stores tenant cids,
                   onlyLocal } ∧
          ∀ cid ∈ cids, (stores.messages.get tenant cid).isSome = true := by
  have compared : Compared hasher client (scopeCids index tenant protocol) depth hashes
      (collectedHashes (endpointVisits hasher (scopeCids index tenant protocol) depth)) :=
    ⟨law, by simp only [maxSyncDepth, smtDepth] at *; omega, distinct, described,
      endpointVisits_describes law bounded⟩
  obtain ⟨cids, onlyLocal, found, compares⟩ := compared.compares maxSyncDepth depth
    fun bits length => ⟨_, endpoint_leavesUnder (length ▸ bounded), leaves_scope_perm⟩
  refine ⟨cids, onlyLocal, compares, fun diff => ?_⟩
  simp only [computeDiff_of_compared _ _ bounded found, ok_iff, mapM_buildDiffEntry]
  constructor
  · rintro ⟨_, ⟨rfl, stored⟩, rfl⟩
    exact ⟨rfl, stored⟩
  · rintro ⟨rfl, stored⟩
    exact ⟨_, ⟨rfl, stored⟩, rfl⟩

theorem handler_completes (law : hasher.CollisionFree) (distinct : Set.InjOn hasher.hashKey
      {cid | cid ∈ client.texts ∨ cid ∈ (scopeCids index tenant protocol).texts})
    (described : Describes hasher client depth hashes) (bounded : depth ≤ MessagesSync.maxSyncDepth)
    (authorized : auth.author = tenant) :
    ∃ diff, MessagesSync.handle p hasher index stores tenant (.ok auth)
        { action := .diff, protocol, depth := some depth, hashes := some hashes } =
          .ok (.diff diff) ∧
      Completes hasher client (scopeCids index tenant protocol) depth
        (fun cid => (stores.messages.get tenant cid).isSome = true) diff := by
  have compared : Compared hasher client (scopeCids index tenant protocol) depth hashes
      (collectedHashes (handlerVisits hasher (scopeCids index tenant protocol) depth)) :=
    ⟨law, bounded, distinct, described, handlerVisits_describes law⟩
  obtain ⟨cids, onlyLocal, found, compares⟩ := compared.compares MessagesSync.maxSyncDepth depth
    fun bits length => ⟨_, handler_leavesUnder (length ▸ bounded), leaves_scope_perm⟩
  refine ⟨{ onlyRemote := MessagesSync.buildDiffEntries p stores tenant cids, onlyLocal }, ?_,
    compares.completes MessagesSync.maxInlineDataSize⟩
  have valid : MessagesSync.validateSyncDescriptor
      { action := .diff, protocol, depth := some depth, hashes := some hashes } = .ok () := by
    simp only [MessagesSync.validateSyncDescriptor, okOr, ok_bind, ensure_true bounded,
      validateDiff_of_prefixes bounded described.prefixes]
  have answered : MessagesSync.handleDiff p hasher index stores tenant protocol depth hashes =
      .ok { onlyRemote := MessagesSync.buildDiffEntries p stores tenant cids, onlyLocal } := by
    simp only [MessagesSync.handleDiff, ok_iff, MessagesSync.defaultHash, ensure_true bounded,
      handler_collect bounded]
    exact ⟨_, ⟨(), trivial, rfl⟩, _, rfl, _, found, rfl⟩
  simp only [MessagesSync.handle, ok_iff, valid, MessagesSync.authorizeMessagesSync]
  exact ⟨(), trivial, auth, rfl, (), authorized, _, answered, rfl⟩

/-- Neither server misses a CID. A handler leaves out the CIDs whose messages it has not stored, and
an endpoint then makes no diff at all. -/
theorem diff_complete (law : hasher.CollisionFree) (index : StateIndex) (stores : Stores)
    {clientIndex : StateIndex} {clientStores : Stores}
    (distinct : Set.InjOn hasher.hashKey {cid | cid ∈ (scopeCids clientIndex tenant protocol).texts ∨
      cid ∈ (scopeCids index tenant protocol).texts})
    (collected : Collects p hasher clientIndex clientStores tenant protocol depth hashes) :
    (∀ diff, SyncEndpoint.computeDiff p hasher index stores tenant protocol depth hashes = .ok diff →
      Completes hasher (scopeCids clientIndex tenant protocol) (scopeCids index tenant protocol)
        depth (fun _ => True) diff) ∧
    (depth ≤ SyncEndpoint.maxSyncDepth → (∀ cid ∈ (scopeCids index tenant protocol).texts,
        (stores.messages.get tenant cid).isSome = true) →
      ∃ diff, SyncEndpoint.computeDiff p hasher index stores tenant protocol depth hashes =
        .ok diff) ∧
    (depth ≤ MessagesSync.maxSyncDepth → ∀ auth : AuthorizationContext, auth.author = tenant →
      ∃ diff, MessagesSync.handle p hasher index stores tenant (.ok auth)
          { action := .diff, protocol, depth := some depth, hashes := some hashes } =
            .ok (.diff diff) ∧
        Completes hasher (scopeCids clientIndex tenant protocol) (scopeCids index tenant protocol)
          depth (fun cid => (stores.messages.get tenant cid).isSome = true) diff) := by
  have described := collected.describes law
  refine ⟨fun diff computed => ?_, fun bounded stored => ?_, fun bounded auth authorized =>
    handler_completes law distinct described bounded authorized⟩
  · have bounded : depth ≤ maxSyncDepth := by
      simp only [computeDiff, emptySubtreeHash, ok_iff] at computed
      obtain ⟨-, ⟨-, bounded, -⟩, -⟩ := computed
      exact bounded
    obtain ⟨cids, onlyLocal, compares, made⟩ :=
      endpoint_compares p stores law distinct described bounded
    obtain ⟨rfl, stored⟩ := (made diff).mp computed
    have completes : Completes hasher (scopeCids clientIndex tenant protocol)
        (scopeCids index tenant protocol) depth
        (fun cid => (stores.messages.get tenant cid).isSome = true)
        { onlyRemote := storedEntries p SyncEndpoint.maxInlineDataSize stores tenant cids,
          onlyLocal } := compares.completes SyncEndpoint.maxInlineDataSize
    exact { completes with
      remote := fun cid held absent _ =>
        completes.remote cid held absent (stored cid ((compares.listed cid).mpr
          ⟨held, (below_ne_of_mem held absent).symm⟩)) }
  · obtain ⟨cids, onlyLocal, compares, made⟩ :=
      endpoint_compares p stores law distinct described bounded
    exact ⟨_, (made _).mpr ⟨rfl, fun cid listed => stored cid ((compares.listed cid).mp listed).1⟩⟩

end

def noteStores (cids : List Cid) : Stores where
  messages := cids.map fun cid => ⟨"did:ex:alice", cid, Concrete.noteMessage, []⟩

def noteHashes : SyncHashes Digest :=
  collectedHashes (endpointVisits (digestHasher halves)
    (scopeCids (indexOf ["m1"]) "did:ex:alice" none) 1)

theorem second_note_in_diff :
    (digestHasher halves).CollisionFree ∧
    Set.InjOn (digestHasher halves).hashKey
      {cid | cid ∈ (scopeCids (indexOf ["m1"]) "did:ex:alice" none).texts ∨
        cid ∈ (scopeCids (indexOf ["m1", "m2"]) "did:ex:alice" none).texts} ∧
    (∃ diff, SyncEndpoint.computeDiff (Concrete.noteScript "key").primitives (digestHasher halves)
        (indexOf ["m1", "m2"]) (noteStores ["m1", "m2"]) "did:ex:alice" none 1 noteHashes = .ok diff ∧
      ∃ entry ∈ diff.onlyRemote, entry.messageCid = "m2") ∧
    ∃ diff, MessagesSync.handle (Concrete.noteScript "key").primitives (digestHasher halves)
        (indexOf ["m1", "m2"]) (noteStores ["m1", "m2"]) "did:ex:alice" (.ok Concrete.noteContext)
        { action := .diff, depth := some 1, hashes := some noteHashes } = .ok (.diff diff) ∧
      ∃ entry ∈ diff.onlyRemote, entry.messageCid = "m2" := by
  have law := digestHasher_collisionFree halves
  have distinct : Set.InjOn (digestHasher halves).hashKey
      {cid | cid ∈ (scopeCids (indexOf ["m1"]) "did:ex:alice" none).texts ∨
        cid ∈ (scopeCids (indexOf ["m1", "m2"]) "did:ex:alice" none).texts} := by
    have pair : Set.InjOn (digestHasher halves).hashKey {"m1", "m2"} :=
      Set.injOn_pair.mpr (by decide)
    refine pair.mono ?_
    rintro cid (isFirst | isOne)
    · exact .inl (mem_singleton.mp isFirst)
    · have listed : cid ∈ ["m1", "m2"] := isOne
      simpa using listed
  have collected : Collects (Concrete.noteScript "key").primitives (digestHasher halves)
      (indexOf ["m1"]) {} "did:ex:alice" none 1 noteHashes := .direct (endpoint_collect (by decide))
  obtain ⟨complete, computes, handles⟩ := diff_complete law (indexOf ["m1", "m2"])
    (noteStores ["m1", "m2"]) distinct collected
  refine ⟨law, distinct, ?_, ?_⟩
  · obtain ⟨diff, computed⟩ := computes (by decide) (by decide)
    exact ⟨diff, computed, (complete diff computed).remote "m2" (by decide) (by decide) trivial⟩
  · obtain ⟨diff, handled, completes⟩ := handles (by decide) Concrete.noteContext rfl
    exact ⟨diff, handled, completes.remote "m2" (by decide) (by decide) (by decide)⟩

end Enbox.Proof.Sync
