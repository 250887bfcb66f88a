import Enbox.Messages.Query
import Enbox.Proof.Messages.Shadow
import Enbox.Proof.Store.Pages
import Mathlib.Data.LawfulXor.Basic

/-! # The fingerprint of a drained query -/

namespace Enbox.Proof.Messages

open Lib Run Store List

variable {p : Primitives} {streamId : Did → String} {store : MessageStore} {tenant : Did}
  {filters : List MessagesFilter} {cursor : Option ProgressToken} {reply : QueryReply}
  {replies : List QueryReply} {cid : Cid} {protocol : String} {row : Row}

section

variable (p : Primitives) (streamId : Did → String) (store : MessageStore) (tenant : Did)
  (feed : MemoryMessageState) (filters : List MessagesFilter)

def OwnerPage (cursor : Option ProgressToken) (reply : QueryReply) : Prop :=
  ∃ resolver message descriptor auth, message.descriptor = .messagesQuery descriptor ∧
    requireSignature p resolver "MessagesQueryMissingAuthorization: authorization is required"
      message = .ok auth ∧ auth.author = tenant ∧ auth.signer = tenant ∧
    descriptor.filters = filters ∧ descriptor.cursor = cursor ∧
    handleMessagesQuery p streamId store tenant resolver (some feed) message descriptor = .ok reply

inductive Drains : Option ProgressToken → List QueryReply → Prop
  | last {cursor : Option ProgressToken} {reply : QueryReply}
      (page : OwnerPage p streamId store tenant feed filters cursor reply)
      (drained : reply.drained = true) : Drains cursor [reply]
  | next {cursor : Option ProgressToken} {reply : QueryReply} {replies : List QueryReply}
      (page : OwnerPage p streamId store tenant feed filters cursor reply)
      (more : reply.drained = false) (rest : Drains reply.cursor replies) :
      Drains cursor (reply :: replies)

end

def returnedCids (replies : List QueryReply) : Finset Cid :=
  (replies.flatMap fun reply => reply.entries.map (·.cid)).toFinset

section

variable {contribution : Cid → Fingerprint} {feed : MemoryMessageState}

theorem mem_returnedCids_cons :
    cid ∈ returnedCids (reply :: replies) ↔
      cid ∈ reply.entries.map (·.cid) ∨ cid ∈ returnedCids replies := by
  simp only [returnedCids, flatMap_cons, mem_toFinset, mem_append]

theorem ownerPage_read (page : OwnerPage p streamId store tenant feed filters cursor reply) :
    ∃ limit result,
      logRead p streamId feed tenant ⟨cursor, limit, queryFilters .owner filters⟩ = .ok result ∧
      reply.entries.map (·.cid) = result.events.map (fun event =>
        event.messageCid.getD (p.messageCid event.message)) ∧
      reply.fingerprint = (queryFingerprintScopes filters).map (feed.fingerprint tenant) ∧
      reply.cursor = result.cursor ∧ reply.drained = result.drained := by
  obtain ⟨resolver, message, descriptor, auth, -, signed, byAuthor, bySigner, rfl, rfl, answered⟩ :=
    page
  simp only [handleMessagesQuery, ok_iff] at answered
  obtain ⟨auth', signed', authorization, authorized, state, given, result, read, rfl⟩ := answered
  cases signed.symm.trans signed'
  have owner : authorizeQueryOrSubscribe p store tenant message descriptor.filters auth =
    .ok .owner := if_pos ⟨byAuthor, bySigner⟩
  cases owner.symm.trans authorized
  cases given
  refine ⟨descriptor.limit, result, read, ?_, rfl, rfl, rfl⟩
  simp only [map_map]
  refine map_congr_left fun event _ => ?_
  rw [Function.comp_apply, buildEntry]
  split <;> rfl

section

variable (consistent : Consistent p contribution feed)

include consistent

theorem cid_at_iff {filters : Option Filters} {first last : Nat} :
    cid ∈ (eventsIn p feed tenant filters first last).map (fun event =>
        event.messageCid.getD (p.messageCid event.message)) ↔
      ∃ position entry, first < position ∧ position ≤ last ∧
        feed.entries.lookup (tenant, position) = some entry ∧ entry.messageCid = cid ∧
        matchesOptionalFilters entry.indexes filters = true := by
  simp only [eventsIn, mem_map, mem_filterMap, mem_range'_1]
  constructor
  · rintro ⟨event, ⟨position, within, shown⟩, rfl⟩
    obtain ⟨entry, found, -, ofCid⟩ := eventAt_some shown
    refine ⟨position, entry, by omega, by omega, found, by rw [ofCid, Option.getD_some], ?_⟩
    rw [eventAt, found, Option.bind_some] at shown
    split at shown
    · assumption
    · cases shown
  · rintro ⟨position, entry, after, upTo, found, rfl, passes⟩
    obtain ⟨event, shown⟩ := consistent.eventAt_of_entry found passes
    obtain ⟨entry', found', -, ofCid⟩ := eventAt_some shown
    cases found.symm.trans found'
    exact ⟨event, ⟨position, by omega, shown⟩, by rw [ofCid, Option.getD_some]⟩

theorem ownerPage_covers (bounded : Bounded feed)
    (page : OwnerPage p streamId store tenant feed filters cursor reply) :
    ∃ last, cursorPosition reply.cursor = last ∧ cursorPosition cursor ≤ last ∧
      (reply.drained = true ↔ feed.head tenant ≤ last) ∧
      ∀ cid, cid ∈ reply.entries.map (·.cid) ↔
        ∃ position entry, cursorPosition cursor < position ∧ position ≤ last ∧
          feed.entries.lookup (tenant, position) = some entry ∧ entry.messageCid = cid ∧
          matchesOptionalFilters entry.indexes (queryFilters .owner filters) = true := by
  obtain ⟨limit, result, read, cids, -, isCursor, isDrained⟩ := ownerPage_read page
  obtain ⟨starts, last, reads⟩ := reads_of_ok bounded read
  obtain ⟨token, isToken, resumes⟩ := reads.resumes bounded starts
  refine ⟨last, by rw [isCursor, isToken, resumes.cursorPosition_eq], ?_⟩
  simp only [cids, isDrained, ← cid_at_iff consistent]
  cases reads with
  | nothing unread => simp [eventsIn]
  | exhausted atHead => simp [eventsIn, ← atHead]
  | scanned last messageCid lower upper message => simp [lower.le]

theorem mem_returnedCids (bounded : Bounded feed)
    (drains : Drains p streamId store tenant feed filters cursor replies) (cid : Cid) :
    cid ∈ returnedCids replies ↔
      ∃ position entry, cursorPosition cursor < position ∧
        feed.entries.lookup (tenant, position) = some entry ∧ entry.messageCid = cid ∧
        matchesOptionalFilters entry.indexes (queryFilters .owner filters) = true := by
  obtain ⟨handed, coherent⟩ := consistent.coherent
  induction drains with
  | last page drained =>
    obtain ⟨last, -, -, atHead, covers⟩ := ownerPage_covers consistent bounded page
    have drainedTo := atHead.mp drained
    simp only [returnedCids, flatMap_cons, flatMap_nil, append_nil,
      mem_toFinset, covers]
    constructor
    · rintro ⟨position, entry, after, -, rest⟩
      exact ⟨position, entry, after, rest⟩
    · rintro ⟨position, entry, after, found, rest⟩
      exact ⟨position, entry, after, (coherent.position_le found).trans drainedTo, found, rest⟩
  | next page more rest ih =>
    obtain ⟨last, isLast, ordered, -, covers⟩ := ownerPage_covers consistent bounded page
    rw [isLast] at ih
    rw [mem_returnedCids_cons, covers, ih]
    constructor
    · rintro (⟨position, entry, after, -, found⟩ | ⟨position, entry, after, found⟩)
      · exact ⟨position, entry, after, found⟩
      · exact ⟨position, entry, by omega, found⟩
    · rintro ⟨position, entry, after, found⟩
      by_cases inPage : position ≤ last
      · exact .inl ⟨position, entry, after, inPage, found⟩
      · exact .inr ⟨position, entry, by omega, found⟩

theorem entry_of_retained {filters : Option Filters} :
    (∃ position entry, 0 < position ∧ feed.entries.lookup (tenant, position) = some entry ∧
        entry.messageCid = cid ∧ matchesOptionalFilters entry.indexes filters = true) ↔
      ∃ row, feed.messages.lookup (tenant, cid) = some row ∧ isFeedMessage row.message = true ∧
        matchesOptionalFilters row.indexes filters = true := by
  obtain ⟨handed, coherent⟩ := consistent.coherent
  constructor
  · rintro ⟨position, entry, -, found, rfl, passes⟩
    obtain ⟨row, isRow, isFeed, indexed, -⟩ :=
      consistent.aligned.aligned _ _ _ _ (coherent.entry _ _ _ found).1 found
    exact ⟨row, isRow, isFeed, by rwa [indexed]⟩
  · rintro ⟨row, isRow, isFeed, passes⟩
    obtain ⟨position, positioned⟩ :=
      Option.isSome_iff_exists.mp (coherent.feed _ _ _ isRow isFeed)
    obtain ⟨entry, found, ofCid⟩ := coherent.position _ _ _ positioned
    obtain ⟨row', isRow', -, indexed, -⟩ := consistent.aligned.aligned _ _ _ _ positioned found
    cases isRow.symm.trans isRow'
    exact ⟨position, entry, (coherent.position_within found).1, found, ofCid, by rwa [← indexed]⟩

end

end

section

variable {filter : MessagesFilter} {protocols scopes : List String}

theorem fingerprintedProtocol_some (fingerprinted : fingerprintedProtocol filter = some protocol) :
    filter = { protocol := some protocol } ∧ protocol ≠ permissionsProtocolUri := by
  obtain ⟨interface, method, asked, path, pathPrefix, context, range⟩ := filter
  simp only [fingerprintedProtocol, isProtocolOnlyFilter, Bool.not_eq_true', Bool.and_eq_true,
    Option.isNone_iff_eq_none, ite_eq_iff, reduceCtorEq, and_false, false_or, Bool.not_eq_false,
    Option.filter_eq_some_iff, decide_eq_true_eq] at fingerprinted
  obtain ⟨⟨⟨⟨⟨⟨⟨-, rfl⟩, rfl⟩, rfl⟩, rfl⟩, rfl⟩, rfl⟩, rfl, -, ordinary⟩ := fingerprinted
  exact ⟨rfl, ordinary⟩

structure AsksFor (filters : List MessagesFilter) (protocols : List String) : Prop where
  filters : filters = protocols.map fun protocol => { protocol := some protocol }
  ordinary : ∀ protocol ∈ protocols, protocol ≠ permissionsProtocolUri

theorem AsksFor.protocols_eq (asks : AsksFor filters protocols) :
    filters.filterMap (·.protocol) = protocols := by
  rw [asks.filters, filterMap_map]
  exact filterMap_some

theorem asksFor_of_mapM : ∀ {filters : List MessagesFilter} {protocols : List String},
    filters.mapM fingerprintedProtocol = some protocols → AsksFor filters protocols
  | [], protocols, asked => by
    cases asked
    exact ⟨rfl, fun _ listed => absurd listed not_mem_nil⟩
  | first :: rest, protocols, asked => by
    simp only [mapM_cons, Option.bind_eq_bind, Option.bind_eq_some_iff, Option.pure_def,
      Option.some.injEq] at asked
    obtain ⟨protocol, ofFirst, others, ofRest, rfl⟩ := asked
    obtain ⟨rfl, ordinary⟩ := fingerprintedProtocol_some ofFirst
    have asks := asksFor_of_mapM ofRest
    exact ⟨by rw [map_cons, ← asks.filters], forall_mem_cons.mpr ⟨ordinary, asks.ordinary⟩⟩

inductive Fingerprinted : List MessagesFilter → List String → Prop
  | all : Fingerprinted [] [globalDomain]
  | protocols {filters : List MessagesFilter} {protocols scopes : List String}
      (nonempty : filters ≠ []) (asks : AsksFor filters protocols)
      (inScopes : scopes.toFinset = protocols.toFinset.image protocolFingerprintScope ∪
        protocols.toFinset.image permissionFingerprintScope) : Fingerprinted filters scopes

theorem fingerprinted_of_scopes (summed : queryFingerprintScopes filters = some scopes) :
    Fingerprinted filters scopes := by
  unfold queryFingerprintScopes at summed
  split at summed
  · rename_i empty
    cases isEmpty_iff.mp empty
    cases summed
    exact .all
  · rename_i nonempty
    obtain ⟨protocols, asked, rfl⟩ := Option.map_eq_some_iff.mp summed
    refine .protocols (by simpa using nonempty) (asksFor_of_mapM asked) ?_
    ext scope
    simp only [mem_toFinset, mem_flatMap, normalizeScopes, mem_dedup,
      mem_insertionSort, mem_cons, not_mem_nil, or_false, Finset.mem_union,
      Finset.mem_image]
    constructor
    · rintro ⟨protocol, listed, rfl | rfl⟩
      · exact .inl ⟨protocol, listed, rfl⟩
      · exact .inr ⟨protocol, listed, rfl⟩
    · rintro (⟨protocol, listed, rfl⟩ | ⟨protocol, listed, rfl⟩)
      · exact ⟨protocol, listed, .inl rfl⟩
      · exact ⟨protocol, listed, .inr rfl⟩

end

/-! ## What the scopes count -/

def permitsOneOf (protocols : List String) (row : MessageRow) : Bool :=
  isFeedMessage row.message && stringIndex row.indexes .protocol = some permissionsProtocolUri &&
    (stringIndex row.indexes (.tag "protocol") <|> writeTagProtocol row.message).any (· ∈ protocols)

def permissionCids (feed : MemoryMessageState) (tenant : Did) (protocols : List String) :
    Finset Cid :=
  (feed.messages.map (·.1.2)).toFinset.filter fun cid =>
    (feed.messages.lookup (tenant, cid)).any (permitsOneOf protocols)

section

variable {contribution : Cid → Fingerprint} {stores : Stores} {feed : MemoryMessageState}
  {protocols scopes : List String}

theorem permissionCids_eq :
    permissionCids feed tenant protocols = protocols.toFinset.biUnion fun protocol =>
      retainedIn feed tenant (permissionFingerprintScope protocol) := by
  ext cid
  simp only [permissionCids, Finset.mem_filter, mem_toFinset, Option.any_eq_true,
    Finset.mem_biUnion, mem_retainedIn, mem_scopesAt, permissionScope_mem, permitsOneOf,
    Bool.and_eq_true, decide_eq_true_eq]
  constructor
  · rintro ⟨-, row, found, ⟨isFeed, isPermissions⟩, protocol, tagged, listed⟩
    exact ⟨protocol, listed, row, found, isFeed, isPermissions, tagged⟩
  · rintro ⟨protocol, listed, row, found, isFeed, isPermissions, tagged⟩
    obtain ⟨before, after, split, -⟩ := lookup_eq_some_iff.mp found
    refine ⟨?_, row, found, ⟨isFeed, isPermissions⟩, protocol, tagged, listed⟩
    rw [split]
    simp

theorem scopes_disjoint (feed : MemoryMessageState) (tenant : Did) {scope : String → String}
    {read : MessageRow → Option String}
    (reads : ∀ row protocol,
      scope protocol ∈ fingerprintScopes (writeTagProtocol row.message) row.indexes →
        read row = some protocol) (indices : Finset String) :
    ((indices.image scope : Finset String) : Set String).PairwiseDisjoint
      (retainedIn feed tenant) := by
  intro first isFirst second isSecond different
  obtain ⟨a, -, rfl⟩ := Finset.mem_image.mp isFirst
  obtain ⟨b, -, rfl⟩ := Finset.mem_image.mp isSecond
  refine Finset.disjoint_left.mpr fun cid inFirst inSecond => different ?_
  obtain ⟨row, found, -, placed⟩ := mem_scopesAt.mp (mem_retainedIn.mp inFirst)
  obtain ⟨row', found', -, placed'⟩ := mem_scopesAt.mp (mem_retainedIn.mp inSecond)
  cases found.symm.trans found'
  cases (reads row a placed).symm.trans (reads row b placed')
  rfl

theorem fingerprint_global (consistent : Consistent p contribution feed) :
    feed.fingerprint tenant [globalDomain] =
      xorOver (retainedIn feed tenant globalDomain) contribution := by
  rw [fingerprint_eq, ← consistent.tallied]
  exact (Finset.fold_singleton).trans BitVec.xor_zero

theorem fingerprint_protocols (consistent : Consistent p contribution feed)
    (inScopes : scopes.toFinset = protocols.toFinset.image protocolFingerprintScope ∪
      protocols.toFinset.image permissionFingerprintScope) :
    feed.fingerprint tenant scopes =
      xorOver (protocols.toFinset.biUnion fun protocol =>
        retainedIn feed tenant (protocolFingerprintScope protocol)) contribution ^^^
      xorOver (permissionCids feed tenant protocols) contribution := by
  have apart : Disjoint (protocols.toFinset.image protocolFingerprintScope)
      (protocols.toFinset.image permissionFingerprintScope) := by
    refine Finset.disjoint_left.mpr fun scope isProtocol isPermission => ?_
    obtain ⟨a, -, rfl⟩ := Finset.mem_image.mp isProtocol
    obtain ⟨b, -, same⟩ := Finset.mem_image.mp isPermission
    exact protocolScope_ne_permissionScope a b same.symm
  have tallied : stored feed tenant = fun scope =>
      xorOver (retainedIn feed tenant scope) contribution := funext (consistent.tallied tenant)
  have ofProtocols := scopes_disjoint feed tenant
    (fun _ _ placed => protocolScope_mem.mp placed) protocols.toFinset
  have ofPermissions := scopes_disjoint feed tenant
    (fun _ _ placed => (permissionScope_mem.mp placed).2) protocols.toFinset
  rw [fingerprint_eq, inScopes, xorOver_union _ apart, tallied,
    xorOver_family _ ofProtocols, xorOver_family _ ofPermissions,
    Finset.image_biUnion, Finset.image_biUnion, permissionCids_eq]

/-! ## What the pages return -/

theorem wanted_protocolOnly :
    Wanted { protocol := some protocol } row ↔ protocolOf row = some protocol := by
  constructor
  · exact fun wanted => wanted.protocol protocol rfl
  · intro own
    refine ⟨?_, ?_, ?_, ?_, ?_, ?_, ?_⟩ <;> simp [InRange, own]

theorem matches_asked (seen : Seen row) (nonempty : filters ≠ []) (asks : AsksFor filters protocols) :
    matchesOptionalFilters row.indexes (queryFilters .owner filters) = true ↔
      ∃ protocol ∈ protocols, protocolOf row = some protocol := by
  have each (protocol : String) (listed : protocol ∈ protocols) :
      (∃ map ∈ messagesFilterToFilterMaps { protocol := some protocol } true,
        matchesSet row.indexes (FilterMap.toSet map) = true) ↔ protocolOf row = some protocol := by
    have shown : matchesOptionalFilters row.indexes
        (messagesFiltersToFilters [{ protocol := some protocol }] true) = true ↔ _ :=
      matches_owner_iff seen rfl (asks.ordinary protocol listed)
    rw [matchesOptionalFilters_compiled (by simp), wanted_protocolOnly] at shown
    simpa [MessagesFilter.hasPathScope] using shown
  change matchesOptionalFilters row.indexes (messagesFiltersToFilters filters true) = true ↔ _
  rw [matchesOptionalFilters_compiled nonempty, asks.filters]
  constructor
  · rintro ⟨_, isFilter, matched⟩
    obtain ⟨protocol, listed, rfl⟩ := mem_map.mp isFilter
    exact ⟨protocol, listed, (each protocol listed).mp matched⟩
  · rintro ⟨protocol, listed, own⟩
    exact ⟨_, mem_map.mpr ⟨protocol, listed, rfl⟩, (each protocol listed).mpr own⟩

theorem Seen.protocolOf_eq (seen : Seen row) :
    stringIndex row.indexes .protocol = protocolOf row := by
  obtain ⟨protocol, own, indexed⟩ := seen.protocol
  rw [stringIndex, indexed, own]

theorem seen_of_represents (ran : Reaches (step p) (fun _ _ => True) {} stores)
    (represents : Represents feed stores.messages) {row : MessageRow}
    (found : feed.messages.lookup (tenant, cid) = some row) :
    ∃ stored : Row, stored.indexes = row.indexes ∧ Seen stored := by
  have same := represents tenant cid
  rw [found] at same
  obtain ⟨stored, isStored, same⟩ := Option.map_eq_some_iff.mp same.symm
  exact ⟨stored, (Prod.mk.inj same).2,
    seen_of_filed ((sound_of_reaches sound_nil ran).filed stored (mem_of_find?_eq_some isStored))⟩

section

variable (consistent : Consistent p contribution feed) (bounded : Bounded feed)

include consistent bounded

theorem mem_returnedCids_iff
    (drains : Drains p streamId stores.messages tenant feed filters none replies) (cid : Cid) :
    cid ∈ returnedCids replies ↔
      ∃ row, feed.messages.lookup (tenant, cid) = some row ∧ isFeedMessage row.message = true ∧
        matchesOptionalFilters row.indexes (queryFilters .owner filters) = true := by
  rw [mem_returnedCids consistent bounded drains]
  exact entry_of_retained consistent

theorem returnedCids_all (drains : Drains p streamId stores.messages tenant feed [] none replies) :
    returnedCids replies = retainedIn feed tenant globalDomain := by
  have unfiltered (indexes : Indexes) :
      matchesOptionalFilters indexes (queryFilters .owner []) = true := rfl
  ext cid
  simp only [mem_returnedCids_iff consistent bounded drains, mem_retainedIn, mem_scopesAt,
    globalDomain_mem, unfiltered]

theorem returnedCids_protocols (ran : Reaches (step p) (fun _ _ => True) {} stores)
    (represents : Represents feed stores.messages)
    (drains : Drains p streamId stores.messages tenant feed filters none replies)
    (nonempty : filters ≠ []) (asks : AsksFor filters protocols) :
    returnedCids replies = protocols.toFinset.biUnion fun protocol =>
      retainedIn feed tenant (protocolFingerprintScope protocol) := by
  ext cid
  simp only [mem_returnedCids_iff consistent bounded drains, Finset.mem_biUnion, mem_toFinset,
    mem_retainedIn, mem_scopesAt, protocolScope_mem]
  have matched {row : MessageRow} (found : feed.messages.lookup (tenant, cid) = some row) :
      matchesOptionalFilters row.indexes (queryFilters .owner filters) = true ↔
        ∃ protocol ∈ protocols, stringIndex row.indexes .protocol = some protocol := by
    obtain ⟨stored, same, seen⟩ := seen_of_represents ran represents found
    rw [← same, matches_asked seen nonempty asks, seen.protocolOf_eq]
  constructor
  · rintro ⟨row, found, isFeed, shown⟩
    obtain ⟨protocol, listed, own⟩ := (matched found).mp shown
    exact ⟨protocol, listed, row, found, isFeed, own⟩
  · rintro ⟨protocol, listed, row, found, isFeed, own⟩
    exact ⟨row, found, isFeed, (matched found).mpr ⟨protocol, listed, own⟩⟩

end

theorem Drains.fingerprint
    (drains : Drains p streamId stores.messages tenant feed filters cursor replies)
    (isReply : reply ∈ replies) :
    reply.fingerprint = (queryFingerprintScopes filters).map (feed.fingerprint tenant) := by
  induction drains with
  | last page _ =>
    cases mem_singleton.mp isReply
    obtain ⟨_, _, _, _, fingerprint, _⟩ := ownerPage_read page
    exact fingerprint
  | next page _ _ ih =>
    obtain rfl | later := mem_cons.mp isReply
    · obtain ⟨_, _, _, _, fingerprint, _⟩ := ownerPage_read page
      exact fingerprint
    · exact ih later

end

/-- The fingerprint of a drained query is that of the messages its pages returned exactly if the
contributions of the permission messages for the protocols cancel out. -/
theorem fingerprint_of_pages_iff {p : Primitives} (law : p.CollisionFree)
    {contribution : Cid → Fingerprint} {epoch : String} {feed : MemoryMessageState}
    (fed : Reaches (feedStep p contribution) (fun _ _ => True) { epoch } feed) {stores : Stores}
    (ran : Reaches (step p) (fun _ _ => True) {} stores)
    (represents : Represents feed stores.messages) {streamId : Did → String} {tenant : Did}
    {filters : List MessagesFilter} {replies : List QueryReply}
    (drains : Drains p streamId stores.messages tenant feed filters none replies)
    {reply : QueryReply} (isReply : reply ∈ replies) {fingerprint : Fingerprint}
    (returned : reply.fingerprint = some fingerprint) :
    fingerprint = xorOver (returnedCids replies) contribution ↔
      xorOver (permissionCids feed tenant (filters.filterMap (·.protocol))) contribution = 0 := by
  have consistent := consistent_of_reaches law fed
  have bounded := fed.invariant (bounded_initial epoch) fun _ event bounded _ => bounded.step event
  rw [drains.fingerprint isReply] at returned
  obtain ⟨scopes, summed, rfl⟩ := Option.map_eq_some_iff.mp returned
  cases fingerprinted_of_scopes summed with
  | all =>
    have none : permissionCids feed tenant [] = ∅ := permissionCids_eq
    rw [fingerprint_global consistent, returnedCids_all consistent bounded drains,
      filterMap_nil, none]
    exact iff_of_true rfl rfl
  | protocols nonempty asks inScopes =>
    rw [fingerprint_protocols consistent inScopes,
      returnedCids_protocols consistent bounded ran represents drains nonempty asks,
      asks.protocols_eq, xor_left_eq_self_iff]

theorem ok_of_toOption_map {ε α β : Type} {x : Except ε α} {f : α → β} {b : β}
    (known : x.toOption.map f = some b) : ∃ a, x = .ok a ∧ f a = b := by
  cases x with
  | error e => cases known
  | ok a => exact ⟨a, rfl, Option.some.inj known⟩

theorem represents_of_rows {feed : MemoryMessageState}
    (rows : feed.messages.map (fun entry => (entry.1, entry.2.message, entry.2.indexes)) =
      store.map fun row => ((row.tenant, row.cid), row.message, row.indexes)) :
    Represents feed store := by
  intro tenant cid
  have looked (messages : List ((Did × Cid) × MessageRow)) :
      (messages.lookup (tenant, cid)).map (fun row => (row.message, row.indexes)) =
        (messages.map fun entry => (entry.1, entry.2.message, entry.2.indexes)).lookup
          (tenant, cid) := by
    induction messages with
    | nil => rfl
    | cons first rest ih =>
      obtain ⟨key, row⟩ := first
      simp only [map_cons, lookup_cons_eq_ite]
      split
      · rfl
      · exact ih
  have found (store : MessageStore) :
      (store.find? fun row => row.tenant = tenant && row.cid = cid).map
          (fun row => (row.message, row.indexes)) =
        (store.map fun row => ((row.tenant, row.cid), row.message, row.indexes)).lookup
          (tenant, cid) := by
    induction store with
    | nil => rfl
    | cons first rest ih =>
      rw [map_cons, lookup_cons_eq_ite, ← ih]
      by_cases here : (tenant, cid) = (first.tenant, first.cid)
      · cases here
        simp
      · rw [if_neg here, List.find?_cons_of_neg]
        simp only [Bool.and_eq_true, decide_eq_true_eq]
        rintro ⟨rfl, rfl⟩
        exact here rfl
  rw [looked, rows, found]

namespace Drained

open Concrete Run.Threads
open State.Revoked (grant)

def everything : MessagesQueryDescriptor where
  messageTimestamp := 9

def whole : MessagesQueryDescriptor where
  messageTimestamp := 9
  filters := [{ protocol := some uri }]

def query (descriptor : MessagesQueryDescriptor) (payload : String) : Message :=
  signedMessage (.messagesQuery descriptor) payload

def script : Script :=
  State.Revoked.script.adding (query everything "everything") "qe" "mq"
    |>.adding (query whole "whole") "qw" "mw"

noncomputable section

abbrev q : Primitives := script.primitives

theorem collisionFree : q.CollisionFree :=
  script.collisionFree (by decide) (by decide)

def stores : Stores :=
  [.request (request configureMessage ""), .request (request grant "grant")].foldl (step q) {}

theorem stores_reached : Reaches (step q) (fun _ _ => True) {} stores :=
  AllowedAlong.reaches ⟨trivial, trivial, trivial⟩

def contribution (cid : Cid) : Fingerprint := if cid = "m0" then 9 else 5

def feed : MemoryMessageState :=
  (stores.messages.reverse.map fun row => .put row.tenant ⟨row.message, row.indexes⟩).foldl
    (feedStep q contribution) { epoch := "e" }

theorem feed_reached : Reaches (feedStep q contribution) (fun _ _ => True) { epoch := "e" } feed :=
  reaches_foldl _ _ _

theorem represents : Represents feed stores.messages := represents_of_rows rfl

theorem drains (descriptor : MessagesQueryDescriptor) (payload : String) (cids : List Cid)
    {fingerprint : Fingerprint} (unfollowed : descriptor.cursor = none)
    (signed : (requireSignature q (some openResolver)
      "MessagesQueryMissingAuthorization: authorization is required"
      (query descriptor payload)).toOption.map (fun auth => (auth.author, auth.signer)) =
        some ("did:ex:alice", "did:ex:alice"))
    (answered : (handleMessagesQuery q id stores.messages "did:ex:alice" (some openResolver)
      (some feed) (query descriptor payload) descriptor).toOption.map (fun reply =>
        (reply.entries.map (·.cid), reply.fingerprint, reply.drained)) =
        some (cids, some fingerprint, true)) :
    ∃ reply, Drains q id stores.messages "did:ex:alice" feed descriptor.filters none [reply] ∧
      returnedCids [reply] = cids.toFinset ∧ reply.fingerprint = some fingerprint := by
  obtain ⟨auth, isAuth, byAlice⟩ := ok_of_toOption_map signed
  obtain ⟨reply, isReply, known⟩ := ok_of_toOption_map answered
  simp only [Prod.mk.injEq] at byAlice known
  obtain ⟨rfl, isFingerprint, drained⟩ := known
  refine ⟨reply, .last ⟨_, _, descriptor, auth, rfl, isAuth, byAlice.1, byAlice.2, rfl, unfollowed,
    isReply⟩ drained, ?_, isFingerprint⟩
  simp [returnedCids]

end

end Drained

open Drained in
theorem fingerprint_of_everything :
    q.CollisionFree ∧ Reaches (feedStep q contribution) (fun _ _ => True) { epoch := "e" } feed ∧
    Reaches (step q) (fun _ _ => True) {} stores ∧ Represents feed stores.messages ∧
    ∃ reply, Drains q id stores.messages "did:ex:alice" feed [] none [reply] ∧
      returnedCids [reply] = {"m0", "mg"} ∧ reply.fingerprint = some (9 ^^^ 5) ∧
      (9 ^^^ 5 : Fingerprint) = xorOver (returnedCids [reply]) contribution := by
  obtain ⟨reply, pages, returned, fingerprint⟩ :=
    drains everything "everything" ["m0", "mg"] rfl rfl rfl
  exact ⟨collisionFree, feed_reached, stores_reached, represents, reply, pages, returned, fingerprint,
    (fingerprint_of_pages_iff collisionFree feed_reached stores_reached represents pages
      mem_cons_self fingerprint).mpr rfl⟩

open Drained in
theorem grant_counted_not_returned :
    q.CollisionFree ∧ Reaches (feedStep q contribution) (fun _ _ => True) { epoch := "e" } feed ∧
    Reaches (step q) (fun _ _ => True) {} stores ∧ Represents feed stores.messages ∧
    ∃ reply, Drains q id stores.messages "did:ex:alice" feed whole.filters none [reply] ∧
      returnedCids [reply] = {"m0"} ∧ reply.fingerprint = some (9 ^^^ 5) ∧
      xorOver (returnedCids [reply]) contribution = 9 := by
  obtain ⟨reply, pages, returned, fingerprint⟩ :=
    drains whole "whole" ["m0"] rfl rfl rfl
  refine ⟨collisionFree, feed_reached, stores_reached, represents, reply, pages, returned,
    fingerprint, ?_⟩
  rw [returned]
  rfl

end Enbox.Proof.Messages
