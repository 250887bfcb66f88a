import Enbox.Proof.Protocols.Repair
import Enbox.Records.Projection

/-! # The current audience of a role -/

namespace Enbox.Proof.Collection

open Lib Run Option

structure IsAudience (store : MessageStore) (tenant : Did) (scope : AudienceScope) (row : Row) :
    Prop where
  stored : row ∈ store
  ofTenant : row.tenant = tenant
  selected : matchesSet row.indexes (currentAudienceFilters scope) = true

/-- The least of the stored audiences of a scope: signed by the tenant first, then the oldest, then
the one with the least record id. -/
structure IsCurrent (p : Primitives) (store : MessageStore) (tenant : Did) (scope : AudienceScope)
    (row : Row) : Prop extends IsAudience store tenant scope row where
  least : ∃ rank ∈ projectionRank p tenant row.message, ∀ other,
    IsAudience store tenant scope other → ∀ rank' ∈ projectionRank p tenant other.message,
      rank ≤ rank'

section

variable {p : Primitives} {store : MessageStore} {tenant : Did} {scope : AudienceScope} {a b : Row}
  (sound : Sound p store)

include sound

theorem IsAudience.indexed (audience : IsAudience store tenant scope a) :
    ∃ author d recordId, IndexedWrite p a.message author true a.indexes d recordId := by
  have clauses := audience.selected
  simp only [currentAudienceFilters, matchesSet_cons, Bool.and_eq_true] at clauses
  obtain ⟨interface, method, -, -, latest, -⟩ := clauses
  cases sound.filed a audience.stored with
  | write indexed =>
    simp only [indexed.isLatestBaseState, matchesFilter, any_some, matchesEqual_scalar,
      valuesEqualFlexibly_bool, Scalar.bool.injEq] at latest
    exact ⟨_, _, _, latest ▸ indexed⟩
  | delete _ indexed => simp [indexed.method, matchesFilter, deleteMethod, writeMethod] at method
  | configure _ indexed =>
    simp [indexed, (configureIndexes_indexed _ _ _).interface, matchesFilter, recordsInterface,
      protocolsInterface] at interface

theorem IsAudience.eq_of_recordId (greatest : LatestGreatest p store)
    (first : IsAudience store tenant scope a) (second : IsAudience store tenant scope b)
    (same : a.message.recordId = b.message.recordId) : a = b := by
  obtain ⟨_, _, recordId, indexed⟩ := first.indexed sound
  obtain ⟨_, _, recordId', indexed'⟩ := second.indexed sound
  rw [indexed.record, indexed'.record, Option.some.injEq] at same
  subst same
  have ofFirst : OfRecord tenant recordId a :=
    ⟨first.ofTenant, (stateMessage_write indexed.descriptor indexed.record).mpr rfl⟩
  have ofSecond : OfRecord tenant recordId b :=
    ⟨second.ofTenant, (stateMessage_write indexed'.descriptor indexed'.record).mpr rfl⟩
  refine sound.unique a first.stored b second.stored (first.ofTenant.trans second.ofTenant.symm) ?_
  rw [sound.addressed a first.stored, sound.addressed b second.stored]
  exact rank_inj ((greatest _ _ b second.stored ofSecond indexed'.isLatestBaseState a first.stored
    ofFirst).antisymm (greatest _ _ a first.stored ofFirst indexed.isLatestBaseState b second.stored
      ofSecond))

theorem mem_rankedAudiences {rank : ProjectionRank} {message : Message} :
    (rank, message) ∈ rankedAudiences p store tenant scope ↔ ∃ row,
      IsAudience store tenant scope row ∧ row.message = message ∧
        projectionRank p tenant message = some rank := by
  simp only [rankedAudiences, List.mem_filterMap, mem_query_iff sound.filed, map_eq_some_iff,
    Prod.mk.injEq]
  constructor
  · rintro ⟨_, ⟨row, stored, ofTenant, rfl, selected⟩, _, isRank, rfl, rfl⟩
    exact ⟨row, ⟨stored, ofTenant, selected⟩, rfl, isRank⟩
  · rintro ⟨row, ⟨stored, ofTenant, selected⟩, rfl, isRank⟩
    exact ⟨_, ⟨row, stored, ofTenant, rfl, selected⟩, rank, isRank, rfl, rfl⟩

theorem current_of_argmin {winner : ProjectionRank × Message}
    (isLeast : winner ∈ (rankedAudiences p store tenant scope).argmin Prod.fst) :
    ∃ row, IsCurrent p store tenant scope row ∧ row.message = winner.2 := by
  obtain ⟨row, audience, same, isRank⟩ := (mem_rankedAudiences sound).mp (List.argmin_mem isLeast)
  refine ⟨row, ⟨audience, winner.1, same ▸ isRank, fun other audience rank' isRank' => ?_⟩, same⟩
  exact List.le_of_mem_argmin
    ((mem_rankedAudiences sound).mpr ⟨other, audience, rfl, isRank'⟩) isLeast

omit sound in
theorem projectionRank_eq_some {message : Message} {rank : ProjectionRank}
    (isRank : projectionRank p tenant message = some rank) :
    ∃ d signer recordId, message.writeDescriptor = some d ∧ messageSigner p message = some signer ∧
      message.recordId = some recordId ∧
      rank = toLex (decide (signer ≠ tenant), toLex (d.dateCreated, recordId)) := by
  simp only [projectionRank, bind_eq_bind, bind_eq_some_iff, pure_def,
    Option.some.injEq] at isRank
  obtain ⟨d, isWrite, signer, signed, recordId, found, made⟩ := isRank
  exact ⟨d, signer, recordId, isWrite, signed, found, made.symm⟩

omit sound in
theorem IsCurrent.recordId_eq (first : IsCurrent p store tenant scope a)
    (second : IsCurrent p store tenant scope b) : a.message.recordId = b.message.recordId := by
  obtain ⟨rank, isRank, below⟩ := first.least
  obtain ⟨rank', isRank', above⟩ := second.least
  have same := (below b second.toIsAudience rank' isRank').antisymm
    (above a first.toIsAudience rank isRank)
  obtain ⟨_, _, _, -, -, found, rfl⟩ := projectionRank_eq_some isRank
  obtain ⟨_, _, _, -, -, found', rfl⟩ := projectionRank_eq_some isRank'
  simp only [EmbeddingLike.apply_eq_iff_eq, Prod.mk.injEq] at same
  rw [found, found', same.2.2]

theorem IsAudience.current_iff (greatest : LatestGreatest p store)
    (audience : IsAudience store tenant scope a) :
    currentAudienceRecordId p store tenant scope = a.message.recordId ↔
      IsCurrent p store tenant scope a := by
  rw [currentAudienceRecordId]
  constructor
  · intro same
    obtain ⟨_, _, recordId, indexed⟩ := audience.indexed sound
    obtain ⟨winner, isLeast, found⟩ := bind_eq_some_iff.mp (same.trans indexed.record)
    obtain ⟨row, current, isWinner⟩ := current_of_argmin sound isLeast
    rwa [← current.toIsAudience.eq_of_recordId sound greatest audience
      (by rw [isWinner, found, indexed.record])]
  · intro current
    obtain ⟨rank, isRank, -⟩ := current.least
    have listed := (mem_rankedAudiences sound).mpr ⟨a, audience, rfl, isRank⟩
    cases isLeast : (rankedAudiences p store tenant scope).argmin Prod.fst with
    | none =>
      rw [List.argmin_eq_none.mp isLeast] at listed
      cases listed
    | some winner =>
      obtain ⟨row, first, isWinner⟩ := current_of_argmin sound isLeast
      rw [bind_some, ← isWinner, first.recordId_eq current]

theorem isAudience_of_projectedScope {filter : Option RecordsFilter} (stored : a ∈ store)
    (ofTenant : a.tenant = tenant) (latest : IsLatest a)
    (projected : projectedScope filter a.message = some scope) :
    IsAudience store tenant scope a := by
  unfold projectedScope at projected
  split_ifs at projected with control
  simp only [bind_eq_bind, bind_eq_some_iff, pure_def,
    ite_none_left_eq_some, Option.some.injEq] at projected
  obtain ⟨id, parsed, -, rfl⟩ := projected
  have parses : AudienceId.fromMessage a.message .audience = .ok id := by
    cases made : AudienceId.fromMessage a.message .audience <;> rw [made] at parsed <;>
      cases parsed
    rfl
  simp only [AudienceId.fromMessage, ok_iff] at parses
  obtain ⟨d, isWrite, _, ofProtocol, _, ofRole, _, ofContext, _, -, _, same, rfl⟩ := parses
  obtain ⟨recordId, author, isLatest, indexed⟩ :=
    (sound.filed a stored).of_isWrite (Message.writeDescriptor_eq_some.mp isWrite)
  cases indexed.isLatestBaseState.symm.trans latest
  have path : d.protocolPath = ControlKind.audience.protocolPath := by
    simp only [ControlKind.of, isWrite, bind_some, ControlKind.fromProtocolPath,
      not_not] at control
    split_ifs at control with here
    · exact here
    · cases control
  have tag {name value : String} (found : requiredStringTag a.message name .audience = .ok value) :
      a.indexes.lookup (.tag name) = some (.string value) := by
    simp only [requiredStringTag, isWrite, bind_some] at found
    split at found
    · rename_i isValue
      cases found
      exact (indexed.tags rfl name).trans isValue
    · cases found
  refine ⟨stored, ofTenant, ?_⟩
  simp [currentAudienceFilters, indexed.interface, indexed.method, indexed.protocol,
    indexed.protocolPath, path, indexed.isLatestBaseState, tag ofProtocol, tag ofRole, tag ofContext,
    ← same]

end

/-- Projection keeps of the audiences of a scope the current one, which later audiences of others do
not replace. -/
theorem one_current_audience {p : Primitives} (law : p.CollisionFree)
    {allowed : Stores → Event → Prop} {stores : Stores}
    (reached : Reaches (step p) allowed {} stores) (tenant : Did) (scope : AudienceScope) :
    (∀ (filter : Option RecordsFilter) (page : List Row), (∀ row ∈ page, row ∈ stores.messages ∧
      row.tenant = tenant ∧ IsLatest row) → ∀ row ∈ page,
        projectedScope filter row.message = some scope →
        (row.message ∈ projectCurrentAudiences p stores.messages tenant filter
          (page.map (·.message)) ↔ IsCurrent p stores.messages tenant scope row)) ∧
    (∀ a b, IsCurrent p stores.messages tenant scope a →
      IsCurrent p stores.messages tenant scope b → a = b) ∧
    ∀ later row, IsCurrent p stores.messages tenant scope row → row ∈ later →
      (∀ other, IsAudience later tenant scope other →
        IsAudience stores.messages tenant scope other ∨ messageSigner p other.message ≠ some tenant ∧
          ∃ d e, row.message.writeDescriptor = some d ∧ other.message.writeDescriptor = some e ∧
            d.dateCreated < e.dateCreated) → IsCurrent p later tenant scope row := by
  have sound := sound_of_reaches sound_nil reached
  have greatest := latestGreatest_of_reaches law reached
  refine ⟨fun filter page ofStore row listed projected => ?_, fun a b first second => ?_,
    fun later row current stored added => ?_⟩
  · obtain ⟨stored, ofTenant, latest⟩ := ofStore row listed
    have audience := isAudience_of_projectedScope sound stored ofTenant latest projected
    rw [← audience.current_iff sound greatest, projectCurrentAudiences, List.mem_filter, projected]
    simp [List.mem_map_of_mem listed]
  · exact first.toIsAudience.eq_of_recordId sound greatest second.toIsAudience
      (first.recordId_eq second)
  · obtain ⟨rank, isRank, least⟩ := current.least
    refine ⟨⟨stored, current.ofTenant, current.selected⟩, rank, isRank,
      fun other audience rank' isRank' => ?_⟩
    rcases added other audience with old | ⟨foreign, d, e, isWrite, isWrite', earlier⟩
    · exact least other old rank' isRank'
    · obtain ⟨_, signer, _, isD, -, -, rfl⟩ := projectionRank_eq_some isRank
      obtain ⟨_, signer', _, isE, signed', -, rfl⟩ := projectionRank_eq_some isRank'
      cases isWrite.symm.trans isD
      cases isWrite'.symm.trans isE
      have isForeign : signer' ≠ tenant := fun same => foreign (signed'.trans (congrArg some same))
      rw [Prod.Lex.toLex_le_toLex, decide_eq_true isForeign]
      by_cases own : signer = tenant
      · exact .inl (by simp [own])
      · exact .inr ⟨by simp [own], Prod.Lex.toLex_le_toLex.mpr (.inl earlier)⟩

open Protocols.Rooms in
theorem own_key_current :
    let stores := [Event.request (Threads.request minted "audience"),
      .request (Threads.request own "audience")].foldl (step primitives) world
    let scope : AudienceScope := ⟨"https://rooms", "hall/room/member", "H/R"⟩
    primitives.CollisionFree ∧ Reaches (step primitives) (fun _ _ => True) {} stores ∧
    ∃ a ∈ stores.messages, ∃ b ∈ stores.messages, a.cid = "m3" ∧ b.cid = "m6" ∧
      projectCurrentAudiences primitives stores.messages "did:ex:alice" none
        [a.message, b.message] = [b.message] ∧
      IsCurrent primitives stores.messages "did:ex:alice" scope b ∧
      ¬ IsCurrent primitives stores.messages "did:ex:alice" scope a := by
  intro stores scope
  have reached : Reaches (step primitives) (fun _ _ => True) {} stores :=
    (reaches_foldl _ _ _).trans (reaches_foldl _ _ _)
  have row (name : Cid) (message : Message) (found : ∃ row, stores.messages.find? (·.cid == name) =
      some row ∧ row.cid = name ∧ row.tenant = "did:ex:alice" ∧ IsLatest row ∧
        projectedScope none row.message = some scope ∧ row.message = message) := exists_mem_of_find? _ found
  obtain ⟨a, storedA, isA, ofA, latestA, projectedA, sameA⟩ :=
    row "m3" (setEncodedData minted (some "audience")) ⟨_, rfl, rfl, rfl, rfl, rfl, rfl⟩
  obtain ⟨b, storedB, isB, ofB, latestB, projectedB, sameB⟩ :=
    row "m6" (setEncodedData own (some "audience")) ⟨_, rfl, rfl, rfl, rfl, rfl, rfl⟩
  have kept : projectCurrentAudiences primitives stores.messages "did:ex:alice" none
      [a.message, b.message] = [b.message] := by
    rw [sameA, sameB]
    rfl
  have current := (one_current_audience collisionFree reached "did:ex:alice" scope).1 none [a, b]
    (by simp [storedA, ofA, latestA, storedB, ofB, latestB])
  rw [List.map_cons, List.map_singleton, kept] at current
  refine ⟨collisionFree, reached, a, storedA, b, storedB, isA, isB, kept,
    (current b (by simp) projectedB).mp (by simp), fun isCurrent => ?_⟩
  have listed := (current a (by simp) projectedA).mpr isCurrent
  rw [List.mem_singleton, sameA, sameB] at listed
  exact absurd listed (by decide)

end Enbox.Proof.Collection
