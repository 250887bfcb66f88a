import Enbox.Proof.Messages.Scope

/-! # Shadow filters -/

namespace Enbox.Proof.Messages

open Lib Run

def IsDefinitionOf (protocol : String) (row : Row) : Prop :=
  ∃ d, row.message.descriptor = .protocolsConfigure d ∧ d.definition.protocol = protocol

def IsPermissionFor (protocol : String) (row : Row) : Prop :=
  ∃ d, row.message.descriptor = .recordsWrite d ∧ d.protocol = permissionsProtocolUri ∧
    row.indexes.lookup .isLatestBaseState = some (.bool true) ∧
    d.tags.bind (·.lookup "protocol") = some (.string protocol)

inductive Meant (filter : MessagesFilter) (protocol : String) (row : Row) : Prop
  | own (wanted : Wanted filter row)
  | permission (permits : IsPermissionFor protocol row)
      (inRange : InRange filter row.message.messageTimestamp)
  | definition (selects : filter.hasPathScope = true) (defines : IsDefinitionOf protocol row)
      (inRange : InRange filter row.message.messageTimestamp)

section

variable {filter : MessagesFilter} {protocol : String} {row : Row}

theorem lookup_range (filter : MessagesFilter) (key : FilterKey) :
    (messageRangeFilter .messageTimestamp filter.messageTimestamp).reverse.lookup key =
      if key = .index .messageTimestamp then
        filter.messageTimestamp.map fun range => .range range.lower range.upper
      else none :=
  lookup_optional _ _ _ _

theorem not_matchesSet_permissionShadow (seen : Seen row)
    (ordinary : protocol ≠ permissionsProtocolUri) :
    ¬ matchesSet row.indexes (FilterMap.toSet (filter.permissionShadow protocol)) = true := by
  intro matched
  have holds := (matchesSet_inserted _).mp matched
  obtain ⟨own, -, indexed⟩ := seen.protocol
  -- Both clauses are about the one index `protocol`.
  have property : clauseHolds matchesFilter row.indexes
      (.protocol, stringFilter permissionsProtocolUri) = true :=
    holds (.index .protocol) _
      (by simp [List.lookup_append, lookup_range, messagesStringFilter, lookup_cons_eq_ite])
  have tag : clauseHolds matchesFilter row.indexes (.protocol, stringFilter protocol) = true :=
    holds (.tag .protocol) _ (by simp [List.lookup_append, lookup_range, messagesStringFilter])
  rw [clauseHolds_text indexed] at property tag
  exact ordinary (tag.symm.trans property)

def definitionFilter (filter : MessagesFilter) (protocol : String) : MessagesFilter where
  interface := some protocolsInterface
  method := some configureMethod
  protocol := some protocol
  messageTimestamp := filter.messageTimestamp

theorem wanted_definitionFilter :
    Wanted (definitionFilter filter protocol) row ↔
      IsDefinitionOf protocol row ∧ InRange filter row.message.messageTimestamp := by
  constructor
  · intro wanted
    have ofProtocol := wanted.protocol protocol rfl
    have isDefinition := wanted.interface protocolsInterface rfl
    refine ⟨?_, wanted.timestamp⟩
    unfold interfaceOf at isDefinition
    split at isDefinition
    · rename_i d isConfigure
      refine ⟨d, isConfigure, ?_⟩
      simpa [protocolOf, isConfigure] using ofProtocol
    · exact absurd isDefinition (by decide)
  · rintro ⟨⟨d, isConfigure, rfl⟩, inRange⟩
    refine ⟨?_, ?_, ?_, ?_, ?_, ?_, inRange⟩ <;>
      simp [definitionFilter, interfaceOf, methodOf, protocolOf, isConfigure]

theorem matchesSet_protocolShadow (seen : Seen row) :
    matchesSet row.indexes (FilterMap.toSet (filter.protocolShadow protocol)) = true ↔
      IsDefinitionOf protocol row ∧ InRange filter row.message.messageTimestamp := by
  have same : filter.protocolShadow protocol =
      assocInsertAll (definitionFilter filter protocol).clauses [] := rfl
  rw [same, matchesSet_own seen, wanted_definitionFilter]

theorem matches_owner_iff (seen : Seen row) (asked : filter.protocol = some protocol)
    (ordinary : protocol ≠ permissionsProtocolUri) :
    matchesOptionalFilters row.indexes (messagesFiltersToFilters [filter] true) = true ↔
      Wanted filter row ∨ filter.hasPathScope = true ∧ IsDefinitionOf protocol row ∧
        InRange filter row.message.messageTimestamp := by
  have nonempty : [filter] ≠ [] := by simp
  simp only [matchesOptionalFilters_compiled nonempty, messagesFilterToFilterMaps, if_true,
    shadowFilters, asked, List.mem_cons, exists_eq_or_imp, matchesSet_own seen,
    not_matchesSet_permissionShadow seen ordinary]
  cases filter.hasPathScope <;> simp [matchesSet_protocolShadow seen]

theorem meant_iff : Meant filter protocol row ↔
    (Wanted filter row ∨ filter.hasPathScope = true ∧ IsDefinitionOf protocol row ∧
      InRange filter row.message.messageTimestamp) ∨
    IsPermissionFor protocol row ∧ InRange filter row.message.messageTimestamp := by
  constructor
  · rintro (wanted | ⟨permits, inRange⟩ | ⟨selects, defines, inRange⟩)
    · exact .inl (.inl wanted)
    · exact .inr ⟨permits, inRange⟩
    · exact .inl (.inr ⟨selects, defines, inRange⟩)
  · rintro ((wanted | ⟨selects, defines, inRange⟩) | ⟨permits, inRange⟩)
    · exact .own wanted
    · exact .definition selects defines inRange
    · exact .permission permits inRange

theorem not_shown_of_permission (permits : IsPermissionFor protocol row)
    (asked : filter.protocol = some protocol) (ordinary : protocol ≠ permissionsProtocolUri) :
    ¬ (Wanted filter row ∨ filter.hasPathScope = true ∧ IsDefinitionOf protocol row ∧
      InRange filter row.message.messageTimestamp) := by
  obtain ⟨d, isWrite, ofPermissions, -⟩ := permits
  rintro (wanted | ⟨-, ⟨d', isConfigure, -⟩, -⟩)
  · have own := wanted.protocol protocol asked
    rw [protocolOf, isWrite] at own
    exact ordinary ((Option.some.inj own).symm.trans ofPermissions)
  · cases isWrite.symm.trans isConfigure

end

/-- An owner that asks for a protocol is shown a stored message exactly if they are meant to, unless
it is a permission record for the protocol. -/
theorem shown_as_meant_iff {p : Primitives} {stores : Stores}
    (reached : Reaches (step p) (fun _ _ => True) {} stores) {row : Row}
    (stored : row ∈ stores.messages) {filter : MessagesFilter} {protocol : String}
    (asked : filter.protocol = some protocol) (ordinary : protocol ≠ permissionsProtocolUri)
    {filters : Option Filters} (compiled : filters = queryFilters .owner [filter] ∨
      filters = subscriptionFilters .owner [filter]) :
    (matchesOptionalFilters row.indexes filters = true ↔ Meant filter protocol row) ↔
      ¬ (IsPermissionFor protocol row ∧ InRange filter row.message.messageTimestamp) := by
  have seen := seen_of_filed ((sound_of_reaches sound_nil reached).filed row stored)
  have same : filters = messagesFiltersToFilters [filter] true := compiled.elim id id
  rw [same, matches_owner_iff seen asked ordinary, meant_iff]
  constructor
  · rintro agree ⟨permits, inRange⟩
    exact not_shown_of_permission permits asked ordinary (agree.mpr (.inr ⟨permits, inRange⟩))
  · intro ordinaryRow
    exact ⟨.inl, fun meant => meant.resolve_right ordinaryRow⟩

open State.Revoked Run.Threads in
theorem definition_shown_to_owner :
    Reaches (step q) (fun _ _ => True) {} base ∧
    ∃ row ∈ base.messages, row.cid = "m0" ∧
      (matchesOptionalFilters row.indexes (queryFilters .owner [{ protocol := some uri }]) = true ↔
        Meant { protocol := some uri } uri row) := by
  obtain ⟨row, found⟩ := Option.isSome_iff_exists.mp
    (show (base.messages.find? fun row => row.cid = "m0").isSome = true from rfl)
  have known : (base.messages.find? fun row => row.cid = "m0").map (·.message.descriptor) =
      some (.protocolsConfigure configure) := rfl
  rw [found] at known
  have stored := List.mem_of_find?_eq_some found
  refine ⟨base_reached, row, stored, by simpa using List.find?_some found, ?_⟩
  refine (shown_as_meant_iff base_reached stored rfl (by decide) (.inl rfl)).mpr ?_
  rintro ⟨⟨d, isWrite, -⟩, -⟩
  cases (Option.some.inj known).symm.trans isWrite

open State.Revoked Run.Threads in
theorem grant_not_shown_to_owner :
    Reaches (step q) (fun _ _ => True) {} base ∧
    ∃ row ∈ base.messages, row.cid = "mg" ∧
      Meant { protocol := some uri } uri row ∧
      matchesOptionalFilters row.indexes (queryFilters .owner [{ protocol := some uri }]) = false ∧
      matchesOptionalFilters row.indexes (subscriptionFilters .owner [{ protocol := some uri }]) =
        false := by
  exact ⟨base_reached, exists_mem_of_find? (·.cid == "mg") ⟨_, rfl, rfl,
    .permission ⟨grantOf, rfl, rfl, rfl, rfl⟩ (fun _ absent => by cases absent), rfl, rfl⟩⟩

end Enbox.Proof.Messages
