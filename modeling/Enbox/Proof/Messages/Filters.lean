import Enbox.Messages.Access
import Enbox.Proof.Run.Sound
import Enbox.Store.FeedReader

/-! # What message filters select -/

namespace Enbox.Proof.Messages

open Lib Run List

variable {indexes : Indexes} {filter : MessagesFilter} {key : IndexKey} {path : Option Path}
  {row : Row}

theorem matchesSet_inserted (inserted : FilterMap) :
    matchesSet indexes (FilterMap.toSet (assocInsertAll inserted [])) = true ↔
      ∀ key clause, inserted.reverse.lookup key = some clause →
        clauseHolds matchesFilter indexes (filterKey key, clause) = true := by
  have empty : DistinctKeys ([] : FilterMap) := nodup_nil
  have distinct := empty.assocInsertAll inserted
  have lookup (key : FilterKey) : (assocInsertAll inserted ([] : FilterMap)).lookup key =
      inserted.reverse.lookup key := by
    rw [lookup_assocInsertAll, lookup_nil, Option.or_none]
  simp only [matchesSet, filterSetHolds_iff, FilterMap.toSet, forall_mem_map, Prod.forall,
    mem_iff_lookup distinct, lookup]

def pathClause (filter : MessagesFilter) : Option Filter :=
  (filter.protocolPathPrefix.map .subtree).or (filter.protocolPath.map pathFilter)

structure Selects (filter : MessagesFilter) (indexes : Indexes) : Prop where
  interface : ∀ text ∈ filter.interface,
    clauseHolds matchesFilter indexes (.interface, stringFilter text) = true
  method : ∀ text ∈ filter.method,
    clauseHolds matchesFilter indexes (.method, stringFilter text) = true
  protocol : ∀ protocol ∈ filter.protocol,
    clauseHolds matchesFilter indexes (.protocol, stringFilter protocol) = true
  protocolPath : ∀ clause ∈ pathClause filter,
    clauseHolds matchesFilter indexes (.protocolPath, clause) = true
  contextId : ∀ root ∈ filter.contextIdPrefix,
    clauseHolds matchesFilter indexes (.contextId, .subtree root) = true
  timestamp : ∀ range ∈ filter.messageTimestamp,
    clauseHolds matchesFilter indexes (.messageTimestamp, .range range.lower range.upper) = true

theorem lookup_clauses (filter : MessagesFilter) (key : FilterKey) :
    filter.clauses.reverse.lookup key =
      match key with
      | .index .interface => filter.interface.map stringFilter
      | .index .method => filter.method.map stringFilter
      | .index .protocol => filter.protocol.map stringFilter
      | .index .protocolPath => pathClause filter
      | .index .contextId => filter.contextIdPrefix.map .subtree
      | .index .messageTimestamp =>
          filter.messageTimestamp.map fun range => .range range.lower range.upper
      | _ => none := by
  simp only [MessagesFilter.clauses, messagesStringFilter, messageRangeFilter, reverse_append,
    lookup_append, lookup_optional]
  cases key with
  | index name => cases name <;> simp [pathClause, Function.comp_def]
  | tag name => simp

theorem matchesSet_clauses :
    matchesSet indexes (FilterMap.toSet (assocInsertAll filter.clauses [])) = true ↔
      Selects filter indexes := by
  rw [matchesSet_inserted]
  constructor
  · intro holds
    exact ⟨fun text asked => holds (.index .interface) _ (by
        simp [lookup_clauses, Option.mem_def.mp asked]),
      fun text asked => holds (.index .method) _ (by
        simp [lookup_clauses, Option.mem_def.mp asked]),
      fun protocol asked => holds (.index .protocol) _ (by
        simp [lookup_clauses, Option.mem_def.mp asked]),
      fun clause asked => holds (.index .protocolPath) _ (by
        simp [lookup_clauses, Option.mem_def.mp asked]),
      fun root asked => holds (.index .contextId) _ (by
        simp [lookup_clauses, Option.mem_def.mp asked]),
      fun range asked => holds (.index .messageTimestamp) _ (by
        simp [lookup_clauses, Option.mem_def.mp asked])⟩
  · intro selects key clause found
    rw [lookup_clauses] at found
    split at found
    · obtain ⟨text, asked, rfl⟩ := Option.map_eq_some_iff.mp found
      exact selects.interface text asked
    · obtain ⟨text, asked, rfl⟩ := Option.map_eq_some_iff.mp found
      exact selects.method text asked
    · obtain ⟨protocol, asked, rfl⟩ := Option.map_eq_some_iff.mp found
      exact selects.protocol protocol asked
    · exact selects.protocolPath clause found
    · obtain ⟨root, asked, rfl⟩ := Option.map_eq_some_iff.mp found
      exact selects.contextId root asked
    · obtain ⟨range, asked, rfl⟩ := Option.map_eq_some_iff.mp found
      exact selects.timestamp range asked
    · cases found

theorem matchesOptionalFilters_compiled {filters : List MessagesFilter} (nonempty : filters ≠ [])
    {includeShadowFilters : Bool} :
    matchesOptionalFilters indexes (messagesFiltersToFilters filters includeShadowFilters) = true ↔
      ∃ filter ∈ filters, ∃ map ∈ messagesFilterToFilterMaps filter includeShadowFilters,
        matchesSet indexes (FilterMap.toSet map) = true := by
  have notEmpty : filters.isEmpty = false := by simpa using nonempty
  obtain ⟨first, listed⟩ := exists_mem_of_ne_nil filters nonempty
  have compiled : filters.flatMap (messagesFilterToFilterMaps · includeShadowFilters) ≠ [] :=
    ne_nil_of_mem (mem_flatMap.mpr ⟨first, listed, mem_cons_self⟩)
  simp only [messagesFiltersToFilters, notEmpty, Bool.false_eq_true, if_false,
    matchesOptionalFilters, Option.all_some, matchesFilters_iff, map_eq_nil_iff, compiled,
    false_or, mem_map, mem_flatMap]
  constructor
  · rintro ⟨_, ⟨map, ⟨filter, isFilter, isMap⟩, rfl⟩, holds⟩
    exact ⟨filter, isFilter, map, isMap, holds⟩
  · rintro ⟨filter, isFilter, map, isMap, holds⟩
    exact ⟨_, ⟨map, ⟨filter, isFilter, isMap⟩, rfl⟩, holds⟩

def interfaceOf (row : Row) : String :=
  match row.message.descriptor with
  | .protocolsConfigure _ => protocolsInterface
  | _ => recordsInterface

def methodOf (row : Row) : String :=
  match row.message.descriptor with
  | .recordsWrite _ => writeMethod
  | .recordsDelete _ => deleteMethod
  | _ => configureMethod

def pathIndex (indexes : Indexes) (key : IndexKey) : Option Path :=
  match indexes.lookup key with
  | some (.scalar (.path path)) => some path
  | _ => none

theorem pathIndex_eq (indexed : indexes.lookup key = path.map .path) :
    pathIndex indexes key = path := by
  rw [pathIndex, indexed]
  cases path <;> rfl

def protocolOf (row : Row) : Option String :=
  match row.message.descriptor with
  | .recordsWrite d => some d.protocol
  | .protocolsConfigure d => some d.definition.protocol
  | _ => stringIndex row.indexes .protocol

def pathOf (row : Row) : Option Path :=
  match row.message.descriptor with
  | .recordsWrite d => some d.protocolPath
  | .protocolsConfigure _ => none
  | _ => pathIndex row.indexes .protocolPath

def contextOf (row : Row) : Option Path :=
  match row.message.descriptor with
  | .recordsWrite _ => row.message.contextId
  | .protocolsConfigure _ => none
  | _ => pathIndex row.indexes .contextId

structure Seen (row : Row) : Prop where
  interface : row.indexes.lookup .interface = some (.string (interfaceOf row))
  method : row.indexes.lookup .method = some (.string (methodOf row))
  protocol : ∃ protocol, protocolOf row = some protocol ∧
    row.indexes.lookup .protocol = some (.string protocol)
  protocolPath : row.indexes.lookup .protocolPath = (pathOf row).map .path
  contextId : row.indexes.lookup .contextId = (contextOf row).map .path
  timestamp : row.indexes.lookup .messageTimestamp = some (.dateTime row.message.messageTimestamp)

theorem seen_of_filed {p : Primitives} (filed : Filed p row) : Seen row := by
  have timestamp := filed.timestamp
  cases filed with
  | write indexed =>
    refine ⟨?_, ?_, ?_, ?_, ?_, timestamp⟩ <;>
      simp [interfaceOf, methodOf, protocolOf, pathOf, contextOf, indexed.descriptor,
        indexed.interface, indexed.method, indexed.protocol, indexed.protocolPath,
        indexed.contextId]
  | delete bare indexed =>
    have path : pathIndex row.indexes .protocolPath = some _ := pathIndex_eq indexed.protocolPath
    have context := pathIndex_eq indexed.contextId
    refine ⟨?_, ?_, ?_, ?_, ?_, timestamp⟩ <;>
      simp [interfaceOf, methodOf, protocolOf, pathOf, contextOf, stringIndex, path, context,
        indexed.isDelete, indexed.interface, indexed.method, indexed.protocol,
        indexed.protocolPath, indexed.contextId]
  | configure isConfigure indexed =>
    refine ⟨?_, ?_, ?_, ?_, ?_, timestamp⟩ <;>
      simp [interfaceOf, methodOf, protocolOf, pathOf, contextOf, isConfigure, indexed,
        configureIndexes, lookup_append, lookup_cons_eq_ite]

def InRange (filter : MessagesFilter) (timestamp : Timestamp) : Prop :=
  ∀ range ∈ filter.messageTimestamp, range.lower.admitsLower (.dateTime timestamp) = true ∧
    range.upper.admitsUpper (.dateTime timestamp) = true

structure Wanted (filter : MessagesFilter) (row : Row) : Prop where
  interface : ∀ text ∈ filter.interface, interfaceOf row = text
  method : ∀ text ∈ filter.method, methodOf row = text
  protocol : ∀ protocol ∈ filter.protocol, protocolOf row = some protocol
  pathPrefix : ∀ root ∈ filter.protocolPathPrefix, ∃ path ∈ pathOf row, underPath root path = true
  path : filter.protocolPathPrefix = none → ∀ path ∈ filter.protocolPath, pathOf row = some path
  contextId : ∀ root ∈ filter.contextIdPrefix, ∃ id ∈ contextOf row, underPath root id = true
  timestamp : InRange filter row.message.messageTimestamp

theorem clauseHolds_text {text asked : String} (found : indexes.lookup key = some (.string text)) :
    clauseHolds matchesFilter indexes (key, stringFilter asked) = true ↔ text = asked := by
  simp [clauseHolds, found, matchesFilter]

theorem clauseHolds_subtree {root : Path} (found : indexes.lookup key = path.map .path) :
    clauseHolds matchesFilter indexes (key, .subtree root) = true ↔
      ∃ inside ∈ path, underPath root inside = true := by
  cases path <;> simp [clauseHolds, found, matchesFilter]

theorem clauseHolds_range {timestamp : Timestamp} {range : RangeFilter Scalar}
    (found : indexes.lookup key = some (.dateTime timestamp)) :
    clauseHolds matchesFilter indexes (key, .range range.lower range.upper) = true ↔
      range.lower.admitsLower (.dateTime timestamp) = true ∧
        range.upper.admitsUpper (.dateTime timestamp) = true := by
  simp [clauseHolds, found, matchesFilter]

theorem pathClause_holds (filter : MessagesFilter) (found : indexes.lookup key = path.map .path) :
    (∀ clause ∈ pathClause filter, clauseHolds matchesFilter indexes (key, clause) = true) ↔
      (∀ root ∈ filter.protocolPathPrefix, ∃ inside ∈ path, underPath root inside = true) ∧
        (filter.protocolPathPrefix = none → ∀ asked ∈ filter.protocolPath, path = some asked) := by
  cases hasPrefix : filter.protocolPathPrefix with
  | none => cases path <;> simp [pathClause, hasPrefix, clauseHolds, found, matchesFilter]
  | some root => simp [pathClause, hasPrefix, clauseHolds_subtree found]

theorem selects_iff_wanted (seen : Seen row) :
    Selects filter row.indexes ↔ Wanted filter row := by
  obtain ⟨protocol, ofRow, indexed⟩ := seen.protocol
  have path := pathClause_holds filter seen.protocolPath
  constructor
  · intro selects
    exact {
      interface := fun text asked => (clauseHolds_text seen.interface).mp (selects.interface text asked)
      method := fun text asked => (clauseHolds_text seen.method).mp (selects.method text asked)
      protocol := fun asked isAsked =>
        ofRow.trans (congrArg some ((clauseHolds_text indexed).mp (selects.protocol asked isAsked)))
      pathPrefix := (path.mp selects.protocolPath).1
      path := (path.mp selects.protocolPath).2
      contextId := fun root asked =>
        (clauseHolds_subtree seen.contextId).mp (selects.contextId root asked)
      timestamp := fun range asked =>
        (clauseHolds_range seen.timestamp).mp (selects.timestamp range asked) }
  · intro wanted
    exact {
      interface := fun text asked =>
        (clauseHolds_text seen.interface).mpr (wanted.interface text asked)
      method := fun text asked => (clauseHolds_text seen.method).mpr (wanted.method text asked)
      protocol := fun asked isAsked => (clauseHolds_text indexed).mpr
        (Option.some.inj (ofRow.symm.trans (wanted.protocol asked isAsked)))
      protocolPath := path.mpr ⟨wanted.pathPrefix, wanted.path⟩
      contextId := fun root asked =>
        (clauseHolds_subtree seen.contextId).mpr (wanted.contextId root asked)
      timestamp := fun range asked =>
        (clauseHolds_range seen.timestamp).mpr (wanted.timestamp range asked) }

theorem matchesSet_own (seen : Seen row) :
    matchesSet row.indexes (FilterMap.toSet (assocInsertAll filter.clauses [])) = true ↔
      Wanted filter row :=
  matchesSet_clauses.trans (selects_iff_wanted seen)

end Enbox.Proof.Messages
