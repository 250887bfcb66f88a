import Enbox.Proof.Messages.Filters
import Enbox.Proof.State.Revocation

/-! # What Messages grants let their holder follow -/

namespace Enbox.Proof.Messages

open Lib Run List PermissionScope

variable {scope : PermissionScope} {filters : List MessagesFilter}

structure Contains (scope : PermissionScope) (row : Row) : Prop where
  protocol : ∀ protocol ∈ scope.protocol, protocolOf row = some protocol
  contextId : ∀ root ∈ scope.contextId, ∃ id ∈ contextOf row, underPath root id = true
  protocolPath : ∀ root ∈ scope.protocolPath, ∃ path ∈ pathOf row, underPath root path = true

theorem underPath_trans {a b c : Path} (first : underPath a b = true) (second : underPath b c = true) :
    underPath a c = true := by
  rw [underPath, isPrefixOf_iff_prefix] at *
  exact first.trans second

theorem matchesProtocolTarget_iff {target : ProtocolScopeTarget} :
    scope.matchesProtocolTarget target = true ↔
      (∀ protocol ∈ scope.protocol, target.protocol = some protocol) ∧
      (∀ root ∈ scope.contextId, ∃ id ∈ target.contextId, underPath root id = true) ∧
      ∀ root ∈ scope.protocolPath, ∃ path ∈ target.protocolPath, underPath root path = true := by
  have protocol : (scope.protocol.isNone || decide (scope.protocol = target.protocol)) = true ↔
      ∀ protocol ∈ scope.protocol, target.protocol = some protocol := by
    cases scope.protocol <;> simp [eq_comm]
  simp only [matchesProtocolTarget, matchesSubtree,
    Bool.and_eq_true, protocol, Option.all_eq_true, Option.any_eq_true, and_assoc]
  rfl

section

variable {p : Primitives} {grants : List PermissionGrant} {filter : MessagesFilter} {row : Row}

theorem contains_of_wanted (wanted : Wanted filter row)
    (covered : scope.matchesProtocolTarget filter.scopeTarget = true)
    (noPath : filter.protocolPath = none) : Contains scope row := by
  obtain ⟨protocol, context, path⟩ := matchesProtocolTarget_iff.mp covered
  refine ⟨fun asked inScope => wanted.protocol asked (protocol asked inScope),
    fun root inScope => ?_, fun root inScope => ?_⟩
  · obtain ⟨id, asked, below⟩ := context root inScope
    obtain ⟨inside, ofRow, within⟩ := wanted.contextId id asked
    exact ⟨inside, ofRow, underPath_trans below within⟩
  · obtain ⟨asked, isAsked, below⟩ := path root inScope
    have isPrefix : filter.protocolPathPrefix = some asked := by
      simpa [MessagesFilter.scopeTarget, noPath] using isAsked
    obtain ⟨inside, ofRow, within⟩ := wanted.pathPrefix asked isPrefix
    exact ⟨inside, ofRow, underPath_trans below within⟩

theorem noPath_of_admitted (admitted : admitMessagesFilter filter = .ok ()) :
    filter.protocolPath = none := by
  simp only [admitMessagesFilter, ok_iff] at admitted
  obtain ⟨_, -, _, noPath, -⟩ := admitted
  exact noPath

theorem authorizeMessagesFilterScope_ok {access : MessagesGrantAccess}
    (accepted : authorizeMessagesFilterScope grants filters = .ok access) :
    (filters = [] ∧ hasUnscopedGrants grants = true ∧ access.metadataOnly = false) ∨
      (filters ≠ [] ∧ (∀ filter ∈ filters, coversFilter grants filter = true) ∧
        access.metadataOnly = !hasUnscopedGrants grants) := by
  unfold authorizeMessagesFilterScope at accepted
  cases filters with
  | nil =>
    simp only [isEmpty_nil, if_true, ok_iff] at accepted
    obtain ⟨_, unscoped, rfl⟩ := accepted
    exact .inl ⟨rfl, unscoped, rfl⟩
  | cons first rest =>
    simp only [isEmpty_cons, Bool.false_eq_true, if_false, ok_iff,
      all_eq_true] at accepted
    obtain ⟨_, covered, rfl⟩ := accepted
    exact .inr ⟨by simp, covered, rfl⟩

theorem contains_of_unscoped (unscoped : scope.isUnscoped = true) (row : Row) :
    Contains scope row := by
  unfold isUnscoped at unscoped
  split at unscoped
  · constructor <;> simp [PermissionScope.protocol, contextId,
      protocolPath]
  · cases unscoped

theorem matchesOptionalFilters_own (nonempty : filters ≠ []) (seen : Seen row) :
    matchesOptionalFilters row.indexes (messagesFiltersToFilters filters false) = true ↔
      ∃ filter ∈ filters, Wanted filter row := by
  simp [matchesOptionalFilters_compiled nonempty, messagesFilterToFilterMaps, matchesSet_own seen]

end

/-- Every message that accepted filters select is in the scope of a grant. The path of a filter would
be authorised and its prefix enforced, but no filter that names a path is admitted. -/
theorem selected_in_scope (p : Primitives) {grants : List PermissionGrant}
    {filters : List MessagesFilter} {access : MessagesGrantAccess}
    (admitted : ∀ filter ∈ filters, admitMessagesFilter filter = .ok ())
    (accepted : authorizeMessagesFilterScope grants filters = .ok access) :
    (access.metadataOnly = false → ∃ grant ∈ grants, grant.scope.isUnscoped = true) ∧
    ∀ row, Filed p row →
      matchesOptionalFilters row.indexes (messagesFiltersToFilters filters false) = true →
      ∃ grant ∈ grants, Contains grant.scope row := by
  rcases authorizeMessagesFilterScope_ok accepted with
    ⟨rfl, unscoped, -⟩ | ⟨nonempty, covered, isAccess⟩
  · obtain ⟨grant, granted, isUnscoped⟩ := any_eq_true.mp unscoped
    exact ⟨fun _ => ⟨grant, granted, isUnscoped⟩,
      fun row _ _ => ⟨grant, granted, contains_of_unscoped isUnscoped row⟩⟩
  · have unscoped (full : access.metadataOnly = false) : hasUnscopedGrants grants = true := by
      simpa [full] using isAccess
    refine ⟨fun full => any_eq_true.mp (unscoped full), fun row filed selected => ?_⟩
    obtain ⟨filter, listed, wanted⟩ :=
      (matchesOptionalFilters_own nonempty (seen_of_filed filed)).mp selected
    obtain ⟨grant, granted, covers⟩ := any_eq_true.mp (covered filter listed)
    exact ⟨grant, granted,
      contains_of_wanted wanted covers (noPath_of_admitted (admitted filter listed))⟩

namespace Following

open Concrete Run.Threads
open State.Revoked (grant)

def threadScope : PermissionScope := .messages (some uri) (some (.protocolPath ["thread"]))

def script : Script :=
  { State.Revoked.script with
    grants := [("grant", { dateExpires := 20, scope := threadScope })] }

noncomputable abbrev q : Primitives := script.primitives

noncomputable def stores : Stores :=
  [.request (request configureMessage ""), .request (request grant "grant"),
    .request (request one "one")].foldl (step q) {}

theorem stores_reached : Reaches (step q) (fun _ _ => True) {} stores :=
  AllowedAlong.reaches ⟨trivial, trivial, trivial, trivial⟩

def held : PermissionGrant where
  id := "G"
  grantor := "did:ex:alice"
  grantee := "did:ex:bob"
  dateGranted := 3
  dateExpires := 20
  delegated := none
  scope := threadScope
  conditions := none
  connectSession := none

def query (filter : MessagesFilter) : Message where
  descriptor := .messagesQuery
    { messageTimestamp := 9, filters := [filter], permissionGrantIds := some ["G"] }
  fields := {}

def bob : AuthorizationContext where
  signer := "did:ex:bob"
  author := "did:ex:bob"
  payload := .generic { descriptorCid := "", permissionGrantIds := some ["G"] }
  permissionGrantInvocation := .multi ["G"]
  authorDelegatedGrant := none
  owner := none

def threads : MessagesFilter where
  protocol := some uri
  protocolPathPrefix := some ["thread"]

end Following

open Following in
theorem thread_in_scope :
    fetchAndValidateMessagesGrants q stores.messages "did:ex:alice" (query threads) bob =
      .ok [held] ∧
    admitMessage (query threads) = .ok () ∧
    authorizeMessagesFilterScope [held] [threads] = .ok ⟨true⟩ ∧
    ∃ row ∈ stores.messages, row.cid = "m3" ∧
      matchesOptionalFilters row.indexes (messagesFiltersToFilters [threads] false) = true ∧
      ∃ grant ∈ [held], Contains grant.scope row := by
  obtain ⟨row, stored, isThread, selected⟩ : ∃ row ∈ stores.messages, row.cid = "m3" ∧
      matchesOptionalFilters row.indexes (messagesFiltersToFilters [threads] false) = true :=
    exists_mem_of_find? (·.cid == "m3") ⟨_, rfl, rfl, rfl⟩
  have filed := (sound_of_reaches sound_nil stores_reached).filed row stored
  exact ⟨rfl, rfl, rfl, row, stored, isThread, selected,
    (selected_in_scope q (fun _ listed => by cases mem_singleton.mp listed; rfl) rfl).2 row filed
      selected⟩

end Enbox.Proof.Messages
