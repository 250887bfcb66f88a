import Enbox.Proof.Protocols.Convergence
import Enbox.Proof.Tasks.Progress

/-! # The configuration that governs a time -/

namespace Enbox.Proof.Protocols

open Lib Run Tasks List

variable {p : Primitives} {stores : Stores} {store : MessageStore} {tenant : Did}
  {protocol : String} {message : Message} {timestamp : Timestamp}

section

variable (sound : Sound p store)

include sound

theorem first_eq_some_iff {set : FilterSet} {direction : SortDirection} :
    store.first tenant [set] (.timestamp direction) = some message ↔
      message ∈ store.query tenant [set] (.timestamp direction) ∧
      ∀ other ∈ store.query tenant [set] (.timestamp direction),
        Precedes p direction message other := by
  have least {m : Message} (found : store.first tenant [set] (.timestamp direction) = some m) :
      ∀ other ∈ store.query tenant [set] (.timestamp direction), Precedes p direction m other := by
    obtain ⟨rest, split⟩ := List.head?_eq_some_iff.mp found
    have sorted : (store.query tenant [set] (.timestamp direction)).Pairwise
        (Precedes p direction) := query_sorted sound _ _
    rw [split, pairwise_cons] at sorted
    intro other listed
    rw [split, mem_cons] at listed
    rcases listed with rfl | listed
    · cases direction
      · exact precedes_ascending.mpr le_rfl
      · exact precedes_descending.mpr le_rfl
    · exact sorted.1 other listed
  refine ⟨fun found => ⟨mem_of_mem_head? found, least found⟩, fun ⟨listed, before⟩ => ?_⟩
  obtain ⟨best, found⟩ : ∃ best, store.first tenant [set] (.timestamp direction) = some best :=
    Option.ne_none_iff_exists'.mp fun none => by
      rw [List.head?_eq_none_iff.mp none] at listed
      cases listed
  have same : age p best = age p message := by
    have forth := least found message listed
    have back := before best (mem_of_mem_head? found)
    cases direction
    · exact le_antisymm (precedes_ascending.mp forth) (precedes_ascending.mp back)
    · exact le_antisymm (precedes_descending.mp back) (precedes_descending.mp forth)
  obtain ⟨row, stored, ofTenant, rfl, -⟩ := mem_first found
  obtain ⟨other, otherStored, ofOther, rfl, -⟩ := mem_query listed
  rw [found, sound.unique row stored other otherStored (ofTenant.trans ofOther.symm)
    (by rw [sound.addressed row stored, sound.addressed other otherStored]
        exact congrArg (fun rank => (ofLex rank).2) same)]

theorem mem_lookup {asked : Option Timestamp} :
    message ∈ store.query tenant [protocolDefinitionLookupFilters protocol asked]
        (.timestamp .descending) ↔
      ∃ row ∈ store, Configures tenant protocol row ∧ row.message = message ∧
        asked.elim (IsLatest row) (row.message.messageTimestamp ≤ ·) := by
  have selected {row : Row} (filed : Filed p row) :
      matchesSet row.indexes (protocolDefinitionLookupFilters protocol asked) = true ↔
        (∃ d, row.message.descriptor = .protocolsConfigure d ∧ d.definition.protocol = protocol) ∧
          asked.elim (IsLatest row) (row.message.messageTimestamp ≤ ·) := by
    rw [← selected_configures filed]
    cases asked with
    | none =>
      obtain ⟨latest, indexed⟩ :
          ∃ latest, row.indexes.lookup .isLatestBaseState = some (.bool latest) := by
        cases filed with
        | write indexed => exact ⟨_, indexed.isLatestBaseState⟩
        | delete _ indexed => exact ⟨_, indexed.isLatestBaseState⟩
        | configure _ indexed => exact ⟨_, by rw [indexed]; rfl⟩
      simp [protocolDefinitionLookupFilters, IsLatest, indexed]
    | some timestamp =>
      simp [protocolDefinitionLookupFilters, filed.timestamp, matchesFilter, Bound.admitsLower,
        Bound.admitsUpper, compareScalars, ← Nat.isLE_compare]
  rw [mem_query_iff sound.filed]
  constructor
  · rintro ⟨row, stored, ofTenant, same, matched⟩
    obtain ⟨configures, inTime⟩ := (selected (sound.filed row stored)).mp matched
    exact ⟨row, stored, ⟨ofTenant, configures⟩, same, inTime⟩
  · rintro ⟨row, stored, ⟨ofTenant, configures⟩, same, inTime⟩
    exact ⟨row, stored, ofTenant, same, (selected (sound.filed row stored)).mpr ⟨configures, inTime⟩⟩

theorem mem_historyUpTo :
    message ∈ store.query tenant [protocolDefinitionLookupFilters protocol (some timestamp)]
        (.timestamp .descending) ↔
      HoldsConfigure store tenant protocol message ∧ message.messageTimestamp ≤ timestamp := by
  rw [mem_lookup sound]
  constructor
  · rintro ⟨row, stored, configures, rfl, early⟩
    exact ⟨⟨row, stored, configures, rfl⟩, early⟩
  · rintro ⟨⟨row, stored, configures, rfl⟩, early⟩
    exact ⟨row, stored, configures, rfl, early⟩

end

/-- The greatest of the configurations at or before the time, or the least of all. -/
def Governs (p : Primitives) (Held : Message → Prop) (asked : Option Timestamp)
    (message : Message) : Prop :=
  Held message ∧ match asked with
    | none => ∀ other, Held other → age p other ≤ age p message
    | some timestamp =>
        (message.messageTimestamp ≤ timestamp ∧
          ∀ other, Held other → other.messageTimestamp ≤ timestamp → age p other ≤ age p message) ∨
        ∀ other, Held other → timestamp < other.messageTimestamp ∧ age p message ≤ age p other

theorem governingConfiguration_iff (sound : Sound p store) :
    governingConfiguration store tenant protocol (some timestamp) = some message ↔
      Governs p (HoldsConfigure store tenant protocol) (some timestamp) message := by
  unfold governingConfiguration
  cases found : store.first tenant [protocolDefinitionLookupFilters protocol (some timestamp)]
      (.timestamp .descending) with
  | some best =>
    change some best = some message ↔ _
    rw [← found, first_eq_some_iff sound]
    simp only [mem_historyUpTo sound, precedes_descending, and_imp]
    constructor
    · rintro ⟨⟨held, early⟩, greatest⟩
      exact ⟨held, .inl ⟨early, greatest⟩⟩
    · rintro ⟨held, ⟨early, greatest⟩ | later⟩
      · exact ⟨⟨held, early⟩, greatest⟩
      · obtain ⟨heldBest, early⟩ :=
          (mem_historyUpTo sound).mp ((first_eq_some_iff sound).mp found).1
        exact absurd early (not_le.mpr (later best heldBest).1)
  | none =>
    have later (m : Message) (held : HoldsConfigure store tenant protocol m) :
        timestamp < m.messageTimestamp := by
      refine not_le.mp fun early => ?_
      have listed := (mem_historyUpTo sound).mpr ⟨held, early⟩
      rw [List.head?_eq_none_iff.mp found] at listed
      cases listed
    simp only [Option.isSome_some, if_true, first_eq_some_iff sound, mem_history sound,
      precedes_ascending]
    constructor
    · rintro ⟨held, least⟩
      exact ⟨held, .inr fun other heldOther => ⟨later other heldOther, least other heldOther⟩⟩
    · rintro ⟨held, ⟨early, -⟩ | least⟩
      · exact absurd early (not_le.mpr (later message held))
      · exact ⟨held, fun other heldOther => (least other heldOther).2⟩

theorem exists_governing (sound : Sound p store) (held : HoldsConfigure store tenant protocol message)
    (timestamp : Timestamp) :
    ∃ governing, governingConfiguration store tenant protocol (some timestamp) = some governing := by
  refine Option.ne_none_iff_exists'.mp fun none => ?_
  unfold governingConfiguration at none
  split at none
  · cases none
  · exact eq_nil_iff_forall_not_mem.mp (List.head?_eq_none_iff.mp none) message
      ((mem_history sound).mpr held)

theorem Governs.kept {Held Held' : Message → Prop}
    (governs : Governs p Held (some timestamp) message) (all : ∀ other, Held other → Held' other)
    (later : ∀ other, Held' other → Held other ∨
      timestamp < other.messageTimestamp ∧ age p message ≤ age p other) :
    Governs p Held' (some timestamp) message := by
  obtain ⟨held, ⟨early, greatest⟩ | least⟩ := governs
  · refine ⟨all _ held, .inl ⟨early, fun other holds inTime => ?_⟩⟩
    rcases later other holds with held | ⟨late, -⟩
    · exact greatest other held inTime
    · exact absurd inTime (not_le.mpr late)
  · exact ⟨all _ held, .inr fun other holds => (later other holds).elim (least other) id⟩

theorem configureRank_eq_age (held : HoldsConfigure store tenant protocol message) :
    configureRank p message = age p message := by
  obtain ⟨row, -, ⟨-, d, isConfigure, -⟩, rfl⟩ := held
  simp [configureRank, age, Message.configureDescriptor, Message.messageTimestamp, isConfigure,
    Descriptor.messageTimestamp]

section

variable (sound : Sound p stores.messages)
  (latest : LatestIsGreatest p stores.messages tenant protocol)
  (held : HoldsConfigure stores.messages tenant protocol message)

include sound latest held

theorem latestConfiguration_governs :
    ∃ governing, governingConfiguration stores.messages tenant protocol none = some governing ∧
      Governs p (HoldsConfigure stores.messages tenant protocol) none governing := by
  obtain ⟨row, greatest⟩ := latest.exists_greatest sound held
  have heldRow : HoldsConfigure stores.messages tenant protocol row.message :=
    ⟨row, greatest.stored, greatest.configures, rfl⟩
  refine ⟨row.message, ?_, heldRow, fun other heldOther => ?_⟩
  · have found : stores.messages.first tenant [protocolDefinitionLookupFilters protocol none]
        (.timestamp .descending) = some row.message := by
      refine (first_eq_some_iff sound).mpr ⟨(mem_lookup sound).mpr
        ⟨row, greatest.stored, greatest.configures, rfl, greatest.latest⟩, fun other listed => ?_⟩
      obtain ⟨same, stored, configures, rfl, isLatest⟩ := (mem_lookup sound).mp listed
      rw [greatest.unique same stored configures isLatest]
      exact precedes_descending.mpr le_rfl
    rw [governingConfiguration, found]
  · by_cases same : other = row.message
    · rw [same]
    · rw [← configureRank_eq_age heldOther, ← configureRank_eq_age heldRow]
      exact (greatest.greatest other heldOther same).le

theorem exists_fetched (ordinary : coreDefinition protocol = none) (asked : Option Timestamp) :
    ∃ message d, Governs p (HoldsConfigure stores.messages tenant protocol) asked message ∧
      message.descriptor = .protocolsConfigure d ∧
      fetchProtocolDefinition stores.messages tenant protocol asked = .ok d.definition := by
  obtain ⟨message, governing, governs⟩ : ∃ message,
      governingConfiguration stores.messages tenant protocol asked = some message ∧
        Governs p (HoldsConfigure stores.messages tenant protocol) asked message := by
    cases asked with
    | none => exact latestConfiguration_governs sound latest held
    | some timestamp =>
      obtain ⟨message, governing⟩ := exists_governing sound held timestamp
      exact ⟨message, governing, (governingConfiguration_iff sound).mp governing⟩
  have configures := governs.1
  obtain ⟨_, -, ⟨-, d, isConfigure, -⟩, rfl⟩ := configures
  refine ⟨_, d, governs, isConfigure, ?_⟩
  simp [fetchProtocolDefinition, ordinary, governing,
    Message.configureDescriptor_eq_some.mpr isConfigure, okOr]

end

/-- Whatever the order in which configurations of a protocol that is not built in are accepted, its
definition is that of the greatest one up to the time asked about, or else of the least. Later ones
do not change it. -/
theorem definition_resolved_by_time {tenant : Did} {protocol : String} {stores : Stores}
    (reached : Reaches (step p) (fun _ _ => True) {} stores) {requests : List Request}
    (nonempty : requests ≠ [])
    (accepted : AllowedAlong (step p) (AcceptsConfigure p tenant protocol) stores
      (requests.map .request)) (ordinary : coreDefinition protocol = none) :
    (∀ asked, ∃ message d,
      Governs p (fun message => HoldsConfigure stores.messages tenant protocol message ∨
        message ∈ requests.map (·.message)) asked message ∧
      message.descriptor = .protocolsConfigure d ∧
      fetchProtocolDefinition ((requests.map .request).foldl (step p) stores).messages tenant protocol
        asked = .ok d.definition) ∧
    ∀ timestamp, (∃ message, HoldsConfigure stores.messages tenant protocol message ∧
        message.messageTimestamp ≤ timestamp) →
      (∀ request ∈ requests, timestamp < request.message.messageTimestamp) →
      fetchProtocolDefinition ((requests.map .request).foldl (step p) stores).messages tenant protocol
          (some timestamp) =
        fetchProtocolDefinition stores.messages tenant protocol (some timestamp) := by
  have sound := sound_of_reaches sound_nil reached
  have soundAfter := sound_of_reaches sound accepted.reaches
  have held : HoldsConfigure ((requests.map .request).foldl (step p) stores).messages tenant
      protocol = fun message => HoldsConfigure stores.messages tenant protocol message ∨
        message ∈ requests.map (·.message) :=
    funext fun _ => propext (holds_of_accepted sound accepted)
  constructor
  · obtain ⟨request, listed⟩ := exists_mem_of_ne_nil requests nonempty
    have holds := (holds_of_accepted sound accepted).mpr (.inr (mem_map_of_mem listed))
    rw [← held]
    exact exists_fetched soundAfter (latestIsGreatest_of_accepted sound accepted nonempty) holds ordinary
  · rintro timestamp ⟨early, heldEarly, inTime⟩ later
    obtain ⟨message, governing⟩ := exists_governing sound heldEarly timestamp
    have governs := (governingConfiguration_iff sound).mp governing
    have kept : Governs p (HoldsConfigure ((requests.map .request).foldl (step p) stores).messages
        tenant protocol) (some timestamp) message := by
      rw [held]
      refine governs.kept (fun _ => .inl) fun m holds => holds.imp_right fun listed => ?_
      obtain ⟨request, requested, rfl⟩ := mem_map.mp listed
      refine ⟨later request requested, ?_⟩
      rcases governs.2 with ⟨before, -⟩ | least
      · exact (Prod.Lex.toLex_lt_toLex.mpr (.inl (before.trans_lt (later request requested)))).le
      · exact absurd inTime (not_le.mpr (least early heldEarly).1)
    simp only [fetchProtocolDefinition, ordinary, governing,
      (governingConfiguration_iff soundAfter).mpr kept]

open Settled in
theorem first_threads_govern_earlier :
    ∃ message d, Governs Settled.script.primitives (fun message => HoldsConfigure
        ({} : Stores).messages "did:ex:alice" Threads.uri message ∨
          message ∈ requests.map (·.message)) (some 1) message ∧
      message.descriptor = .protocolsConfigure d ∧
      fetchProtocolDefinition ((requests.map .request).foldl (step Settled.script.primitives)
        {}).messages "did:ex:alice" Threads.uri (some 1) = .ok d.definition :=
  (definition_resolved_by_time .refl (cons_ne_nil _ _) Settled.requests_accepted rfl).1 (some 1)

namespace BuiltIn

def descriptor : ConfigureDescriptor where
  messageTimestamp := 1
  definition := { permissionsProtocolDefinition with published := false }

def unlisted : Message := Settled.message descriptor "core"

def script : Concrete.Script :=
  Concrete.parties.adding unlisted "d0" "m0"

end BuiltIn

open BuiltIn in
theorem built_in_definition_not_replaced :
    BuiltIn.script.primitives.CollisionFree ∧
    ∃ stores, processMessage BuiltIn.script.primitives {} (Threads.request unlisted "") =
        (accepted, stores) ∧
      HoldsConfigure stores.messages "did:ex:alice" permissionsProtocolUri unlisted ∧
      fetchProtocolDefinition stores.messages "did:ex:alice" permissionsProtocolUri none =
        .ok permissionsProtocolDefinition ∧
      permissionsProtocolDefinition ≠ descriptor.definition :=
  ⟨BuiltIn.script.collisionFree (by decide) (by decide), _, rfl,
    ⟨_, mem_cons_self, ⟨rfl, _, rfl, rfl⟩, rfl⟩, rfl, by decide⟩

end Enbox.Proof.Protocols
