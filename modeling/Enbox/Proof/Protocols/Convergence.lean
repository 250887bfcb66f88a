import Enbox.Proof.Run.Latest
import Enbox.Proof.Run.Threads

/-! # Configurations converge -/

namespace Enbox.Proof.Protocols

open Lib Run List

variable {p : Primitives} {stores : Stores} {tenant : Did} {protocol : String} {row : Row}
  {d : ConfigureDescriptor} {author : Did} {retains : List LatestStateMutation}

def Configures (tenant : Did) (protocol : String) (row : Row) : Prop :=
  row.tenant = tenant ∧ ∃ d, row.message.descriptor = .protocolsConfigure d ∧
    d.definition.protocol = protocol

def HoldsConfigure (store : MessageStore) (tenant : Did) (protocol : String) (message : Message) :
    Prop :=
  ∃ row ∈ store, Configures tenant protocol row ∧ row.message = message

def configureRank (p : Primitives) (message : Message) : Nat ×ₗ String :=
  toLex ((message.configureDescriptor.map (·.messageTimestamp)).getD 0, p.messageCid message)

theorem compareConfigureMessages_eq_compare (p : Primitives) (a b : Message) :
    compareConfigureMessages p a b = compare (configureRank p a) (configureRank p b) := by
  rw [compareConfigureMessages, configureRank, configureRank, compare_toLex, compareText_eq_compare]

theorem incomingIsLatest_iff {incoming : Message} {existing : List Message} :
    incomingIsLatest p incoming existing = true ↔
      ∀ message ∈ existing, configureRank p message < configureRank p incoming := by
  simp [incomingIsLatest, compareConfigureMessages_eq_compare, compare_gt_iff_gt]

theorem selected_configures (filed : Filed p row) :
    matchesSet row.indexes (protocolDefinitionHistoryFilters protocol) = true ↔
      ∃ d, row.message.descriptor = .protocolsConfigure d ∧ d.definition.protocol = protocol := by
  cases filed with
  | write indexed =>
    simp [protocolDefinitionHistoryFilters, indexed.interface, indexed.descriptor, recordsInterface,
      protocolsInterface]
  | delete _ indexed =>
    simp [protocolDefinitionHistoryFilters, indexed.interface, indexed.isDelete, recordsInterface,
      protocolsInterface]
  | configure isConfigure indexed =>
    simp [protocolDefinitionHistoryFilters, indexed, isConfigure, configureIndexes,
      lookup_cons_eq_ite]

theorem mem_history {store : MessageStore} (sound : Sound p store) {direction : SortDirection}
    {message : Message} :
    message ∈ store.query tenant [protocolDefinitionHistoryFilters protocol]
        (.timestamp direction) ↔ HoldsConfigure store tenant protocol message := by
  rw [mem_query_iff sound.filed]
  constructor
  · rintro ⟨row, stored, ofTenant, same, matched⟩
    exact ⟨row, stored, ⟨ofTenant, (selected_configures (sound.filed row stored)).mp matched⟩, same⟩
  · rintro ⟨row, stored, ⟨ofTenant, configures⟩, same⟩
    exact ⟨row, stored, ofTenant, same,
      (selected_configures (sound.filed row stored)).mpr configures⟩

theorem mem_configurations (sound : Sound p stores.messages) {message : Message} :
    message ∈ stores.messages.query tenant [protocolConfigureFilters protocol false] ↔
      HoldsConfigure stores.messages tenant protocol message := by
  rw [protocolConfigureFilters, if_neg (by decide), append_nil]
  exact mem_history sound

/-! ## One configuration -/

abbrev configurations (stores : Stores) (tenant : Did) (d : ConfigureDescriptor) : List Message :=
  stores.messages.query tenant [protocolConfigureFilters d.definition.protocol false]

def latestOf (p : Primitives) (messages : List Message) : Option Cid :=
  (maxBy (compareConfigureMessages p) messages).map p.messageCid

structure Configured (p : Primitives) (stores : Stores) (request : Request)
    (d : ConfigureDescriptor) (author : Did) (retains : List LatestStateMutation) : Prop where
  fresh : p.messageCid request.message ∉ (configurations stores request.tenant d).map p.messageCid
  reindexed : (configurations stores request.tenant d).mapM (reindexConfigure p
    (incomingIsLatest p request.message (configurations stores request.tenant d))
    (latestOf p (configurations stores request.tenant d))) = .ok retains
  commits : stores.messages.commitLatestState p request.tenant
    { put := ⟨request.message, configureIndexes d (some author)
        (incomingIsLatest p request.message (configurations stores request.tenant d))⟩
      retains } = .ok (processMessage p stores request).2.messages

theorem commitConfigure_refuses (p : Primitives) (store : MessageStore) (tenant : Did)
    (resolver : Option DidResolver) (message : Message) (d : ConfigureDescriptor) :
    FailsWith Refused (commitConfigure p store tenant resolver message d) := by
  refine FailsWith.bind (requireSignature_refuses _ _ _ _) fun auth => ?_
  refine FailsWith.bind (failsWith_ensure rfl) fun _ => ?_
  iterate 3 refine FailsWith.bind (always_refuses _) fun _ => ?_
  refine FailsWith.bind (failsWith_replying validationStatus_refuses _) fun _ => ?_
  refine FailsWith.bind (always_refuses _) fun _ => ?_
  exact always_refuses _

theorem configured_of_success {request : Request}
    (isConfigure : request.message.descriptor = .protocolsConfigure d)
    (success : (processMessage p stores request).1.isSuccess = true) :
    ∃ author retains, Configured p stores request d author retains := by
  cases admits : admitMessage request.message with
  | error failure =>
    simp [processMessage, admits, badRequest, Status.isSuccess] at success
  | ok _ =>
    have handled : processMessage p stores request =
        handleConfigure p request.resolver stores request.tenant request.message d := by
      simp only [processMessage, admits, isConfigure]
    cases commits : commitConfigure p stores.messages request.tenant request.resolver
        request.message d with
    | error status =>
      have refused := commitConfigure_refuses p stores.messages request.tenant request.resolver
        request.message d status commits
      simp only [handled, handleConfigure, commits] at success
      rw [Refused, success] at refused
      cases refused
    | ok committed =>
      have after : (processMessage p stores request).2.messages = committed := by
        simp only [handled, handleConfigure, commits]
      simp only [commitConfigure, planConfigureTransition, replying, ok_iff,
        Message.configureDescriptor_eq_some.mpr isConfigure] at commits
      obtain ⟨auth, -, _, fresh, _, -, _, -, _, -, _, -, _, ⟨_, same, retains, reindexed, rfl⟩,
        commits⟩ := commits
      cases same
      exact ⟨auth.author, retains, fresh, reindexed, after ▸ commits⟩

theorem isLatest_rowOf {message : Message} {author : Option Did} {latest : Bool} :
    IsLatest (rowOf p tenant ⟨message, configureIndexes d author latest⟩) ↔ latest = true := by
  simp [IsLatest, rowOf, configureIndexes, lookup_cons_eq_ite]

def Reindexed (p : Primitives) (tenant : Did) (incoming : Message) (existing : List Message)
    (row : Row) : Prop :=
  ∃ message ∈ existing, ∃ d, message.descriptor = .protocolsConfigure d ∧
    row = rowOf p tenant ⟨message, configureIndexes d (messageAuthor p message)
      (!incomingIsLatest p incoming existing && latestOf p existing = some (p.messageCid message))⟩

section

variable {request : Request}

theorem Configured.mem_retains (configured : Configured p stores request d author retains) :
    (∃ mutation ∈ retains, row = rowOf p request.tenant mutation) ↔
      Reindexed p request.tenant request.message (configurations stores request.tenant d) row := by
  constructor
  · rintro ⟨mutation, retained, rfl⟩
    obtain ⟨message, listed, reindexed⟩ := mem_of_mapM_ok configured.reindexed retained
    simp only [reindexConfigure, ok_iff, Message.configureDescriptor_eq_some] at reindexed
    obtain ⟨descriptor, isConfigure, rfl⟩ := reindexed
    exact ⟨message, listed, descriptor, isConfigure, rfl⟩
  · rintro ⟨message, listed, descriptor, isConfigure, rfl⟩
    obtain ⟨mutation, retained, reindexed⟩ := exists_of_mapM_ok configured.reindexed listed
    simp only [reindexConfigure, ok_iff, Message.configureDescriptor_eq_some] at reindexed
    obtain ⟨_, same, rfl⟩ := reindexed
    cases isConfigure.symm.trans same
    exact ⟨_, retained, rfl⟩

theorem Configured.rows (configured : Configured p stores request d author retains)
    (isConfigure : request.message.descriptor = .protocolsConfigure d)
    (sound : Sound p stores.messages) :
    row ∈ (processMessage p stores request).2.messages ∧
        Configures request.tenant d.definition.protocol row ↔
      row = rowOf p request.tenant ⟨request.message, configureIndexes d (some author)
        (incomingIsLatest p request.message (configurations stores request.tenant d))⟩ ∨
      Reindexed p request.tenant request.message (configurations stores request.tenant d) row := by
  have cidListed {message : Message} (listed : message ∈ configurations stores request.tenant d) :
      p.messageCid message ∈ retains.map fun m => p.messageCid m.message := by
    obtain ⟨mutation, retained, reindexed⟩ := exists_of_mapM_ok configured.reindexed listed
    simp only [reindexConfigure, ok_iff] at reindexed
    obtain ⟨_, -, rfl⟩ := reindexed
    exact mem_map.mpr ⟨_, retained, rfl⟩
  rw [mem_commitLatestState_iff configured.commits, configured.mem_retains]
  constructor
  · rintro ⟨put | retained | ⟨old, untouched⟩, configures⟩
    · exact .inl put
    · exact .inr retained
    · -- A configuration of the protocol that was stored before is retained under its own CID.
      have listed := (mem_configurations sound).mpr ⟨row, old, configures, rfl⟩
      refine absurd ⟨configures.1, ?_⟩ untouched
      rw [sound.addressed row old]
      exact mem_append_left _ (mem_cons_of_mem _ (cidListed listed))
  · rintro (rfl | reindexed)
    · exact ⟨.inl rfl, rfl, d, isConfigure, rfl⟩
    · obtain ⟨message, listed, descriptor, isConfigure', rfl⟩ := reindexed
      obtain ⟨old, stored, ⟨-, e, isOld, protocol⟩, rfl⟩ := (mem_configurations sound).mp listed
      exact ⟨.inr (.inl ⟨_, listed, descriptor, isConfigure', rfl⟩), rfl, e, isOld, protocol⟩

end

/-! ## The latest configuration -/

theorem cid_inj_of_configures (sound : Sound p stores.messages) {a b : Message}
    (holdsA : HoldsConfigure stores.messages tenant protocol a)
    (holdsB : HoldsConfigure stores.messages tenant protocol b)
    (same : p.messageCid a = p.messageCid b) : a = b := by
  obtain ⟨row, stored, configures, rfl⟩ := holdsA
  obtain ⟨other, otherStored, otherConfigures, rfl⟩ := holdsB
  rw [← sound.addressed row stored, ← sound.addressed other otherStored] at same
  rw [sound.unique row stored other otherStored (configures.1.trans otherConfigures.1.symm) same]

theorem cid_eq_of_configureRank {a b : Message} (same : configureRank p a = configureRank p b) :
    p.messageCid a = p.messageCid b :=
  congrArg (fun rank => (ofLex rank).2) same

theorem latestOf_eq_some_iff {messages : List Message} {message : Message}
    (distinct : ∀ a ∈ messages, ∀ b ∈ messages, p.messageCid a = p.messageCid b → a = b)
    (listed : message ∈ messages) :
    latestOf p messages = some (p.messageCid message) ↔
      ∀ other ∈ messages, configureRank p other ≤ configureRank p message := by
  obtain ⟨best, found⟩ : ∃ best, maxBy (compareConfigureMessages p) messages = some best :=
    Option.ne_none_iff_exists'.mp fun none => by
      rw [maxBy_eq_none.mp none] at listed
      cases listed
  obtain ⟨bestListed, greatest⟩ := maxBy_eq_some (compareConfigureMessages_eq_compare p) found
  rw [latestOf, found, Option.map_some, Option.some.injEq]
  constructor
  · intro same
    exact distinct best bestListed message listed same ▸ greatest
  · intro above
    exact (cid_eq_of_configureRank
      (le_antisymm (greatest message listed) (above best bestListed))).symm

def LatestIsGreatest (p : Primitives) (store : MessageStore) (tenant : Did) (protocol : String) :
    Prop :=
  ∀ row ∈ store, Configures tenant protocol row →
    (IsLatest row ↔ ∀ message, HoldsConfigure store tenant protocol message →
      configureRank p message ≤ configureRank p row.message)

section

variable {request : Request}

section

variable (configured : Configured p stores request d author retains)
  (isConfigure : request.message.descriptor = .protocolsConfigure d)
  (sound : Sound p stores.messages)

include configured isConfigure sound

theorem Configured.holds {message : Message} :
    HoldsConfigure (processMessage p stores request).2.messages request.tenant
        d.definition.protocol message ↔
      message = request.message ∨
        HoldsConfigure stores.messages request.tenant d.definition.protocol message := by
  constructor
  · rintro ⟨row, stored, configures, rfl⟩
    rcases (configured.rows isConfigure sound).mp ⟨stored, configures⟩ with
      rfl | ⟨message, listed, _, -, rfl⟩
    · exact .inl rfl
    · exact .inr ((mem_configurations sound).mp listed)
  · rintro (rfl | holds)
    · obtain ⟨stored, configures⟩ := (configured.rows isConfigure sound).mpr (.inl rfl)
      exact ⟨_, stored, configures, rfl⟩
    · have listed := (mem_configurations sound).mpr holds
      obtain ⟨_, -, ⟨-, e, isOld, -⟩, rfl⟩ := holds
      obtain ⟨stored, configures⟩ :=
        (configured.rows isConfigure sound).mpr (.inr ⟨_, listed, e, isOld, rfl⟩)
      exact ⟨_, stored, configures, rfl⟩

theorem Configured.latestIsGreatest :
    LatestIsGreatest p (processMessage p stores request).2.messages request.tenant
      d.definition.protocol := by
  intro row stored configures
  simp only [configured.holds isConfigure sound, forall_eq_or_imp]
  rcases (configured.rows isConfigure sound).mp ⟨stored, configures⟩ with
    rfl | ⟨message, listed, _, -, rfl⟩
  · rw [isLatest_rowOf, incomingIsLatest_iff]
    constructor
    · intro above
      exact ⟨le_rfl, fun m holds => (above m ((mem_configurations sound).mpr holds)).le⟩
    · rintro ⟨-, above⟩ m listed
      refine (above m ((mem_configurations sound).mp listed)).lt_of_ne fun same => ?_
      exact configured.fresh (mem_map.mpr ⟨m, listed, cid_eq_of_configureRank same⟩)
  · change _ ↔ configureRank p request.message ≤ configureRank p message ∧ ∀ m, _ →
      configureRank p m ≤ configureRank p message
    rw [isLatest_rowOf, Bool.and_eq_true, Bool.not_eq_true', decide_eq_true_iff,
      latestOf_eq_some_iff (fun a listedA b listedB => cid_inj_of_configures sound
        ((mem_configurations sound).mp listedA) ((mem_configurations sound).mp listedB)) listed,
      ← Bool.not_eq_true, incomingIsLatest_iff]
    simp only [mem_configurations sound] at listed ⊢
    constructor
    · rintro ⟨outranked, above⟩
      push Not at outranked
      obtain ⟨m, holds, notBelow⟩ := outranked
      exact ⟨notBelow.trans (above m holds), above⟩
    · rintro ⟨notBelow, above⟩
      exact ⟨fun below => absurd (below message listed) (not_lt.mpr notBelow), above⟩

end

end

/-! ## Runs of configurations -/

def AcceptsConfigure (p : Primitives) (tenant : Did) (protocol : String) (stores : Stores) :
    Event → Prop
  | .request request => request.tenant = tenant ∧
      (∃ d, request.message.descriptor = .protocolsConfigure d ∧
        d.definition.protocol = protocol) ∧
      (processMessage p stores request).1.isSuccess = true
  | .controlPurge _ _ _ => False

theorem AcceptsConfigure.step {request : Request} (sound : Sound p stores.messages)
    (accepts : AcceptsConfigure p tenant protocol stores (.request request)) :
    (∀ message, HoldsConfigure (step p stores (.request request)).messages tenant protocol message ↔
      message = request.message ∨ HoldsConfigure stores.messages tenant protocol message) ∧
    LatestIsGreatest p (step p stores (.request request)).messages tenant protocol := by
  obtain ⟨rfl, ⟨d, isConfigure, rfl⟩, success⟩ := accepts
  obtain ⟨author, retains, configured⟩ := configured_of_success isConfigure success
  exact ⟨fun _ => configured.holds isConfigure sound, configured.latestIsGreatest isConfigure sound⟩

section

variable {requests : List Request} (sound : Sound p stores.messages)
  (accepted : AllowedAlong (step p) (AcceptsConfigure p tenant protocol) stores (requests.map .request))

include sound accepted

theorem holds_of_accepted {message : Message} :
    HoldsConfigure ((requests.map .request).foldl (step p) stores).messages tenant protocol
        message ↔
      HoldsConfigure stores.messages tenant protocol message ∨
        message ∈ requests.map (·.message) := by
  induction requests generalizing stores with
  | nil => simp
  | cons request rest ih =>
    obtain ⟨accepts, along⟩ := accepted
    rw [map_cons, foldl_cons, ih (sound.step _) along, (accepts.step sound).1,
      map_cons, mem_cons]
    tauto

theorem latestIsGreatest_of_accepted (some : requests ≠ []) :
    LatestIsGreatest p ((requests.map .request).foldl (step p) stores).messages tenant
      protocol := by
  induction requests generalizing stores with
  | nil => exact absurd rfl some
  | cons request rest ih =>
    obtain ⟨accepts, along⟩ := accepted
    by_cases last : rest = []
    · subst last
      exact (accepts.step sound).2
    · exact ih (sound.step _) along last

end

structure IsGreatest (p : Primitives) (store : MessageStore) (tenant : Did) (protocol : String)
    (row : Row) : Prop where
  stored : row ∈ store
  configures : Configures tenant protocol row
  latest : IsLatest row
  unique : ∀ other ∈ store, Configures tenant protocol other → IsLatest other → other = row
  greatest : ∀ message, HoldsConfigure store tenant protocol message → message ≠ row.message →
    configureRank p message < configureRank p row.message

theorem LatestIsGreatest.exists_greatest (sound : Sound p stores.messages)
    (latest : LatestIsGreatest p stores.messages tenant protocol) {message : Message}
    (holds : HoldsConfigure stores.messages tenant protocol message) :
    ∃ row, IsGreatest p stores.messages tenant protocol row := by
  obtain ⟨best, found⟩ : ∃ best, maxBy (compareConfigureMessages p)
      (stores.messages.query tenant [protocolConfigureFilters protocol false]) = some best :=
    Option.ne_none_iff_exists'.mp fun none => by
      have listed := (mem_configurations sound).mpr holds
      rw [maxBy_eq_none.mp none] at listed
      cases listed
  obtain ⟨listed, greatest⟩ := maxBy_eq_some (compareConfigureMessages_eq_compare p) found
  simp only [mem_configurations sound] at listed greatest
  obtain ⟨row, stored, configures, rfl⟩ := listed
  have below (m : Message) (holdsM : HoldsConfigure stores.messages tenant protocol m)
      (same : configureRank p m = configureRank p row.message) : m = row.message :=
    cid_inj_of_configures sound holdsM ⟨row, stored, configures, rfl⟩ (cid_eq_of_configureRank same)
  refine ⟨row, stored, configures, (latest row stored configures).mpr greatest, ?_, ?_⟩
  · intro other otherStored otherConfigures otherLatest
    have above := (latest other otherStored otherConfigures).mp otherLatest row.message
      ⟨row, stored, configures, rfl⟩
    have same := below other.message ⟨other, otherStored, otherConfigures, rfl⟩
      (le_antisymm (greatest _ ⟨other, otherStored, otherConfigures, rfl⟩) above)
    refine sound.unique other otherStored row stored
      (otherConfigures.1.trans configures.1.symm) ?_
    rw [sound.addressed other otherStored, sound.addressed row stored, same]
  · intro m holdsM different
    exact (greatest m holdsM).lt_of_ne fun same => different (below m holdsM same)

/-- Whatever the order in which a node accepts configurations of a protocol, it keeps all of them,
and the latest is the one of the greatest timestamp and, among equal ones, the greatest CID. -/
theorem configurations_converge {tenant : Did} {protocol : String} {stores : Stores}
    (reached : Reaches (step p) (fun _ _ => True) {} stores) {requests : List Request}
    (some : requests ≠ [])
    (accepted : AllowedAlong (step p) (AcceptsConfigure p tenant protocol) stores
      (requests.map .request)) :
    (∀ message, HoldsConfigure ((requests.map .request).foldl (step p) stores).messages tenant
        protocol message ↔
      HoldsConfigure stores.messages tenant protocol message ∨
        message ∈ requests.map (·.message)) ∧
    ∃ row, IsGreatest p ((requests.map .request).foldl (step p) stores).messages tenant protocol
      row := by
  have sound := sound_of_reaches sound_nil reached
  refine ⟨fun _ => holds_of_accepted sound accepted, ?_⟩
  obtain ⟨request, listed⟩ := exists_mem_of_ne_nil requests some
  exact (latestIsGreatest_of_accepted sound accepted some).exists_greatest
    (sound_of_reaches sound accepted.reaches)
    ((holds_of_accepted sound accepted).mpr (.inr (mem_map.mpr ⟨request, listed, rfl⟩)))

namespace Settled

open Threads

def republished (timestamp : Timestamp) (published : Bool) : ConfigureDescriptor where
  messageTimestamp := timestamp
  definition := { definition with published }

def message (descriptor : ConfigureDescriptor) (payload : String) : Message :=
  Concrete.signedMessage (.protocolsConfigure descriptor) payload

def first : Message := message (republished 1 true) "first"
def listed : Message := message (republished 2 true) "listed"
def unlisted : Message := message (republished 2 false) "unlisted"

def script : Concrete.Script :=
  Concrete.parties.adding first "d0" "m0"
    |>.adding listed "d1" "m1" |>.adding unlisted "d2" "m2"

noncomputable def requests : List Request := [unlisted, first, listed].map fun m => request m ""

theorem requests_accepted : AllowedAlong (step script.primitives)
    (AcceptsConfigure script.primitives "did:ex:alice" Threads.uri) {} (requests.map .request) :=
  ⟨⟨rfl, ⟨_, rfl, rfl⟩, rfl⟩, ⟨rfl, ⟨_, rfl, rfl⟩, rfl⟩, ⟨rfl, ⟨_, rfl, rfl⟩, rfl⟩, trivial⟩

end Settled

open Settled in
theorem unlisted_threads_latest :
    ∃ row, IsGreatest Settled.script.primitives
      ((requests.map .request).foldl (step Settled.script.primitives) {}).messages "did:ex:alice"
      Threads.uri row ∧ row.message = unlisted := by
  obtain ⟨holds, row, greatest⟩ :=
    configurations_converge .refl (cons_ne_nil _ _) Settled.requests_accepted
  refine ⟨row, greatest, ?_⟩
  by_contra other
  have below := greatest.greatest unlisted ((holds unlisted).mpr (.inr mem_cons_self))
    (Ne.symm other)
  rcases (holds row.message).mp ⟨row, greatest.stored, greatest.configures, rfl⟩ with
    ⟨_, ⟨⟩, -⟩ | known
  simp only [map_cons, map_nil, mem_cons, not_mem_nil, or_false] at known
  rcases known with same | same | same
  · exact other same
  · rw [same] at below
    exact absurd below (show ¬ toLex (2, "m2") < toLex (1, "m0") by simp [Prod.Lex.toLex_lt_toLex])
  · rw [same] at below
    have smaller : ¬ "m2" < "m1" := by
      rw [String.lt_iff_toList_lt]
      decide
    exact absurd below (show ¬ toLex (2, "m2") < toLex (2, "m1") by
      simpa only [Prod.Lex.toLex_lt_toLex, lt_irrefl, true_and, false_or] using smaller)

end Enbox.Proof.Protocols
