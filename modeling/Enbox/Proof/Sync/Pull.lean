import Enbox.Proof.State.Data
import Enbox.Proof.Sync.Engine

/-! # What a pull brings -/

namespace Enbox.Proof.Sync

open Lib

variable {tenant : Did} {Hash : Type} {node : SyncNode} {hashes : SyncHashes Hash}
  {diff : MessagesSyncDiff}

section

def latestState (store : MessageStore) (tenant : Did) (recordId : String) : Option Message :=
  store.first tenant [[(.interface, stringFilter recordsInterface),
    (.recordId, stringFilter recordId), (.isLatestBaseState, boolFilter true)]]

def availableData (p : Primitives) (stores : Stores) (tenant : Did) (message : Message) :
    Option Bytes :=
  encodedDataBytes p message <|> (recordsWriteDataReference message).bind fun reference =>
    stores.data.get tenant reference.1 reference.2.1

structure Faithful (p : Primitives) (destination source : Stores) (tenant : Did) : Prop where
  latest : ∀ recordId, latestState destination.messages tenant recordId =
    latestState source.messages tenant recordId
  data : ∀ recordId message, latestState source.messages tenant recordId = some message →
    availableData p destination tenant message = availableData p source tenant message

theorem faithful_empty_iff {p : Primitives} {source : Stores} :
    Faithful p {} source tenant ↔ ∀ recordId, latestState source.messages tenant recordId = none := by
  constructor
  · exact fun faithful recordId => (faithful.latest recordId).symm
  · intro nothing
    refine ⟨fun recordId => (nothing recordId).symm, fun recordId message isLatest => ?_⟩
    rw [nothing recordId] at isLatest
    cases isLatest

variable [DecidableEq Hash]

/-- A pull into an empty node that completes is faithful just when no record of the source has a
latest state. -/
theorem completed_pull_faithful_iff (p : Primitives) (hasher : StateHasher Hash)
    {localEnd remoteEnd : Endpoint SyncNode Hash} (localKind : IsEndpoint p hasher localEnd)
    (remoteKind : IsEndpoint p hasher remoteEnd) (diffDepth : Nat) {source : SyncNode}
    (reached : Reaches (SyncNode.step p) (fun _ _ => True) {} source)
    (engine : SyncEngineState Hash) (request : SyncOnceRequest) :
    ((syncOnce p localEnd remoteEnd diffDepth request ⟨{}, source, engine⟩).1.status = .completed →
      Faithful p (syncOnce p localEnd remoteEnd diffDepth request
        ⟨{}, source, engine⟩).2.localNode.stores source.stores request.tenant) ↔
    ((syncOnce p localEnd remoteEnd diffDepth request ⟨{}, source, engine⟩).1.status = .completed →
      ∀ recordId, latestState source.stores.messages request.tenant recordId = none) := by
  have same : SameIndex (⟨{}, source, engine⟩ : SyncSession SyncNode SyncNode Hash) :=
    (reached.invariant (P := fun node : SyncNode => node.index = []) rfl
      fun _ _ kept _ => kept).symm
  have nodes : SameNodes _
      (syncOnce p localEnd remoteEnd diffDepth request ⟨{}, source, engine⟩).2 :=
    syncOnce_sameNodes localKind.servesIndex remoteKind.servesIndex request same
  rw [nodes.1]
  exact imp_congr_right fun _ => faithful_empty_iff

end

section

variable {Local Remote : Type} [DecidableEq Hash] {p : Primitives} {localEnd : Endpoint Local Hash}
  {remoteEnd : Endpoint Remote Hash} {diffDepth : Nat} {request : SyncOnceRequest}
  {scope : SyncScope} {session after : SyncSession Local Remote Hash}

theorem syncPullScope_pulls {localRoot remoteRoot : Hash}
    (ours : localEnd.root session.localNode request.tenant scope = .ok localRoot)
    (theirs : remoteEnd.root session.remoteNode request.tenant scope = .ok remoteRoot)
    (differ : localRoot ≠ remoteRoot)
    (collects : localEnd.subtreeHashes session.localNode request.tenant scope diffDepth = .ok hashes)
    (answers : remoteEnd.diff session.remoteNode request.tenant scope diffDepth hashes = .ok diff)
    {records bytes : Nat}
    (pulls : pullEntries p localEnd request (sortDiffEntriesTopologically diff.onlyRemote) 0 0
      session = (.finished .completed records bytes, after)) :
    ∃ result session', syncPullScope p localEnd remoteEnd diffDepth request scope session =
        (result, session') ∧
      result.status = .completed ∧ session'.localNode = after.localNode := by
  simp only [syncPullScope, ours, theirs, if_neg differ, collects, ok_bind, answers, pulls]
  exact ⟨_, _, rfl, rfl, rfl⟩

variable {hasher : StateHasher Hash} {process : DwnProcessMessage}

theorem direct_subtreeHashes (bounded : diffDepth ≤ SyncEndpoint.maxSyncDepth) :
    (directSyncEndpoint p hasher process).subtreeHashes node tenant scope diffDepth =
      .ok (collectedHashes (endpointVisits hasher (scopeCids node.index tenant scope.protocolUri)
        diffDepth)) := by
  simp only [directSyncEndpoint, endpoint_collect bounded]
  rfl

theorem direct_diff
    (computes : SyncEndpoint.computeDiff p hasher node.index node.stores tenant scope.protocolUri
      diffDepth hashes = .ok diff) :
    (directSyncEndpoint p hasher process).diff node tenant scope diffDepth hashes = .ok diff := by
  simp only [directSyncEndpoint, computes]
  rfl

end

namespace Pictures

open Concrete Run.Threads State State.Uploads

def picture : Bytes := List.replicate 102401 0

def descriptor : WriteDescriptor := post "picture" 102401 2

def message : Message := write descriptor "picture" "alice" "V" ["V"]

def script : Script := configuring.posted message "d1" "m2" "V"

noncomputable section

def p : Primitives :=
  { script.primitives with dataCid := shortCid picture "picture" }

theorem collisionFree : p.CollisionFree :=
  ⟨(script.collisionFree (by decide) (by decide)).cid, shortCid_injective picture (by decide)⟩

theorem primitives_dataCid (data : Bytes) : p.dataCid data = shortCid picture "picture" data := rfl

theorem dataCid_picture : p.dataCid picture = "picture" := by
  rw [primitives_dataCid, shortCid, if_pos rfl]

def configured : Stores := step p {} (.request (sent configureMessage none))

def source : Stores := (handleUpload p configured (sent message picture) "V" descriptor picture).2

theorem processMessage_source :
    processMessage p configured (sent message picture) = (accepted, source) :=
  (processMessage_upload rfl rfl rfl dataCid_picture.symm List.length_replicate.symm (by decide) rfl
    rfl).trans rfl

def pictureEntry : SyncEntry := ⟨"m2", message, none⟩

def pictureEnd : Endpoint SyncNode Digest :=
  directSyncEndpoint p (digestHasher halves) (dwnProcessMessage p (some openResolver))

theorem pictureEnd_isEndpoint : IsEndpoint p (digestHasher halves) pictureEnd := .direct _

def pull : SyncOnceRequest where
  tenant := "did:ex:alice"
  remote := "https://remote"
  direction := .pull

def session : SyncSession SyncNode SyncNode Digest where
  localNode := {}
  remoteNode := { stores := source, index := indexOf ["m0", "m2"] }

def emptyHashes : SyncHashes Digest :=
  collectedHashes (endpointVisits (digestHasher halves) .empty 0)

theorem computeDiff_source :
    SyncEndpoint.computeDiff p (digestHasher halves) (indexOf ["m0", "m2"]) source "did:ex:alice" none 0
      emptyHashes = .ok { onlyRemote := [configureEntry, pictureEntry], onlyLocal := [""] } :=
  (computeDiff_of_compared ["m0", "m2"] [""] (Nat.zero_le _) (by decide +kernel)).trans rfl

theorem roots_differ :
    StateIndex.root (digestHasher halves) [] "did:ex:alice" none ≠
      StateIndex.root (digestHasher halves) (indexOf ["m0", "m2"]) "did:ex:alice" none := by
  intro same
  have nothing := (treeLaw (digestHasher_collisionFree halves)).subtree_eq_empty_iff.mp same.symm
  exact absurd nothing.1 (by decide)

def pulled : SyncSession SyncNode SyncNode Digest :=
  (pullEntries p pictureEnd pull [configureEntry, pictureEntry] 0 0 session).2

theorem pullEntries_pulled :
    pullEntries p pictureEnd pull [configureEntry, pictureEntry] 0 0 session =
      (.finished .completed 2 0, pulled) := rfl

theorem pulled_without_picture :
    latestState pulled.localNode.stores.messages "did:ex:alice" "V" = none ∧
    pulled.localNode.stores.messages.get "did:ex:alice" "m2" = some message ∧
    pulled.localNode.stores.data.get "did:ex:alice" "V" "picture" = none := ⟨rfl, rfl, rfl⟩

theorem source_with_picture :
    latestState source.messages "did:ex:alice" "V" = some message ∧
    source.data.get "did:ex:alice" "V" "picture" = some picture := ⟨rfl, rfl⟩

def registered : SyncEngineState Digest where
  identities := [("did:ex:alice", { did := "did:ex:alice", protocols := .all })]

theorem pull_completed {session : SyncSession SyncNode SyncNode Digest}
    (engine : session.engine = registered) (same : SameIndex session) :
    (syncOnce p pictureEnd pictureEnd 0 pull session).1.status = .completed := by
  have known : session.engine.identities.lookup "did:ex:alice" =
      some { did := "did:ex:alice", protocols := .all } := by
    rw [engine]
    rfl
  refine syncOnce_completed rfl ?_ known rfl same
  rw [engine]
  exact List.not_mem_nil

theorem configured_reached :
    Reaches (SyncNode.step p) (fun _ _ => True) {} { stores := configured } :=
  .single ⟨.request (sent configureMessage none), trivial, rfl⟩

theorem configuration_pulled_faithfully :
    Faithful p (syncOnce p pictureEnd pictureEnd 0 pull
      ⟨{}, { stores := configured }, registered⟩).2.localNode.stores configured "did:ex:alice" := by
  have faithful := (completed_pull_faithful_iff p (digestHasher halves) pictureEnd_isEndpoint
    pictureEnd_isEndpoint 0 configured_reached registered pull).mpr fun _ _ => rfl
  exact faithful (pull_completed rfl rfl)

theorem picture_not_pulled :
    p.CollisionFree ∧ (digestHasher halves).CollisionFree ∧
    Reaches (SyncNode.step p) (fun _ _ => True) {} { stores := source } ∧
    latestState source.messages "did:ex:alice" "V" = some message ∧
    source.data.get "did:ex:alice" "V" "picture" = some picture ∧
    (∃ result ended, syncOnce p pictureEnd pictureEnd 0 pull
        ⟨{}, { stores := source }, registered⟩ = (result, ended) ∧
      result.status = .completed ∧ ended.localNode = {} ∧
      ¬ Faithful p ended.localNode.stores source "did:ex:alice") ∧
    ∃ result ended, syncPullScope p pictureEnd pictureEnd 0 pull .full session = (result, ended) ∧
      result.status = .completed ∧
      ended.localNode.stores.messages.get "did:ex:alice" "m2" = some message ∧
      latestState ended.localNode.stores.messages "did:ex:alice" "V" = none ∧
      ended.localNode.stores.data.get "did:ex:alice" "V" "picture" = none := by
  refine ⟨collisionFree, digestHasher_collisionFree _,
    configured_reached.tail ⟨.request (sent message picture), trivial, ?_⟩, source_with_picture.1,
    source_with_picture.2, ?_, ?_⟩
  · rw [SyncNode.step, step, processMessage_source]
  · have nodes : SameNodes _ (syncOnce p pictureEnd pictureEnd 0 pull
        ⟨{}, { stores := source }, registered⟩).2 :=
      syncOnce_sameNodes pictureEnd_isEndpoint.servesIndex pictureEnd_isEndpoint.servesIndex pull rfl
    refine ⟨_, _, Prod.mk.eta.symm, pull_completed rfl rfl, nodes.1,
      fun faithful => ?_⟩
    rw [nodes.1] at faithful
    have nothing := faithful_empty_iff.mp faithful "V"
    rw [source_with_picture.1] at nothing
    cases nothing
  · have collects : pictureEnd.subtreeHashes session.localNode pull.tenant .full 0 =
        .ok emptyHashes := direct_subtreeHashes (Nat.zero_le _)
    have answers : pictureEnd.diff session.remoteNode pull.tenant .full 0 emptyHashes =
        .ok { onlyRemote := [configureEntry, pictureEntry], onlyLocal := [""] } :=
      direct_diff computeDiff_source
    obtain ⟨result, ended, run, completed, node⟩ :=
      syncPullScope_pulls rfl rfl roots_differ collects answers pullEntries_pulled
    rw [run]
    refine ⟨result, ended, rfl, completed, ?_⟩
    rw [node]
    exact ⟨pulled_without_picture.2.1, pulled_without_picture.1, pulled_without_picture.2.2⟩

end

end Pictures

end Enbox.Proof.Sync
