import Klights.Store.Appliers

/-!
# What one mutation can do

`Effect` says everything a mutation that goes through can do to the tables: write or delete one object and record it,
refresh the index rows of one object, clear a namespace, append or collect watch events, or write one of the tables that
hold no objects.

- `applyClusterMutation_effects`: the inversion of `applyClusterMutation`;
- `emitWatch_ok`: the event an object change records;
- `Effect.watch_cases`, `Effect.ledger_subnets`: the watch log, the ledger and the node subnets after a mutation.
-/

namespace Klights.Store

open Lib

/-! ## Normalized rows -/

section Normalization

variable {p : ApplyPolicies} {row n : LogApplyResourceRow} {ei : Option ResourceRow}

theorem mergeStatusOnly_resourceVersion (h : mergeStatusOnlyRowWithExisting p row ei = .ok n) :
    n.resourceVersion = row.resourceVersion := by
  unfold mergeStatusOnlyRowWithExisting at h
  split at h
  · cases h
    rfl
  · split at h
    · cases h
      rfl
    · obtain ⟨li, -, h⟩ := bind_eq_ok.1 h
      simp only at h
      split at h
      · cases h
        rfl
      · cases h

theorem preserveNewer_resourceVersion (h : preserveNewerSameUidRowOnStaleCommittedPut row ei = .ok n) :
    n.resourceVersion = row.resourceVersion := by
  unfold preserveNewerSameUidRowOnStaleCommittedPut at h
  split at h
  · cases h
    rfl
  · split at h
    · split at h
      · cases h
        rfl
      · obtain ⟨d, -, h⟩ := bind_eq_ok.1 h
        split at h
        · cases h
          rfl
        · -- whichever body is newer, only the body and the UID are replaced
          rcases ite_eq_ok h with rfl | rfl
          · rfl
          · rfl
    · cases h
      rfl

theorem preserveServerMetadata_resourceVersion (h : preserveSameUidServerMetadataFromExisting p row ei = .ok n) :
    n.resourceVersion = row.resourceVersion := by
  unfold preserveSameUidServerMetadataFromExisting at h
  split at h
  · cases h
    rfl
  · split at h
    · cases h
      rfl
    · obtain ⟨d, -, h⟩ := bind_eq_ok.1 h
      cases h
      rfl

theorem normalize_resourceVersion (h : normalizeCommittedResourceForApply p row ei = .ok n) :
    n.resourceVersion = row.resourceVersion := by
  obtain ⟨mrg, hm, h⟩ := bind_eq_ok.1 h
  obtain ⟨ne, hn, hs⟩ := bind_eq_ok.1 h
  rw [preserveServerMetadata_resourceVersion hs, preserveNewer_resourceVersion hn, mergeStatusOnly_resourceVersion hm]

end Normalization

/-! ## Effects -/

def LogApplyMutation.target : LogApplyMutation → Option ResourceKey
  | .putResource row => some (resourceIdentity row.key)
  | .patchResourceLatest patch => some (resourceIdentity patch.key)
  | .deleteResource delete => some (resourceIdentity delete.key)
  | .putNamespace row => some (namespaceKeyOf row.name)
  | .deleteNamespace name => some (namespaceKeyOf name)
  | _ => none

def LogApplyMutation.ledgerAfter (ledger : Table LogApplyAppliedOutboxRow.idempotencyKey) :
    LogApplyMutation → Table LogApplyAppliedOutboxRow.idempotencyKey
  | .putAppliedOutbox row => ledger.put row
  | .deleteAppliedOutbox key => ledger.deleteWhere fun row => row.idempotencyKey = key
  | .gcAppliedOutbox cutoffMs _ => ledger.deleteWhere fun row => row.firstSeenMs < cutoffMs
  | _ => ledger

def LogApplyMutation.subnetsAfter (subnets : NodeSubnets) : LogApplyMutation → Except DbError NodeSubnets
  | .putNodeSubnet row => Store.putNodeSubnet subnets row
  | .allocateNodeSubnet allocation => Store.allocateNodeSubnet subnets allocation
  | .deleteNodeSubnet nodeName => .ok (Store.deleteNodeSubnet subnets nodeName)
  | _ => .ok subnets

inductive Effect (version : Int) (emit : Bool) (tables : Tables) : LogApplyMutation → Tables → Prop
  | wrote {mutation : LogApplyMutation} {key : ResourceKey} {uid eventType : String} {data : Json} {tables' : Tables}
      {staged : Option StagedPostCommit} (htarget : mutation.target = some key) (htype : eventType ≠ "DELETED")
      (hemit : ((tables.upsertResource key uid version (Blob.toVec data)).upsertIndexes key data).emitWatch emit key
        version eventType (Blob.toVec data) = .ok (tables', staged)) : Effect version emit tables mutation tables'
  | indexed {row : LogApplyResourceRow} {current : ResourceRow} {data : Json}
      (hfound : tables.resources.find (resourceIdentity row.key) = some current)
      (hversion : current.resourceVersion = version) (hdata : current.data = Blob.toVec data) :
      Effect version emit tables (.putResource row) (tables.upsertIndexes (resourceIdentity row.key) data)
  | deleted {delete : LogApplyResourceKey} {current : ResourceRow} {tables' : Tables} {staged : Option StagedPostCommit}
      (hfound : tables.resources.find (resourceIdentity delete.key) = some current)
      (hemit : ((tables.deleteResource (resourceIdentity delete.key)).deleteIndexes
        (resourceIdentity delete.key)).emitWatch emit (resourceIdentity delete.key) version "DELETED" current.data = .ok (tables', staged)) :
      Effect version emit tables (.deleteResource delete) tables'
  | wroteNamespace {row : LogApplyNamespaceRow} {eventType : String} {tables' : Tables}
      {staged : Option StagedPostCommit} (htype : eventType ≠ "DELETED")
      (hemit : Tables.emitWatch { tables with
        namespaces := tables.namespaces.put ⟨row.name, row.uid, version, Blob.toVec row.data⟩ } emit
        (namespaceKeyOf row.name) version eventType (Blob.toVec row.data) = .ok (tables', staged)) :
      Effect version emit tables (.putNamespace row) tables'
  | deletedNamespace {name : String} {current : NamespaceRow} {tables' : Tables} {staged : Option StagedPostCommit}
      (hfound : tables.namespaces.find name = some current)
      (hemit : Tables.emitWatch { tables with
        namespaces := tables.namespaces.deleteWhere fun row => row.name = name } emit
        (namespaceKeyOf name) version "DELETED" current.data = .ok (tables', staged)) :
      Effect version emit tables (.deleteNamespace name) tables'
  | cleared (name : String) :
      Effect version emit tables (.deleteNamespaceContents name) (deleteNamespaceContents tables name)
  | event {row : LogApplyWatchEventRow} {watch : WatchLog}
      (hinsert : insertWatchEventInConn tables.watch ⟨row.eventId, row.key.apiVersion, row.key.kind, row.key.ns,
        row.key.name, row.resourceVersion, row.eventType, Blob.toVec row.data, false⟩ = .ok watch) :
      Effect version emit tables (.putWatchEvent row) { tables with watch }
  | collected {maxRows batchCap : Int} {watch : WatchLog} {removed : Nat}
      (hgc : gcWatchEventsInTx tables.watch maxRows batchCap = .ok (watch, removed)) :
      Effect version emit tables (.gcWatchEvents maxRows batchCap) { tables with watch }
  /-- No object and no watch event is touched. -/
  | aside {mutation : LogApplyMutation} {nodeSubnets : NodeSubnets} (nodeDataplanes : NodeDataplanes)
      (klightsMeta : Table MetaRow.key) (podCleanupIntents : Table PodCleanupIntentRow.key)
      (hsubnets : mutation.subnetsAfter tables.nodeSubnets = .ok nodeSubnets) :
      Effect version emit tables mutation
        { tables with
          nodeSubnets, nodeDataplanes, klightsMeta, podCleanupIntents
          appliedOutbox := mutation.ledgerAfter tables.appliedOutbox }

variable {p : ApplyPolicies} {v : Int} {e : Bool} {tables tables' : Tables}
  {st : Option StagedPostCommit} {mu : LogApplyMutation} {key : ResourceKey}

theorem Effect.unchanged (hl : ∀ l, mu.ledgerAfter l = l)
    (hu : ∀ s, mu.subnetsAfter s = .ok s) : Effect v e tables mu tables := by
  have h : Effect v e tables mu _ :=
    .aside tables.nodeDataplanes tables.klightsMeta tables.podCleanupIntents (hu tables.nodeSubnets)
  rwa [hl] at h

theorem applyPutResource_effects {row : LogApplyResourceRow} (h : applyPutResource p tables row e = .ok (tables', st)) :
    Effect row.resourceVersion e tables (.putResource row) tables' := by
  obtain ⟨-, -, h⟩ := bind_eq_ok.1 h
  obtain ⟨n, hn, h⟩ := bind_eq_ok.1 h
  rw [normalize_resourceVersion hn] at h
  cases hf : tables.resources.find (resourceIdentity row.key) with
  | none =>
    simp only [hf, Option.any_none, Option.isSome_none, decideResourcePut] at h
    exact .wrote rfl (by decide) h
  | some cu =>
    simp only [hf, Option.any_some, Option.isSome_some, decideResourcePut, Bool.true_and] at h
    split at h
    · -- the row is there already, and only its index rows are written again
      rename_i hd
      split at hd
      · rename_i heq
        simp only [Bool.and_eq_true, decide_eq_true_eq] at heq
        cases h
        exact .indexed hf heq.1 heq.2
      · cases hd
    · rename_i et hd
      split at hd
      · cases hd
      · cases hd
        exact .wrote rfl (by decide) h

theorem applyPatchResourceLatest_effects {pt : LogApplyResourcePatch}
    (h : applyPatchResourceLatest tables pt e = .ok (tables', st)) :
    Effect pt.resourceVersion e tables (.patchResourceLatest pt) tables' := by
  unfold applyPatchResourceLatest at h
  simp only at h
  split at h
  · split at h
    · cases h
    · cases h
      exact .unchanged (fun _ => rfl) fun _ => rfl
  · obtain ⟨pa, -, h⟩ := bind_eq_ok.1 h
    exact .wrote rfl (by decide) h

theorem decideResourceDelete_type {r : Option String} {ex : Option Int}
    {c : Option CurrentResourceState} {et : ResourceEventType}
    (h : decideResourceDelete r ex c = .ok (.delete et)) : et = .deleted := by
  unfold decideResourceDelete at h
  split at h
  · cases h
  · split at h
    · cases h
    · obtain ⟨-, -, h⟩ := bind_eq_ok.1 h
      exact (ResourceDeleteDecision.delete.inj (Except.ok.inj h)).symm

variable {delete : LogApplyResourceKey} {et : String}

section

variable (h : applyDeleteResource tables v delete e = .ok (tables', st))
include h

theorem applyDeleteResource_cases :
    tables' = tables ∨ ∃ c, tables.resources.find (resourceIdentity delete.key) = some c ∧
      ((tables.deleteResource (resourceIdentity delete.key)).deleteIndexes (resourceIdentity delete.key)).emitWatch
        e (resourceIdentity delete.key) v "DELETED" c.data = .ok (tables', st) := by
  unfold applyDeleteResource at h
  simp only at h
  split at h
  · cases h
    exact .inl rfl
  · rename_i c hf
    obtain ⟨de, hd, h⟩ := bind_eq_ok.1 h
    split at h
    · cases h
      exact .inl rfl
    · rename_i et
      obtain rfl := decideResourceDelete_type (mapError_eq_ok.1 hd)
      obtain ⟨d, -, h⟩ := bind_eq_ok.1 h
      exact .inr ⟨c, hf, h⟩

theorem applyDeleteResource_effects : Effect v e tables (.deleteResource delete) tables' := by
  rcases applyDeleteResource_cases h with rfl | ⟨cu, hf, he⟩
  · exact .unchanged (fun _ => rfl) fun _ => rfl
  · exact .deleted hf he

end

theorem putNamespace_effects {row : LogApplyNamespaceRow} (h : putNamespace tables row e = .ok (tables', st)) :
    Effect row.resourceVersion e tables (.putNamespace row) tables' := by
  unfold putNamespace at h
  simp only at h
  split at h
  · cases h
    exact .unchanged (fun _ => rfl) fun _ => rfl
  · refine .wroteNamespace ?_ h
    split <;> decide

theorem deleteNamespace_effects {nm : String} (h : deleteNamespace tables v nm e = .ok (tables', st)) :
    Effect v e tables (.deleteNamespace nm) tables' := by
  unfold deleteNamespace at h
  split at h
  · cases h
    exact .unchanged (fun _ => rfl) fun _ => rfl
  · rename_i cu hf
    exact .deletedNamespace hf h

theorem applyClusterMutation_effects (h : applyClusterMutation p v e tables mu = .ok (tables', st)) :
    Effect v e tables mu tables' := by
  cases mu with
  | putResource row =>
    obtain ⟨hv, h⟩ := ite_error_eq_ok.1 h
    rw [← not_ne_iff.1 hv]
    exact applyPutResource_effects h
  | patchResourceLatest pt =>
    obtain ⟨hv, h⟩ := ite_error_eq_ok.1 h
    rw [← not_ne_iff.1 hv]
    exact applyPatchResourceLatest_effects h
  | deleteResource key => exact applyDeleteResource_effects h
  | finalizeBoundPod fi => cases h
  | putNamespace row =>
    obtain ⟨hv, h⟩ := ite_error_eq_ok.1 h
    rw [← not_ne_iff.1 hv]
    exact putNamespace_effects h
  | deleteNamespace nm => exact deleteNamespace_effects h
  | deleteNamespaceContents nm =>
    cases h
    exact .cleared nm
  | putWatchEvent row =>
    obtain ⟨wa, hi, h⟩ := bind_eq_ok.1 h
    cases h
    exact .event hi
  | gcWatchEvents ma ba =>
    obtain ⟨⟨wa, re⟩, hg, h⟩ := bind_eq_ok.1 h
    cases h
    exact .collected hg
  | putNodeSubnet row =>
    obtain ⟨nodeSubnets, hs, h⟩ := bind_eq_ok.1 h
    cases h
    exact .aside _ _ _ hs
  | allocateNodeSubnet al =>
    obtain ⟨nodeSubnets, hs, h⟩ := bind_eq_ok.1 h
    cases h
    exact .aside _ _ _ hs
  | putNodeDataplane row =>
    obtain ⟨nod, -, h⟩ := bind_eq_ok.1 h
    cases h
    exact .aside nod _ _ rfl
  | putPodCleanupIntent row =>
    simp only [applyClusterMutation] at h
    split at h
    · cases h
    · cases h
      exact .aside _ _ _ rfl
  -- the other tables are written in place
  | _ =>
    cases h
    exact .aside _ _ _ rfl

section

variable {d : Blob} (h : tables.emitWatch e key v et d = .ok (tables', st))
include h

theorem emitWatch_ok : (e = false ∧ tables' = tables) ∨ (e ∧ ∃ watch, insertWatchEventInConn tables.watch
        ⟨none, key.apiVersion, key.kind, key.ns, key.name, v, et, d, true⟩ = .ok watch ∧
        tables' = { tables with watch }) := by
  cases e with
  | false =>
    cases h
    exact .inl ⟨rfl, rfl⟩
  | true =>
    obtain ⟨watch, hi, h⟩ := bind_eq_ok.1 h
    cases h
    exact .inr ⟨rfl, watch, hi, rfl⟩

theorem emitWatch_eq : ∃ watch, tables' = { tables with watch } := by
  rcases emitWatch_ok h with ⟨-, rfl⟩ | ⟨-, watch, -, rfl⟩
  · exact ⟨tables'.watch, rfl⟩
  · exact ⟨watch, rfl⟩

end

/-- Only the index rows of the objects that are kept. -/
def Tables.keepIndexes (tables : Tables) (keep : IndexKey → Bool) : Tables :=
  { tables with
    labels := tables.labels.filter fun row => keep row.resource
    fields := tables.fields.filter fun row => keep row.resource
    ownerRefs := tables.ownerRefs.filter fun row => keep row.resource }

theorem foldl_deleteIndexes (ks : List ResourceKey) (tables : Tables) :
    ks.foldl Tables.deleteIndexes tables = tables.keepIndexes fun key => key ∉ ks.map indexKey := by
  induction ks generalizing tables with
  | nil => simp [Tables.keepIndexes]
  | cons key ks ih => simp [ih, Tables.deleteIndexes, Tables.keepIndexes, Bool.and_comm]

theorem deleteNamespaceContents_frame (tables : Tables) (name : String) :
    ∃ labels fields ownerRefs, deleteNamespaceContents tables name = { tables with
        labels, fields, ownerRefs
        resources := tables.resources.deleteWhere fun row => row.key.ns = some name && row.key.kind ≠ "Pod" } :=
  ⟨_, _, _, foldl_deleteIndexes _ _⟩

theorem Effect.watch_cases (h : Effect v e tables mu tables') :
    tables'.watch = tables.watch ∨ (∃ event, insertWatchEventInConn tables.watch event = .ok tables'.watch ∧
        ((event.eventId = none ∧ event.resourceVersion = v) ∨ ∃ row, mu = .putWatchEvent row ∧
          event.eventId = row.eventId ∧ event.resourceVersion = row.resourceVersion)) ∨
      ∃ maxRows batchCap removed, gcWatchEventsInTx tables.watch maxRows batchCap = .ok (tables'.watch, removed) := by
  cases h with
  | wrote _ _ he | deleted _ he | wroteNamespace _ he | deletedNamespace _ he =>
    rcases emitWatch_ok he with ⟨-, rfl⟩ | ⟨-, watch, hi, rfl⟩
    · exact .inl rfl
    · exact .inr (.inl ⟨_, hi, .inl ⟨rfl, rfl⟩⟩)
  | cleared nm =>
    obtain ⟨la, fs, re, heq⟩ := deleteNamespaceContents_frame tables nm
    rw [heq]
    exact .inl rfl
  | event hi => exact .inr (.inl ⟨_, hi, .inr ⟨_, rfl, rfl, rfl⟩⟩)
  | collected hg => exact .inr (.inr ⟨_, _, _, hg⟩)
  | indexed | aside => exact .inl rfl

theorem after_of_target (h : mu.target = some key) (l : Table LogApplyAppliedOutboxRow.idempotencyKey)
    (subnets : NodeSubnets) :
    mu.ledgerAfter l = l ∧ mu.subnetsAfter subnets = .ok subnets := by
  cases mu with
  | putAppliedOutbox | deleteAppliedOutbox | gcAppliedOutbox => cases h
  | putNodeSubnet | allocateNodeSubnet | deleteNodeSubnet => cases h
  | _ => exact ⟨rfl, rfl⟩

theorem Effect.ledger_subnets (h : Effect v e tables mu tables') :
    tables'.appliedOutbox = mu.ledgerAfter tables.appliedOutbox ∧
      mu.subnetsAfter tables.nodeSubnets = .ok tables'.nodeSubnets := by
  cases h with
  | wrote ht hy he =>
    obtain ⟨wa, rfl⟩ := emitWatch_eq he
    obtain ⟨hl, hs⟩ := after_of_target ht tables.appliedOutbox tables.nodeSubnets
    exact ⟨hl.symm, hs⟩
  | deleted hf he | wroteNamespace hy he | deletedNamespace hf he =>
    obtain ⟨wa, rfl⟩ := emitWatch_eq he
    exact ⟨rfl, rfl⟩
  | cleared nm =>
    obtain ⟨la, fs, re, heq⟩ := deleteNamespaceContents_frame tables nm
    rw [heq]
    exact ⟨rfl, rfl⟩
  | aside nod kl po hs => exact ⟨rfl, hs⟩
  | _ => exact ⟨rfl, rfl⟩

end Klights.Store
