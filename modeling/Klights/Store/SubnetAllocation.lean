import Klights.Store.Entries
import Klights.Store.SubnetBlocks

/-!
# Node subnets over runs

Each node gets a `/24` of the cluster CIDR, the first one no row of `node_subnets` holds.

- `allocateNodeSubnetRow_ok`, `allocateNodeSubnetRow_error`: what an allocation answers, and when it fails;
- `Allocated`: every row holds a block of the CIDR and no two rows the same; allocations and deletions keep it
  (`allocateNodeSubnet_allocated`, `subnetsAfter_allocated`), and so does every run (`runEntries_allocated`);
- an allocation changes no row that is there (`allocateNodeSubnet_keeps`).
-/

namespace Klights.Store

open Lib List Table

variable {cx : TransactionContext}

/-! ## One allocation -/

/-- The node name, the node address and the cluster CIDR of an allocation parse. -/
def LogApplyNodeSubnetAllocation.isWellFormed (allocation : LogApplyNodeSubnetAllocation) : Bool :=
  (parseNodeName allocation.nodeName).isOk && (parseIpv4Addr allocation.nodeIp).isSome &&
    (parseClusterCidr allocation.clusterCidr).isOk

/-- A fresh row for a node: a block of the cluster that no row holds. -/
structure FreshRow (subnets : NodeSubnets) (cluster : ClusterCidr) (row : LogApplyNodeSubnetRow) : Prop where
  block : ∃ i < cluster.blockCount, row.subnetBaseInt = cluster.blockBase i
  text : row.subnet = subnetText row.subnetBaseInt
  free : ∀ other ∈ subnets.rows, other.subnetBaseInt ≠ row.subnetBaseInt
  absent : subnets.find row.nodeName = none

variable {subnets subnets' subs' : NodeSubnets} {allocation al : LogApplyNodeSubnetAllocation}
  {row ro : LogApplyNodeSubnetRow} {parsed ps : ClusterCidr} {err : DbError}

section Allocation

theorem allocateNodeSubnetRow_ok (h : allocateNodeSubnetRow subnets al = .ok ro) :
    ∃ parsed, parseClusterCidr al.clusterCidr = .ok parsed ∧ (ro ∈ subnets.rows ∨ FreshRow subnets parsed ro) := by
  unfold allocateNodeSubnetRow at h
  split at h
  · cases h
  · split at h
    · cases h
    · split at h
      · cases h
      · rename_i parsed hp
        refine ⟨parsed, hp, ?_⟩
        obtain ⟨-, h⟩ := ite_error_eq_ok.1 h
        split at h
        · rename_i exi hl
          cases h
          exact .inl (find_mem hl)
        · rename_i hn
          dsimp only at h
          split at h
          · rename_i base hbase
            cases h
            obtain ⟨i, hi, rfl⟩ := mem_map.1 (mem_of_find?_eq_some hbase)
            have hf := find?_some hbase
            refine .inr ⟨⟨i, mem_range.1 hi, rfl⟩, rfl, fun o ho heq => ?_, hn⟩
            have hb' : o.subnetBaseInt = parsed.network + i * 2 ^ 8 := heq
            rw [← hb'] at hf
            simp only [Bool.not_eq_true', contains_eq_mem, decide_eq_false_iff_not] at hf
            exact hf (mem_map_of_mem ho)
          · cases h

theorem allocateNodeSubnetRow_error (hp : parseClusterCidr al.clusterCidr = .ok ps)
    (hle : ps.prefixLen ≤ 24) (h : allocateNodeSubnetRow subnets al = .error err)
    (hw : al.isWellFormed) :
    ∀ i < ps.blockCount, ∃ o ∈ subnets.rows, o.subnetBaseInt = ps.blockBase i := by
  simp only [LogApplyNodeSubnetAllocation.isWellFormed, Bool.and_eq_true] at hw
  obtain ⟨⟨hn, hip⟩, -⟩ := hw
  obtain ⟨nm, hn⟩ := isOk_iff.1 hn
  obtain ⟨ip, hip⟩ := Option.isSome_iff_exists.1 hip
  unfold allocateNodeSubnetRow at h
  simp only [hn, hip, hp, if_neg (Nat.not_lt.2 hle)] at h
  split at h
  · cases h
  · split at h
    · cases h
    · rename_i ho
      intro i hi
      have ht := find?_eq_none.1 ho _ (mem_map_of_mem (mem_range.2 hi))
      simp only [Bool.not_eq_true', Bool.not_eq_false, contains_eq_mem, decide_eq_true_eq] at ht
      exact mem_map.1 ht

theorem putNodeSubnet_ok (h : putNodeSubnet subnets row = .ok subs') : subs' = subnets.put row := by
  unfold putNodeSubnet at h
  split at h
  · cases h
  · exact (Except.ok.inj h).symm

theorem allocateNodeSubnet_ok (h : allocateNodeSubnet subnets al = .ok subs') :
    ∃ parsed row, parseClusterCidr al.clusterCidr = .ok parsed ∧ subs' = subnets.put row ∧
      (row ∈ subnets.rows ∨ FreshRow subnets parsed row) := by
  obtain ⟨row, hr, hp⟩ := bind_eq_ok.1 h
  obtain ⟨parsed, ha, hc⟩ := allocateNodeSubnetRow_ok hr
  exact ⟨parsed, row, ha, putNodeSubnet_ok hp, hc⟩

theorem allocateNodeSubnet_keeps (h : allocateNodeSubnet subnets al = .ok subs')
    (hr : ro ∈ subnets.rows) : ro ∈ subs'.rows := by
  obtain ⟨ps, wr, -, rfl, hc⟩ := allocateNodeSubnet_ok h
  refine mem_put.2 ?_
  rcases hc with ht | hfr
  · by_cases hk : ro.nodeName = wr.nodeName
    · -- one row a node, so it is the one that is written back
      have hf := find_of_mem ht
      rw [← hk, find_of_mem hr] at hf
      exact .inl (Option.some.inj hf)
    · exact .inr ⟨hr, hk⟩
  · exact .inr ⟨hr, find_eq_none_iff.1 hfr.absent ro hr⟩

end Allocation

/-! ## The invariant -/

/-- Every row holds a block of the cluster, and no two rows the same. -/
structure Allocated (cluster : ClusterCidr) (subnets : NodeSubnets) : Prop where
  block : ∀ row ∈ subnets.rows, ∃ i < cluster.blockCount, row.subnetBaseInt = cluster.blockBase i
  text : ∀ row ∈ subnets.rows, row.subnet = subnetText row.subnetBaseInt
  distinct : ∀ row ∈ subnets.rows, ∀ other ∈ subnets.rows, row.subnetBaseInt = other.subnetBaseInt → row = other

/-- An allocation names the cluster, however its CIDR is written; one that names no CIDR is refused. -/
def LogApplyNodeSubnetAllocation.OfCluster (cluster : ClusterCidr) (allocation : LogApplyNodeSubnetAllocation) : Prop :=
  ∀ parsed, parseClusterCidr allocation.clusterCidr = .ok parsed →
    parsed.network = cluster.network ∧ parsed.prefixLen = cluster.prefixLen

/-- Node subnets are allocated from one cluster and deleted, but not put as they are. -/
def LogApplyMutation.AllocatesFrom (cluster : ClusterCidr) : LogApplyMutation → Prop
  | .putNodeSubnet _ => False
  | .allocateNodeSubnet allocation => allocation.OfCluster cluster
  | _ => True

variable {p : ApplyPolicies} {es : List LogApplyCommit}

section Invariant

variable {cluster : ClusterCidr} {mu : LogApplyMutation}

theorem Allocated.empty (cluster : ClusterCidr) : Allocated cluster .empty := by
  refine ⟨?_, ?_, ?_⟩ <;> exact fun ro hr => nomatch hr

theorem blocks_same (hn : ps.network = cluster.network) (hle : ps.prefixLen = cluster.prefixLen) :
    ps.blockCount = cluster.blockCount ∧ ∀ i, ps.blockBase i = cluster.blockBase i := by
  simp [ClusterCidr.blockCount, ClusterCidr.blockBase, hn, hle]

section

variable (h : Allocated cluster subnets)
include h

theorem Allocated.put (hf : FreshRow subnets cluster ro) : Allocated cluster (subnets.put ro) := by
  refine ⟨fun r hr => ?_, fun r hr => ?_, fun r hr o ho heq => ?_⟩
  · rcases mem_put.1 hr with rfl | ⟨hr, -⟩
    · exact hf.block
    · exact h.block r hr
  · rcases mem_put.1 hr with rfl | ⟨hr, -⟩
    · exact hf.text
    · exact h.text r hr
  · rcases mem_put.1 hr with rfl | ⟨hl, -⟩
    · rcases mem_put.1 ho with rfl | ⟨ho', -⟩
      · rfl
      · exact absurd heq.symm (hf.free o ho')
    · rcases mem_put.1 ho with rfl | ⟨ho', -⟩
      · exact absurd heq (hf.free r hl)
      · exact h.distinct r hl o ho' heq

theorem Allocated.subset (hs : ∀ r ∈ subnets'.rows, r ∈ subnets.rows) : Allocated cluster subnets' :=
  ⟨fun r hr => h.block r (hs r hr), fun r hr => h.text r (hs r hr), fun r hr o ho => h.distinct r (hs r hr) o (hs o ho)⟩

theorem allocateNodeSubnet_allocated (hc : al.OfCluster cluster)
    (hk : allocateNodeSubnet subnets al = .ok subnets') : Allocated cluster subnets' := by
  obtain ⟨ps, ro, hp, rfl, hs⟩ := allocateNodeSubnet_ok hk
  rcases hs with ht | hfr
  · refine h.subset fun r hr => ?_
    rcases mem_put.1 hr with rfl | ⟨hr, -⟩
    · exact ht
    · exact hr
  · obtain ⟨hn, hle⟩ := hc ps hp
    obtain ⟨hct, hbase⟩ := blocks_same hn hle
    refine h.put ⟨?_, hfr.text, hfr.free, hfr.absent⟩
    obtain ⟨i, hi, heq⟩ := hfr.block
    exact ⟨i, hct ▸ hi, heq.trans (hbase i)⟩

theorem subnetsAfter_allocated (hm : mu.AllocatesFrom cluster)
    (ha : mu.subnetsAfter subnets = .ok subnets') : Allocated cluster subnets' := by
  cases mu with
  | putNodeSubnet ro => exact hm.elim
  | allocateNodeSubnet al => exact allocateNodeSubnet_allocated h hm ha
  | deleteNodeSubnet nod =>
    cases ha
    exact h.subset fun r hr => (mem_deleteWhere.1 hr).1
  | _ =>
    cases ha
    exact h

end

theorem stampMutation_allocatesFrom (v : Int) (pr : Bool) (hm : mu.AllocatesFrom cluster) :
    (stampMutation cx v pr mu).AllocatesFrom cluster := by
  cases mu with
  | putNodeSubnet ro => exact hm.elim
  | allocateNodeSubnet al => exact hm
  | _ => trivial

theorem runEntries_allocated {db : ClusterDb} (hn : ∀ e ∈ es, ∀ m ∈ e.mutations, m.AllocatesFrom cluster)
    (hb : Allocated cluster db.tables.nodeSubnets) :
    Allocated cluster (runEntries p cx db es).tables.nodeSubnets := by
  refine runEntries_invariant (P := fun tables => Allocated cluster tables.nodeSubnets) (fun _ _ h => h)
    (fun hm ha h => subnetsAfter_allocated h hm (applyClusterMutation_effects ha).ledger_subnets.2)
    (fun ve prs _ => stampMutation_allocatesFrom ve prs) (fun hf => ?_) hn hb
  cases hf <;> trivial

theorem subnetsAfter_keeps (hm : mu.AllocatesFrom cluster) (hd : mu ≠ .deleteNodeSubnet ro.nodeName)
    (ha : mu.subnetsAfter subnets = .ok subs') (hr : ro ∈ subnets.rows) : ro ∈ subs'.rows := by
  cases mu with
  | putNodeSubnet ro => exact hm.elim
  | allocateNodeSubnet al => exact allocateNodeSubnet_keeps ha hr
  | deleteNodeSubnet nodeName =>
    cases ha
    refine mem_deleteWhere.2 ⟨hr, ?_⟩
    simpa using fun heq : ro.nodeName = nodeName => hd (by rw [heq])
  | _ =>
    cases ha
    exact hr

theorem stampMutation_ne_delete {nodeName : String} (v : Int) (pr : Bool) (hd : mu ≠ .deleteNodeSubnet nodeName) :
    stampMutation cx v pr mu ≠ .deleteNodeSubnet nodeName := by
  cases mu with
  | deleteNodeSubnet nm => exact hd
  | _ => exact nofun

theorem runEntries_keeps {db : ClusterDb}
    (hn : ∀ e ∈ es, ∀ m ∈ e.mutations, m.AllocatesFrom cluster ∧ m ≠ .deleteNodeSubnet ro.nodeName)
    (hr : ro ∈ db.tables.nodeSubnets.rows) :
    ro ∈ (runEntries p cx db es).tables.nodeSubnets.rows := by
  refine runEntries_invariant (P := fun tables => ro ∈ tables.nodeSubnets.rows) (fun _ _ h => h)
    (fun hm ha h => subnetsAfter_keeps hm.1 hm.2 (applyClusterMutation_effects ha).ledger_subnets.2 h)
    (fun ve prs _ hm =>
      ⟨stampMutation_allocatesFrom ve prs hm.1, stampMutation_ne_delete ve prs hm.2⟩)
    (fun hf => ?_) hn hr
  cases hf with
  | event => exact ⟨trivial, nofun⟩
  | delete => exact ⟨trivial, nofun⟩

section

variable (h : Allocated cluster subnets) (hbase : cluster.base < 2 ^ 32) (hle : cluster.prefixLen ≤ 24)
include h hbase hle

theorem Allocated.base_lt (hr : ro ∈ subnets.rows) : ro.subnetBaseInt < 2 ^ 32 ∧ ro.subnetBaseInt % 2 ^ 8 = 0 := by
  obtain ⟨i, hi, heq⟩ := h.block ro hr
  obtain ⟨-, -, -, hf, ha⟩ := blockBase_fits hbase hle hi
  rw [heq]
  exact ⟨by omega, ha⟩

theorem putNodeSubnet_succeeds (hc : ro ∈ subnets.rows ∨ FreshRow subnets cluster ro) :
    putNodeSubnet subnets ro = .ok (subnets.put ro) := by
  unfold putNodeSubnet
  rw [if_neg]
  intro ha
  obtain ⟨o, ho, hl⟩ := any_eq_true.1 ha
  simp only [Bool.and_eq_true, decide_eq_true_eq] at hl
  obtain ⟨hx, hn⟩ := hl
  have hr : ro.subnet = subnetText ro.subnetBaseInt ∧ ro.subnetBaseInt < 2 ^ 32 := by
    rcases hc with ht | hfr
    · exact ⟨h.text ro ht, (h.base_lt hbase hle ht).1⟩
    · obtain ⟨i, hi, heq⟩ := hfr.block
      obtain ⟨-, -, -, hf, -⟩ := blockBase_fits hbase hle hi
      exact ⟨hfr.text, by omega⟩
  rw [h.text o ho, hr.1] at hx
  have hs := subnetText_inj (h.base_lt hbase hle ho).1 hr.2 hx
  rcases hc with ht | hfr
  · exact hn (by rw [h.distinct o ho ro ht hs])
  · exact hfr.free o ho hs

/-- An allocation for the cluster fails only if it is malformed or every block is held, by other nodes. -/
theorem allocateNodeSubnet_error (hc : al.OfCluster cluster) (he : allocateNodeSubnet subnets al = .error err) :
    al.isWellFormed = false ∨ ∀ i < cluster.blockCount, ∃ o ∈ subnets.rows, o.subnetBaseInt = cluster.blockBase i := by
  by_cases hw : al.isWellFormed
  · right
    obtain ⟨parsed, hp⟩ : ∃ parsed, parseClusterCidr al.clusterCidr = .ok parsed := by
      simp only [LogApplyNodeSubnetAllocation.isWellFormed, Bool.and_eq_true] at hw
      exact isOk_iff.1 hw.2
    obtain ⟨hn, hs⟩ := hc parsed hp
    obtain ⟨ht, hb⟩ := blocks_same hn hs
    rcases bind_eq_error.1 he with hr | ⟨ro, hr, hu⟩
    · have hh := allocateNodeSubnetRow_error hp (hs ▸ hle) hr hw
      intro i hi
      rw [← hb i]
      exact hh i (ht ▸ hi)
    · -- the upsert of the answered row does not fail
      obtain ⟨parsed', hp', hcs⟩ := allocateNodeSubnetRow_ok hr
      cases hp.symm.trans hp'
      rw [putNodeSubnet_succeeds h hbase hle (hcs.imp_right fun hf => ?_)] at hu
      · cases hu
      · obtain ⟨i, hi, heq⟩ := hf.block
        exact ⟨⟨i, ht ▸ hi, heq.trans (hb i)⟩, hf.text, hf.free, hf.absent⟩
  · exact .inl (by simpa using hw)

end

end Invariant

/-- Over every run that allocates from one cluster CIDR and puts no row as it is: the rows hold disjoint `/24` blocks
inside the CIDR; a row stays, whatever is allocated next, until its node is deleted; a well-formed allocation fails only
when every block is held; and no address computed leaves 32 bits. -/
theorem node_subnets_allocated (policies : ApplyPolicies) (context : TransactionContext) (cidr : String)
    (cluster : ClusterCidr) (hcidr : parseClusterCidr cidr = .ok cluster) (hlen : cluster.prefixLen ≤ 24)
    (db : ClusterDb) (hempty : db.tables.nodeSubnets = .empty) (entries : List LogApplyCommit)
    (hentries : ∀ entry ∈ entries, ∀ m ∈ entry.mutations, m.AllocatesFrom cluster) :
    let reached := runEntries policies context db entries
    let subnets := reached.tables.nodeSubnets
    (∀ row ∈ subnets.rows, parsePodSubnet row.subnet = .ok ⟨row.subnetBaseInt, 24⟩ ∧
      PodSubnet.addresses ⟨row.subnetBaseInt, 24⟩ ⊆ cluster.addresses) ∧
    (∀ row ∈ subnets.rows, ∀ o ∈ subnets.rows, row.nodeName ≠ o.nodeName →
      Disjoint (PodSubnet.addresses ⟨row.subnetBaseInt, 24⟩) (PodSubnet.addresses ⟨o.subnetBaseInt, 24⟩)) ∧
    (∀ row ∈ subnets.rows, ∀ lat : List LogApplyCommit,
      (∀ entry ∈ lat, ∀ m ∈ entry.mutations, m.AllocatesFrom cluster ∧ m ≠ .deleteNodeSubnet row.nodeName) →
        row ∈ (runEntries policies context reached lat).tables.nodeSubnets.rows) ∧
    (∀ allocation err, allocation.OfCluster cluster → allocateNodeSubnet subnets allocation = .error err →
      allocation.isWellFormed = false ∨
        ∀ i < cluster.blockCount, ∃ row ∈ subnets.rows, row.subnetBaseInt = cluster.blockBase i) ∧
    ∀ i < cluster.blockCount, i * 2 ^ 8 < 2 ^ 32 ∧ cluster.blockBase i + 2 ^ 8 ≤ 2 ^ 32 := by
  intro reached subnets
  have hbase := parseClusterCidr_base_lt hcidr
  have hn : Allocated cluster subnets := runEntries_allocated hentries (by rw [hempty]; exact .empty cluster)
  refine ⟨fun row hr => ?_, fun row hr o ho hne => ?_, fun row hr lat hl => ?_,
    fun allocation err hc he => allocateNodeSubnet_error hn hbase hlen hc he, fun i hi => ?_⟩
  · obtain ⟨hlt, ha⟩ := hn.base_lt hbase hlen hr
    obtain ⟨i, hi, heq⟩ := hn.block row hr
    refine ⟨?_, ?_⟩
    · rw [hn.text row hr]
      exact parsePodSubnet_subnetText hlt ha
    · rw [heq]
      exact block_addresses_subset hbase hlen hi
  · refine blocks_disjoint (hn.base_lt hbase hlen hr).2 (hn.base_lt hbase hlen ho).2 fun heq => hne ?_
    rw [hn.distinct row hr o ho heq]
  · exact runEntries_keeps hl hr
  · obtain ⟨hs, -, -, hf, -⟩ := blockBase_fits hbase hlen hi
    exact ⟨hs, hf⟩

/-! ## A run of three nodes -/

def sampleCluster : ClusterCidr := ⟨170524672, 16⟩

theorem sampleCluster_parses : parseClusterCidr "10.42.0.0/16" = .ok sampleCluster := by decide +kernel

def sampleAllocation (nodeName : String) : LogApplyMutation :=
  .allocateNodeSubnet ⟨nodeName, "10.42.0.0/16", "192.168.0.1"⟩

theorem sampleAllocation_allocatesFrom (no : String) : (sampleAllocation no).AllocatesFrom sampleCluster := by
  intro ps hp
  rw [sampleCluster_parses] at hp
  cases hp
  exact ⟨rfl, rfl⟩

/-- Two nodes, of which the first goes and leaves its block to a third. -/
def sampleSubnetRun : List LogApplyCommit :=
  [{ mutations := [sampleAllocation "a"] }, { mutations := [sampleAllocation "b"] },
    { mutations := [.deleteNodeSubnet "a"] }, { mutations := [sampleAllocation "c"] },
    { mutations := [sampleAllocation "b"] }]

theorem sampleSubnetRun_allocatesFrom : ∀ e ∈ sampleSubnetRun, ∀ m ∈ e.mutations, m.AllocatesFrom sampleCluster := by
  intro e he m hm
  simp only [sampleSubnetRun, mem_cons, not_mem_nil, or_false] at he
  rcases he with rfl | rfl | rfl | rfl | rfl
  all_goals
    obtain rfl := mem_singleton.1 hm
  · exact sampleAllocation_allocatesFrom "a"
  · exact sampleAllocation_allocatesFrom "b"
  · trivial
  · exact sampleAllocation_allocatesFrom "c"
  · exact sampleAllocation_allocatesFrom "b"

theorem node_subnets_allocated_reuse :
    let subnets := (runEntries samplePolicies sampleContext .empty sampleSubnetRun).tables.nodeSubnets
    subnets.rows.map (fun row => (row.nodeName, row.subnet)) = [("b", "10.42.1.0/24"), ("c", "10.42.0.0/24")] ∧
    ∀ row ∈ subnets.rows, ∀ other ∈ subnets.rows, row.nodeName ≠ other.nodeName →
      Disjoint (PodSubnet.addresses ⟨row.subnetBaseInt, 24⟩) (PodSubnet.addresses ⟨other.subnetBaseInt, 24⟩) :=
  ⟨by decide +kernel, (node_subnets_allocated samplePolicies sampleContext "10.42.0.0/16" sampleCluster
    sampleCluster_parses (by decide) .empty rfl sampleSubnetRun sampleSubnetRun_allocatesFrom).2.1⟩

/-- A node name that does not parse is refused while every block is free. -/
theorem malformed_allocation_fails :
    applyCommitInTxForRaftWithContext samplePolicies sampleContext .empty { mutations := [sampleAllocation "-a"] } =
      .error (.other "Invalid node name -a: Node name cannot start or end with hyphen") ∧
    parseClusterCidr "10.42.0.0/16" = .ok sampleCluster ∧ sampleCluster.blockCount = 256 := by
  decide +kernel

end Klights.Store
