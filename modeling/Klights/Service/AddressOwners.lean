import Klights.Service.Allocators

/-!
# Who has an address

The allocators and the stored Services of `Klights.Service.Allocators` as an `Owned` pool: the addresses are the
allocated ClusterIPs and NodePorts, and the holders are the stored Services and the tasks under way.

- `Inv`: no two holders have an address in common, and all that they have is allocated;
- `Careful`: a creation without addresses of its own; a rebuild from the stored Services while no task has any address;
  a deletion of a Service that names no NodePort twice;
- `inv_step`, `services_apart`: careful steps keep the invariant, so no two stored Services share an address, and an
  address that is freed is one that no Service stored or under way uses.
-/

namespace Klights.Service

open Lib Store List Table Function World PendingServiceAllocations

variable {world : World} {ip port pt i : Nat} {task tk : Task} {address ar : Address} {key : ServiceKey}
  {service : Json} {pending : PendingServiceAllocations}

/-! ## Holders -/

inductive Holder where
  | stored (key : ServiceKey)
  | task (i : Nat)
  deriving DecidableEq

/-- The addresses a task has: those of its Service and those it was given, or those it is to release. -/
def Task.holds : Task → Finset Address
  | .addressing _ service => addressesOf service
  | .listing _ service => addressesOf service
  | .relisted _ service _ => addressesOf service
  | .porting _ service _ pending => addressesOf service ∪ pending.addresses.toFinset
  | .prepared _ service pending => addressesOf service ∪ pending.addresses.toFinset
  | .releasing addresses => addresses.toFinset
  | .rebuildingIps _ => ∅
  | .rebuildingPorts _ => ∅

/-- No address is released twice. -/
def Task.Tidy : Task → Prop
  | .porting _ _ _ pending => pending.addresses.Nodup
  | .prepared _ _ pending => pending.addresses.Nodup
  | .releasing addresses => addresses.Nodup
  | _ => True

def taskHolds (task : Option Task) : Finset Address := (task.map Task.holds).getD ∅

namespace World

def taken (world : World) : Finset Address :=
  world.ipam.allocated.image .clusterIp ∪ world.nodePorts.allocated.image .nodePort

def holds (world : World) : Holder → Finset Address
  | .stored key => ((world.stored.find key).map fun row => addressesOf row.2).getD ∅
  | .task i => taskHolds (world.tasks i)

@[simp] theorem clusterIp_mem_taken : .clusterIp ip ∈ world.taken ↔ ip ∈ world.ipam.allocated := by
  simp [taken]

@[simp] theorem nodePort_mem_taken : .nodePort pt ∈ world.taken ↔ pt ∈ world.nodePorts.allocated := by
  simp [taken]

theorem holds_setTask (world : World) (i : Nat) (task : Option Task) :
    (world.setTask i task).holds = Function.update world.holds (.task i) (taskHolds task) := by
  funext ho
  cases ho with
  | stored key => rw [update_of_ne (by simp)]; rfl
  | task j =>
    rcases eq_or_ne j i with rfl | hj
    · simp [holds, setTask]
    · rw [update_of_ne (by simpa using hj)]
      simp [holds, setTask, update_of_ne hj]

theorem holds_put (world : World) (key : ServiceKey) (service : Json) :
    holds { world with stored := world.stored.put (key, service) } =
      Function.update world.holds (.stored key) (addressesOf service) := by
  funext hl
  cases hl with
  | task i => rw [update_of_ne (by simp)]; rfl
  | stored o =>
    rcases eq_or_ne o key with rfl | ho
    · rw [update_self, holds, find_put_self]
      rfl
    · rw [update_of_ne (by simpa using ho), holds, holds, find_put_ne (Ne.symm ho)]

theorem holds_deleteWhere (world : World) (key : ServiceKey) :
    holds { world with stored := world.stored.deleteWhere fun row => row.1 = key } =
      Function.update world.holds (.stored key) ∅ := by
  funext hl
  cases hl with
  | task i => rw [update_of_ne (by simp)]; rfl
  | stored o =>
    rw [holds, find_deleteWhere_key]
    rcases eq_or_ne o key with rfl | ho
    · rw [update_self, if_pos rfl]
      rfl
    · rw [update_of_ne (by simpa using ho), if_neg (Ne.symm ho), holds]

theorem holds_congr {o : World} (hs : o.stored = world.stored) (ht : o.tasks = world.tasks) :
    o.holds = world.holds := by
  funext ho
  cases ho with
  | stored key => rw [holds, holds, hs]
  | task i => rw [holds, holds, ht]

theorem taken_unlock (world : World) (i : Nat) : (world.unlock i).taken = world.taken := by
  unfold unlock
  split <;> rfl

theorem holds_unlock (world : World) (i : Nat) : (world.unlock i).holds = world.holds := by
  unfold unlock
  split
  · exact holds_congr rfl rfl
  · rfl

theorem tasks_unlock (world : World) (i : Nat) : (world.unlock i).tasks = world.tasks := by
  unfold unlock
  split <;> rfl

end World

/-! ## The invariant -/

structure Inv (world : World) : Prop where
  owned : Owned world.taken world.holds
  tidy : ∀ i task, world.tasks i = some task → task.Tidy

theorem Inv.unlock (h : Inv world) (i : Nat) : Inv (world.unlock i) where
  owned := by
    rw [world.taken_unlock i, world.holds_unlock i]
    exact h.owned
  tidy := by
    rw [world.tasks_unlock i]
    exact h.tidy

theorem tidy_setTask {task : Option Task} (h : ∀ i task, world.tasks i = some task → task.Tidy)
    (hi : ∀ t, task = some t → t.Tidy) : ∀ j t, (world.setTask i task).tasks j = some t → t.Tidy := by
  intro j t ht
  change Function.update world.tasks i task j = some t at ht
  rcases eq_or_ne j i with rfl | hj
  · rw [update_self] at ht
    exact hi t ht
  · rw [update_of_ne hj] at ht
    exact h j t ht

theorem Inv.setTask (h : Inv world) {task : Option Task} (ht : taskHolds task ⊆ world.holds (.task i))
    (hi : ∀ t, task = some t → t.Tidy) : Inv (world.setTask i task) where
  owned := by
    rw [world.holds_setTask]
    exact h.owned.shrink ht
  tidy := tidy_setTask h.tidy hi

theorem holds_of_task (h : world.tasks i = some tk) : world.holds (.task i) = tk.holds := by
  rw [holds, h]
  rfl

/-! ## Allocations -/

theorem ServiceIpam.allocate_ok {ipam aft : ServiceIpam} {clu : String} (h : ipam.allocate = .ok (clu, aft)) :
    ∃ ip, clu = ipv4Text ip ∧ ip < 2 ^ 32 ∧ ip ∉ ipam.allocated ∧
      aft = { ipam with allocated := insert ip ipam.allocated } := by
  unfold ServiceIpam.allocate at h
  split at h
  · cases h
  · rename_i ip hn
    cases h
    have hl : ip ≤ ipam.endIp.toNat := Pool.next_le_last hn
    have hb := ipam.endIp.toNat_lt
    exact ⟨ip, rfl, by omega, Pool.next_free hn, rfl⟩

theorem NodePortAllocator.allocate_ok {al aft : NodePortAllocator} (h : al.allocate = .ok (pt, aft)) :
    pt ∉ al.allocated ∧ aft = { al with allocated := insert pt al.allocated } := by
  unfold NodePortAllocator.allocate at h
  split at h
  · cases h
  · split at h
    · cases h
    · rename_i pt hn
      cases h
      exact ⟨Pool.next_free hn, rfl⟩

theorem Inv.give {g : World} (h : Inv world) (hf : ar ∉ world.taken)
    (hk : g.taken = insert ar world.taken) (hs : g.stored = world.stored)
    (hts : g.tasks = world.tasks) (hl : tk.holds ⊆ insert ar (world.holds (.task i))) (hi : tk.Tidy) :
    Inv (g.setTask i (some tk)) where
  owned := by
    rw [holds_setTask, holds_congr hs hts]
    change Owned g.taken _
    rw [hk]
    exact h.owned.give hf hl
  tidy := by
    refine tidy_setTask (hts ▸ h.tidy) fun t ht => ?_
    cases ht
    exact hi

/-- An allocation of a ClusterIP, to a task that has its Service's addresses at least. -/
theorem Inv.allocateClusterIp {after : World} (h : Inv world) (hs : addressesOf service ⊆ world.holds (.task i))
    (haft : world.allocateClusterIp i key service = some after) : Inv after := by
  unfold World.allocateClusterIp at haft
  split at haft
  · cases haft
  · rename_i cl ipa ha
    obtain ⟨ip, rfl, hb, hf, rfl⟩ := ServiceIpam.allocate_ok ha
    cases haft
    have hp : (PendingServiceAllocations.mk (some (ipv4Text ip)) []).addresses = [.clusterIp ip] := by
      simp [addresses, parseIpToU32_ipv4Text hb]
    -- the ClusterIP is the only new address of the Service
    have hn : addressesOf (service.modifyField "spec" fun sp =>
        normalizeServiceIpFamilyDefaults (setClusterIp (ipv4Text ip) sp)) ⊆
        insert (.clusterIp ip) (addressesOf service) := addressesOf_modify fun sp => by
      rw [specAddresses_ipFamilyDefaults]
      exact specAddresses_setClusterIp hb
    have hf' : Address.clusterIp ip ∉ world.taken := by simpa using hf
    refine h.give hf' ?_ rfl rfl ?_ ?_
    · simp [taken, Finset.image_insert]
    · rw [Task.holds, hp]
      refine Finset.union_subset (hn.trans (Finset.insert_subset_insert _ hs)) ?_
      simp
    · rw [Task.Tidy, hp]
      exact nodup_singleton _

section

variable {ix : Nat} (h : Inv world) (htask : world.tasks i = some (.porting key service ix pending))
include h htask

theorem Inv.givePort {next : Nat} {nr : Nat} (hf : nr ∉ world.nodePorts.allocated) : Inv ({ world with
        nodePorts := { world.nodePorts with allocated := insert nr world.nodePorts.allocated } }.setTask i
      (some (.porting key (service.modifyField "spec" (setNodePort ix nr)) next
        { pending with nodePorts := pending.nodePorts ++ [nr] }))) := by
  have hh := holds_of_task htask
  have ht : pending.addresses.Nodup := h.tidy i _ htask
  have hf' : Address.nodePort nr ∉ world.taken := by simpa using hf
  have hp : ({ pending with nodePorts := pending.nodePorts ++ [nr] } :
      PendingServiceAllocations).addresses = pending.addresses ++ [.nodePort nr] := by
    simp [addresses]
  have hn : addressesOf (service.modifyField "spec" (setNodePort ix nr)) ⊆
      insert (.nodePort nr) (addressesOf service) :=
    addressesOf_modify fun spec => specAddresses_setNodePort ix nr
  refine h.give hf' ?_ rfl rfl ?_ ?_
  · simp [taken, Finset.image_insert, Finset.union_insert]
  · rw [Task.holds, hp, hh, Task.holds, toFinset_append]
    intro ar ha
    simp only [Finset.mem_union, toFinset_cons, toFinset_nil, Finset.mem_insert, Finset.notMem_empty, or_false] at ha ⊢
    rcases ha with hsvc | hold | hnum
    · rcases Finset.mem_insert.1 (hn hsvc) with heq | hsvc
      · exact .inl heq
      · exact .inr (.inl hsvc)
    · exact .inr (.inr hold)
    · exact .inl hnum
  · -- what is given was free, so the task had not been given it before
    rw [Task.Tidy, hp]
    refine List.Nodup.append ht (nodup_singleton _) ?_
    rw [disjoint_singleton]
    intro hm
    refine hf' (h.owned.covered (.task i) ?_)
    rw [hh]
    exact Finset.mem_union_right _ (mem_toFinset.2 hm)

theorem Inv.allocateNodePort : Inv (world.allocateNodePort i key service ix pending) := by
  have hh := holds_of_task htask
  have ht : pending.addresses.Nodup := h.tidy i _ htask
  unfold World.allocateNodePort
  split
  · refine (h.unlock i).setTask ?_ ?_
    · rw [world.holds_unlock, hh]
      exact Finset.Subset.refl _
    · rintro _ ⟨⟩
      exact ht
  · split
    · split
      · refine h.setTask ?_ ?_
        · rw [hh]
          exact Finset.subset_union_right
        · rintro _ ⟨⟩
          exact ht
      · rename_i nr nod ha
        obtain ⟨hf, rfl⟩ := NodePortAllocator.allocate_ok ha
        exact h.givePort htask hf
    · refine h.setTask ?_ ?_
      · rw [hh]
        exact Finset.Subset.refl _
      · rintro _ ⟨⟩
        exact ht

end

/-! ## The store -/

theorem serviceAddresses_eq (service : Json) : serviceAddresses service =
    (serviceClusterIps service).map .clusterIp ++ (serviceNodePorts service).map .nodePort := by
  unfold serviceAddresses serviceClusterIps serviceNodePorts
  cases service.get "spec" <;> rfl

theorem clusterIp_mem_addressesOf : .clusterIp ip ∈ addressesOf service ↔ ip ∈ serviceClusterIps service := by
  simp [addressesOf, serviceAddresses_eq]

theorem nodePort_mem_addressesOf : .nodePort pt ∈ addressesOf service ↔ pt ∈ serviceNodePorts service := by
  simp [addressesOf, serviceAddresses_eq]

theorem toFinset_releasedAddresses (service : Json) : (releasedAddresses service).toFinset = addressesOf service := by
  ext ar
  simp [releasedAddresses, addressesOf, serviceAddresses_eq]

theorem nodup_releasedAddresses (h : (serviceNodePorts service).Nodup) : (releasedAddresses service).Nodup := by
  have hi : ((serviceClusterIps service).dedup.map Address.clusterIp).Nodup :=
    (nodup_dedup _).map fun _ _ heq => Address.clusterIp.inj heq
  have hs : ((serviceNodePorts service).map Address.nodePort).Nodup :=
    h.map fun _ _ heq => Address.nodePort.inj heq
  refine List.Nodup.append hi hs ?_
  intro ar hip hp
  obtain ⟨ip, -, rfl⟩ := mem_map.1 hip
  obtain ⟨pt, -, heq⟩ := mem_map.1 hp
  cases heq

theorem Inv.store (h : Inv world) (htask : world.tasks i = some (.prepared key service pending)) :
    Inv ({ world with stored := world.stored.put (key, service) }.setTask i none) where
  owned := by
    have hp : addressesOf service ⊆ world.holds (.task i) := by
      rw [holds_of_task htask]
      exact Finset.subset_union_left
    rw [holds_setTask, holds_put, update_comm (by simp)]
    exact h.owned.move hp
  tidy := tidy_setTask h.tidy fun _ => nofun

variable {row ro : ServiceKey × Json} {services s : List Json}

theorem Inv.delete (h : Inv world) (hf : world.stored.find key = some ro) (hs : (serviceNodePorts ro.2).Nodup) :
    Inv ({ world with stored := world.stored.deleteWhere fun o => o.1 = key }.setTask i
      (some (.releasing (releasedAddresses ro.2)))) where
  owned := by
    have hp : (releasedAddresses ro.2).toFinset ⊆ world.holds (.stored key) := by
      rw [toFinset_releasedAddresses, holds, hf]
      exact Finset.Subset.refl _
    rw [holds_setTask, holds_deleteWhere]
    exact h.owned.move hp
  tidy := by
    refine tidy_setTask h.tidy fun _ ht => ?_
    cases ht
    exact nodup_releasedAddresses hs

/-! ## Releases and rebuilds -/

theorem taken_release (world : World) (address : Address) :
    (world.release address).taken = world.taken.erase address := by
  ext other
  cases address <;> cases other <;> simp [release]

theorem Inv.release (h : Inv world) {tl : List Address} (htask : world.tasks i = some (.releasing (address :: tl))) :
    Inv ((world.release address).setTask i (some (.releasing tl))) := by
  have hho : world.holds (.task i) = (address :: tl).toFinset := holds_of_task htask
  obtain ⟨ho, hr⟩ := nodup_cons.1 (h.tidy i _ htask)
  have hlt : taskHolds (some (.releasing tl)) ⊆ world.holds (.task i) := by
    rw [hho, toFinset_cons]
    exact Finset.subset_insert _ _
  have hk : Inv (world.setTask i (some (.releasing tl))) := h.setTask hlt fun t ht => by
    cases ht
    exact hr
  have hh' : ((world.release address).setTask i (some (.releasing tl))).holds =
      (world.setTask i (some (.releasing tl))).holds := by
    cases address <;> exact holds_congr rfl rfl
  constructor
  · rw [hh']
    change Owned (world.release address).taken _
    rw [taken_release]
    refine hk.owned.free fun hl => ?_
    rw [holds_setTask]
    by_cases hh : hl = .task i
    · subst hh
      rw [update_self]
      exact fun hm => ho (mem_toFinset.1 hm)
    · -- nobody else has what the task had
      rw [update_of_ne hh]
      have ha := h.owned.exclusive (.task i) hl (Ne.symm hh)
      rw [hho] at ha
      exact Finset.disjoint_left.1 ha (mem_toFinset.2 mem_cons_self)
  · intro j t ht
    have ht' : (world.setTask i (some (.releasing tl))).tasks j = some t := by
      cases address <;> exact ht
    exact hk.tidy j t ht'

/-- No task under way has an address. -/
def Quiet (world : World) : Prop := ∀ i, world.holds (.task i) = ∅

/-- With no task that has an address, all that is held is what the stored Services have. -/
theorem Quiet.holds_subset (hq : Quiet world) {counted : Finset Address}
    (hc : ∀ row ∈ world.stored.rows, addressesOf row.2 ⊆ counted) (hl : Holder) : world.holds hl ⊆ counted := by
  cases hl with
  | task i =>
    rw [hq i]
    exact Finset.empty_subset _
  | stored key =>
    rw [holds]
    cases hf : world.stored.find key with
    | none => exact Finset.empty_subset _
    | some row => exact hc row (find_mem hf)

theorem Inv.rebuild {r : World} (h : Inv world) (hq : Quiet world) (hs : r.stored = world.stored)
    (ht : r.tasks = world.tasks) (hc : ∀ row ∈ world.stored.rows, addressesOf row.2 ⊆ r.taken) :
    Inv r where
  owned := by
    rw [holds_congr hs ht]
    exact h.owned.recount (hq.holds_subset hc)
  tidy := by
    rw [ht]
    exact h.tidy

theorem clusterIp_rebuildIps (world : World) (hl : service ∈ s) (hm : .clusterIp ip ∈ addressesOf service) :
    .clusterIp ip ∈ (world.rebuildIps s).taken := by
  rw [clusterIp_mem_taken]
  exact mem_toFinset.2 (mem_flatMap.2 ⟨service, hl, clusterIp_mem_addressesOf.1 hm⟩)

theorem nodePort_rebuildPorts (world : World) (hl : service ∈ s)
    (hm : .nodePort pt ∈ addressesOf service) : .nodePort pt ∈ (world.rebuildPorts (some s)).taken := by
  rw [nodePort_mem_taken]
  exact mem_toFinset.2 (mem_flatMap.2 ⟨service, hl, nodePort_mem_addressesOf.1 hm⟩)

theorem Inv.taken_of_stored (h : Inv world) (hr : ro ∈ world.stored.rows) : addressesOf ro.2 ⊆ world.taken := by
  have hc := h.owned.covered (.stored ro.1)
  rwa [holds, find_of_mem hr] at hc

theorem Inv.rebuildIps (h : Inv world) (hq : Quiet world) : Inv (world.rebuildIps world.services) := by
  refine h.rebuild hq rfl rfl fun ro hr ar ha => ?_
  cases ar with
  | clusterIp ip => exact clusterIp_rebuildIps _ (mem_map_of_mem hr) ha
  | nodePort pt =>
    have ht := h.taken_of_stored hr ha
    rw [nodePort_mem_taken] at ht ⊢
    exact ht

theorem Inv.rebuildPorts (h : Inv world) (hq : Quiet world) : Inv (world.rebuildPorts (some world.services)) := by
  refine h.rebuild hq rfl rfl fun ro hr ar ha => ?_
  cases ar with
  | clusterIp ip =>
    have ht := h.taken_of_stored hr ha
    rw [clusterIp_mem_taken] at ht ⊢
    exact ht
  | nodePort pt => exact nodePort_rebuildPorts _ (mem_map_of_mem hr) ha

/-! ## Steps -/

/-- A rebuild from listed Services is careful if they are the stored ones and no task has an address. -/
def CarefulTask (world : World) : Task → Prop
  | .relisted _ _ services => services = world.services ∧ Quiet world
  | .rebuildingIps services => services = world.services ∧ Quiet world
  | .rebuildingPorts services => services = some world.services ∧ Quiet world
  | _ => True

/-- A creation is careful if the Service comes without addresses, a deletion if it names no NodePort twice. -/
def Careful (world : World) : Action → Prop
  | .create _ _ service => addressesOf service = ∅
  | .delete _ key => ∀ row, world.stored.find key = some row → (serviceNodePorts row.2).Nodup
  | .advance i _ => ∀ task, world.tasks i = some task → CarefulTask world task
  | _ => True

theorem Inv.start (h : Inv world) (hl : addressesOf service = ∅) :
    Inv (world.setTask i (startCreation key service)) := by
  have ho : ∀ tk, startCreation key service = some tk → tk.holds = ∅ ∧ tk.Tidy := by
    intro tk htask
    unfold startCreation at htask
    split at htask
    · cases htask
    · rename_i normalized hn
      have he : addressesOf normalized = ∅ :=
        Finset.subset_empty.1 (hl ▸ addressesOf_normalizeService hn)
      split at htask
      · cases htask
        exact ⟨he, trivial⟩
      · cases htask
        have heq : addressesOf (normalized.modifyField "spec" normalizeServiceIpFamilyDefaults) =
            addressesOf normalized := addressesOf_modify_same fun _ => specAddresses_ipFamilyDefaults
        refine ⟨?_, nodup_nil⟩
        rw [Task.holds, heq, he]
        rfl
  refine h.setTask ?_ fun tk htask => (ho tk htask).2
  cases htask : startCreation key service with
  | none => exact Finset.empty_subset _
  | some tk =>
    rw [taskHolds, Option.map_some, Option.getD_some, (ho tk htask).1]
    exact Finset.empty_subset _

theorem Inv.advance (h : Inv world) (htask : world.tasks i = some tk) (hc : CarefulTask world tk) (ok : Bool) :
    Inv (world.advance i ok tk) := by
  have hh := holds_of_task htask
  -- a task that ends has nothing
  have he : Inv ((world.unlock i).setTask i none) :=
    (h.unlock i).setTask (Finset.empty_subset _) fun _ => nofun
  cases tk with
  | addressing key service =>
    rw [advance]
    split
    · have hlt : addressesOf service ⊆ world.holds (.task i) := hh.symm.subset
      cases ha : world.allocateClusterIp i key service with
      | some aft => exact h.allocateClusterIp hlt ha
      | none =>
        have hg : Inv { world with guard := some i } := ⟨h.owned, h.tidy⟩
        exact hg.setTask hlt fun t ht => by cases ht; trivial
    · exact h
  | listing key service =>
    rw [advance]
    split
    · exact h.setTask hh.symm.subset fun t ht => by cases ht; trivial
    · exact he
  | relisted key service s =>
    obtain ⟨rfl, hq⟩ := hc
    have hr := h.rebuildIps hq
    have hlt : addressesOf service ⊆ (world.rebuildIps world.services).holds (.task i) := hh.symm.subset
    rw [advance]
    cases ha : (world.rebuildIps world.services).allocateClusterIp i key service with
    | some aft => exact hr.allocateClusterIp hlt ha
    | none => exact (hr.unlock i).setTask (Finset.empty_subset _) fun _ => nofun
  | porting key service ix pending => exact h.allocateNodePort htask
  | prepared key service pending =>
    rw [advance]
    split
    · exact h.store htask
    · refine h.setTask ?_ fun t ht => ?_
      · rw [hh]
        exact Finset.subset_union_right
      · have hi : pending.addresses.Nodup := h.tidy i _ htask
        cases ht
        exact hi
  | releasing ad =>
    cases ad with
    | nil => exact he
    | cons ar tl => exact h.release htask
  | rebuildingIps s =>
    obtain ⟨rfl, hq⟩ := hc
    exact (h.rebuildIps hq).setTask (Finset.empty_subset _) fun _ => nofun
  | rebuildingPorts s =>
    obtain ⟨rfl, hq⟩ := hc
    exact (h.rebuildPorts hq).setTask (Finset.empty_subset _) fun _ => nofun

theorem inv_step (h : Inv world) {act : Action} (hc : Careful world act) : Inv (step world act) := by
  cases act with
  | create i key service =>
    rw [step]
    split
    · exact h.start hc
    · exact h
  | delete i key =>
    rw [step]
    split
    · rename_i ro _ hf
      exact h.delete hf (hc ro hf)
    · exact h
  | listForIps | listForPorts =>
    rw [step]
    split
    · exact h.setTask (Finset.empty_subset _) fun t ht => by cases ht; trivial
    · exact h
  | advance i ok =>
    rw [step]
    split
    · exact h
    · rename_i tk htask
      exact h.advance htask (hc tk htask) ok

/-! ## Runs -/

/-- No two stored Services have an address in common. -/
def Apart (world : World) : Prop :=
  ∀ row ∈ world.stored.rows, ∀ other ∈ world.stored.rows, row.1 ≠ other.1 →
    Disjoint (addressesOf row.2) (addressesOf other.2)

instance (world : World) : Decidable (Apart world) :=
  inferInstanceAs (Decidable (∀ row ∈ world.stored.rows, ∀ other ∈ world.stored.rows, _ → _))

def Task.uses : Task → Finset Address
  | .releasing _ => ∅
  | task => task.holds

def Uses (world : World) (address : Address) : Prop :=
  (∃ row ∈ world.stored.rows, address ∈ addressesOf row.2) ∨ ∃ i task, world.tasks i = some task ∧ address ∈ task.uses

/-- After a step the stored Services are apart, and what it frees is unused. -/
def StepSafe (world : World) (action : Action) : Prop :=
  Apart (step world action) ∧
    ∀ address ∈ world.taken, address ∉ (step world action).taken → ¬Uses (step world action) address

theorem Inv.apart (h : Inv world) : Apart world := by
  intro ro hr o ho hne
  have he := h.owned.exclusive (.stored ro.1) (.stored o.1) fun heq => hne (Holder.stored.inj heq)
  rwa [holds, holds, find_of_mem hr, find_of_mem ho] at he

theorem Inv.taken_of_uses (h : Inv world) (hu : Uses world ar) : ar ∈ world.taken := by
  rcases hu with ⟨ro, hr, hm⟩ | ⟨i, tk, htask, hm⟩
  · exact h.taken_of_stored hr hm
  · refine h.owned.covered (.task i) ?_
    rw [holds_of_task htask]
    cases tk with
    | releasing _ => exact absurd hm (Finset.notMem_empty _)
    | _ => exact hm

/-- The allocators as they are rebuilt from stored Services, with no task under way. -/
def rebuilt (startIp endIp : UInt32) (stored : StoredServices) : World :=
  let world : World := ⟨stored, ⟨startIp, endIp, ∅⟩, ⟨∅, .notReady⟩, none, fun _ => none⟩
  (world.rebuildIps world.services).rebuildPorts (some world.services)

theorem inv_rebuilt {sa e : UInt32} {stored : StoredServices} (hp : Apart (rebuilt sa e stored)) :
    Inv (rebuilt sa e stored) where
  owned := by
    constructor
    · intro hol o hne
      cases hol with
      | task i => exact Finset.disjoint_empty_left _
      | stored key =>
        cases o with
        | task i => exact Finset.disjoint_empty_right _
        | stored ot =>
          rw [holds, holds]
          cases hf : (rebuilt sa e stored).stored.find key with
          | none => exact Finset.disjoint_empty_left _
          | some ro =>
            cases ho : (rebuilt sa e stored).stored.find ot with
            | none => exact Finset.disjoint_empty_right _
            | some oth =>
              refine hp ro (find_mem hf) oth (find_mem ho) fun heq => hne ?_
              rw [← find_key hf, ← find_key ho, heq]
    · have hq : Quiet (rebuilt sa e stored) := fun _ => rfl
      refine hq.holds_subset fun ro hr ar ha => ?_
      have hl : ro.2 ∈ stored.rows.map Prod.snd := mem_map_of_mem hr
      cases ar with
      | clusterIp ip =>
        have hi := clusterIp_rebuildIps ⟨stored, ⟨sa, e, ∅⟩, ⟨∅, .notReady⟩, none, fun _ => none⟩ hl
          ha
        rw [clusterIp_mem_taken] at hi ⊢
        exact hi
      | nodePort pt => exact nodePort_rebuildPorts _ hl ha
  tidy := fun _ _ ht => by cases ht

/-- Along careful steps, from allocators rebuilt from Services that share no address, no two stored Services ever share
one, and an address is freed only when no Service stored or under way uses it. -/
theorem services_apart (startIp endIp : UInt32) (stored : StoredServices) (actions : List Action)
    (hapart : Apart (rebuilt startIp endIp stored))
    (hcareful : Along step Careful (rebuilt startIp endIp stored) actions) :
    Along step StepSafe (rebuilt startIp endIp stored) actions := by
  refine hcareful.of_invariant (fun world act hcareful h => ?_) (inv_rebuilt hapart)
  have hn := inv_step h hcareful
  exact ⟨hn, hn.apart, fun address _ hf hu => hf (hn.taken_of_uses hu)⟩

/-- The range 10.43.0.2 to 10.43.0.254, without Services. -/
def emptyWorld : World := rebuilt 0x0A2B0002 0x0A2B00FE Table.empty

def nodePortService : Json :=
  .obj [("spec", .obj [("ports", .arr [.obj [("port", .num 80)]]), ("type", .str "NodePort")])]

def createDelete : List Action :=
  [.create 0 ("default", "a") nodePortService, .advance 0 true, .advance 0 true, .advance 0 true, .advance 0 true,
    .delete 1 ("default", "a"), .advance 1 true, .advance 1 true]

/-- The part of `Careful` that a run without rebuilds has to show. -/
def carefulSoFar (world : World) : Action → Bool
  | .create _ _ service => decide (addressesOf service = ∅)
  | .delete _ key => (world.stored.find key).all fun row => decide (serviceNodePorts row.2).Nodup
  | .advance i _ => (world.tasks i).all fun task =>
      match task with
      | .relisted .. | .rebuildingIps _ | .rebuildingPorts _ => false
      | _ => true
  | _ => true

theorem careful_of_carefulSoFar {action : Action} (h : carefulSoFar world action) : Careful world action := by
  cases action with
  | create i key service => exact of_decide_eq_true (p := addressesOf service = ∅) h
  | delete i key =>
    intro ro hr
    simp only [carefulSoFar, hr, Option.all_some] at h
    exact of_decide_eq_true h
  | advance i ok =>
    intro tk htask
    simp only [carefulSoFar, htask, Option.all_some] at h
    cases tk with
    | relisted _ _ _ => cases h
    | rebuildingIps _ => cases h
    | rebuildingPorts _ => cases h
    | _ => trivial
  | listForIps i => trivial
  | listForPorts i ok => trivial

theorem services_apart_createDelete : Along step StepSafe emptyWorld createDelete := by
  refine services_apart 0x0A2B0002 0x0A2B00FE Table.empty createDelete (by decide) ?_
  refine ⟨careful_of_carefulSoFar ?_, careful_of_carefulSoFar ?_, careful_of_carefulSoFar ?_,
    careful_of_carefulSoFar ?_, careful_of_carefulSoFar ?_, careful_of_carefulSoFar ?_, careful_of_carefulSoFar ?_,
    careful_of_carefulSoFar ?_, trivial⟩ <;> decide +kernel

/-- A Service that asks for the first ClusterIP of the range, and one that is given it. -/
def explicitFirst : List Action :=
  [.create 0 ("default", "a") (.obj [("spec", .obj [("clusterIP", .str "10.43.0.2")])]), .advance 0 true,
    .advance 0 true,
    .create 1 ("default", "b") (.obj [("spec", .obj [])]), .advance 1 true, .advance 1 true, .advance 1 true]

/-- A rebuild between the allocation and the storing of a Service, and another Service that is given the same ClusterIP
and NodePort. -/
def rebuildBetween : List Action :=
  [.create 0 ("default", "a") nodePortService, .advance 0 true, .advance 0 true, .advance 0 true,
    .listForIps 1, .advance 1 true, .listForPorts 2 true, .advance 2 true, .advance 0 true,
    .create 3 ("default", "b") nodePortService, .advance 3 true, .advance 3 true, .advance 3 true, .advance 3 true]

/-- Two stored Services share an address after either of them. -/
theorem services_share_addresses :
    ¬Apart (explicitFirst.foldl step emptyWorld) ∧ ¬Apart (rebuildBetween.foldl step emptyWorld) := by
  decide +kernel

end Klights.Service
