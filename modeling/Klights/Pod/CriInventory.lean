import Klights.Json
import Klights.Lib.Text

/-!
# The runtime inventory

After a restart the kubelet compares its runtime rows with the leader's pods and the sandboxes of the runtime
(`diff_cri_inventory_with_in_flight_starts` in `klights-kubelet/src/reconciler/cri_inventory.rs`). Rows are judged by
their pod, sandboxes without a row by their id.

- `rowActions_verdict`, `sandboxAction_verdict`: what an action says about a pod follows from the leader's pods;
- `inventory_keeps_pods`: no pod is both kept and destroyed, unless a second sandbox carries the identity of a row.
-/

namespace Klights.Pod.CriInventory

open Lib List

structure PodLifecycleKey where
  ns : String
  name : String
  uid : String
  deriving DecidableEq

inductive OrphanReason where
  | leaderDeletedWhileDown
  | uidChangedWhileDown
  deriving DecidableEq

inductive CriInventoryAction where
  | reattachExistingSandbox (key : PodLifecycleKey) (sandboxId : String) (pod : Json)
  | recreateMissingSandbox (key : PodLifecycleKey) (pod : Json)
  | reconcileRuntime (key : PodLifecycleKey)
  | finalizeOrphan (key : PodLifecycleKey) (reason : OrphanReason)
  | dropLocalRows (key : PodLifecycleKey)
  | killColdSandbox (sandboxId : String) (key : Option PodLifecycleKey)
  | refuseEmptyCache
  deriving DecidableEq

open CriInventoryAction

inductive ContainerRuntimeState where
  | created
  | running
  | exited
  | unknown
  deriving DecidableEq

structure CriContainerInventory where
  sandboxId : String
  state : ContainerRuntimeState

structure CriPodSandboxSummary where
  sandboxId : String
  ns : String
  name : String
  uid : String

structure PodRuntimeRecord where
  pod : PodLifecycleKey
  sandboxId : Option String

/-! ## The comparison -/

/-- The leader's pod of a name, with its UID; a later entry of the list replaces an earlier one. -/
def leaderBySlot (leaderPods : List Json) (ns name : String) : Option (String × Json) :=
  leaderPods.reverse.findSome? fun pod => (pod.strAt ["metadata", "uid"]).bind fun uid =>
    if pod.strAt ["metadata", "namespace"] = some ns && pod.strAt ["metadata", "name"] = some name then some (uid, pod)
    else none

def isLeaderPod (leaderPods : List Json) (key : PodLifecycleKey) : Bool :=
  (leaderBySlot leaderPods key.ns key.name).any fun leader => leader.1 = key.uid

def CriPodSandboxSummary.key (sandbox : CriPodSandboxSummary) : Option PodLifecycleKey :=
  if [sandbox.ns, sandbox.name, sandbox.uid].all fun text => !(trim isWhitespace text.toList).isEmpty then
    some ⟨sandbox.ns, sandbox.name, sandbox.uid⟩
  else none

def isCold (runtimeRows : List PodRuntimeRecord) (sandbox : CriPodSandboxSummary) : Bool :=
  runtimeRows.all fun row => row.sandboxId ≠ some sandbox.sandboxId

section

variable (runtimeRows : List PodRuntimeRecord) (leaderPods : List Json) (criSandboxes : List CriPodSandboxSummary)
  (criContainers : List CriContainerInventory) (inFlightStarts : List PodLifecycleKey)

def rowActions (row : PodRuntimeRecord) : List CriInventoryAction :=
  let key := row.pod
  let found := row.sandboxId.filter fun id => criSandboxes.any fun sandbox => sandbox.sandboxId = id
  match leaderBySlot leaderPods key.ns key.name with
  | some (uid, pod) =>
    if uid = key.uid then
      match found with
      | some sandboxId => .reattachExistingSandbox key sandboxId pod ::
        if criContainers.any fun container => container.sandboxId = sandboxId && container.state ≠ .running then
          [.reconcileRuntime key]
        else []
      | none => [.recreateMissingSandbox key pod]
    else [.finalizeOrphan key .uidChangedWhileDown]
  | none => if found.isSome then [.finalizeOrphan key .leaderDeletedWhileDown] else [.dropLocalRows key]

/-- A sandbox without a row: the start of its pod is under way, or it is killed. -/
def sandboxAction (sandbox : CriPodSandboxSummary) : CriInventoryAction :=
  match sandbox.key.filter fun key => isLeaderPod leaderPods key && inFlightStarts.contains key with
  | some key => .reconcileRuntime key
  | none => .killColdSandbox sandbox.sandboxId sandbox.key

def diffCriInventoryWithInFlightStarts (cachePrimed : Bool) : List CriInventoryAction :=
  if cachePrimed then
    runtimeRows.flatMap (rowActions leaderPods criSandboxes criContainers) ++
      (criSandboxes.filter (isCold runtimeRows)).map (sandboxAction leaderPods inFlightStarts)
  else [.refuseEmptyCache]

end

def CriInventoryAction.keeps : CriInventoryAction → Option PodLifecycleKey
  | .reattachExistingSandbox key _ _ | .recreateMissingSandbox key _ | .reconcileRuntime key => some key
  | _ => none

/-- The pod that an action tears down. A sandbox that is killed with its identity takes its pod with it
(`cleanup_cold_sandbox`). -/
def CriInventoryAction.destroys : CriInventoryAction → Option PodLifecycleKey
  | .finalizeOrphan key _ | .dropLocalRows key => some key
  | .killColdSandbox _ key => key
  | _ => none

def CriInventoryAction.kills : CriInventoryAction → Option String
  | .killColdSandbox sandboxId _ => some sandboxId
  | _ => none

/-! ## Verdicts -/

section Verdicts

variable {runtimeRows ru : List PodRuntimeRecord} {leaderPods l : List Json}
  {criSandboxes c : List CriPodSandboxSummary}
  {criContainers cr : List CriContainerInventory} {inFlightStarts s : List PodLifecycleKey} {key : PodLifecycleKey}
  {row : PodRuntimeRecord} {sandbox : CriPodSandboxSummary} {ac : CriInventoryAction}

theorem rowActions_verdict (h : ac ∈ rowActions l c cr row) :
    (ac.keeps = if isLeaderPod l row.pod then some row.pod else none) ∧
      (ac.destroys = if isLeaderPod l row.pod then none else some row.pod) ∧ ac.kills = none ∧
      ∀ key id p, ac = .reattachExistingSandbox key id p → row.sandboxId = some id := by
  unfold rowActions at h
  unfold isLeaderPod
  dsimp only at h
  split at h
  · rename_i uid p hl
    rw [hl]
    by_cases hu : uid = row.pod.uid
    · rw [if_pos hu] at h
      split at h
      · rename_i id hf
        have hid : row.sandboxId = some id := (Option.filter_eq_some_iff.1 hf).1
        rcases mem_cons.1 h with rfl | h
        · refine ⟨by simp [hu, keeps], by simp [hu, destroys], rfl, fun _ _ _ ha => ?_⟩
          cases ha
          exact hid
        · split at h
          · cases mem_singleton.1 h
            exact ⟨by simp [hu, keeps], by simp [hu, destroys], rfl, nofun⟩
          · cases h
      · cases mem_singleton.1 h
        exact ⟨by simp [hu, keeps], by simp [hu, destroys], rfl, nofun⟩
    · rw [if_neg hu] at h
      cases mem_singleton.1 h
      exact ⟨by simp [hu, keeps], by simp [hu, destroys], rfl, nofun⟩
  · rename_i hl
    rw [hl]
    split at h
    all_goals
      cases mem_singleton.1 h
      exact ⟨rfl, rfl, rfl, nofun⟩

theorem sandboxAction_verdict (leaderPods : List Json) (inFlightStarts : List PodLifecycleKey)
    (sandbox : CriPodSandboxSummary) :
    (∃ key, isLeaderPod leaderPods key ∧ key ∈ inFlightStarts ∧
        sandboxAction leaderPods inFlightStarts sandbox = .reconcileRuntime key) ∨
      (∀ key, sandbox.key = some key → isLeaderPod leaderPods key → key ∉ inFlightStarts) ∧
        sandboxAction leaderPods inFlightStarts sandbox = .killColdSandbox sandbox.sandboxId sandbox.key := by
  unfold sandboxAction
  split
  · rename_i key hf
    obtain ⟨-, he⟩ := Option.filter_eq_some_iff.1 hf
    obtain ⟨hl, hin⟩ := Bool.and_eq_true_iff.1 he
    exact .inl ⟨key, hl, by simpa using hin, rfl⟩
  · rename_i hf
    refine .inr ⟨fun key hk hl hin => ?_, rfl⟩
    simp [hk, hl, hin] at hf

theorem mem_diff (h : ac ∈ diffCriInventoryWithInFlightStarts ru l c cr s true) :
    (∃ row ∈ ru, ac ∈ rowActions l c cr row) ∨ ∃ sandbox ∈ c, isCold ru sandbox ∧ ac = sandboxAction l s sandbox := by
  rcases mem_append.1 h with hr | hs
  · exact .inl (mem_flatMap.1 hr)
  · obtain ⟨sandbox, hf, rfl⟩ := mem_map.1 hs
    exact .inr ⟨sandbox, (mem_filter.1 hf).1, (mem_filter.1 hf).2, rfl⟩

theorem keeps_leader (h : ac ∈ diffCriInventoryWithInFlightStarts ru l c cr s true) (hk : ac.keeps = some key) :
    isLeaderPod l key ∧ ((∃ row ∈ ru, row.pod = key) ∨ key ∈ s) := by
  rcases mem_diff h with ⟨row, hr, ha⟩ | ⟨sandbox, -, -, rfl⟩
  · rw [(rowActions_verdict ha).1] at hk
    split at hk
    · cases hk
      exact ⟨‹_›, .inl ⟨row, hr, rfl⟩⟩
    · cases hk
  · rcases sandboxAction_verdict l s sandbox with ⟨other, hl, hin, he⟩ | ⟨-, he⟩
    · rw [he] at hk
      cases hk
      exact ⟨hl, .inr hin⟩
    · rw [he] at hk
      cases hk

/-- A row of a leader pod keeps the pod. -/
theorem rowActions_keeps (criSandboxes : List CriPodSandboxSummary) (criContainers : List CriContainerInventory)
    (h : isLeaderPod leaderPods row.pod) :
    ∃ action ∈ rowActions leaderPods criSandboxes criContainers row, action.keeps = some row.pod := by
  have hne : rowActions leaderPods criSandboxes criContainers row ≠ [] := by
    unfold rowActions
    dsimp only
    split <;> split
    · split <;> simp
    all_goals simp
  obtain ⟨action, ha⟩ := exists_mem_of_ne_nil _ hne
  exact ⟨action, ha, by rw [(rowActions_verdict ha).1, if_pos h]⟩

/-- A cold sandbox with the identity of a pod that is not starting is killed with its pod. -/
theorem sandboxAction_destroys (hkey : sandbox.key = some key) (hno : key ∉ inFlightStarts) :
    (sandboxAction leaderPods inFlightStarts sandbox).destroys = some key := by
  have hf : sandbox.key.filter (fun key => isLeaderPod leaderPods key && inFlightStarts.contains key) = none := by
    simp [hkey, hno]
  rw [sandboxAction, hf]
  exact hkey

/-- A sandbox that is attached again is not killed: it is that of a row, and only sandboxes without one are killed. -/
theorem reattached_not_killed {id : String} {pod : Json} {other : CriInventoryAction}
    (hattached : .reattachExistingSandbox key id pod ∈
      diffCriInventoryWithInFlightStarts runtimeRows leaderPods criSandboxes criContainers inFlightStarts true)
    (hother : other ∈
      diffCriInventoryWithInFlightStarts runtimeRows leaderPods criSandboxes criContainers inFlightStarts true) :
    other.kills ≠ some id := by
  intro hkills
  rcases mem_diff hother with ⟨row, -, hb⟩ | ⟨sandbox, -, hc, rfl⟩
  · cases (rowActions_verdict hb).2.2.1.symm.trans hkills
  rcases sandboxAction_verdict leaderPods inFlightStarts sandbox with ⟨_, -, -, he⟩ | ⟨-, he⟩
  · rw [he] at hkills
    cases hkills
  rw [he] at hkills
  cases hkills
  rcases mem_diff hattached with ⟨row, hr, ha⟩ | ⟨other, -, -, ha⟩
  · have hid := (rowActions_verdict ha).2.2.2 _ _ _ rfl
    exact absurd hid (of_decide_eq_true (all_eq_true.1 hc row hr))
  · rcases sandboxAction_verdict leaderPods inFlightStarts other with ⟨_, -, -, ho⟩ | ⟨-, ho⟩
    all_goals cases ha.trans ho

end Verdicts

/-- **The inventory is consistent** exactly if the cache is not primed, or no sandbox without a row carries the identity
of a row's pod that the leader has, unless the start of that pod is under way. -/
theorem inventory_keeps_pods (cachePrimed : Bool) (runtimeRows : List PodRuntimeRecord) (leaderPods : List Json)
    (criSandboxes : List CriPodSandboxSummary) (criContainers : List CriContainerInventory)
    (inFlightStarts : List PodLifecycleKey) :
    let actions := diffCriInventoryWithInFlightStarts runtimeRows leaderPods criSandboxes criContainers inFlightStarts
      cachePrimed
    ((∀ a ∈ actions, ∀ b ∈ actions, ∀ key, a.keeps = some key → b.destroys ≠ some key) ∧
      ∀ key id pod, .reattachExistingSandbox key id pod ∈ actions → ∀ b ∈ actions, b.kills ≠ some id) ↔
    (cachePrimed = true → ∀ row ∈ runtimeRows, isLeaderPod leaderPods row.pod = true →
      ∀ sandbox ∈ criSandboxes, isCold runtimeRows sandbox = true → sandbox.key = some row.pod →
        row.pod ∈ inFlightStarts) := by
  cases cachePrimed with
  | false =>
    refine iff_of_true ⟨fun a ha b hb key hk => ?_, fun key id pod hp => ?_⟩ nofun
    · cases mem_singleton.1 ha
      cases hk
    · cases mem_singleton.1 hp
  | true =>
    constructor
    · rintro ⟨hkept, -⟩ - row hr hl sandbox hs hc hkey
      by_contra hno
      obtain ⟨a, ha, hk⟩ := rowActions_keeps criSandboxes criContainers hl
      exact hkept a (mem_append_left _ (mem_flatMap.2 ⟨row, hr, ha⟩)) _
        (mem_append_right _ (mem_map_of_mem (mem_filter.2 ⟨hs, hc⟩))) _ hk (sandboxAction_destroys hkey hno)
    · intro hcold
      refine ⟨fun a ha b hb key hk hd => ?_, fun key id pod hp b hb => reattached_not_killed hp hb⟩
      obtain ⟨hl, hw⟩ := keeps_leader ha hk
      rcases mem_diff hb with ⟨row, -, hb⟩ | ⟨sandbox, hs, hc, rfl⟩
      · rw [(rowActions_verdict hb).2.1] at hd
        split at hd
        · cases hd
        · cases hd
          contradiction
      · rcases sandboxAction_verdict leaderPods inFlightStarts sandbox with ⟨_, -, -, he⟩ | ⟨hno, he⟩
        · rw [he] at hd
          cases hd
        · rw [he] at hd
          refine hno key hd hl ?_
          rcases hw with ⟨row, hr, rfl⟩ | hin
          · exact hcold rfl row hr hl sandbox hs hc hd
          · exact hin

/-! ## Two sandboxes of one pod -/

def sampleKey : PodLifecycleKey := ⟨"default", "web", "u"⟩

def sampleInventory (second : CriPodSandboxSummary) : List CriInventoryAction :=
  diffCriInventoryWithInFlightStarts [⟨sampleKey, some "s1"⟩]
    [.obj [("metadata", .obj [("name", .str "web"), ("namespace", .str "default"), ("uid", .str "u")])]]
    [⟨"s1", "default", "web", "u"⟩, second] [] [] true

theorem inventory_keeps_pods_old :
    let actions := sampleInventory ⟨"s2", "default", "web", "old"⟩
    .killColdSandbox "s2" (some ⟨"default", "web", "old"⟩) ∈ actions ∧
      ∀ a ∈ actions, ∀ b ∈ actions, ∀ key, a.keeps = some key → b.destroys ≠ some key :=
  ⟨by decide +kernel, ((inventory_keeps_pods true _ _ _ _ _).2 (by decide +kernel)).1⟩

/-- A pod keeps its first sandbox, and its second one, left over by a start that was cut off, takes it down. -/
theorem second_sandbox_destroys :
    let actions := sampleInventory ⟨"s2", "default", "web", "u"⟩
    (∃ a ∈ actions, a.keeps = some sampleKey) ∧ ∃ b ∈ actions, b.destroys = some sampleKey := by
  decide +kernel

end Klights.Pod.CriInventory
