import Klights.Pod.StatusMerge
import Klights.Store.ResourceShape
import Mathlib.Data.List.Forall2

/-!
# Main updates and the status subresource

`preserve_status_subresource_on_main_update` (`klights-types/src/resource_semantics.rs`): an update of an object through
its main resource leaves the `.status` that is live. For Pods two conditions of the scheduler may come from the request,
and a request that marks the Pod for deletion turns its readiness off.

- `StatusKept`: what a status keeps, apart from named fields and condition types;
- `merge_kept`, `carry_kept`, `mark_kept`: the three steps that look at the request;
- `SameStatus`, `terminatingStatus_same`: two requests that mark a Pod at two times;
- `status_not_forged`: of two requests that differ in `.status` alone, all but those parts comes from the live object.
-/

namespace Klights.Pod

open Store Json List

/-! ## The update -/

def builtinStatusSubresources : List (String × String) :=
  [("admissionregistration.k8s.io/v1", "MutatingWebhookConfiguration"),
    ("admissionregistration.k8s.io/v1", "ValidatingWebhookConfiguration"),
    ("admissionregistration.k8s.io/v1", "ValidatingAdmissionPolicy"),
    ("admissionregistration.k8s.io/v1", "ValidatingAdmissionPolicyBinding"),
    ("apiextensions.k8s.io/v1", "CustomResourceDefinition"), ("apiregistration.k8s.io/v1", "APIService"),
    ("apps/v1", "DaemonSet"), ("apps/v1", "Deployment"), ("apps/v1", "ReplicaSet"), ("apps/v1", "StatefulSet"),
    ("autoscaling/v1", "HorizontalPodAutoscaler"), ("autoscaling/v2", "HorizontalPodAutoscaler"),
    ("batch/v1", "CronJob"), ("batch/v1", "Job"), ("certificates.k8s.io/v1", "CertificateSigningRequest"),
    ("flowcontrol.apiserver.k8s.io/v1", "FlowSchema"),
    ("flowcontrol.apiserver.k8s.io/v1", "PriorityLevelConfiguration"), ("networking.k8s.io/v1", "Ingress"),
    ("policy/v1", "PodDisruptionBudget"), ("storage.k8s.io/v1", "CSINode"), ("storage.k8s.io/v1", "VolumeAttachment"),
    ("v1", "Node"), ("v1", "Namespace"), ("v1", "PersistentVolume"), ("v1", "PersistentVolumeClaim"), ("v1", "Pod"),
    ("v1", "ReplicationController"), ("v1", "ResourceQuota"), ("v1", "Service")]

def hasBuiltinStatusSubresource (apiVersion kind : String) : Bool :=
  builtinStatusSubresources.contains (apiVersion, kind)

def podNodeName (pod : Json) : Option String := (pod.strAt ["spec", "nodeName"]).filter fun name => name ≠ ""

def isPodBindTransition (current proposed : Json) : Bool :=
  (podNodeName current).isNone && (podNodeName proposed).isSome

def podCondition (pod : Json) (type : String) : Option Json :=
  ((pod.pointer ["status", "conditions"]).bind Json.asArray).bind fun conditions =>
    conditions.find? fun condition => conditionType condition = some type

def upsertPodCondition (status condition : Json) : Json :=
  match conditionType condition with
  | none => status
  | some type =>
    status.insertField "conditions"
      (.arr ((conditionsOf status).filter (fun existing => conditionType existing ≠ some type) ++ [condition]))

def carrySchedulerBindPodScheduledCondition (apiVersion kind : String) (current proposed status : Json) : Json :=
  if apiVersion ≠ "v1" ∨ kind ≠ "Pod" then status
  else if !isPodBindTransition current proposed then status
  else
    match podCondition proposed "PodScheduled" with
    | none => status
    | some condition =>
      if (condition.get "status").bind Json.asStr ≠ some "True" then status else upsertPodCondition status condition

def setsDeletionTimestamp (proposed : Json) : Bool :=
  (proposed.pointer ["metadata", "deletionTimestamp"]).any fun timestamp => !timestamp.isNull

/-- The time a request that marks a Pod for deletion gives for its readiness. -/
def terminatingTransitionTime (apiVersion kind : String) (proposed : Json) : Option String :=
  if apiVersion = "v1" ∧ kind = "Pod" ∧ setsDeletionTimestamp proposed = true then podDeleteMarkTransitionTime proposed
  else none

def preserveStatusSubresourceOnMainUpdate (apiVersion kind : String) (current proposed : Json) : Json :=
  if !hasBuiltinStatusSubresource apiVersion kind then proposed
  else if proposed.asObject.isNone then proposed
  else
    match current.get "status" with
    | some status =>
      let status := mergePodStatusForUpdate apiVersion kind proposed status .apiStatusSubresource
      let status := carrySchedulerBindPodScheduledCondition apiVersion kind current proposed status
      let updated := proposed.insertField "status" status
      match terminatingTransitionTime apiVersion kind proposed with
      | some transitionTime => markTerminatingPodUnreadyAt transitionTime updated
      | none => updated
    | none => proposed.removeField "status"

/-! ## What a status keeps -/

abbrev isOther (types : List String) (condition : Json) : Bool := !(conditionType condition).any types.contains

def otherConditions (types : List String) (status : Json) : List Json :=
  (conditionsOf status).filter fun condition => !(conditionType condition).any types.contains

/-- A status keeps every field but the given ones, and its conditions of every type but the given ones. -/
structure StatusKept (fields types : List String) (status status' : Json) : Prop where
  scalar : status.asObject = none → status' = status
  object : status'.asObject.isSome = status.asObject.isSome
  field : ∀ key, key ∉ fields → status'.get key = status.get key
  conditions : otherConditions types status' = otherConditions types status

variable {types ty : List String} {status st : Json}

section Kept

variable {fs : List String} {status' status'' : Json}

theorem StatusKept.refl (fs types : List String) (status : Json) : StatusKept fs types status status :=
  ⟨fun _ => rfl, rfl, fun _ _ => rfl, rfl⟩

theorem StatusKept.trans (h : StatusKept fs ty st status') (h' : StatusKept fs ty status' status'') :
    StatusKept fs ty st status'' := by
  refine ⟨fun hs => ?_, h'.object.trans h.object, fun k hk => ?_, h'.conditions.trans h.conditions⟩
  · have heq := h.scalar hs
    rw [h'.scalar (by rw [heq]; exact hs), heq]
  · rw [h'.field k hk, h.field k hk]

theorem StatusKept.mono {fs' t' : List String} (h : StatusKept fs ty st status')
    (hf : fs ⊆ fs') (ht : ty ⊆ t') : StatusKept fs' t' st status' := by
  refine ⟨h.scalar, h.object, fun k hk => h.field k fun hi => hk (hf hi), ?_⟩
  have hs : ∀ co : List Json, co.filter (isOther t') = (co.filter (isOther ty)).filter (isOther t') := by
    intro co
    rw [filter_filter]
    refine filter_congr fun con _ => ?_
    unfold isOther
    cases conditionType con with
    | none => rfl
    | some type =>
      by_cases hi : type ∈ ty
      · simp [hi, ht hi]
      · simp [hi]
  unfold otherConditions
  rw [hs, hs (conditionsOf st)]
  exact congrArg _ h.conditions

theorem statusKept_conditions {cs : List Json} (hs : "conditions" ∈ fs)
    (hk : cs.filter (isOther ty) = otherConditions ty st) :
    StatusKept fs ty st (st.insertField "conditions" (.arr cs)) := by
  refine ⟨fun hc => ?_, by simp, fun k he => ?_, ?_⟩
  · cases st with
    | obj _ => cases hc
    | _ => rfl
  · exact get_insertField_ne st _ fun heq => he (heq ▸ hs)
  · cases st with
    | obj ob => rw [otherConditions, conditionsOf_insert, hk]
    | _ => rfl

end Kept

/-! ## The steps that look at the request -/

/-- The conditions a main update may bring along. -/
def schedulerConditions : List String := ["DisruptionTarget", "PodScheduled"]

section Steps

variable {proposed cr : Json}

theorem foldl_backfill_other {ad : List Json} (hd : ∀ c ∈ ad, (conditionType c).any ty.contains)
    (b : List Json) : (ad.foldl backfillCondition b).filter (isOther ty) = b.filter (isOther ty) := by
  induction ad generalizing b with
  | nil => rfl
  | cons co tl ih =>
    rw [foldl_cons, ih fun c hc => hd c (by simp [hc])]
    unfold backfillCondition
    split
    · rfl
    · split
      · rfl
      · simp [filter_append, hd co (by simp)]

theorem preservable_scheduler {c : Json} (h : c ∈ preservableConditions .apiStatusSubresource proposed) :
    (conditionType c).any schedulerConditions.contains := by
  have hk := (mem_filter.1 h).2
  cases ht : conditionType c with
  | none => rw [ht] at hk; cases hk
  | some type =>
    rw [ht] at hk
    simpa [PodStatusOwner.ownsConditionType, isSchedulerOwnedCondition, schedulerConditions] using hk

theorem preserveUnmentioned_api (cr status : Json) :
    preserveUnmentionedLiveStatusFields .apiStatusSubresource cr status = status := by
  have hf : ∀ fs : List (String × Json), fs.foldl (preserveUnmentionedField .apiStatusSubresource) status = status := by
    intro fs
    induction fs with
    | nil => rfl
    | cons fld tl ih =>
      simpa [preserveUnmentionedField, PodStatusOwner.rebuildsStatusField] using ih
  unfold preserveUnmentionedLiveStatusFields
  split
  · exact hf _
  · rfl

theorem applyPhase_kept (ow : PodStatusOwner) (status : Json) :
    StatusKept ["conditions"] ty status ((PodStatusPatch.extract ow status).applyPhase status) := by
  have ha := applyPhase_agree ow status
  refine ⟨fun hs => (ha.symm.scalar hs), ha.object, fun k _ => applyPhase_get ow status k, ?_⟩
  rw [otherConditions, conditionsOf_congr (applyPhase_get ow status _), otherConditions]

theorem applyConditions_kept {pt : PodStatusPatch} (hw : pt.owner = .apiStatusSubresource)
    (ho : pt.conditions = conditionsOf st) :
    StatusKept ["conditions"] schedulerConditions st (pt.applyConditions proposed st) := by
  unfold PodStatusPatch.applyConditions
  dsimp only
  split
  · exact .refl _ _ _
  · refine statusKept_conditions (by simp) ?_
    rw [hw, ho, foldl_backfill_other fun c hc => preservable_scheduler hc]
    rfl

theorem merge_kept (av kd : String) (proposed status : Json) : StatusKept ["conditions"] schedulerConditions status
      (mergePodStatusForUpdate av kd proposed status .apiStatusSubresource) := by
  unfold mergePodStatusForUpdate
  split
  · exact .refl _ _ _
  · dsimp only
    rw [if_neg (by decide), preserveUnmentioned_api]
    exact (applyPhase_kept .apiStatusSubresource status).trans
      (applyConditions_kept rfl (conditionsOf_congr (applyPhase_get .apiStatusSubresource status _)).symm)

theorem upsertPodCondition_kept {c : Json} (hy : (conditionType c).all ty.contains) :
    StatusKept ["conditions"] ty st (upsertPodCondition st c) := by
  unfold upsertPodCondition
  split
  · exact .refl _ _ _
  · rename_i type ht'
    have hi : ty.contains type := by simpa [ht'] using hy
    refine statusKept_conditions (by simp) ?_
    rw [filter_append, filter_filter, otherConditions]
    have ho : [c].filter (isOther ty) = [] := by
      simp [ht', contains_iff_mem.1 hi]
    rw [ho, append_nil]
    refine filter_congr fun exi _ => ?_
    by_cases heq : conditionType exi = some type
    · simp [heq, contains_iff_mem.1 hi]
    · simp [heq]

theorem carry_kept (av kd : String) (cr proposed status : Json) : StatusKept ["conditions"] schedulerConditions status
      (carrySchedulerBindPodScheduledCondition av kd cr proposed status) := by
  unfold carrySchedulerBindPodScheduledCondition
  split
  · exact .refl _ _ _
  · split
    · exact .refl _ _ _
    · split
      · exact .refl _ _ _
      · rename_i co hc
        split
        · exact .refl _ _ _
        · refine upsertPodCondition_kept ?_
          obtain ⟨conditions, -, hf⟩ := Option.bind_eq_some_iff.1 hc
          have ht : conditionType co = some "PodScheduled" := by
            simpa using find?_some hf
          rw [ht]
          decide

end Steps

/-! ## Marking a Pod unready -/

/-- The conditions and the lists a request that marks the Pod for deletion may bring along. -/
def terminatingConditions : List String := ["DisruptionTarget", "PodScheduled", "Ready", "ContainersReady"]

def terminatingFields : List String := ["conditions", "containerStatuses", "initContainerStatuses"]

/-- A list of container statuses without its `ready` flags. -/
def withoutReady : Json → Json
  | .arr statuses => .arr (statuses.map fun status => status.removeField "ready")
  | value => value

/-- The container lists are the same but for the `ready` flags. -/
def ContainersKept (status status' : Json) : Prop :=
  ∀ list ∈ ["containerStatuses", "initContainerStatuses"],
    (status'.get list).map withoutReady = (status.get list).map withoutReady

theorem ContainersKept.trans {status' status'' : Json} (h : ContainersKept st status')
    (h' : ContainersKept status' status'') : ContainersKept st status'' :=
  fun li hl => (h' li hl).trans (h li hl)

theorem StatusKept.containers {status' : Json}
    (h : StatusKept ["conditions"] ty st status') : ContainersKept st status' := by
  intro list hl
  rw [h.field list (by rintro hi; simp at hi hl; subst hi; simp at hl)]

section Mark

theorem unreadyContainers_get {li other : String} (hn : other ≠ li) :
    (unreadyContainers li st).get other = st.get other := by
  unfold unreadyContainers
  split
  · exact get_insertField_ne st _ hn
  · rfl

theorem unreadyContainers_get_self (li : String) :
    ((unreadyContainers li st).get li).map withoutReady = (st.get li).map withoutReady := by
  unfold unreadyContainers
  split
  · rename_i ss hs
    obtain ⟨v, hv, ha⟩ := Option.bind_eq_some_iff.1 hs
    cases st with
    | obj fs =>
      cases v with
      | arr it =>
        cases ha
        rw [get_insertField_self, hv]
        simp [withoutReady, removeField_insertField]
      | _ => cases ha
    | _ => cases hv
  · rfl

theorem unreadyContainers_containers (li : String) : ContainersKept st (unreadyContainers li st) := by
  intro o _
  rcases eq_or_ne o li with rfl | heq
  · exact unreadyContainers_get_self o
  · rw [unreadyContainers_get heq]

theorem unreadyContainers_kept (status : Json) {list : String}
    (hi : list ∈ ["containerStatuses", "initContainerStatuses"]) :
    StatusKept terminatingFields ty status (unreadyContainers list status) := by
  have hc : "conditions" ≠ list := by
    rintro rfl
    simp at hi
  refine ⟨fun hs => ?_, ?_, fun k hk => ?_, ?_⟩
  · cases status with
    | obj fs => cases hs
    | _ => rfl
  · unfold unreadyContainers
    split
    · simp
    · rfl
  · refine unreadyContainers_get fun heq => hk ?_
    subst heq
    exact mem_cons_of_mem "conditions" hi
  · rw [otherConditions, conditionsOf, unreadyContainers_get hc]
    rfl

/-- The containers and init containers turned unready. -/
def unreadyLists (status : Json) : Json :=
  unreadyContainers "initContainerStatuses" (unreadyContainers "containerStatuses" status)

theorem unreadyLists_kept (types : List String) (status : Json) :
    StatusKept terminatingFields types status (unreadyLists status) ∧ ContainersKept status (unreadyLists status) := by
  constructor
  · exact (unreadyContainers_kept status (by simp)).trans (unreadyContainers_kept _ (by simp))
  · exact (unreadyContainers_containers _).trans (unreadyContainers_containers _)

theorem strAt_type (condition : Json) : condition.strAt ["type"] = conditionType condition := by
  unfold strAt conditionType
  cases hg : condition.get "type" <;> simp [pointer, hg]

theorem conditionType_terminateCondition (n : String) (condition : Json) :
    conditionType (terminateCondition n condition) = conditionType condition := by
  have hg : (terminateCondition n condition).get "type" = condition.get "type" := by
    unfold terminateCondition
    dsimp only
    split
    · simp [get_insertField_ne]
    · simp [get_insertField_ne]
  rw [conditionType, hg, conditionType]

theorem conditionType_terminating (n type : String) :
    conditionType (.obj [("lastTransitionTime", .str n), ("message", .str "Pod is terminating"),
      ("reason", .str "PodTerminating"), ("status", .str "False"), ("type", .str type)]) = some type := by
  simp [conditionType, Json.get, Json.Fields.get, Json.asStr]

theorem upsertTerminating_other {type : String} (hn : type ∈ ty) (n : String) (cs : List Json) :
    (upsertTerminatingReadinessCondition type n cs).filter (isOther ty) = cs.filter (isOther ty) := by
  induction cs with
  | nil => simp [upsertTerminatingReadinessCondition, conditionType_terminating, hn]
  | cons co tl ih =>
    unfold upsertTerminatingReadinessCondition
    split
    · rename_i ht
      rw [strAt_type] at ht
      simp [conditionType_terminateCondition, ht, hn]
    · rw [filter_cons, filter_cons, ih]

def terminatingStatus (now : String) (status : Json) : Json :=
  let unready := unreadyContainers "initContainerStatuses" (unreadyContainers "containerStatuses" status)
  unready.insertField "conditions" (.arr (upsertTerminatingReadinessCondition "ContainersReady" now
    (upsertTerminatingReadinessCondition "Ready" now (conditionsOf unready))))

theorem terminatingStatus_scalar (n : String) (h : status.asObject = none) : terminatingStatus n status = status := by
  cases status with
  | obj fs => cases h
  | _ => rfl

theorem mark_status (n : String) {d : Json} (ht : d.get "status" = some st) :
    (markTerminatingPodUnreadyAt n d).get "status" = some (terminatingStatus n st) := by
  unfold markTerminatingPodUnreadyAt
  split
  · rename_i fs hf
    cases ht.symm.trans hf
    cases d with
    | obj ob => rw [get_insertField_self]; rfl
    | _ => cases ht
  · rename_i hs
    rw [ht, terminatingStatus_scalar n]
    cases st with
    | obj fs => exact absurd ht (hs fs)
    | _ => rfl

theorem mark_kept (n : String) (status : Json) :
    StatusKept terminatingFields terminatingConditions status (terminatingStatus n status) ∧
      ContainersKept status (terminatingStatus n status) := by
  obtain ⟨hl, hs⟩ := unreadyLists_kept terminatingConditions status
  have hc : StatusKept ["conditions"] terminatingConditions (unreadyLists status) (terminatingStatus n status) := by
    refine statusKept_conditions (by simp) ?_
    rw [upsertTerminating_other (by simp [terminatingConditions]),
      upsertTerminating_other (by simp [terminatingConditions])]
    rfl
  exact ⟨hl.trans (hc.mono (by simp [terminatingFields]) fun _ h => h), hs.trans hc.containers⟩

end Mark

/-! ## Two requests that mark a Pod -/

def SameButTransition (types : List String) (condition condition' : Json) : Prop :=
  condition = condition' ∨
    (conditionType condition = conditionType condition' ∧ (conditionType condition).any types.contains = true ∧
      condition.removeField "lastTransitionTime" = condition'.removeField "lastTransitionTime")

/-- The same status, up to the conditions of the scheduler and the transition times of readiness. -/
structure SameStatus (status status' : Json) : Prop where
  field : ∀ key, key ≠ "conditions" → status.get key = status'.get key
  conditions : List.Forall₂ (SameButTransition ["ContainersReady", "Ready"])
    (otherConditions schedulerConditions status) (otherConditions schedulerConditions status')

section Two

variable {type : String}

theorem upsertTerminating_filter (ho : type ∉ ty) (n : String) (cs : List Json) :
    (upsertTerminatingReadinessCondition type n cs).filter (isOther ty) =
      upsertTerminatingReadinessCondition type n (cs.filter (isOther ty)) := by
  induction cs with
  | nil => simp [upsertTerminatingReadinessCondition, conditionType_terminating, ho]
  | cons co tl ih =>
    by_cases ht : co.strAt ["type"] = some type
    · have ht' := ht
      rw [strAt_type] at ht'
      simp [upsertTerminatingReadinessCondition, ht, conditionType_terminateCondition, ht', ho]
    · rw [upsertTerminatingReadinessCondition, if_neg ht, filter_cons, filter_cons, ih]
      split
      · rw [upsertTerminatingReadinessCondition, if_neg ht]
      · rfl

theorem terminateCondition_transition (n n' : String) (c : Json) :
    (terminateCondition n c).removeField "lastTransitionTime" =
      (terminateCondition n' c).removeField "lastTransitionTime" := by
  unfold terminateCondition
  dsimp only
  split
  · rw [removeField_insertField, removeField_insertField]
  · rfl

theorem upsertTerminating_same (ho : type ∉ types) (n n' : String) {cs cs' : List Json}
    (h : List.Forall₂ (SameButTransition types) cs cs') :
    List.Forall₂ (SameButTransition (type :: types)) (upsertTerminatingReadinessCondition type n cs)
      (upsertTerminatingReadinessCondition type n' cs') := by
  have hw : ∀ c c', SameButTransition types c c' → SameButTransition (type :: types) c c' := by
    rintro c c' (rfl | ⟨hy, hi, heq⟩)
    · exact .inl rfl
    · refine .inr ⟨hy, ?_, heq⟩
      cases hc : conditionType c with
      | none => rw [hc] at hi; cases hi
      | some ty' =>
        have hi' : ty' ∈ types := by simpa [hc] using hi
        simp [hi']
  induction h with
  | nil =>
    refine .cons (.inr ⟨rfl, ?_, rfl⟩) .nil
    show (types.cons type).contains type
    simp
  | @cons c c' tl tl' hh hl ih =>
    have ht : c.strAt ["type"] = c'.strAt ["type"] := by
      rw [strAt_type, strAt_type]
      rcases hh with rfl | ⟨hy, -, -⟩
      · rfl
      · exact hy
    unfold upsertTerminatingReadinessCondition
    rw [← ht]
    split
    · rename_i hy
      rw [strAt_type] at hy
      have heq : c = c' := by
        rcases hh with rfl | ⟨-, hi, -⟩
        · rfl
        · exact absurd (by simpa [hy] using hi) ho
      subst heq
      refine .cons (.inr ⟨?_, ?_, terminateCondition_transition n n' c⟩) (hl.imp hw)
      · rw [conditionType_terminateCondition, conditionType_terminateCondition]
      · rw [conditionType_terminateCondition, hy]
        simp
    · exact .cons (hw _ _ hh) ih

theorem unreadyContainers_congr {status' : Json} {li key : String} (hk : st.get key = status'.get key)
    (hi : st.get li = status'.get li) :
    (unreadyContainers li st).get key = (unreadyContainers li status').get key := by
  rcases eq_or_ne key li with rfl | heq
  · unfold unreadyContainers
    rw [← hk]
    split
    · rename_i ss hs
      obtain ⟨v, hv, -⟩ := Option.bind_eq_some_iff.1 hs
      have hv' := hk.symm.trans hv
      cases st with
      | obj fs =>
        cases status' with
        | obj f' => rw [get_insertField_self, get_insertField_self]
        | _ => cases hv'
      | _ => cases hv
    · exact hk
  · rw [unreadyContainers_get heq, unreadyContainers_get heq, hk]

theorem terminatingStatus_get (n : String) {key : String} (hk : key ≠ "conditions") :
    (terminatingStatus n st).get key = (unreadyLists st).get key :=
  get_insertField_ne _ _ hk

/-- The conditions apart from the scheduler's are those of the status, readiness turned off. -/
theorem otherConditions_terminatingStatus (n : String) (hb : st.asObject.isSome) :
    otherConditions schedulerConditions (terminatingStatus n st) =
      upsertTerminatingReadinessCondition "ContainersReady" n
        (upsertTerminatingReadinessCondition "Ready" n (otherConditions schedulerConditions st)) := by
  have hl := (unreadyLists_kept schedulerConditions st).1
  have hu := hl.object.trans hb
  rw [terminatingStatus, ← unreadyLists]
  generalize unreadyLists st = unready at hl hu
  cases unready with
  | obj fs =>
    rw [otherConditions, conditionsOf_insert, upsertTerminating_filter (by decide),
      upsertTerminating_filter (by decide), ← hl.conditions]
    rfl
  | _ => cases hu

theorem terminatingStatus_same (n n' : String) {l status' : Json}
    (h : StatusKept ["conditions"] schedulerConditions l st)
    (h' : StatusKept ["conditions"] schedulerConditions l status') :
    SameStatus (terminatingStatus n st) (terminatingStatus n' status') := by
  have hf : ∀ key, key ≠ "conditions" → st.get key = status'.get key := by
    intro key hk
    rw [h.field key (by simpa using hk), h'.field key (by simpa using hk)]
  constructor
  · intro key hk
    rw [terminatingStatus_get n hk, terminatingStatus_get n' hk]
    refine unreadyContainers_congr (unreadyContainers_congr (hf _ hk) (hf _ (by decide))) ?_
    exact unreadyContainers_congr (hf _ (by decide)) (hf _ (by decide))
  · cases l with
    | obj fs =>
      rw [otherConditions_terminatingStatus n (by rw [h.object]; rfl),
        otherConditions_terminatingStatus n' (by rw [h'.object]; rfl), h.conditions, h'.conditions]
      refine upsertTerminating_same (by simp) n n' (upsertTerminating_same (by simp) n n' ?_)
      exact forall₂_same.2 fun _ _ => .inl rfl
    | _ =>
      rw [h.scalar rfl, h'.scalar rfl]
      exact .nil

end Two

/-! ## No forged status -/

def mainUpdateStatus (apiVersion kind : String) (live request : Json) : Option Json :=
  (preserveStatusSubresourceOnMainUpdate apiVersion kind live request).get "status"

def scheduledStatus (apiVersion kind : String) (live request status : Json) : Json :=
  carrySchedulerBindPodScheduledCondition apiVersion kind live request
    (mergePodStatusForUpdate apiVersion kind request status .apiStatusSubresource)

section Update

variable {av kd : String} {l r : Json}

theorem scheduledStatus_kept (av kd : String) (l r status : Json) :
    StatusKept ["conditions"] schedulerConditions status (scheduledStatus av kd l r status) :=
  (merge_kept av kd r status).trans (carry_kept av kd l r _)

theorem scheduledStatus_other (h : av ≠ "v1" ∨ kd ≠ "Pod") : scheduledStatus av kd l r status = status := by
  rw [scheduledStatus, mergePodStatusForUpdate, if_pos h, carrySchedulerBindPodScheduledCondition, if_pos h]

section

variable (hbu : hasBuiltinStatusSubresource av kd = true) (hb : r.asObject.isSome = true)
include hbu hb

theorem mainUpdateStatus_none (ht : l.get "status" = none) : mainUpdateStatus av kd l r = none := by
  cases r with
  | obj fs =>
    simp only [mainUpdateStatus, preserveStatusSubresourceOnMainUpdate, hbu, ht]
    exact Json.Fields.get_remove_self "status" fs
  | _ => cases hb

/-- A live status is kept with the scheduler's conditions, and turned unready at the time a terminating request names.
-/
theorem mainUpdateStatus_some (hs : l.get "status" = some st) : mainUpdateStatus av kd l r =
      some (((terminatingTransitionTime av kd r).elim id terminatingStatus) (scheduledStatus av kd l r st)) := by
  cases r with
  | obj fs =>
    simp only [mainUpdateStatus, preserveStatusSubresourceOnMainUpdate, hbu, hs]
    cases ht : terminatingTransitionTime av kd (.obj fs) with
    | none => exact get_insertField_self fs "status" _
    | some nw => exact mark_status nw (get_insertField_self fs "status" _)
  | _ => cases hb

end

theorem setsDeletionTimestamp_congr {request' : Json} (h : r.removeField "status" = request'.removeField "status") :
    setsDeletionTimestamp r = setsDeletionTimestamp request' := by
  have hm : r.get "metadata" = request'.get "metadata" := by
    rw [← get_removeField_ne r (show "metadata" ≠ "status" by decide), h, get_removeField_ne request' (by decide)]
  simp [setsDeletionTimestamp, pointer, hm]

theorem terminatingTransitionTime_isSome : (terminatingTransitionTime av kd r).isSome =
      (decide (av = "v1" ∧ kd = "Pod") && setsDeletionTimestamp r && (podDeleteMarkTransitionTime r).isSome) := by
  unfold terminatingTransitionTime
  split
  · rename_i h
    simp [h]
  · rename_i h
    by_cases hp : av = "v1" ∧ kd = "Pod"
    · have hs : setsDeletionTimestamp r = false := by
        rw [← Bool.not_eq_true]
        exact fun hs => h ⟨hp.1, hp.2, hs⟩
      simp [hs]
    · simp [hp]

theorem settled_kept (t : Option String) {status' : Json}
    (h : StatusKept ["conditions"] schedulerConditions st status') :
    StatusKept terminatingFields terminatingConditions st ((t.elim id terminatingStatus) status') ∧
      ContainersKept st ((t.elim id terminatingStatus) status') := by
  have hw : StatusKept terminatingFields terminatingConditions st status' :=
    h.mono (by simp [terminatingFields]) (by simp [schedulerConditions, terminatingConditions])
  cases t with
  | none => exact ⟨hw, h.containers⟩
  | some nw =>
    obtain ⟨hm, hc⟩ := mark_kept nw status'
    exact ⟨hw.trans hm, h.containers.trans hc⟩

/-- Two statuses of one live status, when both or none of the requests name a time. -/
theorem settled_same {t t' : Option String} {status₁ status₂ : Json} (hi : t.isSome = t'.isSome)
    (h₁ : StatusKept ["conditions"] schedulerConditions st status₁)
    (h₂ : StatusKept ["conditions"] schedulerConditions st status₂) :
    SameStatus ((t.elim id terminatingStatus) status₁) ((t'.elim id terminatingStatus) status₂) := by
  cases t with
  | none =>
    cases t' with
    | none =>
      refine ⟨fun k hk => ?_, ?_⟩
      · exact (h₁.field k (by simpa using hk)).trans (h₂.field k (by simpa using hk)).symm
      · show List.Forall₂ _ (otherConditions schedulerConditions status₁) (otherConditions schedulerConditions status₂)
        rw [h₁.conditions, h₂.conditions]
        exact forall₂_same.2 fun _ _ => .inl rfl
    | some nw' => cases hi
  | some nw =>
    cases t' with
    | none => cases hi
    | some nw' => exact terminatingStatus_same nw nw' h₁ h₂

end Update

/-- Of two update requests that differ in `.status` alone, both leave the live status, for Pods up to the conditions of
the scheduler and, if they mark the Pod for deletion, its readiness; when both or none of them name a time for the
latter, they differ in transition times at most. -/
theorem status_not_forged (apiVersion kind : String) (live request request' : Json)
    (hbuiltin : hasBuiltinStatusSubresource apiVersion kind = true)
    (hobject : request.asObject.isSome = true) (hobject' : request'.asObject.isSome = true)
    (hsame : request.removeField "status" = request'.removeField "status") :
    (apiVersion ≠ "v1" ∨ kind ≠ "Pod" → mainUpdateStatus apiVersion kind live request = live.get "status" ∧
        mainUpdateStatus apiVersion kind live request' = live.get "status") ∧
    (live.get "status" = none →
      mainUpdateStatus apiVersion kind live request = none ∧ mainUpdateStatus apiVersion kind live request' = none) ∧
    (∀ status, live.get "status" = some status → ∃ result result',
      mainUpdateStatus apiVersion kind live request = some result ∧
      mainUpdateStatus apiVersion kind live request' = some result' ∧
      (setsDeletionTimestamp request = false → StatusKept ["conditions"] schedulerConditions status result ∧
          StatusKept ["conditions"] schedulerConditions status result') ∧
      (StatusKept terminatingFields terminatingConditions status result ∧ ContainersKept status result) ∧
      (StatusKept terminatingFields terminatingConditions status result' ∧ ContainersKept status result') ∧
      ((podDeleteMarkTransitionTime request).isSome = (podDeleteMarkTransitionTime request').isSome →
        SameStatus result result')) := by
  have hse := setsDeletionTimestamp_congr hsame
  refine ⟨fun ho => ?_, fun hn => ?_, fun status hs => ?_⟩
  · have hk : ∀ proposed : Json, proposed.asObject.isSome →
        mainUpdateStatus apiVersion kind live proposed = live.get "status" := by
      intro proposed hp
      cases hs : live.get "status" with
      | none => exact mainUpdateStatus_none hbuiltin hp hs
      | some status =>
        have ht : terminatingTransitionTime apiVersion kind proposed = none :=
          if_neg fun h => ho.elim (fun hne => hne h.1) fun hne => hne h.2.1
        rw [mainUpdateStatus_some hbuiltin hp hs, ht, scheduledStatus_other ho]
        rfl
    exact ⟨hk request hobject, hk request' hobject'⟩
  · exact ⟨mainUpdateStatus_none hbuiltin hobject hn, mainUpdateStatus_none hbuiltin hobject' hn⟩
  · have he := scheduledStatus_kept apiVersion kind live request status
    have hk' := scheduledStatus_kept apiVersion kind live request' status
    refine ⟨_, _, mainUpdateStatus_some hbuiltin hobject hs, mainUpdateStatus_some hbuiltin hobject' hs,
      fun hl => ?_, settled_kept _ he, settled_kept _ hk', fun hm => settled_same ?_ he hk'⟩
    · have ht : ∀ proposed : Json, setsDeletionTimestamp proposed = false →
          terminatingTransitionTime apiVersion kind proposed = none :=
        fun proposed hp => if_neg fun h => Bool.false_ne_true (hp.symm.trans h.2.2)
      rw [ht request hl, ht request' (hse ▸ hl)]
      exact ⟨he, hk'⟩
    · rw [terminatingTransitionTime_isSome, terminatingTransitionTime_isSome, hse, hm]

/-! ### A Pod with a running container -/

def readyCondition (transitionTime : String) : Json :=
  .obj [("lastTransitionTime", .str transitionTime), ("status", .str "True"), ("type", .str "Ready")]

def sampleContainers : Json := .arr [.obj [("name", .str "web"), ("ready", .bool true)]]

def samplePod : Json :=
  .obj [("metadata", .obj [("name", .str "web-0")]),
    ("status", .obj [("conditions", .arr [readyCondition "2026-01-01T00:00:00Z"]),
      ("containerStatuses", sampleContainers), ("phase", .str "Running"), ("podIP", .str "10.0.0.7")])]

def sampleRequest (status : List (String × Json)) : Json :=
  .obj [("metadata", .obj [("deletionTimestamp", .str "2026-01-02T00:00:00Z"), ("name", .str "web-0")]),
    ("status", .obj status)]

theorem status_not_forged_pod : SameStatus ((mainUpdateStatus "v1" "Pod" samplePod
        (sampleRequest [("conditions", .arr [readyCondition "2026-01-02T00:00:00Z"])])).getD .null)
      ((mainUpdateStatus "v1" "Pod" samplePod
        (sampleRequest [("conditions", .arr [readyCondition "2026-01-03T00:00:00Z"]),
          ("podIP", .str "10.9.9.9")])).getD .null) := by
  obtain ⟨re, r', hr, hr', -, -, -, hs⟩ :=
    (status_not_forged "v1" "Pod" samplePod
      (sampleRequest [("conditions", .arr [readyCondition "2026-01-02T00:00:00Z"])])
      (sampleRequest [("conditions", .arr [readyCondition "2026-01-03T00:00:00Z"]), ("podIP", .str "10.9.9.9")])
      (by decide +kernel) rfl rfl rfl).2.2 _ rfl
  rw [hr, hr']
  exact hs rfl

/-- A kind without a status subresource takes the status of the request, and a request that marks a Pod for deletion
with a `Ready` condition of its own turns the containers unready. -/
theorem main_update_changes_status :
    mainUpdateStatus "v1" "ConfigMap" (.obj []) (.obj [("status", .str "forged")]) = some (.str "forged") ∧
      (mainUpdateStatus "v1" "Pod" samplePod (sampleRequest [])).bind (fun status => status.get "containerStatuses") =
        some sampleContainers ∧
      (mainUpdateStatus "v1" "Pod" samplePod
          (sampleRequest [("conditions", .arr [readyCondition "2026-01-02T00:00:00Z"])])).bind
            (fun status => status.get "containerStatuses") =
        some (.arr [.obj [("name", .str "web"), ("ready", .bool false)]]) := by
  decide +kernel

end Klights.Pod
