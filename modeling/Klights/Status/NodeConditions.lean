import Klights.Pod.StatusMerge

/-!
# Merging Node conditions

`merge_node_status_for_update` (`klights-cluster-core/src/status.rs`): a Node's conditions are written by its worker and
by the leader, so an incoming status is merged with the live one type by type. The newer transition wins, and `Ready`
and `NetworkUnavailable` are also judged as a pair.

Reading RFC 3339 times belongs to a library; `parse` stands for it and gives the instant of a time it can read.

- `mergeNodeStatusForUpdate` with the pair rules;
- `mergeNodeStatusConditions_byType`: the merge, condition type by condition type;
- `ready_fresh_iff`: when a newer live `Ready` survives;
- `network_pair_together`: two coherent pairs are never mixed.
-/

namespace Klights.Status

open Pod List

/-! ## Conditions and their times -/

def conditionByType (conditions : List Json) (type : String) : Option Json :=
  conditions.find? fun condition => conditionType condition = some type

def conditionStatus (condition : Option Json) : Option String := (condition.bind (·.get "status")).bind Json.asStr

def conditionTransitionTime (condition : Option Json) : Option String :=
  (condition.bind (·.get "lastTransitionTime")).bind Json.asStr

def isNetworkConditionType (type : String) : Bool := type = "Ready" || type = "NetworkUnavailable"

def desiredNetworkPairIsCoherent (ready network : Option Json) : Bool :=
  match conditionStatus ready, conditionStatus network with
  | some "True", some "False" => true
  | some "False", some "True" => true
  | _, _ => false

def networkConditionPairIsHealthy (ready network : Option Json) : Bool :=
  conditionStatus ready = some "True" && conditionStatus network = some "False"

def networkConditionPairIsUnavailable (ready network : Option Json) : Bool :=
  conditionStatus ready = some "False" && conditionStatus network = some "True"

def networkConditionPairTimestampsTie (desiredReady desiredNetwork existingReady existingNetwork : Option Json) :
    Bool :=
  (conditionTransitionTime desiredReady).isSome &&
    conditionTransitionTime desiredReady = conditionTransitionTime existingReady &&
    (conditionTransitionTime desiredNetwork).isSome &&
    conditionTransitionTime desiredNetwork = conditionTransitionTime existingNetwork

section Merge

variable (parse : String → Option Int)

/-- Two times that can be read are compared as instants, others as text; any time is newer than none. -/
def conditionIsStrictlyNewer (left right : Json) : Bool :=
  match conditionTransitionTime (some left), conditionTransitionTime (some right) with
  | some leftTime, some rightTime =>
    match parse leftTime, parse rightTime with
    | some leftInstant, some rightInstant => decide (rightInstant < leftInstant)
    | _, _ => decide (rightTime < leftTime)
  | some _, none => true
  | none, _ => false

def bothAndNewer (left right : Option Json) : Bool :=
  left.any fun left => right.any fun right => conditionIsStrictlyNewer parse left right

/-! ## The pair rules -/

def networkConditionPairHasNewerTransition (desired existing : List Json) : Bool :=
  let desiredReady := conditionByType desired "Ready"
  let desiredNetwork := conditionByType desired "NetworkUnavailable"
  let existingReady := conditionByType existing "Ready"
  let existingNetwork := conditionByType existing "NetworkUnavailable"
  if !desiredNetworkPairIsCoherent desiredReady desiredNetwork then false
  else if bothAndNewer parse desiredReady existingReady then true
  else networkConditionPairIsHealthy desiredReady desiredNetwork && bothAndNewer parse desiredNetwork existingNetwork

def networkConditionPairShouldReplace (desired existing : List Json) : Bool :=
  if networkConditionPairHasNewerTransition parse desired existing then true
  else
    let desiredReady := conditionByType desired "Ready"
    let desiredNetwork := conditionByType desired "NetworkUnavailable"
    let existingReady := conditionByType existing "Ready"
    let existingNetwork := conditionByType existing "NetworkUnavailable"
    networkConditionPairIsHealthy desiredReady desiredNetwork &&
      networkConditionPairIsUnavailable existingReady existingNetwork &&
      networkConditionPairTimestampsTie desiredReady desiredNetwork existingReady existingNetwork

def networkConditionPairShouldPreserveExisting (desired existing : List Json) : Bool :=
  desiredNetworkPairIsCoherent (conditionByType desired "Ready") (conditionByType desired "NetworkUnavailable") &&
    desiredNetworkPairIsCoherent (conditionByType existing "Ready") (conditionByType existing "NetworkUnavailable") &&
    !networkConditionPairShouldReplace parse desired existing

/-! ## The merge -/

def setCondition (conditions : List Json) (type : String) (condition : Json) : List Json :=
  conditions.set (conditions.findIdx fun existing => conditionType existing = some type) condition

def mergeNodeCondition (replace preserve : Bool) (desired : List Json) (existing : Json) : List Json :=
  match conditionType existing with
  | none => desired
  | some type =>
    match conditionByType desired type with
    | none => desired ++ [existing]
    | some current =>
      if replace && isNetworkConditionType type then desired
      else if preserve && isNetworkConditionType type then setCondition desired type existing
      else if !conditionIsStrictlyNewer parse current existing then setCondition desired type existing
      else desired

def mergeNodeStatusConditions (desired existing : List Json) : List Json :=
  existing.foldl (mergeNodeCondition parse (networkConditionPairShouldReplace parse desired existing)
    (networkConditionPairShouldPreserveExisting parse desired existing)) desired

/-- The conditions of a Node; anything but an array counts as none. -/
def nodeConditions (node : Json) : Option (List Json) := (node.pointer ["status", "conditions"]).bind Json.asArray

def mergeNodeStatusForUpdate (incomingStatus existing : Json) : Json :=
  match (incomingStatus.get "conditions").bind Json.asArray, nodeConditions existing with
  | some desired, some conditions =>
    incomingStatus.insertField "conditions" (.arr (mergeNodeStatusConditions parse desired conditions))
  | _, _ => incomingStatus

end Merge

variable {current cur existing exi : Json}

/-! ## Condition by condition -/

section Lookup

variable {cs : List Json} {type ty : String} {condition cond : Json}

theorem conditionByType_type (h : conditionByType cs type = some cond) : conditionType cond = some type := by
  simpa using find?_some h

theorem setCondition_cons {hd : Json} {tl : List Json} (hh : conditionType hd ≠ some ty) :
    setCondition (hd :: tl) ty condition = hd :: setCondition tl ty condition := by
  simp [setCondition, findIdx_cons, hh]

theorem conditionByType_set_self (hc : conditionByType cs ty = some current) (hy : conditionType condition = some ty) :
    conditionByType (setCondition cs ty condition) ty = some condition := by
  induction cs with
  | nil => cases hc
  | cons head tl ih =>
    by_cases hh : conditionType head = some ty
    · simp [setCondition, conditionByType, findIdx_cons, hh, hy]
    · have hr : conditionByType tl ty = some current := by
        simpa [conditionByType, hh] using hc
      rw [setCondition_cons hh]
      simpa [conditionByType, hh] using ih hr

theorem conditionByType_set_other {other : String} (hy : conditionType cond = some ty) (hn : other ≠ ty) :
    conditionByType (setCondition cs ty cond) other = conditionByType cs other := by
  induction cs with
  | nil => rfl
  | cons head tl ih =>
    by_cases hh : conditionType head = some ty
    · simp [setCondition, conditionByType, findIdx_cons, hh, hy, hn.symm]
    · rw [setCondition_cons hh, conditionByType, find?_cons, conditionByType, find?_cons]
      split
      · rfl
      · exact ih

end Lookup

section ByType

variable (parse p : String → Option Int) (replace r preserve ps : Bool)

def pickCondition (type : String) (desired existing : Json) : Json :=
  if replace && isNetworkConditionType type then desired
  else if preserve && isNetworkConditionType type then existing
  else if conditionIsStrictlyNewer parse desired existing then desired
  else existing

theorem mergeNodeCondition_other {type : String} (hn : conditionType exi ≠ some type) (d : List Json) :
    conditionByType (mergeNodeCondition p r ps d exi) type = conditionByType d type := by
  unfold mergeNodeCondition
  split
  · rfl
  · rename_i existingType hl
    have ho : type ≠ existingType := fun heq => hn (heq ▸ hl)
    split
    · have ha : [exi].find? (fun c => conditionType c = some type) = none := by simp [hn]
      rw [conditionByType, find?_append, ha, Option.or_none]
      rfl
    · split
      · rfl
      · split
        · exact conditionByType_set_other hl ho
        · split
          · exact conditionByType_set_other hl ho
          · rfl

theorem mergeNodeCondition_others {type : String} {existing : List Json}
    (hn : ∀ condition ∈ existing, conditionType condition ≠ some type) (d : List Json) :
    conditionByType (existing.foldl (mergeNodeCondition p r ps) d) type =
      conditionByType d type := by
  induction existing generalizing d with
  | nil => rfl
  | cons condition tl ih =>
    rw [foldl_cons, ih fun c hc => hn c (by simp [hc])]
    exact mergeNodeCondition_other p r ps (hn condition (by simp)) d

theorem mergeNodeCondition_self {type : String} (hy : conditionType existing = some type) (d : List Json) :
    conditionByType (mergeNodeCondition p r ps d existing) type =
      some ((conditionByType d type).elim existing fun current =>
        pickCondition p r ps type current existing) := by
  unfold mergeNodeCondition
  rw [hy]
  dsimp only
  cases hc : conditionByType d type with
  | none =>
    have hl : [existing].find? (fun c => conditionType c = some type) = some existing := by simp [hy]
    rw [conditionByType] at hc
    rw [conditionByType, find?_append, hc, hl]
    rfl
  | some current =>
    have hs := conditionByType_set_self hc hy
    rw [Option.elim_some, pickCondition]
    dsimp only
    split
    · exact hc
    · split
      · exact hs
      · by_cases hn : conditionIsStrictlyNewer p current existing
        · simpa [hn] using hc
        · simpa [hn] using hs

end ByType

def UniqueTypes (conditions : List Json) : Prop := (conditions.filterMap conditionType).Nodup

instance (conditions : List Json) : Decidable (UniqueTypes conditions) :=
  inferInstanceAs (Decidable (conditions.filterMap conditionType).Nodup)

theorem UniqueTypes.split {conditions : List Json} {type : String} {condition : Json} (h : UniqueTypes conditions)
    (hi : conditionByType conditions type = some condition) :
    ∃ b a, conditions = b ++ condition :: a ∧
      (∀ c ∈ b, conditionType c ≠ some type) ∧ (∀ c ∈ a, conditionType c ≠ some type) := by
  have ht := conditionByType_type hi
  obtain ⟨-, b, a, rfl, hb⟩ := find?_eq_some_iff_append.1 hi
  refine ⟨b, a, rfl, fun c hc => by simpa using hb c hc, fun c hc heq => ?_⟩
  rw [UniqueTypes, filterMap_append, filterMap_cons_some ht] at h
  have hn := (nodup_cons.1 (nodup_append.1 h).2.1).1
  exact hn (mem_filterMap.2 ⟨c, hc, heq⟩)

theorem mergeNodeStatusConditions_byType (parse : String → Option Int) {d existing : List Json} {type : String}
    {condition : Json} (hu : UniqueTypes existing) (ho : conditionByType existing type = some condition) :
    conditionByType (mergeNodeStatusConditions parse d existing) type =
      some ((conditionByType d type).elim condition fun current =>
        pickCondition parse (networkConditionPairShouldReplace parse d existing)
          (networkConditionPairShouldPreserveExisting parse d existing) type current condition) := by
  unfold mergeNodeStatusConditions
  generalize networkConditionPairShouldReplace parse d existing = r
  generalize networkConditionPairShouldPreserveExisting parse d existing = ps
  obtain ⟨bef, aft, rfl, hb, ha⟩ := hu.split ho
  rw [foldl_append, foldl_cons, mergeNodeCondition_others parse r ps ha,
    mergeNodeCondition_self parse r ps (conditionByType_type ho),
    mergeNodeCondition_others parse r ps hb]

/-! ## Freshness of `Ready` -/

variable {parse p : String → Option Int}

theorem conditionIsStrictlyNewer_asymm {l ri : Json} (h : conditionIsStrictlyNewer p l ri) :
    conditionIsStrictlyNewer p ri l = false := by
  unfold conditionIsStrictlyNewer at h ⊢
  cases hl : conditionTransitionTime (some l) with
  | none => simp [hl] at h
  | some leftTime =>
    cases hr : conditionTransitionTime (some ri) with
    | none => rfl
    | some re =>
      cases hp : p leftTime with
      | none =>
        simp only [hl, hr, hp, decide_eq_true_eq] at h
        simpa [hp] using String.lt_asymm h
      | some lef =>
        cases ha : p re with
        | none =>
          simp only [hl, hr, hp, ha, decide_eq_true_eq] at h
          simpa [hp, ha] using String.lt_asymm h
        | some rig =>
          simp only [hl, hr, hp, ha, decide_eq_true_eq] at h
          simp only [hp, ha, decide_eq_false_iff_not]
          omega

theorem conditionIsStrictlyNewer_of_tie {l ri : Json}
    (h : conditionTransitionTime (some l) = conditionTransitionTime (some ri)) :
    conditionIsStrictlyNewer p l ri = false := by
  unfold conditionIsStrictlyNewer
  rw [h]
  cases conditionTransitionTime (some ri) with
  | none => rfl
  | some ti =>
    cases hp : p ti with
    | none => simp [hp]
    | some ins => simp [hp]

theorem coherent_of_healthy {re network : Option Json} (h : networkConditionPairIsHealthy re network) :
    desiredNetworkPairIsCoherent re network := by
  simp only [networkConditionPairIsHealthy, Bool.and_eq_true, decide_eq_true_eq] at h
  simp [desiredNetworkPairIsCoherent, h.1, h.2]

/-- Against a newer live `Ready`, the incoming pair replaces the live one if its network recovered later. -/
theorem shouldReplace_of_newer {d existing : List Json} {re : Json}
    (hd : conditionByType d "Ready" = some cur) (ho : conditionByType existing "Ready" = some re)
    (hn : conditionIsStrictlyNewer p re cur) :
    networkConditionPairShouldReplace p d existing =
      (networkConditionPairIsHealthy (some cur) (conditionByType d "NetworkUnavailable") &&
        bothAndNewer p (conditionByType d "NetworkUnavailable") (conditionByType existing "NetworkUnavailable")) := by
  have hr : bothAndNewer p (some cur) (some re) = false := conditionIsStrictlyNewer_asymm hn
  have ht : networkConditionPairTimestampsTie (some cur) (conditionByType d "NetworkUnavailable")
      (some re) (conditionByType existing "NetworkUnavailable") = false := by
    rw [← Bool.not_eq_true]
    intro ht
    simp only [networkConditionPairTimestampsTie, Bool.and_eq_true, decide_eq_true_eq] at ht
    rw [conditionIsStrictlyNewer_of_tie ht.1.1.2.symm] at hn
    cases hn
  unfold networkConditionPairShouldReplace networkConditionPairHasNewerTransition
  simp only [hd, ho, hr, ht, Bool.and_false]
  cases hh : networkConditionPairIsHealthy (some cur) (conditionByType d "NetworkUnavailable") with
  | false => simp
  | true => simp [coherent_of_healthy hh]

theorem conditionsOf_merge {i : Json} {conditions : List Json}
    (ho : nodeConditions exi = some conditions) (hi : conditionsOf i ≠ []) :
    conditionsOf (mergeNodeStatusForUpdate p i exi) = mergeNodeStatusConditions p (conditionsOf i) conditions := by
  cases i with
  | obj fs =>
    cases ha : (Json.get (.obj fs) "conditions").bind Json.asArray with
    | none => exact absurd (by rw [conditionsOf, ha]; rfl) hi
    | some desired =>
      have hd : conditionsOf (.obj fs) = desired := by rw [conditionsOf, ha]; rfl
      simp only [mergeNodeStatusForUpdate, ha, ho]
      rw [conditionsOf_insert, hd]
  | _ => exact absurd rfl hi

/-- A newer live `Ready` survives the merge, unless the incoming pair is healthy and its `NetworkUnavailable` is newer
than the live one. -/
theorem ready_fresh_iff (parse : String → Option Int) (incomingStatus existing : Json) {conditions : List Json}
    {current ready : Json} (hconditions : nodeConditions existing = some conditions) (hunique : UniqueTypes conditions)
    (hdesired : conditionByType (conditionsOf incomingStatus) "Ready" = some current)
    (hexisting : conditionByType conditions "Ready" = some ready)
    (hnewer : conditionIsStrictlyNewer parse ready current = true) :
    conditionByType (conditionsOf (mergeNodeStatusForUpdate parse incomingStatus existing)) "Ready" = some ready ↔
      ¬ (networkConditionPairIsHealthy (some current)
            (conditionByType (conditionsOf incomingStatus) "NetworkUnavailable") = true ∧
          bothAndNewer parse (conditionByType (conditionsOf incomingStatus) "NetworkUnavailable")
            (conditionByType conditions "NetworkUnavailable") = true) := by
  have hi : conditionsOf incomingStatus ≠ [] := by
    intro hn
    rw [hn] at hdesired
    cases hdesired
  have hne : current ≠ ready := by
    rintro rfl
    rw [conditionIsStrictlyNewer_of_tie rfl] at hnewer
    cases hnewer
  have hs := conditionIsStrictlyNewer_asymm hnewer
  rw [conditionsOf_merge hconditions hi, mergeNodeStatusConditions_byType parse hunique hexisting, hdesired,
    ← Bool.and_eq_true, ← shouldReplace_of_newer hdesired hexisting hnewer, Option.elim_some, pickCondition]
  cases networkConditionPairShouldReplace parse (conditionsOf incomingStatus) conditions with
  | true => simpa [isNetworkConditionType] using hne
  | false => simp [hs]

/-! ## The network pair -/

theorem present_of_coherent {conditions : List Json} {type : String} (ht : isNetworkConditionType type)
    (h : desiredNetworkPairIsCoherent (conditionByType conditions "Ready") (conditionByType conditions
      "NetworkUnavailable")) : ∃ condition, conditionByType conditions type = some condition := by
  rw [← Option.ne_none_iff_exists']
  intro hn
  simp only [isNetworkConditionType, Bool.or_eq_true, decide_eq_true_eq] at ht
  obtain rfl | rfl := ht
  · simp [desiredNetworkPairIsCoherent, conditionStatus, hn] at h
  · simp [desiredNetworkPairIsCoherent, conditionStatus, hn] at h

/-- **One network pair.** When both pairs are there and coherent, `Ready` and `NetworkUnavailable` of the merged status
are both the incoming ones or both the live ones. -/
theorem network_pair_together (parse : String → Option Int) (incomingStatus existing : Json) {conditions : List Json}
    (hconditions : nodeConditions existing = some conditions) (hunique : UniqueTypes conditions)
    (hdesired : desiredNetworkPairIsCoherent (conditionByType (conditionsOf incomingStatus) "Ready")
      (conditionByType (conditionsOf incomingStatus) "NetworkUnavailable") = true)
    (hexisting : desiredNetworkPairIsCoherent (conditionByType conditions "Ready")
      (conditionByType conditions "NetworkUnavailable") = true) :
    ∃ source ∈ [conditionsOf incomingStatus, conditions], ∀ type, isNetworkConditionType type = true →
      conditionByType (conditionsOf (mergeNodeStatusForUpdate parse incomingStatus existing)) type =
        conditionByType source type := by
  have hi : conditionsOf incomingStatus ≠ [] := by
    intro hn
    rw [hn] at hdesired
    cases hdesired
  rw [conditionsOf_merge hconditions hi]
  have hp : networkConditionPairShouldPreserveExisting parse (conditionsOf incomingStatus) conditions =
      !networkConditionPairShouldReplace parse (conditionsOf incomingStatus) conditions := by
    rw [networkConditionPairShouldPreserveExisting, hdesired, hexisting]
    rfl
  cases hr : networkConditionPairShouldReplace parse (conditionsOf incomingStatus) conditions with
  | true =>
    refine ⟨conditionsOf incomingStatus, by simp, fun type ht => ?_⟩
    obtain ⟨current, hc⟩ := present_of_coherent ht hdesired
    obtain ⟨condition, ho⟩ := present_of_coherent ht hexisting
    rw [mergeNodeStatusConditions_byType parse hunique ho, hc]
    simp [pickCondition, hr, ht]
  | false =>
    refine ⟨conditions, by simp, fun type ht => ?_⟩
    obtain ⟨current, hc⟩ := present_of_coherent ht hdesired
    obtain ⟨condition, ho⟩ := present_of_coherent ht hexisting
    rw [mergeNodeStatusConditions_byType parse hunique ho, hc, ho]
    simp [pickCondition, hp, hr, ht]

/-! ### A worker that reports its network before the leader's verdict -/

def sampleInstant (time : String) : Option Int :=
  [("2026-07-14T11:38:20Z", 20), ("2026-07-14T11:38:21Z", 21), ("2026-07-14T11:38:22Z", 22)].lookup time

def sampleCondition (type status time : String) : Json :=
  .obj [("lastTransitionTime", .str time), ("status", .str status), ("type", .str type)]

def sampleNode : Json :=
  .obj [("status", .obj [("conditions", .arr [sampleCondition "Ready" "Unknown" "2026-07-14T11:38:22Z",
    sampleCondition "NetworkUnavailable" "False" "2026-07-14T11:38:20Z"])])]

/-- A worker's `Ready` from before that, with a `NetworkUnavailable` of the given time. -/
def sampleReport (networkTime : String) : Json :=
  .obj [("conditions", .arr [sampleCondition "Ready" "True" "2026-07-14T11:38:20Z",
    sampleCondition "NetworkUnavailable" "False" networkTime])]

theorem ready_fresh_unknown : conditionByType (conditionsOf
        (mergeNodeStatusForUpdate sampleInstant (sampleReport "2026-07-14T11:38:20Z") sampleNode)) "Ready" =
      some (sampleCondition "Ready" "Unknown" "2026-07-14T11:38:22Z") :=
  (ready_fresh_iff sampleInstant (sampleReport "2026-07-14T11:38:20Z") sampleNode rfl (by decide +kernel) rfl rfl
    (by decide +kernel)).2 (by decide +kernel)

/-- Two reports of one worker, the older one incoming. -/
theorem network_pair_together_reports :
    let node := Json.obj [("status", sampleReport "2026-07-14T11:38:22Z")]
    ∃ source ∈ [conditionsOf (sampleReport "2026-07-14T11:38:21Z"), conditionsOf (sampleReport "2026-07-14T11:38:22Z")],
      ∀ type, isNetworkConditionType type = true → conditionByType (conditionsOf
        (mergeNodeStatusForUpdate sampleInstant (sampleReport "2026-07-14T11:38:21Z") node)) type =
          conditionByType source type :=
  network_pair_together sampleInstant (sampleReport "2026-07-14T11:38:21Z") _ rfl (by decide +kernel)
    (by decide +kernel) (by decide +kernel)

/-- The stale `Ready` of a report whose network condition is newer replaces the leader's verdict. -/
theorem stale_ready_overwrites : UniqueTypes (conditionsOf (sampleReport "2026-07-14T11:38:21Z")) ∧
      conditionIsStrictlyNewer sampleInstant (sampleCondition "Ready" "Unknown" "2026-07-14T11:38:22Z")
        (sampleCondition "Ready" "True" "2026-07-14T11:38:20Z") = true ∧
      conditionByType (conditionsOf
          (mergeNodeStatusForUpdate sampleInstant (sampleReport "2026-07-14T11:38:21Z") sampleNode)) "Ready" =
        some (sampleCondition "Ready" "True" "2026-07-14T11:38:20Z") := by
  decide +kernel

end Klights.Status
