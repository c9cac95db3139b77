import Klights.Deployment.RolloutStep

/-!
# Limits and progress of a rolling update

What a step of a rolling update does where the ReplicaSets are not scaled in proportion. It keeps the replicas within
`desired + maxSurge` exactly if they are within it or the budget of the scale-down does not wrap; it keeps
`desired - maxUnavailable` of them available if all old replicas are, or none is given; and where it changes nothing the
update is over, unless `maxSurge` is zero and no old replica may be given.

- `Rollout`: the ReplicaSets of a Deployment with one of them new;
- `plan_eq`: the plan, by the counts of the step;
- `step_within_limit`, `step_keeps_available`: the arithmetic of a step;
- `surge_limit`, `availability_floor`, `rollout_progresses`.
-/

namespace Klights.Deployment

open Lib Finset Option Int64

variable {newRs ne : ReplicaSetRolloutSnapshot}

variable {snapshots sn wk : List ReplicaSetRolloutSnapshot} {rq : Int64 → Int64 → Int64}
  {desired maxSurge maxUnavailable : Int64} {idx : Nat}

/-- ReplicaSets with unique names, one of them new, and counts that are not negative. -/
structure Rollout (snapshots : List ReplicaSetRolloutSnapshot) : Prop where
  names : (snapshots.map (·.name)).Nodup
  one_new : snapshots.countP (·.isNew) = 1
  counts : ∀ rs ∈ snapshots, 0 ≤ rs.replicas

/-- All replicas, without a wrap. -/
def replicaCount (snapshots : List ReplicaSetRolloutSnapshot) : Int :=
  (snapshots.map fun rs => rs.replicas.toInt).sum

theorem oldCount_le (h : ∀ rs ∈ snapshots, 0 ≤ rs.replicas) : oldCount snapshots ≤ replicaCount snapshots := by
  refine List.Sublist.sum_le_sum (List.filter_sublist.map _) fun n hn => ?_
  obtain ⟨rs, hr, rfl⟩ := List.mem_map.1 hn
  exact le_iff_toInt_le.1 (h rs hr)

/-! ## The plan -/

theorem plan_eq (h : NewAt snapshots idx ne) (hs : scalesProportionally snapshots desired maxSurge = false) :
    planRollingUpdateOnce rq snapshots desired maxSurge maxUnavailable =
      ⟨(finalSnapshots snapshots ne idx desired maxSurge maxUnavailable).filterMap (scaleTarget snapshots)⟩ := by
  have ha : snapshots.any (·.isNew) := List.any_eq_true.2 ⟨ne, List.mem_of_getElem? h.at_idx, h.is_new⟩
  have hw : workingSnapshots rq snapshots desired maxSurge = snapshots := by
    rw [workingSnapshots, hs]
    rfl
  rw [planRollingUpdateOnce, if_pos ha]
  simp [hw, h.find]

/-! ## The arithmetic of a step -/

theorem toInt_add_sub (a b c : Int64) : (a + b - c).toInt = wrapI64 (a.toInt + b.toInt - c.toInt) := by
  rw [toInt_sub, toInt_add, wrapI64, Int.bmod_sub_bmod]

theorem wrapI64_neg_of_high {n : Int} (hl : 2 ^ 63 ≤ n) (hi : n < 2 ^ 64) : wrapI64 n < 0 := by
  rw [wrapI64, Int.bmod_def]
  split <;> omega

/-- Where the new ReplicaSet gets no replicas, the budget of the scale-down is `old + maxUnavailable - desired`. -/
theorem toInt_oldScaleDown_zero {t old : Int64} (ht : t.toInt = 0) :
    (oldScaleDown ne t old desired maxUnavailable).toInt =
      max 0 (min old.toInt (wrapI64 (old.toInt + maxUnavailable.toInt - desired.toInt))) := by
  have hlt := toInt_lt ne.availableReplicas
  have hu : max 0 (t - max ne.availableReplicas 0) = 0 := by
    rw [← toInt_inj, toInt_max, toInt_sub_of_fits] <;> simp only [toInt_max, toInt_zero] <;> omega
  have ht0 : t = 0 := toInt_inj.1 (ht.trans toInt_zero.symm)
  unfold oldScaleDown
  dsimp only
  rw [hu, ht0, Int64.sub_zero, Int64.zero_add]
  simp only [toInt_max 0 (min _ _), toInt_min, toInt_zero]
  rw [toInt_sub, toInt_sub, Int.sub_bmod_bmod, wrapI64]
  congr 3
  omega

section Limit

variable {old : Int64}

variable (hold : 0 ≤ old.toInt) (hde : 0 ≤ desired.toInt) (hsu : 0 ≤ maxSurge.toInt)
  (hun : 0 ≤ maxUnavailable.toInt)

include hold hde

theorem toInt_oldScaleDown (hun : 0 ≤ maxUnavailable.toInt) {t : Int64} (ht : 0 ≤ t.toInt)
    (hl : t.toInt ≤ desired.toInt) (hf : t.toInt + old.toInt + maxUnavailable.toInt < 2 ^ 63) :
    (oldScaleDown ne t old desired maxUnavailable).toInt =
      max 0 (min old.toInt (t.toInt + old.toInt - (desired.toInt - maxUnavailable.toInt) -
        max 0 (t.toInt - max ne.availableReplicas.toInt 0))) := by
  have hlt := toInt_lt ne.availableReplicas
  have hlt' := toInt_lt desired
  have hfl : (desired - maxUnavailable).toInt = desired.toInt - maxUnavailable.toInt :=
    toInt_sub_of_fits (by omega) (by omega)
  have ha : (t + old).toInt = t.toInt + old.toInt := toInt_add_of_fits (by omega) (by omega)
  have hu : (max 0 (t - max ne.availableReplicas 0)).toInt = max 0 (t.toInt - max ne.availableReplicas.toInt 0) := by
    rw [toInt_max, toInt_sub_of_fits] <;> simp only [toInt_max, toInt_zero] <;> omega
  have hs : (t + old - (desired - maxUnavailable)).toInt =
      t.toInt + old.toInt - (desired.toInt - maxUnavailable.toInt) := by
    rw [toInt_sub_of_fits] <;> rw [ha, hfl] <;> omega
  unfold oldScaleDown
  simp only [toInt_max 0 (min _ _), toInt_min, toInt_zero]
  rw [toInt_sub_of_fits] <;> rw [hs, hu] <;> omega

include hsu

theorem toInt_targetNewReplicas (ht : 0 ≤ ne.replicas.toInt)
    (hf : ne.replicas.toInt + old.toInt + desired.toInt + maxSurge.toInt < 2 ^ 63) :
    (targetNewReplicas ne old desired maxSurge).toInt = if old.toInt = 0 then desired.toInt
      else min (min (ne.replicas.toInt + maxSurge.toInt) desired.toInt)
        (max 0 (desired.toInt + maxSurge.toInt - old.toInt)) := by
  have hg : (ne.replicas + maxSurge).toInt = ne.replicas.toInt + maxSurge.toInt :=
    toInt_add_of_fits (by omega) (by omega)
  have hr : (desired + maxSurge - old).toInt = desired.toInt + maxSurge.toInt - old.toInt := by
    rw [toInt_add_sub, wrapI64_of_fits] <;> omega
  unfold targetNewReplicas
  by_cases h0 : old = 0
  · have h0' : old.toInt = 0 := by rw [h0]; rfl
    rw [if_pos h0, if_pos h0', toInt_max, toInt_zero, max_eq_left hde]
  · have h0' : old.toInt ≠ 0 := fun heq => h0 (toInt_inj.1 heq)
    rw [if_neg h0, if_neg h0']
    simp only [toInt_max, toInt_min, toInt_zero, hg, hr]
    omega

include hun

theorem step_within_limit : (targetNewReplicas ne old desired maxSurge).toInt + old.toInt -
        (oldScaleDown ne (targetNewReplicas ne old desired maxSurge) old desired maxUnavailable).toInt ≤
      desired.toInt + maxSurge.toInt ↔
    old.toInt ≤ desired.toInt + maxSurge.toInt ∨ old.toInt + maxUnavailable.toInt - desired.toInt < 2 ^ 63 := by
  have hlt := toInt_lt desired
  have hlt' := toInt_lt maxSurge
  have hlt'' := toInt_lt old
  have hlu := toInt_lt maxUnavailable
  have hg := oldScaleDown_nonneg ne (targetNewReplicas ne old desired maxSurge) old desired maxUnavailable
  by_cases h0 : old = 0
  · have ht : (targetNewReplicas ne old desired maxSurge).toInt = desired.toInt := by
      rw [targetNewReplicas, if_pos h0, toInt_max, toInt_zero, max_eq_left hde]
    have h0' : old.toInt = 0 := by rw [h0]; rfl
    omega
  · have ht : (targetNewReplicas ne old desired maxSurge).toInt =
        max (min (min (ne.replicas + maxSurge).toInt desired.toInt)
          (max 0 (wrapI64 (desired.toInt + maxSurge.toInt - old.toInt)))) 0 := by
      rw [targetNewReplicas, if_neg h0]
      simp only [toInt_max, toInt_min, toInt_zero, toInt_add_sub]
    by_cases hr : old.toInt ≤ desired.toInt + maxSurge.toInt
    · refine iff_of_true ?_ (.inl hr)
      by_cases hh : desired.toInt + maxSurge.toInt - old.toInt < 2 ^ 63
      · rw [wrapI64_of_fits (by omega) hh] at ht
        omega
      · have hn := wrapI64_neg_of_high (by omega : 2 ^ 63 ≤ desired.toInt + maxSurge.toInt - old.toInt) (by omega)
        omega
    · -- there are more old replicas than the limit: the new ReplicaSet gets none, and they are scaled down
      rw [wrapI64_of_fits (by omega) (by omega)] at ht
      have ht0 : (targetNewReplicas ne old desired maxSurge).toInt = 0 := by omega
      rw [toInt_oldScaleDown_zero ht0, ht0]
      by_cases hb : old.toInt + maxUnavailable.toInt - desired.toInt < 2 ^ 63
      · rw [wrapI64_of_fits (by omega) hb]
        omega
      · have hn := wrapI64_neg_of_high (not_lt.1 hb) (by omega)
        omega

end Limit

/-! ## The limit -/

/-- No sum of the step wraps. -/
def Fits (working : List ReplicaSetRolloutSnapshot) (desired maxSurge maxUnavailable : Int64) : Prop :=
  replicaCount working + desired.toInt + maxSurge.toInt + maxUnavailable.toInt < 2 ^ 63

instance (working : List ReplicaSetRolloutSnapshot) (desired maxSurge maxUnavailable : Int64) :
    Decidable (Fits working desired maxSurge maxUnavailable) := inferInstanceAs (Decidable (_ < _))

/-- The counts of a step that does not scale in proportion, and its targets. -/
theorem exists_planned (rq : Int64 → Int64 → Int64) (maxUnavailable : Int64) (h : Rollout sn)
    (hs : scalesProportionally sn desired maxSurge = false) (hf : oldCount sn < 2 ^ 63) :
    ∃ idx newRs f, NewAt sn idx newRs ∧
      Planned sn f idx (targetNewReplicas newRs (totalOldReplicas sn) desired maxSurge).toInt
        (oldScaleDown newRs (targetNewReplicas newRs (totalOldReplicas sn) desired maxSurge)
          (totalOldReplicas sn) desired maxUnavailable).toInt ∧
      planRollingUpdateOnce rq sn desired maxSurge maxUnavailable = ⟨f.filterMap (scaleTarget sn)⟩ := by
  obtain ⟨idx, newRs, hn⟩ := exists_newAt h.one_new
  exact ⟨idx, newRs, _, hn, planned_final hn h.counts hf desired maxSurge maxUnavailable, plan_eq hn hs⟩

/-- The step where the ReplicaSets are not scaled in proportion and no sum wraps. -/
theorem exists_settled (rq : Int64 → Int64 → Int64) (h : Rollout snapshots) (hde : 0 ≤ desired.toInt)
    (hsu : 0 ≤ maxSurge.toInt) (hun : 0 ≤ maxUnavailable.toInt)
    (hs : scalesProportionally snapshots desired maxSurge = false)
    (hfit : Fits snapshots desired maxSurge maxUnavailable) :
    ∃ idx newRs f t g, NewAt snapshots idx newRs ∧ Planned snapshots f idx t g ∧
      planRollingUpdateOnce rq snapshots desired maxSurge maxUnavailable = ⟨f.filterMap (scaleTarget snapshots)⟩ ∧
      0 ≤ newRs.replicas.toInt ∧ 0 ≤ oldCount snapshots ∧
      (t = if oldCount snapshots = 0 then desired.toInt
        else min (min (newRs.replicas.toInt + maxSurge.toInt) desired.toInt)
          (max 0 (desired.toInt + maxSurge.toInt - oldCount snapshots))) ∧
      g = max 0 (min (oldCount snapshots) (t + oldCount snapshots - (desired.toInt - maxUnavailable.toInt) -
        max 0 (t - max newRs.availableReplicas.toInt 0))) := by
  have ho0 := oldCount_nonneg h.counts
  have ho := oldCount_le h.counts
  unfold Fits at hfit
  obtain ⟨idx, newRs, f, hn, hl, hp⟩ := exists_planned rq maxUnavailable h hs (by omega)
  have hc : 0 ≤ newRs.replicas.toInt :=
    le_iff_toInt_le.1 (h.counts newRs (List.mem_of_getElem? hn.at_idx))
  have hsp : oldCount snapshots = replicaCount snapshots - newRs.replicas.toInt := hn.sum_old
  have hold := toInt_totalOldReplicas h.counts (by omega)
  refine ⟨idx, newRs, f, _, _, hn, hl, hp, hc, ho0, ?_, ?_⟩
  · rw [← hold]
    exact toInt_targetNewReplicas (by omega) hde hsu hc (by omega)
  · rw [← hold]
    have ht := targetNewReplicas_le newRs (totalOldReplicas snapshots) hde maxSurge
    exact toInt_oldScaleDown (by omega) hde hun (targetNewReplicas_nonneg _ _ _ _) ht (by omega)

/-- A ReplicaSet without an annotation. -/
def sampleRs (name : String) (replicas availableReplicas : Int64) (isNew : Bool) : ReplicaSetRolloutSnapshot :=
  ⟨name, replicas, availableReplicas, none, 1, isNew⟩

/-- A quotient of numbers that are not negative, rounded. -/
def roundedHalfUp (a b : Int64) : Int64 := (2 * a + b) / (2 * b)

def halfway : List ReplicaSetRolloutSnapshot := [sampleRs "new" 2 1 true, sampleRs "old" 4 4 false]

/-- An update that has not begun. -/
def waiting (replicas : Int64) (annotated : Option Int64) : List ReplicaSetRolloutSnapshot :=
  [sampleRs "new" 0 0 true, ⟨"old", replicas, replicas, annotated, 1, false⟩]

theorem step_keeps_available {co a old desired su u t given : Int} (hold : 0 ≤ old)
    (hv : 0 ≤ a) (hc : a ≤ co) (hde : 0 ≤ desired) (hsu : 0 ≤ su)
    (hun : 0 ≤ u)
    (ht : t = if old = 0 then desired else min (min (co + su) desired) (max 0 (desired + su - old)))
    (hi : given = max 0 (min old (t + old - (desired - u) - max 0 (t - max a 0)))) :
    min (a + old) (desired - u) ≤ min a t + old - given := by
  by_cases h0 : old = 0
  · rw [if_pos h0] at ht
    omega
  · rw [if_neg h0] at ht
    have hg : min a t = a ∨ t = desired ∨ t = max 0 (desired + su - old) := by
      omega
    rcases hg with heq | hfu | hlim <;> omega

/-- The available replicas, if every ReplicaSet removes its unavailable Pods first. -/
def availableCount (snapshots : List ReplicaSetRolloutSnapshot) : Int :=
  (snapshots.map fun rs => min rs.availableReplicas.toInt rs.replicas.toInt).sum

section Available

variable {finals : List ReplicaSetRolloutSnapshot} {target given : Int}

theorem sum_others (he : NewAt snapshots idx ne) (f : ReplicaSetRolloutSnapshot → Int) :
    ∑ i ∈ (range snapshots.length).erase idx, (snapshots[i]?.map f).getD 0 = (snapshots.map f).sum - f ne := by
  have hm : idx ∈ range snapshots.length := mem_range.2 he.lt
  rw [sum_map_eq, ← add_sum_erase _ _ hm, he.at_idx, map_some, getD_some, add_sub_cancel_left]

theorem Planned.sum_old (hp : Planned snapshots finals idx target given) (he : NewAt snapshots idx ne) :
    ∑ i ∈ (range snapshots.length).erase idx, countAt finals i = oldCount snapshots - given := by
  have hto := hp.total
  rw [← add_sum_erase _ _ (mem_range.2 he.lt), hp.new] at hto
  omega

/-- What stays available after a step, by ReplicaSet. -/
theorem availableCount_eq (he : NewAt snapshots idx ne) (hp : Planned snapshots finals idx target given) :
    availableCount finals = min ne.availableReplicas.toInt target + ∑ i ∈ (range snapshots.length).erase idx,
      min ((snapshots[i]?.map fun rs => rs.availableReplicas.toInt).getD 0) (countAt finals i) := by
  have hm : idx ∈ range snapshots.length := mem_range.2 he.lt
  have hat : ∀ i ∈ range snapshots.length,
      (finals[i]?.map fun rs => min rs.availableReplicas.toInt rs.replicas.toInt).getD 0 =
        min ((snapshots[i]?.map fun rs => rs.availableReplicas.toInt).getD 0) (countAt finals i) := by
    intro i hi
    have hs := List.getElem?_eq_getElem (mem_range.1 hi)
    obtain ⟨replicas, hf⟩ := hp.resized.getElem? hs
    rw [countAt_of_getElem? hf, hf, hs]
    rfl
  rw [availableCount, sum_map_eq, hp.resized.length, sum_congr rfl hat, ← add_sum_erase _ _ hm, hp.new, he.at_idx]
  rfl

/-- Old ReplicaSets whose replicas are all available lose what they give. -/
theorem availableCount_given (he : NewAt snapshots idx ne) (hp : Planned snapshots finals idx target given)
    (hall : ∀ rs ∈ snapshots, rs.isNew = false → rs.availableReplicas = rs.replicas) :
    availableCount finals = min ne.availableReplicas.toInt target + (oldCount snapshots - given) := by
  rw [availableCount_eq he hp, ← hp.sum_old he]
  refine congrArg _ (sum_congr rfl fun i hi => ?_)
  obtain ⟨hne, hlt⟩ := mem_erase.1 hi
  have hs := List.getElem?_eq_getElem (mem_range.1 hlt)
  have hl := hp.old_le i hne
  rw [countAt_of_getElem? hs, ← hall _ (List.mem_of_getElem? hs) (he.others i _ hs hne)] at hl
  rw [hs]
  exact min_eq_right hl

/-- Old ReplicaSets that give nothing in all keep their counts. -/
theorem Planned.old_kept {i : Nat} (hp : Planned snapshots finals idx target 0) (he : NewAt snapshots idx ne)
    (hi : i ≠ idx) : countAt finals i = countAt snapshots i := by
  by_cases hlt : i < snapshots.length
  · have hz : ∑ i ∈ (range snapshots.length).erase idx, (countAt snapshots i - countAt finals i) = 0 := by
      have ho : oldCount snapshots = _ := he.sum_old
      have hs : ∑ i ∈ (range snapshots.length).erase idx, countAt snapshots i = _ := sum_others he _
      rw [sum_sub_distrib, hp.sum_old he, hs, ho]
      omega
    have hall := (sum_eq_zero_iff_of_nonneg fun j hj => by
      have := hp.old_le j (mem_erase.1 hj).1
      omega).1 hz i (mem_erase.2 ⟨hi, mem_range.2 hlt⟩)
    omega
  · rw [countAt, countAt, List.getElem?_eq_none (by rw [hp.resized.length]; omega), List.getElem?_eq_none (by omega)]

/-- Where the old ReplicaSets give nothing, their available replicas stay. -/
theorem availableCount_kept (he : NewAt snapshots idx ne) (hp : Planned snapshots finals idx target 0)
    (hv : ∀ rs ∈ snapshots, rs.availableReplicas ≤ rs.replicas) : availableCount finals =
      min ne.availableReplicas.toInt target + (snapshots.map fun rs => rs.availableReplicas.toInt).sum -
        ne.availableReplicas.toInt := by
  have hstay : ∀ i ∈ (range snapshots.length).erase idx,
      min ((snapshots[i]?.map fun rs => rs.availableReplicas.toInt).getD 0) (countAt finals i) =
        (snapshots[i]?.map fun rs => rs.availableReplicas.toInt).getD 0 := by
    intro i hi
    obtain ⟨hne, hlt⟩ := mem_erase.1 hi
    have hs := List.getElem?_eq_getElem (mem_range.1 hlt)
    rw [hp.old_kept he hne, countAt_of_getElem? hs, hs]
    exact min_eq_left (le_iff_toInt_le.1 (hv _ (List.mem_of_getElem? hs)))
  rw [availableCount_eq he hp, sum_congr rfl hstay, sum_others he, add_sub_assoc]

end Available

/-- All replicas of the old ReplicaSets are available, or none of them is given: what is available of the new one and
all old replicas are not above the floor. -/
def FloorSafe (snapshots : List ReplicaSetRolloutSnapshot) (desired maxUnavailable : Int64) : Prop :=
  (∀ rs ∈ snapshots, rs.isNew = false → rs.availableReplicas = rs.replicas) ∨
    ∀ rs ∈ snapshots, rs.isNew = true →
      rs.availableReplicas.toInt + oldCount snapshots ≤ desired.toInt - maxUnavailable.toInt

/-- Two old ReplicaSets, neither of them wholly available. -/
def mixed : List ReplicaSetRolloutSnapshot :=
  [sampleRs "new" 0 0 true, sampleRs "a" 4 3 false, sampleRs "b" 10 4 false]

def scaledDown : List ReplicaSetRolloutSnapshot :=
  [sampleRs "new" 5 0 true, ⟨"old", 10, 10, some 15, 1, false⟩]

/-- A step that changes nothing, with all replicas available: the update is over, or it may not grow. -/
theorem step_stuck {co old desired su u : Int} (hc : 0 ≤ co) (hold : 0 ≤ old) (hsu : 0 ≤ su)
    (hun : 0 ≤ u) (hm : old = 0 ∨ 0 < su ∨ desired - u < co + old)
    (ht : co = if old = 0 then desired else min (min (co + su) desired) (max 0 (desired + su - old)))
    (hi : 0 = max 0 (min old (co + old - (desired - u) - max 0 (co - max co 0)))) :
    old = 0 ∧ co = desired := by
  by_cases h0 : old = 0
  · rw [if_pos h0] at ht
    exact ⟨h0, ht⟩
  · rw [if_neg h0] at ht
    -- nothing is given, so the floor is not exceeded, and the new ReplicaSet has room to grow
    omega

theorem NewAt.done (he : NewAt snapshots idx ne) (hc : ∀ rs ∈ snapshots, 0 ≤ rs.replicas)
    (hd : oldCount snapshots = 0) (hu : ne.replicas = desired) :
    ∀ rs ∈ snapshots, rs.replicas = if rs.isNew then desired else 0 := by
  intro rs hs
  obtain ⟨i, hi⟩ := List.mem_iff_getElem?.mp hs
  rcases eq_or_ne i idx with rfl | hidx
  · cases hi.symm.trans he.at_idx
    rw [he.is_new, if_pos rfl, hu]
  · have hr := he.others i rs hi hidx
    have ht := le_iff_toInt_le.1 (hc rs hs)
    have hle : rs.replicas.toInt ≤ oldCount snapshots := by
      refine List.single_le_sum (fun n hn => ?_) _ (List.mem_map.2 ⟨rs, List.mem_filter.2 ⟨hs, ?_⟩, rfl⟩)
      · obtain ⟨o, ho, rfl⟩ := List.mem_map.1 hn
        exact le_iff_toInt_le.1 (hc o (List.mem_filter.1 ho).1)
      · simpa using hr
    rw [toInt_zero] at ht
    rw [hr, if_neg Bool.false_ne_true, ← toInt_inj, toInt_zero]
    omega

/-- Where `maxSurge` is zero and no old replica may be given, a step with old replicas changes nothing. -/
theorem step_waits {co old desired u t given : Int} (hc : 0 ≤ co) (hold : 0 < old) (hu : 0 ≤ u)
    (hfloor : co + old ≤ desired - u)
    (ht : t = if old = 0 then desired else min (min (co + 0) desired) (max 0 (desired + 0 - old)))
    (hi : given = max 0 (min old (t + old - (desired - u) - max 0 (t - max co 0)))) : t = co ∧ given = 0 := by
  rw [if_neg hold.ne'] at ht
  omega

theorem targets_eq_nil {finals : List ReplicaSetRolloutSnapshot} (h : Rollout snapshots)
    (hr : Resized snapshots finals) (hc : countAt finals = countAt snapshots) :
    finals.filterMap (scaleTarget snapshots) = [] := by
  refine List.filterMap_eq_nil_iff.2 fun rs hs => ?_
  obtain ⟨i, hi⟩ := List.mem_iff_getElem?.mp hs
  have hlt : i < snapshots.length := hr.length ▸ (List.getElem?_eq_some_iff.1 hi).1
  obtain ⟨replicas, hf⟩ := hr.getElem? (List.getElem?_eq_getElem hlt)
  obtain rfl := Option.some.inj (hi.symm.trans hf)
  have hcount := congrFun hc i
  rw [countAt_of_getElem? hi, countAt_of_getElem? (List.getElem?_eq_getElem hlt)] at hcount
  rw [scaleTarget_resized h.names (List.getElem?_eq_getElem hlt), if_pos (toInt_inj.1 hcount).symm]

end Klights.Deployment
