import Klights.Deployment.Rollout
import Klights.Lib.Drain

/-!
# What one step of a rolling update does to the counts

The step as a change of counts by index (`countAt`): the new ReplicaSet gets its target, and the old ones give a number
of replicas between them, none more than it has.

- `Resized`: ReplicaSets that differ in their counts alone;
- `scaleDown_counts`: the loop over the old ReplicaSets takes a budget from their counts (`Lib.drain`);
- `Planned`, `planned_final`: the counts after the step;
- `applyTargets_final`: with unique names, applying the targets gives these counts.
-/

namespace Klights.Deployment

open Lib Finset Option Function Int64

variable {o : List ReplicaSetRolloutSnapshot} {i : Nat} {rs : ReplicaSetRolloutSnapshot}

variable {snapshots working finals : List ReplicaSetRolloutSnapshot}

/-! ## Counts -/

def countAt (snapshots : List ReplicaSetRolloutSnapshot) (i : Nat) : Int :=
  (snapshots[i]?.map fun rs => rs.replicas.toInt).getD 0

def unsized (rs : ReplicaSetRolloutSnapshot) : ReplicaSetRolloutSnapshot := { rs with replicas := 0 }

/-- The same ReplicaSets with other counts. -/
def Resized (snapshots other : List ReplicaSetRolloutSnapshot) : Prop := other.map unsized = snapshots.map unsized

theorem Resized.refl (snapshots : List ReplicaSetRolloutSnapshot) : Resized snapshots snapshots := rfl

theorem Resized.trans {third : List ReplicaSetRolloutSnapshot} (h : Resized snapshots o)
    (h' : Resized o third) : Resized snapshots third := Eq.trans h' h

theorem Resized.length (h : Resized snapshots o) : o.length = snapshots.length := by
  have hl := congrArg List.length h
  rwa [List.length_map, List.length_map] at hl

theorem resized_setReplicas (snapshots : List ReplicaSetRolloutSnapshot) (idx : Nat) (r : Int64) :
    Resized snapshots (setReplicas snapshots idx r) := by
  refine List.ext_getElem? fun i => ?_
  rw [setReplicas, List.getElem?_map, List.getElem?_map, List.getElem?_modify]
  cases snapshots[i]? with
  | none => rfl
  | some rs =>
    by_cases hi : idx = i
    · simp [hi, unsized]
    · simp [hi]

theorem Resized.getElem? (h : Resized snapshots o) (hi : snapshots[i]? = some rs) :
    ∃ replicas, o[i]? = some { rs with replicas := replicas } := by
  have hs := congrArg (fun li : List ReplicaSetRolloutSnapshot => li[i]?) h
  rw [List.getElem?_map, List.getElem?_map, hi] at hs
  obtain ⟨r', hr', heq⟩ := map_eq_some_iff.1 hs
  refine ⟨r'.replicas, ?_⟩
  cases r'
  cases rs
  simp_all [unsized]

theorem countAt_setReplicas {idx : Nat} (hd : idx < snapshots.length) (r : Int64) :
    countAt (setReplicas snapshots idx r) = Function.update (countAt snapshots) idx r.toInt := by
  funext i
  by_cases hi : i = idx
  · subst hi
    simp [countAt, setReplicas, hd]
  · rw [update_of_ne hi]
    have hne : ¬idx = i := fun heq => hi heq.symm
    simp [countAt, setReplicas, hne]

theorem countAt_of_getElem? (h : snapshots[i]? = some rs) : countAt snapshots i = rs.replicas.toInt := by
  rw [countAt, h]
  rfl

theorem countAt_nonneg (hc : ∀ rs ∈ snapshots, 0 ≤ rs.replicas) (i : Nat) : 0 ≤ countAt snapshots i := by
  unfold countAt
  cases hi : snapshots[i]? with
  | none => exact le_rfl
  | some rs =>
    have ht := le_iff_toInt_le.1 (hc rs (List.mem_of_getElem? hi))
    exact ht

theorem sum_map_eq (f : ReplicaSetRolloutSnapshot → Int) (snapshots : List ReplicaSetRolloutSnapshot) :
    (snapshots.map f).sum = ∑ i ∈ range snapshots.length, (snapshots[i]?.map f).getD 0 := by
  induction snapshots with
  | nil => rfl
  | cons rs tl ih =>
    rw [List.map_cons, List.sum_cons, List.length_cons, sum_range_succ', ih, add_comm]
    rfl

theorem scaleDown_counts (places : List Nat) {r : Int64} (hr : 0 ≤ r) (hc : ∀ i, 0 ≤ countAt finals i) :
    Resized finals (places.foldl scaleDownOld (r, finals)).2 ∧
      countAt (places.foldl scaleDownOld (r, finals)).2 = drain (countAt finals) r.toInt places := by
  induction places generalizing r finals with
  | nil => exact ⟨Resized.refl _, rfl⟩
  | cons pl tl ih =>
    have hb : 0 ≤ r.toInt := le_iff_toInt_le.1 hr
    have ht := hc pl
    rw [List.foldl_cons, drain]
    cases hp : finals[pl]? with
    | none =>
      -- there is nothing to take from
      have h0 : countAt finals pl = 0 := by rw [countAt, hp]; rfl
      have hs : scaleDownOld (r, finals) pl = (r, finals) := by
        rw [scaleDownOld, hp]
      rw [hs, h0, min_eq_right hb, sub_zero, sub_zero, ← h0, update_eq_self]
      exact ih hr hc
    | some ol =>
      have ho := countAt_of_getElem? hp
      by_cases hd : r ≤ 0 ∨ ol.replicas ≤ 0
      · have hs : scaleDownOld (r, finals) pl = (r, finals) := by
          rw [scaleDownOld, hp]
          exact if_pos hd
        have hn : min r.toInt (countAt finals pl) = 0 := by
          rw [le_iff_toInt_le, le_iff_toInt_le, toInt_zero, ← ho] at hd
          omega
        rw [hs, hn, sub_zero, sub_zero, update_eq_self]
        exact ih hr hc
      · have hlt := toInt_lt r
        have hlt' := toInt_lt ol.replicas
        have hs : scaleDownOld (r, finals) pl = (r - min r ol.replicas,
              setReplicas finals pl (ol.replicas - min r ol.replicas)) := by
          rw [scaleDownOld, hp]
          exact if_neg hd
        have hl : (r - min r ol.replicas).toInt = r.toInt - min r.toInt (countAt finals pl) := by
          rw [toInt_sub_of_fits] <;> rw [toInt_min, ← ho] <;> omega
        have hg : (ol.replicas - min r ol.replicas).toInt = countAt finals pl - min r.toInt (countAt finals pl) := by
          rw [toInt_sub_of_fits] <;> rw [toInt_min, ← ho] <;> omega
        have ha := countAt_setReplicas (List.getElem?_eq_some_iff.1 hp).1 (ol.replicas - min r ol.replicas)
        rw [hg] at ha
        have hx : 0 ≤ r - min r ol.replicas := by
          rw [le_iff_toInt_le, hl, toInt_zero]
          omega
        obtain ⟨hre, hdr⟩ := ih hx fun i => by
          rw [ha]
          exact given_nonneg hc pl i
        rw [hs, hdr, ha, hl]
        exact ⟨(resized_setReplicas finals pl _).trans hre, rfl⟩

/-! ## The new ReplicaSet and the old ones -/

/-- The replicas of the old ReplicaSets, without a wrap. -/
def oldCount (snapshots : List ReplicaSetRolloutSnapshot) : Int :=
  ((snapshots.filter fun rs => !rs.isNew).map fun rs => rs.replicas.toInt).sum

theorem oldCount_nonneg (hc : ∀ rs ∈ snapshots, 0 ≤ rs.replicas) : 0 ≤ oldCount snapshots := by
  refine List.sum_nonneg fun n hn => ?_
  obtain ⟨rs, hr, rfl⟩ := List.mem_map.1 hn
  exact le_iff_toInt_le.1 (hc rs (List.mem_filter.1 hr).1)

theorem toInt_totalOldReplicas (hc : ∀ rs ∈ snapshots, 0 ≤ rs.replicas) (hf : oldCount snapshots < 2 ^ 63) :
    (totalOldReplicas snapshots).toInt = oldCount snapshots := by
  have hm : ((snapshots.filter fun rs => !rs.isNew).map (·.replicas)).map Int64.toInt =
      (snapshots.filter fun rs => !rs.isNew).map fun rs => rs.replicas.toInt := List.map_map
  have hn := oldCount_nonneg hc
  rw [oldCount, ← hm] at hn hf ⊢
  exact toInt_sum_of_fits hn hf

theorem mem_oldIndices : i ∈ oldIndices snapshots ↔ ∃ rs, snapshots[i]? = some rs ∧ rs.isNew = false := by
  simp [oldIndices, List.mem_zipIdx_iff_getElem?]

theorem nodup_oldIndices (snapshots : List ReplicaSetRolloutSnapshot) : (oldIndices snapshots).Nodup := by
  refine (((List.perm_insertionSort _ _).map Prod.snd).nodup_iff).2 ?_
  have hs : (((snapshots.zipIdx.filter fun rs => !rs.1.isNew)).map Prod.snd).Sublist
      (snapshots.zipIdx.map Prod.snd) := List.filter_sublist.map Prod.snd
  refine hs.nodup ?_
  rw [List.zipIdx_map_snd]
  exact List.nodup_range'

theorem sum_oldIndices (snapshots : List ReplicaSetRolloutSnapshot) :
    ((oldIndices snapshots).map (countAt snapshots)).sum = oldCount snapshots := by
  have hp := ((List.perm_insertionSort fewerAvailable
    (snapshots.zipIdx.filter fun rs => !rs.1.isNew)).map Prod.snd).map (countAt snapshots)
  have hc : ((snapshots.zipIdx.filter fun rs => !rs.1.isNew).map Prod.snd).map (countAt snapshots) =
      (snapshots.zipIdx.filter fun rs => !rs.1.isNew).map fun rs => rs.1.replicas.toInt := by
    rw [List.map_map]
    refine List.map_congr_left fun rs hr => ?_
    exact countAt_of_getElem? (List.mem_zipIdx_iff_getElem?.mp (List.mem_filter.1 hr).1)
  have hf : (snapshots.zipIdx.filter fun rs => !rs.1.isNew).map Prod.fst = snapshots.filter fun rs => !rs.isNew := by
    have hm := (List.filter_map (l := snapshots.zipIdx) (f := Prod.fst) (p := fun rs => !rs.isNew))
    rw [List.zipIdx_map_fst] at hm
    exact hm.symm
  rw [oldIndices, hp.sum_eq, hc, oldCount, ← hf, List.map_map]
  rfl

/-- The only new ReplicaSet stands at an index. -/
structure NewAt (snapshots : List ReplicaSetRolloutSnapshot) (idx : Nat) (newRs : ReplicaSetRolloutSnapshot) :
    Prop where
  at_idx : snapshots[idx]? = some newRs
  is_new : newRs.isNew = true
  others : ∀ i rs, snapshots[i]? = some rs → i ≠ idx → rs.isNew = false

section NewAt

variable {idx : Nat} {newRs : ReplicaSetRolloutSnapshot}

theorem exists_newAt (h : snapshots.countP (·.isNew) = 1) : ∃ idx newRs, NewAt snapshots idx newRs := by
  rw [List.countP_eq_length_filter, List.length_eq_one_iff] at h
  obtain ⟨newRs, hf⟩ := h
  obtain ⟨bef, aft, rfl, hb, hn, ha⟩ := List.filter_eq_cons_iff.1 hf
  rw [List.filter_eq_nil_iff] at ha
  refine ⟨bef.length, newRs, by simp, hn, fun i rs hi hne => ?_⟩
  rcases Nat.lt_or_gt_of_ne hne with hlt | hgt
  · rw [List.getElem?_append_left hlt] at hi
    simpa using hb rs (List.mem_of_getElem? hi)
  · rw [List.getElem?_append_right (by omega)] at hi
    obtain ⟨k, hk⟩ := Nat.exists_eq_add_of_lt hgt
    have hs : i - bef.length = k + 1 := by omega
    rw [hs, List.getElem?_cons_succ] at hi
    simpa using ha rs (List.mem_of_getElem? hi)

variable (h : NewAt snapshots idx newRs)

include h

theorem NewAt.lt : idx < snapshots.length := (List.getElem?_eq_some_iff.1 h.at_idx).1

theorem NewAt.resized (ho : Resized snapshots o) : ∃ replicas, NewAt o idx { newRs with replicas := replicas } := by
  obtain ⟨replicas, ha⟩ := ho.getElem? h.at_idx
  refine ⟨replicas, ha, h.is_new, fun i rs hi hne => ?_⟩
  have hb : Resized o snapshots := Eq.symm ho
  obtain ⟨bef, he⟩ := hb.getElem? hi
  have hl := h.others i _ he hne
  exact hl

theorem NewAt.find : snapshots.zipIdx.find? (fun rs => rs.1.isNew) = some (newRs, idx) := by
  have ha := List.getElem?_eq_some_iff.1 h.at_idx
  rw [List.find?_eq_some_iff_getElem]
  refine ⟨h.is_new, idx, by simpa using ha.1, ?_, fun j hj => ?_⟩
  · rw [List.getElem_zipIdx, ha.2, Nat.zero_add]
  · have hlt : j < snapshots.length := hj.trans ha.1
    have ho := h.others j snapshots[j] (List.getElem?_eq_getElem hlt) (Nat.ne_of_lt hj)
    simpa using ho

theorem NewAt.sum_filter (f : ReplicaSetRolloutSnapshot → Int) :
    ((snapshots.filter fun rs => !rs.isNew).map f).sum = (snapshots.map f).sum - f newRs := by
  have hs : snapshots = snapshots.take idx ++ newRs :: snapshots.drop (idx + 1) := by
    have hat := List.getElem?_eq_some_iff.1 h.at_idx
    rw [← hat.2, ← List.drop_eq_getElem_cons, List.take_append_drop]
  have hb : (snapshots.take idx).filter (fun rs => !rs.isNew) = snapshots.take idx := by
    refine List.filter_eq_self.2 fun rs hr => ?_
    obtain ⟨i, hi⟩ := List.mem_iff_getElem?.mp hr
    rw [List.getElem?_take] at hi
    split at hi
    · rename_i hlt
      simpa using h.others i rs hi (Nat.ne_of_lt hlt)
    · cases hi
  have ha : (snapshots.drop (idx + 1)).filter (fun rs => !rs.isNew) = snapshots.drop (idx + 1) := by
    refine List.filter_eq_self.2 fun rs hr => ?_
    obtain ⟨i, hi⟩ := List.mem_iff_getElem?.mp hr
    rw [List.getElem?_drop] at hi
    simpa using h.others _ rs hi (by omega)
  have hf : snapshots.filter (fun rs => !rs.isNew) = snapshots.take idx ++ snapshots.drop (idx + 1) := by
    rw [hs, List.filter_append, List.filter_cons_of_neg (by simpa using h.is_new), ← hs, hb, ha]
  have ht : (snapshots.map f).sum =
      ((snapshots.take idx).map f).sum + (f newRs + ((snapshots.drop (idx + 1)).map f).sum) := by
    conv_lhs => rw [hs]
    rw [List.map_append, List.sum_append, List.map_cons, List.sum_cons]
  rw [hf, ht, List.map_append, List.sum_append]
  omega

theorem NewAt.sum_old : oldCount snapshots = (snapshots.map fun rs => rs.replicas.toInt).sum - newRs.replicas.toInt :=
  h.sum_filter fun rs => rs.replicas.toInt

theorem NewAt.sum_setReplicas (r : Int64) : ∑ i ∈ range snapshots.length, countAt (setReplicas snapshots idx r) i =
      oldCount snapshots + r.toInt := by
  have hm : idx ∈ range snapshots.length := mem_range.2 h.lt
  have ht := sum_map_eq (fun rs => rs.replicas.toInt) snapshots
  have ha : countAt snapshots idx = newRs.replicas.toInt := countAt_of_getElem? h.at_idx
  have hs : ∑ i ∈ range snapshots.length, countAt snapshots i = oldCount snapshots + newRs.replicas.toInt := by
    rw [h.sum_old]
    exact ht.symm.trans (by omega)
  rw [countAt_setReplicas h.lt, sum_update_of_mem hm, sdiff_singleton_eq_erase]
  rw [← add_sum_erase _ _ hm, ha] at hs
  omega

end NewAt

/-! ## The step -/

/-- The counts after a step, in which the new ReplicaSet gets `target` replicas and the old ones give `given`. -/
structure Planned (working finals : List ReplicaSetRolloutSnapshot) (idx : Nat) (target given : Int) : Prop where
  resized : Resized working finals
  new : countAt finals idx = target
  nonneg : ∀ i, 0 ≤ countAt finals i
  old_le : ∀ i, i ≠ idx → countAt finals i ≤ countAt working i
  total : ∑ i ∈ range working.length, countAt finals i = target + oldCount working - given

section

variable (newRs : ReplicaSetRolloutSnapshot)
include newRs

theorem targetNewReplicas_nonneg (od d su : Int64) : 0 ≤ (targetNewReplicas newRs od d su).toInt := by
  rw [targetNewReplicas, toInt_max, toInt_zero]
  exact le_max_right _ _

theorem targetNewReplicas_le (od : Int64) {d : Int64} (hd : 0 ≤ d.toInt) (su : Int64) :
    (targetNewReplicas newRs od d su).toInt ≤ d.toInt := by
  rw [targetNewReplicas, toInt_max, toInt_zero]
  refine max_le ?_ hd
  split
  · exact le_rfl
  · rw [toInt_min, toInt_min]
    exact (min_le_left _ _).trans (min_le_right _ _)

theorem oldScaleDown_nonneg (t od d u : Int64) : 0 ≤ (oldScaleDown newRs t od d u).toInt := by
  rw [oldScaleDown, toInt_max, toInt_zero]
  exact le_max_left _ _

theorem oldScaleDown_le {od : Int64} (ho : 0 ≤ od.toInt) (t d u : Int64) :
    (oldScaleDown newRs t od d u).toInt ≤ od.toInt := by
  rw [oldScaleDown, toInt_max, toInt_min, toInt_zero]
  exact max_le ho (min_le_left _ _)

end

theorem NewAt.oldCount_setReplicas {idx : Nat} {newRs : ReplicaSetRolloutSnapshot} (h : NewAt working idx newRs)
    (target : Int64) : oldCount (setReplicas working idx target) = oldCount working := by
  have hre := resized_setReplicas working idx target
  obtain ⟨replicas, hn⟩ := h.resized hre
  have hto := sum_map_eq (fun rs => rs.replicas.toInt) (setReplicas working idx target)
  have ha : countAt (setReplicas working idx target) idx = replicas.toInt := countAt_of_getElem? hn.at_idx
  rw [countAt_setReplicas h.lt, update_self] at ha
  rw [hn.sum_old, hto, hre.length]
  exact (congrArg (· - replicas.toInt) (h.sum_setReplicas target)).trans (by omega)

theorem planned_final {idx : Nat} {newRs : ReplicaSetRolloutSnapshot} (h : NewAt working idx newRs)
    (hc : ∀ rs ∈ working, 0 ≤ rs.replicas) (hf : oldCount working < 2 ^ 63)
    (des su unav : Int64) :
    Planned working (finalSnapshots working newRs idx des su unav) idx
      (targetNewReplicas newRs (totalOldReplicas working) des su).toInt
      (oldScaleDown newRs (targetNewReplicas newRs (totalOldReplicas working) des su)
        (totalOldReplicas working) des unav).toInt := by
  unfold finalSnapshots
  set target := targetNewReplicas newRs (totalOldReplicas working) des su with htg
  set given := oldScaleDown newRs target (totalOldReplicas working) des unav with hgi
  have hnn : 0 ≤ target.toInt := targetNewReplicas_nonneg _ _ _ _
  have hg0 : 0 ≤ given.toInt := oldScaleDown_nonneg _ _ _ _ _
  have ho := toInt_totalOldReplicas hc hf
  have hg : given.toInt ≤ oldCount working := by
    rw [← ho]
    exact oldScaleDown_le newRs (ho ▸ oldCount_nonneg hc) _ _ _
  have hs := countAt_setReplicas h.lt target
  have hc' : ∀ i, 0 ≤ countAt (setReplicas working idx target) i := by
    intro i
    rw [hs]
    by_cases hi : i = idx
    · subst hi
      rw [update_self]
      exact hnn
    · rw [update_of_ne hi]
      exact countAt_nonneg hc i
  have hr : 0 ≤ given := le_iff_toInt_le.2 hg0
  obtain ⟨hre, hd⟩ := scaleDown_counts (oldIndices (setReplicas working idx target)) hr hc'
  have hr' := (resized_setReplicas working idx target).trans hre
  obtain ⟨replicas, hn⟩ := h.resized (resized_setReplicas working idx target)
  have hl : (setReplicas working idx target).length = working.length :=
    (resized_setReplicas working idx target).length
  have ht : idx ∉ oldIndices (setReplicas working idx target) := by
    intro hm
    obtain ⟨rs, hrs, hro⟩ := mem_oldIndices.1 hm
    cases hn.at_idx.symm.trans hrs
    exact absurd h.is_new (by simp_all)
  have hp : ∀ pl ∈ oldIndices (setReplicas working idx target), pl ∈ range working.length := by
    intro pl hpc
    obtain ⟨rs, hrs, -⟩ := mem_oldIndices.1 hpc
    rw [mem_range, ← hl]
    exact (List.getElem?_eq_some_iff.1 hrs).1
  constructor
  case resized => exact hr'
  case new => rw [hd, drain_of_notMem ht, hs, update_self]
  case nonneg =>
    intro i
    rw [hd]
    exact drain_nonneg hc'
  case old_le =>
    intro i hi
    rw [hd]
    refine (drain_le hg0 hc').trans ?_
    rw [hs, update_of_ne hi]
  case total =>
    rw [hd, sum_drain hp (nodup_oldIndices _) hg0 hc', sum_oldIndices, h.oldCount_setReplicas, h.sum_setReplicas target,
      min_eq_left hg]
    omega

/-! ## Targets -/

variable (hna : (snapshots.map (·.name)).Nodup) (hre : Resized snapshots finals)

include hna

theorem scaleTarget_resized (hi : snapshots[i]? = some rs) (replicas : Int64) :
    scaleTarget snapshots { rs with replicas := replicas } =
      if rs.replicas = replicas then none else some ⟨rs.name, max replicas 0⟩ := by
  have hf : snapshots.find? (fun sn => sn.name = rs.name) = some rs :=
    Table.find_of_mem (t := ⟨snapshots, hna⟩) (List.mem_of_getElem? hi)
  rw [scaleTarget, hf, bind_some]

include hre

theorem countAt_of_no_targets (h : finals.filterMap (scaleTarget snapshots) = []) :
    countAt finals = countAt snapshots := by
  funext i
  cases hi : snapshots[i]? with
  | none =>
    have hl := hre.length
    have ho : finals[i]? = none := by
      rw [List.getElem?_eq_none_iff] at hi ⊢
      omega
    rw [countAt, countAt, hi, ho]
  | some rs =>
    obtain ⟨re, hf⟩ := hre.getElem? hi
    have hn := List.filterMap_eq_nil_iff.1 h _ (List.mem_of_getElem? hf)
    rw [scaleTarget_resized hna hi] at hn
    rw [countAt_of_getElem? hi, countAt_of_getElem? hf]
    by_cases heq : rs.replicas = re
    · rw [heq]
    · rw [if_neg heq] at hn
      cases hn

theorem applyTargets_final (hc : ∀ i, 0 ≤ countAt finals i) :
    applyTargets snapshots ⟨finals.filterMap (scaleTarget snapshots)⟩ = finals := by
  have hn : (finals.map (·.name)).Nodup := by
    have heq := congrArg (List.map (·.name)) hre
    rw [List.map_map, List.map_map] at heq
    exact (show finals.map (·.name) = snapshots.map (·.name) from heq) ▸ hna
  have hk : ∀ rs tg, scaleTarget snapshots rs = some tg → tg.name = rs.name := by
    intro rs tg ht
    obtain ⟨ori, -, ht⟩ := bind_eq_some_iff.1 ht
    split at ht
    · cases ht
    · cases ht
      rfl
  refine List.ext_getElem? fun i => ?_
  rw [applyTargets, List.getElem?_map]
  cases hi : snapshots[i]? with
  | none =>
    have hl := hre.length
    rw [List.getElem?_eq_none_iff] at hi
    rw [map_none, List.getElem?_eq_none (by omega)]
  | some rs =>
    obtain ⟨replicas, hfi⟩ := hre.getElem? hi
    have hr := Table.find_of_mem (t := ⟨finals, hn⟩) (List.mem_of_getElem? hfi)
    have hf := Table.find?_filterMap ⟨finals, hn⟩ hk rs.name
    rw [hr, bind_some, scaleTarget_resized hna hi] at hf
    rw [hfi, map_some, hf]
    by_cases heq : rs.replicas = replicas
    · rw [if_pos heq, ← heq]
    · have hct := hc i
      rw [countAt_of_getElem? hfi] at hct
      have hm : max replicas 0 = replicas := by
        rw [← toInt_inj, toInt_max, toInt_zero]
        exact max_eq_left hct
      rw [if_neg heq, hm]

end Klights.Deployment
