import Klights.Disruption.Admission
import Mathlib.Data.Finset.Card

/-!
# What a status allows

The pods a budget lets go, counted by name, against what its status allows. A status covers them if every one that is
still there is among the disrupted pods and no more is allowed than is left of a limit.

- `isCounted`, `isCharged`: the pods `currentHealthy` counts, and those whose eviction needs a disruption;
- `Covers`, `covers_reconciled`, `Covers.reserve`: a reconcile and an admission write a status that covers.
-/

namespace Klights.Disruption

open Controllers Lib Selector Json List Bool Json.Fields

/-! ## Pods that count -/

/-- A pod that `currentHealthy` counts. -/
def isCounted (pdb pod : Json) : Bool := podMatchesSelector pod pdb && isPodHealthy pod && !isTerminating pod

def isCharged (pdb pod : Json) : Bool := podMatchesSelector pod pdb && isPodHealthy pod && !canIgnorePdbForEviction pod

def World.evicted (world : World) (pdb : Json) : Finset (Option String) :=
  ((world.admitted.filter (isCharged pdb)).map objectName).toFinset

theorem isCounted_of_isCharged {pdb pod : Json} (h : isCharged pdb pod) : isCounted pdb pod := by
  simp only [isCharged, canIgnorePdbForEviction, and_eq_true, not_eq_true', or_eq_false_iff] at h
  simp only [isCounted, and_eq_true, not_eq_true']
  exact ⟨h.1, h.2.2⟩

variable {pdb pod pd status : Json} {ps : List Json} {e : Finset (Option String)} {limit l : Int}

section Spec

variable {other o : Json}

theorem podMatchesSelector_congr (h : Json.AgreeOff ["status"] pdb other) :
    podMatchesSelector pd pdb = podMatchesSelector pd other := by
  have hspec : pdb.get "spec" = other.get "spec" := h.field "spec" (by decide)
  simp [podMatchesSelector, pointer_pair, hspec]

theorem isCounted_congr (h : Json.AgreeOff ["status"] pdb o) : isCounted pdb pod = isCounted o pod := by
  simp [isCounted, podMatchesSelector_congr h]

theorem agreeOff_withStatus (pdb status : Json) : Json.AgreeOff ["status"] (withStatus pdb status) pdb :=
  agreeOff_insertField pdb status mem_cons_self

theorem objectName_withStatus (pdb status : Json) : objectName (withStatus pdb status) = objectName pdb :=
  objectName_insertField (by decide)

theorem get_withStatus (status : Json) (h : (objectName pdb).isSome) :
    (withStatus pdb status).get "status" = some status := by
  cases pdb with
  | obj fs => exact get_insertField_self fs "status" status
  | _ => cases h

end Spec

/-! ## What a status covers -/

/-- Every evicted pod that is still there is among the disrupted ones, and no more is allowed than is left of the limit.
A status with more than 2000 disrupted pods allows nothing. -/
structure Covers (evicted : Finset (Option String)) (limit : Int) (pods : List Json) (pdb : Json) : Prop where
  reserved : ∀ pod ∈ pods, objectName pod ∈ evicted → podMatchesSelector pod pdb = true →
    objectName pod ∈ (disruptedPodsOf pdb).map fun field => some field.1
  allowed : (disruptedPodsOf pdb).length ≤ 2000 → i64At pdb ["status", "disruptionsAllowed"] 0 + evicted.card ≤ limit

section Reconcile

variable {md : Json} {now : String} {st : Finset (Option String)}

theorem disruptionsAllowedFor_le {hea d rest : Int} {disrupted : List (String × Json)}
    (hf : d + disrupted.length ≤ hea + 2 ^ 63) (hr : hea - d - disrupted.length ≤ rest)
    (h0 : 0 ≤ rest) : disruptionsAllowedFor hea d disrupted ≤ rest := by
  have hw : wrapI64 (wrapI64 (hea - d) - disrupted.length) = wrapI64 (hea - d - disrupted.length) :=
    wrapI64_add (hea - d) (-(disrupted.length : Int))
  have hle := wrapI64_le (n := hea - d - disrupted.length) (by omega)
  rw [disruptionsAllowedFor, hw]
  omega

theorem asI64_disruptionsAllowedFor (hea d : Int) (disrupted : List (String × Json)) :
    (num (disruptionsAllowedFor hea d disrupted)).asI64 =
      some (disruptionsAllowedFor hea d disrupted) := by
  have hlt := wrapI64_lt (wrapI64 (hea - d) - disrupted.length)
  rw [asI64, if_pos]
  unfold disruptionsAllowedFor
  omega

section BuiltStatus

variable (ex hea d : Int) (disrupted ds : List (String × Json))

theorem get_buildPdbStatus {k : String} (hk : k ≠ "disruptedPods") : (buildPdbStatus pdb md ex hea d ds now).get k =
      get k (pdbStatusFields pdb md ex hea d (disruptionsAllowedFor hea d ds) now) := by
  cases ds with
  | nil => rfl
  | cons fld tl => exact get_insertField_ne (.obj _) _ hk

theorem disruptedPods_buildPdbStatus :
    (((buildPdbStatus pdb md ex hea d disrupted now).get "disruptedPods").bind asObject).getD
      [] = disrupted := by
  unfold buildPdbStatus
  cases disrupted with
  | nil => rfl
  | cons fld tl =>
    rfl

end BuiltStatus

theorem reconciledStatus_cases (h : reconciledStatus pdb ps now = some status) :
    ∃ md sp selector, pdb.get "metadata" = some md ∧ pdb.get "spec" = some sp ∧
      fromK8sSelector ((sp.get "selector").getD .null) = .ok selector ∧
      status = buildPdbStatus pdb md (matchingPods selector ps).length
        ((matchingPods selector ps).filter isPodHealthy).length
        (computeDesiredHealthy sp (matchingPods selector ps).length)
        (disruptedPodsForLiveMatchingPods pdb ((selectorMatchingPods selector ps).filterMap objectName)) now := by
  obtain ⟨md, hm, h⟩ := Option.bind_eq_some_iff.1 h
  obtain ⟨sp, hspec, h⟩ := Option.bind_eq_some_iff.1 h
  cases hselector : fromK8sSelector ((sp.get "selector").getD .null) with
  | error error => rw [hselector] at h; cases h
  | ok selector =>
    rw [hselector] at h
    exact ⟨md, sp, selector, hm, hspec, hselector, (Option.some.inj h).symm⟩

section Counting

variable {sp : Json} {selector : List LabelRequirement}

variable (hspec : pdb.get "spec" = some sp)
  (hselector : fromK8sSelector ((sp.get "selector").getD .null) = .ok selector)

include hspec hselector

theorem podMatchesSelector_eq : podMatchesSelector pd pdb = matchesLabelRequirements pd selector := by
  rw [podMatchesSelector, pointer_pair, hspec, Option.bind_some, hselector]

theorem healthyPods_eq : (matchingPods selector ps).filter isPodHealthy = ps.filter (isCounted pdb) := by
  simp only [matchingPods, selectorMatchingPods, filter_filter]
  refine filter_congr fun pd _ => ?_
  rw [isCounted, podMatchesSelector_eq hspec hselector]
  cases matchesLabelRequirements pd selector <;> cases isPodHealthy pd <;> cases isTerminating pd <;> rfl

theorem mem_disruptedPodsForLive (hp : pd ∈ ps) (hm : podMatchesSelector pd pdb)
    (hd : objectName pd ∈ (disruptedPodsOf pdb).map fun f => some f.1) :
    objectName pd ∈ (disruptedPodsForLiveMatchingPods pdb
      ((selectorMatchingPods selector ps).filterMap objectName)).map fun f => some f.1 := by
  obtain ⟨f, hf, hna⟩ := mem_map.1 hd
  rw [podMatchesSelector_eq hspec hselector] at hm
  have hl : f.1 ∈ (selectorMatchingPods selector ps).filterMap objectName :=
    mem_filterMap.2 ⟨pd, mem_filter.2 ⟨hp, hm⟩, hna.symm⟩
  exact mem_map.2 ⟨f, mem_filter.2 ⟨hf, contains_iff_mem.2 hl⟩, hna⟩

end Counting

/-- Pods counted as healthy and pods evicted are all of those at the start, and one that is both is among the disrupted
ones. -/
theorem healthy_add_evicted_le {hea disrupted : Finset (Option String)} (hh : hea ⊆ st)
    (he : e ⊆ st) (ho : hea ∩ e ⊆ disrupted) :
    hea.card + e.card ≤ st.card + disrupted.card := by
  have hs := Finset.card_union_add_card_inter hea e
  have hu := Finset.card_le_card (Finset.union_subset hh he)
  have hi := Finset.card_le_card ho
  omega

theorem card_names (hd : (ps.map objectName).Nodup) (p : Json → Bool) :
    ((ps.filter p).map objectName).toFinset.card = (ps.filter p).length := by
  rw [toFinset_card_of_nodup ((filter_sublist.map objectName).nodup hd), length_map]

/-- What a reconcile writes: the pods it counts, the pods it wants of those it expects, and the disrupted pods that are
still there. -/
structure Reconciled (pdb spec : Json) (pods : List Json) (status : Json) (expected : Nat) : Prop where
  expected_le : expected ≤ pods.length
  currentHealthy : status.get "currentHealthy" = some (.num (pods.filter (isCounted pdb)).length)
  desiredHealthy : status.get "desiredHealthy" = some (.num (computeDesiredHealthy spec expected))
  allowed : i64At (withStatus pdb status) ["status", "disruptionsAllowed"] 0 =
    disruptionsAllowedFor (pods.filter (isCounted pdb)).length (computeDesiredHealthy spec expected)
      (disruptedPodsOf (withStatus pdb status))
  disrupted : ∀ pod ∈ pods, podMatchesSelector pod pdb = true →
    objectName pod ∈ ((disruptedPodsOf pdb).map fun field => some field.1) →
    objectName pod ∈ (disruptedPodsOf (withStatus pdb status)).map fun field => some field.1

section

variable {sp : Json} (hst : reconciledStatus pdb ps now = some status) (hna : (objectName pdb).isSome)
  (hspec : pdb.get "spec" = some sp)
include hst hna hspec

theorem reconciled : ∃ expected, Reconciled pdb sp ps status expected := by
  obtain ⟨md, sp', selector, -, hs', hselector, hb⟩ := reconciledStatus_cases hst
  cases hs'.symm.trans hspec
  rw [healthyPods_eq hs' hselector] at hb
  have hg := get_withStatus status hna
  have hd : disruptedPodsOf (withStatus pdb status) =
      disruptedPodsForLiveMatchingPods pdb ((selectorMatchingPods selector ps).filterMap objectName) := by
    rw [disruptedPodsOf, pointer_pair, hg, hb]
    exact disruptedPods_buildPdbStatus _ _ _ _
  refine ⟨(matchingPods selector ps).length, ?_, ?_, ?_, ?_, ?_⟩
  · exact (length_filter_le _ _).trans (length_filter_le _ _)
  · rw [hb, get_buildPdbStatus _ _ _ _ (by decide)]
    rfl
  · rw [hb, get_buildPdbStatus _ _ _ _ (by decide)]
    rfl
  · rw [hd, i64At, pointer_pair, hg, Option.bind_some, hb, get_buildPdbStatus _ _ _ _ (by decide)]
    exact congrArg (Option.getD · 0) (asI64_disruptionsAllowedFor _ _ _)
  · intro pd hp hm ho
    rw [hd]
    exact mem_disruptedPodsForLive hs' hselector hp hm ho

theorem covers_reconciled {w : Int} (hn : (ps.map objectName).Nodup)
    (ht : ∀ pod ∈ ps, isCounted pdb pod → objectName pod ∈ st) (he : e ⊆ st)
    (ho : Covers e l ps pdb) (hsp : e.card ≤ l) (hi : st.card - w ≤ l)
    (hd : ∀ n : Nat, n ≤ ps.length → w ≤ computeDesiredHealthy sp n ∧
      computeDesiredHealthy sp n ≤ 2 ^ 63 - 2000) : Covers e l ps (withStatus pdb status) := by
  obtain ⟨ex, hwo⟩ := reconciled hst hna hspec
  have hs : ∀ pod ∈ ps, objectName pod ∈ e → podMatchesSelector pod pdb →
      objectName pod ∈ (disruptedPodsOf (withStatus pdb status)).map fun fld => some fld.1 :=
    fun pod hp hg hm => hwo.disrupted pod hp hm (ho.reserved pod hp hg hm)
  refine ⟨fun pod hp hg hm => ?_, fun hf => ?_⟩
  · rw [podMatchesSelector_congr (agreeOff_withStatus pdb status)] at hm
    exact hs pod hp hg hm
  · set ds := disruptedPodsOf (withStatus pdb status)
    obtain ⟨hw, hfi⟩ := hd ex hwo.expected_le
    -- the counted pods, the evicted ones and the disrupted ones by name
    have hct : ((ps.filter (isCounted pdb)).map objectName).toFinset.card + e.card ≤
        st.card + (ds.map fun fld => some fld.1).toFinset.card := by
      apply healthy_add_evicted_le _ he
      · intro nm hna
        simp only [Finset.mem_inter, mem_toFinset, mem_map, mem_filter] at hna ⊢
        obtain ⟨⟨pod, ⟨hp, hc⟩, rfl⟩, hg⟩ := hna
        have hm : podMatchesSelector pod pdb := by
          simp only [isCounted, and_eq_true] at hc
          exact hc.1.1
        exact mem_map.1 (hs pod hp hg hm)
      · intro nm hna
        simp only [mem_toFinset, mem_map, mem_filter] at hna
        obtain ⟨pod, ⟨hp, hc⟩, rfl⟩ := hna
        exact ht pod hp hc
    rw [card_names hn] at hct
    have hl := toFinset_card_le (ds.map fun fld => some fld.1)
    rw [length_map] at hl
    have ha : disruptionsAllowedFor (ps.filter (isCounted pdb)).length (computeDesiredHealthy sp ex)
        ds ≤ l - e.card := by
      apply disruptionsAllowedFor_le <;> omega
    rw [hwo.allowed]
    exact Int.add_le_of_le_sub_right ha

end

end Reconcile

/-! ## Admissions -/

variable {pn now : String} {dryRun : Bool}

theorem decideEviction_allowed (h : decideEviction pd pn dryRun now pdb = some (.answer .allowed))
    (hh : isPodHealthy pd) : dryRun := by
  obtain ⟨pe, -, h⟩ := Option.bind_eq_some_iff.1 h
  simp only [hh, Bool.not_true, Bool.false_and, Bool.false_eq_true, if_false] at h
  split_ifs at h with hg hn hm ho hd
  · cases h
  · cases h
  · cases h
  · cases h
  · exact hd
  · obtain ⟨status, -, ha⟩ := Option.map_eq_some_iff.1 h
    cases ha

theorem decideEviction_reserve (h : decideEviction pd pn dryRun now pdb = some (.reserve status)) :
    0 < i64At pdb ["status", "disruptionsAllowed"] 0 ∧ (disruptedPodsOf pdb).length ≤ 2000 ∧
      reserveDisruption pdb pn (i64At pdb ["status", "disruptionsAllowed"] 0) now = some status := by
  obtain ⟨pe, -, h⟩ := Option.bind_eq_some_iff.1 h
  dsimp only at h
  -- every other branch answers at once
  split at h
  · cases h
  split at h
  · cases h
  split at h
  · cases h
  split at h
  · cases h
  split at h
  · cases h
  split at h
  · cases h
  obtain ⟨s', hst, hr⟩ := Option.map_eq_some_iff.1 h
  cases hr
  exact ⟨by omega, by omega, hst⟩

section ReservedStatus

variable (pn now : String) (a : Int) (fs : List (String × Json))

theorem get_reservedStatus_allowed : (reservedStatus pn a now fs).get "disruptionsAllowed" = some (.num (a - 1)) := by
  unfold reservedStatus
  rw [get_insertField_ne _ _ (by decide : "disruptionsAllowed" ≠ "disruptedPods")]
  exact get_insert_self _ _ fs

theorem get_reservedStatus_disrupted : (((reservedStatus pn a now fs).get "disruptedPods").bind Json.asObject).getD [] =
      insert pn (.str now) (((get "disruptedPods" fs).bind Json.asObject).getD []) := by
  unfold reservedStatus
  rw [Json.get_insertField_self]
  have heq := get_insert_ne (.num (a - 1)) (by decide : "disruptedPods" ≠ "disruptionsAllowed") fs
  simp [Json.get, heq, Json.asObject]

end ReservedStatus

theorem reserveDisruption_cases {a : Int} (h : reserveDisruption pdb pn a now = some status) :
    ∃ fs, status = reservedStatus pn a now fs ∧
      disruptedPodsOf pdb = ((get "disruptedPods" fs).bind asObject).getD [] := by
  unfold reserveDisruption at h
  rw [disruptedPodsOf, pointer_pair]
  split at h
  · rename_i hr
    rw [hr]
    exact ⟨[], (Option.some.inj h).symm, rfl⟩
  · rename_i hr
    rw [hr]
    exact ⟨[], (Option.some.inj h).symm, rfl⟩
  · rename_i fs hr
    rw [hr]
    exact ⟨fs, (Option.some.inj h).symm, rfl⟩
  · cases h

theorem mem_names_insert (ky : String) (vl : Json) {nm : Option String} :
    ∀ {fs : List (String × Json)}, (nm = some ky ∨ nm ∈ fs.map fun f => some f.1) →
      nm ∈ (insert ky vl fs).map fun f => some f.1
  | [], h => by simpa [Json.Fields.insert] using h
  | (k, v) :: rest, h => by
    have ih := @mem_names_insert ky vl nm rest
    unfold Json.Fields.insert
    split
    · rename_i hk
      subst hk
      simpa using h
    · split
      · simpa using h
      · rcases h with h | h
        · exact .tail _ (ih (.inl h))
        · rcases mem_cons.1 h with h | h
          · exact mem_cons.2 (.inl h)
          · exact .tail _ (ih (.inr h))

theorem i64At_lt (pdb : Json) (pa : List String) : i64At pdb pa 0 < 2 ^ 63 := by
  unfold i64At
  cases hr : (pdb.pointer pa).bind asI64 with
  | none => decide
  | some n =>
    obtain ⟨v, -, hv⟩ := Option.bind_eq_some_iff.1 hr
    unfold asI64 at hv
    split at hv
    · split at hv
      · rename_i hf
        cases hv
        exact hf.2
      · cases hv
    · cases hv

theorem Covers.reserve (hc : Covers e limit ps pdb) (hna : (objectName pdb).isSome)
    (h : decideEviction pd pn dryRun now pdb = some (.reserve status)) {e' : Finset (Option String)}
    (he : e' ⊆ insert (some pn) e) :
    Covers e' limit ps (withStatus pdb status) ∧ e'.card ≤ limit := by
  obtain ⟨hpos, hf, hr⟩ := decideEviction_reserve h
  obtain ⟨fs, rfl, hl⟩ := reserveDisruption_cases hr
  set a := i64At pdb ["status", "disruptionsAllowed"] 0 with hal
  have hg := get_withStatus (reservedStatus pn a now fs) hna
  have hd : disruptedPodsOf (withStatus pdb (reservedStatus pn a now fs)) =
      insert pn (.str now) (disruptedPodsOf pdb) := by
    rw [disruptedPodsOf, pointer_pair, hg, hl]
    exact get_reservedStatus_disrupted pn now a fs
  have hlf : i64At (withStatus pdb (reservedStatus pn a now fs)) ["status", "disruptionsAllowed"] 0 = a - 1 := by
    have hlt : a < 2 ^ 63 := i64At_lt pdb _
    rw [i64At, pointer_pair, hg, Option.bind_some, get_reservedStatus_allowed, Option.bind_some, asI64,
      if_pos (by omega), Option.getD_some]
  have hs := hc.allowed hf
  have ha : e'.card ≤ e.card + 1 :=
    (Finset.card_le_card he).trans (Finset.card_insert_le _ _)
  refine ⟨⟨fun o ho hgo hm => ?_, fun hf' => ?_⟩, by omega⟩
  · rw [podMatchesSelector_congr (agreeOff_withStatus pdb _)] at hm
    rw [hd]
    apply mem_names_insert
    rcases Finset.mem_insert.1 (he hgo) with hse | hbef
    · exact .inl hse
    · exact .inr (hc.reserved o ho hbef hm)
  · rw [hlf]
    omega

end Klights.Disruption
