import Klights.Quantity.Parse
import Mathlib.Algebra.Order.BigOperators.Group.List

/-!
# Effective resources of a Pod

`calculate_pod_effective_resource_for_key`: the regular containers of a Pod run together and add up, the init containers
run one after the other and count with their maximum. The addition of the regular containers is a plain `i64` sum, which
wraps in a release build.

- the result is the saturated maximum exactly when the sum fits, or a wrapped sum or an init container happens to be the
  greatest `i64` (`podEffectiveResource_eq_iff`);
- two containers of `8Ei` come out as nothing at all (`podEffectiveResource_wraps`).
-/

namespace Klights.Quantity

open Lib List

/-! ## Containers -/

def containerQuantity (bucket resourceKey : String) (container : Json) : Option Int :=
  ((((container.get "resources").bind fun resources => resources.get bucket).bind fun resources =>
    resources.get resourceKey).bind Json.asStr).bind (parseResourceQuantity resourceKey)

def containerQuantities (pod : Json) (list bucket resourceKey : String) : List Int :=
  (((pod.pointer ["spec", list]).bind Json.asArray).getD []).filterMap (containerQuantity bucket resourceKey)

variable (pod : Json) (bucket resourceKey : String)

def regularQuantities : List Int :=
  containerQuantities pod "containers" bucket resourceKey

def initQuantities : List Int :=
  containerQuantities pod "initContainers" bucket resourceKey

/-- Regular containers add together, init containers contribute their maximum. -/
def calculatePodEffectiveResourceForKey : Int :=
  max (wrappingSum (regularQuantities pod bucket resourceKey)) ((initQuantities pod bucket resourceKey).max?.getD 0)

/-- What the effective resource is meant to be: the larger of sum and maximum, saturated. -/
def effectiveResource : Int :=
  min (max (regularQuantities pod bucket resourceKey).sum ((initQuantities pod bucket resourceKey).max?.getD 0)) i64Max

section Effective

variable {pod : Json} {list bucket resourceKey : String} {q : Int}

theorem containerQuantities_range (h : q ∈ containerQuantities pod list bucket resourceKey) : InRange q := by
  obtain ⟨container, -, hq⟩ := mem_filterMap.1 h
  obtain ⟨quantity, -, hq⟩ := Option.bind_eq_some_iff.1 hq
  exact parseResourceQuantity_range hq

section

variable {quantities : List Int} (h : ∀ q ∈ quantities, InRange q)

include quantities h

theorem sum_nonneg_of_range : 0 ≤ quantities.sum :=
  sum_nonneg fun q hq => (h q hq).1

/-- The maximum of quantities, with nothing for none, is a quantity and bounds each of them. -/
theorem max_range : InRange (quantities.max?.getD 0) ∧ ∀ q ∈ quantities, q ≤ quantities.max?.getD 0 := by
  cases hm : quantities.max? with
  | none =>
    rw [max?_eq_none_iff] at hm
    subst hm
    exact ⟨⟨le_rfl, by decide⟩, by simp⟩
  | some m =>
    obtain ⟨he, hle⟩ := max?_eq_some_iff.1 hm
    exact ⟨h m he, hle⟩

theorem max_eq_i64Max_iff : quantities.max?.getD 0 = i64Max ↔ i64Max ∈ quantities := by
  constructor
  · intro ha
    cases hm : quantities.max? with
    | none =>
      rw [hm] at ha
      exact absurd ha (by decide)
    | some m =>
      rw [hm] at ha
      obtain rfl : m = i64Max := ha
      exact (max?_eq_some_iff.1 hm).1
  · intro he
    obtain ⟨hrg, hle⟩ := max_range h
    exact le_antisymm hrg.2 (hle _ he)

end

/-- A wrapped sum gives the saturated maximum if it is the sum, or if the maximum is the greatest `i64` anyway. -/
theorem max_wrapI64_eq_iff {sum m : Int} (hs : 0 ≤ sum) (hm : InRange m) :
    max (wrapI64 sum) m = min (max sum m) i64Max ↔ sum ≤ i64Max ∨ wrapI64 sum = i64Max ∨ m = i64Max := by
  have hlt := wrapI64_lt sum
  obtain ⟨hl, hh⟩ := hm
  by_cases hfit : sum ≤ i64Max
  · have hw : wrapI64 sum = sum := wrapI64_of_fits (by omega) (by unfold i64Max at hfit; omega)
    rw [hw, min_eq_left (max_le hfit hh)]
    simp [hfit]
  · -- the sum is beyond the range, so the saturated maximum is the greatest value
    unfold i64Max at *
    omega

/-- The result is right, and bounds the quantity of every container, exactly when the sum of the regular containers fits
an `i64`, or the wrapped sum or an init container is the greatest one. -/
theorem podEffectiveResource_eq_iff (pod : Json) (bucket resourceKey : String) :
    (calculatePodEffectiveResourceForKey pod bucket resourceKey = effectiveResource pod bucket resourceKey ∧
      ∀ q ∈ regularQuantities pod bucket resourceKey ++ initQuantities pod bucket resourceKey,
        q ≤ calculatePodEffectiveResourceForKey pod bucket resourceKey) ↔
    (regularQuantities pod bucket resourceKey).sum ≤ i64Max ∨
      wrapI64 (regularQuantities pod bucket resourceKey).sum = i64Max ∨
      i64Max ∈ initQuantities pod bucket resourceKey := by
  have hr : ∀ q ∈ regularQuantities pod bucket resourceKey, InRange q := fun q => containerQuantities_range
  have hi : ∀ q ∈ initQuantities pod bucket resourceKey, InRange q := fun q => containerQuantities_range
  obtain ⟨hm, hle⟩ := max_range hi
  have hc := max_wrapI64_eq_iff (sum_nonneg_of_range hr) hm
  rw [max_eq_i64Max_iff hi] at hc
  rw [← hc, ← wrappingSum_eq]
  refine and_iff_left_of_imp ?_
  intro heq q hq
  rw [heq]
  refine le_min ?_ ?_
  · rcases mem_append.1 hq with hq | hq
    · exact le_max_of_le_left (single_le_sum (fun q hq => (hr q hq).1) q hq)
    · exact le_max_of_le_right (hle q hq)
  · rcases mem_append.1 hq with hq | hq
    · exact (hr q hq).2
    · exact (hi q hq).2

end Effective

def memoryContainer (amount : String) : Json :=
  .obj [("resources", .obj [("requests", .obj [("memory", .str amount)])])]

/-- Two regular containers that request `8Ei` each, which is beyond the greatest `i64` already. -/
def sampleHugePod : Json := .obj [("spec", .obj [("containers", .arr [memoryContainer "8Ei", memoryContainer "8Ei"])])]

/-- Their sum wraps below zero, and the Pod counts as nothing. -/
theorem podEffectiveResource_wraps : regularQuantities sampleHugePod "requests" "memory" = [i64Max, i64Max] ∧
    calculatePodEffectiveResourceForKey sampleHugePod "requests" "memory" = 0 ∧
    effectiveResource sampleHugePod "requests" "memory" = i64Max := by
  decide +kernel

end Klights.Quantity
