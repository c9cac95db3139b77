import Klights.Store.Coordinator

/-!
# What is left of a commit

Before a commit is stamped, its Pod finalizations are replaced by what they come down to against the live rows, and the
puts that change nothing are dropped. Every other mutation stays.

- `Resolved.remains`: of what the finalizations resolve to, only puts of resources can go;
- `Resolved.mem`: a mutation that is left is one of the commit, or comes from a finalization;
- `Resolved.keeps`: a mutation that is neither a put of a resource nor a finalization is left;
- `resolveBound_ledger`, `dropNoopPuts_ledger`: a list of ledger rows stays what it is.
-/

namespace Klights.Store

open Lib List

/-- What a finalization comes down to: the event that records the end of the Pod, and its delete. -/
inductive FromFinalization (version : Int) : LogApplyMutation → Prop
  | event {row : LogApplyWatchEventRow} (hid : row.eventId = none) (hversion : row.resourceVersion = version) :
      FromFinalization version (.putWatchEvent row)
  | delete (key : LogApplyResourceKey) : FromFinalization version (.deleteResource key)

variable {ro : Bool}

variable {p : ApplyPolicies} {db : ClusterDb} {t : Tables} {v : Int}
  {m mu : LogApplyMutation} {mutations ms left l : List LogApplyMutation} {cm r : ApplyCommit}
  {d : OutboxWatermarkDecision}

theorem resolveBoundPodFinalization_mem {f : LogApplyPodActorFinalization}
    (h : resolveBoundPodFinalization t v f = .ok l) (hm : m ∈ l) :
    FromFinalization v m := by
  unfold resolveBoundPodFinalization at h
  simp only at h
  split at h
  · cases h
    cases hm
  · split at h
    · cases h
      cases hm
    · obtain ⟨da, -, h⟩ := bind_eq_ok.1 h
      rcases ite_eq_ok h with rfl | rfl
      · cases hm
      · rcases mem_pair.1 hm with rfl | rfl
        · exact .event rfl rfl
        · exact .delete _

theorem resolveMutation_mem (h : resolveMutation t v mu = .ok l) (hm : m ∈ l) : m = mu ∨ FromFinalization v m := by
  cases mu with
  | finalizeBoundPod fi => exact .inr (resolveBoundPodFinalization_mem h hm)
  | _ =>
    cases h
    exact .inl (mem_singleton.1 hm)

theorem resolveBound_mem (h : resolveBoundPodFinalizationsInTx t v ms = .ok l) (hm : m ∈ l) :
    m ∈ ms ∨ FromFinalization v m := by
  induction ms generalizing l with
  | nil =>
    cases h
    cases hm
  | cons mu tl ih =>
    obtain ⟨head, hh, h⟩ := bind_eq_ok.1 h
    obtain ⟨ta, ht, h⟩ := bind_eq_ok.1 h
    cases h
    rcases mem_append.1 hm with hm | hm
    · exact (resolveMutation_mem hh hm).imp_left fun heq => by simp [heq]
    · exact (ih ht hm).imp_left (mem_cons_of_mem _)

theorem resolveBound_keeps (h : resolveBoundPodFinalizationsInTx t v ms = .ok left)
    (hm : m ∈ ms) (hn : ∀ f, m ≠ .finalizeBoundPod f) : m ∈ left := by
  induction ms generalizing left with
  | nil => cases hm
  | cons mu tl ih =>
    obtain ⟨head, hh, h⟩ := bind_eq_ok.1 h
    obtain ⟨ta, ht, h⟩ := bind_eq_ok.1 h
    cases h
    rcases mem_cons.1 hm with rfl | hm
    · refine mem_append_left _ ?_
      cases m with
      | finalizeBoundPod f => exact absurd rfl (hn f)
      | _ =>
        cases hh
        exact mem_singleton.2 rfl
    · exact mem_append_right _ (ih ht hm)

theorem resolveMutation_error {rv : Int} {e : DbError} (h : resolveMutation t rv mu = .error e) : e = decodeError := by
  cases mu with
  | finalizeBoundPod fi =>
    unfold resolveMutation resolveBoundPodFinalization at h
    simp only at h
    split at h
    · cases h
    · split at h
      · cases h
      · rcases bind_eq_error.1 h with hd | ⟨data, -, h⟩
        · exact decodeJson_error hd
        · split at h <;> cases h
  | _ => cases h

theorem resolveBound_error {rv : Int} {e : DbError}
    (h : resolveBoundPodFinalizationsInTx t rv ms = .error e) : e = decodeError := by
  induction ms generalizing e with
  | nil => cases h
  | cons mu tl ih =>
    rcases bind_eq_error.1 h with hh | ⟨head, -, h⟩
    · exact resolveMutation_error hh
    · rcases bind_eq_error.1 h with ht | ⟨tail, -, h⟩
      · exact ih ht
      · cases h

theorem resolveNoopPutResource_eq {row left : LogApplyResourceRow}
    (h : resolveNoopPutResourceInTx p t row = .ok (some left)) : left = row := by
  unfold resolveNoopPutResourceInTx at h
  split at h
  · exact (Option.some.inj (Except.ok.inj h)).symm
  · obtain ⟨da, -, h⟩ := bind_eq_ok.1 h
    simp only at h
    split at h
    · exact (Option.some.inj (Except.ok.inj h)).symm
    · obtain ⟨-, -, h⟩ := bind_eq_ok.1 h
      obtain ⟨nor, -, h⟩ := bind_eq_ok.1 h
      split at h
      · cases h
      · exact (Option.some.inj (Except.ok.inj h)).symm

theorem dropNoopPut_sublist (h : dropNoopPut p t mu = .ok (l, ro)) : l.Sublist [mu] := by
  cases mu with
  | putResource row =>
    obtain ⟨r, hr, heq⟩ := map_eq_ok.1 h
    obtain ⟨rfl, -⟩ := Prod.mk.inj heq
    cases r with
    | none => exact nil_sublist _
    | some pu =>
      rw [resolveNoopPutResource_eq hr]
      exact List.Sublist.refl _
  | _ =>
    cases h
    exact List.Sublist.refl _

theorem dropNoopPuts_sublist (h : dropNoopPuts p t mutations = .ok (l, ro)) :
    l.Sublist mutations := by
  induction mutations generalizing l ro with
  | nil =>
    cases h
    exact List.Sublist.refl _
  | cons mu tl ih =>
    obtain ⟨⟨head, re⟩, hh, h⟩ := bind_eq_ok.1 h
    obtain ⟨⟨ta, rl⟩, ht, h⟩ := bind_eq_ok.1 h
    cases h
    exact (dropNoopPut_sublist hh).append (ih ht)

theorem dropNoopPuts_keeps (h : dropNoopPuts p t ms = .ok (left, ro))
    (hm : m ∈ ms) (hn : ∀ rw, m ≠ .putResource rw) : m ∈ left := by
  induction ms generalizing left ro with
  | nil => cases hm
  | cons mu tl ih =>
    obtain ⟨⟨head, re⟩, hh, h⟩ := bind_eq_ok.1 h
    obtain ⟨⟨ta, rl⟩, ht, h⟩ := bind_eq_ok.1 h
    cases h
    rcases mem_cons.1 hm with rfl | hm
    · refine mem_append_left _ ?_
      cases m with
      | putResource rw => exact absurd rfl (hn rw)
      | _ =>
        cases hh
        exact mem_singleton.2 rfl
    · exact mem_append_right _ (ih ht hm)

theorem resolveBound_ledger (ha : doesNotAdvancePublicRv mutations) :
    resolveBoundPodFinalizationsInTx t v mutations = .ok mutations := by
  refine ledger_induction ha rfl fun row tl ih => ?_
  rw [resolveBoundPodFinalizationsInTx, ih]
  rfl

theorem dropNoopPuts_ledger (ha : doesNotAdvancePublicRv ms) : dropNoopPuts p t ms = .ok (ms, false) := by
  refine ledger_induction ha rfl fun row tl ih => ?_
  rw [dropNoopPuts, ih]
  rfl

variable (h : Resolved p db cm d r)

include h

theorem Resolved.bound :
    ∃ mutations, resolveBoundPodFinalizationsInTx db.tables cm.resourceVersion cm.mutations = .ok mutations ∧
      (r.mutations = mutations ∨ ∃ ro, dropNoopPuts p db.tables mutations = .ok (r.mutations, ro)) := by
  obtain ⟨-, mutations, hm, hr⟩ := h
  refine ⟨mutations, hm, ?_⟩
  rcases resolvePutsFor_cases hr with rfl | ⟨l, ro, hl, rfl⟩
  · exact .inl rfl
  · exact .inr ⟨ro, hl⟩

theorem Resolved.remains :
    ∃ mutations, resolveBoundPodFinalizationsInTx db.tables cm.resourceVersion cm.mutations = .ok mutations ∧
      r.mutations ⊆ mutations ∧
      ∀ m ∈ mutations, (∀ row, m ≠ .putResource row) → m ∈ r.mutations := by
  obtain ⟨mutations, hb, hl⟩ := h.bound
  refine ⟨mutations, hb, ?_⟩
  rcases hl with heq | ⟨ro, hd⟩
  · rw [heq]
    exact ⟨List.Subset.refl _, fun m hm _ => hm⟩
  · exact ⟨(dropNoopPuts_sublist hd).subset, fun m hm hp => dropNoopPuts_keeps hd hm hp⟩

theorem Resolved.mem (hm : m ∈ r.mutations) : m ∈ cm.mutations ∨ FromFinalization cm.resourceVersion m := by
  obtain ⟨ms, hb, hs, -⟩ := h.remains
  exact resolveBound_mem hb (hs hm)

theorem Resolved.keeps (hm : m ∈ cm.mutations) (hp : ∀ rw, m ≠ .putResource rw)
    (hf : ∀ f, m ≠ .finalizeBoundPod f) : m ∈ r.mutations := by
  obtain ⟨ms, hb, -, hk⟩ := h.remains
  exact hk m (resolveBound_keeps hb hm hf) hp

end Klights.Store
