import Klights.Store.Effects
import Klights.Store.Restart

/-!
# What one entry can do to the tables

Whatever becomes of a committed entry, its transaction leaves the tables as they were, the ledger apart, or as its
resolved and stamped mutations leave them.

- `applyEntry_run`: the inversion of `applyEntry`;
- `EntryRun.invariant`: a property of the tables that every admitted mutation keeps is kept by every entry of such
  mutations, and by every run of such entries (`runEntries_invariant`).
-/

namespace Klights.Store

open Lib LogApplyMutation

variable {P : Tables → Prop} {Q : LogApplyMutation → Prop}

def LogApplyCommit.live (entry : LogApplyCommit) : ApplyCommit :=
  ⟨entry.resourceVersion, entry.outboxWatermark, entry.mutations, false⟩

/-- Whether a commit records the events of its object changes: not if it brings events along. -/
def LogApplyCommit.emits (entry : LogApplyCommit) (bound : List LogApplyMutation) : Bool :=
  !entry.mutations.any isPutWatchEvent && !bound.any isPutWatchEvent

inductive EntryRun (policies : ApplyPolicies) (context : TransactionContext) (db : ClusterDb) (entry : LogApplyCommit) :
    Tables → Prop
  /-- Rejected, failed, stale, answered before, or nothing but ledger rows. -/
  | ledger (appliedOutbox : Table LogApplyAppliedOutboxRow.idempotencyKey) :
      EntryRun policies context db entry { db.tables with appliedOutbox }
  /-- The mutations ran; a finalization receipt may be stored after them. -/
  | applied {resolved : ApplyCommit} {bound : List LogApplyMutation} {tables : Tables} {pending : List StagedPostCommit}
      (hlive : ApplyCommit.fromLive entry = .ok entry.live)
      (hresolved : Resolved policies db entry.live .apply resolved)
      (hbound : resolveBoundPodFinalizationsInTx db.tables entry.resourceVersion entry.mutations = .ok bound)
      (hrun : applyMutations policies (stampProvisionalResourceVersionInTx context db resolved).2.resourceVersion
        (entry.emits bound) db.tables (stampProvisionalResourceVersionInTx context db resolved).2.mutations =
          .ok (tables, pending))
      (appliedOutbox : Table LogApplyAppliedOutboxRow.idempotencyKey) :
      EntryRun policies context db entry { tables with appliedOutbox }

variable {pl : ApplyPolicies} {c : TransactionContext} {db db' : ClusterDb} {en : LogApplyCommit}
  {et : Bool} {applied : AppliedCommit} {o : RaftLogApplyOutcome}

theorem attemptCommit_run {p : Option Json} (h : attemptCommit pl c db en p = .ok (db', o)) :
    EntryRun pl c db en db'.tables := by
  obtain ⟨li, hl, hc⟩ := attemptCommit_cases h
  obtain rfl : li = en.live := fromLive_ok hl
  rcases hc with ⟨after, applied, ha, hf⟩ | ⟨code, msg, -, rfl, -⟩
  · obtain ⟨re, rfl⟩ := finishAttempt_ok hf
    obtain ⟨de, rs, hr, -, -, -, hc⟩ := applyCommit_cases ha
    rcases hc with ⟨hs, -⟩ | ⟨rfl, bound, pend, hb, hu⟩
    · simp only [hs]
      exact .ledger re
    · exact .applied hl hr hb hu re
  · obtain ⟨appliedOutbox, heq, -⟩ := recordRejection_eq c db en (DbError.conflict code msg).display
    rw [heq]
    exact .ledger appliedOutbox

theorem applyEntry_run (pl : ApplyPolicies) (c : TransactionContext) (db : ClusterDb)
    (en : LogApplyCommit) : EntryRun pl c db en (applyEntry pl c db en).tables := by
  cases hk : applyCommitInTxForRaftWithContext pl c db en with
  | error er =>
    rw [show applyEntry pl c db en = db by simp only [applyEntry, hk]]
    exact .ledger db.tables.appliedOutbox
  | ok r =>
    obtain ⟨db', o⟩ := r
    rw [applyEntry_of_ok hk]
    cases applyForRaft_cases hk with
    | empty | answered | duplicate => exact .ledger db.tables.appliedOutbox
    | stale ho hd hstp hr =>
      obtain ⟨ld, applied, re, -, hap, -⟩ := recordStaleStamp_ok hr
      have ha : doesNotAdvancePublicRv (en.mutations.filter isPutAppliedOutbox) :=
        List.all_eq_true.2 fun mutation hm => (List.mem_filter.1 hm).2
      obtain ⟨de, rs, he, -, hle, -⟩ := applyCommit_public hap (.inr rfl)
      obtain ⟨appliedOutbox, heq⟩ := (hle (he.ledgerOnly ha)).1
      rw [heq]
      exact .ledger appliedOutbox
    | attempted hp ho hd hstp ht => exact attemptCommit_run ht

/-! ## Invariants -/

variable (hle : ∀ tables appliedOutbox, P tables → P { tables with appliedOutbox })
  (hst : ∀ {version et tables mutation tables' staged}, Q mutation →
    applyClusterMutation pl version et tables mutation = .ok (tables', staged) → P tables → P tables')
  (hstp : ∀ version preserve mutation, Q mutation → Q (stampMutation c version preserve mutation))
  (hfi : ∀ {version mutation}, FromFinalization version mutation → Q mutation)

include hst include hle hstp hfi

theorem EntryRun.invariant {tables : Tables} (h : EntryRun pl c db en tables)
    (he : ∀ m ∈ en.mutations, Q m) (hb : P db.tables) : P tables := by
  cases h with
  | ledger appliedOutbox => exact hle _ _ hb
  | applied hl hr hd hu appliedOutbox =>
    refine hle _ _ (applyMutations_invariant hu (fun m hm _ _ _ => hst ?_) hb)
    obtain ⟨ori, ho, rfl⟩ := List.mem_map.1 hm
    exact hstp _ _ _ ((hr.mem ho).elim (he ori) hfi)

theorem runEntries_invariant {es : List LogApplyCommit} (hn : ∀ en ∈ es, ∀ m ∈ en.mutations, Q m)
    (hb : P db.tables) : P (runEntries pl c db es).tables := by
  induction es generalizing db with
  | nil => exact hb
  | cons en tl ih =>
    have hx := (applyEntry_run pl c db en).invariant hle hst hstp hfi (hn en (by simp)) hb
    exact ih (fun e he => hn e (by simp [he])) hx

end Klights.Store
