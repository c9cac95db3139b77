import Klights.Store.Effects
import Klights.Store.Restart
import Klights.Store.WatchRetention

/-!
# ResourceVersions over runs of committed entries

The counter of `cluster.db` moves by one for a commit that comes down to more than ledger puts, and everything that
commit writes carries the new value.

- `Effect.writtenAt`, `applyMutations_writtenAt`: what the mutations of a stamped commit write has its resourceVersion;
- `applyEntry_allocates`: the step, for any committed entry;
- `resourceVersions_allocated`: over a run from the empty store the counter never goes back, nothing stored is above it,
  and a commit that changes an object gets a value above all earlier ones.
-/

namespace Klights.Store

open Lib LogApplyMutation LogApplyAppliedOutboxRow List Table

/-! ## What is written -/

/-- What `after` has and `before` has not was written at one resourceVersion. -/
structure WrittenAt (version : Int) (before after : Tables) : Prop where
  resources : ∀ row ∈ after.resources.rows, row ∈ before.resources.rows ∨ row.resourceVersion = version
  namespaces : ∀ row ∈ after.namespaces.rows, row ∈ before.namespaces.rows ∨ row.resourceVersion = version
  events : ∀ row ∈ after.watch.events.rows, row ∈ before.watch.events.rows ∨ row.resourceVersion = version
  ledger : ∀ row ∈ after.appliedOutbox.rows, row ∈ before.appliedOutbox.rows ∨ ∀ v ∈ row.appliedRv, v ≤ version

/-- The versions a mutation brings along: the event's is the commit's, a ledger row's is not above it. -/
structure LogApplyMutation.VersionedAt (version : Int) (mutation : LogApplyMutation) : Prop where
  event : ∀ row, mutation = .putWatchEvent row → row.resourceVersion = version
  ledger : ∀ row, mutation = .putAppliedOutbox row → ∀ v ∈ row.appliedRv, v ≤ version

variable {version vr : Int} {em : Bool} {mu : LogApplyMutation} {db db' : ClusterDb} {a : AppliedCommit}
  {entry e : LogApplyCommit}

section Written

variable {policies : ApplyPolicies} {before tables t tables' : Tables} {st : Option StagedPostCommit}
  {mutations : List LogApplyMutation} {p : List StagedPostCommit}

theorem WrittenAt.refl (version : Int) (tables : Tables) : WrittenAt version tables tables :=
  ⟨fun _ h => .inl h, fun _ h => .inl h, fun _ h => .inl h, fun _ h => .inl h⟩

theorem WrittenAt.trans (h : WrittenAt vr before t) (h' : WrittenAt vr t tables') :
    WrittenAt vr before tables' := by
  refine ⟨fun ro hr => ?_, fun ro hr => ?_, fun ro hr => ?_, fun ro hr => ?_⟩
  · exact (h'.resources ro hr).elim (h.resources ro) .inr
  · exact (h'.namespaces ro hr).elim (h.namespaces ro) .inr
  · exact (h'.events ro hr).elim (h.events ro) .inr
  · exact (h'.ledger ro hr).elim (h.ledger ro) .inr

theorem insertWatchEvent_versions {l l' : WatchLog} {ev : WatchEventInsert} (h : insertWatchEventInConn l ev = .ok l') :
    ∀ rw ∈ l'.events.rows, rw ∈ l.events.rows ∨ rw.resourceVersion = ev.resourceVersion := by
  intro rw hr
  cases insertWatchEvent_inserted h with
  | replayed => exact .inl hr
  | stored => exact (old_or_new hr).imp_right (congrArg WatchEventRow.resourceVersion)

theorem writtenAt_watch {watch : WatchLog}
    (h : ∀ rw ∈ watch.events.rows, rw ∈ t.watch.events.rows ∨ rw.resourceVersion = vr) :
    WrittenAt vr t { t with watch } :=
  ⟨fun _ h => .inl h, fun _ h => .inl h, h, fun _ h => .inl h⟩

theorem writtenAt_resources {resources : Table ResourceRow.key} {labels fields : List SelectorIndexRow}
    {ownerRefs : List OwnerRefRow}
    (h : ∀ rw ∈ resources.rows, rw ∈ t.resources.rows ∨ rw.resourceVersion = vr) :
    WrittenAt vr t { t with resources, labels, fields, ownerRefs } :=
  ⟨h, fun _ h => .inl h, fun _ h => .inl h, fun _ h => .inl h⟩

theorem writtenAt_namespaces {namespaces : Table NamespaceRow.name}
    (h : ∀ rw ∈ namespaces.rows, rw ∈ t.namespaces.rows ∨ rw.resourceVersion = vr) :
    WrittenAt vr t { t with namespaces } :=
  ⟨fun _ h => .inl h, h, fun _ h => .inl h, fun _ h => .inl h⟩

theorem emitWatch_writtenAt {k : ResourceKey} {et : String} {da : Blob}
    (h : t.emitWatch em k vr et da = .ok (tables', st)) :
    WrittenAt vr t tables' := by
  rcases emitWatch_ok h with ⟨-, rfl⟩ | ⟨-, watch, hi, rfl⟩
  · exact .refl vr tables'
  · exact writtenAt_watch (insertWatchEvent_versions hi)

theorem ledgerAfter_versions (hv : mu.VersionedAt version) {l : Table idempotencyKey} :
    ∀ rw ∈ (mu.ledgerAfter l).rows, rw ∈ l.rows ∨ ∀ v ∈ rw.appliedRv, v ≤ version := by
  intro rw hr
  cases mu with
  | putAppliedOutbox pu =>
    refine (old_or_new hr).imp_right ?_
    rintro rfl
    exact hv.ledger rw rfl
  | deleteAppliedOutbox k => exact .inl (mem_deleteWhere.1 hr).1
  | gcAppliedOutbox cu op => exact .inl (mem_deleteWhere.1 hr).1
  | _ => exact .inl hr

theorem Effect.writtenAt (h : Effect vr em t mu tables') (hve : mu.VersionedAt vr) :
    WrittenAt vr t tables' := by
  cases h with
  | wrote ht hy he =>
    refine WrittenAt.trans ?_ (emitWatch_writtenAt he)
    exact writtenAt_resources fun ro hr => (old_or_new hr).imp_right (congrArg ResourceRow.resourceVersion)
  | indexed hf hv hd => exact writtenAt_resources fun ro hr => .inl hr
  | deleted hf he =>
    refine WrittenAt.trans ?_ (emitWatch_writtenAt he)
    exact writtenAt_resources fun ro hr => .inl (mem_deleteWhere.1 hr).1
  | wroteNamespace hy he =>
    refine WrittenAt.trans ?_ (emitWatch_writtenAt he)
    exact writtenAt_namespaces fun ro hr => (old_or_new hr).imp_right (congrArg NamespaceRow.resourceVersion)
  | deletedNamespace hf he =>
    refine WrittenAt.trans ?_ (emitWatch_writtenAt he)
    exact writtenAt_namespaces fun ro hr => .inl (mem_deleteWhere.1 hr).1
  | cleared nm =>
    obtain ⟨la, fs, re, heq⟩ := deleteNamespaceContents_frame t nm
    rw [heq]
    exact writtenAt_resources fun ro hr => .inl (mem_deleteWhere.1 hr).1
  | event hi =>
    refine writtenAt_watch fun ro hr => ?_
    rw [← hve.event _ rfl]
    exact insertWatchEvent_versions hi ro hr
  | collected hg => exact writtenAt_watch fun ro hr => .inl ((gcWatchEventsInTx_ok hg).1 ro hr)
  | aside => exact ⟨fun _ h => .inl h, fun _ h => .inl h, fun _ h => .inl h, ledgerAfter_versions hve⟩

theorem applyMutations_writtenAt (hv : ∀ m ∈ mutations, m.VersionedAt vr)
    (h : applyMutations policies vr em t mutations = .ok (tables', p)) :
    WrittenAt vr t tables' := by
  refine applyMutations_invariant h (fun m hm _ _ _ hn hb => ?_) (.refl vr t)
  exact hb.trans ((applyClusterMutation_effects hn).writtenAt (hv m hm))

end Written

/-! ## Commits -/

/-- The counter stays or moves by one; what was written has its new value, and nothing public changes while it stays. -/
structure Allocates (before after : ClusterDb) (version : Int) : Prop where
  counter : after.resourceVersion = version
  step : version = before.resourceVersion ∨ version = before.resourceVersion + 1
  written : WrittenAt version before.tables after.tables
  quiet : version = before.resourceVersion → after.publicState = before.publicState

variable {d : OutboxWatermarkDecision} {r : ApplyCommit} {es : List LogApplyCommit}

section Commit

variable {policies : ApplyPolicies} {context : TransactionContext} {cm : ApplyCommit}

theorem stampMutation_versioned (ps : Bool) (hn : 0 ≤ version) (h : mu.VersionedAt 0) :
    (stampMutation context version ps mu).VersionedAt version := by
  refine ⟨fun ro hr => ?_, fun ro hr v hv => ?_⟩
  · cases mu with
    | putWatchEvent ev =>
      cases hr
      exact if_pos (h.event ev rfl)
    | _ => cases hr
  · cases mu with
    | putAppliedOutbox pu =>
      cases hr
      cases hv
      cases hp : pu.appliedRv with
      | none => exact le_refl _
      | some vl => exact le_trans (h.ledger pu rfl vl hp) hn
    | _ => cases hr

/-- A commit of ledger puts, or one that has no version yet, leaves mutations without a version of their own. -/
theorem Resolved.versioned (h : Resolved policies db cm d r)
    (hrv : cm.resourceVersion = 0 ∨ doesNotAdvancePublicRv cm.mutations)
    (he : ∀ m ∈ cm.mutations, m.VersionedAt 0) : ∀ m ∈ r.mutations, m.VersionedAt 0 := by
  intro m hm
  rcases h.mem hm with hi | hfin
  · exact he m hi
  · rcases hrv with h0 | hled
    · cases hfin with
      | event hd hv =>
        refine ⟨fun ro hr => ?_, fun ro hr => by cases hr⟩
        cases hr
        exact hv.trans h0
      | delete k => exact ⟨nofun, nofun⟩
    · -- nothing comes from a finalization in a commit of ledger puts
      have ha := all_eq_true.1 (h.ledgerOnly hled) m hm
      cases hfin <;> cases ha

/-- A commit without a version, or one of ledger puts at the version of the database. -/
def ApplyCommit.Unspent (commit : ApplyCommit) (db : ClusterDb) : Prop :=
  commit.resourceVersion = 0 ∨
    (commit.resourceVersion = db.resourceVersion ∧ doesNotAdvancePublicRv commit.mutations = true)

/-- The counter of a stamped database is the version of its commit: the old one for ledger puts, the next one
otherwise. -/
theorem Resolved.stamp (context : TransactionContext) (h : Resolved policies db cm d r) (hrv : cm.Unspent db) :
    let stamped := stampProvisionalResourceVersionInTx context db r
    stamped.1.resourceVersion = stamped.2.resourceVersion ∧
      (stamped.2.resourceVersion = db.resourceVersion ∨ stamped.2.resourceVersion = db.resourceVersion + 1) := by
  cases ha : doesNotAdvancePublicRv r.mutations with
  | true =>
    have h0 := h.resourceVersion_unspent (hrv.imp_right And.left)
    obtain ⟨hd, hv⟩ := stamp_of_ledgerOnly context db ha h0
    exact ⟨by rw [hd, hv], .inl hv⟩
  | false =>
    have h0 : r.resourceVersion = 0 := by
      rw [h.resourceVersion_of_spends ha]
      rcases hrv with h0 | ⟨-, hl⟩
      · exact h0
      · rw [h.ledgerOnly hl] at ha
        cases ha
    obtain ⟨hd, hv⟩ := stamp_of_spends context db ha h0
    exact ⟨by rw [hd, hv], .inr hv⟩

section

variable (h : applyCommitInTxWithWatchEvents policies context db cm em = .ok (db', a))
  (hrv : cm.Unspent db)
include h hrv

theorem applyCommit_quiet (hq : db'.resourceVersion = db.resourceVersion) : db'.publicState = db.publicState := by
  obtain ⟨d, r, hr, -, hp, hs⟩ := applyCommit_public h (hrv.imp_right And.left)
  cases ha : doesNotAdvancePublicRv r.mutations with
  | true => exact (hp ha).2
  | false =>
    rcases hrv with h0 | ⟨-, hl⟩
    · have hn := hs ha h0
      omega
    · rw [hr.ledgerOnly hl] at ha
      cases ha

theorem applyCommit_allocates (hv : ∀ m ∈ cm.mutations, m.VersionedAt 0) (hn : 0 ≤ db.resourceVersion) :
    Allocates db db' a.resourceVersion := by
  obtain ⟨d, r, hr, hp, ha, -, hcs⟩ := applyCommit_cases h
  have hl := hr.versioned (hrv.imp_right And.right) hv
  obtain ⟨hc, hs⟩ := hr.stamp context hrv
  rw [hc, max_self] at ha
  rw [hp]
  refine ⟨ha, hs, ?_, fun heq => applyCommit_quiet h hrv (ha.trans heq)⟩
  rcases hcs with ⟨heq, -⟩ | ⟨-, bo, p, -, hu⟩
  · rw [heq]
    exact .refl _ _
  · refine applyMutations_writtenAt (fun m hm => ?_) hu
    obtain ⟨ori, ho, rfl⟩ := mem_map.1 hm
    exact stampMutation_versioned _ (by omega) (hl ori ho)

end

end Commit

/-! ## Entries -/

def CommittedApplyOutcome.resourceVersion : CommittedApplyOutcome → Option Int
  | .visible resourceVersion _ | .noPublicChange resourceVersion _ => some resourceVersion
  | .rejected _ => none

/-- Nothing stored has a resourceVersion above the counter. -/
structure VersionsBelow (db : ClusterDb) : Prop where
  nonneg : 0 ≤ db.resourceVersion
  resources : ∀ row ∈ db.tables.resources.rows, row.resourceVersion ≤ db.resourceVersion
  namespaces : ∀ row ∈ db.tables.namespaces.rows, row.resourceVersion ≤ db.resourceVersion
  events : ∀ row ∈ db.tables.watch.events.rows, row.resourceVersion ≤ db.resourceVersion
  ledger : ∀ row ∈ db.tables.appliedOutbox.rows, ∀ v ∈ row.appliedRv, v ≤ db.resourceVersion

theorem VersionsBelow.empty : VersionsBelow .empty := by
  refine ⟨le_refl _, ?_, ?_, ?_, ?_⟩ <;> exact fun ro hr => nomatch hr

theorem Allocates.below {before after : ClusterDb} (h : Allocates before after vr)
    (hb : VersionsBelow before) : VersionsBelow after := by
  have hle : before.resourceVersion ≤ after.resourceVersion := by
    rw [h.counter]
    rcases h.step with heq | heq <;> omega
  have hnew : ∀ {v : Int}, v = vr → v ≤ after.resourceVersion := fun hv => by rw [hv, h.counter]
  refine ⟨le_trans hb.nonneg hle, fun row hr => ?_, fun row hr => ?_, fun row hr => ?_, fun row hr v hv => ?_⟩
  · exact (h.written.resources row hr).elim (fun ho => le_trans (hb.resources row ho) hle) hnew
  · exact (h.written.namespaces row hr).elim (fun ho => le_trans (hb.namespaces row ho) hle) hnew
  · exact (h.written.events row hr).elim (fun ho => le_trans (hb.events row ho) hle) hnew
  · rcases h.written.ledger row hr with ho | hnew
    · exact le_trans (hb.ledger row ho v hv) hle
    · rw [h.counter]
      exact hnew v hv

section Entry

variable {policies : ApplyPolicies} {context : TransactionContext} {after : ClusterDb} {outcome : RaftLogApplyOutcome}

theorem versioned_of_live {l : ApplyCommit} (hl : ApplyCommit.fromLive e = .ok l) :
    ∀ m ∈ e.mutations, m.VersionedAt 0 := by
  obtain ⟨⟨⟩, ha, -⟩ := bind_eq_ok.1 hl
  obtain ⟨⟨⟩, -, hal⟩ := bind_eq_ok.1 (mapError_eq_ok.1 ha)
  intro m hm
  have hl := forM_eq_ok hal m hm
  refine ⟨fun ro hr => ?_, fun ro hr v hv => ?_⟩
  · subst hr
    obtain ⟨-, -, hl⟩ := bind_eq_ok.1 hl
    obtain ⟨-, -, hl⟩ := bind_eq_ok.1 hl
    exact validateZero_ok_iff.1 hl
  · subst hr
    simp only [validateLive, Option.mem_def.1 hv] at hl
    exact le_of_eq (validateZero_ok_iff.1 hl)

theorem Allocates.unchanged (db : ClusterDb) : Allocates db db db.resourceVersion :=
  ⟨rfl, .inl rfl, .refl _ _, fun _ => rfl⟩

/-- Ledger rows with no version above the counter, and positions, are written without a version. -/
theorem Allocates.ledger {appliedOutbox : Table idempotencyKey} (h : Allocates db after version)
    (hl : ∀ rw ∈ appliedOutbox.rows, rw ∈ after.tables.appliedOutbox.rows ∨ ∀ v ∈ rw.appliedRv, v ≤ version)
    (w : Table WatermarkRow.stream) :
    Allocates db ⟨{ after.tables with appliedOutbox }, w, after.resourceVersion⟩ version := by
  refine ⟨h.counter, h.step, h.written.trans ?_, fun heq => h.quiet heq⟩
  exact ⟨fun _ h => .inl h, fun _ h => .inl h, fun _ h => .inl h, hl⟩

theorem storeFinalizationReceipt_ledger {tl : Option LogApplyAppliedOutboxRow}
    (h : storeFinalizationReceipt context db tl a = .ok db') :
    ∃ appliedOutbox, db' = ⟨{ db.tables with appliedOutbox }, db.watermarks, db.resourceVersion⟩ ∧
      ∀ row ∈ appliedOutbox.rows, row ∈ db.tables.appliedOutbox.rows ∨ ∀ v ∈ row.appliedRv, v ≤ a.resourceVersion := by
  rcases storeFinalizationReceipt_cases h with rfl | ⟨put, row, proto, -, -, rfl⟩
  · exact ⟨_, rfl, fun row hr => .inl hr⟩
  · refine ⟨_, rfl, fun row hr => (old_or_new hr).imp_right ?_⟩
    rintro rfl v hv
    exact le_of_eq (Option.some.inj hv).symm

theorem finishAttempt_allocates {pB : Option Json} (h : Allocates db after a.resourceVersion)
    (hf : finishAttempt context db e pB after a = .ok (db', outcome)) :
    Allocates db db' a.resourceVersion ∧ outcome.committedOutcome.resourceVersion = some a.resourceVersion := by
  obtain ⟨s, hs, hf⟩ := bind_eq_ok.1 hf
  obtain ⟨po, -, hf⟩ := bind_eq_ok.1 hf
  cases hf
  obtain ⟨ap, rfl, hl⟩ := storeFinalizationReceipt_ledger hs
  refine ⟨h.ledger hl _, ?_⟩
  split <;> rfl

theorem recordStaleStamp_allocates {l i : Int} {ef : PodEndpointEffect} (hb : VersionsBelow db)
    (h : recordStaleStamp policies context db e l i ef = .ok (db', outcome)) :
    ∃ version, Allocates db db' version ∧ outcome.committedOutcome.resourceVersion = some version := by
  obtain ⟨ld, hl, h⟩ := bind_eq_ok.1 h
  obtain ⟨⟨re, a⟩, ha, h⟩ := bind_eq_ok.1 h
  simp only at h
  split at h
  · cases h
  · cases h
    have hv := versioned_of_live hl
    rw [fromLive_ok hl] at ha
    refine ⟨a.resourceVersion, applyCommit_allocates ha (.inr ⟨rfl, ?_⟩) hv hb.nonneg, rfl⟩
    simp [doesNotAdvancePublicRv, commitWithOutboxRowsOnly]

theorem recordRejection_allocates (m : String) : Allocates db (recordRejection context db e m) db.resourceVersion := by
  obtain ⟨ap, heq, hl⟩ := recordRejection_eq context db e m
  rw [heq]
  refine (Allocates.unchanged db).ledger (fun ro hr => (hl ro hr).imp_right fun hn v hv => ?_) _
  rw [hn] at hv
  cases hv

theorem applyForRaft_allocates (hb : VersionsBelow db)
    (h : applyCommitInTxForRaftWithContext policies context db e = .ok (db', outcome)) :
    ∃ version, Allocates db db' version ∧ (∀ v ∈ outcome.committedOutcome.resourceVersion, v ≤ version) ∧
      (db'.publicState ≠ db.publicState → outcome.committedOutcome.resourceVersion = some version) := by
  cases applyForRaft_cases h with
  | empty hm hk =>
    refine ⟨_, .unchanged db, fun v hv => ?_, fun hne => absurd rfl hne⟩
    rw [applyForRaft_empty hm hk h] at hv
    exact le_of_eq (Option.some.inj hv).symm
  | answered hr hn =>
    rename_i ro ef
    refine ⟨_, .unchanged db, fun v hv => ?_, fun hne => absurd rfl hne⟩
    obtain ⟨tm, -, hf⟩ := Option.bind_eq_some_iff.1 hr
    rcases answerFromLedger_cases hn with ⟨re, ho⟩ | ⟨version, he, ho⟩
    · rw [ho] at hv
      cases hv
    · rw [ho] at hv
      exact hb.ledger ro (find_mem hf) v (he.trans hv)
  | duplicate hr hd ho =>
    refine ⟨_, .unchanged db, fun v hv => ?_, fun hne => absurd rfl hne⟩
    rw [ho] at hv
    exact le_of_eq (Option.some.inj hv).symm
  | stale hr hd ht hc =>
    obtain ⟨version, ha, he⟩ := recordStaleStamp_allocates hb hc
    refine ⟨version, ha, fun v hv => ?_, fun _ => he⟩
    rw [he] at hv
    exact le_of_eq (Option.some.inj hv).symm
  | attempted hp hr hd ht hat =>
    obtain ⟨li, hl, hcs⟩ := attemptCommit_cases hat
    rcases hcs with ⟨after, a, hap, hi⟩ | ⟨co, ms, -, rfl, ho⟩
    · have hs := versioned_of_live hl
      have h0 := fromLive_resourceVersion hl
      rw [fromLive_ok hl] at hap h0
      have haf := applyCommit_allocates hap (.inl h0) hs hb.nonneg
      obtain ⟨ha, he⟩ := finishAttempt_allocates haf hi
      refine ⟨_, ha, fun v hv => ?_, fun _ => he⟩
      rw [he] at hv
      exact le_of_eq (Option.some.inj hv).symm
    · refine ⟨_, recordRejection_allocates _, fun v hv => ?_, fun hne => ?_⟩
      · rw [ho] at hv
        cases hv
      · exact absurd (recordRejection_publicState context db e _) hne

end Entry

/-! ## Runs -/

structure CommitStep where
  before : ClusterDb
  entry : LogApplyCommit
  after : ClusterDb
  /-- The resourceVersion the entry is answered with. -/
  version : Option Int

def CommitStep.ChangesObjects (step : CommitStep) : Prop :=
  step.after.tables.resources ≠ step.before.tables.resources ∨
    step.after.tables.namespaces ≠ step.before.tables.namespaces

section Run

variable (policies : ApplyPolicies) (context : TransactionContext)

def entryVersion (db : ClusterDb) (entry : LogApplyCommit) : Option Int :=
  match applyCommitInTxForRaftWithContext policies context db entry with
  | .ok (_, outcome) => outcome.committedOutcome.resourceVersion
  | .error _ => none

def commitSteps : ClusterDb → List LogApplyCommit → List CommitStep
  | _, [] => []
  | db, entry :: rest =>
    let after := applyEntry policies context db entry
    ⟨db, entry, after, entryVersion policies context db entry⟩ :: commitSteps after rest

variable {policies context}

theorem applyEntry_allocates (policies : ApplyPolicies) (context : TransactionContext) (entry : LogApplyCommit)
    (hb : VersionsBelow db) :
    ∃ version, Allocates db (applyEntry policies context db entry) version ∧
      (∀ v ∈ entryVersion policies context db entry, v ≤ version) ∧
      ((applyEntry policies context db entry).publicState ≠ db.publicState →
        entryVersion policies context db entry = some version) := by
  unfold applyEntry entryVersion
  cases ho : applyCommitInTxForRaftWithContext policies context db entry with
  | error er => exact ⟨_, .unchanged db, nofun, fun hne => absurd rfl hne⟩
  | ok re => exact applyForRaft_allocates hb ho

theorem applyEntry_ledgerOnly (ha : doesNotAdvancePublicRv entry.mutations) :
    (applyEntry policies context db entry).publicState = db.publicState := by
  have hl : leavesLedgerOnly policies db entry := by
    unfold leavesLedgerOnly remainingMutations
    rw [resolveBound_ledger ha]
    cases hd : dropNoopPuts policies db.tables entry.mutations with
    | error er => simp [bind, Except.bind, hd, Except.map]
    | ok dr =>
      simp only [bind, Except.bind, hd, Except.map]
      exact all_eq_true.2 fun m hm => all_eq_true.1 ha m ((dropNoopPuts_sublist hd).subset hm)
  exact applyEntry_publicState_iff.2 (by simp [writesAgain, hl])

structure CommitStep.Allocated (step : CommitStep) : Prop where
  monotone : step.before.resourceVersion ≤ step.after.resourceVersion
  below : VersionsBelow step.after
  written : WrittenAt step.after.resourceVersion step.before.tables step.after.tables
  fresh : step.ChangesObjects →
    step.version = some step.after.resourceVersion ∧ step.before.resourceVersion < step.after.resourceVersion
  quiet : doesNotAdvancePublicRv step.entry.mutations = true → step.after.resourceVersion = step.before.resourceVersion

theorem applyEntry_allocated (policies : ApplyPolicies) (context : TransactionContext) (entry : LogApplyCommit)
    (hb : VersionsBelow db) :
    (CommitStep.mk db entry (applyEntry policies context db entry) (entryVersion policies context db entry)).Allocated ∧
      ∀ v ∈ entryVersion policies context db entry, v ≤ (applyEntry policies context db entry).resourceVersion := by
  obtain ⟨vr, ha, hle, hi⟩ := applyEntry_allocates policies context entry hb
  have hc := ha.counter
  refine ⟨⟨?_, ha.below hb, ?_, fun hh => ?_, fun hl => ?_⟩, fun v hv => ?_⟩
  · simp only [hc]
    rcases ha.step with heq | heq <;> omega
  · simp only [hc]
    exact ha.written
  · have hne : (applyEntry policies context db entry).publicState ≠ db.publicState := by
      intro heq
      rcases hh with hr | hnss
      · exact hr (congrArg PublicState.resources heq)
      · exact hnss (congrArg PublicState.namespaces heq)
    have hs : vr ≠ db.resourceVersion := fun heq => hne (ha.quiet heq)
    simp only [hc]
    refine ⟨hi hne, ?_⟩
    rcases ha.step with heq | heq
    · exact absurd heq hs
    · omega
  · exact congrArg PublicState.resourceVersion (applyEntry_ledgerOnly hl)
  · rw [hc]
    exact hle v hv

theorem commitSteps_allocated (hb : VersionsBelow db) : ∀ s ∈ commitSteps policies context db es,
      s.Allocated ∧ db.resourceVersion ≤ s.before.resourceVersion := by
  induction es generalizing db with
  | nil => exact fun s hs => nomatch hs
  | cons e tl ih =>
    obtain ⟨hh, -⟩ := applyEntry_allocated policies context e hb
    intro s hs
    rcases mem_cons.1 hs with rfl | hs
    · exact ⟨hh, le_refl _⟩
    · obtain ⟨hs, hle⟩ := ih hh.below s hs
      exact ⟨hs, le_trans hh.monotone hle⟩

theorem commitSteps_increase (hb : VersionsBelow db) : (commitSteps policies context db es).Pairwise fun pv l =>
      l.ChangesObjects → ∀ v ∈ pv.version, v < l.after.resourceVersion := by
  induction es generalizing db with
  | nil => exact List.Pairwise.nil
  | cons e tl ih =>
    obtain ⟨hh, he⟩ := applyEntry_allocated policies context e hb
    refine pairwise_cons.2 ⟨fun l hl hc v hv => ?_, ih hh.below⟩
    obtain ⟨ha, hle⟩ := commitSteps_allocated hh.below l hl
    have hn := (ha.fresh hc).2
    have ho := he v hv
    have hs : (applyEntry policies context db e).resourceVersion ≤ l.before.resourceVersion := hle
    omega

/-- Over every run from the empty store: each entry leaves the counter at least where it was and everything stored at or
below it, writes at one version, gets a version above those of all earlier entries if it changes an object, and none if
it only puts ledger rows or moves a position. -/
theorem resourceVersions_allocated (policies : ApplyPolicies) (context : TransactionContext)
    (entries : List LogApplyCommit) :
    (∀ step ∈ commitSteps policies context .empty entries, step.Allocated) ∧
    (commitSteps policies context .empty entries).Pairwise fun earlier later =>
      later.ChangesObjects → ∀ v ∈ earlier.version, v < later.after.resourceVersion :=
  ⟨fun step hs => (commitSteps_allocated .empty step hs).1, commitSteps_increase .empty⟩

end Run

def sampleLedgerPut : LogApplyCommit where
  mutations := [.putAppliedOutbox {
    idempotencyKey := "k1"
    subjectKey := "pod/default/web"
    operation := "PodStatus"
    firstSeenMs := 100
    appliedRv := none
    resultProto := []
    statusStamp := none }]

/-- The collection of an expired ledger row changes nothing but the ledger, and still spends a resourceVersion. -/
theorem ledger_collection_spends_version :
    let before := applyEntry samplePolicies sampleContext .empty sampleLedgerPut
    let after := applyEntry samplePolicies sampleContext before { mutations := [.gcAppliedOutbox 200 []] }
    before.resourceVersion = 0 ∧ after.resourceVersion = 1 ∧
      before.tables.appliedOutbox.rows.length = 1 ∧ after.tables.appliedOutbox.rows = [] ∧
      after.tables = { before.tables with appliedOutbox := .empty } ∧ after.watermarks = before.watermarks := by
  decide +kernel

end Klights.Store
