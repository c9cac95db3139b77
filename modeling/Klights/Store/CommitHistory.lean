import Klights.Store.Entries
import Klights.Store.History
import Klights.Store.Versions
import Klights.Store.WatchReplay

/-!
# Committed entries as steps of the history

A committed entry appends events to the watch log, each under the next id and at the resourceVersion the entry was
stamped with, and it may collect old ones. A live entry is stamped above the counter.

- `Effect.logged`: a mutation leaves the log, appends one event or collects;
- `applyMutations_logged`: so the mutations of a commit are steps of the log;
- `applyEntry_step`: applying a committed entry is a step between two turns of a reader, once the rows are accounted
  for;
- `committed_run_keeps_log`: what a run of committed entries keeps of the log;
- `durable_replay_no_gap`: so a replay from the log answers as if nothing had been collected.
-/

namespace Klights.Store

open Lib

/-! ## One mutation -/

/-- An event a mutation brings along has no id yet and the version of its commit. -/
def LogApplyMutation.Stamped (version : Int) (mutation : LogApplyMutation) : Prop :=
  ∀ row, mutation = .putWatchEvent row → row.eventId = none ∧ row.resourceVersion = version

variable {event : WatchEventInsert} {mu : LogApplyMutation}

theorem insertWatchEvent_logs {l l' : WatchLog} (hn : event.eventId = none)
    (h : insertWatchEventInConn l event = .ok l') :
    l' = l ∨ ∃ row, row.resourceVersion = event.resourceVersion ∧ Logs l l' row := by
  cases insertWatchEvent_inserted h with
  | replayed => exact .inl rfl
  | @stored id da hi _ _ hf =>
    -- the next id is above every id handed out
    have hx := l.seq_lt_nextEventId
    rw [hn, Option.getD_none] at hi
    subst hi
    refine .inr ⟨event.row l.nextEventId da, rfl, hx, max_eq_right (le_of_lt hx), fun r => ?_, rfl⟩
    rw [Table.mem_put, or_comm]
    exact or_congr_left ⟨fun hr => hr.1, fun hr => ⟨hr, hf r hr⟩⟩

structure LoggedTo (w : World) (log : WatchLog) (w' : World) : Prop where
  steps : Relation.ReflTransGen LogStep w w'
  log : w'.log = log
  base : w'.base = w.base
  counter : w'.db.resourceVersion = w.db.resourceVersion

variable {p : ApplyPolicies} {c : TransactionContext} {version : Int} {et : Bool} {w : World}

theorem insertWatchEvent_logged {l : WatchLog} (hn : event.eventId = none)
    (hv : w.db.resourceVersion < event.resourceVersion) (h : insertWatchEventInConn w.log event = .ok l) :
    ∃ w', LoggedTo w l w' := by
  rcases insertWatchEvent_logs hn h with rfl | ⟨row, hr, hl⟩
  · exact ⟨w, .refl, rfl, rfl, rfl⟩
  · exact ⟨_, .single (.event hl (by rwa [hr])), rfl, rfl, rfl⟩

theorem Effect.logged {t t' : Tables} (h : Effect version et t mu t') (hs : mu.Stamped version)
    (hl : w.log = t.watch) (hv : w.db.resourceVersion < version) : ∃ w', LoggedTo w t'.watch w' := by
  rcases h.watch_cases with heq | ⟨event, hi, he⟩ | ⟨maxRows, batchCap, rem, hg⟩
  · exact ⟨w, .refl, hl.trans heq.symm, rfl, rfl⟩
  · rw [← hl] at hi
    have hn : event.eventId = none ∧ event.resourceVersion = version := by
      rcases he with hn | ⟨row, ho, hd, hr⟩
      · exact hn
      · obtain ⟨hno, ht⟩ := hs row ho
        exact ⟨hd.trans hno, hr.trans ht⟩
    exact insertWatchEvent_logged hn.1 (lt_of_lt_of_eq hv hn.2.symm) hi
  · rw [← hl] at hg
    exact ⟨_, .single (.gc hg), rfl, rfl, rfl⟩

theorem applyMutations_logged {ms : List LogApplyMutation} {t t' : Tables}
    {pd : List StagedPostCommit} (hs : ∀ m ∈ ms, m.Stamped version) (ho : w.log = t.watch)
    (hv : w.db.resourceVersion < version)
    (h : applyMutations p version et t ms = .ok (t', pd)) :
    ∃ w', LoggedTo w t'.watch w' := by
  refine applyMutations_invariant (P := fun aft => ∃ w', LoggedTo w aft.watch w') h
    (fun m hm _ _ _ hn hb => ?_) ⟨w, .refl, ho, rfl, rfl⟩
  obtain ⟨mi, hss, hi, hd, hc⟩ := hb
  obtain ⟨la, ht, hl, ha, hla⟩ :=
    (applyClusterMutation_effects hn).logged (hs m hm) hi (by rwa [hc])
  exact ⟨la, hss.trans ht, hl, ha.trans hd, hla.trans hc⟩

theorem stampMutation_stamped (ps : Bool) (h : mu.Stamped 0) : (stampMutation c version ps mu).Stamped version := by
  cases mu with
  | putWatchEvent r =>
    obtain ⟨hn, h0⟩ := h r rfl
    intro event he
    cases he
    exact ⟨hn, if_pos h0⟩
  | _ =>
    intro event he
    cases he

variable {e : LogApplyCommit}

/-! ## Committed entries -/

theorem Resolved.provisional {db : ClusterDb} {r : ApplyCommit} {d : OutboxWatermarkDecision}
    (h : Resolved p db e.live d r) (hl : ApplyCommit.fromLive e = .ok e.live)
    (hi : ∀ rw, .putWatchEvent rw ∈ e.mutations → rw.eventId = none) :
    ∀ m ∈ r.mutations, m.Stamped 0 := by
  rintro m hm rw rfl
  refine ⟨?_, (h.versioned (.inl (fromLive_resourceVersion hl)) (versioned_of_live hl) _ hm).event rw rfl⟩
  rcases h.mem hm with hn | hfin
  · exact hi rw hn
  · cases hfin with
    | event hd => exact hd

theorem le_applyEntry (p : ApplyPolicies) (c : TransactionContext) (db : ClusterDb) (e : LogApplyCommit) :
    db.resourceVersion ≤ (applyEntry p c db e).resourceVersion := by
  cases hw : writesAgain p c db e with
  | true =>
    obtain ⟨d', ou, ho, hv⟩ := applyForRaft_of_writesAgain hw
    rw [applyEntry_of_ok ho]
    omega
  | false => exact le_of_eq (congrArg PublicState.resourceVersion (applyEntry_publicState_iff.2 hw)).symm

theorem applyEntry_logged (hi : ∀ r, .putWatchEvent r ∈ e.mutations → r.eventId = none) :
    ∃ w', LoggedTo w (applyEntry p c w.db e).tables.watch w' := by
  have he := applyEntry_run p c w.db e
  generalize (applyEntry p c w.db e).tables = tables at he
  cases he with
  | ledger ap => exact ⟨w, .refl, rfl, rfl, rfl⟩
  | @applied rslv bo tables pend hl hr hb hu ap =>
    have h0 := fromLive_resourceVersion hl
    by_cases hd : doesNotAdvancePublicRv rslv.mutations
    · -- ledger rows leave the log
      rw [← stamp_ledgerOnly c w.db] at hd
      obtain ⟨ap, rfl⟩ := applyMutations_ledgerOnly hd hu
      exact ⟨w, .refl, rfl, rfl, rfl⟩
    · -- anything else is stamped above the counter
      have hs : doesNotAdvancePublicRv rslv.mutations = false := by simpa using hd
      have hv := (stamp_of_spends c w.db hs ((hr.resourceVersion_of_spends hs).trans h0)).2
      change ∃ w', LoggedTo w tables.watch w'
      refine applyMutations_logged (fun m hm => ?_) rfl (lt_of_lt_of_eq (Int.lt_succ _) hv.symm) hu
      obtain ⟨mu, ht, rfl⟩ := List.mem_map.1 hm
      exact stampMutation_stamped _ (hr.provisional hl hi mu ht)

theorem applyEntry_step (p : ApplyPolicies) (c : TransactionContext) (w : World) (e : LogApplyCommit)
    (hi : ∀ r, .putWatchEvent r ∈ e.mutations → r.eventId = none) :
    ∃ hs, ∀ t, Accounted t ⟨applyEntry p c w.db e, w.base, hs⟩ → EnvStep t w ⟨applyEntry p c w.db e, w.base, hs⟩ := by
  obtain ⟨lg, hl⟩ := applyEntry_logged hi
  exact ⟨lg.history, fun t ha =>
    .commit hl.steps hl.log.symm rfl rfl (le_applyEntry p c w.db e) ha⟩

theorem applyEntry_kept (hk : LogKept w) (hi : ∀ r, .putWatchEvent r ∈ e.mutations → r.eventId = none) :
    ∃ hs, LogKept ⟨applyEntry p c w.db e, w.base, hs⟩ ∧ Evolves w ⟨applyEntry p c w.db e, w.base, hs⟩ := by
  obtain ⟨lg, hl⟩ := applyEntry_logged (p := p) (c := c) hi
  obtain ⟨⟨asc, iss, rd, cov, ne⟩, he⟩ := logSteps_preserve hl.steps hk
  rw [hl.log] at iss rd cov ne
  exact ⟨lg.history, ⟨asc, iss, rd, cov, ne⟩, rfl, he.history,
    le_of_le_of_eq he.seq (congrArg WatchLog.seq hl.log), le_applyEntry p c w.db e⟩

/-- Along a run of committed entries the events that were ever logged only grow, under new ids and at new versions. The
log holds the newest of them in each scope, and a floor covers every other. -/
theorem committed_run_keeps_log (policies : ApplyPolicies) (context : TransactionContext)
    (entries : List LogApplyCommit)
    (hfresh : ∀ entry ∈ entries, ∀ row, .putWatchEvent row ∈ entry.mutations → row.eventId = none) :
    ∀ {w : World}, LogKept w → ∃ history,
      let after : World := ⟨runEntries policies context w.db entries, w.base, history⟩
      LogKept after ∧ Evolves w after := by
  induction entries with
  | nil => exact fun {w} hk => ⟨w.history, hk, .refl w⟩
  | cons entry entries ih =>
    intro w hk
    obtain ⟨hs, hn, he⟩ := applyEntry_kept (p := policies) (c := context) hk (hfresh entry List.mem_cons_self)
    obtain ⟨history, hend, hrest⟩ := ih (fun entry hm => hfresh entry (List.mem_cons_of_mem _ hm)) hn
    exact ⟨history, hend, he.trans hrest⟩

theorem committed_run_keeps_log_sample : ∃ history,
    let after : World := ⟨runEntries samplePolicies sampleContext .empty [sampleCreate], fun _ => none, history⟩
    LogKept after ∧ Evolves ⟨.empty, fun _ => none, []⟩ after := by
  have hk : LogKept ⟨.empty, fun _ => none, []⟩ := ⟨.nil, nofun, nofun, nofun, nofun⟩
  refine committed_run_keeps_log samplePolicies sampleContext [sampleCreate] (fun entry hm row hr => ?_) hk
  rw [List.mem_singleton.1 hm] at hr
  simp [sampleCreate] at hr

/-! ## Replays -/

open Replay WatchReplayPosition List

/-- A replay that is answered gives what the log of everything would: the events that were collected are all represented
by the cursor, also when the read skips the floors because the cursor covers the counters. -/
theorem durable_replay_no_gap {w : World} (hkept : LogKept w) (hrows : ∀ row ∈ w.history, 0 < row.id ∧
      row.resourceVersion ≤ w.db.resourceVersion ∧ row.ns ≠ some "#cluster") (targets : List DurableWatchTarget)
    (limit : Nat) {position next : WatchReplayPosition} {page : List WatchEventRow}
      (hvalid : position.validate = .ok ())
    (hread : w.log.replayWatchHistory w.db.resourceVersion targets position limit = .ok (.events page next)) :
    page = (w.history.filter fun row => !row.seenAt position && selectedByTargets targets row).take limit := by
  obtain ⟨rfl, hc⟩ : page = w.log.positionedWatchQuery targets position w.log.seq limit ∧
      (position.eventId ≥ w.log.seq ∨ (position.resourceVersionFilterThroughEventId ≥ w.log.seq ∧
        position.resourceVersion ≥ w.db.resourceVersion) ∨ w.log.positionExpired targets position = false) := by
    unfold WatchLog.replayWatchHistory at hread
    grind
  rw [positionedWatchQuery_eq (.inr fun row hm => (hrows row (hkept.recorded row hm)).1)]
  -- both lists are in id order: the same rows are enough
  refine congrArg (take limit) (ext_of_strict unrepresented_ascending (hkept.ascending.filter _) fun row => ?_)
  rw [mem_unrepresented, mem_filter, Bool.and_eq_true, Bool.not_eq_true']
  refine ⟨fun ⟨hm, hn, _, hs⟩ => ⟨hkept.recorded row hm, hn, hs⟩, fun ⟨hm, hn, hs⟩ => ?_⟩
  have hi := hkept.issued row hm
  obtain ⟨hd, hr, -⟩ := hrows row hm
  refine ⟨by_contra fun hg => Bool.eq_false_iff.1 hn ?_, hn, hi, hs⟩
  rcases hc with hc | hc | hc
  · exact representsEvent_iff.2 (.inl (hi.trans hc))
  · exact representsEvent_iff.2 (.inr (.inl ⟨by omega, hi.trans hc.1, hr.trans hc.2⟩))
  · obtain ⟨t, ht, hs⟩ := any_eq_true.1 hs
    have ha : ReplayRetentionBoundary.classifyAll (w.log.targetReplayBoundaries t) position ≠ .expired := by
      simpa using any_eq_false.1 hc t ht
    refine hkept.represented (fun row hm => (hrows row hm).2.2) hvalid ?_ hm hs hg
    cases hx : ReplayRetentionBoundary.classifyAll (w.log.targetReplayBoundaries t) position with
    | available => rfl
    | expired => exact absurd hx ha

theorem durable_replay_no_gap_sample :
    let w : World := ⟨⟨{ Tables.empty with watch := sampleReplayLog }, .empty, 12⟩, fun _ => none,
      sampleReplayLog.events.rows⟩
    let cursor := fromResourceVersion 10
    ∃ page next, w.log.replayWatchHistory 12 sampleReplayTargets cursor 5 = .ok (.events page next) ∧
      page = (w.history.filter fun row => !row.seenAt cursor && selectedByTargets sampleReplayTargets row).take 5 := by
  intro w cursor
  have hk : LogKept w := ⟨by unfold Ascending; decide, by decide, fun _ h => h, fun _ h hn => absurd h hn,
    fun _ _ _ h _ _ => h⟩
  exact ⟨_, _, rfl, durable_replay_no_gap hk (by decide) sampleReplayTargets 5 (by decide) rfl⟩

end Klights.Store
