import Klights.Store.Effects
import Klights.Store.Resolution

/-!
# Status stamps over runs of committed entries

A stamped Pod status write is applied only if no ledger row of its subject has a stamp that is as new. The ledger is the
only record of the stamps, and a collection of expired rows does not look at them.

- `applyMutations_keeps`: a ledger row that every mutation spares is still there after a commit, and so is one the
  commit puts;
- `applyEntry_keeps_stamps`: the step, for an entry that keeps the newest stamp of every subject;
- `status_stamps_increase`: the stamps applied for one subject increase over a run of such entries.
-/

namespace Klights.Store

open Lib LogApplyMutation List Table

/-! ## Rows that stay -/

/-- The same entry of the ledger, whatever answer it holds. -/
structure SameStamp (row other : LogApplyAppliedOutboxRow) : Prop where
  key : row.idempotencyKey = other.idempotencyKey
  subject : row.subjectKey = other.subjectKey
  firstSeen : row.firstSeenMs = other.firstSeenMs
  stamp : row.statusStamp = other.statusStamp

/-- A mutation neither removes a ledger row nor gives it another subject, age or stamp. -/
def LogApplyMutation.spares (row : LogApplyAppliedOutboxRow) : LogApplyMutation → Bool
  | .putAppliedOutbox other =>
    other.idempotencyKey ≠ row.idempotencyKey ||
      (other.subjectKey = row.subjectKey && other.firstSeenMs = row.firstSeenMs && other.statusStamp = row.statusStamp)
  | .deleteAppliedOutbox key => row.idempotencyKey ≠ key
  | .gcAppliedOutbox cutoffMs _ => cutoffMs ≤ row.firstSeenMs
  | _ => true

variable {et : Bool} {row : LogApplyAppliedOutboxRow} {db db' : ClusterDb} {entry en : LogApplyCommit}

section Spared

variable {policies : ApplyPolicies} {v : Int} {t t' : Tables} {mu : LogApplyMutation}
  {mus : List LogApplyMutation} {p : List StagedPostCommit}
  {l : Table LogApplyAppliedOutboxRow.idempotencyKey}

def Recorded (ledger : Table LogApplyAppliedOutboxRow.idempotencyKey) (row : LogApplyAppliedOutboxRow) : Prop :=
  ∃ stored ∈ ledger.rows, SameStamp stored row

theorem recorded_put {pt : LogApplyAppliedOutboxRow} (hs : (LogApplyMutation.putAppliedOutbox pt).spares row)
    (h : Recorded l row ∨ SameStamp pt row) : Recorded (l.put pt) row := by
  by_cases hk : pt.idempotencyKey = row.idempotencyKey
  · -- the row is overwritten by its later self
    simp only [LogApplyMutation.spares, hk, ne_eq, not_true, decide_false, Bool.false_or, Bool.and_eq_true,
      decide_eq_true_eq] at hs
    exact ⟨pt, mem_put.2 (.inl rfl), hk, hs.1.1, hs.1.2, hs.2⟩
  · rcases h with ⟨sto, hi, heq⟩ | heq
    · exact ⟨sto, mem_put.2 (.inr ⟨hi, fun e => hk (e.symm.trans heq.key)⟩), heq⟩
    · exact absurd heq.key hk

theorem recorded_ledgerAfter (hp : mu.spares row)
    (h : Recorded l row ∨ ∃ pt, mu = .putAppliedOutbox pt ∧ SameStamp pt row) :
    Recorded (mu.ledgerAfter l) row := by
  cases mu with
  | putAppliedOutbox pt =>
    refine recorded_put hp (h.imp_right ?_)
    rintro ⟨o, heq, hs⟩
    cases heq
    exact hs
  | deleteAppliedOutbox k =>
    obtain ⟨st, hi, hs⟩ : Recorded l row := h.resolve_right (by simp)
    refine ⟨st, mem_deleteWhere.2 ⟨hi, ?_⟩, hs⟩
    simpa [spares, hs.key] using hp
  | gcAppliedOutbox cu op =>
    obtain ⟨st, hi, hs⟩ : Recorded l row := h.resolve_right (by simp)
    refine ⟨st, mem_deleteWhere.2 ⟨hi, ?_⟩, hs⟩
    simpa [spares, hs.firstSeen] using hp
  | _ => exact h.resolve_right (by simp)

theorem applyMutations_keeps (hs : ∀ m ∈ mus, m.spares row) (h : applyMutations policies v et t mus = .ok (t', p))
    (ho : Recorded t.appliedOutbox row ∨ ∃ pt, LogApplyMutation.putAppliedOutbox pt ∈ mus ∧ SameStamp pt row) :
    Recorded t'.appliedOutbox row := by
  induction mus generalizing t p with
  | nil =>
    cases h
    exact ho.resolve_right (by simp)
  | cons mu tl ih =>
    obtain ⟨next, st, lat, hn, hr⟩ := applyMutations_cons_ok h
    have hl := (applyClusterMutation_effects hn).ledger_subnets.1
    refine ih (fun m hm => hs m (.tail _ hm)) hr ?_
    rw [hl]
    have hh := hs mu (by simp)
    rcases ho with ho | ⟨pt, hput, ha⟩
    · exact .inl (recorded_ledgerAfter hh (.inl ho))
    · rcases mem_cons.1 hput with heq | hput
      · exact .inl (recorded_ledgerAfter hh (.inr ⟨pt, heq.symm, ha⟩))
      · exact .inr ⟨pt, hput, ha⟩

end Spared

/-! ## Commits -/

section Commit

variable {policies : ApplyPolicies} {context : TransactionContext} {cm : ApplyCommit} {a : AppliedCommit}

theorem Resolved.spares {d : OutboxWatermarkDecision} {r : ApplyCommit}
    (h : Resolved policies db cm d r) (hs : ∀ m ∈ cm.mutations, m.spares row) :
    ∀ m ∈ r.mutations, m.spares row := by
  intro m hm
  rcases h.mem hm with hi | hfin
  · exact hs m hi
  · cases hfin <;> rfl

theorem stampMutation_spares (rv : Int) (ps : Bool) (mu : LogApplyMutation) :
    (stampMutation context rv ps mu).spares row = mu.spares row := by
  cases mu <;> rfl

/-- A commit that goes through at a new position keeps the ledger rows it spares, with those it puts. -/
theorem applyCommit_keeps (h : applyCommitInTxWithWatchEvents policies context db cm et = .ok (db', a))
    (hd : outboxWatermarkDecisionInTx db cm.outboxWatermark ≠ .ok .duplicate)
    (hs : ∀ m ∈ cm.mutations, m.spares row) (ho : Recorded db.tables.appliedOutbox row ∨
      ∃ pt, LogApplyMutation.putAppliedOutbox pt ∈ cm.mutations ∧ SameStamp pt row) :
    Recorded db'.tables.appliedOutbox row := by
  obtain ⟨de, rs, hr, -, -, -, hc⟩ := applyCommit_cases h
  have hk : ∀ pt, LogApplyMutation.putAppliedOutbox pt ∈ cm.mutations →
      LogApplyMutation.putAppliedOutbox pt ∈ rs.mutations :=
    fun pt hp => hr.keeps hp (by simp) (by simp)
  rcases hc with ⟨heq, he | rfl⟩ | ⟨-, bo, p, -, hu⟩
  · rw [heq]
    refine ho.resolve_right ?_
    rintro ⟨pt, hp, -⟩
    have hn := hk pt hp
    rw [he] at hn
    cases hn
  · exact absurd hr.decided hd
  · refine applyMutations_keeps (fun m hm => ?_) hu (ho.imp_right ?_)
    · obtain ⟨ori, hi, rfl⟩ := mem_map.1 hm
      rw [stampMutation_spares]
      exact hr.spares hs ori hi
    · rintro ⟨pt, hp, heq⟩
      exact ⟨_, mem_map_of_mem (hk pt hp), heq.key, heq.subject, heq.firstSeen, heq.stamp⟩

theorem outboxTemplate_mem {tl : LogApplyAppliedOutboxRow} (h : en.outboxTemplate = some tl) :
    LogApplyMutation.putAppliedOutbox tl ∈ en.mutations := by
  obtain ⟨mu, hi, hr⟩ := exists_of_findSome?_eq_some h
  cases mu with
  | putAppliedOutbox pu =>
    cases hr
    exact hi
  | _ => cases hr

theorem storeFinalizationReceipt_keeps (h : storeFinalizationReceipt context db en.outboxTemplate a = .ok db')
    (hs : ∀ m ∈ en.mutations, m.spares row) (hr : Recorded db.tables.appliedOutbox row) :
    Recorded db'.tables.appliedOutbox row := by
  rcases storeFinalizationReceipt_cases h with rfl | ⟨tm, fo, pr, hm, hf, rfl⟩
  · exact hr
  refine recorded_put ?_ (.inl hr)
  have ht := hs _ (outboxTemplate_mem hm)
  have ho : fo.idempotencyKey = tm.idempotencyKey := find_key hf
  simp only [spares, Bool.or_eq_true, decide_eq_true_eq, Bool.and_eq_true, ho] at ht ⊢
  rcases ht with hne | heq
  · exact .inl hne
  · by_cases hk : tm.idempotencyKey = row.idempotencyKey
    · -- the row that is found is the one that stays
      obtain ⟨stored, hi, hst⟩ := hr
      have hu : db.tables.appliedOutbox.find tm.idempotencyKey = some stored :=
        find_eq_some_iff.2 ⟨hi, by rw [hst.key, hk]⟩
      cases hf.symm.trans hu
      exact .inr ⟨⟨heq.1.1, hst.firstSeen⟩, heq.2⟩
    · exact .inl hk

end Commit

/-! ## Entries -/

def CommittedApplyOutcome.isApplied : CommittedApplyOutcome → Bool
  | .visible _ _ => true
  | .noPublicChange _ reason => reason = .ledgerOnly
  | .rejected _ => false

def LogApplyCommit.ledgerRows (entry : LogApplyCommit) : List LogApplyAppliedOutboxRow :=
  entry.mutations.filterMap LogApplyMutation.appliedOutboxRow

/-- An entry whose key is not in the ledger yet leaves, for every stamp in the ledger and every stamp it brings, a row
of the same subject with a stamp that is at least as new. -/
def KeepsNewestStamps (db : ClusterDb) (entry : LogApplyCommit) : Prop :=
  recordedRow db entry = none → ∀ row ∈ db.tables.appliedOutbox.rows ++ entry.ledgerRows, ∀ stamp ∈ row.statusStamp,
      ∃ kept ∈ db.tables.appliedOutbox.rows ++ entry.ledgerRows,
        kept.subjectKey = row.subjectKey ∧ kept.statusStamp.any (stamp ≤ ·) = true ∧
          entry.mutations.all (LogApplyMutation.spares kept) = true

instance (db : ClusterDb) (entry : LogApplyCommit) : Decidable (KeepsNewestStamps db entry) :=
  inferInstanceAs (Decidable (_ → _))

section Entry

variable (policies : ApplyPolicies) (context : TransactionContext)

def appliedStatusWrite (db : ClusterDb) (entry : LogApplyCommit) : Option (String × Int) :=
  match applyCommitInTxForRaftWithContext policies context db entry with
  | .ok (_, outcome) => if outcome.committedOutcome.isApplied then stampedPodStatusSubjectAndStamp entry else none
  | .error _ => none

def appliedStatusWrites : ClusterDb → List LogApplyCommit → List (String × Int)
  | _, [] => []
  | db, entry :: rest => (appliedStatusWrite policies context db entry).toList ++
      appliedStatusWrites (applyEntry policies context db entry) rest

def RunKeepsNewestStamps : ClusterDb → List LogApplyCommit → Prop
  | _, [] => True
  | db, entry :: rest =>
    KeepsNewestStamps db entry ∧ RunKeepsNewestStamps (applyEntry policies context db entry) rest

variable {policies context} {out : RaftLogApplyOutcome} {s : String} {stamp : Int}

theorem stampedPodStatus_row (h : stampedPodStatusSubjectAndStamp en = some (s, stamp)) :
    0 < stamp ∧ ∃ row ∈ en.ledgerRows, row.subjectKey = s ∧ row.statusStamp = some stamp := by
  obtain ⟨mu, hi, h⟩ := exists_of_findSome?_eq_some h
  split at h
  · rename_i pu
    split at h
    · rename_i fo hf
      split at h
      · rename_i he
        obtain ⟨rfl, rfl⟩ := Prod.mk.inj (Option.some.inj h)
        exact ⟨he.1, pu, mem_filterMap.2 ⟨_, hi, rfl⟩, rfl, hf⟩
      · cases h
    · cases h
  · cases h

/-- A stamp that is not stale is newer than every stamp its subject has in the ledger. -/
theorem lt_of_not_stale (hl : staleStamp db en = none)
    (hw : stampedPodStatusSubjectAndStamp en = some (s, stamp)) (hr : row ∈ db.tables.appliedOutbox.rows)
    (hu : row.subjectKey = s) {o : Int} (ho : row.statusStamp = some o) : o < stamp := by
  have hpos : 0 < stamp := (stampedPodStatus_row hw).1
  have hi : o ∈ (db.tables.appliedOutbox.rows.filter fun row => row.subjectKey = s).filterMap
      LogApplyAppliedOutboxRow.statusStamp :=
    mem_filterMap.2 ⟨row, mem_filter.2 ⟨hr, by simpa using hu⟩, ho⟩
  obtain ⟨last, ha⟩ : ∃ last, lastAppliedStamp db s = some last := by
    cases hm : lastAppliedStamp db s with
    | none =>
      rw [max?_eq_none_iff.1 hm] at hi
      cases hi
    | some last => exact ⟨last, rfl⟩
  have hle : o ≤ last := (max?_eq_some_iff.1 ha).2 o hi
  simp only [staleStamp, hw, ha, decideStatusStamp] at hl
  by_contra hn
  simp [hpos, show stamp ≤ last by omega] at hl

/-- What an entry that went through leaves of the ledger: all of it, with no status write applied, or what its mutations
spare, with the rows it puts. -/
theorem raftApplied_ledger (h : RaftApplied policies context db en db' out) :
    ((∀ row ∈ db.tables.appliedOutbox.rows, row ∈ db'.tables.appliedOutbox.rows) ∧
      (out.committedOutcome.isApplied = false ∨ en.mutations = [])) ∨
    (recordedRow db en = none ∧ (out.committedOutcome.isApplied → staleStamp db en = none) ∧
      ∀ row, (∀ m ∈ en.mutations, m.spares row) → (Recorded db.tables.appliedOutbox row ∨
          ∃ pt, LogApplyMutation.putAppliedOutbox pt ∈ en.mutations ∧ SameStamp pt row) →
        Recorded db'.tables.appliedOutbox row) := by
  cases h with
  | empty hu _ => exact .inl ⟨fun _ hr => hr, .inr hu⟩
  | answered hr ha =>
    refine .inl ⟨fun _ hr => hr, .inl ?_⟩
    rcases answerFromLedger_cases ha with ⟨_, ho⟩ | ⟨_, -, ho⟩ <;> exact ho ▸ rfl
  | duplicate hr hd ho =>
    refine .inl ⟨fun _ hr => hr, .inl ?_⟩
    rw [ho]
    rfl
  | stale hr hd ht he =>
    obtain ⟨l, a, re, -, hap, ho, hre⟩ := recordStaleStamp_ok he
    have hn : out.committedOutcome.isApplied = false := by
      rcases hre with rfl | rfl <;> exact ho ▸ rfl
    refine .inr ⟨hr, fun hy => absurd hy (by simp [hn]), fun row hs hc => ?_⟩
    refine applyCommit_keeps hap hd (fun m hm => hs m (mem_of_mem_filter hm)) ?_
    refine hc.imp_right ?_
    rintro ⟨pt, hpu, heq⟩
    exact ⟨pt, mem_filter.2 ⟨hpu, rfl⟩, heq⟩
  | attempted hpo hr hd ht hat =>
    obtain ⟨li, hl, hcs⟩ := attemptCommit_cases hat
    obtain rfl := fromLive_ok hl
    rcases hcs with ⟨aft, a, hap, hf⟩ | ⟨co, ms, -, rfl, ho⟩
    · refine .inr ⟨hr, fun _ => ht, fun row hs hc => ?_⟩
      have haf := applyCommit_keeps hap hd hs hc
      exact storeFinalizationReceipt_keeps (finishAttempt_cases hf).1 hs haf
    · refine .inl ⟨fun row hi => ?_, .inl (by rw [ho]; rfl)⟩
      -- the key of a rejected entry is new, so no row is overwritten
      unfold recordRejection
      cases hp : en.outboxTemplate with
      | none => simpa using hi
      | some tm =>
        have hfr : db.tables.appliedOutbox.find tm.idempotencyKey = none := by
          simpa [recordedRow, hp] using hr
        simp only [upsertOutboxWatermark_tables, putAppliedOutbox]
        exact mem_put.2 (.inr ⟨hi, find_eq_none_iff.1 hfr row hi⟩)

def HasStamp (db : ClusterDb) (subject : String) (stamp : Int) : Prop :=
  ∃ row ∈ db.tables.appliedOutbox.rows, row.subjectKey = subject ∧ ∃ newer, row.statusStamp = some newer ∧ stamp ≤ newer

theorem hasStamp_of_kept (hkp : KeepsNewestStamps db en) (hf : recordedRow db en = none)
    (hl : ∀ row, (∀ m ∈ en.mutations, m.spares row) → (Recorded db.tables.appliedOutbox row ∨
        ∃ pt, LogApplyMutation.putAppliedOutbox pt ∈ en.mutations ∧ SameStamp pt row) →
      Recorded db'.tables.appliedOutbox row) (hr : row ∈ db.tables.appliedOutbox.rows ++ en.ledgerRows)
    (ht : row.statusStamp = some stamp) : HasStamp db' row.subjectKey stamp := by
  obtain ⟨kept, hk, hs, hn, hp⟩ := hkp hf row hr stamp ht
  have he : Recorded db'.tables.appliedOutbox kept := by
    refine hl kept (by simpa using hp) ?_
    rcases mem_append.1 hk with hin | hin
    · exact .inl ⟨kept, hin, rfl, rfl, rfl, rfl⟩
    · obtain ⟨mu, hm, hu⟩ := mem_filterMap.1 hin
      cases mu with
      | putAppliedOutbox pt =>
        obtain rfl := Option.some.inj hu
        exact .inr ⟨pt, hm, rfl, rfl, rfl, rfl⟩
      | _ => cases hu
  obtain ⟨st, hin, heq⟩ := he
  cases hv : kept.statusStamp with
  | none => simp [hv] at hn
  | some ne =>
    exact ⟨st, hin, heq.subject.trans hs, ne, heq.stamp.trans hv, by simpa [hv] using hn⟩

theorem applyEntry_keeps_stamps (hp : KeepsNewestStamps db en) (ho : HasStamp db s stamp) :
    HasStamp (applyEntry policies context db en) s stamp := by
  obtain ⟨row, hr, rfl, nr, hn, hle⟩ := ho
  cases hk : applyCommitInTxForRaftWithContext policies context db en with
  | error er =>
    rw [show applyEntry policies context db en = db by simp only [applyEntry, hk]]
    exact ⟨row, hr, rfl, nr, hn, hle⟩
  | ok re =>
    obtain ⟨db', out⟩ := re
    rw [applyEntry_of_ok hk]
    rcases raftApplied_ledger (applyForRaft_cases hk) with ⟨ha, -⟩ | ⟨hf, -, hl⟩
    · exact ⟨row, ha row hr, rfl, nr, hn, hle⟩
    · obtain ⟨lat, hi, hs, ne, he, hle'⟩ :=
        hasStamp_of_kept hp hf hl (mem_append_left _ hr) hn
      exact ⟨lat, hi, hs, ne, he, hle.trans hle'⟩

/-- An applied status write is newer than the ledger, and the ledger has its stamp afterwards. -/
theorem appliedStatusWrite_spec (hp : KeepsNewestStamps db en)
    (h : appliedStatusWrite policies context db en = some (s, stamp)) :
    (∀ o, HasStamp db s o → o < stamp) ∧ HasStamp (applyEntry policies context db en) s stamp := by
  unfold appliedStatusWrite at h
  cases hk : applyCommitInTxForRaftWithContext policies context db en with
  | error er => simp only [hk] at h; cases h
  | ok re =>
    obtain ⟨db', out⟩ := re
    rw [applyEntry_of_ok hk]
    simp only [hk] at h
    split at h
    · rename_i ha
      obtain ⟨-, row, hr, rfl, ht⟩ := stampedPodStatus_row h
      rcases raftApplied_ledger (applyForRaft_cases hk) with ⟨-, hn | hemp⟩ | ⟨hf, hsl, hl⟩
      · rw [hn] at ha
        cases ha
      · simp [LogApplyCommit.ledgerRows, hemp] at hr
      · refine ⟨fun o ho => ?_, hasStamp_of_kept hp hf hl (mem_append_right _ hr) ht⟩
        obtain ⟨st, hi, hs, ne, he, hle⟩ := ho
        exact lt_of_le_of_lt hle (lt_of_not_stale (hsl ha) h hi hs he)
    · cases h

/-- Over a run, every applied write is newer than what the ledger had at the start. -/
theorem appliedStatusWrites_newer {es : List LogApplyCommit}
    (hp : RunKeepsNewestStamps policies context db es) {o : Int} (ho : HasStamp db s o) :
    ∀ wr ∈ appliedStatusWrites policies context db es, wr.1 = s → o < wr.2 := by
  induction es generalizing db with
  | nil => simp [appliedStatusWrites]
  | cons en tl ih =>
    rintro ⟨_, ne⟩ hw rfl
    rcases mem_append.1 hw with hh | htl
    · exact (appliedStatusWrite_spec hp.1 (Option.mem_toList.1 hh)).1 o ho
    · exact ih hp.2 (applyEntry_keeps_stamps hp.1 ho) _ htl rfl

/-- If every entry keeps the newest stamp of every subject in the ledger, the status writes a run applies for one
subject have increasing stamps. -/
theorem status_stamps_increase (policies : ApplyPolicies) (context : TransactionContext) (db : ClusterDb)
    (entries : List LogApplyCommit) (hkeeps : RunKeepsNewestStamps policies context db entries) :
    (appliedStatusWrites policies context db entries).Pairwise fun earlier later =>
      earlier.1 = later.1 → earlier.2 < later.2 := by
  induction entries generalizing db with
  | nil => exact List.Pairwise.nil
  | cons entry tl ih =>
    have ht := ih (applyEntry policies context db entry) hkeeps.2
    rw [appliedStatusWrites]
    cases hh : appliedStatusWrite policies context db entry with
    | none => exact ht
    | some wr =>
      refine pairwise_cons.2 ⟨fun later hl hs => ?_, ht⟩
      exact appliedStatusWrites_newer hkeeps.2 (appliedStatusWrite_spec hkeeps.1 hh).2 later hl hs.symm

end Entry

/-! ## Runs of one Pod -/

def samplePodKey : ResourceKey := ⟨"v1", "Pod", some "default", "web"⟩

def samplePodCreate : LogApplyCommit where
  mutations := [.putResource {
    key := samplePodKey
    uid := "web-uid"
    resourceVersion := 0
    data := .obj [("metadata", .obj [("uid", .str "web-uid")])]
    requireAbsent := true }]

def sampleStatusWrite (idempotencyKey phase : String) (stamp firstSeenMs : Int) : LogApplyCommit where
  mutations := [ .putResource {
      key := samplePodKey
      uid := "web-uid"
      resourceVersion := 0
      data := .obj [("status", .obj [("phase", .str phase)])]
      statusOnly := true },
    .putAppliedOutbox {
      idempotencyKey := idempotencyKey
      subjectKey := "pod/default/web"
      operation := "PodStatus"
      firstSeenMs := firstSeenMs
      appliedRv := none
      resultProto := []
      statusStamp := some stamp }]

def sampleLedgerGc (cutoffMs : Int) : LogApplyCommit where
  mutations := [.gcAppliedOutbox cutoffMs []]

def samplePodPhase (db : ClusterDb) : Option String :=
  (db.tables.resources.find samplePodKey).bind fun row =>
    match decodeJson row.data with
    | .ok data => data.strAt ["status", "phase"]
    | .error _ => none

theorem status_stamps_increase_web :
    let entries := [samplePodCreate, sampleStatusWrite "k1" "Running" 20 100, sampleLedgerGc 50,
      sampleStatusWrite "k2" "Pending" 10 150, sampleStatusWrite "k3" "Succeeded" 30 200]
    (appliedStatusWrites samplePolicies sampleContext .empty entries).Pairwise (fun prev lat =>
      prev.1 = lat.1 → prev.2 < lat.2) ∧
    appliedStatusWrites samplePolicies sampleContext .empty entries =
      [("pod/default/web", 20), ("pod/default/web", 30)] :=
  ⟨status_stamps_increase samplePolicies sampleContext .empty _
    ⟨by decide +kernel, by decide +kernel, by decide +kernel, by decide +kernel, by decide +kernel, trivial⟩,
    by decide +kernel⟩

/-- Once the row with the newest stamp has expired, an older status write is applied over the newer one. -/
theorem expired_stamp_is_overwritten :
    let entries := [samplePodCreate, sampleStatusWrite "k1" "Running" 20 100, sampleLedgerGc 200,
      sampleStatusWrite "k2" "Pending" 10 250]
    appliedStatusWrites samplePolicies sampleContext .empty entries =
      [("pod/default/web", 20), ("pod/default/web", 10)] ∧
    samplePodPhase ((entries.take 2).foldl (applyEntry samplePolicies sampleContext) .empty) = some "Running" ∧
    samplePodPhase (entries.foldl (applyEntry samplePolicies sampleContext) .empty) = some "Pending" := by
  decide +kernel

end Klights.Store
