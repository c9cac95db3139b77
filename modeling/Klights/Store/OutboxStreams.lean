import Klights.Store.Resolution

/-!
# Outbox streams over runs of committed entries

A node numbers the commands of a stream; the committed apply decides each number once and in order.

- an entry decided at its position follows the last one (`Decided.streamSeq_eq`, from `applyCommit_apply` and
  `applyCommit_conflict`);
- `applyEntry_lastSeq` is the step: a decided entry moves its own stream by one, every other entry moves none;
- an entry beyond the next position changes nothing (`applyEntry_gap`);
- the stored position after an entry reaches the entry's own, unless its key is answered from the ledger ahead of the
  stream (`advanced_of_applied`).
-/

namespace Klights.Store

open Lib LogApplyMutation List

variable {db' : ClusterDb} {entry : LogApplyCommit} {outcome o : RaftLogApplyOutcome}

/-! ## Positions that apply -/

section Positions

variable {policies : ApplyPolicies} {context : TransactionContext} {db : ClusterDb} {cm : ApplyCommit} {et : Bool}
  {applied : AppliedCommit}

theorem applyCommit_apply (h : applyCommitInTxWithWatchEvents policies context db cm et = .ok (db', applied))
    (hl : cm.mutations.any isPutAppliedOutbox)
    (hdu : outboxWatermarkDecisionInTx db cm.outboxWatermark ≠ .ok .duplicate) :
    outboxWatermarkDecisionInTx db cm.outboxWatermark = .ok .apply := by
  obtain ⟨de, rs, hr, -, -, -, hc⟩ := applyCommit_cases h
  rw [hr.decided]
  cases de with
  | apply => rfl
  | duplicate => exact absurd hr.decided hdu
  | gap la ne =>
    rcases hc with ⟨-, he | hcon⟩ | ⟨hcon, -⟩
    · -- the ledger row is still there, so the commit is not its position alone
      obtain ⟨r, hro, hp⟩ := any_eq_true.1 hl
      have hf := hr.keeps hro (fun _ heq => by rw [heq] at hp; cases hp) (fun _ heq => by rw [heq] at hp; cases hp)
      rw [he] at hf
      cases hf
    · cases hcon
    · cases hcon

theorem applyCommit_conflict {c : ApplyConflictCode} {m : String}
    (h : applyCommitInTxWithWatchEvents policies context db cm et = .error (.conflict c m)) :
    outboxWatermarkDecisionInTx db cm.outboxWatermark = .ok .apply := by
  unfold applyCommitInTxWithWatchEvents at h
  split at h
  · cases h
  · rcases bind_eq_error.1 h with hb | ⟨mus, -, h⟩
    · cases resolveBound_error hb
    · rcases bind_eq_error.1 h with hdec | ⟨dec, hdec, h⟩
      · -- an invalid position is no conflict
        unfold outboxWatermarkDecisionInTx at hdec
        split at hdec
        · obtain ⟨_, -, ho⟩ := mapError_eq_error.1 hdec
          cases ho
        · obtain ⟨_, -, ho⟩ := mapError_eq_error.1 hdec
          cases ho
      · rw [hdec]
        cases dec with
        | apply => rfl
        | duplicate | gap =>
          rcases bind_eq_error.1 h with hp | ⟨rslv, -, h⟩
          · cases hp
          · simp only at h
            split at h <;> cases h

theorem any_isPutAppliedOutbox {m : List LogApplyMutation} :
    (m.findSome? appliedOutboxRow).isSome ↔ m.any isPutAppliedOutbox := by
  induction m with
  | nil => simp
  | cons mu tl ih => cases mu <;> simp_all [appliedOutboxRow, isPutAppliedOutbox]

/-- An entry beyond the ledger and the duplicates is decided: how it ended, and what it left of the positions. -/
structure Decided (policies : ApplyPolicies) (context : TransactionContext) (db : ClusterDb) (entry : LogApplyCommit)
    (db' : ClusterDb) (outcome : RaftLogApplyOutcome) : Prop where
  fresh : recordedRow db entry = none
  outcome : ∀ resourceVersion, outcome.committedOutcome ≠ .noPublicChange resourceVersion .duplicateWatermark
  watermarks : db'.watermarks = (db.upsertOutboxWatermark entry.outboxWatermark).watermarks
  apply : entry.outboxTemplate.isSome = true → outboxWatermarkDecisionInTx db entry.outboxWatermark = .ok .apply

section

variable (hro : recordedRow db entry = none)
  (hdu : outboxWatermarkDecisionInTx db entry.outboxWatermark ≠ .ok .duplicate)
include hro hdu

theorem attemptCommit_decided {p : Option Json} (h : attemptCommit policies context db entry p = .ok (db', outcome)) :
    Decided policies context db entry db' outcome := by
  obtain ⟨live, hl, hs⟩ := attemptCommit_cases h
  obtain rfl := fromLive_ok hl
  rcases hs with ⟨after, applied, ha, hf⟩ | ⟨code, msg, hc, rfl, hout⟩
  · obtain ⟨appliedOutbox, rfl⟩ := finishAttempt_ok hf
    refine ⟨hro, fun rv => ?_, applyCommit_watermarks ha hdu, fun ht => ?_⟩
    · rcases (finishAttempt_cases hf).2 with ⟨res, hout⟩ | hout <;> simp [hout]
    · exact applyCommit_apply ha (any_isPutAppliedOutbox.1 ht) hdu
  · obtain ⟨appliedOutbox, heq, -⟩ := recordRejection_eq context db entry (DbError.conflict code msg).display
    refine ⟨hro, fun rv => ?_, by rw [heq], fun _ => applyCommit_conflict hc⟩
    rw [hout]
    simp

theorem recordStaleStamp_decided {l i : Int} {e : PodEndpointEffect}
    (h : recordStaleStamp policies context db entry l i e = .ok (db', outcome)) :
    Decided policies context db entry db' outcome := by
  obtain ⟨led, applied, reason, -, ha, ho, hr⟩ := recordStaleStamp_ok h
  refine ⟨hro, fun rv => ?_, applyCommit_watermarks ha hdu, fun ht => ?_⟩
  · rcases hr with rfl | rfl <;> simp [ho]
  · -- the ledger rows are all that is left of the commit
    refine applyCommit_apply ha ?_ hdu
    obtain ⟨row, hro, hp⟩ := any_eq_true.1 (any_isPutAppliedOutbox.1 ht)
    exact any_eq_true.2 ⟨row, mem_filter.2 ⟨hro, hp⟩, hp⟩

end

end Positions

/-! ## Decided entries -/

section Runs

variable (policies : ApplyPolicies) (context : TransactionContext)

def isDuplicateWatermark : CommittedApplyOutcome → Bool
  | .noPublicChange _ .duplicateWatermark => true
  | _ => false

/-- An entry is decided when it is applied, recorded as ledger-only or rejected for good: it succeeds, its key is not
answered from the ledger, and its position is no duplicate. -/
def isDecided (db : ClusterDb) (entry : LogApplyCommit) : Bool :=
  match applyCommitInTxForRaftWithContext policies context db entry with
  | .ok (_, outcome) => (recordedRow db entry).isNone && !isDuplicateWatermark outcome.committedOutcome
  | .error _ => false

def streamSeq (entry : LogApplyCommit) (clientId : String) (streamId : Int) : Option Int :=
  entry.outboxWatermark.bind fun watermark =>
    if watermark.clientId = clientId ∧ watermark.streamId = streamId then some watermark.streamSeq else none

def decidedSeq (db : ClusterDb) (entry : LogApplyCommit) (clientId : String) (streamId : Int) : Option Int :=
  if isDecided policies context db entry then streamSeq entry clientId streamId else none

def runEntries (db : ClusterDb) (entries : List LogApplyCommit) : ClusterDb :=
  entries.foldl (applyEntry policies context) db

def decidedSeqs (clientId : String) (streamId : Int) : ClusterDb → List LogApplyCommit → List Int
  | _, [] => []
  | db, entry :: rest => (decidedSeq policies context db entry clientId streamId).toList ++
      decidedSeqs clientId streamId (applyEntry policies context db entry) rest

/-- As the outbox commit builder guarantees: an entry with a position carries its ledger row. -/
def CarriesLedgerRow (entry : LogApplyCommit) : Prop :=
  entry.outboxWatermark.isSome = true → entry.outboxTemplate.isSome = true

instance (entry : LogApplyCommit) : Decidable (CarriesLedgerRow entry) :=
  inferInstanceAs (Decidable (_ → _))

section Step

variable {policies context} {db : ClusterDb}

theorem Decided.isDecided (h : Decided policies context db entry db' o)
    (hk : applyCommitInTxForRaftWithContext policies context db entry = .ok (db', o)) :
    isDecided policies context db entry := by
  unfold Store.isDecided
  rw [hk]
  simp only [h.fresh, Option.isNone_none, Bool.true_and, Bool.not_eq_true']
  have hne := h.outcome
  cases ho : o.committedOutcome with
  | noPublicChange rv re =>
    cases re with
    | duplicateWatermark => exact absurd ho (hne rv)
    | _ => rfl
  | _ => rfl

theorem decided_or_unchanged (hk : applyCommitInTxForRaftWithContext policies context db entry = .ok (db', o)) :
    Decided policies context db entry db' o ∨
      (db' = db ∧ (entry.outboxWatermark = none ∨ isDecided policies context db entry = false)) := by
  cases applyForRaft_cases hk with
  | empty hu hm => exact .inr ⟨rfl, .inl hm⟩
  | answered hro hn =>
    refine .inr ⟨rfl, .inr ?_⟩
    simp [isDecided, hk, hro]
  | duplicate hro hd ho =>
    refine .inr ⟨rfl, .inr ?_⟩
    simp [isDecided, hk, ho, isDuplicateWatermark]
  | stale hro hd hs hr => exact .inl (recordStaleStamp_decided hro hd hr)
  | attempted hp hro hd hs ha => exact .inl (attemptCommit_decided hro hd ha)

theorem Decided.streamSeq_eq (h : Decided policies context db entry db' o) (hl : CarriesLedgerRow entry)
    {watermark : OutboxStreamWatermark} (ha : entry.outboxWatermark = some watermark) :
    watermark.streamSeq = (db.lastSeq watermark.clientId watermark.streamId).getD 0 + 1 := by
  have hp := h.apply (hl (by rw [ha]; rfl))
  rw [ha] at hp
  exact decideOutboxWatermark_apply (mapError_eq_ok.1 hp)

variable (policies context db) in
theorem applyEntry_lastSeq (hl : CarriesLedgerRow entry) (c : String) (streamId : Int) :
    let after := (applyEntry policies context db entry).lastSeq c streamId
    match decidedSeq policies context db entry c streamId with
    | some se => se = (db.lastSeq c streamId).getD 0 + 1 ∧ after = some se
    | none => after = db.lastSeq c streamId := by
  intro after
  cases ho : applyCommitInTxForRaftWithContext policies context db entry with
  | error er => simp [after, decidedSeq, isDecided, applyEntry, ho]
  | ok re =>
    obtain ⟨db', o⟩ := re
    have ha : after = db'.lastSeq c streamId := by simp [after, applyEntry, ho]
    rw [ha]
    rcases decided_or_unchanged ho with hd | ⟨rfl, heq⟩
    · simp only [decidedSeq, hd.isDecided ho, if_true]
      rw [lastSeq_congr hd.watermarks]
      cases hm : entry.outboxWatermark with
      | none => simp [streamSeq, hm, ClusterDb.upsertOutboxWatermark]
      | some wm =>
        simp only [streamSeq, hm, Option.bind_some, lastSeq_upsertOutboxWatermark]
        by_cases hs : wm.clientId = c ∧ wm.streamId = streamId
        · simp only [hs, and_self, if_true]
          obtain ⟨rfl, rfl⟩ := hs
          exact ⟨hd.streamSeq_eq hl hm, trivial⟩
        · simp [if_neg hs]
    · have hn : decidedSeq policies context db' entry c streamId = none := by
        unfold decidedSeq
        rcases heq with hm | hnot
        · simp [streamSeq, hm]
        · simp [hnot]
      rw [hn]

theorem applyEntry_gap (hl : CarriesLedgerRow entry) {watermark : OutboxStreamWatermark}
    (ha : entry.outboxWatermark = some watermark)
    (hg : (db.lastSeq watermark.clientId watermark.streamId).getD 0 + 1 < watermark.streamSeq) :
    applyEntry policies context db entry = db := by
  unfold applyEntry
  cases ho : applyCommitInTxForRaftWithContext policies context db entry with
  | error er => rfl
  | ok re =>
    obtain ⟨db', o⟩ := re
    rcases decided_or_unchanged ho with hd | ⟨rfl, -⟩
    · have hs := hd.streamSeq_eq hl ha
      omega
    · rfl

/-- The run: the decided numbers of a stream follow its stored position one by one, and move it to the last. -/
theorem decidedSeqs_eq (c : String) (s : Int) (es : List LogApplyCommit) (db : ClusterDb)
    (hl : ∀ entry ∈ es, CarriesLedgerRow entry) :
    let first := (db.lastSeq c s).getD 0
    ∃ co : Nat, ((runEntries policies context db es).lastSeq c s).getD 0 = first + co ∧
      decidedSeqs policies context c s db es = (List.range co).map fun i : Nat => first + i + 1 := by
  induction es generalizing db with
  | nil => exact ⟨0, by simp [runEntries], rfl⟩
  | cons entry rest ih =>
    have hs := applyEntry_lastSeq policies context db (hl entry mem_cons_self) c s
    obtain ⟨co, hla, he⟩ := ih (applyEntry policies context db entry)
      fun lat ha => hl lat (mem_cons_of_mem _ ha)
    have hr : runEntries policies context db (entry :: rest) =
        runEntries policies context (applyEntry policies context db entry) rest := rfl
    simp only [hr, decidedSeqs]
    cases hq : decidedSeq policies context db entry c s with
    | none =>
      simp only [hq] at hs
      rw [hs] at hla he
      exact ⟨co, hla, by rw [he]; rfl⟩
    | some se =>
      simp only [hq] at hs
      obtain ⟨hn, hf⟩ := hs
      rw [hf, Option.getD_some] at hla he
      refine ⟨co + 1, by rw [hla, hn]; omega, ?_⟩
      rw [he, range_succ_eq_map, map_cons, map_map, Option.toList_some, singleton_append]
      refine cons_eq_cons.2 ⟨by rw [hn]; simp, map_congr_left fun i _ => ?_⟩
      simp only [Function.comp_apply, Nat.succ_eq_add_one, hn]
      omega

end Step

/-- Exactly-once, in-order outbox apply: over any run of committed entries, and for every stream, the decided numbers
follow the stored position one by one (from a fresh stream: 1, 2, .., k with k the stored position), the stored
position never decreases, and an entry beyond the next position leaves the whole database as it was. -/
theorem outbox_streams_exactly_once (db : ClusterDb) (entries : List LogApplyCommit)
    (hledger : ∀ entry ∈ entries, CarriesLedgerRow entry) (clientId : String) (streamId : Int) :
    let first := (db.lastSeq clientId streamId).getD 0
    (∃ count : Nat, ((runEntries policies context db entries).lastSeq clientId streamId).getD 0 = first + count ∧
      decidedSeqs policies context clientId streamId db entries = (List.range count).map fun i : Nat => first + i + 1) ∧
    ∀ bef entry aft, entries = bef ++ entry :: aft → let current := runEntries policies context db bef
      (current.lastSeq clientId streamId).getD 0 ≤
        ((applyEntry policies context current entry).lastSeq clientId streamId).getD 0 ∧
      ∀ se, entry.outboxWatermark = some ⟨clientId, streamId, se⟩ →
        (current.lastSeq clientId streamId).getD 0 + 1 < se → applyEntry policies context current entry = current := by
  refine ⟨decidedSeqs_eq clientId streamId entries db hledger, ?_⟩
  rintro bef entry aft rfl
  have he : CarriesLedgerRow entry := hledger entry (by simp)
  refine ⟨?_, fun se hw hg => applyEntry_gap he hw hg⟩
  have hs := applyEntry_lastSeq policies context (runEntries policies context db bef) he clientId streamId
  cases hq : decidedSeq policies context (runEntries policies context db bef) entry clientId streamId with
  | none =>
    simp only [hq] at hs
    rw [hs]
  | some se =>
    simp only [hq] at hs
    rw [hs.2, Option.getD_some, hs.1]
    omega

/-- A numbered command of one stream with its ledger row. -/
def sampleStreamEntry (key : String) (seq : Int) : LogApplyCommit where
  outboxWatermark := some ⟨"node-a", 1, seq⟩
  mutations := [.putKlightsMeta "seen" key, .putAppliedOutbox ⟨key, "", "NodeMetadata", 0, none, [], none⟩]

/-- Number 3 comes too early, number 2 twice. -/
def sampleStreamRun : List LogApplyCommit :=
  [sampleStreamEntry "a" 1, sampleStreamEntry "c" 3, sampleStreamEntry "b" 2, sampleStreamEntry "b" 2]

theorem outbox_streams_exactly_once_sample : (∀ entry ∈ sampleStreamRun, CarriesLedgerRow entry) ∧
    decidedSeqs samplePolicies sampleContext "node-a" 1 .empty sampleStreamRun = [1, 2] ∧
    ∃ count : Nat, ((runEntries samplePolicies sampleContext .empty sampleStreamRun).lastSeq "node-a" 1).getD 0 =
      0 + count ∧ decidedSeqs samplePolicies sampleContext "node-a" 1 .empty sampleStreamRun =
        (List.range count).map fun i : Nat => 0 + (i : Int) + 1 := by
  have hl : ∀ entry ∈ sampleStreamRun, CarriesLedgerRow entry := by decide
  exact ⟨hl, by decide +kernel,
    (outbox_streams_exactly_once samplePolicies sampleContext .empty sampleStreamRun hl "node-a" 1).1⟩

end Runs

/-! ## Streams that do not wedge -/

section Advance

variable {policies : ApplyPolicies} {context : TransactionContext} {db : ClusterDb}
  {watermark wm : OutboxStreamWatermark}

def Advanced (db : ClusterDb) (watermark : OutboxStreamWatermark) : Prop :=
  ∃ last, db.lastSeq watermark.clientId watermark.streamId = some last ∧ watermark.streamSeq ≤ last

/-- A ledger row holds an answer: an error, or the resourceVersion it was applied at. -/
def rowAnswers (context : TransactionContext) (row : LogApplyAppliedOutboxRow) : Bool :=
  match receiptFromAppliedOutbox context row with
  | .ok (appliedRv, errorMessage, _) => errorMessage.isSome || appliedRv.isSome
  | .error _ => false

/-- An entry whose key the ledger already answers while its position is still ahead of the stored one. -/
def answeredAhead (context : TransactionContext) (db : ClusterDb) (entry : LogApplyCommit)
    (watermark : OutboxStreamWatermark) : Bool :=
  (podStateInTx db.tables (podStatusTarget entry)).isOk && entry.validateLiveTemplate.isOk &&
    (recordedRow db entry).any (rowAnswers context) &&
    !(db.lastSeq watermark.clientId watermark.streamId).any fun last => watermark.streamSeq ≤ last

theorem rowAnswers_eq (row : LogApplyAppliedOutboxRow) (e : PodEndpointEffect) :
    (answerFromLedger context row e).isOk = rowAnswers context row := by
  unfold answerFromLedger rowAnswers
  cases receiptFromAppliedOutbox context row with
  | error err => rfl
  | ok rt =>
    obtain ⟨rv, er, re⟩ := rt
    cases er with
    | some ms => rfl
    | none => cases rv <;> rfl

theorem advanced_upsert (db : ClusterDb) (watermark : OutboxStreamWatermark) :
    Advanced (db.upsertOutboxWatermark (some watermark)) watermark :=
  ⟨watermark.streamSeq, by simp [lastSeq_upsertOutboxWatermark], le_rfl⟩

theorem Decided.advanced (h : Decided policies context db entry db' o)
    (ha : entry.outboxWatermark = some watermark) : Advanced db' watermark := by
  obtain ⟨la, hl, hle⟩ := advanced_upsert db watermark
  have heq := h.watermarks
  rw [ha] at heq
  exact ⟨la, by rw [lastSeq_congr heq, hl], hle⟩

theorem advanced_of_applied (hm : entry.outboxWatermark = some wm)
    (hk : applyCommitInTxForRaftWithContext policies context db entry = .ok (db', o)) :
    Advanced db' wm ∨ (db' = db ∧ (recordedRow db entry).any (rowAnswers context) ∧ ¬Advanced db wm) := by
  by_cases ho : Advanced db' wm
  · exact .inl ho
  · right
    cases applyForRaft_cases hk with
    | empty hu hn => rw [hm] at hn; cases hn
    | answered hro ha =>
      refine ⟨rfl, ?_, ho⟩
      rw [hro, Option.any_some, ← rowAnswers_eq, ha]
      rfl
    | duplicate hro hd hou =>
      rw [hm] at hd
      obtain ⟨la, hl, hle⟩ := decideOutboxWatermark_duplicate (mapError_eq_ok.1 hd)
      exact absurd ⟨la, hl, hle⟩ ho
    | stale hro hd hs hr =>
      exact absurd ((recordStaleStamp_decided hro hd hr).advanced hm) ho
    | attempted hp hro hd hs ht =>
      exact absurd ((attemptCommit_decided hro hd ht).advanced hm) ho

theorem not_advanced_iff : (!(db.lastSeq watermark.clientId watermark.streamId).any fun l => watermark.streamSeq ≤ l) ↔
      ¬Advanced db watermark := by
  unfold Advanced
  cases db.lastSeq watermark.clientId watermark.streamId <;> simp

theorem applyForRaft_valid (hk : applyCommitInTxForRaftWithContext policies context db entry = .ok (db', o)) :
    (podStateInTx db.tables (podStatusTarget entry)).isOk ∧ entry.validateLiveTemplate.isOk := by
  obtain ⟨po, hp, h⟩ := bind_eq_ok.1 hk
  obtain ⟨_, hv, -⟩ := bind_eq_ok.1 h
  exact ⟨isOk_iff.2 ⟨po, hp⟩, isOk_iff.2 ⟨_, mapError_eq_ok.1 hv⟩⟩

variable (policies) in
theorem applyForRaft_answered (hm : entry.outboxWatermark = some wm) (h : answeredAhead context db entry wm) :
    ∃ outcome, applyCommitInTxForRaftWithContext policies context db entry = .ok (db, outcome) := by
  simp only [answeredAhead, Bool.and_eq_true] at h
  obtain ⟨⟨⟨hp, hv⟩, hn⟩, -⟩ := h
  obtain ⟨po, hp⟩ := isOk_iff.1 hp
  obtain ⟨_, hv⟩ := isOk_iff.1 hv
  obtain ⟨r, hro, ha⟩ := (Option.any_eq_true _ _).1 hn
  rw [← rowAnswers_eq r (podEndpointEffect (podStatusTarget entry) po po)] at ha
  obtain ⟨outcome, ha⟩ := isOk_iff.1 ha
  refine ⟨outcome, ?_⟩
  unfold applyCommitInTxForRaftWithContext
  simp [hp, hv, hm, hro, ha, bind, Except.bind, Except.mapError, Except.map]

end Advance

/-- An outbox stream does not wedge exactly when the ledger does not answer the entry ahead of its stream: then, and
only then, every outcome that is no error leaves the stored position at the entry's own or beyond. -/
theorem stream_advances_iff (policies : ApplyPolicies) (context : TransactionContext) (db : ClusterDb)
    (resourceVersion : Int) (watermark : OutboxStreamWatermark) (mutations : List LogApplyMutation) :
    let entry : LogApplyCommit := ⟨resourceVersion, some watermark, mutations⟩
    (∀ db' outcome, applyCommitInTxForRaftWithContext policies context db entry = .ok (db', outcome) →
      ∃ last, db'.lastSeq watermark.clientId watermark.streamId = some last ∧ watermark.streamSeq ≤ last) ↔
    answeredAhead context db entry watermark = false := by
  intro entry
  constructor
  · intro hl
    by_contra ha
    have ha : answeredAhead context db entry watermark := by simpa using ha
    obtain ⟨outcome, hk⟩ := applyForRaft_answered policies rfl ha
    simp only [answeredAhead, Bool.and_eq_true] at ha
    exact not_advanced_iff.1 ha.2 (hl db outcome hk)
  · intro ha db' outcome hk
    rcases advanced_of_applied rfl hk with hr | ⟨rfl, hn, ho⟩
    · exact hr
    · obtain ⟨hp, hv⟩ := applyForRaft_valid hk
      have ht : answeredAhead context db' entry watermark := by
        simp [answeredAhead, hp, hv, hn, not_advanced_iff.2 ho, Bool.and_self]
      rw [ha] at ht
      cases ht

/-- The key of number 1 comes back as number 2: it is answered as a duplicate, the stored position stays at 1, and
number 3 is refused as a gap. -/
theorem repeated_key_wedges_stream :
    let db := applyEntry samplePolicies sampleContext .empty (sampleStreamEntry "a" 1)
    (applyCommitInTxForRaftWithContext samplePolicies sampleContext db (sampleStreamEntry "a" 2)).map
        (fun r => (r.2.committedOutcome, r.1.lastSeq "node-a" 1)) =
      .ok (.noPublicChange 1 .duplicateIdempotencyKey, some 1) ∧
    (applyCommitInTxForRaftWithContext samplePolicies sampleContext
        (applyEntry samplePolicies sampleContext db (sampleStreamEntry "a" 2)) (sampleStreamEntry "b" 3)).map
        (fun r => r.2.committedOutcome) =
      .error (.other "outbox stream gap for seq 3: last committed seq is 1") := by
  decide +kernel

end Klights.Store
