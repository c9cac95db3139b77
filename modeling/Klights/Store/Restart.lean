import Klights.Store.OutboxStreams
import Klights.Store.StatusStamps

/-!
# Replaying the last committed entry

A node that crashes between the `cluster.db` transaction and the record of its log id applies the entry again. What the
replicas compare is `PublicState`: resource rows, watch log and resourceVersion counter.

- an entry that writes nothing but ledger rows leaves the public state, and an entry with anything else to write spends
  a resourceVersion (`applyCommit_public`);
- so the replay is invisible exactly when it does not get through to its mutations with anything to write
  (`writesAgain`), which a stream position always prevents
  (`positioned_replay_invisible`, `redelivery_changes_nothing`), and so does a ledger row (`replay_publicState`).
-/

namespace Klights.Store

open Lib LogApplyMutation

/-! ## Public state -/

/-- What is replicated to clients: objects, their history and the resourceVersion counter. -/
structure PublicState where
  resources : Table ResourceRow.key
  namespaces : Table NamespaceRow.name
  watch : WatchLog
  resourceVersion : Int
  deriving DecidableEq

def ClusterDb.publicState (db : ClusterDb) : PublicState :=
  ⟨db.tables.resources, db.tables.namespaces, db.tables.watch, db.resourceVersion⟩

variable {db' : ClusterDb} {e : LogApplyCommit} {o : RaftLogApplyOutcome} {podBefore p : Option Json}

section Ledger

variable {policies : ApplyPolicies} {context : TransactionContext} {db : ClusterDb} {co : ApplyCommit} {et : Bool}
  {applied : AppliedCommit} {r : ApplyCommit} {d : OutboxWatermarkDecision}

theorem recordRejection_publicState (context : TransactionContext) (db : ClusterDb) (e : LogApplyCommit)
    (m : String) : (recordRejection context db e m).publicState = db.publicState := by
  obtain ⟨ap, heq, -⟩ := recordRejection_eq context db e m
  rw [heq]
  simp [ClusterDb.publicState]

theorem finishAttempt_publicState {a : ClusterDb} (h : finishAttempt context db e p a applied = .ok (db', o)) :
    db'.publicState = a.publicState := by
  obtain ⟨ap, rfl⟩ := finishAttempt_ok h
  rfl

/-! ## Resolving and stamping -/

theorem stampMutation_isPutAppliedOutbox (rv : Int) (ps : Bool) (mu : LogApplyMutation) :
    (stampMutation context rv ps mu).isPutAppliedOutbox = mu.isPutAppliedOutbox := by
  cases mu <;> rfl

variable (context db) in
theorem stamp_ledgerOnly : doesNotAdvancePublicRv (stampProvisionalResourceVersionInTx context db r).2.mutations =
      doesNotAdvancePublicRv r.mutations := by
  simp only [doesNotAdvancePublicRv, stampProvisionalResourceVersionInTx, List.all_map]
  congr 1
  funext mutation
  exact stampMutation_isPutAppliedOutbox _ _ mutation

variable (context db) in
theorem stamp_of_ledgerOnly (hl : doesNotAdvancePublicRv r.mutations)
    (hv : r.resourceVersion = 0 ∨ r.resourceVersion = db.resourceVersion) :
    (stampProvisionalResourceVersionInTx context db r).1 = db ∧
      (stampProvisionalResourceVersionInTx context db r).2.resourceVersion = db.resourceVersion := by
  simp only [stampProvisionalResourceVersionInTx, hl, reduceCtorEq, and_false, if_false]
  refine ⟨trivial, ?_⟩
  split
  · rfl
  · rename_i hn
    exact hv.resolve_left hn

variable (context db) in
theorem stamp_of_spends (hw : doesNotAdvancePublicRv r.mutations = false) (hv : r.resourceVersion = 0) :
    (stampProvisionalResourceVersionInTx context db r).1.resourceVersion = db.resourceVersion + 1 ∧
      (stampProvisionalResourceVersionInTx context db r).2.resourceVersion = db.resourceVersion + 1 := by
  simp [stampProvisionalResourceVersionInTx, hw, hv]

section

variable (h : Resolved policies db co d r)
include h

/-- Resolving keeps the resourceVersion of a commit, unless it drops a no-op and leaves ledger rows only. -/
theorem Resolved.resourceVersion : r.resourceVersion = co.resourceVersion ∨
      (r.resourceVersion = db.resourceVersion ∧ doesNotAdvancePublicRv r.mutations) := by
  obtain ⟨-, mutations, -, hr⟩ := h
  rcases resolvePutsFor_cases hr with rfl | ⟨lef, re, -, rfl⟩
  · exact .inl rfl
  · by_cases hd : re ∧ lef.all isPutAppliedOutbox
    · exact .inr ⟨if_pos hd, hd.2⟩
    · exact .inl (if_neg hd)

theorem Resolved.resourceVersion_of_spends (hw : doesNotAdvancePublicRv r.mutations = false) :
    r.resourceVersion = co.resourceVersion := by
  rcases h.resourceVersion with hk | ⟨-, hl⟩
  · exact hk
  · rw [hw] at hl
    cases hl

theorem Resolved.resourceVersion_unspent (hv : co.resourceVersion = 0 ∨ co.resourceVersion = db.resourceVersion) :
    r.resourceVersion = 0 ∨ r.resourceVersion = db.resourceVersion := by
  rcases h.resourceVersion with hk | ⟨hc, -⟩
  · rwa [hk]
  · exact .inr hc

end

theorem applyCommit_public (h : applyCommitInTxWithWatchEvents policies context db co et = .ok (db', applied))
    (hrv : co.resourceVersion = 0 ∨ co.resourceVersion = db.resourceVersion) :
    ∃ d r, Resolved policies db co d r ∧ (d = .apply ∨ d = .duplicate ∨ r.mutations = []) ∧
      (doesNotAdvancePublicRv r.mutations →
        (∃ appliedOutbox, db'.tables = { db.tables with appliedOutbox }) ∧ db'.publicState = db.publicState) ∧
      (doesNotAdvancePublicRv r.mutations = false → co.resourceVersion = 0 →
        db'.resourceVersion = db.resourceVersion + 1) := by
  obtain ⟨d, r, hr, -, hc, -, hs⟩ := applyCommit_cases h
  refine ⟨d, r, hr, ?_, fun ha => ?_, fun ha h0 => ?_⟩
  · rcases hs with ⟨-, he | hdup⟩ | ⟨hp, -⟩
    · exact .inr (.inr he)
    · exact .inr (.inl hdup)
    · exact .inl hp
  · obtain ⟨hd, hv⟩ := stamp_of_ledgerOnly context db ha (hr.resourceVersion_unspent hrv)
    rw [hd, hv, max_self] at hc
    obtain ⟨appliedOutbox, ht⟩ : ∃ appliedOutbox, db'.tables = { db.tables with appliedOutbox } := by
      rcases hs with ⟨heq, -⟩ | ⟨-, bound, pend, -, hu⟩
      · exact ⟨_, heq⟩
      · rw [← stamp_ledgerOnly context db] at ha
        exact applyMutations_ledgerOnly ha hu
    exact ⟨⟨appliedOutbox, ht⟩, by simp [ClusterDb.publicState, ht, hc]⟩
  · obtain ⟨hd, hv⟩ := stamp_of_spends context db ha ((hr.resourceVersion_of_spends ha).trans h0)
    rw [hc, hd, hv, max_self]

/-! ## What is left of a commit -/

theorem Resolved.ledgerOnly (h : Resolved policies db co d r)
    (ha : doesNotAdvancePublicRv co.mutations) : doesNotAdvancePublicRv r.mutations := by
  obtain ⟨mutations, hu, hs, -⟩ := h.remains
  rw [resolveBound_ledger ha] at hu
  cases hu
  exact List.all_eq_true.2 fun m hm => List.all_eq_true.1 ha m (hs hm)

/-- What is left of an entry against the live rows: finalizations resolved, no-op puts dropped. -/
def remainingMutations (policies : ApplyPolicies) (db : ClusterDb) (entry : LogApplyCommit) :
    Except DbError (List LogApplyMutation) := do
  let mutations ← resolveBoundPodFinalizationsInTx db.tables entry.resourceVersion entry.mutations
  (dropNoopPuts policies db.tables mutations).map Prod.fst

theorem Resolved.remaining (h : Resolved policies db ⟨e.resourceVersion, e.outboxWatermark, e.mutations, false⟩ d r)
    (hd : d = .apply ∨ r.mutations = []) :
    remainingMutations policies db e = .ok r.mutations := by
  obtain ⟨-, mutations, hm, hres⟩ := h
  unfold remainingMutations
  rw [hm]
  unfold resolvePutsFor at hres
  split at hres
  · unfold resolveNoopPutResourcesInTx at hres
    obtain ⟨⟨lef, re⟩, hl, ho⟩ := bind_eq_ok.1 hres
    cases ho
    exact map_eq_ok.2 ⟨(lef, re), hl, rfl⟩
  · rename_i hn
    cases hres
    have he : mutations = [] := hd.resolve_left hn
    subst he
    rfl

end Ledger

/-! ## Replays that write again -/

section Replay

variable (policies : ApplyPolicies) (context : TransactionContext)

def isDuplicatePosition (db : ClusterDb) (entry : LogApplyCommit) : Bool :=
  match outboxWatermarkDecisionInTx db entry.outboxWatermark with
  | .ok .duplicate => true
  | _ => false

def isAccepted (db : ClusterDb) (entry : LogApplyCommit) : Bool :=
  match podStateInTx db.tables (podStatusTarget entry), ApplyCommit.fromLive entry with
  | .ok podBefore, .ok live =>
    match applyCommitInTxWithWatchEvents policies context db live (!entry.mutations.any isPutWatchEvent) with
    | .ok (after, applied) => (finishAttempt context db entry podBefore after applied).isOk
    | .error _ => false
  | _, _ => false

/-- Nothing but ledger rows is left of an entry. -/
def leavesLedgerOnly (db : ClusterDb) (entry : LogApplyCommit) : Bool :=
  match remainingMutations policies db entry with
  | .ok mutations => doesNotAdvancePublicRv mutations
  | .error _ => true

/-- An entry reaches its mutations with something to write: no ledger row, position or status stamp stops it, the live
rows accept it, and more than ledger rows is left of it. -/
def writesAgain (db : ClusterDb) (entry : LogApplyCommit) : Bool :=
  (recordedRow db entry).isNone && !isDuplicatePosition db entry && (staleStamp db entry).isNone &&
    isAccepted policies context db entry && !leavesLedgerOnly policies db entry

section Step

variable {policies context} {db : ClusterDb}

theorem isDuplicatePosition_iff : isDuplicatePosition db e ↔
    outboxWatermarkDecisionInTx db e.outboxWatermark = .ok .duplicate := by
  unfold isDuplicatePosition
  split <;> simp_all

theorem isAccepted_iff : isAccepted policies context db e ↔
    ∃ podBefore l a applied db' o, podStateInTx db.tables (podStatusTarget e) = .ok podBefore ∧
      ApplyCommit.fromLive e = .ok l ∧
      applyCommitInTxWithWatchEvents policies context db l (!e.mutations.any isPutWatchEvent) = .ok (a, applied) ∧
      finishAttempt context db e podBefore a applied = .ok (db', o) := by
  unfold isAccepted
  constructor
  · intro h
    split at h
    · rename_i podBefore l hp hl
      split at h
      · rename_i a applied ha
        obtain ⟨⟨db', o⟩, hf⟩ := isOk_iff.1 h
        exact ⟨podBefore, l, a, applied, db', o, hp, hl, ha, hf⟩
      · cases h
    · cases h
  · rintro ⟨podBefore, l, a, applied, db', o, hp, hl, ha, hf⟩
    simp only [hp, hl, ha]
    exact isOk_iff.2 ⟨_, hf⟩

theorem fromLive_resourceVersion {l : ApplyCommit} (h : ApplyCommit.fromLive e = .ok l) : l.resourceVersion = 0 := by
  have heq := fromLive_ok h
  obtain ⟨_, hv, -⟩ := bind_eq_ok.1 h
  rw [heq]
  exact LogApplyCommit.resourceVersion_eq_zero (mapError_eq_ok.1 hv)

theorem applyForRaft_of_writesAgain (h : writesAgain policies context db e) :
    ∃ db' o, applyCommitInTxForRaftWithContext policies context db e = .ok (db', o) ∧
      db'.resourceVersion = db.resourceVersion + 1 := by
  simp only [writesAgain, Bool.and_eq_true, Option.isNone_iff_eq_none, Bool.not_eq_true'] at h
  obtain ⟨⟨⟨⟨ho, hpos⟩, hs⟩, ha⟩, hlf⟩ := h
  obtain ⟨p, li, aft, applied, db', o, hp, hl, hap, hf⟩ := isAccepted_iff.1 ha
  have h0 := fromLive_resourceVersion hl
  obtain ⟨d, r, hr, hc, -, hsp⟩ := applyCommit_public hap (.inl h0)
  obtain rfl := fromLive_ok hl
  have hn : d ≠ .duplicate := fun hu =>
    absurd (isDuplicatePosition_iff.2 (hu ▸ hr.decided)) (by simp [hpos])
  have hm : remainingMutations policies db e = .ok r.mutations :=
    hr.remaining (hc.imp_right fun hor => hor.resolve_left hn)
  simp only [leavesLedgerOnly, hm] at hlf
  have hrv : db'.resourceVersion = db.resourceVersion + 1 := by
    rw [← hsp hlf h0]
    exact congrArg PublicState.resourceVersion (finishAttempt_publicState hf)
  refine ⟨db', o, ?_, hrv⟩
  -- the coordinator takes none of its shortcuts
  have hv : e.validateLiveTemplate = .ok () := by
    obtain ⟨_, hv, -⟩ := bind_eq_ok.1 hl
    exact mapError_eq_ok.1 hv
  have hne : e.mutations ≠ [] := fun hem => by
    have he := hr.ledgerOnly (by simp [hem, doesNotAdvancePublicRv])
    rw [hlf] at he
    cases he
  have ht : attemptCommit policies context db e p = .ok (db', o) := by
    simp only [attemptCommit, hl, hap, bind, Except.bind]
    exact hf
  have hd := hr.decided
  unfold applyCommitInTxForRaftWithContext
  simp only [hp, hv, ho, hd, hs, ht, bind, Except.bind, Except.mapError, hn, if_false,
    List.isEmpty_eq_false_iff.2 hne, Bool.false_and, Bool.false_eq_true]

theorem attemptCommit_publicState (hp : podStateInTx db.tables (podStatusTarget e) = .ok p)
    (ho : recordedRow db e = none) (he : outboxWatermarkDecisionInTx db e.outboxWatermark ≠ .ok .duplicate)
    (hs : staleStamp db e = none) (ha : attemptCommit policies context db e p = .ok (db', o))
    (hq : writesAgain policies context db e = false) : db'.publicState = db.publicState := by
  obtain ⟨li, hl, hcs⟩ := attemptCommit_cases ha
  rcases hcs with ⟨aft, applied, hap, hf⟩ | ⟨cod, ms, -, rfl, -⟩
  · rw [finishAttempt_publicState hf]
    obtain ⟨d, r, hr, hpos, hle, -⟩ :=
      applyCommit_public hap (.inl (fromLive_resourceVersion hl))
    have hc : isAccepted policies context db e :=
      isAccepted_iff.2 ⟨p, li, aft, applied, db', o, hp, hl, hap, hf⟩
    obtain rfl := fromLive_ok hl
    have hn : d ≠ .duplicate := fun hd => he (hd ▸ hr.decided)
    have hm : remainingMutations policies db e = .ok r.mutations :=
      hr.remaining (hpos.imp_right fun hor => hor.resolve_left hn)
    have hfr : isDuplicatePosition db e = false := by
      rw [Bool.eq_false_iff]
      exact fun hd => he (isDuplicatePosition_iff.1 hd)
    refine (hle ?_).2
    simpa [writesAgain, ho, hfr, hs, hc, leavesLedgerOnly, hm] using hq
  · exact recordRejection_publicState context db e _

theorem applyEntry_publicState_iff : (applyEntry policies context db e).publicState = db.publicState ↔
      writesAgain policies context db e = false := by
  constructor
  · intro heq
    by_contra hw
    obtain ⟨db', o, hok, hrv⟩ := applyForRaft_of_writesAgain (by simpa using hw)
    have hv : db'.resourceVersion = db.resourceVersion := by
      simp only [applyEntry, hok] at heq
      exact congrArg PublicState.resourceVersion heq
    omega
  · intro hq
    unfold applyEntry
    cases hok : applyCommitInTxForRaftWithContext policies context db e with
    | error er => rfl
    | ok rs =>
      obtain ⟨db', o⟩ := rs
      cases applyForRaft_cases hok with
      | empty hm hk => rfl
      | answered hr hn => rfl
      | duplicate hr hd ho => rfl
      | stale hr hd hs he =>
        obtain ⟨ld, applied, re, -, hap, -⟩ := recordStaleStamp_ok he
        obtain ⟨d, r, hre, -, hl, -⟩ := applyCommit_public hap (.inr rfl)
        exact (hl (hre.ledgerOnly (by simp [doesNotAdvancePublicRv]))).2
      | attempted hp hr hd hs ha =>
        exact attemptCommit_publicState hp hr hd hs ha hq

theorem not_accepted_of_advanced {wm : OutboxStreamWatermark} (hm : e.outboxWatermark = some wm)
    (ha : Advanced db wm) (hf : isDuplicatePosition db e = false) :
    isAccepted policies context db e = false := by
  rw [Bool.eq_false_iff]
  intro hc
  obtain ⟨_, li, aft, applied, _, _, -, hl, hp, -⟩ := isAccepted_iff.1 hc
  obtain ⟨d, r, hr, -⟩ := applyCommit_cases hp
  have hd := hr.decided
  rw [fromLive_ok hl] at hd
  obtain ⟨la, hla, hle⟩ := ha
  have hu : d = .duplicate := by
    simp only [hm, outboxWatermarkDecisionInTx, hla] at hd
    exact decideOutboxWatermark_of_le hle (mapError_eq_ok.1 hd)
  rw [hu] at hd
  rw [isDuplicatePosition_iff.2 hd] at hf
  cases hf

end Step

/-- A replay is invisible if an entry that went through does not write again in the database it left. -/
theorem replay_of_applied {db : ClusterDb} (h : ∀ db' outcome, applyCommitInTxForRaftWithContext policies context db e =
      .ok (db', outcome) → writesAgain policies context db' e = false) :
    (applyEntry policies context (applyEntry policies context db e) e).publicState =
      (applyEntry policies context db e).publicState := by
  rw [applyEntry_publicState_iff, applyEntry]
  cases ho : applyCommitInTxForRaftWithContext policies context db e with
  | error er =>
    -- the same database refuses the entry again
    rw [Bool.eq_false_iff]
    intro hw
    obtain ⟨_, _, hg, -⟩ := applyForRaft_of_writesAgain hw
    rw [ho] at hg
    cases hg
  | ok re => exact h re.1 re.2 ho

theorem not_writesAgain_of_position {db db' : ClusterDb} (hp : e.outboxWatermark.isSome)
    (h : applyCommitInTxForRaftWithContext policies context db e = .ok (db', o)) :
    writesAgain policies context db' e = false := by
  obtain ⟨wm, hm⟩ := Option.isSome_iff_exists.1 hp
  rcases advanced_of_applied hm h with hd | ⟨rfl, ha, -⟩
  · cases hf : isDuplicatePosition db' e with
    | true => simp [writesAgain, hf]
    | false => simp [writesAgain, not_accepted_of_advanced hm hd hf]
  · obtain ⟨ro, hr, -⟩ := (Option.any_eq_true _ _).1 ha
    simp [writesAgain, hr]

/-- An entry with a stream position is restart-safe: whatever became of it, its replay leaves the public state. -/
theorem positioned_replay_invisible (db : ClusterDb) (entry : LogApplyCommit)
    (hposition : entry.outboxWatermark.isSome) :
    (applyEntry policies context (applyEntry policies context db entry) entry).publicState =
      (applyEntry policies context db entry).publicState :=
  replay_of_applied policies context fun _ _ h => not_writesAgain_of_position policies context hposition h

theorem positioned_replay_invisible_sample :
    let once := applyEntry samplePolicies sampleContext .empty (sampleStreamEntry "a" 1)
    (applyEntry samplePolicies sampleContext once (sampleStreamEntry "a" 1)).publicState = once.publicState :=
  positioned_replay_invisible samplePolicies sampleContext .empty (sampleStreamEntry "a" 1) rfl

theorem Advanced.applyEntry {wm : OutboxStreamWatermark} {db : ClusterDb} (hl : CarriesLedgerRow e)
    (ha : Advanced db wm) : Advanced (Store.applyEntry policies context db e) wm := by
  obtain ⟨la, hs, hle⟩ := ha
  have h := applyEntry_lastSeq policies context db hl wm.clientId wm.streamId
  revert h
  cases decidedSeq policies context db e wm.clientId wm.streamId with
  | none => exact fun h => ⟨la, h.trans hs, hle⟩
  | some se =>
    rintro ⟨hse, h⟩
    rw [hs, Option.getD_some] at hse
    exact ⟨se, h, by omega⟩

/-- An entry whose stream position the store has passed is redelivered in vain, however many entries came between. -/
theorem redelivery_changes_nothing (db : ClusterDb) (later : List LogApplyCommit)
    (hledger : ∀ entry ∈ later, CarriesLedgerRow entry) (entry : LogApplyCommit) {watermark : OutboxStreamWatermark}
    (hposition : entry.outboxWatermark = some watermark) (hpassed : Advanced db watermark) :
    let now := runEntries policies context db later
    (applyEntry policies context now entry).publicState = now.publicState := by
  intro now
  have hn : Advanced now watermark :=
    later.foldlRecOn (motive := fun db => Advanced db watermark) _ hpassed
      fun db ha entry hm => ha.applyEntry policies context (hledger entry hm)
  rw [applyEntry_publicState_iff]
  cases hf : isDuplicatePosition now entry with
  | true => simp [writesAgain, hf]
  | false => simp [writesAgain, not_accepted_of_advanced hposition hn hf]

theorem redelivery_changes_nothing_sample :
    let first := applyEntry samplePolicies sampleContext .empty (sampleStreamEntry "a" 1)
    let now := runEntries samplePolicies sampleContext first sampleStreamRun.tail
    (applyEntry samplePolicies sampleContext now (sampleStreamEntry "a" 1)).publicState = now.publicState :=
  redelivery_changes_nothing samplePolicies sampleContext _ sampleStreamRun.tail (by decide) _ rfl
    ⟨1, by decide +kernel, by decide⟩

/-- An entry puts a ledger row that its other mutations leave in the ledger. -/
def KeepsOwnRow (entry : LogApplyCommit) : Prop :=
  entry.outboxTemplate.any (fun row => entry.mutations.all (LogApplyMutation.spares row)) = true

instance (entry : LogApplyCommit) : Decidable (KeepsOwnRow entry) := inferInstanceAs (Decidable (_ = true))

/-- What became of such an entry stands in the ledger, unless it changed nothing. -/
theorem recordedRow_of_applied {db db' : ClusterDb} (hk : KeepsOwnRow e)
    (h : applyCommitInTxForRaftWithContext policies context db e = .ok (db', o)) :
    db' = db ∨ (recordedRow db' e).isSome := by
  obtain ⟨row, ht, hs⟩ := (Option.any_eq_true _ _).1 hk
  have hspares := List.all_eq_true.1 hs
  have hput := outboxTemplate_mem ht
  have hfound : Recorded db'.tables.appliedOutbox row → (recordedRow db' e).isSome := by
    rintro ⟨stored, hm, hsame⟩
    rw [recordedRow, ht, Option.bind_some, Table.find_eq_some_iff.2 ⟨hm, hsame.key⟩]
    rfl
  cases applyForRaft_cases h with
  | empty | answered | duplicate => exact .inl rfl
  | stale hr hd hst he =>
    obtain ⟨_, _, _, -, hap, -⟩ := recordStaleStamp_ok he
    refine .inr (hfound (applyCommit_keeps hap hd (fun m hm => hspares m (List.mem_of_mem_filter hm)) (.inr ?_)))
    exact ⟨row, List.mem_filter.2 ⟨hput, rfl⟩, rfl, rfl, rfl, rfl⟩
  | attempted hp hr hd hst ha =>
    obtain ⟨li, hl, hcs⟩ := attemptCommit_cases ha
    obtain rfl := fromLive_ok hl
    rcases hcs with ⟨aft, applied, hap, hf⟩ | ⟨co, ms, -, rfl, -⟩
    · have hrec := applyCommit_keeps hap hd hspares (.inr ⟨row, hput, rfl, rfl, rfl, rfl⟩)
      exact .inr (hfound (storeFinalizationReceipt_keeps (finishAttempt_cases hf).1 hspares hrec))
    · right
      simp [recordedRow, recordRejection, ht, putAppliedOutbox]

end Replay

def sampleCreate : LogApplyCommit where
  mutations := [.putResource {
    key := ⟨"v1", "ConfigMap", some "default", "cm"⟩
    uid := "cm-uid"
    resourceVersion := 0
    data := .obj [("data", .obj []), ("metadata", .obj [("uid", .str "cm-uid")])]
    requireAbsent := true }]

/-- Patch it, without a stream position, a ledger row or a resourceVersion precondition. -/
def samplePatch : LogApplyCommit where
  mutations := [.patchResourceLatest {
    key := ⟨"v1", "ConfigMap", some "default", "cm"⟩
    resourceVersion := 0
    patchKind := .merge
    patch := .obj [("data", .obj [("k", .str "v")])]
    requireExisting := true }]

/-- The same patch with a ledger row. -/
def sampleLedgerPatch : LogApplyCommit where
  mutations := .putAppliedOutbox ⟨"a", "", "NodeMetadata", 0, none, [], none⟩ :: samplePatch.mutations

end Klights.Store
