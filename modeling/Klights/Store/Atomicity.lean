import Klights.Lib.Transaction
import Klights.Store.Restart

/-!
# Failed entries leave nothing behind

The state-passing model of committed apply forgets what a failed mutation had already written; SQLite does not. Here the
same path is written statement by statement inside a transaction (`live_apply/coordinator.rs`, `live_apply/mod.rs`):
a mutation that fails leaves the tables in any shape at all (`torn`), and only the savepoint `raft_apply_attempt` and
the transaction of the entry take that back.

- `applyCommitTx`, `applyEntryTx`: committed apply as statements;
- it computes what the state-passing model computes (`applyCommitTx_yields`, `applyEntryTx_ends`,
  `applyCommittedWithPending_eq`);
- conflicts never leave the transaction as errors (`applyForRaft_error`);
- a rejected entry writes its ledger row and its position, a failed one nothing (`failed_entry_all_or_nothing`).
-/

namespace Klights.Store

open Lib LogApplyMutation ApplyCommit

variable {effect : PodEndpointEffect} {podBefore p : Option Json} {cm : ApplyCommit} {db' : ClusterDb}
  {outcome out : RaftLogApplyOutcome}

/-! ## Statements -/

abbrev ApplyTx : Type → Type := TxM ClusterDb DbError

section Statements

variable (policies : ApplyPolicies) (context : TransactionContext)

-- the tables a failed mutation leaves, whatever it had written by then
variable (torn : LogApplyMutation → Tables → Tables)

def applyClusterMutationTx (commitResourceVersion : Int) (emit : Bool) (mutation : LogApplyMutation) :
    ApplyTx (Option StagedPostCommit) := do
  let db ← TxM.read
  match applyClusterMutation policies commitResourceVersion emit db.tables mutation with
  | .ok (tables, staged) => do
    TxM.write { db with tables }
    return staged
  | .error err => do
    TxM.write { db with tables := torn mutation db.tables }
    TxM.fail err

def applyMutationsTx (commitResourceVersion : Int) (emit : Bool) :
    List LogApplyMutation → ApplyTx (List StagedPostCommit)
  | [] => return []
  | mutation :: rest => do
    let staged ← applyClusterMutationTx policies torn commitResourceVersion emit mutation
    let pending ← applyMutationsTx commitResourceVersion emit rest
    return staged.toList ++ pending

def upsertOutboxWatermarkTx (watermark : Option OutboxStreamWatermark) : ApplyTx Unit := do
  let db ← TxM.read
  TxM.write (db.upsertOutboxWatermark watermark)

def advanceMetadataRvToAtLeastTx (resourceVersion : Int) : ApplyTx Unit := do
  let db ← TxM.read
  TxM.write (db.advanceMetadataRvToAtLeast resourceVersion)

def applyStampedCommitTx (commit : ApplyCommit) (emit : Bool) : ApplyTx AppliedCommit := do
  let pending ← applyMutationsTx policies torn commit.resourceVersion emit commit.mutations
  let db ← TxM.read
  let appliedMutation ← TxM.lift (returnedResource db.tables commit)
  upsertOutboxWatermarkTx commit.outboxWatermark
  advanceMetadataRvToAtLeastTx commit.resourceVersion
  return ⟨commit.resourceVersion, pending, appliedMutation⟩

/-- `apply_commit_in_tx_with_watch_events`; the counter is written when the commit is stamped. -/
def applyCommitTx (commit : ApplyCommit) (emit : Bool) : ApplyTx AppliedCommit :=
  if commit.resourceVersion < 0 then TxM.fail (.other "log_apply commit resourceVersion must be non-negative")
  else do
    let db ← TxM.read
    let mutations ← TxM.lift (resolveBoundPodFinalizationsInTx db.tables commit.resourceVersion commit.mutations)
    let commit := { commit with mutations }
    let emit := emit && !mutations.any isPutWatchEvent
    let decision ← TxM.lift (outboxWatermarkDecisionInTx db commit.outboxWatermark)
    let commit ← TxM.lift (resolvePutsFor policies decision db commit)
    let stamped := stampProvisionalResourceVersionInTx context db commit
    TxM.write stamped.1
    let commit := stamped.2
    if commit.outboxWatermark.isSome && commit.mutations.isEmpty then do
      upsertOutboxWatermarkTx commit.outboxWatermark
      advanceMetadataRvToAtLeastTx commit.resourceVersion
      return ⟨commit.resourceVersion, [], none⟩
    else
      match decision with
      | .duplicate => do
        advanceMetadataRvToAtLeastTx commit.resourceVersion
        return ⟨commit.resourceVersion, [], none⟩
      | .gap lastSeq nextSeq =>
        TxM.fail (.other ("outbox stream gap for seq " ++ toString nextSeq ++ ": last committed seq is " ++
          toString lastSeq))
      | .apply => applyStampedCommitTx policies torn commit emit

/-! ## Raft entries -/

/-- Only a savepoint that is not open cannot be rolled back or released. -/
def noSuchSavepoint : DbError := .sqlite "no such savepoint: raft_apply_attempt"

def raftApplyAttempt : String := "raft_apply_attempt"

def recordStaleStampTx (commit : LogApplyCommit) (last incoming : Int) (effect : PodEndpointEffect) :
    ApplyTx RaftLogApplyOutcome := do
  let ledger ← TxM.lift (fromLive (commitWithOutboxRowsOnly commit))
  let db ← TxM.read
  let applied ← applyCommitTx policies context torn { ledger with resourceVersion := db.resourceVersion } true
  if last < incoming then TxM.fail (.other "status-stamp decision recorded ledger-only for a newer stamp")
  else
    let reason := if incoming < last then .staleStatusStamp else .equalStatusStamp
    return .new (.noPublicChange applied.resourceVersion reason) applied.pending effect

/-- The attempt went through: the receipt is stored before the savepoint is released. -/
def finishAttemptTx (before : ClusterDb) (commit : LogApplyCommit) (podBefore : Option Json) (applied : AppliedCommit) :
    ApplyTx RaftLogApplyOutcome := do
  let db ← TxM.read
  let db ← TxM.lift (storeFinalizationReceipt context db commit.outboxTemplate applied)
  TxM.write db
  TxM.release noSuchSavepoint raftApplyAttempt
  let db ← TxM.read
  let visibleChange := decide (db.resourceVersion > before.resourceVersion) ||
    decide (db.tables.watch.seq > before.tables.watch.seq)
  let outcome : CommittedApplyOutcome :=
    if visibleChange || applied.appliedMutation.isSome then .visible applied.resourceVersion applied.appliedMutation
    else .noPublicChange applied.resourceVersion .ledgerOnly
  let podAfter ← TxM.lift (podStateInTx db.tables (podStatusTarget commit))
  return .new outcome applied.pending (podEndpointEffect (podStatusTarget commit) podBefore podAfter)

/-- What is written for a conflict once the attempt is rolled back. -/
def recordRejectionTx (commit : LogApplyCommit) (code : ApplyConflictCode) (message : String)
    (effect : PodEndpointEffect) : ApplyTx RaftLogApplyOutcome := do
  let text := (DbError.conflict code message).display
  upsertOutboxWatermarkTx commit.outboxWatermark
  let db ← TxM.read
  match commit.outboxTemplate with
  | none => pure ()
  | some row =>
    let resultProto := match context.encode (.error text) with
      | .ok bytes => bytes
      | .error _ => []
    TxM.write { db with tables := putAppliedOutbox db.tables { row with appliedRv := none, resultProto } }
  return .new (.rejected (committedRejectionFromConflict code text)) [] effect

def attemptBodyTx (commit : LogApplyCommit) : ApplyTx AppliedCommit := do
  let live ← TxM.lift (fromLive commit)
  applyCommitTx policies context torn live !(commit.mutations.any isPutWatchEvent)

def attemptCommitTx (commit : LogApplyCommit) (podBefore : Option Json) : ApplyTx RaftLogApplyOutcome := do
  let before ← TxM.read
  TxM.savepoint raftApplyAttempt
  let result ← TxM.attempt (attemptBodyTx policies context torn commit)
  match result with
  | .ok applied => finishAttemptTx context before commit podBefore applied
  | .error (.conflict code message) => do
    TxM.rollbackTo noSuchSavepoint raftApplyAttempt
    TxM.release noSuchSavepoint raftApplyAttempt
    recordRejectionTx context commit code message (podEndpointEffect (podStatusTarget commit) podBefore podBefore)
  | .error err => do
    TxM.rollbackTo noSuchSavepoint raftApplyAttempt
    TxM.release noSuchSavepoint raftApplyAttempt
    TxM.fail err

def applyEntryTx (commit : LogApplyCommit) : ApplyTx RaftLogApplyOutcome := do
  let db ← TxM.read
  let podBefore ← TxM.lift (podStateInTx db.tables (podStatusTarget commit))
  TxM.lift (commit.validateLiveTemplate.mapError DbError.other)
  if commit.mutations.isEmpty && commit.outboxWatermark.isNone then
    return .new (.noPublicChange db.resourceVersion .ledgerOnly) [] .notApplicable
  else
    let effect := podEndpointEffect (podStatusTarget commit) podBefore podBefore
    match recordedRow db commit with
    | some row => TxM.lift (answerFromLedger context row effect)
    | none => do
      let decision ← TxM.lift (outboxWatermarkDecisionInTx db commit.outboxWatermark)
      if decision = .duplicate then
        return .new (.noPublicChange db.resourceVersion .duplicateWatermark) [] effect
      else
        match staleStamp db commit with
        | some (last, incoming) => recordStaleStampTx policies context torn commit last incoming effect
        | none => attemptCommitTx policies context torn commit podBefore

def applyCommittedWithPending (db : ClusterDb) (commit : LogApplyCommit) :
    Except DbError RaftLogApplyOutcome × ClusterDb :=
  (applyEntryTx policies context torn commit).transact db

end Statements

/-! ## What the statements compute -/

section Refinement

open TxM

variable (policies : ApplyPolicies) (c : TransactionContext) (tn : LogApplyMutation → Tables → Tables)
  (tx : Transaction ClusterDb)

theorem applyClusterMutationTx_yields (ver : Int) (emit : Bool) (mu : LogApplyMutation) :
    Yields (applyClusterMutationTx policies tn ver emit mu) tx
      ((applyClusterMutation policies ver emit tx.state.tables mu).map fun r =>
        ({ tx.state with tables := r.1 }, r.2)) := by
  apply yields_read
  cases applyClusterMutation policies ver emit tx.state.tables mu with
  | error er => exact yields_write yields_fail
  | ok r => exact yields_write (yields_pure r.2)

/-- The loop over the mutations, by induction: a failure at any position fails the loop. -/
theorem applyMutationsTx_yields (ver : Int) (emit : Bool) (mus : List LogApplyMutation) :
    Yields (applyMutationsTx policies tn ver emit mus) tx
      ((applyMutations policies ver emit tx.state.tables mus).map fun r =>
        ({ tx.state with tables := r.1 }, r.2)) := by
  induction mus generalizing tx with
  | nil => exact yields_pure []
  | cons mu tl ih =>
    have hh := applyClusterMutationTx_yields policies tn tx ver emit mu
    rw [applyMutationsTx, applyMutations]
    cases hm : applyClusterMutation policies ver emit tx.state.tables mu with
    | error er =>
      rw [hm] at hh
      exact hh.bind_error
    | ok r =>
      rw [hm] at hh
      refine hh.bind_ok ?_
      have ht := ih { tx with state := { tx.state with tables := r.1 } }
      show Yields _ _ (((applyMutations policies ver emit r.1 tl >>= fun q => _)).map _)
      cases hr : applyMutations policies ver emit r.1 tl with
      | error er =>
        rw [hr] at ht
        exact ht.bind_error
      | ok q =>
        rw [hr] at ht
        exact ht.bind_ok (yields_pure _)

theorem applyStampedCommitTx_yields (cm : ApplyCommit) (emit : Bool) :
    Yields (applyStampedCommitTx policies tn cm emit) tx (applyStampedCommit policies tx.state cm emit) := by
  have hl := applyMutationsTx_yields policies tn tx cm.resourceVersion emit cm.mutations
  unfold applyStampedCommitTx applyStampedCommit
  cases hr : applyMutations policies cm.resourceVersion emit tx.state.tables cm.mutations with
  | error er =>
    rw [hr] at hl
    exact hl.bind_error
  | ok r =>
    rw [hr] at hl
    refine hl.bind_ok (yields_read (yields_lift ?_))
    intro ap _
    exact .ok rfl

theorem applyCommitTx_yields (cm : ApplyCommit) (e : Bool) : Yields (applyCommitTx policies c tn cm e) tx
      (applyCommitInTxWithWatchEvents policies c tx.state cm e) := by
  unfold applyCommitTx applyCommitInTxWithWatchEvents
  split
  · exact yields_fail
  · refine yields_read (yields_lift fun mu _ => yields_lift fun de _ => yields_lift fun rs _ => ?_)
    apply yields_write
    dsimp only
    split
    · exact .ok rfl
    · cases de with
      | duplicate => exact .ok rfl
      | gap la ne => exact yields_fail
      | apply => exact applyStampedCommitTx_yields policies tn _ _ _

variable (en : LogApplyCommit)

theorem recordStaleStampTx_yields (l i : Int) (effect : PodEndpointEffect) :
    Yields (recordStaleStampTx policies c tn en l i effect) tx
      (recordStaleStamp policies c tx.state en l i effect) := by
  refine yields_lift fun ld _ => yields_read ?_
  have ha := applyCommitTx_yields policies c tn tx
    { ld with resourceVersion := tx.state.resourceVersion } true
  cases hr : applyCommitInTxWithWatchEvents policies c tx.state
      { ld with resourceVersion := tx.state.resourceVersion } true with
  | error er =>
    rw [hr] at ha
    exact ha.bind_error
  | ok r =>
    rw [hr] at ha
    refine ha.bind_ok ?_
    split
    · exact yields_fail
    · exact yields_pure _

theorem attemptBodyTx_yields : Yields (attemptBodyTx policies c tn en) tx
      (fromLive en >>= fun l => applyCommitInTxWithWatchEvents policies c tx.state l
        !(en.mutations.any isPutWatchEvent)) :=
  yields_lift fun l _ => applyCommitTx_yields policies c tn tx l _

/-- After a successful attempt only the release touches the savepoints; a receipt that cannot be stored leaves the
savepoint to the end of the transaction. -/
theorem finishAttemptTx_ends (b af : ClusterDb) (podBefore : Option Json)
    (a : AppliedCommit) (o : List (String × ClusterDb)) :
    match finishAttempt c b en podBefore af a with
    | .ok (db, out) => finishAttemptTx c b en podBefore a
        ⟨af, (raftApplyAttempt, b) :: o⟩ = (.ok out, ⟨db, o⟩)
    | .error err => (finishAttemptTx c b en podBefore a ⟨af, (raftApplyAttempt, b) :: o⟩).1 = .error err := by
  unfold finishAttempt finishAttemptTx
  rw [bind_ok (x := TxM.read) rfl]
  cases hs : storeFinalizationReceipt c af en.outboxTemplate a with
  | error err => rfl
  | ok st =>
    rw [bind_ok (x := TxM.lift (.ok st)) rfl, bind_ok (x := TxM.write st) rfl, release_newest rfl]
    rw [bind_ok (x := TxM.read) rfl]
    simp only [bind, Except.bind]
    cases podStateInTx st.tables (podStatusTarget en) with
    | error err => rfl
    | ok po => rfl

theorem recordRejectionTx_run (code : ApplyConflictCode) (msg : String) (effect : PodEndpointEffect) :
    recordRejectionTx c en code msg effect tx =
      (.ok (.new (.rejected (committedRejectionFromConflict code (DbError.conflict code msg).display)) [] effect),
        { tx with state := recordRejection c tx.state en (DbError.conflict code msg).display }) := by
  unfold recordRejectionTx recordRejection
  cases en.outboxTemplate with
  | none => rfl
  | some r => rfl

theorem attemptCommitTx_ends (podBefore : Option Json) : Ends (attemptCommitTx policies c tn en podBefore) tx
      (attemptCommit policies c tx.state en podBefore) := by
  have hb := attemptBodyTx_yields policies c tn (tx.saved raftApplyAttempt) en
  unfold attemptCommitTx attemptCommit
  apply ends_read
  dsimp only
  generalize hr : (fromLive en >>= fun li => applyCommitInTxWithWatchEvents policies c
    (tx.saved raftApplyAttempt).state li !(en.mutations.any isPutWatchEvent)) = result at hb
  have hp : (fromLive en >>= fun li => applyCommitInTxWithWatchEvents policies c
    tx.state li !(en.mutations.any isPutWatchEvent)) = result := hr
  rw [hp]
  match result, hb with
  | .ok (after, applied), hb =>
    have hf := finishAttemptTx_ends c en tx.state after podBefore applied tx.savepoints
    dsimp only
    generalize finishAttempt c tx.state en podBefore after applied = finished at hf
    match finished, hf with
    | .ok (db, out), hf => exact .ok ((attempt_ok hb).trans hf)
    | .error er, hf => exact .error (by rw [attempt_ok hb]; exact hf)
  | .error (.conflict code message), hb =>
    exact .ok ((attempt_rollback hb rfl).trans (recordRejectionTx_run c tx en code message _))
  | .error (.sqlite message), hb => exact .error (by rw [attempt_rollback hb rfl]; rfl)
  | .error (.other message), hb => exact .error (by rw [attempt_rollback hb rfl]; rfl)

theorem applyEntryTx_ends : Ends (applyEntryTx policies c tn en) tx
      (applyCommitInTxForRaftWithContext policies c tx.state en) := by
  refine ends_read (ends_lift fun p _ => ends_lift fun _ _ => ?_)
  split
  · exact .ok rfl
  · dsimp only
    cases recordedRow tx.state en with
    | some r =>
      dsimp only
      cases answerFromLedger c r (podEndpointEffect (podStatusTarget en) p p) with
      | error er => exact .error rfl
      | ok out => exact .ok rfl
    | none =>
      refine ends_lift fun de _ => ?_
      split
      · exact .ok rfl
      · cases staleStamp tx.state en with
        | some st => exact (recordStaleStampTx_yields policies c tn tx en st.1 st.2 _).ends
        | none => exact attemptCommitTx_ends policies c tn tx en p

theorem applyCommittedWithPending_eq (db : ClusterDb) : applyCommittedWithPending policies c tn db en =
      settle db (applyCommitInTxForRaftWithContext policies c db en) :=
  transact_eq (applyEntryTx_ends policies c tn ⟨db, []⟩ en)

end Refinement

/-! ## Conflicts stay inside -/

section Conflicts

variable {policies : ApplyPolicies} {c : TransactionContext} {db : ClusterDb} {en : LogApplyCommit}
  {er : DbError}

theorem podStateInTx_error {tl : Tables} {t : Option ResourceKey} (h : podStateInTx tl t = .error er) :
    er.isTerminalApplyConflict = false := by
  unfold podStateInTx at h
  split at h
  · cases h
  · split at h
    · cases h
    · rcases bind_eq_error.1 h with hd | ⟨_, -, h⟩
      · rw [decodeJson_error hd]
        rfl
      · cases h

theorem mapError_other_error {α : Type} {x : Except String α} (h : x.mapError DbError.other = .error er) :
    er.isTerminalApplyConflict = false := by
  obtain ⟨ms, -, rfl⟩ := mapError_eq_error.1 h
  rfl

theorem outboxWatermarkDecision_error {wm : Option OutboxStreamWatermark}
    (h : outboxWatermarkDecisionInTx db wm = .error er) : er.isTerminalApplyConflict = false := by
  unfold outboxWatermarkDecisionInTx at h
  split at h
  · exact mapError_other_error h
  · exact mapError_other_error h

theorem answerFromLedger_error {r : LogApplyAppliedOutboxRow} (h : answerFromLedger c r effect = .error er) :
    er.isTerminalApplyConflict = false := by
  rcases bind_eq_error.1 h with hrcp | ⟨⟨rv, msg, re⟩, -, h⟩
  · unfold receiptFromAppliedOutbox at hrcp
    split at hrcp
    · cases hrcp
    · rcases bind_eq_error.1 hrcp with hd | ⟨_, -, hrcp⟩
      · exact mapError_other_error hd
      · cases hrcp
    · cases hrcp
    · cases hrcp; rfl
  · dsimp only at h
    split at h
    · cases h
    · split at h
      · cases h; rfl
      · cases h

theorem finishAttempt_error {a : ClusterDb} {ap : AppliedCommit} (h : finishAttempt c db en p a ap = .error er) :
    er.isTerminalApplyConflict = false := by
  rcases bind_eq_error.1 h with hsto | ⟨sto, -, h⟩
  · unfold storeFinalizationReceipt at hsto
    split at hsto
    · split at hsto
      · split at hsto
        · cases hsto; rfl
        · split at hsto
          · cases hsto; rfl
          · cases hsto
      · cases hsto
    · cases hsto
  · rcases bind_eq_error.1 h with hp | ⟨podAfter, -, h⟩
    · exact podStateInTx_error hp
    · cases h

theorem attemptCommit_error (h : attemptCommit policies c db en p = .error er) :
    er.isTerminalApplyConflict = false := by
  unfold attemptCommit at h
  dsimp only at h
  split at h
  · exact finishAttempt_error h
  · cases h
  · rename_i e hc _
    obtain rfl := Except.error.inj h
    cases e with
    | conflict co ms => exact absurd rfl (hc co ms)
    | sqlite ms => rfl
    | other ms => rfl

variable (policies) in
theorem applyMutations_ledger (v : Int) (e : Bool) {m : List LogApplyMutation}
    (ha : doesNotAdvancePublicRv m) (t : Tables) :
    ∃ t', applyMutations policies v e t m = .ok (t', []) := by
  revert t
  refine ledger_induction ha (fun t => ⟨t, rfl⟩) fun r tl ih t => ?_
  obtain ⟨t', hr⟩ := ih (putAppliedOutbox t r)
  refine ⟨t', ?_⟩
  rw [applyMutations, applyClusterMutation]
  simp only [bind, Except.bind, hr]
  rfl

theorem returnedResource_ledger (ha : doesNotAdvancePublicRv cm.mutations) (t : Tables) :
    returnedResource t cm = .ok none := by
  have hl : ∀ mu ∈ cm.mutations, mu.isPutAppliedOutbox := List.all_eq_true.1 ha
  have hd : deletedResourceFromStampedCommit cm = none := by
    unfold deletedResourceFromStampedCommit
    rw [List.findSome?_eq_none_iff.2]
    · rfl
    · intro mu hm
      have := hl mu hm
      cases mu <;> first | rfl | cases this
  have ht : returnedResourceTarget cm = none := by
    unfold returnedResourceTarget
    rw [List.findSome?_eq_none_iff.2]
    intro mu hm
    have := hl mu hm
    cases mu <;> first | rfl | cases this
  unfold returnedResource
  rw [hd, ht]

variable (policies db) in
theorem applyStampedCommit_ledger (e : Bool) (ha : doesNotAdvancePublicRv cm.mutations) :
    ∃ result, applyStampedCommit policies db cm e = .ok result := by
  obtain ⟨tbl, hr⟩ := applyMutations_ledger policies cm.resourceVersion e ha db.tables
  unfold applyStampedCommit
  rw [hr]
  simp only [bind, Except.bind, returnedResource_ledger ha]
  exact ⟨_, rfl⟩

variable (policies db) in
theorem resolvePutsFor_ledger (d : OutboxWatermarkDecision) (ha : doesNotAdvancePublicRv cm.mutations) :
    ∃ r, resolvePutsFor policies d db cm = .ok r ∧ r.mutations = cm.mutations := by
  unfold resolvePutsFor
  split
  · unfold resolveNoopPutResourcesInTx
    split
    · exact ⟨cm, rfl, rfl⟩
    · rw [dropNoopPuts_ledger ha]
      exact ⟨_, rfl, rfl⟩
  · exact ⟨cm, rfl, rfl⟩

theorem applyCommit_ledger_error {e : Bool} (ha : doesNotAdvancePublicRv cm.mutations)
    (h : applyCommitInTxWithWatchEvents policies c db cm e = .error er) :
    er.isTerminalApplyConflict = false := by
  unfold applyCommitInTxWithWatchEvents at h
  split at h
  · cases h; rfl
  · rw [resolveBound_ledger ha] at h
    rcases bind_eq_error.1 h with hb | ⟨mutations, hb, h⟩
    · cases hb
    · cases hb
      rcases bind_eq_error.1 h with hd | ⟨dec, -, h⟩
      · exact outboxWatermarkDecision_error hd
      · obtain ⟨rs, hr, hk⟩ :=
          resolvePutsFor_ledger policies db dec ha
        rcases bind_eq_error.1 h with he | ⟨other, ho, h⟩
        · rw [hr] at he
          cases he
        · cases hr.symm.trans ho
          have hs : doesNotAdvancePublicRv (stampProvisionalResourceVersionInTx c db rs).2.mutations := by
            rw [stamp_ledgerOnly, hk, ha]
          dsimp only at h
          split at h
          · cases h
          · cases dec with
            | duplicate => cases h
            | gap la ne => cases h; rfl
            | apply =>
              obtain ⟨re, hl⟩ := applyStampedCommit_ledger policies _ _ hs
              rw [hl] at h
              cases h

theorem recordStaleStamp_error {l i : Int} (h : recordStaleStamp policies c db en l i effect = .error er) :
    er.isTerminalApplyConflict = false := by
  rcases bind_eq_error.1 h with hl | ⟨led, hl, h⟩
  · obtain ⟨ms, rfl⟩ := fromLive_error hl
    rfl
  · rcases bind_eq_error.1 h with ha | ⟨⟨after, ap⟩, -, h⟩
    · refine applyCommit_ledger_error ?_ ha
      rw [fromLive_ok hl]
      exact List.all_eq_true.2 fun mu hm => (List.mem_filter.1 hm).2
    · dsimp only at h
      split at h
      · cases h; rfl
      · cases h

theorem applyForRaft_error (h : applyCommitInTxForRaftWithContext policies c db en = .error er) :
    er.isTerminalApplyConflict = false := by
  rcases bind_eq_error.1 h with hp | ⟨p, -, h⟩
  · exact podStateInTx_error hp
  · rcases bind_eq_error.1 h with hv | ⟨_, -, h⟩
    · exact mapError_other_error hv
    · split at h
      · cases h
      · cases hr : recordedRow db en with
        | some r =>
          simp only [hr] at h
          rcases bind_eq_error.1 h with ha | ⟨_, -, h⟩
          · exact answerFromLedger_error ha
          · cases h
        | none =>
          simp only [hr] at h
          rcases bind_eq_error.1 h with hd | ⟨de, -, h⟩
          · exact outboxWatermarkDecision_error hd
          · split at h
            · cases h
            · split at h
              · exact recordStaleStamp_error h
              · exact attemptCommit_error h

end Conflicts

/-! ## All or nothing -/

/-- The ledger row of a rejected entry: no resourceVersion, the error as its answer. -/
def rejectionRow (context : TransactionContext) (row : LogApplyAppliedOutboxRow) (message : String) :
    LogApplyAppliedOutboxRow :=
  { row with
    appliedRv := none
    resultProto := match context.encode (.error message) with
      | .ok bytes => bytes
      | .error _ => [] }

/-- A store differs from another by the ledger row and the stream position of a rejected entry. -/
structure RejectionRecorded (context : TransactionContext) (entry : LogApplyCommit) (message : String)
    (db db' : ClusterDb) : Prop where
  tables : db'.tables = { db.tables with appliedOutbox := db'.tables.appliedOutbox }
  resourceVersion : db'.resourceVersion = db.resourceVersion
  ledger : ∀ key, db'.tables.appliedOutbox.find key =
    ((entry.outboxTemplate.filter fun row => row.idempotencyKey = key).map fun row =>
      rejectionRow context row message).or (db.tables.appliedOutbox.find key)
  positions : ∀ clientId streamId, db'.lastSeq clientId streamId =
    ((entry.outboxWatermark.filter fun watermark => watermark.clientId = clientId ∧ watermark.streamId = streamId).map
      OutboxStreamWatermark.streamSeq).or (db.lastSeq clientId streamId)

section AllOrNothing

variable (policies : ApplyPolicies) (context c : TransactionContext) (torn : LogApplyMutation → Tables → Tables)
  (db : ClusterDb) (entry en : LogApplyCommit)

theorem recordRejection_recorded (m : String) : RejectionRecorded c en m db (recordRejection c db en m) := by
  obtain ⟨ap, heq, -⟩ := recordRejection_eq c db en m
  refine ⟨by rw [heq], by rw [heq], ?_, ?_⟩
  · intro k
    unfold recordRejection
    cases en.outboxTemplate with
    | none => simp
    | some r =>
      simp only [upsertOutboxWatermark_tables, putAppliedOutbox, Table.find_put, Option.filter_some, decide_eq_true_eq]
      split <;> rfl
  · intro cid sid
    rw [heq]
    cases en.outboxWatermark with
    | none => rfl
    | some wm =>
      refine (lastSeq_upsertOutboxWatermark db wm cid sid).trans ?_
      simp only [Option.filter_some, decide_eq_true_eq]
      split <;> rfl

/-- A rejected entry was rejected before, or met a conflict and was recorded as rejected. -/
theorem rejected_cases {r : CommittedApplyRejection}
    (h : applyCommitInTxForRaftWithContext policies c db en = .ok (db', out))
    (hr : out.committedOutcome = .rejected r) :
    ((recordedRow db en).isSome ∧ db' = db) ∨
      (recordedRow db en = none ∧ ∃ code message, r = committedRejectionFromConflict code message ∧
        RejectionRecorded c en message db db') := by
  cases applyForRaft_cases h with
  | empty hm ha =>
    rw [applyForRaft_empty hm ha h] at hr
    cases hr
  | answered ho hn => exact .inl ⟨by simp [ho], rfl⟩
  | duplicate ho hd hout =>
    rw [hout] at hr
    cases hr
  | stale ho hd hs he =>
    obtain ⟨ld, app, re, -, -, hout, -⟩ := recordStaleStamp_ok he
    cases hout.symm.trans hr
  | attempted hp ho hd hs ht =>
    obtain ⟨li, -, hc⟩ := attemptCommit_cases ht
    rcases hc with ⟨after, app, -, hf⟩ | ⟨code, message, -, rfl, hout⟩
    · rcases (finishAttempt_cases hf).2 with ⟨res, hout⟩ | hout <;>
        cases hout.symm.trans hr
    · rw [hout] at hr
      cases hr
      exact .inr ⟨ho, code, _, rfl, recordRejection_recorded c db en _⟩

/-- Whatever the failed mutations of an entry had written: an entry that ends in an error leaves the store as it was,
and so does one that is rejected from the ledger; an entry rejected for a conflict leaves its ledger row and its stream
position and nothing else. No conflict ends in an error. -/
theorem failed_entry_all_or_nothing :
    let run := applyCommittedWithPending policies context torn db entry
    (∀ err, run.1 = .error err → err.isTerminalApplyConflict = false ∧ run.2 = db) ∧
    ∀ outcome re, run.1 = .ok outcome → outcome.committedOutcome = .rejected re →
      ((recordedRow db entry).isSome ∧ run.2 = db) ∨
      (recordedRow db entry = none ∧ ∃ code message, re = committedRejectionFromConflict code message ∧
        RejectionRecorded context entry message db run.2) := by
  rw [applyCommittedWithPending_eq]
  cases hu : applyCommitInTxForRaftWithContext policies context db entry with
  | error err =>
    refine ⟨?_, ?_⟩
    · intro err' he
      obtain rfl : err = err' := Except.error.inj he
      exact ⟨applyForRaft_error hu, rfl⟩
    · intro outcome re ho
      cases ho
  | ok r =>
    obtain ⟨db', outcome⟩ := r
    refine ⟨?_, ?_⟩
    · intro err he
      cases he
    · intro out' re ho hr
      cases ho
      exact rejected_cases policies context db entry hu hr

end AllOrNothing

/-- A create that was already made, after another create: the second conflicts when the first is already written. -/
def sampleConflict : LogApplyCommit where
  outboxWatermark := some ⟨"node-a", 1, 1⟩
  mutations := [ .putResource {
      key := ⟨"v1", "ConfigMap", some "default", "a"⟩
      uid := "a-uid"
      resourceVersion := 0
      data := .obj [("metadata", .obj [("uid", .str "a-uid")])]
      requireAbsent := true },
    .putResource {
      key := ⟨"v1", "ConfigMap", some "default", "a"⟩
      uid := "a-uid"
      resourceVersion := 0
      data := .obj [("metadata", .obj [("uid", .str "a-uid")])]
      requireAbsent := true },
    .putAppliedOutbox {
      idempotencyKey := "k"
      subjectKey := "configmap/default/a"
      operation := "Create"
      firstSeenMs := 0
      appliedRv := none
      resultProto := []
      statusStamp := none }]

theorem failed_entry_all_or_nothing_twice :
    let run := applyCommittedWithPending samplePolicies sampleContext (fun _ _ => .empty) .empty sampleConflict
    run.1 = .ok (.new (.rejected (.alreadyExists "AlreadyExists: Resource already exists (409 Conflict)")) []
      .notApplicable) ∧
    ∃ message, RejectionRecorded sampleContext sampleConflict message .empty run.2 := by
  intro run
  have hu : run.1 = .ok (.new (.rejected (.alreadyExists "AlreadyExists: Resource already exists (409 Conflict)")) []
      .notApplicable) := by decide +kernel
  rcases (failed_entry_all_or_nothing samplePolicies sampleContext (fun _ _ => .empty) .empty sampleConflict).2
    _ _ hu rfl with ⟨ho, -⟩ | ⟨-, code, message, -, hr⟩
  · exact absurd ho (by decide)
  · exact ⟨hu, message, hr⟩

end Klights.Store
