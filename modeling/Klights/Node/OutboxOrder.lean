import Klights.Node.Outbox

/-!
# The order in which the node outbox delivers

Runs of the producers, the dispatcher's tasks, the lease timer and the dead letter administration on one outbox, in any
interleaving of their transactions.

- `DbStep`: what an operation of the store may do to the rows that exist;
- `World.Ordered`: every number a stream has handed out was answered by the leader or still has its row;
- `step_ordered`, `run_ordered`: the steps keep it while the cleanup after a Pod delete follows the sequence numbers;
- `outbox_delivers_in_order`: what a claim then may rely on;
- `outbox_loses_nothing`, `outbox_one_in_flight`: no number is lost, and a stream waits for one answer at a time.
-/

namespace Klights.Node

open Lib Leader List Table Bool Int

/-! ## Runs -/

inductive Stage where
  | claimed
  | delivering
  | settling (ops : List SettleOp)

/-- A claimed row that a task of the dispatcher handles, as it was claimed. -/
structure Dispatch where
  row : OutboxRow
  leaseToken : String
  stage : Stage

abbrev Position := Int × Int

def OutboxEntry.position (entry : OutboxEntry) : Position := (entry.streamId, entry.streamSeq)

/-- The positions that have a live or dead-lettered row. -/
def OutboxDb.positions (db : OutboxDb) : List Position :=
  ((db.outbox.rows.map OutboxRow.entry ++ db.deadLetter.rows.map DeadLetterRow.entry).filter OutboxEntry.assigned).map
    OutboxEntry.position

open OutboxDb

/-- A running node: its outbox, the tasks of its dispatcher, the dead letter replays between their two transactions;
and the history of its positions: handed out in this order, answered for good by the leader, lost from the outbox
without an answer. -/
structure World where
  db : OutboxDb
  inFlight : List Dispatch
  replays : List (DeadLetterRow × OutboxClassification)
  handedOut : List Position
  answered : List Position
  dropped : List Position

open World

def World.start : World := ⟨.empty, [], [], [], [], []⟩

inductive Step where
  | enqueue (row : OutboxInsert) (freshClientId : String)
  | claim (nowMs : Int) (limit : Nat) (leaseMs : Int) (leaseToken : String)
  | begin (task : Nat) (sentinelEncodes : Bool) (backoffUntilMs : Int) (error : String)
  | answer (task : Nat) (answer : DeliveryAnswer) (backoffUntilMs nowMs : Int) (message : String)
  | settle (task : Nat) (fault : Bool)
  | renew (id : Int) (leaseToken : String) (leasedUntilMs : Int)
  | requeueExpired (nowMs : Int)
  | crash
  | moveDeadLetter (idempotencyKey : String) (maxAttempts : Int)
  | deleteDeadLetter (id : Int)
  | readReplay (id : Int) (classification : OutboxClassification)
  | replay (task : Nat) (freshClientId : String) (nowMs : Int)

variable {lastSeq ls : Int → Int} {p : OutboxRow → Bool} {maxAttempts ma : Int} {leaseToken tk : String}
  {answered a : List Position} {ops : List SettleOp}

section

variable (digest : String → BitVec 64) {en : OutboxEntry} {lost : Position → Prop} {row : OutboxRow}
  {backoffUntilMs ba nowMs no : Int} {classification c : OutboxClassification} {fresh fh : String}
  {dead : DeadLetterRow} {d : Dispatch}

/-- The stream of a replayed row, and whether it needs a new sequence number. -/
def replayStream (entry : OutboxEntry) : Int :=
  if 0 < entry.streamId then entry.streamId else outboxStreamId digest entry.subjectKey

def replayAllocates (entry : OutboxEntry) (classification : OutboxClassification) : Bool :=
  !(0 < entry.streamSeq) && classification.sequencePolicy = .perSubject

/-- Commit a transaction that handed out a number on a stream, or none. -/
def World.commit (w : World) (db : OutboxDb) (stream : Option Int) : World :=
  { w with
    db
    handedOut := w.handedOut ++ stream.toList.map fun s => (s, db.lastSeq s)
    dropped := w.dropped ++ w.db.positions.filter fun position =>
      !db.positions.contains position && !w.answered.contains position }

/-- The leader's final answer to a delivery is remembered with its position. -/
def World.recordAnswer (w : World) (row : OutboxRow) (answer : DeliveryAnswer) : World :=
  if isFinal answer && row.entry.assigned then { w with answered := w.answered ++ [row.entry.position] } else w

def World.setStage (w : World) (task : Nat) (dispatch : Dispatch) (stage : Stage) : World :=
  { w with inFlight := w.inFlight.set task { dispatch with stage } }

def World.settleStep (w : World) (task : Nat) (fault : Bool) : World :=
  match w.inFlight[task]? with
  | some ⟨row, leaseToken, .settling (op :: ops)⟩ =>
    let w := w.setStage task ⟨row, leaseToken, .claimed⟩ (.settling ops)
    if fault then w else w.commit (op.run w.db row leaseToken) none
  | _ => w

def World.step (w : World) : Step → World
  | .enqueue row freshClientId =>
    match w.db.enqueueOutbox digest row freshClientId with
    | .error _ => w
    | .ok db => w.commit db
      (if row.classification.sequencePolicy = .perSubject then some (outboxStreamId digest row.subjectKey) else none)
  | .claim nowMs limit leaseMs leaseToken =>
    let claimed := w.db.claimDueOutbox nowMs limit leaseMs leaseToken
    let tasks := claimed.1.filterMap fun row => row.leaseToken.map fun token => ⟨row, token, .claimed⟩
    { w.commit claimed.2 none with inFlight := w.inFlight ++ tasks }
  | .begin task sentinelEncodes backoffUntilMs error =>
    match w.inFlight[task]? with
    | some ⟨row, leaseToken, .claimed⟩ =>
      w.setStage task ⟨row, leaseToken, .claimed⟩ (match beginDelivery row sentinelEncodes backoffUntilMs error with
          | none => .delivering
          | some ops => .settling ops)
    | _ => w
  | .answer task answer backoffUntilMs nowMs message =>
    match w.inFlight[task]? with
    | some ⟨row, leaseToken, .delivering⟩ => (w.recordAnswer row answer).setStage task ⟨row, leaseToken, .delivering⟩
        (.settling (settle row backoffUntilMs nowMs message answer))
    | _ => w
  | .settle task fault => w.settleStep task fault
  | .renew id leaseToken leasedUntilMs => w.commit (w.db.renewOutboxLease id leaseToken leasedUntilMs) none
  | .requeueExpired nowMs => w.commit (w.db.requeueExpiredOutboxLeases nowMs) none
  | .crash => { w with inFlight := [], replays := [] }
  | .moveDeadLetter idempotencyKey maxAttempts =>
    match w.db.moveOutboxToDeadLetterIfMaxAttempts idempotencyKey maxAttempts with
    | .error _ => w
    | .ok db => w.commit db none
  | .deleteDeadLetter id => w.commit (w.db.deleteDeadLetter id) none
  | .readReplay id classification =>
    match w.db.deadLetter.find id with
    | none => w
    | some dead => { w with replays := w.replays ++ [(dead, classification)] }
  | .replay task freshClientId nowMs =>
    match w.replays[task]? with
    | none => w
    | some (dead, classification) =>
      let w := { w with replays := w.replays.eraseIdx task }
      match w.db.replayDeadLetter digest dead classification freshClientId nowMs with
      | .error _ => w
      | .ok db => w.commit db
        (if replayAllocates dead.entry classification then some (replayStream digest dead.entry) else none)

def World.run (w : World) (steps : List Step) : World := steps.foldl (step digest) w

/-! ## The condition -/

/-- The cleanup of a task that is about to run it removes only rows with lower sequence numbers than the Pod delete's,
as it does unless the delete has come back from the dead letter table behind later rows. -/
def World.cleanupInOrder (w : World) (task : Nat) : Bool :=
  match w.inFlight[task]? with
  | some ⟨row, _, .settling (.supersede :: _)⟩ => w.db.outbox.rows.all fun status =>
    !status.superseded row.entry.subjectKey row.id || status.entry.streamSeq < row.entry.streamSeq
  | _ => true

/-- A sequence counter that is asked for a number has not reached the last 64-bit value, and a cleanup is in order. -/
def World.allowed (w : World) : Step → Bool
  | .enqueue row _ => row.classification.sequencePolicy ≠ .perSubject ||
    w.db.lastSeq (outboxStreamId digest row.subjectKey) < i64Max
  | .replay task _ _ => w.replays[task]?.all fun replay =>
    !replayAllocates replay.1.entry replay.2 || w.db.lastSeq (replayStream digest replay.1.entry) < i64Max
  | .settle task false => w.cleanupInOrder task
  | _ => true

def World.allowedRun (w : World) : List Step → Bool
  | [] => true
  | step :: steps => w.allowed digest step && (w.step digest step).allowedRun steps

/-! ## Rows and positions -/

variable {digest} {db db' : OutboxDb}

theorem outboxStreamId_pos (digest : String → BitVec 64) (subjectKey : String) :
    0 < outboxStreamId digest subjectKey := by
  unfold outboxStreamId
  simp only
  split
  · decide
  · omega

theorem mem_positions {position : Position} :
    position ∈ db.positions ↔ (∃ row ∈ db.outbox.rows, row.entry.assigned ∧ row.entry.position = position) ∨
        ∃ dead ∈ db.deadLetter.rows, dead.entry.assigned ∧ dead.entry.position = position := by
  unfold positions
  simp only [mem_map, mem_filter, mem_append]
  constructor
  · rintro ⟨en, ⟨⟨row, hr, rfl⟩ | ⟨dead, hd, rfl⟩, ha⟩, hp⟩
    · exact .inl ⟨row, hr, ha, hp⟩
    · exact .inr ⟨dead, hd, ha, hp⟩
  · rintro (⟨row, hr, ha, hp⟩ | ⟨dead, hd, ha, hp⟩)
    · exact ⟨row.entry, ⟨.inl ⟨row, hr, rfl⟩, ha⟩, hp⟩
    · exact ⟨dead.entry, ⟨.inr ⟨dead, hd, rfl⟩, ha⟩, hp⟩

theorem assigned_iff : en.assigned ↔ 0 < en.streamId ∧ 0 < en.streamSeq := by
  simp [OutboxEntry.assigned]

variable (digest) in
/-- The position of an entry: none, or a number its subject's stream has handed out. -/
def OutboxEntry.Wf (lastSeq : Int → Int) (entry : OutboxEntry) : Prop :=
  (entry.streamId = 0 ∧ entry.streamSeq = 0) ∨
    (entry.streamId = outboxStreamId digest entry.subjectKey ∧ 1 ≤ entry.streamSeq ∧
      entry.streamSeq ≤ lastSeq entry.streamId)

theorem OutboxEntry.Wf.mono {lastSeq' : Int → Int} (h : en.Wf digest ls)
    (hl : ∀ s, ls s ≤ lastSeq' s) : en.Wf digest lastSeq' := by
  rcases h with h | ⟨hs, hpos, ha⟩
  · exact .inl h
  · exact .inr ⟨hs, hpos, le_trans ha (hl _)⟩

theorem OutboxEntry.Wf.stream (h : en.Wf digest ls) (ha : en.assigned) :
    en.streamId = outboxStreamId digest en.subjectKey := by
  obtain ⟨ht, -⟩ := assigned_iff.1 ha
  rcases h with ⟨h0, -⟩ | ⟨hs, -⟩
  · omega
  · exact hs

variable (digest) in
/-- What holds of the tables in every state. -/
structure DbOk (db : OutboxDb) : Prop where
  rowIds : ∀ row ∈ db.outbox.rows, row.id ≤ db.outboxIds
  deadIds : ∀ dead ∈ db.deadLetter.rows, dead.id ≤ db.deadLetterIds
  rows : ∀ row ∈ db.outbox.rows, row.entry.Wf digest db.lastSeq
  dead : ∀ dead ∈ db.deadLetter.rows, dead.entry.Wf digest db.lastSeq
  terminal : ∀ row ∈ db.outbox.rows, row.isTerminalPodDelete = true → row.entry.assigned = true
  lastSeq_nonneg : ∀ s, 0 ≤ db.lastSeq s

/-- What an operation may do to the rows that exist: remove them, or change columns outside the entry. Ids are not
reused. -/
structure DbStep (db db' : OutboxDb) : Prop where
  ids : db.outboxIds ≤ db'.outboxIds
  deadIds : db.deadLetterIds ≤ db'.deadLetterIds
  old : ∀ row ∈ db'.outbox.rows, row.id ≤ db.outboxIds →
    ∃ before ∈ db.outbox.rows, before.id = row.id ∧ before.entry = row.entry
  oldDead : ∀ dead ∈ db'.deadLetter.rows, dead.id ≤ db.deadLetterIds → dead ∈ db.deadLetter.rows

variable (digest) in
/-- An operation that hands out a number on `stream`, if there is one, and loses only positions in `lost`. -/
structure Effect (db db' : OutboxDb) (stream : Option Int) (lost : Position → Prop) : Prop where
  ok : DbOk digest db'
  step : DbStep db db'
  lastSeq : ∀ s, db'.lastSeq s = db.lastSeq s + if stream = some s then 1 else 0
  handed : ∀ s, stream = some s → (s, db.lastSeq s + 1) ∈ db'.positions
  kept : ∀ position ∈ db.positions, position ∈ db'.positions ∨ lost position

/-- The effect of an operation whose rows were there before, or are new and in order. -/
theorem effect_of_rows (hok : DbOk digest db) {st : Option Int} (hi : db.outboxIds ≤ db'.outboxIds)
    (hd : db.deadLetterIds ≤ db'.deadLetterIds)
    (ha : ∀ s, db'.lastSeq s = db.lastSeq s + if st = some s then 1 else 0)
    (hs : ∀ row ∈ db'.outbox.rows, (∃ before ∈ db.outbox.rows, before.id = row.id ∧ before.entry = row.entry ∧
        before.isTerminalPodDelete = row.isTerminalPodDelete) ∨
      (db.outboxIds < row.id ∧ row.id ≤ db'.outboxIds ∧ row.entry.Wf digest db'.lastSeq ∧
        (row.isTerminalPodDelete → row.entry.assigned)))
    (hde : ∀ dead ∈ db'.deadLetter.rows, dead ∈ db.deadLetter.rows ∨
      (db.deadLetterIds < dead.id ∧ dead.id ≤ db'.deadLetterIds ∧ dead.entry.Wf digest db.lastSeq))
    (hh : ∀ s, st = some s → (s, db.lastSeq s + 1) ∈ db'.positions)
    (hk : ∀ ps ∈ db.positions, ps ∈ db'.positions ∨ lost ps) : Effect digest db db' st lost := by
  have ho : ∀ s, db.lastSeq s ≤ db'.lastSeq s := by
    intro s
    rw [ha]
    split <;> omega
  refine ⟨⟨?_, ?_, ?_, ?_, ?_, fun s => le_trans (hok.lastSeq_nonneg s) (ho s)⟩, ⟨hi, hd, ?_, ?_⟩, ha, hh, hk⟩
  · intro row hr
    rcases hs row hr with ⟨before, hm, hid, -, -⟩ | ⟨-, hle, -⟩
    · exact hid ▸ le_trans (hok.rowIds before hm) hi
    · exact hle
  · intro dead hm
    rcases hde dead hm with hl | ⟨-, hle, -⟩
    · exact le_trans (hok.deadIds dead hl) hd
    · exact hle
  · intro row hr
    rcases hs row hr with ⟨before, hm, -, he, -⟩ | ⟨-, -, hf, -⟩
    · exact he ▸ (hok.rows before hm).mono ho
    · exact hf
  · intro dead hm
    rcases hde dead hm with hl | ⟨-, -, hf⟩
    · exact (hok.dead dead hl).mono ho
    · exact hf.mono ho
  · intro row hr ht
    rcases hs row hr with ⟨before, hm, -, he, hte⟩ | ⟨-, -, -, htr⟩
    · exact he ▸ hok.terminal before hm (hte ▸ ht)
    · exact htr ht
  · intro row hr hle
    rcases hs row hr with ⟨before, hm, hid, he, -⟩ | ⟨hn, -⟩
    · exact ⟨before, hm, hid, he⟩
    · omega
  · intro dead hm hle
    rcases hde dead hm with hl | ⟨hn, -⟩
    · exact hl
    · omega

/-! ## Operations that keep the entries -/

theorem updateWhere_effect (hok : DbOk digest db) {f : OutboxRow → OutboxRow} {hk : ∀ row, (f row).id = row.id}
    (he : ∀ row, (f row).entry = row.entry) (ht : ∀ row, (f row).isTerminalPodDelete = row.isTerminalPodDelete) :
    Effect digest db { db with outbox := db.outbox.updateWhere p f hk } none fun _ => False := by
  refine effect_of_rows hok le_rfl le_rfl (fun s => by simp [lastSeq]) ?_ (fun _ h => .inl h) nofun ?_
  · intro row (hr : row ∈ (db.outbox.updateWhere p f hk).rows)
    obtain ⟨bef, hm, rfl⟩ := mem_updateWhere.1 hr
    refine .inl ⟨bef, hm, ?_⟩
    split
    · exact ⟨(hk bef).symm, (he bef).symm, (ht bef).symm⟩
    · exact ⟨rfl, rfl, rfl⟩
  · intro po hpos
    refine .inl (mem_positions.2 ?_)
    rcases mem_positions.1 hpos with ⟨row, hr, ha, hp⟩ | hde
    · have hm : (if p row then f row else row) ∈ (db.outbox.updateWhere p f hk).rows :=
        mem_updateWhere.2 ⟨row, hr, rfl⟩
      refine .inl ⟨_, hm, ?_⟩
      split
      · rw [he]
        exact ⟨ha, hp⟩
      · exact ⟨ha, hp⟩
    · exact .inr hde

theorem deleteWhere_effect (hok : DbOk digest db) :
    Effect digest db { db with outbox := db.outbox.deleteWhere p } none fun position =>
      ∃ row ∈ db.outbox.rows, p row ∧ row.entry.assigned ∧ row.entry.position = position := by
  refine effect_of_rows hok le_rfl le_rfl (fun s => by simp [lastSeq])
    (fun row hr => .inl ⟨row, (mem_deleteWhere.1 hr).1, rfl, rfl, rfl⟩) (fun _ h => .inl h) nofun ?_
  intro position hpos
  rcases mem_positions.1 hpos with ⟨row, hr, ha, hp⟩ | hde
  · cases hd : p row with
    | true => exact .inr ⟨row, hr, hd, ha, hp⟩
    | false => exact .inl (mem_positions.2 (.inl ⟨row, mem_deleteWhere.2 ⟨hr, hd⟩, ha, hp⟩))
  · exact .inl (mem_positions.2 (.inr hde))

theorem Effect.refl (hok : DbOk digest db) (lost : Position → Prop) : Effect digest db db none lost :=
  effect_of_rows hok le_rfl le_rfl (fun s => by simp)
    (fun row hr => .inl ⟨row, hr, rfl, rfl, rfl⟩) (fun _ h => .inl h) nofun fun _ h => .inl h

theorem Effect.trans {db'' : OutboxDb} (h : Effect digest db db' none fun _ => False)
    (h' : Effect digest db' db'' none fun _ => False) : Effect digest db db'' none fun _ => False := by
  refine ⟨h'.ok, ⟨le_trans h.step.ids h'.step.ids, le_trans h.step.deadIds h'.step.deadIds, ?_, ?_⟩, ?_, nofun, ?_⟩
  · intro row hr hid
    obtain ⟨mi, hm, hi, he⟩ := h'.step.old row hr (le_trans hid h.step.ids)
    obtain ⟨bef, hb, hd, heb⟩ := h.step.old mi hm (hi ▸ hid)
    exact ⟨bef, hb, hd.trans hi, heb.trans he⟩
  · intro dead hde hid
    exact h.step.oldDead dead (h'.step.oldDead dead hde (le_trans hid h.step.deadIds)) hid
  · intro s
    simpa [h.lastSeq s] using h'.lastSeq s
  · intro po hpos
    rcases h.kept po hpos with hm | hno
    · exact h'.kept po hm
    · exact hno.elim

theorem Effect.weaken {st : Option Int} {lost' : Position → Prop} (h : Effect digest db db' st lost)
    (hl : ∀ ps, lost ps → lost' ps) : Effect digest db db' st lost' :=
  ⟨h.ok, h.step, h.lastSeq, h.handed, fun ps hpos => (h.kept ps hpos).imp_right (hl ps)⟩

section

variable (hok : DbOk digest db)
include hok

theorem claimDueOutbox_effect (nowMs : Int) (li : Nat) (ms : Int) (leaseToken : String) :
    Effect digest db (db.claimDueOutbox nowMs li ms leaseToken).2 none fun _ => False := by
  unfold claimDueOutbox
  simp only
  generalize db.claimCandidates nowMs (min li 256) = candidates
  -- one lease after the other; the entries stay
  induction candidates generalizing db with
  | nil => exact Effect.refl hok _
  | cons row tl ih =>
    have hl : Effect digest db (db.setLease row.id (saturatingAdd nowMs (max ms 1)) leaseToken nowMs) none
        fun _ => False := updateWhere_effect hok (fun _ => rfl) fun _ => rfl
    exact hl.trans (ih hl.ok)

/-! ## Dead letters -/

theorem moveToDeadLetter_effect (hr : row ∈ db.outbox.rows) {attempts : Int} {lastError : String}
    (h : db.moveToDeadLetter row attempts lastError = .ok db') : Effect digest db db' none fun _ => False := by
  unfold moveToDeadLetter at h
  split at h
  · exact nomatch h
  cases h
  have hn : db.deadLetterIds < db.deadLetterIds + 1 := Int.lt_succ _
  refine effect_of_rows hok le_rfl (le_of_lt hn) (fun s => by simp [lastSeq])
    (fun other ho => .inl ⟨other, (mem_deleteWhere.1 ho).1, rfl, rfl, rfl⟩)
    (fun dead hd => ?_) nofun ?_
  · rcases mem_put.1 hd with rfl | ⟨hl, -⟩
    · exact .inr ⟨hn, le_rfl, hok.rows row hr⟩
    · exact .inl hl
  intro po hpos
  refine .inl (mem_positions.2 ?_)
  rcases mem_positions.1 hpos with ⟨other, ho, ha, hp⟩ | ⟨dead, hm, ha, hp⟩
  · by_cases hi : other.id = row.id
    · obtain rfl : other = row := inj_on_of_nodup_map db.outbox.nodup ho hr hi
      exact .inr ⟨_, mem_put.2 (.inl rfl), ha, hp⟩
    · exact .inl ⟨other, mem_deleteWhere.2 ⟨ho, by simpa using hi⟩, ha, hp⟩
  · have hne : dead.id ≠ db.deadLetterIds + 1 := by
      have := hok.deadIds dead hm
      omega
    exact .inr ⟨dead, mem_put.2 (.inr ⟨hm, hne⟩), ha, hp⟩

theorem recordOutboxFailure_effect {id : Int} {e : String} (h : db.recordOutboxFailure id tk ba e ma = .ok db') :
    Effect digest db db' none fun _ => False := by
  unfold recordOutboxFailure at h
  split at h
  · cases h
    exact Effect.refl hok _
  · rename_i row hi
    obtain ⟨hf, -⟩ := Option.filter_eq_some_iff.1 hi
    simp only at h
    split at h
    · exact moveToDeadLetter_effect hok (find_mem hf) h
    · cases h
      exact updateWhere_effect hok (fun _ => rfl) fun _ => rfl

theorem moveOutboxToDeadLetterIfMaxAttempts_effect {i : String}
    (h : db.moveOutboxToDeadLetterIfMaxAttempts i ma = .ok db') :
    Effect digest db db' none fun _ => False := by
  unfold moveOutboxToDeadLetterIfMaxAttempts at h
  split at h
  · cases h
    exact Effect.refl hok _
  · rename_i row hf
    split at h
    · cases h
      exact Effect.refl hok _
    · exact moveToDeadLetter_effect hok (mem_of_find?_eq_some hf) h

theorem deleteDeadLetter_effect (id : Int) : Effect digest db (db.deleteDeadLetter id) none fun _ => False := by
  refine effect_of_rows hok le_rfl le_rfl (fun s => by simp [lastSeq, deleteDeadLetter])
    (fun row hr => .inl ⟨row, hr, rfl, rfl, rfl⟩)
    (fun dead hd => .inl (mem_deleteWhere.1 hd).1) nofun ?_
  intro po hpos
  refine .inl (mem_positions.2 ?_)
  rcases mem_positions.1 hpos with hr | ⟨dead, hd, ha, hp⟩
  · exact .inl hr
  · obtain ⟨hs, he⟩ := assigned_iff.1 ha
    refine .inr ⟨dead, mem_deleteWhere.2 ⟨hd, ?_⟩, ha, hp⟩
    have h0 : dead.entry.streamId ≠ 0 := by omega
    have h1 : dead.entry.streamSeq ≠ 0 := by omega
    simp [h0, h1]

end

/-! ## Inserts -/

theorem insertRow_ok {nex : Int} (h : db.insertRow en c nex = .ok db') :
    ∃ row : OutboxRow, row.id = db.outboxIds + 1 ∧ row.entry = en ∧
      (row.isTerminalPodDelete → c.terminalDelete = .actorOwnedPodDelete) ∧
      db' = { db with outbox := db.outbox.put row, outboxIds := db.outboxIds + 1 } := by
  unfold insertRow at h
  split at h
  · exact nomatch h
  split at h
  · exact nomatch h
  split at h
  · exact nomatch h
  cases h
  exact ⟨_, rfl, rfl, fun ht => of_decide_eq_true ht, rfl⟩

theorem ensureOutboxClientId_eq (db : OutboxDb) (fresh : String) :
    ∃ clientId, (db.ensureOutboxClientId fresh).2 = { db with clientId } := by
  unfold ensureOutboxClientId
  split
  · rename_i clientId hs
    exact ⟨some clientId, by rw [← hs]⟩
  · exact ⟨some fresh, rfl⟩

theorem allocate_seq {s : Int} (hok : DbOk digest db) (h : db.lastSeq s < i64Max) :
    (db.allocateNextOutboxStreamSeq s).1 = db.lastSeq s + 1 := by
  have h0 := hok.lastSeq_nonneg s
  show saturatingAdd (db.lastSeq s) 1 = db.lastSeq s + 1
  unfold saturatingAdd i64Max at *
  omega

theorem allocate_lastSeq {s : Int} (hok : DbOk digest db) (h : db.lastSeq s < i64Max) (t : Int) :
    (db.allocateNextOutboxStreamSeq s).2.lastSeq t = db.lastSeq t + if some s = some t then 1 else 0 := by
  have hseq := allocate_seq hok h
  unfold allocateNextOutboxStreamSeq at hseq ⊢
  simp only [lastSeq, find_put, Option.some.injEq] at hseq ⊢
  split
  · rename_i heq
    subst heq
    simpa using hseq
  · simp

/-- One row is inserted, and dead letters may go. -/
structure Inserted (db db' : OutboxDb) (row : OutboxRow) (gone : DeadLetterRow → Bool) : Prop where
  id : row.id = db.outboxIds + 1
  rows : db'.outbox = db.outbox.put row
  ids : db'.outboxIds = db.outboxIds + 1
  dead : db'.deadLetter = db.deadLetter.deleteWhere gone
  deadIds : db'.deadLetterIds = db.deadLetterIds

section Insert

variable {row : OutboxRow} {g : DeadLetterRow → Bool}

/-- Inserting a row with its position, while dead letters that hold the same position may go. -/
theorem insert_effect (hok : DbOk digest db) (hin : Inserted db db' row g) {st : Option Int}
    (hla : ∀ s, db'.lastSeq s = db.lastSeq s + if st = some s then 1 else 0) (hf : row.entry.Wf digest db'.lastSeq)
    (ht : row.isTerminalPodDelete → row.entry.assigned)
    (hh : ∀ s, st = some s → row.entry.assigned ∧ row.entry.position = (s, db.lastSeq s + 1))
    (hgone : ∀ dead ∈ db.deadLetter.rows, g dead → dead.entry.assigned →
      row.entry.assigned ∧ row.entry.position = dead.entry.position) :
    Effect digest db db' st fun _ => False := by
  obtain ⟨hid, hr, hi, hd, he⟩ := hin
  have hn : row ∈ db'.outbox.rows := by
    rw [hr]
    exact mem_put.2 (.inl rfl)
  refine effect_of_rows hok (by omega) (by omega) hla ?_ ?_ ?_ ?_
  · intro other ho
    rw [hr] at ho
    rcases mem_put.1 ho with rfl | ⟨hl, -⟩
    · exact .inr ⟨by omega, by omega, hf, ht⟩
    · exact .inl ⟨other, hl, rfl, rfl, rfl⟩
  · intro dead hm
    rw [hd] at hm
    exact .inl (mem_deleteWhere.1 hm).1
  · intro s hs
    obtain ⟨ha, hp⟩ := hh s hs
    exact mem_positions.2 (.inl ⟨row, hn, ha, hp⟩)
  · intro position hpos
    refine .inl (mem_positions.2 ?_)
    rcases mem_positions.1 hpos with ⟨other, ho, ha, hp⟩ | ⟨dead, hm, ha, hp⟩
    · have hne : other.id ≠ row.id := by
        have := hok.rowIds other ho
        omega
      refine .inl ⟨other, ?_, ha, hp⟩
      rw [hr]
      exact mem_put.2 (.inr ⟨ho, hne⟩)
    · cases hg : g dead with
      | true =>
        obtain ⟨hra, hrp⟩ := hgone dead hm hg ha
        exact .inl ⟨row, hn, hra, hrp.trans hp⟩
      | false =>
        refine .inr ⟨dead, ?_, ha, hp⟩
        rw [hd]
        exact mem_deleteWhere.2 ⟨hm, hg⟩

variable (hok : DbOk digest db) (hin : Inserted db db' row g)
  (hgone : ∀ dead ∈ db.deadLetter.rows, g dead = true → dead.entry.assigned = false)

include hok hin hgone

theorem insert_next_effect {s : Int} (hs : s = outboxStreamId digest row.entry.subjectKey) (hm : db.lastSeq s < i64Max)
    (hl : db'.lastSeq = (db.allocateNextOutboxStreamSeq s).2.lastSeq)
    (hp : row.entry.position = (s, (db.allocateNextOutboxStreamSeq s).1)) :
    Effect digest db db' (some s) fun _ => False := by
  rw [allocate_seq hok hm] at hp
  have h0 := hok.lastSeq_nonneg s
  have hpos := outboxStreamId_pos digest row.entry.subjectKey
  obtain ⟨hr, he⟩ := Prod.mk.inj hp
  have hag : row.entry.assigned := assigned_iff.2 ⟨by omega, by omega⟩
  have hn : ∀ t, db'.lastSeq t = db.lastSeq t + if some s = some t then 1 else 0 := by
    intro t
    rw [hl, allocate_lastSeq hok hm t]
  refine insert_effect hok hin hn (.inr ⟨hr.trans hs, by omega, ?_⟩) (fun _ => hag) ?_ ?_
  · rw [hn, hr, if_pos rfl]
    omega
  · intro t ht
    cases ht
    exact ⟨hag, hp⟩
  · intro dead hd hg ha
    rw [hgone dead hd hg] at ha
    cases ha

theorem insert_unnumbered_effect (hl : db'.lastSeq = db.lastSeq) (hs : row.entry.position = (0, 0))
    (he : row.isTerminalPodDelete = false) : Effect digest db db' none fun _ => False := by
  refine insert_effect hok hin (fun s => by simp [hl]) (.inl ⟨congrArg Prod.fst hs, congrArg Prod.snd hs⟩) ?_ nofun ?_
  · intro ht
    rw [he] at ht
    cases ht
  · intro dead hd hg ha
    rw [hgone dead hd hg] at ha
    cases ha

end Insert

theorem deleteWhere_none (t : Table DeadLetterRow.id) : t.deleteWhere (fun _ => false) = t :=
  Table.ext (by simp [Table.deleteWhere])

theorem terminal_perSubject (h : c.terminalDelete = .actorOwnedPodDelete) : c.sequencePolicy = .perSubject :=
  c.sequenced (.inl h)

theorem enqueueOutbox_effect (hok : DbOk digest db) {ins : OutboxInsert}
    (hm : ins.classification.sequencePolicy = .perSubject → db.lastSeq (outboxStreamId digest ins.subjectKey) < i64Max)
    (h : db.enqueueOutbox digest ins fh = .ok db') :
    Effect digest db db'
      (if ins.classification.sequencePolicy = .perSubject then some (outboxStreamId digest ins.subjectKey)
        else none) fun _ => False := by
  unfold enqueueOutbox at h
  obtain ⟨cid, hc⟩ := ensureOutboxClientId_eq db fh
  simp only [hc] at h
  split at h
  · rename_i hp
    -- the sequence is allocated in the transaction that inserts the row
    obtain ⟨row, hi, he, -, rfl⟩ := insertRow_ok h
    rw [if_pos hp]
    exact insert_next_effect hok (by exact ⟨hi, rfl, rfl, (deleteWhere_none _).symm, rfl⟩)
      (fun _ _ hgone => absurd hgone false_ne_true) (by rw [he]; rfl) (hm hp) (by rfl)
      (by rw [he]; rfl)
  · rename_i hp
    obtain ⟨row, hi, he, hr, rfl⟩ := insertRow_ok h
    rw [if_neg hp]
    exact insert_unnumbered_effect hok (by exact ⟨hi, rfl, rfl, (deleteWhere_none _).symm, rfl⟩)
      (fun _ _ hgone => absurd hgone false_ne_true) (by rfl) (by rw [he]; rfl)
      (eq_false_iff.2 fun ht => hp (terminal_perSubject (hr ht)))

variable (digest) in
/-- A dead letter row that a replay has read: it may be gone by now, but its id stays its own. -/
structure ReplayOk (db : OutboxDb) (dead : DeadLetterRow) : Prop where
  wf : dead.entry.Wf digest db.lastSeq
  id_le : dead.id ≤ db.deadLetterIds
  same : ∀ row ∈ db.deadLetter.rows, row.id = dead.id → row.entry = dead.entry

/-- What a replay does: one inserted row with the position of the dead letter row, or with a new one. -/
theorem replayDeadLetter_ok (h : db.replayDeadLetter digest dead c fh no = .ok db') :
    ∃ (row : OutboxRow) (clientId : Option String),
      let placed := ({ db with clientId } : OutboxDb).replayPosition digest dead.entry (c.sequencePolicy = .perSubject)
      row.id = placed.2.2.outboxIds + 1 ∧ row.entry.subjectKey = dead.entry.subjectKey ∧
        row.entry.position = (placed.1, placed.2.1) ∧
        (row.isTerminalPodDelete → c.terminalDelete = .actorOwnedPodDelete) ∧
        db' = { placed.2.2 with
          outbox := placed.2.2.outbox.put row
          outboxIds := placed.2.2.outboxIds + 1
          deadLetter := placed.2.2.deadLetter.deleteWhere fun o => o.id = dead.id } := by
  unfold replayDeadLetter at h
  obtain ⟨clientId, hc⟩ : ∃ clientId, (if dead.entry.clientId = "" then db.ensureOutboxClientId fh
      else (dead.entry.clientId, db)).2 = { db with clientId } := by
    split
    · exact ensureOutboxClientId_eq db fh
    · exact ⟨db.clientId, rfl⟩
  simp only [hc] at h
  obtain ⟨ins, hin, hd'⟩ := bind_eq_ok.1 h
  obtain ⟨row, hi, he, ht, rfl⟩ := insertRow_ok hin
  refine ⟨row, clientId, hi, ?_, ?_, ht, (Except.ok.inj hd').symm⟩
  · rw [he]
  · rw [he]
    rfl

theorem replayDeadLetter_effect (hok : DbOk digest db) (hrp : ReplayOk digest db dead)
    (hrm : replayAllocates dead.entry classification → db.lastSeq (replayStream digest dead.entry) < i64Max)
    (h : db.replayDeadLetter digest dead classification fresh nowMs = .ok db') :
    Effect digest db db'
      (if replayAllocates dead.entry classification then some (replayStream digest dead.entry) else none)
      fun _ => False := by
  obtain ⟨row, cid, hd, hu, hp, hm, hd'⟩ := replayDeadLetter_ok h
  have hpos := outboxStreamId_pos digest dead.entry.subjectKey
  rcases hrp.wf with ⟨hs, hq⟩ | ⟨hs, hq, hla⟩
  · -- the row had no position
    have hgone : ∀ o ∈ db.deadLetter.rows, decide (o.id = dead.id) → o.entry.assigned = false := by
      intro o ho hi
      rw [hrp.same o ho (of_decide_eq_true hi), eq_false_iff, ne_eq, assigned_iff]
      omega
    by_cases he : classification.sequencePolicy = .perSubject
    · have hl : replayAllocates dead.entry classification := by simp [replayAllocates, hq, he]
      have hs' : replayStream digest dead.entry = outboxStreamId digest dead.entry.subjectKey := by
        rw [replayStream, if_neg (by omega)]
      rw [if_pos hl]
      have hr' := hrm hl
      rw [hs'] at hr' ⊢
      simp only [replayPosition, hs, hq, he, decide_true, lt_self_iff_false, ↓reduceIte]
        at hd hp hd'
      subst hd'
      exact insert_next_effect hok (by exact ⟨hd, rfl, rfl, rfl, rfl⟩) hgone (by rw [hu]) hr' (by rfl)
        hp
    · have hl : replayAllocates dead.entry classification = false := by simp [replayAllocates, he]
      rw [hl, if_neg Bool.false_ne_true]
      simp only [replayPosition, hs, hq, he, decide_false, lt_self_iff_false, ↓reduceIte, false_eq_true] at hd hp hd'
      subst hd'
      exact insert_unnumbered_effect hok (by exact ⟨hd, rfl, rfl, rfl, rfl⟩) hgone (by rfl) hp
        (eq_false_iff.2 fun ht => he (terminal_perSubject (hm ht)))
  · -- the row comes back with its own position
    have hst : 0 < dead.entry.streamId := by omega
    have hse : 0 < dead.entry.streamSeq := by omega
    have hl : replayAllocates dead.entry classification = false := by simp [replayAllocates, hse]
    rw [hl, if_neg Bool.false_ne_true]
    simp only [replayPosition, hst, hse, ↓reduceIte] at hd hp hd'
    obtain ⟨hro, hr⟩ := Prod.mk.inj hp
    have hg : row.entry.assigned := assigned_iff.2 ⟨by omega, by omega⟩
    subst hd'
    refine insert_effect hok (by exact ⟨hd, rfl, rfl, rfl, rfl⟩) (fun s => by simp [lastSeq])
      (.inr ⟨?_, by omega, ?_⟩) (fun _ => hg) nofun ?_
    · rw [hro, hs, hu]
    · rwa [hro, hr]
    · intro o ho hi ha
      refine ⟨hg, ?_⟩
      rwa [hrp.same o ho (of_decide_eq_true hi)]

/-! ## The invariant -/

variable {w : World}

variable (digest) in
/-- A task knows that the leader has answered everything before its row, and has the answer to its row when it is
about to remove it. -/
structure DispatchOk (db : OutboxDb) (answered : List Position) (d : Dispatch) : Prop where
  id_le : d.row.id ≤ db.outboxIds
  same : ∀ row ∈ db.outbox.rows, row.id = d.row.id → row.entry = d.row.entry
  before : d.row.entry.assigned = true → ∀ m, 1 ≤ m → m < d.row.entry.streamSeq → (d.row.entry.streamId, m) ∈ answered
  terminal : d.row.isTerminalPodDelete = true →
    d.row.entry.assigned = true ∧ d.row.entry.streamId = outboxStreamId digest d.row.entry.subjectKey
  complete : ∀ ops, d.stage = .settling ops → .complete ∈ ops → d.row.entry.assigned = true →
    d.row.entry.position ∈ answered
  supersede : ∀ ops, d.stage = .settling ops → .supersede ∈ ops → d.row.isTerminalPodDelete = true

variable (digest) in
/-- Every number a stream has handed out was answered for good or still has its row, and none was dropped. -/
structure World.Ordered (w : World) : Prop where
  db : DbOk digest w.db
  covered : ∀ s m, 1 ≤ m → m ≤ w.db.lastSeq s → (s, m) ∈ w.answered ∨ (s, m) ∈ w.db.positions
  inFlight : ∀ d ∈ w.inFlight, DispatchOk digest w.db w.answered d
  replays : ∀ r ∈ w.replays, ReplayOk digest w.db r.1
  dropped : w.dropped = []
  handedOut : ∀ s, (w.handedOut.filter fun position => position.1 = s).map Prod.snd =
    (List.range (w.db.lastSeq s).toNat).map fun i : Nat => (i : Int) + 1

theorem DispatchOk.of_step {a' : List Position} (h : DispatchOk digest db a d)
    (ht : DbStep db db') (hl : ∀ ps ∈ a, ps ∈ a') :
    DispatchOk digest db' a' d where
  id_le := le_trans h.id_le ht.ids
  same row hr hid := by
    obtain ⟨before, hb, hi, he⟩ := ht.old row hr (hid ▸ h.id_le)
    exact he ▸ h.same before hb (hi.trans hid)
  before ha m h1 hm := hl _ (h.before ha m h1 hm)
  terminal := h.terminal
  complete ops hs hc ha := hl _ (h.complete ops hs hc ha)
  supersede := h.supersede

theorem ReplayOk.of_effect {st : Option Int} (h : ReplayOk digest db dead) (he : Effect digest db db' st lost) :
    ReplayOk digest db' dead where
  wf := h.wf.mono fun s => by
    rw [he.lastSeq s]
    split <;> omega
  id_le := le_trans h.id_le he.step.deadIds
  same row hr hid := h.same row (he.step.oldDead row hr (hid ▸ h.id_le)) hid

theorem start_ordered : start.Ordered digest where
  db := by constructor <;> simp [start, OutboxDb.empty, OutboxDb.lastSeq]
  covered s m h1 hm := by
    simp only [start, OutboxDb.empty, OutboxDb.lastSeq, find_empty, Option.map_none, Option.getD_none] at hm
    omega
  inFlight _ hd := absurd hd not_mem_nil
  replays _ hr := absurd hr not_mem_nil
  dropped := rfl
  handedOut s := rfl

theorem commit_ordered {st : Option Int} (hw : w.Ordered digest)
    (he : Effect digest w.db db' st fun ps => ps ∈ w.answered) :
    (w.commit db' st).Ordered digest where
  db := he.ok
  covered s m h1 hm := by
    have hme : (s, m) ∈ w.answered ∨ (s, m) ∈ w.db.positions ∨ (s, m) ∈ db'.positions := by
      by_cases ho : m ≤ w.db.lastSeq s
      · exact (hw.covered s m h1 ho).imp_right .inl
      · -- the number that was handed out
        have hl := he.lastSeq s
        change m ≤ db'.lastSeq s at hm
        split at hl
        · rename_i hs
          obtain rfl : m = w.db.lastSeq s + 1 := by omega
          exact .inr (.inr (he.handed s hs))
        · omega
    rcases hme with ha | hp | hp
    · exact .inl ha
    · exact (he.kept _ hp).symm
    · exact .inr hp
  inFlight d hd := (hw.inFlight d hd).of_step he.step fun _ h => h
  replays r hr := (hw.replays r hr).of_effect he
  dropped := by
    show w.dropped ++ w.db.positions.filter _ = []
    rw [hw.dropped, nil_append, filter_eq_nil_iff]
    intro ps hpos
    rcases he.kept ps hpos with hk | ha
    · simp [hk]
    · simp [ha]
  handedOut s := by
    show ((w.handedOut ++ st.toList.map fun t => (t, db'.lastSeq t)).filter _).map Prod.snd = _
    rw [filter_append, map_append, hw.handedOut s]
    have hl := he.lastSeq s
    have h0 := hw.db.lastSeq_nonneg s
    change _ = (List.range (db'.lastSeq s).toNat).map _
    cases st with
    | none =>
      simp [hl]
    | some t =>
      rcases eq_or_ne t s with rfl | hts
      · rw [if_pos rfl] at hl
        have hn : (db'.lastSeq t).toNat = (w.db.lastSeq t).toNat + 1 := by omega
        rw [hn, range_succ, map_append]
        simp [hl]
        omega
      · have hne : ¬some t = some s := fun e => hts (Option.some.inj e)
        rw [if_neg hne, add_zero] at hl
        simp [hl, hts]

theorem commit_kept {st : Option Int} (hw : w.Ordered digest)
    (he : Effect digest w.db db' st fun _ => False) : (w.commit db' st).Ordered digest :=
  commit_ordered hw (he.weaken fun _ h => h.elim)

/-! ## Claims -/

theorem mem_claimDueOutbox (hok : DbOk digest db) {ms : Int} {li : Nat} (h : row ∈ (db.claimDueOutbox no li ms tk).1) :
    row ∈ (db.claimDueOutbox no li ms tk).2.outbox.rows ∧
      ∃ bef ∈ db.outbox.rows, bef.id = row.id ∧ bef.entry = row.entry ∧ db.claimable no bef := by
  have he := claimDueOutbox_effect hok no li ms tk
  obtain ⟨candidate, hc, hf⟩ := mem_filterMap.1 h
  have hl := find_mem hf
  have hd : row.id = candidate.id := find_key hf
  have hs := mem_of_mem_take hc
  rw [mem_insertionSort, mem_filter] at hs
  obtain ⟨hm, hcl⟩ := hs
  obtain ⟨bef, hb, hi, heb⟩ := he.step.old row hl (hd ▸ hok.rowIds candidate hm)
  obtain rfl : bef = candidate := inj_on_of_nodup_map db.outbox.nodup hb hm (hi.trans hd)
  exact ⟨hl, bef, hb, hi, heb, hcl⟩

theorem claimable_before (hw : w.Ordered digest) (hr : row ∈ w.db.outbox.rows) (hc : w.db.claimable no row)
    (ha : row.entry.assigned) {m : Int} (h1 : 1 ≤ m) (hm : m < row.entry.streamSeq) :
    (row.entry.streamId, m) ∈ w.answered := by
  have hla : row.entry.streamSeq ≤ w.db.lastSeq row.entry.streamId := by
    obtain ⟨ht, -⟩ := assigned_iff.1 ha
    rcases hw.db.rows row hr with ⟨h0, -⟩ | ⟨-, -, hle⟩
    · omega
    · exact hle
  rcases hw.covered row.entry.streamId m h1 (by omega) with hn | hpos
  · exact hn
  · -- a live or dead-lettered row with a lower number blocks the claim
    simp only [claimable, ha, ↓reduceIte, and_eq_true, all_eq_true] at hc
    obtain ⟨-, hl, hd⟩ := hc
    have h0 : 0 < m := by omega
    rcases mem_positions.1 hpos with ⟨older, he, -, hp⟩ | ⟨dead, he, -, hp⟩
    · obtain ⟨hs, hq⟩ := Prod.mk.inj hp
      simpa [hs, hq, hm, h0] using hl older he
    · obtain ⟨hs, hq⟩ := Prod.mk.inj hp
      simpa [hs, hq, hm, h0] using hd dead he

/-! ## Tasks -/

theorem World.Ordered.setInFlight (hw : w.Ordered digest) {tasks : List Dispatch}
    (ht : ∀ d ∈ tasks, DispatchOk digest w.db w.answered d) : { w with inFlight := tasks }.Ordered digest :=
  ⟨hw.db, hw.covered, ht, hw.replays, hw.dropped, hw.handedOut⟩

theorem World.Ordered.setStage (hw : w.Ordered digest) {t : Nat} {stage : Stage}
    (hd : DispatchOk digest w.db w.answered { d with stage }) : (w.setStage t d stage).Ordered digest := by
  refine hw.setInFlight fun o ho => ?_
  rcases mem_or_eq_of_mem_set ho with hl | rfl
  · exact hw.inFlight o hl
  · exact hd

theorem World.Ordered.recordAnswer (hw : w.Ordered digest) (row : OutboxRow) (an : DeliveryAnswer) :
    (w.recordAnswer row an).Ordered digest := by
  unfold World.recordAnswer
  split
  · exact ⟨hw.db, fun s m h1 hm => (hw.covered s m h1 hm).imp_left (mem_append_left _),
      fun d hd => (hw.inFlight d hd).of_step (Effect.refl hw.db fun _ => False).step fun _ => mem_append_left _,
      hw.replays, hw.dropped, hw.handedOut⟩
  · exact hw

theorem DispatchOk.restage {stage : Stage} (h : DispatchOk digest db a d)
    (ho : ∀ ops, stage = .settling ops → .complete ∈ ops → d.row.entry.assigned → d.row.entry.position ∈ a)
    (hs : ∀ ops, stage = .settling ops → .supersede ∈ ops → d.row.isTerminalPodDelete) :
    DispatchOk digest db a { d with stage } :=
  ⟨h.id_le, h.same, h.before, h.terminal, ho, hs⟩

theorem beginDelivery_ops {s : Bool} {e : String} (h : beginDelivery row s ba e = some ops) :
    (.complete ∈ ops → row.entry.assigned = false) ∧ .supersede ∉ ops := by
  unfold beginDelivery at h
  simp only at h
  split at h
  · rename_i hc
    cases h
    simp only [and_eq_true, not_eq_true'] at hc
    exact ⟨fun _ => hc.2, by simp⟩
  split at h
  · cases h
    exact ⟨by simp, by simp⟩
  split at h
  · exact nomatch h
  · cases h
    exact ⟨by simp, by simp⟩

/-- A delivered row is removed only after a final answer, and a cleanup follows a Pod delete only. -/
theorem settle_ops {m : String} {an : DeliveryAnswer} : (.complete ∈ settle row ba no m an → isFinal an) ∧
      (.supersede ∈ settle row ba no m an → row.isTerminalPodDelete) := by
  cases an with
  | ok ou =>
    refine ⟨fun _ => rfl, fun h => ?_⟩
    cases ht : row.isTerminalPodDelete with
    | true => rfl
    | false => simp [settle, ht] at h
  | error error =>
    unfold settle
    simp only
    split
    · rename_i he
      refine ⟨fun _ => he, fun h => ?_⟩
      split at h <;> simp at h
    · split <;> simp

section

variable (hw : w.Ordered digest)
include hw

theorem claim_ordered (nowMs : Int) (li : Nat) (ms : Int) (leaseToken : String) :
    (w.step digest (.claim nowMs li ms leaseToken)).Ordered digest := by
  have he := claimDueOutbox_effect hw.db nowMs li ms leaseToken
  have hc := commit_kept hw he
  refine hc.setInFlight fun d hd => ?_
  rcases mem_append.1 hd with hol | hnew
  · exact hc.inFlight d hol
  · obtain ⟨row, hr, hd⟩ := mem_filterMap.1 hnew
    obtain ⟨tok, -, rfl⟩ := Option.map_eq_some_iff.1 hd
    obtain ⟨hl, bef, hb, hi, heb, hcl⟩ := mem_claimDueOutbox hw.db hr
    refine ⟨he.ok.rowIds row hl, ?_, ?_, ?_, nofun, nofun⟩
    · intro o ho hid
      rw [inj_on_of_nodup_map (Table.nodup _) ho hl hid]
    · intro ha m h1 hm
      rw [← heb] at ha hm ⊢
      exact claimable_before hw hb hcl ha h1 hm
    · intro ht
      have ha := he.ok.terminal row hl ht
      exact ⟨ha, (he.ok.rows row hl).stream ha⟩

/-! ## Removals -/

theorem SettleOp.run_effect (hd : DispatchOk digest w.db w.answered d) {op : SettleOp}
    (hsg : d.stage = .settling (op :: ops))
    (ho : op = .supersede → ∀ st ∈ w.db.outbox.rows,
      st.superseded d.row.entry.subjectKey d.row.id → st.entry.streamSeq < d.row.entry.streamSeq) :
    Effect digest w.db (op.run w.db d.row d.leaseToken) none fun pos => pos ∈ w.answered := by
  cases op with
  | complete =>
    refine (deleteWhere_effect hw.db).weaken ?_
    rintro pos ⟨row, hro, hgone, ha, rfl⟩
    simp only [and_eq_true, decide_eq_true_eq] at hgone
    rw [hd.same row hro hgone.1] at ha ⊢
    exact hd.complete _ hsg mem_cons_self ha
  | supersede =>
    refine (deleteWhere_effect hw.db).weaken ?_
    rintro pos ⟨st, hm, hgone, ha, rfl⟩
    have hlt := ho rfl st hm hgone
    obtain ⟨hg, ht⟩ := hd.terminal (hd.supersede _ hsg mem_cons_self)
    -- a status of the same subject is on the stream of the Pod delete
    have hs : st.entry.subjectKey = d.row.entry.subjectKey := by
      simp only [OutboxRow.superseded, and_eq_true, decide_eq_true_eq] at hgone
      exact hgone.1.1.1
    have heq : st.entry.streamId = d.row.entry.streamId := by
      rw [(hw.db.rows st hm).stream ha, ht, hs]
    obtain ⟨-, hq⟩ := assigned_iff.1 ha
    have hb := hd.before hg st.entry.streamSeq (by omega) hlt
    rwa [← heq] at hb
  | markFailed ba er =>
    have he : Effect digest w.db (w.db.markOutboxAttemptFailed d.row.id d.leaseToken ba er) none
        fun _ => False := updateWhere_effect hw.db (fun _ => rfl) fun _ => rfl
    exact he.weaken fun _ h => h.elim
  | recordFailure ba er ma =>
    unfold SettleOp.run
    simp only
    split
    · rename_i db' hr
      exact (recordOutboxFailure_effect hw.db hr).weaken fun _ h => h.elim
    · exact Effect.refl hw.db _

theorem settle_ordered {t : Nat} {f : Bool} (hl : w.allowed digest (.settle t f)) :
    (w.step digest (.settle t f)).Ordered digest := by
  unfold step settleStep
  simp only
  split
  · rename_i row tk op ops hg
    have hd := hw.inFlight _ (mem_of_getElem? hg)
    have ht : (w.setStage t ⟨row, tk, .claimed⟩ (.settling ops)).Ordered digest := by
      refine hw.setStage ⟨hd.id_le, hd.same, hd.before, hd.terminal, ?_, ?_⟩
      · rintro _ ⟨⟩ hc ha
        exact hd.complete _ rfl (mem_cons_of_mem _ hc) ha
      · rintro _ ⟨⟩ hs
        exact hd.supersede _ rfl (mem_cons_of_mem _ hs)
    cases f with
    | true => exact ht
    | false =>
      refine commit_ordered ht (SettleOp.run_effect hw hd rfl ?_)
      rintro rfl st hst hu
      simp only [allowed, cleanupInOrder, hg, all_eq_true] at hl
      simpa [hu] using hl st hst
  · exact hw

/-! ## Steps and runs -/

theorem step_ordered {step : Step} (hl : w.allowed digest step) : (w.step digest step).Ordered digest := by
  cases step with
  | enqueue row fr =>
    unfold step
    simp only
    split
    · exact hw
    · rename_i db hdb
      have hrm : row.classification.sequencePolicy = .perSubject →
          w.db.lastSeq (outboxStreamId digest row.subjectKey) < i64Max := by
        intro hp
        simpa [allowed, hp] using hl
      exact commit_kept hw (enqueueOutbox_effect hw.db hrm hdb)
  | claim no li ms tk => exact claim_ordered hw no li ms tk
  | begin task ec ba er =>
    unfold step
    simp only
    split
    · rename_i row tk hg
      have hd := hw.inFlight _ (mem_of_getElem? hg)
      cases hb : beginDelivery row ec ba er with
      | none => exact hw.setStage (hd.restage nofun nofun)
      | some ops =>
        obtain ⟨ho, hu⟩ := beginDelivery_ops hb
        refine hw.setStage (hd.restage ?_ ?_)
        · rintro _ ⟨⟩ hc ha
          exact absurd ha (eq_false_iff.1 (ho hc))
        · rintro _ ⟨⟩ hs
          exact absurd hs hu
    · exact hw
  | answer task answer ba no mg =>
    unfold step
    simp only
    split
    · rename_i row tk hg
      have he := hw.recordAnswer row answer
      have heq : (w.recordAnswer row answer).inFlight = w.inFlight := by
        unfold recordAnswer
        split <;> rfl
      have hd := he.inFlight ⟨row, tk, .delivering⟩ (by
        rw [heq]
        exact mem_of_getElem? hg)
      refine he.setStage (hd.restage ?_ ?_)
      · rintro _ ⟨⟩ hc ha
        have hf := settle_ops.1 hc
        unfold recordAnswer
        rw [hf, ha, Bool.and_self, if_pos rfl]
        exact mem_append_right _ mem_cons_self
      · rintro _ ⟨⟩ hs
        exact settle_ops.2 hs
    · exact hw
  | settle task fa => exact settle_ordered hw hl
  | renew id tk lea =>
    exact commit_kept hw (updateWhere_effect hw.db (fun _ => rfl) fun _ => rfl)
  | requeueExpired no =>
    exact commit_kept hw (updateWhere_effect hw.db (fun _ => rfl) fun _ => rfl)
  | crash =>
    exact ⟨hw.db, hw.covered, fun _ hd => absurd hd not_mem_nil, fun _ hr => absurd hr not_mem_nil,
      hw.dropped, hw.handedOut⟩
  | moveDeadLetter ide ma =>
    unfold step
    simp only
    split
    · exact hw
    · rename_i db hdb
      exact commit_kept hw (moveOutboxToDeadLetterIfMaxAttempts_effect hw.db hdb)
  | deleteDeadLetter id => exact commit_kept hw (deleteDeadLetter_effect hw.db id)
  | readReplay id c =>
    unfold step
    simp only
    split
    · exact hw
    · rename_i dead hi
      refine ⟨hw.db, hw.covered, hw.inFlight, fun r hr => ?_, hw.dropped, hw.handedOut⟩
      rcases mem_append.1 hr with hol | hnew
      · exact hw.replays r hol
      · obtain rfl := mem_singleton.1 hnew
        have hm := find_mem hi
        refine ⟨hw.db.dead dead hm, hw.db.deadIds dead hm, fun row hro hid => ?_⟩
        rw [inj_on_of_nodup_map (Table.nodup _) hro hm hid]
  | replay task fr no =>
    unfold step
    simp only
    split
    · exact hw
    · rename_i dead c hg
      have her : { w with replays := w.replays.eraseIdx task }.Ordered digest :=
        ⟨hw.db, hw.covered, hw.inFlight, fun r hr => hw.replays r (mem_of_mem_eraseIdx hr), hw.dropped, hw.handedOut⟩
      split
      · exact her
      · rename_i db hdb
        have hrp := hw.replays _ (mem_of_getElem? hg)
        have hrm : replayAllocates dead.entry c → w.db.lastSeq (replayStream digest dead.entry) < i64Max := by
          intro hal
          simpa [allowed, hg, hal] using hl
        exact commit_kept her (replayDeadLetter_effect hw.db hrp hrm hdb)

theorem run_ordered {st : List Step} (ha : w.allowedRun digest st) : (w.run digest st).Ordered digest := by
  induction st generalizing w with
  | nil => exact hw
  | cons ste st ih =>
    obtain ⟨hs, hss⟩ := and_eq_true_iff.1 ha
    exact ih (step_ordered hw hs) hss

end

end

/-- In every run whose cleanups follow the sequence numbers, a stream hands out 1, 2, 3, … in enqueue order, and when a
row with a position is claimed the leader has given a final answer to every lower number of its stream, before that
number's row went. -/
theorem outbox_delivers_in_order (digest : String → BitVec 64) (steps : List Step)
    (hallowed : start.allowedRun digest steps = true) :
    let w := start.run digest steps
    (∀ s, (w.handedOut.filter fun ps => ps.1 = s).map Prod.snd =
      (List.range (w.db.lastSeq s).toNat).map fun i : Nat => (i : Int) + 1) ∧
    ∀ nowMs li ms leaseToken, ∀ row ∈ (w.db.claimDueOutbox nowMs li ms leaseToken).1,
      row.entry.assigned → ∀ m, 1 ≤ m → m < row.entry.streamSeq →
        (row.entry.streamId, m) ∈ w.answered ∧ (row.entry.streamId, m) ∉ w.dropped := by
  intro w
  have hw : w.Ordered digest := run_ordered start_ordered hallowed
  refine ⟨hw.handedOut, fun nowMs li ms leaseToken row hr ha m h1 hm => ⟨?_, ?_⟩⟩
  · obtain ⟨-, bef, hb, -, he, hc⟩ := mem_claimDueOutbox hw.db hr
    rw [← he] at ha hm ⊢
    exact claimable_before hw hb hc ha h1 hm
  · rw [hw.dropped]
    exact not_mem_nil

/-- No update is lost: whatever crashes, lapses or is replayed, a number that a stream has handed out was answered for
good, or its row is live or dead-lettered. -/
theorem outbox_loses_nothing (digest : String → BitVec 64) (steps : List Step)
    (hallowed : start.allowedRun digest steps = true) :
    let w := start.run digest steps
    ∀ position ∈ w.handedOut, position ∈ w.answered ∨ position ∈ w.db.positions := by
  rintro w ⟨s, m⟩ hp
  have hw : w.Ordered digest := run_ordered start_ordered hallowed
  have hm : m ∈ (w.handedOut.filter fun position => position.1 = s).map Prod.snd :=
    mem_map.2 ⟨(s, m), mem_filter.2 ⟨hp, by simp⟩, rfl⟩
  rw [hw.handedOut] at hm
  obtain ⟨i, hi, rfl⟩ := mem_map.1 hm
  have hlt := mem_range.1 hi
  exact hw.covered s _ (by omega) (by omega)

/-- A stream has one position in flight at a time: of two tasks with rows of one stream that wait for an answer, both
have the same position. -/
theorem outbox_one_in_flight (digest : String → BitVec 64) (steps : List Step)
    (hallowed : start.allowedRun digest steps = true) :
    let w := start.run digest steps
    ∀ d ∈ w.inFlight, ∀ d' ∈ w.inFlight, d.row.entry.assigned → d'.row.entry.assigned →
      d.row.entry.streamId = d'.row.entry.streamId → d.row.entry.position ∉ w.answered →
      d'.row.entry.position ∉ w.answered → d.row.entry.position = d'.row.entry.position := by
  intro w d hd d' hd' ha ha' hs hn hn'
  have hw : w.Ordered digest := run_ordered start_ordered hallowed
  -- the task with the greater number was claimed after the answer to the other
  rcases lt_trichotomy d.row.entry.streamSeq d'.row.entry.streamSeq with hlt | heq | hgt
  · refine absurd ((hw.inFlight d' hd').before ha' _ ?_ hlt) (hs ▸ hn)
    have := assigned_iff.1 ha
    omega
  · exact Prod.ext hs heq
  · refine absurd ((hw.inFlight d hd).before ha _ ?_ hgt) (hs.symm ▸ hn')
    have := assigned_iff.1 ha'
    omega

/-! ## A Pod delete that comes back behind a later status -/

def podDelete : OutboxClassification :=
  ⟨.workload, .never, .actorOwnedPodDelete, .perSubject, fun _ => rfl, fun _ => rfl⟩

def podStatus : OutboxClassification :=
  ⟨.workload, .podStatus, .notTerminalDelete, .perSubject, nofun, fun _ => rfl⟩

def podInsert (idempotencyKey operation : String) (classification : OutboxClassification) : OutboxInsert :=
  ⟨idempotencyKey, 0, "v1/Pod/default/web/uid-1", "Pod", "uid-1", operation, classification, [1], 0⟩

/-- A Pod delete is refused and dead-lettered, a status is enqueued behind it, and the delete is replayed, delivered
and completed. -/
def replayedDelete : List Step :=
  [.enqueue (podInsert "delete" "PodMetadata" podDelete) "client", .claim 1 1 10 "lease-1", .begin 0 true 0 "",
    .answer 0 (.error (.conflictTerminal "refused")) 0 1 "refused", .settle 0 false,
    .enqueue (podInsert "status-2" "PodStatus" podStatus) "client",
    .readReplay 1 podDelete, .replay 0 "client" 2, .claim 3 1 10 "lease-2", .begin 1 true 0 "",
    .answer 1 (.ok (.applied 7)) 0 3 "", .settle 1 false]

/-- Up to here the run is in order: the status is claimed next, after its Pod delete. -/
theorem outbox_delivers_in_order_replayedDelete :
    let w := start.run (fun _ => 7) replayedDelete
    start.allowedRun (fun _ => 7) replayedDelete ∧
      (w.db.claimDueOutbox 4 1 10 "lease-3").1.map (fun row => row.entry.position) = [(7, 2)] ∧
      (7, 1) ∈ w.answered ∧ (7, 1) ∉ w.dropped := by
  intro w
  have ha : start.allowedRun (fun _ => 7) replayedDelete := by decide +kernel
  have hc : (w.db.claimDueOutbox 4 1 10 "lease-3").1.map (fun row => row.entry.position) = [(7, 2)] := by
    decide +kernel
  obtain ⟨row, hr, hp⟩ : ∃ row ∈ (w.db.claimDueOutbox 4 1 10 "lease-3").1, row.entry.position = (7, 2) := by
    rw [← mem_map, hc]
    exact mem_cons_self
  obtain ⟨hs, he⟩ := Prod.mk.inj hp
  have hb := (outbox_delivers_in_order (fun _ => 7) replayedDelete ha).2 4 1 10 "lease-3" row hr
    (assigned_iff.2 ⟨by omega, by omega⟩) 1 (by omega) (by omega)
  rw [hs] at hb
  exact ⟨ha, hc, hb⟩

theorem outbox_loses_nothing_replayedDelete :
    let w := start.run (fun _ => 7) replayedDelete
    (7, 2) ∈ w.handedOut ∧ ((7, 2) ∈ w.answered ∨ (7, 2) ∈ w.db.positions) := by
  intro w
  have hm : (7, 2) ∈ w.handedOut := by decide +kernel
  exact ⟨hm, outbox_loses_nothing (fun _ => 7) replayedDelete (by decide +kernel) (7, 2) hm⟩

theorem outbox_one_in_flight_replayedDelete :
    let w := start.run (fun _ => 7) (replayedDelete.take 3)
    w.inFlight ≠ [] ∧ ∀ d ∈ w.inFlight, ∀ d' ∈ w.inFlight, d.row.entry.position = d'.row.entry.position := by
  intro w
  have h : ∀ d ∈ w.inFlight, d.row.entry.assigned ∧ d.row.entry.streamId = 7 ∧ d.row.entry.position ∉ w.answered := by
    decide +kernel
  refine ⟨ne_nil_of_length_pos (by decide +kernel), fun d hd d' hd' => ?_⟩
  obtain ⟨ha, hs, hn⟩ := h d hd
  obtain ⟨ha', hs', hn'⟩ := h d' hd'
  exact outbox_one_in_flight (fun _ => 7) (replayedDelete.take 3) (by decide +kernel) d hd d' hd' ha ha'
    (hs.trans hs'.symm) hn hn'

/-- The cleanup then drops that status, because its id is lower, and the next status is claimed over the gap. -/
theorem replayed_delete_drops_status :
    let w := start.run (fun _ => 7)
      (replayedDelete ++ [.settle 1 false, .enqueue (podInsert "status-3" "PodStatus" podStatus) "client"])
    (w.db.claimDueOutbox 4 1 10 "lease-3").1.map (fun row => row.entry.position) = [(7, 3)] ∧
      (7, 2) ∉ w.answered ∧ (7, 2) ∈ w.dropped := by
  decide +kernel

end Klights.Node
