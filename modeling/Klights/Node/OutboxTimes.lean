import Klights.Lib.Runs
import Klights.Node.Outbox

/-!
# Wake times and status stamps of the outbox

- `next_wake_exact`: the dispatcher's next wake time (`OUTBOX_NEXT_WAKE`) is the time of the next row to claim;
- `issued_stamps_increase`: the stamps of status rows (`next_status_stamp_with_clock`) increase across crashes, failed
  writes and restarts. A stamp is given out below a durable high water only.
-/

namespace Klights.Node

open Lib List

/-! ## The next wake -/

variable {no t t' : Int} {row : OutboxRow} {db : OutboxDb} {ms : Int} {tk : String}

/-- A row that `OUTBOX_NEXT_WAKE` looks at: it is first of its stream or, without a position, of its subject. -/
def OutboxDb.wakeCandidate (db : OutboxDb) (row : OutboxRow) : Bool :=
  if row.entry.assigned then (db.outbox.rows.all fun older => older.entry.streamId ≠ row.entry.streamId ||
      !(0 < older.entry.streamSeq && older.entry.streamSeq < row.entry.streamSeq ||
        older.entry.streamSeq = 0 && older.id < row.id)) &&
    (db.deadLetter.rows.all fun dead => dead.entry.streamId ≠ row.entry.streamId ||
      !(0 < dead.entry.streamSeq && dead.entry.streamSeq < row.entry.streamSeq))
  else db.outbox.rows.all fun older => older.entry.subjectKey ≠ row.entry.subjectKey || row.id ≤ older.id

def OutboxRow.wakeMs (nowMs : Int) (row : OutboxRow) : Int :=
  max row.nextDueMs (if nowMs < row.leasedUntilMs then row.leasedUntilMs else row.nextDueMs)

def OutboxDb.nextOutboxWakeMs (db : OutboxDb) (nowMs : Int) : Option Int :=
  ((db.outbox.rows.filter db.wakeCandidate).map (OutboxRow.wakeMs nowMs)).min?

theorem claimDueOutbox_ne_nil :
    (db.claimDueOutbox no 1 ms tk).1 ≠ [] ↔ ∃ row ∈ db.outbox.rows, db.claimable no row := by
  unfold OutboxDb.claimDueOutbox OutboxDb.claimCandidates
  simp only
  generalize hs : insertionSort (fun a b => claimBefore _ no a b) (db.outbox.rows.filter (db.claimable no)) = sorted
  have hm : ∀ row, row ∈ sorted ↔ row ∈ db.outbox.rows ∧ db.claimable no row := by
    intro row
    rw [← hs, mem_insertionSort, mem_filter]
  cases sorted with
  | nil => simpa using hm
  | cons row tl =>
    have hr := (hm row).1 mem_cons_self
    have hf : db.outbox.find row.id = some row := Table.find_eq_some_iff.2 ⟨hr.1, rfl⟩
    have hl : (db.setLease row.id (saturatingAdd no (max ms 1)) tk no).outbox.find row.id ≠
        none := by
      refine (Table.find_updateWhere db.outbox _ (fun row => row.lease _ _) (fun _ => rfl) row.id).trans_ne ?_
      rw [hf]
      simp
    exact iff_of_true (by simpa using hl) ⟨row, hr⟩

theorem wakeMs_le_iff (h0 : 0 ≤ t) (hl : t ≤ t') :
    row.wakeMs t ≤ t' ↔ row.nextDueMs ≤ t' ∧ (row.leasedUntilMs = 0 ∨ row.leasedUntilMs ≤ t') := by
  unfold OutboxRow.wakeMs
  split <;> omega

/-- **Wake-up is exact.** A claim finds a row from the wake time on, and not before. -/
theorem next_wake_exact (db : OutboxDb) (leaseMs : Int) (leaseToken : String) (h0 : 0 ≤ t) (hle : t ≤ t') :
    (db.claimDueOutbox t' 1 leaseMs leaseToken).1 ≠ [] ↔ ∃ wake, db.nextOutboxWakeMs t = some wake ∧ wake ≤ t' := by
  have hl : ∀ row, db.claimable t' row ↔ db.wakeCandidate row ∧ row.wakeMs t ≤ t' := by
    intro row
    rw [wakeMs_le_iff h0 hle, and_comm]
    simp [OutboxDb.claimable, OutboxDb.wakeCandidate]
  rw [claimDueOutbox_ne_nil]
  constructor
  · rintro ⟨row, hr, ha⟩
    obtain ⟨hc, hw⟩ := (hl row).1 ha
    have hm := mem_map_of_mem (f := OutboxRow.wakeMs t) (mem_filter.2 ⟨hr, hc⟩)
    cases hi : db.nextOutboxWakeMs t with
    | none => exact absurd (min?_eq_none_iff.1 hi ▸ hm) not_mem_nil
    | some wake => exact ⟨wake, rfl, ((min?_eq_some_iff.1 hi).2 _ hm).trans hw⟩
  · rintro ⟨wake, hi, hw⟩
    obtain ⟨row, hr, rfl⟩ := mem_map.1 (min?_eq_some_iff.1 hi).1
    obtain ⟨hm, hc⟩ := mem_filter.1 hr
    exact ⟨row, hm, (hl row).2 ⟨hc, hw⟩⟩

/-- An outbox with one row that is not leased. -/
def sampleDue (nextDueMs : Int) : OutboxDb :=
  { OutboxDb.empty with
    outbox := Table.empty.put ⟨1, ⟨"c", "k", 0, "s", "Node", "", "op", 0, 0, []⟩, 2, false, false, 0, nextDueMs, 0,
      none, none⟩ }

theorem next_wake_exact_due :
    (sampleDue 5).nextOutboxWakeMs 3 = some 5 ∧ ((sampleDue 5).claimDueOutbox 7 1 10 "l").1 ≠ [] :=
  ⟨by decide +kernel, (next_wake_exact _ 10 "l" (t := 3) (by decide) (by decide)).2 ⟨5, by decide +kernel, by decide⟩⟩

/-! ## Status stamps -/

/-- The allocator in memory: the last stamp issued, and the high water that is known to be durable. -/
structure StampState where
  seeded : Bool
  next : Int
  reserved : Int

def StampState.default : StampState := ⟨false, 0, 0⟩

def statusStampReserveBlock : Int := 5000000

/-- How the write of a new high water goes. One that fails, or that a crash follows, may have reached the disk. -/
inductive StampWrite where
  | done
  | failed (reached : Bool)
  | crashed (reached : Bool)

/-- A node: the allocator, and the stored high water (0 if there is none). -/
structure StampNode where
  state : StampState
  highWater : Int

def StampState.seed (state : StampState) (persisted : Int) : StampState :=
  if state.seeded then state else ⟨true, persisted, persisted⟩

def StampNode.nextStatusStampWithClock (n : StampNode) (nowUs : Int) (readFails : Bool) (write : StampWrite) :
    Option Int × StampNode :=
  if readFails && !n.state.seeded then (none, n)
  else
    let state := n.state.seed n.highWater
    let candidate := max nowUs (saturatingAdd state.next 1)
    if candidate < state.reserved then (some candidate, ⟨⟨true, candidate, state.reserved⟩, n.highWater⟩)
    else
      let newReserved := saturatingAdd candidate statusStampReserveBlock
      -- the store refuses a negative high water
      if newReserved < 0 then (none, ⟨state, n.highWater⟩)
      else match write with
        | .done => (some candidate, ⟨⟨true, candidate, newReserved⟩, newReserved⟩)
        | .failed reached => (none, ⟨state, if reached then newReserved else n.highWater⟩)
        | .crashed reached => (none, ⟨.default, if reached then newReserved else n.highWater⟩)

inductive StampStep where
  | restart
  | call (nowUs : Int) (readFails : Bool) (write : StampWrite)

def StampNode.step (n : StampNode) : StampStep → Option Int × StampNode
  | .restart => (none, ⟨.default, n.highWater⟩)
  | .call nowUs readFails write => n.nextStatusStampWithClock nowUs readFails write

def StampNode.issued (n : StampNode) : List StampStep → List Int
  | [] => []
  | step :: rest => (n.step step).1.toList ++ (n.step step).2.issued rest

variable {n : StampNode}

def StampNode.last (n : StampNode) : Int := (n.state.seed n.highWater).next

/-- What is issued or reserved in memory lies below the stored high water, which a restart begins from. -/
structure StampNode.Durable (n : StampNode) : Prop where
  last : n.last ≤ n.highWater
  reserved : (n.state.seed n.highWater).reserved ≤ n.highWater
  fits : n.highWater ≤ i64Max

theorem StampNode.Durable.step (h : n.Durable) (s : StampStep)
    (hrm : ∀ sp ∈ (n.step s).1, sp < i64Max - statusStampReserveBlock) :
    (n.step s).2.Durable ∧ n.last ≤ (n.step s).2.last ∧ ∀ sp ∈ (n.step s).1, n.last < sp ∧ sp ≤ (n.step s).2.last := by
  cases s with
  | restart => exact ⟨⟨le_rfl, le_rfl, h.fits⟩, h.last, nofun⟩
  | call nowUs readFails write =>
    revert hrm
    simp only [StampNode.step, StampNode.nextStatusStampWithClock]
    split
    · exact fun _ => ⟨h, le_rfl, nofun⟩
    obtain ⟨hlast, hr, hf⟩ := h
    unfold StampNode.last at hlast
    rw [StampNode.last]
    obtain ⟨next, reserved, he⟩ : ∃ next reserved, n.state.seed n.highWater = ⟨true, next, reserved⟩ := by
      unfold StampState.seed
      split
      · rename_i hs
        exact ⟨_, _, by rw [← hs]⟩
      · exact ⟨_, _, rfl⟩
    rw [he] at hlast hr ⊢
    generalize hc : max nowUs (saturatingAdd next 1) = candidate
    generalize hn : saturatingAdd candidate statusStampReserveBlock = newReserved
    simp only [saturatingAdd, statusStampReserveBlock, i64Max] at *
    -- the high water that a write leaves, whether or not it reached the disk
    have hl : reserved ≤ candidate → ∀ reached : Bool, let left := if reached then newReserved else n.highWater
        next ≤ left ∧ reserved ≤ left ∧ left ≤ i64Max := by
      rintro hge (_ | _) <;> simp [i64Max] <;> omega
    split
    · rename_i hlt
      refine fun _ => ⟨⟨?_, hr, hf⟩, ?_, ?_⟩
      · exact (show candidate ≤ n.highWater by omega)
      · exact (show next ≤ candidate by omega)
      · rintro _ ⟨⟩
        exact ⟨by omega, le_rfl⟩
    rename_i hge
    have hl := hl (by omega)
    split
    · exact fun _ => ⟨⟨hlast, hr, hf⟩, le_rfl, nofun⟩
    cases write with
    | done =>
      intro hrm
      have hlt := hrm candidate rfl
      refine ⟨⟨?_, le_rfl, (hl true).2.2⟩, ?_, ?_⟩
      · exact (show candidate ≤ newReserved by omega)
      · exact (show next ≤ candidate by omega)
      · rintro _ ⟨⟩
        exact ⟨by omega, le_rfl⟩
    | failed reached =>
      obtain ⟨hnx, hre, hm⟩ := hl reached
      exact fun _ => ⟨⟨hnx, hre, hm⟩, le_rfl, nofun⟩
    | crashed reached =>
      obtain ⟨hnx, -, hm⟩ := hl reached
      exact fun _ => ⟨⟨le_rfl, le_rfl, hm⟩, hnx, nofun⟩

/-- **Status stamps increase.** In every run of calls with any clock, failed writes, crashes and restarts, the issued
stamps increase as long as a block of stamps is left. -/
theorem issued_stamps_increase (highWater : Int) (hstored : highWater ≤ i64Max) (steps : List StampStep)
    (hroom : ∀ stamp ∈ StampNode.issued ⟨.default, highWater⟩ steps, stamp < i64Max - statusStampReserveBlock) :
    (StampNode.issued ⟨.default, highWater⟩ steps).Pairwise (· < ·) := by
  suffices hr : ∀ n : StampNode, n.Durable → (∀ stamp ∈ n.issued steps, stamp < i64Max - statusStampReserveBlock) →
      (n.issued steps).Pairwise (· < ·) ∧ ∀ stamp ∈ n.issued steps, n.last < stamp by
    exact (hr _ ⟨le_rfl, le_rfl, hstored⟩ hroom).1
  clear hroom
  induction steps with
  | nil => exact fun _ _ _ => ⟨.nil, nofun⟩
  | cons st tl ih =>
    intro n h hroom
    obtain ⟨hn, hl⟩ := forall_mem_append.1 hroom
    obtain ⟨hd, hle, ht⟩ := h.step st (by simpa using hn)
    obtain ⟨hs, ha⟩ := ih _ hd hl
    have hs' : ∀ stamp ∈ (n.step st).1.toList, n.last < stamp ∧ stamp ≤ (n.step st).2.last := by
      simpa using ht
    refine ⟨pairwise_append.2 ⟨?_, hs, ?_⟩, forall_mem_append.2 ⟨fun stamp hm => (hs' stamp hm).1, ?_⟩⟩
    · cases (n.step st).1 <;> simp
    · exact fun stamp hm lat hla => (hs' stamp hm).2.trans_lt (ha lat hla)
    · exact fun lat hla => hle.trans_lt (ha lat hla)

/-- A write that fails on the disk, a crash and a clock that jumps back. -/
theorem issued_stamps_increase_back :
    let issued := StampNode.issued ⟨.default, 0⟩ [.call 10 false .done, .call 6000000 false (.failed true), .restart,
      .call 5 false (.crashed true), .call 7 false .done]
    issued = [10, 16000002] ∧ issued.Pairwise (· < ·) :=
  ⟨by decide +kernel, issued_stamps_increase 0 (by decide) _ (by decide +kernel)⟩

end Klights.Node
