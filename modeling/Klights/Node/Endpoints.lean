import Klights.Lib.Runs
import Klights.Lib.Table
import Klights.Lib.Timeline
import Mathlib.Data.List.Sort

/-!
# The endpoint event stream

The rows of `pod_endpoints` are keyed by Pod UID, the events of the stream by Pod IP. A writer holds the handoff lock
over its transaction and its events, and a subscription holds it over its receiver and its snapshot, so each of them is
one step. A subscriber that lags is given a fresh snapshot.

- `Mirrored`: what the subscriber has, with the events it has yet to receive, is what the table holds;
- `step_mirrored`: every step keeps it, as long as an address that is upserted is not the address of another Pod;
- `endpoint_stream_mirrors`: a subscriber that has received everything has the endpoints of the table;
- `shared_address_lost`: a Pod that goes takes the address of another Pod along.
-/

namespace Klights.Node.Endpoints

open Lib List Table

/-! ## Rows and events -/

inductive EndpointMode where
  | encryptedDirect
  | hostport
  deriving DecidableEq

structure EndpointRecord where
  ns : String
  podName : String
  podUid : String
  nodeName : String
  mode : EndpointMode
  podIp : UInt32
  nodeIp : UInt32
  hostPortTcp : Option UInt16
  hostPortUdp : Option UInt16
  generation : Int
  updatedMs : Int
  deriving DecidableEq

/-- A row whose ports are read back: a port that is there is not 0. -/
def EndpointRecord.readable (record : EndpointRecord) : Bool :=
  record.hostPortTcp ≠ some 0 && record.hostPortUdp ≠ some 0

inductive EndpointEvent where
  | resync (records : List EndpointRecord)
  | upsert (record : EndpointRecord)
  | delete (podIp : UInt32)

abbrev EndpointTable := Table EndpointRecord.podUid

/-- The table after an upsert, and its events; a row that cannot be read back refuses it. -/
def upsertEndpoint (table : EndpointTable) (record : EndpointRecord) : EndpointTable × List EndpointEvent :=
  match table.find record.podUid with
  | none => (table.put record, [.upsert record])
  | some previous =>
    if previous.readable then
      (table.put record, (if previous.podIp ≠ record.podIp then [.delete previous.podIp] else []) ++ [.upsert record])
    else (table, [])

def deleteEndpointForUid (table : EndpointTable) (podUid : String) : EndpointTable × List EndpointEvent :=
  match table.find podUid with
  | none => (table, [])
  | some removed =>
    if removed.readable then (table.deleteWhere fun row => row.podUid = podUid, [.delete removed.podIp])
      else (table, [])

/-- The rows by node and UID, if all of them can be read. -/
def listEndpointRecords (table : EndpointTable) : Option (List EndpointRecord) :=
  if table.rows.all EndpointRecord.readable then
    some (table.rows.insertionSort fun a b => a.nodeName < b.nodeName ∨ a.nodeName = b.nodeName ∧ a.podUid ≤ b.podUid)
  else none

/-! ## A subscriber -/

abbrev View := UInt32 → Option EndpointRecord

def View.set (view : View) (record : EndpointRecord) : View :=
  fun podIp => if podIp = record.podIp then some record else view podIp

def View.apply (view : View) : EndpointEvent → View
  | .resync records => records.foldl View.set fun _ => none
  | .upsert record => view.set record
  | .delete deleted => fun podIp => if podIp = deleted then none else view podIp

inductive Stream where
  | closed
  | starting (snapshot : List EndpointRecord) (next : Nat)
  | live (next : Nat)
  deriving DecidableEq

structure World where
  table : EndpointTable
  sent : List EndpointEvent
  stream : Stream
  view : View

inductive Step where
  | upsert (record : EndpointRecord)
  | delete (podUid : String)
  | subscribe
  | poll

def channelBound : Nat := 4096

def World.write (w : World) (after : EndpointTable × List EndpointEvent) : World :=
  { w with table := after.1, sent := w.sent ++ after.2 }

def World.step (w : World) : Step → World
  | .upsert record => w.write (upsertEndpoint w.table record)
  | .delete podUid => w.write (deleteEndpointForUid w.table podUid)
  | .subscribe => match listEndpointRecords w.table with
    | some snapshot => { w with stream := .starting snapshot w.sent.length }
    | none => w
  | .poll => match w.stream with
    | .closed => w
    | .starting snapshot position => { w with stream := .live position, view := w.view.apply (.resync snapshot) }
    | .live position => match receive channelBound w.sent position with
      | .event event => { w with stream := .live (position + 1), view := w.view.apply event }
      | .nothing => w
      | .lagged => match listEndpointRecords w.table with
        | some snapshot =>
          { w with stream := .live w.sent.length, view := w.view.apply (.resync snapshot) }
        | none => { w with stream := .closed }

def World.run (w : World) (steps : List Step) : World := steps.foldl World.step w

/-- An upsert does not take the address of another Pod. -/
def ownAddress (w : World) : Step → Bool
  | .upsert record => w.table.rows.all fun row => row.podIp ≠ record.podIp || row.podUid = record.podUid
  | _ => true

/-! ## The mirror -/

def addresses (table : EndpointTable) : View := fun podIp => table.rows.find? fun row => row.podIp = podIp

/-- No two rows have one address. -/
def Distinct (table : EndpointTable) : Prop := (table.rows.map EndpointRecord.podIp).Nodup

variable {table : EndpointTable} {record re : EndpointRecord} {podIp : UInt32} {w : World}

theorem addresses_eq_some (h : Distinct table) : addresses table podIp = some re ↔ re ∈ table.rows ∧ re.podIp = podIp :=
  find_eq_some_iff (t := ⟨table.rows, h⟩)

theorem filter_eq_self {found : Option EndpointRecord} {p : EndpointRecord → Bool}
    (h : ∀ r, found = some r → p r) : found.filter p = found := by
  cases found with
  | none => rfl
  | some r => simp [h r rfl]

theorem View.foldl_set {r : List EndpointRecord} (h : (r.map EndpointRecord.podIp).Nodup) (v : View) :
    r.foldl View.set v podIp = (r.find? fun ro => ro.podIp = podIp).or (v podIp) := by
  induction r generalizing v with
  | nil => rfl
  | cons re r ih =>
    obtain ⟨ho, hr⟩ := nodup_cons.1 h
    rw [foldl_cons, ih hr, find?_cons]
    by_cases hp : re.podIp = podIp
    · have hn : r.find? (fun ro => ro.podIp = podIp) = none := by
        refine find?_eq_none.2 fun ro hw heq => ho ?_
        rw [hp, ← of_decide_eq_true heq]
        exact mem_map_of_mem hw
      simp [hp, hn, View.set]
    · simp [hp, View.set, Ne.symm hp]

/-! ## Writers -/

section Writers

variable (hi : Distinct table)

include hi

theorem addresses_put (ho : ∀ ro ∈ table.rows, ro.podIp = re.podIp → ro.podUid = re.podUid) :
    Distinct (table.put re) ∧ addresses (table.put re) = fun podIp =>
      if podIp = re.podIp then some re
      else (addresses table podIp).filter fun ro => ro.podUid ≠ re.podUid := by
  have hp : Distinct (table.put re) := by
    refine List.Nodup.map_on ?_ (.of_map _ (table.put re).nodup)
    intro r hr s hs heq
    rcases mem_put.1 hr with rfl | ⟨hl, hne⟩ <;> rcases mem_put.1 hs with rfl | ⟨ho', hne'⟩
    · rfl
    · exact absurd (ho s ho' heq.symm) hne'
    · exact absurd (ho r hl heq) hne
    · exact inj_on_of_nodup_map hi hl ho' heq
  refine ⟨hp, funext fun podIp => Option.ext fun r => ?_⟩
  rw [addresses_eq_some hp, mem_put]
  split
  · rename_i hip
    constructor
    · rintro ⟨rfl | ⟨hr, hne⟩, hr'⟩
      · rfl
      · exact absurd (ho r hr (hr'.trans hip)) hne
    · intro heq
      cases heq
      exact ⟨.inl rfl, hip.symm⟩
  · rename_i hip
    rw [Option.filter_eq_some_iff, addresses_eq_some hi]
    constructor
    · rintro ⟨rfl | ⟨hr, hne⟩, hr'⟩
      · exact absurd hr'.symm hip
      · exact ⟨⟨hr, hr'⟩, decide_eq_true hne⟩
    · rintro ⟨⟨hr, hr'⟩, hne⟩
      exact ⟨.inr ⟨hr, of_decide_eq_true hne⟩, hr'⟩

theorem addresses_delete (podUid : String) : Distinct (table.deleteWhere fun ro => ro.podUid = podUid) ∧
      addresses (table.deleteWhere fun ro => ro.podUid = podUid) = fun podIp =>
        (addresses table podIp).filter fun ro => ro.podUid ≠ podUid := by
  have hd : Distinct (table.deleteWhere fun ro => ro.podUid = podUid) :=
    (filter_sublist.map _).nodup hi
  refine ⟨hd, funext fun podIp => Option.ext fun r => ?_⟩
  rw [addresses_eq_some hd, Option.filter_eq_some_iff, addresses_eq_some hi, mem_deleteWhere]
  simp only [ne_eq, decide_not, Bool.not_eq_true', and_right_comm]

theorem filter_addresses {p : String} {ro : EndpointRecord} (hf : table.find p = some ro) :
    (addresses table podIp).filter (fun row => row.podUid ≠ p) =
      if podIp = ro.podIp then none else addresses table podIp := by
  obtain ⟨hm, rfl⟩ := find_eq_some_iff.1 hf
  split
  · rename_i hp
    rw [(addresses_eq_some hi).2 ⟨hm, hp.symm⟩]
    simp
  · rename_i hp
    refine filter_eq_self fun r hr => decide_eq_true fun hu => hp ?_
    obtain ⟨ho, rfl⟩ := (addresses_eq_some hi).1 hr
    rw [inj_on_of_nodup_map table.nodup ho hm hu]

theorem upsert_mirrored (ho : ∀ rw ∈ table.rows, rw.podIp = re.podIp → rw.podUid = re.podUid) :
    Distinct (upsertEndpoint table re).1 ∧
      (upsertEndpoint table re).2.foldl View.apply (addresses table) = addresses (upsertEndpoint table re).1 := by
  obtain ⟨hp, ha⟩ := addresses_put hi ho
  unfold upsertEndpoint
  split
  · rename_i hn
    refine ⟨hp, ha.symm ▸ funext fun podIp => ?_⟩
    have hl : (addresses table podIp).filter (fun rw => rw.podUid ≠ re.podUid) = addresses table podIp :=
      filter_eq_self fun r hr =>
        decide_eq_true (find_eq_none_iff.1 hn r ((addresses_eq_some hi).1 hr).1)
    simp only [hl]
    rfl
  · rename_i pr hf
    split
    · refine ⟨hp, ha.symm ▸ funext fun podIp => ?_⟩
      simp only [filter_addresses hi hf]
      by_cases hip : pr.podIp = re.podIp
      · simp only [hip, ne_eq, not_true, if_false, nil_append]
        by_cases h : podIp = re.podIp <;> simp [View.apply, View.set, h]
      · simp [hip, View.apply, View.set]
    · exact ⟨hi, rfl⟩

theorem delete_mirrored (p : String) : Distinct (deleteEndpointForUid table p).1 ∧
      (deleteEndpointForUid table p).2.foldl View.apply (addresses table) =
        addresses (deleteEndpointForUid table p).1 := by
  obtain ⟨hd, ha⟩ := addresses_delete hi p
  unfold deleteEndpointForUid
  split
  · exact ⟨hi, rfl⟩
  · rename_i rm hf
    split
    · refine ⟨hd, ha.symm ▸ funext fun podIp => ?_⟩
      rw [filter_addresses hi hf]
      rfl
    · exact ⟨hi, rfl⟩

theorem resync_mirrored {s : List EndpointRecord} (h : listEndpointRecords table = some s) (v : View) :
    v.apply (.resync s) = addresses table := by
  unfold listEndpointRecords at h
  split at h
  · cases h
    have hp := perm_insertionSort (fun a b : EndpointRecord => a.nodeName < b.nodeName ∨
      a.nodeName = b.nodeName ∧ a.podUid ≤ b.podUid) table.rows
    have hs := (hp.map EndpointRecord.podIp).nodup_iff.2 hi
    funext podIp
    refine (View.foldl_set hs _).trans (Option.ext fun r => ?_)
    rw [Option.or_none, addresses_eq_some hi]
    exact (find_eq_some_iff (t := ⟨_, hs⟩)).trans (and_congr_left' hp.mem_iff)
  · cases h

end Writers

/-! ## Runs -/

/-- What the subscriber will have once it has received everything is what the table holds. -/
structure Mirrored (w : World) : Prop where
  distinct : Distinct w.table
  starting : ∀ snapshot next, w.stream = .starting snapshot next → next ≤ w.sent.length ∧
    (w.sent.drop next).foldl View.apply (w.view.apply (.resync snapshot)) = addresses w.table
  live : ∀ next, w.stream = .live next → next ≤ w.sent.length ∧
    (w.sent.drop next).foldl View.apply w.view = addresses w.table

theorem Mirrored.write (h : Mirrored w) {a : EndpointTable × List EndpointEvent}
    (ha : Distinct a.1 ∧ a.2.foldl View.apply (addresses w.table) = addresses a.1) :
    Mirrored (w.write a) := by
  have hs : ∀ {next vi}, next ≤ w.sent.length ∧
      (w.sent.drop next).foldl View.apply vi = addresses w.table → next ≤ (w.write a).sent.length ∧
      ((w.write a).sent.drop next).foldl View.apply vi = addresses a.1 := by
    rintro next vi ⟨hn, hv⟩
    refine ⟨hn.trans (by simp [World.write]), ?_⟩
    rw [World.write, drop_append_of_le_length hn, foldl_append, hv, ha.2]
  exact ⟨ha.1, fun sn next ht => hs (h.starting sn next ht), fun next ht => hs (h.live next ht)⟩

theorem step_mirrored (h : Mirrored w) {s : Step} (ho : ownAddress w s) : Mirrored (w.step s) := by
  cases s with
  | upsert re =>
    refine h.write (upsert_mirrored h.distinct fun r hw hp => ?_)
    simpa [hp] using all_eq_true.1 ho r hw
  | delete po => exact h.write (delete_mirrored h.distinct po)
  | subscribe =>
    simp only [World.step]
    split
    · rename_i sn hn
      refine ⟨h.distinct, fun _ _ hs => ?_, nofun⟩
      cases hs
      exact ⟨le_rfl, by simp [resync_mirrored h.distinct hn]⟩
    · exact h
  | poll =>
    simp only [World.step]
    split
    · exact h
    · rename_i sn next hs
      refine ⟨h.distinct, nofun, fun _ hl => ?_⟩
      cases hl
      exact h.starting sn next hs
    · rename_i next hs
      obtain ⟨hx, hv⟩ := h.live next hs
      split
      · rename_i ev hr
        have hd := receive_event hr
        have he := congrArg List.length hd
        simp only [length_drop, length_cons] at he
        refine ⟨h.distinct, nofun, fun _ hl => ?_⟩
        cases hl
        exact ⟨by simp only; omega, by rwa [hd] at hv⟩
      · exact h
      · split
        · rename_i sn hn
          refine ⟨h.distinct, nofun, fun _ hl => ?_⟩
          cases hl
          exact ⟨le_rfl, by simp [resync_mirrored h.distinct hn]⟩
        · exact ⟨h.distinct, nofun, nofun⟩

/-- **The endpoint stream mirrors the table.** While no upsert takes the address of another Pod, a subscriber that has
received everything sent so far has, for every address, the row of the table with that address. -/
theorem endpoint_stream_mirrors (table : EndpointTable) (hdistinct : Distinct table) (sent : List EndpointEvent)
    (view : View) (steps : List Step)
    (hown : Along World.step (fun w step => ownAddress w step = true) ⟨table, sent, .closed, view⟩ steps) :
    let w := World.run ⟨table, sent, .closed, view⟩ steps
    w.stream = .live w.sent.length → ∀ podIp record,
      w.view podIp = some record ↔ record ∈ w.table.rows ∧ record.podIp = podIp := by
  intro w hl podIp record
  have hw : Mirrored w := hown.invariant (I := Mirrored) (fun _ _ _ hs h => step_mirrored h hs)
    ⟨hdistinct, nofun, nofun⟩
  have hv := (hw.live _ hl).2
  rw [drop_length] at hv
  rw [← addresses_eq_some hw.distinct, ← hv]
  rfl

/-! ## A shared address -/

def sampleEndpoint (podUid : String) : EndpointRecord :=
  ⟨"default", "web", podUid, "node-a", .encryptedDirect, 7, 1, none, none, 0, 0⟩

def sampleWorld (steps : List Step) : World :=
  World.run ⟨.empty, [], .closed, fun _ => none⟩ ([.upsert (sampleEndpoint "old"), .subscribe, .poll] ++ steps)

theorem endpoint_stream_mirrors_reuse :
    let w := sampleWorld [.delete "old", .upsert (sampleEndpoint "new"), .poll, .poll]
    w.view 7 = some (sampleEndpoint "new") := by
  intro w
  refine (endpoint_stream_mirrors .empty nodup_nil [] (fun _ => none) [.upsert (sampleEndpoint "old"), .subscribe,
    .poll, .delete "old", .upsert (sampleEndpoint "new"), .poll, .poll] (by decide +kernel) (by decide +kernel) 7 _).2
    (by decide +kernel)

/-- The address of the old Pod is given to the new one, and then the old one goes. -/
theorem shared_address_lost :
    let w := sampleWorld [.upsert (sampleEndpoint "new"), .delete "old", .poll, .poll]
    w.stream = .live w.sent.length ∧ w.view 7 = none ∧ sampleEndpoint "new" ∈ w.table.rows := by
  decide +kernel

end Klights.Node.Endpoints
