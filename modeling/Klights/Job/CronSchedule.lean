import Klights.Json
import Mathlib.Data.Finset.Max
import Mathlib.Data.Int.Interval
import Mathlib.Data.Int.LeastGreatest
import Mathlib.Data.Set.Card
import Mathlib.Tactic.Linarith

/-!
# Missed runs of a CronJob

`most_recent_cronjob_schedule_time` (`klights-controllers/src/cronjob.rs`) looks for the last time of a schedule that is
due. It jumps ahead by the first gap of the schedule and then looks at 128 times. Times are in nanoseconds.

- `isLast_scan_iff`: the scan finds the last time that is due exactly if no more of them are due than it looks at;
- `missed_run_found`: so the jump is right exactly if it leaves at least one time that is due, and at most 128.
-/

namespace Klights.CronJob

open List

/-- A schedule, with the first of its times after a given one. Its times are whole seconds. -/
structure Schedule where
  times : Set Int
  next : Int → Option Int
  next_spec : ∀ t u, next t = some u ↔ IsLeast {x ∈ times | t < x} u
  whole : ∀ t ∈ times, 10 ^ 9 ∣ t

def Schedule.afterTake (s : Schedule) : Nat → Int → List Int
  | 0, _ => []
  | n + 1, t => ((s.next t).map fun u => u :: s.afterTake n u).getD []

/-- The first and the last instant that a `DateTime` of chrono can hold. -/
structure DateTimeRange where
  first : Int
  last : Int

/-- `now - Duration::seconds(seconds)`. chrono panics if the milliseconds of the duration do not fit in 64 bits or the
instant is out of range. -/
def subSeconds (range : DateTimeRange) (now seconds : Int) : Option Int :=
  let instant := now - seconds * 10 ^ 9
  if |seconds| ≤ (2 ^ 63 - 1) / 1000 ∧ range.first ≤ instant ∧ instant ≤ range.last then some instant else none

section Search

variable (range : DateTimeRange) (parse : String → Option Int) (cj : Json) (now : Int) (s : Schedule)
  (includeStartingDeadlineSeconds : Bool)

def parseCronjobTime (path : List String) : Option Int := (cj.strAt path).bind parse

/-- The time after which runs are looked for, if nothing panics. -/
def cronjobScheduleLowerBound : Option Int := do
  let earliest ← ((parseCronjobTime parse cj ["status", "lastScheduleTime"]).or
    (parseCronjobTime parse cj ["metadata", "creationTimestamp"])).or (subSeconds range now 61)
  match (cj.pointer ["spec", "startingDeadlineSeconds"]).bind Json.asI64 with
  | some deadline =>
    if includeStartingDeadlineSeconds then (subSeconds range now deadline).map (max earliest) else some earliest
  | none => some earliest

/-- Where the scan begins, after a jump by the first gap. -/
def potentialEarliest (first second : Int) : Int :=
  let intervalSecs := (second - first) / 10 ^ 9
  let missedSchedules := (now - first) / 10 ^ 9 / intervalSecs + 1
  first + (missedSchedules - 2) * intervalSecs * 10 ^ 9

/-- The last of at most `n` times after `t`, up to now. -/
def Schedule.scan (n : Nat) (t : Int) : Option Int := ((s.afterTake n t).takeWhile (· ≤ now)).getLast?

/-- The search, once the lower bound is there. -/
def mostRecentAfter (earliest : Int) : Except String (Option Int) :=
  match s.next earliest with
  | none => .ok none
  | some first =>
    if now < first then .ok none
    else match s.next first with
      | none => .ok (some first)
      | some second =>
        if now < second then .ok (some first)
        else if (second - first) / 10 ^ 9 < 1 then
          .error "time difference between two CronJob schedules is less than 1 second"
        else .ok (s.scan now 128 (potentialEarliest now first second))

/-- The last run that is due; no result is a panic. -/
def mostRecentCronjobScheduleTime : Option (Except String (Option Int)) :=
  (cronjobScheduleLowerBound range parse cj now includeStartingDeadlineSeconds).map (mostRecentAfter now s)

end Search

variable {s : Schedule} {t u now first second : Int}

theorem Schedule.lt_next (h : s.next t = some u) : u ∈ s.times ∧ t < u := ((s.next_spec t u).1 h).1

theorem Schedule.next_le (h : s.next t = some u) {x : Int} (hx : x ∈ s.times) (ht : t < x) : u ≤ x :=
  ((s.next_spec t u).1 h).2 ⟨hx, ht⟩

theorem Schedule.next_none (h : s.next t = none) {x : Int} (hx : x ∈ s.times) : x ≤ t := by
  by_contra hlt
  obtain ⟨least, hl, hm⟩ := Int.exists_least_of_bdd (P := fun x => x ∈ s.times ∧ t < x) ⟨t, fun _ h => h.2.le⟩
    ⟨x, hx, not_le.1 hlt⟩
  have hn := (s.next_spec t least).2 ⟨hl, fun y hy => hm y hy⟩
  rw [h] at hn
  cases hn

def Schedule.due (s : Schedule) (t now : Int) : Set Int := {x ∈ s.times | t < x ∧ x ≤ now}

def Schedule.IsLast (s : Schedule) (t now : Int) : Option Int → Prop
  | some u => IsGreatest (s.due t now) u
  | none => s.due t now = ∅

theorem Schedule.isLast_none (h : ∀ x ∈ s.times, t < x → now < x) : s.IsLast t now none :=
  Set.eq_empty_iff_forall_notMem.2 fun x hx => absurd (h x hx.1 hx.2.1) (not_lt.2 hx.2.2)

theorem Schedule.isLast_of_next_none (h : s.next t = none) : s.IsLast t now none :=
  isLast_none fun _ hx ht => absurd (s.next_none h hx) (not_le.2 ht)

theorem Schedule.isLast_of_lt_next (h : s.next t = some u) (hu : now < u) : s.IsLast t now none :=
  isLast_none fun _ hx ht => hu.trans_le (s.next_le h hx ht)

theorem Schedule.isLast_cons (h : s.next t = some u) (hle : u ≤ now) {l : Option Int} (hl : s.IsLast u now l) :
    s.IsLast t now (some (l.getD u)) := by
  obtain ⟨hu, ht⟩ := s.lt_next h
  cases l with
  | none =>
    refine ⟨⟨hu, ht, hle⟩, fun x hx => ?_⟩
    by_contra hlt
    exact (Set.eq_empty_iff_forall_notMem.1 hl x) ⟨hx.1, not_le.1 hlt, hx.2.2⟩
  | some v =>
    refine ⟨⟨hl.1.1, ht.trans hl.1.2.1, hl.1.2.2⟩, fun x hx => ?_⟩
    rcases (s.next_le h hx.1 hx.2.1).lt_or_eq with hlt | rfl
    · exact hl.2 ⟨hx.1, hlt, hx.2.2⟩
    · exact hl.1.2.1.le

theorem Schedule.IsLast.of_later {p v : Int} {last : Option Int} (h : s.IsLast p now last) (ht : t ≤ p)
    (hv : v ∈ s.due p now) : s.IsLast t now last := by
  cases last with
  | none => exact absurd hv (Set.eq_empty_iff_forall_notMem.1 h v)
  | some u =>
    refine ⟨⟨h.1.1, ht.trans_lt h.1.2.1, h.1.2.2⟩, fun x hx => ?_⟩
    by_cases hxp : x ≤ p
    · exact hxp.trans h.1.2.1.le
    · exact h.2 ⟨hx.1, not_le.1 hxp, hx.2.2⟩

theorem Schedule.due_finite (s : Schedule) (t now : Int) : (s.due t now).Finite :=
  (Set.finite_Icc t now).subset fun _ hx => ⟨hx.2.1.le, hx.2.2⟩

theorem Schedule.due_eq_insert (h : s.next t = some u) (hle : u ≤ now) : s.due t now = insert u (s.due u now) := by
  obtain ⟨hu, ht⟩ := s.lt_next h
  ext x
  constructor
  · intro hx
    rcases (s.next_le h hx.1 hx.2.1).eq_or_lt with rfl | hlt
    · exact .inl rfl
    · exact .inr ⟨hx.1, hlt, hx.2.2⟩
  · rintro (rfl | hx)
    · exact ⟨hu, ht, hle⟩
    · exact ⟨hx.1, ht.trans hx.2.1, hx.2.2⟩

theorem Schedule.ncard_due_next (h : s.next t = some u) (hle : u ≤ now) :
    (s.due t now).ncard = (s.due u now).ncard + 1 := by
  rw [s.due_eq_insert h hle, Set.ncard_insert_of_notMem (fun hu => lt_irrefl u hu.2.1) (s.due_finite u now)]

theorem Schedule.ncard_of_isLast_none (h : s.IsLast t now none) : (s.due t now).ncard = 0 := by
  rw [show s.due t now = ∅ from h, Set.ncard_empty]

theorem Schedule.scan_of_next {n : Nat} (h : s.next t = some u) (hle : u ≤ now) :
    s.scan now (n + 1) t = some ((s.scan now n u).getD u) := by
  rw [Schedule.scan, Schedule.afterTake, h]
  simp only [Option.map_some, Option.getD_some, takeWhile_cons, hle, decide_true, if_true]
  rw [getLast?_cons, Schedule.scan]

theorem Schedule.scan_none {n : Nat} (h : ∀ u, s.next t = some u → now < u) : s.scan now n t = none := by
  cases n with
  | zero => rfl
  | succ n =>
    rw [Schedule.scan, Schedule.afterTake]
    cases hn : s.next t with
    | none => rfl
    | some u => simp [h u hn]

theorem Schedule.scan_mem {v : Int} : ∀ {n : Nat} {t : Int}, s.scan now n t = some v → v ∈ s.due t now
  | n, t, h => by
    by_cases hdue : ∃ u, s.next t = some u ∧ u ≤ now
    · obtain ⟨u, hn, hle⟩ := hdue
      cases n with
      | zero => cases h
      | succ n =>
        rw [s.scan_of_next hn hle] at h
        rw [s.due_eq_insert hn hle]
        cases hs : s.scan now n u with
        | none =>
          rw [hs] at h
          exact .inl (Option.some.inj h).symm
        | some w =>
          rw [hs] at h
          obtain rfl := Option.some.inj h
          exact .inr (Schedule.scan_mem hs)
    · rw [s.scan_none fun u hn => not_le.1 fun hle => hdue ⟨u, hn, hle⟩] at h
      cases h

/-- What is last after the next time is last before it, if it is not before that time. -/
theorem Schedule.isLast_next_iff {last : Option Int} (h : s.next t = some u) (hle : u ≤ now)
    (hlast : ∀ v, last = some v → v ∈ s.due u now) : s.IsLast t now (some (last.getD u)) ↔ s.IsLast u now last := by
  refine ⟨fun hl => ?_, s.isLast_cons h hle⟩
  have hsub : ∀ x ∈ s.due u now, x ∈ s.due t now := fun x hx => by
    rw [s.due_eq_insert h hle]
    exact .inr hx
  cases last with
  | none => exact Set.eq_empty_iff_forall_notMem.2 fun x hx => absurd (hl.2 (hsub x hx)) (not_le.2 hx.2.1)
  | some v => exact ⟨hlast v rfl, fun x hx => hl.2 (hsub x hx)⟩

/-- The scan of `n` times finds the last one that is due exactly if no more than `n` are. -/
theorem Schedule.isLast_scan_iff : ∀ (n : Nat) (t : Int), s.IsLast t now (s.scan now n t) ↔ (s.due t now).ncard ≤ n
  | n, t => by
    by_cases hdue : ∃ u, s.next t = some u ∧ u ≤ now
    · obtain ⟨u, hn, hle⟩ := hdue
      rw [s.ncard_due_next hn hle]
      cases n with
      | zero =>
        refine iff_of_false (fun hl => ?_) (by omega)
        have hempty := s.ncard_of_isLast_none hl
        rw [s.ncard_due_next hn hle] at hempty
        cases hempty
      | succ n =>
        rw [s.scan_of_next hn hle, s.isLast_next_iff hn hle fun v hv => s.scan_mem hv, Schedule.isLast_scan_iff n u]
        omega
    · have hlate : ∀ u, s.next t = some u → now < u := fun u hn => not_le.1 fun hle => hdue ⟨u, hn, hle⟩
      have hnone : s.IsLast t now none := by
        cases hn : s.next t with
        | none => exact Schedule.isLast_of_next_none hn
        | some u => exact Schedule.isLast_of_lt_next hn (hlate u hn)
      rw [s.scan_none hlate, s.ncard_of_isLast_none hnone]
      exact iff_of_true hnone (Nat.zero_le n)

/-- After a jump the scan finds the last time exactly if one to 128 of them are left, the time before the jump being
due. -/
theorem Schedule.isLast_jump_iff {lower p : Int} (hfirst : first ∈ s.due lower now) (hle : first ≤ p) :
    s.IsLast lower now (s.scan now 128 p) ↔ 1 ≤ (s.due p now).ncard ∧ (s.due p now).ncard ≤ 128 := by
  have hlp : lower ≤ p := hfirst.2.1.le.trans hle
  rw [← s.isLast_scan_iff 128 p, Nat.one_le_iff_ne_zero, ne_eq, Set.ncard_eq_zero (s.due_finite p now)]
  constructor
  · intro hl
    cases hs : s.scan now 128 p with
    | none =>
      rw [hs] at hl
      exact absurd hfirst (Set.eq_empty_iff_forall_notMem.1 hl first)
    | some v =>
      have hv := s.scan_mem hs
      rw [hs] at hl
      refine ⟨fun hempty => Set.eq_empty_iff_forall_notMem.1 hempty v hv, hv, fun x hx => hl.2 ?_⟩
      exact ⟨hx.1, hlp.trans_lt hx.2.1, hx.2.2⟩
  · rintro ⟨hne, hl⟩
    obtain ⟨v, hv⟩ := Set.nonempty_iff_ne_empty.2 hne
    exact hl.of_later hlp hv

/-- The jump does not go behind the first time. -/
theorem first_le_potentialEarliest (hf : 10 ^ 9 ∣ first) (hs : 10 ^ 9 ∣ second) (hlt : first < second)
    (hle : second ≤ now) : first ≤ potentialEarliest now first second := by
  obtain ⟨a, rfl⟩ := hf
  obtain ⟨b, rfl⟩ := hs
  have hgap : (10 ^ 9 * b - 10 ^ 9 * a) / 10 ^ 9 = b - a := by omega
  have hpos : 0 < b - a := by omega
  have hmissed : 1 ≤ (now - 10 ^ 9 * a) / 10 ^ 9 / (b - a) := (Int.le_ediv_iff_mul_le hpos).2 (by omega)
  simp only [potentialEarliest, hgap]
  have hnn := mul_nonneg (sub_nonneg.2 hmissed) hpos.le
  generalize (now - 10 ^ 9 * a) / 10 ^ 9 / (b - a) = missed at hnn ⊢
  rw [show missed + 1 - 2 = missed - 1 by omega]
  generalize (missed - 1) * (b - a) = jump at hnn ⊢
  omega

theorem mostRecentAfter_iff (s : Schedule) {lower : Int} :
    (∃ last, mostRecentAfter now s lower = .ok last ∧ s.IsLast lower now last) ↔
      ∀ first second, s.next lower = some first → s.next first = some second → second ≤ now →
        1 ≤ (s.due (potentialEarliest now first second) now).ncard ∧
          (s.due (potentialEarliest now first second) now).ncard ≤ 128 := by
  unfold mostRecentAfter
  cases hi : s.next lower with
  | none => exact iff_of_true ⟨none, rfl, Schedule.isLast_of_next_none hi⟩ nofun
  | some first =>
    obtain ⟨hf, ho⟩ := s.lt_next hi
    by_cases hn : now < first
    · refine iff_of_true ⟨none, if_pos hn, Schedule.isLast_of_lt_next hi hn⟩ fun a b ha hb hle => ?_
      cases ha
      exact absurd ((s.lt_next hb).2.trans_le hle) (not_lt.2 hn.le)
    simp only [if_neg hn]
    cases he : s.next first with
    | none =>
      refine iff_of_true ⟨some first, rfl, s.isLast_cons hi (not_lt.1 hn) (Schedule.isLast_of_next_none he)⟩ ?_
      rintro _ b ⟨⟩ hb
      cases he.symm.trans hb
    | some second =>
      obtain ⟨hs, hlt⟩ := s.lt_next he
      by_cases hn' : now < second
      · refine iff_of_true ⟨some first, if_pos hn', s.isLast_cons hi (not_lt.1 hn)
          (Schedule.isLast_of_lt_next he hn')⟩ ?_
        rintro _ b ⟨⟩ hb hle
        cases he.symm.trans hb
        exact absurd hle (not_le.2 hn')
      have hw : ¬(second - first) / 10 ^ 9 < 1 := by
        have hf := s.whole first hf
        have hs := s.whole second hs
        omega
      have hjump := first_le_potentialEarliest (s.whole _ hf) (s.whole _ hs) hlt (not_lt.1 hn')
      simp only [if_neg hn', if_neg hw, Except.ok.injEq, exists_eq_left']
      rw [s.isLast_jump_iff ⟨hf, ho, not_lt.1 hn⟩ hjump]
      refine ⟨?_, fun h => h first second rfl he (not_lt.1 hn')⟩
      rintro h _ b ⟨⟩ hb -
      cases he.symm.trans hb
      exact h

/-- **Missed runs are found.** The last time that is due is found exactly if the lower bound does not panic and, where
two or more times are due, one to 128 of them are after the jump. -/
theorem missed_run_found (range : DateTimeRange) (parse : String → Option Int) (cj : Json) (now : Int) (s : Schedule)
    (includeStartingDeadlineSeconds : Bool) :
    (∃ lower last, cronjobScheduleLowerBound range parse cj now includeStartingDeadlineSeconds = some lower ∧
      mostRecentCronjobScheduleTime range parse cj now s includeStartingDeadlineSeconds = some (.ok last) ∧
      s.IsLast lower now last) ↔
    ∃ lower, cronjobScheduleLowerBound range parse cj now includeStartingDeadlineSeconds = some lower ∧
      ∀ first second, s.next lower = some first → s.next first = some second → second ≤ now →
        1 ≤ (s.due (potentialEarliest now first second) now).ncard ∧
          (s.due (potentialEarliest now first second) now).ncard ≤ 128 := by
  unfold mostRecentCronjobScheduleTime
  cases cronjobScheduleLowerBound range parse cj now includeStartingDeadlineSeconds with
  | none => simp
  | some lower =>
    simp only [Option.some.injEq, exists_and_left, exists_eq_left', Option.map_some]
    exact mostRecentAfter_iff s

def Schedule.ofFinset (times : Finset Int) (whole : ∀ t ∈ times, 10 ^ 9 ∣ t) : Schedule where
  times := times
  next t := (times.filter (t < ·)).min
  whole := whole
  next_spec t u := by
    constructor
    · intro h
      exact ⟨Finset.mem_filter.1 (Finset.mem_of_min h), fun x hx => Finset.min_le_of_eq (Finset.mem_filter.2 hx) h⟩
    · intro h
      exact le_antisymm (α := WithTop Int) (Finset.min_le (Finset.mem_filter.2 h.1))
        (Finset.le_min fun x hx => WithTop.coe_le_coe.2 (h.2 (Finset.mem_filter.1 hx)))

def minutes : Schedule := .ofFinset {0, 60 * 10 ^ 9, 120 * 10 ^ 9, 180 * 10 ^ 9} (by decide)

def createdCronJob : Json := .obj [("metadata", .obj [("creationTimestamp", .str "t")])]

/-- The years that chrono's instants have. -/
def sampleRange : DateTimeRange := ⟨-8334601228800 * 10 ^ 9, 8210266876799 * 10 ^ 9⟩

theorem minutes_due_after_jump : minutes.due (60 * 10 ^ 9) (130 * 10 ^ 9) = {120 * 10 ^ 9} := by
  ext x
  simp only [Schedule.due, minutes, Schedule.ofFinset, Finset.coe_insert, Finset.coe_singleton, Set.mem_ofPred_eq,
    Set.mem_insert_iff, Set.mem_singleton_iff]
  omega

theorem missed_run_found_minutes :
    ∃ lower last, cronjobScheduleLowerBound sampleRange (fun _ => some (-1)) createdCronJob (130 * 10 ^ 9) true =
        some lower ∧ mostRecentCronjobScheduleTime sampleRange (fun _ => some (-1)) createdCronJob (130 * 10 ^ 9)
          minutes true = some (.ok last) ∧ minutes.IsLast lower (130 * 10 ^ 9) last := by
  refine (missed_run_found sampleRange (fun _ => some (-1)) createdCronJob (130 * 10 ^ 9) minutes true).2
    ⟨-1, rfl, fun first second hf hs _ => ?_⟩
  have h0 : minutes.next (-1) = some 0 := by decide +kernel
  have h1 : minutes.next 0 = some (60 * 10 ^ 9) := by decide +kernel
  obtain rfl := Option.some.inj (hf.symm.trans h0)
  obtain rfl := Option.some.inj (hs.symm.trans h1)
  have hp : potentialEarliest (130 * 10 ^ 9) 0 (60 * 10 ^ 9) = 60 * 10 ^ 9 := by decide
  rw [hp, minutes_due_after_jump, Set.ncard_singleton]
  decide

/-- Thursday, Friday, Monday and Tuesday, in seconds from Thursday on. -/
def weekdays : Schedule := .ofFinset {0, 86400 * 10 ^ 9, 345600 * 10 ^ 9, 432000 * 10 ^ 9} (by decide)

/-- On Sunday the jump is past Friday, and the run of Friday is not found. -/
theorem weekday_run_lost :
    mostRecentCronjobScheduleTime sampleRange (fun _ => some (-1)) createdCronJob (300000 * 10 ^ 9) weekdays true =
        some (.ok none) ∧
      86400 * 10 ^ 9 ∈ weekdays.due (-1) (300000 * 10 ^ 9) :=
  ⟨rfl, by simp [weekdays, Schedule.ofFinset], by decide, by decide⟩

end Klights.CronJob
