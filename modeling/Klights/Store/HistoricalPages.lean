import Klights.Store.HistoricalWindow

/-!
# Pages of a historical LIST

A scan walks windows of candidates and keeps the objects of the position that match the selectors. What it has found is
the list of the entries between its start and the last candidate (`Scanned`).

- `scanCandidates_reads`, `scanWindows_reads`: a scan ends with a full page or behind the last entry;
- `boundedHistoricalList_reads`: a page lists the entries up to its continuation, or all that are left;
- `historical_list_is_snapshot`: the pages together list every entry once, in order, whatever the store does between two
  database turns.
-/

namespace Klights.Store

open Lib Replay List Option

/-! ## Entries -/

def selectsObject (request : ResourceListRequest) (object : Json) : Bool :=
  request.labels.all (fun labels => labels object) &&
    request.fields.all fun fields => fields request.apiVersion request.kind object

/-- An object of the scope, under its identity, that was there at the position and matches the selectors. -/
structure Entry (w : World) (request : ResourceListRequest) (position : WatchReplayPosition)
    (key : ResourceCollectionKey) (object : ResourceKey × Json) : Prop where
  scope : request.scope.durable.includes key.ns = true
  identity : object.1 = request.identity key
  there : w.objectAt request.target position key = some object.2
  selected : selectsObject request object.2 = true

def listed (resource : Resource) : ResourceCollectionKey × (ResourceKey × Json) :=
  (⟨resource.key.ns, resource.key.name⟩, (resource.key, resource.data))

/-- Enough rounds for every loop of a LIST: more than the keys of the store once it is quiet. -/
def EnoughFor (worlds : Nat → World) (request : ResourceListRequest) (rounds : Nat) : Prop :=
  ∃ quiet, QuietFrom worlds quiet ∧ (candidateKeys (worlds quiet) request).length < rounds

section Pages

variable {r : ResourceListRequest} {ps : WatchReplayPosition} {worlds ws : Nat → World}
  {key : ResourceCollectionKey} {st : WithBot ResourceCollectionKey} {scan : ListScan} {limit : Nat}
  {entries : List (ResourceCollectionKey × (ResourceKey × Json))}

/-! ## The scan of a window -/

/-- What a scan has found: the entries between its start and the last candidate. -/
structure Scanned (w : World) (request : ResourceListRequest) (position : WatchReplayPosition) (limit : Nat)
    (start : WithBot ResourceCollectionKey) (scan : ListScan)
    (entries : List (ResourceCollectionKey × (ResourceKey × Json))) :
    Prop where
  lists : Lists (Between (Entry w request position) start (keyBound scan.candidateAfter)) entries
  reached : start ≤ keyBound scan.candidateAfter
  count : scan.matchedCount = entries.length
  emitted : scan.emitted.map listed = if countExactRemaining request then entries.take limit else entries

theorem push_emitted (hli : r.limit = some limit) (h : scan.emitted.map listed =
      if countExactRemaining r then entries.take limit else entries) (rs : Resource) :
    (scan.push r rs).emitted.map listed =
      if countExactRemaining r then (entries ++ [listed rs]).take limit
      else entries ++ [listed rs] := by
  unfold ListScan.push
  cases he : countExactRemaining r with
  | false =>
    simp only [he, Bool.false_eq_true, if_false] at h
    simp [h]
  | true =>
    simp only [he, if_true] at h
    have hl : scan.emitted.length = min limit entries.length := by
      rw [← length_map listed, h, length_take]
    simp only [hli, all_some, Bool.not_true, Bool.false_or, decide_eq_true_eq, if_true]
    by_cases hr : scan.emitted.length < limit
    · -- there is room: nothing has been left out so far
      rw [if_pos hr, map_append, h, take_of_length_le (by omega), take_of_length_le (by simp; omega)]
      rfl
    · rw [if_neg hr, h, take_append_of_le_length (by omega)]

section Step

variable {w : World} {fl : Prop} {candidate : ResourceCollectionKey} {ca : List ResourceCollectionKey}

theorem Entry.isThere {ob : ResourceKey × Json} (h : Entry w r ps key ob) :
    IsThere w r ps key :=
  ⟨h.scope, by rw [h.there]; rfl⟩

theorem Scanned.skip (h : Scanned w r ps limit st scan entries)
    (hf : Frontier fl (IsThere w r ps) (keyBound scan.candidateAfter) (candidate :: ca))
    (hn : ∀ ob, ¬Entry w r ps candidate ob) :
    Scanned w r ps limit st { scan with candidateAfter := some candidate } entries := by
  have hlt : keyBound scan.candidateAfter < candidate :=
    hf.beyond candidate (by simp)
  refine ⟨h.lists.skip hlt fun k ob he hb => ?_, le_trans h.reached (le_of_lt hlt), h.count, h.emitted⟩
  refine lt_of_le_of_ne (hf.step.1 k he.isThere hb) ?_
  rintro rfl
  exact hn ob he

theorem Scanned.push (hli : r.limit = some limit) (h : Scanned w r ps limit st scan entries)
    (hf : Frontier fl (IsThere w r ps) (keyBound scan.candidateAfter) (candidate :: ca))
    {res : Resource} (hl : (listed res).1 = candidate)
    (he : Entry w r ps candidate (listed res).2) :
    Scanned w r ps limit st (ListScan.push { scan with candidateAfter := some candidate } r res)
      (entries ++ [listed res]) := by
  have hlt : keyBound scan.candidateAfter < candidate :=
    hf.beyond candidate (by simp)
  refine ⟨?_, le_trans h.reached (le_of_lt hlt), ?_, push_emitted hli h.emitted res⟩
  · have hp : listed res = (candidate, (listed res).2) := by rw [← hl]
    rw [hp]
    refine h.lists.snoc h.reached hlt (fun ob => ⟨fun ho => ?_, fun heq => heq ▸ he⟩)
      fun k ob ho hb => hf.step.1 k ho.isThere hb
    exact Prod.ext (ho.identity.trans he.identity.symm) (Option.some.inj (ho.there.symm.trans he.there))
  · simp [ListScan.push, h.count]

end Step

structure ScanEnd (worlds : Nat → World) (request : ResourceListRequest) (position : WatchReplayPosition) (limit : Nat)
    (start : WithBot ResourceCollectionKey) (full : Prop) (scan : ListScan) : Prop where
  scanned : ∃ entries, Scanned (worlds 0) request position limit start scan entries
  ended : scan.isFull request = true ∨
    Frontier full (IsThere (worlds 0) request position) (keyBound scan.candidateAfter) []

theorem entry_of_holds {w : World} {rs : Resource} (hc : r.scope.durable.includes key.ns)
    (hh : Holds (r.identity key) (some rs) (w.objectAt r.target ps key)) :
    (listed rs).1 = key ∧ (selectorsMatch r rs ↔ Entry w r ps key (listed rs).2) := by
  have hk : rs.key = r.identity key := hh.key rs rfl
  have ho : w.objectAt r.target ps key = some rs.data := hh.data.symm
  have hs : selectorsMatch r rs = selectsObject r rs.data := by
    unfold selectorsMatch selectsObject
    rw [hk]
    rfl
  refine ⟨?_, ?_⟩
  · unfold listed
    rw [hk]
    rfl
  · rw [hs]
    exact ⟨fun h => ⟨hc, hk, ho, h⟩, fun h => h.selected⟩

theorem scanCandidates_reads (hu : Running r ps ws) (hli : r.limit = some limit)
    {fl : Prop} (rds : Nat) : ∀ (ca : List ResourceCollectionKey) (turn : Nat) (scan : ListScan),
      (∀ c ∈ ca, Candidate ws r c) →
      Frontier fl (IsThere (ws 0) r ps) (keyBound scan.candidateAfter) ca →
      (∃ entries, Scanned (ws 0) r ps limit st scan entries) →
      Reads (∃ q, QuietFrom ws q ∧ (ws q).history.length < rds) (fun f => turn ≤ f.2 ∧ ScanEnd ws r ps limit st fl f.1 ∧
          ((ca = [] ∧ f.1 = scan) ∨ ∃ c ∈ ca, f.1.candidateAfter = some c))
        (scanCandidates (fun turn => (ws turn).db) r ps rds ca turn scan) := by
  intro ca
  induction ca with
  | nil =>
    intro turn scan _ hf hs
    exact ⟨le_refl turn, ⟨hs, .inr hf⟩, .inl ⟨rfl, rfl⟩⟩
  | cons cd tl ih =>
    rintro turn scan hn hf ⟨entries, hs⟩
    have ha := (hn cd (by simp)).findable
    refine (historicalIdentityAtPosition_reads hu ha rds turn).bind ?_
    rintro ⟨f, next⟩ ⟨hx, hh⟩
    -- the rest of the candidates, from a scan that has passed this one
    have hr : ∀ sc' : ListScan, sc'.candidateAfter = some cd → (∃ entries, Scanned (ws 0) r ps limit st sc' entries) →
        Reads (∃ q, QuietFrom ws q ∧ (ws q).history.length < rds)
          (fun f => turn ≤ f.2 ∧ ScanEnd ws r ps limit st fl f.1 ∧
            ((cd :: tl = [] ∧ f.1 = scan) ∨ ∃ c ∈ cd :: tl, f.1.candidateAfter = some c))
          (scanCandidates (fun turn => (ws turn).db) r ps rds tl next sc') := by
      intro sc' ht hs'
      have hf' := hf.step.2
      refine (ih next sc' (fun c hc => hn c (.tail _ hc)) (by rwa [ht]) hs').mono (fun h => h) ?_
      rintro ⟨re, la⟩ ⟨hle, hd, hpa⟩
      refine ⟨by omega, hd, .inr ?_⟩
      rcases hpa with ⟨-, heq⟩ | ⟨c, hc, hpa⟩
      · exact ⟨cd, by simp, heq ▸ ht⟩
      · exact ⟨c, .tail _ hc, hpa⟩
    cases f with
    | none =>
      refine hr _ rfl ⟨entries, hs.skip hf fun ob he => ?_⟩
      have hth := hh.data.trans he.there
      cases hth
    | some rsc =>
      obtain ⟨hl, hma⟩ := entry_of_holds ha.scope hh
      by_cases hm : selectorsMatch r rsc = false
      · refine Eq.mpr (congrArg _ (if_pos hm)) (hr _ rfl ⟨entries, hs.skip hf fun ob he => ?_⟩)
        have ho : ob = (listed rsc).2 := Prod.ext (he.identity.trans (hh.key rsc rfl).symm)
          (Option.some.inj (he.there.symm.trans hh.data.symm))
        rw [hma.mpr (ho ▸ he)] at hm
        cases hm
      · refine Eq.mpr (congrArg _ (if_neg hm)) ?_
        have hp := hs.push hli hf hl (hma.mp (by simpa using hm))
        simp only
        split
        · rename_i hfu
          exact ⟨by omega, ⟨⟨_, hp⟩, .inl hfu⟩, .inr ⟨cd, by simp, rfl⟩⟩
        · exact hr _ rfl ⟨_, hp⟩

/-! ## Windows -/

def keysAhead (w : World) (request : ResourceListRequest) (after : WithBot ResourceCollectionKey) :
    List ResourceCollectionKey :=
  (candidateKeys w request).filter fun k => after < k

theorem keysAhead_lt {a : WithBot ResourceCollectionKey} {q : Nat} (hq : QuietFrom ws q)
    (ha : Candidate ws r key) (hb : a < key) :
    (keysAhead (ws q) r key).length < (keysAhead (ws q) r a).length := by
  refine remaining_lt _ _ (ha.listed q hq) (by simpa using hb) (by simp) fun k _ hk => ?_
  simp only [decide_eq_true_eq] at hk ⊢
  exact lt_trans hb hk

theorem ScanEnd.last {fl : Prop} (h : ScanEnd ws r ps limit st fl scan) (hu : ¬fl) :
    ScanEnd ws r ps limit st False scan := by
  refine ⟨h.scanned, h.ended.imp_right fun hf => ?_⟩
  exact ⟨hf.ascending, hf.beyond, fun k ht hb => absurd hb (hf.done hu ht)⟩

theorem scanWindows_reads (hr : Running r ps ws) (hli : r.limit = some limit)
    (rounds : Nat) : ∀ (fu t : Nat) (scan : ListScan),
      (∀ k, scan.candidateAfter = some k → r.scope.durable.includes k.ns) →
      (∃ entries, Scanned (ws 0) r ps limit st scan entries) →
      Reads (∃ q, QuietFrom ws q ∧ (ws q).history.length < rounds ∧
          (keysAhead (ws q) r (keyBound scan.candidateAfter)).length < fu)
        (fun f => t < f.2 ∧ ScanEnd ws r ps limit st False f.1.1)
        (scanWindows (fun t => (ws t).db) r ps rounds fu t scan) := by
  intro fu
  induction fu with
  | zero =>
    rintro t scan - - ⟨q, -, -, hm⟩
    omega
  | succ fu ih =>
    intro t scan hsc hs
    have hn : (∃ q, QuietFrom ws q ∧ (ws q).history.length < rounds ∧
        (keysAhead (ws q) r (keyBound scan.candidateAfter)).length < fu + 1) →
        ∃ q, QuietFrom ws q ∧ (ws q).history.length < rounds :=
      fun ⟨q, hq, hh, _⟩ => ⟨q, hq, hh⟩
    refine ((historicalCandidateWindow_reads hr hsc rounds t).mono hn fun _ h => h).bind ?_
    rintro ⟨ca, next⟩ ⟨hx, hca, hf⟩
    simp only
    split
    · rename_i hp
      have hi : ca = [] := isEmpty_iff.1 hp
      subst hi
      have he : ScanEnd ws r ps limit st _ scan := ⟨hs, .inr hf⟩
      exact ⟨hx, he.last (by simp [historicalCandidateCap])⟩
    · rename_i ho
      refine ((scanCandidates_reads hr hli rounds ca next scan hca hf hs).mono hn fun _ h => h).bind ?_
      rintro ⟨sc', la⟩ ⟨hl, he, hpas⟩
      obtain ⟨c, hc, ht⟩ : ∃ c ∈ ca, sc'.candidateAfter = some c := by
        rcases hpas with ⟨hi, -⟩ | hpas
        · simp [hi] at ho
        · exact hpas
      have ha := hca c hc
      simp only
      split
      · rename_i hsp
        refine ⟨by omega, ?_⟩
        rcases Bool.or_eq_true_iff.1 hsp with hu | hsh
        · exact ⟨he.scanned, .inl hu⟩
        · exact he.last (by simpa using hsh)
      · refine (ih la sc' (fun k hk => ?_) he.scanned).mono ?_ fun f h => ⟨by omega, h.2⟩
        · cases ht.symm.trans hk
          exact ha.findable.scope
        · rintro ⟨q, hq, hh, hm⟩
          have hlt := keysAhead_lt hq ha (hf.beyond c hc)
          refine ⟨q, hq, hh, ?_⟩
          rw [ht]
          exact lt_of_lt_of_le hlt (Nat.lt_succ_iff.1 hm)

/-! ## One page -/

/-- What a page lists: the entries up to its continuation, or all that are left. -/
structure PageLists (w : World) (request : ResourceListRequest) (position : WatchReplayPosition)
    (start : WithBot ResourceCollectionKey) (page : ResourceListPage) : Prop where
  last : page.continuation = none → Lists (fun k object => Entry w request position k object ∧ start < k)
      (page.items.map listed)
  next : ∀ continuation, page.continuation = some continuation → continuation.snapshot = position ∧
    Lists (Between (Entry w request position) start continuation.after) (page.items.map listed) ∧
    start < continuation.after ∧ IsThere w request position continuation.after

section Page

variable {w : World}

section

variable (hli : r.limit = some limit) (h : Scanned w r ps limit st scan entries)
include hli h

/-- A page holds the first entries of its scan, and it has a continuation when there are more. -/
theorem pageOf_items (m : Bool) : (pageOf r ps scan m).items.map listed = entries.take limit ∧
      (pageOf r ps scan m).continuation = if limit < entries.length then
          (pageOf r ps scan m).items.getLast?.map fun rs => ⟨(listed rs).1, ps⟩
        else none := by
  have he := h.emitted
  unfold pageOf
  cases hx : countExactRemaining r with
  | true =>
    simp only [hx, if_true] at he
    simp only [hli, any_some, h.count, decide_eq_true_eq, if_true, map_take, he, take_take, min_self, true_and]
    rfl
  | false =>
    simp only [hx, Bool.false_eq_true, if_false] at he
    have hl : scan.emitted.length = entries.length := by rw [← he, length_map]
    simp only [hli, any_some, isNone_some, Bool.and_false, Bool.or_false, Bool.false_eq_true, if_false,
      hl, decide_eq_true_eq, map_take, he, true_and]
    rfl

theorem isFull_more (hfu : scan.isFull r) : limit < entries.length := by
  unfold ListScan.isFull at hfu
  have hm := h.emitted
  cases he : countExactRemaining r with
  | true => simp [he] at hfu
  | false =>
    simp only [he, Bool.false_eq_true, if_false] at hm
    simp only [he, hli, Bool.not_false, Bool.true_and, any_some, decide_eq_true_eq] at hfu
    rw [← hm, length_map]
    omega

end

theorem pageOf_lists (hli : r.limit = some limit) (hon : 1 ≤ limit)
    (h : ScanEnd ws r ps limit st False scan) (m : Bool) :
    PageLists (ws 0) r ps st (pageOf r ps scan m) := by
  obtain ⟨entries, hc⟩ := h.scanned
  obtain ⟨hit, ho⟩ := pageOf_items hli hc m
  set page := pageOf r ps scan m
  by_cases hm : limit < entries.length
  · rw [if_pos hm] at ho
    -- the page is not empty, and its last object is where the next one starts
    obtain ⟨resource, hr⟩ : ∃ resource, page.items.getLast? = some resource := by
      have hl : page.items.length = limit := by
        rw [← length_map listed, hit, length_take]
        omega
      have hne : page.items ≠ [] := by
        rintro hi
        rw [hi] at hl
        simp at hl
        omega
      exact ⟨page.items.getLast hne, getLast?_eq_some_getLast hne⟩
    have ha : (entries.take limit).getLast? = some (listed resource) := by
      rw [← hit, getLast?_map, hr]
      rfl
    obtain ⟨hn, ht, hu⟩ :=
      (hc.lists.mem_iff _ _).1 (mem_of_mem_take (mem_of_getLast? ha))
    rw [hr] at ho
    refine ⟨fun hno => (by rw [ho] at hno; cases hno), fun cont hso => ?_⟩
    cases ho.symm.trans hso
    refine ⟨rfl, ?_, ht, hn.isThere⟩
    rw [hit]
    refine (hc.lists.take ha).congr fun k ob => ?_
    constructor
    · rintro ⟨⟨he, hs, -⟩, hle⟩
      exact ⟨he, hs, WithBot.coe_le_coe.2 hle⟩
    · rintro ⟨he, hs, hle⟩
      exact ⟨⟨he, hs, le_trans hle hu⟩, WithBot.coe_le_coe.1 hle⟩
  · rw [if_neg hm] at ho
    refine ⟨fun _ => ?_, fun cont hso => (by rw [ho] at hso; cases hso)⟩
    rw [hit, take_of_length_le (by omega)]
    refine hc.lists.congr fun k ob => and_congr_right fun he => ?_
    have hf := h.ended.resolve_left fun hfu => hm (isFull_more hli hc hfu)
    exact ⟨fun hg => hg.1, fun hs => ⟨hs, not_lt.1 (hf.done not_false he.isThere)⟩⟩

end Page

theorem scanned_start (w : World) (r : ResourceListRequest) (ps : WatchReplayPosition) (limit : Nat) :
    Scanned w r ps limit (keyBound r.startAfter) ⟨[], 0, r.startAfter⟩ [] := by
  refine ⟨⟨List.Pairwise.nil, fun k ob => ?_⟩, le_rfl, rfl, by simp⟩
  simp only [not_mem_nil, false_iff]
  rintro ⟨-, hs, hu⟩
  exact absurd hs (not_lt.2 hu)

theorem boundedHistoricalList_reads (hr : Running r ps ws) (hli : r.limit = some limit)
    (ho : 1 ≤ limit) (hc : ∀ k, r.startAfter = some k → r.scope.durable.includes k.ns)
    (rs t : Nat) :
    Reads (EnoughFor ws r rs) (fun f => t < f.2 ∧ PageLists (ws 0) r ps (keyBound r.startAfter) f.1)
      (boundedHistoricalList (fun t => (ws t).db) r ps rs t) := by
  have hs := scanWindows_reads hr hli rs rs t ⟨[], 0, r.startAfter⟩ hc
    ⟨[], scanned_start (ws 0) r ps limit⟩
  refine (hs.mono (fun he => ?_) fun _ h => h).bind ?_
  · obtain ⟨qu, hq, hl⟩ := he
    refine ⟨qu, hq, lt_of_le_of_lt ?_ hl, lt_of_le_of_lt (length_filter_le _ _) hl⟩
    simp [candidateKeys]
  · rintro ⟨⟨scan, mo⟩, next⟩ ⟨hx, hn⟩
    simp only [hr.valid]
    exact ⟨hx, pageOf_lists hli ho hn mo⟩

/-! ## All pages -/

theorem candidate_of_isThere (hr : Running r ps ws) (h : IsThere (ws 0) r ps key) :
    Candidate ws r key := by
  have hb : keyBound none < key := WithBot.bot_lt_coe key
  rcases live_or_touched (hr.wellFormed 0) h.1 hb h.2 with hl | ⟨ro, rfl, ht⟩
  · exact candidate_of_live hr hl
  · exact candidate_of_event hr ht.recorded ht.selected

theorem followPages_reads (hli : r.limit = some limit) (hn : 1 ≤ limit)
    (hu : Running r ps worlds) (rds : Nat) : ∀ (fuel turn : Nat) (after : Option ResourceContinuation),
      (∀ k, { r with continuation := after }.startAfter = some k → r.scope.durable.includes k.ns) →
      Reads (∃ q, QuietFrom worlds q ∧ (candidateKeys (worlds q) r).length < rds ∧
          (keysAhead (worlds q) r (keyBound { r with continuation := after }.startAfter)).length < fuel)
        (fun p => Lists (fun k object => Entry (worlds 0) r ps k object ∧
          keyBound { r with continuation := after }.startAfter < k)
          (p.flatten.map listed))
        (followPages (fun turn => (worlds turn).db) rds fuel turn { r with continuation := after } ps) := by
  intro fuel
  induction fuel with
  | zero =>
    rintro turn after - ⟨q, -, -, hm⟩
    omega
  | succ fuel ih =>
    intro turn after hsc
    -- the entries of a request do not depend on its continuation
    have heq : ∀ k object, Entry (worlds 0) { r with continuation := after } ps k object ↔
        Entry (worlds 0) r ps k object := fun k object =>
      ⟨fun h => ⟨h.scope, h.identity, h.there, h.selected⟩, fun h => ⟨h.scope, h.identity, h.there, h.selected⟩⟩
    have hr' : Running { r with continuation := after } ps worlds :=
      ⟨hu.valid, hu.reached, hu.wellFormed, hu.evolves⟩
    set st := keyBound { r with continuation := after }.startAfter with hs
    refine ((boundedHistoricalList_reads hr' hli hn hsc rds turn).mono ?_ fun _ h => h).bind ?_
    · rintro ⟨q, hq, hl, -⟩
      exact ⟨q, hq, hl⟩
    · rintro ⟨pa, next⟩ ⟨-, hg⟩
      cases hc : pa.continuation with
      | none =>
        simp only [hc]
        refine Lists.congr ?_ fun k object => and_congr_left' (heq k object)
        simpa using hg.last hc
      | some continuation =>
        simp only [hc]
        obtain ⟨hp, hi, hb, ht⟩ := hg.next continuation hc
        rw [hp]
        have ha := candidate_of_isThere hu ⟨ht.1, ht.2⟩
        refine ((ih next (some continuation) ?_).mono ?_ fun _ h => h).bind fun tl hr => ?_
        · intro k hk
          cases hk
          exact ht.1
        · rintro ⟨q, hq, hl, hm⟩
          have hlt := keysAhead_lt hq ha hb
          exact ⟨q, hq, hl, lt_of_lt_of_le hlt (Nat.lt_succ_iff.1 hm)⟩
        -- this page lists what is up to its continuation, the rest what is beyond it
        · have hal := hi.append hr fun k object k' ob' hin ho =>
            WithBot.coe_lt_coe.1 (lt_of_le_of_lt hin.2.2 ho.2)
          show Lists _ ((pa.items :: tl).flatten.map listed)
          rw [flatten_cons, map_append]
          refine hal.congr fun k object => ?_
          constructor
          · rintro (⟨he, hin, -⟩ | ⟨he, ho⟩)
            · exact ⟨(heq k object).1 he, hin⟩
            · exact ⟨he, lt_trans hb ho⟩
          · rintro ⟨he, hin⟩
            rcases le_or_gt (k : WithBot ResourceCollectionKey) continuation.after with hle | hgt
            · exact .inl ⟨(heq k object).2 he, hin, hle⟩
            · exact .inr ⟨he, hgt⟩

theorem followPages_expired {t : Nat → ClusterDb} {stop : ListStop}
    (hl : checkFloor (t 0) r.target ps = .error stop) (rs f : Nat) :
    followPages t (rs + 1) (f + 1) 0 r ps = .error stop := by
  have hc : currentCandidateWindow (t 0) r ps r.startAfter = .error stop := by
    unfold currentCandidateWindow
    rw [hl]
    rfl
  have hw : historicalCandidateWindow t r ps (rs + 1) 0 r.startAfter = .error stop := by
    unfold historicalCandidateWindow
    rw [hc]
    rfl
  unfold followPages boundedHistoricalList scanWindows
  rw [hw]
  rfl

theorem running_of_steps (hw : WellFormed r.target (worlds 0))
    (hs : ∀ t, Relation.ReflTransGen (EnvStep r.target) (worlds t) (worlds (t + 1)))
    (hv : ps.validate = .ok ()) (hr : NotAhead ps (worlds 0)) : Running r ps worlds := by
  have hm : ∀ {t lat}, t ≤ lat → Relation.ReflTransGen (EnvStep r.target) (worlds t) (worlds lat) := by
    intro t lat hle
    induction hle with
    | refl => exact Relation.ReflTransGen.refl
    | step _ ih => exact ih.trans (hs _)
  have ha : ∀ t, WellFormed r.target (worlds t) := fun t => (steps_wellFormed (hm (Nat.zero_le t)) hw).1
  exact ⟨hv, hr, ha, fun {t lat} hle => (steps_wellFormed (hm hle) (ha t)).2⟩

/-- A paged LIST at a pinned position is a consistent snapshot. Whatever commits and collections the store takes between
two database turns, following the continuations from the first page reports expiry, or the pages together are the
objects of the scope that were there at the position and match the selectors, each once and in the order of their keys.
No other outcome is possible, and once the store is quiet a bound on the rounds is enough to reach one of the two. -/
theorem historical_list_is_snapshot (worlds : Nat → World) (request : ResourceListRequest)
    (position : WatchReplayPosition) (limit : Nat) (hwell : WellFormed request.target (worlds 0))
    (hsteps : ∀ turn, Relation.ReflTransGen (EnvStep request.target) (worlds turn) (worlds (turn + 1)))
    (hpinned : position.validate = .ok ()) (hlimit : request.limit = some limit) (hone : 1 ≤ limit)
    (hfirst : request.startAfter = none) (rounds : Nat) :
    Reads (EnoughFor worlds request rounds)
      (fun pages => Lists (Entry (worlds 0) request position) (pages.flatten.map listed))
      (followPages (fun turn => (worlds turn).db) rounds rounds 0 request position) := by
  cases rounds with
  | zero =>
    rintro ⟨qu, -, hl⟩
    omega
  | succ rounds =>
    cases hf : checkFloor (worlds 0).db request.target position with
    | error sto =>
      rw [followPages_expired hf]
      have hr := checkFloor_reads (EnoughFor worlds request (rounds + 1)) (worlds 0) request.target position
      rw [hf] at hr
      cases sto with
      | expired ol => trivial
      | exhausted => exact hr
      | retryable msg => exact hr
      | corruptData msg => exact hr
    | ok _ =>
      have hu := running_of_steps hwell hsteps hpinned (checkFloor_ok_iff.1 hf).1
      have hr := followPages_reads hlimit hone hu (rounds + 1) (rounds + 1) 0 request.continuation
        (fun k hk => by cases hfirst.symm.trans hk)
      refine hr.mono ?_ fun pages hp => hp.congr fun k ob => ?_
      · rintro ⟨qu, hq, hl⟩
        exact ⟨qu, hq, hl, lt_of_le_of_lt (length_filter_le _ _) hl⟩
      · refine ⟨fun h => h.1, fun h => ⟨h, ?_⟩⟩
        rw [show ({ request with continuation := request.continuation } : ResourceListRequest) = request from rfl,
          hfirst]
        exact WithBot.bot_lt_coe k

end Pages

/-! ## A deleted object -/

/-- The body of an object that is there at the position and deleted later. -/
def sampleBody : Json :=
  .obj [("metadata", .obj [("name", .str "a"), ("namespace", .str "default"), ("uid", .str "u")])]

def sampleEvent (id : Int) (eventType : String) : WatchEventRow :=
  ⟨id, "v1", "ConfigMap", some "default", "a", id, eventType, Blob.toVec sampleBody⟩

/-- A store without rows whose log holds a creation and a deletion. -/
def sampleDeleted : World where
  db := { ClusterDb.empty with
    tables := { Tables.empty with
      watch := ⟨⟨[sampleEvent 1 "ADDED", sampleEvent 2 "DELETED"], by decide⟩, 2, .empty⟩ }
    resourceVersion := 2 }
  base := fun _ => none
  history := [sampleEvent 1 "ADDED", sampleEvent 2 "DELETED"]

def sampleList : ResourceListRequest := ⟨"v1", "ConfigMap", .namespace "default", none, none, some 1, none, none⟩

theorem sampleDeleted_eventsOf (key : ResourceCollectionKey) : sampleDeleted.eventsOf sampleList.target key =
    if key = ⟨some "default", "a"⟩ then [sampleEvent 1 "ADDED", sampleEvent 2 "DELETED"] else [] := by
  split
  · rename_i hk
    subst hk
    decide
  · rename_i hk
    refine filter_eq_nil_iff.2 fun ro ho hf => hk ?_
    have hr := (isOf_iff.1 hf).2.2
    rw [← hr]
    rcases mem_pair.1 ho with rfl | rfl
    · rfl
    · rfl

theorem sampleDeleted_coherent (key : ResourceCollectionKey) :
    Coherent WatchEventRow.change (sampleDeleted.base key) (sampleDeleted.eventsOf sampleList.target key) := by
  intro fr ev tl he
  rw [sampleDeleted_eventsOf] at he
  split at he
  · match fr, he with
    | [], he =>
      obtain ⟨rfl, -⟩ := List.cons.inj he
      exact rfl
    | [first], he =>
      obtain ⟨rfl, ht⟩ := List.cons.inj he
      obtain ⟨rfl, -⟩ := List.cons.inj ht
      exact rfl
    | first :: second :: fr, he => simp at he
  · simp at he

theorem sampleDeleted_gone (key : ResourceCollectionKey) : sampleDeleted.objectNow sampleList.target key = none := by
  rw [World.objectNow, sampleDeleted_eventsOf]
  split
  · rfl
  · rfl

theorem sampleDeleted_wellFormed : WellFormed sampleList.target sampleDeleted := by
  have hs : ∀ ro ∈ sampleDeleted.history, ro = sampleEvent 1 "ADDED" ∨ ro = sampleEvent 2 "DELETED" :=
    fun ro hr => mem_pair.1 hr
  refine ⟨⟨by decide, ?_, fun key _ => sampleDeleted_coherent key, fun key _ => ?_, fun ro hr => ?_,
    ⟨fun ro hr => ?_, ?_⟩,
    fun ro hr => ?_, ?_⟩, ?_⟩
  · intro ro hr _
    rcases hs ro hr with rfl | rfl
    · exact ⟨.inl rfl, by decide +kernel⟩
    · exact ⟨.inr (.inr rfl), by decide +kernel⟩
  · rw [sampleDeleted_gone]
    rfl
  · cases hr
  · cases hr
  · intro ro hr
    rcases hs ro hr with rfl | rfl
    · decide
    · decide
  · cases hr
  · intro ro hr _ hk
    rcases hs ro hr with rfl | rfl
    · exact absurd hk (by decide)
    · exact absurd hk (by decide)
  · refine ⟨pairwise_pair.2 (by decide), fun ro hr => ?_, fun ro hr => hr,
      fun ro hr hg => absurd hr hg, fun ro _ o ho _ _ => ho⟩
    rcases hs ro hr with rfl | rfl
    · decide
    · decide

theorem historical_list_is_snapshot_deleted :
    ∃ pages, followPages (fun _ => sampleDeleted.db) 5 5 0 sampleList ⟨1, 1, 0⟩ = .ok pages ∧
      pages.flatten.map listed = [(⟨some "default", "a"⟩, (⟨"v1", "ConfigMap", some "default", "a"⟩, sampleBody))] ∧
      Lists (Entry sampleDeleted sampleList ⟨1, 1, 0⟩) (pages.flatten.map listed) := by
  have hp : followPages (fun _ => sampleDeleted.db) 5 5 0 sampleList ⟨1, 1, 0⟩ =
      .ok [[⟨⟨"v1", "ConfigMap", some "default", "a"⟩, "u", 2, sampleBody⟩]] := by decide +kernel
  have hr := historical_list_is_snapshot (fun _ => sampleDeleted) sampleList ⟨1, 1, 0⟩ 1 sampleDeleted_wellFormed
    (fun _ => Relation.ReflTransGen.refl) (by decide) rfl (le_refl 1) rfl 5
  exact ⟨_, hp, rfl, hr⟩

end Klights.Store
