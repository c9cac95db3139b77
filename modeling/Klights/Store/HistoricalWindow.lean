import Klights.Store.HistoricalObject

/-!
# Windows of candidates

The candidates of a window come from two readers: one turn over the live rows, and turns over the log until enough keys
with an unseen event are found. An object at the position is live with only seen events, or it has an unseen event, and
no accepted turn has lost that one (`live_or_touched`).

- `TouchedSoFar.step`: what the reader of the log has found, and which events are still ahead of its cursor;
- `touchedCandidates_reads`: its keys are a window on the touched keys;
- `historicalCandidateWindow_reads`: the merge misses no object of the position unless it lies behind a full window.
-/

namespace Klights.Store

open Lib Replay ResourceCollectionScope DurableWatchScope List

variable {rs : List WatchEventRow} {touched : List ResourceCollectionKey}

variable {rq : ResourceListRequest} {pos : WatchReplayPosition} {ws : Nat → World}
  {key : ResourceCollectionKey} {a : Option ResourceCollectionKey} {tn f q : Nat} {row ro : WatchEventRow}

/-! ## Candidates -/

def candidateKeys (w : World) (request : ResourceListRequest) : List ResourceCollectionKey :=
  (collectionRows w.db request).map Prod.fst ++ w.history.map WatchEventRow.collectionKey

/-- A key that may be looked up, and that is known once the store is quiet. -/
structure Candidate (worlds : Nat → World) (request : ResourceListRequest) (key : ResourceCollectionKey) : Prop where
  findable : Findable request key
  listed : ∀ quiet, QuietFrom worlds quiet → key ∈ candidateKeys (worlds quiet) request

theorem candidate_of_event (hru : Running rq pos ws) (hr : ro ∈ (ws tn).history)
    (he : rq.target.selects ro) : Candidate ws rq ro.collectionKey := by
  have ha := (hru.wellFormed tn).accounted
  obtain ⟨⟨hp, hk⟩, hc⟩ := selects_iff.1 he
  refine ⟨⟨hc, ha.reserved.2 ro hr, fun hv1 hn => ?_⟩, fun q hq => ?_⟩
  · -- the events of namespaces have no namespace
    have ho := ha.placed.2 ro hr (hp.trans hv1) (hk.trans hn)
    rw [ho] at hc
    cases hs : rq.scope with
    | cluster => rfl
    | _ => simp [hs, durable, includes] at hc
  · exact mem_append_right _ (mem_map_of_mem (hru.history_subset hq tn hr))

theorem findable_of_live {w : World} (ha : Accounted rq.target w)
    (hc : rq.scope.durable.includes key.ns) (hl : (liveData w.db rq.target key).isSome) :
    Findable rq key := by
  rw [liveData_eq] at hl
  by_cases hn : isNamespaceCollection rq
  · simp only [isNamespaceCollection, Bool.and_eq_true, decide_eq_true_eq] at hn
    refine ⟨hc, ?_, fun _ _ => hn.2⟩
    rw [hn.2] at hc
    have hno : key.ns = none := by
      simpa [durable, includes] using hc
    simp [hno]
  · rw [if_neg hn, Option.isSome_map] at hl
    obtain ⟨ro, hi⟩ := Option.isSome_iff_exists.1 hl
    have hr := Table.find_key hi
    have ho := Table.find_mem hi
    refine ⟨hc, ?_, fun hv1 hs => ?_⟩
    · have hf := ha.reserved.1 ro ho
      rwa [hr] at hf
    · have hp := ha.placed.1 ro ho
      rw [hr] at hp
      exact absurd hs (hp hv1)

theorem candidate_of_live (hru : Running rq pos ws) (hl : LiveBeyond (ws tn) rq a key) :
    Candidate ws rq key := by
  refine ⟨findable_of_live (hru.wellFormed tn).accounted hl.scope hl.live, fun q hq => ?_⟩
  by_cases hv : ∃ ro ∈ (ws q).history, rq.target.isOf key ro
  · obtain ⟨ro, ho, hf⟩ := hv
    rw [← (isOf_iff.1 hf).2.2]
    exact mem_append_right _ (mem_map_of_mem ho)
  · -- without an event the object was there from the start and still is
    have hno : ∀ t, (∀ r ∈ (ws t).history, r ∈ (ws q).history) → (ws t).objectNow rq.target key = (ws 0).base key := by
      intro t hs
      have he : (ws t).eventsOf rq.target key = [] :=
        filter_eq_nil_iff.2 fun r hr hf => hv ⟨r, hs r hr, hf⟩
      rw [World.objectNow, he, (hru.evolves (Nat.zero_le t)).base]
      rfl
    have ht := hno tn fun r hr => hru.history_subset hq tn hr
    have hn := hno q fun r hr => hr
    have heq : liveData (ws q).db rq.target key = liveData (ws tn).db rq.target key := by
      rw [(hru.wellFormed q).accounted.live key hl.scope, (hru.wellFormed tn).accounted.live key hl.scope, ht, hn]
    obtain ⟨da, hd⟩ := Option.isSome_iff_exists.1 hl.live
    refine mem_append_left _ (mem_map.2 ⟨(key, da), mem_collectionRows.2 ⟨hl.scope, ?_⟩, rfl⟩)
    rw [heq, hd]

/-- A key of the scope beyond a cursor with an event the position does not represent. -/
structure TouchedBeyond (w : World) (request : ResourceListRequest) (position : WatchReplayPosition)
    (after : Option ResourceCollectionKey) (row : WatchEventRow) : Prop where
  recorded : row ∈ w.history
  selected : request.target.selects row = true
  unseen : row.seenAt position = false
  beyond : keyBound after < row.collectionKey

theorem live_or_touched {w : World} (hw : WellFormed rq.target w)
    (hc : rq.scope.durable.includes key.ns) (hb : keyBound a < key)
    (ho : (w.objectAt rq.target pos key).isSome) :
    LiveBeyond w rq a key ∨ ∃ row, row.collectionKey = key ∧ TouchedBeyond w rq pos a row := by
  by_cases hs : ∀ row ∈ w.eventsOf rq.target key, row.seenAt pos
  · refine .inl ⟨hc, hb, ?_⟩
    rw [World.objectAt, rolledBack_of_seen hs] at ho
    rwa [hw.accounted.live key hc, Option.isSome_map]
  · obtain ⟨row, hr, hu⟩ : ∃ row ∈ w.eventsOf rq.target key, ¬row.seenAt pos := by
      simpa using hs
    obtain ⟨hh, hf⟩ := mem_filter.1 hr
    have hk := (isOf_iff.1 hf).2.2
    refine .inr ⟨row, hk, hh, selects_of_isOf hc hf, by simpa using hu, ?_⟩
    rwa [hk]

theorem TouchedBeyond.logged (hru : Running rq pos ws) (hle : f ≤ tn) (hacc : Accepted rq.target pos (ws tn))
    (h : TouchedBeyond (ws f) rq pos a ro) : ro ∈ (ws tn).log.events.rows := by
  obtain ⟨fr, hh, -⟩ := (hru.evolves hle).history
  have hr : ro ∈ (ws tn).history := by
    rw [hh]
    exact mem_append_left _ h.recorded
  by_contra hg
  have hs := represented_of_available (hru.wellFormed tn) hru.valid hacc.available hr h.selected hg
  rw [h.unseen] at hs
  cases hs

/-! ## The reader of the log -/

instance decidablePastCursor (after : Option ResourceCollectionKey) (cursor : Option (ResourceCollectionKey × Int))
    (row : WatchEventRow) : Decidable (PastCursor after cursor row) :=
  match cursor with
  | some (key, eventId) => inferInstanceAs (Decidable (rawRankAt key eventId < rawRank row))
  | none => inferInstanceAs (Decidable (keyBound after < row.collectionKey))

/-- What the reader of the log has found: candidates up to its cursor, with every touched key found or ahead. -/
structure TouchedSoFar (worlds : Nat → World) (first : Nat) (request : ResourceListRequest)
    (position : WatchReplayPosition) (after : Option ResourceCollectionKey) (touched : List ResourceCollectionKey)
    (cursor : Option (ResourceCollectionKey × Int)) : Prop where
  nodup : touched.Nodup
  sound : ∀ k ∈ touched, Candidate worlds request k ∧ keyBound after < k
  upto : ∀ k ∈ touched, ∃ last eventId, cursor = some (last, eventId) ∧ k ≤ last
  scope : ∀ last eventId, cursor = some (last, eventId) → request.scope.durable.includes last.ns = true ∧
    keyBound after < last
  ahead : ∀ row, TouchedBeyond (worlds first) request position after row →
    row.collectionKey ∈ touched ∨ PastCursor after cursor row

theorem touchedSoFar_start (ws : Nat → World) (f : Nat) (rq : ResourceListRequest)
    (pos : WatchReplayPosition) (a : Option ResourceCollectionKey) :
    TouchedSoFar ws f rq pos a [] none :=
  ⟨nodup_nil, by simp, by simp, by simp, fun _ h => .inr h.beyond⟩

theorem mem_foldl_insert : key ∈ rs.foldl (fun touched row => touched.insert row.collectionKey) touched ↔
      key ∈ touched ∨ ∃ row ∈ rs, row.collectionKey = key := by
  induction rs generalizing touched with
  | nil => simp
  | cons row rs ih =>
    rw [foldl_cons, ih, mem_insert_iff, eq_comm]
    simp only [mem_cons, exists_eq_or_imp]
    tauto

theorem nodup_foldl_insert (h : touched.Nodup) :
    (rs.foldl (fun touched row => touched.insert row.collectionKey) touched).Nodup := by
  induction rs generalizing touched with
  | nil => exact h
  | cons row rs ih => exact ih h.insert

section Step

variable {c : Option (ResourceCollectionKey × Int)} {l : WatchEventRow}

def foundKeys (position : WatchReplayPosition) (touched : List ResourceCollectionKey) (rows : List WatchEventRow) :
    List ResourceCollectionKey :=
  (rows.filter fun row => !position.representsEvent row.id row.resourceVersion).foldl
    (fun touched row => touched.insert row.collectionKey) touched

theorem mem_foundKeys : key ∈ foundKeys pos touched rs ↔
    key ∈ touched ∨ ∃ row ∈ rs, row.seenAt pos = false ∧ row.collectionKey = key := by
  rw [foundKeys, mem_foldl_insert]
  simp only [mem_filter, Bool.not_eq_true', WatchEventRow.seenAt, and_assoc]

variable (h : TouchedSoFar ws f rq pos a touched c)

include h

theorem TouchedSoFar.past (hs : rq.target.selects ro) (ha : PastCursor a c ro) :
    keyBound a < ro.collectionKey ∧ ∀ k e, c = some (k, e) → k ≤ ro.collectionKey := by
  cases hc : c with
  | none =>
    rw [hc] at ha
    exact ⟨ha, fun k e hn => by cases hn⟩
  | some c =>
    obtain ⟨k, e⟩ := c
    rw [hc] at ha
    obtain ⟨hsc, hb⟩ := h.scope k e hc
    have hle : k ≤ ro.collectionKey := le_of_rawRankAt_le hsc (selects_iff.1 hs).2 (le_of_lt ha)
    refine ⟨lt_of_lt_of_le hb (WithBot.coe_le_coe.2 hle), fun k' eid' heq => ?_⟩
    obtain ⟨rfl, rfl⟩ := Prod.mk.inj (Option.some.inj heq)
    exact hle

section

variable (hru : Running rq pos ws) (hle : f ≤ tn)
  (hacc : Accepted rq.target pos (ws tn))
  (hro : TouchedRows (ws tn) rq a c rs)
include hru hle hacc hro

theorem TouchedSoFar.found_or_behind (ht : TouchedBeyond (ws f) rq pos a ro) :
    ro.collectionKey ∈ foundKeys pos touched rs ∨
      (historicalCandidateCap ≤ rs.length ∧ ∀ r ∈ rs, rawRank r < rawRank ro) := by
  rcases h.ahead ro ht with hf | hah
  · exact .inl (mem_foundKeys.2 (.inl hf))
  · exact (hro.complete ro (ht.logged hru hle hacc) ht.selected hah).imp_left fun hi =>
      mem_foundKeys.2 (.inr ⟨ro, hi, ht.unseen, rfl⟩)

theorem TouchedSoFar.step (ha : rs.getLast? = some l) : TouchedSoFar ws f rq pos a (foundKeys pos touched rs)
      (some (l.collectionKey, l.id)) := by
  have hp : ∀ ro ∈ rs, keyBound a < ro.collectionKey ∧ ∀ k eid, c = some (k, eid) → k ≤ ro.collectionKey := fun ro hr =>
    h.past (hro.sound ro hr).2.1 (hro.sound ro hr).2.2
  have hsc : ∀ ro ∈ rs, rq.scope.durable.includes ro.ns := fun ro hr => (selects_iff.1 (hro.sound ro hr).2.1).2
  have hl := mem_of_getLast? ha
  refine ⟨nodup_foldl_insert h.nodup, fun k hk => ?_, fun k hk => ?_, fun k eid heq => ?_, fun ro ht => ?_⟩
  · rcases mem_foundKeys.1 hk with hk | ⟨ro, hr, -, rfl⟩
    · exact h.sound k hk
    · obtain ⟨hi, hs, -⟩ := hro.sound ro hr
      exact ⟨candidate_of_event hru ((hru.wellFormed tn).kept.recorded ro hi) hs, (hp ro hr).1⟩
  · refine ⟨l.collectionKey, l.id, rfl, ?_⟩
    rcases mem_foundKeys.1 hk with hk | ⟨ro, hr, -, rfl⟩
    · obtain ⟨ol, eid, hc, ho⟩ := h.upto k hk
      exact le_trans ho ((hp l hl).2 ol eid hc)
    · exact le_of_rawRankAt_le (hsc ro hr) (hsc l hl) (le_last hro.ascending ha hr)
  · obtain ⟨rfl, rfl⟩ := Prod.mk.inj (Option.some.inj heq)
    exact ⟨hsc l hl, (hp l hl).1⟩
  · exact (h.found_or_behind hru hle hacc hro ht).imp_right fun hb => hb.2 l hl

end

theorem TouchedSoFar.window (hu : historicalCandidateCap ≤ touched.length) : Window historicalCandidateCap
      (fun k => ∃ row, row.collectionKey = k ∧ TouchedBeyond (ws f) rq pos a row) touched := by
  rintro k ⟨row, rfl, ht⟩
  by_cases hf : row.collectionKey ∈ touched
  · exact .inl hf
  · refine .inr ⟨hu, fun k hk => lt_of_le_of_ne ?_ fun heq => hf (heq ▸ hk)⟩
    obtain ⟨l, eid, hc, hle⟩ := h.upto k hk
    rcases h.ahead row ht with hi | hah
    · exact absurd hi hf
    · exact le_trans hle ((h.past ht.selected hah).2 l eid hc)

end Step

/-- What a reader of the log ends with: candidates that are a window on the touched keys. -/
structure TouchedWindow (worlds : Nat → World) (first : Nat) (request : ResourceListRequest)
    (position : WatchReplayPosition) (after : Option ResourceCollectionKey) (touched : List ResourceCollectionKey) :
    Prop where
  nodup : touched.Nodup
  sound : ∀ k ∈ touched, Candidate worlds request k ∧ keyBound after < k
  window : Window historicalCandidateCap
    (fun k => ∃ row, row.collectionKey = k ∧ TouchedBeyond (worlds first) request position after row) touched

/-- The events past a cursor once the store is quiet. -/
def eventsAhead (w : World) (request : ResourceListRequest) (after : Option ResourceCollectionKey)
    (cursor : Option (ResourceCollectionKey × Int)) : List WatchEventRow :=
  w.history.filter fun row => request.target.selects row && decide (PastCursor after cursor row)

theorem eventsAhead_lt (hru : Running rq pos ws) (hq : QuietFrom ws q)
    {c : Option (ResourceCollectionKey × Int)} {last : WatchEventRow}
    (h : TouchedSoFar ws f rq pos a touched c)
    (hro : TouchedRows (ws tn) rq a c rs) (hl : rs.getLast? = some last) :
    (eventsAhead (ws q) rq a (some (last.collectionKey, last.id))).length < (eventsAhead (ws q) rq a c).length := by
  obtain ⟨hi, hs, hp⟩ := hro.sound last (mem_of_getLast? hl)
  have hh := hru.history_subset hq tn ((hru.wellFormed tn).kept.recorded last hi)
  have hn : ¬PastCursor a (some (last.collectionKey, last.id)) last := lt_irrefl (rawRank last)
  refine remaining_lt _ _ hh (by simp [hs, hp]) (by simp [hn]) fun row _ hr => ?_
  simp only [Bool.and_eq_true, decide_eq_true_eq] at hr ⊢
  refine ⟨hr.1, ?_⟩
  have ha : rawRank last < rawRank row := hr.2
  cases hc : c with
  | none =>
    have hle : last.collectionKey ≤ row.collectionKey :=
      le_of_rawRankAt_le (selects_iff.1 hs).2 (selects_iff.1 hr.1).2 (le_of_lt ha)
    exact lt_of_lt_of_le (h.past hs hp).1 (WithBot.coe_le_coe.2 hle)
  | some c =>
    rw [hc] at hp
    exact lt_trans hp ha

theorem touchedCandidates_reads (hru : Running rq pos ws) (ha : ∀ k, a = some k → rq.scope.durable.includes k.ns) :
    ∀ (fl tn : Nat) (touched : List ResourceCollectionKey) (c : Option (ResourceCollectionKey × Int)),
      f ≤ tn → TouchedSoFar ws f rq pos a touched c →
      Reads (∃ q, QuietFrom ws q ∧ (eventsAhead (ws q) rq a c).length < fl)
        (fun fo => tn < fo.2 ∧ TouchedWindow ws f rq pos a fo.1)
        (touchedCandidates (fun tn => (ws tn).db) rq pos a fl tn touched c) := by
  intro fl
  induction fl with
  | zero =>
    rintro tn touched c - - ⟨q, -, hm⟩
    omega
  | succ fl ih =>
    intro tn touched c hle h
    refine (touchedCandidateWindow_reads (ws tn) ha fun k eid hc =>
      (h.scope k eid hc).1).bind ?_
    rintro rs ⟨hacc, hro⟩
    have hh : rs.length < historicalCandidateCap → Window historicalCandidateCap
        (fun k => ∃ ro, ro.collectionKey = k ∧ TouchedBeyond (ws f) rq pos a ro)
        (foundKeys pos touched rs) := by
      rintro hl k ⟨ro, rfl, ht⟩
      -- a short turn was the last one
      exact (h.found_or_behind hru hle hacc hro ht).imp_right fun hfu => absurd hfu.1 (by omega)
    simp only
    cases hla : rs.getLast? with
    | none =>
      have he : rs = [] := getLast?_eq_none_iff.mp hla
      subst he
      exact ⟨Nat.lt_succ_self tn, h.nodup, h.sound, hh (by decide)⟩
    | some l =>
      have hs := h.step hru hle hacc hro hla
      by_cases hp : rs.length < historicalCandidateCap ∨ historicalCandidateCap ≤ (foundKeys pos touched rs).length
      · refine Eq.mpr (congrArg _ (if_pos hp)) ⟨Nat.lt_succ_self tn, hs.nodup, hs.sound, ?_⟩
        rcases hp with hl | hfu
        · exact hh hl
        · exact hs.window hfu
      · refine Eq.mpr (congrArg _ (if_neg hp)) ?_
        refine (ih (tn + 1) (foundKeys pos touched rs) _ (by omega) hs).mono ?_
          fun fo hf => ⟨by omega, hf.2⟩
        rintro ⟨q, hq, hm⟩
        have hlt := eventsAhead_lt hru hq h hro hla
        exact ⟨q, hq, by omega⟩

/-! ## Merged windows -/

def IsThere (w : World) (request : ResourceListRequest) (position : WatchReplayPosition) (key : ResourceCollectionKey) :
    Prop :=
  request.scope.durable.includes key.ns = true ∧ (w.objectAt request.target position key).isSome = true

theorem historicalCandidateWindow_reads (hru : Running rq pos ws)
    (ha : ∀ k, a = some k → rq.scope.durable.includes k.ns) (r tn : Nat) :
    Reads (∃ q, QuietFrom ws q ∧ (ws q).history.length < r) (fun fo => tn < fo.2 ∧ (∀ k ∈ fo.1, Candidate ws rq k) ∧
        Frontier (fo.1.length = historicalCandidateCap) (IsThere (ws 0) rq pos) (keyBound a) fo.1)
      (historicalCandidateWindow (fun tn => (ws tn).db) rq pos r tn a) := by
  have hw := hru.wellFormed tn
  refine (currentCandidateWindow_reads hw ha).bind ?_
  rintro cu ⟨-, hn, hl, hc⟩
  have ht := touchedCandidates_reads hru ha r (tn + 1) [] none (Nat.le_succ tn) (touchedSoFar_start ws tn rq pos a)
  refine (ht.mono ?_ fun _ h => h).bind ?_
  · rintro ⟨q, hq, hm⟩
    exact ⟨q, hq, lt_of_le_of_lt (length_filter_le _ _) hm⟩
  rintro ⟨touched, next⟩ ⟨hx, ht⟩
  have hs : ∀ k ∈ (mergeKeys cu touched).take historicalCandidateCap, Candidate ws rq k ∧ keyBound a < k := by
    intro k hk
    rcases mem_mergeKeys.1 (mem_of_mem_take hk) with hk | hk
    · exact ⟨candidate_of_live hru (hl k hk), (hl k hk).beyond⟩
    · exact ht.sound k hk
  have hi := window_merge hc ht.window hn ht.nodup
  refine ⟨by omega, fun k hk => (hs k hk).1, ?_, fun k hk => (hs k hk).2, fun k hh hb => ?_⟩
  · exact List.Pairwise.sublist (take_sublist _ _) (mergeKeys_ascending cu touched)
  · have ho := hh.2
    rw [← hru.objectAt k tn] at ho
    rcases hi k (live_or_touched hw hh.1 hb ho) with hin | ⟨hf, hal⟩
    · exact .inl hin
    · exact .inr ⟨le_antisymm (length_take_le _ _) hf, hal⟩

end Klights.Store
