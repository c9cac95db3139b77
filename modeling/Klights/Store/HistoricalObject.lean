import Klights.Store.HistoricalTurns
import Klights.Store.Membership

/-!
# One object at a position

The reconstructor of one object is a walk back along its change log (`Represents`, `observe_represents`). The rounds of
`historicalIdentityAtPosition` read the log batch by batch, newest first, from a store that changes between the rounds:
new events come in behind the walk and old ones are collected in front of it.

- `newestLeft_split`: a batch that a turn reads moves the walk on, and before a short batch only seen events are left;
- `identityRounds_reads`: the rounds give the object at the position, or report expiry;
- `historicalIdentityAtPosition_reads`: so does the walk from the live row.
-/

namespace Klights.Store

open Lib Replay WatchEventRow MembershipReconstructor List Table Rollback

variable {identity : ResourceKey} {w : World}

variable {rq : ResourceListRequest} {pos p : WatchReplayPosition} {key k : ResourceCollectionKey}

/-! ## The reconstructor of one object -/

section Reconstructor

variable {rc : MembershipReconstructor} {walk : Rollback Json} {row : WatchEventRow}

/-- A reconstructor that holds at most one object is a walk back along its log. -/
structure Represents (identity : ResourceKey) (position : WatchReplayPosition)
    (reconstructor : MembershipReconstructor) (walk : Rollback Json) : Prop
    extends Projects Resource.data identity reconstructor walk where
  position : reconstructor.position = position
  keys : ∀ r ∈ reconstructor.state.rows, r.key = identity

theorem new_represents {c : Option Resource} {ob : Option Json} (h : Holds identity c ob) :
    Represents identity p (.new c.toList p) (start ob) := by
  cases c with
  | none =>
    have hn : ob = none := by simpa using h.data.symm
    exact ⟨⟨by simp [new, start, hn], by simp [new, start], rfl⟩, rfl, by simp [new]⟩
  | some resource =>
    have hk : resource.key = identity := h.key resource rfl
    have hd : ob = some resource.data := by simpa using h.data.symm
    refine ⟨⟨?_, by simp [new, start], rfl⟩, rfl, fun r hr => ?_⟩
    · simp [new, start, hd, find_put, hk]
    · have hr : r = resource := by simpa [new, mem_put] using hr
      rw [hr, hk]

theorem observe_represents (h : Represents (rq.identity k) p rc walk) (hn : row.Known) :
    Represents (rq.identity k) p (rc.observe (membershipEvent rq k row)) (walk.observe change (seenAt p) row) := by
  have hw : Projects Resource.data (membershipEvent rq k row).key rc walk := h.toProjects
  refine ⟨observe_projects hw hn.1 h.position, observe_position.trans h.position, fun r hr => ?_⟩
  by_contra ho
  -- nothing comes in under another key
  have hne : (membershipEvent rq k row).key ≠ r.key := Ne.symm ho
  have heq := (observe_other rc hne).1
  exact ho (h.keys r (find_mem (heq.symm.trans (find_of_mem hr))))

theorem foldl_observe_represents {rs : List WatchEventRow} (hn : ∀ row ∈ rs, row.Known)
    (h : Represents (rq.identity k) p rc walk) :
    Represents (rq.identity k) p ((rs.map (membershipEvent rq k)).foldl observe rc)
      (rs.foldl (observe change (seenAt p)) walk) := by
  induction rs generalizing rc walk with
  | nil => exact h
  | cons row rs ih =>
    exact ih (fun r hr => hn r (.tail _ hr)) (observe_represents h (hn row (by simp)))

theorem finish_represents (h : Represents identity p rc walk) {rs : List Resource} (hf : rc.finish = .items rs) :
    walk.pending = false ∧ Holds identity rs.getLast? walk.state := by
  obtain ⟨-, he, rfl⟩ := finish_eq_items_iff.1 hf
  have hi : walk.pending = false := by
    refine Bool.eq_false_iff.2 fun hw => ?_
    simpa [he] using h.pending.2 hw
  have hl : rc.state.rows.getLast? = rc.state.find identity := by
    rw [rows_of_one_key h.keys]
    cases rc.state.find identity <;> rfl
  refine ⟨hi, ?_, fun r hr => ?_⟩
  · rw [hl, h.state]
  · rw [hl] at hr
    exact find_key hr

end Reconstructor

/-! ## A store that changes between turns -/

/-- The worlds of the turns of a LIST at a position that was reached before the first one. -/
structure Running (request : ResourceListRequest) (position : WatchReplayPosition) (worlds : Nat → World) : Prop where
  valid : position.validate = .ok ()
  reached : NotAhead position (worlds 0)
  wellFormed : ∀ turn, WellFormed request.target (worlds turn)
  evolves : ∀ {turn later}, turn ≤ later → Evolves (worlds turn) (worlds later)

/-- The store does not change any more. -/
def QuietFrom (worlds : Nat → World) (quiet : Nat) : Prop := ∀ turn, quiet ≤ turn → worlds turn = worlds quiet

variable {ws : Nat → World} {turn later quiet q : Nat}

theorem Running.objectAt (h : Running rq p ws) (key : ResourceCollectionKey) (turn : Nat) :
    (ws turn).objectAt rq.target p key = (ws 0).objectAt rq.target p key :=
  objectAt_of_evolves h.valid h.reached (h.evolves (Nat.zero_le turn))

/-- Later events of an object come after the ones that were there, with greater ids. -/
theorem Running.eventsOf (h : Running rq p ws) (hl : turn ≤ later) (key : ResourceCollectionKey) :
    ∃ f, (ws later).eventsOf rq.target key = (ws turn).eventsOf rq.target key ++ f ∧
      ∀ row ∈ f, (ws turn).log.seq < row.id := by
  obtain ⟨f, hh, hf⟩ := (h.evolves hl).history
  refine ⟨f.filter (rq.target.isOf key), ?_, fun row hr => (hf row (mem_filter.1 hr).1).1⟩
  rw [World.eventsOf, hh, filter_append]
  rfl

theorem Running.history_subset (h : Running rq p ws) (hq : QuietFrom ws q) (turn : Nat)
    {row : WatchEventRow} (hr : row ∈ (ws turn).history) : row ∈ (ws q).history := by
  rcases Nat.le_total turn q with hle | hle
  · obtain ⟨fr, hh, -⟩ := (h.evolves hle).history
    rw [hh]
    exact mem_append_left _ hr
  · rwa [hq turn hle] at hr

theorem logged_upward (hk : LogKept w) {t : DurableWatchTarget} :
    ∀ row ∈ w.eventsOf t k, row ∈ w.log.events.rows → ∀ o ∈ w.eventsOf t k, row.id ≤ o.id → o ∈ w.log.events.rows := by
  intro row hr hi o ho hle
  obtain ⟨-, hf⟩ := mem_filter.1 hr
  obtain ⟨ht, ho'⟩ := mem_filter.1 ho
  simp only [DurableWatchTarget.isOf, Bool.and_eq_true, decide_eq_true_eq] at hf ho'
  have heq : row.collectionKey = o.collectionKey := hf.2.trans ho'.2.symm
  have hn : row.ns = o.ns := congrArg ResourceCollectionKey.ns heq
  refine hk.newest row hi o ht ?_ hle
  simp [scopeKey, hf.1, ho'.1, hn]

/-! ## One batch -/

theorem newestLeft_split (hw : WellFormed rq.target w) (hv : p.validate = .ok ())
    (ha : Accepted rq.target p w) (hsc : rq.scope.durable.includes key.ns) (b : Int) :
    ∃ o, ((w.eventsOf rq.target key).filter fun row => row.id < b) = o ++ (newestLeft w rq key b).reverse ∧
      ((newestLeft w rq key b).length < historicalIdentityHistoryCap → ∀ row ∈ o, row.seenAt p) := by
  set front := (w.eventsOf rq.target key).filter fun row => row.id < b with hf
  have hm : ∀ row ∈ front, row ∈ w.eventsOf rq.target key := fun row hr => (mem_filter.1 hr).1
  have hc : Ascending WatchEventRow.id front := (hw.kept.ascending.filter _).filter _
  obtain ⟨o, hs, hsh⟩ := newest_page (fun row => decide (row ∈ w.log.events.rows)) hc (fun row hr hi ot ho hle => by
      simp only [decide_eq_true_eq] at hi ⊢
      exact logged_upward hw.kept row (hm row hr) hi ot (hm ot ho) hle)
    historicalIdentityHistoryCap
  refine ⟨o, hs, fun hl row hr => ?_⟩
  have hg : row ∉ w.log.events.rows := by simpa using hsh hl row hr
  have hi : row ∈ front := by
    rw [hs]
    exact mem_append_left _ hr
  obtain ⟨hh, hof⟩ := mem_filter.1 (hm row hi)
  exact represented_of_available hw hv ha.available hh (selects_of_isOf hsc hof) hg

theorem older_eq (hk : LogKept w) {b : Int} {older : List WatchEventRow} {l : WatchEventRow}
    (hs : ((w.eventsOf rq.target k).filter fun row => row.id < b) = older ++ (newestLeft w rq k b).reverse)
    (hl : (newestLeft w rq k b).getLast? = some l) :
    ((w.eventsOf rq.target k).filter fun row => row.id < l.id) = older := by
  have hb := (mem_of_mem_newestLeft (mem_of_getLast? hl)).2.2
  obtain ⟨newer, hn⟩ : ∃ newer, (newestLeft w rq k b).reverse = l :: newer := by
    obtain ⟨ini, hi⟩ := getLast?_eq_some_iff.1 hl
    exact ⟨ini.reverse, by rw [hi]; simp⟩
  rw [hn] at hs
  have ha : Ascending WatchEventRow.id (older ++ l :: newer) := by
    rw [← hs]
    exact (hk.ascending.filter _).filter _
  have hc : ((w.eventsOf rq.target k).filter fun row => row.id < l.id) =
      ((w.eventsOf rq.target k).filter fun row => row.id < b).filter fun row => row.id < l.id := by
    rw [filter_filter]
    refine filter_congr fun row _ => ?_
    by_cases hlt : row.id < l.id
    · simp [hlt, lt_trans hlt hb]
    · simp [hlt]
  rw [hc, hs]
  exact filter_before ha

/-! ## Rounds -/

/-- Enough rounds for one object: more than it has events before the walk once the store is quiet. -/
def EnoughRounds (worlds : Nat → World) (request : ResourceListRequest) (key : ResourceCollectionKey) (beforeId : Int)
    (rounds : Nat) : Prop :=
  ∃ quiet, QuietFrom worlds quiet ∧
    (((worlds quiet).eventsOf request.target key).filter fun row => row.id < beforeId).length < rounds

/-- A walk with only seen events before it finishes with the object at the position, or it reports expiry. -/
theorem finish_reads {e : Prop} {o tl : List WatchEventRow} {walk : Rollback Json}
    {rc : MembershipReconstructor} {n : Nat} (hx : turn < n)
    (he : w.eventsOf rq.target k = o ++ tl)
    (hr : Represents (rq.identity k) p rc walk)
    (ht : Rollback.Tracks change (seenAt p) (w.base k) o tl walk)
    (hs : ∀ row ∈ o, row.seenAt p) :
    Reads e (fun f => turn < f.2 ∧ Holds (rq.identity k) f.1 (w.objectAt rq.target p k)) (match rc.finish with
        | .items resources => .ok (resources.getLast?, n)
        | .expired => .error (.expired p.resourceVersion)) := by
  cases hf : rc.finish with
  | expired => trivial
  | items resources =>
    obtain ⟨hi, hh⟩ := finish_represents hr hf
    rw [ht.finish hi hs, ← he] at hh
    exact ⟨hx, hh⟩

theorem seen_of_canStopBefore {rc : MembershipReconstructor} {walk : Rollback Json} {b : Int}
    (hr : Represents identity pos rc walk) (hp : rc.canStopBefore b)
    {row : WatchEventRow} (ho : row.id < b) : row.seenAt pos := by
  simp only [canStopBefore, Bool.and_eq_true, decide_eq_true_eq, hr.position] at hp
  refine WatchReplayPosition.representsEvent_iff.2 (.inl ?_)
  omega

/-- The next turn finds the same events before an event of this one. -/
theorem older_next (hu : Running rq p ws) {turn : Nat} {l : WatchEventRow} (hl : l ∈ (ws turn).eventsOf rq.target key) :
    (((ws (turn + 1)).eventsOf rq.target key).filter fun row => row.id < l.id) =
      ((ws turn).eventsOf rq.target key).filter fun row => row.id < l.id := by
  obtain ⟨fresh, ht, hf⟩ := hu.eventsOf (Nat.le_succ turn) key
  have hn : (fresh.filter fun row => row.id < l.id) = [] := by
    refine filter_eq_nil_iff.mpr fun row hr => ?_
    have hn := hf row hr
    have hi := (hu.wellFormed turn).kept.issued l (mem_filter.mp hl).1
    simp only [decide_eq_true_eq]
    omega
  rw [ht, filter_append, hn, append_nil]

/-- An event that a round has read is not ahead of the next one. -/
theorem EnoughRounds.next (hu : Running rq p ws) {turn rounds : Nat} {b : Int} {l : WatchEventRow}
    (hl : l ∈ (ws turn).eventsOf rq.target key) (hb : l.id < b) (h : EnoughRounds ws rq key b (rounds + 1)) :
    EnoughRounds ws rq key l.id rounds := by
  obtain ⟨q, hq, he⟩ := h
  refine ⟨q, hq, ?_⟩
  obtain ⟨hh, hof⟩ := mem_filter.mp hl
  have hin : l ∈ (ws q).eventsOf rq.target key := mem_filter.mpr ⟨hu.history_subset hq turn hh, hof⟩
  have hle := remaining_lt (fun row => decide (row.id < b)) (fun row => decide (row.id < l.id)) hin
    (by simpa using hb) (by simp) fun row _ hlt => by
      simp only [decide_eq_true_eq] at hlt ⊢
      omega
  omega

theorem identityRounds_reads (hu : Running rq p ws) (hk : Findable rq key) {ft : Nat} :
    ∀ (fl turn : Nat) (beforeId : Int) (rc : Option MembershipReconstructor)
      {fr tl : List WatchEventRow} {walk : Rollback Json}, ft ≤ turn →
      (ws ft).eventsOf rq.target key = fr ++ tl →
      Rollback.Tracks change (seenAt p) ((ws ft).base key) fr tl walk →
      (((ws turn).eventsOf rq.target key).filter fun row => row.id < beforeId) = fr →
      (∀ c, Holds (rq.identity key) c ((ws turn).objectNow rq.target key) →
        Represents (rq.identity key) p (rc.getD (.new c.toList p)) walk) →
      Reads (EnoughRounds ws rq key beforeId fl) (fun f => turn < f.2 ∧
          Holds (rq.identity key) f.1 ((ws ft).objectAt rq.target p key))
        (identityRounds (fun turn => (ws turn).db) rq p key fl turn beforeId rc) := by
  intro fl
  induction fl with
  | zero =>
    rintro turn beforeId rc fr tl walk - - - - - ⟨q, -, he⟩
    omega
  | succ fl ih =>
    intro turn beforeId rc fr tl walk hf1 hv htr hlf hp
    have hw := hu.wellFormed turn
    refine (identityHistoryBatch_reads hw hk beforeId).bind ?_
    rintro ⟨c, evs⟩ ⟨hac, hho, rfl⟩
    obtain ⟨older, hs, hsh⟩ := newestLeft_split hw hu.valid hac hk.scope beforeId
    have hc : ∀ la, (newestLeft (ws turn) rq key beforeId).getLast? = some la →
        (((ws turn).eventsOf rq.target key).filter fun row => row.id < la.id) = older :=
      fun la hla => older_eq hw.kept hs hla
    have hb : ∀ row ∈ newestLeft (ws turn) rq key beforeId, row ∈ (ws turn).eventsOf rq.target key ∧
        row ∈ (ws turn).log.events.rows ∧ row.id < beforeId := fun row hr => mem_of_mem_newestLeft hr
    have hf : ∀ row ∈ fr, row.id < beforeId := by
      intro row hr
      rw [← hlf] at hr
      simpa using (mem_filter.mp hr).2
    rw [hlf] at hs
    set newest := newestLeft (ws turn) rq key beforeId with hne
    -- the batch moves the walk on
    have ha : (ws ft).eventsOf rq.target key = older ++ (newest.reverse ++ tl) := by
      rw [hv, hs, append_assoc]
    have ht' : Rollback.Tracks change (seenAt p) ((ws ft).base key) older (newest.reverse ++ tl)
        (newest.foldl (observe change (seenAt p)) walk) := by
      have ho := (hu.wellFormed ft).accounted.coherent key hk.scope
      rw [ha, ← append_assoc] at ho
      rw [hs] at htr
      have hm := foldl_observe_tracks ho htr
      rwa [reverse_reverse] at hm
    have hkn : ∀ row ∈ newest, row.Known := fun row hr =>
      known_of_mem_eventsOf hw hk.scope (hb row hr).1
    have hr' := foldl_observe_represents hkn (hp c hho)
    simp only [getLast?_map, length_map]
    cases hla : newest.getLast? with
    | none =>
      -- nothing was left to read
      have hno : newest.length < historicalIdentityHistoryCap := by
        rw [getLast?_eq_none_iff.mp hla]
        decide
      rw [if_pos (.inl hno)]
      exact finish_reads (Nat.lt_succ_self turn) ha hr' ht' (hsh hno)
    | some la =>
      have hol : ∀ row ∈ older, row.id < la.id := by
        intro row hr
        rw [← hc la hla] at hr
        simpa using (mem_filter.mp hr).2
      obtain ⟨hl, hi, hls⟩ := hb la (mem_of_getLast? hla)
      by_cases hsp : newest.length < historicalIdentityHistoryCap ∨ ((newest.map (membershipEvent rq key)).foldl
          observe (rc.getD (.new c.toList p))).canStopBefore la.id
      · refine Eq.mpr (congrArg _ (if_pos hsp)) ?_
        refine finish_reads (Nat.lt_succ_self turn) ha hr' ht' fun row hr => ?_
        rcases hsp with hn | hsp
        · exact hsh hn row hr
        · exact seen_of_canStopBefore hr' hsp (hol row hr)
      · refine Eq.mpr (congrArg _ (if_neg hsp)) ?_
        have hx := (older_next hu hl).trans (hc la hla)
        exact (ih (turn + 1) la.id (some _) (by omega) ha ht' hx fun _ _ => hr').mono (EnoughRounds.next hu hl hls)
          fun f h => ⟨by omega, h.2⟩

theorem historicalIdentityAtPosition_reads (hr : Running rq p ws) (hk : Findable rq key) (r turn : Nat) :
    Reads (∃ quiet, QuietFrom ws quiet ∧ (ws quiet).history.length < r) (fun f => turn < f.2 ∧
        Holds (rq.identity key) f.1 ((ws 0).objectAt rq.target p key))
      (historicalIdentityAtPosition (fun turn => (ws turn).db) rq p r turn key) := by
  have hw := hr.wellFormed turn
  have ha : (((ws turn).eventsOf rq.target key).filter fun row => row.id < i64Max) =
      (ws turn).eventsOf rq.target key := by
    refine filter_eq_self.2 fun row ho => ?_
    have hi := hw.kept.issued row (mem_filter.1 ho).1
    have hrm := hw.accounted.room
    simp only [decide_eq_true_eq]
    omega
  have hd := identityRounds_reads hr hk r turn i64Max none (le_refl turn) (append_nil _).symm
    start_tracks ha fun cu hh => new_represents hh
  rw [hr.objectAt key turn] at hd
  refine hd.mono (fun ⟨quiet, hq, hm⟩ => ⟨quiet, hq, ?_⟩) fun f h => h
  have hle : (((ws quiet).eventsOf rq.target key).filter fun row => row.id < i64Max).length ≤
      (ws quiet).history.length := (length_filter_le _ _).trans (length_filter_le _ _)
  omega

end Klights.Store
