import Klights.Store.History

/-!
# What one turn of a historical LIST reads

Every turn of a LIST reads a well-formed world. Within the scope of a collection the SQL orders agree with the order of
keys (`lexicalAfter_iff`, `rawHistoryAfter_iff`), so that

- `currentCandidateWindow_reads`: a turn over the live rows gives a window on the live keys;
- `touchedCandidateWindow_reads`: a turn over the log gives the first events after the cursor;
- `identityHistoryBatch_reads`: a turn over one object gives its live row and the newest of its events that are left.
-/

namespace Klights.Store

open Lib Replay ResourceCollectionScope DurableWatchScope List Table List.Nodup OrderDual

variable {row ro : WatchEventRow} {data : Blob}

/-! ## Orders within a scope -/

def keyBound : Option ResourceCollectionKey → WithBot ResourceCollectionKey
  | none => ⊥
  | some key => key

section Order

variable {sc : ResourceCollectionScope} {a b : ResourceCollectionKey}

section

variable (ha : sc.durable.includes a.ns = true) (hb : sc.durable.includes b.ns = true)

include ha hb

theorem scope_cases : (a.ns = none ∧ b.ns = none) ∨ ∃ x y, a.ns = some x ∧ b.ns = some y := by
  cases sc with
  | cluster =>
    simp only [durable, includes, Option.isNone_iff_eq_none] at ha hb
    exact .inl ⟨ha, hb⟩
  | allNamespaces =>
    obtain ⟨x, hx⟩ := Option.isSome_iff_exists.1 ha
    obtain ⟨y, hy⟩ := Option.isSome_iff_exists.1 hb
    exact .inr ⟨x, y, hx, hy⟩
  | «namespace» ns =>
    simp only [durable, includes, decide_eq_true_eq] at ha hb
    exact .inr ⟨ns, ns, ha, hb⟩

theorem ns_eq_of_includes (hc : sc ≠ .allNamespaces) : a.ns = b.ns := by
  cases sc with
  | allNamespaces => exact absurd rfl hc
  | cluster => exact (Option.isNone_iff_eq_none.1 ha).trans (Option.isNone_iff_eq_none.1 hb).symm
  | «namespace» ns => exact (of_decide_eq_true ha).trans (of_decide_eq_true hb).symm

/-- Within a scope keys compare by namespace, whatever stands for no namespace, and then by name. -/
theorem collectionKey_lt_iff
    (d : String) : a < b ↔ a.ns.getD d < b.ns.getD d ∨ (a.ns.getD d = b.ns.getD d ∧ a.name < b.name) := by
  refine Iff.trans Prod.Lex.toLex_lt_toLex ?_
  rcases scope_cases ha hb with ⟨hx, hy⟩ | ⟨x, y, hx, hy⟩
  · rw [hx, hy]
    exact or_congr (iff_of_false (lt_irrefl _) (lt_irrefl _)) (and_congr_left' (iff_of_true rfl rfl))
  · rw [hx, hy]
    exact or_congr WithBot.coe_lt_coe (and_congr_left' WithBot.coe_inj)

theorem lexicalRank_lt_iff : lexicalRank a < lexicalRank b ↔ a < b :=
  Iff.trans Prod.Lex.toLex_lt_toLex (collectionKey_lt_iff ha hb "").symm

end

theorem lexicalAfter_iff {af : Option ResourceCollectionKey}
    (hf : ∀ key, af = some key → sc.durable.includes key.ns) (hb : sc.durable.includes b.ns) :
    lexicalAfter sc af b ↔ keyBound af < b := by
  cases af with
  | none => simp [lexicalAfter, keyBound, WithBot.bot_lt_coe]
  | some a =>
    have ha := hf a rfl
    have ho := ns_eq_of_includes ha hb
    rw [keyBound, WithBot.coe_lt_coe, collectionKey_lt_iff ha hb ""]
    cases sc with
    | allNamespaces =>
      simp only [lexicalAfter, Bool.or_eq_true, decide_eq_true_eq, Bool.and_eq_true]
      exact or_congr Iff.rfl (and_congr_left' eq_comm)
    | cluster | «namespace» ns => simp [lexicalAfter, ho]

def rawRankAt (key : ResourceCollectionKey) (eventId : Int) : String ×ₗ (String ×ₗ Intᵒᵈ) :=
  toLex (namespaceKey key.ns, toLex (key.name, toDual eventId))

theorem rawRankAt_lt_iff {i j : Int} : rawRankAt a i < rawRankAt b j ↔ namespaceKey a.ns < namespaceKey b.ns ∨
      (namespaceKey a.ns = namespaceKey b.ns ∧ (a.name < b.name ∨ (a.name = b.name ∧ j < i))) := by
  refine Iff.trans Prod.Lex.toLex_lt_toLex (or_congr Iff.rfl (and_congr_right' ?_))
  exact Iff.trans Prod.Lex.toLex_lt_toLex (or_congr Iff.rfl (and_congr_right' toDual_lt_toDual))

section

variable (ha : sc.durable.includes a.ns = true)
include ha

theorem rawRankAt_lt_of_lt (hb : sc.durable.includes b.ns) (h : a < b) (i j : Int) : rawRankAt a i < rawRankAt b j := by
  rw [rawRankAt_lt_iff]
  rcases (collectionKey_lt_iff ha hb "#cluster").1 h with hs | ⟨hs, hn⟩
  · exact .inl hs
  · exact .inr ⟨hs, .inl hn⟩

theorem le_of_rawRankAt_le (hb : sc.durable.includes b.ns) {i j : Int} (h : rawRankAt a i ≤ rawRankAt b j) : a ≤ b :=
  not_lt.1 fun hlt => absurd (rawRankAt_lt_of_lt hb ha hlt j i) (not_lt.2 h)

theorem rawHistoryAfter_iff {ed : Int} (ho : sc.durable.includes row.ns) :
    rawHistoryAfter sc a ed row ↔ rawRankAt a ed < rawRank row := by
  have hr : rawRank row = rawRankAt row.collectionKey row.id := rfl
  have hn : sc ≠ .allNamespaces → a.ns = row.ns := ns_eq_of_includes (b := row.collectionKey) ha ho
  rw [hr, rawRankAt_lt_iff]
  unfold rawHistoryAfter
  cases sc with
  | allNamespaces =>
    simp only [Bool.or_eq_true, Bool.and_eq_true, decide_eq_true_eq]
    exact or_congr Iff.rfl (and_congr eq_comm (or_congr Iff.rfl (and_congr_left' eq_comm)))
  | cluster | «namespace» ns => simp [WatchEventRow.collectionKey, hn nofun, eq_comm (a := row.name)]

end

end Order

/-! ## Reads -/

/-- A read over a sound store: it succeeds with what is asked for, it reports expiry, or it uses up its rounds although
they were not enough. It never fails. -/
def Reads {α : Type} (enough : Prop) (post : α → Prop) : Except ListStop α → Prop
  | .ok result => post result
  | .error (.expired _) => True
  | .error .exhausted => ¬enough
  | .error (.retryable _) => False
  | .error (.corruptData _) => False

section Reads

variable {α β : Type} {e e' : Prop} {pt p' : α → Prop} {read : Except ListStop α}

theorem Reads.mono (h : Reads e pt read) (hn : e' → e) (hp : ∀ a, pt a → p' a) :
    Reads e' p' read := by
  match read, h with
  | .ok a, h => exact hp a h
  | .error (.expired _), _ => trivial
  | .error .exhausted, h => exact fun hy => h (hn hy)

theorem Reads.bind {n : α → Except ListStop β} {p : β → Prop} (h : Reads e pt read)
    (hx : ∀ a, pt a → Reads e p (n a)) : Reads e p (read >>= n) := by
  match read, h with
  | .ok a, h => exact hx a h
  | .error (.expired _), _ => trivial
  | .error .exhausted, h => exact h

end Reads

/-- A position the store has reached and retention has kept. -/
structure Accepted (target : DurableWatchTarget) (position : WatchReplayPosition) (w : World) : Prop where
  reached : NotAhead position w
  available : ReplayRetentionBoundary.classifyAll (w.log.targetReplayBoundaries target) position = .available

theorem checkFloor_reads (e : Prop) (w : World) (t : DurableWatchTarget) (ps : WatchReplayPosition) :
    Reads e (fun _ => Accepted t ps w) (checkFloor w.db t ps) := by
  cases hck : checkFloor w.db t ps with
  | ok _ =>
    obtain ⟨hr, hv⟩ := checkFloor_ok_iff.1 hck
    exact ⟨hr, hv⟩
  | error st =>
    unfold checkFloor at hck
    split at hck
    · cases hck
      trivial
    · cases hck

variable {e : Prop} {request rq : ResourceListRequest} {ps : WatchReplayPosition} {w : World}
  {key ky : ResourceCollectionKey} {af : Option ResourceCollectionKey}

/-! ## Live rows -/

theorem durable_eq_cluster_iff {sc : ResourceCollectionScope} : sc.durable = .cluster ↔ sc = .cluster := by
  cases sc <;> simp [durable]

variable (db : ClusterDb)

theorem liveData_eq : liveData db rq.target ky =
    if isNamespaceCollection rq then (db.tables.namespaces.find ky.name).map NamespaceRow.data
    else (db.tables.resources.find ⟨rq.apiVersion, rq.kind, ky.ns, ky.name⟩).map ResourceRow.data := by
  unfold liveData isNamespaceCollection ResourceListRequest.target
  simp [Bool.and_eq_true, decide_eq_true_eq, durable_eq_cluster_iff, and_assoc]

theorem mem_collectionRows {db : ClusterDb} : (ky, data) ∈ collectionRows db rq ↔
    rq.scope.durable.includes ky.ns ∧ liveData db rq.target ky = some data := by
  rw [liveData_eq]
  unfold collectionRows
  split
  · rename_i hn
    have hs : rq.scope = .cluster := by
      simp only [isNamespaceCollection, Bool.and_eq_true, decide_eq_true_eq] at hn
      exact hn.2
    simp only [mem_map, Prod.mk.injEq, hs, durable, includes, Option.isNone_iff_eq_none, Option.map_eq_some_iff]
    constructor
    · rintro ⟨ro, hr, rfl, rfl⟩
      exact ⟨rfl, ro, find_of_mem hr, rfl⟩
    · rintro ⟨ho, ro, hf, rfl⟩
      refine ⟨ro, find_mem hf, ?_, rfl⟩
      rw [← ho, find_key hf]
  · simp only [mem_map, mem_filter, decide_eq_true_eq, Prod.mk.injEq, Option.map_eq_some_iff]
    constructor
    · rintro ⟨ro, ⟨hr, hp, hki, hi⟩, rfl, rfl⟩
      refine ⟨hi, ro, ?_, rfl⟩
      rw [← hp, ← hki]
      exact find_of_mem hr
    · rintro ⟨hi, ro, hf, rfl⟩
      have hk := find_key hf
      refine ⟨ro, ⟨find_mem hf, ?_, ?_, ?_⟩, ?_, rfl⟩
      · rw [hk]
      · rw [hk]
      · rwa [hk]
      · rw [hk]

theorem collectionRows_nodup : ((collectionRows db rq).map Prod.fst).Nodup := by
  unfold collectionRows
  split
  · rw [map_map]
    refine map_on ?_ (of_map _ db.tables.namespaces.nodup)
    intro ro hr o ho heq
    have hn : ro.name = o.name := by simpa using heq
    exact inj_on_of_nodup_map db.tables.namespaces.nodup hr ho hn
  · rw [map_map]
    refine map_on ?_ (filter _ (of_map _ db.tables.resources.nodup))
    intro ro hr o ho heq
    obtain ⟨hr, hf⟩ := mem_filter.1 hr
    obtain ⟨ho, ho'⟩ := mem_filter.1 ho
    simp only [decide_eq_true_eq] at hf ho'
    simp only [Function.comp_apply, ResourceCollectionKey.mk.injEq] at heq
    refine inj_on_of_nodup_map db.tables.resources.nodup hr ho ?_
    have hk : ∀ ky : ResourceKey, ky = ⟨ky.apiVersion, ky.kind, ky.ns, ky.name⟩ := fun _ => rfl
    rw [hk ro.key, hk o.key, hf.1, hf.2.1, ho'.1, ho'.2.1, heq.1, heq.2]

structure LiveBeyond (w : World) (request : ResourceListRequest) (after : Option ResourceCollectionKey)
    (key : ResourceCollectionKey) : Prop where
  scope : request.scope.durable.includes key.ns = true
  beyond : keyBound after < key
  live : (liveData w.db request.target key).isSome = true

theorem liveData_parses (hw : WellFormed rq.target w) (hc : rq.scope.durable.includes ky.ns)
    (hl : liveData w.db rq.target ky = some data) :
    ∃ object, data = Blob.toVec object ∧ w.objectNow rq.target ky = some object := by
  rw [hw.accounted.live ky hc] at hl
  obtain ⟨object, ho, rfl⟩ := Option.map_eq_some_iff.1 hl
  exact ⟨object, rfl, ho⟩

theorem bodyNamespace_of_row (hw : WellFormed rq.target w) (hr : (ky, data) ∈ collectionRows w.db rq) :
    data.fromSlice.all (bodyNamespaceMatches rq.scope) := by
  obtain ⟨hsc, hl⟩ := mem_collectionRows.1 hr
  obtain ⟨ob, rfl, -⟩ := liveData_parses hw hsc hl
  by_cases hc : rq.scope = .cluster
  · simp [hc, bodyNamespaceMatches]
  · -- a namespaced row is a row of the resource table, and knows its namespace
    have hn : isNamespaceCollection rq = false := by simp [isNamespaceCollection, hc]
    rw [liveData_eq, hn, if_neg (by simp)] at hl
    obtain ⟨ro, hf, hd⟩ := Option.map_eq_some_iff.1 hl
    have hk := find_key hf
    have hh := hw.accounted.shaped ro (find_mem hf) (by rw [hk]; rfl) (by rw [hk]; rfl)
    rw [hd, hk] at hh
    simp only [Blob.fromSlice_toVec, Option.bind_some] at hh
    cases hs : rq.scope with
    | cluster => exact absurd hs hc
    | allNamespaces =>
      rw [hs] at hsc
      obtain ⟨ns, hns⟩ := Option.isSome_iff_exists.1 hsc
      simp [bodyNamespaceMatches, hh ns hns]
    | «namespace» ns =>
      rw [hs] at hsc
      have hns : ky.ns = some ns := by
        simpa [durable, includes] using hsc
      simp [bodyNamespaceMatches, hh ns hns]

/-- Sorting distinct keys of a scope as the query does puts them in ascending order. -/
theorem sortedKeys_ascending {sc : ResourceCollectionScope} {keys : List ResourceCollectionKey} (hd : keys.Nodup)
    (hc : ∀ k ∈ keys, sc.durable.includes k.ns) :
    Ascending id (keys.insertionSort fun a b => lexicalRank a ≤ lexicalRank b) := by
  have hi : ∀ a ∈ keys, ∀ b ∈ keys, lexicalRank a = lexicalRank b → a = b := by
    intro a ha b hb heq
    rcases lt_trichotomy a b with hlt | hsame | hlt
    · exact absurd ((lexicalRank_lt_iff (hc a ha) (hc b hb)).2 hlt) (by simp [heq])
    · exact hsame
    · exact absurd ((lexicalRank_lt_iff (hc b hb) (hc a ha)).2 hlt) (by simp [heq])
  have hs : Ascending lexicalRank (keys.insertionSort fun a b => lexicalRank a ≤ lexicalRank b) :=
    insertionSort_strict (map_on hi hd)
  refine List.Pairwise.imp_of_mem (fun {a b} ha hb hlt => ?_) hs
  have hm : ∀ k, k ∈ keys.insertionSort (fun a b => lexicalRank a ≤ lexicalRank b) → k ∈ keys := fun k =>
    (mem_insertionSort _).1
  exact (lexicalRank_lt_iff (hc a (hm a ha)) (hc b (hm b hb))).1 hlt

theorem currentCandidateWindow_reads (hw : WellFormed rq.target w)
    (hf : ∀ k, af = some k → rq.scope.durable.includes k.ns) :
    Reads e (fun ks => Accepted rq.target ps w ∧ ks.Nodup ∧
        (∀ k ∈ ks, LiveBeyond w rq af k) ∧ Window historicalCandidateCap (LiveBeyond w rq af) ks)
      (currentCandidateWindow w.db rq ps af) := by
  refine (checkFloor_reads e w rq.target ps).bind fun _ hc => ?_
  simp only
  set rows := (collectionRows w.db rq).filter fun ro => lexicalAfter rq.scope af ro.1 with hrs
  have hr : ∀ k data, (k, data) ∈ rows ↔ (rq.scope.durable.includes k.ns ∧
      keyBound af < k) ∧ liveData w.db rq.target k = some data := by
    intro k data
    rw [hrs, mem_filter, mem_collectionRows]
    constructor
    · rintro ⟨⟨hsc, hl⟩, he⟩
      exact ⟨⟨hsc, (lexicalAfter_iff hf hsc).1 he⟩, hl⟩
    · rintro ⟨⟨hsc, he⟩, hl⟩
      exact ⟨⟨hsc, hl⟩, (lexicalAfter_iff hf hsc).2 he⟩
  have hp : ¬ (rows.any fun ro => ro.2.fromSlice.isNone) := by
    simp only [any_eq_true, Prod.exists, not_exists, not_and]
    intro k data hi
    obtain ⟨⟨hsc, -⟩, hl⟩ := (hr k data).1 hi
    obtain ⟨ob, rfl, -⟩ := liveData_parses hw hsc hl
    simp
  rw [if_neg fun h => hp h.2]
  have ho : (rows.filter fun ro => ro.2.fromSlice.all (bodyNamespaceMatches rq.scope)) = rows :=
    filter_eq_self.2 fun ro hi => bodyNamespace_of_row hw (mem_filter.1 hi).1
  rw [ho]
  have hks : ∀ k, k ∈ rows.map Prod.fst ↔ LiveBeyond w rq af k := by
    intro k
    rw [mem_map]
    constructor
    · rintro ⟨⟨_, data⟩, hi, rfl⟩
      obtain ⟨⟨hsc, he⟩, hl⟩ := (hr _ data).1 hi
      exact ⟨hsc, he, by rw [hl]; rfl⟩
    · rintro ⟨hsc, he, hl⟩
      obtain ⟨data, hd⟩ := Option.isSome_iff_exists.1 hl
      exact ⟨(k, data), (hr k data).2 ⟨⟨hsc, he⟩, hd⟩, rfl⟩
  have hn : (rows.map Prod.fst).Nodup :=
    sublist (List.Sublist.map _ filter_sublist) (collectionRows_nodup w.db)
  have hs := sortedKeys_ascending hn fun k hk => ((hks k).1 hk).scope
  have hm : ∀ k, k ∈ (rows.map Prod.fst).insertionSort (fun a b => lexicalRank a ≤ lexicalRank b) ↔
      LiveBeyond w rq af k := fun k => (mem_insertionSort _).trans (hks k)
  refine ⟨hc, ?_, fun k hk => (hm k).1 (mem_of_mem_take hk), fun k hk => ?_⟩
  · exact sublist (take_sublist _ _) ((perm_insertionSort _ _).nodup_iff.2 hn)
  · exact window_take hs historicalCandidateCap k ((hm k).2 hk)

/-! ## Touched history -/

/-- An event after the raw cursor, or beyond the public one before there is a raw one. -/
def PastCursor (after : Option ResourceCollectionKey) (cursor : Option (ResourceCollectionKey × Int))
    (row : WatchEventRow) : Prop :=
  match cursor with
  | some (key, eventId) => rawRankAt key eventId < rawRank row
  | none => keyBound after < row.collectionKey

theorem selects_iff : rq.target.selects ro ↔
    (ro.apiVersion = rq.apiVersion ∧ ro.kind = rq.kind) ∧ rq.scope.durable.includes ro.ns := by
  simp only [DurableWatchTarget.selects, Bool.and_eq_true, decide_eq_true_eq]
  rfl

/-- What a turn over the log reads: the first events after the cursor. -/
structure TouchedRows (w : World) (request : ResourceListRequest) (after : Option ResourceCollectionKey)
    (cursor : Option (ResourceCollectionKey × Int)) (rows : List WatchEventRow) : Prop where
  ascending : Ascending rawRank rows
  sound : ∀ row ∈ rows, row ∈ w.log.events.rows ∧ request.target.selects row = true ∧ PastCursor after cursor row
  complete : ∀ row ∈ w.log.events.rows, request.target.selects row = true → PastCursor after cursor row →
    row ∈ rows ∨ (historicalCandidateCap ≤ rows.length ∧ ∀ r ∈ rows, rawRank r < rawRank row)

variable {c : Option (ResourceCollectionKey × Int)}

/-- The first events of those a query selects, when it selects the events past the cursor. -/
theorem touchedRows_take {p : WatchEventRow → Bool}
    (hp : ∀ row, rq.target.selects row → (p row ↔ PastCursor af c row)) :
    TouchedRows w rq af c (((w.log.events.rows.filter fun row =>
      rq.target.selects row && p row).insertionSort fun a b => rawRank a ≤ rawRank b).take historicalCandidateCap) := by
  set rows := w.log.events.rows.filter fun row => rq.target.selects row && p row with hrs
  have hm : ∀ row, row ∈ rows ↔ row ∈ w.log.events.rows ∧ rq.target.selects row ∧ PastCursor af c row := by
    intro row
    rw [hrs, mem_filter, Bool.and_eq_true]
    exact and_congr_right fun _ => and_congr_right fun he => hp row he
  -- ids are unique, so the order of the query is strict
  have hc : Ascending rawRank (rows.insertionSort fun a b => rawRank a ≤ rawRank b) := by
    refine insertionSort_strict (map_on ?_ (filter _ (of_map _ w.log.events.nodup)))
    intro a ha b hb heq
    have hr := (Prod.mk.inj (toLex.injective heq)).2
    have hi : a.id = b.id := toDual.injective (Prod.mk.inj (toLex.injective hr)).2
    exact inj_on_of_nodup_map w.log.events.nodup ((hm a).1 ha).1 ((hm b).1 hb).1 hi
  have hs : ∀ row, row ∈ rows.insertionSort (fun a b => rawRank a ≤ rawRank b) ↔ row ∈ rows := fun row =>
    mem_insertionSort _
  refine ⟨List.Pairwise.sublist (take_sublist _ _) hc, fun row ho => ?_, fun row hn hl hp => ?_⟩
  · exact (hm row).1 ((hs row).1 (mem_of_mem_take ho))
  · exact mem_take_or_beyond hc historicalCandidateCap ((hs row).2 ((hm row).2 ⟨hn, hl, hp⟩))

theorem touchedCandidateWindow_reads (w : World) (hf : ∀ k, af = some k → rq.scope.durable.includes k.ns)
    (hc : ∀ k ed, c = some (k, ed) → rq.scope.durable.includes k.ns) :
    Reads e (fun rs => Accepted rq.target ps w ∧ TouchedRows w rq af c rs)
      (touchedCandidateWindow w.db rq ps af c) := by
  refine (checkFloor_reads e w rq.target ps).bind fun _ hac => ⟨hac, ?_⟩
  cases c with
  | none => exact touchedRows_take fun ro hs => lexicalAfter_iff hf (selects_iff.1 hs).2
  | some c =>
    obtain ⟨ky, ed⟩ := c
    exact touchedRows_take fun ro hs =>
      rawHistoryAfter_iff (hc ky ed rfl) (selects_iff.1 hs).2

/-! ## One object -/

section

variable (request : ResourceListRequest) (key : ResourceCollectionKey)

def ResourceListRequest.identity : ResourceKey :=
  ⟨request.apiVersion, request.kind, key.ns, key.name⟩

def membershipEvent (row : WatchEventRow) : MembershipHistoryEvent :=
  ⟨row.id, row.eventType, resourceFromHistory (request.identity key) row.resourceVersion row.object⟩

def newestLeft (w : World) (request : ResourceListRequest) (key : ResourceCollectionKey) (beforeId : Int) :
    List WatchEventRow :=
  (((w.eventsOf request.target key).filter fun row => row.id < beforeId).filter fun row =>
    row ∈ w.log.events.rows).reverse.take historicalIdentityHistoryCap

/-- A key whose object can be looked up: in scope, not in the reserved namespace, and not a namespace within one. -/
structure Findable : Prop where
  scope : request.scope.durable.includes key.ns = true
  free : key.ns ≠ some "#cluster"
  placed : request.apiVersion = "v1" → request.kind = "Namespace" → request.scope = .cluster

end

theorem isOf_iff : rq.target.isOf key ro ↔
    ro.apiVersion = rq.apiVersion ∧ ro.kind = rq.kind ∧ ro.collectionKey = key := by
  simp only [DurableWatchTarget.isOf, Bool.and_eq_true, decide_eq_true_eq, and_assoc]
  rfl

theorem identityHistory_eq (hw : WellFormed rq.target w) (hk : Findable rq ky) (beforeId : Int) :
    identityHistory w.db rq ky beforeId = newestLeft w rq ky beforeId := by
  unfold identityHistory newestLeft
  simp only
  congr 1
  set rows := w.db.tables.watch.events.rows.filter fun ro => ro.apiVersion = rq.apiVersion ∧
    ro.kind = rq.kind ∧ namespaceKey ro.ns = namespaceKey ky.ns ∧ ro.name = ky.name ∧ ro.id < beforeId with hr
  have hm : ∀ ro, ro ∈ rows ↔ ro ∈ w.log.events.rows ∧ rq.target.isOf ky ro ∧ ro.id < beforeId := by
    intro ro
    rw [hr, mem_filter, isOf_iff]
    refine and_congr_right fun hi => ?_
    have hf := hw.accounted.reserved.2 ro (hw.kept.recorded ro hi)
    have hs : ro.collectionKey = ky ↔ ro.ns = ky.ns ∧ ro.name = ky.name := by
      rw [ResourceCollectionKey.ext_iff]
      rfl
    rw [hs, ← namespaceKey_inj hf hk.free]
    simp [decide_eq_true_eq, and_assoc]
  -- both lists hold the same events, newest first
  have hn : (rows.map fun ro => toDual ro.id).Nodup := by
    refine map_on (fun a ha b hb heq => ?_) (filter _ (of_map _ w.log.events.nodup))
    exact inj_on_of_nodup_map w.log.events.nodup ((hm a).1 ha).1 ((hm b).1 hb).1 (toDual.injective heq)
  have ho : Ascending (fun ro : WatchEventRow => toDual ro.id)
      (rows.insertionSort fun a b => b.id ≤ a.id) := insertionSort_strict hn
  refine ext_of_strict ho ?_ fun ro => ?_
  · refine pairwise_reverse.2 ?_
    exact ((hw.kept.ascending.filter _).filter _).filter _
  · rw [mem_insertionSort, hm, mem_reverse, mem_filter, mem_filter, World.eventsOf, mem_filter]
    simp only [decide_eq_true_eq]
    constructor
    · rintro ⟨hi, hof, he⟩
      exact ⟨⟨⟨hw.kept.recorded ro hi, hof⟩, he⟩, hi⟩
    · rintro ⟨⟨⟨-, hof⟩, he⟩, hi⟩
      exact ⟨hi, hof, he⟩

structure Holds (identity : ResourceKey) (resource : Option Resource) (object : Option Json) : Prop where
  data : resource.map Resource.data = object
  key : ∀ r ∈ resource, r.key = identity

theorem decodeJson_toVec (object : Json) : decodeJson (Blob.toVec object) = .ok object := by
  simp [decodeJson]

/-- The version and the body of the live row of an object, from the table of its kind. -/
def liveRow (request : ResourceListRequest) (key : ResourceCollectionKey) : Option (Int × Blob) :=
  if request.apiVersion = "v1" ∧ request.kind = "Namespace" then
    (db.tables.namespaces.find key.name).map fun row => (row.resourceVersion, row.data)
  else (db.tables.resources.find (request.identity key)).map fun row => (row.resourceVersion, row.data)

theorem liveRow_data (hk : Findable rq key) : (liveRow db rq key).map Prod.snd = liveData db rq.target key := by
  have ht : isNamespaceCollection rq ↔ rq.apiVersion = "v1" ∧ rq.kind = "Namespace" := by
    simp only [isNamespaceCollection, Bool.and_eq_true, decide_eq_true_eq]
    exact ⟨fun h => h.1, fun h => ⟨h, hk.placed h.1 h.2⟩⟩
  rw [liveData_eq, liveRow]
  by_cases hn : rq.apiVersion = "v1" ∧ rq.kind = "Namespace"
  · rw [if_pos hn, if_pos (ht.2 hn), Option.map_map]
    rfl
  · rw [if_neg hn, if_neg fun h => hn (ht.1 h), Option.map_map]
    rfl

theorem historicalCurrentResource_eq : historicalCurrentResource db rq ky = match liveRow db rq ky with
    | none => .ok none | some (resourceVersion, data) => (decodeJson data).map fun data =>
      some (resourceFromHistory (rq.identity ky) resourceVersion data) := rfl

theorem historicalCurrentResource_holds (hw : WellFormed rq.target w) (hk : Findable rq ky) :
    ∃ cr, historicalCurrentResource w.db rq ky = .ok cr ∧ Holds (rq.identity ky) cr (w.objectNow rq.target ky) := by
  have hl := liveRow_data w.db hk
  rw [hw.accounted.live ky hk.scope] at hl
  rw [historicalCurrentResource_eq]
  cases ho : w.objectNow rq.target ky with
  | none =>
    rw [ho, Option.map_none, Option.map_eq_none_iff] at hl
    rw [hl]
    exact ⟨none, rfl, rfl, by simp⟩
  | some ob =>
    rw [ho, Option.map_some] at hl
    obtain ⟨⟨rv, data⟩, hs, hd⟩ := Option.map_eq_some_iff.1 hl
    subst hd
    rw [hs]
    refine ⟨some (resourceFromHistory (rq.identity ky) rv ob), ?_, rfl, ?_⟩
    · simp only [decodeJson_toVec]
      rfl
    · simp [resourceFromHistory]

theorem selects_of_isOf (hc : rq.scope.durable.includes ky.ns)
    (hf : rq.target.isOf ky row) : rq.target.selects row := by
  obtain ⟨hp, hi, hk⟩ := isOf_iff.1 hf
  subst hk
  exact selects_iff.2 ⟨⟨hp, hi⟩, hc⟩

theorem known_of_mem_eventsOf (hw : WellFormed rq.target w) (hc : rq.scope.durable.includes ky.ns)
    (hr : ro ∈ w.eventsOf rq.target ky) : ro.Known := by
  obtain ⟨hi, ho⟩ := mem_filter.1 hr
  exact hw.accounted.known ro hi (selects_of_isOf hc ho)

theorem mem_of_mem_newestLeft {beforeId : Int} (hr : ro ∈ newestLeft w rq ky beforeId) :
    ro ∈ w.eventsOf rq.target ky ∧ ro ∈ w.log.events.rows ∧ ro.id < beforeId := by
  have hi := mem_reverse.1 (mem_of_mem_take hr)
  simp only [mem_filter, decide_eq_true_eq] at hi
  exact ⟨hi.1.1, hi.2, hi.1.2⟩

theorem identityHistoryBatch_reads (hw : WellFormed rq.target w) (hk : Findable rq ky) (bd : Int) :
    Reads e (fun ba => Accepted rq.target ps w ∧ Holds (rq.identity ky) ba.1 (w.objectNow rq.target ky) ∧
        ba.2 = (newestLeft w rq ky bd).map (membershipEvent rq ky))
      (identityHistoryBatch w.db rq ps ky bd) := by
  refine (checkFloor_reads e w rq.target ps).bind fun _ hc => ?_
  obtain ⟨cu, hu, hh⟩ := historicalCurrentResource_holds hw hk
  have he : (identityHistory w.db rq ky bd).mapM (historyEvent rq ky) =
      .ok ((newestLeft w rq ky bd).map (membershipEvent rq ky)) := by
    rw [identityHistory_eq hw hk]
    refine mapM_eq_ok_map fun ro hr => ?_
    have hn := known_of_mem_eventsOf hw hk.scope (mem_of_mem_newestLeft hr).1
    unfold historyEvent
    rw [hn.2, decodeJson_toVec]
    rfl
  rw [hu, he]
  exact ⟨hc, hh, rfl⟩

end Klights.Store
