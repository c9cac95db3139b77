import Klights.Store.RecordedEvents

/-!
# The watch log leads from one point of a run to another

An entry records its changes (`recordsChanges`) if it clears no namespace and collects no events, its objects live under
keys of their own, and, where it brings events along, these are the deletions it carries out. Over every run of such
entries a reader of the watch log ends up with the objects of the store.

- `Erased`, `applyMutations_erased`: a commit that brings the events of its deletions along;
- `EntryRun.recorded`: entries;
- `watch_log_complete`: runs.
-/

namespace Klights.Store

open Lib LogApplyMutation List Bool WatchEventRow

/-! ## Commits that bring the events of their deletions along -/

def LogApplyMutation.deletes (key : ResourceKey) : LogApplyMutation → Bool
  | .deleteResource delete => resourceIdentity delete.key = key
  | _ => false

def LogApplyMutation.announces (key : ResourceKey) : LogApplyMutation → Bool
  | .putWatchEvent row => row.key = key
  | _ => false

/-- A mutation of a commit that brings events along: an event is a deletion the commit carries out, a deletion has its
event and the uid of the object there is, and no object is written. -/
def LogApplyMutation.announced (tables : Tables) (mutations : List LogApplyMutation) : LogApplyMutation → Bool
  | .putWatchEvent row =>
    row.eventType = "DELETED" && row.eventId = none && mutations.any (LogApplyMutation.deletes row.key)
  | .deleteResource delete =>
    mutations.any (LogApplyMutation.announces (resourceIdentity delete.key)) &&
      (tables.resources.find (resourceIdentity delete.key)).all fun row => delete.uid = "" || delete.uid = row.uid
  | .putResource _ | .patchResourceLatest _ | .putNamespace _ | .deleteNamespace _ => false
  | _ => true

/-- The mutations `done` removed objects and logged deletions, and nothing else. -/
structure Erased (version : Int) (done : List LogApplyMutation) (before after : Tables) (events : List WatchEventRow) :
    Prop extends LoggedAt version before.watch after.watch events where
  deletions : ∀ event ∈ events, event.eventType = "DELETED" ∧ ∃ m ∈ done, m.announces event.key = true
  logged : ∀ m ∈ done, ∀ key, m.announces key = true → ∃ event ∈ events, event.key = key
  rows : ∀ key, after.resources.find key = none ∨ after.resources.find key = before.resources.find key
  untouched : ∀ key, (∀ m ∈ done, m.deletes key = false) → after.resources.find key = before.resources.find key
  gone : ∀ m ∈ done, ∀ key, m.deletes key = true → after.resources.find key = none
  namespaces : after.namespaces = before.namespaces

variable {pl : ApplyPolicies} {t : Tables} {db : ClusterDb} {p : List StagedPostCommit}
  {bound bd : List LogApplyMutation}

section Erased

variable {version : Int} {b t' : Tables} {events events' : List WatchEventRow}
  {st : Option StagedPostCommit} {mutation mu : LogApplyMutation} {d all a : List LogApplyMutation}

theorem Erased.refl (version : Int) (t : Tables) : Erased version [] t t [] := by
  refine ⟨.refl _ _, ?_, ?_, fun _ => .inr rfl, fun _ _ => rfl, ?_, rfl⟩ <;>
    exact fun _ hm => absurd hm not_mem_nil

section

variable (h : Erased version d b t events)
include h

theorem Erased.extend (hl : LoggedAt version b.watch t'.watch events') (ho : ∀ ev ∈ events, ev ∈ events')
    (hn : ∀ ev ∈ events', ev ∈ events ∨ ev.eventType = "DELETED" ∧ mutation.announces ev.key)
    (ha : ∀ k, mutation.announces k → ∃ ev ∈ events', ev.key = k)
    (hi : ∀ k, t'.resources.find k = if mutation.deletes k then none else t.resources.find k)
    (hs : t'.namespaces = t.namespaces) : Erased version (d ++ [mutation]) b t' events' := by
  have hla : ∀ m ∈ d ++ [mutation], m ∈ d ∨ m = mutation := fun m hm => (mem_append.1 hm).imp_right mem_singleton.1
  have hse : mutation ∈ d ++ [mutation] := mem_append_right _ (mem_singleton.2 rfl)
  refine ⟨hl, fun ev he => ?_, fun m hm k hk => ?_, fun k => ?_, fun k hk => ?_,
    fun m hm k hk => ?_, hs.trans h.namespaces⟩
  · rcases hn ev he with he | ⟨ht, hk⟩
    · obtain ⟨ht, m, hm, hk⟩ := h.deletions ev he
      exact ⟨ht, m, mem_append_left _ hm, hk⟩
    · exact ⟨ht, mutation, hse, hk⟩
  · rcases hla m hm with hm | rfl
    · obtain ⟨ev, he, heq⟩ := h.logged m hm k hk
      exact ⟨ev, ho ev he, heq⟩
    · exact ha k hk
  · rw [hi]
    split
    · exact .inl rfl
    · exact h.rows k
  · rw [hi, hk mutation hse]
    exact h.untouched k fun m hm => hk m (mem_append_left _ hm)
  · rw [hi]
    rcases hla m hm with hm | rfl
    · rw [h.gone m hm k hk, ite_self]
    · rw [if_pos hk]

theorem Erased.aside (han : ∀ k, mu.announces k = false) (hd : ∀ k, mu.deletes k = false)
    (ha : t'.watch = t.watch) (hr : t'.resources = t.resources)
    (hn : t'.namespaces = t.namespaces) : Erased version (d ++ [mu]) b t' events := by
  refine h.extend (by rw [ha]; exact h.toLoggedAt) (fun _ he => he) (fun _ he => .inl he)
    (fun k hk => ?_) (fun k => ?_) hn
  · rw [han] at hk
    cases hk
  · rw [hd, hr]
    rfl

theorem Erased.event {r : LogApplyWatchEventRow} {watch : WatchLog} (hr : b.watch.FreshAt version)
    (hv : r.resourceVersion = version) (hn : r.key.ns ≠ some "#cluster") (hy : r.eventType = "DELETED")
    (hd : r.eventId = none)
    (hi : insertWatchEventInConn t.watch ⟨r.eventId, r.key.apiVersion, r.key.kind, r.key.ns,
      r.key.name, r.resourceVersion, r.eventType, Blob.toVec r.data, false⟩ = .ok watch) :
    ∃ events', Erased version (d ++ [.putWatchEvent r]) b { t with watch } events' := by
  obtain ⟨events', s, hl, hs⟩ := h.toLoggedAt.insert hr hd hv hn hi
  refine ⟨events', h.extend hl hs.old (fun event he => ?_) (fun key hk => ?_) (fun _ => rfl) rfl⟩
  · rcases hs.new event he with he | rfl
    · exact .inl he
    · exact .inr ⟨hs.eventType.trans hy, decide_eq_true hs.key.symm⟩
  · exact ⟨s, hs.mem, hs.key.trans (of_decide_eq_true hk)⟩

end

/-- A delete whose uid is that of the object, or none, leaves nothing under its key and everything else. -/
theorem applyDeleteResource_gone {dl : LogApplyResourceKey}
    (hi : ∀ r ∈ t.resources.find (resourceIdentity dl.key), dl.uid = "" ∨ dl.uid = r.uid)
    (h : applyDeleteResource t version dl false = .ok (t', st)) :
    (∀ k, t'.resources.find k =
      if resourceIdentity dl.key = k then none else t.resources.find k) ∧
      t'.watch = t.watch ∧ t'.namespaces = t.namespaces := by
  unfold applyDeleteResource at h
  simp only at h
  split at h
  · rename_i hn
    cases h
    refine ⟨fun k => ?_, rfl, rfl⟩
    split
    · rename_i heq
      rw [← heq, hn]
    · rfl
  · rename_i cu hf
    obtain ⟨de, hdec, h⟩ := bind_eq_ok.1 h
    have hd : de = .delete .deleted := by
      have ho : ¬ ((if dl.uid = "" then none else some dl.uid).any
          fun uid => uid ≠ "" && cu.currentState.uid ≠ some uid) := by
        rcases hi cu hf with he | huid
        · simp [he]
        · rw [huid]
          split <;> simp [ResourceRow.currentState]
      have hdec := mapError_eq_ok.1 hdec
      unfold decideResourceDelete at hdec
      simp only [if_neg ho] at hdec
      obtain ⟨-, -, hdec⟩ := bind_eq_ok.1 hdec
      exact (Except.ok.inj hdec).symm
    subst hd
    obtain ⟨da, -, h⟩ := bind_eq_ok.1 h
    cases h
    exact ⟨fun k => Table.find_deleteWhere_key _ _ _, rfl, rfl⟩

theorem Erased.delete {dl : LogApplyResourceKey} (h : Erased version d b t events)
    (hf : ∀ r ∈ b.resources.find (resourceIdentity dl.key), dl.uid = "" ∨ dl.uid = r.uid)
    (hp : applyDeleteResource t version dl false = .ok (t', st)) :
    Erased version (d ++ [.deleteResource dl]) b t' events := by
  have hf' : ∀ r ∈ t.resources.find (resourceIdentity dl.key), dl.uid = "" ∨ dl.uid = r.uid := by
    intro r hr
    rcases h.rows (resourceIdentity dl.key) with ho | heq
    · rw [ho] at hr
      cases hr
    · exact hf r (heq ▸ hr)
  obtain ⟨hi, hw, hn⟩ := applyDeleteResource_gone hf' hp
  refine h.extend (by rw [hw]; exact h.toLoggedAt) (fun _ he => he) (fun _ he => .inl he)
    (fun key hk => ?_) (fun key => ?_) hn
  · cases hk
  · rw [hi]
    exact if_congr (decide_eq_true_iff).symm rfl rfl

theorem Erased.step (h : Erased version d b t events) (hfr : b.watch.FreshAt version)
    (hr : ∀ m ∈ a, m.recordable) (he : mu ∈ a) (hv : mu.VersionedAt version)
    (ha : mu.announced b a)
    (hp : applyClusterMutation pl version false t mu = .ok (t', st)) :
    ∃ events', Erased version (d ++ [mu]) b t' events' := by
  cases mu with
  | putResource r | patchResourceLatest r | putNamespace r | deleteNamespace r => cases ha
  | deleteNamespaceContents name | gcWatchEvents maxRows batchCap =>
    have hn := hr _ he
    cases hn
  | putWatchEvent r =>
    simp only [announced, and_eq_true, decide_eq_true_eq, any_eq_true] at ha
    obtain ⟨⟨hy, hid⟩, m, hm, hd⟩ := ha
    have hs : r.key.ns ≠ some "#cluster" := by
      cases m with
      | deleteResource del =>
        rw [← of_decide_eq_true hd]
        exact placedKey_ns (hr _ hm)
      | _ => cases hd
    obtain ⟨watch, hi, hp⟩ := bind_eq_ok.1 hp
    cases hp
    exact h.event hfr (hv.event r rfl) hs hy hid hi
  | deleteResource del =>
    simp only [announced, and_eq_true] at ha
    refine ⟨events, h.delete (fun r ho => ?_) hp⟩
    have hf := ha.2
    rw [Option.mem_def.1 ho] at hf
    simpa using hf
  | _ =>
    refine ⟨events, ?_⟩
    cases applyClusterMutation_effects hp with
    | wrote ht => cases ht
    | aside => exact h.aside (fun _ => rfl) (fun _ => rfl) rfl rfl rfl

theorem applyMutations_erased {ms : List LogApplyMutation} (hf : b.watch.FreshAt version)
    (hc : ∀ m ∈ all, m.recordable) (ha : ∀ m ∈ all, m.announced b all) (hs : ms ⊆ all)
    (hv : ∀ m ∈ ms, m.VersionedAt version)
    (hu : applyMutations pl version false t ms = .ok (t', p))
    (h : Erased version d b t events) :
    ∃ events', Erased version (d ++ ms) b t' events' := by
  induction ms generalizing t events p d with
  | nil =>
    cases hu
    exact ⟨events, by rwa [append_nil]⟩
  | cons mu tl ih =>
    obtain ⟨next, st, lat, hn, hr⟩ := applyMutations_cons_ok hu
    have he : mu ∈ all := hs (by simp)
    obtain ⟨events', h'⟩ := h.step hf hc he (hv mu (by simp)) (ha mu he) hn
    obtain ⟨evs'', h''⟩ := ih (fun m hm => hs (by simp [hm])) (fun m hm => hv m (by simp [hm])) hr h'
    exact ⟨evs'', by rwa [append_assoc] at h''⟩

theorem Erased.recorded (h : Erased version a b t events) (hr : ∀ m ∈ a, m.recordable)
    (ha : ∀ m ∈ a, m.announced b a) : EventsRecorded version b t events := by
  refine ⟨h.toLoggedAt, fun ev hv => ?_, fun k hn => h.untouched k fun m hm => ?_, fun nm _ => by rw [h.namespaces]⟩
  · obtain ⟨ht, m, hm, hk⟩ := h.deletions ev hv
    rw [outcome, if_pos ht]
    cases m with
    | putWatchEvent r =>
      have hv := ha _ hm
      simp only [announced, and_eq_true, any_eq_true, of_decide_eq_true hk] at hv
      obtain ⟨-, del, hd, he⟩ := hv
      cases del with
      | deleteResource del =>
        have hp : placedKey ev.key := by
          rw [← of_decide_eq_true he]
          exact hr _ hd
        rw [objectAt_placed hp, h.gone _ hd _ he]
        rfl
      | _ => cases he
    | _ => cases hk
  · cases m with
    | deleteResource del =>
      refine decide_eq_false fun heq => ?_
      have hd := ha _ hm
      simp only [announced, and_eq_true, any_eq_true] at hd
      obtain ⟨⟨ev, hv, hk⟩, -⟩ := hd
      obtain ⟨lg, hl, hs⟩ := h.logged ev hv _ hk
      exact hn lg hl (hs.trans heq)
    | _ => rfl

end Erased

/-! ## Entries -/

/-- An entry that records its changes: what it resolves to can be recorded, and is announced if events come along. -/
def recordsChanges (db : ClusterDb) (entry : LogApplyCommit) : Bool :=
  match resolveBoundPodFinalizationsInTx db.tables entry.resourceVersion entry.mutations with
  | .error _ => true
  | .ok mutations =>
    mutations.all LogApplyMutation.recordable && (!mutations.any LogApplyMutation.isPutWatchEvent ||
        mutations.all (LogApplyMutation.announced db.tables mutations))

section Stamp

variable (c : TransactionContext) (version : Int) (ps : Bool) (mu : LogApplyMutation)

@[simp]
theorem stampMutation_recordable : (stampMutation c version ps mu).recordable = mu.recordable := by
  cases mu <;> rfl

@[simp]
theorem stampMutation_isPutWatchEvent : (stampMutation c version ps mu).isPutWatchEvent = mu.isPutWatchEvent := by
  cases mu <;> rfl

@[simp]
theorem stampMutation_deletes (key : ResourceKey) : (stampMutation c version ps mu).deletes key = mu.deletes key := by
  cases mu <;> rfl

@[simp]
theorem stampMutation_announces (key : ResourceKey) :
    (stampMutation c version ps mu).announces key = mu.announces key := by
  cases mu <;> rfl

end Stamp

section Entry

variable {c : TransactionContext} {e : LogApplyCommit} {version : Int}

/-- What stamping makes of an announced mutation is announced by what it makes of the others. -/
theorem announced_stamp {all : List LogApplyMutation} {ps : Bool} {mutation : LogApplyMutation}
    (hk : ∀ m ∈ bd, (∀ r, m ≠ .putResource r) → stampMutation c version ps m ∈ all)
    (h : mutation.announced t bd) :
    (stampMutation c version ps mutation).announced t all := by
  cases mutation with
  | putWatchEvent r =>
    simp only [announced, and_eq_true, any_eq_true] at h
    obtain ⟨hr, m, hm, hd⟩ := h
    simp only [stampMutation, announced, and_eq_true, any_eq_true]
    refine ⟨hr, _, hk m hm ?_, (stampMutation_deletes ..).trans hd⟩
    rintro r rfl
    cases hd
  | deleteResource del =>
    simp only [announced, and_eq_true, any_eq_true] at h
    obtain ⟨⟨m, hm, ha⟩, hf⟩ := h
    simp only [stampMutation, announced, and_eq_true, any_eq_true]
    refine ⟨⟨_, hk m hm ?_, (stampMutation_announces ..).trans ha⟩, hf⟩
    rintro r rfl
    cases ha
  | putResource r | patchResourceLatest r | putNamespace r | deleteNamespace r => cases h
  | _ => rfl

/-- Whether the store writes the events is decided by what the mutations resolve to. -/
theorem emits_eq (hd : resolveBoundPodFinalizationsInTx db.tables e.resourceVersion e.mutations = .ok bound) :
    e.emits bound = !bound.any isPutWatchEvent := by
  unfold LogApplyCommit.emits
  cases ho : e.mutations.any isPutWatchEvent with
  | false => rfl
  | true =>
    obtain ⟨m, hm, he⟩ := any_eq_true.1 ho
    have hi : m ∈ bound := resolveBound_keeps hd hm fun fi heq => by
      rw [heq] at he
      cases he
    have ha : bound.any isPutWatchEvent := any_eq_true.2 ⟨m, hi, he⟩
    rw [ha]
    rfl

theorem applyMutations_entry {l : List LogApplyMutation} {ps : Bool} (hb : VersionsBelow db)
    (hv : version = db.resourceVersion + 1)
    (hd : resolveBoundPodFinalizationsInTx db.tables e.resourceVersion e.mutations = .ok bd)
    (hre : recordsChanges db e) (hf : l ⊆ bd)
    (hk : ∀ m ∈ bd, (∀ r, m ≠ .putResource r) → m ∈ l) (hve : ∀ m ∈ l, m.VersionedAt 0)
    (hr : applyMutations pl version (e.emits bd) db.tables (l.map (stampMutation c version ps)) = .ok (t, p)) :
    ∃ events, EventsRecorded version db.tables t events := by
  have hfr : db.tables.watch.FreshAt version := by
    intro r hw
    have hle := hb.events r hw
    omega
  simp only [recordsChanges, hd, Bool.and_eq_true, all_eq_true] at hre
  obtain ⟨hc, he⟩ := hre
  have hr' : ∀ m ∈ l.map (stampMutation c version ps), m.recordable := by
    intro m hm
    obtain ⟨ori, ho, rfl⟩ := mem_map.1 hm
    rw [stampMutation_recordable]
    exact hc ori (hf ho)
  rw [emits_eq hd] at hr
  cases ha : bd.any isPutWatchEvent with
  | false =>
    rw [ha] at hr
    refine applyMutations_recorded hfr hr' (fun m hm => ?_) hr (.refl version db.tables)
    obtain ⟨ori, ho, rfl⟩ := mem_map.1 hm
    rw [stampMutation_isPutWatchEvent]
    exact Bool.eq_false_iff.2 (any_eq_false.1 ha ori (hf ho))
  | true =>
    rw [ha] at hr
    simp only [ha, Bool.not_true, Bool.false_or, all_eq_true] at he
    have hn : ∀ m ∈ l.map (stampMutation c version ps), m.announced db.tables (l.map (stampMutation c version ps)) := by
      intro m hm
      obtain ⟨ori, ho, rfl⟩ := mem_map.1 hm
      exact announced_stamp (fun m hm hp => mem_map.2 ⟨m, hk m hm hp, rfl⟩) (he ori (hf ho))
    have hv' : ∀ m ∈ l.map (stampMutation c version ps), m.VersionedAt version := by
      intro m hm
      obtain ⟨ori, ho, rfl⟩ := mem_map.1 hm
      have hnn := hb.nonneg
      exact stampMutation_versioned ps (by omega) (hve ori ho)
    obtain ⟨events, her⟩ := applyMutations_erased hfr hr' hn (List.Subset.refl _)
      hv' hr (.refl version db.tables)
    exact ⟨events, her.recorded hr' hn⟩

theorem EntryRun.recorded (h : EntryRun pl c db e t) (hb : VersionsBelow db)
    (hre : recordsChanges db e) : ∃ version events, EventsRecorded version db.tables t events := by
  cases h with
  | ledger ap => exact ⟨0, [], (EventsRecorded.refl 0 db.tables).aside rfl rfl rfl⟩
  | @applied rslv bd t p hl hr hd hu ap =>
    suffices hm : ∃ version events, EventsRecorded version db.tables t events by
      obtain ⟨version, events, hs⟩ := hm
      exact ⟨version, events, hs.aside rfl rfl rfl⟩
    cases he : doesNotAdvancePublicRv rslv.mutations with
    | true =>
      rw [← stamp_ledgerOnly c db] at he
      obtain ⟨ledger, rfl⟩ := applyMutations_ledgerOnly he hu
      exact ⟨0, [], (EventsRecorded.refl 0 db.tables).aside rfl rfl rfl⟩
    | false =>
      have h0 : e.live.resourceVersion = 0 := fromLive_resourceVersion hl
      have hv := hr.versioned (.inl h0) (versioned_of_live hl)
      have hp : rslv.resourceVersion = 0 := (hr.resourceVersion_of_spends he).trans h0
      have hve := (stamp_of_spends c db he hp).2
      obtain ⟨ms, hm, hsu, hk⟩ := hr.remains
      cases hm.symm.trans hd
      rw [stamp_mutations, hve] at hu
      exact ⟨_, applyMutations_entry hb rfl hd hre hsu hk hv hu⟩

end Entry

/-! ## Runs -/

section Run

variable {c : TransactionContext}

theorem Effect.issued {version : Int} {et : Bool} {t' : Tables} {mutation : LogApplyMutation}
    (h : Effect version et t mutation t') (hi : t.watch.Issued) : t'.watch.Issued := by
  rcases h.watch_cases with heq | ⟨event, hn, -⟩ | ⟨maxRows, batchCap, rem, hg⟩
  · rwa [heq]
  · exact insertWatchEvent_issued hi hn
  · intro r hr
    obtain ⟨hs, hrs⟩ := gcWatchEventsInTx_events hg
    rw [hs]
    exact hi r ((hrs r).1 hr).1

theorem runEntries_issued (es : List LogApplyCommit) (hi : db.tables.watch.Issued) :
    (runEntries pl c db es).tables.watch.Issued :=
  runEntries_invariant (P := fun t => t.watch.Issued) (Q := fun _ => True) (fun _ _ h => h)
    (fun _ ha h => (applyClusterMutation_effects ha).issued h)
    (fun _ _ _ _ => trivial) (fun _ => trivial) (fun _ _ _ _ => trivial) hi

theorem runEntries_below (es : List LogApplyCommit) (hb : VersionsBelow db) :
    VersionsBelow (runEntries pl c db es) := by
  induction es generalizing db with
  | nil => exact hb
  | cons e tl ih => exact ih (applyEntry_allocated pl c e hb).1.below

/-- The log has an event of every row an entry creates, changes or removes. -/
structure CommitStep.Logged (step : CommitStep) : Prop where
  resources : ∀ key, step.after.tables.resources.find key ≠ step.before.tables.resources.find key →
    ∃ event ∈ step.after.tables.watch.since step.before.tables.watch.seq, event.key = key
  namespaces : ∀ name, step.after.tables.namespaces.find name ≠ step.before.tables.namespaces.find name →
    ∃ event ∈ step.after.tables.watch.since step.before.tables.watch.seq, event.key = namespaceKeyOf name

theorem EventsRecorded.logged {s : CommitStep} {version : Int} {events : List WatchEventRow}
    (h : EventsRecorded version s.before.tables s.after.tables events) (hi : s.before.tables.watch.Issued) :
    s.Logged := by
  refine ⟨fun k hc => ?_, fun nm hc => ?_⟩
  · rw [h.appended.since hi]
    by_contra hn
    exact hc (h.resources k fun ev he heq => hn ⟨ev, he, heq⟩)
  · rw [h.appended.since hi]
    by_contra hn
    exact hc (h.namespaces nm fun ev he heq => hn ⟨ev, he, heq⟩)

/-- The run: events appended to the log lead from the objects before to the objects after. -/
theorem runEntries_recorded {es : List LogApplyCommit} (hi : db.tables.watch.Issued) (hb : VersionsBelow db)
    (hre : ∀ s ∈ commitSteps pl c db es, recordsChanges s.before s.entry) :
    (∃ events, Appended db.tables.watch (runEntries pl c db es).tables.watch events ∧
      replay key outcome (objectAt db.tables) events = objectAt (runEntries pl c db es).tables) ∧
      ∀ s ∈ commitSteps pl c db es, s.Logged := by
  induction es generalizing db with
  | nil => exact ⟨⟨[], .refl _, rfl⟩, fun s hs => absurd hs not_mem_nil⟩
  | cons e tl ih =>
    have hh := hre _ (mem_cons_self ..)
    obtain ⟨version, events, he⟩ := (applyEntry_run pl c db e).recorded hb hh
    obtain ⟨⟨lat, ha, hr⟩, hl⟩ := ih (he.appended.keepsIssued hi) (applyEntry_allocated pl c e hb).1.below fun s hs =>
        hre s (mem_cons_of_mem _ hs)
    refine ⟨⟨events ++ lat, he.appended.trans ha, ?_⟩, fun s hs => ?_⟩
    · rwa [replay_append, he.covers.replay]
    · rcases mem_cons.1 hs with rfl | hs
      · exact he.logged hi
      · exact hl s hs

/-- Over every run of entries that record their changes, from any point of a run from the empty store: the log has an
event of every row an entry creates, changes or removes, and replaying the events of the run over the objects before
gives the objects after. -/
theorem watch_log_complete (policies : ApplyPolicies) (context : TransactionContext)
    (before entries : List LogApplyCommit)
    (hrecords : ∀ step ∈ commitSteps policies context (runEntries policies context .empty before) entries,
      recordsChanges step.before step.entry = true) :
    let first := runEntries policies context .empty before
    let la := runEntries policies context first entries
    (∀ step ∈ commitSteps policies context first entries, step.Logged) ∧ replay key outcome (objectAt first.tables)
        (la.tables.watch.since first.tables.watch.seq) = objectAt la.tables := by
  intro first la
  have hi : first.tables.watch.Issued := runEntries_issued before fun r ho => absurd ho not_mem_nil
  have hb : VersionsBelow first := runEntries_below before .empty
  obtain ⟨⟨events, ha, hr⟩, hl⟩ := runEntries_recorded hi hb hrecords
  refine ⟨hl, ?_⟩
  rwa [ha.since hi]

end Run

/-- Delete the object, with the event that says so. -/
def sampleErase : LogApplyCommit where
  mutations := [ .putWatchEvent {
      eventId := none
      key := ⟨"v1", "ConfigMap", some "default", "cm"⟩
      resourceVersion := 0
      eventType := "DELETED"
      data := .obj [("metadata", .obj [("uid", .str "cm-uid")])] },
    .deleteResource ⟨⟨"v1", "ConfigMap", some "default", "cm"⟩, "cm-uid", none⟩]

theorem watch_log_complete_map :
    let first := runEntries samplePolicies sampleContext .empty [sampleCreate]
    let last := runEntries samplePolicies sampleContext first [samplePatch, sampleErase, sampleCreate]
    (last.tables.watch.since first.tables.watch.seq).map eventType = ["MODIFIED", "DELETED", "ADDED"] ∧
      replay key outcome (objectAt first.tables)
        (last.tables.watch.since first.tables.watch.seq) = objectAt last.tables := by
  have hr : ∀ step ∈ commitSteps samplePolicies sampleContext
      (runEntries samplePolicies sampleContext .empty [sampleCreate]) [samplePatch, sampleErase, sampleCreate],
      recordsChanges step.before step.entry := by decide +kernel
  exact ⟨by decide +kernel, (watch_log_complete _ _ _ _ hr).2⟩

/-- Clearing a namespace removes its objects and says nothing: the log still has the object as it was created. -/
theorem cleared_namespace_unlogged :
    let key : ResourceKey := ⟨"v1", "ConfigMap", some "default", "cm"⟩
    let first := runEntries samplePolicies sampleContext .empty [sampleCreate]
    let last := runEntries samplePolicies sampleContext first [{ mutations := [.deleteNamespaceContents "default"] }]
    last.resourceVersion = first.resourceVersion + 1 ∧ (objectAt first.tables key).isSome ∧
      objectAt last.tables key = none ∧ last.tables.watch.since first.tables.watch.seq = [] := by
  decide +kernel

end Klights.Store
