import Klights.Store.Entries

/-!
# The indexes and the objects

Each index holds the rows computed from the objects that are stored, and no others. An index row names its object by
`indexKey`, where a cluster-scoped object has the empty namespace: as long as no object is put into a namespace without
a name, two objects never share index rows.

- `Mirrors.keep`, `Mirrors.write`: index rows are dropped, or written again, with their objects;
- `applyClusterMutation_indexed`: one mutation keeps the three indexes;
- `indexes_mirror_objects`: so does every run of entries.
-/

namespace Klights.Store

open Lib List

/-! ## One index -/

def ResourceRow.indexed {ι : Type} (rowsOf : ResourceKey → Json → List ι) (row : ResourceRow) : List ι :=
  (row.data.fromSlice.map (rowsOf row.key)).getD []

def Mirrors {ι : Type} (rowsOf : ResourceKey → Json → List ι) (index : List ι) (resources : Table ResourceRow.key) :
    Prop :=
  index.Perm (resources.rows.flatMap (ResourceRow.indexed rowsOf))

section Mirrors

variable {ι : Type} {ow : ι → IndexKey} {ro : ResourceKey → Json → List ι} {ix : List ι}
  {resources resources' : Table ResourceRow.key} (how : ∀ key data, ∀ entry ∈ ro key data, ow entry = indexKey key)

include how

theorem filter_indexed (k : IndexKey → Bool) (row : ResourceRow) : (row.indexed ro).filter (fun e => k (ow e)) =
      if k (indexKey row.key) then row.indexed ro else [] := by
  unfold ResourceRow.indexed
  cases row.data.fromSlice with
  | none => simp
  | some data =>
    simp only [Option.map_some, Option.getD_some]
    split
    · rename_i hk
      exact filter_eq_self.2 fun e he => (how _ _ e he).symm ▸ hk
    · rename_i hd
      exact filter_eq_nil_iff.2 fun e he => (how _ _ e he).symm ▸ hd

theorem Mirrors.keep (k : IndexKey → Bool) (h : Mirrors ro ix resources)
    (hs : resources'.rows = resources.rows.filter fun row => k (indexKey row.key)) :
    Mirrors ro (ix.filter fun e => k (ow e)) resources' := by
  refine (h.filter _).trans (.of_eq ?_)
  rw [hs, filter_flatMap]
  simp only [filter_indexed how]
  induction resources.rows with
  | nil => rfl
  | cons row rows ih =>
    rw [flatMap_cons, ih, filter_cons]
    split <;> simp

theorem Mirrors.write {row : ResourceRow} {data : Json} (h : Mirrors ro ix resources) (hd : row.data = Blob.toVec data)
    (hs : ∀ r, r ∈ resources'.rows ↔ r = row ∨ r ∈ resources.rows ∧ indexKey r.key ≠ indexKey row.key) :
    Mirrors ro ((ix.filter fun e => ow e ≠ indexKey row.key) ++ ro row.key data) resources' := by
  let others := resources.deleteWhere fun r => indexKey r.key = indexKey row.key
  have ho : Mirrors ro (ix.filter fun e => ow e ≠ indexKey row.key) others :=
    h.keep how (fun key => key ≠ indexKey row.key) (by simp [others, Table.deleteWhere])
  have hi : row.indexed ro = ro row.key data := by simp [ResourceRow.indexed, hd]
  -- the rows are the others and the one that is written
  have hp : (others.rows ++ [row]).Perm resources'.rows := by
    refine (perm_ext_iff_of_nodup ?_ (.of_map _ resources'.nodup)).2 fun r => ?_
    · exact (List.Nodup.of_map _ others.nodup).append (nodup_singleton row) (by simp [others])
    · rw [hs r]
      simp [others, or_comm]
  refine (ho.append_right _).trans ?_
  rw [← hi]
  simpa using hp.flatMap_right (ResourceRow.indexed ro)

end Mirrors

/-! ## The three indexes -/

/-- The label, field and owner index rows are those of the stored objects, and every namespace has a name. -/
structure IndexesMirror (tables : Tables) : Prop where
  labels : Mirrors labelRows tables.labels tables.resources
  fields : Mirrors fieldRows tables.fields tables.resources
  ownerRefs : Mirrors ownerRefRows tables.ownerRefs tables.resources
  named : ∀ row ∈ tables.resources.rows, row.key.ns ≠ some ""

theorem labelRows_owner (key : ResourceKey) (data : Json) : ∀ e ∈ labelRows key data, e.resource = indexKey key :=
  forall_mem_map.2 fun _ _ => rfl

theorem fieldRows_owner (key : ResourceKey) (data : Json) : ∀ e ∈ fieldRows key data, e.resource = indexKey key := by
  intro e he
  obtain ⟨pa, -, hp⟩ := mem_filterMap.1 he
  obtain ⟨vl, -, rfl⟩ := Option.map_eq_some_iff.1 hp
  rfl

theorem ownerRefRows_owner (key : ResourceKey) (data : Json) :
    ∀ e ∈ ownerRefRows key data, e.resource = indexKey key := by
  intro e he
  obtain ⟨⟨ex, ord⟩, hm, rfl⟩ := mem_map.1 he
  obtain ⟨re, -, hx⟩ := mem_filterMap.1 (fst_mem_of_mem_zipIdx hm)
  obtain ⟨ui, -, rfl⟩ := Option.map_eq_some_iff.1 hx
  rfl

theorem indexKey_inj {key other : ResourceKey} (hk : key.ns ≠ some "") (ho : other.ns ≠ some "") :
    indexKey key = indexKey other ↔ key = other := by
  obtain ⟨av, kd, ns, nm⟩ := key
  obtain ⟨a', kd', n', nm'⟩ := other
  cases ns <;> cases n' <;> simp_all [indexKey, eq_comm]

section Steps

variable {p : ApplyPolicies} {v : Int} {et : Bool} {tables tables' : Tables}
  {st : Option StagedPostCommit} {mu : LogApplyMutation} {key : ResourceKey} {row c : ResourceRow}
  {resources' : Table ResourceRow.key} {data : Json} (h : IndexesMirror tables)

include h

theorem IndexesMirror.indexKey_iff (hr : row ∈ tables.resources.rows) (hk : key.ns ≠ some "") :
    indexKey row.key = indexKey key ↔ row.key = key :=
  indexKey_inj (h.named row hr) hk

theorem IndexesMirror.keep (keep : IndexKey → Bool)
    (hr : resources'.rows = tables.resources.rows.filter fun row => keep (indexKey row.key)) :
    IndexesMirror (Tables.keepIndexes { tables with resources := resources' } keep) where
  labels := h.labels.keep labelRows_owner keep hr
  fields := h.fields.keep fieldRows_owner keep hr
  ownerRefs := h.ownerRefs.keep ownerRefRows_owner keep hr
  named row hrow := h.named row (mem_of_mem_filter (hr ▸ hrow))

theorem IndexesMirror.write (hk : row.key.ns ≠ some "") (hd : row.data = Blob.toVec data)
    (hs : ∀ r, r ∈ resources'.rows ↔ r = row ∨ r ∈ tables.resources.rows ∧ r.key ≠ row.key) :
    IndexesMirror (Tables.upsertIndexes { tables with resources := resources' } row.key data) := by
  have hi : ∀ r, r ∈ resources'.rows ↔ r = row ∨ r ∈ tables.resources.rows ∧ indexKey r.key ≠ indexKey row.key :=
    fun r => (hs r).trans (or_congr_right (and_congr_right fun hr => not_congr (h.indexKey_iff hr hk).symm))
  refine ⟨h.labels.write labelRows_owner hd hi, h.fields.write fieldRows_owner hd hi,
    h.ownerRefs.write ownerRefRows_owner hd hi, fun r hr => ?_⟩
  rcases (hs r).1 hr with rfl | ⟨ho, -⟩
  · exact hk
  · exact h.named r ho

theorem IndexesMirror.refresh (hf : tables.resources.find key = some c)
    (hd : c.data = Blob.toVec data) : IndexesMirror (tables.upsertIndexes key data) := by
  obtain ⟨hm, rfl⟩ := Table.find_eq_some_iff.1 hf
  refine h.write (h.named c hm) hd fun r => ⟨fun hr => ?_, ?_⟩
  · by_cases hk : r.key = c.key
    · exact .inl (inj_on_of_nodup_map tables.resources.nodup hr hm hk)
    · exact .inr ⟨hr, hk⟩
  · rintro (rfl | ⟨hr, -⟩)
    · exact hm
    · exact hr

theorem IndexesMirror.delete (hf : tables.resources.find key = some c) :
    IndexesMirror ((tables.deleteResource key).deleteIndexes key) := by
  obtain ⟨hm, rfl⟩ := Table.find_eq_some_iff.1 hf
  refine h.keep (fun k => k ≠ indexKey c.key) (filter_congr fun row hr => ?_)
  simp [h.indexKey_iff hr (h.named _ hm)]

theorem IndexesMirror.clear (nm : String) : IndexesMirror (deleteNamespaceContents tables nm) := by
  unfold deleteNamespaceContents
  rw [foldl_deleteIndexes]
  refine h.keep _ (filter_congr fun row hr => ?_)
  -- a row is cleared exactly when its index key is that of a row that is cleared
  have hk : ∀ {doo : ResourceRow → Bool}, indexKey row.key ∈
      ((tables.resources.rows.filter doo).map ResourceRow.key).map indexKey ↔ doo row := by
    intro doo
    simp only [map_map, mem_map, mem_filter, Function.comp_apply]
    constructor
    · rintro ⟨o, ⟨ho, hd⟩, heq⟩
      have hs := (h.indexKey_iff ho (h.named row hr)).1 heq
      rwa [← inj_on_of_nodup_map tables.resources.nodup ho hr hs]
    · exact fun hd => ⟨row, ⟨hr, hd⟩, rfl⟩
  simp only [hk, Bool.decide_eq_true, decide_not]

theorem IndexesMirror.recorded {watch : WatchLog} : IndexesMirror { tables with watch } :=
  ⟨h.labels, h.fields, h.ownerRefs, h.named⟩

omit h

/-! ## Runs -/

/-- A mutation that writes no object into a namespace without a name. -/
def LogApplyMutation.namesNamespace : LogApplyMutation → Bool
  | .putResource row => row.key.ns ≠ some ""
  | .patchResourceLatest patch => patch.key.ns ≠ some ""
  | _ => true

theorem resourceIdentity_named (h : key.ns ≠ some "") : (resourceIdentity key).ns ≠ some "" := by
  unfold resourceIdentity
  split
  · cases hn : key.ns with
    | none => simp
    | some ns => exact hn ▸ h
  · nofun

theorem target_named (hs : mu.namesNamespace) (ht : mu.target = some key)
    (hd : ∀ d, mu ≠ .deleteResource d) : key.ns ≠ some "" := by
  cases mu with
  | putResource | patchResourceLatest =>
    cases ht
    exact resourceIdentity_named (of_decide_eq_true hs)
  | deleteResource d => exact absurd rfl (hd d)
  | putNamespace | deleteNamespace =>
    cases ht
    nofun
  | _ => cases ht

theorem applyClusterMutation_indexed (hn : mu.namesNamespace)
    (ha : applyClusterMutation p v et tables mu = .ok (tables', st))
    (h : IndexesMirror tables) : IndexesMirror tables' := by
  by_cases he : ∃ del, mu = .deleteResource del
  · obtain ⟨del, rfl⟩ := he
    rcases applyDeleteResource_cases ha with rfl | ⟨c, hf, hm⟩
    · exact h
    · obtain ⟨wa, rfl⟩ := emitWatch_eq hm
      exact (h.delete hf).recorded
  · cases applyClusterMutation_effects ha with
    | wrote ht hy hm =>
      obtain ⟨wa, rfl⟩ := emitWatch_eq hm
      exact (h.write (target_named hn ht (not_exists.1 he)) rfl fun _ => Table.mem_put).recorded
    | indexed hf hv hd => exact h.refresh hf hd
    | deleted => exact absurd ⟨_, rfl⟩ he
    | cleared nm => exact h.clear nm
    | wroteNamespace hy hm | deletedNamespace hf hm =>
      obtain ⟨wa, rfl⟩ := emitWatch_eq hm
      exact ⟨h.labels, h.fields, h.ownerRefs, h.named⟩
    | event | collected | aside => exact ⟨h.labels, h.fields, h.ownerRefs, h.named⟩

/-- **The indexes mirror the objects.** After any run of entries that put no object into a namespace without a name, the
label, field and owner index rows are those computed from the stored objects. -/
theorem indexes_mirror_objects (policies : ApplyPolicies) (context : TransactionContext) (entries : List LogApplyCommit)
    (hnames : ∀ entry ∈ entries, ∀ m ∈ entry.mutations, m.namesNamespace = true) :
    IndexesMirror (runEntries policies context .empty entries).tables := by
  have he : IndexesMirror ClusterDb.empty.tables :=
    ⟨.refl [], .refl [], .refl [], fun _ hr => absurd hr not_mem_nil⟩
  refine runEntries_invariant (P := IndexesMirror) (Q := fun m => m.namesNamespace)
    (fun _ _ h => ⟨h.labels, h.fields, h.ownerRefs, h.named⟩) applyClusterMutation_indexed (fun _ _ m hm => ?_)
    (fun hf => ?_) hnames he
  · cases m <;> exact hm
  · cases hf <;> rfl

end Steps

def samplePutWidget (ns : Option String) (color : String) : LogApplyCommit where
  mutations := [.putResource {
    key := ⟨"example.com/v1", "Widget", ns, "w"⟩
    uid := color
    resourceVersion := 0
    data := .obj [("metadata", .obj [("labels", .obj [("color", .str color)])])] }]

theorem indexes_mirror_widgets :
    let tables := (runEntries samplePolicies sampleContext .empty
      [samplePutWidget none "red", samplePutWidget (some "a") "blue", samplePutWidget none "green"]).tables
    tables.labels.map SelectorIndexRow.value = ["blue", "green"] ∧ IndexesMirror tables :=
  ⟨by decide +kernel, indexes_mirror_objects samplePolicies sampleContext _ (by decide +kernel)⟩

/-- The empty namespace is the namespace cluster-scoped objects are indexed under: there a put takes the index rows of
another object, and nothing restores them. -/
theorem empty_namespace_loses_index :
    let tables := (runEntries samplePolicies sampleContext .empty
      [samplePutWidget none "red", samplePutWidget (some "") "blue"]).tables
    (tables.resources.rows.flatMap (ResourceRow.indexed labelRows)).map SelectorIndexRow.value = ["red", "blue"] ∧
      tables.labels.map SelectorIndexRow.value = ["blue"] ∧ ¬ IndexesMirror tables := by
  refine ⟨by decide +kernel, by decide +kernel, fun h => ?_⟩
  exact absurd h.labels.length_eq (by decide +kernel)

end Klights.Store
