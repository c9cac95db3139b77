import Klights.Disruption.Covers

/-!
# A disruption budget is not overspent

Over any run of `Klights.Disruption.step` in which no pod becomes healthy, the pods that a budget lets go are bounded by
what its status allows at the start, as long as the number of pods it wants does not fall with the number it expects.

- `Task.Sound`: what the tasks under way know: a copy of the budget that was read, a status that covers if the copy is
  still current, a pod that was there at the start;
- `Inv`, `inv_step`: what every step keeps;
- `Once`: no healthy pod is let go twice, where none is evicted again once it is let go;
- `budget_kept`: the bound. With `maxUnavailable` the number of pods wanted falls as pods go, and `budget_overspent`
  shows the bound fail.
-/

namespace Klights.Disruption

open Controllers Lib Selector Json List Option Table Bool

variable {pod pd : Json} {i att : Nat} {nw podName pn : String}

/-! ## Pods that go -/

/-- Every pod was there before with the same labels, and is no healthier. -/
def Declines (before after : List Json) : Prop :=
  after.length ≤ before.length ∧ ∀ pod ∈ after, ∃ old ∈ before, objectName old = objectName pod ∧
    ∀ pdb, (podMatchesSelector pod pdb = true → podMatchesSelector old pdb = true) ∧
      (isCounted pdb pod = true → isCounted pdb old = true)

variable {after : List Json} {current cr : StoredPdb}

theorem Covers.decline {evicted : Finset (Option String)} {l : Int} {b : List Json} {pdb : Json}
    (h : Covers evicted l b pdb) (hd : Declines b after) : Covers evicted l after pdb where
  reserved pd hp hg hmat := by
    obtain ⟨ol, ho, hn, hk⟩ := hd.2 pd hp
    rw [← hn] at hg ⊢
    exact h.reserved ol ho hg ((hk pdb).1 hmat)
  allowed := h.allowed

theorem declines_updateWhere {pods : StoredPods} {p : Json → Bool} {f : Json → Json}
    {hk : ∀ pod, objectName (f pod) = objectName pod}
    (h : ∀ pod ∈ pods.rows, p pod → ∀ pdb, (podMatchesSelector (f pod) pdb = podMatchesSelector pod pdb) ∧
      (isCounted pdb (f pod) → isCounted pdb pod)) :
    Declines pods.rows (pods.updateWhere p f hk).rows := by
  refine ⟨by simp [Table.updateWhere], fun pod hd => ?_⟩
  obtain ⟨ol, ho, rfl⟩ := mem_updateWhere.1 hd
  refine ⟨ol, ho, ?_⟩
  split
  · rename_i hp
    exact ⟨(hk ol).symm, fun pdb => ⟨fun hm => by rw [← (h ol ho hp pdb).1]; exact hm, (h ol ho hp pdb).2⟩⟩
  · exact ⟨rfl, fun pdb => ⟨id, id⟩⟩

theorem declines_deleteWhere (pods : StoredPods) (p : Json → Bool) : Declines pods.rows (pods.deleteWhere p).rows :=
  ⟨length_filter_le _ _, fun pd hp => ⟨pd, (mem_deleteWhere.1 hp).1, rfl, fun _ => ⟨id, id⟩⟩⟩

variable {name nm : String} {status sts st : Json} {row : StoredPdb} {world : World}

/-! ## The invariant -/

section Invariant

/-- A budget, the pods it counted at the start, how many pods it wants, and how many it may let go. -/
structure Terms where
  name : String
  pdb : Json
  spec : Json
  start : Finset (Option String)
  size : Nat
  wanted : Int
  limit : Int
  named : objectName pdb = some name
  hasSpec : pdb.get "spec" = some spec
  affordable : start.card - wanted ≤ limit
  steady : ∀ n : Nat, n ≤ size → wanted ≤ computeDesiredHealthy spec n ∧ computeDesiredHealthy spec n ≤ 2 ^ 63 - 2000

variable (terms : Terms)

def Task.Sound (row : StoredPdb) (pods : List Json) (evicted : Finset (Option String)) : Task → Prop
  | .reconciling _ _ _ => True
  | .listing name _ current _ => name = terms.name → row.Seen current
  | .writing name _ current status _ => name = terms.name → row.Seen current ∧
      (current.version = row.version → Covers evicted terms.limit pods (withStatus row.value status))
  | .admitting pod podName _ _ =>
    objectName pod = some podName ∧ (isCharged terms.pdb pod = true → objectName pod ∈ terms.start)
  | .reserving pod podName _ _ pdb _ =>
    objectName pod = some podName ∧
      (isCharged terms.pdb pod = true → objectName pod ∈ terms.start ∧ pdb.name = some terms.name) ∧
      (pdb.name = some terms.name → row.Seen pdb)
  | .rereading pod podName _ _ pdbName _ =>
    objectName pod = some podName ∧
      (isCharged terms.pdb pod = true → objectName pod ∈ terms.start ∧ pdbName = terms.name)

structure Inv (row : StoredPdb) (world : World) : Prop where
  stored : world.pdbs.find (some terms.name) = some row
  same : Json.AgreeOff ["status"] row.value terms.pdb
  size : world.pods.rows.length ≤ terms.size
  counted : ∀ pod ∈ world.pods.rows, isCounted terms.pdb pod = true → objectName pod ∈ terms.start
  evicted : world.evicted terms.pdb ⊆ terms.start
  spent : (world.evicted terms.pdb).card ≤ terms.limit
  covers : Covers (world.evicted terms.pdb) terms.limit world.pods.rows row.value
  tasks : ∀ i task, world.tasks i = some task → task.Sound terms row world.pods.rows (world.evicted terms.pdb)

variable {terms} {tk : Task} {pods : List Json} {evicted : Finset (Option String)}

theorem Task.Sound.write (h : tk.Sound terms row pods evicted) (vl : Json) (evicted' : Finset (Option String)) :
    tk.Sound terms (row.write vl) pods evicted' := by
  cases tk with
  | reconciling => trivial
  | listing => exact fun hn => (h hn).write vl
  | writing =>
    intro hn
    exact ⟨(h hn).1.write vl, fun hv => absurd hv ((h hn).1.ne_write vl)⟩
  | admitting => exact h
  | reserving => exact ⟨h.1, h.2.1, fun hn => (h.2.2 hn).write vl⟩
  | rereading => exact h

theorem Task.Sound.decline (h : tk.Sound terms row pods evicted) (hd : Declines pods after) :
    tk.Sound terms row after evicted := by
  cases tk with
  | writing =>
    intro hn
    exact ⟨(h hn).1, fun hv => ((h hn).2 hv).decline hd⟩
  | _ => exact h

theorem Inv.setTask (h : Inv terms row world) (i : Nat) {n : Option Task}
    (hx : ∀ tk, n = some tk → tk.Sound terms row world.pods.rows (world.evicted terms.pdb)) :
    Inv terms row (world.setTask i n) where
  stored := h.stored
  same := h.same
  size := h.size
  counted := h.counted
  evicted := h.evicted
  spent := h.spent
  covers := h.covers
  tasks j tk ht := by
    rcases eq_or_ne j i with rfl | hj
    · exact hx tk (by simpa [World.setTask] using ht)
    · exact h.tasks j tk (by simpa [World.setTask, Function.update_of_ne hj] using ht)

theorem Inv.endTask (h : Inv terms row world) (i : Nat) : Inv terms row (world.setTask i none) :=
  h.setTask i (fun _ => nofun)

theorem Inv.decline {after : StoredPods} (h : Inv terms row world) (hd : Declines world.pods.rows after.rows) :
    Inv terms row { world with pods := after } where
  stored := h.stored
  same := h.same
  size := hd.1.trans h.size
  counted pd hp hcnt := by
    obtain ⟨ol, ho, hn, hk⟩ := hd.2 pd hp
    rw [← hn]
    exact h.counted ol ho ((hk terms.pdb).2 hcnt)
  evicted := h.evicted
  spent := h.spent
  covers := h.covers.decline hd
  tasks i tk ht := (h.tasks i tk ht).decline hd

/-! ## Writes and admissions -/

theorem updateStatus_written {w' : World} {ver : Nat} (h : world.updateStatus nm ver st = .written w') :
    ∃ pdb, world.pdbs.find (some nm) = some pdb ∧ ver = pdb.version ∧
      w' = { world with pdbs := world.pdbs.put (pdb.write (withStatus pdb.value st)) } := by
  unfold World.updateStatus at h
  split at h
  · cases h
  · rename_i pdb hf
    split at h
    · rename_i hv
      cases h
      exact ⟨pdb, hf, hv.symm, rfl⟩
    · cases h

theorem name_write_withStatus (pdb : StoredPdb) (status : Json) :
    StoredPdb.name (pdb.write (withStatus pdb.value status)) = pdb.name := objectName_withStatus pdb.value status

section

variable (h : Inv terms row world)
include h

theorem Inv.named : row.name = some terms.name := find_key h.stored

theorem Inv.isNamed : (objectName row.value).isSome := isSome_of_eq_some h.named

theorem Inv.putOther {other : StoredPdb} (ho : other.name ≠ some terms.name) :
    Inv terms row { world with pdbs := world.pdbs.put other } where
  stored := (find_put_ne ho).trans h.stored
  same := h.same
  size := h.size
  counted := h.counted
  evicted := h.evicted
  spent := h.spent
  covers := h.covers
  tasks := h.tasks

theorem Inv.putOwn (admitted : List Json)
    (he : World.evicted { world with admitted := admitted } terms.pdb ⊆ terms.start)
    (hc : Covers (World.evicted { world with admitted := admitted } terms.pdb) terms.limit world.pods.rows
      (withStatus row.value st))
    (hs : (World.evicted { world with admitted := admitted } terms.pdb).card ≤ terms.limit) :
    Inv terms (row.write (withStatus row.value st))
      { world with pdbs := world.pdbs.put (row.write (withStatus row.value st)), admitted := admitted } where
  stored := by
    have hk : StoredPdb.name (row.write (withStatus row.value st)) = some terms.name :=
      (name_write_withStatus row st).trans h.named
    rw [← hk]
    exact find_put_self _ _
  same := (agreeOff_withStatus row.value st).trans h.same
  size := h.size
  counted := h.counted
  evicted := he
  spent := hs
  covers := hc
  tasks i tk ht := (h.tasks i tk ht).write _ _

end

theorem evicted_cons {pdb : Json} : World.evicted { world with admitted := pd :: world.admitted } pdb =
      if isCharged pdb pd = true then insert (objectName pd) (world.evicted pdb) else world.evicted pdb := by
  unfold World.evicted
  rw [filter_cons]
  split <;> simp

variable (h : Inv terms row world)

include h

theorem Inv.allow (dr : Bool) (hf : dr ∨ isCharged terms.pdb pd = false) : Inv terms row (world.allow pd dr) := by
  unfold World.allow
  split
  · exact h
  · rename_i hd
    have hc : isCharged terms.pdb pd = false := hf.resolve_left hd
    have heq : World.evicted { world with admitted := pd :: world.admitted } terms.pdb = world.evicted terms.pdb := by
      rw [evicted_cons, hc]
      rfl
    exact { h with
      evicted := by rw [heq]; exact h.evicted
      spent := by rw [heq]; exact h.spent
      covers := by rw [heq]; exact h.covers
      tasks := by rw [heq]; exact h.tasks }

/-! ## Steps of a task -/

theorem Inv.computeStatus (hs : nm = terms.name → row.Seen cr) :
    Inv terms row (world.computeStatus i nm nw cr att) := by
  unfold World.computeStatus
  cases hst : reconciledStatus cr.value world.pods.rows nw with
  | none => exact h.endTask i
  | some st =>
    dsimp only
    split
    · exact h.endTask i
    · refine h.setTask i fun tk ht => ?_
      cases ht
      refine fun ha => ⟨hs ha, fun hv => ?_⟩
      obtain rfl := (hs ha).eq hv
      have hsp : cr.value.get "spec" = some terms.spec :=
        (h.same.field "spec" (by decide)).trans terms.hasSpec
      refine covers_reconciled hst h.isNamed hsp world.pods.nodup (fun pd hp hc => ?_) h.evicted h.covers
        h.spent terms.affordable fun n hn => terms.steady n (hn.trans h.size)
      exact h.counted pd hp (isCounted_congr h.same ▸ hc)

theorem Inv.written {w' : World} {ver : Nat} (hu : world.updateStatus nm ver st = .written w') (admitted : List Json)
    (hw : nm = terms.name → ver = row.version →
      World.evicted { world with admitted := admitted } terms.pdb ⊆ terms.start ∧
      Covers (World.evicted { world with admitted := admitted } terms.pdb) terms.limit world.pods.rows
        (withStatus row.value st) ∧
      (World.evicted { world with admitted := admitted } terms.pdb).card ≤ terms.limit)
    (ho : nm ≠ terms.name → Inv terms row { world with admitted := admitted }) :
    ∃ row', Inv terms row' { w' with admitted := admitted } := by
  obtain ⟨pb, hf, hv, rfl⟩ := updateStatus_written hu
  rcases eq_or_ne nm terms.name with rfl | hn
  · cases hf.symm.trans h.stored
    obtain ⟨he, hc, hs⟩ := hw rfl hv
    exact ⟨_, h.putOwn admitted he hc hs⟩
  · have hk : StoredPdb.name (pb.write (withStatus pb.value st)) ≠ some terms.name := by
      rw [name_write_withStatus, find_key hf]
      exact fun heq => hn (Option.some.inj heq)
    exact ⟨row, (ho hn).putOther hk⟩

theorem Inv.writeStatus
    (hs : (Task.writing nm nw cr st att).Sound terms row world.pods.rows (world.evicted terms.pdb)) :
    ∃ row', Inv terms row' (world.advance i (.writing nm nw cr st att)) := by
  rw [World.advance]
  cases hu : world.updateStatus nm cr.version st with
  | conflict => exact ⟨row, h.setTask i fun tk ht => (by obtain rfl := Option.some.inj ht; trivial)⟩
  | notFound => exact ⟨row, h.endTask i⟩
  | written w' =>
    have hc := fun hn hv => (hs hn).2 hv
    obtain ⟨row', hw⟩ := h.written hu world.admitted (fun hn hv => ⟨h.evicted, hc hn hv, h.spent⟩) fun _ => h
    obtain ⟨pb, -, -, rfl⟩ := updateStatus_written hu
    exact ⟨row', hw.endTask i⟩

theorem Inv.reserve {dr : Bool} {pdb : StoredPdb}
    (hs : (Task.reserving pd pn nw dr pdb att).Sound terms row world.pods.rows
      (world.evicted terms.pdb)) : ∃ row', Inv terms row' (world.reserve i pd pn nw dr pdb att) := by
  obtain ⟨hp, hh, hse⟩ := hs
  unfold World.reserve
  split
  · rename_i hd
    refine ⟨row, (h.allow dr ?_).endTask i⟩
    by_cases he : isPodHealthy pd
    · exact .inl (decideEviction_allowed hd he)
    · refine .inr (eq_false_iff.2 fun hc => he ?_)
      simp only [isCharged, and_eq_true] at hc
      exact hc.1.2
  · rename_i st pe hd hn
    cases hu : world.updateStatus pe pdb.version st with
    | conflict =>
      cases att with
      | zero => exact ⟨row, h.endTask i⟩
      | succ att =>
        refine ⟨row, h.setTask i fun tk ht => ?_⟩
        cases ht
        refine ⟨hp, fun hc => ⟨(hh hc).1, ?_⟩⟩
        exact Option.some.inj (hn.symm.trans (hh hc).2)
    | notFound => exact ⟨row, h.endTask i⟩
    | written w' =>
      obtain ⟨row', hr⟩ := h.written hu (pd :: world.admitted) (fun hw hv => by
          subst hw
          obtain rfl := (hse hn).eq hv
          have hb : World.evicted { world with admitted := pd :: world.admitted } terms.pdb ⊆
              insert (some pn) (world.evicted terms.pdb) := by
            rw [evicted_cons, hp]
            split
            · exact Finset.Subset.refl _
            · exact Finset.subset_insert _ _
          obtain ⟨hco, hsp⟩ := h.covers.reserve h.isNamed hd hb
          refine ⟨?_, hco, hsp⟩
          rw [evicted_cons]
          split
          · rename_i hc
            exact Finset.insert_subset (hh hc).1 h.evicted
          · exact h.evicted)
        fun ho => by
          have hf : isCharged terms.pdb pd = false := eq_false_iff.2 fun hc =>
            ho (Option.some.inj (hn.symm.trans (hh hc).2))
          exact h.allow false (.inr hf)
      obtain ⟨pd', -, -, rfl⟩ := updateStatus_written hu
      exact ⟨row', hr.endTask i⟩
  · exact ⟨row, h.endTask i⟩

/-- The budgets are listed: one that selects the pod is this one, if this one does. -/
theorem Inv.selectPdb {dr : Bool} (hp : objectName pd = some pn)
    (hs : isCharged terms.pdb pd → objectName pd ∈ terms.start) :
    Inv terms row (world.selectPdb i pd pn nw dr) := by
  have hl : isCharged terms.pdb pd → row ∈ world.pdbs.rows.filter fun pdb => podMatchesSelector pd pdb.value := by
    intro hc
    simp only [isCharged, and_eq_true] at hc
    exact mem_filter.2 ⟨find_mem h.stored, (podMatchesSelector_congr h.same).trans hc.1.1⟩
  unfold World.selectPdb
  split
  · rename_i hno
    refine (h.allow dr (.inr ?_)).endTask i
    rw [hno] at hl
    exact eq_false_iff.2 fun hc => absurd (hl hc) not_mem_nil
  · rename_i pdb ho
    refine h.setTask i fun tk ht => ?_
    cases ht
    have hm : pdb ∈ world.pdbs.rows :=
      (mem_filter.1 (ho ▸ mem_singleton_self pdb :
        pdb ∈ world.pdbs.rows.filter fun pdb => podMatchesSelector pd pdb.value)).1
    refine ⟨hp, fun hc => ⟨hs hc, ?_⟩, fun hn => ?_⟩
    · have hr := hl hc
      rw [ho] at hr
      rw [← mem_singleton.1 hr]
      exact h.named
    · have hf : world.pdbs.find (some terms.name) = some pdb := find_eq_some_iff.2 ⟨hm, hn⟩
      rw [Option.some.inj (hf.symm.trans h.stored)]
      exact Versioned.Seen.refl row
  · exact h.endTask i

theorem Inv.advance (i : Nat) (hs : tk.Sound terms row world.pods.rows (world.evicted terms.pdb)) :
    ∃ r', Inv terms r' (world.advance i tk) := by
  cases tk with
  | reconciling nm nw att =>
    cases att with
    | zero => exact ⟨row, h.endTask i⟩
    | succ att =>
      refine ⟨row, h.setTask i fun tk ht => ?_⟩
      obtain ⟨cr, hf, rfl⟩ := map_eq_some_iff.1 ht
      intro hn
      subst hn
      rw [Option.some.inj (hf.symm.trans h.stored)]
      exact Versioned.Seen.refl row
  | listing nm nw cr att => exact ⟨row, h.computeStatus hs⟩
  | writing nm nw cr st att => exact h.writeStatus hs
  | admitting pd pn nw dr => exact ⟨row, h.selectPdb hs.1 hs.2⟩
  | reserving pd pn nw dr pb att => exact h.reserve hs
  | rereading pd pn nw dr pdbName att =>
    refine ⟨row, h.setTask i fun tk ht => ?_⟩
    obtain ⟨pb, hf, rfl⟩ := map_eq_some_iff.1 ht
    have hk : pb.name = some pdbName := find_key hf
    refine ⟨hs.1, fun hc => ⟨(hs.2 hc).1, ?_⟩, fun hn => ?_⟩
    · rw [hk, (hs.2 hc).2]
    · rw [← hk, hn] at hf
      rw [Option.some.inj (hf.symm.trans h.stored)]
      exact Versioned.Seen.refl row

end Invariant

/-! ## Runs -/

/-- No write of a pod's status makes it healthy. -/
def NoneBecomesHealthy (world : World) : Action → Prop
  | .setPodStatus podName status => ∀ pod, world.pods.find (some podName) = some pod →
      isPodHealthy (pod.insertField "status" status) = true → isPodHealthy pod = true
  | _ => True

section Steps

variable {terms : Terms}

theorem Inv.startEviction (h : Inv terms row world) (i : Nat) (podName nw : String) (dr : Bool) :
    Inv terms row (world.startEviction i podName nw dr) := by
  unfold World.startEviction
  split
  · rename_i pd ht hf
    split
    · rename_i hi
      refine h.allow dr (.inr ?_)
      simp [isCharged, hi]
    · refine h.setTask i fun tk ht => ?_
      cases ht
      exact ⟨find_key hf, fun hc =>
        h.counted pd (find_mem hf) (isCounted_of_isCharged hc)⟩
  · exact h

theorem podMatchesSelector_labels {o pdb : Json} (h : labelsOf pd = labelsOf o) :
    podMatchesSelector pd pdb = podMatchesSelector o pdb := by
  simp [podMatchesSelector, matchesLabelRequirements, h]

theorem isPodHealthy_markTerminating (ts : String) (pod : Json) :
    isPodHealthy (markTerminating ts pod) = isPodHealthy pod := by
  have hs : (markTerminating ts pod).get "status" = pod.get "status" := by
    unfold markTerminating modifyField
    split
    · exact get_insertField_ne pod _ (by decide)
    · rfl
  simp [isPodHealthy, isReady, strAt, pointer_pair, hs]

theorem isTerminating_of_markTerminating {ts : String}
    (h : isTerminating (markTerminating ts pd) = false) : isTerminating pd = false := by
  unfold markTerminating modifyField at h
  cases hm : pd.get "metadata" with
  | none =>
    rw [isTerminating, pointer_pair, hm]
    rfl
  | some md =>
    cases pd with
    | obj fs =>
      cases md with
      | obj f' =>
        simp only [hm, isTerminating, pointer_pair, get_insertField_self, bind_some] at h
        cases h
      | _ =>
        rw [isTerminating, pointer_pair, hm]
        rfl
    | _ => cases hm

theorem declines_terminate (pods : StoredPods) (podName ts : String) :
    Declines pods.rows (pods.updateWhere (fun pod => objectName pod = some podName) (markTerminating ts)
      (objectName_markTerminating ts)).rows := by
  refine declines_updateWhere fun pod _ _ pb => ?_
  have hl : labelsOf (markTerminating ts pod) = labelsOf pod := by
    rw [labelsOf, pointer_markTerminating ts pod (by decide), labelsOf]
  refine ⟨podMatchesSelector_labels hl, fun hc => ?_⟩
  simp only [isCounted, podMatchesSelector_labels hl, isPodHealthy_markTerminating, and_eq_true, not_eq_true'] at hc ⊢
  exact ⟨hc.1, isTerminating_of_markTerminating hc.2⟩

theorem declines_setPodStatus (hq : NoneBecomesHealthy world (.setPodStatus pn st)) :
    Declines world.pods.rows (world.pods.updateWhere (fun pod => objectName pod = some pn)
      (·.insertField "status" st) fun _ => objectName_insertField (by decide)).rows := by
  refine declines_updateWhere fun pod hp hn pb => ?_
  have hm : (pod.insertField "status" st).get "metadata" = pod.get "metadata" :=
    get_insertField_ne pod st (by decide)
  have hl : labelsOf (pod.insertField "status" st) = labelsOf pod := by
    simp [labelsOf, pointer_pair, hm]
  have hh := hq pod (find_eq_some_iff.2 ⟨hp, of_decide_eq_true hn⟩)
  refine ⟨podMatchesSelector_labels hl, fun hc => ?_⟩
  simp only [isCounted, podMatchesSelector_labels hl, isTerminating, pointer_pair, hm, and_eq_true] at hc ⊢
  exact ⟨⟨hc.1.1, hh hc.1.2⟩, hc.2⟩

theorem inv_step {act : Action} (hq : NoneBecomesHealthy world act) (h : ∃ row, Inv terms row world) :
    ∃ row, Inv terms row (step world act) := by
  obtain ⟨row, h⟩ := h
  cases act with
  | reconcile i nm nw =>
    refine ⟨row, ?_⟩
    rw [step]
    split
    · exact h.setTask i fun tk ht => (by obtain rfl := Option.some.inj ht; trivial)
    · exact h
  | evict i pn nw dr => exact ⟨row, h.startEviction i pn nw dr⟩
  | advance i =>
    rw [step]
    cases ht : world.tasks i with
    | none => exact ⟨row, h⟩
    | some tk => exact h.advance i (h.tasks i tk ht)
  | abort i => exact ⟨row, h.endTask i⟩
  | terminate pn ts => exact ⟨row, h.decline (declines_terminate world.pods pn ts)⟩
  | setPodStatus pn st => exact ⟨row, h.decline (declines_setPodStatus hq)⟩
  | disappear pn => exact ⟨row, h.decline (declines_deleteWhere world.pods _)⟩

end Steps

/-! ## Evictions of one pod -/

/-- The pod of an eviction under way, dry runs apart. -/
def Task.evicting : Task → Option Json
  | .admitting pod _ _ false | .reserving pod _ _ false _ _ | .rereading pod _ _ false _ _ => some pod
  | _ => none

/-- No healthy pod is evicted that has run to its end, and no eviction of one goes on once it is let go. -/
def EvictsOnce (pdb : Json) (world : World) : Action → Prop
  | .evict _ podName _ false => ∀ pod ∈ world.pods.find (some podName), isCounted pdb pod = true →
      canIgnorePdbForEviction pod = false
  | .advance i => ∀ pod ∈ (world.tasks i).bind Task.evicting, isCounted pdb pod = true →
      objectName pod ∉ world.admitted.map objectName
  | _ => True

instance (pdb : Json) (world : World) (action : Action) : Decidable (EvictsOnce pdb world action) := by
  unfold EvictsOnce
  split <;> infer_instance

/-- The healthy pods that are let go, or are to be, are charged to the budget, and no two that are let go have one
name. -/
structure Once (pdb : Json) (world : World) : Prop where
  charged : ∀ pod ∈ world.admitted, isCounted pdb pod = true → isCharged pdb pod = true
  pending : ∀ i pod, (world.tasks i).bind Task.evicting = some pod → canIgnorePdbForEviction pod = false
  nodup : ((world.admitted.filter (isCounted pdb)).map objectName).Nodup

section Once

variable {pdb : Json}

theorem isCharged_of_isCounted (hc : isCounted pdb pod) (hi : canIgnorePdbForEviction pod = false) :
    isCharged pdb pod := by
  simp only [isCounted, isCharged, and_eq_true] at hc ⊢
  exact ⟨hc.1, by simp [hi]⟩

theorem Once.setTask (h : Once pdb world) (i : Nat) {task : Option Task}
    (ht : ∀ pod, task.bind Task.evicting = some pod → canIgnorePdbForEviction pod = false) :
    Once pdb (world.setTask i task) := by
  refine ⟨h.charged, fun j pd hp => ?_, h.nodup⟩
  by_cases hj : j = i
  · exact ht pd (by simpa [World.setTask, hj] using hp)
  · exact h.pending j pd (by simpa [World.setTask, hj] using hp)

theorem Once.endTask (h : Once pdb world) (i : Nat) : Once pdb (world.setTask i none) := h.setTask i nofun

theorem Once.writePdbs (h : Once pdb world) (pdbs : StoredPdbs) : Once pdb { world with pdbs := pdbs } :=
  ⟨h.charged, h.pending, h.nodup⟩

/-- A pod is let go that is charged and not let go yet, if it is healthy. -/
theorem Once.allow (h : Once pdb world) (dryRun : Bool) (hc : dryRun = false → isCounted pdb pod = true →
      isCharged pdb pod = true ∧ objectName pod ∉ world.admitted.map objectName) :
    Once pdb (world.allow pod dryRun) := by
  cases dryRun with
  | true => exact h
  | false =>
    refine ⟨forall_mem_cons.2 ⟨fun hct => (hc rfl hct).1, h.charged⟩, h.pending, ?_⟩
    change (map objectName (filter (isCounted pdb) (pod :: world.admitted))).Nodup
    rw [filter_cons]
    split
    · rename_i hct
      exact nodup_cons.2 ⟨fun hm => (hc rfl hct).2 ((filter_sublist.map objectName).subset hm), h.nodup⟩
    · exact h.nodup

theorem decideEviction_dryRun {pdb : Json} : decideEviction pod podName true nw pdb ≠ some (.reserve st) := by
  intro h
  obtain ⟨pdbName, -, h⟩ := bind_eq_some_iff.1 h
  dsimp only at h
  repeat' split at h
  all_goals simp_all

theorem Once.reserve (h : Once pdb world) {i attempts : Nat} {dryRun : Bool} {copy : StoredPdb}
    (hi : dryRun = false → canIgnorePdbForEviction pod = false)
    (hc : dryRun = false → isCounted pdb pod = true → objectName pod ∉ world.admitted.map objectName) :
    Once pdb (world.reserve i pod podName nw dryRun copy attempts) := by
  unfold World.reserve
  split
  · exact (h.allow dryRun fun hr hct => ⟨isCharged_of_isCounted hct (hi hr), hc hr hct⟩).endTask i
  · rename_i status pdbName hd hn
    have hreal : dryRun = false := by
      cases dryRun with
      | false => rfl
      | true => exact absurd hd decideEviction_dryRun
    split
    · rename_i written hw
      obtain ⟨stored, -, -, rfl⟩ := updateStatus_written hw
      refine ((h.writePdbs _).allow false fun _ hct => ?_).endTask i
      exact ⟨isCharged_of_isCounted hct (hi hreal), hc hreal hct⟩
    · cases attempts with
      | zero => exact h.endTask i
      | succ attempts =>
        refine h.setTask i fun pd heq => ?_
        subst hreal
        cases heq
        exact hi rfl
    · exact h.endTask i
  · exact h.endTask i

theorem Once.advance (h : Once pdb world) {i : Nat} {task : Task} (ht : world.tasks i = some task)
    (hfirst : EvictsOnce pdb world (.advance i)) : Once pdb (world.advance i task) := by
  have hi : ∀ pd, task.evicting = some pd → canIgnorePdbForEviction pd = false := fun pd hp =>
    h.pending i pd (by rw [ht]; exact hp)
  have hc : ∀ pd, task.evicting = some pd → isCounted pdb pd = true → objectName pd ∉ world.admitted.map objectName :=
    fun pd hp => hfirst pd (by rw [ht]; exact hp)
  cases task with
  | reconciling name now attempts =>
    cases attempts with
    | zero => exact h.endTask i
    | succ attempts =>
      refine h.setTask i fun pd hp => ?_
      cases hf : world.pdbs.find (some name) <;> rw [hf] at hp <;> cases hp
  | listing name now current attempts =>
    rw [World.advance, World.computeStatus]
    split
    · exact h.endTask i
    · split <;> exact h.setTask i nofun
  | writing name now current status attempts =>
    rw [World.advance]
    split
    · rename_i written hw
      obtain ⟨stored, -, -, rfl⟩ := updateStatus_written hw
      exact (h.writePdbs _).endTask i
    · exact h.setTask i nofun
    · exact h.endTask i
  | admitting pd podName now dryRun =>
    rw [World.advance, World.selectPdb]
    split
    · refine (h.allow dryRun fun hr hct => ?_).endTask i
      subst hr
      exact ⟨isCharged_of_isCounted hct (hi pd rfl), hc pd rfl hct⟩
    · cases dryRun with
      | true => exact h.setTask i nofun
      | false => exact h.setTask i hi
    · exact h.endTask i
  | reserving pd podName now dryRun copy attempts =>
    exact h.reserve (fun hr => hi pd (by rw [hr]; rfl)) fun hr => hc pd (by rw [hr]; rfl)
  | rereading pd podName now dryRun pdbName attempts =>
    refine h.setTask i fun pd' heq => ?_
    cases hf : world.pdbs.find (some pdbName) with
    | none => rw [hf] at heq; cases heq
    | some copy =>
      rw [hf] at heq
      cases dryRun with
      | true => cases heq
      | false => exact hi pd' heq

theorem Once.startEviction (h : Once pdb world) {i : Nat} {dryRun : Bool}
    (hfirst : EvictsOnce pdb world (.evict i podName nw dryRun)) :
    Once pdb (world.startEviction i podName nw dryRun) := by
  unfold World.startEviction
  split
  · rename_i pd ht hf
    split
    · rename_i hig
      refine h.allow dryRun fun hr hct => ?_
      subst hr
      cases hig.symm.trans (hfirst pd hf hct)
    · rename_i hig
      refine h.setTask i fun pd' heq => ?_
      cases dryRun with
      | true => cases heq
      | false =>
        cases heq
        simpa using hig
  · exact h

theorem Once.step {action : Action} (hfirst : EvictsOnce pdb world action) (h : Once pdb world) :
    Once pdb (step world action) := by
  cases action with
  | reconcile i name now =>
    rw [Disruption.step]
    split
    · exact h.setTask i nofun
    · exact h
  | evict => exact h.startEviction hfirst
  | advance i =>
    rw [Disruption.step]
    cases ht : world.tasks i with
    | none => exact h
    | some task => exact h.advance ht hfirst
  | abort i => exact h.endTask i
  | _ => exact ⟨h.charged, h.pending, h.nodup⟩

/-- Then the healthy pods that are let go are as many as their names. -/
theorem Once.length_eq (h : Once pdb world) :
    (world.admitted.filter (isCounted pdb)).length = (world.evicted pdb).card := by
  have hf : world.admitted.filter (isCounted pdb) = world.admitted.filter (isCharged pdb) := by
    refine filter_congr fun pd hp => ?_
    exact Bool.eq_iff_iff.2 ⟨h.charged pd hp, isCounted_of_isCharged⟩
  have hn := h.nodup
  rw [hf] at hn
  rw [World.evicted, toFinset_card_of_nodup hn, length_map, hf]

end Once

/-- No call is under way, no pod has been let go, and a reconcile would find the status of the budget as it computes
it. -/
structure UpToDate (world : World) (name : String) (pdb : StoredPdb) (spec status : Json) : Prop where
  idle : ∀ i, world.tasks i = none
  fresh : world.admitted = []
  stored : world.pdbs.find (some name) = some pdb
  hasSpec : pdb.value.get "spec" = some spec
  hasStatus : pdb.value.get "status" = some status
  computed : ∃ now, reconciledStatus pdb.value world.pods.rows now = some status

section Start

variable {world : World} {name : String} {pdb pb : StoredPdb} {spec sp status st : Json} {h d : Int}

theorem UpToDate.inv (hs : UpToDate world name pb sp st) (hh : st.get "currentHealthy" = some (.num h))
    (hd : st.get "desiredHealthy" = some (.num d)) (hst : ∀ n : Nat, n ≤ world.pods.rows.length →
      d ≤ computeDesiredHealthy sp n ∧ computeDesiredHealthy sp n ≤ 2 ^ 63 - 2000) :
    ∃ terms : Terms, terms.pdb = pb.value ∧ terms.limit = max 0 (h - d) ∧ Inv terms pb world := by
  obtain ⟨nw, hc⟩ := hs.computed
  have hk : pb.name = some name := find_key hs.stored
  have hn : (objectName pb.value).isSome := isSome_of_eq_some hk
  obtain ⟨expected, hw⟩ := reconciled hc hn hs.hasSpec
  obtain rfl : h = (world.pods.rows.filter (isCounted pb.value)).length :=
    num.inj (Option.some.inj (hh.symm.trans hw.currentHealthy))
  obtain rfl : d = computeDesiredHealthy sp expected :=
    num.inj (Option.some.inj (hd.symm.trans hw.desiredHealthy))
  have hr := card_names world.pods.nodup (isCounted pb.value)
  set counted := world.pods.rows.filter (isCounted pb.value)
  have ho : world.evicted pb.value = ∅ := by simp [World.evicted, hs.fresh]
  -- the stored status is the computed one
  have heq : (withStatus pb.value st).get "status" = pb.value.get "status" :=
    (get_withStatus st hn).trans hs.hasStatus.symm
  have hi : disruptedPodsOf (withStatus pb.value st) = disruptedPodsOf pb.value := by
    simp [disruptedPodsOf, pointer_pair, heq]
  have ha := hw.allowed
  rw [hi, i64At, pointer_pair, heq, ← pointer_pair] at ha
  refine ⟨⟨name, pb.value, sp, (counted.map objectName).toFinset, world.pods.rows.length,
    computeDesiredHealthy sp expected, max 0 (counted.length - computeDesiredHealthy sp expected), hk, hs.hasSpec,
    by omega, hst⟩, rfl, rfl, ?_⟩
  refine ⟨hs.stored, .refl _ _, le_rfl, fun pd hp hct => ?_, ?_, ?_, ⟨?_, fun hf => ?_⟩, ?_⟩
  · exact mem_toFinset.2 (mem_map_of_mem (mem_filter.2 ⟨hp, hct⟩))
  · rw [ho]
    exact Finset.empty_subset _
  · rw [ho]
    exact Int.le_max_left _ _
  · intro pd _ hg
    rw [ho] at hg
    exact absurd hg (Finset.notMem_empty _)
  · obtain ⟨-, hfi⟩ := hst expected hw.expected_le
    have hle : disruptionsAllowedFor counted.length (computeDesiredHealthy sp expected) (disruptedPodsOf pb.value) ≤
        max 0 (counted.length - computeDesiredHealthy sp expected) := by
      apply disruptionsAllowedFor_le <;> omega
    rw [ho, i64At, ha]
    simpa using hle
  · intro i tk ht
    rw [hs.idle i] at ht
    cases ht

/-- **The budget is kept.** If the number of pods that the budget wants does not fall below what it wants at the start
when it expects fewer pods, and no eviction of a healthy pod goes on once it is let go, then the evictions of healthy
pods it admits are no more than the pods it has above that number. -/
theorem budget_kept {actions : List Action} (hstart : UpToDate world name pdb spec status)
    (hh : status.get "currentHealthy" = some (.num h)) (hd : status.get "desiredHealthy" = some (.num d))
    (hsteady : ∀ n : Nat, n ≤ world.pods.rows.length →
      d ≤ computeDesiredHealthy spec n ∧ computeDesiredHealthy spec n ≤ 2 ^ 63 - 2000)
    (hquiet : Along step NoneBecomesHealthy world actions)
    (honce : Along step (EvictsOnce pdb.value) world actions) :
    ((actions.foldl step world).admitted.filter (isCounted pdb.value)).length ≤ max 0 (h - d) := by
  obtain ⟨terms, hp, hl, hi⟩ := hstart.inv hh hd hsteady
  obtain ⟨row, he⟩ := hquiet.invariant (I := fun world => ∃ row, Inv terms row world)
    (fun _ _ _ hquiet h => inv_step hquiet h) ⟨pdb, hi⟩
  have hfresh : Once pdb.value world := ⟨by simp [hstart.fresh], by simp [hstart.idle], by simp [hstart.fresh]⟩
  rw [(honce.invariant (fun _ _ _ hf ho => ho.step hf) hfresh).length_eq, ← hp, ← hl]
  exact he.spent

end Start

def samplePod (name : String) : Json :=
  .obj [("metadata", .obj [("labels", .obj [("app", .str "web")]), ("name", .str name)]),
    ("status", .obj [("conditions", .arr [.obj [("status", .str "True"), ("type", .str "Ready")]]),
      ("phase", .str "Running")])]

def samplePods : StoredPods := ⟨["a", "b", "c"].map samplePod, by decide +kernel⟩

def sampleSpec (field : String) (count : Int) : Json :=
  .obj [(field, .num count), ("selector", .obj [("matchLabels", .obj [("app", .str "web")])])]

def samplePdb (spec status : Json) : StoredPdb :=
  ⟨.obj [("metadata", .obj [("name", .str "web")]), ("spec", spec), ("status", status)], 7⟩

def sampleStatus (spec : Json) : Json := (reconciledStatus (samplePdb spec .null).value samplePods.rows "t").getD .null

def sampleWorld (spec : Json) : World :=
  ⟨⟨[samplePdb spec (sampleStatus spec)], nodup_singleton _⟩, samplePods, fun _ => none, []⟩

/-- One pod is evicted and goes, the budget is reconciled, and another pod is evicted. -/
def evictTwo : List Action :=
  [.evict 0 "a" "t" false, .advance 0, .advance 0, .terminate "a" "t", .disappear "a", .reconcile 1 "web" "t",
    .advance 1, .advance 1, .advance 1, .evict 0 "b" "t" false, .advance 0, .advance 0]

theorem upToDate_sampleWorld {spec : Json} (ho : reconciledStatus (samplePdb spec (sampleStatus spec)).value
    samplePods.rows "t" = some (sampleStatus spec)) :
    UpToDate (sampleWorld spec) "web" (samplePdb spec (sampleStatus spec)) spec (sampleStatus spec) where
  idle _ := rfl
  fresh := rfl
  stored := rfl
  hasSpec := rfl
  hasStatus := rfl
  computed := ⟨"t", ho⟩

theorem along_evictTwo (world : World) : Along step NoneBecomesHealthy world evictTwo := by
  simp [evictTwo, Along, NoneBecomesHealthy]

/-- With `minAvailable` 2 of three pods, one pod goes. -/
theorem budget_kept_minAvailable : (((evictTwo.foldl step (sampleWorld (sampleSpec "minAvailable" 2))).admitted.filter
      (isCounted (samplePdb (sampleSpec "minAvailable" 2) (sampleStatus (sampleSpec "minAvailable" 2))).value)).length :
        Int) ≤ max 0 (3 - 2) :=
  budget_kept (upToDate_sampleWorld (by decide +kernel)) (by decide +kernel) (by decide +kernel)
    (fun _ _ => ⟨(by decide : (2 : Int) ≤ 2), (by decide : (2 : Int) ≤ 2 ^ 63 - 2000)⟩) (along_evictTwo _)
    (by decide +kernel)

/-- With `maxUnavailable` 1 of three pods, two go: once the first is gone, the budget expects two pods and wants one. -/
theorem budget_overspent : ∃ (world : World) (actions : List Action) (name : String) (pdb : StoredPdb)
    (spec status : Json) (h d : Int), UpToDate world name pdb spec status ∧
      status.get "currentHealthy" = some (.num h) ∧ status.get "desiredHealthy" = some (.num d) ∧
      Along step NoneBecomesHealthy world actions ∧
      max 0 (h - d) < ((actions.foldl step world).admitted.filter (isCounted pdb.value)).length :=
  ⟨sampleWorld (sampleSpec "maxUnavailable" 1), evictTwo, "web", _, _, _, 3, 2,
    upToDate_sampleWorld (by decide +kernel), by decide +kernel, by decide +kernel, along_evictTwo _, by decide +kernel⟩

end Klights.Disruption
