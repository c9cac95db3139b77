import Mathlib.Data.List.MinMax

/-!
# The route inventory

Services, Endpoints and EndpointSlices as watch events leave them (`service_routing/inventory.rs`). An EndpointSlice is
kept in the entry of the Service that its label names. A deletion forgets the version that late events are compared
with, the deletion of a Service drops the whole entry, and a slice with a new label stays in the entry of the old one.
`inventory_keeps_newest`: the newest events are held, if nothing late follows a deletion, a Service goes last and labels
do not change.
-/

namespace Klights.Network

open Function List

inductive InventoryObject where
  | service
  | endpoints
  | endpointSlice (name : String)
  deriving DecidableEq

/-- The content and version of each object; an EndpointSlice that is not in the map has no content. -/
abbrev ServiceInventoryEntry (V : Type) := InventoryObject → Option V × Int

inductive InventoryApply where
  | applied
  | noChange
  | removed

abbrev ServiceRouteInventory (V : Type) := String × String → Option (ServiceInventoryEntry V)

section Apply

variable {V : Type} (inv : ServiceRouteInventory V) (key : String × String) (object : InventoryObject) (rv : Int)
  (deleted : Bool) (data : Option V)

def entryMut : ServiceInventoryEntry V := (inv key).getD fun _ => (none, 0)

/-- Only the version of a stored EndpointSlice is looked at. -/
def stale (held : Option V × Int) : Bool :=
  rv ≤ held.2 && match object with
    | .endpointSlice _ => held.1.isSome
    | _ => true

def removeObject : InventoryApply × ServiceRouteInventory V :=
  match inv key with
  | some entry =>
    if stale object rv (entry object) then (.noChange, inv)
    else (if (entry object).1.isSome then .removed else .noChange,
      update inv key (some (update entry object (none, 0))))
  | none => (.noChange, inv)

def putObject : InventoryApply × ServiceRouteInventory V :=
  let entry := entryMut inv key
  if stale object rv (entry object) then (.noChange, update inv key entry)
  else (.applied, update inv key (some (update entry object (data, rv))))

def applyServiceEvent : InventoryApply × ServiceRouteInventory V :=
  if deleted then
    match inv key with
    | some entry =>
      if stale .service rv (entry .service) then (.noChange, inv) else (.removed, update inv key none)
    | none => (.noChange, inv)
  else putObject inv key .service rv data

def applyEndpointsEvent : InventoryApply × ServiceRouteInventory V :=
  if deleted then removeObject inv key .endpoints rv else putObject inv key .endpoints rv data

def applyEndpointSliceEvent (name : String) : InventoryApply × ServiceRouteInventory V :=
  if deleted then removeObject inv key (.endpointSlice name) rv
  else if data.isSome then putObject inv key (.endpointSlice name) rv data
  else (.noChange, update inv key (entryMut inv key))

end Apply

/-- A watch event, with the Service whose entry it goes to: its own, or for an EndpointSlice the one its label names. -/
structure InventoryEvent (V : Type) where
  service : String × String
  object : InventoryObject
  rv : Int
  deleted : Bool
  data : Option V

/-- The object of a slot of an entry. The namespace and the name of an EndpointSlice do not tell its Service. -/
def objectAt (service : String × String) : InventoryObject → InventoryObject × String × String
  | .endpointSlice name => (.endpointSlice name, service.1, name)
  | object => (object, service)

namespace InventoryEvent

variable {V : Type} {inv i : ServiceRouteInventory V} {e c : InventoryEvent V} {ds : List (InventoryEvent V)}
  {k : String × String} {o : InventoryObject}

def apply (inv : ServiceRouteInventory V) (e : InventoryEvent V) : ServiceRouteInventory V :=
  match e.object with
  | .service => (applyServiceEvent inv e.service e.rv e.deleted e.data).2
  | .endpoints => (applyEndpointsEvent inv e.service e.rv e.deleted e.data).2
  | .endpointSlice name => (applyEndpointSliceEvent inv e.service e.rv e.deleted e.data name).2

/-- The object an event is about. -/
def identity (e : InventoryEvent V) : InventoryObject × String × String := objectAt e.service e.object

def content (e : InventoryEvent V) : Option V := if e.deleted then none else e.data

def put (e : InventoryEvent V) (held : Option V × Int) : Option V × Int :=
  if stale e.object e.rv held then held else if e.deleted then (none, 0) else (e.data, e.rv)

theorem entryMut_update (entry : Option (ServiceInventoryEntry V)) (key : String × String) :
    entryMut (update i key entry) k = if k = key then entry.getD fun _ => (none, 0) else entryMut i k := by
  by_cases h : k = key <;> simp [entryMut, h]

theorem entryMut_put (key : String × String) (object : InventoryObject) (rv : Int) (data : Option V) :
    entryMut (putObject i key object rv data).2 k o =
      if k = key ∧ o = object then if stale object rv (entryMut i k o) then entryMut i k o else (data, rv)
      else entryMut i k o := by
  unfold putObject
  by_cases hk : k = key
  · subst hk
    by_cases ho : o = object
    · subst ho
      by_cases hs : stale o rv (entryMut i k o) <;> simp [hs, entryMut_update]
    · by_cases hs : stale object rv (entryMut i k object) <;> simp [hs, ho, entryMut_update]
  · by_cases hs : stale object rv (entryMut i key object) <;> simp [hs, hk, entryMut_update]

theorem entryMut_remove (key : String × String) (object : InventoryObject) (rv : Int) :
    entryMut (removeObject i key object rv).2 k o =
      if k = key ∧ o = object then if stale object rv (entryMut i k o) then entryMut i k o else (none, 0)
      else entryMut i k o := by
  unfold removeObject
  cases hi : i key with
  | none =>
    by_cases hk : k = key
    · simp [entryMut, hk, hi]
    · simp [hk]
  | some en =>
    by_cases hk : k = key
    · subst hk
      by_cases ho : o = object
      · subst ho
        by_cases hs : stale o rv (en o) <;> simp [hs, hi, entryMut]
      · by_cases hs : stale object rv (en object) <;> simp [hs, ho, hi, entryMut]
    · by_cases hs : stale object rv (en object) <;> simp [hs, hk, entryMut_update]

theorem entryMut_apply_self (hd : e.deleted = false → e.data.isSome) :
    entryMut (e.apply i) e.service e.object = e.put (entryMut i e.service e.object) := by
  obtain ⟨key, object, rv, dd, data⟩ := e
  cases object with
  | service =>
    cases dd with
    | false => simp [apply, applyServiceEvent, entryMut_put, put]
    | true =>
      simp only [apply, applyServiceEvent, put]
      cases hi : i key with
      | none => simp [entryMut, hi]
      | some en => by_cases hs : stale .service rv (en .service) <;> simp [hs, hi, entryMut]
  | endpoints => cases dd <;> simp [apply, applyEndpointsEvent, entryMut_put, entryMut_remove, put]
  | endpointSlice nm =>
    cases dd with
    | false => simp [apply, applyEndpointSliceEvent, hd rfl, entryMut_put, put]
    | true => simp [apply, applyEndpointSliceEvent, entryMut_remove, put]

theorem entryMut_apply_of_ne (hne : ¬(k = e.service ∧ o = e.object)) (hd : e.deleted = false → e.data.isSome)
    (ha : e.object = .service → e.deleted → k = e.service → entryMut i k o = (none, 0)) :
    entryMut (e.apply i) k o = entryMut i k o := by
  obtain ⟨key, object, rv, dd, data⟩ := e
  cases object with
  | service =>
    cases dd with
    | false => simp_all [apply, applyServiceEvent, entryMut_put]
    | true =>
      simp only [apply, applyServiceEvent]
      cases hi : i key with
      | none => rfl
      | some en =>
        by_cases hk : k = key
        · simp only [if_true]
          split
          · rfl
          · rw [ha rfl rfl hk, entryMut_update, if_pos hk]
            rfl
        · simp only [if_true]
          split <;> simp [entryMut_update, hk]
  | endpoints => cases dd <;> simp_all [apply, applyEndpointsEvent, entryMut_put, entryMut_remove]
  | endpointSlice nm => cases dd <;> simp_all [apply, applyEndpointSliceEvent, entryMut_put, entryMut_remove]

/-- The newest event of a slot of an entry. -/
def newest (ds : List (InventoryEvent V)) (k : String × String) (o : InventoryObject) : Option (InventoryEvent V) :=
  @argmax _ _ Int.instLinearOrder.toPreorder Int.decLt (·.rv) (ds.filter fun e => e.service = k ∧ e.object = o)

/-- The event follows no newer deletion of its object, and the deletion of a Service comes when nothing else is left. -/
structure Timely (before : List (InventoryEvent V)) (e : InventoryEvent V) : Prop where
  pos : 0 < e.rv
  data : e.deleted = false → e.data.isSome
  late : ∀ d ∈ before, d.identity = e.identity → d.deleted → d.rv ≤ e.rv
  alone : e.object = .service → e.deleted → ∀ o ≠ .service, (newest before e.service o).bind content = none

/-- What is held of an object after its newest event. -/
def kept : Option (InventoryEvent V) → Option V × Int
  | some e => if e.deleted then (none, 0) else (e.data, e.rv)
  | none => (none, 0)

theorem newest_snoc_self : newest (ds ++ [e]) e.service e.object = match newest ds e.service e.object with
    | none => some e
    | some c => if c.rv < e.rv then some e else some c := by
  have h : [e].filter (fun d => d.service = e.service ∧ d.object = e.object) = [e] := by simp
  rw [newest, filter_append, h, argmax_concat]
  cases hn : newest ds e.service e.object <;> (rw [newest] at hn; rw [hn])

theorem newest_snoc_of_ne (h : ¬(e.service = k ∧ e.object = o)) : newest (ds ++ [e]) k o = newest ds k o := by
  simp [newest, h]

theorem mem_of_newest (h : newest ds k o = some c) : c ∈ ds ∧ c.service = k ∧ c.object = o := by
  simpa using argmax_mem (Option.mem_def.2 h)

/-- The step: an event in time makes of the newest event what the inventory makes of its content. -/
theorem put_kept (ht : e.Timely ds) (hds : ∀ d ∈ ds, d.deleted = false → d.data.isSome)
    (hone : ∀ d ∈ ds, d.service = e.service → d.object = e.object → d.rv = e.rv → d = e) :
    e.put (kept (newest ds e.service e.object)) = kept (newest (ds ++ [e]) e.service e.object) := by
  have hpos := not_le.2 ht.pos
  rw [newest_snoc_self]
  cases hn : newest ds e.service e.object with
  | none => simp [put, kept, stale, hpos]
  | some c =>
    obtain ⟨hc, hk, ho⟩ := mem_of_newest hn
    cases hd : c.deleted with
    | true =>
      rcases (ht.late c hc (by rw [identity, identity, hk, ho]) hd).lt_or_eq with hlt | heq
      · simp [put, kept, stale, hd, hlt, hpos]
      · obtain rfl := hone c hc hk ho heq
        simp [put, kept, hd]
    | false =>
      have hl : stale e.object e.rv (c.data, c.rv) = decide (e.rv ≤ c.rv) := by
        cases hb : e.object <;> simp [stale, hds c hc hd]
      by_cases hlt : c.rv < e.rv
      · simp [put, kept, hl, hd, hlt, not_le.2 hlt]
      · simp [put, kept, hl, hd, hlt, not_lt.1 hlt]

variable (hone : ∀ d ∈ ds, ∀ e ∈ ds, d.identity = e.identity → d.rv = e.rv → d = e)
  (ht : ∀ before e after, ds = before ++ e :: after → e.Timely before) (k : String × String) (o : InventoryObject)

include hone ht

theorem entryMut_run : entryMut (ds.foldl apply fun _ => none) k o = kept (newest ds k o) := by
  induction ds using List.reverseRecOn generalizing k o with
  | nil => rfl
  | append_singleton ds e ih =>
    have hl : e.Timely ds := ht ds e [] rfl
    have hf : ∀ before d after, ds = before ++ d :: after → d.Timely before := fun before d after h =>
      ht before d (after ++ [e]) (by simp [h])
    have hds : ∀ d ∈ ds, d.deleted = false → d.data.isSome := fun d hd => by
      obtain ⟨before, after, h⟩ := append_of_mem hd
      exact (hf before d after h).data
    specialize ih (fun d hd c hc => hone d (mem_append_left _ hd) c (mem_append_left _ hc)) hf
    rw [foldl_append, foldl_cons, foldl_nil]
    by_cases he : k = e.service ∧ o = e.object
    · obtain ⟨rfl, rfl⟩ := he
      rw [entryMut_apply_self hl.data, ih]
      refine put_kept hl hds fun d hd hs ho => hone d (mem_append_left _ hd) e (by simp) ?_
      rw [identity, identity, hs, ho]
    · rw [newest_snoc_of_ne fun h => he ⟨h.1.symm, h.2.symm⟩, ← ih]
      refine entryMut_apply_of_ne he hl.data fun hs hd hk => ?_
      -- the newest event of an object without content is a deletion
      have hno := hl.alone hs hd o fun ho => he ⟨hk, ho.trans hs.symm⟩
      rw [ih, hk]
      cases hn : newest ds e.service o with
      | none => rfl
      | some c =>
        have ha := hds c (mem_of_newest hn).1
        cases hcd : c.deleted <;> simp_all [kept, content]

theorem entryMut_run_content :
    (entryMut (ds.foldl apply fun _ => none) k o).1 = (newest ds k o).bind content := by
  rw [entryMut_run hone ht]
  cases newest ds k o with
  | none => rfl
  | some e => cases hd : e.deleted <;> simp [kept, content, hd]

omit hone ht

/-- The newest event of an object, whatever entry it goes to. -/
def newestOf (ds : List (InventoryEvent V)) (object : InventoryObject × String × String) : Option (InventoryEvent V) :=
  @argmax _ _ Int.instLinearOrder.toPreorder Int.decLt (·.rv) (ds.filter fun e => e.identity = object)

/-- What a slot keeps of an object that stays in one entry. -/
theorem newest_eq_newestOf (hlabels : ∀ d ∈ ds, ∀ e ∈ ds, d.identity = e.identity → d.service = e.service) :
    newest ds k o = (newestOf ds (objectAt k o)).filter (·.service = k) := by
  have hobject : ∀ e : InventoryEvent V, e.identity = objectAt k o → e.object = o := by
    rintro ⟨service, object, rv, deleted, data⟩ h
    cases object <;> cases o <;> simp_all [identity, objectAt]
  by_cases hslot : ∃ e ∈ ds, e.service = k ∧ e.object = o
  · obtain ⟨e, he, rfl, rfl⟩ := hslot
    have hsame : ∀ d ∈ ds, d.identity = objectAt e.service e.object ↔ d.service = e.service ∧ d.object = e.object :=
      fun d hd => ⟨fun h => ⟨hlabels d hd e he h, hobject d h⟩, fun h => by rw [identity, h.1, h.2]⟩
    have hfilter : ds.filter (fun d => d.identity = objectAt e.service e.object) =
        ds.filter fun d => d.service = e.service ∧ d.object = e.object :=
      filter_congr fun d hd => decide_eq_decide.2 (hsame d hd)
    have hn : newestOf ds (objectAt e.service e.object) = newest ds e.service e.object := by
      rw [newestOf, hfilter, newest]
    rw [hn]
    cases hnew : newest ds e.service e.object with
    | none => rfl
    | some c => simp [Option.filter_some, (mem_of_newest hnew).2.1]
  · have hnone : newest ds k o = none :=
      Option.eq_none_iff_forall_ne_some.2 fun c hc => hslot ⟨c, (mem_of_newest hc).1, (mem_of_newest hc).2⟩
    rw [hnone]
    refine (Option.filter_eq_none_iff.2 fun c hc hk => hslot ⟨c, ?_⟩).symm
    have hm : c ∈ ds.filter fun e => e.identity = objectAt k o := argmax_mem (Option.mem_def.2 hc)
    obtain ⟨hmem, hid⟩ := mem_filter.1 hm
    exact ⟨hmem, by simpa using hk, hobject c (by simpa using hid)⟩

include hone ht

/-- **No regress.** The inventory holds of every object the content of its newest event, in the entry of that event's
Service and in no other, if events come in time and EndpointSlices keep their labels. -/
theorem inventory_keeps_newest
    (hlabels : ∀ d ∈ ds, ∀ e ∈ ds, d.identity = e.identity → d.service = e.service) :
    (entryMut (ds.foldl apply fun _ => none) k o).1 =
      ((newestOf ds (objectAt k o)).filter (·.service = k)).bind content := by
  rw [entryMut_run_content hone ht, newest_eq_newestOf k o hlabels]

end InventoryEvent

open InventoryEvent

def webEvent (rv : Int) (deleted : Bool) : InventoryEvent Nat :=
  ⟨("default", "web"), .service, rv, deleted, if deleted then none else some 1⟩

theorem inventory_keeps_newest_web :
    (entryMut ([webEvent 5 false, webEvent 6 true].foldl apply fun _ => none) ("default", "web") .service).1 =
      none := by
  refine (inventory_keeps_newest ?_ ?_ _ _ ?_).trans rfl
  · simp [webEvent]
  · rintro (- | ⟨a, - | ⟨b, before⟩⟩) e after h <;> simp at h
    · obtain ⟨rfl, -⟩ := h
      exact ⟨by decide, by decide, by simp, by simp [webEvent]⟩
    · obtain ⟨rfl, rfl, -⟩ := h
      exact ⟨by decide, by decide, by simp [webEvent], fun _ _ o ho => by simp [newest, webEvent, ho.symm]⟩
  · simp [webEvent]

def sliceEvent (service : String) (rv : Int) (deleted : Bool) : InventoryEvent Nat :=
  ⟨("default", service), .endpointSlice "s", rv, deleted, if deleted then none else some 1⟩

/-- An update that comes after a newer deletion brings the Service back, and an EndpointSlice that is relabelled and
deleted stays in the entry of its first Service. -/
theorem late_update_applied :
    ((entryMut ([webEvent 6 true, webEvent 5 false].foldl apply fun _ => none) ("default", "web") .service).1 = some 1 ∧
      (newestOf [webEvent 6 true, webEvent 5 false] (objectAt ("default", "web") .service)).bind content = none) ∧
      let relabelled := [sliceEvent "a" 5 false, sliceEvent "b" 6 false, sliceEvent "b" 7 true]
      (entryMut (relabelled.foldl apply fun _ => none) ("default", "a") (.endpointSlice "s")).1 = some 1 ∧
        (newestOf relabelled (objectAt ("default", "a") (.endpointSlice "s"))).bind content = none :=
  ⟨⟨rfl, rfl⟩, rfl, rfl⟩

end Klights.Network
