import Klights.Command
import Klights.Lib.Bytes

/-!
# Resource keys of the redb backend

Composite keys as bytes (`redb/key_codec.rs`): each component is written with one length byte and cut at 255 bytes.

- `resourceKey`, `decodeResourceKey`;
- `resourceKey_eq_iff`: two identities share a key exactly when their components agree up to the cut;
- `decode_eq_self_iff`: an identity is read back exactly when nothing was cut;
- `resource_key_iff`.
-/

namespace Klights.Store

open Lib List Option

/-! ## The codec -/

def pushStr (buf : List UInt8) (s : String) : List UInt8 :=
  let len := min (utf8Bytes s).length 255
  buf ++ [UInt8.ofNat len] ++ (utf8Bytes s).take len

variable (key : ResourceKey)

/-- The key of an identity in the table of its scope. -/
def resourceKey : List UInt8 :=
  let buf := pushStr [] key.apiVersion
  let buf := pushStr buf key.kind
  let buf := match key.ns with
    | some ns => pushStr buf ns
    | none => buf
  pushStr buf key.name

def popStr (data : List UInt8) : Option (String × List UInt8) :=
  match data with
  | [] => none
  | len :: rest =>
    if rest.length < len.toNat then none
    else (ofUtf8Bytes (rest.take len.toNat)).map fun s => (s, rest.drop len.toNat)

/-- Read a key back; the table it comes from says whether it has a namespace. -/
def decodeResourceKey (key : List UInt8) (namespaced : Bool) : Option ResourceKey := do
  let (apiVersion, rest) ← popStr key
  let (kind, rest) ← popStr rest
  let (ns, rest) ← if namespaced then (popStr rest).map fun parts => (some parts.1, parts.2) else some (none, rest)
  let (name, _) ← popStr rest
  return ⟨apiVersion, kind, ns, name⟩

/-! ## Components -/

def components : List String := [key.apiVersion, key.kind] ++ key.ns.toList ++ [key.name]

/-- No component is cut. -/
def Fits : Prop := ∀ component ∈ components key, component.utf8ByteSize ≤ 255

instance (key : ResourceKey) : Decidable (Fits key) :=
  inferInstanceAs (Decidable (∀ component ∈ components key, component.utf8ByteSize ≤ 255))

def kept (component : String) : List UInt8 := (utf8Bytes component).take 255

theorem kept_eq_iff (c : String) : kept c = utf8Bytes c ↔ c.utf8ByteSize ≤ 255 := by
  rw [kept, take_eq_self_iff, length_utf8Bytes]

theorem pushStr_eq (b : List UInt8) (s : String) : pushStr b s = b ++ frame (utf8Bytes s) := by
  simp [pushStr, frame]

theorem popStr_eq (d : List UInt8) : popStr d = (unframe d).bind fun p => (ofUtf8Bytes p.1).map fun s => (s, p.2) := by
  cases d with
  | nil => rfl
  | cons ln tl =>
    rw [popStr, unframe]
    split <;> rfl

theorem resourceKey_eq : resourceKey key = (components key).flatMap fun s => frame (utf8Bytes s) := by
  unfold resourceKey components
  cases key.ns <;> simp [pushStr_eq]

theorem popStr_bind {α : Type} (s : String) (tl : List UInt8) (n : String × List UInt8 → Option α) :
    (popStr (frame (utf8Bytes s) ++ tl)).bind n = (ofUtf8Bytes (kept s)).bind fun tx => n (tx, tl) := by
  rw [popStr_eq, unframe_frame]
  exact bind_map

theorem resourceKey_eq_iff (key o : ResourceKey) :
    resourceKey key = resourceKey o ↔ (components key).map kept = (components o).map kept := by
  have hk : ∀ te : List String, (te.map utf8Bytes).map (List.take 255) = te.map kept :=
    fun te => map_map
  have hf : ∀ te : List String, (te.flatMap fun s => frame (utf8Bytes s)) =
      (te.map utf8Bytes).flatMap frame := fun te => (flatMap_map ..).symm
  rw [resourceKey_eq, resourceKey_eq, hf, hf, flatMap_frame_inj, hk, hk]

/-! ## Reading back -/

theorem ofUtf8Bytes_kept (c : String) : ofUtf8Bytes (kept c) = some c ↔ c.utf8ByteSize ≤ 255 := by
  rw [← kept_eq_iff]
  constructor
  · intro h
    exact (utf8Bytes_of_ofUtf8Bytes h).symm
  · intro h
    rw [h, ofUtf8Bytes_utf8Bytes]

theorem decode_resourceKey : decodeResourceKey (resourceKey key) key.ns.isSome =
      (ofUtf8Bytes (kept key.apiVersion)).bind fun av => (ofUtf8Bytes (kept key.kind)).bind fun kd =>
        (key.ns.elim (some none) fun ns => (ofUtf8Bytes (kept ns)).map some).bind fun ns =>
          (ofUtf8Bytes (kept key.name)).map fun nm => ⟨av, kd, ns, nm⟩ := by
  rw [resourceKey_eq]
  obtain ⟨av, kd, ns, nm⟩ := key
  unfold decodeResourceKey components
  cases ns with
  | none =>
    simp only [Option.toList_none, cons_append, nil_append, flatMap_cons,
      flatMap_nil, Option.bind_eq_bind, Option.map_eq_bind, Option.bind_some, Option.pure_def, popStr_bind,
      Option.isSome_none, Bool.false_eq_true, if_false, Option.elim_none, Function.comp_def]
  | some ns =>
    simp only [Option.toList_some, cons_append, nil_append, flatMap_cons, flatMap_nil,
      Option.bind_eq_bind, Option.map_eq_bind, Option.bind_assoc, Option.bind_some, Option.pure_def, popStr_bind,
      Option.isSome_some, if_true, Option.elim_some, Function.comp_def]

theorem decode_eq_self_iff : decodeResourceKey (resourceKey key) key.ns.isSome = some key ↔ Fits key := by
  rw [decode_resourceKey]
  unfold Fits components
  obtain ⟨av, kd, ns, nm⟩ := key
  cases ns with
  | none =>
    simp only [bind_eq_some_iff, map_eq_some_iff, ResourceKey.mk.injEq, elim_none]
    constructor
    · rintro ⟨_, ha, _, hki, _, -, _, hn, rfl, rfl, rfl, rfl⟩
      simp [(ofUtf8Bytes_kept _).1 ha, (ofUtf8Bytes_kept _).1 hki, (ofUtf8Bytes_kept _).1 hn]
    · intro hf
      exact ⟨_, (ofUtf8Bytes_kept _).2 (hf _ (by simp)), _, (ofUtf8Bytes_kept _).2 (hf _ (by simp)), _, rfl,
        _, (ofUtf8Bytes_kept _).2 (hf _ (by simp)), rfl, rfl, rfl, rfl⟩
  | some ns =>
    simp only [bind_eq_some_iff, map_eq_some_iff, ResourceKey.mk.injEq, elim_some]
    constructor
    · rintro ⟨_, ha, _, hki, _, ⟨_, hns, hso⟩, _, hn, rfl, rfl, rfl, rfl⟩
      cases hso
      simp [(ofUtf8Bytes_kept _).1 ha, (ofUtf8Bytes_kept _).1 hki, (ofUtf8Bytes_kept _).1 hns,
        (ofUtf8Bytes_kept _).1 hn]
    · intro hf
      exact ⟨_, (ofUtf8Bytes_kept _).2 (hf _ (by simp)), _, (ofUtf8Bytes_kept _).2 (hf _ (by simp)), _,
        ⟨_, (ofUtf8Bytes_kept _).2 (hf _ (by simp)), rfl⟩, _, (ofUtf8Bytes_kept _).2 (hf _ (by simp)), rfl,
        rfl, rfl, rfl⟩

/-! ## Distinct identities -/

theorem components_inj {key other : ResourceKey} (h : components key = components other) : key = other := by
  obtain ⟨av, kd, ns, nm⟩ := key
  obtain ⟨a', kd', n', nm'⟩ := other
  cases ns with
  | none =>
    cases n' with
    | none => simpa [components] using h
    | some n' => simp [components] at h
  | some ns =>
    cases n' with
    | none => simp [components] at h
    | some n' => simpa [components] using h

theorem Fits.map_kept {key : ResourceKey} (h : Fits key) : (components key).map kept = (components key).map utf8Bytes :=
  map_congr_left fun co hc => (kept_eq_iff co).2 (h co hc)

theorem resourceKey_inj {key other : ResourceKey} (hk : Fits key) (ho : Fits other)
    (h : resourceKey key = resourceKey other) : key = other := by
  rw [resourceKey_eq_iff, hk.map_kept, ho.map_kept] at h
  exact components_inj (map_injective_iff.2 (fun _ _ => utf8Bytes_inj.1) h)

/-- An identity is read back from its key exactly when no component is longer than 255 bytes. Two identities share a key
exactly when their components agree in their first 255 bytes, so those that fit have keys of their own. -/
theorem resource_key_iff (key other : ResourceKey) :
    (decodeResourceKey (resourceKey key) key.ns.isSome = some key ↔ Fits key) ∧
      (resourceKey key = resourceKey other ↔ (components key).map kept = (components other).map kept) ∧
      (Fits key → Fits other → resourceKey key = resourceKey other → key = other) :=
  ⟨decode_eq_self_iff key, resourceKey_eq_iff key other, resourceKey_inj⟩

theorem resource_key_iff_web : decodeResourceKey (resourceKey ⟨"apps/v1", "Deployment", some "prod", "web"⟩) true =
        some ⟨"apps/v1", "Deployment", some "prod", "web"⟩ ∧
      resourceKey ⟨"apps/v1", "Deployment", some "prod", "web"⟩ ≠
        resourceKey ⟨"apps/v1", "Deployment", none, "web"⟩ := by
  have hb := resource_key_iff ⟨"apps/v1", "Deployment", some "prod", "web"⟩ ⟨"apps/v1", "Deployment", none, "web"⟩
  refine ⟨hb.1.2 (by decide), fun hk => ?_⟩
  cases hb.2.2 (by decide) (by decide) hk

def longGroupKey (version : String) : ResourceKey :=
  ⟨String.ofList (List.replicate 253 'g') ++ "/" ++ version, "Widget", some "default", "w"⟩

/-- The key of a long group keeps one byte of its version. -/
theorem versions_share_key :
    longGroupKey "v1" ≠ longGroupKey "v2" ∧ resourceKey (longGroupKey "v1") = resourceKey (longGroupKey "v2") := by
  constructor
  · decide +kernel
  · decide +kernel

end Klights.Store
