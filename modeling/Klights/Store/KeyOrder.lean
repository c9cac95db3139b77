import Klights.Store.ResourceKeys

/-!
# Order and scans of the redb keys

A scan of the redb backend reads the keys from a prefix on, up to the next list of bytes (`redb/key_codec.rs`).

- `scan_exact`: a scan reads the keys of its kind and namespace, and no others of its table;
- `key_order`: keys are in the order of the identities exactly if, of the first components that differ, the one that
  comes first is not the longer one. The length byte is compared before the text.
-/

namespace Klights.Store

open Lib List

/-- The key of a kind and a namespace, without the name. -/
def resourcePrefix (apiVersion kind : String) (ns : Option String) : List UInt8 :=
  let buf := pushStr [] apiVersion
  let buf := pushStr buf kind
  match ns with
  | some ns => pushStr buf ns
  | none => buf

/-- Add one to a number that is given by its bytes, last byte first. -/
def addOne : List UInt8 → Option (List UInt8)
  | [] => none
  | byte :: rest => if byte = 255 then (addOne rest).map (0 :: ·) else some ((byte + 1) :: rest)

def lexNext (key : List UInt8) : Option (List UInt8) := (addOne key.reverse).map reverse

/-- The scan from a prefix reads the key; without a next list of bytes it has no end. -/
def inScan (start key : List UInt8) : Bool := !decide (key < start) && (lexNext start).all (key < ·)

variable {st : List UInt8} {b : UInt8}

theorem lexNext_snoc (hb : b ≠ 255) : lexNext (st ++ [b]) = some (st ++ [b + 1]) := by
  simp [lexNext, addOne, hb]

theorem inScan_snoc (hb : b ≠ 255) (key : List UInt8) : inScan (st ++ [b]) key ↔ st ++ [b] <+: key := by
  rw [← between_iff hb, inScan, lexNext_snoc hb]
  simp

theorem frame_snoc {tx : String} (h : tx.utf8ByteSize ≤ 255) : ∃ l b, frame (utf8Bytes tx) = l ++ [b] ∧ b ≠ 255 := by
  rw [← length_utf8Bytes] at h
  rw [frame, Nat.min_eq_left h, take_length]
  rcases eq_nil_or_concat' (utf8Bytes tx) with hn | ⟨l, b, hl⟩
  · exact ⟨[], 0, by simp [hn], by decide⟩
  · have hm : b ∈ utf8Bytes tx := by simp [hl]
    exact ⟨UInt8.ofNat (utf8Bytes tx).length :: l, b, by rw [cons_append, ← hl], ne_of_mem_utf8Bytes hm⟩

theorem resourcePrefix_eq (av kd : String) (ns : Option String) :
    resourcePrefix av kd ns = ([av, kd] ++ ns.toList).flatMap fun s => frame (utf8Bytes s) := by
  unfold resourcePrefix
  cases ns <;> simp [pushStr_eq]

theorem inScan_frames {t : List String} (hn : t ≠ []) (h : ∀ tx ∈ t, tx.utf8ByteSize ≤ 255)
    (key : List UInt8) : inScan (t.flatMap fun s => frame (utf8Bytes s)) key ↔
      (t.flatMap fun s => frame (utf8Bytes s)) <+: key := by
  obtain ⟨l, tx, rfl⟩ := (eq_nil_or_concat' t).resolve_left hn
  obtain ⟨p, b, hf, hb⟩ := frame_snoc (h tx (by simp))
  rw [flatMap_append, flatMap_cons, flatMap_nil, append_nil, hf, ← append_assoc]
  exact inScan_snoc hb key

/-- **Exact scans.** Of the keys of its table, a scan reads those of its kind and namespace. -/
theorem scan_exact (av kind : String) (ns : Option String) (key : ResourceKey)
    (hp : ∀ component ∈ [av, kind] ++ ns.toList, component.utf8ByteSize ≤ 255) (hk : Fits key)
    (htable : ns.isSome → key.ns.isSome) :
    inScan (resourcePrefix av kind ns) (resourceKey key) ↔
      key.apiVersion = av ∧ key.kind = kind ∧ ∀ n ∈ ns, key.ns = some n := by
  have hs : ∀ te : List String, (te.flatMap fun s => frame (utf8Bytes s)) =
      (te.map utf8Bytes).flatMap frame := fun te => (flatMap_map ..).symm
  have hc : ∀ te : List String, (∀ tx ∈ te, tx.utf8ByteSize ≤ 255) →
      (te.map utf8Bytes).map (List.take 255) = te.map utf8Bytes := fun te h => by
    rw [map_map]
    exact map_congr_left fun tx ht => (kept_eq_iff tx).2 (h tx ht)
  rw [resourcePrefix_eq, inScan_frames (by simp) hp, resourceKey_eq, hs, hs, flatMap_frame_prefix, hc _ hp, hc _ hk]
  obtain ⟨a', kd', ns', nm⟩ := key
  cases ns with
  | none => simp [components, utf8Bytes_inj, eq_comm]
  | some n =>
    obtain ⟨n', rfl⟩ := Option.isSome_iff_exists.1 (htable rfl)
    simp [components, utf8Bytes_inj, eq_comm]

theorem scan_exact_pods :
    inScan (resourcePrefix "v1" "Pod" (some "prod")) (resourceKey ⟨"v1", "Pod", some "prod", "web"⟩) ∧
      ¬inScan (resourcePrefix "v1" "Pod" (some "prod")) (resourceKey ⟨"v1", "Pod", some "production", "web"⟩) := by
  constructor
  · exact (scan_exact "v1" "Pod" (some "prod") _ (by decide) (by decide) (by decide)).2 (by decide)
  · exact fun h => absurd ((scan_exact "v1" "Pod" (some "prod") _ (by decide) (by decide) (by decide)).1 h) (by decide)

/-- The key of a cluster-scoped object is in the scan of a namespace that has its name; it is in another table. -/
theorem cluster_key_in_scan :
    inScan (resourcePrefix "example.io/v1" "Widget" (some "prod"))
        (resourceKey ⟨"example.io/v1", "Widget", none, "prod"⟩) ∧
      (ResourceKey.mk "example.io/v1" "Widget" none "prod").ns ≠ some "prod" := by
  decide +kernel

/-! ## Order -/

/-- An identity as it is ordered: by apiVersion, kind, namespace and name, and without a namespace first. -/
def identityOrder (key : ResourceKey) : List (Option (List UInt8)) :=
  [some (utf8Bytes key.apiVersion), some (utf8Bytes key.kind), key.ns.map utf8Bytes, some (utf8Bytes key.name)]

/-- What the key holds of a list of components. -/
def framed (texts : List String) : List UInt8 := texts.flatMap fun text => frame (utf8Bytes text)

/-- Of the first components that differ, the one that comes first in the order of texts has fewer bytes, or as many. If
both are cut and the same is kept of them, what follows them has their order. -/
def OrdersAgree : List String → List String → Prop
  | x :: xs, y :: ys =>
    if x = y then OrdersAgree xs ys
    else if kept x = kept y then (utf8Bytes x < utf8Bytes y ↔ framed xs < framed ys)
    else (utf8Bytes x < utf8Bytes y ↔ Shortlex (· < ·) (kept x) (kept y))
  | _, _ => True

theorem framed_cons_lt_iff {x y : String} {xs ys : List String} : framed (x :: xs) < framed (y :: ys) ↔
    Shortlex (· < ·) (kept x) (kept y) ∨ kept x = kept y ∧ framed xs < framed ys := by
  rw [framed, framed, flatMap_cons, flatMap_cons, frame_lt_frame_iff]
  rfl

theorem not_shortlex_self (bytes : List UInt8) : ¬Shortlex (· < ·) bytes bytes := by
  rw [shortlex_def]
  rintro (hlt | ⟨-, hlt⟩)
  · exact Nat.lt_irrefl _ hlt
  · exact List.lt_irrefl bytes hlt

theorem ordersAgree_iff : ∀ {xs ys : List String}, xs.length = ys.length →
    ((xs.map (some ∘ utf8Bytes) < ys.map (some ∘ utf8Bytes) ↔ framed xs < framed ys) ↔ OrdersAgree xs ys)
  | [], [], _ => by simp [OrdersAgree]
  | x :: xs, y :: ys, hl => by
    have ih := ordersAgree_iff (Nat.succ.inj hl)
    rw [framed_cons_lt_iff, map_cons, map_cons, cons_lt_cons_iff, OrdersAgree]
    simp only [Function.comp_apply, Option.some_lt_some, Option.some.injEq, utf8Bytes_inj]
    by_cases hxy : x = y
    · subst hxy
      simpa [not_shortlex_self, List.lt_irrefl] using ih
    · by_cases hk : kept x = kept y
      · simp [hxy, hk, not_shortlex_self]
      · simp [hxy, hk]

/-- **Key order.** Two keys of one table are in the order of their identities exactly if the orders agree on the first
components that differ. -/
theorem key_order (a b : ResourceKey) (hscope : a.ns.isSome = b.ns.isSome) :
    (identityOrder a < identityOrder b ↔ resourceKey a < resourceKey b) ↔
      OrdersAgree (components a) (components b) := by
  have hlen : (components a).length = (components b).length := by
    obtain ⟨_, _, ns, _⟩ := a
    obtain ⟨_, _, ns', _⟩ := b
    cases ns <;> cases ns' <;> simp_all [components]
  rw [← ordersAgree_iff hlen, resourceKey_eq, resourceKey_eq]
  obtain ⟨av, kd, ns, nm⟩ := a
  obtain ⟨av', kd', ns', nm'⟩ := b
  cases ns with
  | none =>
    obtain rfl : ns' = none := by simpa using hscope.symm
    simp [identityOrder, components, framed, cons_lt_cons_iff]
  | some n =>
    obtain ⟨n', rfl⟩ := Option.isSome_iff_exists.1 (hscope.symm.trans rfl)
    rfl

def podKey (name : String) : ResourceKey := ⟨"v1", "Pod", some "prod", name⟩

theorem identityOrder_podKey {x y : String} (h : utf8Bytes x < utf8Bytes y) :
    identityOrder (podKey x) < identityOrder (podKey y) :=
  .cons (.cons (.cons (.rel (Option.some_lt_some.2 h))))

theorem key_order_names : identityOrder (podKey "a") < identityOrder (podKey "bb") ∧
    resourceKey (podKey "a") < resourceKey (podKey "bb") := by
  have ha : identityOrder (podKey "a") < identityOrder (podKey "bb") := identityOrder_podKey (by decide +kernel)
  refine ⟨ha, ((key_order (podKey "a") (podKey "bb") rfl).2 ?_).1 ha⟩
  have hk : kept "a" ≠ kept "bb" := by decide +kernel
  have hs : Shortlex (· < ·) (kept "a") (kept "bb") := Shortlex.of_length_lt (by decide +kernel)
  have hlt : utf8Bytes "a" < utf8Bytes "bb" := by decide +kernel
  simp [OrdersAgree, components, podKey, hk, hs, hlt]

/-- A name of one letter comes before every name of two letters. -/
theorem short_name_first : identityOrder (podKey "aa") < identityOrder (podKey "b") ∧
    ¬resourceKey (podKey "aa") < resourceKey (podKey "b") :=
  ⟨identityOrder_podKey (by decide +kernel), by decide +kernel⟩

end Klights.Store
