import Klights.Store.SubnetBlocks
import Mathlib.Data.Finset.Image
import Mathlib.Data.Nat.Bitwise

/-!
# The addresses of a Service

What the controllers write into a Service before it is stored (`klights-controllers/src/service.rs`): the defaults of
its fields, its ClusterIP and its NodePorts; and the addresses they read back from it.

- `normalizeService`, `setClusterIp`, `normalizeServiceIpFamilyDefaults`, `setNodePort`: the writes;
- `addressesOf`: the ClusterIPs and NodePorts of a Service;
- `addressesOf_normalizeService`, `specAddresses_setClusterIp`, `specAddresses_setNodePort`: what each write does to
  them.
-/

namespace Klights.Service

open Store Json List Option

variable {ip : Nat} {k : String} {f : Json → Json}

/-! ## Addresses -/

inductive Address where
  | clusterIp (ip : Nat)
  | nodePort (port : Nat)
  deriving DecidableEq

/-- `u32::from_str`: an optional plus sign, then digits. -/
def parseU32 (text : List Char) : Option Nat :=
  let digits := if text.head? = some '+' then text.tail else text
  if digits.isEmpty ∨ !digits.all isAsciiDigit then none
  else if digitsValue digits > 4294967295 then none
  else some (digitsValue digits)

/-- The four parts that are numbers, whatever stands between them; the bits above 32 are lost. -/
def parseIpToU32 (ip : String) : Option Nat :=
  match (ip.toList.splitOn '.').filterMap parseU32 with
  | [a, b, c, d] => some ((a <<< 24 ||| b <<< 16 ||| c <<< 8 ||| d) % 2 ^ 32)
  | _ => none

/-- The number of a text that is neither empty nor `None`. -/
def allocatedIp (ip : String) : Option Nat := if ip = "" ∨ ip = "None" then none else parseIpToU32 ip

/-- The items of a list that may be absent. -/
def listAt (spec : Json) (key : String) : List Json := ((spec.get key).bind Json.asArray).getD []

def specClusterIps (spec : Json) : List Nat :=
  (((spec.get "clusterIP").bind Json.asStr).bind allocatedIp).toList ++
    ((listAt spec "clusterIPs").filterMap Json.asStr).filterMap allocatedIp

def nodePortOf (port : Json) : Option Nat :=
  ((port.get "nodePort").bind Json.asU64).filter fun number => 30000 ≤ number ∧ number ≤ 32767

def specNodePorts (spec : Json) : List Nat := (listAt spec "ports").filterMap nodePortOf

def specAddresses (spec : Json) : List Address :=
  (specClusterIps spec).map .clusterIp ++ (specNodePorts spec).map .nodePort

def serviceAddresses (service : Json) : List Address := ((service.get "spec").map specAddresses).getD []

def addressesOf (service : Json) : Finset Address := (serviceAddresses service).toFinset

/-! ## Defaults -/

def isMissingText (value : Option Json) : Bool := (value.bind Json.asStr).all fun text => text = ""

def mapObjects (spec : Json) (key : String) (f : Json → Json) : Json :=
  spec.modifyField key fun value =>
    match value with
    | .arr items => .arr (items.map fun item => if item.asObject.isSome then f item else item)
    | value => value

def normalizeServiceType (spec : Json) : Json :=
  if ((spec.get "type").bind Json.asStr).getD "" = "" then spec.insertField "type" (.str "ClusterIP") else spec

/-- A value that is absent, null or the empty text. -/
def isUnset (value : Option Json) : Bool :=
  match value with
  | none | some .null => true
  | some (.str text) => text = ""
  | some _ => false

def normalizeServiceSessionAffinity (spec : Json) : Json :=
  if isUnset (spec.get "sessionAffinity") then spec.insertField "sessionAffinity" (.str "None") else spec

/-- A target port that is absent, null, the empty text or zero. -/
def isMissingTargetPort (value : Option Json) : Bool :=
  isUnset value || (value.bind Json.asI64) = some 0

def normalizeServicePort (port : Json) : Json :=
  let port := if isMissingText (port.get "protocol") then port.insertField "protocol" (.str "TCP") else port
  match port.get "port" with
  | some servicePort =>
    if isMissingTargetPort (port.get "targetPort") then port.insertField "targetPort" servicePort else port
  | none => port

def normalizeServicePorts (spec : Json) : Json := mapObjects spec "ports" normalizeServicePort

def clearExternalnameInvalidFields (spec : Json) : Json :=
  if (spec.get "type").bind Json.asStr = some "ExternalName" then
    mapObjects ((spec.insertField "clusterIP" (.str "")).insertField "clusterIPs" (.arr [])) "ports" fun port =>
      port.removeField "nodePort"
  else spec

def routableIp (value : Json) : Option String := value.asStr.filter fun ip => ip ≠ "" && ip ≠ "None"

def ipFamilyFor (ip : String) : String := if ip.toList.contains ':' then "IPv6" else "IPv4"

def specFamily (spec : Json) : String :=
  (((listAt spec "clusterIPs").findSome? routableIp).or ((spec.get "clusterIP").bind routableIp)).elim "IPv4"
    ipFamilyFor

def isMissingFamilies (value : Option Json) : Bool :=
  isUnset value || value = some (.arr [])

def serviceType (spec : Json) : String := ((spec.get "type").bind Json.asStr).getD "ClusterIP"

def normalizeServiceIpFamilyDefaults (spec : Json) : Json :=
  if serviceType spec = "ExternalName" then spec
  else
    let family := specFamily spec
    let spec :=
      if isUnset (spec.get "ipFamilyPolicy") then spec.insertField "ipFamilyPolicy" (.str "SingleStack") else spec
    if isMissingFamilies (spec.get "ipFamilies") then spec.insertField "ipFamilies" (.arr [.str family]) else spec

/-- The defaults that are written before an address is allocated. -/
def normalizeSpec (spec : Json) : Json :=
  clearExternalnameInvalidFields (normalizeServicePorts (normalizeServiceSessionAffinity (normalizeServiceType spec)))

/-- `Invalid spec` if there is none to write to. -/
def normalizeService (service : Json) : Except String Json :=
  if ((service.get "spec").bind Json.asObject).isSome then .ok (service.modifyField "spec" normalizeSpec)
  else .error "Invalid spec"

/-! ## Allocated fields -/

/-- A spec without a ClusterIP that is neither headless nor an ExternalName one. -/
def needsClusterIp (spec : Json) : Bool :=
  isMissingText (spec.get "clusterIP") && serviceType spec ≠ "ExternalName"

def setClusterIp (clusterIp : String) (spec : Json) : Json :=
  (spec.insertField "clusterIP" (.str clusterIp)).insertField "clusterIPs" (.arr [.str clusterIp])

/-- A port without a NodePort, or with zero for one. -/
def needsNodePort (port : Json) : Bool := ((port.get "nodePort").bind Json.asU64).all fun number => number = 0

def nodePortPorts (spec : Json) : List Json :=
  if serviceType spec = "NodePort" ∨ serviceType spec = "LoadBalancer" then listAt spec "ports" else []

def setNodePort (index number : Nat) (spec : Json) : Json :=
  spec.modifyField "ports" fun value =>
    match value with
    | .arr ports => .arr (ports.modify index fun port => port.insertField "nodePort" (.num number))
    | value => value

/-! ## The text of an address -/

theorem parseU32_of_octet {ds : List Char} {n : Nat} (h : parseOctet ds = some n) : parseU32 ds = some n := by
  unfold parseOctet at h
  split at h
  · cases h
  · rename_i hs
    split at h
    · cases h
    · split at h
      · cases h
      · rename_i hv
        cases h
        obtain ⟨he, -, hd⟩ := not_or.1 hs |>.imp id not_or.1
        have hp : ds.head? ≠ some '+' := by
          intro hh
          have hm := mem_of_mem_head? hh
          have ha := all_eq_true.1 (by simpa using hd) '+' hm
          exact absurd ha (by decide)
        have hf : ¬digitsValue ds > 4294967295 := by omega
        simp only [parseU32, hp, if_false, hf]
        rw [if_neg (not_or.2 ⟨he, hd⟩)]

theorem bytes_or {a b c d : Nat} (hb : b < 256) (hc : c < 256) (hd : d < 256) :
    a <<< 24 ||| b <<< 16 ||| c <<< 8 ||| d = ((a * 256 + b) * 256 + c) * 256 + d := by
  have h1 : a <<< 24 ||| b <<< 16 = (a * 256 + b) <<< 16 := by
    rw [← Nat.shiftLeft_add_eq_or_of_lt (by rw [Nat.shiftLeft_eq]; omega) a]
    omega
  have h2 : (a * 256 + b) <<< 16 ||| c <<< 8 = ((a * 256 + b) * 256 + c) <<< 8 := by
    rw [← Nat.shiftLeft_add_eq_or_of_lt (by rw [Nat.shiftLeft_eq]; omega) (a * 256 + b)]
    omega
  have h3 : ((a * 256 + b) * 256 + c) <<< 8 ||| d = ((a * 256 + b) * 256 + c) * 256 + d := by
    rw [← Nat.shiftLeft_add_eq_or_of_lt (by omega) ((a * 256 + b) * 256 + c), Nat.shiftLeft_eq]
  rw [h1, h2, h3]

theorem parseIpToU32_ipv4Text (h : ip < 2 ^ 32) : parseIpToU32 (ipv4Text ip) = some ip := by
  have hlt : ∀ n : Nat, n % 256 < 256 := fun n => Nat.mod_lt _ (by decide)
  have ho : ∀ n : Nat, parseU32 (toString (n % 256)).toList = some (n % 256) := fun n =>
    parseU32_of_octet (parseOctet_toString (hlt n))
  unfold parseIpToU32
  rw [ipv4Text_toList, splitOn_octets octet_noPoint octet_noPoint octet_noPoint octet_noPoint]
  simp only [filterMap_cons, filterMap_nil, ho]
  rw [bytes_or (hlt _) (hlt _) (hlt _)]
  congr 1
  omega

theorem allocatedIp_ipv4Text (h : ip < 2 ^ 32) : allocatedIp (ipv4Text ip) = some ip := by
  have hr := parseIpToU32_ipv4Text h
  have he : ipv4Text ip ≠ "" := by
    intro heq
    have hn : parseIpToU32 "" = none := by decide
    rw [heq, hn] at hr
    cases hr
  have hn : ipv4Text ip ≠ "None" := by
    intro heq
    have hn : parseIpToU32 "None" = none := by decide
    rw [heq, hn] at hr
    cases hr
  rw [allocatedIp, if_neg (not_or.2 ⟨he, hn⟩), hr]

/-! ## What the writes do to the addresses -/

variable {spec sp service svc : Json}

theorem specAddresses_congr {sp' : Json} (hp : sp'.get "clusterIP" = spec.get "clusterIP")
    (hi : sp'.get "clusterIPs" = spec.get "clusterIPs") (hs : sp'.get "ports" = spec.get "ports") :
    specAddresses sp' = specAddresses spec := by
  simp [specAddresses, specClusterIps, specNodePorts, listAt, hp, hi, hs]

theorem specAddresses_insertField (vl : Json) (hk : k ∉ ["clusterIP", "clusterIPs", "ports"]) :
    specAddresses (spec.insertField k vl) = specAddresses spec := by
  simp only [mem_cons, not_mem_nil, or_false, not_or] at hk
  obtain ⟨hp, hi, hs⟩ := hk
  exact specAddresses_congr (get_insertField_ne spec vl (Ne.symm hp))
    (get_insertField_ne spec vl (Ne.symm hi)) (get_insertField_ne spec vl (Ne.symm hs))

theorem mem_specAddresses {a : Address} : a ∈ specAddresses sp ↔ (∃ ip ∈ specClusterIps sp, a = .clusterIp ip) ∨
      ∃ port ∈ specNodePorts sp, a = .nodePort port := by
  simp [specAddresses, eq_comm]

theorem serviceAddresses_modify (hp : svc.get "spec" = some sp) (f : Json → Json) :
    serviceAddresses (svc.modifyField "spec" f) = specAddresses (f sp) := by
  cases svc with
  | obj fs => simp [serviceAddresses, modifyField, hp]
  | _ => cases hp

theorem listAt_modifyField {g : List Json → List Json} (hf : ∀ vl, (f vl).asArray = vl.asArray.map g)
    (hn : g [] = []) : listAt (sp.modifyField k f) k = g (listAt sp k) := by
  unfold modifyField listAt
  cases hg : sp.get k with
  | none => simp [hg, hn]
  | some vl =>
    cases sp with
    | obj fs =>
      simp only [get_insertField_self, bind_some, hf]
      cases vl.asArray with
      | none => exact hn.symm
      | some it => rfl
    | _ => cases hg

theorem listAt_mapObjects (k : String) (f : Json → Json) : listAt (mapObjects sp k f) k =
      (listAt sp k).map fun item => if item.asObject.isSome then f item else item := by
  refine listAt_modifyField (fun v => ?_) map_nil
  cases v <;> rfl

theorem specNodePorts_mapObjects (hf : ∀ p n, nodePortOf (f p) = some n → nodePortOf p = some n) :
    specNodePorts (mapObjects spec "ports" f) ⊆ specNodePorts spec := by
  intro n hn
  unfold specNodePorts at hn ⊢
  rw [listAt_mapObjects, filterMap_map] at hn
  obtain ⟨p, hp, hu⟩ := mem_filterMap.1 hn
  refine mem_filterMap.2 ⟨p, hp, ?_⟩
  simp only [Function.comp_apply] at hu
  split at hu
  · exact hf p n hu
  · exact hu

theorem nodePortOf_normalizeServicePort (port : Json) : nodePortOf (normalizeServicePort port) = nodePortOf port := by
  have hi : ∀ (port v : Json) {k : String}, "nodePort" ≠ k → nodePortOf (port.insertField k v) = nodePortOf port := by
    intro port v k hk
    rw [nodePortOf, get_insertField_ne port v hk, nodePortOf]
  have hp : nodePortOf (if isMissingText (port.get "protocol") then port.insertField "protocol" (.str "TCP")
      else port) = nodePortOf port := by
    split
    · exact hi port _ (by decide)
    · rfl
  unfold normalizeServicePort
  dsimp only
  generalize (if isMissingText (port.get "protocol") then port.insertField "protocol" (.str "TCP") else port) =
    withProtocol at hp ⊢
  split
  · split
    · exact (hi withProtocol _ (by decide)).trans hp
    · exact hp
  · exact hp

theorem specAddresses_mapObjects (hf : ∀ p n, nodePortOf (f p) = some n → nodePortOf p = some n) :
    specAddresses (mapObjects spec "ports" f) ⊆ specAddresses spec := by
  have hi : specClusterIps (mapObjects spec "ports" f) = specClusterIps spec := by
    unfold specClusterIps listAt mapObjects
    rw [get_modifyField_ne spec (by decide), get_modifyField_ne spec (by decide)]
  intro ad ha
  rcases mem_specAddresses.1 ha with ⟨ip, hip, rfl⟩ | ⟨p, hp, rfl⟩
  · exact mem_specAddresses.2 (.inl ⟨ip, hi ▸ hip, rfl⟩)
  · exact mem_specAddresses.2 (.inr ⟨p, specNodePorts_mapObjects hf hp, rfl⟩)

theorem get_clusterIps_written (fs : List (String × Json)) (ip ips : Json) :
    (((obj fs).insertField "clusterIP" ip).insertField "clusterIPs" ips).get "clusterIP" = some ip ∧
      (((obj fs).insertField "clusterIP" ip).insertField "clusterIPs" ips).get "clusterIPs" = some ips :=
  ⟨(get_insertField_ne _ _ (by decide)).trans (get_insertField_self fs _ _), get_insertField_self _ _ _⟩

theorem specAddresses_clearExternalname : specAddresses (clearExternalnameInvalidFields spec) ⊆ specAddresses spec := by
  unfold clearExternalnameInvalidFields
  split
  · have hr : ∀ po n, nodePortOf (po.removeField "nodePort") = some n → nodePortOf po = some n := by
      intro po n hn
      cases po with
      | obj fs => simp [nodePortOf, Json.removeField, Json.get] at hn
      | _ => exact hn
    refine List.Subset.trans (specAddresses_mapObjects hr) fun ad ha => ?_
    -- without ClusterIPs, and with the same ports
    rcases mem_specAddresses.1 ha with ⟨ip, hi, rfl⟩ | ⟨po, hp, rfl⟩
    · cases spec with
      | obj fs =>
        obtain ⟨he, hg⟩ := get_clusterIps_written fs (.str "") (.arr [])
        simp [specClusterIps, listAt, he, hg, allocatedIp, Json.asStr, Json.asArray] at hi
      | _ => exact mem_specAddresses.2 (.inl ⟨ip, hi, rfl⟩)
    · refine mem_specAddresses.2 (.inr ⟨po, ?_, rfl⟩)
      unfold specNodePorts listAt at hp ⊢
      rwa [Json.get_insertField_ne _ _ (by decide), Json.get_insertField_ne _ _ (by decide)] at hp
  · exact fun _ ha => ha

theorem specAddresses_normalizeSpec : specAddresses (normalizeSpec spec) ⊆ specAddresses spec := by
  have ht : specAddresses (normalizeServiceType spec) = specAddresses spec := by
    unfold normalizeServiceType
    split
    · exact specAddresses_insertField _ (by decide)
    · rfl
  have ha : specAddresses (normalizeServiceSessionAffinity (normalizeServiceType spec)) =
      specAddresses (normalizeServiceType spec) := by
    unfold normalizeServiceSessionAffinity
    split
    · exact specAddresses_insertField _ (by decide)
    · rfl
  refine List.Subset.trans specAddresses_clearExternalname ?_
  rw [← ht, ← ha]
  refine specAddresses_mapObjects fun po n hn => ?_
  rwa [nodePortOf_normalizeServicePort] at hn

theorem specAddresses_ipFamilyDefaults :
    specAddresses (normalizeServiceIpFamilyDefaults spec) = specAddresses spec := by
  have hp : specAddresses (if isUnset (spec.get "ipFamilyPolicy") then
      spec.insertField "ipFamilyPolicy" (.str "SingleStack") else spec) = specAddresses spec := by
    split
    · exact specAddresses_insertField _ (by decide)
    · rfl
  unfold normalizeServiceIpFamilyDefaults
  split
  · rfl
  · dsimp only
    generalize (if isUnset (spec.get "ipFamilyPolicy") then spec.insertField "ipFamilyPolicy" (.str "SingleStack")
      else spec) = withPolicy at hp ⊢
    split
    · exact (specAddresses_insertField _ (by decide)).trans hp
    · exact hp

theorem specAddresses_setClusterIp (hi : ip < 2 ^ 32) :
    specAddresses (setClusterIp (ipv4Text ip) spec) ⊆ .clusterIp ip :: specAddresses spec := by
  intro ad ha
  rcases mem_specAddresses.1 ha with ⟨o, ho, rfl⟩ | ⟨po, hp, rfl⟩
  · cases spec with
    | obj fs =>
      have hr : specClusterIps (setClusterIp (ipv4Text ip) (.obj fs)) = [ip, ip] := by
        obtain ⟨he, hg⟩ := get_clusterIps_written fs (.str (ipv4Text ip)) (.arr [.str (ipv4Text ip)])
        simp [specClusterIps, listAt, setClusterIp, he, hg, asStr, asArray, allocatedIp_ipv4Text hi]
      rw [hr] at ho
      have heq : o = ip := by simpa using ho
      rw [heq]
      exact .head _
    | _ => exact .tail _ (mem_specAddresses.2 (.inl ⟨o, ho, rfl⟩))
  · refine .tail _ (mem_specAddresses.2 (.inr ⟨po, ?_, rfl⟩))
    unfold specNodePorts listAt setClusterIp at hp
    rwa [get_insertField_ne _ _ (by decide), get_insertField_ne _ _ (by decide)] at hp

theorem mem_modify {i : List Json} {ix : Nat} {x : Json} (h : x ∈ i.modify ix f) : x ∈ i ∨ ∃ item ∈ i, x = f item := by
  obtain ⟨po, hpos⟩ := mem_iff_getElem?.mp h
  rw [getElem?_modify] at hpos
  obtain ⟨item, hi, rfl⟩ := map_eq_some_iff.1 hpos
  have hm := mem_of_getElem? hi
  split
  · exact .inr ⟨item, hm, rfl⟩
  · exact .inl hm

theorem specAddresses_setNodePort (ix number : Nat) :
    specAddresses (setNodePort ix number spec) ⊆ .nodePort number :: specAddresses spec := by
  have hs : specClusterIps (setNodePort ix number spec) = specClusterIps spec := by
    unfold specClusterIps listAt setNodePort
    rw [get_modifyField_ne spec (by decide), get_modifyField_ne spec (by decide)]
  have hps : listAt (setNodePort ix number spec) "ports" =
      (listAt spec "ports").modify ix fun po => po.insertField "nodePort" (.num number) := by
    refine listAt_modifyField (fun v => ?_) (modify_nil _ _)
    cases v <;> rfl
  intro ad ha
  rcases mem_specAddresses.1 ha with ⟨ip, hip, rfl⟩ | ⟨po, hp, rfl⟩
  · exact .tail _ (mem_specAddresses.2 (.inl ⟨ip, hs ▸ hip, rfl⟩))
  · unfold specNodePorts at hp
    rw [hps] at hp
    obtain ⟨it, hi, hn⟩ := mem_filterMap.1 hp
    have ho : ∀ ol ∈ listAt spec "ports", nodePortOf ol = some po →
        Address.nodePort po ∈ .nodePort number :: specAddresses spec := fun ol hm heq =>
      .tail _ (mem_specAddresses.2 (.inr ⟨po, mem_filterMap.2 ⟨ol, hm, heq⟩, rfl⟩))
    rcases mem_modify hi with hm | ⟨ol, hm, rfl⟩
    · exact ho it hm hn
    · cases ol with
      | obj fs =>
        -- the number that was written is the one that is read
        have hr : nodePortOf ((obj fs).insertField "nodePort" (.num number)) = some po → po = number := by
          intro heq
          obtain ⟨hu64, -⟩ := filter_eq_some_iff.1 heq
          rw [get_insertField_self, bind_some, asU64] at hu64
          split at hu64
          · exact (Option.some.inj hu64).symm.trans (Int.toNat_natCast number)
          · cases hu64
        rw [hr hn]
        exact .head _
      | _ => exact ho _ hm hn

/-! ## Services -/

theorem addressesOf_normalizeService {n : Json} (h : normalizeService service = .ok n) :
    addressesOf n ⊆ addressesOf service := by
  unfold normalizeService at h
  split at h
  · rename_i ho
    cases h
    obtain ⟨_, hf⟩ := isSome_iff_exists.1 ho
    obtain ⟨sp, hs, -⟩ := bind_eq_some_iff.1 hf
    intro ad ha
    rw [addressesOf, List.mem_toFinset, serviceAddresses_modify hs] at ha
    rw [addressesOf, List.mem_toFinset, serviceAddresses, hs]
    exact specAddresses_normalizeSpec ha
  · cases h

theorem addressesOf_modify {a : Address} (hf : ∀ spec, specAddresses (f spec) ⊆ a :: specAddresses spec) :
    addressesOf (svc.modifyField "spec" f) ⊆ insert a (addressesOf svc) := by
  intro o ho
  rw [addressesOf, List.mem_toFinset] at ho
  rw [Finset.mem_insert, addressesOf, List.mem_toFinset]
  cases hs : svc.get "spec" with
  | none =>
    rw [modifyField, hs] at ho
    exact .inr ho
  | some spec =>
    rw [serviceAddresses_modify hs] at ho
    rcases mem_cons.1 (hf spec ho) with rfl | hmem
    · exact .inl rfl
    · rw [serviceAddresses, hs]
      exact .inr hmem

theorem addressesOf_modify_same (hf : ∀ spec, specAddresses (f spec) = specAddresses spec) :
    addressesOf (service.modifyField "spec" f) = addressesOf service := by
  unfold addressesOf
  cases hs : service.get "spec" with
  | none => rw [modifyField, hs]
  | some spec => rw [serviceAddresses_modify hs, hf, serviceAddresses, hs, map_some, getD_some]

end Klights.Service
