import Klights.Network.Plan

/-!
# What policies mean

The meaning of NetworkPolicies for stored policies, Pods and namespaces, said without a plan: which addresses are
isolated (`Isolated`) and which packets of a direction are allowed (`Allowed`). A field that is null is not set.

- `peersForRule_holds`: the peers of a rule are the addresses it means;
- `entryMatches_number`, `entryMatches_name`: what an entry of `ports` matches;
- `rule_sound`, `rule_complete`: a rule's flows against its meaning.
-/

namespace Klights.Network

open Lib Selector Store List Option

variable {number nr first : Int}

/-! ## Meaning -/

/-- A field that is set: there, and not null. -/
def setField (value : Json) (key : String) : Option Json := (value.get key).filter fun child => !child.isNull

def Selects (selector : Json) (labels : Labels) : Prop :=
  ∃ requirements, fromK8sSelector selector = .ok requirements ∧ matchesLabels requirements labels = true

/-- An address is in a block and in none of its exceptions. A block that is not one of IPv4 has no IPv4 address. -/
def IpBlockHolds (ipBlock : Json) (ip : Ipv4Addr) : Prop :=
  (∃ raw cidr, (ipBlock.get "cidr").bind Json.asStr = some raw ∧ parseIpv4Cidr raw = .ok cidr ∧
      cidr.contains ip = true) ∧
    ∀ text ∈ exceptTexts ipBlock, ∀ cidr, parseIpv4Cidr text = .ok cidr → cidr.contains ip = false

def NetworkPolicyDirection.typeName : NetworkPolicyDirection → String
  | .ingress => "Ingress"
  | .egress => "Egress"

def Packet.podEnd (packet : Packet) : NetworkPolicyDirection → Ipv4Addr
  | .ingress => packet.destination
  | .egress => packet.source

def Packet.peerEnd (packet : Packet) : NetworkPolicyDirection → Ipv4Addr
  | .ingress => packet.source
  | .egress => packet.destination

def lastPort (entry : Json) (first : Int) : Int :=
  match entry.get "endPort" with
  | some (.num last) => last
  | _ => first

def entryProtocol (entry : Json) : Option Protocol := Protocol.parse ((entry.get "protocol").bind Json.asStr)

def TypesSet (policy : Json) : Prop :=
  ∃ spec types, policy.get "spec" = some spec ∧ spec.get "policyTypes" = some (.arr types)

def HasDirection (policy : Json) (direction : NetworkPolicyDirection) : Prop :=
  ∃ spec types, policy.get "spec" = some spec ∧ spec.get "policyTypes" = some (.arr types) ∧
    .str direction.typeName ∈ types

def rulesOf (policy : Json) (direction : NetworkPolicyDirection) : List Json :=
  items ((policy.get "spec").bind fun spec => spec.get direction.rulesField)

section Meaning

variable (allPods : List PodInfo) (namespaces : NamespaceLabels)

/-- A Pod that the selectors of a peer ask for; without a namespace selector, one of the policy's namespace. -/
def PeerPod (ns : String) (peer : Json) (pod : PodInfo) : Prop :=
  pod ∈ allPods ∧ (match setField peer "namespaceSelector" with
      | some selector => Selects selector (namespaces.labels pod.ns)
      | none => pod.ns = ns) ∧
    ∀ selector, setField peer "podSelector" = some selector → Selects selector pod.labels

def PeerHolds (ns : String) (peer : Json) (ip : Ipv4Addr) : Prop :=
  match setField peer "ipBlock" with
  | some ipBlock => IpBlockHolds ipBlock ip
  | none => (setField peer "namespaceSelector" = none ∧ setField peer "podSelector" = none) ∨
      ∃ pod, PeerPod allPods namespaces ns peer pod ∧ pod.ip = ip

/-- An address is one of a list of peers, where none are all. -/
def PeersHold (ns : String) (peersValue : Option Json) (ip : Ipv4Addr) : Prop :=
  items peersValue = [] ∨ ∃ peer ∈ items peersValue, PeerHolds allPods namespaces ns peer ip

variable (direction : NetworkPolicyDirection) (selected : PodInfo)

/-- A Pod that receives a packet: for ingress the selected one, for egress each at the destination. -/
def Receives (packet : Packet) (pod : PodInfo) : Prop :=
  match direction with
  | .ingress => pod = selected
  | .egress => pod ∈ allPods ∧ pod.ip = packet.destination

/-- A packet is to a port of an entry: any port of its protocol if it names none, else the number, the range, or the
number that a receiving Pod gives to the name. -/
def PortHolds (entry : Json) (packet : Packet) : Prop :=
  ∃ protocol, entryProtocol entry = some protocol ∧ packet.protocol = protocol.ipProto ∧
    match setField entry "port" with
    | none => True
    | some (.num first) =>
      first ≤ packet.destinationPort.toNat ∧ (packet.destinationPort.toNat : Int) ≤ lastPort entry first
    | some (.str name) => ∃ pod, Receives allPods direction selected packet pod ∧
        pod.namedPorts.number name protocol = some packet.destinationPort
    | some _ => False

/-- A packet is to a port of a list of entries, where none are all. -/
def PortsHold (portsValue : Option Json) (packet : Packet) : Prop :=
  items portsValue = [] ∨ ∃ entry ∈ items portsValue, PortHolds allPods direction selected entry packet

def SelectedBy (policy : Json) (pod : PodInfo) : Prop :=
  pod ∈ allPods ∧ policyNamespace policy = some pod.ns ∧
    ∃ spec, policy.get "spec" = some spec ∧ Selects ((spec.get "podSelector").getD .null) pod.labels

def RuleHolds (direction : NetworkPolicyDirection) (pod : PodInfo) (rule : Json) (packet : Packet) : Prop :=
  PeersHold allPods namespaces pod.ns (rule.get direction.peersField) (packet.peerEnd direction) ∧
    PortsHold allPods direction pod (rule.get "ports") packet

end Meaning

section Cluster

variable (policies pods namespaces : List Json)

def Isolated (direction : NetworkPolicyDirection) (ip : Ipv4Addr) : Prop :=
  ∃ policy ∈ policies, HasDirection policy direction ∧
    ∃ pod, SelectedBy (podInfosFromResources pods) policy pod ∧ pod.ip = ip

/-- A packet is allowed: some rule of a policy that selects its Pod lets it through. -/
def Allowed (direction : NetworkPolicyDirection) (packet : Packet) : Prop :=
  ∃ policy ∈ policies, HasDirection policy direction ∧
    ∃ pod, SelectedBy (podInfosFromResources pods) policy pod ∧ pod.ip = packet.podEnd direction ∧
      ∃ rule ∈ rulesOf policy direction,
        RuleHolds (podInfosFromResources pods) (namespaceLabelsFromResources namespaces) direction pod rule packet

end Cluster

/-! ## Peers -/

/-- None of the fields of a peer is null. -/
def NoNulls (peer : Json) : Prop :=
  ∀ key ∈ ["ipBlock", "namespaceSelector", "podSelector"], peer.get key ≠ some .null

theorem setField_eq_get {vl : Json} {key : String} (h : vl.get key ≠ some .null) : setField vl key = vl.get key := by
  unfold setField
  cases hg : vl.get key with
  | none => rfl
  | some ch =>
    have hc : ch ≠ .null := fun heq => h (by rw [hg, heq])
    cases ch with
    | null => exact absurd rfl hc
    | _ => rfl

theorem matches_hostMatch {ip other : Ipv4Addr} : (hostMatch ip).matches other ↔ ip = other := by
  have hm : other &&& BitVec.allOnes 32 = other := BitVec.and_allOnes
  simp only [hostMatch, NetworkPolicyPeerMatch.matches, Ipv4CidrMatch.contains, Ipv4CidrMatch.host, hm,
    all_nil, Bool.and_true, decide_eq_true_eq]
  exact eq_comm

theorem ipBlockCandidates_holds {i : Json} {ca : List PeerCandidate}
    (h : ipBlockCandidates i = .ok ca) (ip : Ipv4Addr) :
    (∃ c ∈ ca, c.policyMatch.matches ip) ↔ IpBlockHolds i ip := by
  unfold IpBlockHolds
  unfold ipBlockCandidates at h
  cases hr : (i.get "cidr").bind Json.asStr with
  | none =>
    simp only [hr] at h
    cases h
    simp
  | some ra =>
    simp only [hr] at h
    obtain ⟨ci, hc, h⟩ := bind_eq_ok.1 h
    obtain ⟨exc, he, h⟩ := bind_eq_ok.1 h
    cases h
    have hb : (∃ tx bl, some ra = some tx ∧ parseIpv4Cidr tx = .ok bl ∧ bl.contains ip) ↔
        ci.contains ip := by
      constructor
      · rintro ⟨_, bl, ⟨⟩, hd, hi⟩
        cases hc.symm.trans hd
        exact hi
      · intro hi
        exact ⟨ra, ci, rfl, hc, hi⟩
    have hx : (∀ tx ∈ exceptTexts i, ∀ bl, parseIpv4Cidr tx = .ok bl →
        bl.contains ip = false) ↔ ∀ ex ∈ exc, ex.contains ip = false := by
      constructor
      · intro ho ex hm
        obtain ⟨tx, ht, hd⟩ := of_mem_mapM_ok he ex hm
        exact ho tx ht ex hd
      · intro ho tx ht bl hd
        obtain ⟨ex, hm, hl⟩ := mem_of_mapM_ok he tx ht
        cases hd.symm.trans hl
        exact ho bl hm
    rw [hb, hx]
    simp [NetworkPolicyPeerMatch.matches]

variable {p : List PeerCandidate} {pod : PodInfo} {entry e : Json} {packet pt : Packet}

section Peers

variable {ns : String} {allPods : List PodInfo} {namespaces : NamespaceLabels} {peer pee : Json}
  {ca : List PeerCandidate} {ip : Ipv4Addr}

theorem peerSelects_iff {n po : Option (List LabelRequirement)}
    (hn : NoNulls pee) (hs : optionalSelector (pee.get "namespaceSelector") = .ok n)
    (hp : optionalSelector (pee.get "podSelector") = .ok po) :
    pod ∈ allPods ∧ peerSelects n po ns namespaces pod ↔
      PeerPod allPods namespaces ns pee pod := by
  unfold PeerPod peerSelects
  rw [setField_eq_get (hn "namespaceSelector" (by simp)), setField_eq_get (hn "podSelector" (by simp)),
    Bool.and_eq_true]
  refine and_congr_right fun _ => and_congr ?_ ?_
  · rcases optionalSelector_eq_ok.1 hs with ⟨ho, rfl⟩ | ⟨value, requirements, hso, hr, rfl⟩
    · simp [ho]
    · simp [hso, Selects, hr]
  · rcases optionalSelector_eq_ok.1 hp with ⟨ho, rfl⟩ | ⟨value, requirements, hso, hr, rfl⟩
    · simp [ho]
    · simp [hso, Selects, hr]

theorem peerCandidates_holds (hn : NoNulls pee) (h : peerCandidates ns allPods namespaces pee = .ok ca) :
    (∃ c ∈ ca, c.policyMatch.matches ip) ↔
      PeerHolds allPods namespaces ns pee ip := by
  unfold PeerHolds
  rw [setField_eq_get (hn "ipBlock" (by simp))]
  cases hb : pee.get "ipBlock" with
  | some ipB =>
    rw [peerCandidates, hb] at h
    exact ipBlockCandidates_holds h ip
  | none =>
    have hs : (setField pee "namespaceSelector" = none ∧ setField pee "podSelector" = none) ↔
        (pee.get "namespaceSelector").isNone ∧ (pee.get "podSelector").isNone := by
      rw [setField_eq_get (hn "namespaceSelector" (by simp)), setField_eq_get (hn "podSelector" (by simp))]
      simp
    rw [hs]
    by_cases hg : (pee.get "namespaceSelector").isNone ∧ (pee.get "podSelector").isNone
    · rw [peerCandidates, hb] at h
      cases (if_pos hg).symm.trans h
      simp [PeerCandidate.any, NetworkPolicyPeerMatch.matches, hg]
    · obtain ⟨nsS, po, hns, hp, rfl⟩ := (peerCandidates_of_selectors hb hg).1 h
      have ho : ∀ pod, pod ∈ allPods ∧ peerSelects nsS po ns namespaces pod ↔
          PeerPod allPods namespaces ns pee pod := fun pod => peerSelects_iff hn hns hp
      constructor
      · rintro ⟨c, hm, ha⟩
        obtain ⟨pod, hp', rfl⟩ := mem_map.1 hm
        exact .inr ⟨pod, (ho pod).1 (mem_filter.1 hp'), matches_hostMatch.1 ha⟩
      · rintro (hno | ⟨pod, he, hi⟩)
        · exact absurd hno hg
        · have hm := mem_filter.2 ((ho pod).2 he)
          exact ⟨_, mem_map_of_mem hm, matches_hostMatch.2 hi⟩

theorem peersForRule_holds {pe : Option Json}
    (hn : ∀ peer ∈ items pe, NoNulls peer) (h : peersForRule pe ns allPods namespaces = .ok p) :
    (∃ c ∈ p, c.policyMatch.matches ip) ↔
      PeersHold allPods namespaces ns pe ip := by
  unfold PeersHold
  by_cases hit : items pe = []
  · cases (if_pos hit).symm.trans h
    simp [PeerCandidate.any, NetworkPolicyPeerMatch.matches, hit]
  · constructor
    · rintro ⟨c, hm, ha⟩
      obtain ⟨peer, hp, ca, hc, hm⟩ := of_mem_peersForRule hit h c hm
      exact .inr ⟨peer, hp, (peerCandidates_holds (hn peer hp) hc).1 ⟨c, hm, ha⟩⟩
    · rintro (ho | ⟨peer, hp, hh⟩)
      · exact absurd ho hit
      · obtain ⟨ca, hc⟩ :=
          peerCandidates_ok_iff.2 (peersForRule_ok_iff.1 ⟨p, h⟩ peer hp)
        obtain ⟨c, hm, ha⟩ := (peerCandidates_holds (hn peer hp) hc).2 hh
        obtain ⟨ke, hke, heq⟩ := (policyMatch_peersForRule hit h c.policyMatch).2
          ⟨peer, hp, ca, hc, c, hm, rfl⟩
        exact ⟨ke, hke, heq ▸ ha⟩

def podCandidate (pod : PodInfo) : PeerCandidate := ⟨hostMatch pod.ip, pod.namedPorts⟩

def SelectorPeer (peer : Json) : Prop :=
  peer.get "ipBlock" = none ∧ ¬((peer.get "namespaceSelector").isNone ∧ (peer.get "podSelector").isNone)

theorem candidate_of_selectors (hs : SelectorPeer pee) (h : peerCandidates ns allPods namespaces pee = .ok ca) :
    ∀ c ∈ ca, ∃ pod ∈ allPods, c = podCandidate pod := by
  obtain ⟨nsS, po, -, -, rfl⟩ := (peerCandidates_of_selectors hs.1 hs.2).1 h
  intro c hm
  obtain ⟨pod, hp, rfl⟩ := mem_map.1 hm
  exact ⟨pod, (mem_filter.1 hp).1, rfl⟩

theorem candidate_cases (h : peerCandidates ns allPods namespaces pee = .ok ca) :
    ∀ c ∈ ca, c.namedPorts = Table.empty ∨ ∃ pod ∈ allPods, c = podCandidate pod := by
  intro c hm
  by_cases hs : SelectorPeer pee
  · exact .inr (candidate_of_selectors hs h c hm)
  · refine .inl ?_
    unfold peerCandidates at h
    cases hb : pee.get "ipBlock" with
    | some ipB =>
      simp only [hb, ipBlockCandidates] at h
      split at h
      · cases h
        exact nomatch hm
      · obtain ⟨ci, -, h⟩ := bind_eq_ok.1 h
        obtain ⟨ex, -, h⟩ := bind_eq_ok.1 h
        cases h
        rw [mem_singleton.1 hm]
    | none =>
      have hn : (pee.get "namespaceSelector").isNone ∧ (pee.get "podSelector").isNone := by
        by_contra hg
        exact hs ⟨hb, hg⟩
      simp only [hb] at h
      cases (if_pos hn).symm.trans h
      rw [mem_singleton.1 hm]
      rfl

variable {pe : Option Json}

theorem peer_cases (h : peersForRule pe ns allPods namespaces = .ok p) :
    ∀ peer ∈ p, peer.namedPorts = Table.empty ∨ ∃ pod ∈ allPods, peer = podCandidate pod := by
  intro can hm
  by_cases hit : items pe = []
  · cases (if_pos hit).symm.trans h
    rw [mem_singleton.1 hm]
    exact .inl rfl
  · obtain ⟨peer, -, ca, hc, hm⟩ := of_mem_peersForRule hit h can hm
    exact candidate_cases hc can hm

theorem peer_of_selectors (ht : items pe ≠ []) (hs : ∀ peer ∈ items pe, SelectorPeer peer)
    (h : peersForRule pe ns allPods namespaces = .ok p) :
    ∀ peer ∈ p, ∃ pod ∈ allPods, peer = podCandidate pod := by
  intro can hm
  obtain ⟨peer, hp, ca, hc, hm⟩ := of_mem_peersForRule ht h can hm
  exact candidate_of_selectors (hs peer hp) hc can hm

end Peers

/-! ## Ports -/

def PortNumbers (entry : Json) : Prop :=
  ∀ key ∈ ["port", "endPort"], ∀ number, entry.get key = some (.num number) → 0 ≤ number ∧ number < 65536

variable (direction : NetworkPolicyDirection)

def EntryMatches (pod : PodInfo) (peer : PeerCandidate) (entry : Json) (packet : Packet) : Prop :=
  ∃ spec port, portSpec entry = some spec ∧ resolvePortSpec spec direction pod peer = some port ∧
    (port.all fun port => port.matches packet) = true

def resolvingPorts (pod : PodInfo) (peer : PeerCandidate) : NamedPorts :=
  match direction with
  | .ingress => pod.namedPorts
  | .egress => peer.namedPorts

theorem asU64_port (h : 0 ≤ nr ∧ nr < 65536) : (Json.num nr).asU64 = some nr.toNat := by
  have hu64 : 0 ≤ nr ∧ nr < 2 ^ 64 := ⟨h.1, by omega⟩
  rw [Json.asU64, if_pos hu64]

theorem u16TryFrom_port (h : 0 ≤ nr ∧ nr < 65536) : u16TryFrom nr.toNat = some (BitVec.ofNat 16 nr.toNat) := by
  have hu16 : nr.toNat < 65536 := by omega
  rw [u16TryFrom, if_pos hu16]

theorem toNat_port (h : 0 ≤ number ∧ number < 65536) : ((BitVec.ofNat 16 number.toNat).toNat : Int) = number := by
  rw [BitVec.toNat_ofNat]
  omega

section Entries

variable {direction : NetworkPolicyDirection} {peer pee : PeerCandidate}

theorem endPort_eq (hu : PortNumbers e) (hp : e.get "port" = some (.num first)) :
    (((e.get "endPort").bind Json.asU64).bind u16TryFrom).getD (BitVec.ofNat 16 first.toNat) =
        BitVec.ofNat 16 (lastPort e first).toNat ∧
      0 ≤ lastPort e first ∧ lastPort e first < 65536 := by
  have hf1 := hu "port" (by simp) first hp
  unfold lastPort
  cases he : e.get "endPort" with
  | none => exact ⟨rfl, hf1⟩
  | some v =>
    cases v with
    | num la =>
      have hl := hu "endPort" (by simp) la he
      refine ⟨?_, hl⟩
      rw [bind_some, asU64_port hl, bind_some, u16TryFrom_port hl]
      rfl
    | _ => exact ⟨rfl, hf1⟩

theorem entryMatches_iff_matches {sp : NetworkPolicyPortSpec} {po : NetworkPolicyPortMatch}
    (hp : portSpec e = some sp) (hr : resolvePortSpec sp direction pod pee = some (some po)) :
    EntryMatches direction pod pee e packet ↔ po.matches packet := by
  constructor
  · rintro ⟨_, _, hs', hr', hm⟩
    cases hp.symm.trans hs'
    cases hr.symm.trans hr'
    exact hm
  · intro hm
    exact ⟨sp, some po, hp, hr, hm⟩

theorem portMatch_matches_iff {po : NetworkPolicyPortMatch} : po.matches pt ↔ pt.protocol = po.protocol.ipProto ∧
      po.port.toNat ≤ pt.destinationPort.toNat ∧ pt.destinationPort.toNat ≤ po.endPort.toNat := by
  simp [NetworkPolicyPortMatch.matches, BitVec.le_def]

theorem portSpec_number {po : Protocol} (hu : PortNumbers e)
    (hp : e.get "port" = some (.num first)) (hr : entryProtocol e = some po) :
    portSpec e = if lastPort e first < first then none
      else some (.numeric ⟨po, BitVec.ofNat 16 first.toNat, BitVec.ofNat 16 (lastPort e first).toNat⟩) := by
  have hf1 := hu "port" (by simp) first hp
  obtain ⟨he, hl⟩ := endPort_eq hu hp
  have hlt : BitVec.ofNat 16 (lastPort e first).toNat < BitVec.ofNat 16 first.toNat ↔ lastPort e first < first := by
    rw [BitVec.lt_def, ← Int.ofNat_lt, toNat_port hl, toNat_port hf1]
  unfold portSpec
  rw [← entryProtocol, hr, hp]
  simp [bind_eq_bind, bind_some, asU64_port hf1, u16TryFrom_port hf1, he, hlt]

theorem entryMatches_number (hn : PortNumbers e) (hp : e.get "port" = some (.num first)) :
    EntryMatches direction pod pee e pt ↔ ∃ po, entryProtocol e = some po ∧ pt.protocol = po.ipProto ∧
        first ≤ pt.destinationPort.toNat ∧ (pt.destinationPort.toNat : Int) ≤ lastPort e first := by
  have hf1 := toNat_port (hn "port" (by simp) first hp)
  have hl := toNat_port (endPort_eq hn hp).2
  cases hr : entryProtocol e with
  | none =>
    have hd : portSpec e = none := by
      unfold portSpec
      rw [← entryProtocol, hr]
      rfl
    simp [EntryMatches, hd]
  | some po =>
    by_cases he : lastPort e first < first
    · have hs := (portSpec_number hn hp hr).trans (if_pos he)
      constructor
      · rintro ⟨_, _, hs', -⟩
        cases hs.symm.trans hs'
      · rintro ⟨_, _, _, hg, hle⟩
        omega
    · have hs := (portSpec_number hn hp hr).trans (if_neg he)
      rw [entryMatches_iff_matches hs rfl, portMatch_matches_iff]
      simp only [Option.some.injEq, exists_eq_left']
      refine and_congr_right fun _ => ?_
      omega

theorem entryMatches_name {name : String} (hp : e.get "port" = some (.str name)) : EntryMatches direction pod pee e pt ↔
      ∃ po, entryProtocol e = some po ∧ pt.protocol = po.ipProto ∧
        (resolvingPorts direction pod pee).number name po = some pt.destinationPort := by
  have hs : portSpec e = (entryProtocol e).map fun po => .named po name := by
    unfold portSpec
    rw [← entryProtocol, hp]
    cases entryProtocol e <;> rfl
  have hr : ∀ po, resolvePortSpec (.named po name) direction pod pee =
      ((resolvingPorts direction pod pee).number name po).map fun port => some ⟨po, port, port⟩ := by
    intro po
    cases direction <;> rfl
  cases ho : entryProtocol e with
  | none =>
    rw [ho] at hs
    simp [EntryMatches, hs]
  | some po =>
    rw [ho] at hs
    cases hn : (resolvingPorts direction pod pee).number name po with
    | none => simp [EntryMatches, hs, hr, hn]
    | some nr =>
      have hp' := hr po
      rw [hn] at hp'
      rw [entryMatches_iff_matches hs hp', portMatch_matches_iff]
      simp only [Option.some.injEq, exists_eq_left', hn, ← BitVec.toNat_inj]
      refine and_congr_right fun _ => ?_
      omega

theorem EntryMatches.port (h : EntryMatches direction pod pee e pt) :
    (∃ number, e.get "port" = some (.num number)) ∨ ∃ nm, e.get "port" = some (.str nm) := by
  obtain ⟨sp, _, hs, -⟩ := h
  obtain ⟨pr, -, hs⟩ := bind_eq_some_iff.1 hs
  obtain ⟨v, hv, hs⟩ := bind_eq_some_iff.1 hs
  cases v with
  | num number => exact .inl ⟨number, hv⟩
  | str nm => exact .inr ⟨nm, hv⟩
  | _ => cases hs

/-- Some spec of a list of entries resolves to a port that a packet is to. -/
def PortMatched (direction : NetworkPolicyDirection) (pod : PodInfo) (peer : PeerCandidate) (portsValue : Option Json)
    (packet : Packet) : Prop :=
  items portsValue = [] ∨ ∃ entry ∈ items portsValue, EntryMatches direction pod peer entry packet

theorem portSpecsForRule_match {pr : Option Json} :
    (∃ sp ∈ portSpecsForRule pr, ∃ po, resolvePortSpec sp direction pod pee = some po ∧
        (po.all fun po => po.matches packet)) ↔
      PortMatched direction pod pee pr packet := by
  unfold PortMatched portSpecsForRule
  by_cases hit : items pr = []
  · simp [hit, resolvePortSpec]
  · rw [if_neg hit]
    constructor
    · rintro ⟨sp, hme, po, hr, hm⟩
      obtain ⟨e, he, hs⟩ := mem_filterMap.1 hme
      exact .inr ⟨e, he, sp, po, hs, hr, hm⟩
    · rintro (hn | ⟨e, he, sp, po, hs, hr, hm⟩)
      · exact absurd hn hit
      · exact ⟨sp, mem_filterMap.2 ⟨e, he, hs⟩, po, hr, hm⟩

end Entries

/-! ## Rules -/

theorem flow_matches_iff {f : NetworkPolicyFlow} : f.matches pt ↔ f.podIp = pt.podEnd f.direction ∧
      f.peer.matches (pt.peerEnd f.direction) ∧
      (f.port.all fun po => po.matches pt) := by
  obtain ⟨direction, podIp, pee, po⟩ := f
  cases direction <;>
    simp [NetworkPolicyFlow.matches, Packet.podEnd, Packet.peerEnd, and_assoc, @eq_comm _ podIp]

theorem ruleFlows_match {direction : NetworkPolicyDirection} {s : List PodInfo} {pr : Option Json} :
    (∃ f ∈ ruleFlows direction s p (portSpecsForRule pr), f.matches packet) ↔
      ∃ pod ∈ s, pod.ip = packet.podEnd direction ∧ ∃ peer ∈ p, peer.policyMatch.matches (packet.peerEnd direction) ∧
          PortMatched direction pod peer pr packet := by
  constructor
  · rintro ⟨f, hm, ha⟩
    obtain ⟨pod, ho, peer, he, sp, hs, po, hr, rfl⟩ := mem_ruleFlows.1 hm
    obtain ⟨hi, hpee, hp⟩ := flow_matches_iff.1 ha
    exact ⟨pod, ho, hi, peer, he, hpee, portSpecsForRule_match.1 ⟨sp, hs, po, hr, hp⟩⟩
  · rintro ⟨pod, ho, hi, peer, he, hpee, hps⟩
    obtain ⟨sp, hs, po, hr, hp⟩ := portSpecsForRule_match.2 hps
    exact ⟨_, mem_ruleFlows.2 ⟨pod, ho, peer, he, sp, hs, po, hr, rfl⟩, flow_matches_iff.2 ⟨hi, hpee, hp⟩⟩

/-- A rule whose fields are what they seem: none of a peer's is null, and its numbers are port numbers. -/
structure PlainRule (rule : Json) : Prop where
  noNulls : ∀ peer ∈ items (rule.get direction.peersField), NoNulls peer
  numbers : ∀ entry ∈ items (rule.get "ports"), PortNumbers entry

/-- A rule no entry of which is lost for a packet: each of its protocol has a port, and a name in an egress rule to a
Pod is one of Pods that the peers select, and that share its address only with Pods of the same named ports. -/
structure KeptRule (allPods : List PodInfo) (direction : NetworkPolicyDirection) (packet : Packet) (rule : Json) :
    Prop extends PlainRule direction rule where
  given : ∀ entry ∈ items (rule.get "ports"), ∀ protocol, entryProtocol entry = some protocol →
    packet.protocol = protocol.ipProto → setField entry "port" ≠ none
  names : direction = .egress → ∀ entry ∈ items (rule.get "ports"), ∀ name, entry.get "port" = some (.str name) →
    ∀ receiver ∈ allPods, receiver.ip = packet.destination →
      items (rule.get direction.peersField) ≠ [] ∧
        (∀ peer ∈ items (rule.get direction.peersField), SelectorPeer peer) ∧
        ∀ other ∈ allPods, other.ip = receiver.ip → other.namedPorts = receiver.namedPorts

variable {direction : NetworkPolicyDirection} {rule : Json} {allPods : List PodInfo} {namespaces : NamespaceLabels}
  {peer pee : PeerCandidate}

theorem entry_sound (hu : PortNumbers e) (hpe : pee.namedPorts = Table.empty ∨ ∃ pod ∈ allPods, pee = podCandidate pod)
    (hf : pee.policyMatch.matches (packet.peerEnd direction))
    (h : EntryMatches direction pod pee e packet) : PortHolds allPods direction pod e packet := by
  unfold PortHolds
  rcases h.port with ⟨nr, hp⟩ | ⟨nm, hp⟩
  · rw [setField_eq_get (by simp [hp]), hp]
    exact (entryMatches_number hu hp).1 h
  · rw [setField_eq_get (by simp [hp]), hp]
    obtain ⟨pr, hr, hk, hn⟩ := (entryMatches_name hp).1 h
    refine ⟨pr, hr, hk, ?_⟩
    cases direction with
    | ingress => exact ⟨pod, rfl, hn⟩
    | egress =>
      rcases hpe with hm | ⟨rcv, he, rfl⟩
      · rw [resolvingPorts, hm] at hn
        cases hn
      · exact ⟨rcv, ⟨he, matches_hostMatch.1 hf⟩, hn⟩

theorem rule_sound (hl : PlainRule direction rule)
    (hpee : peersForRule (rule.get direction.peersField) pod.ns allPods namespaces = .ok p) (hp : pee ∈ p)
    (hf : pee.policyMatch.matches (packet.peerEnd direction))
    (hs : PortMatched direction pod pee (rule.get "ports") packet) :
    RuleHolds allPods namespaces direction pod rule packet := by
  refine ⟨(peersForRule_holds hl.noNulls hpee).1 ⟨pee, hp, hf⟩, ?_⟩
  rcases hs with hn | ⟨e, he, hm⟩
  · exact .inl hn
  · exact .inr ⟨e, he, entry_sound (hl.numbers e he) (peer_cases hpee pee hp) hf hm⟩

theorem get_of_setField {vl child : Json} {k : String} (h : setField vl k = some child) : vl.get k = some child :=
  (filter_eq_some_iff.1 h).1

section

variable (hke : KeptRule allPods direction packet rule)
  (hpee : peersForRule (rule.get direction.peersField) pod.ns allPods namespaces = .ok p)
include hke hpee

theorem entry_complete (hpe : pee ∈ p) (ha : pee.policyMatch.matches (packet.peerEnd direction))
    (he : e ∈ items (rule.get "ports")) (h : PortHolds allPods direction pod e packet) :
    EntryMatches direction pod pee e packet := by
  obtain ⟨pr, hr, hk, hp⟩ := h
  obtain ⟨v, hs⟩ := ne_none_iff_exists'.1 (hke.given e he pr hr hk)
  have hg := get_of_setField hs
  rw [hs] at hp
  cases v with
  | num first => exact (entryMatches_number (hke.numbers e he) hg).2 ⟨pr, hr, hk, hp⟩
  | str nm =>
    obtain ⟨rcv, hc, hn⟩ := hp
    refine (entryMatches_name hg).2 ⟨pr, hr, hk, ?_⟩
    cases direction with
    | ingress =>
      cases hc
      exact hn
    | egress =>
      -- the peer is a Pod at the destination, so it has the named ports of the receiving one
      obtain ⟨hit, hl, hh⟩ := hke.names rfl e he nm hg rcv hc.1 hc.2
      obtain ⟨fo, hf, rfl⟩ := peer_of_selectors hit hl hpee pee hpe
      have hi : fo.ip = rcv.ip := (matches_hostMatch.1 ha).trans hc.2.symm
      have hps : fo.namedPorts = rcv.namedPorts := hh fo hf hi
      exact (congrArg (fun ports => NamedPorts.number ports nm pr) hps).trans hn
  | _ => exact absurd hp not_false

theorem rule_complete (h : RuleHolds allPods namespaces direction pod rule packet) :
    ∃ peer ∈ p, peer.policyMatch.matches (packet.peerEnd direction) ∧
      PortMatched direction pod peer (rule.get "ports") packet := by
  obtain ⟨hf, hs⟩ := h
  obtain ⟨peer, hp, hm⟩ := (peersForRule_holds hke.noNulls hpee).2 hf
  refine ⟨peer, hp, hm, ?_⟩
  rcases hs with hn | ⟨e, he, hh⟩
  · exact .inl hn
  · exact .inr ⟨e, he, entry_complete hke hpee hp hm he hh⟩

end

end Klights.Network
