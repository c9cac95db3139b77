import Klights.Network.Policy
import Klights.Selector.Parse

/-!
# NetworkPolicy planning

`NetworkPolicyPlan::from_resources` (`service_routing/network_policy.rs`): the plan of the stored policies, Pods and
namespaces. The policies are taken one by one, and the first text that cannot be read ends the planning.

- `peersForRule_ok_iff`, `of_mem_peersForRule`, `policyMatch_peersForRule`: the peers of a rule, one for each address
  or block;
- `mem_ruleFlows`: the flows of a rule;
- `fromResources_ok_iff`: when there is a plan;
- `fromResources_has`: what it holds.
-/

namespace Klights.Network

open Lib Selector Store NetworkPolicyPlan Table Json

/-! ## Sets -/

deriving instance Ord for Protocol
deriving instance Ord for NetworkPolicyDirection
deriving instance Ord for Ipv4CidrMatch
deriving instance Ord for NetworkPolicyPeerMatch
deriving instance Ord for NetworkPolicyPortMatch
deriving instance Ord for NetworkPolicyFlow

def insertSet {α : Type} [DecidableEq α] [Ord α] (set : List α) (x : α) : List α :=
  if x ∈ set then set else set.orderedInsert (fun a b => (compare a b).isLE = true) x

@[simp] theorem mem_insertSet {α : Type} [DecidableEq α] [Ord α] {s : List α} {x y : α} :
    y ∈ insertSet s x ↔ y ∈ s ∨ y = x := by
  unfold insertSet
  split
  · rename_i hx
    constructor
    · exact .inl
    · rintro (hy | rfl)
      · exact hy
      · exact hx
  · rw [List.mem_orderedInsert, or_comm]

/-! ## What is read of the resources -/

/-- An empty or absent protocol is TCP. -/
def Protocol.parse (s : Option String) : Option Protocol :=
  let protocol := (s.filter fun value => value ≠ "").getD "TCP"
  let upper := String.ofList (protocol.toList.map Char.toUpper)
  if upper = "TCP" then some .tcp
  else if upper = "UDP" then some .udp
  else if upper = "SCTP" then some .sctp
  else none

def u16TryFrom (n : Nat) : Option (BitVec 16) := if n < 65536 then some (BitVec.ofNat 16 n) else none

abbrev Labels := Option (List (String × Json))

abbrev NamedPorts := Table (Prod.fst : (String × Protocol) × BitVec 16 → String × Protocol)

def NamedPorts.number (ports : NamedPorts) (name : String) (protocol : Protocol) : Option (BitVec 16) :=
  (ports.find (name, protocol)).map Prod.snd

structure PodInfo where
  ns : String
  ip : Ipv4Addr
  labels : Labels
  namedPorts : NamedPorts
  deriving DecidableEq

structure PeerCandidate where
  policyMatch : NetworkPolicyPeerMatch
  namedPorts : NamedPorts

def PeerCandidate.any : PeerCandidate := ⟨.any, empty⟩

structure PolicyTypes where
  ingress : Bool
  egress : Bool

def policyTypesFor (spec : Json) : PolicyTypes :=
  match (spec.get "policyTypes").bind asArray with
  | some types =>
    ⟨types.any fun value => value.asStr = some "Ingress", types.any fun value => value.asStr = some "Egress"⟩
  | none => ⟨true, (spec.get "egress").isSome⟩

/-- A named container port, if its name, protocol and number can be read. -/
def namedPort (port : Json) : Option ((String × Protocol) × BitVec 16) := do
  let name ← ((port.get "name").bind asStr).filter fun value => value ≠ ""
  let protocol ← Protocol.parse ((port.get "protocol").bind asStr)
  let number ← ((port.get "containerPort").bind asU64).bind u16TryFrom
  return ((name, protocol), number)

def namedPortsFromPod (pod : Json) : NamedPorts :=
  let containers := ((pod.pointer ["spec", "containers"]).bind asArray).getD []
  let ports := containers.flatMap fun container => ((container.get "ports").bind asArray).getD []
  (ports.filterMap namedPort).foldl put empty

def ipv4FromStr (s : String) : Option Ipv4Addr := (parseIpv4Addr s).map (BitVec.ofNat 32)

def podInfo (pod : Json) : Option PodInfo := do
  let ns ← pod.strAt ["metadata", "namespace"]
  let ip ← (pod.strAt ["status", "podIP"]).bind ipv4FromStr
  return ⟨ns, ip, labelsOf pod, namedPortsFromPod pod⟩

def podInfosFromResources (pods : List Json) : List PodInfo := pods.filterMap podInfo

abbrev NamespaceLabels := Table (Prod.fst : String × Labels → String)

def namespaceLabelsFromResources (namespaces : List Json) : NamespaceLabels :=
  (namespaces.filterMap fun ns => (ns.strAt ["metadata", "name"]).map fun name => (name, labelsOf ns)).foldl
    put empty

/-- The labels of a namespace, none if it is unknown. -/
def NamespaceLabels.labels (namespaces : NamespaceLabels) (ns : String) : Labels :=
  (namespaces.find ns).bind Prod.snd

/-! ## Peers -/

inductive PlanError where
  | selector (error : LabelSelectorParseError)
  /-- `CIDR must be a.b.c.d/prefix: {raw}` -/
  | cidrForm (raw : String)
  /-- The error of `Ipv4Addr::from_str`. -/
  | cidrAddress
  /-- The error of `u8::from_str`. -/
  | cidrLength
  /-- `IPv4 CIDR prefix must be <= 32: {raw}` -/
  | cidrLengthRange (raw : String)
  deriving DecidableEq

def parseIpv4Cidr (raw : String) : Except PlanError Ipv4CidrMatch :=
  match splitOnce ['/'] raw.toList with
  | none => .error (.cidrForm raw)
  | some (addr, length) =>
    match ipv4FromStr (String.ofList addr) with
    | none => .error .cidrAddress
    | some ip =>
      match parseU8 length with
      | none => .error .cidrLength
      | some bits =>
        if bits > 32 then .error (.cidrLengthRange raw)
        else
          let mask : Ipv4Addr := if bits = 0 then 0 else BitVec.allOnes 32 <<< (32 - bits)
          .ok ⟨ip &&& mask, mask⟩

def Ipv4CidrMatch.host (ip : Ipv4Addr) : Ipv4CidrMatch := ⟨ip, BitVec.allOnes 32⟩

def hostMatch (ip : Ipv4Addr) : NetworkPolicyPeerMatch := .ipBlock (.host ip) []

def exceptTexts (ipBlock : Json) : List String :=
  (((ipBlock.get "except").bind asArray).getD []).filterMap asStr

/-- The candidate of an `ipBlock`, none without a `cidr`. -/
def ipBlockCandidates (ipBlock : Json) : Except PlanError (List PeerCandidate) :=
  match (ipBlock.get "cidr").bind asStr with
  | none => .ok []
  | some raw => do
    let cidr ← parseIpv4Cidr raw
    let except ← (exceptTexts ipBlock).mapM parseIpv4Cidr
    .ok [⟨.ipBlock cidr except, empty⟩]

def optionalSelector (selector : Option Json) : Except PlanError (Option (List LabelRequirement)) :=
  match selector with
  | none => .ok none
  | some value => ((fromK8sSelector value).mapError .selector).map some

def peerSelects (namespaceSelector podSelector : Option (List LabelRequirement)) (policyNamespace : String)
    (namespaces : NamespaceLabels) (pod : PodInfo) : Bool :=
  (match namespaceSelector with
    | some requirements => matchesLabels requirements (namespaces.labels pod.ns)
    | none => pod.ns = policyNamespace) &&
    podSelector.all fun requirements => matchesLabels requirements pod.labels

/-- The candidates one entry of `from` or `to` adds. -/
def peerCandidates (policyNamespace : String) (allPods : List PodInfo) (namespaces : NamespaceLabels) (peer : Json) :
    Except PlanError (List PeerCandidate) :=
  match peer.get "ipBlock" with
  | some ipBlock => ipBlockCandidates ipBlock
  | none =>
    if (peer.get "namespaceSelector").isNone ∧ (peer.get "podSelector").isNone then .ok [.any]
    else do
      let namespaceSelector ← optionalSelector (peer.get "namespaceSelector")
      let podSelector ← optionalSelector (peer.get "podSelector")
      .ok ((allPods.filter (peerSelects namespaceSelector podSelector policyNamespace namespaces)).map fun pod =>
        ⟨hostMatch pod.ip, pod.namedPorts⟩)

/-- The items of a list that may be absent. -/
def items (value : Option Json) : List Json := (value.bind asArray).getD []

/-- A candidate takes the place of an earlier one for the same addresses. -/
def addPeer (policyNamespace : String) (allPods : List PodInfo) (namespaces : NamespaceLabels)
    (out : Table PeerCandidate.policyMatch) (peer : Json) : Except PlanError (Table PeerCandidate.policyMatch) :=
  (peerCandidates policyNamespace allPods namespaces peer).map fun candidates => candidates.foldl put out

/-- No peers are any peer. -/
def peersForRule (peersValue : Option Json) (policyNamespace : String) (allPods : List PodInfo)
    (namespaces : NamespaceLabels) : Except PlanError (List PeerCandidate) :=
  if items peersValue = [] then .ok [.any]
  else ((items peersValue).foldlM (addPeer policyNamespace allPods namespaces) empty).map rows

/-! ## Ports -/

inductive NetworkPolicyPortSpec where
  | any
  | numeric (port : NetworkPolicyPortMatch)
  | named (protocol : Protocol) (name : String)

/-- An entry of `ports`; one without a port, or whose port is out of range, is dropped. -/
def portSpec (port : Json) : Option NetworkPolicyPortSpec := do
  let protocol ← Protocol.parse ((port.get "protocol").bind asStr)
  let value ← port.get "port"
  match value.asU64 with
  | some number =>
    let portNumber ← u16TryFrom number
    let endPort := (((port.get "endPort").bind asU64).bind u16TryFrom).getD portNumber
    if endPort < portNumber then none else some (.numeric ⟨protocol, portNumber, endPort⟩)
  | none => value.asStr.map fun name => .named protocol name

def portSpecsForRule (portsValue : Option Json) : List NetworkPolicyPortSpec :=
  if items portsValue = [] then [.any] else (items portsValue).filterMap portSpec

/-- A named port is looked up on the selected Pod for ingress and on the peer for egress. -/
def resolvePortSpec (portSpec : NetworkPolicyPortSpec) (direction : NetworkPolicyDirection) (selectedPod : PodInfo)
    (peer : PeerCandidate) : Option (Option NetworkPolicyPortMatch) :=
  match portSpec with
  | .any => some none
  | .numeric port => some (some port)
  | .named protocol name =>
    let number := match direction with
      | .ingress => selectedPod.namedPorts.number name protocol
      | .egress => peer.namedPorts.number name protocol
    number.map fun port => some ⟨protocol, port, port⟩

/-! ## The plan -/

def NetworkPolicyPlan.empty : NetworkPolicyPlan := ⟨[], [], []⟩

variable (plan pn : NetworkPolicyPlan)

variable (direction d : NetworkPolicyDirection)

def NetworkPolicyPlan.isolate (ip : Ipv4Addr) : NetworkPolicyPlan :=
  match direction with
  | .ingress => { plan with isolatedIngress := insertSet plan.isolatedIngress ip }
  | .egress => { plan with isolatedEgress := insertSet plan.isolatedEgress ip }

def NetworkPolicyPlan.allow (flow : NetworkPolicyFlow) : NetworkPolicyPlan :=
  { plan with allowedFlows := insertSet plan.allowedFlows flow }

def NetworkPolicyDirection.rulesField : NetworkPolicyDirection → String
  | .ingress => "ingress"
  | .egress => "egress"

def NetworkPolicyDirection.peersField : NetworkPolicyDirection → String
  | .ingress => "from"
  | .egress => "to"

def PolicyTypes.has (types : PolicyTypes) : NetworkPolicyDirection → Bool
  | .ingress => types.ingress
  | .egress => types.egress

def ruleFlows (selectedPods : List PodInfo) (peers : List PeerCandidate)
    (portSpecs : List NetworkPolicyPortSpec) : List NetworkPolicyFlow :=
  selectedPods.flatMap fun pod => peers.flatMap fun peer => portSpecs.filterMap fun spec =>
    (resolvePortSpec spec direction pod peer).map fun port => ⟨direction, pod.ip, peer.policyMatch, port⟩

def appendRule (policyNamespace : String) (selectedPods allPods : List PodInfo)
    (namespaces : NamespaceLabels) (plan : NetworkPolicyPlan) (rule : Json) : Except PlanError NetworkPolicyPlan := do
  let peers ← peersForRule (rule.get direction.peersField) policyNamespace allPods namespaces
  let portSpecs := portSpecsForRule (rule.get "ports")
  .ok ((ruleFlows direction selectedPods peers portSpecs).foldl NetworkPolicyPlan.allow plan)

def appendDirectionFlows (rulesValue : Option Json)
    (policyNamespace : String) (selectedPods allPods : List PodInfo) (namespaces : NamespaceLabels) :
    Except PlanError NetworkPolicyPlan :=
  (items rulesValue).foldlM (appendRule direction policyNamespace selectedPods allPods namespaces) plan

def planDirection (spec : Json) (policyNamespace : String)
    (selectedPods allPods : List PodInfo) (namespaces : NamespaceLabels) (plan : NetworkPolicyPlan) :
    Except PlanError NetworkPolicyPlan :=
  if (policyTypesFor spec).has direction then
    appendDirectionFlows (selectedPods.foldl (fun plan pod => plan.isolate direction pod.ip) plan) direction
      (spec.get direction.rulesField) policyNamespace selectedPods allPods namespaces
  else .ok plan

def policyNamespace (policy : Json) : Option String :=
  (policy.strAt ["metadata", "namespace"]).filter fun value => value ≠ ""

def selectPods (allPods : List PodInfo) (ns : String) (selector : List LabelRequirement) : List PodInfo :=
  allPods.filter fun pod => pod.ns = ns && matchesLabels selector pod.labels

def podSelector (spec : Json) : Except PlanError (List LabelRequirement) :=
  (fromK8sSelector ((spec.get "podSelector").getD .null)).mapError .selector

def planPolicy (allPods : List PodInfo) (namespaces : NamespaceLabels) (plan : NetworkPolicyPlan) (policy : Json) :
    Except PlanError NetworkPolicyPlan :=
  match policy.get "spec", policyNamespace policy with
  | some spec, some ns => do
    let selector ← podSelector spec
    let selectedPods := selectPods allPods ns selector
    if selectedPods = [] then .ok plan
    else
      let plan ← planDirection .ingress spec ns selectedPods allPods namespaces plan
      planDirection .egress spec ns selectedPods allPods namespaces plan
  | _, _ => .ok plan

def fromResources (policies pods namespaces : List Json) : Except PlanError NetworkPolicyPlan :=
  policies.foldlM (planPolicy (podInfosFromResources pods) (namespaceLabelsFromResources namespaces)) .empty

/-! ## Which peers a rule has -/

def ReadsCidr (raw : String) : Prop := ∃ cidr, parseIpv4Cidr raw = .ok cidr

def ReadsSelector (selector : Json) : Prop := ∃ requirements, fromK8sSelector selector = .ok requirements

/-- All that is read of a peer can be: the blocks of its `ipBlock`, or its selectors. -/
def PeerReads (peer : Json) : Prop :=
  match peer.get "ipBlock" with
  | some ipBlock => ∀ raw, (ipBlock.get "cidr").bind asStr = some raw →
      ReadsCidr raw ∧ ∀ text ∈ exceptTexts ipBlock, ReadsCidr text
  | none => ∀ key ∈ ["namespaceSelector", "podSelector"], ∀ selector, peer.get key = some selector →
      ReadsSelector selector

theorem ipBlockCandidates_ok_iff (i : Json) : (∃ candidates, ipBlockCandidates i = .ok candidates) ↔
      ∀ r, (i.get "cidr").bind asStr = some r → ReadsCidr r ∧ ∀ text ∈ exceptTexts i, ReadsCidr text := by
  unfold ipBlockCandidates
  cases hr : (i.get "cidr").bind asStr with
  | none => simp
  | some r =>
    constructor
    · rintro ⟨candidates, h⟩ _ ⟨⟩
      obtain ⟨cidr, hc, h⟩ := bind_eq_ok.1 h
      obtain ⟨ex, he, -⟩ := bind_eq_ok.1 h
      exact ⟨⟨cidr, hc⟩, mapM_ok_iff.1 ⟨ex, he⟩⟩
    · intro h
      obtain ⟨⟨cidr, hc⟩, ht⟩ := h r rfl
      obtain ⟨ex, he⟩ := mapM_ok_iff.2 ht
      exact ⟨_, bind_eq_ok.2 ⟨cidr, hc, bind_eq_ok.2 ⟨ex, he, rfl⟩⟩⟩

theorem optionalSelector_eq_ok {s : Option Json} {re : Option (List LabelRequirement)} :
    optionalSelector s = .ok re ↔ (s = none ∧ re = none) ∨
        ∃ vl requirements, s = some vl ∧ fromK8sSelector vl = .ok requirements ∧ re = some requirements := by
  cases s with
  | none => simp [optionalSelector, eq_comm]
  | some vl =>
    simp only [optionalSelector, map_eq_ok, mapError_eq_ok]
    constructor
    · rintro ⟨requirements, hr, rfl⟩
      exact .inr ⟨vl, requirements, rfl, hr, rfl⟩
    · rintro (⟨hn, -⟩ | ⟨_, requirements, hs, hr, rfl⟩)
      · cases hn
      · cases hs
        exact ⟨requirements, hr, rfl⟩

theorem optionalSelector_ok_iff (s : Option Json) :
    (∃ re, optionalSelector s = .ok re) ↔ ∀ value, s = some value → ReadsSelector value := by
  cases s with
  | none => simp [optionalSelector]
  | some value => simp [optionalSelector, map_eq_ok, mapError_eq_ok, ReadsSelector]

section Peers

variable {ns : String} {allPods : List PodInfo} {namespaces : NamespaceLabels} {peer : Json}
  {candidates : List PeerCandidate}

theorem peerCandidates_of_selectors (hl : peer.get "ipBlock" = none)
    (hg : ¬((peer.get "namespaceSelector").isNone ∧ (peer.get "podSelector").isNone)) :
    peerCandidates ns allPods namespaces peer = .ok candidates ↔
      ∃ n p, optionalSelector (peer.get "namespaceSelector") = .ok n ∧
        optionalSelector (peer.get "podSelector") = .ok p ∧
        candidates = (allPods.filter (peerSelects n p ns namespaces)).map fun pd =>
          ⟨hostMatch pd.ip, pd.namedPorts⟩ := by
  unfold peerCandidates
  rw [hl]
  rw [if_neg hg]
  constructor
  · intro h
    obtain ⟨n, hn, h⟩ := bind_eq_ok.1 h
    obtain ⟨p, hp, h⟩ := bind_eq_ok.1 h
    exact ⟨n, p, hn, hp, (Except.ok.inj h).symm⟩
  · rintro ⟨n, p, hn, hp, rfl⟩
    exact bind_eq_ok.2 ⟨n, hn, bind_eq_ok.2 ⟨p, hp, rfl⟩⟩

theorem peerCandidates_ok_iff :
    (∃ candidates, peerCandidates ns allPods namespaces peer = .ok candidates) ↔ PeerReads peer := by
  unfold PeerReads
  cases hb : peer.get "ipBlock" with
  | some ipBlock =>
    have heq : peerCandidates ns allPods namespaces peer = ipBlockCandidates ipBlock := by
      rw [peerCandidates, hb]
    rw [heq]
    exact ipBlockCandidates_ok_iff ipBlock
  | none =>
    by_cases hg : (peer.get "namespaceSelector").isNone ∧ (peer.get "podSelector").isNone
    · have heq : peerCandidates ns allPods namespaces peer = .ok [.any] := by
        rw [peerCandidates, hb]
        exact if_pos hg
      have hn := Option.isNone_iff_eq_none.1 hg.1
      have hp := Option.isNone_iff_eq_none.1 hg.2
      simp [heq, hn, hp]
    · have he : (∃ candidates, peerCandidates ns allPods namespaces peer = .ok candidates) ↔
          (∃ s, optionalSelector (peer.get "namespaceSelector") = .ok s) ∧
            ∃ s, optionalSelector (peer.get "podSelector") = .ok s := by
        simp only [peerCandidates_of_selectors hb hg]
        constructor
        · rintro ⟨_, s, s', hs, hs', -⟩
          exact ⟨⟨s, hs⟩, ⟨s', hs'⟩⟩
        · rintro ⟨⟨s, hs⟩, ⟨s', hs'⟩⟩
          exact ⟨_, s, s', hs, hs', rfl⟩
      rw [he, optionalSelector_ok_iff, optionalSelector_ok_iff]
      simp

variable {pe : Option Json} {peers : List PeerCandidate}

theorem peersForRule_of_items (hi : items pe ≠ []) : peersForRule pe ns allPods namespaces = .ok peers ↔
      ∃ o, (items pe).foldlM (addPeer ns allPods namespaces) empty = .ok o ∧ o.rows = peers := by
  rw [peersForRule, if_neg hi, map_eq_ok]

theorem peersForRule_ok_iff : (∃ peers, peersForRule pe ns allPods namespaces = .ok peers) ↔
      ∀ peer ∈ items pe, PeerReads peer := by
  by_cases hi : items pe = []
  · rw [peersForRule, if_pos hi, hi]
    simp
  · have ha : ∀ (ou : Table PeerCandidate.policyMatch) (peer : Json),
        (∃ out', addPeer ns allPods namespaces ou peer = .ok out') ↔ PeerReads peer := by
      intro ou peer
      rw [← @peerCandidates_ok_iff ns allPods namespaces peer]
      simp [addPeer, map_eq_ok]
    rw [← foldlM_ok_iff ha (b := empty)]
    simp only [peersForRule_of_items hi]
    constructor
    · rintro ⟨_, ou, ho, -⟩
      exact ⟨ou, ho⟩
    · rintro ⟨ou, ho⟩
      exact ⟨_, ou, ho, rfl⟩

section

variable (hi : items pe ≠ []) (h : peersForRule pe ns allPods namespaces = .ok peers)
include hi h

theorem of_mem_peersForRule : ∀ c ∈ peers, ∃ peer ∈ items pe, ∃ candidates,
      peerCandidates ns allPods namespaces peer = .ok candidates ∧ c ∈ candidates := by
  obtain ⟨ou, ho, rfl⟩ := (peersForRule_of_items hi).1 h
  -- a row of the map after an entry is one of that entry, or was there before
  refine foldlM_invariant (Q := fun ou => ∀ c ∈ ou.rows, ∃ peer ∈ items pe, ∃ candidates,
    peerCandidates ns allPods namespaces peer = .ok candidates ∧ c ∈ candidates) ?_ ho (by simp)
  intro peer hp bef af ha hb c hm
  obtain ⟨candidates, hc, rfl⟩ := map_eq_ok.1 ha
  rcases of_mem_foldl_put hm with hn | hold
  · exact ⟨peer, hp, candidates, hc, hn⟩
  · exact hb c hold

theorem policyMatch_peersForRule (policyMatch : NetworkPolicyPeerMatch) : (∃ c ∈ peers, c.policyMatch = policyMatch) ↔
      ∃ peer ∈ items pe, ∃ candidates, peerCandidates ns allPods namespaces peer = .ok candidates ∧
        ∃ c ∈ candidates, c.policyMatch = policyMatch := by
  obtain ⟨ou, ho, rfl⟩ := (peersForRule_of_items hi).1 h
  rw [foldlM_adds (Q := fun ou => ∃ c ∈ ou.rows, c.policyMatch = policyMatch)
    (R := fun peer => ∃ candidates, peerCandidates ns allPods namespaces peer = .ok candidates ∧
        ∃ c ∈ candidates, c.policyMatch = policyMatch) ?_ ho]
  · simp
  · intro bef peer af ha
    obtain ⟨candidates, hc, rfl⟩ := map_eq_ok.1 ha
    rw [key_mem_foldl_put, hc]
    simp

end

end Peers

/-! ## What a plan holds -/

inductive PlanEntry where
  | isolated (direction : NetworkPolicyDirection) (ip : Ipv4Addr)
  | allowed (flow : NetworkPolicyFlow)

def NetworkPolicyPlan.Has : PlanEntry → Prop
  | .isolated .ingress ip => ip ∈ plan.isolatedIngress
  | .isolated .egress ip => ip ∈ plan.isolatedEgress
  | .allowed flow => flow ∈ plan.allowedFlows

namespace NetworkPolicyPlan

theorem not_has_empty (entry : PlanEntry) : ¬empty.Has entry := by
  rcases entry with ⟨_ | _, ip⟩ | flow <;> exact List.not_mem_nil

variable (plan pn : NetworkPolicyPlan)

theorem has_isolate (direction : NetworkPolicyDirection) (ip : Ipv4Addr)
    (entry : PlanEntry) : (pn.isolate direction ip).Has entry ↔ pn.Has entry ∨ entry = .isolated direction ip := by
  cases direction <;> rcases entry with ⟨_ | _, other⟩ | flow <;> simp [isolate, Has]

theorem has_allow (flow : NetworkPolicyFlow) (entry : PlanEntry) :
    (pn.allow flow).Has entry ↔ pn.Has entry ∨ entry = .allowed flow := by
  rcases entry with ⟨_ | _, other⟩ | flow <;> simp [allow, Has]

theorem has_foldl_allow (f : List NetworkPolicyFlow) (entry : PlanEntry) :
    (f.foldl allow pn).Has entry ↔ pn.Has entry ∨ ∃ flow ∈ f, entry = .allowed flow :=
  foldl_adds (Q := fun pn : NetworkPolicyPlan => pn.Has entry) fun pn flow => pn.has_allow flow entry

theorem has_foldl_isolate (direction : NetworkPolicyDirection) (ps : List PodInfo) (entry : PlanEntry) :
    (ps.foldl (fun plan p => plan.isolate direction p.ip) plan).Has entry ↔
      plan.Has entry ∨ ∃ p ∈ ps, entry = .isolated direction p.ip :=
  foldl_adds (Q := fun plan : NetworkPolicyPlan => plan.Has entry) fun plan p =>
    plan.has_isolate direction p.ip entry

end NetworkPolicyPlan

theorem mem_ruleFlows {direction : NetworkPolicyDirection} {selectedPods : List PodInfo} {peers : List PeerCandidate}
    {pr : List NetworkPolicyPortSpec} {flow : NetworkPolicyFlow} :
    flow ∈ ruleFlows direction selectedPods peers pr ↔ ∃ pd ∈ selectedPods, ∃ peer ∈ peers, ∃ spec ∈ pr, ∃ p,
        resolvePortSpec spec direction pd peer = some p ∧ ⟨direction, pd.ip, peer.policyMatch, p⟩ = flow := by
  simp [ruleFlows]

section Adds

variable (allPods : List PodInfo) (namespaces : NamespaceLabels)

def RuleAdds (direction : NetworkPolicyDirection) (ns : String) (selectedPods : List PodInfo) (rule : Json)
    (entry : PlanEntry) : Prop :=
  ∃ peers, peersForRule (rule.get direction.peersField) ns allPods namespaces = .ok peers ∧
    ∃ flow ∈ ruleFlows direction selectedPods peers (portSpecsForRule (rule.get "ports")), entry = .allowed flow

def DirectionAdds (direction : NetworkPolicyDirection) (spec : Json) (ns : String) (selectedPods : List PodInfo)
    (entry : PlanEntry) : Prop :=
  (policyTypesFor spec).has direction = true ∧ ((∃ pod ∈ selectedPods, entry = .isolated direction pod.ip) ∨
      ∃ rule ∈ items (spec.get direction.rulesField), RuleAdds allPods namespaces direction ns selectedPods rule entry)

def PolicyAdds (policy : Json) (entry : PlanEntry) : Prop :=
  ∃ spec ns selector, policy.get "spec" = some spec ∧ policyNamespace policy = some ns ∧
    podSelector spec = .ok selector ∧
    ∃ direction, DirectionAdds allPods namespaces direction spec ns (selectPods allPods ns selector) entry

def DirectionReads (direction : NetworkPolicyDirection) (spec : Json) : Prop :=
  (policyTypesFor spec).has direction = true → ∀ rule ∈ items (spec.get direction.rulesField),
    ∀ peer ∈ items (rule.get direction.peersField), PeerReads peer

/-- All that is read of a policy can be: its selector and, if that selects a Pod, the peers of its rules. -/
def PolicyReads (policy : Json) : Prop :=
  ∀ spec ns, policy.get "spec" = some spec → policyNamespace policy = some ns →
    ∃ selector, podSelector spec = .ok selector ∧
      (selectPods allPods ns selector ≠ [] → ∀ direction, DirectionReads direction spec)

variable {allPods namespaces} {d : NetworkPolicyDirection} {spec sp rule policy : Json} {ns : String}
  {se : List PodInfo} {plan pn af : NetworkPolicyPlan} {entry : PlanEntry}

theorem appendRule_has (plan : NetworkPolicyPlan) (rule : Json) (af : NetworkPolicyPlan)
    (h : appendRule d ns se allPods namespaces plan rule = .ok af) :
    af.Has entry ↔ plan.Has entry ∨ RuleAdds allPods namespaces d ns se rule entry := by
  obtain ⟨peers, hp, h⟩ := bind_eq_ok.1 h
  cases h
  rw [has_foldl_allow]
  simp [RuleAdds, hp]

theorem appendRule_ok_iff (plan : NetworkPolicyPlan) (rule : Json) :
    (∃ af, appendRule d ns se allPods namespaces plan rule = .ok af) ↔
      ∀ peer ∈ items (rule.get d.peersField), PeerReads peer := by
  rw [← @peersForRule_ok_iff ns allPods namespaces]
  simp [appendRule, bind_eq_ok]

theorem planDirection_has (h : planDirection d sp ns se allPods namespaces pn = .ok af) :
    af.Has entry ↔ pn.Has entry ∨ DirectionAdds allPods namespaces d sp ns se entry := by
  unfold DirectionAdds
  rcases ite_ok_cases h with ⟨ht, h⟩ | ⟨ht, h⟩
  · have hr := foldlM_adds (Q := fun pn : NetworkPolicyPlan => pn.Has entry) appendRule_has h
    rw [hr, has_foldl_isolate]
    simp [ht, or_assoc]
  · cases h
    simp [ht]

theorem planDirection_ok_iff : (∃ af, planDirection d spec ns se allPods namespaces pn = .ok af) ↔
      DirectionReads d spec := by
  unfold DirectionReads planDirection
  split
  · rename_i ht
    rw [appendDirectionFlows, foldlM_ok_iff appendRule_ok_iff]
    exact ⟨fun h _ => h, fun h => h ht⟩
  · rename_i ht
    simp [ht]

theorem planPolicy_has (plan : NetworkPolicyPlan) (policy : Json) (af : NetworkPolicyPlan)
    (h : planPolicy allPods namespaces plan policy = .ok af) :
    af.Has entry ↔ plan.Has entry ∨ PolicyAdds allPods namespaces policy entry := by
  unfold PolicyAdds
  unfold planPolicy at h
  split at h
  · rename_i sp ns hp hn
    obtain ⟨sl, hs, h⟩ := bind_eq_ok.1 h
    have had : af.Has entry ↔ plan.Has entry ∨
        ∃ d, DirectionAdds allPods namespaces d sp ns (selectPods allPods ns sl) entry := by
      rcases ite_ok_cases h with ⟨hno, h⟩ | ⟨-, h⟩
      · -- nothing selected adds nothing
        cases h
        simp [DirectionAdds, RuleAdds, hno, ruleFlows]
      · obtain ⟨mi, hm, h⟩ := bind_eq_ok.1 h
        rw [planDirection_has h, planDirection_has hm, or_assoc]
        refine or_congr_right ⟨?_, ?_⟩
        · rintro (had | had)
          · exact ⟨.ingress, had⟩
          · exact ⟨.egress, had⟩
        · rintro ⟨d, had⟩
          cases d with
          | ingress => exact .inl had
          | egress => exact .inr had
    rw [had, hp, hn]
    simp [hs]
  · rename_i hno
    cases h
    constructor
    · exact .inl
    · rintro (ho | ⟨sp, ns, _, hp, hn, -⟩)
      · exact ho
      · exact absurd hn (hno sp ns hp)

theorem planPolicy_ok_iff (plan : NetworkPolicyPlan) (policy : Json) :
    (∃ af, planPolicy allPods namespaces plan policy = .ok af) ↔ PolicyReads allPods policy := by
  unfold PolicyReads planPolicy
  split
  · rename_i sp ns hp hns
    constructor
    · rintro ⟨af, h⟩ _ _ hs' hn'
      cases hp.symm.trans hs'
      cases hns.symm.trans hn'
      obtain ⟨sl, hs, h⟩ := bind_eq_ok.1 h
      refine ⟨sl, hs, fun ho => ?_⟩
      rcases ite_ok_cases h with ⟨hn, -⟩ | ⟨-, h⟩
      · exact absurd hn ho
      · obtain ⟨mi, hm, h⟩ := bind_eq_ok.1 h
        intro d
        cases d with
        | ingress => exact planDirection_ok_iff.1 ⟨mi, hm⟩
        | egress => exact planDirection_ok_iff.1 ⟨af, h⟩
    · intro h
      obtain ⟨sl, hs, hr⟩ := h sp ns hp hns
      simp only [hs]
      by_cases hn : selectPods allPods ns sl = []
      · exact ⟨plan, if_pos hn⟩
      · obtain ⟨mi, hm⟩ := planDirection_ok_iff.2 (hr hn .ingress)
        obtain ⟨af, ha⟩ := planDirection_ok_iff.2 (hr hn .egress)
        exact ⟨af, (if_neg hn).trans (bind_eq_ok.2 ⟨mi, hm, ha⟩)⟩
  · rename_i hn
    refine iff_of_true ⟨plan, rfl⟩ fun sp ns hp hns => ?_
    exact absurd hns (hn sp ns hp)

end Adds

variable {pl ps namespaces : List Json} {plan pn : NetworkPolicyPlan}

theorem fromResources_ok_iff : (∃ plan, fromResources pl ps namespaces = .ok plan) ↔
      ∀ policy ∈ pl, PolicyReads (podInfosFromResources ps) policy :=
  foldlM_ok_iff planPolicy_ok_iff

theorem fromResources_has (h : fromResources pl ps namespaces = .ok pn) (entry : PlanEntry) :
    pn.Has entry ↔ ∃ policy ∈ pl,
      PolicyAdds (podInfosFromResources ps) (namespaceLabelsFromResources namespaces) policy entry := by
  have ha := foldlM_adds (Q := fun pn : NetworkPolicyPlan => pn.Has entry) planPolicy_has h
  rw [ha]
  exact or_iff_right (not_has_empty entry)

end Klights.Network
