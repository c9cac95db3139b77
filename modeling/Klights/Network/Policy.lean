import Klights.Lib.Nft

/-!
# NetworkPolicy enforcement

The rules of the NetworkPolicy chain (`service_routing/nft_table.rs`) for a plan (`service_routing/network_policy.rs`):
the accept rules of all allowed flows, then the drop rules of the isolated pods, then a return.

- `evalRule_allow`, `evalRule_drop_ingress`, `evalRule_drop_egress`: what one rule decides;
- `passes_eq`: what the chain decides;
- `passes_iff_bothSides_iff`: when that is what the two sides of a connection allow.
-/

namespace Klights.Network

open Lib.Nft BitVec CmpOp

/-! ## Plans -/

abbrev Ipv4Addr := BitVec 32

inductive Protocol where
  | tcp
  | udp
  | sctp
  deriving DecidableEq

def Protocol.ipProto : Protocol → BitVec 8
  | .tcp => 6
  | .udp => 17
  | .sctp => 132

inductive NetworkPolicyDirection where
  | ingress
  | egress
  deriving DecidableEq

structure Ipv4CidrMatch where
  network : Ipv4Addr
  mask : Ipv4Addr
  deriving DecidableEq

inductive NetworkPolicyPeerMatch where
  | any
  | ipBlock (cidr : Ipv4CidrMatch) (except : List Ipv4CidrMatch)
  deriving DecidableEq

structure NetworkPolicyPortMatch where
  protocol : Protocol
  port : BitVec 16
  endPort : BitVec 16
  deriving DecidableEq

structure NetworkPolicyFlow where
  direction : NetworkPolicyDirection
  podIp : Ipv4Addr
  peer : NetworkPolicyPeerMatch
  port : Option NetworkPolicyPortMatch
  deriving DecidableEq

/-- The three sets of a plan, each in its iteration order. -/
structure NetworkPolicyPlan where
  isolatedIngress : List Ipv4Addr
  isolatedEgress : List Ipv4Addr
  allowedFlows : List NetworkPolicyFlow
  deriving DecidableEq

structure Packet where
  source : Ipv4Addr
  destination : Ipv4Addr
  protocol : BitVec 8
  destinationPort : BitVec 16

def Packet.header (packet : Packet) : Header
  | .saddr => packet.source
  | .daddr => packet.destination
  | .protocol => packet.protocol.setWidth 32
  | .dport => packet.destinationPort.setWidth 32

/-! ## Rules -/

def exactIpMatch (field : Field) (ip : Ipv4Addr) : List Expr := [.payload field, .cmp .eq ip]

variable (field fld : Field) (cidr c : Ipv4CidrMatch)

def policyCidrMatch (op : CmpOp) : List Expr :=
  [.payload field, .bitwise cidr.mask 0, .cmp op cidr.network]

def networkPolicyPeerMatch (field : Field) : NetworkPolicyPeerMatch → List Expr
  | .any => []
  | .ipBlock cidr except =>
    policyCidrMatch field cidr .eq ++ except.flatMap fun excluded => policyCidrMatch field excluded .neq

def transportPortMatch (startPort endPort : BitVec 16) : List Expr :=
  if startPort = endPort then [.payload .dport, .cmp .eq (startPort.setWidth 32)]
  else [.payload .dport, .cmp .gte (startPort.setWidth 32)] ++ [.payload .dport, .cmp .lte (endPort.setWidth 32)]

def portMatch : Option NetworkPolicyPortMatch → List Expr
  | none => []
  | some port =>
    [.payload .protocol, .cmp .eq (port.protocol.ipProto.setWidth 32)] ++ transportPortMatch port.port port.endPort

def ruleNetworkPolicyAllow (flow : NetworkPolicyFlow) : List Expr :=
  (match flow.direction with
    | .ingress => exactIpMatch .daddr flow.podIp ++ networkPolicyPeerMatch .saddr flow.peer
    | .egress => exactIpMatch .saddr flow.podIp ++ networkPolicyPeerMatch .daddr flow.peer) ++
    portMatch flow.port ++ [.verdict .accept]

def ruleNetworkPolicyDrop (direction : NetworkPolicyDirection) (podIp : Ipv4Addr) : List Expr :=
  (match direction with
    | .ingress => exactIpMatch .daddr podIp
    | .egress => exactIpMatch .saddr podIp) ++ [.verdict .drop]

variable (plan : NetworkPolicyPlan)

def networkPolicyRules : List (List Expr) :=
  plan.allowedFlows.map ruleNetworkPolicyAllow ++ plan.isolatedIngress.map (ruleNetworkPolicyDrop .ingress) ++
    plan.isolatedEgress.map (ruleNetworkPolicyDrop .egress) ++ [[.verdict .ret]]

/-- Whether the chain lets a packet on: it is accepted, or returned to the calling chain. -/
def passes (packet : Packet) : Bool :=
  evalChain packet.header (networkPolicyRules plan) ≠ some .drop

/-! ## What a policy means -/

def Ipv4CidrMatch.contains (cidr : Ipv4CidrMatch) (ip : Ipv4Addr) : Bool := ip &&& cidr.mask = cidr.network

def NetworkPolicyPeerMatch.matches : NetworkPolicyPeerMatch → Ipv4Addr → Bool
  | .any, _ => true
  | .ipBlock cidr except, ip => cidr.contains ip && except.all fun excluded => !excluded.contains ip

def NetworkPolicyPortMatch.matches (port : NetworkPolicyPortMatch) (packet : Packet) : Bool :=
  packet.protocol = port.protocol.ipProto &&
    (port.port ≤ packet.destinationPort && packet.destinationPort ≤ port.endPort)

/-- A flow matches a packet: its pod is the end the direction names, its peer the other end. -/
def NetworkPolicyFlow.matches (flow : NetworkPolicyFlow) (packet : Packet) : Bool :=
  (match flow.direction with
    | .ingress => packet.destination = flow.podIp && flow.peer.matches packet.source
    | .egress => packet.source = flow.podIp && flow.peer.matches packet.destination) &&
    flow.port.all fun port => port.matches packet

def NetworkPolicyPlan.allows (direction : NetworkPolicyDirection) (packet : Packet) : Bool :=
  plan.allowedFlows.any fun flow => flow.direction = direction && flow.matches packet

/-- Both sides of a connection allow it: the sender's egress policies and the receiver's ingress policies. -/
def bothSidesAllow (packet : Packet) : Bool :=
  (!plan.isolatedEgress.contains packet.source || plan.allows .egress packet) &&
    (!plan.isolatedIngress.contains packet.destination || plan.allows .ingress packet)

/-! ## What one rule decides -/

variable {packet pt : Packet} {plan : NetworkPolicyPlan}

theorem guards_exactIpMatch (field : Field) (ip : Ipv4Addr) :
    Guards pt.header (exactIpMatch field ip) (pt.header field = ip) :=
  guards_cmp field .eq ip

theorem guards_policyCidrMatch_eq : Guards pt.header (policyCidrMatch fld c .eq) (c.contains (pt.header fld)) :=
  guards_masked_cmp fld c.mask .eq c.network

theorem guards_policyCidrMatch_neq : Guards pt.header (policyCidrMatch fld c .neq) (!c.contains (pt.header fld)) := by
  have h : (!c.contains (pt.header fld)) = holds .neq (pt.header fld &&& c.mask) c.network := by
    simp [holds, Ipv4CidrMatch.contains]
  rw [h]
  exact guards_masked_cmp fld c.mask .neq c.network

theorem guards_excepts (field : Field) : ∀ e : List Ipv4CidrMatch,
      Guards pt.header (e.flatMap fun excluded => policyCidrMatch field excluded .neq)
        (e.all fun excluded => !excluded.contains (pt.header field))
  | [] => guards_nil
  | excluded :: rest => (guards_policyCidrMatch_neq field excluded).append (guards_excepts field rest)

theorem guards_networkPolicyPeerMatch (field : Field) (p : NetworkPolicyPeerMatch) :
    Guards pt.header (networkPolicyPeerMatch field p) (p.matches (pt.header field)) := by
  cases p with
  | any => exact guards_nil
  | ipBlock c ex => exact (guards_policyCidrMatch_eq field c).append (guards_excepts field ex)

theorem setWidth_port_le {a b : BitVec 16} : a.setWidth 32 ≤ b.setWidth 32 ↔ a ≤ b := by
  simp only [le_def, toNat_setWidth]
  omega

theorem setWidth_inj {w : Nat} (hw : w ≤ 32) {a b : BitVec w} : a.setWidth 32 = b.setWidth 32 ↔ a = b := by
  constructor
  · intro h
    have h' := congrArg BitVec.toNat h
    have hp : (2 : Nat) ^ w ≤ 2 ^ 32 := Nat.pow_le_pow_right (by decide) hw
    simp only [toNat_setWidth, Nat.mod_eq_of_lt (Nat.lt_of_lt_of_le a.isLt hp),
      Nat.mod_eq_of_lt (Nat.lt_of_lt_of_le b.isLt hp)] at h'
    exact eq_of_toNat_eq h'
  · intro h
    rw [h]

theorem guards_transportPortMatch (s e : BitVec 16) : Guards pt.header (transportPortMatch s e)
      (s ≤ pt.destinationPort && pt.destinationPort ≤ e) := by
  unfold transportPortMatch
  split
  · rename_i heq
    subst heq
    have h : (decide (s ≤ pt.destinationPort) && decide (pt.destinationPort ≤ s)) =
        holds .eq (pt.header .dport) (s.setWidth 32) := by
      rw [Bool.eq_iff_iff]
      simp only [holds, Packet.header, Bool.and_eq_true, decide_eq_true_eq, setWidth_inj (by decide : 16 ≤ 32)]
      constructor
      · rintro ⟨hle, hg⟩
        exact BitVec.le_antisymm hg hle
      · rintro rfl
        exact ⟨BitVec.le_refl _, BitVec.le_refl _⟩
    rw [h]
    exact guards_cmp _ _ _
  · have h : (decide (s ≤ pt.destinationPort) && decide (pt.destinationPort ≤ e)) =
        (holds .gte (pt.header .dport) (s.setWidth 32) && holds .lte (pt.header .dport) (e.setWidth 32)) := by
      simp [holds, Packet.header, setWidth_port_le]
    exact (guards_cmp _ _ _).append (guards_cmp _ _ _)

theorem guards_portMatch (p : Option NetworkPolicyPortMatch) :
    Guards pt.header (portMatch p) (p.all fun p => p.matches pt) := by
  cases p with
  | none => exact guards_nil
  | some p =>
    have hp : holds .eq (pt.header .protocol) (p.protocol.ipProto.setWidth 32) =
        decide (pt.protocol = p.protocol.ipProto) := by
      simp [holds, Packet.header, setWidth_inj (by decide : 8 ≤ 32)]
    have hc : Guards pt.header [.payload .protocol, .cmp .eq (p.protocol.ipProto.setWidth 32)]
        (pt.protocol = p.protocol.ipProto) := by
      rw [← hp]
      exact guards_cmp _ _ _
    exact hc.append (guards_transportPortMatch p.port p.endPort)

theorem evalRule_allow (f : NetworkPolicyFlow) :
    evalRule pt.header 0 (ruleNetworkPolicyAllow f) = if f.matches pt then some .accept else none := by
  obtain ⟨di, po, p, por⟩ := f
  cases di with
  | ingress =>
    exact evalRule_guarded (((guards_exactIpMatch .daddr po).append
      (guards_networkPolicyPeerMatch .saddr p)).append (guards_portMatch por)) .accept 0
  | egress =>
    exact evalRule_guarded (((guards_exactIpMatch .saddr po).append
      (guards_networkPolicyPeerMatch .daddr p)).append (guards_portMatch por)) .accept 0

theorem evalRule_drop_ingress (p : Ipv4Addr) : evalRule pt.header 0 (ruleNetworkPolicyDrop .ingress p) =
      if pt.destination == p then some .drop else none :=
  evalRule_guarded (guards_exactIpMatch .daddr p) .drop 0

theorem evalRule_drop_egress (p : Ipv4Addr) : evalRule pt.header 0 (ruleNetworkPolicyDrop .egress p) =
      if pt.source == p then some .drop else none :=
  evalRule_guarded (guards_exactIpMatch .saddr p) .drop 0

/-! ## What the chain decides -/

theorem passes_eq : passes plan pt = (plan.allowedFlows.any (fun f => f.matches pt) ||
      (!plan.isolatedIngress.contains pt.destination && !plan.isolatedEgress.contains pt.source)) := by
  unfold passes networkPolicyRules
  rw [evalChain_append, evalChain_append, evalChain_append, evalChain_guarded _ _ _ (fun f _ => evalRule_allow f),
    evalChain_guarded _ _ _ (fun ip _ => evalRule_drop_ingress ip),
    evalChain_guarded _ _ _ (fun ip _ => evalRule_drop_egress ip),
    ← List.contains_eq_any_beq, ← List.contains_eq_any_beq]
  cases plan.allowedFlows.any fun f => f.matches pt <;>
    cases plan.isolatedIngress.contains pt.destination <;>
    cases plan.isolatedEgress.contains pt.source <;> rfl

theorem any_matches_eq : plan.allowedFlows.any (fun f => f.matches pt) =
    (plan.allows .egress pt || plan.allows .ingress pt) := by
  unfold NetworkPolicyPlan.allows
  induction plan.allowedFlows with
  | nil => rfl
  | cons f tl ih =>
    simp only [List.any_cons, ih]
    cases f.direction <;> cases f.matches pt <;> simp

/-- The chain lets through exactly what both sides allow, unless a flow of one direction matches while the other end is
isolated in its own direction and no flow of that direction matches. -/
theorem passes_iff_bothSides_iff (packet : Packet) : (passes plan packet = true ↔ bothSidesAllow plan packet = true) ↔
      ¬((plan.allows .egress packet = true ∧ packet.destination ∈ plan.isolatedIngress ∧
          plan.allows .ingress packet = false) ∨
        (plan.allows .ingress packet = true ∧ packet.source ∈ plan.isolatedEgress ∧
          plan.allows .egress packet = false)) := by
  rw [passes_eq, any_matches_eq]
  unfold bothSidesAllow
  rw [← List.contains_iff_mem, ← List.contains_iff_mem]
  cases plan.allows .egress packet <;> cases plan.allows .ingress packet <;>
    cases plan.isolatedIngress.contains packet.destination <;>
    cases plan.isolatedEgress.contains packet.source <;> simp

/-- A sender 10.0.0.1 that may send anywhere, and a receiver 10.0.0.2 that denies all ingress. -/
def egressOpensReceiver : NetworkPolicyPlan where
  isolatedIngress := [0x0A000002]
  isolatedEgress := [0x0A000001]
  allowedFlows := [⟨.egress, 0x0A000001, .any, none⟩]

/-- The packet from the one to the other passes, though the receiver's ingress policies allow nothing. -/
theorem egress_flow_opens_denying_receiver :
    let packet : Packet := ⟨0x0A000001, 0x0A000002, 6, 80⟩
    passes egressOpensReceiver packet ∧ bothSidesAllow egressOpensReceiver packet = false := by
  decide

end Klights.Network
