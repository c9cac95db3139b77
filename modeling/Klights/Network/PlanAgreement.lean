import Klights.Network.PolicyMeaning

/-!
# Plans against the meaning of policies

What `NetworkPolicyPlan::from_resources` holds for its policies (`Klights.Network.Plan`), compared with what they mean
(`Klights.Network.PolicyMeaning`).

- `plan_isolated_iff`, `plan_allows_iff`: the addresses and packets of a plan, by the Pods its policies select;
- `plan_follows_policies`: when there is a plan, which addresses it isolates and which packets it allows.
-/

namespace Klights.Network

open Lib Selector Store List

variable {direction d : NetworkPolicyDirection}

/-! ## Entries of a plan -/

def NetworkPolicyPlan.isolated (plan : NetworkPolicyPlan) : NetworkPolicyDirection → List Ipv4Addr
  | .ingress => plan.isolatedIngress
  | .egress => plan.isolatedEgress

theorem NetworkPolicyPlan.mem_isolated_iff {pn : NetworkPolicyPlan} {ip : Ipv4Addr} :
    ip ∈ pn.isolated d ↔ pn.Has (.isolated d ip) := by
  cases d <;> exact Iff.rfl

theorem NetworkPolicyPlan.allows_iff {pn : NetworkPolicyPlan} {pkt : Packet} : pn.allows d pkt ↔
      ∃ f, pn.Has (.allowed f) ∧ f.direction = d ∧ f.matches pkt := by
  simp [allows, Has]

theorem any_asStr_iff {values : List Json} {tx : String} :
    (values.any fun vl => vl.asStr = some tx) ↔ .str tx ∈ values := by
  rw [any_eq_true]
  constructor
  · rintro ⟨vl, hm, heq⟩
    cases vl with
    | str fo =>
      cases of_decide_eq_true heq
      exact hm
    | _ => cases of_decide_eq_true heq
  · intro hm
    exact ⟨.str tx, hm, decide_eq_true rfl⟩

theorem hasDirection_iff {p spec : Json} (htypes : TypesSet p) (hp : p.get "spec" = some spec) :
    HasDirection p direction ↔ (policyTypesFor spec).has direction := by
  obtain ⟨_, types, hs', htypes⟩ := htypes
  cases hp.symm.trans hs'
  have hh : (policyTypesFor spec).has direction ↔ .str direction.typeName ∈ types := by
    cases direction <;>
      simp only [policyTypesFor, htypes, Option.bind_some, Json.asArray, PolicyTypes.has, any_asStr_iff,
        NetworkPolicyDirection.typeName]
  rw [hh]
  constructor
  · rintro ⟨_, _, hs', ht', hm⟩
    cases hp.symm.trans hs'
    cases htypes.symm.trans ht'
    exact hm
  · intro hm
    exact ⟨spec, types, hp, htypes, hm⟩

variable {pod : PodInfo}

/-! ## What a policy adds -/

section Policies

variable {a : List PodInfo} {n : NamespaceLabels} {p spec sp rule r : Json} {entry e : PlanEntry}
  {direction d : NetworkPolicyDirection} {ns : String}

theorem mem_selectPods_iff {s : List LabelRequirement} (hp : p.get "spec" = some sp)
    (hn : policyNamespace p = some ns) (hs : podSelector sp = .ok s) :
    pod ∈ selectPods a ns s ↔ SelectedBy a p pod := by
  have hr := mapError_eq_ok.1 hs
  simp only [selectPods, mem_filter, Bool.and_eq_true, decide_eq_true_eq, SelectedBy, Selects, hp, hn,
    Option.some.injEq, exists_eq_left', hr, Except.ok.injEq]
  rw [eq_comm]

theorem rulesOf_eq (hp : p.get "spec" = some sp) : rulesOf p d = items (sp.get d.rulesField) := by
  rw [rulesOf, hp]
  rfl

theorem ruleAdds_iff {s : List PodInfo} : RuleAdds a n d ns s r entry ↔ ∃ pod ∈ s, RuleAdds a n d ns [pod] r entry := by
  simp only [RuleAdds, mem_ruleFlows]
  constructor
  · rintro ⟨pe, he, fl, ⟨pod, hp, hf⟩, rfl⟩
    exact ⟨pod, hp, pe, he, fl, ⟨pod, mem_singleton.2 rfl, hf⟩, rfl⟩
  · rintro ⟨pod, hp, pe, he, fl, ⟨_, hs, hf⟩, rfl⟩
    cases mem_singleton.1 hs
    exact ⟨pe, he, fl, ⟨pod, hp, hf⟩, rfl⟩

theorem policyAdds_iff (htypes : TypesSet p) : PolicyAdds a n p e ↔
      ∃ direction, HasDirection p direction ∧ ∃ pod, SelectedBy a p pod ∧ (e = .isolated direction pod.ip ∨
          ∃ rule ∈ rulesOf p direction, RuleAdds a n direction pod.ns [pod] rule e) := by
  constructor
  · rintro ⟨sp, ns, selector, hsp, hn, he, direction, hh, ha⟩
    refine ⟨direction, (hasDirection_iff htypes hsp).2 hh, ?_⟩
    rcases ha with ⟨pod, hp, hi⟩ | ⟨rule, hr, ha⟩
    · exact ⟨pod, (mem_selectPods_iff hsp hn he).1 hp, .inl hi⟩
    · obtain ⟨pod, hp, ha⟩ := ruleAdds_iff.1 ha
      have hs := (mem_selectPods_iff hsp hn he).1 hp
      cases hn.symm.trans hs.2.1
      exact ⟨pod, hs, .inr ⟨rule, rulesOf_eq hsp ▸ hr, ha⟩⟩
  · rintro ⟨direction, hd, pod, hs, ha⟩
    obtain ⟨-, hn, sp, hsp, selector, hrd, -⟩ := id hs
    have he : podSelector sp = .ok selector := mapError_eq_ok.2 hrd
    have hp := (mem_selectPods_iff hsp hn he).2 hs
    refine ⟨sp, pod.ns, selector, hsp, hn, he, direction, (hasDirection_iff htypes hsp).1 hd, ?_⟩
    rcases ha with hi | ⟨rule, hr, ha⟩
    · exact .inl ⟨pod, hp, hi⟩
    · exact .inr ⟨rule, rulesOf_eq hsp ▸ hr, ruleAdds_iff.2 ⟨pod, hp, ha⟩⟩

def PodAllows (allPods : List PodInfo) (namespaces : NamespaceLabels) (direction : NetworkPolicyDirection)
    (pod : PodInfo) (rule : Json) (packet : Packet) : Prop :=
  pod.ip = packet.podEnd direction ∧
    ∃ peers, peersForRule (rule.get direction.peersField) pod.ns allPods namespaces = .ok peers ∧
      ∃ peer ∈ peers, peer.policyMatch.matches (packet.peerEnd direction) = true ∧
        PortMatched direction pod peer (rule.get "ports") packet

theorem podAllows_iff {pkt : Packet} : PodAllows a n d pod r pkt ↔
      ∃ f, RuleAdds a n d pod.ns [pod] r (.allowed f) ∧ f.matches pkt := by
  constructor
  · rintro ⟨hi, pe, hp, ha⟩
    obtain ⟨f, hf, hm⟩ := ruleFlows_match.2 ⟨pod, mem_singleton.2 rfl, hi, ha⟩
    exact ⟨f, ⟨pe, hp, f, hf, rfl⟩, hm⟩
  · rintro ⟨f, ⟨pe, hp, _, hf, heq⟩, hm⟩
    cases heq
    obtain ⟨_, hs, hi, ha⟩ := ruleFlows_match.1 ⟨f, hf, hm⟩
    cases mem_singleton.1 hs
    exact ⟨hi, pe, hp, ha⟩

theorem RuleAdds.direction_eq {ps : List PodInfo} {f : NetworkPolicyFlow}
    (h : RuleAdds a n direction ns ps r (.allowed f)) : f.direction = direction := by
  obtain ⟨pe, -, _, hf, heq⟩ := h
  cases heq
  obtain ⟨_, _, _, _, _, _, _, _, rfl⟩ := mem_ruleFlows.1 hf
  rfl

theorem not_ruleAdds_isolated {ps : List PodInfo} {i : NetworkPolicyDirection} {ip : Ipv4Addr} :
    ¬RuleAdds a n d ns ps r (.isolated i ip) := by
  rintro ⟨pe, -, fl, -, heq⟩
  cases heq

end Policies

/-! ## Agreement -/

section Resources

variable {pl ps n : List Json} {pn : NetworkPolicyPlan} {direction d : NetworkPolicyDirection}

section

variable (htypes : ∀ p ∈ pl, TypesSet p) (h : fromResources pl ps n = .ok pn)

include htypes h

theorem plan_isolated_iff (ip : Ipv4Addr) : ip ∈ pn.isolated d ↔ Isolated pl ps d ip := by
  rw [NetworkPolicyPlan.mem_isolated_iff, fromResources_has h]
  refine exists_congr fun p => and_congr_right fun hp => ?_
  rw [policyAdds_iff (htypes p hp)]
  constructor
  · rintro ⟨_, hd, pod, hs, heq | ⟨r, -, ha⟩⟩
    · cases heq
      exact ⟨hd, pod, hs, rfl⟩
    · exact absurd ha not_ruleAdds_isolated
  · rintro ⟨hd, pod, hs, rfl⟩
    exact ⟨d, hd, pod, hs, .inl rfl⟩

theorem plan_allows_iff (packet : Packet) : pn.allows d packet ↔ ∃ p ∈ pl, HasDirection p d ∧
      ∃ pod, SelectedBy (podInfosFromResources ps) p pod ∧ ∃ rule ∈ rulesOf p d,
        PodAllows (podInfosFromResources ps) (namespaceLabelsFromResources n) d pod rule packet := by
  rw [NetworkPolicyPlan.allows_iff]
  simp only [fromResources_has h]
  constructor
  · rintro ⟨fl, ⟨p, hp, had⟩, rfl, hm⟩
    obtain ⟨d, hd, pod, hs, heq | ⟨rule, hr, had⟩⟩ :=
      (policyAdds_iff (htypes p hp)).1 had
    · cases heq
    · cases had.direction_eq
      exact ⟨p, hp, hd, pod, hs, rule, hr, podAllows_iff.2 ⟨fl, had, hm⟩⟩
  · rintro ⟨p, hp, hd, pod, hs, rule, hr, ha⟩
    obtain ⟨fl, had, hm⟩ := podAllows_iff.1 ha
    have ho := (policyAdds_iff (htypes p hp)).2
      ⟨d, hd, pod, hs, .inr ⟨rule, hr, had⟩⟩
    exact ⟨fl, ⟨p, hp, ho⟩, had.direction_eq, hm⟩

/-- The peers of the rules of a policy that selects a Pod can be read, where there is a plan. -/
theorem peers_of_plan {p : Json} (hp : p ∈ pl) (hd : HasDirection p d)
    (he : SelectedBy (podInfosFromResources ps) p pod) {rule : Json} (hu : rule ∈ rulesOf p d) :
    ∃ peers, peersForRule (rule.get d.peersField) pod.ns (podInfosFromResources ps)
      (namespaceLabelsFromResources n) = .ok peers := by
  obtain ⟨-, hn, sp, hsp, -⟩ := id he
  obtain ⟨se, hs, hr⟩ := fromResources_ok_iff.1 ⟨pn, h⟩ p hp sp pod.ns hsp hn
  have ho := (mem_selectPods_iff hsp hn hs).2 he
  have hh := (hasDirection_iff (htypes p hp) hsp).1 hd
  exact peersForRule_ok_iff.2 (hr (ne_nil_of_mem ho) d hh rule (rulesOf_eq hsp ▸ hu))

end

/-- What the rules that concern a packet satisfy: those of the policies that select a Pod at its end. -/
def RulesFor (policies pods : List Json) (direction : NetworkPolicyDirection) (packet : Packet)
    (holds : Json → Prop) : Prop :=
  ∀ policy ∈ policies, HasDirection policy direction → ∀ pod, SelectedBy (podInfosFromResources pods) policy pod →
    pod.ip = packet.podEnd direction → ∀ rule ∈ rulesOf policy direction, holds rule

end Resources

section

variable (direction d : NetworkPolicyDirection) (rule r : Json)

def webPolicy : Json :=
  .obj [("metadata", .obj [("namespace", .str "default")]), ("spec", .obj [(direction.rulesField, .arr [rule]),
      ("podSelector", .obj [("matchLabels", .obj [("app", .str "web")])]),
      ("policyTypes", .arr [.str direction.typeName])])]

def podWith (app ip portName : String) (port : Int) (protocol : String) : Json :=
  .obj [("metadata", .obj [("labels", .obj [("app", .str app)]), ("namespace", .str "default")]),
    ("spec", .obj [("containers", .arr [.obj [("ports", .arr [.obj [("containerPort", .num port),
      ("name", .str portName), ("protocol", .str protocol)]])]])]),
    ("status", .obj [("podIP", .str ip)])]

def twoPods : List Json := [podWith "web" "10.42.0.10" "https" 8443 "TCP", podWith "dns" "10.42.0.11" "dns" 53 "UDP"]

def webRule : Json :=
  .obj [("from", .arr [.obj [("podSelector", .obj [])]]),
    ("ports", .arr [.obj [("port", .num 8443), ("protocol", .str "TCP")]])]

def webPlan : NetworkPolicyPlan where
  isolatedIngress := [0x0A2A000A]
  isolatedEgress := []
  allowedFlows := [⟨.ingress, 0x0A2A000A, hostMatch 0x0A2A000A, some ⟨.tcp, 8443, 8443⟩⟩,
    ⟨.ingress, 0x0A2A000A, hostMatch 0x0A2A000B, some ⟨.tcp, 8443, 8443⟩⟩]

theorem typesSet_webPolicy : TypesSet (webPolicy d r) := by
  cases d <;> exact ⟨_, _, rfl, rfl⟩

theorem keptRule_webRule (a : List PodInfo) (packet : Packet) : KeptRule a .ingress packet webRule where
  noNulls := by
    intro pe hp k _ hn
    cases mem_singleton.1 hp
    simp only [Json.get, Json.Fields.get] at hn
    split at hn <;> cases hn
  numbers := by
    intro e he k hk nr hu
    cases mem_singleton.1 he
    rcases mem_pair.1 hk with rfl | rfl
    · cases hu
      decide
    · cases hu
  given := by
    intro e he _ _ _
    cases mem_singleton.1 he
    decide
  names := nofun

def sixRule : Json := .obj [("from", .arr [.obj [("ipBlock", .obj [("cidr", .str "fd00::/8")])]])]

def udpRule : Json := .obj [("ports", .arr [.obj [("protocol", .str "UDP")]])]

def dnsRule : Json := .obj [("ports", .arr [.obj [("port", .str "dns"), ("protocol", .str "UDP")]])]

def webInfo : PodInfo :=
  ⟨"default", 0x0A2A000A, some [("app", .str "web")], Table.empty.put (("https", .tcp), 8443)⟩

def dnsInfo : PodInfo := ⟨"default", 0x0A2A000B, some [("app", .str "dns")], Table.empty.put (("dns", .udp), 53)⟩

theorem selectedBy_webInfo : SelectedBy (podInfosFromResources twoPods) (webPolicy d r) webInfo := by
  have hp : podInfosFromResources twoPods = [webInfo, dnsInfo] := by decide +kernel
  cases d <;>
    exact ⟨.head _, rfl, _, rfl, [.equality "app" "web"], rfl, by decide +kernel⟩

end

end Klights.Network
