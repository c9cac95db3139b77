import Klights.Auth.RequestInfo
import Klights.Auth.Rules
import Klights.Selector.Terms

/-!
# Reads that a field selector allows

The node authorizer (`klights-auth/src/node_authorizer.rs`), and what the selectors it and the rule evaluator look at
select. Both cut a selector at every comma and drop blanks, the parser of field selectors does neither.

- `NodeAuthorizer.authorize`;
- `nodeSelector_requires`, `selectedName_requires`: what an accepted part requires, where it has no blanks;
- `selector_reads_in_scope`.
-/

namespace Klights.Auth

open Lib Store Selector FieldSelector List Option

variable {nodeName : String} {i : AuthenticatedIdentity}

/-! ## The node authorizer -/

structure AuthenticatedIdentity where
  username : String
  groups : List String

structure AuthorizationDecision where
  allowed : Bool
  denied : Bool
  reason : String
  evaluationError : Option String

namespace AuthorizationDecision

def allow (reason : String) : AuthorizationDecision := ⟨true, false, reason, none⟩

def noOpinion : AuthorizationDecision := ⟨false, false, "", none⟩

end AuthorizationDecision

/-- What the authorizer asks about Pods and nodes. -/
structure NodePolicyStore where
  getPodNode : String → String → Option String
  listPodsOnNode : String → List (String × String)
  getPodReferencedObjects : String → String → String → List String

def parseNodeName (identity : AuthenticatedIdentity) : Option String :=
  if "system:nodes" ∈ identity.groups then
    ((identity.username.toList.dropPrefix? "system:node:".toList).filter fun name => !name.isEmpty).map String.ofList
  else none

/-- A part that names the node, without the blanks around it and around its `=`. -/
def partNamesNode (nodeName : String) (part : List Char) : Bool :=
  match splitOnce ['='] (trim isWhitespace part) with
  | none => false
  | some (field, value) =>
    trim isWhitespace field = "spec.nodeName".toList && trim isWhitespace value = nodeName.toList

def fieldSelectorMatchesNode (fieldSelector nodeName : String) : Bool :=
  (parts fieldSelector).any (partNamesNode nodeName)

namespace NodeAuthorizer

open AuthorizationDecision

def checkNodeAccess (nodeName : String) (request : AuthorizationRequest) : AuthorizationDecision :=
  if request.verb = "get" ∧ request.name = some nodeName then allow "node can get own node"
  else if (request.verb = "update" ∨ request.verb = "patch") ∧ request.subresource = some "status" ∧
      request.name = some nodeName then
    allow "node can update own node status"
  else noOpinion

def checkLeaseAccess (nodeName : String) (request : AuthorizationRequest) : AuthorizationDecision :=
  if (request.verb = "get" ∨ request.verb = "update" ∨ request.verb = "patch" ∨ request.verb = "create") ∧
      request.ns = some "kube-node-lease" ∧ request.name = some nodeName then
    allow "node can manage own lease"
  else noOpinion

def namesPodOn (store : NodePolicyStore) (nodeName : String) (request : AuthorizationRequest) : Bool :=
  match request.ns, request.name with
  | some ns, some name => store.getPodNode ns name = some nodeName
  | _, _ => false

variable (store : Option NodePolicyStore)

def checkPodAccess (nodeName : String) (request : AuthorizationRequest) : AuthorizationDecision :=
  if request.verb = "get" ∨ request.verb = "list" ∨ request.verb = "watch" then
    match store with
    | none => noOpinion
    | some store =>
      if (request.verb = "list" ∨ request.verb = "watch") ∧
          !fieldSelectorMatchesNode (request.fieldSelector.getD "") nodeName then noOpinion
      else if request.verb = "get" ∧ !namesPodOn store nodeName request then noOpinion
      else allow "node can read pods"
  else if (request.verb = "update" ∨ request.verb = "patch") ∧ request.subresource = some "status" then
    match store with
    | none => noOpinion
    | some store =>
      if !namesPodOn store nodeName request then noOpinion else allow "node can update pod status"
  else noOpinion

def checkReferencedObjectRead (nodeName resourceKind : String)
    (request : AuthorizationRequest) : AuthorizationDecision :=
  if request.verb = "get" ∨ request.verb = "list" ∨ request.verb = "watch" then
    match store, request.ns, request.name with
    | some store, some ns, some name =>
      if (store.listPodsOnNode nodeName).any fun pod =>
          pod.1 = ns && (store.getPodReferencedObjects pod.1 pod.2 resourceKind).contains name then
        allow "node can read object referenced by own pod"
      else noOpinion
    | _, _, _ => noOpinion
  else noOpinion

def authorize (identity : AuthenticatedIdentity) (request : AuthorizationRequest) : AuthorizationDecision :=
  match parseNodeName identity with
  | none => noOpinion
  | some nodeName =>
    if request.kind = .nonResource then noOpinion
    else match request.resource with
      | none => noOpinion
      | some resource =>
        if resource = "nodes" then checkNodeAccess nodeName request
        else if resource = "leases" then checkLeaseAccess nodeName request
        else if resource = "pods" then checkPodAccess store nodeName request
        else if resource ∈
            ["secrets", "configmaps", "persistentvolumeclaims", "persistentvolumes", "serviceaccounts"] then
          checkReferencedObjectRead store nodeName resource request
        else noOpinion

end NodeAuthorizer

/-! ## Selectors without blanks -/

/-- No blanks at the ends of a part or around its `=`. -/
def isUnpadded (part : List Char) : Bool :=
  trim isWhitespace part = part && (splitOnce ['='] part).all fun cut =>
    trim isWhitespace cut.1 = cut.1 && trim isWhitespace cut.2 = cut.2

/-- The parts that name the node have no blanks, and its name no escapes. -/
structure NodeWritten (selector nodeName : String) : Prop where
  parts : ∀ part ∈ parts selector, partNamesNode nodeName part = true → isUnpadded part = true
  value : PlainValue nodeName.toList

/-- The parts that name one of the names have no blanks, and the name no escapes. -/
def NamesWritten (selector : String) (names : List String) : Prop :=
  ∀ part ∈ parts selector, ∀ name ∈ names, selectedName part = some name →
    isUnpadded part = true ∧ PlainValue name.toList

section Unpadded

variable {p field value : List Char}

theorem isUnpadded_iff : isUnpadded p ↔
    trim isWhitespace p = p ∧ ∀ field value, splitOnce ['='] p = some (field, value) →
      trim isWhitespace field = field ∧ trim isWhitespace value = value := by
  unfold isUnpadded
  rw [Bool.and_eq_true, decide_eq_true_eq]
  refine and_congr_right fun _ => ?_
  cases splitOnce ['='] p with
  | none => simp
  | some cu =>
    simp only [all_some, Bool.and_eq_true, decide_eq_true_eq, Option.some.injEq]
    constructor
    · rintro h field value rfl
      exact h
    · intro h
      exact h cu.1 cu.2 rfl

theorem partNamesNode_eq (hun : isUnpadded p) (h : partNamesNode nodeName p) :
    p = "spec.nodeName".toList ++ '=' :: nodeName.toList := by
  obtain ⟨ht, hc⟩ := isUnpadded_iff.1 hun
  unfold partNamesNode at h
  rw [ht] at h
  split at h
  case h_1 => cases h
  case h_2 field value hs =>
    obtain ⟨hf, hv⟩ := hc field value hs
    rw [hf, hv, Bool.and_eq_true, decide_eq_true_eq, decide_eq_true_eq] at h
    obtain ⟨rfl, rfl⟩ := h
    exact (splitOnce_char.1 hs).1

theorem selectedName_eq {nm : String} (hun : isUnpadded p) (h : selectedName p = some nm) :
    p = "metadata.name".toList ++ '=' :: nm.toList := by
  obtain ⟨htr, hc⟩ := isUnpadded_iff.1 hun
  obtain ⟨rest, hr, hn⟩ := map_eq_some_iff.1 h
  rw [htr] at hr
  obtain ⟨st, hp, ha⟩ := dropPrefix?_eq_some_iff.1 hr
  have hs' : "metadata.name=".toList = "metadata.name".toList ++ ['='] := by decide +kernel
  have hs : p = "metadata.name".toList ++ '=' :: rest := by
    rw [hp, eq_of_beq ha, hs', append_assoc, singleton_append]
  have ht := (hc _ _ (splitOnce_char.2 ⟨hs, by decide +kernel⟩)).2
  have hl : nm.toList = rest := by rw [← hn, ht, String.toList_ofList]
  rw [hs, hl]

end Unpadded

/-! ## What is required -/

theorem plainField_nodeName : PlainField "spec.nodeName".toList := ⟨by decide, by decide, by decide, by decide⟩

theorem plainField_name : PlainField "metadata.name".toList := ⟨by decide, by decide, by decide, by decide⟩

theorem supportedFields_comma (av kd : String) (n : Bool) : ∀ field ∈ supportedFields av kd n, ',' ∉ field.toList := by
  have hb : ∀ field ∈ builtinSelectableFields av kd, ',' ∉ field.toList := by
    unfold builtinSelectableFields
    repeat' split
    all_goals decide
  have ho : ∀ n : Bool, ∀ field ∈ "metadata.name" :: (if n then ["metadata.namespace"] else []),
      ',' ∉ field.toList := by
    decide
  intro field hf
  exact (mem_append.1 hf).elim (ho n field) (hb field)

variable {l : Option String} {request re : AuthorizationRequest}

theorem validated_fields {av kd selector : String} {namespaced : Bool} {parsed : FieldSelector}
    (hh : trim isWhitespace selector.toList = selector.toList) (hn : selector ≠ "")
    (h : validateBuiltinFieldSelector av kd l (some selector) namespaced = .ok ())
    (hparse : parse selector = .ok parsed) :
    ∀ rq ∈ parsed.requirements, rq.field ∈ supportedFields av kd namespaced := by
  have ht : trimText selector = selector := by
    change String.ofList (trim isWhitespace selector.toList) = selector
    rw [hh, String.ofList_toList]
  unfold validateBuiltinFieldSelector at h
  rw [map_some, ht, filter_some_pos (by simpa using hn)] at h
  obtain ⟨o, ho, h⟩ := bind_eq_ok.1 h
  rw [hparse] at ho
  cases ho
  intro rq hm
  have hc := forM_eq_ok h rq hm
  split at hc
  case isTrue hs => exact hs
  case isFalse => cases hc

/-! ## The scope of a read -/

section Scope

variable {selector : String} {parsed : FieldSelector} {object : Json}

theorem matched_value (hma : parsed.matchesResource object) {field value : List Char}
    (hm : ⟨String.ofList field, .equals, String.ofList value⟩ ∈ parsed.requirements) :
    (resolveFieldValue object (String.ofList field)).getD "" = String.ofList value :=
  of_decide_eq_true (all_eq_true.1 hma _ hm)

theorem parseNodeName_ne_empty (h : parseNodeName i = some nodeName) : nodeName ≠ "" := by
  unfold parseNodeName at h
  split at h
  case isFalse => cases h
  case isTrue =>
    obtain ⟨nm, hn, rfl⟩ := map_eq_some_iff.1 h
    obtain ⟨-, hne⟩ := filter_eq_some_iff.1 hn
    simpa using hne

theorem authorize_pods {store : Option NodePolicyStore} (hn : parseNodeName i = some nodeName)
    (hp : re.resource = some "pods") (hb : re.verb = "list" ∨ re.verb = "watch")
    (h : (NodeAuthorizer.authorize store i re).allowed) :
    fieldSelectorMatchesNode (re.fieldSelector.getD "") nodeName := by
  unfold NodeAuthorizer.authorize at h
  rw [hn, hp] at h
  dsimp only at h
  split at h
  case isTrue => cases h
  case isFalse =>
    rw [if_neg (by decide), if_neg (by decide), if_pos rfl] at h
    unfold NodeAuthorizer.checkPodAccess at h
    rw [if_pos (.inr hb)] at h
    cases store with
    | none => cases h
    | some store =>
      dsimp only at h
      split at h
      case isTrue => cases h
      case isFalse hs =>
        by_contra ho
        exact hs ⟨hb, by simpa using ho⟩

theorem mem_requestedNames {request : RuleMatchRequest} {name : String}
    (hb : request.verb = "list" ∨ request.verb = "watch") (hs : request.fieldSelector = some selector)
    (h : name ∈ requestedNames request) : ∃ p ∈ parts selector, selectedName p = some name := by
  unfold requestedNames selectedNames at h
  rw [if_pos hb, hs, getD_some] at h
  split at h
  case isTrue => cases h
  case isFalse => exact mem_filterMap.1 h

section

variable (hparse : parse selector = .ok parsed) (hma : parsed.matchesResource object = true)
include hparse hma

theorem node_in_scope {store : Option NodePolicyStore} (hn : parseNodeName i = some nodeName)
    (ho : re.resource = some "pods") (hb : re.verb = "list" ∨ re.verb = "watch")
    (hs : re.fieldSelector = some selector)
    (ha : (NodeAuthorizer.authorize store i re).allowed)
    (hl : validateBuiltinFieldSelector "v1" "Pod" l (some selector) true = .ok ())
    (hp : NodeWritten selector nodeName)
    (hw : trim isWhitespace selector.toList = selector.toList ∨
      ∀ rq ∈ parsed.requirements, ',' ∉ rq.field.toList) :
    resolveFieldValue object "spec.nodeName" = some nodeName := by
  have hnm := authorize_pods hn ho hb ha
  rw [hs, getD_some] at hnm
  obtain ⟨p, ht, hns⟩ := any_eq_true.1 hnm
  have heq := partNamesNode_eq (hp.parts p ht hns) hns
  subst heq
  have hne : selector ≠ "" := by
    rintro rfl
    simp [parts] at ht
  have hc : ∀ rq ∈ parsed.requirements, ',' ∉ rq.field.toList := by
    refine hw.elim (fun hh rq hm => ?_) id
    exact supportedFields_comma "v1" "Pod" true _ (validated_fields hh hne hl hparse rq hm)
  have hm := requirement_of_part hparse ht plainField_nodeName hp.value hc
  have hv := matched_value hma hm
  rw [String.ofList_toList, String.ofList_toList] at hv
  cases hf : resolveFieldValue object "spec.nodeName" with
  | none =>
    rw [hf] at hv
    exact absurd hv.symm (parseNodeName_ne_empty hn)
  | some tx =>
    rw [hf] at hv
    exact congrArg some hv

theorem named_in_scope {r : PolicyRule} {request : RuleMatchRequest} (hg : ruleMatches r request)
    (hu : request.nonResourceUrl = none) (hns : r.resourceNames ≠ [])
    (hb : request.verb = "list" ∨ request.verb = "watch") (hl : request.fieldSelector = some selector)
    (hp : NamesWritten selector r.resourceNames)
    (hc : ∀ rq ∈ parsed.requirements, ',' ∉ rq.field.toList) :
    namesOrAll r.resourceNames ((resolveFieldValue object "metadata.name").getD "") := by
  have ha : resourceNamesAllow r.resourceNames request := by
    rcases ruleMatches_iff.1 hg with ⟨url, ho, -⟩ | ⟨-, res, -, -, -, -, -, -, ha⟩
    · cases hu.symm.trans ho
    · exact ha
  obtain ⟨-, -, nm, hn, hls⟩ := (resourceNamesAllow_iff.1 ha).resolve_left hns
  obtain ⟨li, hm, hs⟩ := namesOrAll_iff.1 hls
  rcases hs with ht | rfl
  · exact namesOrAll_iff.2 ⟨li, hm, .inl ht⟩
  · obtain ⟨p, hpt, he⟩ := mem_requestedNames hb hl hn
    obtain ⟨hun, hpl⟩ := hp p hpt li hm he
    have heq := selectedName_eq hun he
    subst heq
    have hr := requirement_of_part hparse hpt plainField_name hpl hc
    have hv := matched_value hma hr
    rw [String.ofList_toList, String.ofList_toList] at hv
    rw [hv]
    exact namesOrAll_iff.2 ⟨li, hm, .inr rfl⟩

end

end Scope

def emptyPolicyStore : NodePolicyStore := ⟨fun _ _ => none, fun _ => [], fun _ _ _ => []⟩

def nodeIdentity : AuthenticatedIdentity := ⟨"system:node:node-a", ["system:nodes"]⟩

def listPods (selector : String) : AuthorizationRequest :=
  { AuthorizationRequest.ofResource "list" "" "v1" "pods" none none none with fieldSelector := some selector }

def listByName (selector : String) : RuleMatchRequest := ⟨"list", none, some "pods", none, none, none, some selector⟩

def podOn (name nodeName : String) : Json :=
  .obj [("metadata", .obj [("name", .str name)]), ("spec", .obj [("nodeName", .str nodeName)])]

end Klights.Auth
