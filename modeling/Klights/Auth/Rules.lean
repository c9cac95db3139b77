import Klights.Json
import Klights.Lib.StarPattern
import Klights.Lib.Text

/-!
# Role rules and the escalation check

The RBAC rule evaluator (`klights-auth/src/rbac_rule_evaluator.rs`): `ruleMatches` decides a request, and `rulesCover`
whether somebody may write a rule into a role, by taking it apart and looking for each part in the rules they hold.

- `ruleMatches_iff`: what a rule grants;
- `resource_mem_breakdown`, `url_mem_breakdown`: the parts of a rule;
- `rules_cover_sound`: covered rules grant nothing new, unless a part is covered only by rules of the holder that have
  resources and URLs at once (then `mixed_rule_unsound`), or one star more than the part.
-/

namespace Klights.Auth

open Lib List

variable {na : List String} {r : String} {req rq : RuleMatchRequest}

/-! ## Rules and requests -/

structure PolicyRule where
  verbs : List String
  apiGroups : List String
  resources : List String
  resourceNames : List String
  nonResourceUrls : List String

structure RuleMatchRequest where
  verb : String
  apiGroup : Option String
  resource : Option String
  subresource : Option String
  resourceName : Option String
  nonResourceUrl : Option String
  fieldSelector : Option String

def namesOrAll (names : List String) (name : String) : Bool := names.any fun n => n = "*" || n = name

def matchesVerb (verbs : List String) (verb : String) : Bool := namesOrAll verbs verb

def matchesApiGroup (groups : List String) (group : String) : Bool := namesOrAll groups group

def matchesPattern (pattern text : String) : Bool :=
  if pattern = "*" then true
  else if pattern.toList.getLast? = some '*' then pattern.toList.dropLast.isPrefixOf text.toList
  else pattern = text

def matchesResource (resources : List String) (resource : String) : Bool :=
  resources.any fun pattern => matchesPattern pattern resource

def matchesNonResourceUrl (urls : List String) (url : String) : Bool :=
  urls.any fun pattern => matchesPattern pattern url

def selectedName (part : List Char) : Option String :=
  ((trim isWhitespace part).dropPrefix? "metadata.name=".toList).map fun name => String.ofList (trim isWhitespace name)

def selectedNames (fieldSelector : String) : List String :=
  if fieldSelector = "" then [] else (fieldSelector.toList.splitOn ',').filterMap selectedName

def fieldSelectorMatchesResourceNames (fieldSelector : String) (resourceNames : List String) : Bool :=
  (selectedNames fieldSelector).any (namesOrAll resourceNames)

/-- The last check of `rule_matches`: a rule with resource names grants no `create` and `deletecollection`, and grants
lists and watches by their field selector. -/
def resourceNamesAllow (resourceNames : List String) (request : RuleMatchRequest) : Bool :=
  if resourceNames.isEmpty then true
  else if request.verb = "create" ∨ request.verb = "deletecollection" then false
  else if request.verb = "list" ∨ request.verb = "watch" then
    fieldSelectorMatchesResourceNames (request.fieldSelector.getD "") resourceNames
  else match request.resourceName with
    | none => false
    | some name => namesOrAll resourceNames name

def fullResource (resource : String) (subresource : Option String) : String :=
  match subresource with
  | some subresource => resource ++ "/" ++ subresource
  | none => resource

def ruleMatches (rule : PolicyRule) (request : RuleMatchRequest) : Bool :=
  let hasResources := !rule.resources.isEmpty
  let hasNonResourceUrls := !rule.nonResourceUrls.isEmpty
  if hasResources = hasNonResourceUrls then false
  else match request.nonResourceUrl with
    | some url =>
      if !hasNonResourceUrls then false
      else if !matchesVerb rule.verbs request.verb then false
      else matchesNonResourceUrl rule.nonResourceUrls url
    | none =>
      match request.resource with
      | none => false
      | some resource =>
        if !hasResources then false
        else if !matchesVerb rule.verbs request.verb then false
        else if !matchesApiGroup rule.apiGroups (request.apiGroup.getD "") then false
        else if !matchesResource rule.resources (fullResource resource request.subresource) then false
        else resourceNamesAllow rule.resourceNames request

/-! ## Covering a rule -/

/-- One part of a rule; without a resource name it is about all of them. -/
structure AtomicRule where
  verb : String
  apiGroup : Option String
  resource : Option String
  resourceName : Option String
  nonResourceUrl : Option String

def breakdownRule (rule : PolicyRule) : List AtomicRule :=
  (if rule.resources.isEmpty then []
    else rule.verbs.flatMap fun verb => rule.apiGroups.flatMap fun group => rule.resources.flatMap fun resource =>
      if rule.resourceNames.isEmpty then [⟨verb, some group, some resource, none, none⟩]
      else rule.resourceNames.map fun name => ⟨verb, some group, some resource, some name, none⟩) ++
  (if rule.nonResourceUrls.isEmpty then []
    else rule.verbs.flatMap fun verb => rule.nonResourceUrls.map fun url => ⟨verb, none, none, none, some url⟩)

def ownerCoversResourceName (owner : PolicyRule) (requestedName : Option String) : Bool :=
  if owner.resourceNames.isEmpty then true
  else match requestedName with
    | none => false
    | some name => namesOrAll owner.resourceNames name

def atomicRuleCovered (owner : PolicyRule) (atom : AtomicRule) : Bool :=
  match atom.nonResourceUrl with
  | some url =>
    !owner.nonResourceUrls.isEmpty && matchesVerb owner.verbs atom.verb &&
      matchesNonResourceUrl owner.nonResourceUrls url
  | none =>
    if owner.resources.isEmpty then false
    else matchesVerb owner.verbs atom.verb && matchesApiGroup owner.apiGroups (atom.apiGroup.getD "") &&
      matchesResource owner.resources (atom.resource.getD "") && ownerCoversResourceName owner atom.resourceName

def rulesCover (holder : List PolicyRule) (requested : PolicyRule) : Bool :=
  (breakdownRule requested).all fun atom => holder.any fun owner => atomicRuleCovered owner atom

/-! ## Names and patterns -/

theorem namesOrAll_iff {name : String} : namesOrAll na name ↔ ∃ n ∈ na, n = "*" ∨ n = name := by
  simp [namesOrAll]

theorem namesOrAll_trans {nm : String} (h : namesOrAll na r) (hna : r = "*" ∨ r = nm) : namesOrAll na nm := by
  obtain ⟨n, hn, heq⟩ := namesOrAll_iff.1 h
  refine namesOrAll_iff.2 ⟨n, hn, ?_⟩
  cases heq with
  | inl hs => exact .inl hs
  | inr ha => exact ha ▸ hna

theorem matchesPattern_eq (p tx : String) : matchesPattern p tx = starMatches '*' p.toList tx.toList := by
  unfold matchesPattern starMatches
  split
  case isTrue hs =>
    subst hs
    rfl
  case isFalse =>
    split
    · rfl
    · exact decide_eq_decide.2 String.toList_inj.symm

def OneStarMore (owner requested : String) : Prop :=
  requested.toList.getLast? = some '*' ∧ owner = requested ++ "*"

instance (owner requested : String) : Decidable (OneStarMore owner requested) := inferInstanceAs (Decidable (_ ∧ _))

theorem matchesPattern_trans {owner tx : String} (h : matchesPattern owner r)
    (hs : ¬OneStarMore owner r) (hx : matchesPattern r tx) :
    matchesPattern owner tx := by
  rw [matchesPattern_eq] at h hx ⊢
  refine (starMatches_trans_iff h).2 ?_ tx.toList hx
  rintro ⟨hl, ho⟩
  refine hs ⟨hl, String.toList_inj.1 ?_⟩
  rw [ho, String.toList_append]
  rfl

/-- One of the patterns matches what the requested one does. -/
def Holds (patterns : List String) (requested : String) : Prop :=
  ∃ held ∈ patterns, matchesPattern held requested = true ∧ ¬OneStarMore held requested

theorem any_pattern_trans {o : List String} {tx : String} (h : Holds o r) (hx : matchesPattern r tx) :
    (o.any fun p => matchesPattern p tx) := by
  obtain ⟨owner, ho, hm, hs⟩ := h
  exact any_eq_true.2 ⟨owner, ho, matchesPattern_trans hm hs hx⟩

/-! ## What a rule grants -/

def requestedNames (request : RuleMatchRequest) : List String :=
  if request.verb = "list" ∨ request.verb = "watch" then selectedNames (request.fieldSelector.getD "")
  else request.resourceName.toList

theorem resourceNamesAllow_iff : resourceNamesAllow na rq ↔
      na = [] ∨ (rq.verb ≠ "create" ∧ rq.verb ≠ "deletecollection" ∧ ∃ nm ∈ requestedNames rq, namesOrAll na nm) := by
  unfold resourceNamesAllow requestedNames fieldSelectorMatchesResourceNames
  by_cases hn : na = []
  · simp [hn]
  · rw [if_neg (by simpa using hn)]
    by_cases hv : rq.verb = "create" ∨ rq.verb = "deletecollection"
    · rw [if_pos hv]
      simp only [Bool.false_eq_true, false_iff, not_or, hn, not_false_eq_true, true_and]
      rintro ⟨hc, hd, -⟩
      exact hv.elim hc hd
    · rw [if_neg hv]
      rw [not_or] at hv
      by_cases hl : rq.verb = "list" ∨ rq.verb = "watch"
      · rw [if_pos hl, if_pos hl, any_eq_true]
        simp [hn, hv.1, hv.2]
      · rw [if_neg hl, if_neg hl]
        cases rq.resourceName with
        | none => simp [hn]
        | some nm => simp [hn, hv.1, hv.2]

theorem ruleMatches_iff {rule : PolicyRule} : ruleMatches rule rq ↔
      (∃ u, rq.nonResourceUrl = some u ∧ rule.resources = [] ∧ rule.nonResourceUrls ≠ [] ∧
        matchesVerb rule.verbs rq.verb ∧ matchesNonResourceUrl rule.nonResourceUrls u) ∨
      (rq.nonResourceUrl = none ∧ ∃ rs, rq.resource = some rs ∧ rule.resources ≠ [] ∧
        rule.nonResourceUrls = [] ∧ matchesVerb rule.verbs rq.verb ∧
        matchesApiGroup rule.apiGroups (rq.apiGroup.getD "") ∧
        matchesResource rule.resources (fullResource rs rq.subresource) ∧
        resourceNamesAllow rule.resourceNames rq) := by
  unfold ruleMatches
  cases hr : rule.resources with
  | nil =>
    cases hu : rule.nonResourceUrls with
    | nil => simp
    | cons u ur => cases rq.nonResourceUrl <;> cases rq.resource <;> simp
  | cons rs resources =>
    cases hu : rule.nonResourceUrls with
    | nil => cases rq.nonResourceUrl <;> cases rq.resource <;> simp
    | cons u ur => simp

/-! ## The parts of a rule -/

section Parts

variable {rule owner ow : PolicyRule} {v : String}

theorem url_mem_breakdown {u : String} (hb : v ∈ rule.verbs) (hu : u ∈ rule.nonResourceUrls) :
    ⟨v, none, none, none, some u⟩ ∈ breakdownRule rule := by
  refine mem_append_right _ ?_
  rw [if_neg (by simpa using ne_nil_of_mem hu)]
  exact mem_flatMap.2 ⟨v, hb, mem_map.2 ⟨u, hu, rfl⟩⟩

theorem resource_mem_breakdown {g rs : String} {nm : Option String} (hb : v ∈ rule.verbs)
    (hg : g ∈ rule.apiGroups) (hr : rs ∈ rule.resources)
    (ha : (rule.resourceNames = [] ∧ nm = none) ∨ ∃ n ∈ rule.resourceNames, nm = some n) :
    ⟨v, some g, some rs, nm, none⟩ ∈ breakdownRule rule := by
  refine mem_append_left _ ?_
  rw [if_neg (by simpa using ne_nil_of_mem hr)]
  refine mem_flatMap.2 ⟨v, hb, mem_flatMap.2 ⟨g, hg, mem_flatMap.2 ⟨rs, hr, ?_⟩⟩⟩
  rcases ha with ⟨ho, rfl⟩ | ⟨n, hn, rfl⟩
  · rw [if_pos (by simpa using ho)]
    exact mem_singleton.2 rfl
  · rw [if_neg (by simpa using ne_nil_of_mem hn)]
    exact mem_map.2 ⟨n, hn, rfl⟩

theorem urlCovered_iff {url : String} : atomicRuleCovered ow ⟨v, none, none, none, some url⟩ ↔
      ow.nonResourceUrls ≠ [] ∧ matchesVerb ow.verbs v ∧
        matchesNonResourceUrl ow.nonResourceUrls url := by
  simp [atomicRuleCovered, and_assoc]

theorem resourceCovered_iff {g rs : String} {nm : Option String} : atomicRuleCovered ow ⟨v, some g, some rs, nm, none⟩ ↔
      ow.resources ≠ [] ∧ matchesVerb ow.verbs v ∧ matchesApiGroup ow.apiGroups g ∧
        matchesResource ow.resources rs ∧ ownerCoversResourceName ow nm := by
  cases hr : ow.resources <;> simp [atomicRuleCovered, hr, and_assoc]

theorem covering_owner {hl : List PolicyRule} {r : PolicyRule} {atom : AtomicRule}
    (h : rulesCover hl r) (ha : atom ∈ breakdownRule r) :
    ∃ owner ∈ hl, atomicRuleCovered owner atom :=
  any_eq_true.1 (all_eq_true.1 h atom ha)

theorem namesAllow_of_covered (hl : resourceNamesAllow na req) :
    ∃ nm : Option String, ((na = [] ∧ nm = none) ∨ ∃ n ∈ na, nm = some n) ∧
      ∀ owner : PolicyRule, ownerCoversResourceName owner nm →
        resourceNamesAllow owner.resourceNames req := by
  rcases resourceNamesAllow_iff.1 hl with hno | ⟨hc, hd, ask, hs, hns⟩
  · refine ⟨none, .inl ⟨hno, rfl⟩, fun owner hw => resourceNamesAllow_iff.2 (.inl ?_)⟩
    by_contra hso
    simp [ownerCoversResourceName, hso] at hw
  · obtain ⟨n, hn, heq⟩ := namesOrAll_iff.1 hns
    refine ⟨some n, .inr ⟨n, hn, rfl⟩, fun owner hw => resourceNamesAllow_iff.2 ?_⟩
    by_cases ha : owner.resourceNames = []
    · exact .inl ha
    · have ho : namesOrAll owner.resourceNames n := by simpa [ownerCoversResourceName, ha] using hw
      exact .inr ⟨hc, hd, ask, hs, namesOrAll_trans ho heq⟩

end Parts

/-! ## Soundness -/

/-- A rule covers a part, is about resources or URLs only, and one of its patterns matches what the part's does. -/
structure Grants (owner : PolicyRule) (atom : AtomicRule) : Prop where
  covered : atomicRuleCovered owner atom = true
  target : owner.resources = [] ∨ owner.nonResourceUrls = []
  resource : ∀ asked ∈ atom.resource, Holds owner.resources asked
  url : ∀ asked ∈ atom.nonResourceUrl, Holds owner.nonResourceUrls asked

/-- The requested rule has resources and URLs at once, and so grants nothing; or each part of it that the holder's rules
cover is granted by one of them. -/
def Comparable (holder : List PolicyRule) (requested : PolicyRule) : Prop :=
  (requested.resources ≠ [] ∧ requested.nonResourceUrls ≠ []) ∨
    ∀ atom ∈ breakdownRule requested, (∃ owner ∈ holder, atomicRuleCovered owner atom = true) →
      ∃ owner ∈ holder, Grants owner atom

/-- **No escalation.** What a covered rule grants is granted by one of the holder's rules. -/
theorem rules_cover_sound (holder : List PolicyRule) (requested : PolicyRule) (request : RuleMatchRequest)
    (hcomparable : Comparable holder requested) (hcover : rulesCover holder requested = true)
    (hmatch : ruleMatches requested request = true) : ∃ owner ∈ holder, ruleMatches owner request = true := by
  rcases ruleMatches_iff.1 hmatch with
    ⟨ur, hur, hnone, hsome, hv, hul⟩ | ⟨hur, res, hs, hsome, hnone, hv, hg, hr, hal⟩
  · have hparts := hcomparable.resolve_left fun h => h.1 hnone
    obtain ⟨verb, hv, he⟩ := namesOrAll_iff.1 hv
    obtain ⟨pat, hp, ht⟩ := any_eq_true.1 hul
    have hatom := url_mem_breakdown hv hp
    obtain ⟨owner, ho, hgrants⟩ := hparts _ hatom (covering_owner hcover hatom)
    obtain ⟨hne, hw, -⟩ := urlCovered_iff.1 hgrants.covered
    refine ⟨owner, ho, ruleMatches_iff.2 (.inl ⟨ur, hur, ?_, hne, namesOrAll_trans hw he, ?_⟩)⟩
    · exact hgrants.target.resolve_right hne
    · exact any_pattern_trans (hgrants.url pat rfl) ht
  · have hparts := hcomparable.resolve_left fun h => h.2 hnone
    obtain ⟨verb, hv, he⟩ := namesOrAll_iff.1 hv
    obtain ⟨gr, hg, hgr⟩ := namesOrAll_iff.1 hg
    obtain ⟨pat, hp, ht⟩ := any_eq_true.1 hr
    obtain ⟨nm, hna, hm⟩ := namesAllow_of_covered hal
    have hatom := resource_mem_breakdown hv hg hp hna
    obtain ⟨owner, ho, hgrants⟩ := hparts _ hatom (covering_owner hcover hatom)
    obtain ⟨hne, hw, hu, -, ha⟩ := resourceCovered_iff.1 hgrants.covered
    refine ⟨owner, ho, ruleMatches_iff.2 (.inr ⟨hur, res, hs, hne, ?_,
      namesOrAll_trans hw he, namesOrAll_trans hu hgr, ?_, hm owner ha⟩)⟩
    · exact hgrants.target.resolve_left hne
    · exact any_pattern_trans (hgrants.resource pat rfl) ht

def podsRule (resources resourceNames nonResourceUrls : List String) : PolicyRule :=
  ⟨["get", "list"], [""], resources, resourceNames, nonResourceUrls⟩

def getPodRequest (subresource : Option String) : RuleMatchRequest :=
  ⟨"get", none, some "pods", subresource, some "web", none, none⟩

/-- A rule of the holder that has resources and URLs at once does no harm where another one grants the parts. -/
theorem rules_cover_sound_pods : ∃ owner ∈ [podsRule ["pods"] [] ["/healthz"], podsRule ["pods*"] ["*"] []],
      ruleMatches owner (getPodRequest (some "log")) = true := by
  refine rules_cover_sound _ (podsRule ["pods", "pods/*"] ["web"] []) _ (.inr fun atom ha _ => ?_)
    (by decide +kernel) (by decide +kernel)
  have hall : ∀ atom ∈ breakdownRule (podsRule ["pods", "pods/*"] ["web"] []),
      atomicRuleCovered (podsRule ["pods*"] ["*"] []) atom = true ∧ atom.nonResourceUrl = none ∧
        ∀ asked ∈ atom.resource, matchesPattern "pods*" asked = true ∧ ¬OneStarMore "pods*" asked := by
    decide +kernel
  obtain ⟨hc, hu, hr⟩ := hall atom ha
  refine ⟨podsRule ["pods*"] ["*"] [], by simp, hc, .inr rfl,
    fun asked he => ⟨"pods*", by simp [podsRule], hr asked he⟩, fun asked he => ?_⟩
  rw [hu] at he
  cases he

/-- Whatever the rule of a holder is, with resources and URLs at once it covers a rule that grants more. -/
theorem mixed_rule_unsound {owner : PolicyRule} (he : owner.resources ≠ []) (hu : owner.nonResourceUrls ≠ [])
    (hv : owner.verbs ≠ []) :
    ∃ r req, rulesCover [owner] r ∧ ruleMatches r req ∧ ruleMatches owner req = false := by
  obtain ⟨v, hb⟩ := exists_mem_of_ne_nil _ hv
  obtain ⟨url, hr⟩ := exists_mem_of_ne_nil _ hu
  have hs : matchesPattern url url := (matchesPattern_eq url url).trans (starMatches_self '*' url.toList)
  refine ⟨⟨[v], [], [], [], [url]⟩, ⟨v, none, none, none, none, some url, none⟩, ?_, ?_, ?_⟩
  · have hc : atomicRuleCovered owner ⟨v, none, none, none, some url⟩ :=
      urlCovered_iff.2 ⟨hu, namesOrAll_iff.2 ⟨v, hb, .inr rfl⟩, any_eq_true.2 ⟨url, hr, hs⟩⟩
    simp [rulesCover, breakdownRule, hc]
  · exact ruleMatches_iff.2 (.inl ⟨url, rfl, rfl, cons_ne_nil _ _, by simp [matchesVerb, namesOrAll],
      by simpa [matchesNonResourceUrl] using hs⟩)
  · rw [Bool.eq_false_iff, ne_eq, ruleMatches_iff]
    rintro (⟨-, -, hn, -⟩ | ⟨hn, -⟩)
    · exact he hn
    · cases hn

theorem mixed_rule_unsound_pods : ∃ r req, rulesCover [podsRule ["pods"] [] ["/healthz"]] r ∧ ruleMatches r req ∧
    ruleMatches (podsRule ["pods"] [] ["/healthz"]) req = false :=
  mixed_rule_unsound (by decide) (by decide) (by decide)

/-- A rule with resources and URLs grants nothing and covers Pods; a second star covers the first. -/
theorem cover_grants_more : (rulesCover [podsRule ["pods"] [] ["/healthz"]] (podsRule ["pods"] [] []) = true ∧
        ruleMatches (podsRule ["pods"] [] []) (getPodRequest none) = true ∧
        ruleMatches (podsRule ["pods"] [] ["/healthz"]) (getPodRequest none) = false) ∧
      rulesCover [podsRule ["**"] [] []] (podsRule ["*"] [] []) = true ∧
        ruleMatches (podsRule ["*"] [] []) (getPodRequest none) = true ∧
        ruleMatches (podsRule ["**"] [] []) (getPodRequest none) = false := by
  decide +kernel

end Klights.Auth
