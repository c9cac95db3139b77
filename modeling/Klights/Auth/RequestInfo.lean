import Klights.Lib.UrlEncoded

/-!
# Request info

What an HTTP request asks for, as the authorizers see it (`k8s-native-service/src/request_info.rs`,
`klights-auth/src/request_attributes.rs`). The query is read by hand: names are compared as they are written, values are
percent-decoded.

- `resolveRequestInfo`, `queryParam`;
- `collection_request`: on the path of a collection, the verb and the selector come from the query.
-/

namespace Klights.Auth

open Lib

/-! ## Attributes -/

inductive RequestKind where
  | resource
  | nonResource
  deriving DecidableEq

structure AuthorizationRequest where
  kind : RequestKind
  verb : String
  apiGroup : Option String
  apiVersion : Option String
  resource : Option String
  subresource : Option String
  ns : Option String
  name : Option String
  nonResourceUrl : Option String
  fieldSelector : Option String
  labelSelector : Option String
  resourceRequest : Bool

def nonEmpty (text : String) : Option String := if text = "" then none else some text

def AuthorizationRequest.ofResource (verb apiGroup apiVersion resource : String) (subresource ns name : Option String) :
    AuthorizationRequest where
  kind := .resource
  verb := verb
  apiGroup := nonEmpty apiGroup
  apiVersion := nonEmpty apiVersion
  resource := some resource
  subresource := subresource
  ns := ns
  name := name
  nonResourceUrl := none
  fieldSelector := none
  labelSelector := none
  resourceRequest := true

def AuthorizationRequest.ofUrl (verb url : String) : AuthorizationRequest where
  kind := .nonResource
  verb := verb
  apiGroup := none
  apiVersion := none
  resource := none
  subresource := none
  ns := none
  name := none
  nonResourceUrl := some url
  fieldSelector := none
  labelSelector := none
  resourceRequest := false

/-! ## Verbs -/

inductive Method where
  | get
  | head
  | post
  | put
  | patch
  | delete
  | options
  | other

def nonResourceVerb : Method → String
  | .get | .head => "get"
  | .post => "post"
  | .put => "put"
  | .patch => "patch"
  | .delete => "delete"
  | .options => "options"
  | .other => "get"

variable (method me : Method)

def resourceVerb (hasName watch : Bool) : String :=
  match method with
  | .get | .head => if hasName then "get" else if watch then "watch" else "list"
  | .post => "create"
  | .put => "update"
  | .patch => "patch"
  | .delete => if hasName then "delete" else "deletecollection"
  | .options | .other => "get"

def createVerbSubresources : List String := ["exec", "attach", "portforward", "eviction", "token"]

def subresourceVerb (subresource : String) : String :=
  if subresource ∈ createVerbSubresources then "create"
  else if subresource = "log" then "get"
  else match method with
    | .get | .head => "get"
    | .post => "create"
    | .put => "update"
    | .patch => "patch"
    | .delete => "delete"
    | .options | .other => "get"

/-! ## The query -/

def paramValue (key : String) (part : List Char) : Option String :=
  match splitOnce ['='] part with
  | none => none
  | some (name, value) => if name = key.toList then some (urlDecode value) else none

def queryParam (rawQuery : Option String) (key : String) : Option String :=
  rawQuery.bind fun raw => (raw.toList.splitOn '&').findSome? (paramValue key)

def hasWatch (rawQuery : Option String) : Bool :=
  ((queryParam rawQuery "watch").map fun value => value = "true" || value = "1").getD false

/-- Selectors are attached for the verbs on collections. -/
def finish (request : AuthorizationRequest) (rawQuery : Option String) : AuthorizationRequest :=
  if request.verb = "list" ∨ request.verb = "watch" ∨ request.verb = "deletecollection" then
    { request with
      fieldSelector := queryParam rawQuery "fieldSelector"
      labelSelector := queryParam rawQuery "labelSelector" }
  else request

/-! ## Paths -/

def nonResource (path : String) : AuthorizationRequest := .ofUrl (nonResourceVerb method) path

/-- The segments after a resource: its name and a subresource. -/
def resolveResourceParts (apiGroup apiVersion : String) (ns : Option String) (resource : String)
    (more : List String) (rawQuery : Option String) : AuthorizationRequest :=
  let name := more[0]?
  let subresource := more[1]?
  let verb := match subresource with
    | some sub => subresourceVerb method sub
    | none => resourceVerb method name.isSome (hasWatch rawQuery)
  finish (.ofResource verb apiGroup apiVersion resource subresource ns name) rawQuery

def resolveRest (path apiGroup apiVersion : String) (rest : List String) (rawQuery : Option String) :
    AuthorizationRequest :=
  match rest with
  | [] => nonResource method path
  | resource :: more =>
    if resource = "namespaces" then
      match more with
      | [] =>
        finish
          (.ofResource (resourceVerb method false (hasWatch rawQuery)) apiGroup apiVersion "namespaces" none none none)
          rawQuery
      | [name] =>
        finish (.ofResource (resourceVerb method true false) apiGroup apiVersion "namespaces" none none (some name))
          rawQuery
      | name :: sub :: deeper =>
        if deeper = [] ∧ (sub = "status" ∨ sub = "finalize") then
          finish (.ofResource (subresourceVerb method sub) apiGroup apiVersion "namespaces" (some sub) none (some name))
            rawQuery
        else resolveResourceParts method apiGroup apiVersion (some name) sub deeper rawQuery
    else resolveResourceParts method apiGroup apiVersion none resource more rawQuery

def resolveRequestInfo (path : String) (rawQuery : Option String) : AuthorizationRequest :=
  let segs := ((path.toList.splitOn '/').filter fun segment => !segment.isEmpty).map String.ofList
  match segs with
  | first :: more =>
    if first = "api" then
      match more with
      | [] => nonResource method path
      | apiVersion :: rest => resolveRest method path "" apiVersion rest rawQuery
    else if first = "apis" then
      match more with
      | apiGroup :: apiVersion :: resource :: rest =>
        resolveRest method path apiGroup apiVersion (resource :: rest) rawQuery
      | _ => nonResource method path
    else nonResource method path
  | [] => nonResource method path

/-! ## Collections -/

variable {method me : Method} {pa : String}

/-- A path that names a collection: without a query it is listed. -/
def IsCollection (method : Method) (path : String) : Prop := (resolveRequestInfo method path none).verb = "list"

instance (method : Method) (path : String) : Decidable (IsCollection method path) :=
  inferInstanceAs (Decidable ((resolveRequestInfo method path none).verb = "list"))

structure FromQuery (request : AuthorizationRequest) (rawQuery : Option String) : Prop where
  verb : request.verb = if hasWatch rawQuery then "watch" else "list"
  fieldSelector : request.fieldSelector = queryParam rawQuery "fieldSelector"

theorem subresourceVerb_ne_list (method : Method) (s : String) : subresourceVerb method s ≠ "list" := by
  unfold subresourceVerb
  split
  · decide
  · split
    · decide
    · cases method <;> decide

theorem nonResource_ne_list (method : Method) (pa : String) : (nonResource method pa).verb ≠ "list" := by
  cases method <;> simp [nonResource, AuthorizationRequest.ofUrl, nonResourceVerb]

theorem finish_verb (rq : AuthorizationRequest) (r : Option String) : (finish rq r).verb = rq.verb := by
  unfold finish
  split <;> rfl

theorem finish_fromQuery (apiGroup apiVersion r : String) (s ns nm : Option String)
    (hm : me = .get ∨ me = .head) (rawQuery : Option String) :
    FromQuery (finish (.ofResource (resourceVerb me false (hasWatch rawQuery)) apiGroup apiVersion r
      s ns nm) rawQuery) rawQuery := by
  have hvb : resourceVerb me false (hasWatch rawQuery) = if hasWatch rawQuery then "watch" else "list" := by
    rcases hm with rfl | rfl <;> simp [resourceVerb]
  rw [hvb]
  refine ⟨finish_verb _ _, ?_⟩
  cases hasWatch rawQuery <;> simp [finish, AuthorizationRequest.ofResource]

theorem method_of_list {ha : Bool} (h : resourceVerb me ha false = "list") : (me = .get ∨ me = .head) ∧ ha = false := by
  cases me <;> cases ha <;> simp_all [resourceVerb]

variable {apiGroup a apiVersion av : String}

theorem resourceParts_fromQuery {ns : Option String} {r : String}
    {m : List String} (h : (resolveResourceParts me a av ns r m none).verb = "list")
    (rawQuery : Option String) :
    FromQuery (resolveResourceParts me a av ns r m rawQuery) rawQuery := by
  unfold resolveResourceParts at h ⊢
  rw [finish_verb] at h
  cases hs : m[1]? with
  | some su =>
    rw [hs] at h
    exact absurd h (subresourceVerb_ne_list me su)
  | none =>
    rw [hs] at h
    obtain ⟨hm, hn⟩ := method_of_list h
    dsimp only
    rw [hn]
    exact finish_fromQuery _ _ _ _ _ _ hm rawQuery

theorem rest_fromQuery {tl : List String}
    (h : (resolveRest me pa a av tl none).verb = "list") (rawQuery : Option String) :
    FromQuery (resolveRest me pa a av tl rawQuery) rawQuery := by
  unfold resolveRest at h ⊢
  cases tl with
  | nil => exact absurd h (nonResource_ne_list me pa)
  | cons re mo =>
    dsimp only at h ⊢
    split
    case isFalse ho =>
      rw [if_neg ho] at h
      exact resourceParts_fromQuery h rawQuery
    case isTrue hn =>
      rw [if_pos hn] at h
      match mo with
      | [] =>
        rw [finish_verb] at h
        exact finish_fromQuery _ _ _ _ _ _ (method_of_list h).1 rawQuery
      | [name] =>
        rw [finish_verb] at h
        cases (method_of_list h).2
      | name :: sub :: deeper =>
        dsimp only at h ⊢
        split
        case isTrue hst =>
          rw [if_pos hst, finish_verb] at h
          exact absurd h (subresourceVerb_ne_list me sub)
        case isFalse ho =>
          rw [if_neg ho] at h
          exact resourceParts_fromQuery h rawQuery

theorem collection_request (h : IsCollection me pa) (rawQuery : Option String) :
    FromQuery (resolveRequestInfo me pa rawQuery) rawQuery := by
  unfold IsCollection resolveRequestInfo at h
  unfold resolveRequestInfo
  have hu := nonResource_ne_list me pa
  generalize ((pa.toList.splitOn '/').filter fun se => !se.isEmpty).map String.ofList = segs at h ⊢
  match segs with
  | [] => exact absurd h hu
  | first :: more =>
    dsimp only at h ⊢
    split
    case isTrue hp =>
      rw [if_pos hp] at h
      match more with
      | [] => exact absurd h hu
      | apiVersion :: rest => exact rest_fromQuery h rawQuery
    case isFalse hp =>
      rw [if_neg hp] at h
      split
      case isTrue ha =>
        rw [if_pos ha] at h
        match more with
        | [] => exact absurd h hu
        | [_] => exact absurd h hu
        | [_, _] => exact absurd h hu
        | apiGroup :: apiVersion :: res :: rest => exact rest_fromQuery h rawQuery
      case isFalse ha =>
        rw [if_neg ha] at h
        exact absurd h hu

end Klights.Auth
