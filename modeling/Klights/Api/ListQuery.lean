import Klights.Auth.RequestInfo
import Klights.Selector.Parse

/-!
# The query of a list request

The list handler (`k8s-native-service/src/generic_read.rs`) reads the query of a request as form-encoded pairs, after
the authorizers have seen what `resolveRequestInfo` read from the same text.

- `ListQuery.fromQuery`: the pairs into fields, a field that comes twice is refused;
- `listInner`: a list or a watch;
- `readField_spec`: a field of an accepted query comes from the one part whose decoded name it has;
- `authorized_query_iff`: when the verb and the selector that were authorized are those that are executed.
-/

namespace Klights.Api

open Lib Store Selector Auth List

variable {value vl : String} {query q : ListQuery} {part pt : List Char}

/-! ## The query -/

structure ListQuery where
  labelSelector : Option String
  fieldSelector : Option String
  limit : Option Int
  continueToken : Option String
  watch : Option String
  resourceVersion : Option String
  resourceVersionMatch : Option String
  allowWatchBookmarks : Option String
  sendInitialEvents : Option String
  timeoutSeconds : Option Nat
  deriving DecidableEq

open ListQuery

inductive QueryRejection where
  | duplicateField (name : String)
  | invalidNumber (name value : String)
  deriving DecidableEq

def parseDigits (digits : List Char) : Option Nat :=
  if digits.isEmpty || !digits.all isAsciiDigit then none
  else some (digits.foldl (fun n c => n * 10 + (c.toNat - '0'.toNat)) 0)

def parseI64 (text : String) : Option Int :=
  match text.toList with
  | '-' :: digits => ((parseDigits digits).map fun n => -(n : Int)).filter fun n => -2 ^ 63 ≤ n
  | '+' :: digits => ((parseDigits digits).map fun n => (n : Int)).filter fun n => n < 2 ^ 63
  | digits => ((parseDigits digits).map fun n => (n : Int)).filter fun n => n < 2 ^ 63

def parseU64 (text : String) : Option Nat :=
  match text.toList with
  | '+' :: digits => (parseDigits digits).filter fun n => n < 2 ^ 64
  | digits => (parseDigits digits).filter fun n => n < 2 ^ 64

namespace ListQuery

def empty : ListQuery := ⟨none, none, none, none, none, none, none, none, none, none⟩

/-- A field that may come once. -/
def once {α : Type} (name : String) (current : Option α) (value : Except QueryRejection α) :
    Except QueryRejection (Option α) :=
  if current.isSome then .error (.duplicateField name) else value.map some

def number {α : Type} (name value : String) (parsed : Option α) : Except QueryRejection α :=
  match parsed with
  | some n => .ok n
  | none => .error (.invalidNumber name value)

def setField (query : ListQuery) (pair : String × String) : Except QueryRejection ListQuery :=
  let (name, value) := pair
  if name = "labelSelector" then
    (once name query.labelSelector (.ok value)).map fun field => { query with labelSelector := field }
  else if name = "fieldSelector" then
    (once name query.fieldSelector (.ok value)).map fun field => { query with fieldSelector := field }
  else if name = "limit" then
    (once name query.limit (number name value (parseI64 value))).map fun field => { query with limit := field }
  else if name = "continue" then
    (once name query.continueToken (.ok value)).map fun field => { query with continueToken := field }
  else if name = "watch" then (once name query.watch (.ok value)).map fun field => { query with watch := field }
  else if name = "resourceVersion" then
    (once name query.resourceVersion (.ok value)).map fun field => { query with resourceVersion := field }
  else if name = "resourceVersionMatch" then
    (once name query.resourceVersionMatch (.ok value)).map fun field => { query with resourceVersionMatch := field }
  else if name = "allowWatchBookmarks" then
    (once name query.allowWatchBookmarks (.ok value)).map fun field => { query with allowWatchBookmarks := field }
  else if name = "sendInitialEvents" then
    (once name query.sendInitialEvents (.ok value)).map fun field => { query with sendInitialEvents := field }
  else if name = "timeoutSeconds" then
    (once name query.timeoutSeconds (number name value (parseU64 value))).map fun field =>
      { query with timeoutSeconds := field }
  else .ok query

/-- The query of a request, as the extractor reads it. -/
def fromQuery (lossy : LossyUtf8) (rawQuery : Option String) : Except QueryRejection ListQuery :=
  (formPairs lossy (rawQuery.getD "").toList).foldlM setField empty

end ListQuery

/-! ## The handler -/

inductive ListRejection where
  | selector (rejection : SelectorRejection)
  | badRequest (message : String)
  deriving DecidableEq

inductive ListResourceVersionMatch where
  | any
  | notOlderThan (resourceVersion : Int)
  | exact (resourceVersion : Int)
  deriving DecidableEq

namespace ListQuery

def parsedResourceVersion (query : ListQuery) : Except ListRejection (Option Int) :=
  match query.resourceVersion with
  | none | some "" => .ok none
  | some raw =>
    match parseI64 raw with
    | none =>
      .error (.badRequest ("Invalid value: \"" ++ raw ++ "\": resourceVersion: must be a non-negative integer"))
    | some rv =>
      if rv < 0 then
        .error (.badRequest ("Invalid value: \"" ++ toString rv ++
          "\": resourceVersion: must be a non-negative integer"))
      else .ok (some rv)

/-- A version of zero asks for any. -/
def atLeast (rv : Option Int) : ListResourceVersionMatch :=
  match rv with
  | some rv => if 0 < rv then .notOlderThan rv else .any
  | none => .any

def resolveResourceVersionMatch (query : ListQuery) (hasContinue : Bool) :
    Except ListRejection ListResourceVersionMatch := do
  let parsedRv ← query.parsedResourceVersion
  match query.resourceVersionMatch.filter fun value => value ≠ "" with
  | none => return atLeast parsedRv
  | some rvMatch =>
    if hasContinue then
      .error (.badRequest "Invalid value: resourceVersionMatch is forbidden when continue is provided")
    else match parsedRv with
      | none =>
        .error (.badRequest "Invalid value: resourceVersionMatch is forbidden unless resourceVersion is provided")
      | some rv =>
        if rvMatch = "NotOlderThan" then .ok (atLeast (some rv))
        else if rvMatch = "Exact" then
          if 0 < rv then .ok (.exact rv)
          else .error (.badRequest ("Invalid value: resourceVersionMatch \"Exact\" is forbidden unless a non-zero " ++
            "resourceVersion is provided"))
        else .error (.badRequest ("Unsupported value: \"" ++ rvMatch ++
          "\": supported values: \"Exact\", \"NotOlderThan\""))

def validateSendInitialEventsWatch (query : ListQuery) : Except ListRejection Unit :=
  if query.sendInitialEvents ≠ some "true" then .ok ()
  else match query.resourceVersionMatch.filter fun value => value ≠ "" with
    | some other =>
      if other = "NotOlderThan" then .ok ()
      else .error (.badRequest ("Invalid value: resourceVersionMatch \"" ++ other ++
        "\": sendInitialEvents=true requires resourceVersionMatch=NotOlderThan"))
    | none =>
      .error (.badRequest "Invalid value: sendInitialEvents=true requires resourceVersionMatch=NotOlderThan")

def normalizedLimit (query : ListQuery) : Except ListRejection (Option Int) :=
  match query.limit with
  | none => .ok none
  | some limit =>
    if limit = 0 then .ok none
    else if 0 < limit then .ok (some limit)
    else .error (.badRequest ("Invalid list limit " ++ toString limit ++ ": limit must be greater than or equal to 0"))

end ListQuery

inductive ContinuationMode where
  | initial
  | pinned
  | recovery
  deriving DecidableEq

/-- The envelope of a continue token: the cursor and its mode, where the token decodes. -/
def processGenericListContinueToken (decodeContinueTokenData : String → Option (String × ContinuationMode))
    (raw : Option String) : Except ListRejection (Option String × ContinuationMode) :=
  match raw.filter fun token => token ≠ "" with
  | none => .ok (none, .initial)
  | some raw =>
    match decodeContinueTokenData raw with
    | some (n, mode) =>
      if n = "" then .error (.badRequest "Invalid value: continue token has an empty opaque cursor")
      else .ok (some n, mode)
    | none => .error (.badRequest "Invalid value: continue token is not a native LIST envelope")

inductive ListScope where
  | namespace (ns : String)
  | allNamespaces
  | cluster
  deriving DecidableEq

structure ListRequest where
  scope : ListScope
  labelSelector : Option String
  fieldSelector : Option String
  limit : Option Int
  continueToken : Option String
  continuationMode : ContinuationMode
  resourceVersionMatch : ListResourceVersionMatch
  deriving DecidableEq

inductive ListAction where
  | watch (scope : ListScope) (query : ListQuery)
  | list (request : ListRequest)
  deriving DecidableEq

def ListAction.opensWatch : ListAction → Bool
  | .watch .. => true
  | .list _ => false

def ListAction.fieldSelector : ListAction → Option String
  | .watch _ query => query.fieldSelector
  | .list request => request.fieldSelector

def collectionScope (namespaced : Bool) (ns : Option String) : Except ListRejection ListScope :=
  match namespaced, ns with
  | true, some ns => .ok (.namespace ns)
  | true, none => .ok .allNamespaces
  | false, none => .ok .cluster
  | false, some _ => .error (.badRequest "cluster-scoped LIST route must not carry a namespace")

def listInner (decodeContinueTokenData : String → Option (String × ContinuationMode)) (apiVersion kind : String)
    (ns : Option String) (namespaced : Bool) (query : ListQuery) : Except ListRejection ListAction := do
  (validateBuiltinFieldSelector apiVersion kind query.labelSelector query.fieldSelector namespaced).mapError .selector
  let scope ← collectionScope namespaced ns
  if query.watch = some "true" then
    query.validateSendInitialEventsWatch
    return .watch scope query
  let limit ← query.normalizedLimit
  let (continueToken, mode) ← processGenericListContinueToken decodeContinueTokenData query.continueToken
  let rvMatch ← query.resolveResourceVersionMatch (mode ≠ .initial)
  return .list ⟨scope, query.labelSelector, query.fieldSelector, limit, continueToken, mode, rvMatch⟩

/-! ## Reading one field -/

namespace ListQuery

theorem once_text {name : String} {c : Option String} {s : Option String → ListQuery} {n : ListQuery}
    (h : (once name c (.ok vl)).map s = .ok n) : c = none ∧ n = s (some vl) := by
  obtain ⟨fld, hfd, rfl⟩ := map_eq_ok.1 h
  unfold once at hfd
  split at hfd
  case isTrue => cases hfd
  case isFalse hn =>
    cases hfd
    exact ⟨by simpa using hn, rfl⟩

/-- A field that is set by the pairs of one name and by no others. -/
structure Reads (get : ListQuery → Option String) (name : String) : Prop where
  hit : ∀ query value next, setField query (name, value) = .ok next → get query = none ∧ get next = some value
  miss : ∀ query pair next, pair.1 ≠ name → setField query pair = .ok next → get next = get query

theorem setField_other {n : ListQuery} {name : String} (h : q.setField (name, vl) = .ok n) :
    (name ≠ "fieldSelector" → n.fieldSelector = q.fieldSelector) ∧ (name ≠ "watch" → n.watch = q.watch) := by
  have hk : ∀ {α : Type} {fld : Except QueryRejection α} {se : α → ListQuery},
      fld.map se = .ok n → (∀ a, (se a).fieldSelector = q.fieldSelector ∧ (se a).watch = q.watch) →
      (name ≠ "fieldSelector" → n.fieldSelector = q.fieldSelector) ∧ (name ≠ "watch" → n.watch = q.watch) := by
    intro α fld se hf hs
    obtain ⟨a, -, rfl⟩ := map_eq_ok.1 hf
    exact ⟨fun _ => (hs a).1, fun _ => (hs a).2⟩
  -- the names in the order of the source
  rcases ite_ok_cases h with ⟨-, h⟩ | ⟨-, h⟩
  · exact hk h fun _ => ⟨rfl, rfl⟩
  rcases ite_ok_cases h with ⟨hn, h⟩ | ⟨-, h⟩
  · obtain ⟨fld, -, rfl⟩ := map_eq_ok.1 h
    exact ⟨fun ho => absurd hn ho, fun _ => rfl⟩
  rcases ite_ok_cases h with ⟨-, h⟩ | ⟨-, h⟩
  · exact hk h fun _ => ⟨rfl, rfl⟩
  rcases ite_ok_cases h with ⟨-, h⟩ | ⟨-, h⟩
  · exact hk h fun _ => ⟨rfl, rfl⟩
  rcases ite_ok_cases h with ⟨hn, h⟩ | ⟨-, h⟩
  · obtain ⟨fld, -, rfl⟩ := map_eq_ok.1 h
    exact ⟨fun _ => rfl, fun ho => absurd hn ho⟩
  rcases ite_ok_cases h with ⟨-, h⟩ | ⟨-, h⟩
  · exact hk h fun _ => ⟨rfl, rfl⟩
  rcases ite_ok_cases h with ⟨-, h⟩ | ⟨-, h⟩
  · exact hk h fun _ => ⟨rfl, rfl⟩
  rcases ite_ok_cases h with ⟨-, h⟩ | ⟨-, h⟩
  · exact hk h fun _ => ⟨rfl, rfl⟩
  rcases ite_ok_cases h with ⟨-, h⟩ | ⟨-, h⟩
  · exact hk h fun _ => ⟨rfl, rfl⟩
  rcases ite_ok_cases h with ⟨-, h⟩ | ⟨-, h⟩
  · exact hk h fun _ => ⟨rfl, rfl⟩
  cases h
  exact ⟨fun _ => rfl, fun _ => rfl⟩

theorem reads_fieldSelector : Reads fieldSelector "fieldSelector" where
  hit := by
    intro q vl next h
    obtain ⟨ho, rfl⟩ := once_text (h : (once _ q.fieldSelector (.ok vl)).map _ = _)
    exact ⟨ho, rfl⟩
  miss := fun _ _ _ hn h => (setField_other h).1 hn

theorem reads_watch : Reads watch "watch" where
  hit := by
    intro q vl next h
    obtain ⟨ho, rfl⟩ := once_text (h : (once _ q.watch (.ok vl)).map _ = _)
    exact ⟨ho, rfl⟩
  miss := fun _ _ _ hn h => (setField_other h).2 hn

variable {g : ListQuery → Option String} {name : String} {pr : List Char → String × String}

theorem readField_set (hr : Reads g name) : ∀ {p : List (List Char)}
    {query n : ListQuery}, g query = some vl → p.foldlM (fun query part => query.setField (pr part)) query = .ok n →
      g n = some vl ∧ ∀ part ∈ p, (pr part).1 ≠ name
  | [], _, _, hg, h => by
    cases h
    exact ⟨hg, nofun⟩
  | part :: p, query, _, hg, h => by
    rw [foldlM_cons] at h
    obtain ⟨mi, hm, h⟩ := bind_eq_ok.1 h
    have hn : (pr part).1 ≠ name := by
      rintro hn
      have hp : pr part = (name, (pr part).2) := by rw [← hn]
      rw [hp] at hm
      rw [(hr.hit _ _ _ hm).1] at hg
      cases hg
    have hk := hr.miss _ _ _ hn hm
    obtain ⟨hx, ht⟩ := readField_set hr (hk.trans hg) h
    exact ⟨hx, forall_mem_cons.2 ⟨hn, ht⟩⟩

theorem readField_spec (hr : Reads g name) : ∀ {p : List (List Char)} {query n : ListQuery},
    g query = none → p.foldlM (fun query part => query.setField (pr part)) query = .ok n →
      (g n = none ∧ ∀ part ∈ p, (pr part).1 ≠ name) ∨
        ∃ front part back, p = front ++ part :: back ∧ (pr part).1 = name ∧ g n = some (pr part).2 ∧
          ∀ o ∈ front ++ back, (pr o).1 ≠ name
  | [], _, _, hg, h => by
    cases h
    exact .inl ⟨hg, nofun⟩
  | part :: p, query, _, hg, h => by
    rw [foldlM_cons] at h
    obtain ⟨mi, hm, h⟩ := bind_eq_ok.1 h
    by_cases hn : (pr part).1 = name
    · have hp : pr part = (name, (pr part).2) := by rw [← hn]
      rw [hp] at hm
      obtain ⟨hx, ho⟩ := readField_set hr (hr.hit _ _ _ hm).2 h
      exact .inr ⟨[], part, p, rfl, hn, hx, ho⟩
    · have hk := (hr.miss _ _ _ hn hm).trans hg
      rcases readField_spec hr hk h with ⟨hno, ha⟩ | ⟨front, found, back, rfl, hf, hx, ho⟩
      · exact .inl ⟨hno, forall_mem_cons.2 ⟨hn, ha⟩⟩
      · exact .inr ⟨part :: front, found, back, rfl, hf, hx, forall_mem_cons.2 ⟨hn, ho⟩⟩

end ListQuery

/-! ## What was authorized -/

section Authorized

variable {lo : LossyUtf8} {r : Option String} {key k : String}

def partsOf (rawQuery : Option String) : List (List Char) := queryParts (rawQuery.getD "").toList

def WrittenOut (lossy : LossyUtf8) (rawQuery : Option String) (key : String) : Prop :=
  ∀ part ∈ partsOf rawQuery, (formPair lossy part).1 = key → ∃ value, part = key.toList ++ '=' :: value

/-- The parts with a name have it written out, with a value that has no `+` and stands for UTF-8. -/
def PlainlyWritten (lossy : LossyUtf8) (rawQuery : Option String) (key : String) : Prop :=
  ∀ part ∈ partsOf rawQuery, (formPair lossy part).1 = key →
    ∃ value, part = key.toList ++ '=' :: value ∧ '+' ∉ value ∧ (ofUtf8Bytes (decodedBytes value)).isSome = true

structure PlainKey (key : String) : Prop where
  percent : 37 ∉ utf8Bytes (String.ofList key.toList)
  plus : '+' ∉ key.toList
  equals : '=' ∉ key.toList

theorem plainKey_watch : PlainKey "watch" := ⟨by decide +kernel, by decide, by decide⟩

theorem plainKey_fieldSelector : PlainKey "fieldSelector" := ⟨by decide +kernel, by decide, by decide⟩

theorem formPair_writtenOut (hk : PlainKey k) (value : List Char) :
    formPair lo (k.toList ++ '=' :: value) = (k, formDecode lo value) := by
  have hc : cutPair (k.toList ++ '=' :: value) = (k.toList, value) := by
    rw [cutPair, splitOnce_char.2 ⟨rfl, hk.equals⟩, Option.getD_some]
  rw [formPair, hc, formDecode_plain lo hk.percent hk.plus, String.ofList_toList]

theorem paramValue_eq_some {tx : String} (hk : PlainKey k) :
    paramValue k pt = some tx ↔ ∃ value, pt = k.toList ++ '=' :: value ∧ tx = urlDecode value := by
  unfold paramValue
  constructor
  · intro h
    split at h
    case h_1 => cases h
    case h_2 name value hs =>
      split at h
      case isTrue hn =>
        cases h
        exact ⟨value, hn ▸ (splitOnce_char.1 hs).1, rfl⟩
      case isFalse => cases h
  · rintro ⟨value, rfl, rfl⟩
    rw [splitOnce_char.2 ⟨rfl, hk.equals⟩]
    exact if_pos rfl

theorem paramValue_none (hk : PlainKey k) (h : (formPair lo pt).1 ≠ k) : paramValue k pt = none := by
  cases hv : paramValue k pt with
  | none => rfl
  | some tx =>
    obtain ⟨vl, rfl, -⟩ := (paramValue_eq_some hk).1 hv
    rw [formPair_writtenOut hk] at h
    exact absurd rfl h

theorem findSome_filter {α β : Type} {f : α → Option β} {p : α → Bool} : ∀ {l : List α},
    (∀ a ∈ l, p a = false → f a = none) → (l.filter p).findSome? f = l.findSome? f
  | [], _ => rfl
  | a :: l, h => by
    have hr := findSome_filter fun b hb => h b (mem_cons_of_mem a hb)
    cases hp : p a with
    | true => rw [filter_cons_of_pos hp, findSome?_cons, findSome?_cons, hr]
    | false => rw [filter_cons_of_neg (by simp [hp]), findSome?_cons, h a mem_cons_self hp, hr]

theorem queryParam_eq : queryParam r k = (partsOf r).findSome? (paramValue k) := by
  cases r with
  | none => rfl
  | some ra =>
    refine (findSome_filter fun pt _ he => ?_).symm
    have hp : pt = [] := by simpa using he
    subst hp
    rfl

/-- What the handler and the authorizers read of one field, and from which part. -/
structure OnePart (lossy : LossyUtf8) (rawQuery : Option String) (key : String) (part : List Char) : Prop where
  mem : part ∈ partsOf rawQuery
  name : (formPair lossy part).1 = key
  unique : ∀ other ∈ partsOf rawQuery, (formPair lossy other).1 = key → other = part
  param : queryParam rawQuery key = paramValue key part

theorem field_of_query {g : ListQuery → Option String} (hr : ListQuery.Reads g k) (hk : PlainKey k)
    (he : g .empty = none) (h : fromQuery lo r = .ok q) :
    (g q = none ∧ queryParam r k = none ∧ ∀ part ∈ partsOf r, (formPair lo part).1 ≠ k) ∨
      ∃ part, OnePart lo r k part ∧ g q = some (formPair lo part).2 := by
  unfold fromQuery formPairs at h
  rw [foldlM_map] at h
  rcases readField_spec hr he h with ⟨hno, ha⟩ | ⟨front, part, back, hp, hn, hg, ht⟩
  · refine .inl ⟨hno, ?_, ha⟩
    rw [queryParam_eq]
    exact findSome?_eq_none_iff.2 fun part hpt => paramValue_none hk (ha part hpt)
  · have hf : front.findSome? (paramValue k) = none := findSome?_eq_none_iff.2 fun o ho =>
      paramValue_none hk (ht o (mem_append_left back ho))
    have hb : back.findSome? (paramValue k) = none := findSome?_eq_none_iff.2 fun o ho =>
      paramValue_none hk (ht o (mem_append_right front ho))
    have ha : partsOf r = front ++ part :: back := hp
    refine .inr ⟨part, ⟨by simp [ha], hn, fun o ho heq => ?_, ?_⟩, hg⟩
    · rw [ha, mem_append, mem_cons] at ho
      rcases ho with ho | rfl | ho
      · exact absurd heq (ht o (mem_append_left back ho))
      · rfl
      · exact absurd heq (ht o (mem_append_right front ho))
    · rw [queryParam_eq, ha, findSome?_append, hf, Option.none_or, findSome?_cons, hb]
      cases paramValue k part <;> rfl

theorem OnePart.plainlyWritten_iff (h : OnePart lo r key pt) (hk : PlainKey key)
    (hreplaced : ∀ part ∈ partsOf r, '�' ∉ part) :
    queryParam r key = some (formPair lo pt).2 ↔ PlainlyWritten lo r key := by
  have hno : ∀ value, pt = key.toList ++ '=' :: value → '�' ∉ value := by
    rintro value rfl hm
    exact hreplaced _ h.mem (mem_append_right _ (.tail _ hm))
  rw [h.param, paramValue_eq_some hk]
  constructor
  · rintro ⟨value, hp, hv⟩ other ho heq
    rw [hp, formPair_writtenOut hk, formDecode_eq_urlDecode_iff lo (hno value hp)] at hv
    exact ⟨value, (h.unique other ho heq).trans hp, hv⟩
  · intro ha
    obtain ⟨value, hp, hv⟩ := ha pt h.mem h.name
    refine ⟨value, hp, ?_⟩
    rwa [hp, formPair_writtenOut hk, formDecode_eq_urlDecode_iff lo (hno value hp)]

theorem OnePart.hasWatch_iff (h : OnePart lo r "watch" pt) (ht : (formPair lo pt).2 = "true") :
    hasWatch r ↔ WrittenOut lo r "watch" := by
  unfold hasWatch
  rw [h.param]
  constructor
  · intro hw o ho heq
    cases hv : paramValue "watch" pt with
    | none =>
      rw [hv] at hw
      cases hw
    | some tx =>
      obtain ⟨vl, hp, -⟩ := (paramValue_eq_some plainKey_watch).1 hv
      exact ⟨vl, (h.unique o ho heq).trans hp⟩
  · intro hr
    obtain ⟨vl, rfl⟩ := hr pt h.mem h.name
    rw [formPair_writtenOut plainKey_watch] at ht
    have hd := urlDecode_of_formDecode ht (by decide +kernel) (by decide)
    rw [(paramValue_eq_some plainKey_watch).2 ⟨vl, rfl, rfl⟩, hd]
    rfl

theorem listInner_ok {d : String → Option (String × ContinuationMode)}
    {av kd : String} {ns : Option String} {n : Bool} {a : ListAction}
    (h : listInner d av kd ns n q = .ok a) :
    (a.opensWatch → q.watch = some "true") ∧ a.fieldSelector = q.fieldSelector := by
  obtain ⟨-, -, h⟩ := bind_eq_ok.1 h
  obtain ⟨sc, -, h⟩ := bind_eq_ok.1 h
  split at h
  case isTrue hw =>
    obtain ⟨-, -, h⟩ := bind_eq_ok.1 h
    cases h
    exact ⟨fun _ => hw, rfl⟩
  case isFalse =>
    obtain ⟨li, -, h⟩ := bind_eq_ok.1 h
    obtain ⟨tok, -, h⟩ := bind_eq_ok.1 h
    obtain ⟨rvM, -, h⟩ := bind_eq_ok.1 h
    cases h
    exact ⟨nofun, rfl⟩

/-- **Authorized queries.** A watch that the handler opens was authorized as one exactly if `watch` is written out in
the query, and the selector it uses is the authorized one exactly if the name `fieldSelector` is written out and its
value has no `+` and stands for UTF-8. The query itself holds no replacement characters, as a URI does not. -/
theorem authorized_query_iff (lossy : LossyUtf8) (decodeContinueTokenData : String → Option (String × ContinuationMode))
    (method : Method) (path : String) (rawQuery : Option String) (apiVersion kind : String) (ns : Option String)
    (namespaced : Bool) (query : ListQuery) (action : ListAction) (hcollection : IsCollection method path)
    (hquery : fromQuery lossy rawQuery = .ok query)
    (haction : listInner decodeContinueTokenData apiVersion kind ns namespaced query = .ok action)
    (hreplaced : ∀ part ∈ partsOf rawQuery, '�' ∉ part) :
    (action.opensWatch = true →
        ((resolveRequestInfo method path rawQuery).verb = "watch" ↔ WrittenOut lossy rawQuery "watch")) ∧
      ((resolveRequestInfo method path rawQuery).fieldSelector = action.fieldSelector ↔
        PlainlyWritten lossy rawQuery "fieldSelector") := by
  obtain ⟨ho, hs⟩ := listInner_ok haction
  have hr := collection_request hcollection rawQuery
  constructor
  · intro hw
    have ht := ho hw
    rcases field_of_query reads_watch plainKey_watch rfl hquery with ⟨hn, -⟩ | ⟨part, hp, hg⟩
    · cases hn.symm.trans ht
    · rw [hr.verb, ← hp.hasWatch_iff (Option.some.inj (hg.symm.trans ht))]
      cases hasWatch rawQuery <;> decide
  · rw [hr.fieldSelector, hs]
    rcases field_of_query reads_fieldSelector plainKey_fieldSelector rfl hquery with
      ⟨hn, ha, hl⟩ | ⟨part, hp, hg⟩
    · rw [hn, ha]
      exact iff_of_true rfl fun part he hm => absurd hm (hl part he)
    · rw [hg]
      exact hp.plainlyWritten_iff plainKey_fieldSelector hreplaced

end Authorized

/-- A reader that replaces the whole text where it is not UTF-8. -/
def replaceAll : LossyUtf8 where
  decode bytes := (ofUtf8Bytes bytes).getD "�"
  valid := fun _ _ h => by rw [h, Option.getD_some]
  invalid := fun _ h => by rw [h]; decide

def nodeWatchQuery : ListQuery := { empty with watch := some "true", fieldSelector := some "spec.nodeName=a" }

theorem authorized_query_iff_node :
    let info := resolveRequestInfo .get "/api/v1/pods" (some "watch=true&fieldSelector=spec.nodeName%3Da")
    (info.verb = "watch" ↔ WrittenOut replaceAll (some "watch=true&fieldSelector=spec.nodeName%3Da") "watch") ∧
      (info.fieldSelector = some "spec.nodeName=a" ↔
        PlainlyWritten replaceAll (some "watch=true&fieldSelector=spec.nodeName%3Da") "fieldSelector") :=
  (authorized_query_iff replaceAll (fun _ => none) .get "/api/v1/pods"
    (some "watch=true&fieldSelector=spec.nodeName%3Da") "v1" "Pod" none true nodeWatchQuery
    (.watch .allNamespaces nodeWatchQuery) (by decide +kernel) (by decide +kernel) (by decide +kernel)
    (by decide +kernel)).imp_left fun h => h rfl

/-- A watch that was authorized as a list, and a selector that was authorized with a plus for its blank. -/
theorem query_authorized_otherwise :
    (fromQuery replaceAll (some "%77atch=true") = .ok { empty with watch := some "true" } ∧
        listInner (fun _ => none) "v1" "Pod" none true { empty with watch := some "true" } =
          .ok (.watch .allNamespaces { empty with watch := some "true" }) ∧
        (resolveRequestInfo .get "/api/v1/pods" (some "%77atch=true")).verb = "list") ∧
      fromQuery replaceAll (some "fieldSelector=metadata.name=a+b") =
          .ok { empty with fieldSelector := some "metadata.name=a b" } ∧
        (resolveRequestInfo .get "/api/v1/pods" (some "fieldSelector=metadata.name=a+b")).fieldSelector =
          some "metadata.name=a+b" := by
  decide +kernel

end Klights.Api
