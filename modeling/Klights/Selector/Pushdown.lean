import Mathlib.Data.List.TakeWhile
import Klights.Selector.Parse

/-!
# Selectors in SQL

A list request turns its selectors into clauses over the index tables (`sqlite/selector_index.rs`) and over the name and
namespace columns (`sqlite/filters.rs`); what cannot be pushed down is filtered afterwards
(`sqlite/resource_read.rs`). A watch evaluates the same selectors on the object itself (`klights-watch/src/filter.rs`).

- `buildSelectorPushdown`, `splitSqlPushdownConditions`, `listSelects`, `watchSelects`;
- `labelClause_holds`, `fieldClause_holds`: a clause over the rows the index writer leaves decides as the matcher does;
- `pushdown_sound`, `split_sound`: the clauses and the rest together;
- `list_agrees_with_watch`: all clauses and the rest select what a watch reports. A list has no namespace clause where
  the table has no such column; the field check of the API refuses selectors that would need one.
-/

namespace Klights.Selector

open Lib Store LabelRequirement FieldRequirement List Json.Fields

variable {b params pa rest tl : List String} {p : Tables} {rq : FieldRequirement} {label l value vl : String} {s : Bool}
  {ch : List Char}

/-! ## Clauses -/

inductive IndexTable where
  | labels
  | fields

inductive ValueTest where
  | any
  | equals (param : Nat)
  | oneOf (params : List Nat)

/-- `[NOT] EXISTS (SELECT 1 FROM <index> WHERE <same object> AND key = ?n [AND value ..])`. -/
structure IndexClause where
  negated : Bool
  table : IndexTable
  clusterScoped : Bool
  key : Nat
  value : ValueTest

open IndexClause

def boundParam (params : List String) (number : Nat) : Option String :=
  if number = 0 then none else params[number - 1]?

def ValueTest.holds (params : List String) (value : String) : ValueTest → Bool
  | any => true
  | equals param => boundParam params param = some value
  | oneOf numbers => numbers.any fun param => boundParam params param = some value

namespace IndexClause

def joins (clause : IndexClause) (key : ResourceKey) (row : SelectorIndexRow) : Bool :=
  row.resource.apiVersion = key.apiVersion && row.resource.kind = key.kind &&
    (if clause.clusterScoped then decide (row.resource.ns = "") else decide (some row.resource.ns = key.ns)) &&
    row.resource.name = key.name

def rows (clause : IndexClause) (tables : Tables) : List SelectorIndexRow :=
  match clause.table with
  | .labels => tables.labels
  | .fields => tables.fields

def holds (params : List String) (tables : Tables) (key : ResourceKey) (clause : IndexClause) : Bool :=
  let found := (clause.rows tables).any fun row =>
    clause.joins key row && (boundParam params clause.key = some row.key && clause.value.holds params row.value)
  if clause.negated then !found else found

end IndexClause

/-! ## Building the clauses -/

structure SelectorPushdown where
  sqlClauses : List IndexClause
  sqlParams : List String
  residualLabels : List LabelRequirement
  residualFields : List FieldRequirement

def labelClause (clusterScoped : Bool) (number : Nat) : LabelRequirement → IndexClause × List String
  | .equality key value => (⟨false, .labels, clusterScoped, number, .equals (number + 1)⟩, [key, value])
  | .exists key => (⟨false, .labels, clusterScoped, number, .any⟩, [key])
  | .notExists key => (⟨true, .labels, clusterScoped, number, .any⟩, [key])
  | .isIn key values =>
    (⟨false, .labels, clusterScoped, number, .oneOf ((List.range values.length).map fun i => number + 1 + i)⟩,
      key :: values)
  | .inequality key value => (⟨true, .labels, clusterScoped, number, .equals (number + 1)⟩, [key, value])
  | .notIn key values =>
    (⟨true, .labels, clusterScoped, number, .oneOf ((List.range values.length).map fun i => number + 1 + i)⟩,
      key :: values)

def fieldClause (clusterScoped : Bool) (number : Nat) (condition : FieldRequirement) : IndexClause :=
  ⟨condition.operator ≠ .equals, .fields, clusterScoped, number, .equals (number + 1)⟩

def pushLabel (paramOffset : Nat) (clusterScoped : Bool) (plan : SelectorPushdown) (requirement : LabelRequirement) :
    SelectorPushdown :=
  let (clause, params) := labelClause clusterScoped (paramOffset + plan.sqlParams.length + 1) requirement
  { plan with sqlClauses := plan.sqlClauses ++ [clause], sqlParams := plan.sqlParams ++ params }

def pushField (indexedFields : List String) (paramOffset : Nat) (clusterScoped : Bool) (plan : SelectorPushdown)
    (condition : FieldRequirement) : SelectorPushdown :=
  if condition.value ≠ "" ∧ condition.field ∈ indexedFields then
    { plan with
      sqlClauses := plan.sqlClauses ++ [fieldClause clusterScoped (paramOffset + plan.sqlParams.length + 1) condition]
      sqlParams := plan.sqlParams ++ [condition.field, condition.value] }
  else { plan with residualFields := plan.residualFields ++ [condition] }

def buildSelectorPushdown (labelRequirements : List LabelRequirement) (fieldConditions : List FieldRequirement)
    (apiVersion kind : String) (paramOffset : Nat) (clusterScoped : Bool) : SelectorPushdown :=
  let labelled := labelRequirements.foldl (pushLabel paramOffset clusterScoped) ⟨[], [], [], []⟩
  fieldConditions.foldl (pushField (indexedFieldPaths apiVersion kind) paramOffset clusterScoped) labelled

/-! ## Names and namespaces -/

structure SqlPushdownConditions where
  sqlNameEq : Option String
  sqlNamespaceEq : Option String
  residualFields : List FieldRequirement

/-- The first equality with a name or a namespace becomes a clause of its own. -/
def splitRequirement (split : SqlPushdownConditions) (requirement : FieldRequirement) : SqlPushdownConditions :=
  let pushable := requirement.operator = .equals ∧ requirement.value ≠ ""
  if requirement.field = "metadata.name" ∧ pushable ∧ split.sqlNameEq = none then
    { split with sqlNameEq := some requirement.value }
  else if requirement.field = "metadata.namespace" ∧ pushable ∧ split.sqlNamespaceEq = none then
    { split with sqlNamespaceEq := some requirement.value }
  else { split with residualFields := split.residualFields ++ [requirement] }

def splitSqlPushdownConditions (selector : String) : Except FieldSelectorParseError SqlPushdownConditions :=
  (FieldSelector.parse selector).map fun parsed => parsed.requirements.foldl splitRequirement ⟨none, none, []⟩

/-! ## Lists and watches -/

variable (key k : ResourceKey) (data da : Json)

def matchesFieldSelectorConditions (conditions : List FieldRequirement) : Bool :=
  conditions.all (FieldRequirement.matchesResourceWithIdentity key.apiVersion key.kind data)

/-- The clauses hold and the rest of the selectors match; `base` are the parameters bound before those of the plan. -/
def SelectorPushdown.selects (plan : SelectorPushdown) (base : List String) (tables : Tables) (key : ResourceKey)
    (data : Json) : Bool :=
  plan.sqlClauses.all (holds (base ++ plan.sqlParams) tables key) &&
    matchesLabelRequirements data plan.residualLabels && matchesFieldSelectorConditions key data plan.residualFields

inductive SelectorError where
  | label (message : String)
  | field (error : FieldSelectorParseError)
  deriving DecidableEq

variable (selector : Option String)

def optionalLabels : Except SelectorError (List LabelRequirement) :=
  match selector with
  | some text => (parseLabelSelector text).mapError .label
  | none => .ok []

def optionalFields : Except SelectorError FieldSelector :=
  match selector with
  | some text => (FieldSelector.parse text).mapError .field
  | none => .ok ⟨[]⟩

def optionalSplit : Except SelectorError SqlPushdownConditions :=
  match selector with
  | some text => (splitSqlPushdownConditions text).mapError .field
  | none => .ok ⟨none, none, []⟩

/-- The name clause and the namespace clause. -/
def namesHold (split : SqlPushdownConditions) (key : ResourceKey) : Bool :=
  (split.sqlNameEq.all fun name => key.name = name) && split.sqlNamespaceEq.all fun expected => key.ns = some expected

/-- Whether the object satisfies all clauses of the selectors and what is left of them. -/
def clausesSelect (tables : Tables) (base : List String) (apiVersion kind : String) (key : ResourceKey) (data : Json)
    (labelSelector fieldSelector : Option String) : Except SelectorError Bool := do
  let labels ← optionalLabels labelSelector
  let split ← optionalSplit fieldSelector
  let plan := buildSelectorPushdown labels split.residualFields apiVersion kind base.length key.ns.isNone
  return namesHold split key && plan.selects base tables key data

/-- The name clause, and the namespace clause where the table has that column. -/
def namesSelect (split : SqlPushdownConditions) (key : ResourceKey) : Bool :=
  (split.sqlNameEq.all fun name => key.name = name) &&
    match key.ns with
    | some ns => split.sqlNamespaceEq.all fun expected => ns = expected
    | none => true

/-- Whether the list of the datastore has the object. -/
def listSelects (tables : Tables) (base : List String) (apiVersion kind : String) (key : ResourceKey) (data : Json)
    (labelSelector fieldSelector : Option String) : Except SelectorError Bool := do
  let labels ← optionalLabels labelSelector
  let split ← optionalSplit fieldSelector
  let plan := buildSelectorPushdown labels split.residualFields apiVersion kind base.length key.ns.isNone
  return namesSelect split key && plan.selects base tables key data

/-- A blank selector counts as none. -/
def normalized : Option String := selector.filter fun text => !isBlank text

/-- Whether a watch with the given selectors reports the object. -/
def watchSelects (labelSelector fieldSelector : Option String) : Except SelectorError Bool := do
  let labels ← optionalLabels (normalized labelSelector)
  let fields ← optionalFields (normalized fieldSelector)
  return matchesLabelRequirements data labels && fields.matchesResourceWithIdentity key.apiVersion key.kind data

/-! ## Parameters -/

section Params

variable {ad : List String}

theorem boundParam_added {i : Nat} (hi : i < ad.length) :
    boundParam (b ++ (pa ++ (ad ++ tl))) (b.length + pa.length + 1 + i) = ad[i]? := by
  unfold boundParam
  rw [if_neg (by omega), show b.length + pa.length + 1 + i - 1 = b.length + (pa.length + i) by omega,
    getElem?_append_right (by omega),
    show b.length + (pa.length + i) - b.length = pa.length + i by omega,
    getElem?_append_right (by omega), show pa.length + i - pa.length = i by omega,
    getElem?_append_left hi]

theorem boundParam_first {key : String} :
    boundParam (b ++ (pa ++ (key :: ad ++ tl))) (b.length + pa.length + 1) = some key := by
  have hf1 : boundParam (b ++ (pa ++ (key :: ad ++ tl))) (b.length + pa.length + 1 + 0) =
      (key :: ad)[0]? := boundParam_added (by simp)
  exact hf1

end Params

/-! ## The rows of an object -/

section Rows

variable {key k : ResourceKey} {data da : Json} {cl : IndexClause}

theorem joins_eq (hc : cl.clusterScoped = k.ns.isNone) (r : SelectorIndexRow) :
    cl.joins k r = decide (r.resource = indexKey k) := by
  obtain ⟨⟨av, kd, ns, nm⟩, co, vl⟩ := r
  unfold joins indexKey
  rw [hc]
  cases hn : k.ns with
  | none => simp [IndexKey.mk.injEq, Bool.and_assoc]
  | some ke => simp [IndexKey.mk.injEq, Bool.and_assoc]

theorem found_eq (hc : cl.clusterScoped = k.ns.isNone) {st o : List SelectorIndexRow}
    (hw : ∀ r ∈ o, r.resource = indexKey k) (test : SelectorIndexRow → Bool) :
    (((st.filter fun r => r.resource ≠ indexKey k) ++ o).any fun r => cl.joins k r && test r) =
      o.any test := by
  rw [any_append]
  have hs : (st.filter fun r => r.resource ≠ indexKey k).any (fun r => cl.joins k r && test r) = false := by
    rw [any_eq_false]
    intro r hr
    have ho := of_decide_eq_true (mem_filter.1 hr).2
    simp [joins_eq hc, ho]
  rw [hs, Bool.false_or, Bool.eq_iff_iff, any_eq_true, any_eq_true]
  constructor
  · rintro ⟨r, hr, ht⟩
    exact ⟨r, hr, (Bool.and_eq_true_iff.1 ht).2⟩
  · rintro ⟨r, hr, ht⟩
    exact ⟨r, hr, by simp [joins_eq hc, hw r hr, ht]⟩

def ownRows (table : IndexTable) (key : ResourceKey) (data : Json) : List SelectorIndexRow :=
  match table with
  | .labels => labelRows key data
  | .fields => fieldRows key data

theorem ownRows_resource (ta : IndexTable) : ∀ r ∈ ownRows ta key da, r.resource = indexKey key := by
  intro r hr
  cases ta with
  | labels =>
    obtain ⟨l, -, rfl⟩ := mem_map.1 hr
    rfl
  | fields =>
    obtain ⟨pat, -, hp⟩ := mem_filterMap.1 hr
    obtain ⟨vl, -, rfl⟩ := Option.map_eq_some_iff.1 hp
    rfl

theorem holds_eq (params : List String) (hc : cl.clusterScoped = k.ns.isNone) :
    cl.holds params (p.upsertIndexes k data) k = (cl.negated ^^ (ownRows cl.table k data).any fun r =>
        boundParam params cl.key = some r.key && cl.value.holds params r.value) := by
  have hr : ∃ st : List SelectorIndexRow, cl.rows (p.upsertIndexes k data) =
      (st.filter fun r => r.resource ≠ indexKey k) ++ ownRows cl.table k data := by
    unfold rows
    cases cl.table with
    | labels => exact ⟨p.labels, rfl⟩
    | fields => exact ⟨p.fields, rfl⟩
  obtain ⟨st, hs⟩ := hr
  unfold holds
  rw [hs]
  rw [found_eq hc (ownRows_resource cl.table)]
  cases cl.negated <;> simp

end Rows

/-! ## Label clauses -/

structure StringLabels (data : Json) : Prop where
  sorted : ∀ labels ∈ labelsOf data, Json.Fields.Sorted labels
  strings : ∀ labels ∈ labelsOf data, ∀ label ∈ labels, label.2.asStr.isSome = true

section Labels

variable {da : Json} {k : ResourceKey}

theorem labelRows_any (h : StringLabels da) (label : String) (test : String → Bool) :
    ((ownRows .labels k da).any fun r => some label = some r.key && test r.value) =
      (labelValue (labelsOf da) label).any test := by
  unfold ownRows labelRows extractLabels labelValue
  change (List.map _ (List.filterMap _ ((labelsOf da).getD []))).any _ = _
  cases hl : labelsOf da with
  | none => rfl
  | some labels =>
    have hs := h.sorted labels hl
    rw [Bool.eq_iff_iff, any_eq_true, Option.any_eq_true]
    simp only [mem_map, mem_filterMap, Option.getD_some, Option.bind_some]
    constructor
    · rintro ⟨r, ⟨e, ⟨fld, hf, he⟩, rfl⟩, hte⟩
      obtain ⟨vl, hv, rfl⟩ := Option.map_eq_some_iff.1 he
      simp only [Bool.and_eq_true, decide_eq_true_eq, Option.some.injEq] at hte
      obtain ⟨rfl, hte⟩ := hte
      have hg := (get_eq_some_iff_mem hs).2 hf
      exact ⟨vl, by rw [hg]; exact hv, hte⟩
    · rintro ⟨vl, hv, hte⟩
      obtain ⟨js, hj, ht⟩ := Option.bind_eq_some_iff.1 hv
      refine ⟨⟨indexKey k, label, vl⟩, ⟨(label, vl), ⟨(label, js), ?_, ?_⟩, rfl⟩, ?_⟩
      · exact (get_eq_some_iff_mem hs).1 hj
      · rw [ht]
        rfl
      · simp [hte]

theorem labelValue_isSome (h : StringLabels da) (label : String) : (labelValue (labelsOf da) label).isSome =
      ((labelsOf da).map fun fs => (get label fs).isSome).getD false := by
  unfold labelValue
  cases hl : labelsOf da with
  | none => rfl
  | some la =>
    rw [Option.bind_some, Option.map_some, Option.getD_some]
    cases hg : get label la with
    | none => rfl
    | some js =>
      have hm := (get_eq_some_iff_mem (h.sorted la hl)).1 hg
      rw [Option.bind_some, h.strings la hl _ hm]
      rfl

theorem labelValue_isNone (h : StringLabels da) (label : String) :
    ((labelsOf da).map fun fs => (get label fs).isNone).getD true = !(labelValue (labelsOf da) label).isSome := by
  rw [labelValue_isSome h]
  cases labelsOf da with
  | none => rfl
  | some la => exact (Option.not_isSome _).symm

theorem oneOf_holds {vs : List String} : ValueTest.holds (b ++ (pa ++ (label :: vs ++ tl))) value
      (.oneOf ((List.range vs.length).map fun i => b.length + pa.length + 1 + 1 + i)) =
        vs.any fun ex => ex = value := by
  have hb : ∀ i, i < vs.length → boundParam (b ++ (pa ++ (label :: vs ++ tl))) (b.length + pa.length + 1 + 1 + i) =
        vs[i]? := by
    intro i hi
    have ha : boundParam (b ++ (pa ++ (label :: vs ++ tl)))
        (b.length + pa.length + 1 + (i + 1)) = (label :: vs)[i + 1]? := boundParam_added (by simpa using hi)
    rw [show b.length + pa.length + 1 + 1 + i = b.length + pa.length + 1 + (i + 1) by omega, ha]
    rfl
  unfold ValueTest.holds
  rw [Bool.eq_iff_iff, any_eq_true, any_eq_true]
  constructor
  · rintro ⟨nr, hn, hv⟩
    obtain ⟨i, hi, rfl⟩ := mem_map.1 hn
    rw [decide_eq_true_eq, hb i (mem_range.1 hi)] at hv
    exact ⟨value, mem_of_getElem? hv, by simp⟩
  · rintro ⟨ex, he, heq⟩
    obtain ⟨i, hi, hg⟩ := getElem_of_mem he
    refine ⟨_, mem_map_of_mem (mem_range.2 hi), ?_⟩
    rw [decide_eq_true_eq, hb i hi, getElem?_eq_getElem hi, hg, of_decide_eq_true heq]

theorem equals_holds {expected : String} : ValueTest.holds (b ++ (pa ++ ([l, expected] ++ tl))) vl
      (.equals (b.length + pa.length + 1 + 1)) = decide (expected = vl) := by
  have hb : boundParam (b ++ (pa ++ ([l, expected] ++ tl))) (b.length + pa.length + 1 + 1) =
      some expected := boundParam_added (by simp)
  change decide (boundParam _ _ = some vl) = _
  rw [hb]
  exact decide_eq_decide.2 Option.some_inj

theorem labels_clause (h : StringLabels da) {bo : List String} {nr : Nat} {value : ValueTest}
    {t : String → Bool} (hb : boundParam bo nr = some l)
    (hv : ∀ text, value.holds bo text = t text) (n : Bool) :
    holds bo (p.upsertIndexes k da) k ⟨n, .labels, k.ns.isNone, nr, value⟩ =
      (n ^^ (labelValue (labelsOf da) l).any t) := by
  have hr := @labelRows_any da k h l t
  rw [holds_eq bo rfl, ← hr]
  simp [hb, hv]

theorem labelClause_holds (h : StringLabels da) (rq : LabelRequirement) :
    (labelClause k.ns.isNone (b.length + pa.length + 1) rq).1.holds
        (b ++ (pa ++ ((labelClause k.ns.isNone (b.length + pa.length + 1) rq).2 ++ tl)))
        (p.upsertIndexes k da) k =
      rq.isMetBy (labelsOf da) := by
  cases rq with
  | equality l vl =>
    refine (labels_clause h boundParam_first (fun tx => equals_holds) false).trans ?_
    rw [isMetBy, Bool.false_xor]
    cases labelValue (labelsOf da) l with
    | none => rfl
    | some tx => exact decide_eq_decide.2 eq_comm
  | inequality l vl =>
    refine (labels_clause h boundParam_first (fun tx => equals_holds) true).trans ?_
    rw [isMetBy, Bool.true_xor]
    cases labelValue (labelsOf da) l with
    | none => rfl
    | some tx => simp [eq_comm]
  | «exists» l =>
    refine (labels_clause h boundParam_first (fun tx => rfl) false).trans ?_
    rw [isMetBy, Bool.false_xor, ← labelValue_isSome h]
    cases labelValue (labelsOf da) l <;> rfl
  | notExists l =>
    refine (labels_clause h boundParam_first (fun tx => rfl) true).trans ?_
    rw [isMetBy, Bool.true_xor, labelValue_isNone h]
    cases labelValue (labelsOf da) l <;> rfl
  | isIn l vs =>
    refine (labels_clause h boundParam_first (fun tx => oneOf_holds) false).trans ?_
    rw [isMetBy, Bool.false_xor]
    cases labelValue (labelsOf da) l <;> rfl
  | notIn l vs =>
    refine (labels_clause h boundParam_first (fun tx => oneOf_holds) true).trans ?_
    rw [isMetBy, Bool.true_xor]
    cases labelValue (labelsOf da) l with
    | none => rfl
    | some tx => simp [not_any_eq_all_not]

end Labels

/-! ## Field clauses -/

section Fields

variable {data da : Json} {key k : ResourceKey}

def fieldValue (key : ResourceKey) (data : Json) (field : String) : Option String :=
  (resolveFieldValue data field).or (defaultFieldValue key.apiVersion key.kind field)

theorem fieldRows_any {f : String} (hd : f ∈ indexedFieldPaths k.apiVersion k.kind) (test : String → Bool) :
    ((ownRows .fields k da).any fun r => some f = some r.key && test r.value) = (fieldValue k da f).any test := by
  rw [Bool.eq_iff_iff, any_eq_true, Option.any_eq_true]
  constructor
  · rintro ⟨r, hr, ht⟩
    obtain ⟨pat, -, hp⟩ := mem_filterMap.1 hr
    obtain ⟨vl, hv, rfl⟩ := Option.map_eq_some_iff.1 hp
    simp only [Bool.and_eq_true, decide_eq_true_eq, Option.some.injEq] at ht
    obtain ⟨rfl, ht⟩ := ht
    exact ⟨vl, hv, ht⟩
  · rintro ⟨vl, hv, ht⟩
    refine ⟨⟨indexKey k, f, vl⟩, mem_filterMap.2 ⟨f, hd, ?_⟩, ?_⟩
    · exact Option.map_eq_some_iff.2 ⟨vl, hv, rfl⟩
    · simp [ht]

/-- A missing field counts as empty, so only a requirement with a value can be decided by a row. -/
theorem any_eq_getD (hv : vl ≠ "") (f : Option String) :
    (f.any fun text => decide (vl = text)) = decide (f.getD "" = vl) := by
  cases f with
  | none => simp [hv.symm]
  | some text => exact decide_eq_decide.2 eq_comm

theorem fieldClause_holds {c : FieldRequirement} (hv : c.value ≠ "")
    (hd : c.field ∈ indexedFieldPaths k.apiVersion k.kind) :
    (fieldClause k.ns.isNone (b.length + pa.length + 1) c).holds
        (b ++ (pa ++ ([c.field, c.value] ++ tl))) (p.upsertIndexes k data) k =
      c.matchesResourceWithIdentity k.apiVersion k.kind data := by
  have hr := @fieldRows_any data k c.field hd fun tx => decide (c.value = tx)
  rw [holds_eq _ rfl]
  simp only [fieldClause, boundParam_first, equals_holds]
  rw [hr, any_eq_getD hv]
  unfold matchesResourceWithIdentity matchesValue fieldValue
  cases c.operator <;> simp

end Fields

/-! ## The whole plan -/

section Plan

variable {data da : Json} {key k : ResourceKey} {plan : SelectorPushdown}

def SelectorPushdown.Decides (plan : SelectorPushdown) (base : List String) (tables : Tables) (key : ResourceKey)
    (data : Json) (selected : Bool) : Prop :=
  ∀ rest, (plan.sqlClauses.all (holds (base ++ (plan.sqlParams ++ rest)) tables key) &&
    matchesLabelRequirements data plan.residualLabels && matchesFieldSelectorConditions key data plan.residualFields) =
      selected

theorem SelectorPushdown.Decides.push {tbl : Tables} {acc : Bool} {clause : IndexClause} {added : List String}
    (h : plan.Decides b tbl k da s)
    (hc : ∀ rest, clause.holds (b ++ (plan.sqlParams ++ (added ++ rest))) tbl k = acc) :
    SelectorPushdown.Decides
      { plan with sqlClauses := plan.sqlClauses ++ [clause], sqlParams := plan.sqlParams ++ added }
      b tbl k da (s && acc) := by
  intro rest
  have hp := h (added ++ rest)
  simp only [append_assoc, all_append, all_cons, all_nil, Bool.and_true]
  rw [hc rest, ← hp]
  ac_rfl

theorem pushLabel_decides (hl : StringLabels da)
    (h : plan.Decides b (p.upsertIndexes k da) k da s) (rq : LabelRequirement) :
    (pushLabel b.length k.ns.isNone plan rq).Decides b (p.upsertIndexes k da) k da (s && rq.isMetBy (labelsOf da)) :=
  h.push fun _ => labelClause_holds hl rq

theorem pushField_decides {ind : List String} (hi : ind = indexedFieldPaths k.apiVersion k.kind)
    (h : plan.Decides b (p.upsertIndexes k da) k da s) (cond : FieldRequirement) :
    (pushField ind b.length k.ns.isNone plan cond).Decides b (p.upsertIndexes k da) k da
      (s && cond.matchesResourceWithIdentity k.apiVersion k.kind da) := by
  subst hi
  unfold pushField
  split
  case isTrue hp => exact h.push fun _ => fieldClause_holds hp.1 hp.2
  case isFalse =>
    intro tl
    have hl := h tl
    simp only [matchesFieldSelectorConditions, all_append, all_cons, all_nil, Bool.and_true]
    rw [← Bool.and_assoc]
    exact congrArg (· && _) hl

theorem foldl_decides {R : Type} {t : Tables} {st : SelectorPushdown → R → SelectorPushdown} {m : R → Bool}
    (hs : ∀ plan s rq, SelectorPushdown.Decides plan b t k da s → (st plan rq).Decides b t k da (s && m rq))
    (r : List R) : ∀ plan s, SelectorPushdown.Decides plan b t k da s →
      (r.foldl st plan).Decides b t k da (s && r.all m) := by
  induction r with
  | nil =>
    intro plan s h
    rwa [all_nil, Bool.and_true]
  | cons rq r ih =>
    intro plan s h
    rw [all_cons, ← Bool.and_assoc]
    exact ih _ _ (hs plan s rq h)

theorem pushdown_sound (ha : StringLabels da) {av kd : String}
    (hi : indexedFieldPaths av kd = indexedFieldPaths k.apiVersion k.kind)
    (ls : List LabelRequirement) (fs : List FieldRequirement) :
    (buildSelectorPushdown ls fs av kd b.length k.ns.isNone).selects b (p.upsertIndexes k da) k da =
      (matchesLabelRequirements da ls && matchesFieldSelectorConditions k da fs) := by
  have he : SelectorPushdown.Decides ⟨[], [], [], []⟩ b (p.upsertIndexes k da) k da true :=
    fun _ => rfl
  have hl := foldl_decides (fun _ _ rq h => pushLabel_decides ha h rq) ls _ _ he
  have hp := foldl_decides (fun _ _ co h => pushField_decides hi h co) fs _ _ hl []
  rwa [append_nil] at hp

end Plan

/-! ## Names and namespaces of stored objects -/

/-- The object carries the name and the namespace it is stored under. -/
structure StoredAs : Prop where
  name : resolveFieldValue data "metadata.name" = some key.name
  ns : (resolveFieldValue data "metadata.namespace").getD "" = key.ns.getD ""

section Names

variable {data da : Json} {key k : ResourceKey}

/-- The name clause and the namespace clause, the latter for every object. -/
def SqlPushdownConditions.selects (split : SqlPushdownConditions) (key : ResourceKey) (data : Json) : Bool :=
  (split.sqlNameEq.all fun name => decide (key.name = name)) &&
    (split.sqlNamespaceEq.all fun expected => decide (key.ns.getD "" = expected)) &&
    matchesFieldSelectorConditions key data split.residualFields

theorem StoredAs.name_matches (h : StoredAs k da) (hd : rq.field = "metadata.name") (he : rq.operator = .equals) :
    rq.matchesResourceWithIdentity k.apiVersion k.kind da = decide (k.name = rq.value) := by
  unfold matchesResourceWithIdentity matchesValue
  rw [hd, he, h.name]
  rfl

theorem StoredAs.namespace_matches (h : StoredAs k da)
    (hf : rq.field = "metadata.namespace") (he : rq.operator = .equals) :
    rq.matchesResourceWithIdentity k.apiVersion k.kind da =
      decide (k.ns.getD "" = rq.value) := by
  have hd : defaultFieldValue k.apiVersion k.kind "metadata.namespace" = none := by
    simp [defaultFieldValue]
  unfold matchesResourceWithIdentity matchesValue
  rw [hf, he, hd, Option.or_none, h.ns]

theorem splitRequirement_selects (h : StoredAs k da) (split : SqlPushdownConditions) (rq : FieldRequirement) :
    (splitRequirement split rq).selects k da =
      (split.selects k da && rq.matchesResourceWithIdentity k.apiVersion k.kind da) := by
  unfold splitRequirement SqlPushdownConditions.selects
  dsimp only
  split
  case isTrue hn =>
    obtain ⟨hf, ⟨he, -⟩, ho⟩ := hn
    simp only [ho, h.name_matches hf he, Option.all_some, Option.all_none]
    ac_rfl
  case isFalse =>
    split
    case isTrue hs =>
      obtain ⟨hf, ⟨he, -⟩, ho⟩ := hs
      simp only [ho, h.namespace_matches hf he, Option.all_some, Option.all_none]
      ac_rfl
    case isFalse =>
      simp only [matchesFieldSelectorConditions, all_append, all_cons, all_nil, Bool.and_true]
      ac_rfl

theorem split_sound (h : StoredAs k da) (r : List FieldRequirement) : ∀ split,
    (r.foldl splitRequirement split).selects k da = (split.selects k da && matchesFieldSelectorConditions k da r) := by
  induction r with
  | nil => intro split; exact (Bool.and_true _).symm
  | cons rq r ih =>
    intro split
    rw [foldl_cons, ih, splitRequirement_selects h, Bool.and_assoc]
    rfl

end Names

/-! ## Blank selectors -/

section Blank

variable {tx : String}

theorem ne_of_isWhitespace {c d : Char} (hc : isWhitespace c) (hd : isWhitespace d = false) : c ≠ d := by
  rintro rfl
  cases hc.symm.trans hd

theorem splitSelectorFrom_blank (h : ∀ c ∈ ch, isWhitespace c) : ∀ pt,
    splitSelectorFrom 0 pt ch = [pt.reverse ++ ch] := by
  induction ch with
  | nil => intro pt; simp [splitSelectorFrom]
  | cons c tl ih =>
    intro pt
    have hne : ∀ {d}, isWhitespace d = false → c ≠ d := ne_of_isWhitespace (h c mem_cons_self)
    rw [splitSelectorFrom, if_neg (hne rfl), if_neg (hne rfl), if_neg (by simp [hne (d := ',') rfl]),
      ih fun d hd => h d (mem_cons_of_mem _ hd)]
    simp

theorem parseLabelSelector_blank (h : isBlank tx) : parseLabelSelector tx = .ok [] := by
  have hb := all_eq_true.1 h
  have ht : trim isWhitespace tx.toList = [] := by
    unfold trim
    rw [dropWhile_eq_nil_iff.2 hb]
    rfl
  have hp : splitSelector tx.toList = [] := by
    unfold splitSelector
    rw [splitSelectorFrom_blank hb]
    simp [ht]
  unfold parseLabelSelector
  rw [hp]
  rfl

theorem cutAtOperator_blank (h : ∀ c ∈ ch, isWhitespace c) : cutAtOperator ch = none := by
  induction ch with
  | nil => rfl
  | cons c tl ih =>
    have hne : ∀ {d}, isWhitespace d = false → c ≠ d := ne_of_isWhitespace (h c mem_cons_self)
    have hn : leadingOperator (c :: tl) = none := by
      unfold leadingOperator
      split
      case h_1 hh | h_2 hh | h_3 hh => exact absurd (List.cons.inj hh).1 (hne rfl)
      case h_4 => rfl
    rw [cutAtOperator, hn, ih fun d hd => h d (mem_cons_of_mem _ hd)]
    rfl

theorem splitTermsFrom_blank (h : ∀ c ∈ ch, isWhitespace c) : ∀ t, splitTermsFrom false t ch = [t.reverse ++ ch] := by
  induction ch with
  | nil => intro t; simp [splitTermsFrom]
  | cons c tl ih =>
    intro t
    have hne : ∀ {d}, isWhitespace d = false → c ≠ d := ne_of_isWhitespace (h c mem_cons_self)
    rw [splitTermsFrom, if_neg (by simp), if_neg (hne rfl), if_neg (hne rfl), ih fun d hd => h d (mem_cons_of_mem _ hd)]
    simp

theorem FieldSelector.parse_blank {ps : FieldSelector} (h : isBlank tx)
    (hpar : FieldSelector.parse tx = .ok ps) : ps = ⟨[]⟩ := by
  have hb := all_eq_true.1 h
  unfold FieldSelector.parse splitTerms at hpar
  cases hc : tx.toList with
  | nil =>
    rw [hc] at hpar
    exact (Except.ok.inj hpar).symm
  | cons c tl =>
    rw [hc] at hb hpar
    rw [if_neg (by simp), splitTermsFrom_blank hb] at hpar
    have he : parseTerm (c :: tl) = .error (.cannotUnderstand (String.ofList (c :: tl))) := by
      unfold parseTerm parseRequirement
      rw [cutAtOperator_blank hb]
      rfl
    simp [he] at hpar

end Blank

/-! ## Lists and watches agree -/

section Agreement

variable {data : Json} {key : ResourceKey} {lb fe : Option String}

theorem normalized_blank {text : String} (h : isBlank text) : normalized (some text) = none := by
  simp [normalized, Option.filter, h]

theorem normalized_text {text : String} (h : isBlank text = false) : normalized (some text) = some text := by
  simp [normalized, Option.filter, h]

theorem optionalLabels_normalized {labels : List LabelRequirement} (h : optionalLabels lb = .ok labels) :
    optionalLabels (normalized lb) = .ok labels := by
  cases lb with
  | none => exact h
  | some tx =>
    cases hb : isBlank tx with
    | false => rwa [normalized_text hb]
    | true =>
      have hp := mapError_eq_ok.1 h
      rw [parseLabelSelector_blank hb] at hp
      rw [normalized_blank hb, ← Except.ok.inj hp]
      rfl

theorem optionalFields_normalized {fields : FieldSelector} (h : optionalFields fe = .ok fields) :
    optionalFields (normalized fe) = .ok fields := by
  cases fe with
  | none => exact h
  | some tx =>
    cases hb : isBlank tx with
    | false => rwa [normalized_text hb]
    | true =>
      rw [normalized_blank hb, FieldSelector.parse_blank hb (mapError_eq_ok.1 h)]
      rfl

theorem optionalSplit_eq_ok : optionalSplit fe = .ok split ↔ ∃ fs, optionalFields fe = .ok fs ∧
        fs.requirements.foldl splitRequirement ⟨none, none, []⟩ = split := by
  cases fe with
  | none =>
    constructor
    · intro h
      exact ⟨⟨[]⟩, rfl, Except.ok.inj h⟩
    · rintro ⟨fs, hf, rfl⟩
      cases Except.ok.inj hf
      rfl
  | some tx =>
    unfold optionalSplit optionalFields splitSqlPushdownConditions
    simp [mapError_eq_ok, map_eq_ok]

theorem splitRequirement_namespace (h : split.sqlNamespaceEq ≠ some "") (rq : FieldRequirement) :
    (splitRequirement split rq).sqlNamespaceEq ≠ some "" := by
  unfold splitRequirement
  dsimp only
  split
  case isTrue => exact h
  case isFalse =>
    split
    case isTrue hn =>
      intro he
      exact hn.2.1.2 (Option.some.inj he)
    case isFalse => exact h

theorem split_namespace (r : List FieldRequirement) : ∀ split : SqlPushdownConditions,
    split.sqlNamespaceEq ≠ some "" → (r.foldl splitRequirement split).sqlNamespaceEq ≠ some "" := by
  induction r with
  | nil => exact fun _ h => h
  | cons rq r ih => exact fun split h => ih _ (splitRequirement_namespace h rq)

/-- The selector has an equality with a namespace that becomes a clause. -/
def PushesNamespace (fieldSelector : Option String) : Prop :=
  ∃ split, optionalSplit fieldSelector = .ok split ∧ split.sqlNamespaceEq.isSome = true

/-- The name and namespace clauses decide as the requirements they stand for. -/
theorem namesHold_eq {split : SqlPushdownConditions} (hn : split.sqlNamespaceEq ≠ some "") :
    namesHold split key = ((split.sqlNameEq.all fun name => decide (key.name = name)) &&
      split.sqlNamespaceEq.all fun expected => decide (key.ns.getD "" = expected)) := by
  unfold namesHold
  cases hs : split.sqlNamespaceEq with
  | none => rfl
  | some expected =>
    have he : expected ≠ "" := fun h => hn (by rw [hs, h])
    cases key.ns <;> simp [he, eq_comm]

/-- A list has all clauses, unless one is on a column that its table does not have. -/
theorem namesSelect_eq {split : SqlPushdownConditions} (h : key.ns.isSome ∨ split.sqlNamespaceEq = none) :
    namesSelect split key = namesHold split key := by
  unfold namesSelect namesHold
  cases hk : key.ns with
  | some ns => simp
  | none =>
    rw [hk] at h
    simp [h.resolve_left (by simp)]

end Agreement

def labelledPod : Json :=
  .obj [("metadata", .obj [("labels", .obj [("app", .str "web"), ("tier", .str "front")]), ("name", .str "web-0"),
      ("namespace", .str "default")]),
    ("spec", .obj [("nodeName", .str "node-a")])]

def webPodKey : ResourceKey := ⟨"v1", "Pod", some "default", "web-0"⟩

end Klights.Selector
