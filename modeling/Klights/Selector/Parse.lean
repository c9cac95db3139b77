import Klights.Lib.Text
import Klights.Store.Tables

/-!
# Label and field selectors

The two selector languages of list and watch requests (`klights-types/src/label_selector.rs`, `field_selector.rs`): what
they parse to, how a requirement is evaluated on an object, and which fields a list accepts (`generic_read.rs`).

- `LabelRequirement.isMetBy`, `parseLabelSelector`;
- `FieldRequirement.matchesResourceWithIdentity`, `FieldSelector.parse`: terms are cut at commas that are not escaped,
  in the order of their text, and values are unescaped;
- `validateBuiltinFieldSelector`.
-/

namespace Klights.Selector

open Lib Store String

/-! ## Label selectors -/

inductive LabelRequirement where
  | equality (key value : String)
  | inequality (key value : String)
  | «exists» (key : String)
  | notExists (key : String)
  | isIn (key : String) (values : List String)
  | notIn (key : String) (values : List String)
  deriving DecidableEq

def labelValue (labels : Option (List (String × Json))) (key : String) : Option String :=
  (labels.bind (Json.Fields.get key)).bind Json.asStr

namespace LabelRequirement

def isMetBy (labels : Option (List (String × Json))) : LabelRequirement → Bool
  | equality key value => ((labelValue labels key).map fun v => decide (v = value)).getD false
  | inequality key value => ((labelValue labels key).map fun v => decide (v ≠ value)).getD true
  | «exists» key => (labels.map fun fields => (Json.Fields.get key fields).isSome).getD false
  | notExists key => (labels.map fun fields => (Json.Fields.get key fields).isNone).getD true
  | isIn key values => ((labelValue labels key).map fun v => values.any fun value => value = v).getD false
  | notIn key values => ((labelValue labels key).map fun v => values.all fun value => value ≠ v).getD true

end LabelRequirement

def labelsOf (data : Json) : Option (List (String × Json)) := (data.pointer ["metadata", "labels"]).bind Json.asObject

def matchesLabelRequirements (data : Json) (requirements : List LabelRequirement) : Bool :=
  requirements.all (LabelRequirement.isMetBy (labelsOf data))

/-- The parts between commas outside parentheses; `part` is the text of the current one, backwards. -/
def splitSelectorFrom (depth : Nat) (part : List Char) : List Char → List (List Char)
  | [] => [part.reverse]
  | c :: rest =>
    if c = '(' then splitSelectorFrom (depth + 1) (c :: part) rest
    else if c = ')' then splitSelectorFrom (depth - 1) (c :: part) rest
    else if c = ',' ∧ depth = 0 then part.reverse :: splitSelectorFrom depth [] rest
    else splitSelectorFrom depth (c :: part) rest

def splitSelector (selector : List Char) : List (List Char) :=
  ((splitSelectorFrom 0 [] selector).map (trim isWhitespace)).filter fun part => !part.isEmpty

def setValues (text : List Char) : List String :=
  (((text.dropLast.splitOn ',').map (trim isWhitespace)).filter fun value => !value.isEmpty).map ofList

/-- A requirement `key <op> (values)` for the parts around its operator: the operator stands once, and the text ends
with a parenthesis. -/
def parseSetRequirement (operator part before after : List Char)
    (requirement : String → List String → LabelRequirement) :
    Except String LabelRequirement :=
  if (splitOnce operator after).isSome || after.getLast? ≠ some ')' then
    .error ("Invalid selector: " ++ ofList part)
  else .ok (requirement (ofList (trim isWhitespace before)) (setValues after))

def parseLabelRequirement (part : List Char) : Except String LabelRequirement :=
  let text (chars : List Char) : String := ofList (trim isWhitespace chars)
  match part with
  | '!' :: key => .ok (.notExists (text key))
  | _ =>
    match splitOnce " notin (".toList part with
    | some (before, after) => parseSetRequirement " notin (".toList part before after .notIn
    | none =>
      match splitOnce " in (".toList part with
      | some (before, after) => parseSetRequirement " in (".toList part before after .isIn
      | none =>
        match splitOnce "!=".toList part with
        | some (key, value) => .ok (.inequality (text key) (text value))
        | none =>
          match splitOnce "==".toList part with
          | some (key, value) => .ok (.equality (text key) (text value))
          | none =>
            match splitOnce "=".toList part with
            | some (key, value) => .ok (.equality (text key) (text value))
            | none => .ok (.exists (ofList part))

def parseLabelSelector (selector : String) : Except String (List LabelRequirement) :=
  (splitSelector selector.toList).mapM parseLabelRequirement

/-! ## Label selectors of a spec -/

inductive LabelSelectorParseError where
  | labelNotString (key : String) (value : Json)
  | missingKey (expression : Json)
  | missingOperator (key : String)
  | unknownOperator (operator : String)
  deriving DecidableEq

def matchLabelRequirement (label : String × Json) : Except LabelSelectorParseError LabelRequirement :=
  match label.2.asStr with
  | some value => .ok (.equality label.1 value)
  | none => .error (.labelNotString label.1 label.2)

def matchExpressionRequirement (expression : Json) : Except LabelSelectorParseError LabelRequirement :=
  match (expression.get "key").bind Json.asStr with
  | none => .error (.missingKey expression)
  | some key =>
    match (expression.get "operator").bind Json.asStr with
    | none => .error (.missingOperator key)
    | some operator =>
      let values := (((expression.get "values").bind Json.asArray).getD []).filterMap Json.asStr
      if operator = "In" then .ok (.isIn key values)
      else if operator = "NotIn" then .ok (.notIn key values)
      else if operator = "Exists" then .ok (.exists key)
      else if operator = "DoesNotExist" then .ok (.notExists key)
      else .error (.unknownOperator operator)

/-- `LabelSelector::from_k8s_selector`: the selector of a spec, where null and the empty selector ask for nothing. -/
def fromK8sSelector (selector : Json) : Except LabelSelectorParseError (List LabelRequirement) := do
  let labels ← (((selector.get "matchLabels").bind Json.asObject).getD []).mapM matchLabelRequirement
  let expressions ← (((selector.get "matchExpressions").bind Json.asArray).getD []).mapM matchExpressionRequirement
  .ok (labels ++ expressions)

def matchesLabels (requirements : List LabelRequirement) (labels : Option (List (String × Json))) : Bool :=
  requirements.all (LabelRequirement.isMetBy labels)

/-! ## Field selectors -/

inductive FieldSelectorOperator where
  | equals
  | notEquals
  deriving DecidableEq

structure FieldRequirement where
  field : String
  operator : FieldSelectorOperator
  value : String
  deriving DecidableEq

namespace FieldRequirement

def matchesValue (requirement : FieldRequirement) (value : String) : Bool :=
  match requirement.operator with
  | .equals => value = requirement.value
  | .notEquals => value ≠ requirement.value

/-- A field that is missing counts as empty. -/
def matchesResource (requirement : FieldRequirement) (object : Json) : Bool :=
  requirement.matchesValue ((resolveFieldValue object requirement.field).getD "")

def matchesResourceWithIdentity (apiVersion kind : String) (object : Json) (requirement : FieldRequirement) : Bool :=
  requirement.matchesValue
    (((resolveFieldValue object requirement.field).or (defaultFieldValue apiVersion kind requirement.field)).getD "")

end FieldRequirement

/-- Why a field selector does not parse, with what its message quotes. -/
inductive FieldSelectorParseError where
  /-- `invalid selector: can't understand requirement` -/
  | cannotUnderstand (raw : String)
  /-- `invalid field selector escape sequence:` -/
  | invalidEscape (escaped : Char)
  /-- `invalid field selector escape sequence: trailing backslash` -/
  | trailingBackslash
  /-- `invalid field selector: unescaped character in value:` -/
  | unescapedCharacter (character : Char)
  deriving DecidableEq

/-- The operator at the head of a text and the text after it. -/
def leadingOperator : List Char → Option (FieldSelectorOperator × List Char)
  | '!' :: '=' :: rest => some (.notEquals, rest)
  | '=' :: '=' :: rest => some (.equals, rest)
  | '=' :: rest => some (.equals, rest)
  | _ => none

def cutAtOperator : List Char → Option (List Char × FieldSelectorOperator × List Char)
  | [] => none
  | c :: rest =>
    match leadingOperator (c :: rest) with
    | some (operator, value) => some ([], operator, value)
    | none => (cutAtOperator rest).map fun parts => (c :: parts.1, parts.2)

def parseRequirement (raw : List Char) :
    Except FieldSelectorParseError (List Char × FieldSelectorOperator × List Char) :=
  match cutAtOperator raw with
  | some parts => .ok parts
  | none => .error (.cannotUnderstand (ofList raw))

/-- The terms between commas that no backslash escapes; `term` is the text of the current one, backwards. -/
def splitTermsFrom (escaped : Bool) (term : List Char) : List Char → List (List Char)
  | [] => [term.reverse]
  | c :: rest =>
    if escaped then splitTermsFrom false (c :: term) rest
    else if c = '\\' then splitTermsFrom true (c :: term) rest
    else if c = ',' then term.reverse :: splitTermsFrom false [] rest
    else splitTermsFrom false (c :: term) rest

def splitTerms (selector : List Char) : List (List Char) :=
  if selector.isEmpty then [] else splitTermsFrom false [] selector

def isEscapable (c : Char) : Bool := c = '\\' || c = ',' || c = '='

def unescapeChars : List Char → Except FieldSelectorParseError (List Char)
  | [] => .ok []
  | '\\' :: [] => .error .trailingBackslash
  | '\\' :: c :: rest =>
    if isEscapable c then (unescapeChars rest).map (c :: ·) else .error (.invalidEscape c)
  | c :: rest =>
    if c = ',' ∨ c = '=' then .error (.unescapedCharacter c) else (unescapeChars rest).map (c :: ·)

def unescapeValue (value : List Char) : Except FieldSelectorParseError (List Char) :=
  if value.any isEscapable then unescapeChars value else .ok value

def parseTerm (raw : List Char) : Except FieldSelectorParseError FieldRequirement := do
  let (field, operator, value) ← parseRequirement raw
  let value ← unescapeValue value
  return ⟨ofList field, operator, ofList value⟩

structure FieldSelector where
  requirements : List FieldRequirement
  deriving DecidableEq

namespace FieldSelector

/-- The terms in the order of their text; empty ones are skipped. -/
def parse (selector : String) : Except FieldSelectorParseError FieldSelector := do
  let terms := (splitTerms selector.toList).insertionSort fun a b => ofList a ≤ ofList b
  return ⟨← (terms.filter fun term => !term.isEmpty).mapM parseTerm⟩

def matchesResource (selector : FieldSelector) (object : Json) : Bool :=
  selector.requirements.all fun requirement => requirement.matchesResource object

def matchesResourceWithIdentity (apiVersion kind : String) (object : Json) (selector : FieldSelector) : Bool :=
  selector.requirements.all (FieldRequirement.matchesResourceWithIdentity apiVersion kind object)

end FieldSelector

/-! ## Selectable fields -/

/-- The fields of a built-in kind that a list may select by, besides its name and namespace. -/
def builtinSelectableFields (apiVersion kind : String) : List String :=
  if apiVersion = "v1" ∧ kind = "Pod" then
    ["spec.nodeName", "status.phase", "spec.restartPolicy", "spec.schedulerName", "spec.serviceAccountName",
      "status.podIP"]
  else if apiVersion = "v1" ∧ kind = "Namespace" then ["status.phase"]
  else if apiVersion = "v1" ∧ kind = "Node" then ["spec.unschedulable"]
  else if apiVersion = "v1" ∧ (kind = "PersistentVolume" ∨ kind = "PersistentVolumeClaim") then ["status.phase"]
  else if apiVersion = "v1" ∧ kind = "Secret" then ["type"]
  else if (apiVersion = "v1" ∨ apiVersion = "events.k8s.io/v1") ∧ kind = "Event" then
    ["reason", "type", "source", "reportingController", "reportingInstance", "involvedObject.kind",
      "involvedObject.uid", "involvedObject.name", "involvedObject.namespace"]
  else if apiVersion = "certificates.k8s.io/v1" ∧ kind = "CertificateSigningRequest" then ["spec.signerName"]
  else []

def supportedFields (apiVersion kind : String) (namespaced : Bool) : List String :=
  "metadata.name" :: (if namespaced then ["metadata.namespace"] else []) ++ builtinSelectableFields apiVersion kind

inductive SelectorRejection where
  | malformed (error : FieldSelectorParseError)
  | unsupported (message : String)
  deriving DecidableEq

def validateBuiltinFieldSelector (apiVersion kind : String) (labelSelector fieldSelector : Option String)
    (namespaced : Bool) : Except SelectorRejection Unit :=
  match (fieldSelector.map trimText).filter fun selector => selector ≠ "" with
  | none => .ok ()
  | some selector => do
    let parsed ← (FieldSelector.parse selector).mapError .malformed
    parsed.requirements.forM fun requirement =>
      if requirement.field ∈ supportedFields apiVersion kind namespaced then .ok ()
      else .error (.unsupported ("Unable to find \"" ++ apiVersion ++ ", Resource=" ++ kind ++
        "\" that match label selector \"" ++ labelSelector.getD "" ++ "\", field selector \"" ++ selector ++
        "\": field label not supported: " ++ requirement.field))

end Klights.Selector
