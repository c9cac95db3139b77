import Klights.Json

/-!
# Shared vocabulary of the SQLite store

Errors of a database closure (`klights-supervisor/src/sqlite.rs`, `live_apply/coordinator.rs`) and the table a kind
is stored in (`sqlite/scope.rs`).
-/

namespace Klights.Store

/-! ## Errors -/

/-- The conflicts that end a committed entry for good. -/
inductive ApplyConflictCode where
  | notFound
  | alreadyExists
  | uidPrecondition
  | resourceVersionPrecondition
  deriving DecidableEq

def ApplyConflictCode.debug : ApplyConflictCode → String
  | .notFound => "NotFound"
  | .alreadyExists => "AlreadyExists"
  | .uidPrecondition => "UidPrecondition"
  | .resourceVersionPrecondition => "ResourceVersionPrecondition"

/-- What a database closure fails with: a statement failed, a typed apply conflict, or any other failure. -/
inductive DbError where
  | sqlite (message : String)
  | conflict (code : ApplyConflictCode) (message : String)
  | other (message : String)
  deriving DecidableEq

def DbError.display : DbError → String
  | .sqlite message => message
  | .conflict code message => code.debug ++ ": " ++ message
  | .other message => message

/-- Only a typed conflict is terminal; message texts are not looked at. -/
def DbError.isTerminalApplyConflict : DbError → Bool
  | .conflict _ _ => true
  | _ => false

/-- `serde_to_sqlite_error`: a stored body does not parse. -/
def decodeError : DbError := .sqlite "JSON decode failed"

def decodeJson (data : Blob) : Except DbError Json :=
  match data.fromSlice with
  | some v => .ok v
  | none => .error decodeError

theorem decodeJson_error {data : Blob} {err : DbError} (h : decodeJson data = .error err) : err = decodeError := by
  unfold decodeJson at h
  split at h
  · cases h
  · exact (Except.error.inj h).symm

/-! ## Scopes -/

/-- The built-in kinds without a namespace. -/
def clusterScopedKinds : List String :=
  ["APIService", "CSIDriver", "CSINode", "CertificateSigningRequest", "ClusterRole", "ClusterRoleBinding",
    "CustomResourceDefinition", "FlowSchema", "IPAddress", "IngressClass", "MutatingWebhookConfiguration",
    "Namespace", "Node", "PersistentVolume", "PriorityClass", "PriorityLevelConfiguration", "RuntimeClass",
    "ServiceCIDR", "StorageClass", "ValidatingAdmissionPolicy", "ValidatingAdmissionPolicyBinding",
    "ValidatingWebhookConfiguration", "VolumeAttachment"]

def isNamespaced (kind : String) : Bool := !clusterScopedKinds.contains kind

def builtinApiVersions : List String :=
  ["v1", "apps/v1", "autoscaling/v1", "autoscaling/v2", "batch/v1", "certificates.k8s.io/v1",
    "coordination.k8s.io/v1", "discovery.k8s.io/v1", "events.k8s.io/v1", "networking.k8s.io/v1", "node.k8s.io/v1",
    "policy/v1", "rbac.authorization.k8s.io/v1", "scheduling.k8s.io/v1", "storage.k8s.io/v1",
    "authentication.k8s.io/v1", "authorization.k8s.io/v1", "admissionregistration.k8s.io/v1",
    "apiregistration.k8s.io/v1", "apiextensions.k8s.io/v1", "flowcontrol.apiserver.k8s.io/v1"]

def isBuiltinApiVersion (apiVersion : String) : Bool := builtinApiVersions.contains apiVersion

/-- A custom resource is cluster-scoped or namespaced depending on its definition. -/
def isDynamicCustomResource (apiVersion kind : String) : Bool :=
  !isBuiltinApiVersion apiVersion && !(kind = "Namespace" || kind = "Event")

def useNamespacedTable (apiVersion kind : String) (ns : Option String) : Bool :=
  if isDynamicCustomResource apiVersion kind then ns.isSome else isNamespaced kind

def namespaceKey (ns : Option String) : String := ns.getD "#cluster"

/-- Two namespaces have one key only if one of them is called like the key of the cluster. -/
theorem namespaceKey_inj {ns ns' : Option String} (h : ns ≠ some "#cluster") (h' : ns' ≠ some "#cluster") :
    namespaceKey ns = namespaceKey ns' ↔ ns = ns' := by
  cases ns with
  | none =>
    cases ns' with
    | none => simp
    | some y => simpa [namespaceKey] using fun heq => h' (by rw [heq])
  | some x =>
    cases ns' with
    | none => simpa [namespaceKey] using fun heq => h (by rw [heq])
    | some y => simp [namespaceKey]

end Klights.Store
