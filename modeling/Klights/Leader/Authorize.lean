import Klights.Command
import Klights.Lib.Except

/-!
# Authorization of delivered outbox commands

The leader's boundary for commands a node delivers (`klights-replication/src/leader_api.rs`): which command an
operation admits, the live checks of Pod metadata, and the sequence a refused command still consumes.

- `deliver_ok_iff`: what a command that reaches the proposal has passed;
- `podMetadata_owned`, `nodeRegistration_owned`, …: the object each matcher pins down;
- `delivered_ownObject_iff`: when the object a delivered command changes belongs to the delivering node.
-/

namespace Klights.Leader

open Lib Option

variable {name nm : String} {object : ChangedObject}

/-! ## Operations and errors -/

inductive OutboxDeliveryOperation where
  | podStatus
  | runtimeReconcile
  | probeReadiness
  | deadlineExceeded
  | containerStatusSnapshot
  | ephemeralContainerStatuses
  | podMetadata
  | nodeRegistration
  | nodeDataplane
  | nodeStatus
  | eventCreate
  deriving DecidableEq

def OutboxDeliveryOperation.toOutboxOperation : OutboxDeliveryOperation → OutboxOperation
  | .podStatus => .podStatus
  | .runtimeReconcile => .runtimeReconcile
  | .probeReadiness => .probeReadiness
  | .deadlineExceeded => .deadlineExceeded
  | .containerStatusSnapshot => .containerStatusSnapshot
  | .ephemeralContainerStatuses => .ephemeralContainerStatuses
  | .podMetadata => .podMetadata
  | .nodeRegistration => .nodeRegistration
  | .nodeDataplane => .nodeDataplane
  | .nodeStatus => .nodeStatus
  | .eventCreate => .eventCreate

def OutboxDeliveryOperation.asWireName (operation : OutboxDeliveryOperation) : String :=
  operation.toOutboxOperation.asStr

inductive OutboxDeliveryError where
  | invalidRequest (field message : String)
  | notLeader
  | codecIncompatible (sender required : Nat)
  | retryable (message : String)
  | timeout
  | cancelled
  | notFound (message : String)
  | uidMismatch (expected actual : String)
  | conflictTerminal (message : String)
  | corruptResponse (message : String)

def OutboxDeliveryError.isTerminal : OutboxDeliveryError → Bool
  | .invalidRequest .. | .notFound _ | .uidMismatch .. | .conflictTerminal _ => true
  | _ => false

def OutboxDeliveryError.ofApplyError : OutboxApplyError → OutboxDeliveryError
  | .retryable message => .retryable message
  | .conflictTerminal message => .conflictTerminal message
  | .notFound message => .notFound message
  | .uidMismatch expected actual => .uidMismatch expected actual

/-! ## Matchers -/

def nonempty (text : Option String) : Bool := text.any fun text => text ≠ ""

def isUidBoundPodStatus : StorageCommand → Bool
  | .updateStatus ⟨apiVersion, kind, some ns, name⟩ _ _ preconditions _ =>
    apiVersion = "v1" && kind = "Pod" && ns ≠ "" && name ≠ "" && nonempty preconditions.uid
  | _ => false

/-- A patch of a Pod's metadata that a node may send: a deletion mark, or one of owner references, labels and the
sandbox annotation under a resourceVersion. -/
def isExactPodMetadataPatch (patch : Json) (resourceVersion : Option Int) (strictResourceVersion : Bool) : Bool :=
  match patch with
  | .obj [("metadata", .obj metadata)] =>
    if metadata.length = 2 then
      !strictResourceVersion && resourceVersion.isNone &&
        nonempty ((Json.Fields.get "deletionTimestamp" metadata).bind Json.asStr) &&
        ((Json.Fields.get "deletionGracePeriodSeconds" metadata).bind Json.asI64).any fun seconds => 0 ≤ seconds
    else if metadata.length ≠ 1 || !strictResourceVersion || resourceVersion.all fun rv => rv ≤ 0 then false
    else match metadata with
      | ("ownerReferences", ownerReferences) :: _ => ownerReferences.asArray.isSome
      | ("labels", labels) :: _ => labels.asObject.any fun labels => labels.all fun label => label.2.asStr.isSome
      | ("annotations", annotations) :: _ => annotations.asObject.any fun annotations =>
        annotations.length = 1 && ((Json.Fields.get "klights.dev/sandbox-id" annotations).bind Json.asStr).isSome
      | _ => false
  | _ => false

def isUidBoundPodMetadata : StorageCommand → Bool
  | .finalizeBoundPod ns name podUid nodeName observedResourceVersion =>
    ns ≠ "" && name ≠ "" && podUid ≠ "" && nodeName ≠ "" && 0 < observedResourceVersion
  | .patchResource ⟨apiVersion, kind, some ns, name⟩ .merge patch preconditions strictResourceVersion =>
    apiVersion = "v1" && kind = "Pod" && ns ≠ "" && name ≠ "" && nonempty preconditions.uid &&
      isExactPodMetadataPatch patch preconditions.resourceVersion strictResourceVersion
  | _ => false

/-- The body of a command repeats the identity of its target. -/
def resourceBodyMatches (data : Json) (key : ResourceKey) (uid : Option String) : Bool :=
  (data.get "apiVersion").bind Json.asStr = some key.apiVersion && (data.get "kind").bind Json.asStr = some key.kind &&
    data.strAt ["metadata", "name"] = some key.name &&
    (match key.ns with
      | some ns => data.strAt ["metadata", "namespace"] = some ns
      | none => (data.pointer ["metadata", "namespace"]).isNone) &&
    uid.all fun uid => data.strAt ["metadata", "uid"] = some uid

def isAuthenticatedNodeRegistration (command : StorageCommand) (authenticatedNode : String) : Bool :=
  match command with
  | .createResource key data =>
    key.apiVersion = "v1" && key.kind = "Node" && key.ns.isNone && key.name = authenticatedNode &&
      resourceBodyMatches data key none
  | .updateResource key data _ preconditions _ =>
    match preconditions.uid.filter fun uid => uid ≠ "" with
    | none => false
    | some uid =>
      key.apiVersion = "v1" && key.kind = "Node" && key.ns.isNone && key.name = authenticatedNode &&
        resourceBodyMatches data key (some uid)
  | _ => false

def isAuthenticatedNodeStatus (command : StorageCommand) (authenticatedNode : String) : Bool :=
  match command with
  | .updateStatus key _ _ preconditions _ =>
    key.apiVersion = "v1" && key.kind = "Node" && key.ns.isNone && key.name = authenticatedNode &&
      nonempty preconditions.uid
  | _ => false

def eventReporter (apiVersion : String) (data : Json) : Option String :=
  if apiVersion = "v1" then data.strAt ["source", "host"]
  else if apiVersion = "events.k8s.io/v1" then (data.get "reportingInstance").bind Json.asStr
  else none

def isAuthenticatedEventCreate (command : StorageCommand) (authenticatedNode : String) : Bool :=
  match command with
  | .createResource ⟨apiVersion, kind, some ns, name⟩ data =>
    if !(apiVersion = "v1" || apiVersion = "events.k8s.io/v1") || kind ≠ "Event" || ns = "" || name = "" ||
        !resourceBodyMatches data ⟨apiVersion, kind, some ns, name⟩ none then false
    else eventReporter apiVersion data = some authenticatedNode
  | _ => false

def isAuthenticatedNodeDataplane (command : StorageCommand) (authenticatedNode : String) : Bool :=
  match command with
  | .updateNodeDataplane nodeName .. => nodeName = authenticatedNode
  | _ => false

def authorized (operation : OutboxDeliveryOperation) (command : StorageCommand) (authenticatedNode : String) : Bool :=
  match operation with
  | .podStatus | .runtimeReconcile | .probeReadiness | .deadlineExceeded | .containerStatusSnapshot
  | .ephemeralContainerStatuses => isUidBoundPodStatus command
  | .podMetadata => isUidBoundPodMetadata command
  | .nodeRegistration => isAuthenticatedNodeRegistration command authenticatedNode
  | .nodeStatus => isAuthenticatedNodeStatus command authenticatedNode
  | .nodeDataplane => isAuthenticatedNodeDataplane command authenticatedNode
  | .eventCreate => isAuthenticatedEventCreate command authenticatedNode

def authorizeOutboxCommand (operation : OutboxDeliveryOperation) (command : StorageCommand)
    (authenticatedNode : String) : Except OutboxDeliveryError Unit :=
  if authenticatedNode = "" then
    .error (.conflictTerminal "durable outbox delivery requires an authenticated node identity")
  else if authorized operation command authenticatedNode then .ok ()
  else .error (.conflictTerminal ("outbox operation " ++ operation.asWireName ++ " does not authorize " ++
    command.variantName ++ " for authenticated node " ++ authenticatedNode))

/-! ## Delivery -/

/-- What the delivery sees of its surroundings: the authority checks at its entry and before the proposal, the live
objects, whether the leader-fresh query fails, and the proposal's answer to a terminal decision. -/
structure DeliveryEnv where
  authorityAtEntry : Bool
  authorityAtProposal : Bool
  live : ResourceKey → Option Resource
  queryFault : Option String
  proposeOutboxCommand : String → String → StorageCommand → String → Option OutboxStreamWatermark →
    Except OutboxApplyError OutboxApplyOutcome

open DeliveryEnv

def requireNonempty (value field : String) : Except OutboxDeliveryError Unit :=
  if value = "" then .error (.retryable ("invalid " ++ field ++ ": must not be empty")) else .ok ()

/-- The leader-fresh read of one Pod; its failures are retryable. -/
def DeliveryEnv.getPod (env : DeliveryEnv) (ns name : String) : Except OutboxDeliveryError (Option Resource) := do
  requireNonempty ns "resource.namespace"
  requireNonempty name "resource.name"
  match env.queryFault with
  | some message => .error (.retryable message)
  | none => .ok (env.live ⟨"v1", "Pod", some ns, name⟩)

def assignedNode (pod : Resource) : Option String :=
  (pod.data.strAt ["spec", "nodeName"]).filter fun nodeName => nodeName ≠ ""

/-- The live checks of a Pod metadata command: the Pod exists, has the expected UID and is bound to the node. -/
def DeliveryEnv.boundPod (env : DeliveryEnv) (ns name expectedUid authenticatedNode : String) :
    Except OutboxDeliveryError Resource := do
  match ← env.getPod ns name with
  | none => .error (.notFound ("Pod " ++ ns ++ "/" ++ name ++ " not found"))
  | some live =>
    if live.uid ≠ expectedUid then .error (.uidMismatch expectedUid live.uid)
    else if assignedNode live ≠ some authenticatedNode then
      .error (.conflictTerminal ("PodMetadata delivery for " ++ ns ++ "/" ++ name ++
        " is restricted to its assigned node"))
    else .ok live

def podTarget : StorageCommand → Option (String × String × ResourcePreconditions)
  | .updateStatus key _ _ preconditions _ | .updateResource key _ _ preconditions _
  | .patchResource key _ _ preconditions _ | .deleteResource key preconditions =>
    if key.apiVersion = "v1" && key.kind = "Pod" then some (key.ns.getD "default", key.name, preconditions) else none
  | _ => none

def DeliveryEnv.authorizeLivePodMetadata (env : DeliveryEnv) (command : StorageCommand) (authenticatedNode : String) :
    Except OutboxDeliveryError StorageCommand :=
  match command with
  | .finalizeBoundPod ns name podUid nodeName observedResourceVersion =>
    if ns = "" || name = "" || podUid = "" || observedResourceVersion ≤ 0 || nodeName ≠ authenticatedNode then
      .error (.conflictTerminal "bound Pod finalization carries invalid actor observation")
    else do
      let live ← env.boundPod ns name podUid authenticatedNode
      .ok (.finalizeBoundPod ns name podUid nodeName live.resourceVersion)
  | command =>
    match podTarget command with
    | none => .error (.conflictTerminal "PodMetadata delivery must target one namespaced v1/Pod")
    | some (ns, name, preconditions) =>
      match preconditions.uid.filter fun uid => uid ≠ "" with
      | none => .error (.conflictTerminal "PodMetadata delivery must carry a Pod UID precondition")
      | some expectedUid => do
        let _ ← env.boundPod ns name expectedUid authenticatedNode
        .ok command

/-- `NodeSelfStatusRequest::validate_command`, with its errors as the delivery reports them. -/
def validateNodeSelfStatus : StorageCommand → Except OutboxDeliveryError Unit
  | .updateStatus key status expectedRv preconditions observedStatusStamp =>
    if key.apiVersion ≠ "v1" || key.kind ≠ "Node" || key.ns.isSome then
      .error (.invalidRequest "status.resource" "must be the cluster-scoped v1/Node status subresource")
    else if key.name = "" then .error (.invalidRequest "status.node_name" "must not be empty")
    else if status.asObject.isNone then .error (.invalidRequest "status.value" "must be an object")
    else if expectedRv.isSome || preconditions.resourceVersion.isSome then
      .error (.invalidRequest "status.resource_version" "worker self-status must not carry resourceVersion authority")
    else if !nonempty preconditions.uid then
      .error (.invalidRequest "status.node_uid" "an exact Node UID is required")
    else if observedStatusStamp.isSome then
      .error (.invalidRequest "status.observed_status_stamp" "is reserved for Pod status snapshots")
    else .ok ()
  | other =>
    .error (.invalidRequest "delivery.payload" ("unsupported worker Node status command: " ++ other.variantName))

/-- The command proposed in place of a refused one, so that its sequence is consumed: a status of a Pod that no
store holds. -/
def terminalDecisionCommand (idempotencyKey : String) : StorageCommand :=
  .updateStatus ⟨"v1", "Pod", some "__klights-terminal-outbox__", "decision"⟩ (.obj []) none
    ⟨some idempotencyKey, none⟩ none

def DeliveryEnv.consumeTerminalSequence (env : DeliveryEnv) (idempotencyKey : String)
    (operation : OutboxDeliveryOperation) (authenticatedNode : String) (watermark : Option OutboxStreamWatermark) :
    Except OutboxDeliveryError Unit :=
  match env.proposeOutboxCommand idempotencyKey operation.toOutboxOperation.asStr
      (terminalDecisionCommand idempotencyKey) authenticatedNode watermark with
  | .ok _ => .ok ()
  | .error error =>
    if watermark.isSome ∧ error = .notFound "Pod __klights-terminal-outbox__/decision not found" then .ok ()
    else if error.isTerminal then
      .error (.retryable ("terminal outbox ledger does not prove this stream position: " ++ error.display))
    else .error (.ofApplyError error)

/-- Refuse a command after its sequence has been consumed. -/
def DeliveryEnv.refuse (env : DeliveryEnv) (idempotencyKey : String) (operation : OutboxDeliveryOperation)
    (authenticatedNode : String) (watermark : Option OutboxStreamWatermark) (error : OutboxDeliveryError) :
    Except OutboxDeliveryError StorageCommand := do
  env.consumeTerminalSequence idempotencyKey operation authenticatedNode watermark
  .error error

/-- The live checks belong to Pod metadata alone. -/
def DeliveryEnv.authorizeLive (env : DeliveryEnv) (operation : OutboxDeliveryOperation) (command : StorageCommand)
    (authenticatedNode : String) : Except OutboxDeliveryError StorageCommand :=
  if operation = .podMetadata then env.authorizeLivePodMetadata command authenticatedNode else .ok command

/-- The body check of a Node status belongs to that operation alone. -/
def validateOperation (operation : OutboxDeliveryOperation) (command : StorageCommand) :
    Except OutboxDeliveryError Unit :=
  if operation = .nodeStatus then validateNodeSelfStatus command else .ok ()

/-- The delivery up to the proposal: the command it hands to `propose_outbox_command_effect`. -/
def DeliveryEnv.deliverAuthenticatedOutboxCommandEffectScoped (env : DeliveryEnv)
    (authenticatedNode idempotencyKey : String) (operation : OutboxDeliveryOperation)
    (decodedCommand : Except OutboxDeliveryError StorageCommand) (watermark : Option OutboxStreamWatermark) :
    Except OutboxDeliveryError StorageCommand :=
  if !env.authorityAtEntry then .error .notLeader
  else match decodedCommand with
    | .error error =>
      if !error.isTerminal then .error error
      else env.refuse idempotencyKey operation authenticatedNode watermark error
    | .ok command =>
      match authorizeOutboxCommand operation command authenticatedNode with
      | .error error => env.refuse idempotencyKey operation authenticatedNode watermark error
      | .ok () =>
        match env.authorizeLive operation command authenticatedNode with
        | .error error =>
          if error.isTerminal then env.refuse idempotencyKey operation authenticatedNode watermark error
          else .error error
        | .ok command =>
          match validateOperation operation command with
          | .error error => env.refuse idempotencyKey operation authenticatedNode watermark error
          | .ok () => if !env.authorityAtProposal then .error .notLeader else .ok command

/-! ## Whose object a command changes -/

inductive ChangedObject where
  | node (name : String)
  | nodeDataplane (name : String)
  | pod (live : Resource)
  | event (reporter : Option String)
  | other

def ChangedObject.OwnedBy (node : String) : ChangedObject → Prop
  | .node name | .nodeDataplane name => name = node
  | .pod live => assignedNode live = some node
  | .event reporter => reporter = some node
  | .other => False

/-- The live object under a key, unless a UID precondition names another one: then nothing changes. -/
def DeliveryEnv.changedLive (env : DeliveryEnv) (key : ResourceKey) (uid : Option String) : Option ChangedObject :=
  ((env.live key).filter fun live => uid.all fun uid => live.uid = uid).map fun live =>
    if key.apiVersion = "v1" ∧ key.kind = "Pod" then .pod live
    else if key.apiVersion = "v1" ∧ key.kind = "Node" ∧ key.ns = none then .node key.name
    else .other

def createdObject (key : ResourceKey) (data : Json) : ChangedObject :=
  if key.kind = "Event" then .event (eventReporter key.apiVersion data)
  else if key.apiVersion = "v1" ∧ key.kind = "Node" ∧ key.ns = none then .node key.name
  else .other

def DeliveryEnv.changedObject (env : DeliveryEnv) : StorageCommand → Option ChangedObject
  | .createResource key data => some (createdObject key data)
  | .updateResource key _ _ preconditions _ | .updateStatus key _ _ preconditions _
  | .patchResource key _ _ preconditions _ | .deleteResource key preconditions
  | .deleteResourceWithTombstone key preconditions _ => env.changedLive key preconditions.uid
  | .finalizeBoundPod ns name podUid _ _ => env.changedLive ⟨"v1", "Pod", some ns, name⟩ (some podUid)
  | .updateNodeDataplane nodeName .. => some (.nodeDataplane nodeName)
  | _ => some .other

/-- A status update of a live Pod, under its UID, that is not bound to the node. -/
def DeliveryEnv.updatesForeignPodStatus (env : DeliveryEnv) (node : String) : StorageCommand → Bool
  | .updateStatus key _ _ preconditions _ =>
    (env.live key).any fun live => preconditions.uid = some live.uid && assignedNode live ≠ some node
  | _ => false

variable {e : DeliveryEnv} {node n i : String} {op : OutboxDeliveryOperation}
  {d : Except OutboxDeliveryError StorageCommand} {wm : Option OutboxStreamWatermark}
  {command sent s : StorageCommand}

/-! ## What a delivered command has passed -/

theorem refuse_ne_ok {er : OutboxDeliveryError} : e.refuse i op n wm er ≠ .ok command := by
  intro h
  obtain ⟨_, -, h⟩ := bind_eq_ok.1 h
  cases h

theorem authorizeOutboxCommand_ok_iff :
    authorizeOutboxCommand op command node = .ok () ↔ node ≠ "" ∧ authorized op command node := by
  unfold authorizeOutboxCommand
  split
  · simp_all
  · split <;> simp_all

theorem deliver_ok_iff : e.deliverAuthenticatedOutboxCommandEffectScoped n i op d wm = .ok command ↔
      e.authorityAtEntry ∧ e.authorityAtProposal ∧ n ≠ "" ∧ ∃ sent, d = .ok sent ∧ authorized op sent n ∧
          e.authorizeLive op sent n = .ok command ∧ validateOperation op command = .ok () := by
  unfold deliverAuthenticatedOutboxCommandEffectScoped
  cases e.authorityAtEntry with
  | false => simp
  | true =>
    cases d with
    | error error =>
      simp only [Bool.not_true, Bool.false_eq_true, ↓reduceIte, reduceCtorEq, false_and, exists_false, and_false,
        iff_false]
      split
      · exact nofun
      · exact refuse_ne_ok
    | ok sent =>
      simp only [Bool.not_true, Bool.false_eq_true, ↓reduceIte, true_and, Except.ok.injEq, exists_eq_left']
      cases hu : authorizeOutboxCommand op sent n with
      | error error =>
        have hno : ¬(n ≠ "" ∧ authorized op sent n) := by
          rw [← authorizeOutboxCommand_ok_iff, hu]
          exact nofun
        simp only [refuse_ne_ok, false_iff]
        rintro ⟨-, hn, ha, -⟩
        exact hno ⟨hn, ha⟩
      | ok =>
        obtain ⟨hn, ha⟩ := authorizeOutboxCommand_ok_iff.1 hu
        simp only [ne_eq, hn, not_false_eq_true, ha, true_and]
        cases e.authorizeLive op sent n with
        | error error =>
          simp only [reduceCtorEq, false_and, and_false, iff_false]
          split
          · exact refuse_ne_ok
          · exact nofun
        | ok pa =>
          simp only [Except.ok.injEq]
          cases hv : validateOperation op pa with
          | error error =>
            simp only [refuse_ne_ok, false_iff]
            rintro ⟨-, rfl, hok⟩
            rw [hv] at hok
            cases hok
          | ok =>
            cases e.authorityAtProposal with
            | false => simp
            | true =>
              simp only [Bool.not_true, Bool.false_eq_true, ↓reduceIte, Except.ok.injEq, true_and]
              constructor
              · rintro rfl
                exact ⟨rfl, hv⟩
              · exact fun h => h.1

theorem boundPod_ok {ns u : String} {l : Resource} (h : e.boundPod ns nm u node = .ok l) :
    e.live ⟨"v1", "Pod", some ns, nm⟩ = some l ∧ l.uid = u ∧ assignedNode l = some node := by
  obtain ⟨fo, hg, h⟩ := bind_eq_ok.1 h
  have hf : fo = e.live ⟨"v1", "Pod", some ns, nm⟩ := by
    obtain ⟨-, -, hg⟩ := bind_eq_ok.1 hg
    obtain ⟨-, -, hg⟩ := bind_eq_ok.1 hg
    split at hg
    · cases hg
    · exact (Except.ok.inj hg).symm
  subst hf
  split at h
  · cases h
  · rename_i fo hl
    obtain ⟨hu, h⟩ := ite_error_eq_ok.1 h
    obtain ⟨hn, h⟩ := ite_error_eq_ok.1 h
    cases h
    exact ⟨hl, of_not_not hu, of_not_not hn⟩

/-! ## What each matcher pins down -/

theorem changedLive_pod {ns u : String} {l : Resource} (hl : e.live ⟨"v1", "Pod", some ns, nm⟩ = some l)
    (ha : assignedNode l = some node) (h : e.changedLive ⟨"v1", "Pod", some ns, nm⟩ (some u) = some object) :
    object.OwnedBy node := by
  unfold changedLive at h
  rw [hl] at h
  obtain ⟨fo, hf, rfl⟩ := map_eq_some_iff.1 h
  obtain rfl := Option.some.inj (filter_eq_some_iff.1 hf).1
  exact ha

theorem changedLive_node {u : Option String} (h : e.changedLive ⟨"v1", "Node", none, name⟩ u = some object) :
    object.OwnedBy name := by
  obtain ⟨fo, -, rfl⟩ := map_eq_some_iff.1 h
  rfl

section

variable (h : e.changedObject command = some object)

include h

theorem podMetadata_owned (hm : isUidBoundPodMetadata s)
    (hl : e.authorizeLivePodMetadata s node = .ok command) : object.OwnedBy node := by
  unfold isUidBoundPodMetadata at hm
  split at hm
  · rename_i ns nm po nod ob
    unfold authorizeLivePodMetadata at hl
    simp only at hl
    split at hl
    · cases hl
    · obtain ⟨li, hbd, hc⟩ := bind_eq_ok.1 hl
      cases hc
      obtain ⟨hf, -, ha⟩ := boundPod_ok hbd
      exact changedLive_pod hf ha h
  · rename_i av kd ns nm pt pc st
    simp only [Bool.and_eq_true, decide_eq_true_eq] at hm
    obtain ⟨⟨⟨⟨⟨rfl, rfl⟩, -⟩, -⟩, -⟩, -⟩ := hm
    unfold authorizeLivePodMetadata at hl
    simp only [podTarget, decide_true, Bool.and_self, ↓reduceIte, getD_some] at hl
    split at hl
    · cases hl
    · rename_i ex hu
      obtain ⟨li, hbd, hc⟩ := bind_eq_ok.1 hl
      cases hc
      obtain ⟨hf, -, ha⟩ := boundPod_ok hbd
      obtain ⟨hp, -⟩ := filter_eq_some_iff.1 hu
      simp only [changedObject, hp] at h
      exact changedLive_pod hf ha h
  · cases hm

theorem nodeRegistration_owned (hm : isAuthenticatedNodeRegistration command node) : object.OwnedBy node := by
  unfold isAuthenticatedNodeRegistration at hm
  split at hm
  · rename_i k da
    obtain ⟨av, kd, ns, nm⟩ := k
    simp only [Bool.and_eq_true, decide_eq_true_eq, isNone_iff_eq_none] at hm
    obtain ⟨⟨⟨⟨rfl, rfl⟩, rfl⟩, rfl⟩, -⟩ := hm
    cases h
    rfl
  · rename_i k da ex pc prs
    split at hm
    · cases hm
    · obtain ⟨av, kd, ns, nm⟩ := k
      simp only [Bool.and_eq_true, decide_eq_true_eq, isNone_iff_eq_none] at hm
      obtain ⟨⟨⟨⟨rfl, rfl⟩, rfl⟩, rfl⟩, -⟩ := hm
      exact changedLive_node h
  · cases hm

theorem nodeStatus_owned (hm : isAuthenticatedNodeStatus command node) : object.OwnedBy node := by
  unfold isAuthenticatedNodeStatus at hm
  split at hm
  · rename_i k st ex pc stp
    obtain ⟨av, kd, ns, nm⟩ := k
    simp only [Bool.and_eq_true, decide_eq_true_eq, isNone_iff_eq_none] at hm
    obtain ⟨⟨⟨⟨rfl, rfl⟩, rfl⟩, rfl⟩, -⟩ := hm
    exact changedLive_node h
  · cases hm

theorem nodeDataplane_owned (hm : isAuthenticatedNodeDataplane command node) : object.OwnedBy node := by
  unfold isAuthenticatedNodeDataplane at hm
  split at hm
  · obtain rfl := of_decide_eq_true hm
    cases h
    rfl
  · cases hm

theorem eventCreate_owned (hm : isAuthenticatedEventCreate command node) : object.OwnedBy node := by
  unfold isAuthenticatedEventCreate at hm
  split at hm
  · rename_i av kd ns nm da
    split at hm
    · cases hm
    · rename_i hg
      have hki : kd = "Event" := by
        simp only [Bool.or_eq_true, decide_eq_true_eq, not_or, ne_eq, not_not] at hg
        exact hg.1.1.1.2
      subst hki
      have hr : eventReporter av da = some node := of_decide_eq_true hm
      cases h
      exact hr
  · cases hm

end

/-- Of the status operations, only an update of a Pod of another node changes what is not the node's own. -/
theorem podStatus_owned_iff (hm : isUidBoundPodStatus command) :
    (∀ object, e.changedObject command = some object → object.OwnedBy n) ↔
      e.updatesForeignPodStatus n command = false := by
  unfold isUidBoundPodStatus at hm
  split at hm
  · rename_i av kd ns nm st ex pc stp
    obtain ⟨ui, rv⟩ := pc
    simp only [Bool.and_eq_true, decide_eq_true_eq] at hm
    obtain ⟨⟨⟨⟨rfl, rfl⟩, -⟩, -⟩, hu⟩ := hm
    obtain ⟨ui, rfl⟩ : ∃ text, ui = some text := by
      cases ui with
      | none => cases hu
      | some text => exact ⟨text, rfl⟩
    simp only [changedObject, changedLive, updatesForeignPodStatus]
    cases e.live ⟨"v1", "Pod", some ns, nm⟩ with
    | none => simp
    | some li =>
      by_cases heq : li.uid = ui
      · simp [Option.filter, heq, ChangedObject.OwnedBy]
      · simp [Option.filter, heq, Ne.symm heq]
  · cases hm

theorem podStatus_operation (e : DeliveryEnv) (hp : op.toOutboxOperation.isSupersedablePodStatus)
    (command : StorageCommand) (node : String) :
    authorized op command node = isUidBoundPodStatus command ∧
      e.authorizeLive op command node = .ok command ∧ validateOperation op command = .ok () := by
  cases op with
  | podStatus | runtimeReconcile | probeReadiness | deadlineExceeded | containerStatusSnapshot
  | ephemeralContainerStatuses => exact ⟨rfl, rfl, rfl⟩
  | podMetadata | nodeRegistration | nodeDataplane | nodeStatus | eventCreate => cases hp

theorem other_owned (hp : op.toOutboxOperation.isSupersedablePodStatus = false)
    (ha : authorized op s node) (hl : e.authorizeLive op s node = .ok command)
    (h : e.changedObject command = some object) : object.OwnedBy node := by
  have heq : op ≠ .podMetadata → s = command := by
    intro hne
    rw [authorizeLive, if_neg hne] at hl
    exact Except.ok.inj hl
  cases op with
  | podStatus | runtimeReconcile | probeReadiness | deadlineExceeded | containerStatusSnapshot
  | ephemeralContainerStatuses => cases hp
  | podMetadata => exact podMetadata_owned h ha hl
  | nodeRegistration =>
    obtain rfl := heq nofun
    exact nodeRegistration_owned h ha
  | nodeStatus =>
    obtain rfl := heq nofun
    exact nodeStatus_owned h ha
  | nodeDataplane =>
    obtain rfl := heq nofun
    exact nodeDataplane_owned h ha
  | eventCreate =>
    obtain rfl := heq nofun
    exact eventCreate_owned h ha

/-! ## The boundary -/

/-- Every command a node gets past the boundary changes an object of its own, unless it is a status of another node's
Pod under a status operation: those have no live check. -/
theorem delivered_ownObject_iff (env : DeliveryEnv) (node idempotencyKey : String) (operation : OutboxDeliveryOperation)
    (decoded : Except OutboxDeliveryError StorageCommand) (watermark : Option OutboxStreamWatermark) :
    (∀ command object,
      env.deliverAuthenticatedOutboxCommandEffectScoped node idempotencyKey operation decoded watermark = .ok command →
        env.changedObject command = some object → object.OwnedBy node) ↔
      ¬(env.authorityAtEntry = true ∧ env.authorityAtProposal = true ∧ node ≠ "" ∧
        operation.toOutboxOperation.isSupersedablePodStatus = true ∧
        ∃ command, decoded = .ok command ∧ isUidBoundPodStatus command = true ∧
          env.updatesForeignPodStatus node command = true) := by
  constructor
  · rintro ho ⟨he, hp, hn, hop, command, rfl, hm, hf⟩
    obtain ⟨ha, hl, hv⟩ := podStatus_operation env hop command node
    have hd : env.deliverAuthenticatedOutboxCommandEffectScoped node idempotencyKey operation (.ok command)
        watermark = .ok command :=
      deliver_ok_iff.2 ⟨he, hp, hn, command, rfl, ha ▸ hm, hl, hv⟩
    have hw := (podStatus_owned_iff hm).1 fun object => ho command object hd
    rw [hf] at hw
    cases hw
  · intro hno command object hd hc
    obtain ⟨he, hp, hn, sent, rfl, ha, hl, -⟩ := deliver_ok_iff.1 hd
    cases hop : operation.toOutboxOperation.isSupersedablePodStatus with
    | false => exact other_owned hop ha hl hc
    | true =>
      obtain ⟨hm, hs, -⟩ := podStatus_operation env hop sent node
      rw [hm] at ha
      obtain rfl := Except.ok.inj (hs.symm.trans hl)
      refine (podStatus_owned_iff ha).2 ?_ object hc
      rw [← Bool.not_eq_true]
      exact fun hf => hno ⟨he, hp, hn, hop, sent, rfl, ha, hf⟩

/-- The leader of a cluster whose only Pod runs on worker-b. -/
def otherNodesPod : DeliveryEnv where
  authorityAtEntry := true
  authorityAtProposal := true
  live := fun key =>
    if key = ⟨"v1", "Pod", some "default", "web"⟩ then
      some ⟨key, "uid-1", 7, .obj [("spec", .obj [("nodeName", .str "worker-b")])]⟩
    else none
  queryFault := none
  proposeOutboxCommand := fun _ _ _ _ _ => .ok (.applied 0)

/-- A status that worker-a delivers for it reaches the proposal. -/
theorem foreign_pod_status_delivered :
    let command : StorageCommand := .updateStatus ⟨"v1", "Pod", some "default", "web"⟩
      (.obj [("phase", .str "Failed")]) none ⟨some "uid-1", none⟩ none
    otherNodesPod.deliverAuthenticatedOutboxCommandEffectScoped "worker-a" "key-1" .podStatus (.ok command) none =
        .ok command ∧
      ∃ live, otherNodesPod.changedObject command = some (.pod live) ∧ assignedNode live = some "worker-b" := by
  refine ⟨rfl, _, rfl, ?_⟩
  decide

end Klights.Leader
