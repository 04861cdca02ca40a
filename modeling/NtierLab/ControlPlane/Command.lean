import NtierLab.ControlPlane.Decide
import NtierLab.Text.Json

/-!
# Commands

The commands of the control plane, one for each point at which it meets the world:
the store's transactions, the lock-protected sections of the HTTP API, the host
(environment, files, clock, OpenTofu), the processes run for their effect
(`Shell`: kubectl and helm), the processes run for their output (`KubeQuery`), and
the AWS calls. A command carries the values the source passes, with `Shell.argv`
the argument list it builds of them; its response is what the source reads of it,
or the exception it raises.

The helpers that run a process differ in what they make of its outcome:
`lifecycleRun` (`lifecycle._run`) classifies a failure, `run` raises it as it is,
`runOk` (`lifecycle._run_ok`) answers whether the process succeeded.
-/

namespace NtierLab

open Prog

/-- A map by tenant id, iterated in the order of the ids. -/
abbrev TidMap (α : Type) := Std.ExtTreeMap TenantId α

/-- The outputs of the OpenTofu workload stack; a text is empty when the output is empty or
    null. -/
structure Outputs where
  awsRegion : String
  namePrefix : String
  rdsHost : String
  rdsSecretName : String
  oidcProviderArn : String
  oidcProviderUrl : String
  migratorIrsaRoleArn : String
  platformTenantId : Option TenantId
  tenantIds : List TenantId
  tenantIrsaRoleArns : TidMap String
  tenantSecretNames : TidMap String
  tenantNodePorts : TidMap ℤ
  ingressMode : String
  albIngressGroup : String
  albLogsBucket : String
  albUrl : String
  publicSubnetCidrs : List String
  privateSubnetCidrs : List String
  myIpCidr : String

/-- Python's `x or default` on a text. -/
def orElse (s default : String) : String := if s = "" then default else s

namespace Outputs

variable (o : Outputs)

/-- The region, `us-east-1` by default. -/
def region : String := orElse o.awsRegion "us-east-1"

/-- The prefix of the names at AWS. -/
def prefix_ : String := orElse o.namePrefix "ntier-dev"

/-- Whether the edge is a shared Ingress (`ingress_mode`). -/
def albController : Bool := orElse o.ingressMode "alb_controller" = "alb_controller"

/-- The group of the shared Ingress; the prefix is its default. -/
def group : String := orElse o.albIngressGroup (orElse o.namePrefix "ntier-dev")

end Outputs

/-- The annotation of a service account with its role. -/
def roleAnnotation (arn : String) : String := jsonMap [("eks.amazonaws.com/role-arn", arn)]

/-! ## Helm values -/

/-- The edge of a release: the shared Ingress, or a node port. -/
inductive Edge
  | ingress (group order : String) (inboundCidrs npCidrs pgCidrs : List String)
      (logsBucket : String)
  | nodePort (port : ℤ) (nodeCidr : String)

/-- The values of the migrate Job of a release. -/
structure Migrate where
  migrator : String
  masterSecret : String
  tenantSecrets : TidMap String

/-- The values `onboard` sets on the release of a tenant. -/
structure HelmValues where
  tenant : TenantId
  irsa : String
  host : String
  secret : String
  region : String
  edge : Edge
  migrate : Option Migrate

namespace HelmValues

/-- A `--set` argument. -/
def set (s : String) : List String := ["--set", s]

/-- A `--set-json` argument. -/
def setJson (s : String) : List String := ["--set-json", s]

/-- The arguments of the edge. -/
def edgeArgv : Edge → List String
  | .ingress group order inbound np pg logs =>
    set "service.type=ClusterIP" ++ set "ingress.enabled=true" ++
      set ("ingress.groupName=" ++ group) ++ set ("ingress.groupOrder=" ++ order) ++
      setJson ("ingress.inboundCidrs=" ++ jsonList inbound) ++
      setJson ("networkPolicy.ingressCidrs=" ++ jsonList np) ++
      set "networkPolicy.egress.enabled=true" ++
      setJson ("networkPolicy.egress.postgresCidrs=" ++ jsonList pg) ++
      if logs = "" then [] else set ("ingress.accessLogsBucket=" ++ logs)
  | .nodePort port cidr =>
    set "service.type=NodePort" ++ set ("service.nodePort=" ++ toString port) ++
      set "ingress.enabled=false" ++ setJson ("networkPolicy.ingressCidrs=" ++ jsonList [cidr])

/-- The arguments of the migrate Job, which only the first tenant has. -/
def migrateArgv : Option Migrate → List String
  | none => set "database.migrate=false"
  | some m =>
    set "database.migrate=true" ++
      setJson ("database.migratorServiceAccount.annotations=" ++ roleAnnotation m.migrator) ++
      set ("database.masterSecret=" ++ m.masterSecret) ++
      setJson ("database.tenantSecrets=" ++
        jsonMap (m.tenantSecrets.toList.map fun p => (p.1.val, p.2)))

/-- The Ingress is enabled. -/
def ingressEnabled (v : HelmValues) : Bool :=
  match v.edge with
  | .ingress .. => true
  | .nodePort .. => false

/-- The `helm upgrade` of a release. -/
def argv (v : HelmValues) : List String :=
  ["helm", "upgrade", "--install", "test-app", "CHART_DIR", "-n", v.tenant.ns] ++
    set "fullnameOverride=test-app" ++ set "serviceAccount.name=test-app" ++
    set ("tenant.id=" ++ v.tenant.val) ++ set ("pathPrefix=/tenant-" ++ v.tenant.val) ++
    set "quota.enabled=true" ++ set "networkPolicy.enabled=true" ++
    setJson ("serviceAccount.annotations=" ++ roleAnnotation v.irsa) ++
    set "database.enabled=true" ++ set ("database.host=" ++ v.host) ++
    set ("database.secretName=" ++ v.secret) ++ set ("region=" ++ v.region) ++
    edgeArgv v.edge ++ migrateArgv v.migrate

end HelmValues

/-! ## Processes run for their effect -/

/-- The name of a drop-role Job, from its tenant and the time it was created. -/
structure DropName where
  tenant : TenantId
  suffix : ℕ
  deriving DecidableEq

namespace DropName

/-- The name of the Job. -/
def job (d : DropName) : String := s!"drop-role-{d.tenant.val}-{d.suffix}"

/-- The name of the ConfigMap with its script. -/
def cm (d : DropName) : String := s!"drop-role-script-{d.tenant.val}-{d.suffix}"

end DropName

/-- The drop-role Job of a manifest: where it runs, and the environment of its script. -/
structure DropManifest where
  platform : TenantId
  name : DropName
  region : String
  masterSecret : String
  dropRole : String
  dropPolicy : String

/-- The processes run for their effect; a tenant stands for its namespace. -/
inductive Shell
  | scale (t : TenantId) (replicas : ℕ)
  | deleteIngress (t : TenantId)
  | rolloutStatus (t : TenantId)
  | helmUninstall (t : TenantId)
  | getNs (t : TenantId)
  | deleteNs (t : TenantId)
  | guardrails (group : String)
  | applyNs (t : TenantId)
  | labelNs (t : TenantId)
  | deleteMigrateJob (t : TenantId)
  | helmUpgrade (v : HelmValues)
  | waitMigrateJob (t : TenantId)
  | applyMigratorSa (platform : TenantId) (migrator : String)
  | createDropConfigMap (platform : TenantId) (d : DropName)
  | applyDropJob (m : DropManifest)
  | dropJobLogs (platform : TenantId) (d : DropName)
  | deleteDropJob (platform : TenantId) (d : DropName)
  | deleteDropConfigMap (platform : TenantId) (d : DropName)

/-- The argument list of a process; the paths of the charts and of the script stand for
    themselves. -/
def Shell.argv : Shell → List String
  | scale t n => ["kubectl", "-n", t.ns, "scale", "deploy/test-app", s!"--replicas={n}"]
  | deleteIngress t => ["kubectl", "-n", t.ns, "delete", "ingress", "test-app", "--ignore-not-found"]
  | rolloutStatus t => ["kubectl", "-n", t.ns, "rollout", "status", "deploy/test-app", "--timeout=180s"]
  | helmUninstall t => ["helm", "uninstall", "test-app", "-n", t.ns]
  | getNs t => ["kubectl", "get", "ns", t.ns]
  | deleteNs t => ["kubectl", "delete", "ns", t.ns, "--wait=true", "--timeout=180s"]
  | guardrails group =>
    ["helm", "upgrade", "--install", "platform-guardrails", "GUARDRAILS_CHART", "-n", "kube-system",
      "--set", "groupName=" ++ group, "--set", "ingressClass=alb"]
  | applyNs _ | applyMigratorSa _ _ | applyDropJob _ => ["kubectl", "apply", "-f", "-"]
  | labelNs t => ["kubectl", "label", "ns", t.ns, "tenant=" ++ t.val, "--overwrite"]
  | deleteMigrateJob t =>
    ["kubectl", "-n", t.ns, "delete", "job", "test-app-migrate", "--ignore-not-found"]
  | helmUpgrade v => v.argv
  | waitMigrateJob t =>
    ["kubectl", "-n", t.ns, "wait", "--for=condition=complete", "job/test-app-migrate", "--timeout=300s"]
  | createDropConfigMap p d =>
    ["kubectl", "-n", p.ns, "create", "configmap", d.cm, "--from-file=drop_role.py=SCRIPT_PATH"]
  | dropJobLogs p d => ["kubectl", "-n", p.ns, "logs", "job/" ++ d.job]
  | deleteDropJob p d =>
    ["kubectl", "-n", p.ns, "delete", "job", d.job, "--ignore-not-found", "--wait=false"]
  | deleteDropConfigMap p d => ["kubectl", "-n", p.ns, "delete", "cm", d.cm, "--ignore-not-found"]

/-- The outcome of a process: it exited with a code, ran out of time, or could not be run. -/
inductive ProcOutcome
  | exited (code : ℤ)
  | timeoutExpired (text : String)
  | raised (text : String)
  deriving DecidableEq

@[simp] theorem procOutcome_forall {P : ProcOutcome → Prop} :
    (∀ r, P r) ↔ (∀ code, P (.exited code)) ∧ (∀ text, P (.timeoutExpired text)) ∧
      ∀ text, P (.raised text) :=
  ⟨fun h => ⟨fun _ => h _, fun _ => h _, fun _ => h _⟩, fun h r => match r with
    | .exited code => h.1 code
    | .timeoutExpired text => h.2.1 text
    | .raised text => h.2.2 text⟩

/-! ## Processes run for their output -/

/-- The objects the observer asks for, in the namespace of a tenant. -/
inductive KubeObject
  | ns
  | deploy
  | ingress
  | service
  | networkPolicy
  | resourceQuota
  | serviceAccount
  deriving DecidableEq

/-- The fields read of an object: the replicas of a Deployment, the role of a ServiceAccount;
    zero and empty when missing. -/
structure KubeJson where
  specReplicas : ℤ := 0
  readyReplicas : ℤ := 0
  roleArn : String := ""
  deriving DecidableEq

/-- What `kubectl get -o json` prints: the object, or a text that does not parse; or the code
    it fails with. -/
inductive KubeGet
  | json (j : KubeJson)
  | unparsable
  | exited (code : ℤ)
  deriving DecidableEq

/-- The processes run for their output, by what they ask. -/
inductive KubeQuery
  | nodeAddress
  | nsYaml (t : TenantId)
  | ingressHostname (t : TenantId)
  | dropJobConditions (platform : TenantId) (d : DropName)
  | get (t : TenantId) (o : KubeObject)
  | nsNames
  /-- An observer given by the caller of the reconciler. -/
  | observe (t : TenantId)

/-- What is read of their output. -/
abbrev KubeQuery.Resp : KubeQuery → Type
  | nodeAddress | ingressHostname _ => Except Exn String
  | nsYaml _ => Except Exn Unit
  | dropJobConditions _ _ => Except Exn (List (String × String))
  | get _ _ => Except Exn KubeGet
  | nsNames => List String
  | observe _ => Except Exn Observed

/-! ## AWS -/

/-- The payload of a tenant secret. -/
structure SecretPayload where
  username : String
  password : String
  host : String
  port : ℕ
  dbname : String
  tenantId : TenantId
  deriving DecidableEq

/-- The trust policy of a role: who assumes it through the identity provider. -/
structure Trust where
  federated : String
  oidcUrl : String
  sub : String
  aud : String
  deriving DecidableEq

/-- A description of a secret. -/
structure SecretDescription where
  arn : String
  deletedDate : Bool
  deriving DecidableEq

/-- The calls of the AWS SDK. -/
inductive AwsCall
  | callerIdentity
  | describeSecret (name : String)
  /-- With a recovery window in days, or without recovery. -/
  | deleteSecret (name : String) (days : ℕ)
  | createSecret (name : String) (payload : SecretPayload)
  | getRole (name : String)
  | updateAssumeRolePolicy (name : String) (trust : Trust)
  | createRole (name : String) (trust : Trust)
  | putRolePolicy (role policy resource : String)
  /-- The names of all secrets, page by page. -/
  | listSecrets
  | tagSecret (name : String) (t : TenantId)
  | tagRole (name : String) (t : TenantId)
  | deleteRolePolicy (role policy : String)
  | deleteRole (role : String)
  deriving DecidableEq

/-- What is read of the answer, or the exception raised. -/
abbrev AwsCall.Resp : AwsCall → Type
  | callerIdentity | createSecret _ _ | getRole _ | createRole _ _ => Except Exn String
  | describeSecret _ => Except Exn SecretDescription
  | listSecrets => Except Exn (List (List String))
  | _ => Except Exn Unit

/-! ## The signature -/

/-- The transactions of the store. -/
inductive RegCmd
  | get (t : TenantId)
  | list
  | upsert (t : TenantId) (expectedVersion : Option ℤ) (f : Fields)
  | delete (t : TenantId)

/-- What a transaction returns; a write may be refused. -/
abbrev RegCmd.Resp : RegCmd → Type
  | get _ => Option Row
  | list => List (TenantId × Row)
  | upsert _ _ _ => Except Exn Row
  | delete _ => Bool

/-- The background jobs of the HTTP API. -/
inductive JobFn
  | create (tier : String) (ensureInfra ensureIdentity : Bool)
  | resume
  | delete
  deriving DecidableEq

/-- The fields of a tenant that the API shows. -/
structure Public where
  id : String
  desiredStatus : Option String := none
  status : Option String
  tier : Option String := none
  endpoint : Option String := none
  pathPrefix : Option String := none
  ownedBy : Option String := none
  secretName : Option String := none
  error : Option String := none
  deleteStep : Option String := none
  version : Option ℤ := none
  createdAt : Option String := none
  updatedAt : Option String := none

/-- The JSON of an answer: a tenant, or an error with its message and the id it is about. -/
inductive Body
  | tenant (item : Public)
  | error (error : String) (message id : Option String)

/-- The lock-protected sections of the HTTP API on the tenants in flight, and its answers. -/
inductive AppCmd
  /-- Whether the tenant is in flight. -/
  | inFlight (t : TenantId)
  /-- Puts the tenant in flight and starts its job, unless it is in flight already. -/
  | enter (t : TenantId) (fn : JobFn)
  | discard (t : TenantId)
  /-- Answers the request, with a code. -/
  | respond (code : ℕ) (body : Body)

/-- What a section returns. -/
abbrev AppCmd.Resp : AppCmd → Type
  | inFlight _ | enter _ _ => Bool
  | discard _ | respond _ _ => Unit

/-- What the control plane asks of its host. -/
inductive HostCmd
  | getenv (name : String)
  | tofuOutputs
  /-- The path of the variables file, and whether it exists. -/
  | tfvars
  | ensureTenantInTfvars (t : TenantId)
  | publicIpCidr
  | tofuApply (cidr : String)
  | writeAlbUrl (host : String)
  /-- The URL written last, stripped; empty if it cannot be read. -/
  | albUrlFile
  | secretRecoveryWindowDays
  /-- The rounds of a polling loop until the clock has passed its deadline. -/
  | rounds (timeout : ℕ)
  /-- The time, modulo `100000`. -/
  | suffix
  | password

/-- What the host answers. -/
abbrev HostCmd.Resp : HostCmd → Type
  | getenv _ => String
  | tofuOutputs => Except Exn Outputs
  | tfvars => String × Bool
  | ensureTenantInTfvars _ => Except Exn Bool
  | publicIpCidr | writeAlbUrl _ => Except Exn String
  | tofuApply _ => Except Exn Unit
  | secretRecoveryWindowDays => Except String ℕ
  | rounds _ | suffix => ℕ
  | password | albUrlFile => String

/-- The commands of the control plane. -/
inductive Cmd
  | reg (c : RegCmd)
  | app (c : AppCmd)
  | host (c : HostCmd)
  | shell (c : Shell)
  | kube (c : KubeQuery)
  | aws (c : AwsCall)

/-- The signature of the control plane. -/
abbrev cpSig : Sig where
  Cmd := Cmd
  Resp
    | .reg c => c.Resp
    | .app c => c.Resp
    | .host c => c.Resp
    | .shell _ => ProcOutcome
    | .kube c => c.Resp
    | .aws c => c.Resp

/-- The programs of the control plane. -/
abbrev CP (α : Type) := Prog cpSig Exn α

/-! ## Helpers -/

section Helpers

variable {α : Type}

namespace TenantStore

/-- `store.get`. -/
def get (t : TenantId) : CP (Option Row) := .call (.reg (.get t)) .ret

/-- `store.list`, by id. -/
def list : CP (List (TenantId × Row)) := .call (.reg .list) .ret

/-- `store.upsert`, without an expected version. -/
def upsert (t : TenantId) (f : Fields) : CP Row := .call (.reg (.upsert t none f)) result

/-- `store.delete`: whether there was a row. -/
def delete (t : TenantId) : CP Bool := .call (.reg (.delete t)) .ret

end TenantStore

/-- A variable of the environment, empty when it is not set. -/
def getenv (name : String) : CP String := .call (.host (.getenv name)) .ret

/-- The outputs of OpenTofu. -/
def tofuOutputs : CP Outputs := .call (.host .tofuOutputs) result

/-- Writes the URL of the edge to its file, and returns it. -/
def writeAlbUrl (host : String) : CP String := .call (.host (.writeAlbUrl host)) result

/-- A value that is not a number of days is a `ValueError`. -/
def secretRecoveryWindowDays : CP ℕ :=
  .call (.host .secretRecoveryWindowDays) fun
    | .ok days => pure days
    | .error text => throw (.other text)

/-- The rounds of a polling loop until its deadline. -/
def rounds (timeout : ℕ) : CP ℕ := .call (.host (.rounds timeout)) .ret

/-- Runs a process. -/
def shell (c : Shell) : CP ProcOutcome := .call (.shell c) .ret

/-- A checked process: a failure is raised as it is. -/
def run (c : Shell) : CP Unit :=
  .call (.shell c) fun
    | .exited code => if code = 0 then pure () else throw (.calledProcessError c.argv code)
    | .timeoutExpired text => throw (.other text)
    | .raised text => throw (.other text)

/-- Whether a process succeeded. -/
def runOk (c : Shell) : CP Bool :=
  .call (.shell c) fun
    | .exited code => pure (decide (code = 0))
    | .timeoutExpired text => throw (.other text)
    | .raised text => throw (.other text)

/-- The message of a failed process; its standard error is not captured. -/
def failedMessage (c : Shell) (code : ℤ) : String :=
  " ".intercalate c.argv ++ s!" exited {code}"

/-- The class of a failed process, from its message and its code. -/
def classifyFailure (c : Shell) (code : ℤ) : Exn :=
  let msg := failedMessage c code
  if "timeout".toList <:+: msg.toLower.toList ∨ code = 124 ∨ code = 137 then
    .kubernetesRetryableError msg
  else .permanentProvisioningError msg

/-- A process of the lifecycle: a failure is classified. -/
def lifecycleRun (c : Shell) : CP Unit :=
  .call (.shell c) fun
    | .exited code => if code = 0 then pure () else throw (classifyFailure c code)
    | .timeoutExpired text => throw (.kubernetesRetryableError text)
    | .raised text => throw (.other text)

/-- The address of the node. -/
def nodeAddress : CP String := .call (.kube .nodeAddress) result

/-- The manifest of a namespace. -/
def nsYaml (t : TenantId) : CP Unit := .call (.kube (.nsYaml t)) result

/-- The host name of the Ingress of a tenant, empty until it has one. -/
def ingressHostname (t : TenantId) : CP String := .call (.kube (.ingressHostname t)) result

/-- The conditions of a drop-role Job. -/
def dropJobConditions (p : TenantId) (d : DropName) : CP (List (String × String)) :=
  .call (.kube (.dropJobConditions p d)) result

end Helpers

end NtierLab
