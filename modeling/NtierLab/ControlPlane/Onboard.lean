import NtierLab.ControlPlane.Command

/-!
# Onboarding

The Kubernetes onboarding of one tenant (`helm/test-app/onboard_tenant.py`): the
shared edge, the namespace, the Helm release. The platform tenant's release also
carries the migrate Job of all tenants: `onboard` deletes the Job of the release
before, and waits for the new one.
-/

namespace NtierLab

open Prog

/-- The id of the platform tenant when nothing names another. -/
def TenantId.a : TenantId := ⟨"a", rfl⟩

/-- Another tenant. -/
def TenantId.b : TenantId := ⟨"b", rfl⟩

/-- A third tenant. -/
def TenantId.c : TenantId := ⟨"c", rfl⟩

/-- The error of an output that is empty. -/
def emptyOutput (key : String) : Exn :=
  .onboardError s!"tofu output {pyRepr key} is empty. Is enable_rds true? Apply from env/dev/workload."

/-- An output that must not be empty. -/
def require (key value : String) : CP String :=
  if value = "" then throw (emptyOutput key) else pure value

/-- The address of a node, for the node ports. -/
def nodeIp : CP String := do
  let ip ← getenv "NODE_IP"
  if ip ≠ "" then return ip
  let ip ← nodeAddress
  if ip ≠ "" then return ip
  let region ← getenv "AWS_REGION"
  let value := orElse region "us-east-1"
  throw (.onboardError ("no Ready node. Refresh kubeconfig, wait, retry:\n" ++
    s!"  aws eks update-kubeconfig --name ntier-dev-eks-cluster --region {value}\n" ++
    "  kubectl wait --for=condition=Ready nodes --all --timeout=600s"))

/-- The rounds of `wait_ingress_hostname`. -/
def pollIngressHostname (t : TenantId) : ℕ → CP String
  | 0 => throw (.onboardError s!"timed out waiting for Ingress {t.ns}/test-app ADDRESS")
  | n + 1 => do
    let host ← ingressHostname t
    if host ≠ "" then return host
    pollIngressHostname t n

/-- Waits for the Ingress of a tenant to get its host name. -/
def waitIngressHostname (t : TenantId) (timeout : ℕ) : CP String := do
  let n ← rounds timeout
  pollIngressHostname t n

/-- The order of the tenant's Ingress in the shared group. -/
def groupOrder (t : TenantId) (tenantIds : List TenantId) : String :=
  match tenantIds.idxOf? t with
  | some i => toString ((i + 1) * 10)
  | none => toString (900 + (t.val.toList.map Char.toNat).sum % 90)

/-- The edge of the release of a tenant. -/
def edgeSets (t : TenantId) (outputs : Outputs) (ip : String) (tenantIds : List TenantId) :
    CP Edge := do
  if outputs.albController then
    run (.guardrails outputs.group)
    if outputs.publicSubnetCidrs = [] then
      throw (.onboardError
        "tofu output public_subnet_cidrs is empty; needed for NetworkPolicy with alb_controller")
    let myIp ← getenv "MY_IP"
    let inbound := [orElse myIp outputs.myIpCidr].filter (· ≠ "")
    return .ingress outputs.group (groupOrder t tenantIds) inbound outputs.publicSubnetCidrs
      outputs.privateSubnetCidrs outputs.albLogsBucket
  else
    if outputs.tenantNodePorts.isEmpty then throw (emptyOutput "tenant_node_ports")
    match outputs.tenantNodePorts[t]? with
    | some port => return .nodePort port s!"{ip}/32"
    | none => throw (.onboardError s!"tenant {pyRepr t.val} missing from tenant_node_ports")

/-- The message of a tenant without an identity. -/
def missingMaps (t : TenantId) (irsaRoles secrets : TidMap String) : String :=
  s!"tenant {pyRepr t.val} missing IRSA/secret maps " ++
  s!"(irsa={pyReprList (irsaRoles.keys.map TenantId.val)}, secrets={pyReprList (secrets.keys.map TenantId.val)}). " ++
  "Provision identity via control plane or tofu apply."

/-- The platform tenant, whose release carries the migrate Job: the one the outputs name, or
    else the first of the ids. -/
def platformTenant (outputs : Outputs) (tenantIds : List TenantId) : TenantId :=
  outputs.platformTenantId.getD (tenantIds.headD .a)

/-- The migrate Job of a new release of the platform tenant, the Job of the last release
    being deleted first. -/
def refreshMigrate (t : TenantId) (outputs : Outputs) (secrets : TidMap String) : CP Migrate := do
  run (.deleteMigrateJob t)
  let migrator ← require "migrator_irsa_role_arn" outputs.migratorIrsaRoleArn
  let master ← require "rds_secret_name" outputs.rdsSecretName
  return ⟨migrator, master, secrets⟩

/-- The region of a release, empty when nothing names it. -/
def releaseRegion (outputs : Outputs) : CP String :=
  if outputs.awsRegion ≠ "" then pure outputs.awsRegion else getenv "AWS_REGION"

/-- The migrate Job of a release, if it is the one of the platform tenant. -/
def releaseMigrate (t first : TenantId) (outputs : Outputs) (secrets : TidMap String) :
    CP (Option Migrate) :=
  if t = first then some <$> refreshMigrate t outputs secrets else pure none

/-- The release of the platform tenant waits for its migrate Job. -/
def awaitMigrate (t first : TenantId) : CP Unit :=
  if t = first then run (.waitMigrateJob t) else pure ()

/-- Onboards one tenant: its namespace, its release and, for the first, the migration. -/
def onboard (t : TenantId) (outputs : Outputs) (ip : String) (tenantIds : List TenantId)
    (irsaRoles secrets : TidMap String) : CP Unit := do
  match irsaRoles[t]?, secrets[t]? with
  | some irsa, some secret =>
    let tenantIds := if t ∈ tenantIds then tenantIds else tenantIds ++ [t]
    let first := platformTenant outputs tenantIds
    let region ← releaseRegion outputs
    let host ← require "rds_host" outputs.rdsHost
    let edge ← edgeSets t outputs ip tenantIds
    nsYaml t
    run (.applyNs t)
    run (.labelNs t)
    let migrate ← releaseMigrate t first outputs secrets
    run (.helmUpgrade ⟨t, irsa, host, secret, orElse region "us-east-1", edge, migrate⟩)
    awaitMigrate t first
  | _, _ => throw (.onboardError (missingMaps t irsaRoles secrets))

end NtierLab
