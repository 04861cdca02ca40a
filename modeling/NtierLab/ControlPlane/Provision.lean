import NtierLab.ControlPlane.Lifecycle

/-!
# Provisioning

Provisioning a tenant (`control-plane/provisioner.py`): its identity, then the
onboarding of the platform tenant, to refresh the migrate Job with the merged
secrets, then its own.

* `ensureInfra`: the legacy path, which edits the variables of the workload stack
  and applies it;
* `ensureIdentity`: the identity of the tenant, by the flags of the request;
* `provision`: the request recorded, the identity recorded, the onboarding, ACTIVE
  recorded; any failure is recorded as FAILED.
-/

namespace NtierLab

open Prog

def publicIpCidr : CP String := .call (.host .publicIpCidr) result

/-- The address the workload stack is applied from. -/
def workloadCidr (myIp : Option String) : CP String :=
  if truthy myIp then pure (myIp.getD "") else publicIpCidr

/-- `apply_workload`. -/
def applyWorkload (myIp : Option String) : CP Unit := do
  let cidr ← workloadCidr myIp
  .call (.host (.tofuApply cidr)) result

/-- The infrastructure of a tenant in the workload stack, applied if needed. -/
def ensureInfra (t : TenantId) (myIp : Option String) : CP Outputs := do
  let tfvars : String × Bool ← .call (.host .tfvars) .ret
  if !tfvars.2 then throw (.onboardError s!"missing {tfvars.1} (gitignored local file)")
  let changed : Bool ← .call (.host (.ensureTenantInTfvars t)) result
  let outputs ← tofuOutputs
  let already := decide (t ∈ outputs.tenantIds) && decide (t ∈ outputs.tenantIrsaRoleArns)
  if changed || !already then
    applyWorkload myIp
    tofuOutputs
  else return outputs

/-- What a request asks for. -/
structure ProvisionArgs where
  tier : String := "standard"
  ensureInfraFlag : Bool := false
  ensureIdentityFlag : Bool := true
  myIp : Option String := none
  deriving DecidableEq

/-- The message of a tenant whose identity OpenTofu does not have. -/
def missingTofuIdentity (t : TenantId) : Exn :=
  .onboardError (s!"tenant {pyRepr t.val} missing from tofu identity maps; " ++
    "POST with ensure_identity=true (default) or ensure_infra=true")

/-- The identity of the tenant in the maps of OpenTofu. -/
def tofuIdentity (outputs : Outputs) (t : TenantId) : Identity :=
  ⟨some "opentofu", outputs.tenantSecretNames[t]?, outputs.tenantIrsaRoleArns[t]?⟩

/-- The outputs of OpenTofu and the identity of the tenant. -/
def ensureIdentity (t : TenantId) (args : ProvisionArgs) : CP (Outputs × Identity) := do
  if args.ensureInfraFlag then
    let outputs ← ensureInfra t args.myIp
    return (outputs, tofuIdentity outputs t)
  let outputs ← tofuOutputs
  if args.ensureIdentityFlag then
    let identity ← ensureTenantIdentity outputs t
    return (outputs, identity)
  if outputs.tenantSecretNames.isEmpty then throw (emptyOutput "tenant_secret_names")
  if outputs.tenantIrsaRoleArns.isEmpty then throw (emptyOutput "tenant_irsa_role_arns")
  if t ∉ outputs.tenantSecretNames ∨ t ∉ outputs.tenantIrsaRoleArns then
    throw (missingTofuIdentity t)
  return (outputs, tofuIdentity outputs t)

/-- The request of a tenant, recorded. -/
def provisioning (tier : String) : Fields :=
  { desiredStatus := Fields.desire .active, status := some .provisioning,
    tier := some (some tier), error := some none }

/-- The identity of a tenant, recorded. -/
def withIdentity (f : Fields) (i : Identity) : Fields :=
  { f with
    ownedBy := some i.ownedBy
    secretName := some i.secretName
    irsaRoleArn := some i.irsaRoleArn }

/-- The row of a tenant provisioned behind an edge. -/
def provisioned (t : TenantId) (tier alb : String) (i : Identity) : Fields :=
  withIdentity
    { desiredStatus := Fields.desire .active, status := some .active, tier := some (some tier),
      endpoint := some (endpointOf alb t none), pathPrefix := some (pathPrefixOf t),
      error := some none } i

/-- The row of a tenant whose provisioning failed. -/
def provisionFailed (tier text : String) : Fields :=
  { desiredStatus := Fields.desire .active, status := some .failed, tier := some (some tier),
    error := some (some text) }

/-- The identities given to the onboarding: those recorded, with the one just ensured. -/
def extraIdentities (rows : List (TenantId × Row)) (t : TenantId) (i : Identity) :
    TidMap Identity :=
  if i.ownedBy = some "control_plane" then (cpIdentities rows).insert t i else cpIdentities rows

/-- Onboards the platform tenant, to migrate with the secrets of all tenants, unless it is the
    tenant itself. -/
def onboardPlatform (t first : TenantId) (outputs : Outputs) (ip : String) (maps : IdentityMaps) :
    CP Unit :=
  if t ≠ first then onboard first outputs ip maps.ids maps.irsa maps.secrets else pure ()

/-- Onboards the platform tenant, then the tenant. -/
def onboardAll (t : TenantId) (outputs : Outputs) (ip : String) (maps : IdentityMaps) :
    CP Unit := do
  onboardPlatform t (platformTenant outputs maps.ids) outputs ip maps
  onboard t outputs ip maps.ids maps.irsa maps.secrets

/-- Provisioning, after the request was recorded. -/
def provisionSteps (t : TenantId) (args : ProvisionArgs) : CP Unit := do
  let (outputs, identity) ← ensureIdentity t args
  let _ ← TenantStore.upsert t (withIdentity (provisioning args.tier) identity)
  let rows ← TenantStore.list
  let maps := mergeIdentityMaps outputs (extraIdentities rows t identity)
  let ip ← nodeIp
  onboardAll t outputs ip maps
  let alb ← edgeUrl outputs t 600
  let _ ← TenantStore.upsert t (provisioned t args.tier alb identity)

/-- The exception a failure of provisioning is raised as. -/
def provisionRaise : Exn → Exn
  | .controlPlane e => .controlPlane e
  | exc => .permanentProvisioningError exc.text

def provision (t : TenantId) (args : ProvisionArgs) : CP Unit := do
  let _ ← TenantStore.upsert t (provisioning args.tier)
  tryCatch (provisionSteps t args) fun exc => do
    let _ ← TenantStore.upsert t (provisionFailed args.tier exc.text)
    throw (provisionRaise exc)

end NtierLab
