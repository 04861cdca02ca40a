import NtierLab.ControlPlane.PgAdmin

/-!
# The lifecycle of a tenant

Suspending, resuming and deleting a tenant (`control-plane/lifecycle.py`), without
recreating the environment.

* `suspendTenant`, `resumeTenant`: guarded by the status recorded;
* `deleteTenant`: the teardown, in stages that the registry records as they are
  completed (`teardown`), with a handler that records the failure of any of them.
-/

namespace NtierLab

open Prog

/-- The message of a tenant without a row. -/
def notFound (t : TenantId) : Exn := .onboardError s!"tenant {pyRepr t.val} not found"

def suspendTenant (t : TenantId) : CP Row := do
  match ← TenantStore.get t with
  | none => throw (notFound t)
  | some item =>
    if item.status = .suspended then return item
    if item.status ∉ [Status.active, .failed, .drift] then
      throw (.onboardError s!"cannot suspend from status {item.status.text}")
    lifecycleRun (.scale t 0)
    let _ ← runOk (.deleteIngress t)
    TenantStore.upsert t
      { desiredStatus := Fields.desire .suspended, status := some .suspended, error := some none }

/-- The endpoint of a tenant behind an edge, unless the edge is unknown. -/
def endpointOf (alb : String) (t : TenantId) (default : Option String) : Option String :=
  if alb = "" then default else some (alb ++ "/tenant-" ++ t.val)

/-- The path prefix of a tenant. -/
def pathPrefixOf (t : TenantId) : Option String := some ("/tenant-" ++ t.val)

/-- Python's `rstrip("/")`. -/
def rstripSlash (s : String) : String :=
  String.ofList (s.toList.reverse.dropWhile (· = '/')).reverse

/-- The URL of the edge: the address of the tenant's Ingress, awaited, or the one of the
    outputs. -/
def edgeUrl (outputs : Outputs) (t : TenantId) (timeout : ℕ) : CP String := do
  if outputs.albController then
    let host ← waitIngressHostname t timeout
    writeAlbUrl host
  else return rstripSlash outputs.albUrl

def resumeTenant (t : TenantId) : CP Row := do
  match ← TenantStore.get t with
  | none => throw (notFound t)
  | some item =>
    if item.status = .active then return item
    if item.status ≠ .suspended then
      throw (.onboardError s!"cannot resume from status {item.status.text}")
    let outputs ← tofuOutputs
    let rows ← TenantStore.list
    let maps := mergeIdentityMaps outputs (cpIdentities rows)
    if t ∉ maps.irsa ∨ t ∉ maps.secrets then
      throw (.onboardError s!"tenant {pyRepr t.val} missing identity maps; cannot resume")
    let ip ← nodeIp
    onboard t outputs ip maps.ids maps.irsa maps.secrets
    lifecycleRun (.scale t 1)
    lifecycleRun (.rolloutStatus t)
    let alb ← edgeUrl outputs t 300
    TenantStore.upsert t
      { desiredStatus := Fields.desire .active, status := some .active,
        endpoint := some (endpointOf alb t item.endpoint), pathPrefix := some (pathPrefixOf t),
        error := some none }

/-- Cuts the product path first, so that the tenant cannot use its credentials during the
    teardown. -/
def disableApplicationAccess (t : TenantId) : CP Unit := do
  let _ ← runOk (.scale t 0)
  let _ ← runOk (.deleteIngress t)

/-- The attempts left at dropping the role, after the last one failed. -/
def revokeAttempts (outputs : Outputs) (t : TenantId) (last : String) : ℕ → CP Unit
  | 0 => throw (.onboardError s!"postgres role revoke failed after 3 attempts: {last}")
  | n + 1 => tryCatch (dropPostgresRole outputs t) fun exc =>
      revokeAttempts outputs t exc.text n

/-- Fails closed: the teardown does not continue with the role in place. -/
def revokePostgresRole (outputs : Outputs) (t : TenantId) : CP Unit :=
  revokeAttempts outputs t "None" 3

/-- Removes the workload. A missing release or namespace is fine, a live namespace must go. -/
def deleteKubernetes (t : TenantId) : CP Unit := do
  let _ ← runOk (.helmUninstall t)
  let present ← runOk (.getNs t)
  if present then lifecycleRun (.deleteNs t)

/-- The row of a teardown that completed a step. -/
def recordStep (t : TenantId) (step : String) : CP Unit := do
  let _ ← TenantStore.upsert t
    { status := some .deleting, deleteStep := some (some step), error := some none }

/-- The identity of the tenant, torn down if the control plane owns it. -/
def deleteIdentity (outputs : Outputs) (t : TenantId) (item : Identity) : CP Unit := do
  if item.ownedBy = some "control_plane" then
    deleteTenantIrsa outputs t item.irsaRoleArn
    recordStep t "iam_deleted"
    deleteTenantSecret outputs t item.secretName
    recordStep t "secret_deleted"

/-- The stages of a teardown: access, database role, workload, identity, row. -/
def teardown (t : TenantId) (item : Identity) : CP Unit := do
  disableApplicationAccess t
  recordStep t "access_disabled"
  let outputs ← tofuOutputs
  revokePostgresRole outputs t
  recordStep t "db_revoked"
  deleteKubernetes t
  recordStep t "k8s_deleted"
  deleteIdentity outputs t item
  let _ ← TenantStore.delete t

/-- The row of a failed teardown. -/
def deleteFailed (text : String) : Fields :=
  { desiredStatus := Fields.desire .gone, status := some .deleteFailed, error := some (some text) }

/-- Fails closed, and is safe to retry. -/
def deleteTenant (t : TenantId) : CP Unit := do
  let item ← TenantStore.get t
  let _ ← TenantStore.upsert t
    { desiredStatus := Fields.desire .gone, status := some .deleting, error := some none,
      deleteStep := some (some "started") }
  tryCatch (teardown t (item.elim ⟨none, none, none⟩ Row.identity)) fun exc => do
    let _ ← TenantStore.upsert t (deleteFailed exc.text)
    throw exc

end NtierLab
