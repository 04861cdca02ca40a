import NtierLab.ControlPlane.Lifecycle

/-!
# Adopting

The tenants whose secret and role exist already, taken into the ownership of the
control plane (`control-plane/adopt.py`): `adoptTenants` takes the ids it is given,
or those of the secrets named after a tenant.
-/

namespace NtierLab

open Prog

/-- The ids of the secrets named after a tenant, each once and sorted. -/
def secretTenants (outputs : Outputs) (names : List String) : List String :=
  let marker := (outputs.prefix_ ++ "/rds/tenant-").toList
  let ids := names.foldl (fun ids name =>
    let tid := String.ofList (name.toList.drop marker.length)
    if marker <+: name.toList ∧ tid ≠ "" ∧ tid ∉ ids then ids ++ [tid] else ids) []
  ids.mergeSort fun a b => (compare a b).isLE

/-- What AWS answers, unless it does not have the object. -/
def orMissing {α : Type} (p : CP α) (missing : String) : CP (Option α) :=
  exceptClientError (some <$> p) fun code exc => if code = missing then pure none else throw exc

/-- The status of an adopted tenant: the one it has, or ACTIVE. -/
def adoptedStatus : Option Row → Status
  | none => .active
  | some row => if row.status.text = "" then .active else row.status

/-- The row of an adopted tenant. -/
def adopted (outputs : Outputs) (t : TenantId) (alb arn : String) (existing : Option Row) :
    Fields where
  desiredStatus := Fields.desire ((existing.map (·.desiredStatus)).getD .active)
  status := some (adoptedStatus existing)
  tier := some (some (orElse ((existing.bind (·.tier)).getD "") "standard"))
  ownedBy := some (some "control_plane")
  secretName := some (some (secretName outputs t))
  irsaRoleArn := some (some arn)
  endpoint := some (endpointOf alb t (existing.bind (·.endpoint)))
  pathPrefix := some (pathPrefixOf t)
  error := some none

/-- The tags are set if possible. -/
def tagIdentity (outputs : Outputs) (t : TenantId) : CP Unit :=
  exceptClientError
    (do
      let () ← .call (.aws (.tagSecret (secretName outputs t) t)) result
      .call (.aws (.tagRole (roleName outputs t) t)) result)
    fun _ _ => pure ()

/-- Adopts one tenant, unless its secret or its role is missing. -/
def adoptTenant (outputs : Outputs) (alb : String) (t : TenantId) : CP (Option Row) := do
  let secret ← orMissing (describeSecret (secretName outputs t)) "ResourceNotFoundException"
  if secret.isNone then return none
  match ← orMissing (.call (.aws (.getRole (roleName outputs t))) result) "NoSuchEntity" with
  | none => return none
  | some arn =>
    tagIdentity outputs t
    let existing ← TenantStore.get t
    some <$> TenantStore.upsert t (adopted outputs t alb arn existing)

/-- Adopts the tenants of the ids, skipping those that are not valid. -/
def adoptEach (outputs : Outputs) (alb : String) : List String → CP (List Row)
  | [] => return []
  | tid :: tids =>
    match validateTenantId (some tid) with
    | .error _ => adoptEach outputs alb tids
    | .ok t => do
      let item ← adoptTenant outputs alb t
      let items ← adoptEach outputs alb tids
      return item.toList ++ items

/-- The ids to adopt: those given, or else those of the secrets. -/
def adoptIds (outputs : Outputs) : List String → CP (List String)
  | [] => do
    let pages : List (List String) ← .call (.aws .listSecrets) result
    return secretTenants outputs pages.flatten
  | tids => return tids

/-- The URL of the edge adopted tenants are given. -/
def adoptUrl (outputs : Outputs) : CP String :=
  let alb := rstripSlash outputs.albUrl
  if alb ≠ "" then pure alb else .call (.host .albUrlFile) .ret

def adoptTenants (tids : List String) : CP (List Row) := do
  let outputs ← tofuOutputs
  let alb ← adoptUrl outputs
  let tids ← adoptIds outputs tids
  if tids = [] then throw (.onboardError "no tenant secrets found to adopt")
  adoptEach outputs alb tids

end NtierLab
