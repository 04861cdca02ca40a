import NtierLab.ControlPlane.Onboard

/-!
# The AWS identity of a tenant

A secret in Secrets Manager and a role assumed through the identity provider, both
named after the tenant (`secretName`, `roleName`), created idempotently
(`ensureTenantIdentity`) and deleted idempotently (`deleteTenantIrsa`,
`deleteTenantSecret`). The identities owned by OpenTofu and those recorded in the
registry are merged into the maps the onboarding is given (`mergeIdentityMaps`).
-/

namespace NtierLab

open Prog

/-- The name of the secret of a tenant. -/
def secretName (outputs : Outputs) (t : TenantId) : String :=
  outputs.prefix_ ++ "/rds/tenant-" ++ t.val

/-- The name of the role of a tenant. -/
def roleName (outputs : Outputs) (t : TenantId) : String := outputs.prefix_ ++ "-tenant-" ++ t.val

/-- The name of the inline policy of that role. -/
def rolePolicyName (outputs : Outputs) (t : TenantId) : String :=
  outputs.prefix_ ++ "-tenant-" ++ t.val ++ "-secrets"

/-- A call of AWS. -/
def aws (c : AwsCall) : CP c.Resp := .call (.aws c) .ret

def describeSecret (name : String) : CP SecretDescription :=
  .call (.aws (.describeSecret name)) result

def deleteSecret (name : String) (days : ℕ) : CP Unit :=
  .call (.aws (.deleteSecret name days)) result

def createSecret (name : String) (payload : SecretPayload) : CP String :=
  .call (.aws (.createSecret name payload)) result

/-- Catching the errors answered by AWS, by their code. -/
def exceptClientError {α : Type} (p : CP α) (h : String → Exn → CP α) : CP α :=
  tryCatch p fun
    | .clientError code message text => h code (.clientError code message text)
    | exc => throw exc

/-- The control plane's exception for an error answered by AWS. -/
def raiseAws : Exn → Exn
  | .clientError code message text =>
    classifyAwsError (orElse code "Unknown") (orElse message text)
  | exc => exc

/-- The rounds of waiting until a deleted secret is gone. -/
def pollDeleted (name : String) : ℕ → CP Unit
  | 0 => pure ()
  | n + 1 => do
    let gone ← exceptClientError ((fun _ => false) <$> describeSecret name) fun code exc =>
      if code = "ResourceNotFoundException" then pure true else throw exc
    if gone then pure () else pollDeleted name n

/-- The secret of a tenant, created unless it exists; one pending deletion is deleted first. -/
def ensureSecret (name : String) (payload : SecretPayload) : CP String :=
  exceptClientError
    (do
      let desc ← describeSecret name
      if desc.deletedDate then
        exceptClientError (deleteSecret name 0) fun _ _ => pure ()
        let n ← rounds 120
        pollDeleted name n
        createSecret name payload
      else return desc.arn)
    fun code exc =>
      if code ≠ "ResourceNotFoundException" then throw exc else createSecret name payload

/-- The role of a tenant, with its trust: updated if it exists, created otherwise. -/
def ensureRole (name : String) (trust : Trust) : CP String :=
  exceptClientError
    (do
      let arn ← .call (.aws (.getRole name)) result
      let () ← .call (.aws (.updateAssumeRolePolicy name trust)) result
      return arn)
    fun code exc =>
      if code ≠ "NoSuchEntity" then throw exc
      else .call (.aws (.createRole name trust)) result

/-- One round of creating the identity of a tenant. -/
def ensureTenantIdentityOnce (outputs : Outputs) (t : TenantId) : CP Identity := do
  if outputs.rdsHost = "" then throw (.onboardError "tofu output rds_host is empty")
  if outputs.oidcProviderArn = "" ∨ outputs.oidcProviderUrl = "" then
    throw (.onboardError "tofu outputs oidc_provider_arn / oidc_provider_url required for IRSA")
  let _account ← .call (.aws .callerIdentity) result
  let password ← .call (.host .password) .ret
  let secretArn ← ensureSecret (secretName outputs t)
    ⟨t.role, password, outputs.rdsHost, 5432, "postgres", t⟩
  let roleArn ← ensureRole (roleName outputs t)
    ⟨outputs.oidcProviderArn, outputs.oidcProviderUrl,
      "system:serviceaccount:" ++ t.ns ++ ":test-app", "sts.amazonaws.com"⟩
  let () ← .call (.aws (.putRolePolicy (roleName outputs t) (rolePolicyName outputs t) secretArn))
    result
  return ⟨some "control_plane", some (secretName outputs t), some roleArn⟩

def ensureTenantIdentity (outputs : Outputs) (t : TenantId) : CP Identity :=
  withRetry (exceptClientError (ensureTenantIdentityOnce outputs t) fun _ exc =>
    throw (raiseAws exc)) 5

/-- The part of a text after its last slash, `rsplit("/", 1)[-1]`. -/
def afterLastSlash (s : String) : String :=
  String.ofList (s.toList.reverse.takeWhile (· ≠ '/')).reverse

/-- The role an ARN names, if it is one. -/
def arnRole (arn : Option String) (default : String) : String :=
  match arn with
  | some arn => if "arn:".toList <+: arn.toList then afterLastSlash arn else default
  | none => default

/-- A call that is fine with an object already gone. -/
def unlessGone (p : CP Unit) (gone : List String) : CP Unit :=
  exceptClientError p fun code exc => if code ∉ gone then throw (raiseAws exc) else pure ()

/-- A call of AWS is done: it succeeded, or the object was gone. -/
def goneBy (gone : List String) : Except Exn Unit → Bool
  | .ok _ => true
  | .error (.clientError code _ _) => code ∈ gone
  | .error _ => false

@[simp] theorem goneBy_ok (gone : List String) (a : Unit) : goneBy gone (.ok a) = true := rfl

@[simp] theorem goneBy_other (gone : List String) (text : String) :
    goneBy gone (.error (.other text)) = false := rfl

/-- A call that is fine with an object gone returns when it is done, and raises otherwise. -/
@[simp] theorem wp_unlessGone {V : Type} {K : Contract cpSig V} {Q : Except Exn Unit → V → Prop}
    {v : V} (p : CP Unit) (gone : List String) :
    (unlessGone p gone).wp K Q v ↔ p.wp K (fun x v' => if goneBy gone x then Q (.ok ()) v'
      else ∀ e, x = .error e → Q (.error (raiseAws e)) v') v := by
  have hQ : (outcome (fun a => Q (.ok a)) fun e v' => Prog.wp K (match e with
        | .clientError code m text => if code ∉ gone then throw (raiseAws (.clientError code m text))
            else pure ()
        | exc => throw exc : CP Unit) Q v') =
      fun x v' => if goneBy gone x then Q (.ok ()) v'
        else ∀ e, x = .error e → Q (.error (raiseAws e)) v' := by
    funext x v'
    rcases x with (_ | _ | ⟨code, _, _⟩ | _ | _) | _
    case error.clientError => by_cases h : code ∈ gone <;> simp [goneBy, h]
    all_goals simp [goneBy, raiseAws]
  rw [unlessGone, exceptClientError, wp_tryCatch, ← hQ]

/-- Deletes the role of a tenant; fine if already gone. -/
def deleteTenantIrsa (outputs : Outputs) (t : TenantId) (roleArn : Option String) : CP Unit := do
  let role := arnRole roleArn (roleName outputs t)
  unlessGone (.call (.aws (.deleteRolePolicy role (rolePolicyName outputs t))) result)
    ["NoSuchEntity"]
  unlessGone (.call (.aws (.deleteRole role)) result) ["NoSuchEntity"]

/-- The secret a registry row names, or else the one named after the tenant. -/
def rowSecret (outputs : Outputs) (t : TenantId) (name : Option String) : String :=
  if truthy name then name.getD "" else secretName outputs t

/-- Deletes the secret of a tenant; fine if already gone. -/
def deleteTenantSecret (outputs : Outputs) (t : TenantId) (name : Option String) : CP Unit :=
  unlessGone (do
      let days ← secretRecoveryWindowDays
      deleteSecret (rowSecret outputs t name) days)
    ["ResourceNotFoundException", "InvalidRequestException"]

/-! ## Identity maps -/

/-- The row records an identity owned by the control plane. -/
def Row.ownsIdentity (row : Row) : Bool :=
  row.ownedBy = some "control_plane" && truthy row.secretName && truthy row.irsaRoleArn

/-- The identities recorded in the registry. -/
def cpIdentities (rows : List (TenantId × Row)) : TidMap Identity :=
  Std.ExtTreeMap.ofList (rows.filterMap fun p =>
    if p.2.ownsIdentity then some (p.1, p.2.identity) else none) compare

/-- The ids and the identity maps of the tenants. -/
structure IdentityMaps where
  ids : List TenantId
  irsa : TidMap String
  secrets : TidMap String

namespace IdentityMaps

/-- A map with an entry, unless its value is missing. -/
def put (m : TidMap String) (t : TenantId) (value : Option String) : TidMap String :=
  if truthy value then m.insert t (value.getD "") else m

/-- The maps with the identity of one more tenant. -/
def add (m : IdentityMaps) (p : TenantId × Identity) : IdentityMaps where
  ids := if p.1 ∈ m.ids then m.ids else m.ids ++ [p.1]
  irsa := put m.irsa p.1 p.2.irsaRoleArn
  secrets := put m.secrets p.1 p.2.secretName

end IdentityMaps

/-- The maps of OpenTofu with the identities owned by the control plane. -/
def mergeIdentityMaps (outputs : Outputs) (extra : TidMap Identity) : IdentityMaps :=
  extra.toList.foldl .add
    ⟨outputs.tenantIds, outputs.tenantIrsaRoleArns, outputs.tenantSecretNames⟩

end NtierLab
