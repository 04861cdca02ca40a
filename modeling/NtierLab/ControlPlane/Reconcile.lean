import NtierLab.ControlPlane.Provision

/-!
# Reconciling

The reconciler (`control-plane/reconcile.py`): it observes a tenant, records what it
saw, plans an action from the desired status and runs it; a tenant brought towards
ACTIVE is observed again and passes the contract gate, or drifts.

* `kubectlObserver`: the observer that asks the cluster;
* `reconcileOne`: one tenant, with the observer and the actuators as parameters
  (`Actuators`, of which `actuators` are the real ones);
* `reconcileAll`: every tenant of the registry.
-/

namespace NtierLab

open Prog

/-- An object of the namespace of a tenant, if it is there. -/
def kubectlJson (t : TenantId) (o : KubeObject) : CP (Option KubeJson) :=
  .call (.kube (.get t o)) fun
    | .ok (.json j) => pure (some j)
    | .ok _ => pure none
    | .error e => throw e

/-- Does not invent ACTIVE from the namespace alone. -/
def kubectlObserver (t : TenantId) : CP Observed := do
  match ← kubectlJson t .ns with
  | none => return {}
  | some _ =>
    let deploy ← kubectlJson t .deploy
    let replicas := (deploy.map (·.specReplicas)).getD 0
    let ready := deploy.any fun j => decide (1 ≤ j.specReplicas ∧ 1 ≤ j.readyReplicas)
    let ingress ← kubectlJson t .ingress
    let service ← kubectlJson t .service
    let networkPolicy ← kubectlJson t .networkPolicy
    let resourceQuota ← kubectlJson t .resourceQuota
    let sa ← kubectlJson t .serviceAccount
    return {
      namespace_ := true
      deployReady := ready
      replicas
      ingress := ingress.isSome
      service := service.isSome
      networkPolicy := networkPolicy.isSome
      resourceQuota := resourceQuota.isSome
      irsaSa := sa.any fun j => j.roleArn ≠ "" }

/-- What the reconciler runs to act on a tenant. -/
structure Actuators where
  provisionFn : TenantId → ProvisionArgs → CP Unit
  suspendFn : TenantId → CP Row
  resumeFn : TenantId → CP Row
  deleteFn : TenantId → CP Unit

/-- The actuators of the control plane. -/
def actuators : Actuators := ⟨provision, suspendTenant, resumeTenant, deleteTenant⟩

/-- What a reconciliation returns: the row, or that the tenant is gone, with the reason of
    the plan. -/
structure Reconciled where
  item : Option Row
  reason : String
  deriving DecidableEq

/-- The fields of an observation recorded, with a status and an error. -/
def observedFields (o : Observed) (status : Status) (error : Option String) : Fields :=
  { status := some status, error := some error, observedJson := some (some o.asJson) }

/-- An observation recorded, with a status and an error. -/
def recordObserved (t : TenantId) (o : Observed) (status : Status) (error : Option String) :
    CP Row :=
  TenantStore.upsert t (observedFields o status error)

/-- An observation recorded, with the status and the error of the contract gate. -/
def recordGated (t : TenantId) (o : Observed) (item : Identity) : CP Row :=
  let check := validateActiveContract o item
  if check.ok then recordObserved t o .active none
  else recordObserved t o .drift (some check.reason)

/-- The status of a tenant after a failed action. -/
def failedStatus (desired : Desired) (e : ControlPlaneError) : Status :=
  if desired = .gone then .deleteFailed else if e.kind.retryable then .drift else .failed

/-- Runs the action of a plan; whether the tenant is found gone. -/
def act (acts : Actuators) (t : TenantId) (tier : String) (action : Action) : CP Bool := do
  match action with
  | .provision | .repair => acts.provisionFn t { tier }; return false
  | .suspend => let _ ← acts.suspendFn t; return false
  | .resume => let _ ← acts.resumeFn t; return false
  | .delete =>
    acts.deleteFn t
    let gone ← TenantStore.get t
    return gone.isNone
  | _ => return false

/-- Catching the errors of the control plane's own hierarchy. -/
def exceptControlPlane {α : Type} (p : CP α) (h : ControlPlaneError → CP α) : CP α :=
  tryCatch p fun
    | .controlPlane e => h e
    | exc => throw exc

/-- The action of a plan, its failure recorded. -/
def runPlan (acts : Actuators) (t : TenantId) (desired : Desired) (tier : String)
    (action : Action) : CP Bool :=
  exceptControlPlane (act acts t tier action) fun exc => do
    let _ ← TenantStore.upsert t
      { desiredStatus := Fields.desire desired, status := some (failedStatus desired exc),
        error := some (some exc.message) }
    throw (.controlPlane exc)

/-- After an action towards ACTIVE: the tenant observed again, and gated. The status the
    action left is not trusted. -/
def regate (observer : TenantId → CP Observed) (t : TenantId) (item : Option Row) :
    CP (Option Row) := do
  let again ← TenantStore.get t
  let observed ← observer t
  some <$> recordGated t observed (((again <|> item).map Row.identity).getD ⟨none, none, none⟩)

/-- The action towards ACTIVE. -/
def Action.towardsActive : Action → Bool
  | .provision | .repair | .resume => true
  | _ => false

/-- Nothing to do: what was seen is recorded. -/
def settle (t : TenantId) (item : Row) (observed : Observed) : CP (Option Row) := do
  if item.desiredStatus = .gone then
    let _ ← TenantStore.delete t
    return none
  if item.desiredStatus = .suspended then
    some <$> recordObserved t observed .suspended none
  else some <$> recordGated t observed item.identity

/-- The action of a plan, then what became of the tenant. -/
def carryOut (observer : TenantId → CP Observed) (acts : Actuators) (t : TenantId) (item : Row)
    (action : Action) : CP (Option Row) := do
  let tier := if truthy item.tier then item.tier.getD "" else "standard"
  let gone ← runPlan acts t item.desiredStatus tier action
  if gone then return none
  let again ← TenantStore.get t
  if item.desiredStatus = .active ∧ action.towardsActive then regate observer t again
  else return again

/-- What is done on the action planned. -/
def follow (observer : TenantId → CP Observed) (acts : Actuators) (t : TenantId) (item : Row)
    (observed : Observed) : Action → CP (Option Row)
  | .none => settle t item observed
  | .purgeRegistry => do
    let _ ← TenantStore.delete t
    return none
  | action => carryOut observer acts t item action

def reconcileOne (observer : TenantId → CP Observed) (acts : Actuators) (t : TenantId) :
    CP Reconciled := do
  match ← TenantStore.get t with
  | none => throw (.validationError s!"tenant {pyRepr t.val} not in registry")
  | some item =>
    let observed ← observer t
    let decision := planAction item.desiredStatus observed item.status
    let _ ← TenantStore.upsert t { observedJson := some (some observed.asJson) }
    let row ← follow observer acts t item observed decision.action
    return ⟨row, decision.reason⟩

/-- The namespaces of tenants that are not in the registry, reported but not made ACTIVE. -/
def listUnmanagedNamespaces : CP (List String) := do
  let rows ← TenantStore.list
  let names : List String ← .call (.kube .nsNames) .ret
  return names.filter fun n =>
    "tenant-".toList <+: n.toList ∧ n ∉ rows.map fun p => p.1.ns

/-- What reconciling every tenant reports of one: the outcome, or the error. -/
abbrev Result := TenantId × (Reconciled ⊕ ControlPlaneError)

/-- Reconciles the rows listed, one after the other; an error of one is recorded. -/
def reconcileRows (observer : TenantId → CP Observed) (acts : Actuators) :
    List (TenantId × Row) → CP (List Result)
  | [] => return []
  | (t, item) :: rows => do
    let result ← exceptControlPlane (Sum.inl <$> reconcileOne observer acts t) fun exc => do
      let _ ← TenantStore.upsert t
        { status := some (if exc.kind.retryable then item.status else .drift),
          error := some (some exc.message) }
      return .inr exc
    let results ← reconcileRows observer acts rows
    return (t, result) :: results

def reconcileAll (observer : TenantId → CP Observed) (acts : Actuators) :
    CP (List Result × List String) := do
  let unmanaged ← listUnmanagedNamespaces
  let rows ← TenantStore.list
  let results ← reconcileRows observer acts rows
  return (results, unmanaged)

end NtierLab
