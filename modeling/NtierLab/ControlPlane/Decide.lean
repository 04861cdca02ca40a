import NtierLab.ControlPlane.Store

/-!
# Observing and deciding

What the observer sees of a tenant (`Observed`), the gate a registry row passes
before it is ACTIVE (`validateActiveContract`), and the action that brings the
actual state to the desired one (`planAction`). Pure decisions, without commands.
-/

namespace NtierLab

/-- Python's `json.dumps` of a truth value. -/
def jsonBool (b : Bool) : String := if b then "true" else "false"

/-- The infrastructure of a tenant, as observed. -/
structure Observed where
  namespace_ : Bool := false
  deployReady : Bool := false
  replicas : ℤ := 0
  ingress : Bool := false
  service : Bool := false
  networkPolicy : Bool := false
  resourceQuota : Bool := false
  irsaSa : Bool := false
  secret : Option Bool := none
  irsa : Option Bool := none
  deriving DecidableEq

namespace Observed

variable (o : Observed)

/-- The infrastructure looks like a live product edge. -/
def matchesActive : Bool :=
  o.namespace_ && o.deployReady && decide (1 ≤ o.replicas) && o.ingress && o.service &&
    o.networkPolicy && o.resourceQuota && o.irsaSa

/-- The objects are those of a suspended tenant. -/
def matchesSuspended : Bool := o.namespace_ && decide (o.replicas = 0) && !o.ingress

/-- The namespace is gone. -/
def matchesGone : Bool := !o.namespace_

/-- `json.dumps(asdict(self), sort_keys=True)`. -/
def asJson : String :=
  "\x7b" ++ ", ".intercalate [
    "\"deploy_ready\": " ++ jsonBool o.deployReady,
    "\"ingress\": " ++ jsonBool o.ingress,
    "\"irsa\": " ++ o.irsa.elim "null" jsonBool,
    "\"irsa_sa\": " ++ jsonBool o.irsaSa,
    "\"namespace\": " ++ jsonBool o.namespace_,
    "\"network_policy\": " ++ jsonBool o.networkPolicy,
    "\"replicas\": " ++ toString o.replicas,
    "\"resource_quota\": " ++ jsonBool o.resourceQuota,
    "\"secret\": " ++ o.secret.elim "null" jsonBool,
    "\"service\": " ++ jsonBool o.service] ++ "\x7d"

end Observed

/-- The outcome of the contract gate. -/
structure ContractResult where
  ok : Bool
  reason : String
  deriving DecidableEq

/-- The parts of an observation that keep it from being active. -/
def missingParts (o : Observed) : List String :=
  (if o.namespace_ then [] else ["namespace"]) ++
  (if !o.deployReady || decide (o.replicas < 1) then ["ready_workload"] else []) ++
  (if o.ingress then [] else ["ingress"]) ++
  (if o.service then [] else ["service"]) ++
  (if o.networkPolicy then [] else ["network_policy"]) ++
  (if o.resourceQuota then [] else ["resource_quota"]) ++
  (if o.irsaSa then [] else ["irsa_serviceaccount"])

/-- Gate registry ACTIVE after infrastructure looks up, failing closed. -/
def validateActiveContract (observed : Observed) (item : Identity) : ContractResult :=
  if !observed.matchesActive then
    let missing := ",".intercalate (missingParts observed)
    ⟨false, "infra incomplete: " ++ if missing = "" then "unknown" else missing⟩
  else if item.ownedBy = some "control_plane" && !truthy item.secretName then
    ⟨false, "registry missing secret_name"⟩
  else if item.ownedBy = some "control_plane" && !truthy item.irsaRoleArn then
    ⟨false, "registry missing irsa_role_arn"⟩
  else ⟨true, "infra + registry identity present; full isolation proof is tests/"⟩

/-- A row owned by the control plane points to its secret and its role. -/
def Identity.Complete (item : Identity) : Prop :=
  item.ownedBy = some "control_plane" → truthy item.secretName ∧ truthy item.irsaRoleArn

instance (item : Identity) : Decidable item.Complete := inferInstanceAs (Decidable (_ → _))

/-- The gate is passed exactly by an active observation of a tenant with a complete identity. -/
theorem validateActiveContract_ok (observed : Observed) (item : Identity) :
    (validateActiveContract observed item).ok = true ↔
      observed.matchesActive = true ∧ item.Complete := by
  unfold validateActiveContract Identity.Complete
  split_ifs <;> simp_all

/-- The actions of a plan. -/
inductive Action
  | none
  | provision
  | repair
  | suspend
  | resume
  | delete
  | purgeRegistry
  deriving DecidableEq

/-- What to run, and why. -/
structure Plan where
  action : Action
  reason : String
  deriving DecidableEq

/-- What to run given desired against actual. -/
def planAction (desired : Desired) (observed : Observed) (status : Status) : Plan :=
  match desired with
  | .gone =>
    if observed.matchesGone then ⟨.purgeRegistry, "desired GONE and namespace absent"⟩
    else ⟨.delete, "desired GONE"⟩
  | .suspended =>
    if observed.matchesSuspended then ⟨.none, "already suspended"⟩
    else ⟨.suspend, "desired SUSPENDED but workload or Ingress still up"⟩
  | .active =>
    if observed.matchesActive then ⟨.none, "infrastructure looks active; contract check next"⟩
    else if !observed.namespace_ then ⟨.provision, "desired ACTIVE but namespace missing"⟩
    else if status = .suspended then ⟨.resume, "SUSPENDED namespace present; resume workload"⟩
    else
      let value := if status.text = "" then "unknown" else status.text
      ⟨.repair, s!"namespace present but not fully ACTIVE (status={value}); reprovision"⟩

/-- The plan of a tenant desired ACTIVE: none, or an action towards ACTIVE. -/
theorem planAction_active (observed : Observed) (status : Status) :
    (planAction .active observed status).action = .none ∨
      (planAction .active observed status).action ∈ [Action.provision, .resume, .repair] := by
  simp only [planAction]
  split_ifs <;> simp

/-- The plan of a tenant not desired ACTIVE. -/
theorem planAction_ne_active {desired : Desired} (hd : desired ≠ .active) (observed : Observed)
    (status : Status) : (planAction desired observed status).action ∈
      [Action.none, .suspend, .delete, .purgeRegistry] := by
  cases desired with
  | active => exact absurd rfl hd
  | suspended => simp only [planAction]; split_ifs <;> simp
  | gone => simp only [planAction]; split_ifs <;> simp

end NtierLab
