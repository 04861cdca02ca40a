import NtierLab.ControlPlane.Provision

/-!
# The processes of the parts

Where the processes run that the parts of an operation start (`Shell.place`): those of an
onboarding and of a teardown in the namespace of their tenant, those of the drop of a role in
the namespace of the platform tenant, the guardrails in none. The parts run no other command
but readings (`Acts`).

* `onboard_acts`, `dropPostgresRole_acts`, ...: a part only starts processes of a set, if the set
  has the processes of the namespaces it runs them in.
-/

namespace NtierLab

open Prog

/-- The tenant in whose namespace a process runs, or whose namespace it is about. -/
def Shell.place : Shell → Option TenantId
  | scale t _ | deleteIngress t | rolloutStatus t | helmUninstall t | getNs t | deleteNs t | applyNs t
  | labelNs t | deleteMigrateJob t | waitMigrateJob t => some t
  | applyMigratorSa t _ | createDropConfigMap t _ | dropJobLogs t _ | deleteDropJob t _
  | deleteDropConfigMap t _ => some t
  | helmUpgrade v => some v.tenant
  | applyDropJob m => some m.platform
  | guardrails _ => none

/-- The tenant whose objects, of those the observer reads, a process changes. -/
def Shell.touches : Shell → Option TenantId
  | scale t _ | deleteIngress t | helmUninstall t | deleteNs t | applyNs t => some t
  | helmUpgrade v => some v.tenant
  | _ => none

/-- The objects of a tenant are in its namespace. -/
theorem Shell.place_of_touches {c : Shell} {t : TenantId} (h : c.touches = some t) :
    c.place = some t := by
  cases c <;> first | exact h | cases h

/-- The command writes no row, is none of the API nor of AWS, and no apply of OpenTofu; a process is
    one of `S`. -/
def Acts (S : Shell → Prop) : Cmd → Prop
  | .reg (.upsert _ _ _) | .reg (.delete _) | .app _ | .aws _ | .host (.tofuApply _) => False
  | .shell c => S c
  | _ => True

section Acts

variable {S : Shell → Prop} {t : TenantId} {outputs : Outputs}

/-- A process run acts where it does. -/
theorem run_acts {c : Shell} (hc : S c) : (run c).Calls (Acts S) :=
  calls_iff.2 (by simp only [run, Acts, wp_call]; exact ⟨hc, by simp⟩)

theorem runOk_acts {c : Shell} (hc : S c) : (runOk c).Calls (Acts S) :=
  calls_iff.2 (by simp only [runOk, Acts, wp_call]; exact ⟨hc, by simp⟩)

theorem lifecycleRun_acts {c : Shell} (hc : S c) : (lifecycleRun c).Calls (Acts S) :=
  calls_iff.2 (by simp only [lifecycleRun, Acts, wp_call]; exact ⟨hc, by simp⟩)

/-! The parts that run no process. -/

theorem getenv_acts (name : String) : (getenv name).Calls (Acts S) := ⟨trivial, fun _ => trivial⟩

theorem tofuOutputs_acts : tofuOutputs.Calls (Acts S) := ⟨trivial, fun r => calls_result r⟩

theorem list_acts : TenantStore.list.Calls (Acts S) := ⟨trivial, fun _ => trivial⟩

theorem get_acts (u : TenantId) : (TenantStore.get u).Calls (Acts S) := ⟨trivial, fun _ => trivial⟩

theorem nodeIp_acts : nodeIp.Calls (Acts S) :=
  calls_iff.2 (by simp [nodeIp, getenv, nodeAddress, Acts])

theorem require_acts (key value : String) : (require key value).Calls (Acts S) :=
  .ite (fun _ => trivial) fun _ => trivial

/-- Waiting for an Ingress only asks for it. -/
theorem pollIngressHostname_acts (u : TenantId) (n : ℕ) :
    (pollIngressHostname u n).Calls (Acts S) := by
  induction n with
  | zero => trivial
  | succ n ih =>
    refine .bind ⟨trivial, fun r => calls_result r⟩ fun host => ?_
    exact .ite (fun _ => trivial) fun _ => ih

/-- So does the URL of the edge. -/
theorem edgeUrl_acts (u : TenantId) (timeout : ℕ) : (edgeUrl outputs u timeout).Calls (Acts S) := by
  refine .ite (fun _ => ?_) fun _ => trivial
  refine .bind (.bind ⟨trivial, fun _ => trivial⟩ fun n => pollIngressHostname_acts u n) fun _ => ?_
  exact ⟨trivial, fun r => calls_result r⟩

/-! The parts whose processes run in the namespace of a tenant. -/

/-- The values of the edge need the guardrails only, which are in no tenant's namespace. -/
theorem edgeSets_acts (hS : ∀ c : Shell, c.place = none → S c) (u : TenantId) (ip : String)
    (ids : List TenantId) : (edgeSets u outputs ip ids).Calls (Acts S) := by
  refine .ite (fun _ => ?_) fun _ => .ite (fun _ => trivial) fun _ => ?_
  · refine .bind (run_acts (hS _ rfl)) fun _ => .ite (fun _ => trivial) fun _ => ?_
    exact .bind (getenv_acts _) fun _ => trivial
  · cases outputs.tenantNodePorts[u]? <;> trivial

/-- The migration is run again in the namespace of its tenant. -/
theorem refreshMigrate_acts (hS : ∀ c : Shell, c.place = some t → S c) (secrets : TidMap String) :
    (refreshMigrate t outputs secrets).Calls (Acts S) :=
  .bind (run_acts (hS _ rfl)) fun _ => .bind (require_acts _ _) fun _ =>
    .bind (require_acts _ _) fun _ => trivial

/-- The processes of an onboarding run in the namespace of its tenant, but for the guardrails. -/
theorem onboard_acts (hnone : ∀ c : Shell, c.place = none → S c)
    (hself : ∀ c : Shell, c.place = some t → S c) (ip : String) (ids : List TenantId)
    (irsaRoles secrets : TidMap String) :
    (onboard t outputs ip ids irsaRoles secrets).Calls (Acts S) := by
  unfold onboard
  split
  · refine .bind (.ite (fun _ => trivial) fun _ => getenv_acts _) fun region => ?_
    refine .bind (require_acts _ _) fun host => .bind (edgeSets_acts hnone _ _ _) fun edge => ?_
    refine .bind ⟨trivial, fun r => calls_result r⟩ fun _ => ?_
    refine .bind (run_acts (hself _ rfl)) fun _ => .bind (run_acts (hself _ rfl)) fun _ => ?_
    refine .bind (.ite (fun _ => .map _ (refreshMigrate_acts hself _)) fun _ => trivial) fun _ => ?_
    refine .bind (run_acts (hself _ rfl)) fun _ => ?_
    exact .ite (fun _ => run_acts (hself _ rfl)) fun _ => trivial
  · trivial

/-- Polling the drop-role Job acts in the namespace of the platform tenant. -/
theorem pollDropJob_acts {platform : TenantId}
    (hS : ∀ c : Shell, c.place = some platform → c.touches = none → S c) (d : DropName) (n : ℕ) :
    (pollDropJob platform d n).Calls (Acts S) := by
  have hlogs : (runOk (.dropJobLogs platform d)).Calls (Acts S) := runOk_acts (hS _ rfl rfl)
  induction n with
  | zero => exact .bind hlogs fun _ => trivial
  | succ n ih =>
    refine .bind ⟨trivial, fun r => calls_result r⟩ fun conds => .ite (fun _ => ?_) fun _ =>
      .ite (fun _ => ?_) fun _ => ih
    all_goals exact .bind hlogs fun _ => trivial

/-- The processes of the drop of a role run in the namespace of the platform tenant, and touch none
    of the objects of its release. -/
theorem dropPostgresRole_acts (hS : ∀ c : Shell,
      c.place = some (outputs.platformTenantId.getD .a) → c.touches = none → S c) (u : TenantId) :
    (dropPostgresRole outputs u).Calls (Acts S) := by
  refine .bind (.ite (fun _ => trivial) fun _ => run_acts (hS _ rfl rfl)) fun _ =>
    .ite (fun _ => trivial) fun _ => ?_
  dsimp only
  refine .bind ⟨trivial, fun _ => trivial⟩ fun suffix => .bind (run_acts (hS _ rfl rfl)) fun _ => ?_
  refine .bind (run_acts (hS _ rfl rfl)) fun _ => .bind ⟨trivial, fun _ => trivial⟩ fun n => ?_
  exact (pollDropJob_acts hS _ _).ensuring (.bind (runOk_acts (hS _ rfl rfl)) fun _ =>
    .bind (runOk_acts (hS _ rfl rfl)) fun _ => trivial)

/-- So do the attempts to revoke a role. -/
theorem revokeAttempts_acts (hS : ∀ c : Shell,
      c.place = some (outputs.platformTenantId.getD .a) → c.touches = none → S c) (u : TenantId)
    (last : String) (n : ℕ) : (revokeAttempts outputs u last n).Calls (Acts S) := by
  induction n generalizing last with
  | zero => trivial
  | succ n ih => exact (dropPostgresRole_acts hS u).tryCatch fun e => ih e.text

/-- Disabling access acts in the namespace of its tenant. -/
theorem disableApplicationAccess_acts (hS : ∀ c : Shell, c.place = some t → S c) :
    (disableApplicationAccess t).Calls (Acts S) :=
  .bind (runOk_acts (hS _ rfl)) fun _ => .bind (runOk_acts (hS _ rfl)) fun _ => trivial

/-- So does deleting the release and the namespace. -/
theorem deleteKubernetes_acts (hS : ∀ c : Shell, c.place = some t → S c) :
    (deleteKubernetes t).Calls (Acts S) :=
  .bind (runOk_acts (hS _ rfl)) fun _ => .bind (runOk_acts (hS _ rfl)) fun _ =>
    .ite (fun _ => lifecycleRun_acts (hS _ rfl)) fun _ => trivial

end Acts

end NtierLab
