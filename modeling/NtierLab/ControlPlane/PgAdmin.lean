import NtierLab.ControlPlane.AwsIdentity

/-!
# Dropping a Postgres role

The role of a tenant is dropped by a Job that runs, under the identity of the
migrator, in the namespace of the platform tenant (`dropPostgresRole`): it
returns only once the Job was seen complete.
-/

namespace NtierLab

open Prog

/-- The service account of the migrator, in the namespace of the platform tenant. -/
def ensureMigratorSa (outputs : Outputs) (platform : TenantId) : CP Unit := do
  if outputs.migratorIrsaRoleArn = "" then
    throw (.onboardError "tofu output migrator_irsa_role_arn is empty")
  run (.applyMigratorSa platform outputs.migratorIrsaRoleArn)

/-- A condition of a Job: of two of the same type, the last one counts. -/
def condition (conds : List (String × String)) (type : String) : Option String :=
  conds.reverse.lookup type

/-- The rounds of waiting for the drop-role Job. -/
def pollDropJob (platform : TenantId) (d : DropName) : ℕ → CP Unit
  | 0 => do
    let _ ← runOk (.dropJobLogs platform d)
    throw (.onboardError s!"drop-role job {d.job} timed out")
  | n + 1 => do
    let conds ← dropJobConditions platform d
    if condition conds "Complete" = some "True" then
      let _ ← runOk (.dropJobLogs platform d)
      return
    if condition conds "Failed" = some "True" then
      let _ ← runOk (.dropJobLogs platform d)
      throw (.onboardError s!"drop-role job {d.job} failed")
    pollDropJob platform d n

/-- The cleanup after the Job, whatever became of it. -/
def deleteDropObjects (platform : TenantId) (d : DropName) : CP Unit := do
  let _ ← runOk (.deleteDropJob platform d)
  let _ ← runOk (.deleteDropConfigMap platform d)

/-- Drops the role of a tenant in a Job in the namespace of the platform tenant, and waits for it.
    -/
def dropPostgresRole (outputs : Outputs) (t : TenantId) : CP Unit := do
  let platform := outputs.platformTenantId.getD .a
  ensureMigratorSa outputs platform
  if outputs.rdsSecretName = "" then throw (.onboardError "tofu output rds_secret_name is empty")
  let suffix ← .call (.host .suffix) .ret
  let d : DropName := ⟨t, suffix⟩
  run (.createDropConfigMap platform d)
  run (.applyDropJob ⟨platform, d, outputs.region, outputs.rdsSecretName, t.role, t.policy⟩)
  let n ← rounds 300
  (pollDropJob platform d n).ensuring (deleteDropObjects platform d)

end NtierLab
