import NtierLab.Postgres.Sql

/-!
# The scripts

The two scripts run on the database, as programs over its commands: `migrate`
(`helm/test-app/templates/configmap.yaml`), which creates the table and, for every
tenant of its map, the role and the policy, and enables row-level security last;
and `dropRole` (`control-plane/pg_admin.py`). A script ends at the first command
that fails, what it did before being committed.
-/

namespace NtierLab

open Prog

/-- The scripts. -/
abbrev Script (α : Type) := Prog sqlSig String α

namespace Script

/-- Reads a secret. -/
def load (name : String) : Script Creds := .call (.load name) result

/-- Connects to the database. -/
def connect : Script Unit := .call .connect result

/-- Whether the role is there. -/
def roleExists (role : String) : Script Bool := .call (.roleExists role) result

/-- Executes a statement. -/
def exec (s : Statement) : Script Unit := .call (.exec s) result

end Script

open Script

/-- One tenant of the map: its role, with the password of its secret, its privileges, and its
    policy, recreated. -/
def migrateTenant (p : TenantId × String) : Script Unit := do
  let creds ← load p.2
  let present ← roleExists creds.username
  if present then exec (.alterPassword creds.username creds.password)
  else exec (.createRole creds.username creds.password)
  exec (.grant .database creds.username)
  exec (.grant .schema creds.username)
  exec (.grant .table creds.username)
  exec (.grant .sequence creds.username)
  exec (.dropPolicy p.1.policy)
  exec (.createPolicy p.1.policy creds.username p.1.val)

/-- The tenants of the map, in turn. -/
def migrateTenants : List (TenantId × String) → Script Unit
  | [] => pure ()
  | p :: ps => do
    migrateTenant p
    migrateTenants ps

/-- `migrate.py`. -/
def migrate (masterSecret : String) (tenants : List (TenantId × String)) : Script Unit := do
  let _ ← load masterSecret
  connect
  exec (.ddl .createTable)
  exec (.ddl .addMessage)
  exec (.ddl .addTenantId)
  exec (.ddl .createIndex)
  migrateTenants tenants
  exec .enableRls
  exec .forceRls

/-- `_DROP_SCRIPT`. Login is disabled first, so that a failed drop still leaves a role of no
    use, and the password rotated. -/
def dropRole (masterSecret role policy : String) : Script Unit := do
  let _ ← load masterSecret
  connect
  exec (.dropPolicy policy)
  let present ← roleExists role
  if present then
    let password ← .call .randomPassword .ret
    exec (.alterNologin role)
    exec (.alterPassword role password)
    exec (.revoke .table role)
    exec (.revoke .sequence role)
    exec (.revoke .schema role)
    exec (.revoke .database role)
    exec (.dropRole role)

end NtierLab
