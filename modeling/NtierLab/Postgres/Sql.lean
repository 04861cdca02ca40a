import NtierLab.Prog.System
import NtierLab.ControlPlane.Ids

/-!
# The database

What the tenants share: one table, `sample_requests`, with its roles, privileges
and row-level-security policies (`Db`), and the commands a script issues, on it
and on Secrets Manager (`SqlCmd`). A statement commits by itself: it has its
effect, or it fails and has none (`Db.answer`).

* `Db.Access`: what a session can reach. Policies are permissive: a row is reached
  through any of those of the session's role, and through none if there is none;
  row-level security not enabled, every row is;
* `Db.Isolated`: a session only reaches the rows of its own tenant, with its own
  setting.
-/

namespace NtierLab

/-- What a role is granted: to connect to the database, to use the schema, the table, its
    sequence. -/
inductive Privilege
  | database
  | schema
  | table
  | sequence
  deriving DecidableEq

/-- A role of a tenant. -/
structure DbRole where
  login : Bool
  password : String
  grants : List Privilege
  deriving DecidableEq

/-- A policy: the role it is for, and the tenant whose rows it shows under the setting
    `app.tenant_id` of that tenant. -/
structure Policy where
  name : String
  role : String
  tenant : String
  deriving DecidableEq

/-- The database. -/
structure Db where
  table : Bool := false
  rls : Bool := false
  forceRls : Bool := false
  roles : String → Option DbRole := fun _ => none
  policies : List Policy := []

/-- The credentials a secret holds. -/
structure Creds where
  username : String
  password : String
  deriving DecidableEq

/-- The definitions of the table, its columns and its index. -/
inductive Ddl
  | createTable
  | addMessage
  | addTenantId
  | createIndex
  deriving DecidableEq

/-- The statements of the scripts that change the database. -/
inductive Statement
  | ddl (d : Ddl)
  | createRole (role password : String)
  | alterPassword (role password : String)
  | alterNologin (role : String)
  | dropRole (role : String)
  | grant (p : Privilege) (role : String)
  | revoke (p : Privilege) (role : String)
  | dropPolicy (name : String)
  | createPolicy (name role tenant : String)
  | enableRls
  | forceRls
  deriving DecidableEq

/-- The table must be there. -/
def Statement.onTable : Statement → Bool
  | ddl d => d ≠ .createTable
  | grant p _ | revoke p _ => p = .table ∨ p = .sequence
  | createPolicy .. | enableRls | forceRls => true
  | _ => false

/-- The commands of the scripts. -/
inductive SqlCmd
  /-- The secret of a name. -/
  | load (name : String)
  | connect
  | roleExists (role : String)
  /-- A random password. -/
  | randomPassword
  | exec (s : Statement)
  deriving DecidableEq

/-- The responses of the commands; the text of an error aborts the script. -/
abbrev SqlCmd.Resp : SqlCmd → Type
  | load _ => Except String Creds
  | roleExists _ => Except String Bool
  | randomPassword => String
  | connect | exec _ => Except String Unit

/-- The signature of the scripts. -/
abbrev sqlSig : Sig := ⟨SqlCmd, SqlCmd.Resp⟩

namespace Db

variable (db : Db)

/-- The database with a role changed. -/
def setRole (role : String) (r : Option DbRole) : Db :=
  { db with roles := Function.update db.roles role r }

/-- The database after a statement on it as it is, if it can be executed. A policy is for a
    role, and a role is dropped only without privileges and policies. -/
def effect : Statement → Option Db
  | .ddl .createTable => some { db with table := true }
  | .ddl _ => some db
  | .createRole role password =>
    if (db.roles role).isSome then none else some (db.setRole role (some ⟨true, password, []⟩))
  | .alterPassword role password =>
    (db.roles role).map fun r => db.setRole role (some { r with password })
  | .alterNologin role =>
    (db.roles role).map fun r => db.setRole role (some { r with login := false })
  | .dropRole role =>
    (db.roles role).bind fun r =>
      if r.grants = [] ∧ db.policies.all (·.role ≠ role) then some (db.setRole role none) else none
  | .grant p role =>
    (db.roles role).map fun r => db.setRole role (some { r with grants := p :: r.grants })
  | .revoke p role =>
    (db.roles role).map fun r => db.setRole role (some { r with grants := r.grants.filter (· ≠ p) })
  | .dropPolicy name => some { db with policies := db.policies.filter (·.name ≠ name) }
  | .createPolicy name role tenant =>
    if db.policies.any (·.name = name) || (db.roles role).isNone then none
    else some { db with policies := ⟨name, role, tenant⟩ :: db.policies }
  | .enableRls => some { db with rls := true }
  | .forceRls => some { db with forceRls := true }

/-- The database after a statement, if it can be executed. -/
def exec (s : Statement) : Option Db := if s.onTable && !db.table then none else db.effect s

/-- A session reaches a row: its role holds the table, and either row-level security is not
    enabled or a policy of the role shows the row under the setting of the session. -/
def Access (role setting tenant : String) : Prop :=
  (∃ r, db.roles role = some r ∧ Privilege.table ∈ r.grants) ∧
    (db.rls = true → ∃ p ∈ db.policies, p.role = role ∧ p.tenant = tenant ∧ setting = p.tenant)

/-- A session of a tenant only reaches the rows of the tenant, with its own setting. -/
def Isolated : Prop :=
  ∀ (t : TenantId) (setting tenant : String),
    db.Access t.role setting tenant → tenant = t.val ∧ setting = t.val

end Db

/-- What a script meets: whether its next command fails, and what is answered to it. -/
structure SqlChoice where
  fails : Option String := none
  creds : Creds := ⟨"", ""⟩
  text : String := ""

/-- How the database answers a command. -/
def Db.answer (x : SqlChoice) : (c : SqlCmd) → Db → c.Resp × Db
  | .load _, db => (x.fails.elim (.ok x.creds) .error, db)
  | .connect, db => (x.fails.elim (.ok ()) .error, db)
  | .roleExists role, db => (x.fails.elim (.ok (db.roles role).isSome) .error, db)
  | .randomPassword, db => (x.text, db)
  | .exec s, db =>
    match x.fails, db.exec s with
    | none, some db' => (.ok (), db')
    | none, none => (.error "the statement cannot be executed", db)
    | some e, _ => (.error e, db)

end NtierLab
