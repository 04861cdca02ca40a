import NtierLab.Postgres.PodIsolation
import NtierLab.Prog.Crash

/-!
# Logging in

A migration that completes, after any executions of the two scripts, each of which may
have stopped after any statement. A role that is there keeps what a dropping that
stopped has left of it: the migration gives it the password of the secret and the
grants, not the right to log in.

* `Db.Provisioned`: what a migration is to give a tenant;
* `MigratedTo`: what a migration does give, and leaves as it was;
* `provisioned_iff`: every tenant of the map is provisioned, exactly if the roles that
  were there could log in.
-/

namespace NtierLab

open Prog

/-- A map of the secrets of the tenants, each tenant once. -/
structure TenantSecrets (owns : TenantId → String → Prop) extends SecretMap owns where
  nodup : (entries.map Prod.fst).Nodup

/-- The policies for the role of a tenant. -/
def Db.policiesOf (db : Db) (t : TenantId) : List Policy := db.policies.filter (·.role = t.role)

/-- The tenant can log in with the password, holds the table and its sequence, and has one policy,
    its own. -/
structure Db.Provisioned (db : Db) (t : TenantId) (password : String) : Prop where
  role : ∃ r, db.roles t.role = some r ∧ r.login = true ∧ r.password = password ∧
    Privilege.database ∈ r.grants ∧ Privilege.table ∈ r.grants ∧ Privilege.sequence ∈ r.grants
  policy : db.policiesOf t = [⟨t.policy, t.role, t.val⟩]

variable {owns : TenantId → String → Prop}

/-- The database, with the secrets as they are. -/
def withSecrets (owns : TenantId → String → Prop) (secrets : String → Creds) : Handler sqlSig Db :=
  fun c db r db' => (scripts owns).step c db r db' ∧
    ∀ name creds, (⟨c, r⟩ : Event sqlSig) = ⟨.load name, .ok creds⟩ → creds = secrets name

/-- The contract of the database, with the secrets as they are. -/
abbrev sqlWith (owns : TenantId → String → Prop) (secrets : String → Creds) : Contract sqlSig Db :=
  ⟨fun _ _ => True, withSecrets owns secrets⟩

section

variable {secrets : String → Creds} {db db' : Db} {α β : Type} {p : Script α} {V : α → Db → Prop}
  {V' : β → Db → Prop} {t u : TenantId}

/-- What a script has done if it returns. -/
def Does (owns : TenantId → String → Prop) (secrets : String → Creds) (p : Script α)
    (V : α → Db → Prop) (db : Db) : Prop :=
  p.wp (sqlWith owns secrets) (fun x db' => ∀ a, x = .ok a → V a db') db

theorem Does.bind {f : α → Script β} (hp : Does owns secrets p V db)
    (hf : ∀ a db', V a db' → Does owns secrets (f a) V' db') : Does owns secrets (p >>= f) V' db :=
  wp.bind hp (fun a db' h => hf a db' (h a rfl)) fun _ _ _ _ h => nomatch h

theorem Does.imp {V' : α → Db → Prop} (hp : Does owns secrets p V db)
    (h : ∀ a db', V a db' → V' a db') : Does owns secrets p V' db :=
  wp.imp hp fun _ _ hx a ha => h a _ (hx a ha)

theorem Does.ite {c : Prop} [Decidable c] {q : Script α} (hp : c → Does owns secrets p V db)
    (hq : ¬c → Does owns secrets q V db) : Does owns secrets (if c then p else q) V db :=
  (wp_ite _ _ _).2 ⟨hp, hq⟩

theorem does_pure {a : α} (h : V a db) : Does owns secrets (pure a) V db := by
  rintro _ ⟨⟩
  exact h

theorem does_load (name : String) : Does owns secrets (Script.load name)
    (fun creds db' => db' = db ∧ creds = secrets name ∧ ∀ t, owns t name → creds.username = t.role)
    db := by
  refine ⟨trivial, fun r db' hr => ?_⟩
  obtain ⟨⟨⟨x, hx⟩, hhonest⟩, hsecret⟩ := hr
  have hdb : db' = db := Db.answer_other (by simp) hx
  cases r with
  | error e => exact fun _ h => nomatch h
  | ok creds => exact does_pure ⟨hdb, hsecret _ _ rfl, hhonest _ _ rfl⟩

theorem does_connect : Does owns secrets Script.connect (fun _ db' => db' = db) db := by
  refine ⟨trivial, fun r db' hr => ?_⟩
  obtain ⟨⟨⟨x, hx⟩, -⟩, -⟩ := hr
  have hdb : db' = db := Db.answer_other (by simp) hx
  cases r with
  | error e => exact fun _ h => nomatch h
  | ok _ => exact does_pure hdb

theorem does_roleExists (role : String) : Does owns secrets (Script.roleExists role)
    (fun b db' => db' = db ∧ b = (db.roles role).isSome) db := by
  refine ⟨trivial, fun r db' hr => ?_⟩
  obtain ⟨⟨⟨x, hx⟩, -⟩, -⟩ := hr
  have hdb : db' = db := Db.answer_other (by simp) hx
  cases r with
  | error e => exact fun _ h => nomatch h
  | ok b =>
    refine does_pure ⟨hdb, ?_⟩
    simp only [Db.answer, Prod.mk.injEq] at hx
    cases hf : x.fails with
    | none => simpa [hf] using hx.1.symm
    | some e => simp [hf] at hx

/-- A statement that does not fail has its effect. -/
theorem does_exec {s : Statement} {V : Unit → Db → Prop}
    (h : ∀ db', db.effect s = some db' → V () db') : Does owns secrets (Script.exec s) V db := by
  refine ⟨trivial, fun r db' hr => ?_⟩
  obtain ⟨⟨⟨x, hx⟩, -⟩, -⟩ := hr
  rcases Db.answer_exec hx with ⟨rfl, hdb⟩ | ⟨hr, -⟩
  · exact does_pure (h db' hdb)
  · cases r with
    | error e => exact fun _ h => nomatch h
    | ok _ => exact absurd rfl hr

@[simp] theorem Db.setRole_setRole (role : String) (r r' : Option DbRole) :
    (db.setRole role r).setRole role r' = db.setRole role r' := by
  simp [setRole]

/-- Granting a privilege to a role that is there. -/
theorem does_grant {role password : String} {login : Bool} {g : List Privilege} (q : Privilege) :
    Does owns secrets (Script.exec (.grant q role))
      (fun _ db' => db' = db.setRole role (some ⟨login, password, q :: g⟩))
      (db.setRole role (some ⟨login, password, g⟩)) := by
  refine does_exec fun db' h => ?_
  simp only [Db.effect, Db.setRole_self, Option.map_some, Option.some.injEq,
    Db.setRole_setRole] at h
  exact h.symm

theorem does_dropPolicy (name : String) : Does owns secrets (Script.exec (.dropPolicy name))
    (fun _ db' => db' = { db with policies := db.policies.filter (·.name ≠ name) }) db :=
  does_exec fun _ h => (Option.some.inj h).symm

/-! ## One tenant -/

/-- The role is there to log in, if it was there to do so, or was not there. -/
def Db.mayLogIn (db : Db) (t : TenantId) : Bool := (db.roles t.role).all (·.login)

/-- The database after a tenant was migrated: its role with the password and the grants, and its
    policy as the only one of its name. -/
structure TenantMigrated (t : TenantId) (password : String) (db db' : Db) : Prop where
  role : ∃ g, Privilege.database ∈ g ∧ Privilege.table ∈ g ∧ Privilege.sequence ∈ g ∧
    db'.roles = Function.update db.roles t.role (some ⟨db.mayLogIn t, password, g⟩)
  policies : db'.policies = ⟨t.policy, t.role, t.val⟩ :: db.policies.filter (·.name ≠ t.policy)

theorem does_migrateTenant {e : TenantId × String} (he : owns e.1 e.2) :
    Does owns secrets (migrateTenant e)
      (fun _ => TenantMigrated e.1 (secrets e.2).password db) db := by
  obtain ⟨t, name⟩ := e
  refine (does_load name).bind ?_
  rintro _ db ⟨rfl, rfl, huser⟩
  have huser := huser t he
  refine (does_roleExists _).bind ?_
  rintro _ db ⟨rfl, rfl⟩
  rw [huser]
  have hrest (g : List Privilege) : Does owns secrets (do
      Script.exec (.grant .database t.role)
      Script.exec (.grant .schema t.role)
      Script.exec (.grant .table t.role)
      Script.exec (.grant .sequence t.role)
      Script.exec (.dropPolicy t.policy)
      Script.exec (.createPolicy t.policy t.role t.val))
      (fun _ => TenantMigrated t (secrets name).password db)
      (db.setRole t.role (some ⟨db.mayLogIn t, (secrets name).password, g⟩)) := by
    refine (does_grant .database).bind ?_
    rintro _ _ rfl
    refine (does_grant .schema).bind ?_
    rintro _ _ rfl
    refine (does_grant .table).bind ?_
    rintro _ _ rfl
    refine (does_grant .sequence).bind ?_
    rintro _ _ rfl
    refine (does_dropPolicy _).bind ?_
    rintro _ _ rfl
    refine does_exec fun db' h => ?_
    simp only [Db.effect] at h
    split at h
    · cases h
    · cases h
      exact ⟨⟨_, by simp, by simp, by simp, rfl⟩, rfl⟩
  refine .ite (fun hsome => ?_) fun hnone => ?_
  · -- The role that is there is given the password, and nothing else.
    obtain ⟨r, hrole⟩ := Option.isSome_iff_exists.1 hsome
    refine Does.bind (V := fun _ db' => db' = db.setRole t.role
      (some ⟨db.mayLogIn t, (secrets name).password, r.grants⟩)) (does_exec fun db' h => ?_) ?_
    · simp only [Db.effect, hrole, Option.map_some, Option.some.injEq] at h
      simp [← h, Db.mayLogIn, hrole]
    · rintro _ _ rfl
      exact hrest _
  · have hrole : db.roles t.role = none := by simpa using hnone
    refine Does.bind (V := fun _ db' => db' = db.setRole t.role
      (some ⟨db.mayLogIn t, (secrets name).password, []⟩)) (does_exec fun db' h => ?_) ?_
    · simp only [Db.effect, hrole, Option.isSome_none, Bool.false_eq_true, if_false,
        Option.some.injEq] at h
      simp [← h, Db.mayLogIn, hrole]
    · rintro _ _ rfl
      exact hrest _

end

/-! ## All tenants -/

section

variable {secrets : String → Creds} {db db' : Db} {t u : TenantId}

/-- What a migration does to the roles and the policies of the tenants. -/
structure MigratedTo (secrets : String → Creds) (entries : List (TenantId × String))
    (db db' : Db) : Prop where
  own : db'.OwnPolicies
  entry : ∀ e ∈ entries, (∃ g,
      Privilege.database ∈ g ∧ Privilege.table ∈ g ∧ Privilege.sequence ∈ g ∧
        db'.roles e.1.role = some ⟨db.mayLogIn e.1, (secrets e.2).password, g⟩) ∧
    db'.policiesOf e.1 = [⟨e.1.policy, e.1.role, e.1.val⟩]
  other : ∀ u ∉ entries.map Prod.fst,
    db'.roles u.role = db.roles u.role ∧ db'.policiesOf u = db.policiesOf u

/-- A policy of its own is the only one of its name, and of its role. -/
theorem TenantMigrated.policiesOf {password : String} (h : TenantMigrated t password db db')
    (hown : db.OwnPolicies) : db'.policiesOf t = [⟨t.policy, t.role, t.val⟩] := by
  rw [Db.policiesOf, h.policies, List.filter_cons_of_pos (by simp), List.filter_filter,
    List.filter_eq_nil_iff.2]
  intro q hq
  obtain ⟨u, rfl⟩ := hown q hq
  simp only [ne_eq, decide_not, Bool.and_eq_true, Bool.not_eq_true', decide_eq_false_iff_not,
    decide_eq_true_eq, not_and]
  intro hrole hname
  exact hname (by rw [TenantId.role_injective hrole])

theorem TenantMigrated.ownPolicies {password : String} (h : TenantMigrated t password db db')
    (hown : db.OwnPolicies) : db'.OwnPolicies := by
  intro q hq
  rw [h.policies] at hq
  rcases List.mem_cons.1 hq with rfl | hq
  · exact ⟨t, rfl⟩
  · exact hown q (List.mem_of_mem_filter hq)

/-- Migrating a tenant leaves the others. -/
theorem TenantMigrated.other {password : String} (h : TenantMigrated t password db db')
    (hown : db.OwnPolicies) (hu : u ≠ t) :
    db'.roles u.role = db.roles u.role ∧ db'.policiesOf u = db.policiesOf u := by
  obtain ⟨g, -, -, -, hroles⟩ := h.role
  refine ⟨?_, ?_⟩
  · rw [hroles, Function.update_of_ne fun heq => hu (TenantId.role_injective heq)]
  · have hne : t.role ≠ u.role := fun heq => hu (TenantId.role_injective heq.symm)
    rw [Db.policiesOf, h.policies, List.filter_cons_of_neg (by simpa using hne), List.filter_filter,
      Db.policiesOf]
    refine List.filter_congr fun q hq => ?_
    obtain ⟨v, rfl⟩ := hown q hq
    -- A policy of the role of `u` has the name of `u`.
    by_cases hv : v.role = u.role
    · obtain rfl := TenantId.role_injective hv
      simpa using fun heq => hu (TenantId.policy_injective heq)
    · simp [hv]

theorem does_migrateTenants {entries : List (TenantId × String)}
    (howns : ∀ e ∈ entries, owns e.1 e.2) (hnodup : (entries.map Prod.fst).Nodup)
    (hown : db.OwnPolicies) : Does owns secrets (migrateTenants entries)
      (fun _ => MigratedTo secrets entries db) db := by
  induction entries generalizing db with
  | nil => exact does_pure ⟨hown, by simp, fun u _ => ⟨rfl, rfl⟩⟩
  | cons e entries ih =>
    obtain ⟨hne, hnodup⟩ := List.nodup_cons.1 hnodup
    refine (does_migrateTenant (howns e List.mem_cons_self)).bind fun _ db₁ h₁ => ?_
    refine (ih (fun e' he' => howns e' (List.mem_cons_of_mem _ he')) hnodup
      (h₁.ownPolicies hown)).imp fun _ db₂ h₂ => ⟨h₂.own, ?_, fun u hu => ?_⟩
    · intro e' he'
      rcases List.mem_cons.1 he' with rfl | he'
      · -- The tenant is not one of those after it.
        obtain ⟨g, h, h', h'', hroles⟩ := h₁.role
        obtain ⟨hrole, hpol⟩ := h₂.other _ hne
        refine ⟨⟨g, h, h', h'', ?_⟩, hpol.trans (h₁.policiesOf hown)⟩
        rw [hrole, hroles, Function.update_self]
      · have hne' : e'.1 ≠ e.1 := fun heq => hne (heq ▸ List.mem_map_of_mem he')
        obtain ⟨⟨g, h, h', h'', hrole⟩, hpol⟩ := h₂.entry e' he'
        refine ⟨⟨g, h, h', h'', ?_⟩, hpol⟩
        rw [hrole, Db.mayLogIn, Db.mayLogIn, (h₁.other hown hne').1]
    · rw [List.map_cons, List.mem_cons, not_or] at hu
      obtain ⟨hrole, hpol⟩ := h₂.other u hu.2
      exact ⟨hrole.trans (h₁.other hown hu.1).1, hpol.trans (h₁.other hown hu.1).2⟩

/-- The roles and the policies are the same. -/
def Db.SameAccess (db db' : Db) : Prop := db'.roles = db.roles ∧ db'.policies = db.policies

theorem MigratedTo.congr {entries : List (TenantId × String)} {db₁ db₂ : Db}
    (h : MigratedTo secrets entries db₁ db₂) (h₁ : db.SameAccess db₁) (h₂ : db₂.SameAccess db') :
    MigratedTo secrets entries db db' := by
  obtain ⟨hroles₁, hpolicies₁⟩ := h₁
  obtain ⟨hroles₂, hpolicies₂⟩ := h₂
  refine ⟨fun q hq => h.own q (hpolicies₂ ▸ hq), fun e he => ?_, fun u hu => ?_⟩
  · obtain ⟨⟨g, hd, ht, hs, hrole⟩, hpol⟩ := h.entry e he
    refine ⟨⟨g, hd, ht, hs, ?_⟩, ?_⟩
    · rw [hroles₂, hrole, Db.mayLogIn, Db.mayLogIn, hroles₁]
    · rw [Db.policiesOf, hpolicies₂]
      exact hpol
  · obtain ⟨hrole, hpol⟩ := h.other u hu
    rw [Db.policiesOf, Db.policiesOf, hpolicies₁] at hpol
    rw [hroles₂, hrole, hroles₁, Db.policiesOf, Db.policiesOf, hpolicies₂, hpol]
    exact ⟨rfl, rfl⟩

/-- A statement that changes no role and no policy. -/
theorem does_same {db₀ : Db} {s : Statement} (h : db₀.SameAccess db)
    (hs : ∀ db', db.effect s = some db' → db.SameAccess db') :
    Does owns secrets (Script.exec s) (fun _ => db₀.SameAccess) db :=
  does_exec fun db' hdb => ⟨(hs db' hdb).1.trans h.1, (hs db' hdb).2.trans h.2⟩

theorem does_ddl {db₀ : Db} (h : db₀.SameAccess db) (d : Ddl) :
    Does owns secrets (Script.exec (.ddl d)) (fun _ => db₀.SameAccess) db := by
  refine does_same h fun db' hdb => ?_
  cases d <;> cases hdb <;> exact ⟨rfl, rfl⟩

/-- A migration gives every tenant of its map its password, its grants and its policy. -/
theorem does_migrate (master : String) (tenants : TenantSecrets owns) (hown : db.OwnPolicies) :
    Does owns secrets (migrate master tenants.entries)
      (fun _ => MigratedTo secrets tenants.entries db) db := by
  refine (does_load master).bind ?_
  rintro _ db ⟨rfl, -, -⟩
  refine does_connect.bind ?_
  rintro _ db rfl
  have hsame : db.SameAccess db := ⟨rfl, rfl⟩
  refine (does_ddl hsame .createTable).bind fun _ _ h => ?_
  refine (does_ddl h .addMessage).bind fun _ _ h => ?_
  refine (does_ddl h .addTenantId).bind fun _ _ h => ?_
  refine (does_ddl h .createIndex).bind fun _ db₁ h₁ => ?_
  have hown₁ : db₁.OwnPolicies := fun q hq => hown q (h₁.2 ▸ hq)
  refine (does_migrateTenants tenants.honest tenants.nodup hown₁).bind fun _ db₂ h₂ => ?_
  have hsame₂ : db₂.SameAccess db₂ := ⟨rfl, rfl⟩
  refine (does_same hsame₂ fun db' hdb => ?_).bind fun _ db₃ h₃ => ?_
  · cases hdb
    exact ⟨rfl, rfl⟩
  refine (does_same h₃ fun db' hdb => ?_).imp fun _ db₄ h₄ => h₂.congr h₁ h₄
  cases hdb
  exact ⟨rfl, rfl⟩

end

/-- After any executions of the scripts, a migration that completes provisions every tenant of
    its map, exactly if each role that was there could log in. -/
theorem provisioned_iff {ls : List (Label sqlSig (ScriptOp owns) Empty)} {p : Scripts owns}
    {secrets : String → Creds} {master : String} {tenants : TenantSecrets owns}
    {tr : Trace sqlSig} {db' : Db} (hr : (scripts owns).Run (fun _ _ => True) (.new {}) ls p)
    (hx : Exec (withSecrets owns secrets) (migrate master tenants.entries) p.world tr (.ok ()) db') :
    (∀ e ∈ tenants.entries, db'.Provisioned e.1 (secrets e.2).password) ↔
      ∀ e ∈ tenants.entries, p.world.mayLogIn e.1 = true := by
  have h : MigratedTo secrets tenants.entries p.world db' :=
    hx.meets (does_migrate master tenants (scripts_ownPolicies hr)) () rfl
  refine forall₂_congr fun e he => ?_
  obtain ⟨⟨g, hd, ht, hs, hrole⟩, hpol⟩ := h.entry e he
  constructor
  · rintro ⟨⟨r, hr, hlogin, -⟩, -⟩
    obtain rfl := Option.some.inj (hrole.symm.trans hr)
    exact hlogin
  · exact fun hlogin => ⟨⟨_, hrole, hlogin, rfl, hd, ht, hs⟩, hpol⟩

/-! ## A migration of one tenant -/

/-- The map of the tenant `a`. -/
def onlyA : TenantSecrets ownsA where
  entries := [(.a, "ntier-dev/rds/tenant-a")]
  honest := ownsA_honest
  nodup := List.nodup_singleton _

/-- The secret of the tenant `a`. -/
def secretsA (_ : String) : Creds := ⟨"tenant_a", "pw"⟩

theorem answerA_secrets (x : Unit) (c : SqlCmd) (db : Db) :
    withSecrets ownsA secretsA c db (answerA x c db).1 (answerA x c db).2 := by
  refine ⟨answerA_step x c db, ?_⟩
  rintro name creds h
  cases c <;> cases h
  rfl

/-- A migration of the tenant `a`, every command succeeding. -/
theorem migrateA_exec (db : Db) :
    Exec (withSecrets ownsA secretsA) (migrate "master" onlyA.entries) db
    ((migrate "master" onlyA.entries).eval answerA (fun _ => ()) 0 db).1
    ((migrate "master" onlyA.entries).eval answerA (fun _ => ()) 0 db).2.1
    ((migrate "master" onlyA.entries).eval answerA (fun _ => ()) 0 db).2.2 :=
  exec_eval answerA_secrets _ _ 0 db

/-- A migration and a dropping of the role that complete, then a migration that stops once it made
    the role again. -/
def migratedAgain : List (System.Move (ScriptOp ownsA) Empty Unit) :=
  .start (.migrate "master" onlyA.toSecretMap) :: List.replicate 17 (.run 0 ()) ++
    .start (.dropRole "master" .a) :: List.replicate 12 (.run 1 ()) ++
    .start (.migrate "master" onlyA.toSecretMap) :: List.replicate 10 (.run 2 ())

/-- The migration after them provisions its tenant. -/
theorem provisioned_iff_again :
    ∃ (ls : List (Label sqlSig (ScriptOp ownsA) Empty)) (p : Scripts ownsA) (tr : Trace sqlSig)
      (db' : Db), ls.length = 42 ∧
    (scripts ownsA).Run (fun _ _ => True) (.new {}) ls p ∧
    Exec (withSecrets ownsA secretsA) (migrate "master" onlyA.entries) p.world tr (.ok ()) db' ∧
    db'.Provisioned .a "pw" := by
  have hplay : (((scripts ownsA).play answerA (fun _ _ => none) (fun _ _ => true) (.new {})
      migratedAgain).map fun q => (q.1.length, q.2.world.mayLogIn .a,
        ((migrate "master" onlyA.entries).eval answerA (fun _ => ()) 0 q.2.world).2.1)) =
      some (42, true, .ok ()) := by decide +kernel
  rw [Option.map_eq_some_iff] at hplay
  obtain ⟨⟨ls, p⟩, hp, hq⟩ := hplay
  simp only [Prod.mk.injEq] at hq
  obtain ⟨hlength, hlogin, hok⟩ := hq
  have hr := (System.run_play answerA_step (fun x => nomatch x) hp).weaken fun _ _ _ => trivial
  have hx := hok ▸ migrateA_exec p.world
  refine ⟨ls, p, _, _, hlength, hr, hx, ?_⟩
  refine (provisioned_iff hr hx).2 (fun e he => ?_) _ List.mem_cons_self
  rw [List.mem_singleton.1 he]
  exact hlogin

/-- A migration, then a dropping of the role that stops after it disabled the login. -/
def dropStopped : List (System.Move (ScriptOp ownsA) Empty Unit) :=
  .start (.migrate "master" onlyA.toSecretMap) :: List.replicate 17 (.run 0 ()) ++
    .start (.dropRole "master" .a) :: List.replicate 6 (.run 1 ())

/-- The migration after it leaves the role without login. -/
theorem not_provisioned :
    ¬∀ ls (p : Scripts ownsA) tr db', (scripts ownsA).Run (fun _ _ => True) (.new {}) ls p →
      Exec (withSecrets ownsA secretsA) (migrate "master" onlyA.entries) p.world tr (.ok ()) db' →
      ∀ e ∈ onlyA.entries, db'.Provisioned e.1 (secretsA e.2).password := by
  intro h
  have hplay : (((scripts ownsA).play answerA (fun _ _ => none) (fun _ _ => true) (.new {})
      dropStopped).map fun q =>
        ((migrate "master" onlyA.entries).eval answerA (fun _ => ()) 0 q.2.world).2).map
      (fun a => (a.1, a.2.roles TenantId.a.role)) =
      some (.ok (), some ⟨false, "pw", [.sequence, .table, .schema, .database,
        .sequence, .table, .schema, .database]⟩) := rfl
  rw [Option.map_map, Option.map_eq_some_iff] at hplay
  obtain ⟨⟨ls, p⟩, hp, hq⟩ := hplay
  obtain ⟨hok, hrole⟩ := Prod.mk.inj hq
  have hr := (System.run_play answerA_step (fun x => nomatch x) hp).weaken fun _ _ _ => trivial
  have hx := migrateA_exec p.world
  obtain ⟨⟨r, hr', hlogin, -⟩, -⟩ :=
    h ls p _ _ hr (hok ▸ hx) _ List.mem_cons_self
  rw [hrole] at hr'
  cases hr'
  cases hlogin

end NtierLab
