import NtierLab.Postgres.Login
import NtierLab.ControlPlane.Lifecycle
import NtierLab.ControlPlane.OpenWorld

/-!
# Tenant ids used again

The table across the deletion of a tenant: the executions of the scripts go on, sessions
add rows, and nothing takes a row off (`Land.Step`). The deletion of a tenant runs on
it (`landing`); the drop-role Job is only seen complete once its script has ended.

* `Returned`: a row is returned to a pod of the tenant, after the tenant was migrated
  again;
* `inherited_iff`: the rows returned are none of those before the deletion, exactly if
  none of those was the tenant's.
-/

namespace NtierLab

open Prog

variable {owns : TenantId → String → Prop}

/-- The executions of the scripts on the database, and the rows of the table. -/
structure Land (owns : TenantId → String → Prop) where
  scripts : Scripts owns
  rows : List Record

namespace Land

/-- What happens on the database: an execution is started or goes on, or a session adds a
    row. -/
inductive Step : Land owns → Land owns → Prop
  | script {q q' : Scripts owns} {l : Label sqlSig (ScriptOp owns) Empty} {rows : List Record} :
      (NtierLab.scripts owns).Step q l q' → Step ⟨q, rows⟩ ⟨q', rows⟩
  | insert {q : Scripts owns} {rows : List Record} (row : Record) :
      Step ⟨q, rows⟩ ⟨q, rows ++ [row]⟩

/-- What happens in the course of time. -/
abbrev Steps : Land owns → Land owns → Prop := Relation.ReflTransGen Step

variable {w w' : Land owns}

theorem Steps.rows (h : w.Steps w') : w.rows ⊆ w'.rows := by
  induction h with
  | refl => exact List.Subset.refl _
  | tail _ hst ih =>
    cases hst with
    | script => exact ih
    | insert row => exact fun r hr => List.mem_append_left _ (ih hr)

/-- The executions go on as a run of the scripts. -/
theorem Steps.run {ls : List (Label sqlSig (ScriptOp owns) Empty)}
    (hr : (NtierLab.scripts owns).Run (fun _ _ => True) (.new {}) ls w.scripts)
    (h : w.Steps w') :
    ∃ ls', (NtierLab.scripts owns).Run (fun _ _ => True) (.new {}) ls' w'.scripts := by
  induction h with
  | refl => exact ⟨ls, hr⟩
  | tail _ hst ih =>
    obtain ⟨ls', hr'⟩ := ih
    cases hst with
    | script hst => exact ⟨_, .snoc hr' trivial hst⟩
    | insert row => exact ⟨ls', hr'⟩

theorem steps_of_run {q q' : Scripts owns} {ls : List (Label sqlSig (ScriptOp owns) Empty)}
    (hr : (NtierLab.scripts owns).Run (fun _ _ => True) q ls q') (rows : List Record) :
    Steps (⟨q, rows⟩ : Land owns) ⟨q', rows⟩ := by
  induction hr with
  | nil => exact .refl
  | snoc _ _ hst ih => exact ih.tail (.script hst)

/-- The drop-role Job of a tenant is seen complete once an execution of its script has ended. -/
def SeesEnded (w : Land owns) : Event cpSig → Prop
  | ⟨.kube (.dropJobConditions _ d), .ok conds⟩ => condition conds "Complete" = some "True" →
    ∃ th ∈ w.scripts.threads, (∃ m, th.op = .dropRole m d.tenant) ∧ th.prog = .ret ()
  | _ => True

end Land

/-- A command of the control plane, in the course of time on the database. -/
def landing (owns : TenantId → String → Prop) : Handler cpSig (Land owns) := fun c w r w' =>
  w.Steps w' ∧ w'.SeesEnded ⟨c, r⟩

section

variable {t : TenantId} {w w' : Land owns} {α : Type} {p : CP α} {tr : Trace cpSig}
  {x : Except Exn α} {name : String}

theorem steps_of_exec (hx : Exec (landing owns) p w tr x w') : w.Steps w' := by
  induction hx with
  | ret => exact .refl
  | fail => exact .refl
  | call hc _ ih => exact hc.1.trans ih

/-! ## The tenant migrated again -/

theorem can_exec {s : Statement} {db db' : Db} {V : Unit → Db → Prop}
    (hs : db.exec s = some db') (hv : V () db') :
    Can (scripts owns).step (Script.exec s) V db := by
  refine can_result ⟨⟨{}, ?_⟩, fun _ _ h => absurd h (by simp)⟩ rfl hv
  simp [Db.answer, hs]

theorem can_load {db : Db} {creds : Creds} (hname : ∀ u, owns u name → creds.username = u.role) :
    Can (scripts owns).step (Script.load name) (fun a db' => a = creds ∧ db' = db) db := by
  refine can_result ⟨⟨{ creds }, rfl⟩, fun name' c h u hu => ?_⟩ rfl ⟨rfl, rfl⟩
  cases h
  exact hname u hu

/-- The secret of the tenant is its own, and the master's is no tenant's. -/
structure Secrets (owns : TenantId → String → Prop) (t : TenantId) (master name : String) :
    Prop where
  tenant : ∀ u, owns u name ↔ u = t
  master : ∀ u, ¬owns u master

variable {master : String}

/-- The role of the tenant, and its policy, after its migration. -/
structure Db.Tenanted (db : Db) (t : TenantId) : Prop where
  table : db.table = true
  role : db.roles t.role = some ⟨true, "pw", [.sequence, .table, .schema, .database]⟩
  policy : ⟨t.policy, t.role, t.val⟩ ∈ db.policies

/-- A tenant without a role can be given one. -/
theorem can_migrateTenant {db : Db} (hs : Secrets owns t master name) (htable : db.table = true)
    (hnone : db.roles t.role = none) :
    Can (scripts owns).step (migrateTenant (t, name)) (fun _ db' => db'.Tenanted t) db := by
  have hcreds : ∀ u, owns u name → (⟨t.role, "pw"⟩ : Creds).username = u.role := by
    intro u hu
    rw [(hs.tenant u).1 hu]
  have hgrant (db : Db) (htable : db.table = true) (g : List Privilege) (q : Privilege) :
      Can (scripts owns).step (Script.exec (.grant q t.role))
        (fun _ db' => db' = db.setRole t.role (some ⟨true, "pw", q :: g⟩))
        (db.setRole t.role (some ⟨true, "pw", g⟩)) :=
    can_exec (by simp [Db.exec, Db.effect, Db.setRole, htable]) rfl
  refine (can_load hcreds).bind ?_
  rintro _ db ⟨rfl, rfl⟩
  refine (can_result ⟨⟨{}, rfl⟩, fun _ _ h => absurd h (by simp)⟩ rfl ⟨by simp [hnone], rfl⟩ :
    Can (scripts owns).step (Script.roleExists t.role) (fun b db' => b = false ∧ db' = db)
      db).bind ?_
  rintro _ db ⟨rfl, rfl⟩
  simp only [Bool.false_eq_true, if_false]
  refine (can_exec (by simp [Db.exec, Db.effect, hnone, Statement.onTable]) rfl :
    Can (scripts owns).step (Script.exec (.createRole t.role "pw"))
      (fun _ db' => db' = db.setRole t.role (some ⟨true, "pw", []⟩)) db).bind ?_
  rintro _ _ rfl
  refine (hgrant db htable _ .database).bind ?_
  rintro _ _ rfl
  refine (hgrant db htable _ .schema).bind ?_
  rintro _ _ rfl
  refine (hgrant db htable _ .table).bind ?_
  rintro _ _ rfl
  refine (hgrant db htable _ .sequence).bind ?_
  rintro _ _ rfl
  -- No policy of the name is left.
  refine (can_exec rfl rfl : Can (scripts owns).step (Script.exec (.dropPolicy t.policy))
    (fun _ db' => db' = { db.setRole t.role (some ⟨true, "pw", _⟩) with
      policies := db.policies.filter (·.name ≠ t.policy) }) _).bind ?_
  rintro _ _ rfl
  have hcreate (db : Db) (htable : db.table = true) (r : DbRole) :
      Db.exec { db.setRole t.role (some r) with policies := db.policies.filter (·.name ≠ t.policy) }
        (.createPolicy t.policy t.role t.val) = some { db.setRole t.role (some r) with
          policies := ⟨t.policy, t.role, t.val⟩ :: db.policies.filter (·.name ≠ t.policy) } := by
    simp [Db.exec, Db.effect, Db.setRole, htable]
  exact can_exec (hcreate db htable _) ⟨htable, Db.setRole_self _ _, List.mem_cons_self⟩

/-- A tenant without a role can be migrated. -/
theorem can_migrate {db : Db} (hs : Secrets owns t master name) (hnone : db.roles t.role = none) :
    Can (scripts owns).step (migrate master [(t, name)]) (fun _ db' => db'.Migrated t) db := by
  have hmaster : ∀ u, owns u master → (⟨"master", "pw"⟩ : Creds).username = u.role :=
    fun u hu => absurd hu (hs.master u)
  refine (can_load hmaster).bind ?_
  rintro _ db ⟨-, rfl⟩
  refine (can_result ⟨⟨{}, rfl⟩, fun _ _ h => absurd h (by simp)⟩ rfl rfl : Can (scripts owns).step
    Script.connect (fun _ db' => db' = db) db).bind ?_
  rintro _ db rfl
  -- The table is there from now on.
  refine (can_exec rfl rfl : Can (scripts owns).step (Script.exec (.ddl .createTable))
    (fun _ db' => db' = { db with table := true }) db).bind ?_
  rintro _ _ rfl
  have hddl (d : Ddl) (hd : d ≠ .createTable) :
      Can (scripts owns).step (Script.exec (.ddl d)) (fun _ db' => db' = { db with table := true })
        { db with table := true } := by
    refine can_exec ?_ rfl
    cases d with
    | createTable => exact absurd rfl hd
    | _ => rfl
  refine (hddl .addMessage nofun).bind ?_
  rintro _ _ rfl
  refine (hddl .addTenantId nofun).bind ?_
  rintro _ _ rfl
  refine (hddl .createIndex nofun).bind ?_
  rintro _ _ rfl
  have htenants : Can (scripts owns).step (migrateTenants [(t, name)])
      (fun _ db' => db'.Tenanted t) { db with table := true } :=
    Can.bind (can_migrateTenant hs rfl hnone) fun _ _ h => can_pure h
  refine htenants.bind fun _ db₁ h => ?_
  refine (can_exec (by simp [Db.exec, Db.effect, h.table]) rfl : Can (scripts owns).step
    (Script.exec .enableRls) (fun _ db' => db' = { db₁ with rls := true }) db₁).bind ?_
  rintro _ _ rfl
  have hforce : Db.exec { db₁ with rls := true } .forceRls =
      some { db₁ with rls := true, forceRls := true } := by
    simp [Db.exec, Db.effect, h.table]
  exact can_exec hforce ⟨h.table, rfl, rfl, ⟨_, h.role, rfl, by simp, by simp⟩, h.policy⟩

/-- A role can be dropped, once there is a table. -/
theorem can_dropRole {db : Db} (hs : Secrets owns t master name) (htable : db.table = true)
    (hown : db.OwnPolicies) :
    Can (scripts owns).step (dropRole master t.role t.policy)
      (fun _ db' => db'.roles t.role = none) db := by
  have hmaster : ∀ u, owns u master → (⟨"master", "pw"⟩ : Creds).username = u.role :=
    fun u hu => absurd hu (hs.master u)
  refine (can_load hmaster).bind ?_
  rintro _ db ⟨-, rfl⟩
  refine (can_result ⟨⟨{}, rfl⟩, fun _ _ h => absurd h (by simp)⟩ rfl rfl : Can (scripts owns).step
    Script.connect (fun _ db' => db' = db) db).bind ?_
  rintro _ db rfl
  -- No policy of the role is left, as it is the tenant's own.
  refine (can_exec rfl ⟨htable, rfl, fun q hq => ?_⟩ : Can (scripts owns).step
    (Script.exec (.dropPolicy t.policy)) (fun _ db' => db'.table = true ∧ db'.roles = db.roles ∧
      ∀ q ∈ db'.policies, q.role ≠ t.role) db).bind ?_
  · obtain ⟨hq, hname⟩ := List.mem_filter.1 hq
    obtain ⟨u, rfl⟩ := hown q hq
    intro hrole
    obtain rfl := TenantId.role_injective hrole
    simp at hname
  rintro _ db₁ ⟨htable₁, -, hpolicies⟩
  refine (can_result ⟨⟨{}, rfl⟩, fun _ _ h => absurd h (by simp)⟩ rfl ⟨rfl, rfl⟩ :
    Can (scripts owns).step (Script.roleExists t.role)
      (fun b db' => b = (db₁.roles t.role).isSome ∧ db' = db₁) db₁).bind ?_
  rintro _ db₁ ⟨rfl, rfl⟩
  cases hrole : db₁.roles t.role with
  | none => exact can_pure hrole
  | some r =>
    simp only [Option.isSome_some, if_true]
    have hrevoke (q : Privilege) (r : DbRole) : Can (scripts owns).step
        (Script.exec (.revoke q t.role))
        (fun _ db' => db' = db₁.setRole t.role (some { r with grants := r.grants.filter (· ≠ q) }))
        (db₁.setRole t.role (some r)) :=
      can_exec (by simp [Db.exec, Db.effect, Db.setRole, htable₁]) rfl
    have hanswer : (scripts owns).step .randomPassword db₁ "pw" db₁ :=
      ⟨⟨{ text := "pw" }, rfl⟩, fun _ _ h => absurd h (by simp)⟩
    have hrandom : Can (scripts owns).step (.call .randomPassword .ret : Script String)
        (fun p db' => p = "pw" ∧ db' = db₁) db₁ :=
      ⟨[⟨.randomPassword, "pw"⟩], "pw", db₁, .call hanswer .ret, rfl, rfl⟩
    refine hrandom.bind ?_
    rintro _ db₁ ⟨rfl, rfl⟩
    refine (can_exec (by simp [Db.exec, Db.effect, Db.setRole, hrole, Statement.onTable]) rfl :
      Can (scripts owns).step (Script.exec (.alterNologin t.role))
        (fun _ db' => db' = db₁.setRole t.role (some { r with login := false })) db₁).bind ?_
    rintro _ _ rfl
    refine (can_exec (by simp [Db.exec, Db.effect, Db.setRole, Statement.onTable]) rfl :
      Can (scripts owns).step (Script.exec (.alterPassword t.role "pw"))
        (fun _ db' => db' = db₁.setRole t.role (some ⟨false, "pw", r.grants⟩)) _).bind ?_
    rintro _ _ rfl
    refine (hrevoke .table _).bind ?_
    rintro _ _ rfl
    refine (hrevoke .sequence _).bind ?_
    rintro _ _ rfl
    refine (hrevoke .schema _).bind ?_
    rintro _ _ rfl
    refine (hrevoke .database _).bind ?_
    rintro _ _ rfl
    have hgrants : ((((r.grants.filter (· ≠ .table)).filter (· ≠ .sequence)).filter
        (· ≠ .schema)).filter (· ≠ .database)) = [] := by
      simp only [List.filter_filter, List.filter_eq_nil_iff]
      intro q _
      cases q <;> simp
    refine can_exec (?_ : Db.exec _ _ = some (db₁.setRole t.role none)) (Db.setRole_self _ _)
    rw [hgrants]
    simp [Db.exec, Db.effect, Statement.onTable, Db.setRole]
    exact hpolicies

/-- A tenant can be migrated again, in the course of time. -/
theorem can_recreate {ls : List (Label sqlSig (ScriptOp owns) Empty)}
    (hr : (scripts owns).Run (fun _ _ => True) (.new {}) ls w.scripts)
    (hs : Secrets owns t master name) :
    ∃ w', w.Steps w' ∧ w'.rows = w.rows ∧ w'.scripts.world.Migrated t := by
  -- An execution run alone.
  have halone {db db' : Db} {ts : List (Thread sqlSig String (ScriptOp owns))}
      (i : ScriptOp owns) (hx : Reaches (scripts owns).step i.prog db db') (rows : List Record) :
      ∃ ts', Land.Steps (⟨⟨db, ts⟩, rows⟩ : Land owns) ⟨⟨db', ts'⟩, rows⟩ := by
    have hn : (ts ++ [(scripts owns).thread i])[ts.length]? = some ⟨i, [], i.prog⟩ := by
      rw [List.getElem?_append_right le_rfl, Nat.sub_self]
      rfl
    obtain ⟨ls, ts', hr⟩ := System.run_of_reaches (fun _ => rfl) hx hn
    exact ⟨ts', .head (.script (.start i)) (Land.steps_of_run hr rows)⟩
  obtain ⟨⟨db, ts⟩, rows⟩ := w
  let again : ScriptOp owns := .migrate master ⟨[(t, name)], by simp [hs.tenant]⟩
  -- The table is created, the role dropped, if there is one, and the tenant migrated.
  have htable : Reaches (scripts owns).step again.prog db { db with table := true } := by
    have hload : (scripts owns).step (.load master) db (.ok ⟨"master", "pw"⟩) db := by
      refine ⟨⟨{ creds := ⟨"master", "pw"⟩ }, rfl⟩, fun name' c h u hu => ?_⟩
      cases h
      exact absurd hu (hs.master u)
    have hconnect : (scripts owns).step .connect db (.ok ()) db :=
      ⟨⟨{}, rfl⟩, fun _ _ h => absurd h (by simp)⟩
    have hcreate : (scripts owns).step (.exec (.ddl .createTable)) db (.ok ())
        { db with table := true } := ⟨⟨{}, rfl⟩, fun _ _ h => absurd h (by simp)⟩
    exact .call hload (.call hconnect (.call hcreate .here))
  obtain ⟨ts₁, h₁⟩ := @halone db _ ts again htable rows
  obtain ⟨ls₁, hr₁⟩ := h₁.run hr
  obtain ⟨tr, _, db₂, hx₂, hnone⟩ := can_dropRole hs rfl (scripts_ownPolicies hr₁)
  obtain ⟨ts₂, h₂⟩ := @halone _ _ ts₁ (.dropRole master t) hx₂.reaches rows
  obtain ⟨tr', _, db₃, hx₃, hmig⟩ := can_migrate hs hnone
  obtain ⟨ts₃, h₃⟩ := @halone _ _ ts₂ again hx₃.reaches rows
  exact ⟨_, (h₁.trans h₂).trans h₃, rfl, hmig⟩

/-! ## The pod of the tenant -/

/-- A pod of the tenant, with a user. -/
def TenantId.pod (t : TenantId) : Pod := ⟨t.val, true, true, [("alice", [t.val])], "pod"⟩

/-- A request for as many records as there may be. -/
def allRecords (n : ℕ) : PodRequest where
  route := .getRecords
  labUser := some "alice"
  userAgent := none
  remoteAddr := "10.0.0.1"
  args := [("limit", String.ofList ('1' :: List.replicate n '0'))]
  json := .missing

theorem decimal_zeros (m n : ℕ) :
    Pod.decimal m true (List.replicate n '0') = some (m * 10 ^ n) := by
  induction n generalizing m with
  | zero => simp [Pod.decimal]
  | succ n ih =>
    have h : Pod.decimal m true ('0' :: List.replicate n '0') =
        Pod.decimal (10 * m + 0) true (List.replicate n '0') := rfl
    rw [List.replicate_succ, h, ih]
    congr 1
    ring

theorem limit_allRecords (n : ℕ) : Pod.limit (allRecords n) = ((10 ^ n : ℕ) : ℤ) := by
  have hspace : ∀ c ∈ '1' :: List.replicate n '0', ¬Pod.isIntSpace c = true := by
    intro c hc
    rcases List.mem_cons.1 hc with rfl | hc
    · decide
    · rw [List.eq_of_mem_replicate hc]
      decide
  have hstrip : (('1' :: List.replicate n '0').dropWhile Pod.isIntSpace).rdropWhile
      Pod.isIntSpace = '1' :: List.replicate n '0' := by
    rw [List.dropWhile_cons_of_neg (hspace _ List.mem_cons_self), List.rdropWhile_eq_self_iff]
    exact fun hne => hspace _ (List.getLast_mem hne)
  have hdecimal : Pod.decimal 0 false ('1' :: List.replicate n '0') = some (10 ^ n) := by
    have h : Pod.decimal 0 false ('1' :: List.replicate n '0') =
        Pod.decimal 1 true (List.replicate n '0') := rfl
    rw [h, decimal_zeros, one_mul]
  have hint : Pod.pyInt (String.ofList ('1' :: List.replicate n '0')) =
      some ((10 ^ n : ℕ) : ℤ) := by
    rw [Pod.pyInt, String.toList_ofList, hstrip]
    simp [hdecimal]
  have hargs : (allRecords n).args.lookup "limit" =
      some (String.ofList ('1' :: List.replicate n '0')) := List.lookup_cons_self
  rw [Pod.limit, hargs, Option.bind_some, hint]
  rfl

/-- The pod serves the request. -/
theorem serve_allRecords (n : ℕ) :
    t.pod.serve (allRecords n) = t.pod.getRecords (allRecords n) := by
  have hne : t.val ≠ "" := by
    intro h
    have hv := t.valid
    rw [h] at hv
    exact absurd hv (by simp [tenantIdRe])
  have halice : pyStrip "alice" = "alice" := by decide +kernel
  have hauth : requireLabUser t.pod (allRecords n) = none := by
    simp [requireLabUser, authorizeLabUser, allRecords, TenantId.pod, halice, hne]
  rw [Pod.serve, hauth]
  rfl

/-- The pod selects the records on a connection bound to the tenant. -/
theorem allRecords_issues {order : RowOrder} {db : Db} {rows : List Record} (n : ℕ) :
    ∃ w, Issues (clientStep order t.role) ((pods order t.pod t.role).prog (allRecords n))
        { db, rows } (.query 0 (.select (10 ^ n : ℕ))) w ∧
      w.db = db ∧ w.rows = rows ∧ w.conns 0 = some ⟨some { setting := some t.val }⟩ := by
  have hne : t.pod.tenantId ≠ "" := by
    intro h
    have hv := t.valid
    rw [show t.val = "" from h] at hv
    exact absurd hv (by simp [tenantIdRe])
  have hstep (w : Client) (c : ClientCmd) (x : ClientChoice) :
      clientStep order t.role c w (w.answer order t.role x c).1 (w.answer order t.role x c).2 :=
    ⟨w, x, ⟨rfl, .refl⟩, rfl⟩
  have hprog : (pods order t.pod t.role).prog (allRecords n) = (do
      let _ ← t.pod.serve (allRecords n)) := rfl
  have hmissing : t.pod.tenantMissing = none := by simp [Pod.tenantMissing, hne]
  have hbind (c : ℕ) : t.pod.bindTenant c = (do
      Pod.rollback c
      Pod.query c (.setConfig t.val)) := by
    rw [Pod.bindTenant, if_pos hne]
    rfl
  -- The connection is opened, set up and bound, and then the records are selected.
  rw [hprog, serve_allRecords, Pod.getRecords, limit_allRecords, Pod.withDb, hmissing]
  simp only [Pod.dbConn, Pod.getDbConnection]
  simp only [hbind]
  exact ⟨_, .call (hstep _ _ {}) (.call (hstep _ _ {}) (.call (hstep _ _ { conn := some 0 })
    (.call (hstep _ _ {}) (.call (hstep _ _ {}) .here)))), rfl, rfl, rfl⟩

/-- A row of the tenant is returned to the pod. -/
theorem shown_step {order : RowOrder} {w : Client} {row : Record} {n : ℕ}
    (hmig : w.db.Migrated t) (hrow : row ∈ w.rows) (hown : row.tenantId = t.val)
    (hn : w.rows.length ≤ n) (hconn : w.conns 0 = some ⟨some { setting := some t.val }⟩) :
    ∃ found w', clientStep order t.role (.query 0 (.select n)) w (.ok found) w' ∧ row ∈ found := by
  obtain ⟨r, hrole, -, htable, -⟩ := hmig.role
  have hholds : w.db.holds t.role .table = true := by simp [Db.holds, hrole, htable]
  have hvisible : row ∈ w.visible t.role { setting := some t.val } := by
    refine List.mem_filter.2 ⟨List.mem_append_left _ hrow, ?_⟩
    simp only [Db.shows, Bool.or_eq_true, List.any_eq_true, decide_eq_true_eq]
    exact .inr ⟨_, hmig.policy, rfl, hown.symm, rfl⟩
  have hlength : (order.sort (w.visible t.role { setting := some t.val })).length ≤ n := by
    refine (order.perm _).length_eq.le.trans ((List.length_filter_le _ _).trans ?_)
    simpa using hn
  have hrun : w.run order t.role {} { setting := some t.val } (.select n) =
      (.ok (order.sort (w.visible t.role { setting := some t.val })),
        { setting := some t.val }) := by
    simp only [Client.run, hmig.table, hholds]
    simp [List.take_of_length_le hlength]
  have hquery : w.answer order t.role {} (.query 0 (.select n)) =
      (.ok (order.sort (w.visible t.role { setting := some t.val })),
        w.setConn 0 (some ⟨some { setting := some t.val }⟩)) := by
    simp only [Client.answer, Client.query, hconn]
    simp [hrun]
  exact ⟨_, _, ⟨w, {}, ⟨rfl, .refl⟩, hquery⟩, (order.perm _).mem_iff.2 hvisible⟩

end

/-! ## What is inherited -/

section

variable {t : TenantId} {w w' : Land owns} {row : Record} {master name : String}
  {ls : List (Label sqlSig (ScriptOp owns) Empty)}

/-- A row is returned to a pod of the tenant, after the tenant was migrated again. -/
def Returned (t : TenantId) (w : Land owns) (row : Record) : Prop :=
  ∃ w', w.Steps w' ∧ w'.scripts.world.Migrated t ∧ ∃ order pod ts p, pod.tenantId = t.val ∧
    (pods order pod t.role).Run (fun _ _ => True) { db := w'.scripts.world, rows := w'.rows } ts p ∧
      ∃ req c n found p', (pods order pod t.role).Step p
        (.run req ⟨.query c (.select n), .ok found⟩) p' ∧ row ∈ found

/-- A row returned is the tenant's. -/
theorem Returned.own (hr : (scripts owns).Run (fun _ _ => True) (.new {}) ls w.scripts)
    (h : Returned t w row) : row.tenantId = t.val := by
  obtain ⟨w', hsteps, hmig, order, pod, ts, p, hT, hp, req, c, n, found, p', hst, hrow⟩ := h
  obtain ⟨ls', hr'⟩ := hsteps.run hr
  exact (pods_meet hr' hmig hT hp).select_own hst row hrow

/-- A row of the tenant may be returned. -/
theorem returned_of_own (hr : (scripts owns).Run (fun _ _ => True) (.new {}) ls w.scripts)
    (hs : Secrets owns t master name) (hrow : row ∈ w.rows) (hown : row.tenantId = t.val) :
    Returned t w row := by
  obtain ⟨w', hsteps, hrows, hmig⟩ := can_recreate hr hs
  rw [← hrows] at hrow
  let order := byTime
  let digits := Nat.clog 10 w'.rows.length
  obtain ⟨client, hissues, hdb, hrows', hconn⟩ :=
    @allRecords_issues t order w'.scripts.world w'.rows digits
  obtain ⟨found, client', hselect, hfound⟩ := @shown_step t order client row
    (10 ^ digits) (hdb ▸ hmig) (hrows' ▸ hrow) hown
    (by rw [hrows']; exact Nat.le_pow_clog (by norm_num) _) hconn
  obtain ⟨ts, p, p', hp, hst⟩ := Serial.step_of_issues (M := pods order t.pod t.role)
    (G := fun _ _ => True) (fun _ _ => trivial)
    (.snoc .nil trivial (.start (allRecords digits))) hissues hselect
  exact ⟨w', hsteps, hmig, order, t.pod, ts, p, rfl, hp, _, _, _, found, p', hst, hfound⟩

/-- After a deletion that returned, no row from before it is returned to a pod of the tenant
    created again, exactly if none of those rows was the tenant's. -/
theorem inherited_iff {tr : Trace cpSig}
    (hr : (scripts owns).Run (fun _ _ => True) (.new {}) ls w.scripts)
    (hdel : Exec (landing owns) (deleteTenant t) w tr (.ok ()) w')
    (hs : Secrets owns t master name) :
    (∀ row ∈ w.rows, ¬Returned t w' row) ↔ ∀ row ∈ w.rows, row.tenantId ≠ t.val := by
  have hsteps := steps_of_exec hdel
  obtain ⟨ls', hr'⟩ := hsteps.run hr
  refine forall₂_congr fun row hrow => not_congr ⟨fun h => h.own hr', fun hown => ?_⟩
  exact returned_of_own hr' hs (hsteps.rows hrow) hown

end

/-! ## A tenant deleted and created again -/

/-- The script of a drop-role Job run to its end. -/
def Land.drops (m : DropManifest) (w : Land ownsA) : Land ownsA :=
  let i : ScriptOp ownsA := .dropRole m.masterSecret m.name.tenant
  let a := i.prog.eval answerA (fun _ => ()) 0 w.scripts.world
  ⟨⟨a.2.2, w.scripts.threads ++ [⟨i, a.1, result a.2.1⟩]⟩, w.rows⟩

/-- An execution of the script of a tenant has ended. -/
def Land.dropEnded (t : TenantId) (w : Land ownsA) : Bool :=
  w.scripts.threads.any fun th =>
    match th.op, th.prog with
    | .dropRole _ u, .ret _ => u = t
    | _, _ => false

/-- Every command succeeds, and the drop-role Job runs as it is applied. -/
def landAnswer (c : Cmd) (w : Land ownsA) : cpSig.Resp c × Land ownsA :=
  match c with
  | .shell (.applyDropJob m) => (succeeding (.shell (.applyDropJob m)), w.drops m)
  | .kube (.dropJobConditions _ d) => 
    (.ok [("Complete", if w.dropEnded d.tenant then "True" else "False")], w)
  | c => ((openAnswer "now" succeeding c ∅).1, w)

theorem Land.steps_drops (m : DropManifest) (w : Land ownsA) : w.Steps (w.drops m) := by
  obtain ⟨⟨db, ts⟩, rows⟩ := w
  let i : ScriptOp ownsA := .dropRole m.masterSecret m.name.tenant
  have hn : (ts ++ [(NtierLab.scripts ownsA).thread i])[ts.length]? = some ⟨i, [], i.prog⟩ := by
    rw [List.getElem?_append_right le_rfl, Nat.sub_self]
    rfl
  obtain ⟨ls, hr⟩ := System.run_of_exec (fun _ => rfl)
    (exec_eval answerA_step (fun _ => ()) i.prog 0 db) hn
  have hset (th : Thread sqlSig String (ScriptOp ownsA)) :
      (ts ++ [(NtierLab.scripts ownsA).thread i]).set ts.length th = ts ++ [th] := by
    rw [List.set_append_right _ _ le_rfl, Nat.sub_self]
    rfl
  rw [hset] at hr
  exact .head (.script (.start i)) (Land.steps_of_run hr rows)

theorem Land.ended_of_dropEnded {t : TenantId} {w : Land ownsA} (h : w.dropEnded t = true) :
    ∃ th ∈ w.scripts.threads, (∃ m, th.op = .dropRole m t) ∧ th.prog = .ret () := by
  obtain ⟨⟨op, hist, prog⟩, hth, h⟩ := List.any_eq_true.1 h
  cases op with
  | migrate m tenants => cases h
  | dropRole m u =>
    cases prog with
    | ret x =>
      cases of_decide_eq_true h
      exact ⟨_, hth, ⟨m, rfl⟩, rfl⟩
    | _ => cases h

theorem landAnswer_step (c : Cmd) (w : Land ownsA) :
    landing ownsA c w (landAnswer c w).1 (landAnswer c w).2 := by
  cases c with
  | shell s =>
    cases s with
    | applyDropJob m => exact ⟨w.steps_drops m, trivial⟩
    | _ => exact ⟨.refl, trivial⟩
  | kube q =>
    cases q with
    | dropJobConditions p d =>
      refine ⟨.refl, fun hcond => ?_⟩
      by_cases h : w.dropEnded d.tenant = true
      · exact w.ended_of_dropEnded h
      · rw [if_neg h] at hcond
        exact absurd hcond (by decide)
    | _ => exact ⟨.refl, trivial⟩
  | _ => exact ⟨.refl, trivial⟩

/-- A row of a tenant. -/
def hello (tenant : String) : Record :=
  ⟨0, 0, some "10.0.0.1", some "pod", some "curl", some "hello", tenant⟩

/-- The database after the first migration of the tenant `a`, with a row. -/
def helloLand (tenant : String) : Land ownsA := ⟨migratedA.2, [hello tenant]⟩

/-- The deletion of the tenant `a`. -/
def helloDeletion (tenant : String) : Trace cpSig × Except Exn Unit × Land ownsA :=
  (deleteTenant .a).eval (fun _ : Unit => landAnswer) (fun _ => ()) 0 (helloLand tenant)

/-- The deletion returns, whoever the row belongs to. -/
theorem helloDeletion_exec {tenant : String} (h : tenant ∈ ["a", "b"]) :
    Exec (landing ownsA) (deleteTenant .a) (helloLand tenant) (helloDeletion tenant).1 (.ok ())
      (helloDeletion tenant).2.2 := by
  have hok : (["a", "b"].all fun x => (helloDeletion x).2.1.toBool) = true := by decide +kernel
  have hx := exec_eval (fun _ => landAnswer_step) (fun _ => ()) (deleteTenant .a) 0
    (helloLand tenant)
  cases hret : (helloDeletion tenant).2.1 with
  | ok u => exact hret ▸ hx
  | error e =>
    have := List.all_eq_true.1 hok tenant h
    rw [hret] at this
    cases this

theorem helloLand_run (tenant : String) : (scripts ownsA).Run (fun _ _ => True) (.new {})
    migratedA.1 (helloLand tenant).scripts := by
  have hplay : (scripts ownsA).play answerA (fun _ _ => none) (fun _ _ => true) (.new {})
      firstMigration = some migratedA := (Option.some_get _).symm
  exact (System.run_play answerA_step (fun x => nomatch x) hplay).weaken fun _ _ _ => trivial

theorem secrets_ownsA : Secrets ownsA .a "master" "ntier-dev/rds/tenant-a" :=
  ⟨fun u => by simp [ownsA], fun u => by simp [ownsA]⟩

/-- The row of another tenant is not returned to the tenant `a`. -/
theorem inherited_iff_other : ¬Returned .a (helloDeletion "b").2.2 (hello "b") := by
  refine (inherited_iff (helloLand_run "b") (helloDeletion_exec (by simp)) secrets_ownsA).2
    (fun row hrow => ?_) _ List.mem_cons_self
  rw [List.mem_singleton.1 hrow]
  decide

/-- A row of the tenant `a` is returned to the tenant `a` created again. -/
theorem inherited : ¬∀ (w w' : Land ownsA) ls tr,
    (scripts ownsA).Run (fun _ _ => True) (.new {}) ls w.scripts →
      Exec (landing ownsA) (deleteTenant .a) w tr (.ok ()) w' →
        ∀ row ∈ w.rows, ¬Returned .a w' row := by
  intro h
  have hx := @helloDeletion_exec "a" (by simp)
  obtain ⟨ls, hr⟩ := (steps_of_exec hx).run (helloLand_run "a")
  have hrow : hello "a" ∈ (helloDeletion "a").2.2.rows :=
    (steps_of_exec hx).rows List.mem_cons_self
  exact h _ _ _ _ (helloLand_run "a") hx _ List.mem_cons_self
    (returned_of_own hr secrets_ownsA hrow rfl)

end NtierLab
