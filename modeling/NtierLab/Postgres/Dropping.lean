import NtierLab.Postgres.Login

/-!
# Dropping a role

An execution of `_DROP_SCRIPT` whose statements fail only where the database cannot execute
them (`uninterrupted`), after any executions of the two scripts, each of which may have stopped
after any statement. A role is dropped only without privileges and policies, and a privilege
is revoked only on a table that is there.

* `Db.Tabled`: a role is there only with the table; the scripts keep it so;
* `Db.Dropped`: what is left of a tenant, and that the others are as they were;
* `dropRole_completes`: the script completes, and leaves nothing of the tenant.
-/

namespace NtierLab

open Prog

/-- The database, which executes every statement it can. -/
def uninterrupted : Handler sqlSig Db := fun c db r db' => ∃ x : SqlChoice, x.fails = none ∧
  db.answer x c = (r, db')

/-- Nothing of the tenant is left, and nothing else is changed. -/
structure Db.Dropped (t : TenantId) (db db' : Db) : Prop where
  role : db'.roles t.role = none
  policy : db'.policiesOf t = []
  roles : ∀ role ≠ t.role, db'.roles role = db.roles role
  policies : ∀ u ≠ t, db'.policiesOf u = db.policiesOf u
  table : db'.table = db.table
  rls : db'.rls = db.rls
  forceRls : db'.forceRls = db.forceRls

/-- A role is there only with the table. -/
def Db.Tabled (db : Db) : Prop := ∀ role, db.roles role ≠ none → db.table = true

/-! ## The table comes first -/

/-- The command creates no role. -/
def CreatesNoRole (c : SqlCmd) : Prop := ∀ role password, c ≠ .exec (.createRole role password)

/-- The event creates the table. -/
def CreatesTable (e : Event sqlSig) : Prop := e = ⟨.exec (.ddl .createTable), .ok ()⟩

/-- The monitor of a script: its state is whether it has created the table, as it must have to
    create a role. -/
def tableFirst : Monitor sqlSig Prop where
  allow made c := ¬made → CreatesNoRole c
  next made e := made ∨ CreatesTable e

section

variable {owns : TenantId → String → Prop} {α β : Type} {p : Script α} {f : α → Script β}
  {made : Prop}

/-- A script that has created the table. -/
theorem tableFirst_made (hmade : made) (p : Script α) :
    p.Obeys tableFirst (fun _ => True) made := by
  induction p generalizing made with
  | ret a => trivial
  | fail e => trivial
  | call c k ih => exact obeys_call.2 ⟨fun h => absurd hmade h, fun r _ => ih r (.inl hmade)⟩

/-- A script that creates no role, then another. -/
theorem tableFirst_seq (hp : p.Calls CreatesNoRole)
    (hf : ∀ a made, (f a).Obeys tableFirst (fun _ => True) made) :
    (p >>= f).Obeys tableFirst (fun _ => True) made :=
  wp.bind (hp.wp (I := fun _ => True) (fun _ _ hc _ => ⟨fun _ => hc, fun _ _ _ => trivial⟩) trivial)
    (fun a made _ => hf a made) fun _ _ _ => trivial

theorem tableFirst_of_calls (hp : p.Calls CreatesNoRole) :
    p.Obeys tableFirst (fun _ => True) made :=
  wp.imp (hp.wp (I := fun _ => True) (fun _ _ hc _ => ⟨fun _ => hc, fun _ _ _ => trivial⟩) trivial)
    fun _ _ _ => trivial

theorem exec_createsNoRole {s : Statement} (hs : ∀ role password, s ≠ .createRole role password) :
    (Script.exec s).Calls CreatesNoRole :=
  ⟨fun role password h => hs role password (SqlCmd.exec.inj h), fun r => calls_result r⟩

/-- Both scripts create the table before any role. -/
theorem ScriptOp.tableFirst (op : ScriptOp owns) :
    op.prog.Obeys tableFirst (fun _ => True) False := by
  have hload (name : String) : (Script.load name).Calls CreatesNoRole :=
    ⟨by simp [CreatesNoRole], fun r => calls_result r⟩
  have hconnect : Script.connect.Calls CreatesNoRole :=
    ⟨by simp [CreatesNoRole], fun r => calls_result r⟩
  cases op with
  | migrate master tenants =>
    refine tableFirst_seq (hload master) fun _ _ => tableFirst_seq hconnect fun _ _ => ?_
    refine obeys_call.2 ⟨fun _ => by simp [CreatesNoRole], fun r _ => ?_⟩
    cases r with
    | error e => trivial
    | ok u => exact tableFirst_made (.inr rfl) _
  | dropRole master t =>
    refine tableFirst_seq (hload master) fun _ _ => tableFirst_seq hconnect fun _ _ => ?_
    refine tableFirst_of_calls (.bind (exec_createsNoRole (by simp)) fun _ => ?_)
    refine .bind ⟨by simp [CreatesNoRole], fun r => calls_result r⟩ fun present => .ite (fun _ => ?_)
      fun _ => trivial
    refine .bind ⟨by simp [CreatesNoRole], fun _ => trivial⟩ fun password => ?_
    iterate 6 refine .bind (exec_createsNoRole (by simp)) fun _ => ?_
    exact exec_createsNoRole (by simp)

end

/-! ## A role is there only with the table -/

section

variable {db db' : Db} {s : Statement}

theorem effect_table (h : db.effect s = some db') (htable : db.table = true) :
    db'.table = true := by
  cases s with
  | ddl d => cases d <;> cases h <;> first | rfl | exact htable
  | createRole role password =>
    simp only [Db.effect] at h
    split at h <;> cases h
    exact htable
  | dropRole role =>
    obtain ⟨r, -, h⟩ := Option.bind_eq_some_iff.1 h
    split at h <;> cases h
    exact htable
  | createPolicy name role tenant =>
    simp only [Db.effect] at h
    split at h <;> cases h
    exact htable
  | dropPolicy _ | enableRls | forceRls =>
    cases h
    exact htable
  | _ =>
    obtain ⟨r, -, rfl⟩ := Option.map_eq_some_iff.1 h
    exact htable

/-- A statement that creates no role leaves roles that were there. -/
theorem effect_roles (h : db.effect s = some db') (hs : CreatesNoRole (.exec s)) {role : String}
    (hrole : db'.roles role ≠ none) : db.roles role ≠ none := by
  have hset {role' : String} {r : DbRole} {o : Option DbRole} (hr : db.roles role' = some r)
      (h : (db.setRole role' o).roles role ≠ none) : db.roles role ≠ none := by
    by_cases heq : role = role'
    · subst heq
      simp [hr]
    · rwa [Db.setRole_ne heq] at h
  cases s with
  | ddl d => cases d <;> cases h <;> exact hrole
  | createRole role' password => exact absurd rfl (hs role' password)
  | dropRole role' =>
    obtain ⟨r, hr, h⟩ := Option.bind_eq_some_iff.1 h
    split at h <;> cases h
    exact hset hr hrole
  | createPolicy name role' tenant =>
    simp only [Db.effect] at h
    split at h <;> cases h
    exact hrole
  | dropPolicy _ | enableRls | forceRls =>
    cases h
    exact hrole
  | _ =>
    obtain ⟨r, hr, rfl⟩ := Option.map_eq_some_iff.1 h
    exact hset hr hrole

end

section

variable {owns : TenantId → String → Prop} {p p' : Scripts owns}
  {ls : List (Label sqlSig (ScriptOp owns) Empty)}

/-- The table is there for the scripts that have created it, and for the roles. -/
structure HasTable (p : Scripts owns) : Prop where
  made : ∀ th ∈ p.threads, tableFirst.after False th.hist → p.world.table = true
  tabled : p.world.Tabled

/-- A step that leaves the table, or creates it. -/
theorem HasTable.step {l : Label sqlSig (ScriptOp owns) Empty} (h : HasTable p)
    (hobeys : p.Obeys tableFirst (fun _ => True) fun _ => False)
    (hst : (scripts owns).Step p l p') : HasTable p' := by
  cases hst with
  | start i =>
    refine ⟨fun th hth hmade => ?_, h.tabled⟩
    rcases List.mem_append.1 hth with hth | hth
    · exact h.made th hth hmade
    · obtain rfl := List.mem_singleton.1 hth
      exact hmade.elim
  | env henv => exact henv.elim
  | @run w w' ts n i t c k r hn hr =>
    obtain ⟨⟨x, hx⟩, -⟩ := hr
    have hmem := List.mem_of_getElem? hn
    have hallow := (obeys_call.1 (hobeys _ hmem)).1
    -- A statement is executed, or the database is as it was.
    have hstep : (∃ s, c = .exec s ∧ w.effect s = some w') ∨ (w' = w ∧ ¬CreatesTable ⟨c, r⟩) := by
      cases c with
      | exec s =>
        rcases Db.answer_exec hx with ⟨-, hdb⟩ | ⟨hr, rfl⟩
        · exact .inl ⟨s, rfl, hdb⟩
        · refine .inr ⟨rfl, fun h => hr ?_⟩
          cases h
          rfl
      | _ =>
        refine .inr ⟨Db.answer_other (by simp) hx, fun h => ?_⟩
        cases h
    have htable : w.table = true → w'.table = true := by
      rcases hstep with ⟨s, -, hdb⟩ | ⟨rfl, -⟩
      · exact effect_table hdb
      · exact id
    refine ⟨fun th hth hmade => ?_, fun role hrole => ?_⟩
    · have hth : th ∈ ts.set n ⟨i, t ++ [⟨c, r⟩], k r⟩ := by simpa [scripts] using hth
      rcases List.mem_or_eq_of_mem_set hth with hth | rfl
      · exact htable (h.made th hth hmade)
      rw [Monitor.after_concat] at hmade
      rcases hmade with hmade | hmade
      · exact htable (h.made _ hmem hmade)
      rcases hstep with ⟨s, rfl, hdb⟩ | ⟨-, hnot⟩
      · obtain rfl := SqlCmd.exec.inj (congrArg Event.cmd hmade)
        cases hdb
        rfl
      · exact absurd hmade hnot
    · rcases hstep with ⟨s, rfl, hdb⟩ | ⟨rfl, -⟩
      · by_cases hmade : tableFirst.after False t
        · exact htable (h.made _ hmem hmade)
        · exact htable (h.tabled role (effect_roles hdb (hallow hmade) hrole))
      · exact h.tabled role hrole

/-- In every run of the scripts, a role is there only with the table. -/
theorem scripts_tabled (hr : (scripts owns).Run (fun _ _ => True) (.new {}) ls p) :
    p.world.Tabled := by
  suffices h : HasTable p from h.tabled
  induction hr with
  | nil => exact ⟨fun th hth => absurd hth List.not_mem_nil, fun role h => absurd rfl h⟩
  | snoc hr _ hst ih =>
    exact ih.step (hr.obeys ScriptOp.tableFirst (fun _ _ _ _ _ => trivial)
      (Config.obeys_new _ _ _ _)) hst

end

/-! ## Dropping a role -/

section

variable {α β : Type} {p : Script α} {V : α → Db → Prop} {V' : β → Db → Prop} {db db' : Db}
  {t : TenantId}

/-- The script returns, with a value and a database in `V`. -/
def Completes (p : Script α) (V : α → Db → Prop) (db : Db) : Prop :=
  p.wp ⟨fun _ _ => True, uninterrupted⟩ (outcome V fun _ _ => False) db

theorem Completes.bind {f : α → Script β} (hp : Completes p V db)
    (hf : ∀ a db', V a db' → Completes (f a) V' db') : Completes (p >>= f) V' db :=
  wp.bind hp (fun a db' h => hf a db' h) fun _ _ h => h.elim

theorem completes_load (name : String) : Completes (Script.load name) (fun _ db' => db' = db) db := by
  refine ⟨trivial, fun r db₁ h => ?_⟩
  obtain ⟨x, hx, h⟩ := h
  obtain ⟨rfl, rfl⟩ := Prod.mk.inj h
  rw [hx]
  exact rfl

theorem completes_connect : Completes Script.connect (fun _ db' => db' = db) db := by
  refine ⟨trivial, fun r db₁ h => ?_⟩
  obtain ⟨x, hx, h⟩ := h
  obtain ⟨rfl, rfl⟩ := Prod.mk.inj h
  rw [hx]
  exact rfl

theorem completes_roleExists (role : String) : Completes (Script.roleExists role)
    (fun b db' => db' = db ∧ b = (db.roles role).isSome) db := by
  refine ⟨trivial, fun r db₁ h => ?_⟩
  obtain ⟨x, hx, h⟩ := h
  obtain ⟨rfl, rfl⟩ := Prod.mk.inj h
  rw [hx]
  exact ⟨rfl, rfl⟩

theorem completes_randomPassword : Completes (.call .randomPassword .ret : Script String)
    (fun _ db' => db' = db) db := by
  refine ⟨trivial, fun r db₁ h => ?_⟩
  obtain ⟨x, -, h⟩ := h
  exact (Prod.mk.inj h).2.symm

theorem completes_exec {s : Statement} (hs : db.exec s = some db') :
    Completes (Script.exec s) (fun _ db₁ => db₁ = db') db := by
  refine ⟨trivial, fun r db₁ h => ?_⟩
  obtain ⟨x, hx, h⟩ := h
  simp only [Db.answer, hx, hs] at h
  obtain ⟨rfl, rfl⟩ := Prod.mk.inj h
  exact rfl

/-- A statement that changes a role which is there. -/
theorem completes_role {s : Statement} {role : String} {r : DbRole} (g : DbRole → DbRole)
    (htable : db.table = true) (hs : ∀ d : Db, d.table = true →
      d.exec s = (d.roles role).map fun r => d.setRole role (some (g r))) :
    Completes (Script.exec s) (fun _ db₁ => db₁ = db.setRole role (some (g r)))
      (db.setRole role (some r)) :=
  completes_exec (by rw [hs (db.setRole role (some r)) htable]; simp)

/-- The role of the tenant is dropped, with the policies of its name. -/
theorem dropped_setRole (hown : db.OwnPolicies) : db.Dropped t
    { db.setRole t.role none with policies := db.policies.filter (·.name ≠ t.policy) } := by
  have hpolicy {u : TenantId} (q : Policy) (hq : q ∈ db.policies) (hrole : q.role = u.role) :
      q.name = u.policy := by
    obtain ⟨v, rfl⟩ := hown q hq
    rw [TenantId.role_injective hrole]
  refine ⟨db.setRole_self t.role none, ?_, fun role h => db.setRole_ne h, fun u hu => ?_, rfl, rfl,
    rfl⟩
  · refine List.filter_eq_nil_iff.2 fun q hq hrole => ?_
    obtain ⟨hq, hname⟩ := List.mem_filter.1 hq
    have := hpolicy q hq (of_decide_eq_true hrole)
    simp [this] at hname
  · rw [Db.policiesOf, Db.policiesOf, List.filter_filter]
    refine List.filter_congr fun q hq => ?_
    by_cases hrole : q.role = u.role
    · have hne : q.name ≠ t.policy := fun h => hu (TenantId.policy_injective
        ((hpolicy q hq hrole).symm.trans h))
      simp [hrole, hne]
    · simp [hrole]

/-- Without the role, the policies of its name are dropped all the same. -/
theorem dropped_absent (hown : db.OwnPolicies) (hrole : db.roles t.role = none) : db.Dropped t
    { db with policies := db.policies.filter (·.name ≠ t.policy) } := by
  have h := dropped_setRole (t := t) hown
  have hset : db.setRole t.role none = db := by
    rw [Db.setRole, ← hrole, Function.update_eq_self]
  rwa [hset] at h

/-- Each privilege is revoked. -/
theorem revoked_nil (g : List Privilege) : ((((g.filter (· ≠ .table)).filter
    (· ≠ .sequence)).filter (· ≠ .schema)).filter (· ≠ .database)) = [] := by
  simp only [List.filter_filter, List.filter_eq_nil_iff]
  intro q _
  cases q <;> simp

/-- A role that is there is locked, stripped of its privileges, and dropped. -/
theorem completes_dropRole (master : String) (hown : db.OwnPolicies) (htab : db.Tabled) :
    Completes (dropRole master t.role t.policy) (fun _ => db.Dropped t) db := by
  refine (completes_load master).bind ?_
  rintro _ db₁ rfl
  refine completes_connect.bind ?_
  rintro _ db₁ rfl
  refine (completes_exec (rfl : db₁.exec (.dropPolicy t.policy) = some _)).bind ?_
  rintro _ db₂ rfl
  refine (completes_roleExists t.role).bind ?_
  rintro _ db₂ ⟨rfl, rfl⟩
  cases hrole : db₁.roles t.role with
  | none =>
    exact dropped_absent hown hrole
  | some r =>
    have htable : db₁.table = true := htab t.role (by simp [hrole])
    obtain ⟨d, hd⟩ : ∃ d, d = { db₁ with policies := db₁.policies.filter (·.name ≠ t.policy) } :=
      ⟨_, rfl⟩
    have htable' : d.table = true := hd ▸ htable
    have hset : d = d.setRole t.role (some r) := by
      rw [hd, Db.setRole, ← hrole, Function.update_eq_self]
    simp only [Option.isSome_some, if_true]
    rw [← hd]
    refine completes_randomPassword.bind ?_
    rintro password d rfl
    rw [hset]
    refine (completes_role (fun r => { r with login := false }) htable' fun d _ => rfl).bind ?_
    rintro _ _ rfl
    refine (completes_role (fun r => { r with password }) htable' fun d _ => rfl).bind ?_
    rintro _ _ rfl
    have hrevoke (q : Privilege) (d : Db) (hd : d.table = true) : d.exec (.revoke q t.role) =
        (d.roles t.role).map fun r =>
          d.setRole t.role (some { r with grants := r.grants.filter (· ≠ q) }) := by
      simp [Db.exec, Db.effect, hd]
    refine (completes_role _ htable' (hrevoke .table)).bind ?_
    rintro _ _ rfl
    refine (completes_role _ htable' (hrevoke .sequence)).bind ?_
    rintro _ _ rfl
    refine (completes_role _ htable' (hrevoke .schema)).bind ?_
    rintro _ _ rfl
    refine (completes_role _ htable' (hrevoke .database)).bind ?_
    rintro _ _ rfl
    have hdrop (r : DbRole) (hr : r.grants = []) : (d.setRole t.role (some r)).exec
        (.dropRole t.role) = some (d.setRole t.role none) := by
      have hpolicies : (d.setRole t.role (some r)).policies.all (·.role ≠ t.role) = true := by
        refine List.all_eq_true.2 fun q hq => ?_
        rw [hd] at hq
        obtain ⟨hq, hname⟩ := List.mem_filter.1 hq
        obtain ⟨u, rfl⟩ := hown q hq
        refine decide_eq_true fun hrole => ?_
        obtain rfl := TenantId.role_injective hrole
        simp at hname
      simp only [Db.exec, Db.effect, Statement.onTable, Db.setRole_self, Option.bind_some, hr,
        hpolicies, Bool.false_and, Bool.false_eq_true, if_false, and_self, if_true,
        Db.setRole_setRole]
    refine wp.imp (completes_exec (hdrop _ (revoked_nil r.grants))) fun x db₂ hx => ?_
    cases x with
    | error e => exact hx.elim
    | ok u =>
      obtain rfl : db₂ = d.setRole t.role none := hx
      rw [hd]
      exact dropped_setRole hown

end

variable {owns : TenantId → String → Prop} {ls : List (Label sqlSig (ScriptOp owns) Empty)}
  {p : Scripts owns} {t : TenantId} {master : String} {tr : Trace sqlSig} {x : Except String Unit}
  {db' : Db}

/-- After any executions of the scripts, each stopped anywhere, the script that drops the role of
    a tenant is not stopped by what they left: it completes, nothing of the tenant is left, and
    the roles and the policies of the others are as they were. -/
theorem dropRole_completes (hr : (scripts owns).Run (fun _ _ => True) (.new {}) ls p)
    (hx : Exec uninterrupted (dropRole master t.role t.policy) p.world tr x db') :
    x = .ok () ∧ p.world.Dropped t db' := by
  have h := hx.meets (completes_dropRole master (scripts_ownPolicies hr) (scripts_tabled hr))
  cases x with
  | error e => exact h.elim
  | ok u => exact ⟨rfl, h⟩

/-- A migration that stopped after it granted the table. -/
theorem firstGrant_holds : ((scripts ownsA).play answerA (fun _ _ => none) (fun _ _ => true)
    (.new {}) firstGrant).map (fun q => (q.2.world.roles TenantId.a.role).map (·.grants)) =
      some (some [.table, .schema, .database]) := rfl

/-- The role it left is dropped. -/
theorem dropRole_completes_granted : ∃ db : Db,
    (db.roles TenantId.a.role).map (·.grants) = some [.table, .schema, .database] ∧
    db.Dropped .a ((dropRole "master" TenantId.a.role TenantId.a.policy).eval answerA
      (fun _ => ()) 0 db).2.2 := by
  obtain ⟨⟨ls, p⟩, hp, hgrants⟩ := Option.map_eq_some_iff.1 firstGrant_holds
  have hr := (System.run_play answerA_step (fun x => x.elim) hp).weaken fun _ _ _ => trivial
  have hanswer (x : Unit) (c : SqlCmd) (db : Db) :
      uninterrupted c db (answerA x c db).1 (answerA x c db).2 := ⟨_, rfl, rfl⟩
  exact ⟨p.world, hgrants, (dropRole_completes hr (exec_eval hanswer _ _ 0 p.world)).2⟩

end NtierLab
