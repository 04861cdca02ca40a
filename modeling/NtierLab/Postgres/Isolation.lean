import NtierLab.Postgres.Scripts
import NtierLab.ControlPlane.Onboard

/-!
# Row isolation

Any number of executions of the two scripts on one database, interleaved statement
by statement, each of which may stop after any of them (`scripts`). The secret of a
tenant holds the user name of the tenant (`owns` says whose a secret is), and the
map of a migration names the secrets of its tenants (`SecretMap`).

* `Db.Sound`: every policy is a tenant's own, and the table is granted only under
  row-level security; a sound database is isolated (`Db.Sound.isolated`);
* `isolated_iff`: the runs through isolated databases only are those which grant
  the table only once row-level security is enabled. A first migration grants
  before it enables.
-/

namespace NtierLab

open Prog NtierLab.System

/-- A map of the secrets of the tenants. -/
structure SecretMap (owns : TenantId → String → Prop) where
  entries : List (TenantId × String)
  honest : ∀ p ∈ entries, owns p.1 p.2

/-- An execution of a script. -/
inductive ScriptOp (owns : TenantId → String → Prop)
  | migrate (masterSecret : String) (tenants : SecretMap owns)
  | dropRole (masterSecret : String) (t : TenantId)

variable {owns : TenantId → String → Prop}

/-- The program of an execution. -/
def ScriptOp.prog : ScriptOp owns → Script Unit
  | migrate m tenants => NtierLab.migrate m tenants.entries
  | dropRole m t => NtierLab.dropRole m t.role t.policy

/-- The secret of a tenant holds its user name. -/
def Honest (owns : TenantId → String → Prop) (e : Event sqlSig) : Prop :=
  ∀ name c, e = ⟨.load name, .ok c⟩ → ∀ t, owns t name → c.username = t.role

/-- The executions of the scripts on one database. -/
def scripts (owns : TenantId → String → Prop) : System sqlSig String (ScriptOp owns) Empty Db where
  prog := ScriptOp.prog
  step c db r db' := (∃ x, db.answer x c = (r, db')) ∧ Honest owns ⟨c, r⟩
  env _ _ _ := False
  fork _ := []

/-! ## The statements of the scripts -/

/-- The statements the scripts make: roles and policies are those of tenants. -/
def Statement.Scripted : Statement → Prop
  | createRole role _ | alterPassword role _ | grant _ role => ∃ t : TenantId, role = t.role
  | createPolicy name role tenant =>
    ∃ t : TenantId, name = t.policy ∧ role = t.role ∧ tenant = t.val
  | _ => True

/-- The monitor of the statements of the scripts. -/
def scripted : Monitor sqlSig Unit where
  allow _ c := ∀ s, c = .exec s → s.Scripted
  next _ _ := ()

@[simp] theorem scripted_exec (u : Unit) (s : Statement) :
    scripted.allow u (.exec s) ↔ s.Scripted := by
  simp [scripted]

@[simp] theorem scripted_other (u : Unit) {c : SqlCmd} (hc : ∀ s, c ≠ .exec s) :
    scripted.allow u c :=
  fun s h => absurd h (hc s)

section Obeys

theorem migrateTenant_obeys {p : TenantId × String} (hp : owns p.1 p.2) :
    (migrateTenant p).Obeys scripted (Honest owns) () := by
  suffices h : ∀ creds : Creds, (∀ t, owns t p.2 → creds.username = t.role) →
      (∃ t : TenantId, creds.username = t.role) ∧ ∃ t : TenantId, p.1.policy = t.policy ∧
        creds.username = t.role ∧ p.1.val = t.val by
    simpa [migrateTenant, Obeys, Script.load, Script.exec, Script.roleExists,
      Statement.Scripted, Honest] using h
  exact fun creds hc => ⟨⟨p.1, hc _ hp⟩, p.1, rfl, hc _ hp, rfl⟩

theorem migrateTenants_obeys {ps : List (TenantId × String)} (hps : ∀ p ∈ ps, owns p.1 p.2) :
    (migrateTenants ps).Obeys scripted (Honest owns) () := by
  induction ps with
  | nil => trivial
  | cons p ps ih =>
    refine wp.bind (migrateTenant_obeys (hps p List.mem_cons_self)) (fun _ _ _ => ?_) fun _ _ h => h
    exact ih fun q hq => hps q (List.mem_cons_of_mem p hq)

/-- The scripts make no other statements. -/
theorem ScriptOp.obeys (op : ScriptOp owns) : op.prog.Obeys scripted (Honest owns) () := by
  cases op with
  | migrate m tenants =>
    suffices h : ∀ u, (migrateTenants tenants.entries).wp (scripted.contract (Honest owns))
        (outcome (fun _ => (do Script.exec .enableRls; Script.exec .forceRls : Script Unit).wp
          (scripted.contract (Honest owns)) fun _ _ => True) fun _ _ => True) u by
      simp only [prog, NtierLab.migrate, Obeys, Script.load, Script.exec, Script.connect] at h ⊢
      simpa [Statement.Scripted] using fun _ _ _ _ _ _ _ _ _ _ u _ => h u
    intro u
    refine (migrateTenants_obeys tenants.honest).imp fun x _ _ => ?_
    cases x <;> simp [Script.exec, Statement.Scripted]
  | dropRole m t =>
    simp [prog, NtierLab.dropRole, Obeys, Script.load, Script.exec, Script.connect,
      Script.roleExists, Statement.Scripted]

end Obeys

/-! ## Isolation -/

namespace Db

variable {db db' : Db}

/-- Every policy is a tenant's own, and a tenant holds the table only under row-level
    security. -/
structure Sound (db : Db) : Prop where
  policy : ∀ p ∈ db.policies, ∃ t : TenantId, p = ⟨t.policy, t.role, t.val⟩
  table : db.rls = false → ∀ (t : TenantId) r, db.roles t.role = some r → .table ∉ r.grants

theorem sound_empty : Sound {} := ⟨by simp, by simp⟩

/-- A sound database is isolated. -/
theorem Sound.isolated (h : db.Sound) : db.Isolated := by
  intro t setting tenant ⟨⟨r, hr, hg⟩, hp⟩
  cases hrls : db.rls with
  | false => exact absurd hg (h.table hrls t r hr)
  | true =>
    obtain ⟨p, hmem, hrole, rfl, rfl⟩ := hp hrls
    obtain ⟨u, rfl⟩ := h.policy p hmem
    obtain rfl := TenantId.role_injective hrole
    exact ⟨rfl, rfl⟩

/-- Without row-level security, a tenant that holds the table is not isolated. -/
theorem not_isolated {t : TenantId} {r : DbRole} (hrls : db.rls = false)
    (hr : db.roles t.role = some r) (hg : .table ∈ r.grants) : ¬db.Isolated := by
  intro h
  have := (h t t.val "" ⟨⟨r, hr, hg⟩, by simp [hrls]⟩).1
  have hv := t.valid
  rw [← this] at hv
  exact absurd hv (by decide)

@[simp] theorem setRole_self (role : String) (r : Option DbRole) :
    (db.setRole role r).roles role = r := by
  simp [setRole]

theorem setRole_ne {role role' : String} {r : Option DbRole} (h : role' ≠ role) :
    (db.setRole role r).roles role' = db.roles role' := by
  simp [setRole, h]

/-- Changing a role without granting it the table keeps a database sound. -/
theorem Sound.setRole (h : db.Sound) {role : String} {r : Option DbRole}
    (hr : db.rls = false → ∀ r', r = some r' → ∀ t : TenantId, role = t.role →
      .table ∉ r'.grants) : (db.setRole role r).Sound := by
  refine ⟨h.policy, fun hrls t r' hr' => ?_⟩
  by_cases ht : t.role = role
  · subst ht
    exact hr hrls r' (by simpa using hr') t rfl
  · rw [setRole_ne ht] at hr'
    exact h.table hrls t r' hr'

/-- A statement of the scripts keeps a database sound, unless it grants the table without
    row-level security. -/
theorem Sound.effect (h : db.Sound) {s : Statement} (hs : s.Scripted)
    (hg : ∀ role, s = .grant .table role → db.rls = true) (hdb : db.effect s = some db') :
    db'.Sound := by
  cases s with
  | ddl d => cases d <;> cases hdb <;> exact ⟨h.policy, h.table⟩
  | createRole role password =>
    simp only [Db.effect] at hdb
    split at hdb <;> cases hdb
    exact h.setRole (by rintro - _ ⟨⟩; simp)
  | alterPassword role password =>
    obtain ⟨r, hr, rfl⟩ := Option.map_eq_some_iff.1 hdb
    exact h.setRole (by rintro hrls _ ⟨⟩ t rfl; exact h.table hrls t r hr)
  | alterNologin role =>
    obtain ⟨r, hr, rfl⟩ := Option.map_eq_some_iff.1 hdb
    exact h.setRole (by rintro hrls _ ⟨⟩ t rfl; exact h.table hrls t r hr)
  | dropRole role =>
    obtain ⟨r, hr, hdb⟩ := Option.bind_eq_some_iff.1 hdb
    split at hdb <;> cases hdb
    exact h.setRole (by rintro - _ ⟨⟩)
  | grant p role =>
    obtain ⟨r, hr, rfl⟩ := Option.map_eq_some_iff.1 hdb
    refine h.setRole ?_
    rintro hrls _ ⟨⟩ t rfl
    have hp : Privilege.table ≠ p := by
      rintro rfl
      exact absurd (hg _ rfl) (by simp [hrls])
    simpa [hp] using h.table hrls t r hr
  | revoke p role =>
    obtain ⟨r, hr, rfl⟩ := Option.map_eq_some_iff.1 hdb
    refine h.setRole ?_
    rintro hrls _ ⟨⟩ t rfl hmem
    exact h.table hrls t r hr (List.mem_of_mem_filter hmem)
  | dropPolicy name =>
    cases hdb
    exact ⟨fun p hp => h.policy p (List.mem_of_mem_filter hp), h.table⟩
  | createPolicy name role tenant =>
    simp only [Db.effect] at hdb
    split at hdb <;> cases hdb
    obtain ⟨t, rfl, rfl, rfl⟩ := hs
    refine ⟨fun p hp => ?_, h.table⟩
    rcases List.mem_cons.1 hp with rfl | hp
    · exact ⟨t, rfl⟩
    · exact h.policy p hp
  | enableRls => cases hdb; exact ⟨h.policy, by simp⟩
  | forceRls => cases hdb; exact ⟨h.policy, h.table⟩

/-- What is answered to a statement: it was executed, or it changed nothing. -/
theorem answer_exec {x : SqlChoice} {s : Statement} {r : Except String Unit}
    (h : db.answer x (.exec s) = (r, db')) :
    (r = .ok () ∧ db.effect s = some db') ∨
      (r ≠ .ok () ∧ db' = db) := by
  simp only [answer, exec] at h
  split at h
  · next hx hs =>
    cases h
    split at hs
    · cases hs
    · exact .inl ⟨rfl, hs⟩
  · cases h; exact .inr ⟨by simp, rfl⟩
  · cases h; exact .inr ⟨by simp, rfl⟩

/-- What is answered to any other command changes nothing. -/
theorem answer_other {x : SqlChoice} {c : SqlCmd} {r : c.Resp} (hc : ∀ s, c ≠ .exec s)
    (h : db.answer x c = (r, db')) : db' = db := by
  cases c with
  | exec s => exact absurd rfl (hc s)
  | _ => simp only [answer, Prod.mk.injEq] at h; exact h.2.symm

end Db

/-- The configurations of the scripts. -/
abbrev Scripts (owns : TenantId → String → Prop) := Config sqlSig String (ScriptOp owns) Db

/-- The table is granted only once row-level security is enabled. -/
def grantsUnderRls : Guard sqlSig String (ScriptOp owns) Empty Db := fun p l =>
  ∀ n i role, l = .run n i ⟨.exec (.grant .table role), .ok ()⟩ → p.world.rls = true

/-- The database is isolated before every step. -/
def isolated : Guard sqlSig String (ScriptOp owns) Empty Db := fun p _ => p.world.Isolated

variable {p p' : Scripts owns} {l : Label sqlSig (ScriptOp owns) Empty}
  {ls : List (Label sqlSig (ScriptOp owns) Empty)} {G : Guard sqlSig String (ScriptOp owns) Empty Db}

theorem scripts_obeys (hr : (scripts owns).Run G (.new {}) ls p) :
    p.Obeys scripted (Honest owns) fun _ => () :=
  hr.obeys ScriptOp.obeys (fun _ _ _ _ (h : _ ∧ _) => h.2) (Config.obeys_new _ _ _ _)

/-- A step that grants the table only under row-level security keeps the database sound. -/
theorem step_sound (hp : p.Obeys scripted (Honest owns) fun _ => ()) (hs : p.world.Sound)
    (hg : grantsUnderRls p l) (hst : (scripts owns).Step p l p') : p'.world.Sound := by
  obtain ⟨w, ts⟩ := p
  cases hst with
  | start i => exact hs
  | env h => exact h.elim
  | @run w w' ts n i t c k r hn hr =>
    obtain ⟨⟨x, hx⟩, -⟩ := hr
    by_cases hc : ∃ s, c = .exec s
    · obtain ⟨s, rfl⟩ := hc
      rcases Db.answer_exec hx with ⟨rfl, hdb⟩ | ⟨-, rfl⟩
      · refine hs.effect ?_ (fun role h => hg n i role (by rw [h])) hdb
        exact (obeys_call.1 (hp _ (List.mem_of_getElem? hn))).1 s rfl
      · exact hs
    · rw [Db.answer_other (fun s h => hc ⟨s, h⟩) hx]
      exact hs

/-- A step to an isolated database grants the table only under row-level security. -/
theorem step_grantsUnderRls (hp : p.Obeys scripted (Honest owns) fun _ => ())
    (hst : (scripts owns).Step p l p') (hi : p'.world.Isolated) : grantsUnderRls p l := by
  rintro n i role rfl
  by_contra hrls
  obtain ⟨w, ts⟩ := p
  cases hst with
  | run hn hr =>
    obtain ⟨⟨x, hx⟩, -⟩ := hr
    obtain ⟨t, rfl⟩ := (obeys_call.1 (hp _ (List.mem_of_getElem? hn))).1 _ rfl
    rcases Db.answer_exec hx with ⟨-, hdb⟩ | ⟨h, -⟩
    · obtain ⟨r, -, rfl⟩ := Option.map_eq_some_iff.1 hdb
      exact Db.not_isolated (by simpa [Db.setRole] using hrls) (Db.setRole_self _ _) (by simp) hi
    · exact h rfl

/-- The runs of the scripts through isolated databases only, from a new one, are those that
    grant the table only once row-level security is enabled. -/
theorem isolated_iff :
    (scripts owns).Run isolated (.new {}) ls p ∧ p.world.Isolated ↔
      (scripts owns).Run grantsUnderRls (.new {}) ls p := by
  constructor
  · rintro ⟨hr, hi⟩
    induction hr with
    | nil => exact .nil
    | snoc hr hg hst ih =>
      exact .snoc (ih hg) (step_grantsUnderRls (scripts_obeys hr) hst hi) hst
  · intro hr
    suffices h : (scripts owns).Run isolated (.new {}) ls p ∧ p.world.Sound from
      ⟨h.1, h.2.isolated⟩
    induction hr with
    | nil => exact ⟨.nil, Db.sound_empty⟩
    | snoc hr hg hst ih =>
      exact ⟨.snoc ih.1 ih.2.isolated hst, step_sound (scripts_obeys hr) ih.2 hg hst⟩

/-! ## The first migration -/

/-- The secret of the tenant `a`. -/
def ownsA (t : TenantId) (name : String) : Prop := t = .a ∧ name = "ntier-dev/rds/tenant-a"

theorem ownsA_honest : ∀ p ∈ [(TenantId.a, "ntier-dev/rds/tenant-a")], ownsA p.1 p.2 := by
  simp [ownsA]

/-- A database on which every command succeeds, the secret being that of the tenant `a`. -/
def answerA (_ : Unit) (c : SqlCmd) (db : Db) : c.Resp × Db :=
  db.answer { creds := ⟨"tenant_a", "pw"⟩ } c

/-- The first migration of the tenant `a`, up to the grant of the table. -/
def firstGrant : List (Move (ScriptOp ownsA) Empty Unit) :=
  .start (.migrate "master" ⟨[(.a, "ntier-dev/rds/tenant-a")], ownsA_honest⟩) ::
    List.replicate 12 (.run 0 ())

theorem answerA_step (x : Unit) (c : SqlCmd) (db : Db) :
    (scripts ownsA).step c db (answerA x c db).1 (answerA x c db).2 := by
  refine ⟨⟨_, rfl⟩, ?_⟩
  rintro name c' h t ⟨rfl, rfl⟩
  cases c <;> cases h
  rfl

/-- The first migration passes through a database that is not isolated. -/
theorem firstGrant_not_isolated :
    ¬∀ ls (p : Scripts ownsA), (scripts ownsA).Run (fun _ _ => True) (.new {}) ls p →
      p.world.Isolated := by
  intro h
  have hplay : ((scripts ownsA).play answerA (fun _ _ => none) (fun _ _ => true) (.new {})
      firstGrant).map
      (fun q => (q.2.world.rls, q.2.world.roles TenantId.a.role)) =
      some (false, some ⟨true, "pw", [.table, .schema, .database]⟩) := rfl
  obtain ⟨⟨ls, p⟩, hp, hq⟩ := Option.map_eq_some_iff.1 hplay
  obtain ⟨hrls, hrole⟩ := Prod.mk.inj hq
  exact Db.not_isolated hrls hrole (by simp)
    (h ls p ((run_play answerA_step (fun x => nomatch x) hp).weaken fun _ _ _ => trivial))

end NtierLab
