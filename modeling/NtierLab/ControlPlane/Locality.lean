import NtierLab.ControlPlane.App
import NtierLab.ControlPlane.Processes

/-!
# Locality

Each operation on a tenant changes the registry row and the job of that tenant only
(`Own`), whatever is answered to it: the helpers change no row and no job at all
(`Quiet`), and the writes of an operation name its tenant.

* `Upserts`, `Restores`: suspending, resuming and provisioning write the row, as one of a tenant
  that is not being deleted, and delete none;
* `Deletes`: deleting leaves the row as one of a tenant being deleted, or none.
-/

namespace NtierLab

open Prog

/-- The tenant whose row or job a command changes, if there is one. -/
def Cmd.target : Cmd → Option TenantId
  | .reg (.upsert t _ _) | .reg (.delete t) | .app (.enter t _) | .app (.discard t) => some t
  | _ => none

/-- The command writes the row of the tenant, or starts a job for it. -/
def Cmd.Writes (t : TenantId) : Cmd → Prop
  | .reg (.upsert u _ _) | .app (.enter u _) => u = t
  | _ => False

/-- The commands that write the row, or start a job: an `upsert`, or a job that enters. -/
theorem Cmd.Writes.eq {t : TenantId} {c : Cmd} (h : c.Writes t) :
    (∃ v f, c = .reg (.upsert t v f)) ∨ ∃ fn, c = .app (.enter t fn) := by
  unfold Cmd.Writes at h
  split at h
  · next u v f => exact .inl ⟨v, f, by rw [show u = t from h]⟩
  · next u fn => exact .inr ⟨fn, by rw [show u = t from h]⟩
  · exact h.elim

/-- The command changes no row, and is none of the API. -/
def Quiet : Cmd → Prop
  | .reg (.upsert _ _ _) | .reg (.delete _) | .app _ => False
  | _ => True

/-- The command changes no row and no job but those of `t`. -/
def Own (t : TenantId) (c : Cmd) : Prop := ∀ u, c.target = some u → u = t

/-- A command that changes no row and no job changes those of any tenant at most. -/
theorem Quiet.own {t : TenantId} {c : Cmd} (h : Quiet c) : Own t c := by
  intro u hu
  unfold Cmd.target at hu
  split at hu <;> first | exact h.elim | cases hu

/-- The fields leave a tenant as one being deleted. -/
def Fields.Dooms (f : Fields) : Prop :=
  (f.desiredStatus = none ∨ f.desiredStatus = Fields.desire .gone) ∧
    (f.status = some .deleting ∨ f.status = some .deleteFailed) ∧ f.version = none

/-- The statuses of a tenant being deleted. -/
def Status.Doomed (st : Status) : Prop := st = .deleting ∨ st = .deleteFailed

/-- The fields make a tenant one that is not being deleted. -/
def Fields.Restores (f : Fields) : Prop :=
  ∃ d st, f.desiredStatus = Fields.desire d ∧ f.status = some st ∧ d ≠ .gone ∧ ¬st.Doomed ∧
    f.version = none

/-- Fields of a deletion name a desired status that exists, and no null version. -/
theorem Fields.Dooms.valid {f : Fields} (hf : f.Dooms) : f.Valid := by
  rcases hf.1 with h | h <;> simp [h, hf.2.2]

/-- The command changes no row and no job, or it writes the row of `t`. -/
def Upserts (t : TenantId) : Cmd → Prop
  | .reg (.upsert u _ _) => u = t
  | c => Quiet c

/-- The command changes no row and no job, or it writes the row of `t` as one of a tenant that is
    not being deleted. -/
def Restores (t : TenantId) : Cmd → Prop
  | .reg (.upsert u v f) => u = t ∧ v = none ∧ f.Restores
  | c => Quiet c

/-- The command changes no row and no job, or it writes the row of `t` as one being deleted, or
    it deletes it. -/
def Deletes (t : TenantId) : Cmd → Prop
  | .reg (.upsert u v f) => u = t ∧ v = none ∧ f.Dooms
  | .reg (.delete u) => u = t
  | c => Quiet c

/-- Restoring is a way of writing the row. -/
theorem Restores.upserts {t : TenantId} {c : Cmd} (h : Restores t c) : Upserts t c := by
  unfold Restores at h
  split at h
  · exact h.1
  · unfold Upserts
    split
    · exact h.elim
    · exact h

/-- A write of the row of `t` changes no other row. -/
theorem Upserts.own {t : TenantId} {c : Cmd} (h : Upserts t c) : Own t c := by
  intro u hu
  unfold Upserts at h
  split at h
  · exact (Option.some.inj hu).symm.trans h
  · exact Quiet.own h u hu

/-- Nor does a write of a deletion of `t`, or the deletion of its row. -/
theorem Deletes.own {t : TenantId} {c : Cmd} (h : Deletes t c) : Own t c := by
  intro u hu
  unfold Deletes at h
  split at h
  · exact (Option.some.inj hu).symm.trans h.1
  · exact (Option.some.inj hu).symm.trans h
  · exact Quiet.own h u hu

/-- Changing no row is allowed among the writes of one. -/
theorem Quiet.upserts {t : TenantId} {c : Cmd} (h : Quiet c) : Upserts t c := by
  unfold Upserts
  split
  · exact h.elim
  · exact h

theorem Quiet.restores {t : TenantId} {c : Cmd} (h : Quiet c) : Restores t c := by
  unfold Restores
  split
  · exact h.elim
  · exact h

theorem Quiet.deletes {t : TenantId} {c : Cmd} (h : Quiet c) : Deletes t c := by
  unfold Deletes
  split
  · exact h.elim
  · exact h.elim
  · exact h

section Quiet

variable {t : TenantId} {outputs : Outputs}

/-- The parts that only read, and start processes. -/
theorem Acts.quiet {S : Shell → Prop} {c : Cmd} (h : Acts S c) : Quiet c := by
  unfold Quiet
  split <;> first | exact h.elim | trivial

/-- A program that starts processes, of any kind. -/
theorem quiet_of_acts {α : Type} {p : CP α} (hp : p.Calls (Acts fun _ => True)) : p.Calls Quiet :=
  hp.imp fun _ => Acts.quiet

/-- No process changes a row, however it is run. -/
theorem run_quiet (c : Shell) : (run c).Calls Quiet := quiet_of_acts (run_acts trivial)

theorem runOk_quiet (c : Shell) : (runOk c).Calls Quiet := quiet_of_acts (runOk_acts trivial)

theorem lifecycleRun_quiet (c : Shell) : (lifecycleRun c).Calls Quiet :=
  quiet_of_acts (lifecycleRun_acts trivial)

theorem getenv_quiet (name : String) : (getenv name).Calls Quiet := quiet_of_acts (getenv_acts name)

theorem tofuOutputs_quiet : tofuOutputs.Calls Quiet := quiet_of_acts tofuOutputs_acts

theorem nodeIp_quiet : nodeIp.Calls Quiet := quiet_of_acts nodeIp_acts

theorem require_quiet (key value : String) : (require key value).Calls Quiet :=
  quiet_of_acts (require_acts key value)

theorem edgeUrl_quiet (t : TenantId) (timeout : ℕ) : (edgeUrl outputs t timeout).Calls Quiet :=
  quiet_of_acts (edgeUrl_acts t timeout)

theorem edgeSets_quiet (ip : String) (ids : List TenantId) :
    (edgeSets t outputs ip ids).Calls Quiet :=
  quiet_of_acts (edgeSets_acts (fun _ _ => trivial) t ip ids)

theorem refreshMigrate_quiet (secrets : TidMap String) :
    (refreshMigrate t outputs secrets).Calls Quiet :=
  quiet_of_acts (refreshMigrate_acts (fun _ _ => trivial) secrets)

/-- Onboarding writes no row. -/
theorem onboard_quiet (ip : String) (ids : List TenantId) (irsaRoles secrets : TidMap String) :
    (onboard t outputs ip ids irsaRoles secrets).Calls Quiet :=
  quiet_of_acts (onboard_acts (fun _ _ => trivial) (fun _ _ => trivial) ip ids irsaRoles secrets)

/-- Neither does onboarding the platform tenant first. -/
theorem onboardAll_quiet (ip : String) (maps : IdentityMaps) :
    (onboardAll t outputs ip maps).Calls Quiet :=
  .bind (.ite (fun _ => onboard_quiet _ _ _ _) fun _ => trivial) fun _ => onboard_quiet _ _ _ _

/-! ## Identity -/

/-- The commands of a program and of its handler of AWS errors. -/
theorem exceptClientError_calls {α : Type} {P : Cmd → Prop} {p : CP α} {h : String → Exn → CP α}
    (hp : p.Calls P) (hh : ∀ code exc, (h code exc).Calls P) :
    (exceptClientError p h).Calls P :=
  hp.tryCatch fun e => by cases e <;> first | exact hh _ _ | trivial

/-- The commands of a program and of its handler of the control plane's own errors. -/
theorem exceptControlPlane_calls {α : Type} {P : Cmd → Prop} {p : CP α}
    {h : ControlPlaneError → CP α} (hp : p.Calls P) (hh : ∀ exc, (h exc).Calls P) :
    (exceptControlPlane p h).Calls P :=
  hp.tryCatch fun e => by cases e <;> first | exact hh _ | trivial

/-- Retrying makes the commands of the program, again. -/
theorem withRetry_calls {α : Type} {P : Cmd → Prop} {fn : CP α} (hfn : fn.Calls P) (n : ℕ) :
    (withRetry fn n).Calls P := by
  induction n with
  | zero => trivial
  | succ n ih =>
    cases n with
    | zero => exact hfn
    | succ n => exact hfn.tryCatch fun e => .ite (fun _ => ih) fun _ => trivial

theorem describeSecret_quiet (name : String) : (describeSecret name).Calls Quiet :=
  ⟨trivial, fun r => calls_result r⟩

theorem deleteSecret_quiet (name : String) (days : ℕ) : (deleteSecret name days).Calls Quiet :=
  ⟨trivial, fun r => calls_result r⟩

/-- The commands of creating a secret. -/
theorem ensureSecret_calls {P : Cmd → Prop} {name : String} {payload : SecretPayload}
    (hdescribe : P (.aws (.describeSecret name))) (hdelete : ∀ d, P (.aws (.deleteSecret name d)))
    (hcreate : P (.aws (.createSecret name payload))) (hrounds : ∀ k, P (.host (.rounds k))) :
    (ensureSecret name payload).Calls P := by
  have hdesc : (describeSecret name).Calls P := ⟨hdescribe, fun r => calls_result r⟩
  have hcre : (createSecret name payload).Calls P := ⟨hcreate, fun r => calls_result r⟩
  have hpoll (n : ℕ) : (pollDeleted name n).Calls P := by
    induction n with
    | zero => trivial
    | succ n ih =>
      refine .bind (exceptClientError_calls (.map _ hdesc) fun _ _ => ?_) fun gone => ?_
      · exact .ite (fun _ => trivial) fun _ => trivial
      · exact .ite (fun _ => trivial) fun _ => ih
  refine exceptClientError_calls ?_ fun _ _ => .ite (fun _ => trivial) fun _ => hcre
  refine .bind hdesc fun desc => .ite (fun _ => ?_) fun _ => trivial
  refine .bind (exceptClientError_calls ?_ fun _ _ => trivial) fun _ => ?_
  · exact ⟨hdelete 0, fun r => calls_result r⟩
  · exact .bind ⟨hrounds 120, fun _ => trivial⟩ fun n => .bind (hpoll n) fun _ => hcre

/-- Creating a secret writes no row. -/
theorem ensureSecret_quiet (name : String) (payload : SecretPayload) :
    (ensureSecret name payload).Calls Quiet :=
  ensureSecret_calls trivial (fun _ => trivial) trivial fun _ => trivial

/-- The command creates the identity of a tenant: it is on its secret, on its role, or on neither
    a secret nor a role. -/
def Creating (outputs : Outputs) (t : TenantId) : Cmd → Prop
  | .aws .callerIdentity | .host .password | .host (.rounds _) => True
  | .aws (.describeSecret name) | .aws (.deleteSecret name _) | .aws (.createSecret name _) =>
    name = secretName outputs t
  | .aws (.getRole name) | .aws (.putRolePolicy name _ _) => name = roleName outputs t
  | .aws (.updateAssumeRolePolicy name trust) | .aws (.createRole name trust) =>
    name = roleName outputs t ∧ trust = ⟨outputs.oidcProviderArn, outputs.oidcProviderUrl,
      "system:serviceaccount:" ++ t.ns ++ ":test-app", "sts.amazonaws.com"⟩
  | _ => False

/-- Nor do the commands that create an identity. -/
theorem Creating.quiet {c : Cmd} (h : Creating outputs t c) : Quiet c := by
  unfold Quiet
  split <;> first | exact h.elim | trivial

/-- The commands of creating an identity. -/
theorem ensureTenantIdentity_creating :
    (ensureTenantIdentity outputs t).Calls (Creating outputs t) := by
  refine withRetry_calls (exceptClientError_calls ?_ fun _ _ => calls_throw _) 5
  refine .ite (fun _ => trivial) fun _ => .ite (fun _ => trivial) fun _ => ?_
  dsimp only
  refine .bind ⟨trivial, fun r => calls_result r⟩ fun _ => .bind ⟨trivial, fun _ => trivial⟩ fun _ => ?_
  refine .bind (ensureSecret_calls rfl (fun _ => rfl) rfl fun _ => trivial) fun _ => ?_
  refine .bind (exceptClientError_calls ?_ fun _ _ => .ite (fun _ => trivial) fun _ => ?_) fun _ => ?_
  · refine .bind ⟨rfl, fun r => calls_result r⟩ fun _ => ?_
    exact .bind ⟨⟨rfl, rfl⟩, fun r => calls_result r⟩ fun _ => trivial
  · exact ⟨⟨rfl, rfl⟩, fun r => calls_result r⟩
  · exact .bind ⟨rfl, fun r => calls_result r⟩ fun _ => trivial

theorem ensureTenantIdentity_quiet : (ensureTenantIdentity outputs t).Calls Quiet :=
  ensureTenantIdentity_creating.imp fun _ => Creating.quiet

/-- Nor does applying OpenTofu for a tenant. -/
theorem ensureInfra_quiet (myIp : Option String) : (ensureInfra t myIp).Calls Quiet := by
  refine .bind ⟨trivial, fun _ => trivial⟩ fun tfvars => .ite (fun _ => trivial) fun _ => ?_
  dsimp only
  refine .bind ⟨trivial, fun r => calls_result r⟩ fun changed => .bind tofuOutputs_quiet fun outputs => ?_
  refine .ite (fun _ => .bind (.bind ?_ fun _ => ⟨trivial, fun r => calls_result r⟩) fun _ =>
    tofuOutputs_quiet) fun _ => trivial
  exact .ite (fun _ => trivial) fun _ => ⟨trivial, fun r => calls_result r⟩

/-- Ensuring the identity of a tenant, in any of the ways a request may ask for, writes no row. -/
theorem ensureIdentity_quiet (args : ProvisionArgs) : (ensureIdentity t args).Calls Quiet := by
  refine .ite (fun _ => .bind (ensureInfra_quiet _) fun _ => trivial) fun _ => ?_
  refine .bind tofuOutputs_quiet fun outputs => .ite (fun _ => ?_) fun _ => ?_
  · exact .bind ensureTenantIdentity_quiet fun _ => trivial
  · refine .ite (fun _ => trivial) fun _ => .ite (fun _ => trivial) fun _ => ?_
    exact .ite (fun _ => trivial) fun _ => trivial

/-- The commands of a deletion that may find nothing. -/
theorem unlessGone_calls {P : Cmd → Prop} {p : CP Unit} (hp : p.Calls P) (gone : List String) :
    (unlessGone p gone).Calls P :=
  exceptClientError_calls hp fun _ _ => .ite (fun _ => trivial) fun _ => trivial

/-- Deleting the role of a tenant writes no row. -/
theorem deleteTenantIrsa_quiet (arn : Option String) :
    (deleteTenantIrsa outputs t arn).Calls Quiet := by
  refine .bind (unlessGone_calls ?_ _) fun _ => unlessGone_calls ?_ _
  all_goals exact ⟨trivial, fun r => calls_result r⟩

/-- Nor does deleting its secret. -/
theorem deleteTenantSecret_quiet (name : Option String) :
    (deleteTenantSecret outputs t name).Calls Quiet := by
  have hdays : secretRecoveryWindowDays.Calls Quiet := ⟨trivial, fun r => by cases r <;> trivial⟩
  exact unlessGone_calls (hdays.bind fun _ => deleteSecret_quiet _ _) _

/-! ## Teardown -/

/-- Dropping the role writes no row. -/
theorem revokeAttempts_quiet (last : String) (n : ℕ) :
    (revokeAttempts outputs t last n).Calls Quiet :=
  quiet_of_acts (revokeAttempts_acts (fun _ _ _ => trivial) t last n)

theorem disableApplicationAccess_quiet : (disableApplicationAccess t).Calls Quiet :=
  quiet_of_acts (disableApplicationAccess_acts fun _ _ => trivial)

theorem deleteKubernetes_quiet : (deleteKubernetes t).Calls Quiet :=
  quiet_of_acts (deleteKubernetes_acts fun _ _ => trivial)

end Quiet

/-! ## The operations on a tenant -/

section Own

variable {t : TenantId}

/-- A program that changes no row and no job changes those of `t` at most. -/
theorem own_of_quiet {α : Type} {p : CP α} (hp : p.Calls Quiet) : p.Calls (Own t) :=
  hp.imp fun _ => Quiet.own

theorem get_quiet (u : TenantId) : (TenantStore.get u).Calls Quiet := quiet_of_acts (get_acts u)

theorem list_quiet : TenantStore.list.Calls Quiet := quiet_of_acts list_acts

/-- An `upsert` of the row of `t`, whatever its fields. -/
theorem upsert_upserts (f : Fields) : (TenantStore.upsert t f).Calls (Upserts t) :=
  ⟨rfl, fun r => calls_result r⟩

/-- An `upsert` of the row of `t` with the fields of a deletion. -/
theorem upsert_deletes {f : Fields} (hf : f.Dooms) : (TenantStore.upsert t f).Calls (Deletes t) :=
  ⟨⟨rfl, rfl, hf⟩, fun r => calls_result r⟩

/-- An `upsert` of the row of `t` changes no other row. -/
theorem upsert_own (f : Fields) : (TenantStore.upsert t f).Calls (Own t) :=
  (upsert_upserts f).imp fun _ => Upserts.own

/-- Nor does the deletion of the row of `t`. -/
theorem delete_own : (TenantStore.delete t).Calls (Own t) :=
  ⟨fun _ h => (Option.some.inj h).symm, fun _ => trivial⟩

theorem get_own (u : TenantId) : (TenantStore.get u).Calls (Own t) := own_of_quiet (get_quiet u)

theorem deletes_of_quiet {α : Type} {p : CP α} (hp : p.Calls Quiet) : p.Calls (Deletes t) :=
  hp.imp fun _ => Quiet.deletes

theorem restores_of_quiet {α : Type} {p : CP α} (hp : p.Calls Quiet) : p.Calls (Restores t) :=
  hp.imp fun _ => Quiet.restores

/-- An `upsert` of the row of `t` with the fields of a tenant that is not being deleted. -/
theorem upsert_restores {f : Fields} (hf : f.Restores) : (TenantStore.upsert t f).Calls (Restores t) :=
  ⟨⟨rfl, rfl, hf⟩, fun r => calls_result r⟩

/-- Fields that name a status, and a desired status, of a tenant that is not being deleted. -/
theorem Fields.restores {f : Fields} {d : Desired} {st : Status}
    (hd : f.desiredStatus = Fields.desire d) (hs : f.status = some st) (hv : f.version = none)
    (hdg : d ≠ .gone) (hst : st ≠ .deleting ∧ st ≠ .deleteFailed) : f.Restores :=
  ⟨d, st, hd, hs, hdg, not_or.2 hst, hv⟩

/-- Writing fields that name a status, and a desired status, of a tenant that is not being deleted. -/
theorem upsert_live {f : Fields} {d : Desired} {st : Status}
    (hd : f.desiredStatus = Fields.desire d) (hs : f.status = some st) (hv : f.version = none)
    (hdg : d ≠ .gone) (hst : st ≠ .deleting ∧ st ≠ .deleteFailed) :
    (TenantStore.upsert t f).Calls (Restores t) :=
  upsert_restores (Fields.restores hd hs hv hdg hst)

/-- Suspending writes the row once, as SUSPENDED. -/
theorem suspendTenant_restores : (suspendTenant t).Calls (Restores t) := by
  refine .bind (restores_of_quiet (get_quiet t)) fun item => ?_
  cases item with
  | none => trivial
  | some item =>
    refine .ite (fun _ => trivial) fun _ => .ite (fun _ => trivial) fun _ => ?_
    refine .bind (restores_of_quiet (lifecycleRun_quiet _)) fun _ => ?_
    refine .bind (restores_of_quiet (runOk_quiet _)) fun _ => ?_
    exact upsert_live rfl rfl rfl nofun ⟨nofun, nofun⟩

/-- Resuming writes the row once, as ACTIVE. -/
theorem resumeTenant_restores : (resumeTenant t).Calls (Restores t) := by
  refine .bind (restores_of_quiet (get_quiet t)) fun item => ?_
  cases item with
  | none => trivial
  | some item =>
    refine .ite (fun _ => trivial) fun _ => .ite (fun _ => trivial) fun _ => ?_
    refine .bind (restores_of_quiet tofuOutputs_quiet) fun _ => ?_
    refine .bind (restores_of_quiet list_quiet) fun _ => ?_
    refine .ite (fun _ => trivial) fun _ => .bind (restores_of_quiet nodeIp_quiet) fun _ => ?_
    refine .bind (restores_of_quiet (onboard_quiet _ _ _ _)) fun _ => ?_
    refine .bind (restores_of_quiet (lifecycleRun_quiet _)) fun _ => ?_
    refine .bind (restores_of_quiet (lifecycleRun_quiet _)) fun _ => ?_
    refine .bind (restores_of_quiet (edgeUrl_quiet _ _)) fun _ => ?_
    exact upsert_live rfl rfl rfl nofun ⟨nofun, nofun⟩

/-- Provisioning writes the row as PROVISIONING, then as ACTIVE or FAILED. -/
theorem provision_restores (args : ProvisionArgs) : (provision t args).Calls (Restores t) := by
  refine .bind (upsert_live rfl rfl rfl nofun ⟨nofun, nofun⟩) fun _ => .tryCatch ?_ fun _ =>
    .bind (upsert_live rfl rfl rfl nofun ⟨nofun, nofun⟩) fun _ => trivial
  refine .bind (restores_of_quiet (ensureIdentity_quiet _)) fun a => ?_
  refine .bind (upsert_live rfl rfl rfl nofun ⟨nofun, nofun⟩) fun _ => ?_
  refine .bind (restores_of_quiet list_quiet) fun _ => ?_
  refine .bind (restores_of_quiet nodeIp_quiet) fun _ => ?_
  refine .bind (restores_of_quiet (onboardAll_quiet _ _)) fun _ => ?_
  refine .bind (restores_of_quiet (edgeUrl_quiet _ _)) fun _ => ?_
  exact .bind (upsert_live rfl rfl rfl nofun ⟨nofun, nofun⟩) fun _ => trivial

/-- A step of a deletion is recorded as one of a tenant being deleted. -/
theorem recordStep_deletes (step : String) : (recordStep t step).Calls (Deletes t) :=
  .bind (upsert_deletes ⟨.inl rfl, .inl rfl, rfl⟩) fun _ => trivial

/-- Deleting the identity writes the row as its steps are recorded only. -/
theorem deleteIdentity_deletes (outputs : Outputs) (item : Identity) :
    (deleteIdentity outputs t item).Calls (Deletes t) := by
  refine .ite (fun _ => ?_) fun _ => trivial
  refine .bind (deletes_of_quiet (deleteTenantIrsa_quiet _)) fun _ => ?_
  refine .bind (recordStep_deletes _) fun _ => ?_
  exact .bind (deletes_of_quiet (deleteTenantSecret_quiet _)) fun _ => recordStep_deletes _

/-- A teardown records its steps, and deletes the row at the end. -/
theorem teardown_deletes (item : Identity) : (teardown t item).Calls (Deletes t) := by
  refine .bind (deletes_of_quiet disableApplicationAccess_quiet) fun _ => ?_
  refine .bind (recordStep_deletes _) fun _ => ?_
  refine .bind (deletes_of_quiet tofuOutputs_quiet) fun outputs => ?_
  refine .bind (deletes_of_quiet (revokeAttempts_quiet _ _)) fun _ => ?_
  refine .bind (recordStep_deletes _) fun _ => ?_
  refine .bind (deletes_of_quiet deleteKubernetes_quiet) fun _ => ?_
  refine .bind (recordStep_deletes _) fun _ => .bind (deleteIdentity_deletes _ _) fun _ => ?_
  exact .bind ⟨rfl, fun _ => trivial⟩ fun _ => trivial

/-- A deletion leaves the row as one of a tenant being deleted, or none, if it fails too. -/
theorem deleteTenant_deletes : (deleteTenant t).Calls (Deletes t) :=
  .bind (deletes_of_quiet (get_quiet t)) fun _ =>
    .bind (upsert_deletes ⟨.inr rfl, .inl rfl, rfl⟩) fun _ => (teardown_deletes _).tryCatch fun _ =>
      .bind (upsert_deletes ⟨.inr rfl, .inr rfl, rfl⟩) fun _ => trivial

theorem Restores.own {c : Cmd} (h : Restores t c) : Own t c := h.upserts.own

/-- Each operation on a tenant changes the row of that tenant only. -/
theorem suspendTenant_own : (suspendTenant t).Calls (Own t) :=
  suspendTenant_restores.imp fun _ => Restores.own

theorem resumeTenant_own : (resumeTenant t).Calls (Own t) :=
  resumeTenant_restores.imp fun _ => Restores.own

theorem provision_own (args : ProvisionArgs) : (provision t args).Calls (Own t) :=
  (provision_restores args).imp fun _ => Restores.own

theorem deleteTenant_own : (deleteTenant t).Calls (Own t) :=
  deleteTenant_deletes.imp fun _ => Deletes.own

/-- Reading an object writes no row. -/
theorem kubectlJson_quiet (o : KubeObject) : (kubectlJson t o).Calls Quiet :=
  ⟨trivial, fun r => by rcases r with e | (j | _ | _) <;> trivial⟩

/-- Observing a tenant writes no row. -/
theorem kubectlObserver_quiet : (kubectlObserver t).Calls Quiet := by
  refine .bind (kubectlJson_quiet _) fun ns => ?_
  cases ns with
  | none => trivial
  | some _ =>
    refine .bind (kubectlJson_quiet _) fun _ => .bind (kubectlJson_quiet _) fun _ => ?_
    refine .bind (kubectlJson_quiet _) fun _ => .bind (kubectlJson_quiet _) fun _ => ?_
    exact .bind (kubectlJson_quiet _) fun _ => .bind (kubectlJson_quiet _) fun _ => trivial

/-- Actuators that each change the row and the job of their tenant only. -/
structure Actuators.Local (acts : Actuators) : Prop where
  provision : ∀ t args, (acts.provisionFn t args).Calls (Own t)
  suspend : ∀ t, (acts.suspendFn t).Calls (Own t)
  resume : ∀ t, (acts.resumeFn t).Calls (Own t)
  delete : ∀ t, (acts.deleteFn t).Calls (Own t)

/-- The actuators of the control plane are such. -/
theorem actuators_local : actuators.Local :=
  ⟨fun _ => provision_own, fun _ => suspendTenant_own, fun _ => resumeTenant_own,
    fun _ => deleteTenant_own⟩

variable {observer : TenantId → CP Observed} {acts : Actuators}

/-- What the gate records is of the tenant. -/
theorem recordGated_own (o : Observed) (item : Identity) : (recordGated t o item).Calls (Own t) :=
  .ite (fun _ => upsert_own _) fun _ => upsert_own _

/-- The tenant is observed and recorded again. -/
theorem regate_own (hob : (observer t).Calls Quiet) (item : Option Row) :
    (regate observer t item).Calls (Own t) :=
  .bind (get_own t) fun _ => .bind (own_of_quiet hob) fun _ =>
    .bind (recordGated_own _ _) fun _ => trivial

/-- An action is taken for the tenant. -/
theorem act_own (hacts : acts.Local) (tier : String) (action : Action) :
    (act acts t tier action).Calls (Own t) := by
  cases action with
  | provision | repair => exact .bind (hacts.provision t _) fun _ => trivial
  | suspend => exact .bind (hacts.suspend t) fun _ => trivial
  | resume => exact .bind (hacts.resume t) fun _ => trivial
  | delete => exact .bind (hacts.delete t) fun _ => .bind (get_own t) fun _ => trivial
  | none | purgeRegistry => trivial

/-- An action that fails is recorded on the row of the tenant. -/
theorem carryOut_own (hob : (observer t).Calls Quiet) (hacts : acts.Local) (item : Row)
    (action : Action) : (carryOut observer acts t item action).Calls (Own t) := by
  refine .bind (exceptControlPlane_calls (act_own hacts _ _) fun exc => ?_) fun gone => ?_
  · exact .bind (upsert_own _) fun _ => trivial
  · refine .ite (fun _ => trivial) fun _ => .bind (get_own t) fun again => ?_
    exact .ite (fun _ => regate_own hob _) fun _ => trivial

/-- Without an action, the tenant is recorded, or its row is deleted. -/
theorem settle_own (item : Row) (o : Observed) : (settle t item o).Calls (Own t) := by
  refine .ite (fun _ => .bind delete_own fun _ => trivial) fun _ => .ite (fun _ => ?_) fun _ => ?_
  · exact .bind (upsert_own _) fun _ => trivial
  · exact .bind (recordGated_own _ _) fun _ => trivial

theorem follow_own (hob : (observer t).Calls Quiet) (hacts : acts.Local) (item : Row)
    (o : Observed) (action : Action) : (follow observer acts t item o action).Calls (Own t) := by
  cases action with
  | none => exact settle_own _ _
  | purgeRegistry => exact .bind delete_own fun _ => trivial
  | _ => exact carryOut_own hob hacts _ _

/-- Reconciling a tenant changes its row only, whatever is observed and planned. -/
theorem reconcileOne_own (hob : (observer t).Calls Quiet) (hacts : acts.Local) :
    (reconcileOne observer acts t).Calls (Own t) := by
  refine .bind (get_own t) fun item => ?_
  cases item with
  | none => trivial
  | some item =>
    exact .bind (own_of_quiet hob) fun _ => .bind (upsert_own _) fun _ =>
      .bind (follow_own hob hacts _ _ _) fun _ => trivial

/-- The commands of a program of which a missing object is no error. -/
theorem orMissing_calls {α : Type} {P : Cmd → Prop} {p : CP α} (hp : p.Calls P) (code : String) :
    (orMissing p code).Calls P :=
  exceptClientError_calls (.map _ hp) fun _ _ => .ite (fun _ => trivial) fun _ => trivial

theorem adoptUrl_quiet (outputs : Outputs) : (adoptUrl outputs).Calls Quiet :=
  .ite (fun _ => trivial) fun _ => ⟨trivial, fun _ => trivial⟩

theorem adoptIds_quiet (outputs : Outputs) (tids : List String) :
    (adoptIds outputs tids).Calls Quiet := by
  cases tids with
  | nil => exact .bind ⟨trivial, fun r => calls_result r⟩ fun _ => trivial
  | cons _ _ => trivial

theorem tagIdentity_quiet (outputs : Outputs) : (tagIdentity outputs t).Calls Quiet := by
  refine exceptClientError_calls ?_ fun _ _ => trivial
  exact .bind ⟨trivial, fun r => calls_result r⟩ fun _ => ⟨trivial, fun r => calls_result r⟩

/-- Adopting a tenant writes its row only. -/
theorem adoptTenant_own (outputs : Outputs) (alb : String) :
    (adoptTenant outputs alb t).Calls (Own t) := by
  refine .bind (own_of_quiet (orMissing_calls (describeSecret_quiet _) _)) fun secret => ?_
  refine .ite (fun _ => trivial) fun _ => .bind (orMissing_calls ?_ _) fun role => ?_
  · exact own_of_quiet ⟨trivial, fun r => calls_result r⟩
  · cases role with
    | none => trivial
    | some arn =>
      refine .bind (own_of_quiet (tagIdentity_quiet outputs)) fun _ => ?_
      exact .bind (get_own t) fun _ => .map _ (upsert_own _)

/-! ## The requests and the jobs of a tenant -/

/-- A response changes no row. -/
theorem respond_own (code : ℕ) (body : Body) : (respond code body).Calls (Own t) :=
  ⟨fun _ h => (nomatch h), fun _ => trivial⟩

/-- A request whose errors are answered. -/
theorem handled_own {p : CP Unit} (hp : p.Calls (Own t)) : (handled p).Calls (Own t) :=
  exceptControlPlane_calls hp fun _ => respond_own _ _

/-- A job is started for the tenant of the request. -/
theorem startJob_own (status : String) (fn : JobFn) : (startJob t status fn).Calls (Own t) :=
  .bind ⟨fun _ h => (Option.some.inj h).symm, fun _ => trivial⟩ fun _ =>
    .bind (get_own t) fun _ => respond_own _ _

theorem acceptCreate_own (body : CreateBody) : (acceptCreate t body).Calls (Own t) :=
  .bind (upsert_own _) fun _ => startJob_own _ _

/-- A request to create a tenant is for it, whether it is refused or accepted. -/
theorem createChecked_own (body : CreateBody) :
    (handled (createChecked t body)).Calls (Own t) := by
  refine handled_own (.bind (get_own t) fun existing => ?_)
  cases existing with
  | none => exact acceptCreate_own _
  | some existing =>
    dsimp only [createExisting]
    split <;> first | exact acceptCreate_own _ | exact respond_own _ _

/-- Each request on a tenant changes the row and the job of that tenant only. -/
theorem suspend_own : (suspend t).Calls (Own t) := by
  refine handled_own (.tryCatch (.bind suspendTenant_own fun _ => respond_own _ _) fun e => ?_)
  cases e <;> first | exact respond_own _ _ | trivial

theorem resume_own : (resume t).Calls (Own t) := by
  refine handled_own (.bind (get_own t) fun item => ?_)
  cases item with
  | none => exact respond_own _ _
  | some item =>
    dsimp only
    split <;> first | exact startJob_own _ _ | exact respond_own _ _

theorem remove_own : (remove t).Calls (Own t) := by
  have haccept : (acceptRemove t).Calls (Own t) := .bind (upsert_own _) fun _ => startJob_own _ _
  refine handled_own (.bind (get_own t) fun item => ?_)
  cases item with
  | none => exact .bind (upsert_own _) fun _ => haccept
  | some item =>
    refine .ite (fun _ => .bind ⟨fun _ h => (nomatch h), fun _ => trivial⟩ fun _ => ?_) fun _ => haccept
    exact .ite (fun _ => respond_own _ _) fun _ => haccept

/-- A job to create or to resume a tenant writes its row as one of a tenant that is not being
    deleted, and neither deletes it nor starts a job. -/
theorem jobFn_restores {fn : JobFn} (hfn : fn ≠ .delete) : (jobFn t fn).Calls (Restores t) := by
  cases fn with
  | create tier infra identity =>
    exact .bind (restores_of_quiet (getenv_quiet _)) fun _ => provision_restores _
  | resume =>
    exact exceptControlPlane_calls (.bind resumeTenant_restores fun _ => trivial) fun _ =>
      .bind (upsert_live rfl rfl rfl nofun ⟨nofun, nofun⟩) fun _ => trivial
  | delete => contradiction

theorem jobFn_upserts {fn : JobFn} (hfn : fn ≠ .delete) : (jobFn t fn).Calls (Upserts t) :=
  (jobFn_restores hfn).imp fun _ => Restores.upserts

/-- A job to delete a tenant writes its row as one being deleted only. -/
theorem jobFn_deletes : (jobFn t .delete).Calls (Deletes t) :=
  deleteTenant_deletes.tryCatch fun _ => .bind (deletes_of_quiet (get_quiet t)) fun _ =>
    .ite (fun _ => .bind (upsert_deletes ⟨.inr rfl, .inr rfl, rfl⟩) fun _ => trivial) fun _ => trivial

/-- A job changes the row of its tenant only. -/
theorem jobFn_own (fn : JobFn) : (jobFn t fn).Calls (Own t) := by
  by_cases hfn : fn = .delete
  · exact hfn ▸ jobFn_deletes.imp fun _ => Deletes.own
  · exact (jobFn_upserts hfn).imp fun _ => Upserts.own

/-- Nor does it, when it ends, clear the mark of another tenant. -/
theorem runJob_own (fn : JobFn) : (runJob t fn).Calls (Own t) :=
  (jobFn_own fn).ensuring ⟨fun _ h => (Option.some.inj h).symm, fun _ => trivial⟩

end Own

end NtierLab
