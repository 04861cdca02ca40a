import NtierLab.ControlPlane.OpenWorld

/-!
# Teardown

`deleteTenant` is ordered and fails closed, whatever is answered to its commands. The
*progress* of a teardown (`Progress`) is read from the outcomes of its processes and
AWS calls alone, not from what it records: a stage is completed when the last of
its commands has returned.

* `progress`: the monitor of the order: no workload is removed before the database
  role was revoked, no role of AWS before the workload, no secret before the role,
  and the row goes last;
* `Progress.Witnessed`: what the trace holds of a teardown that got so far;
* `deleteTenant_fails_closed`: the order, and the row a failed teardown leaves, which
  names the last stage completed.
-/

namespace NtierLab

open Prog

/-- How far an attempt at dropping the role got: its Job was applied, seen complete, its logs
    were read, the Job was deleted. -/
inductive DropProgress
  | idle
  | applied (m : DropManifest)
  | seen
  | logged
  | cleaned

/-- How far the removal of the workload got. -/
inductive WorkloadProgress
  | installed
  | uninstalled
  | present

/-- The last stage of a teardown completed, and how far the next one got. -/
inductive Progress
  | started (scaled : Bool)
  | accessDisabled (drop : DropProgress)
  | dbRevoked (workload : WorkloadProgress)
  | k8sDeleted (policyDeleted : Bool)
  | iamDeleted
  | secretDeleted

namespace Progress

/-- The step recorded when the stage was completed. -/
def step : Progress → String
  | started _ => "started"
  | accessDisabled _ => "access_disabled"
  | dbRevoked _ => "db_revoked"
  | k8sDeleted _ => "k8s_deleted"
  | iamDeleted => "iam_deleted"
  | secretDeleted => "secret_deleted"

@[simp] theorem step_started (b : Bool) : (started b).step = "started" := rfl

@[simp] theorem step_accessDisabled (k : DropProgress) :
    (accessDisabled k).step = "access_disabled" := rfl

@[simp] theorem step_dbRevoked (k : WorkloadProgress) : (dbRevoked k).step = "db_revoked" := rfl

@[simp] theorem step_k8sDeleted (b : Bool) : (k8sDeleted b).step = "k8s_deleted" := rfl

@[simp] theorem step_iamDeleted : iamDeleted.step = "iam_deleted" := rfl

@[simp] theorem step_secretDeleted : secretDeleted.step = "secret_deleted" := rfl

/-- The progress after a process ended with a code. -/
def ran (t : TenantId) : Progress → Shell → ℤ → Progress
  | started false, .scale u _, _ => started (u = t)
  | started true, .deleteIngress u, _ => if u = t then accessDisabled .idle else started true
  | accessDisabled _, .applyDropJob m, code =>
    accessDisabled (if code = 0 ∧ m.name.tenant = t then .applied m else .idle)
  | accessDisabled .seen, .dropJobLogs _ _, _ => accessDisabled .logged
  | accessDisabled .logged, .deleteDropJob _ _, _ => accessDisabled .cleaned
  | accessDisabled .cleaned, .deleteDropConfigMap _ _, _ => dbRevoked .installed
  | accessDisabled (.applied m), _, _ => accessDisabled (.applied m)
  | accessDisabled _, _, _ => accessDisabled .idle
  | dbRevoked .installed, .helmUninstall u, _ =>
    dbRevoked (if u = t then .uninstalled else .installed)
  | dbRevoked .uninstalled, .getNs u, code =>
    if u = t then if code = 0 then dbRevoked .present else k8sDeleted false
    else dbRevoked .uninstalled
  | dbRevoked .present, .deleteNs u, code =>
    if u = t ∧ code = 0 then k8sDeleted false else dbRevoked .present
  | s, _, _ => s

/-- The progress after a process did not end: an attempt at dropping the role fails. -/
def interrupted : Progress → Progress
  | accessDisabled (.applied m) => accessDisabled (.applied m)
  | accessDisabled _ => accessDisabled .idle
  | s => s

/-- The progress after the conditions of a Job were read. -/
def conditions : Progress → TenantId → DropName → List (String × String) → Progress
  | accessDisabled (.applied m), p, d, conds =>
    accessDisabled (if p = m.platform ∧ d = m.name ∧ condition conds "Complete" = some "True"
      then .seen else .applied m)
  | s, _, _, _ => s

/-- The progress after a call of AWS. -/
def called : Progress → (c : AwsCall) → c.Resp → Progress
  | k8sDeleted false, .deleteRolePolicy _ _, r => k8sDeleted (goneBy ["NoSuchEntity"] r)
  | k8sDeleted true, .deleteRole _, r =>
    if goneBy ["NoSuchEntity"] r then iamDeleted else k8sDeleted true
  | iamDeleted, .deleteSecret _ _, r =>
    if goneBy ["ResourceNotFoundException", "InvalidRequestException"] r then secretDeleted
    else iamDeleted
  | s, _, _ => s

/-- The progress after an event. -/
def next (t : TenantId) (s : Progress) (e : Event cpSig) : Progress :=
  match e with
  | ⟨.shell c, .exited code⟩ => s.ran t c code
  | ⟨.shell _, _⟩ => s.interrupted
  | ⟨.kube (.dropJobConditions p d), .ok conds⟩ => s.conditions p d conds
  | ⟨.aws c, r⟩ => s.called c r
  | _ => s

/-- The order of a teardown, of a tenant whose identity is owned by the control plane or not. -/
def allow (owned : Bool) (s : Progress) (c : Cmd) : Prop :=
  match s, c with
  | s, .shell (.helmUninstall _) | s, .shell (.deleteNs _) => ∃ k, s = dbRevoked k
  | s, .aws (.deleteRolePolicy _ _) | s, .aws (.deleteRole _) => ∃ k, s = k8sDeleted k
  | s, .aws (.deleteSecret _ _) => s = iamDeleted
  | s, .reg (.delete _) => s = if owned then secretDeleted else k8sDeleted false
  | _, _ => True

end Progress

/-- The monitor of the order of a teardown. -/
def progress (t : TenantId) (owned : Bool) : Monitor cpSig Progress where
  allow s c := s.allow owned c
  next s e := s.next t e

/-- What the monitor of the deletion allows is what its progress does. -/
@[simp] theorem progress_allow (t : TenantId) (owned : Bool) (st : Progress) (c : Cmd) :
    (progress t owned).allow st c ↔ st.allow owned c := Iff.rfl

/-- It goes on as the progress does. -/
@[simp] theorem progress_next (t : TenantId) (owned : Bool) (st : Progress) (e : Event cpSig) :
    (progress t owned).next st e = st.next t e := rfl

section Stages

variable {t : TenantId} {owned : Bool} {α : Type}

attribute [local simp] Progress.allow Progress.next Progress.ran Progress.interrupted
  Progress.conditions Progress.called

/-- A stage of the teardown, from a progress: it leaves the registry as it is, and returns in
    a progress in `Q`, or raises in one in `R`. -/
def Stage (t : TenantId) (owned : Bool) (p : CP α) (st : Progress) (Q R : Progress → Prop) : Prop :=
  ∀ s, p.wp ((progress t owned).on openWorld)
    (outcome (fun _ v => v.1 = s ∧ Q v.2) fun _ v => v.1 = s ∧ R v.2) (s, st)

/-- Disabling access takes a deletion to its second step, or leaves it in the first. -/
theorem disableApplicationAccess_stage :
    Stage t owned (disableApplicationAccess t) (.started false) (· = .accessDisabled .idle)
      (·.step = "started") := by
  intro s
  simp [disableApplicationAccess, runOk]

/-- No Job of the attempt was seen complete. -/
def Progress.Unseen (st : Progress) : Prop :=
  st = .accessDisabled .idle ∨ ∃ m, st = .accessDisabled (.applied m)

/-- Before its Job is applied, a dropping is not seen complete. -/
@[simp] theorem Progress.unseen_idle : (accessDisabled .idle).Unseen := .inl rfl

/-- Nor is it once its Job is applied. -/
@[simp] theorem Progress.unseen_applied (m : DropManifest) :
    (accessDisabled (.applied m)).Unseen := .inr ⟨m, rfl⟩

/-- Polling returns once the Job is seen complete, and else raises without having seen it. -/
theorem pollDropJob_stage (m : DropManifest) (n : ℕ) :
    Stage t owned (pollDropJob m.platform m.name n) (.accessDisabled (.applied m))
      (· = .accessDisabled .logged) Progress.Unseen := by
  induction n with
  | zero =>
    intro s
    simp [pollDropJob, runOk]
  | succ n ih =>
    intro s
    simp only [pollDropJob, dropJobConditions, runOk, wp_bind, wp_call, wp_result]
    simp
    intro conds
    by_cases hc : condition conds "Complete" = some "True"
    · simp [hc]
    · simpa [hc] using fun _ => ih s

/-- The ConfigMap and the Job are deleted once the Job is seen complete. -/
theorem deleteDropObjects_stage (p : TenantId) (d : DropName) :
    Stage t owned (deleteDropObjects p d) (.accessDisabled .logged)
      (· = .dbRevoked .installed) Progress.Unseen := by
  intro s
  simp [deleteDropObjects, runOk]

/-- They are deleted after a failure too, when it is not. -/
theorem deleteDropObjects_unseen (p : TenantId) (d : DropName) {st : Progress} (hst : st.Unseen) :
    Stage t owned (deleteDropObjects p d) st Progress.Unseen Progress.Unseen := by
  intro s
  rcases hst with rfl | ⟨m, rfl⟩ <;>
  simp [deleteDropObjects, runOk]

/-- Dropping the role takes a deletion to its third step, or leaves it unseen. -/
theorem dropPostgresRole_stage (outputs : Outputs) {st : Progress} (hst : st.Unseen) :
    Stage t owned (dropPostgresRole outputs t) st (· = .dbRevoked .installed)
      Progress.Unseen := by
  intro s
  have hpoll (m : DropManifest) (n : ℕ) :
      ((pollDropJob m.platform m.name n).ensuring (deleteDropObjects m.platform m.name)).wp
        ((progress t owned).on openWorld)
        (outcome (fun _ v => v.1 = s ∧ v.2 = .dbRevoked .installed) fun _ v => v.1 = s ∧ v.2.Unseen)
        (s, .accessDisabled (.applied m)) := by
    rw [wp_ensuring]
    refine (pollDropJob_stage m n s).imp ?_
    rintro (e | a) ⟨_, st⟩ ⟨rfl, hst⟩
    · refine (deleteDropObjects_unseen m.platform m.name hst _).imp ?_
      rintro (e | a) v hv <;> exact hv
    · obtain rfl := hst
      exact (deleteDropObjects_stage m.platform m.name _).imp fun x v hv => by
        cases x <;> exact hv
  -- The Job of an earlier attempt is forgotten: a new one is applied and polled.
  rcases hst with rfl | ⟨m', rfl⟩ <;>
  · simp [dropPostgresRole, ensureMigratorSa, run, rounds]
    intro _ _ suffix code
    rcases eq_or_ne code 0 with rfl | hcode
    · simpa using hpoll ⟨_, ⟨t, suffix⟩, _, _, _, _⟩
    · simp [hcode]

/-- So do some attempts, the last of which raises. -/
theorem revokeAttempts_stage (outputs : Outputs) (last : String) (n : ℕ) {st : Progress}
    (hst : st.Unseen) :
    Stage t owned (revokeAttempts outputs t last n) st (· = .dbRevoked .installed)
      Progress.Unseen := by
  induction n generalizing last st with
  | zero => exact fun s => ⟨rfl, hst⟩
  | succ n ih =>
    intro s
    rw [revokeAttempts, wp_tryCatch]
    refine (dropPostgresRole_stage outputs hst s).imp ?_
    rintro (e | a) ⟨_, st⟩ ⟨rfl, hst⟩
    · exact ih e.text hst _
    · exact ⟨rfl, hst⟩

/-- Revoking the role takes a deletion from its second step to its third. -/
theorem revokePostgresRole_stage (outputs : Outputs) :
    Stage t owned (revokePostgresRole outputs t) (.accessDisabled .idle)
      (· = .dbRevoked .installed) (·.step = "access_disabled") := by
  intro s
  refine (revokeAttempts_stage outputs _ 3 Progress.unseen_idle s).imp ?_
  rintro (e | a) v ⟨rfl, hv⟩
  · rcases hv with hv | ⟨m, hv⟩ <;> simp [hv]
  · exact ⟨rfl, hv⟩

/-- Deleting the release and the namespace takes it from its third step to its fourth. -/
theorem deleteKubernetes_stage :
    Stage t owned (deleteKubernetes t) (.dbRevoked .installed) (· = .k8sDeleted false)
      (·.step = "db_revoked") := by
  intro s
  simp [deleteKubernetes, runOk, lifecycleRun]
  intro code hc
  simp [hc]

/-- Deleting the role of the application takes it from its fourth step to its fifth. -/
theorem deleteTenantIrsa_stage (outputs : Outputs) (arn : Option String) :
    Stage t owned (deleteTenantIrsa outputs t arn) (.k8sDeleted false) (· = .iamDeleted)
      (·.step = "k8s_deleted") := by
  intro s
  simp [deleteTenantIrsa, -except_forall]
  intro r
  cases hr : goneBy ["NoSuchEntity"] r with
  | false => simp
  | true =>
    simp [-except_forall]
    intro r'
    cases hr' : goneBy ["NoSuchEntity"] r' <;> simp

/-- Deleting the secret takes it from its fifth step to its sixth. -/
theorem deleteTenantSecret_stage (outputs : Outputs) (name : Option String) :
    Stage t owned (deleteTenantSecret outputs t name) .iamDeleted (· = .secretDeleted)
      (·.step = "iam_deleted") := by
  intro s
  simp [deleteTenantSecret, secretRecoveryWindowDays, deleteSecret]
  intro e he
  simp [he]

/-! ## The teardown -/

/-- The row records the last stage completed. -/
def Recorded (t : TenantId) (v : Registry × Progress) : Prop :=
  ∃ row, v.1.get t = some row ∧ row.deleteStep = some v.2.step

/-- The row is removed once every stage is completed. -/
def TornDown (t : TenantId) (owned : Bool) (v : Registry × Progress) : Prop :=
  v.1.get t = none ∧ v.2 = if owned then .secretDeleted else .k8sDeleted false

/-- The triple of a part of the teardown: it returns in a state in `Q`, or raises with the last
    stage completed recorded. -/
def Fails (t : TenantId) (owned : Bool) (p : CP α) (v : Registry × Progress)
    (Q : Registry × Progress → Prop) : Prop :=
  p.wp ((progress t owned).on openWorld) (outcome (fun _ => Q) fun _ => Recorded t) v

/-- A step that cannot be recorded leaves the progress as it is. -/
theorem recordStep_fails {s : Registry} {st : Progress} :
    Fails t owned (recordStep t st.step) (s, st) fun v => v.2 = st ∧ Recorded t v := by
  simp [Fails, recordStep, Recorded]

/-- A stage, then the record of its step. -/
theorem Fails.record {p : CP Unit} {s : Registry} {st st' : Progress}
    (hp : Stage t owned p st (· = st') (·.step = st.step)) (hrec : Recorded t (s, st)) :
    Fails t owned (do p; recordStep t st'.step) (s, st) fun v => v.2 = st' ∧ Recorded t v := by
  obtain ⟨row, hrow, hdel⟩ := hrec
  refine wp.bind (hp s) ?_ ?_
  · rintro _ ⟨_, _⟩ ⟨rfl, rfl⟩
    exact recordStep_fails
  · rintro e ⟨_, _⟩ ⟨rfl, hst⟩
    exact ⟨row, hrow, by rw [hdel, hst]⟩

/-- A stage, then the record of its step, then the rest of the teardown. -/
theorem Fails.stage {p : CP Unit} {q : CP α} {s : Registry} {st st' : Progress}
    {Q : Registry × Progress → Prop}
    (hp : Stage t owned p st (· = st') (·.step = st.step)) (hrec : Recorded t (s, st))
    (hq : ∀ s', Recorded t (s', st') → Fails t owned q (s', st') Q) :
    Fails t owned (do p; recordStep t st'.step; q) (s, st) Q := by
  rw [← LawfulMonad.bind_assoc]
  refine wp.bind (Fails.record hp hrec) ?_ fun e v h => h
  rintro _ ⟨s', _⟩ ⟨rfl, hrec⟩
  exact hq s' hrec

/-- The identity of a tenant, owned by the control plane or not. -/
theorem deleteIdentity_fails (outputs : Outputs) {item : Identity} {s : Registry}
    (hitem : item.ownedBy = some "control_plane" ↔ owned = true)
    (hrec : Recorded t (s, .k8sDeleted false)) :
    Fails t owned (deleteIdentity outputs t item) (s, .k8sDeleted false)
      fun v => v.2 = (if owned then .secretDeleted else .k8sDeleted false) ∧ Recorded t v := by
  rw [deleteIdentity]
  cases ho : owned with
  | false =>
    rw [if_neg (by simp [hitem, ho])]
    exact ⟨rfl, hrec⟩
  | true =>
    rw [if_pos (hitem.2 ho)]
    exact Fails.stage (deleteTenantIrsa_stage outputs _) hrec fun s' hrec =>
      Fails.record (deleteTenantSecret_stage outputs _) hrec

/-- The stages of a teardown, in their order. -/
theorem teardown_fails {item : Identity} {s : Registry}
    (hitem : item.ownedBy = some "control_plane" ↔ owned = true)
    (hrec : Recorded t (s, .started false)) :
    Fails t owned (teardown t item) (s, .started false) (TornDown t owned) := by
  refine Fails.stage disableApplicationAccess_stage hrec fun s hrec => ?_
  have hout : Stage t owned tofuOutputs (.accessDisabled .idle) (· = .accessDisabled .idle)
      (· = .accessDisabled .idle) := fun s => by
    simp [tofuOutputs]
  refine wp.bind (hout s) ?_ fun e v h => by rwa [← Prod.mk.eta (p := v), h.1, h.2]
  rintro outputs ⟨_, _⟩ ⟨rfl, rfl⟩
  refine Fails.stage (revokePostgresRole_stage outputs) hrec fun s hrec => ?_
  refine Fails.stage deleteKubernetes_stage hrec fun s hrec => ?_
  refine wp.bind (deleteIdentity_fails outputs hitem hrec) ?_ fun e v h => h
  rintro _ ⟨s, _⟩ ⟨rfl, -⟩
  simp [TornDown]

/-- A deletion ends torn down, or with the row of a failed teardown. -/
theorem deleteTenant_wp (s : Registry)
    (howned : owned = decide ((s.get t).bind Row.ownedBy = some "control_plane")) :
    (deleteTenant t).wp ((progress t owned).on openWorld)
      (fun x v => match x with
        | .ok () => TornDown t owned v
        | .error e => ∃ row, v.1.get t = some row ∧ row.desiredStatus = .gone ∧
            row.status = .deleteFailed ∧ row.error = some e.text ∧ row.deleteStep = some v.2.step)
      (s, .started false) := by
  have hitem (row : Option Row) : ((row.elim ⟨none, none, none⟩ Row.identity).ownedBy =
      some "control_plane") ↔ row.bind Row.ownedBy = some "control_plane" := by
    cases row <;> rfl
  rw [deleteTenant, wp_bind, wp_get]
  refine ⟨trivial, ?_⟩
  rw [outcome_ok, wp_bind, wp_upsert (by simp)]
  refine ⟨trivial, fun now => ?_⟩
  rw [outcome_ok, wp_tryCatch]
  -- Whatever step raised is the one recorded on the row, and the handler keeps it.
  refine (teardown_fails (by rw [hitem, howned]; simp) ⟨_, Registry.get_insert_self, by simp⟩).imp ?_
  rintro (e | a) ⟨s', st⟩ h
  · obtain ⟨row, hrow, hdel⟩ := h
    simp [deleteFailed, hrow, hdel]
    exact fun now => ⟨Registry.written_desiredStatus rfl, Registry.written_status rfl (by simp)⟩
  · exact h

end Stages

/-! ## What a trace holds -/

section Witnessed

variable {t : TenantId} {tr tr' : Trace cpSig} {st : Progress} {e : Event cpSig}

/-- A drop-role Job of the tenant was applied, and seen complete. -/
def RoleDropped (t : TenantId) (tr : Trace cpSig) : Prop :=
  ∃ m conds, m.name.tenant = t ∧ ⟨.shell (.applyDropJob m), .exited 0⟩ ∈ tr ∧
    ⟨.kube (.dropJobConditions m.platform m.name), .ok conds⟩ ∈ tr ∧
    condition conds "Complete" = some "True"

/-- The release of the tenant was uninstalled. -/
def Uninstalled (t : TenantId) (tr : Trace cpSig) : Prop :=
  ∃ code, ⟨.shell (.helmUninstall t), .exited code⟩ ∈ tr

/-- The namespace of the tenant was found absent, or deleted. -/
def NamespaceGone (t : TenantId) (tr : Trace cpSig) : Prop :=
  (∃ code, code ≠ 0 ∧ ⟨.shell (.getNs t), .exited code⟩ ∈ tr) ∨
    ⟨.shell (.deleteNs t), .exited 0⟩ ∈ tr

/-- The inline policy of the role was deleted. -/
def RolePolicyDeleted (tr : Trace cpSig) : Prop :=
  ∃ role policy r, ⟨.aws (.deleteRolePolicy role policy), r⟩ ∈ tr ∧
    goneBy ["NoSuchEntity"] r = true

/-- The role was deleted. -/
def RoleDeleted (tr : Trace cpSig) : Prop :=
  ∃ role r, ⟨.aws (.deleteRole role), r⟩ ∈ tr ∧ goneBy ["NoSuchEntity"] r = true

/-- The secret was deleted. -/
def SecretDeleted (tr : Trace cpSig) : Prop :=
  ∃ name days r, ⟨.aws (.deleteSecret name days), r⟩ ∈ tr ∧
    goneBy ["ResourceNotFoundException", "InvalidRequestException"] r = true

/-- The Kubernetes stage returned. -/
structure WorkloadRemoved (t : TenantId) (tr : Trace cpSig) : Prop where
  dropped : RoleDropped t tr
  uninstalled : Uninstalled t tr
  namespaceGone : NamespaceGone t tr

/-- The IRSA stage returned. -/
structure IrsaRemoved (t : TenantId) (tr : Trace cpSig) : Prop extends WorkloadRemoved t tr where
  policy : RolePolicyDeleted tr
  role : RoleDeleted tr

/-- What the trace holds of a teardown that got so far. -/
def Progress.Witnessed (t : TenantId) (tr : Trace cpSig) : Progress → Prop
  | started _ | accessDisabled .idle => True
  | accessDisabled (.applied m) =>
    m.name.tenant = t ∧ ⟨.shell (.applyDropJob m), .exited 0⟩ ∈ tr
  | accessDisabled .seen | accessDisabled .logged | accessDisabled .cleaned
  | dbRevoked .installed => RoleDropped t tr
  | dbRevoked .uninstalled | dbRevoked .present => RoleDropped t tr ∧ Uninstalled t tr
  | k8sDeleted b => WorkloadRemoved t tr ∧ (b = true → RolePolicyDeleted tr)
  | iamDeleted => IrsaRemoved t tr
  | secretDeleted => IrsaRemoved t tr ∧ SecretDeleted tr

/-- What an execution has shown, it has shown with more events too. -/
theorem RoleDropped.mono (h : tr ⊆ tr') : RoleDropped t tr → RoleDropped t tr'
  | ⟨m, conds, hm, h₁, h₂, hc⟩ => ⟨m, conds, hm, h h₁, h h₂, hc⟩

theorem Uninstalled.mono (h : tr ⊆ tr') : Uninstalled t tr → Uninstalled t tr'
  | ⟨code, hc⟩ => ⟨code, h hc⟩

theorem RolePolicyDeleted.mono (h : tr ⊆ tr') : RolePolicyDeleted tr → RolePolicyDeleted tr'
  | ⟨role, policy, r, hr, hg⟩ => ⟨role, policy, r, h hr, hg⟩

theorem WorkloadRemoved.mono (h : tr ⊆ tr') (hw : WorkloadRemoved t tr) : WorkloadRemoved t tr' where
  dropped := hw.dropped.mono h
  uninstalled := hw.uninstalled.mono h
  namespaceGone := hw.namespaceGone.imp (fun ⟨code, hc, hm⟩ => ⟨code, hc, h hm⟩) fun hm => h hm

theorem IrsaRemoved.mono (h : tr ⊆ tr') (hi : IrsaRemoved t tr) : IrsaRemoved t tr' where
  toWorkloadRemoved := hi.toWorkloadRemoved.mono h
  policy := hi.policy.mono h
  role := let ⟨role, r, hr, hg⟩ := hi.role; ⟨role, r, h hr, hg⟩

/-- A progress shown by some events is shown by more. -/
theorem Progress.Witnessed.mono (h : tr ⊆ tr') {st : Progress} (hst : st.Witnessed t tr) :
    st.Witnessed t tr' := by
  match st with
  | started _ | accessDisabled .idle => trivial
  | accessDisabled (.applied m) => exact ⟨hst.1, h hst.2⟩
  | accessDisabled .seen | accessDisabled .logged | accessDisabled .cleaned
  | dbRevoked .installed => exact RoleDropped.mono h hst
  | dbRevoked .uninstalled | dbRevoked .present => exact ⟨hst.1.mono h, hst.2.mono h⟩
  | k8sDeleted b => exact ⟨hst.1.mono h, fun hb => (hst.2 hb).mono h⟩
  | iamDeleted => exact IrsaRemoved.mono h hst
  | secretDeleted =>
    obtain ⟨hi, name, days, r, hr, hg⟩ := hst
    exact ⟨hi.mono h, name, days, r, h hr, hg⟩

/-- What a process shows by its exit code is shown by the events. -/
theorem Progress.Witnessed.ran {c : Shell} {code : ℤ} (hst : st.Witnessed t tr)
    (he : ⟨.shell c, .exited code⟩ ∈ tr) : (st.ran t c code).Witnessed t tr := by
  unfold Progress.ran
  split
  -- Only an applied Job, an uninstalled release and a namespace gone are shown by an exit code.
  case h_1 | h_8 => trivial
  case h_2 => split <;> trivial
  case h_3 =>
    split
    · next h => obtain ⟨rfl, hm⟩ := h; exact ⟨hm, he⟩
    · trivial
  case h_9 =>
    split
    · next h => subst h; exact ⟨hst, code, he⟩
    · exact hst
  case h_10 =>
    split
    · next h =>
      subst h
      split
      · exact hst
      · next hc => exact ⟨⟨hst.1, hst.2, .inl ⟨code, hc, he⟩⟩, nofun⟩
    · exact hst
  case h_11 =>
    split
    · next h => obtain ⟨rfl, rfl⟩ := h; exact ⟨⟨hst.1, hst.2, .inr he⟩, nofun⟩
    · exact hst
  all_goals exact hst

/-- An interruption shows nothing new. -/
theorem Progress.Witnessed.interrupted (hst : st.Witnessed t tr) :
    st.interrupted.Witnessed t tr := by
  unfold Progress.interrupted
  split
  · exact hst
  · trivial
  · exact hst

/-- The conditions of a Job show whether it is complete. -/
theorem Progress.Witnessed.conditions {p : TenantId} {d : DropName} {conds : List (String × String)}
    (hst : st.Witnessed t tr) (he : ⟨.kube (.dropJobConditions p d), .ok conds⟩ ∈ tr) :
    (st.conditions p d conds).Witnessed t tr := by
  unfold Progress.conditions
  split
  · next m =>
    split
    · next h =>
      obtain ⟨rfl, rfl, hc⟩ := h
      exact ⟨m, conds, hst.1, hst.2, he, hc⟩
    · exact hst
  · exact hst

/-- An answer of AWS shows what is deleted. -/
theorem Progress.Witnessed.called {c : AwsCall} {r : c.Resp} (hst : st.Witnessed t tr)
    (he : ⟨.aws c, r⟩ ∈ tr) : (st.called c r).Witnessed t tr := by
  unfold Progress.called
  split
  case h_1 role policy r => exact ⟨hst.1, fun hg => ⟨role, policy, r, he, hg⟩⟩
  case h_2 role r =>
    split
    · next hg => exact ⟨hst.1, hst.2 rfl, role, r, he, hg⟩
    · exact hst
  case h_3 name days r =>
    split
    · next hg => exact ⟨hst, name, days, r, he, hg⟩
    · exact hst
  case h_4 => exact hst

/-- The progress of a deletion, from the events of its trace. -/
def progressOf (t : TenantId) (tr : Trace cpSig) : Progress :=
  tr.foldl (Progress.next t) (.started false)

/-- The state of the monitor after an execution is its progress. -/
theorem after_progress {owned : Bool} :
    (progress t owned).after (.started false) tr = progressOf t tr := rfl

/-- The trace holds what its progress tells. -/
theorem witnessed_progressOf : (progressOf t tr).Witnessed t tr := by
  induction tr using List.reverseRecOn with
  | nil => trivial
  | append_singleton tr e ih =>
    rw [progressOf, List.foldl_append, List.foldl_cons, List.foldl_nil]
    have hst := ih.mono (List.subset_append_left tr [e])
    have he : e ∈ tr ++ [e] := by simp
    unfold Progress.next
    split
    · exact hst.ran he
    · exact hst.interrupted
    · exact hst.conditions he
    · exact hst.called he
    · exact hst

end Witnessed

/-! ## Ordered, and failing closed -/

/-- What a command of the deletion of a tenant asks of the events before it. -/
def Ordered (t : TenantId) (owned : Bool) (tr : Trace cpSig) : Cmd → Prop
  | .shell (.helmUninstall _) | .shell (.deleteNs _) => RoleDropped t tr
  | .aws (.deleteRolePolicy _ _) | .aws (.deleteRole _) => WorkloadRemoved t tr
  | .aws (.deleteSecret _ _) => IrsaRemoved t tr
  | .reg (.delete _) =>
    WorkloadRemoved t tr ∧ (owned = true → IrsaRemoved t tr ∧ SecretDeleted tr)
  | _ => True

/-- A command allowed at a progress that was shown comes in order. -/
theorem Progress.Witnessed.ordered {t : TenantId} {owned : Bool} {tr : Trace cpSig} {st : Progress}
    {c : Cmd} (hst : st.Witnessed t tr) (hc : st.allow owned c) : Ordered t owned tr c := by
  unfold Progress.allow at hc
  split at hc
  case h_1 | h_2 =>
    obtain ⟨k, rfl⟩ := hc
    cases k
    · exact hst
    all_goals exact hst.1
  case h_3 | h_4 => obtain ⟨k, rfl⟩ := hc; exact hst.1
  case h_5 => subst hc; exact hst
  case h_6 =>
    cases owned <;> subst hc
    · exact ⟨hst.1, nofun⟩
    · exact ⟨hst.1.1, fun _ => hst⟩
  case h_7 => unfold Ordered; split <;> simp_all

/-- A deletion is ordered and fails closed, whatever is answered to its commands: no workload is
    removed before a drop-role Job was seen complete, no role of AWS before the workload, no
    secret before the role, and the row goes after all of them; if it raises, the row is left
    as one of a failed deletion, with the text of the exception and the last step completed. -/
theorem deleteTenant_fails_closed {t : TenantId} {s s' : Registry} {tr : Trace cpSig}
    {x : Except Exn Unit} (hx : Exec openWorld (deleteTenant t) s tr x s') :
    let owned := decide ((s.get t).bind Row.ownedBy = some "control_plane")
    (∀ tr₁ e tr₂, tr = tr₁ ++ e :: tr₂ → Ordered t owned tr₁ e.cmd) ∧
      (x = .ok () → s'.get t = none ∧
        progressOf t tr = if owned then .secretDeleted else .k8sDeleted false) ∧
      ∀ exc, x = .error exc → ∃ row, s'.get t = some row ∧ row.desiredStatus = .gone ∧
        row.status = .deleteFailed ∧ row.error = some exc.text ∧
        row.deleteStep = some (progressOf t tr).step := by
  intro owned
  have hwp := deleteTenant_wp (t := t) s rfl
  refine ⟨fun tr₁ e tr₂ ht => ?_, ?_, ?_⟩
  · exact witnessed_progressOf.ordered (after_progress ▸ hx.on_allow hwp ht)
  · rintro rfl
    exact hx.on_outcome hwp
  · rintro exc rfl
    exact hx.on_outcome hwp

/-- An answer to every command, each succeeding but the deletion of a namespace. -/
def stuckNs : (c : Cmd) → cpSig.Resp c
  | .shell (.deleteNs _) => .exited 1
  | c => succeeding c

/-- The deletion of a tenant whose namespace cannot be deleted. -/
def stuckDeletion : Trace cpSig × Except Exn Unit × Registry :=
  (deleteTenant .a).eval (openAnswer "now") (fun _ => stuckNs) 0 ∅

/-- It leaves the row with the role revoked as the last step completed. -/
theorem deleteTenant_fails_closed_ns : ∃ row, stuckDeletion.2.2.get .a = some row ∧
    row.status = .deleteFailed ∧ row.deleteStep = some "db_revoked" := by
  have hx : stuckDeletion.2.1 = .error (classifyFailure (.deleteNs .a) 1) := rfl
  have hstep : (progressOf .a stuckDeletion.1).step = "db_revoked" := rfl
  obtain ⟨row, hrow, -, hst, -, hdel⟩ := (deleteTenant_fails_closed
    (exec_eval (openAnswer_step "now") (fun _ => stuckNs) (deleteTenant .a) 0 ∅)).2.2 _ hx
  exact ⟨row, hrow, hst, hdel.trans (congrArg some hstep)⟩

end NtierLab
