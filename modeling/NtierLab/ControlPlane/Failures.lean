import NtierLab.Prog.Crash
import NtierLab.ControlPlane.Sweep
import NtierLab.ControlPlane.Teardown

/-!
# Failures

What is left of the exception an actuator ends with. An actuator is run by a job of
the API, or by the reconciler on a plan (`Errand`), each inside a handler of its own
(`Errand.caught`); what the handlers let through is not recorded, unless the actuator
recorded it itself.

* `Failing`: the runs of a job, or of a reconciliation, in which an actuator ends with
  an exception; `Failing.exec`, `exec_runJob`, `exec_reconcileOne` relate them to the
  executions of the two programs;
* `told_iff`: when the row tells the exception after such a run.
-/

namespace NtierLab

open Prog

/-! ## Errands -/

/-- What runs an actuator: a job, or the plan of a tenant of a tier. -/
inductive Errand
  | job (fn : JobFn)
  | plan (desired : Desired) (tier : String) (action : Action)

variable {t : TenantId} {exc : Exn} {fn : JobFn} {desired : Desired} {tier : String}
  {action : Action} {s s₀ s₁ s' : Registry} {tr : Trace cpSig}

/-- What a job does, short of its handler. -/
def JobFn.actuator (t : TenantId) : JobFn → CP Unit
  | .create tier ensureInfra ensureIdentity => do
    let myIp ← getenv "MY_IP"
    provision t ⟨tier, ensureInfra, ensureIdentity && !ensureInfra, some myIp⟩
  | .resume => do let _ ← resumeTenant t
  | .delete => deleteTenant t

/-- What a job does with the exception its actuator ends with. -/
def JobFn.caught (t : TenantId) (exc : Exn) : JobFn → CP Unit
  | .create _ _ _ => throw exc
  | .resume =>
    match exc with
    | .controlPlane e => do
      let _ ← TenantStore.upsert t
        { status := some .failed, desiredStatus := Fields.desire .active,
          error := some (some e.message) }
    | exc => throw exc
  | .delete => do
    let item ← TenantStore.get t
    if item.isSome then
      let _ ← TenantStore.upsert t (deleteFailed exc.text)

theorem jobFn_eq (t : TenantId) (fn : JobFn) :
    jobFn t fn = (fn.actuator t).rescue fun exc => fn.caught t exc := by
  cases fn with
  | create tier ensureInfra ensureIdentity => exact (rescue_fail _).symm
  | resume => 
    refine congrArg (Prog.rescue _) (funext fun exc => ?_)
    cases exc <;> rfl
  | delete => rfl

/-- The row of a tenant whose plan failed. -/
def planFailed (desired : Desired) (e : ControlPlaneError) : Fields :=
  { desiredStatus := Fields.desire desired, status := some (failedStatus desired e),
    error := some (some e.message) }

/-- What the reconciler does with the exception an actuator ends with. -/
def planCaught (t : TenantId) (desired : Desired) (exc : Exn) : CP Bool :=
  match exc with
  | .controlPlane e => do
    let _ ← TenantStore.upsert t (planFailed desired e)
    throw (.controlPlane e)
  | exc => throw exc

theorem runPlan_eq : runPlan actuators t desired tier action =
    (act actuators t tier action).rescue (planCaught t desired) := by
  refine congrArg (Prog.rescue _) (funext fun exc => ?_)
  cases exc <;> rfl

/-- What a reconciliation does before it acts: the row, what was observed, and the plan. -/
def planned (observer : TenantId → CP Observed) (t : TenantId) : CP (Row × Observed × Plan) := do
  match ← TenantStore.get t with
  | none => throw (.validationError s!"tenant {pyRepr t.val} not in registry")
  | some item =>
    let observed ← observer t
    let decision := planAction item.desiredStatus observed item.status
    let _ ← TenantStore.upsert t { observedJson := some (some observed.asJson) }
    return (item, observed, decision)

theorem reconcileOne_eq (observer : TenantId → CP Observed) (acts : Actuators) :
    reconcileOne observer acts t = planned observer t >>= fun p => do
      let row ← follow observer acts t p.1 p.2.1 p.2.2.action
      return ⟨row, p.2.2.reason⟩ := by
  refine Eq.trans ?_ (LawfulMonad.bind_assoc (TenantStore.get t) _ _).symm
  refine congrArg _ (funext fun item => ?_)
  cases item with
  | none => rfl
  | some item => simp only [LawfulMonad.bind_assoc, pure_bind]

/-! ## Runs in which an actuator fails -/

variable {observer : TenantId → CP Observed} {i : Errand}

/-- The tier a plan is carried out for. -/
def Row.planTier (item : Row) : String := if truthy item.tier then item.tier.getD "" else "standard"

/-- The runs of a job, or of a reconciliation, in which an actuator ends with an exception: what
    runs it, the registry before the run, the one the actuator is run on, and the one after the
    run. -/
inductive Failing (observer : TenantId → CP Observed) (t : TenantId) (exc : Exn) :
    Errand → Registry → Registry → Registry → Prop
  | job {fn : JobFn} {s s₁ s₂ s' : Registry} {tr₁ tr₂ tr₃ : Trace cpSig} {x y : Except Exn Unit} :
      Exec openWorld (fn.actuator t) s tr₁ (.error exc) s₁ →
      Exec openWorld (fn.caught t exc) s₁ tr₂ x s₂ →
      Exec openWorld (.call (.app (.discard t)) .ret) s₂ tr₃ y s' →
      Failing observer t exc (.job fn) s s s'
  | plan {item : Row} {o : Observed} {p : Plan} {s s₀ s₁ s' : Registry}
      {tr₀ tr₁ tr₂ : Trace cpSig} {x : Except Exn Bool} :
      Exec openWorld (planned observer t) s tr₀ (.ok (item, o, p)) s₀ →
      Exec openWorld (act actuators t item.planTier p.action) s₀ tr₁ (.error exc) s₁ →
      Exec openWorld (planCaught t item.desiredStatus exc) s₁ tr₂ x s' →
      Failing observer t exc (.plan item.desiredStatus item.planTier p.action) s s₀ s'

/-- The program that runs an actuator. -/
def Errand.prog (observer : TenantId → CP Observed) (t : TenantId) : Errand → CP Unit
  | .job fn => runJob t fn
  | .plan _ _ _ => do let _ ← reconcileOne observer actuators t

/-- An action that runs no actuator raises nothing. -/
theorem exec_act_error (hx : Exec openWorld (act actuators t tier action) s tr (.error exc) s') :
    action ≠ .none ∧ action ≠ .purgeRegistry := by
  constructor <;>
  · rintro rfl
    cases hx

theorem follow_of_act {item : Row} {o : Observed}
    (ha : action ≠ .none ∧ action ≠ .purgeRegistry) :
    follow observer actuators t item o action = carryOut observer actuators t item action := by
  cases action with
  | none => exact absurd rfl ha.1
  | purgeRegistry => exact absurd rfl ha.2
  | _ => rfl

/-- A plan that fails ends the reconciliation. -/
theorem exec_follow_error {item : Row} {o : Observed}
    (ha : action ≠ .none ∧ action ≠ .purgeRegistry)
    (hx : Exec openWorld (runPlan actuators t item.desiredStatus item.planTier action) s tr
      (.error exc) s') :
    Exec openWorld (follow observer actuators t item o action) s tr (.error exc) s' := by
  rw [follow_of_act ha]
  exact hx.bind_error

/-- What the handler of a plan ends with is the exception. -/
theorem exec_planCaught {x : Except Exn Bool}
    (hx : Exec openWorld (planCaught t desired exc) s tr x s') : x = .error exc := by
  cases exc with
  | controlPlane e =>
    obtain ⟨now, tr', h⟩ := exec_upsert_bind (by simp [planFailed]) hx
    cases h
    rfl
  | _ =>
    cases hx
    rfl

/-- A run in which an actuator fails is one of the program that runs it. -/
theorem Failing.exec (h : Failing observer t exc i s s₀ s') :
    ∃ tr x, Exec openWorld (i.prog observer t) s tr x s' := by
  cases h with
  | job h₁ h₂ h₃ =>
    obtain ⟨x, hx⟩ := (h₁.rescue (q := fun exc => JobFn.caught t exc _) h₂).ensuring h₃
    exact ⟨_, x, by rwa [Errand.prog, runJob, jobFn_eq]⟩
  | plan h₀ h₁ h₂ =>
    obtain rfl := exec_planCaught h₂
    have hrun := h₁.rescue h₂
    rw [← runPlan_eq] at hrun
    suffices h : ∃ tr, Exec openWorld (reconcileOne observer actuators t) s tr (.error exc) s' by
      obtain ⟨tr, h⟩ := h
      exact ⟨tr, _, h.bind_error⟩
    rw [reconcileOne_eq]
    exact ⟨_, h₀.bind (exec_follow_error (exec_act_error h₁) hrun).bind_error⟩

/-- A job returns from its actuator, or its actuator fails. -/
theorem exec_runJob {x : Except Exn Unit} (hx : Exec openWorld (runJob t fn) s tr x s') :
    (∃ tr₁, Exec openWorld (fn.actuator t) s tr₁ (.ok ()) s') ∨
      ∃ exc, Failing observer t exc (.job fn) s s s' := by
  obtain ⟨y, tr₁, tr₂, s₁, z, rfl, h₁, h₂⟩ := Exec.of_ensuring hx
  rw [jobFn_eq] at h₁
  rcases Exec.of_rescue h₁ with ⟨a, rfl, hret⟩ | ⟨exc, tr₃, tr₄, s₂, rfl, hfail, h₃⟩
  · cases h₂ with
    | call hr h₂ =>
      cases h₂
      obtain rfl := openWorld_app.1 hr
      exact .inl ⟨_, hret⟩
  · exact .inr ⟨exc, .job hfail h₃ h₂⟩

/-- A reconciliation fails before it acts, has nothing to run, returns from its actuator, or its
    actuator fails. -/
theorem exec_reconcileOne {x : Except Exn Reconciled}
    (hx : Exec openWorld (reconcileOne observer actuators t) s tr x s') :
    (∃ tr₁ exc, Exec openWorld (planned observer t) s tr₁ (.error exc) s') ∨
      ∃ tr₁ item o p s₀, Exec openWorld (planned observer t) s tr₁ (.ok (item, o, p)) s₀ ∧
        ((p.action = .none ∨ p.action = .purgeRegistry) ∨
          (∃ tr₂ gone s₁, Exec openWorld (act actuators t item.planTier p.action) s₀ tr₂
            (.ok gone) s₁) ∨
          ∃ exc, Failing observer t exc (.plan item.desiredStatus item.planTier p.action) s s₀
            s') := by
  rw [reconcileOne_eq] at hx
  rcases Exec.of_bind hx with ⟨exc, -, h⟩ | ⟨⟨item, o, p⟩, tr₁, tr₂, s₀, rfl, h₀, h₁⟩
  · exact .inl ⟨_, exc, h⟩
  · refine .inr ⟨tr₁, item, o, p, s₀, h₀, ?_⟩
    by_cases ha : p.action ≠ .none ∧ p.action ≠ .purgeRegistry
    · right
      rw [follow_of_act ha] at h₁
      -- The reason of the plan is added to what is returned, and changes no row.
      obtain ⟨tr₃, y, h₃⟩ : ∃ tr₃ y, Exec openWorld (carryOut observer actuators t item p.action)
          s₀ tr₃ y s' := by
        rcases Exec.of_bind h₁ with ⟨exc, -, h⟩ | ⟨row, tr₃, tr₄, s₁, rfl, h, h'⟩
        · exact ⟨_, _, h⟩
        · cases h'
          exact ⟨_, _, h⟩
      rcases Exec.of_bind h₃ with ⟨exc, -, h⟩ | ⟨gone, tr₄, tr₅, s₁, rfl, h, -⟩ <;>
      rw [runPlan_eq] at h
      · rcases Exec.of_rescue h with ⟨a, ha, -⟩ | ⟨exc, tr₄, tr₅, s₁, rfl, h, h'⟩
        · cases ha
        · exact .inr ⟨exc, .plan h₀ h h'⟩
      · rcases Exec.of_rescue h with ⟨a, ha, h⟩ | ⟨exc, tr₄, tr₅, s₁, rfl, -, h⟩
        · exact .inl ⟨_, _, _, h⟩
        · cases exec_planCaught h
    · exact .inl (by tauto)

/-! ## What the row tells -/

/-- The row of the tenant, if there is one, tells the exception: its status is one of a failure,
    and its error is the text. -/
def Told (t : TenantId) (exc : Exn) (s : Registry) : Prop :=
  ∀ row, s.get t = some row → row.status ∈ [Status.failed, .drift, .deleteFailed] ∧
    row.error = some exc.text

theorem told_written {f : Fields} {st : Status} {now : String} (hst : f.status = some st)
    (hmem : st ∈ [Status.failed, .drift, .deleteFailed]) (herr : f.error = some (some exc.text)) :
    Told t exc (s.insert t (s.written now t f)) := by
  intro row hrow
  obtain rfl := Option.some.inj (Registry.get_insert_self.symm.trans hrow)
  have hne : st ≠ .other "" := by
    rintro rfl
    simp at hmem
  rw [Registry.written_status hst hne]
  exact ⟨hmem, by simp [herr]⟩

/-- A provisioning that fails raises an error of the hierarchy, and has recorded it. -/
theorem exec_provision_error {args : ProvisionArgs}
    (hx : Exec openWorld (provision t args) s tr (.error exc) s') : Told t exc s' := by
  obtain ⟨now, tr₁, h⟩ := exec_upsert_bind (by simp [provisioning]) hx
  rcases Exec.of_rescue h with ⟨a, ha, -⟩ | ⟨e, tr₃, tr₄, s₂, rfl, -, h⟩
  · cases ha
  · obtain ⟨now, tr₅, h⟩ := exec_upsert_bind (by simp [provisionFailed]) h
    cases h
    have htext : (provisionRaise e).text = e.text := by cases e <;> rfl
    exact told_written rfl (by simp) (by rw [htext]; rfl)

/-- A deletion that fails has recorded it. -/
theorem exec_deleteTenant_error (hx : Exec openWorld (deleteTenant t) s tr (.error exc) s') :
    Told t exc s' := by
  obtain ⟨row, hrow, -, hst, herr, -⟩ := hx.on_outcome (deleteTenant_wp s rfl)
  intro row' hrow'
  obtain rfl := Option.some.inj (hrow.symm.trans hrow')
  exact ⟨by simp [hst], herr⟩

/-- A program that leaves the registry as it is when it raises. -/
def Undone {α : Type} (p : CP α) : Prop :=
  ∀ s tr exc s', Exec openWorld p s tr (.error exc) s' → s' = s

theorem undone_pure {α : Type} (a : α) : Undone (pure a : CP α) := fun _ _ _ _ hx => nomatch hx

theorem undone_throw {α : Type} (exc : Exn) : Undone (throw exc : CP α) := by
  intro s tr e s' hx
  cases hx
  rfl

theorem undone_upsert {f : Fields} (hf : f.Valid) : Undone (TenantStore.upsert t f) := by
  intro s tr e s' hx
  obtain ⟨now, h, -⟩ := exec_upsert hf hx
  cases h

theorem exec_quiet {α : Type} {p : CP α} {x : Except Exn α} (hp : p.Calls Quiet)
    (hx : Exec openWorld p s tr x s') : s' = s := by
  induction hx with
  | ret => rfl
  | fail => rfl
  | call hr _ ih => rw [ih (hp.2 _), openWorld_quiet hp.1 hr]

theorem Undone.bind {α β : Type} {p : CP α} {f : α → CP β} (hp : p.Calls Quiet)
    (hf : ∀ a, Undone (f a)) : Undone (p >>= f) := by
  intro s tr exc s' hx
  rcases Exec.of_bind hx with ⟨e, -, h⟩ | ⟨a, tr₁, tr₂, s₁, rfl, h, h'⟩
  · exact exec_quiet hp h
  · obtain rfl := exec_quiet hp h
    exact hf a _ _ _ _ h'

theorem Undone.ite {α : Type} {c : Prop} [Decidable c] {p q : CP α} (hp : c → Undone p)
    (hq : ¬c → Undone q) : Undone (if c then p else q) := by
  split
  · exact hp ‹_›
  · exact hq ‹_›

theorem suspendTenant_undone : Undone (suspendTenant t) := by
  refine .bind (get_quiet t) fun item => ?_
  cases item with
  | none => exact undone_throw _
  | some item =>
    refine .ite (fun _ => undone_pure _) fun _ => .ite (fun _ => undone_throw _) fun _ => ?_
    refine .bind (lifecycleRun_quiet _) fun _ => .bind (runOk_quiet _) fun _ => ?_
    exact undone_upsert (by simp)

theorem resumeTenant_undone : Undone (resumeTenant t) := by
  refine .bind (get_quiet t) fun item => ?_
  cases item with
  | none => exact undone_throw _
  | some item =>
    refine .ite (fun _ => undone_pure _) fun _ => .ite (fun _ => undone_throw _) fun _ => ?_
    refine .bind tofuOutputs_quiet fun _ => .bind list_quiet fun _ => ?_
    refine .ite (fun _ => undone_throw _) fun _ => .bind nodeIp_quiet fun _ => ?_
    refine .bind (onboard_quiet _ _ _ _) fun _ => .bind (lifecycleRun_quiet _) fun _ => ?_
    refine .bind (lifecycleRun_quiet _) fun _ => .bind (edgeUrl_quiet _ _) fun _ => ?_
    exact undone_upsert (by simp)

/-- The actuator records its failures itself. -/
def Action.RecordsItself : Action → Prop
  | .suspend | .resume => False
  | _ => True

/-- The actuator of the errand records its failures itself. -/
def Errand.RecordsItself : Errand → Prop
  | .job .resume => False
  | .job _ => True
  | .plan _ _ action => action.RecordsItself

@[simp] theorem Errand.recordsItself_plan :
    (Errand.plan desired tier action).RecordsItself ↔ action.RecordsItself := Iff.rfl

/-- An error of the control plane's own hierarchy. -/
def Exn.IsControlPlane (exc : Exn) : Prop := ∃ e, exc = .controlPlane e

/-- An action that fails has recorded it, or leaves the registry as it was. -/
theorem exec_act_told (hx : Exec openWorld (act actuators t tier action) s tr (.error exc) s') :
    action.RecordsItself ∧ Told t exc s' ∨ ¬action.RecordsItself ∧ s' = s := by
  cases action with
  | none | purgeRegistry => cases hx
  | provision | repair =>
    rcases Exec.of_bind hx with ⟨e, he, h⟩ | ⟨a, tr₁, tr₂, s₁, rfl, -, h⟩
    · cases he
      exact .inl ⟨trivial, exec_provision_error h⟩
    · cases h
  | suspend =>
    rcases Exec.of_bind hx with ⟨e, he, h⟩ | ⟨row, tr₁, tr₂, s₁, rfl, -, h⟩
    · cases he
      exact .inr ⟨id, suspendTenant_undone _ _ _ _ h⟩
    · cases h
  | resume =>
    rcases Exec.of_bind hx with ⟨e, he, h⟩ | ⟨row, tr₁, tr₂, s₁, rfl, -, h⟩
    · cases he
      exact .inr ⟨id, resumeTenant_undone _ _ _ _ h⟩
    · cases h
  | delete =>
    rcases Exec.of_bind hx with ⟨e, he, h⟩ | ⟨a, tr₁, tr₂, s₁, rfl, -, h⟩
    · cases he
      exact .inl ⟨trivial, exec_deleteTenant_error h⟩
    · cases h with
      | call _ h => cases h

/-- A job whose actuator fails has recorded it, or left the registry as it was. -/
theorem exec_actuator_told (hx : Exec openWorld (fn.actuator t) s tr (.error exc) s') :
    (Errand.job fn).RecordsItself ∧ Told t exc s' ∨ ¬(Errand.job fn).RecordsItself ∧ s' = s := by
  cases fn with
  | create tier ensureInfra ensureIdentity =>
    rcases Exec.of_bind hx with ⟨e, -, h⟩ | ⟨myIp, tr₁, tr₂, s₁, rfl, -, h⟩
    · cases h with
      | call _ h => cases h
    · exact .inl ⟨trivial, exec_provision_error h⟩
  | resume =>
    rcases Exec.of_bind hx with ⟨e, he, h⟩ | ⟨row, tr₁, tr₂, s₁, rfl, -, h⟩
    · cases he
      exact .inr ⟨id, resumeTenant_undone _ _ _ _ h⟩
    · cases h
  | delete => exact .inl ⟨trivial, exec_deleteTenant_error hx⟩

/-- The handler of a job records an error of the hierarchy, unless its actuator does, and changes
    nothing else. -/
theorem exec_caught_told {x : Except Exn Unit}
    (hx : Exec openWorld (fn.caught t exc) s tr x s') :
    ((Errand.job fn).RecordsItself ∨ exc.IsControlPlane) ∧ Told t exc s' ∨
      (exc.IsControlPlane → (Errand.job fn).RecordsItself) ∧ s' = s := by
  cases fn with
  | create tier ensureInfra ensureIdentity =>
    -- No handler: provisioning recorded its failure.
    cases hx
    exact .inr ⟨fun _ => trivial, rfl⟩
  | resume =>
    cases exc with
    | controlPlane e =>
      refine .inl ⟨.inr ⟨e, rfl⟩, ?_⟩
      obtain ⟨now, tr₁, h⟩ := exec_upsert_bind (by simp) hx
      cases h
      exact told_written rfl (by simp) rfl
    | _ =>
      -- `except ControlPlaneError` lets it through.
      cases hx
      exact .inr ⟨fun ⟨_, h⟩ => (nomatch h), rfl⟩
  | delete =>
    refine .inl ⟨.inl trivial, ?_⟩
    rcases Exec.of_bind hx with ⟨e, -, h⟩ | ⟨item, tr₁, tr₂, s₁, rfl, h, h'⟩
    · cases h with
      | call _ h => cases h
    · cases h with
      | call hr h =>
        cases h
        obtain ⟨rfl, rfl⟩ := openWorld_get.1 hr
        by_cases hrow : (s₁.get t).isSome
        · simp only [hrow, if_true] at h'
          obtain ⟨now, tr₃, h⟩ := exec_upsert_bind (by simp [deleteFailed]) h'
          cases h
          exact told_written rfl (by simp) rfl
        · -- Without a row there is nothing to tell.
          simp only [hrow] at h'
          cases h'
          intro row hsome
          simp [hsome] at hrow

/-- The handler of a plan records an error of the hierarchy, and changes nothing else. -/
theorem exec_planCaught_told {x : Except Exn Bool}
    (hx : Exec openWorld (planCaught t desired exc) s tr x s') :
    exc.IsControlPlane ∧ Told t exc s' ∨ ¬exc.IsControlPlane ∧ s' = s := by
  cases exc with
  | controlPlane e =>
    refine .inl ⟨⟨e, rfl⟩, ?_⟩
    obtain ⟨now, tr', h⟩ := exec_upsert_bind (by simp [planFailed]) hx
    cases h
    refine told_written rfl ?_ rfl
    have hmem := failedStatus_mem desired e
    simp only [List.mem_cons] at hmem ⊢
    tauto
  | _ =>
    cases hx
    exact .inr ⟨fun ⟨_, h⟩ => (nomatch h), rfl⟩

/-- After a run in which an actuator ends with an exception, the row tells the exception exactly
    if the actuator is one that records its failures itself (that is, it provisions or it
    deletes), or the exception is of the hierarchy, or the row the actuator was run on told it
    already. -/
theorem told_iff (h : Failing observer t exc i s s₀ s') :
    Told t exc s' ↔ i.RecordsItself ∨ exc.IsControlPlane ∨ Told t exc s₀ := by
  cases h with
  | job h₁ h₂ h₃ =>
    cases h₃ with
    | call hr h₃ =>
    cases h₃
    obtain rfl := openWorld_app.1 hr
    rcases exec_caught_told h₂ with ⟨hrec, htold⟩ | ⟨hrec, rfl⟩
    · exact iff_of_true htold (hrec.elim .inl fun h => .inr (.inl h))
    · rcases exec_actuator_told h₁ with ⟨hself, htold⟩ | ⟨hself, rfl⟩
      · exact iff_of_true htold (.inl hself)
      · rw [or_iff_right hself, or_iff_right fun h => hself (hrec h)]
  | plan h₀ h₁ h₂ =>
    rcases exec_planCaught_told h₂ with ⟨hcp, htold⟩ | ⟨hcp, rfl⟩
    · exact iff_of_true htold (.inr (.inl hcp))
    · rcases exec_act_told h₁ with ⟨hself, htold⟩ | ⟨hself, rfl⟩
      · exact iff_of_true htold (.inl hself)
      · rw [Errand.recordsItself_plan, or_iff_right hself, or_iff_right hcp]

/-- A job in a world that answers `a`, up to its handler, and with it. -/
def jobRun (a : (c : Cmd) → cpSig.Resp c) (t : TenantId) (fn : JobFn) (s : Registry) :
    Except Exn Unit × Registry :=
  ((fn.actuator t).eval (openAnswer "now") (fun _ => a) 0 s).2

def jobLeft (a : (c : Cmd) → cpSig.Resp c) (t : TenantId) (fn : JobFn) (exc : Exn) (s : Registry) :
    Registry :=
  ((fn.caught t exc).eval (openAnswer "now") (fun _ => a) 0 (jobRun a t fn s).2).2.2

theorem failing_jobRun (observer : TenantId → CP Observed) {a : (c : Cmd) → cpSig.Resp c}
    (h : (jobRun a t fn s).1 = .error exc) :
    Failing observer t exc (.job fn) s s (jobLeft a t fn exc s) := by
  have h₁ := exec_eval (openAnswer_step "now") (fun _ => a) (fn.actuator t) 0 s
  rw [show (eval (openAnswer "now") (fun _ => a) (fn.actuator t) 0 s).2.1 = .error exc from h] at h₁
  have h₂ := exec_eval (openAnswer_step "now") (fun _ => a) (fn.caught t exc) 0 (jobRun a t fn s).2
  exact .job h₁ h₂ (.call (r := ()) (openWorld_app.2 rfl) .ret)

/-- A throttled job to create a tenant is told. -/
theorem told_iff_throttled : ∃ row, (jobLeft throttled .a (.create "standard" false true)
    (.controlPlane throttledError) ∅).get .a = some row ∧ row.status = .failed ∧
      row.error = some "ThrottlingException: Rate exceeded" := by
  have hrun : (jobRun throttled .a (.create "standard" false true) ∅).1 =
      .error (.controlPlane throttledError) := rfl
  have htold := (told_iff (failing_jobRun kubectlObserver hrun)).2 (.inl trivial)
  have hrow : ((jobLeft throttled .a (.create "standard" false true)
      (.controlPlane throttledError) ∅).get .a).map (·.status) = some .failed := rfl
  obtain ⟨row, hget, hst⟩ := Option.map_eq_some_iff.1 hrow
  exact ⟨row, hget, hst, (htold row hget).2⟩

/-- The exception of a tenant resumed without an identity. -/
def unmapped : Exn := .onboardError "tenant 'a' missing identity maps; cannot resume"

/-- A suspended tenant without an identity is resumed in silence: it stays SUSPENDED, without an
    error. -/
theorem resume_silent : ¬∀ observer t exc i s s₀ s', Failing observer t exc i s s₀ s' →
    Told t exc s' := by
  intro h
  have hrun : (jobRun succeeding .a .resume (withStatus .suspended)).1 = .error unmapped := rfl
  have htold := h _ _ _ _ _ _ _ (failing_jobRun kubectlObserver hrun)
  have hrow : ((jobLeft succeeding .a .resume unmapped (withStatus .suspended)).get .a).map
      (·.error) = some none := rfl
  obtain ⟨row, hget, herr⟩ := Option.map_eq_some_iff.1 hrow
  have htext := (htold row hget).2
  rw [herr] at htext
  cases htext

end NtierLab
