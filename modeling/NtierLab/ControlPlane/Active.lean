import NtierLab.ControlPlane.Cluster

/-!
# ACTIVE in the registry

The operations that write ACTIVE, one after the other on the cluster (`activations`). A
write is *earned* if the tenant passes the contract gate at that moment (`Earned`), and
*backed* by what the operation relies on (`Backs`): the reconciler's own gate records
what it has seen; provisioning and resuming leave a release placed, whose workload may
not be ready and whose Ingress may be missing; adopting relies on the cluster as it is,
and so does the reconciler when it writes again the status of a row it listed.

* `active_earned_iff`: every write of ACTIVE, of any run, is earned exactly if it is backed.
-/

namespace NtierLab

open Prog

/-- The operations that write ACTIVE. -/
inductive Activation
  | provision (t : TenantId) (args : ProvisionArgs)
  | resumeTenant (t : TenantId)
  | adoptTenants (tids : List String)
  | reconcileOne (t : TenantId)
  | reconcileAll

namespace Activation

/-- The program of an operation. -/
def prog : Activation → CP Unit
  | provision t args => NtierLab.provision t args
  | resumeTenant t => do let _ ← NtierLab.resumeTenant t
  | adoptTenants tids => do let _ ← NtierLab.adoptTenants tids
  | reconcileOne t => do let _ ← NtierLab.reconcileOne kubectlObserver actuators t
  | reconcileAll => do let _ ← NtierLab.reconcileAll kubectlObserver actuators

/-- The operation adopts. -/
def adopts : Activation → Bool
  | adoptTenants _ => true
  | _ => false

end Activation

/-- The operations, between which anything happens. -/
def activations : Serial cpSig Exn Activation Unit Cluster where
  prog := Activation.prog
  step := cluster
  env _ _ _ := True

/-- The tenant passes the gate as the row of the fields is written. -/
structure Cluster.Earned (w : Cluster) (t : TenantId) (f : Fields) : Prop where
  active : (w.observed t).matchesActive = true
  contract : ∀ now,
    (validateActiveContract (w.observed t) (w.registry.written now t f).identity).ok = true

/-- The identity recorded of the tenant is complete. -/
def Registry.Recorded (s : Registry) (t : TenantId) : Prop :=
  ∀ row, s.get t = some row → row.identity.Complete

/-- What ACTIVE relies on as it is written. -/
def Cluster.Backs (w : Cluster) (adopts : Bool) (t : TenantId) (f : Fields) : Prop :=
  match f.observedJson, f.endpoint with
  -- The gate, which records what it has seen.
  | some _, _ => True
  -- The status listed, written again after a failed visit.
  | none, none => (w.observed t).matchesActive = true ∧ w.registry.Recorded t
  | none, some _ =>
    if adopts then (w.observed t).matchesActive = true
    else (w.observed t).deployReady = true ∧ (w.observed t).ingress = true ∧
      (f.ownedBy = none → w.registry.Recorded t)

/-- ACTIVE is written where it is earned exactly if it is backed. -/
def activating (adopts : Bool) : Contract cpSig Cluster where
  pre c w := ∀ t v f, c = .reg (.upsert t v f) → f.status = some .active →
    (w.Earned t f ↔ w.Backs adopts t f)
  post := cluster

section

variable {w w' : Cluster} {b : Bool} {t u : TenantId} {f : Fields} {α β : Type}

/-- ACTIVE is earned by the cluster as it is and the identity the write leaves. -/
theorem earned_iff {i : Identity} (hi : ∀ now, (w.registry.written now t f).identity = i) :
    w.Earned t f ↔ (w.observed t).matchesActive = true ∧ i.Complete := by
  constructor
  · rintro ⟨-, h⟩
    exact (validateActiveContract_ok _ _).1 (hi "" ▸ h "")
  · rintro ⟨h, hc⟩
    exact ⟨h, fun now => (validateActiveContract_ok _ _).2 ⟨h, hi now ▸ hc⟩⟩

/-- Fields without an identity leave the one recorded. -/
theorem earned_recorded_iff (ho : f.ownedBy = none) (hs : f.secretName = none)
    (hi : f.irsaRoleArn = none) :
    w.Earned t f ↔ (w.observed t).matchesActive = true ∧ w.registry.Recorded t := by
  rw [earned_iff fun now => Registry.written_identity]
  refine and_congr_right' ?_
  rw [Registry.Recorded, ho, hs, hi]
  cases w.registry.get t with
  | none => simp [Identity.Complete]
  | some row => simp [Row.identity]

/-- A release placed earns ACTIVE by its workload, its Ingress, and the identity written. -/
theorem Placed.earned_iff (h : Placed (w.objects t)) {i : Identity}
    (hi : ∀ now, (w.registry.written now t f).identity = i) :
    w.Earned t f ↔ (w.observed t).deployReady = true ∧ (w.observed t).ingress = true ∧
      i.Complete := by
  rw [NtierLab.earned_iff hi, Cluster.observed, h.matchesActive_iff, and_assoc]

/-! ## What a program returns -/

/-- A program that writes ACTIVE as the contract says, and what it leaves when it returns. -/
def Yields (b : Bool) (p : CP α) (V : α → Cluster → Prop) (w : Cluster) : Prop :=
  p.wp (activating b) (fun x w' => ∀ a, x = .ok a → V a w') w

variable {p : CP α} {V V' : α → Cluster → Prop} {V₂ : β → Cluster → Prop}

theorem Yields.imp (hp : Yields b p V w) (h : ∀ a w', V a w' → V' a w') : Yields b p V' w :=
  wp.imp hp fun _ _ hx a ha => h a _ (hx a ha)

/-- What one program yields the next starts from. -/
theorem Yields.bind {f : α → CP β} (hp : Yields b p V w)
    (hf : ∀ a w', V a w' → Yields b (f a) V₂ w') : Yields b (p >>= f) V₂ w :=
  wp.bind hp (fun a w' h => hf a w' (h a rfl)) fun _ _ _ => nofun

theorem yields_pure {a : α} (h : V a w) : Yields b (pure a) V w := by
  rintro _ ⟨⟩
  exact h

theorem yields_throw (e : Exn) : Yields b (throw e : CP α) V w := nofun

theorem Yields.map {g : α → β} (hp : Yields b p (fun a => V₂ (g a)) w) :
    Yields b (g <$> p) V₂ w :=
  hp.bind fun _ _ h => yields_pure h

theorem Yields.ite {c : Prop} [Decidable c] {p q : CP α} (hp : c → Yields b p V w)
    (hq : ¬c → Yields b q V w) : Yields b (if c then p else q) V w :=
  (wp_ite _ _ _).2 ⟨hp, hq⟩

/-- A handler starts from any world. -/
theorem Yields.rescue {h : Exn → CP α} (hp : Yields b p V w)
    (hh : ∀ e w', Yields b (h e) V w') : Yields b (tryCatch p h) V w := by
  refine (wp_tryCatch _ _).2 (wp.imp hp ?_)
  rintro (e | a) w' hx
  · exact hh e w'
  · exact hx

/-- So does one of the errors of AWS. -/
theorem Yields.except {h : String → Exn → CP α} (hp : Yields b p V w)
    (hh : ∀ code e w', Yields b (h code e) V w') : Yields b (exceptClientError p h) V w :=
  hp.rescue fun e w' => by cases e <;> first | exact hh _ _ w' | exact yields_throw _

/-- So does one of the errors of the hierarchy. -/
theorem Yields.exceptControlPlane {h : ControlPlaneError → CP α} (hp : Yields b p V w)
    (hh : ∀ e w', Yields b (h e) V w') : Yields b (exceptControlPlane p h) V w :=
  hp.rescue fun e w' => by cases e <;> first | exact hh _ w' | exact yields_throw _

/-- Attempts yield what one yields. -/
theorem yields_retry {p : CP α} (hp : ∀ w, Yields b p V w) (n : ℕ) :
    Yields b (withRetry p n) V w := by
  induction n generalizing w with
  | zero => exact yields_throw _
  | succ n ih =>
    cases n with
    | zero => exact hp w
    | succ n => exact (hp w).rescue fun e w' => .ite (fun _ => ih) fun _ => yields_throw _

/-- A command that does not write ACTIVE. -/
theorem yields_call {c : Cmd} {k : cpSig.Resp c → CP α} (hc : NotActive c)
    (hk : ∀ r w', cluster c w r w' → Yields b (k r) V w') : Yields b (.call c k) V w :=
  ⟨fun t v f h hf => absurd hf (hc t v f h), hk⟩

/-- A program that does not write ACTIVE. -/
theorem yields_of_calls (hp : p.Calls NotActive) : Yields b p (fun _ _ => True) w :=
  (hp.wp (I := fun _ => True) (fun _ _ hc _ =>
    ⟨fun t v f h hf => absurd hf (hc t v f h), fun _ _ _ => trivial⟩) trivial).imp
      fun _ _ _ _ _ => trivial

theorem Quiet.notActive {c : Cmd} (h : Quiet c) : NotActive c := by
  rintro t v f rfl
  exact h.elim

/-- A quiet program writes no ACTIVE. -/
theorem yields_quiet (hp : p.Calls Quiet) : Yields b p (fun _ _ => True) w :=
  yields_of_calls (hp.imp fun _ => Quiet.notActive)

/-- A reading yields the row. -/
theorem yields_get : Yields b (TenantStore.get t) (fun row w' => row = w.registry.get t ∧ w' = w) w := by
  refine yields_call (fun _ _ _ h => nomatch h) fun r w' hr => yields_pure ?_
  obtain ⟨⟨now, hrun⟩, ho⟩ := hr
  obtain ⟨rfl, hw⟩ := Prod.mk.inj hrun
  exact ⟨rfl, by cases w; cases w'; cases hw; cases ho; rfl⟩

/-- An `upsert` writes the row of the tenant. -/
theorem yields_upsert (hf : f.Valid)
    (h : f.status = some .active → (w.Earned t f ↔ w.Backs b t f)) :
    Yields b (TenantStore.upsert t f) (fun _ w' => w'.objects = w.objects ∧
      ∃ now, w'.registry.get t = some (w.registry.written now t f)) w := by
  refine ⟨?_, fun r w' hr => ?_⟩
  · rintro _ _ _ ⟨⟩ hs
    exact h hs
  · obtain ⟨⟨now, hrun⟩, ho⟩ := hr
    rw [RegCmd.run, Registry.upsert_valid hf] at hrun
    obtain ⟨rfl, hw⟩ := Prod.mk.inj hrun
    exact yields_pure ⟨ho, now, by rw [← hw, Registry.get_insert_self]⟩

/-- A row is written that does not become ACTIVE. -/
theorem yields_upsert_ne (hf : f.status ≠ some .active) :
    Yields b (TenantStore.upsert t f) (fun _ _ => True) w :=
  yields_of_calls (upsert_notActive hf)

/-- A process that returns has had its effect. -/
theorem yields_run {c : Shell} {V : Cluster → Prop}
    (h : ∀ w', cluster (.shell c) w (.exited 0) w' → V w') : Yields b (run c) (fun _ => V) w := by
  refine yields_call (fun _ _ _ h => nomatch h) fun r w' hr => ?_
  cases r with
  | exited code =>
    exact .ite (fun h₀ => yields_pure (h w' (h₀ ▸ hr))) fun _ => yields_throw _
  | _ => exact yields_throw _

/-- So has one of the lifecycle. -/
theorem yields_lifecycleRun {c : Shell} {V : Cluster → Prop}
    (h : ∀ w', cluster (.shell c) w (.exited 0) w' → V w') :
    Yields b (lifecycleRun c) (fun _ => V) w := by
  refine yields_call (fun _ _ _ h => nomatch h) fun r w' hr => ?_
  cases r with
  | exited code =>
    exact .ite (fun h₀ => yields_pure (h w' (h₀ ▸ hr))) fun _ => yields_throw _
  | _ => exact yields_throw _

end

/-! ## The observer -/

section

variable {w w' : Cluster} {b : Bool} {t : TenantId}

/-- An object read is there. -/
def Saw (w : Cluster) (t : TenantId) (k : KubeObject) (o : Option KubeJson) : Prop :=
  ∀ j, o = some j → w.objects t k = some j

/-- An object is seen as it is. -/
theorem yields_kubectlJson (k : KubeObject) :
    Yields b (kubectlJson t k) (fun o w' => w' = w ∧ Saw w t k o) w := by
  refine yields_call (fun _ _ _ h => nomatch h) fun r w' hr => ?_
  obtain ⟨rfl, hj⟩ := hr
  rcases r with e | (j | _ | _)
  · exact yields_throw e
  · exact yields_pure ⟨rfl, fun _ h => hj _ (by rw [Option.some.inj h])⟩
  · exact yields_pure ⟨rfl, nofun⟩
  · exact yields_pure ⟨rfl, nofun⟩

/-- What the observer sees active is active. -/
theorem yields_kubectlObserver : Yields b (kubectlObserver t)
    (fun o w' => w' = w ∧ (o.matchesActive = true → (w.observed t).matchesActive = true)) w := by
  refine (yields_kubectlJson .ns).bind ?_
  rintro (_ | ns) w ⟨rfl, hns⟩
  · exact yields_pure ⟨rfl, nofun⟩
  refine (yields_kubectlJson .deploy).bind ?_
  rintro deploy w ⟨rfl, hdeploy⟩
  refine (yields_kubectlJson .ingress).bind ?_
  rintro ingress w ⟨rfl, hingress⟩
  refine (yields_kubectlJson .service).bind ?_
  rintro service w ⟨rfl, hservice⟩
  refine (yields_kubectlJson .networkPolicy).bind ?_
  rintro policy w ⟨rfl, hpolicy⟩
  refine (yields_kubectlJson .resourceQuota).bind ?_
  rintro quota w ⟨rfl, hquota⟩
  refine (yields_kubectlJson .serviceAccount).bind ?_
  rintro sa w ⟨rfl, hsa⟩
  refine yields_pure ⟨rfl, fun h => ?_⟩
  have hns := hns ns rfl
  -- Each object the gate asks for was read, so it is there.
  simp only [Observed.matchesActive, Bool.and_eq_true, decide_eq_true_eq, true_and] at h
  obtain ⟨⟨⟨⟨⟨⟨hready, hreplicas⟩, hing⟩, hsvc⟩, hnp⟩, hrq⟩, hrole⟩ := h
  obtain ⟨j, rfl, -⟩ := (Option.any_eq_true ..).1 hready
  obtain ⟨i, rfl⟩ := Option.isSome_iff_exists.1 hing
  obtain ⟨s, rfl⟩ := Option.isSome_iff_exists.1 hsvc
  obtain ⟨n, rfl⟩ := Option.isSome_iff_exists.1 hnp
  obtain ⟨q, rfl⟩ := Option.isSome_iff_exists.1 hrq
  obtain ⟨a, rfl, -⟩ := (Option.any_eq_true ..).1 hrole
  have hready : 1 ≤ j.specReplicas ∧ 1 ≤ j.readyReplicas := by simpa using hready
  have hrole : a.roleArn ≠ "" := by simpa using hrole
  simp [Cluster.observed, Objects.observed, Observed.matchesActive, hns, hdeploy j rfl,
    hingress i rfl, hservice s rfl, hpolicy n rfl, hquota q rfl, hsa a rfl, hready, hrole]

end

/-! ## Onboarding -/

section

variable {w w' : Cluster} {b : Bool} {t : TenantId} {outputs : Outputs}

/-- The command does not write ACTIVE, nor change the objects of the tenant. -/
def Spares (t : TenantId) (c : Cmd) : Prop :=
  NotActive c ∧ ∀ s, c = .shell s → s.touches ≠ some t

/-- A program that spares the objects of a tenant leaves its release placed. -/
theorem yields_spares {α : Type} {p : CP α} (hp : p.Calls (Spares t))
    (h : Placed (w.objects t)) : Yields b p (fun _ w' => Placed (w'.objects t)) w :=
  (hp.wp (K := activating b) (I := fun w => Placed (w.objects t)) (fun _ _ hc hw =>
    ⟨fun t v f h hf => absurd hf (hc.1 t v f h), fun _ _ hr => hw.step hr hc.2⟩) h).imp
      fun _ _ h _ _ => h

theorem Quiet.spares {c : Cmd} (h : Quiet c) (hs : ∀ s, c ≠ .shell s) : Spares t c :=
  ⟨h.notActive, fun s hc => absurd hc (hs s)⟩

/-- The URL of the edge spares the objects of the tenant. -/
theorem edgeUrl_spares (u : TenantId) (timeout : ℕ) :
    (edgeUrl outputs u timeout).Calls (Spares t) :=
  (edgeUrl_acts (S := fun s => s.touches ≠ some t) u timeout).imp fun c h =>
    ⟨h.quiet.notActive, fun s hs => by subst hs; exact h⟩

/-- Onboarding with a role leaves the release placed. -/
theorem yields_onboard {ip : String} {ids : List TenantId} {irsa secrets : TidMap String}
    (hirsa : RolesNamed irsa) : Yields b (onboard t outputs ip ids irsa secrets)
      (fun _ w' => Placed (w'.objects t)) w := by
  unfold onboard
  split
  · next arn secret harn _ =>
    refine (yields_quiet (p := releaseRegion outputs)
      (.ite (fun _ => trivial) fun _ => getenv_quiet _)).bind fun region w _ => ?_
    refine (yields_quiet (require_quiet _ _)).bind fun host w _ => ?_
    refine (yields_quiet (edgeSets_quiet _ _)).bind fun edge w _ => ?_
    refine (yields_quiet (p := nsYaml t) ⟨trivial, fun r => calls_result r⟩).bind fun _ w _ => ?_
    refine (yields_quiet (run_quiet _)).bind fun _ w _ => ?_
    refine (yields_quiet (run_quiet _)).bind fun _ w _ => ?_
    refine (yields_quiet (p := releaseMigrate ..)
      (.ite (fun _ => .map _ (refreshMigrate_quiet _)) fun _ => trivial)).bind fun migrate w _ => ?_
    refine Yields.bind (V := fun _ w => Placed (w.objects t)) (yields_run fun w' hr => ?_)
      fun _ w hw => ?_
    · exact Released.placed (hr.2.2 rfl t rfl) (hirsa t arn harn)
    refine .ite (fun _ => yields_run fun w' hr => hw.step hr ?_) fun _ => yields_pure hw
    rintro s ⟨⟩
    exact nofun
  · exact yields_throw _

/-- Scaling a placed release to one replica leaves it placed. -/
theorem Placed.scaled {o o' : Objects} (h : Placed o) (hs : (Shell.scale t 1).Leaves o o') :
    Placed o' where
  there k hk := by
    cases hd : decide (k = .deploy) with
    | true =>
      rw [decide_eq_true_eq] at hd
      subst hd
      have := hs.1
      cases ho : o' .deploy <;> simp_all
    | false =>
      rw [decide_eq_false_iff_not] at hd
      have := congrArg Option.isSome (hs.2 k hd)
      rw [Option.isSome_map, Option.isSome_map] at this
      exact this.trans (h.there k hk)
  replicas := hs.1
  role := by
    obtain ⟨j, hj, hne⟩ := h.role
    have hrole := map_of_unready (f := (·.roleArn)) (fun _ => rfl) (hs.2 .serviceAccount nofun)
    rw [hj, Option.map_some, Option.map_eq_some_iff] at hrole
    obtain ⟨j', hj', heq⟩ := hrole
    exact ⟨j', hj', heq ▸ hne⟩

/-- A map that names roles names them with one more. -/
theorem rolesNamed_put {m : TidMap String} (hm : RolesNamed m) (value : Option String) :
    RolesNamed (IdentityMaps.put m t value) := by
  unfold IdentityMaps.put
  split_ifs with hv
  · intro u arn h
    rw [Std.ExtTreeMap.getElem?_insert] at h
    split_ifs at h
    · cases h
      simpa [truthy] using hv
    · exact hm u arn h
  · exact hm

/-- The identities merged have their roles named. -/
theorem rolesNamed_merge (h : RolesNamed outputs.tenantIrsaRoleArns) (extra : TidMap Identity) :
    RolesNamed (mergeIdentityMaps outputs extra).irsa := by
  have hfold (l : List (TenantId × Identity)) (m : IdentityMaps) (hm : RolesNamed m.irsa) :
      RolesNamed (l.foldl .add m).irsa := by
    induction l generalizing m with
    | nil => exact hm
    | cons p l ih => exact ih _ (rolesNamed_put hm _)
  exact hfold _ _ h

/-- The outputs name roles. -/
theorem yields_tofuOutputs :
    Yields b tofuOutputs (fun o _ => RolesNamed o.tenantIrsaRoleArns) w := by
  refine yields_call (fun _ _ _ h => nomatch h) fun r w' hr => ?_
  cases r with
  | error e => exact yields_throw e
  | ok o => exact yields_pure (hr.2.2 o rfl)

end

/-! ## Provisioning and resuming -/

section

variable {w : Cluster} {b : Bool} {t : TenantId} {outputs : Outputs}

/-- A role ensured has an ARN. -/
theorem yields_ensureRole (name : String) (trust : Trust) :
    Yields b (ensureRole name trust) (fun arn _ => arn ≠ "") w := by
  refine .except ?_ fun code e w => .ite (fun _ => yields_throw _) fun _ => ?_
  · refine yields_call (fun _ _ _ h => nomatch h) fun r w hr => ?_
    cases r with
    | error e => exact yields_throw e
    | ok arn =>
      exact (yields_quiet (p := .call (.aws (.updateAssumeRolePolicy name trust)) result)
        ⟨trivial, fun r => calls_result r⟩).bind fun _ _ _ => yields_pure (hr.2.2 arn rfl)
  · refine yields_call (fun _ _ _ h => nomatch h) fun r w hr => ?_
    cases r with
    | error e => exact yields_throw e
    | ok arn => exact yields_pure (hr.2.2 arn rfl)

/-- An identity of the control plane names its secret and its role. -/
theorem owned_complete {arn : String} (harn : arn ≠ "") :
    Identity.Complete ⟨some "control_plane", some (secretName outputs t), some arn⟩ := by
  intro _
  simp [truthy, harn, secretName]

/-- An identity ensured is complete. -/
theorem yields_ensureTenantIdentity :
    Yields b (ensureTenantIdentity outputs t) (fun i _ => i.Complete) w := by
  refine yields_retry (fun w => .except ?_ fun _ _ _ => yields_throw _) 5
  refine .ite (fun _ => yields_throw _) fun _ => .ite (fun _ => yields_throw _) fun _ => ?_
  refine (yields_quiet (p := .call (.aws .callerIdentity) result)
    ⟨trivial, fun r => calls_result r⟩).bind fun _ w _ => ?_
  refine (yields_quiet (p := .call (.host .password) .ret)
    ⟨trivial, fun _ => trivial⟩).bind fun password w _ => ?_
  refine (yields_quiet (ensureSecret_quiet _ _)).bind fun secretArn w _ => ?_
  refine (yields_ensureRole _ _).bind fun arn w harn => ?_
  exact (yields_quiet (p := .call (.aws (.putRolePolicy _ _ secretArn)) result)
    ⟨trivial, fun r => calls_result r⟩).bind fun _ w _ => yields_pure (owned_complete harn)

/-- An identity of OpenTofu is complete. -/
theorem tofuIdentity_complete (outputs : Outputs) (t : TenantId) :
    (tofuIdentity outputs t).Complete := by
  simp [tofuIdentity, Identity.Complete]

/-- The outputs read after the infrastructure is ensured name roles. -/
theorem yields_ensureInfra (myIp : Option String) :
    Yields b (ensureInfra t myIp) (fun o _ => RolesNamed o.tenantIrsaRoleArns) w := by
  refine (yields_quiet (p := .call (.host .tfvars) .ret) ⟨trivial, fun _ => trivial⟩).bind
    fun tfvars w _ => .ite (fun _ => yields_throw _) fun _ => ?_
  refine (yields_quiet (p := .call (.host (.ensureTenantInTfvars t)) result)
    ⟨trivial, fun r => calls_result r⟩).bind fun changed w _ => ?_
  refine yields_tofuOutputs.bind fun outputs w ho => .ite (fun _ => ?_) fun _ => yields_pure ho
  refine (yields_quiet (p := applyWorkload myIp) (.bind (.ite (fun _ => trivial) fun _ =>
    ⟨trivial, fun r => calls_result r⟩) fun _ => ⟨trivial, fun r => calls_result r⟩)).bind
      fun _ w _ => yields_tofuOutputs

/-- So do those the identity is ensured with, which is complete. -/
theorem yields_ensureIdentity (args : ProvisionArgs) : Yields b (ensureIdentity t args)
    (fun a _ => RolesNamed a.1.tenantIrsaRoleArns ∧ a.2.Complete) w := by
  refine .ite (fun _ => ?_) fun _ => ?_
  · exact (yields_ensureInfra _).bind fun outputs w ho =>
      yields_pure ⟨ho, tofuIdentity_complete outputs t⟩
  · refine yields_tofuOutputs.bind fun outputs w ho => .ite (fun _ => ?_) fun _ => ?_
    · exact yields_ensureTenantIdentity.bind fun i w hi => yields_pure ⟨ho, hi⟩
    · refine .ite (fun _ => yields_throw _) fun _ => .ite (fun _ => yields_throw _) fun _ => ?_
      exact .ite (fun _ => yields_throw _) fun _ =>
        yields_pure ⟨ho, tofuIdentity_complete outputs t⟩

/-- Provisioning writes ACTIVE of a release placed. -/
theorem yields_provision (args : ProvisionArgs) :
    Yields false (provision t args) (fun _ _ => True) w := by
  refine (yields_upsert_ne (by simp [provisioning])).bind fun _ w _ => .rescue ?_ fun e w =>
    (yields_upsert_ne (by simp [provisionFailed])).bind fun _ w _ => yields_throw _
  refine (yields_ensureIdentity args).bind ?_
  rintro ⟨outputs, i⟩ w ⟨ho, hi⟩
  refine (yields_upsert_ne (by simp [withIdentity, provisioning])).bind fun _ w _ =>
    (yields_quiet list_quiet).bind fun rows w _ => ?_
  refine (yields_quiet nodeIp_quiet).bind fun ip w _ => ?_
  refine Yields.bind (V := fun _ w => Placed (w.objects t)) ?_ fun _ w hw => ?_
  · refine (yields_quiet (p := onboardPlatform ..) (.ite (fun _ => onboard_quiet _ _ _ _) fun _ =>
      trivial)).bind fun _ w _ => yields_onboard (rolesNamed_merge ho _)
  refine (yields_spares (edgeUrl_spares t 600) hw).bind fun alb w hw => ?_
  refine (yields_upsert (by simp [provisioned, withIdentity]) fun _ => ?_).bind fun _ w _ =>
    yields_pure trivial
  have hid (now : String) :
      (w.registry.written now t (provisioned t args.tier alb i)).identity = i := by
    rw [Registry.written_identity]
    rfl
  rw [hw.earned_iff hid]
  simp [Cluster.Backs, provisioned, withIdentity, hi]

/-- Resuming writes ACTIVE of a release placed, and leaves the identity recorded. -/
theorem yields_resumeTenant : Yields false (resumeTenant t) (fun _ _ => True) w := by
  refine (yields_quiet (get_quiet t)).bind fun item w _ => ?_
  cases item with
  | none => exact yields_throw _
  | some item =>
    refine .ite (fun _ => yields_pure trivial) fun _ => .ite (fun _ => yields_throw _) fun _ => ?_
    refine yields_tofuOutputs.bind fun outputs w ho => (yields_quiet list_quiet).bind fun rows w _ => ?_
    refine .ite (fun _ => yields_throw _) fun _ => (yields_quiet nodeIp_quiet).bind fun ip w _ => ?_
    refine (yields_onboard (rolesNamed_merge ho _)).bind fun _ w hw => ?_
    refine Yields.bind (V := fun _ w => Placed (w.objects t)) (yields_lifecycleRun fun w' hr =>
      hw.scaled (hr.2.2 rfl t rfl)) fun _ w hw => ?_
    refine Yields.bind (V := fun _ w => Placed (w.objects t)) (yields_lifecycleRun fun w' hr =>
      hw.step hr (by rintro s ⟨⟩; exact nofun)) fun _ w hw => ?_
    refine (yields_spares (edgeUrl_spares t 300) hw).bind fun alb w hw => ?_
    refine (yields_upsert (by simp) fun _ => ?_).imp fun _ _ _ => trivial
    rw [earned_recorded_iff rfl rfl rfl, Cluster.observed, hw.matchesActive_iff, and_assoc]
    simp [Cluster.Backs, Cluster.observed]

end

/-! ## Adopting -/

section

variable {w : Cluster} {t : TenantId} {outputs : Outputs} {alb : String}

/-- Adopting writes a complete identity. -/
theorem yields_adoptTenant : Yields true (adoptTenant outputs alb t) (fun _ _ => True) w := by
  refine (yields_quiet (orMissing_calls (describeSecret_quiet _) _)).bind fun secret w _ => ?_
  refine .ite (fun _ => yields_pure trivial) fun _ => ?_
  refine Yields.bind (V := fun role _ => ∀ arn, role = some arn → arn ≠ "") ?_ ?_
  · refine .except (.map ?_) fun _ _ w => .ite (fun _ => yields_pure nofun) fun _ => yields_throw _
    refine yields_call (fun _ _ _ h => nomatch h) fun r w hr => ?_
    cases r with
    | error e => exact yields_throw e
    | ok arn => exact yields_pure fun a ha => Option.some.inj ha ▸ hr.2.2 arn rfl
  · rintro (_ | arn) w harn
    · exact yields_pure trivial
    refine (yields_quiet (tagIdentity_quiet outputs)).bind fun _ w _ => ?_
    refine (yields_quiet (get_quiet t)).bind fun existing w _ => .map ?_
    refine (yields_upsert (by simp [adopted]) fun _ => ?_).imp fun _ _ _ => trivial
    have hid (now : String) : (w.registry.written now t (adopted outputs t alb arn existing)).identity =
        ⟨some "control_plane", some (secretName outputs t), some arn⟩ := by
      rw [Registry.written_identity]
      rfl
    rw [earned_iff hid]
    simp [Cluster.Backs, adopted, owned_complete (harn arn rfl)]

/-- Adoption writes ACTIVE as it may. -/
theorem yields_adoptEach (tids : List String) :
    Yields true (adoptEach outputs alb tids) (fun _ _ => True) w := by
  induction tids generalizing w with
  | nil => exact yields_pure trivial
  | cons tid tids ih =>
    rw [adoptEach]
    split
    · exact ih
    · exact yields_adoptTenant.bind fun _ _ _ => ih.bind fun _ _ _ => yields_pure trivial

/-- So does the adoption of all. -/
theorem yields_adoptTenants (tids : List String) :
    Yields true (adoptTenants tids) (fun _ _ => True) w := by
  refine (yields_quiet tofuOutputs_quiet).bind fun outputs w _ => ?_
  refine (yields_quiet (adoptUrl_quiet outputs)).bind fun alb w _ => ?_
  refine (yields_quiet (adoptIds_quiet outputs tids)).bind fun tids w _ => ?_
  exact .ite (fun _ => yields_throw _) fun _ => yields_adoptEach tids

end

/-! ## Reconciling -/

section

variable {w : Cluster} {t : TenantId} {b : Bool}

/-- The observation is one of the cluster, and the identity is the one recorded. -/
structure Grounded (w : Cluster) (t : TenantId) (o : Observed) (i : Identity) : Prop where
  observed : o.matchesActive = true → (w.observed t).matchesActive = true
  identity : ∀ row, w.registry.get t = some row → row.identity = i

/-- The gate writes ACTIVE where it is earned. -/
theorem yields_recordGated {o : Observed} {i : Identity} (h : Grounded w t o i) :
    Yields b (recordGated t o i) (fun _ _ => True) w := by
  refine .ite (fun hok => ?_) fun _ => yields_upsert_ne (by simp [observedFields])
  refine (yields_upsert (by simp [observedFields]) fun _ => ?_).imp fun _ _ _ => trivial
  obtain ⟨ho, hi⟩ := (validateActiveContract_ok o i).1 hok
  rw [earned_recorded_iff rfl rfl rfl]
  exact iff_of_true ⟨h.observed ho, fun row hrow => (h.identity row hrow).symm ▸ hi⟩ trivial

/-- ACTIVE is written again only past the gate. -/
theorem yields_regate (item : Option Row) :
    Yields b (regate kubectlObserver t item) (fun _ _ => True) w := by
  refine yields_get.bind ?_
  rintro _ w ⟨rfl, rfl⟩
  refine yields_kubectlObserver.bind ?_
  rintro o w ⟨rfl, ho⟩
  refine .map (yields_recordGated ⟨ho, fun row hrow => ?_⟩)
  rw [hrow]
  rfl

/-- A suspension does not write ACTIVE. -/
theorem suspendTenant_notActive : (suspendTenant t).Calls NotActive := by
  refine .bind get_notActive fun item => ?_
  cases item with
  | none => trivial
  | some item =>
    refine .ite (fun _ => trivial) fun _ => .ite (fun _ => trivial) fun _ => ?_
    refine .bind ((lifecycleRun_quiet _).imp fun _ => Quiet.notActive) fun _ => ?_
    exact .bind ((runOk_quiet _).imp fun _ => Quiet.notActive) fun _ => upsert_notActive (by simp)

theorem Deletes.notActive {c : Cmd} (h : Deletes t c) : NotActive c := by
  rintro u v f rfl
  obtain ⟨-, -, -, hf | hf⟩ := h <;> rw [hf] <;> simp

/-- The actions of the reconciler write ACTIVE where it is earned. -/
theorem yields_act (tier : String) (action : Action) :
    Yields false (act actuators t tier action) (fun _ _ => True) w := by
  cases action with
  | provision | repair => exact (yields_provision _).bind fun _ _ _ => yields_pure trivial
  | suspend =>
    exact (yields_of_calls suspendTenant_notActive).bind fun _ _ _ => yields_pure trivial
  | resume => exact yields_resumeTenant.bind fun _ _ _ => yields_pure trivial
  | delete =>
    exact (yields_of_calls (deleteTenant_deletes.imp fun _ => Deletes.notActive)).bind
      fun _ _ _ => (yields_quiet (get_quiet t)).bind fun _ _ _ => yields_pure trivial
  | none | purgeRegistry => exact yields_pure trivial

/-- So they do with their failures recorded. -/
theorem yields_carryOut (item : Row) (action : Action) :
    Yields false (carryOut kubectlObserver actuators t item action) (fun _ _ => True) w := by
  refine Yields.bind (V := fun _ _ => True) (.exceptControlPlane (yields_act _ _) fun exc w => ?_)
    fun gone w _ => .ite (fun _ => yields_pure trivial) fun _ => ?_
  · refine (yields_upsert_ne ?_).bind fun _ w _ => yields_throw _
    unfold failedStatus
    split_ifs <;> simp
  · exact (yields_quiet (get_quiet t)).bind fun again w _ =>
      .ite (fun _ => yields_regate _) fun _ => yields_pure trivial

/-- A row is settled ACTIVE where that was seen. -/
theorem yields_settle {item : Row} {o : Observed} (h : Grounded w t o item.identity) :
    Yields b (settle t item o) (fun _ _ => True) w := by
  refine .ite (fun _ => ?_) fun _ => .ite (fun _ => ?_) fun _ => .map (yields_recordGated h)
  · exact (yields_of_calls delete_notActive).bind fun _ _ _ => yields_pure trivial
  · exact .map (yields_upsert_ne (by simp [observedFields]))

/-- What follows an observation writes ACTIVE where it is earned. -/
theorem yields_follow {item : Row} {o : Observed} (h : Grounded w t o item.identity)
    (action : Action) :
    Yields false (follow kubectlObserver actuators t item o action) (fun _ _ => True) w := by
  cases action with
  | none => exact yields_settle h
  | purgeRegistry =>
    exact (yields_of_calls delete_notActive).bind fun _ _ _ => yields_pure trivial
  | _ => exact yields_carryOut _ _

/-- So does a reconciliation. -/
theorem yields_reconcileOne :
    Yields false (reconcileOne kubectlObserver actuators t) (fun _ _ => True) w := by
  refine yields_get.bind ?_
  rintro _ w ⟨rfl, rfl⟩
  cases hrow : w.registry.get t with
  | none => exact yields_throw _
  | some item =>
    refine yields_kubectlObserver.bind ?_
    rintro o w ⟨rfl, ho⟩
    refine (yields_upsert (by simp) (by simp)).bind ?_
    rintro _ w' ⟨hobjects, now, hw⟩
    -- Recording the observation keeps the identity, and the objects.
    refine (yields_follow ⟨fun h => ?_, fun row h => ?_⟩ _).bind fun _ _ _ => yields_pure trivial
    · rw [Cluster.observed, hobjects]
      exact ho h
    · obtain rfl := Option.some.inj (hw.symm.trans h)
      rw [Registry.written_identity, hrow]
      rfl

/-- So do the visits of a sweep. -/
theorem yields_reconcileRows (rows : List (TenantId × Row)) :
    Yields false (reconcileRows kubectlObserver actuators rows) (fun _ _ => True) w := by
  induction rows generalizing w with
  | nil => exact yields_pure trivial
  | cons p rows ih =>
    obtain ⟨u, item⟩ := p
    refine Yields.bind (V := fun _ _ => True) (.exceptControlPlane (.map yields_reconcileOne)
      fun exc w => ?_) fun _ _ _ => ih.bind fun _ _ _ => yields_pure trivial
    -- A failed visit writes the status listed again.
    exact (yields_upsert (by simp) fun _ => earned_recorded_iff rfl rfl rfl).bind
      fun _ _ _ => yields_pure trivial

/-- So does the sweep. -/
theorem yields_reconcileAll :
    Yields false (reconcileAll kubectlObserver actuators) (fun _ _ => True) w := by
  refine (yields_quiet (p := listUnmanagedNamespaces) (.bind list_quiet fun _ =>
    ⟨trivial, fun _ => trivial⟩)).bind fun unmanaged w _ => ?_
  exact (yields_quiet list_quiet).bind fun rows w _ =>
    (yields_reconcileRows rows).bind fun _ _ _ => yields_pure trivial

/-- Every operation that may write ACTIVE does so as it may. -/
theorem Activation.yields (i : Activation) (w : Cluster) :
    Yields i.adopts i.prog (fun _ _ => True) w := by
  cases i with
  | provision t args => exact yields_provision args
  | resumeTenant t => exact yields_resumeTenant.bind fun _ _ _ => yields_pure trivial
  | adoptTenants tids => exact (yields_adoptTenants tids).bind fun _ _ _ => yields_pure trivial
  | reconcileOne t => exact yields_reconcileOne.bind fun _ _ _ => yields_pure trivial
  | reconcileAll => exact yields_reconcileAll.bind fun _ _ _ => yields_pure trivial

end

/-! ## Every run -/

/-- Every write of ACTIVE, of any run of the operations, is earned exactly if it is backed. -/
theorem active_earned_iff {G : Cluster → Turn cpSig Activation Unit → Prop} {w₀ : Cluster}
    {ts : List (Turn cpSig Activation Unit)} {p p' : Desk cpSig Exn Activation Cluster}
    {i : Activation} {t : TenantId} {v : Option ℤ} {f : Fields} {r : Except Exn Row}
    (hr : activations.Run G w₀ ts p)
    (hst : activations.Step p (.run i ⟨.reg (.upsert t v f), r⟩) p')
    (hf : f.status = some .active) : p.world.Earned t f ↔ p.world.Backs i.adopts t f := by
  have hall := hr.meets_each (K := fun i => activating i.adopts)
    (fun i w => wp.imp (i.yields w) fun _ _ _ => trivial) fun _ _ _ _ _ h => h
  cases hst with
  | run _ => exact (hall _ _ rfl).1 t v f rfl hf

/-- A cluster on which the workload of a release has `n` ready replicas: all succeeds but scaling. -/
def releasing (n : ℤ) : (c : Cmd) → Cluster → cpSig.Resp c × Cluster
  | .reg c, w => ((c.run "now" w.registry).1, { w with registry := (c.run "now" w.registry).2 })
  | .shell (.scale _ _), w => (.exited 1, w)
  | .shell (.helmUpgrade v), w =>
    let release : Objects := fun k => if k = .ingress ∧ ¬v.ingressEnabled then none
      else some { specReplicas := 1, readyReplicas := n, roleArn := v.irsa }
    (.exited 0, { w with objects := fun t => if t = v.tenant then release else w.objects t })
  | .kube (.get t k), w => (.ok ((w.objects t k).elim (.exited 1) .json), w)
  | c, w => (succeeding c, w)

/-- The cluster answers so. -/
theorem releasing_step (n : ℤ) (c : Cmd) (w : Cluster) :
    cluster c w (releasing n c w).1 (releasing n c w).2 := by
  have hdrift (t : TenantId) : (w.objects t).Drifts (w.objects t) := fun _ => rfl
  cases c with
  | reg c => exact ⟨⟨"now", rfl⟩, rfl⟩
  | app c => exact ⟨rfl, hdrift, trivial⟩
  | host c =>
    cases c with
    | tofuOutputs =>
      refine ⟨rfl, hdrift, ?_⟩
      rintro _ ⟨⟩ t arn h
      simp [labOutputs] at h
    | _ => exact ⟨rfl, hdrift, trivial⟩
  | shell c =>
    cases c with
    | helmUpgrade v =>
      refine ⟨rfl, fun t ht => ?_, fun _ t ht => ?_⟩
      · have hne : t ≠ v.tenant := fun h => ht (congrArg some h.symm)
        simpa [releasing, hne] using hdrift t
      · obtain rfl := Option.some.inj ht
        exact {
          there := fun k hk => by simp [releasing, hk]
          ingress := by cases h : v.ingressEnabled <;> simp [releasing, h]
          replicas := by simp [releasing]
          role := by simp [releasing] }
    | scale t m => exact ⟨rfl, fun t _ => hdrift t, fun h => nomatch h⟩
    | _ => exact ⟨rfl, fun t _ => hdrift t, fun _ _ _ => trivial⟩
  | kube c =>
    cases c with
    | get t k =>
      refine ⟨rfl, fun j hj => ?_⟩
      cases h : w.objects t k <;> simp_all [releasing]
    | _ => exact ⟨rfl, hdrift, trivial⟩
  | aws c =>
    refine ⟨rfl, hdrift, ?_⟩
    cases c with
    | getRole name | createRole name =>
      rintro _ ⟨⟩
      simp
    | _ => trivial

/-- A tenant provisioned on an empty cluster, up to the last of its writes. -/
def releasingRun (n : ℤ) : Option (Desk cpSig Exn Activation Cluster) :=
  activations.play (fun _ : Unit => releasing n) (fun _ _ => true) ⟨⟨∅, fun _ _ => none⟩, none⟩
    (.start (.provision .a {}) :: List.replicate 22 (.run ()))

/-- Its last write, of a workload with `n` ready replicas. -/
theorem releasingRun_writes (n : ℤ) : ∃ p f k, releasingRun n = some p ∧
    p.current = some (.provision .a {}, .call (.reg (.upsert .a none f)) k) ∧
    f.status = some .active ∧ (p.world.observed .a).deployReady = decide (1 ≤ (1 : ℤ) ∧ 1 ≤ n) ∧
    (p.world.observed .a).ingress = true ∧ f.observedJson = none ∧ f.endpoint.isSome ∧
    f.ownedBy = some (some "control_plane") :=
  ⟨_, _, _, rfl, rfl, rfl, rfl, rfl, rfl, rfl, rfl⟩

/-- The run of the release, its last write being the next turn. -/
theorem releasing_run (n : ℤ) : ∃ ts p p' f r,
    activations.Run (fun _ _ => True) ⟨∅, fun _ _ => none⟩ ts p ∧
    activations.Step p (.run (.provision .a {}) ⟨.reg (.upsert .a none f), r⟩) p' ∧
    f.status = some .active ∧ (p.world.observed .a).deployReady = decide (1 ≤ (1 : ℤ) ∧ 1 ≤ n) ∧
    (p.world.observed .a).ingress = true ∧ f.observedJson = none ∧ f.endpoint.isSome ∧
    f.ownedBy = some (some "control_plane") := by
  obtain ⟨⟨w, o⟩, f, k, hp, rfl, hf⟩ := releasingRun_writes n
  obtain ⟨ts, hr⟩ := Serial.run_play (G := fun _ _ => True) (fun _ => releasing_step n)
    (fun _ _ _ => trivial) .nil hp
  have hst := releasing_step n (.reg (.upsert .a none f)) w
  exact ⟨ts, _, _, f, _, hr, .run hst, hf⟩

/-- A tenant provisioned whose workload is ready earns ACTIVE. -/
theorem active_earned_iff_ready : ∃ ts p p' f r,
    activations.Run (fun _ _ => True) ⟨∅, fun _ _ => none⟩ ts p ∧
    activations.Step p (.run (.provision .a {}) ⟨.reg (.upsert .a none f), r⟩) p' ∧
    f.status = some .active ∧ p.world.Earned .a f := by
  obtain ⟨ts, p, p', f, r, hr, hst, hf, hready, hingress, hjson, hend, hown⟩ := releasing_run 1
  refine ⟨ts, p, p', f, r, hr, hst, hf, (active_earned_iff hr hst hf).2 ?_⟩
  obtain ⟨e, he⟩ := Option.isSome_iff_exists.1 hend
  simp [Cluster.Backs, hjson, he, hready, hingress, hown, Activation.adopts]

/-- A tenant provisioned whose workload is never ready is written ACTIVE. -/
theorem active_unearned : ¬∀ (w₀ : Cluster) (ts : List (Turn cpSig Activation Unit))
    (p p' : Desk cpSig Exn Activation Cluster) (i : Activation) (t : TenantId) (v : Option ℤ)
    (f : Fields) (r : Except Exn Row), activations.Run (fun _ _ => True) w₀ ts p →
    activations.Step p (.run i ⟨.reg (.upsert t v f), r⟩) p' → f.status = some .active →
    p.world.Earned t f := by
  intro h
  obtain ⟨ts, p, p', f, r, hr, hst, hf, hready, -⟩ := releasing_run 0
  have hactive := (h _ ts p p' _ _ _ f r hr hst hf).active
  simp [Observed.matchesActive, hready] at hactive

end NtierLab
