import NtierLab.Prog.Crash
import NtierLab.ControlPlane.Cluster

/-!
# Cutting the product path

Suspending a tenant, and the first stage of deleting it, scale its Deployment to zero
and delete its Ingress. Each of the two processes has an outcome of its own: how it
ends, and whether it takes effect (`KubectlOutcome`); one that succeeds does, one that
fails may (`cutting`).

* `Cluster.Cut`: no replica is asked for, and there is no Ingress;
* `cut_iff`: where the registry says that the path is cut, it is exactly if the Ingress
  was not there or its deletion took effect, and, for a deletion of the tenant, so for
  the replicas; a tenant recorded as SUSPENDED is not looked at.
-/

namespace NtierLab

open Prog

/-- How a process ends, and whether it takes effect. -/
structure KubectlOutcome where
  outcome : ProcOutcome
  effective : Bool
  honest : outcome = .exited 0 → effective = true

namespace Cluster

variable (w : Cluster) (t : TenantId)

/-- The replicas the Deployment asks for, none if there is none. -/
def replicas : ℤ := ((w.objects t .deploy).map (·.specReplicas)).getD 0

/-- The path to the workload of the tenant is cut. -/
structure Cut : Prop where
  replicas : w.replicas t = 0
  ingress : w.objects t .ingress = none

/-- The cluster with an object of the tenant changed. -/
def setObject (k : KubeObject) (j : Option KubeJson) : Cluster :=
  { w with objects := Function.update w.objects t (Function.update (w.objects t) k j) }

/-- The Deployment scaled, if there is one. -/
def scaled (n : ℕ) : Cluster :=
  w.setObject t .deploy ((w.objects t .deploy).map fun j => { j with specReplicas := n })

/-- The cluster without the Ingress of the tenant. -/
def withoutIngress : Cluster := w.setObject t .ingress none

/-- The deletion of the Ingress takes effect, or there is nothing to delete. -/
def IngressCut (o : Shell → KubectlOutcome) : Prop :=
  (o (.deleteIngress t)).effective = true ∨ w.objects t .ingress = none

/-- Scaling to zero takes effect, or there is nothing to scale. -/
def ReplicasCut (o : Shell → KubectlOutcome) : Prop :=
  (o (.scale t 0)).effective = true ∨ w.replicas t = 0

end Cluster

/-- The store is exact; the processes that cut the path end as they do, and take effect or not;
    any other command leaves any cluster. -/
def cutting (o : Shell → KubectlOutcome) : Handler cpSig Cluster
  | .reg c, w, r, w' => (∃ now, c.run now w.registry = (r, w'.registry)) ∧ w'.objects = w.objects
  | .shell (.scale t n), w, r, w' =>
    r = (o (.scale t n)).outcome ∧ w' = if (o (.scale t n)).effective then w.scaled t n else w
  | .shell (.deleteIngress t), w, r, w' =>
    r = (o (.deleteIngress t)).outcome ∧
      w' = if (o (.deleteIngress t)).effective then w.withoutIngress t else w
  | _, w, _, w' => w'.registry = w.registry

section

variable {w w' : Cluster} {t : TenantId} {o : Shell → KubectlOutcome}

@[simp] theorem Cluster.setObject_self (k : KubeObject) (j : Option KubeJson) :
    (w.setObject t k j).objects t k = j := by
  simp [setObject]

theorem Cluster.setObject_ne {k k' : KubeObject} {j : Option KubeJson} (h : k' ≠ k) :
    (w.setObject t k j).objects t k' = w.objects t k' := by
  simp [setObject, h]

@[simp] theorem Cluster.scaled_replicas : (w.scaled t 0).replicas t = 0 := by
  unfold replicas scaled
  cases h : w.objects t .deploy <;> simp

@[simp] theorem Cluster.scaled_ingress {n : ℕ} :
    (w.scaled t n).objects t .ingress = w.objects t .ingress :=
  setObject_ne (by simp)

@[simp] theorem Cluster.withoutIngress_replicas :
    (w.withoutIngress t).replicas t = w.replicas t := by
  rw [replicas, replicas, withoutIngress, setObject_ne (by simp)]

@[simp] theorem Cluster.withoutIngress_ingress : (w.withoutIngress t).objects t .ingress = none :=
  setObject_self ..

/-- Whether a tenant is cut is a matter of its objects. -/
theorem Cluster.cut_congr (h : w'.objects = w.objects) : w'.Cut t ↔ w.Cut t := by
  constructor <;> rintro ⟨hr, hi⟩
  · exact ⟨by rw [replicas, ← h]; exact hr, by rw [← h]; exact hi⟩
  · exact ⟨by rw [replicas, h]; exact hr, by rw [h]; exact hi⟩

/-- The cluster after both processes is cut exactly if each has taken effect, or had nothing
    to do. -/
theorem Cluster.cut_after (b b' : Bool) :
    (if b' then (if b then w.scaled t 0 else w).withoutIngress t
      else if b then w.scaled t 0 else w).Cut t ↔
      (b = true ∨ w.replicas t = 0) ∧ (b' = true ∨ w.objects t .ingress = none) := by
  constructor
  · rintro ⟨hr, hi⟩
    cases b <;> cases b' <;> simp_all
  · rintro ⟨hr, hi⟩
    constructor <;> cases b <;> cases b' <;> simp_all

end

/-! ## The programs -/

/-- The fields say that the path is cut. -/
def Fields.SaysCut (f : Fields) : Prop :=
  f.status = some .suspended ∨ f.deleteStep = some (some "access_disabled")

/-- Where the registry is told that the path is cut, it is exactly if `P`. -/
def telling (o : Shell → KubectlOutcome) (t : TenantId) (P : Prop) : Contract cpSig Cluster where
  pre c w := ∀ v f, c = .reg (.upsert t v f) → f.SaysCut → (w.Cut t ↔ P)
  post := cutting o

section

variable {w : Cluster} {t : TenantId} {o : Shell → KubectlOutcome} {P : Prop}

/-- A reading of the row leaves the cluster. -/
theorem telling_get {α : Type} {k : Option Row → CP α} {Q : Except Exn α → Cluster → Prop}
    (hk : (k (w.registry.get t)).wp (telling o t P) Q w) :
    (TenantStore.get t >>= k).wp (telling o t P) Q w := by
  refine (wp_bind _ _).2 ⟨fun _ _ h => (nomatch h), fun r w' hr => ?_⟩
  obtain ⟨⟨now, hrun⟩, ho⟩ := hr
  obtain ⟨rfl, hw⟩ := Prod.mk.inj hrun
  obtain rfl : w' = w := by cases w; cases w'; cases hw; cases ho; rfl
  exact hk

/-- A write leaves it too, and may say that the tenant is cut only if it is. -/
theorem telling_upsert {f : Fields} (hf : f.Valid) (h : f.SaysCut → (w.Cut t ↔ P)) :
    (TenantStore.upsert t f).wp (telling o t P) (fun _ w' => w'.objects = w.objects) w := by
  refine ⟨?_, fun r w' hr => ?_⟩
  · rintro _ _ ⟨⟩ hs
    exact h hs
  · obtain ⟨⟨now, hrun⟩, ho⟩ := hr
    rw [RegCmd.run, Registry.upsert_valid hf] at hrun
    obtain ⟨rfl, -⟩ := Prod.mk.inj hrun
    exact ho

/-- A process that returns has an outcome, and has exited with zero if it must. -/
theorem telling_runOk (c : Shell) : (runOk c).wp (telling o t P)
    (fun x w' => ∀ b, x = .ok b → ∃ r, cutting o (.shell c) w r w') w := by
  refine ⟨fun _ _ h => (nomatch h), fun r w' hr => ?_⟩
  cases r with
  | exited code => exact fun _ _ => ⟨_, hr⟩
  | _ => exact nofun

/-- A process that returns has had its effect. -/
theorem telling_lifecycleRun (c : Shell) : (lifecycleRun c).wp (telling o t P)
    (fun x w' => ∀ b, x = .ok b → cutting o (.shell c) w (.exited 0) w') w := by
  refine ⟨fun _ _ h => (nomatch h), fun r w' hr => ?_⟩
  cases r with
  | exited code =>
    refine (wp_ite _ _ _).2 ⟨fun h _ _ => h ▸ hr, fun _ => nofun⟩
  | _ => exact nofun

theorem telling_throw {α : Type} {V : α → Cluster → Prop} (e : Exn) :
    (throw e : CP α).wp (telling o t P) (fun x w' => ∀ a, x = .ok a → V a w') w :=
  nofun

/-- The command does not say that the path is cut. -/
def Unsaid (c : Cmd) : Prop := ∀ t v f, c = .reg (.upsert t v f) → ¬f.SaysCut

/-- A program that does not say so need not be right. -/
theorem telling_of_calls {α : Type} {p : CP α} (hp : p.Calls Unsaid) :
    p.wp (telling o t P) (fun _ _ => True) w :=
  hp.wp (I := fun _ => True) (fun _ _ hc _ =>
    ⟨fun v f h hs => absurd hs (hc t v f h), fun _ _ _ => trivial⟩) trivial

theorem Quiet.unsaid {c : Cmd} (h : Quiet c) : Unsaid c := by
  rintro t v f rfl
  exact h.elim

/-- A write without the words does not say so. -/
theorem upsert_unsaid {f : Fields} (hf : ¬f.SaysCut) : (TenantStore.upsert t f).Calls Unsaid := by
  refine ⟨?_, fun r => calls_result r⟩
  rintro _ _ _ ⟨⟩
  exact hf

/-- The stages of a teardown after the first. -/
theorem teardown_unsaid {item : Identity} : (do
      let outputs ← tofuOutputs
      revokePostgresRole outputs t
      recordStep t "db_revoked"
      deleteKubernetes t
      recordStep t "k8s_deleted"
      deleteIdentity outputs t item
      let _ ← TenantStore.delete t : CP Unit).Calls Unsaid := by
  have hquiet {α : Type} {p : CP α} (hp : p.Calls Quiet) : p.Calls Unsaid :=
    hp.imp fun _ => Quiet.unsaid
  have hstep {step : String} (h : step ≠ "access_disabled") : (recordStep t step).Calls Unsaid :=
    .bind (upsert_unsaid (by simp [Fields.SaysCut, h])) fun _ => trivial
  refine .bind (hquiet tofuOutputs_quiet) fun outputs => ?_
  refine .bind (hquiet (revokeAttempts_quiet _ _)) fun _ => .bind (hstep (by decide)) fun _ => ?_
  refine .bind (hquiet deleteKubernetes_quiet) fun _ => .bind (hstep (by decide)) fun _ => ?_
  refine .bind (.ite (fun _ => ?_) fun _ => trivial) fun _ => ?_
  · exact .bind (hquiet (deleteTenantIrsa_quiet _)) fun _ => .bind (hstep (by decide)) fun _ =>
      .bind (hquiet (deleteTenantSecret_quiet _)) fun _ => hstep (by decide)
  · exact .bind ⟨fun _ _ _ h => (nomatch h), fun _ => trivial⟩ fun _ => trivial

/-- Suspending says that the path is cut once its Ingress is, or of a tenant suspended before. -/
theorem suspendTenant_cut : (suspendTenant t).wp
    (telling o t (w.IngressCut t o)) (fun x w' => ∀ row, x = .ok row → (w'.Cut t ↔
      if (w.registry.get t).any fun row => row.status = .suspended then w.Cut t
      else w.IngressCut t o)) w := by
  refine telling_get ?_
  cases hrow : w.registry.get t with
  | none => exact telling_throw _
  | some item =>
    refine (wp_ite _ _ _).2 ⟨fun hs => ?_, fun hs => ?_⟩
    · -- The row says so already: the cluster is not looked at.
      rintro _ _
      simp [hs]
    refine (wp_ite _ _ _).2 ⟨fun _ => telling_throw _, fun _ => ?_⟩
    refine wp.bind (telling_lifecycleRun _) ?_ fun _ _ _ _ h => (nomatch h)
    intro _ w₁ h₁
    obtain ⟨hr, hw₁⟩ := h₁ _ rfl
    refine wp.bind (telling_runOk _) ?_ fun _ _ _ _ h => (nomatch h)
    intro b w₂ h₂
    obtain ⟨r, -, hw₂⟩ := h₂ b rfl
    have hcut : w₂.Cut t ↔ w.IngressCut t o := by
      have hscale := (o (.scale t 0)).honest hr.symm
      rw [hw₂, hw₁, Cluster.cut_after]
      simp [Cluster.IngressCut, hscale]
    refine (telling_upsert (by simp) fun _ => hcut).imp ?_
    intro x w' ho row _
    simpa [hs, Cluster.cut_congr ho] using hcut

/-- Deleting says that the path is cut once the replicas and the Ingress are. -/
theorem deleteTenant_cut : (deleteTenant t).wp
    (telling o t (w.ReplicasCut t o ∧ w.IngressCut t o)) (fun _ _ => True) w := by
  refine telling_get (wp.bind (telling_upsert (by simp) (by simp [Fields.SaysCut])) ?_
    fun _ _ _ => trivial)
  intro _ w₁ hw₁
  refine (wp_tryCatch _ _).2 (wp.imp (Q := fun _ _ => True) ?_ ?_)
  · refine wp.bind (Q := fun x w' => ∀ b, x = .ok b → (w'.Cut t ↔ w.ReplicasCut t o ∧ w.IngressCut t o))
      ?_ (fun _ w₂ h₂ => ?_) fun _ _ _ => trivial
    · refine wp.bind (telling_runOk _) ?_ fun _ _ _ _ h => (nomatch h)
      intro b w₂ h₂
      obtain ⟨r, -, rfl⟩ := h₂ b rfl
      refine wp.bind (telling_runOk _) ?_ fun _ _ _ _ h => (nomatch h)
      intro b' w₃ h₃
      obtain ⟨r', -, rfl⟩ := h₃ b' rfl
      rintro _ _
      rw [Cluster.cut_after, Cluster.ReplicasCut, Cluster.IngressCut, Cluster.replicas,
        Cluster.replicas, hw₁]
    · refine wp.bind (Q := fun _ _ => True) (wp.bind (telling_upsert (by simp) fun _ => h₂ () rfl)
        (fun _ _ _ => trivial) fun _ _ _ => trivial) ?_ fun _ _ _ => trivial
      exact fun _ w₃ _ => telling_of_calls teardown_unsaid
  · rintro (e | _) w' -
    · exact telling_of_calls (.bind (upsert_unsaid (by simp [Fields.SaysCut, deleteFailed])) fun _ => trivial)
    · trivial

end

/-- Where the registry says that the path to a tenant is cut: for one suspended, it is exactly
    if its Ingress was deleted, or not there, or, if the row said so before, if it was cut
    before; for one being deleted, if its replicas and its Ingress were, or there were none. -/
theorem cut_iff (o : Shell → KubectlOutcome) (t : TenantId) (w : Cluster) :
    (∀ v f w', Issues (cutting o) (suspendTenant t) w (.reg (.upsert t v f)) w' → f.SaysCut →
      (w'.Cut t ↔ w.IngressCut t o)) ∧
    (∀ tr row w', Exec (cutting o) (suspendTenant t) w tr (.ok row) w' → (w'.Cut t ↔
      if (w.registry.get t).any fun row => row.status = .suspended then w.Cut t
      else w.IngressCut t o)) ∧
    ∀ v f w', Issues (cutting o) (deleteTenant t) w (.reg (.upsert t v f)) w' → f.SaysCut →
      (w'.Cut t ↔ w.ReplicasCut t o ∧ w.IngressCut t o) :=
  ⟨fun v f _ hi hf => hi.allowed suspendTenant_cut v f rfl hf,
    fun _ row _ hx => hx.meets suspendTenant_cut row rfl,
    fun v f _ hi hf => hi.allowed deleteTenant_cut v f rfl hf⟩

/-- The answers of a cluster on which the processes have the outcomes. -/
def cutAnswer (o : Shell → KubectlOutcome) : (c : Cmd) → Cluster → cpSig.Resp c × Cluster
  | .reg c, w => ((c.run "now" w.registry).1, { w with registry := (c.run "now" w.registry).2 })
  | .shell (.scale t n), w =>
    ((o (.scale t n)).outcome, if (o (.scale t n)).effective then w.scaled t n else w)
  | .shell (.deleteIngress t), w =>
    ((o (.deleteIngress t)).outcome,
      if (o (.deleteIngress t)).effective then w.withoutIngress t else w)
  | c, w => (succeeding c, w)

/-- The cluster answers as kubectl turns out. -/
theorem cutAnswer_step (o : Shell → KubectlOutcome) (c : Cmd) (w : Cluster) :
    cutting o c w (cutAnswer o c w).1 (cutAnswer o c w).2 := by
  cases c with
  | reg c => exact ⟨⟨"now", rfl⟩, rfl⟩
  | shell c => cases c <;> first | exact ⟨rfl, rfl⟩ | rfl
  | _ => rfl

/-- The tenant `a`, ACTIVE, with one replica and an Ingress. -/
def exposed : Cluster where
  registry := (Registry.upsert ∅ "now" .a none { status := some .active }).2
  objects _ _ := some { specReplicas := 1, readyReplicas := 1, roleArn := "arn" }

/-- Every process succeeds, but the deletion of the Ingress if `fails`. -/
def ingressFails (fails : Bool) : Shell → KubectlOutcome
  | .deleteIngress _ => if fails then ⟨.exited 1, false, nofun⟩ else ⟨.exited 0, true, fun _ => rfl⟩
  | _ => ⟨.exited 0, true, fun _ => rfl⟩

/-- The tenant suspended. -/
def suspension (fails : Bool) : Trace cpSig × Except Exn Row × Cluster :=
  (suspendTenant .a).eval (fun _ : Unit => cutAnswer (ingressFails fails)) (fun _ => ()) 0 exposed

/-- The suspension is recorded, whatever becomes of the Ingress. -/
theorem suspension_exec (fails : Bool) : ∃ tr row, row.status = .suspended ∧
    Exec (cutting (ingressFails fails)) (suspendTenant .a) exposed tr (.ok row)
      (suspension fails).2.2 := by
  have hx := exec_eval (fun _ => cutAnswer_step (ingressFails fails)) (fun _ => ()) (suspendTenant .a)
    0 exposed
  have hok : ∃ row, (suspension fails).2.1 = .ok row ∧ row.status = .suspended := by
    cases fails <;> exact ⟨_, rfl, rfl⟩
  obtain ⟨row, hrow, hstatus⟩ := hok
  exact ⟨_, row, hstatus, hrow ▸ hx⟩

/-- A tenant suspended whose Ingress is deleted is cut. -/
theorem cut_iff_deleted : (suspension false).2.2.Cut .a := by
  obtain ⟨tr, row, -, hx⟩ := suspension_exec false
  exact ((cut_iff (ingressFails false) .a exposed).2.1 tr row _ hx).2 (.inl rfl)

/-- A tenant is recorded as SUSPENDED with its Ingress in place. -/
theorem suspended_exposed : ¬∀ (o : Shell → KubectlOutcome) (t : TenantId) (w w' : Cluster)
    (tr : Trace cpSig) (row : Row), Exec (cutting o) (suspendTenant t) w tr (.ok row) w' →
    row.status = .suspended → w'.Cut t := by
  intro h
  obtain ⟨tr, row, hstatus, hx⟩ := suspension_exec true
  have hcut := (h _ _ _ _ tr row hx hstatus).ingress
  cases hcut

end NtierLab
