import NtierLab.Prog.Serial
import NtierLab.ControlPlane.Adopt
import NtierLab.ControlPlane.Gate
import NtierLab.ControlPlane.Locality

/-!
# The cluster

The registry and the objects of the namespaces (`Cluster`), as the observer reads them.
A command that succeeds leaves the objects it is for; the readiness of a workload
changes at any time but between the reads of the cluster and the transactions of the
store (`cluster`).

* `Cluster.observed`: what a faithful observer sees;
* `Placed`: the objects of a release, whether its workload is ready or not, stable
  until the workload is touched again (`Placed.step`).
-/

namespace NtierLab

open Prog

/-- The objects of a namespace. -/
abbrev Objects := KubeObject → Option KubeJson

/-- The registry, and the objects of the namespace of each tenant. -/
structure Cluster where
  registry : Registry
  objects : TenantId → Objects

/-- What a faithful observer sees of a namespace. -/
def Objects.observed (o : Objects) : Observed :=
  if (o .ns).isNone then {}
  else
    { namespace_ := true
      deployReady := (o .deploy).any fun j => decide (1 ≤ j.specReplicas ∧ 1 ≤ j.readyReplicas)
      replicas := ((o .deploy).map (·.specReplicas)).getD 0
      ingress := (o .ingress).isSome
      service := (o .service).isSome
      networkPolicy := (o .networkPolicy).isSome
      resourceQuota := (o .resourceQuota).isSome
      irsaSa := (o .serviceAccount).any fun j => j.roleArn ≠ "" }

def Cluster.observed (w : Cluster) (t : TenantId) : Observed := (w.objects t).observed

/-- An object, but for its readiness. -/
def KubeJson.unready (j : KubeJson) : KubeJson := { j with readyReplicas := 0 }

/-- Nothing but the readiness of the workload changes. -/
def Objects.Drifts (o o' : Objects) : Prop :=
  ∀ k, (o' k).map KubeJson.unready = (o k).map KubeJson.unready

/-- The objects of a release: one replica, the role annotated, and the Ingress if it is enabled. -/
structure Released (v : HelmValues) (o : Objects) : Prop where
  there : ∀ k, k ≠ .ingress → (o k).isSome
  ingress : (o .ingress).isSome = v.ingressEnabled
  replicas : (o .deploy).map (·.specReplicas) = some 1
  role : (o .serviceAccount).map (·.roleArn) = some v.irsa

/-- The objects a process that succeeds leaves. -/
def Shell.Leaves : Shell → Objects → Objects → Prop
  | helmUpgrade v, _, o' => Released v o'
  | scale _ n, o, o' => (o' .deploy).map (·.specReplicas) = some (n : ℤ) ∧
      ∀ k, k ≠ .deploy → (o' k).map KubeJson.unready = (o k).map KubeJson.unready
  | _, _, _ => True

/-- The roles a map names have names. -/
def RolesNamed (m : TidMap String) : Prop :=
  ∀ (t : TenantId) (arn : String), m[t]? = some arn → arn ≠ ""

/-- The roles AWS and OpenTofu answer have names. -/
def Informs : (c : Cmd) → cpSig.Resp c → Prop
  | .host .tofuOutputs, r => ∀ o, r = .ok o → RolesNamed o.tenantIrsaRoleArns
  | .aws (.getRole _), r | .aws (.createRole _ _), r => ∀ arn, r = .ok arn → arn ≠ ""
  | _, _ => True

/-- The store is exact, an object read is there, a process changes the objects of its tenant, and
    leaves what it is for if it succeeds. -/
def cluster : Handler cpSig Cluster
  | .reg c, w, r, w' => (∃ now, c.run now w.registry = (r, w'.registry)) ∧ w'.objects = w.objects
  | .kube (.get t k), w, r, w' => w' = w ∧ ∀ j, r = .ok (.json j) → w.objects t k = some j
  | .shell c, w, r, w' => w'.registry = w.registry ∧
      (∀ t, c.touches ≠ some t → (w.objects t).Drifts (w'.objects t)) ∧
      (r = .exited 0 → ∀ t, c.touches = some t → c.Leaves (w.objects t) (w'.objects t))
  | c, w, r, w' => w'.registry = w.registry ∧ (∀ t, (w.objects t).Drifts (w'.objects t)) ∧ Informs c r

/-! ## What a release leaves -/

/-- The objects of a release are there, but for its Ingress, with a role annotated. -/
structure Placed (o : Objects) : Prop where
  there : ∀ k, k ≠ .ingress → (o k).isSome
  replicas : (o .deploy).map (·.specReplicas) = some 1
  role : ∃ j, o .serviceAccount = some j ∧ j.roleArn ≠ ""

section

variable {o o' : Objects} {w w' : Cluster} {c : Cmd} {r : cpSig.Resp c} {t : TenantId}

theorem Objects.Drifts.isSome (h : o.Drifts o') (k : KubeObject) : (o' k).isSome = (o k).isSome := by
  have := congrArg Option.isSome (h k)
  simpa using this

theorem map_of_unready {α : Type} {f : KubeJson → α} (hf : ∀ j, f j.unready = f j)
    {a b : Option KubeJson} (h : a.map KubeJson.unready = b.map KubeJson.unready) :
    a.map f = b.map f := by
  have := congrArg (Option.map f) h
  simpa [Function.comp_def, hf] using this

theorem Objects.Drifts.placed (h : o.Drifts o') (hp : Placed o) : Placed o' where
  there k hk := (h.isSome k).trans (hp.there k hk)
  replicas := (map_of_unready (fun _ => rfl) (h .deploy)).trans hp.replicas
  role := by
    obtain ⟨j, hj, hne⟩ := hp.role
    have hrole := map_of_unready (f := (·.roleArn)) (fun _ => rfl) (h .serviceAccount)
    rw [hj, Option.map_some, Option.map_eq_some_iff] at hrole
    obtain ⟨j', hj', heq⟩ := hrole
    exact ⟨j', hj', heq ▸ hne⟩

/-- A release with a role. -/
theorem Released.placed {v : HelmValues} (h : Released v o) (hv : v.irsa ≠ "") : Placed o where
  there := h.there
  replicas := h.replicas
  role := by
    obtain ⟨j, hj, heq⟩ := Option.map_eq_some_iff.1 h.role
    exact ⟨j, hj, heq ▸ hv⟩

/-- A placed release is active once its workload is ready and its Ingress is there. -/
theorem Placed.matchesActive_iff (h : Placed o) :
    o.observed.matchesActive = true ↔ o.observed.deployReady = true ∧ o.observed.ingress = true := by
  obtain ⟨j, hj, hrole⟩ := h.role
  have hns : (o .ns).isNone = false := by simpa using h.there .ns nofun
  have hspec := h.replicas
  have hservice := h.there .service nofun
  have hpolicy := h.there .networkPolicy nofun
  have hquota := h.there .resourceQuota nofun
  simp [Objects.observed, Observed.matchesActive, hns, hspec, hservice, hpolicy, hquota, hj, hrole]

/-- A command that does not touch the workload keeps the release placed. -/
theorem Placed.step (hr : cluster c w r w') (hc : ∀ s, c = .shell s → s.touches ≠ some t)
    (h : Placed (w.objects t)) : Placed (w'.objects t) := by
  cases c with
  | reg c => exact hr.2 ▸ h
  | shell s => exact (hr.2.1 t (hc s rfl)).placed h
  | kube q =>
    cases q with
    | get u k => exact hr.1 ▸ h
    | _ => exact (hr.2.1 t).placed h
  | app c => exact (hr.2.1 t).placed h
  | host c => exact (hr.2.1 t).placed h
  | aws c => exact (hr.2.1 t).placed h

end

end NtierLab
