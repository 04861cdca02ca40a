import NtierLab.Prog.Crash
import NtierLab.ControlPlane.Active

/-!
# Absence

The observer reads each object with `kubectl get`, and takes for missing an object it
could not read, whatever the reason. A tenant desired GONE whose namespace is missing
is purged from the registry.

* `purge_absent_iff`: the namespace of a tenant purged is absent, exactly if the
  namespace was not there when it could not be read.
-/

namespace NtierLab

open Prog

/-- The outcome of purging a tenant from the registry. -/
def purged : Reconciled := ⟨none, "desired GONE and namespace absent"⟩

/-- The first read of the reconciler, of the namespace, does not find it where it is there: the
    process fails, or prints what does not parse. -/
def Misreads (w : Cluster) (t : TenantId) (tr : Trace cpSig) : Prop :=
  ∃ e g rest, tr = e :: ⟨.kube (.get t .ns), .ok g⟩ :: rest ∧ (∀ j, g ≠ .json j) ∧
    (w.objects t .ns).isSome

section

variable {acts : Actuators} {t : TenantId} {w w' : Cluster} {tr : Trace cpSig} {item : Row}

/-- The first read of an observation: the namespace is read as missing, and nothing else is
    read, or what is observed has a namespace. -/
theorem kubectlObserver_first {y : Except Exn Observed}
    (hx : Exec cluster (kubectlObserver t) w tr y w') :
    ∃ r rest, tr = ⟨.kube (.get t .ns), r⟩ :: rest ∧
      ((∃ g, r = .ok g ∧ (∀ j, g ≠ .json j) ∧ y = .ok {} ∧ w' = w) ∨
        ((∀ g, r = .ok g → ∃ j, g = .json j) ∧ ∀ o, y = .ok o → o.namespace_ = true)) := by
  cases hx with
  | @call _ _ _ w₁ _ r rest _ hr hx =>
  obtain ⟨rfl, -⟩ := hr
  refine ⟨r, rest, rfl, ?_⟩
  rcases r with e | (j | _ | _)
  · cases hx
    exact .inr ⟨nofun, nofun⟩
  · -- The namespace is there, and the other objects are read.
    refine .inr ⟨fun g hg => ⟨j, (Except.ok.inj hg).symm⟩, ?_⟩
    rintro o rfl
    obtain ⟨_, _, _, _, -, -, hx⟩ := Exec.of_bind_ok (p := kubectlJson t .deploy) hx
    obtain ⟨_, _, _, _, -, -, hx⟩ := Exec.of_bind_ok hx
    obtain ⟨_, _, _, _, -, -, hx⟩ := Exec.of_bind_ok hx
    obtain ⟨_, _, _, _, -, -, hx⟩ := Exec.of_bind_ok hx
    obtain ⟨_, _, _, _, -, -, hx⟩ := Exec.of_bind_ok hx
    obtain ⟨_, _, _, _, -, -, hx⟩ := Exec.of_bind_ok hx
    cases hx
    rfl
  all_goals
    cases hx
    exact .inl ⟨_, rfl, nofun, rfl, rfl⟩

/-- What the reconciler does after an observation. -/
def onObserved (acts : Actuators) (t : TenantId) (item : Row) (o : Observed) : CP Reconciled := do
  let decision := planAction item.desiredStatus o item.status
  let _ ← TenantStore.upsert t { observedJson := some (some o.asJson) }
  let row ← follow kubectlObserver acts t item o decision.action
  return ⟨row, decision.reason⟩

/-- After an observation with a namespace, a tenant desired GONE is not purged. -/
theorem onObserved_not_purged {o : Observed} (ho : o.namespace_ = true)
    (hd : item.desiredStatus = .gone) {x : Except Exn Reconciled}
    (hx : Exec cluster (onObserved acts t item o) w tr x w') : x ≠ .ok purged := by
  rcases Exec.of_bind hx with ⟨e, rfl, -⟩ | ⟨_, _, _, _, -, -, hx⟩
  · exact nofun
  rcases Exec.of_bind hx with ⟨e, rfl, -⟩ | ⟨row, _, _, _, -, -, hx⟩
  · exact nofun
  cases hx
  rw [hd]
  simp [planAction, Observed.matchesGone, ho, purged]

/-- After an observation without a namespace, a tenant desired GONE is purged. -/
theorem onObserved_purged (hd : item.desiredStatus = .gone) {x : Except Exn Reconciled}
    (hx : Exec cluster (onObserved acts t item {}) w tr x w') :
    x = .ok purged ∧ w'.objects = w.objects := by
  rcases Exec.of_bind hx with ⟨e, rfl, hu⟩ | ⟨_, t₁, t₂, w₁, rfl, hu, hx⟩
  · cases hu with
    | call hr hu =>
    obtain ⟨⟨now, hrun⟩, -⟩ := hr
    rw [RegCmd.run, Registry.upsert_valid (by simp)] at hrun
    obtain ⟨rfl, -⟩ := Prod.mk.inj hrun
    cases hu
  have ho₁ : w₁.objects = w.objects := by
    cases hu with
    | @call _ _ _ _ _ r _ _ hr hu =>
    cases r with
    | ok row =>
      cases hu
      exact hr.2
    | error e => cases hu
  rw [hd] at hx
  cases hx with
  | call hr hx =>
  cases hx
  exact ⟨rfl, hr.2.trans ho₁⟩

end

/-- The purge of a tenant desired GONE is on an absent namespace, exactly if the read of the
    namespace did not fail while it was there. -/
theorem purge_absent_iff {acts : Actuators} {t : TenantId} {w w' : Cluster} {tr : Trace cpSig}
    {item : Row} {x : Except Exn Reconciled}
    (hx : Exec cluster (reconcileOne kubectlObserver acts t) w tr x w')
    (hrow : w.registry.get t = some item) (hd : item.desiredStatus = .gone) :
    (x = .ok purged → w'.objects t .ns = none) ↔ ¬Misreads w t tr := by
  cases hx with
  | @call _ _ _ w₁ _ r tr _ hr hx =>
  obtain ⟨⟨now, hrun⟩, ho⟩ := hr
  obtain ⟨rfl, hreg⟩ := Prod.mk.inj hrun
  obtain rfl : w = w₁ := by cases w; cases w₁; cases hreg; cases ho; rfl
  simp only [hrow] at hx
  have hrest : Exec cluster ((kubectlObserver t).bind (onObserved acts t item)) w tr x w' := hx
  clear hx
  -- A first read that is no miss is no misreading.
  have hmis {r : Except Exn KubeGet} {rest : Trace cpSig} (hr : ∀ g, r = .ok g → ∃ j, g = .json j) :
      ¬Misreads w t (⟨.reg (.get t), w.registry.get t⟩ :: ⟨.kube (.get t .ns), r⟩ :: rest) := by
    rintro ⟨e, g, rest', heq, hg, -⟩
    cases heq
    obtain ⟨j, rfl⟩ := hr g rfl
    exact hg j rfl
  rcases Exec.of_bind hrest with ⟨e, rfl, hobs⟩ | ⟨o, t₁, t₂, w₂, rfl, hobs, hx⟩
  · obtain ⟨r, rest, rfl, ⟨g, -, -, hy, -⟩ | ⟨hr, -⟩⟩ := kubectlObserver_first hobs
    · cases hy
    · exact iff_of_true nofun (hmis hr)
  obtain ⟨r, rest, rfl, ⟨g, rfl, hg, hy, rfl⟩ | ⟨hr, hy⟩⟩ := kubectlObserver_first hobs
  · -- Read as missing: the tenant is purged, and nothing happens to its namespace.
    cases hy
    obtain ⟨rfl, ho⟩ := onObserved_purged hd hx
    rw [ho]
    constructor
    · rintro h ⟨-, -, -, -, -, hns⟩
      rw [h rfl] at hns
      cases hns
    · intro h _
      by_contra hns
      exact h ⟨_, g, _, rfl, hg, Option.isSome_iff_ne_none.2 hns⟩
  · exact iff_of_true (fun h => absurd h (onObserved_not_purged (hy o rfl) hd hx)) (hmis hr)

/-- A cluster with the namespace of a tenant or not, the tenant being desired GONE. -/
def leaving (present : Bool) : Cluster where
  registry := (Registry.upsert ∅ "now" .a none { desiredStatus := Fields.desire .gone }).2
  objects _ _ := if present then some {} else none

/-- The answers of a cluster every read of which fails. -/
def unreadable (c : Cmd) (w : Cluster) : cpSig.Resp c × Cluster :=
  match c with
  | .kube (.get _ _) => (.ok (.exited 1), w)
  | c => releasing 0 c w

theorem unreadable_step (c : Cmd) (w : Cluster) :
    cluster c w (unreadable c w).1 (unreadable c w).2 := by
  cases c with
  | kube c =>
    cases c with
    | get t k => exact ⟨rfl, nofun⟩
    | _ => exact releasing_step 0 (.kube _) w
  | _ => exact releasing_step 0 _ w

/-- The tenant reconciled. -/
def leave (present : Bool) : Trace cpSig × Except Exn Reconciled × Cluster :=
  (reconcileOne kubectlObserver actuators .a).eval (fun _ : Unit => unreadable) (fun _ => ()) 0
    (leaving present)

theorem leave_exec (present : Bool) : Exec cluster (reconcileOne kubectlObserver actuators .a)
    (leaving present) (leave present).1 (.ok purged) (leave present).2.2 := by
  have hok : (leave present).2.1 = .ok purged := by cases present <;> rfl
  exact hok ▸ exec_eval (fun _ => unreadable_step) (fun _ => ()) _ 0 (leaving present)

/-- A tenant is purged whose namespace is absent, and cannot be read. -/
theorem purge_absent_iff_absent : (leave false).2.2.objects .a .ns = none := by
  have hrow : ∃ item, (leaving false).registry.get .a = some item ∧ item.desiredStatus = .gone :=
    ⟨_, rfl, rfl⟩
  obtain ⟨item, hrow, hd⟩ := hrow
  refine (purge_absent_iff (leave_exec false) hrow hd).2 ?_ rfl
  rintro ⟨-, -, -, -, -, hns⟩
  cases hns

/-- A tenant is purged whose namespace is there, and cannot be read. -/
theorem purged_present : ¬∀ (acts : Actuators) (t : TenantId) (w w' : Cluster) (tr : Trace cpSig)
    (item : Row), Exec cluster (reconcileOne kubectlObserver acts t) w tr (.ok purged) w' →
    w.registry.get t = some item → item.desiredStatus = .gone → w'.objects t .ns = none := by
  intro h
  have hrow : ∃ item, (leaving true).registry.get .a = some item ∧ item.desiredStatus = .gone :=
    ⟨_, rfl, rfl⟩
  obtain ⟨item, hrow, hd⟩ := hrow
  cases h _ _ _ _ _ item (leave_exec true) hrow hd

end NtierLab
