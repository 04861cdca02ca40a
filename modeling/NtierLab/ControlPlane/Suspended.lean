import NtierLab.Prog.Crash
import NtierLab.ControlPlane.Cutting

/-!
# Suspended tenants reconciled

What the reconciler makes of a tenant desired SUSPENDED whose cluster drifted, where every object
is read as it is and every process succeeds that has something to act on (`settled`).

* `Reconciles`: a reconciliation of the tenant;
* `Cluster.Suspendable`: the cluster matches, or the reconciler can make it: the status of the row
  is one that can be suspended, and there is a Deployment to scale;
* `suspended_iff`: after any number of reconciliations, one at least, the cluster matches exactly
  if it was suspendable at first. A row that says SUSPENDED already is never acted on.
-/

namespace NtierLab

open Prog

/-- What `kubectl get` prints of an object. -/
def KubeGet.of : Option KubeJson → KubeGet
  | some j => .json j
  | none => .exited 1

/-- There is a Deployment to scale. -/
def Cluster.deployed (w : Cluster) (t : TenantId) : Bool :=
  (w.objects t .ns).isSome && (w.objects t .deploy).isSome

/-- The store is exact, every object is read as it is, and the processes that cut the product path
    succeed, but for the scaling of no Deployment; any other command leaves any objects. -/
def settled : Handler cpSig Cluster
  | .reg c, w, r, w' => (∃ now, c.run now w.registry = (r, w'.registry)) ∧ w'.objects = w.objects
  | .kube (.get t k), w, r, w' => r = .ok (KubeGet.of (w.objects t k)) ∧ w' = w
  | .shell (.scale t n), w, r, w' =>
    if w.deployed t then r = .exited 0 ∧ w' = w.scaled t n else r = .exited 1 ∧ w' = w
  | .shell (.deleteIngress t), w, r, w' => r = .exited 0 ∧ w' = w.withoutIngress t
  | _, w, _, w' => w'.registry = w.registry

/-- The tenant is reconciled, whether that raises or not. -/
def Reconciles (t : TenantId) (w w' : Cluster) : Prop :=
  ∃ tr x, Exec settled (reconcileOne kubectlObserver actuators t) w tr x w'

/-- The statuses `suspend_tenant` suspends. -/
def suspendable : List Status := [.active, .failed, .drift]

/-- The row of the tenant desires SUSPENDED, and has a status. -/
def Cluster.Desires (w : Cluster) (t : TenantId) (st : Status) : Prop :=
  ∃ item, w.registry.get t = some item ∧ item.desiredStatus = .suspended ∧ item.status = st

/-- The cluster matches SUSPENDED, or the tenant can be suspended from a status. -/
def Cluster.Suspendable (w : Cluster) (t : TenantId) (st : Status) : Prop :=
  (w.observed t).matchesSuspended = true ∨ st ∈ suspendable ∧ w.deployed t = true

/-- What a reconciliation makes of the cluster and of the status: it matches, or the objects are
    left as they are. -/
inductive Cluster.Settles (t : TenantId) (w : Cluster) (st : Status) (w' : Cluster) : Prop
  | suspended : w.Suspendable t st → (w'.observed t).matchesSuspended = true →
      w'.Desires t .suspended → Settles t w st w'
  | left {st' : Status} : ¬w.Suspendable t st → w'.objects = w.objects → w'.Desires t st' →
      (st' ∈ suspendable ↔ st ∈ suspendable) → Settles t w st w'

/-- The commands of a program on a settled cluster. -/
abbrev settling : Contract cpSig Cluster := ⟨fun _ _ => True, settled⟩

section

variable {w w' : Cluster} {t : TenantId} {st : Status} {α : Type} {item : Row}

/-! ## The cluster -/

theorem observed_congr (h : w'.objects = w.objects) : w'.observed t = w.observed t := by
  simp [Cluster.observed, h]

theorem deployed_congr (h : w'.objects = w.objects) : w'.deployed t = w.deployed t := by
  simp [Cluster.deployed, h]

theorem suspendable_congr (h : w'.objects = w.objects) :
    w'.Suspendable t st ↔ w.Suspendable t st := by
  rw [Cluster.Suspendable, Cluster.Suspendable, observed_congr h, deployed_congr h]

/-- Scaled to zero and without its Ingress, a Deployment that is there is suspended. -/
theorem matchesSuspended_cut (h : w.deployed t = true) :
    (((w.scaled t 0).withoutIngress t).observed t).matchesSuspended = true := by
  obtain ⟨hns, -⟩ := Bool.and_eq_true_iff.1 h
  obtain ⟨ns, hns⟩ := Option.isSome_iff_exists.1 hns
  have hns' : ((w.scaled t 0).withoutIngress t).objects t .ns = some ns := by
    rw [Cluster.withoutIngress, Cluster.setObject_ne (by simp), Cluster.scaled,
      Cluster.setObject_ne (by simp), hns]
  have hreplicas : ((w.scaled t 0).withoutIngress t).replicas t = 0 := by simp
  simp only [Cluster.replicas] at hreplicas
  simp [Cluster.observed, Objects.observed, hns', Observed.matchesSuspended, hreplicas]

/-! ## The commands -/

theorem settling_get {k : Option Row → CP α} {Q : Except Exn α → Cluster → Prop}
    (hk : (k (w.registry.get t)).wp settling Q w) :
    (TenantStore.get t >>= k).wp settling Q w := by
  refine (wp_bind _ _).2 ⟨trivial, fun r w' hr => ?_⟩
  obtain ⟨⟨now, hrun⟩, ho⟩ := hr
  obtain ⟨rfl, hw⟩ := Prod.mk.inj hrun
  obtain rfl : w' = w := by cases w; cases w'; cases hw; cases ho; rfl
  exact hk

/-- A row that desires SUSPENDED, updated. -/
theorem settling_upsert {f : Fields} {Q : Except Exn Row → Cluster → Prop} (hf : f.Valid)
    (hrow : w.Desires t st) (hdesired : f.desired.getD .suspended = .suspended)
    (h : ∀ row w', w'.objects = w.objects → w'.Desires t (f.status.getD st) → Q (.ok row) w') :
    (TenantStore.upsert t f).wp settling Q w := by
  obtain ⟨item, hitem, hd, rfl⟩ := hrow
  refine ⟨trivial, fun r w' hr => ?_⟩
  obtain ⟨⟨now, hrun⟩, ho⟩ := hr
  rw [RegCmd.run, Registry.upsert_valid hf, Registry.written_update hitem] at hrun
  obtain ⟨rfl, hw⟩ := Prod.mk.inj hrun
  refine h _ w' ho ⟨_, by rw [← hw]; exact Registry.get_insert_self, ?_, rfl⟩
  rw [hd]
  exact hdesired

theorem settling_json {k : KubeObject} {Q : Except Exn (Option KubeJson) → Cluster → Prop}
    (h : Q (.ok (w.objects t k)) w) : (kubectlJson t k).wp settling Q w := by
  refine ⟨trivial, fun r w' hr => ?_⟩
  obtain ⟨rfl, rfl⟩ := hr
  cases hk : w'.objects t k with
  | none =>
    rw [hk] at h
    exact h
  | some j =>
    rw [hk] at h
    exact h

/-- The observer sees the objects that are there. -/
theorem settling_observer {Q : Except Exn Observed → Cluster → Prop}
    (h : Q (.ok (w.observed t)) w) : (kubectlObserver t).wp settling Q w := by
  refine (wp_bind _ _).2 (settling_json ?_)
  cases hns : w.objects t .ns with
  | none =>
    have hobs : w.observed t = {} := by simp [Cluster.observed, Objects.observed, hns]
    exact hobs ▸ h
  | some ns =>
    refine (wp_bind _ _).2 (settling_json ((wp_bind _ _).2 (settling_json ((wp_bind _ _).2
      (settling_json ((wp_bind _ _).2 (settling_json ((wp_bind _ _).2 (settling_json
        ((wp_bind _ _).2 (settling_json ?_)))))))))))
    simp only [Cluster.observed, Objects.observed, hns, Option.isNone_some] at h
    exact h

theorem settling_scale {Q : Except Exn Unit → Cluster → Prop}
    (hok : w.deployed t = true → Q (.ok ()) (w.scaled t 0))
    (herror : w.deployed t = false → ∀ exc, Q (.error (.controlPlane exc)) w) :
    (lifecycleRun (.scale t 0)).wp settling Q w := by
  refine ⟨trivial, fun r w' hr => ?_⟩
  change if w.deployed t then _ else _ at hr
  split at hr
  · next hdeployed =>
    obtain ⟨rfl, rfl⟩ := hr
    exact hok hdeployed
  · next hdeployed =>
    obtain ⟨rfl, rfl⟩ := hr
    have hfails := herror (by simpa using hdeployed)
    change (throw (classifyFailure (.scale t 0) 1) : CP Unit).wp settling Q w'
    unfold classifyFailure
    dsimp only
    split
    · exact hfails _
    · exact hfails _

theorem settling_deleteIngress {Q : Except Exn Bool → Cluster → Prop}
    (h : Q (.ok true) (w.withoutIngress t)) :
    (runOk (.deleteIngress t)).wp settling Q w := by
  refine ⟨trivial, fun r w' hr => ?_⟩
  obtain ⟨rfl, rfl⟩ := hr
  exact h

/-! ## Suspending -/

/-- How suspending ends: the tenant is cut and recorded, or nothing was done, with the row if it
    says SUSPENDED and an exception otherwise. -/
inductive Suspension (t : TenantId) (w : Cluster) (st : Status) :
    Except Exn Row → Cluster → Prop
  | cut {row : Row} {w' : Cluster} : st ∈ suspendable → w.deployed t = true →
      w'.objects = ((w.scaled t 0).withoutIngress t).objects → w'.Desires t .suspended →
      Suspension t w st (.ok row) w'
  | already {row : Row} : st = .suspended → Suspension t w st (.ok row) w
  | refused {text : String} : st ∉ suspendable → Suspension t w st (.error (.onboardError text)) w
  | failed {exc : ControlPlaneError} : st ∈ suspendable → w.deployed t = false →
      Suspension t w st (.error (.controlPlane exc)) w

theorem suspendTenant_settled (hrow : w.Desires t st) :
    (suspendTenant t).wp settling (Suspension t w st) w := by
  obtain ⟨item, hitem, hd, rfl⟩ := hrow
  refine settling_get ?_
  rw [hitem]
  refine (wp_ite _ _ _).2 ⟨fun h => .already h, fun hne => ?_⟩
  refine (wp_ite _ _ _).2 ⟨fun h => .refused h, fun hmem => ?_⟩
  have hst : item.status ∈ suspendable := not_not.1 hmem
  refine (wp_bind _ _).2 (settling_scale (fun hdeployed => ?_) fun hdeployed exc =>
    .failed hst hdeployed)
  refine (wp_bind _ _).2 (settling_deleteIngress ?_)
  have hrow : ((w.scaled t 0).withoutIngress t).Desires t item.status := ⟨item, hitem, hd, rfl⟩
  exact settling_upsert (by simp) hrow rfl fun row w' ho h => .cut hst hdeployed ho h

/-! ## Reconciling -/

/-- The status of a failed action on a tenant desired SUSPENDED is one that can be suspended. -/
theorem failedStatus_suspendable (exc : ControlPlaneError) :
    failedStatus .suspended exc ∈ suspendable := by
  unfold failedStatus
  rw [if_neg (by simp)]
  split <;> decide

/-- The workload is up: the tenant is suspended, if it can be. -/
theorem carryOut_settled {w₀ : Cluster} (hw : w.objects = w₀.objects) (hrow : w.Desires t st)
    (hitem : item.desiredStatus = .suspended) (hup : (w₀.observed t).matchesSuspended = false) :
    (carryOut kubectlObserver actuators t item .suspend).wp settling
      (fun _ w' => w₀.Settles t st w') w := by
  have hnot (h : ¬(st ∈ suspendable ∧ w₀.deployed t = true)) : ¬w₀.Suspendable t st := by
    rintro (h' | h')
    · exact absurd (hup.symm.trans h') (by simp)
    · exact h h'
  refine (wp_bind _ _).2 ((wp_tryCatch _ _).2 ((wp_bind _ _).2 ((suspendTenant_settled hrow).imp
    fun x w₁ hx => ?_)))
  cases hx with
  | cut hst hdeployed ho hrow₁ =>
    refine (wp_ite _ _ _).2 ⟨nofun, fun _ => settling_get ?_⟩
    refine (wp_ite _ _ _).2 ⟨fun h => absurd (hitem.symm.trans h.1) (by simp), fun _ => ?_⟩
    refine .suspended (.inr ⟨hst, (deployed_congr hw).symm.trans hdeployed⟩) ?_ hrow₁
    rw [observed_congr ho]
    exact matchesSuspended_cut hdeployed
  | already hst =>
    -- The status says SUSPENDED and the workload is up: nothing is scaled.
    refine (wp_ite _ _ _).2 ⟨nofun, fun _ => settling_get ?_⟩
    refine (wp_ite _ _ _).2 ⟨fun h => absurd (hitem.symm.trans h.1) (by simp), fun _ => ?_⟩
    refine .left (hnot fun h => ?_) hw hrow Iff.rfl
    rw [hst] at h
    exact absurd h.1 (by decide)
  | refused hst => exact .left (hnot fun h => hst h.1) hw hrow Iff.rfl
  | @failed exc hst hdeployed =>
    -- There was no Deployment to scale, which stays so, under a status that can be suspended.
    refine (wp_bind _ _).2 (settling_upsert (by simp [hitem]) hrow (by rw [hitem]; rfl)
      fun row w' ho hrow' => ?_)
    refine .left (hnot fun h => ?_) (ho.trans hw) hrow' (iff_of_true ?_ hst)
    · rw [← deployed_congr hw, hdeployed] at h
      exact absurd h.2 (by simp)
    · simpa [hitem] using failedStatus_suspendable exc

theorem reconcileOne_settled (hrow : w.Desires t st) :
    (reconcileOne kubectlObserver actuators t).wp settling (fun _ w' => w.Settles t st w') w := by
  obtain ⟨item, hitem, hd, hst⟩ := id hrow
  refine settling_get ?_
  rw [hitem]
  refine (wp_bind _ _).2 (settling_observer ((wp_bind _ _).2 (settling_upsert (by simp) hrow rfl
    fun row w₁ ho₁ hrow₁ => (wp_bind _ _).2 ?_)))
  refine wp.imp (Q := fun _ w' => w.Settles t st w') ?_ fun x w' h => by cases x <;> exact h
  cases hup : (w.observed t).matchesSuspended with
  | true =>
    have hplan : (planAction item.desiredStatus (w.observed t) item.status).action = .none := by
      simp [planAction, hd, hup]
    rw [hplan]
    refine (wp_ite _ _ _).2 ⟨fun h => absurd (hd.symm.trans h) (by simp), fun _ => ?_⟩
    refine (wp_ite _ _ _).2 ⟨fun _ => (wp_map _ _).2 ?_, fun h => absurd hd h⟩
    refine settling_upsert (by simp [observedFields]) hrow₁ rfl fun row' w₂ ho₂ hrow₂ => ?_
    -- Only the row is written, and what is observed does not depend on it.
    refine .suspended (.inl hup) ?_ hrow₂
    rw [observed_congr (ho₂.trans ho₁)]
    exact hup
  | false =>
    have hplan : (planAction item.desiredStatus (w.observed t) item.status).action = .suspend := by
      simp [planAction, hd, hup]
    rw [hplan]
    exact carryOut_settled ho₁ hrow₁ hd hup

/-- Whether the tenant can be suspended is not changed by trying. -/
theorem Cluster.Settles.suspendable (h : w.Settles t st w') : ∃ st', w'.Desires t st' ∧
    ((w'.observed t).matchesSuspended = true ↔ w.Suspendable t st) ∧
    (w'.Suspendable t st' ↔ w.Suspendable t st) ∧
    (¬w.Suspendable t st → w'.objects = w.objects) := by
  cases h with
  | suspended hs hmatches hrow =>
    exact ⟨_, hrow, iff_of_true hmatches hs, iff_of_true (.inl hmatches) hs, fun h => absurd hs h⟩
  | @left st' hs ho hrow hst =>
    have hiff : w'.Suspendable t st' ↔ w.Suspendable t st := by
      rw [suspendable_congr ho, Cluster.Suspendable, Cluster.Suspendable, hst]
    refine ⟨st', hrow, iff_of_false (fun hmatches => hs (.inl ?_)) hs, hiff, fun _ => ho⟩
    rwa [observed_congr ho] at hmatches

end

/-! ## Runs -/

section

variable {w w' : Cluster} {t : TenantId} {item : Row}

theorem reconciles_suspendable {st : Status} (hrow : w.Desires t st)
    (h : Relation.TransGen (Reconciles t) w w') : ∃ st', w'.Desires t st' ∧
      ((w'.observed t).matchesSuspended = true ↔ w.Suspendable t st) ∧
      (w'.Suspendable t st' ↔ w.Suspendable t st) ∧
      (¬w.Suspendable t st → w'.objects = w.objects) := by
  -- A round leaves the tenant as suspendable as it found it, so the first one decides.
  induction h with
  | single h =>
    obtain ⟨tr, x, hx⟩ := h
    exact (hx.meets (reconcileOne_settled hrow)).suspendable
  | tail _ h ih =>
    obtain ⟨st₁, hrow₁, -, hst₁, hsame₁⟩ := ih
    obtain ⟨tr, x, hx⟩ := h
    obtain ⟨st₂, hrow₂, hmatches, hst₂, hsame₂⟩ :=
      (hx.meets (reconcileOne_settled hrow₁)).suspendable
    exact ⟨st₂, hrow₂, hmatches.trans hst₁, hst₂.trans hst₁,
      fun hs => (hsame₂ fun h => hs (hst₁.1 h)).trans (hsame₁ hs)⟩

/-- A tenant desired SUSPENDED, reconciled any number of times, one at least: the cluster matches
    exactly if it did at first, or if the status was one that can be suspended and there was a
    Deployment to scale; otherwise no object of the cluster has changed. -/
theorem suspended_iff (hrow : w.registry.get t = some item) (hd : item.desiredStatus = .suspended)
    (h : Relation.TransGen (Reconciles t) w w') :
    ((w'.observed t).matchesSuspended = true ↔ (w.observed t).matchesSuspended = true ∨
      item.status ∈ suspendable ∧ w.deployed t = true) ∧
    (¬((w.observed t).matchesSuspended = true ∨ item.status ∈ suspendable ∧ w.deployed t = true) →
      w'.objects = w.objects) := by
  obtain ⟨-, -, hmatches, -, hsame⟩ := reconciles_suspendable ⟨item, hrow, hd, rfl⟩ h
  exact ⟨hmatches, hsame⟩

end

/-- The cluster answers as it is settled to, every other command succeeding. -/
def settledAnswer : (c : Cmd) → Cluster → cpSig.Resp c × Cluster
  | .reg c, w => ((c.run "now" w.registry).1, { w with registry := (c.run "now" w.registry).2 })
  | .kube (.get t k), w => (.ok (KubeGet.of (w.objects t k)), w)
  | .shell (.scale t n), w =>
    if w.deployed t then (.exited 0, w.scaled t n) else (.exited 1, w)
  | .shell (.deleteIngress t), w => (.exited 0, w.withoutIngress t)
  | c, w => (succeeding c, w)

theorem settledAnswer_step (c : Cmd) (w : Cluster) :
    settled c w (settledAnswer c w).1 (settledAnswer c w).2 := by
  cases c with
  | reg c => exact ⟨⟨"now", rfl⟩, rfl⟩
  | kube q => cases q <;> first | exact ⟨rfl, rfl⟩ | rfl
  | shell c =>
    cases c with
    | scale t n =>
      cases h : w.deployed t <;> simp [settled, settledAnswer, h]
    | deleteIngress t => exact ⟨rfl, rfl⟩
    | _ => rfl
  | _ => rfl

/-- The tenant `a`, recorded as SUSPENDED, with its workload up. -/
def neglected : Cluster :=
  { exposed with registry := (Registry.upsert ∅ "now" .a none { status := some .suspended }).2 }

/-- A cluster after the tenant `a` is reconciled. -/
def afterReconciling (w : Cluster) : Cluster :=
  ((reconcileOne kubectlObserver actuators .a).eval (fun _ : Unit => settledAnswer) (fun _ => ())
    0 w).2.2

theorem reconciles_after (w : Cluster) : Reconciles .a w (afterReconciling w) :=
  ⟨_, _, exec_eval (fun _ => settledAnswer_step) (fun _ => ()) _ 0 w⟩

/-- Reconciled twice, its workload is still up, with every object as it was. -/
theorem suspended_iff_neglected :
    ((afterReconciling (afterReconciling neglected)).observed .a).matchesSuspended = false ∧
      (afterReconciling (afterReconciling neglected)).objects = neglected.objects := by
  have hrow : ∃ item, neglected.registry.get .a = some item ∧ item.desiredStatus = .suspended ∧
      item.status = .suspended := ⟨_, rfl, rfl, rfl⟩
  obtain ⟨item, hitem, hd, hst⟩ := hrow
  obtain ⟨hiff, hsame⟩ := suspended_iff hitem hd
    (.tail (.single (reconciles_after neglected)) (reconciles_after (afterReconciling neglected)))
  rw [hst] at hiff hsame
  exact ⟨Bool.eq_false_iff.2 fun h => absurd (hiff.1 h) (by decide), hsame (by decide)⟩

end NtierLab
