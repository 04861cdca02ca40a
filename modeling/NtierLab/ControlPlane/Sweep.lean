import NtierLab.ControlPlane.Coherent

/-!
# Sweeps

A sweep (`reconcileAll`) is a sequence of visits, one for each row of its snapshot until
a reconciliation raises an error outside the control plane's hierarchy (`Sweep`,
`exec_sweep`). The registry after it is, at the row of each tenant, as the visit of that
tenant left it (`Sweep.get`).

* `alone_iff`: when a sweep does to each tenant what reconciling it alone does;
* `failure_kept_iff`: when a sweep keeps the status of a failure it found.
-/

namespace NtierLab

open Prog

/-- One tenant of a sweep: its row in the snapshot, how its reconciliation ended, and the
    registry before it, as the reconciliation left it, and after its error was recorded. -/
structure Visit where
  tenant : TenantId
  item : Row
  before : Registry
  outcome : Except Exn Reconciled
  left : Registry
  after : Registry

/-- What a visit adds to the results, unless it stops the sweep. -/
def Visit.reported (v : Visit) : Option Result :=
  match v.outcome with
  | .ok a => some (v.tenant, .inl a)
  | .error (.controlPlane e) => some (v.tenant, .inr e)
  | .error _ => none

variable (observer : TenantId → CP Observed) (acts : Actuators)

/-- The sweeps of rows: from a registry, the trace, the visits, the outcome and the registry
    after it. -/
inductive Sweep : List (TenantId × Row) → Registry → Trace cpSig → List Visit →
    Except Exn (List Result) → Registry → Prop
  | done {s : Registry} : Sweep [] s [] [] (.ok []) s
  | returned {t : TenantId} {item : Row} {rows : List (TenantId × Row)} {s s₁ s' : Registry}
      {tr₁ tr : Trace cpSig} {a : Reconciled} {vs : List Visit} {x : Except Exn (List Result)} :
      Exec openWorld (reconcileOne observer acts t) s tr₁ (.ok a) s₁ →
      Sweep rows s₁ tr vs x s' →
      Sweep ((t, item) :: rows) s (tr₁ ++ tr) (⟨t, item, s, .ok a, s₁, s₁⟩ :: vs)
        (x.map ((t, .inl a) :: ·)) s'
  | recorded {t : TenantId} {item : Row} {rows : List (TenantId × Row)} {s s₁ s₂ s' : Registry}
      {tr₁ tr₂ tr : Trace cpSig} {e : ControlPlaneError} {row : Row} {vs : List Visit}
      {x : Except Exn (List Result)} :
      Exec openWorld (reconcileOne observer acts t) s tr₁ (.error (.controlPlane e)) s₁ →
      Exec openWorld (TenantStore.upsert t (sweepFailed item e)) s₁ tr₂ (.ok row) s₂ →
      Sweep rows s₂ tr vs x s' →
      Sweep ((t, item) :: rows) s (tr₁ ++ tr₂ ++ tr)
        (⟨t, item, s, .error (.controlPlane e), s₁, s₂⟩ :: vs) (x.map ((t, .inr e) :: ·)) s'
  | stopped {t : TenantId} {item : Row} {rows : List (TenantId × Row)} {s s₁ : Registry}
      {tr₁ : Trace cpSig} {exc : Exn} :
      Exec openWorld (reconcileOne observer acts t) s tr₁ (.error exc) s₁ →
      (∀ e, exc ≠ .controlPlane e) →
      Sweep ((t, item) :: rows) s tr₁ [⟨t, item, s, .error exc, s₁, s₁⟩] (.error exc) s₁

variable {observer acts} {rows : List (TenantId × Row)} {s s' : Registry} {tr : Trace cpSig}
  {t u : TenantId} {vs : List Visit} {x : Except Exn (List Result)}

/-! ## Executions as sweeps -/

/-- A record of an error is written. -/
theorem exec_sweepFailed {item : Row} {e : ControlPlaneError} {y : Except Exn Row}
    (hx : Exec openWorld (TenantStore.upsert t (sweepFailed item e)) s tr y s') :
    ∃ now, y = .ok (s.written now t (sweepFailed item e)) ∧
      s' = s.insert t (s.written now t (sweepFailed item e)) :=
  exec_upsert (by simp [sweepFailed]) hx

theorem exec_map_ok {α β : Type} {f : α → β} {p : CP α} {b : β}
    (hx : Exec openWorld (f <$> p) s tr (.ok b) s') :
    ∃ a, b = f a ∧ Exec openWorld p s tr (.ok a) s' := by
  rcases Exec.of_bind hx with ⟨e, he, h⟩ | ⟨a, t₁, t₂, s₁, rfl, h₁, h₂⟩
  · cases he
  · cases h₂
    rw [List.append_nil]
    exact ⟨a, rfl, h₁⟩

theorem exec_map_error {α β : Type} {f : α → β} {p : CP α} {e : Exn}
    (hx : Exec openWorld (f <$> p) s tr (.error e) s') : Exec openWorld p s tr (.error e) s' := by
  rcases Exec.of_bind hx with ⟨e', he, h⟩ | ⟨a, t₁, t₂, s₁, rfl, h₁, h₂⟩
  · cases he
    exact h
  · cases h₂

/-- The executions of a sweep's program are sweeps. -/
theorem exec_sweep (hx : Exec openWorld (reconcileRows observer acts rows) s tr x s') :
    ∃ vs, Sweep observer acts rows s tr vs x s' := by
  induction rows generalizing s tr x with
  | nil =>
    cases hx
    exact ⟨[], .done⟩
  | cons p rows ih =>
    obtain ⟨t, item⟩ := p
    -- What comes after the visit of the first row.
    have hrest {s₁ : Registry} {tr₂ : Trace cpSig} {result : Reconciled ⊕ ControlPlaneError}
        (h : Exec openWorld (do
          let results ← reconcileRows observer acts rows
          return (t, result) :: results) s₁ tr₂ x s') :
        ∃ vs y, x = y.map ((t, result) :: ·) ∧ Sweep observer acts rows s₁ tr₂ vs y s' := by
      rcases Exec.of_bind h with ⟨e, rfl, h₁⟩ | ⟨results, tr₁, tr₂, s₂, rfl, h₁, h₂⟩
      · obtain ⟨vs, hvs⟩ := ih h₁
        exact ⟨vs, _, rfl, hvs⟩
      · cases h₂
        obtain ⟨vs, hvs⟩ := ih h₁
        rw [List.append_nil]
        exact ⟨vs, _, rfl, hvs⟩
    rw [reconcileRows] at hx
    rcases Exec.of_bind hx with ⟨exc, rfl, h₁⟩ | ⟨result, tr₁, tr₂, s₁, rfl, h₁, h₂⟩
    · -- The visit raises: what it raises is not of the hierarchy, or the record would be written.
      rcases Exec.of_rescue h₁ with ⟨a, hxa, -⟩ | ⟨e, tr₁, tr₂, s₁, rfl, h₁, h₂⟩
      · cases hxa
      · have hone := exec_map_error h₁
        cases e with
        | controlPlane e =>
          rcases Exec.of_bind h₂ with ⟨exc', -, h₃⟩ | ⟨row, tr₃, tr₄, s₂, rfl, -, h₄⟩
          · obtain ⟨now, hrow, -⟩ := exec_sweepFailed h₃
            cases hrow
          · cases h₄
        | _ =>
          cases h₂
          rw [List.append_nil]
          exact ⟨_, .stopped hone nofun⟩
    · obtain ⟨vs, y, rfl, hvs⟩ := hrest h₂
      rcases Exec.of_rescue h₁ with ⟨a, hxa, h₁⟩ | ⟨e, tr₁, tr₃, s₃, rfl, h₁, h₂⟩
      · cases hxa
        obtain ⟨r, rfl, hone⟩ := exec_map_ok h₁
        exact ⟨_, .returned hone hvs⟩
      · have hone := exec_map_error h₁
        cases e with
        | controlPlane e =>
          rcases Exec.of_bind h₂ with ⟨exc', hexc, -⟩ | ⟨row, tr₄, tr₅, s₂, rfl, h₃, h₄⟩
          · cases hexc
          · cases h₄
            rw [List.append_nil]
            exact ⟨_, .recorded hone h₃ hvs⟩
        | _ => cases h₂

/-! ## The registry after a sweep -/

/-- A program that does not write the row keeps it. -/
theorem exec_own {α : Type} {p : CP α} {y : Except Exn α} (hp : p.Calls (Own u)) (hu : u ≠ t)
    (hx : Exec openWorld p s tr y s') : s'.get t = s.get t := by
  induction hx with
  | ret => rfl
  | fail => rfl
  | call hr _ ih => rw [ih (hp.2 _), openWorld_own hp.1 hu hr]

variable (hobs : ∀ t, (observer t).Calls Quiet) (hacts : acts.Local)

include hobs hacts

/-- A sweep keeps the row of a tenant that is not in its snapshot. -/
theorem Sweep.get_of_notMem (h : Sweep observer acts rows s tr vs x s')
    (ht : t ∉ rows.map Prod.fst) : s'.get t = s.get t := by
  have hown (u : TenantId) : (reconcileOne observer acts u).Calls (Own u) :=
    reconcileOne_own (hobs u) hacts
  induction h with
  | done => rfl
  | returned h₁ _ ih =>
    obtain ⟨hu, hrows⟩ := not_or.1 (List.mem_cons.not.1 ht)
    rw [ih hrows, exec_own (hown _) (Ne.symm hu) h₁]
  | recorded h₁ h₂ _ ih =>
    obtain ⟨hu, hrows⟩ := not_or.1 (List.mem_cons.not.1 ht)
    rw [ih hrows, exec_own (upsert_own _) (Ne.symm hu) h₂, exec_own (hown _) (Ne.symm hu) h₁]
  | stopped h₁ _ =>
    obtain ⟨hu, hrows⟩ := not_or.1 (List.mem_cons.not.1 ht)
    exact exec_own (hown _) (Ne.symm hu) h₁

/-- The row of a tenant is as it was until the visit of the tenant, and afterwards as that
    visit left it. -/
theorem Sweep.get (h : Sweep observer acts rows s tr vs x s') (hnodup : (rows.map Prod.fst).Nodup)
    {v : Visit} (hv : v ∈ vs) :
    (v.tenant, v.item) ∈ rows ∧ v.before.get v.tenant = s.get v.tenant ∧
      s'.get v.tenant = v.after.get v.tenant := by
  have hown (u : TenantId) : (reconcileOne observer acts u).Calls (Own u) :=
    reconcileOne_own (hobs u) hacts
  have hne {p : TenantId × Row} {rows : List (TenantId × Row)} {t : TenantId}
      (ht : t ∉ rows.map Prod.fst) (hp : p ∈ rows) : t ≠ p.1 := by
    rintro rfl
    exact ht (List.mem_map_of_mem hp)
  induction h with
  | done => cases hv
  | returned h₁ hvs ih =>
    obtain ⟨ht, hnodup⟩ := List.nodup_cons.1 hnodup
    rcases List.mem_cons.1 hv with rfl | hv
    · exact ⟨List.mem_cons_self, rfl, hvs.get_of_notMem hobs hacts ht⟩
    · obtain ⟨hmem, hbefore, hafter⟩ := ih hnodup hv
      exact ⟨List.mem_cons_of_mem _ hmem, by rw [hbefore, exec_own (hown _) (hne ht hmem) h₁], hafter⟩
  | recorded h₁ h₂ hvs ih =>
    obtain ⟨ht, hnodup⟩ := List.nodup_cons.1 hnodup
    rcases List.mem_cons.1 hv with rfl | hv
    · exact ⟨List.mem_cons_self, rfl, hvs.get_of_notMem hobs hacts ht⟩
    · obtain ⟨hmem, hbefore, hafter⟩ := ih hnodup hv
      refine ⟨List.mem_cons_of_mem _ hmem, ?_, hafter⟩
      rw [hbefore, exec_own (upsert_own _) (hne ht hmem) h₂, exec_own (hown _) (hne ht hmem) h₁]
  | stopped h₁ _ =>
    obtain rfl := List.mem_singleton.1 hv
    exact ⟨List.mem_cons_self, rfl, rfl⟩

omit hobs hacts

/-- How a visit ends: its error is recorded, or there is none to record. -/
theorem Sweep.after (h : Sweep observer acts rows s tr vs x s') {v : Visit} (hv : v ∈ vs) :
    (∀ e, v.outcome = .error (.controlPlane e) → ∃ now, v.after =
      v.left.insert v.tenant (v.left.written now v.tenant (sweepFailed v.item e))) ∧
    ((∀ e, v.outcome ≠ .error (.controlPlane e)) → v.after = v.left) := by
  induction h with
  | done => cases hv
  | returned _ _ ih =>
    rcases List.mem_cons.1 hv with rfl | hv
    · exact ⟨nofun, fun _ => rfl⟩
    · exact ih hv
  | recorded _ h₂ _ ih =>
    rcases List.mem_cons.1 hv with rfl | hv
    · refine ⟨fun e he => ?_, fun h => absurd rfl (h _)⟩
      cases he
      obtain ⟨now, -, h⟩ := exec_sweepFailed h₂
      exact ⟨now, h⟩
    · exact ih hv
  | stopped _ hexc =>
    obtain rfl := List.mem_singleton.1 hv
    refine ⟨fun e he => absurd ?_ (hexc e), fun _ => rfl⟩
    exact Except.error.inj he

/-- A sweep that returns has visited each row of its snapshot once, in order, and returns what
    each visit reports; one that raises has been stopped by a visit. -/
theorem Sweep.visits (h : Sweep observer acts rows s tr vs x s') :
    (∃ results, x = .ok results ∧ vs.map Visit.reported = results.map some ∧
      vs.map (fun v => (v.tenant, v.item)) = rows ∧
      results.map Prod.fst = rows.map Prod.fst) ∨
    ∃ exc, x = .error exc ∧ ∃ v ∈ vs, v.outcome = .error exc ∧ v.reported = none := by
  induction h with
  | done => exact .inl ⟨[], rfl, rfl, rfl, rfl⟩
  | returned _ _ ih =>
    rcases ih with ⟨results, rfl, hres, hvs, hids⟩ | ⟨exc, rfl, v, hv, h⟩
    · exact .inl ⟨_, rfl, by simp [hres, Visit.reported], by simp [hvs], by simp [hids]⟩
    · exact .inr ⟨exc, rfl, v, List.mem_cons_of_mem _ hv, h⟩
  | recorded _ _ _ ih =>
    rcases ih with ⟨results, rfl, hres, hvs, hids⟩ | ⟨exc, rfl, v, hv, h⟩
    · exact .inl ⟨_, rfl, by simp [hres, Visit.reported], by simp [hvs], by simp [hids]⟩
    · exact .inr ⟨exc, rfl, v, List.mem_cons_of_mem _ hv, h⟩
  | stopped _ hexc =>
    refine .inr ⟨_, rfl, _, List.mem_singleton_self _, rfl, ?_⟩
    rename_i exc _
    cases exc with
    | controlPlane e => exact absurd rfl (hexc e)
    | _ => rfl

theorem Visit.reported_inr {v : Visit} {e : ControlPlaneError} (h : v.reported = some (t, .inr e)) :
    v.tenant = t ∧ v.outcome = .error (.controlPlane e) := by
  unfold Visit.reported at h
  split at h
  · cases h
  · next e' he =>
    obtain ⟨ht, hr⟩ := Prod.mk.inj (Option.some.inj h)
    exact ⟨ht, Sum.inr.inj hr ▸ he⟩
  · cases h

/-! ## Whole sweeps -/

variable (observer acts)

/-- The sweeps of a registry: its namespaces and its rows are listed, then the rows visited. -/
def SweepAll (s : Registry) (tr : Trace cpSig) (vs : List Visit)
    (x : Except Exn (List Result × List String)) (s' : Registry) : Prop :=
  ∃ unmanaged tr₁ tr₂ y, tr = tr₁ ++ ⟨.reg .list, s.list⟩ :: tr₂ ∧
    Exec openWorld listUnmanagedNamespaces s tr₁ (.ok unmanaged) s ∧
    x = y.map (·, unmanaged) ∧ Sweep observer acts s.list s tr₂ vs y s'

variable {observer acts} {y : Except Exn (List Result × List String)}

/-- The executions of the reconciler of all tenants are sweeps. -/
theorem exec_reconcileAll (hx : Exec openWorld (reconcileAll observer acts) s tr y s') :
    ∃ vs, SweepAll observer acts s tr vs y s' := by
  rw [reconcileAll] at hx
  rcases Exec.of_bind hx with ⟨exc, rfl, h₁⟩ | ⟨unmanaged, tr₁, tr₂, s₁, rfl, h₁, h₂⟩
  · cases h₁ with
    | call _ h => cases h with
      | call _ h => cases h
  · -- Nothing is written by the listings.
    obtain rfl : s₁ = s := by
      cases h₁ with
      | call hr h => cases h with
        | call hr' h =>
          cases h
          rw [openWorld_kube.1 hr', (openWorld_list.1 hr).2]
    cases h₂ with
    | call hr h₂ =>
      obtain ⟨rfl, rfl⟩ := openWorld_list.1 hr
      replace h₂ : Exec openWorld (reconcileRows observer acts _ >>= fun results =>
        pure (results, unmanaged)) _ _ y s' := h₂
      rcases Exec.of_bind h₂ with ⟨exc, rfl, h₃⟩ | ⟨results, tr₃, tr₄, s₂, rfl, h₃, h₄⟩
      · obtain ⟨vs, hvs⟩ := exec_sweep h₃
        exact ⟨vs, unmanaged, tr₁, _, _, rfl, h₁, rfl, hvs⟩
      · cases h₄
        rw [List.append_nil]
        obtain ⟨vs, hvs⟩ := exec_sweep h₃
        exact ⟨vs, unmanaged, tr₁, _, _, rfl, h₁, rfl, hvs⟩

/-- An error among the results is one of a visit. -/
theorem SweepAll.exists_failed {results : List Result} {unmanaged : List String}
    {e : ControlPlaneError} (h : SweepAll observer acts s tr vs (.ok (results, unmanaged)) s')
    (hmem : (t, .inr e) ∈ results) :
    ∃ v ∈ vs, v.tenant = t ∧ v.outcome = .error (.controlPlane e) := by
  obtain ⟨unmanaged', tr₁, tr₂, z, -, -, hz, hvs⟩ := h
  rcases hvs.visits with ⟨results', rfl, hrep, -, -⟩ | ⟨exc, rfl, -⟩
  · obtain rfl : results = results' := congrArg Prod.fst (Except.ok.inj hz)
    have hmem' := List.mem_map_of_mem (f := some) hmem
    rw [← hrep] at hmem'
    obtain ⟨v, hv, hvrep⟩ := List.mem_map.1 hmem'
    exact ⟨v, hv, Visit.reported_inr hvrep⟩
  · cases hz

/-- A sweep that returns has a result of each visit. -/
theorem SweepAll.reported_mem {results : List Result} {unmanaged : List String}
    (h : SweepAll observer acts s tr vs (.ok (results, unmanaged)) s') {v : Visit} (hv : v ∈ vs) :
    ∃ r ∈ results, v.reported = some r := by
  obtain ⟨unmanaged', tr₁, tr₂, z, -, -, hz, hvs⟩ := h
  rcases hvs.visits with ⟨results', rfl, hrep, -, -⟩ | ⟨exc, rfl, -⟩
  · obtain rfl : results = results' := congrArg Prod.fst (Except.ok.inj hz)
    have hmem := List.mem_map_of_mem (f := Visit.reported) hv
    rw [hrep] at hmem
    obtain ⟨r, hr, heq⟩ := List.mem_map.1 hmem
    exact ⟨r, hr, heq.symm⟩
  · cases hz

/-! ## Sweeps on a schedule -/

/-- The sweep of a registry in a world that answers `a`. -/
def swept (a : (c : Cmd) → cpSig.Resp c) (s : Registry) :
    Trace cpSig × Except Exn (List Result × List String) × Registry :=
  (reconcileAll kubectlObserver actuators).eval (openAnswer "now") (fun _ => a) 0 s

theorem swept_exec (a : (c : Cmd) → cpSig.Resp c) (s : Registry) :
    Exec openWorld (reconcileAll kubectlObserver actuators) s (swept a s).1 (swept a s).2.1
      (swept a s).2.2 :=
  exec_eval (openAnswer_step "now") (fun _ => a) _ 0 s

/-- The registry with the tenant `a` of a status. -/
def withStatus (st : Status) : Registry :=
  (Registry.upsert ∅ "now" .a none { status := some st }).2

/-! ## Sweeping and reconciling alone -/

/-- The row without its version and the time of its update. -/
def Row.unstamped (row : Row) : Row := { row with version := 0, updatedAt := "" }

/-- What a sweep records of the visit is what its reconciliation has left: the visit raises
    nothing, or an error of the hierarchy that the row already tells. -/
def Visit.Repeats (v : Visit) : Prop :=
  match v.outcome with
  | .ok _ => True
  | .error (.controlPlane e) => ∃ row, v.left.get v.tenant = some row ∧
      row.status = (if e.kind.retryable then v.item.status else .drift) ∧
      row.error = some e.message
  | .error _ => False

/-- A visit that reports a reconciliation has nothing to record. -/
theorem Visit.repeats_of_reported {v : Visit} {r : Reconciled} (h : v.reported = some (t, .inl r)) :
    v.Repeats := by
  unfold Visit.reported at h
  unfold Visit.Repeats
  split at h
  · trivial
  · exact nomatch (Prod.mk.inj (Option.some.inj h)).2
  · cases h

/-- A record of an error that repeats the row changes its stamps only. -/
theorem unstamped_written {item : Row} {e : ControlPlaneError} {now : String} :
    some (s.written now t (sweepFailed item e)).unstamped = (s.get t).map Row.unstamped ↔
      ∃ row, s.get t = some row ∧
        row.status = (if e.kind.retryable then item.status else .drift) ∧
        row.error = some e.message := by
  cases hrow : s.get t with
  | none => simp
  | some row =>
    rw [Registry.written_update hrow, Option.map_some, Option.some_inj]
    constructor
    · intro h
      exact ⟨row, rfl, (congrArg Row.status h).symm, (congrArg Row.error h).symm⟩
    · rintro ⟨row', hrow', hst, herr⟩
      obtain rfl := Option.some.inj hrow'
      simp only [Row.unstamped, Row.update, sweepFailed, Option.getD_some, Option.getD_none, ← hst,
        ← herr]
      rfl

/-- A sweep calls the reconciliation of each row of its snapshot once, returns a result for
    each row, and leaves each as that reconciliation alone left it (but for the stamps),
    exactly if every visit returns or raises an error of the hierarchy that the row already
    tells. -/
theorem alone_iff (hobs : ∀ t, (observer t).Calls Quiet)
    (hx : Exec openWorld (reconcileAll observer actuators) s tr y s') :
    ∃ vs, SweepAll observer actuators s tr vs y s' ∧
      (∀ v ∈ vs, v.before.get v.tenant = some v.item) ∧
      ((vs.map (fun v => (v.tenant, v.item)) = s.list ∧
        (∃ results unmanaged, y = .ok (results, unmanaged) ∧
          results.map Prod.fst = s.list.map Prod.fst) ∧
        ∀ v ∈ vs, (s'.get v.tenant).map Row.unstamped = (v.left.get v.tenant).map Row.unstamped) ↔
      ∀ v ∈ vs, v.Repeats) := by
  obtain ⟨vs, hall⟩ := exec_reconcileAll hx
  refine ⟨vs, hall, ?_⟩
  obtain ⟨unmanaged, tr₁, tr₂, z, rfl, -, rfl, hvs⟩ := id hall
  have hget {v : Visit} (hv : v ∈ vs) := hvs.get hobs actuators_local Registry.list_nodup hv
  refine ⟨fun v hv => ?_, fun ⟨hids, ⟨results, unmanaged', hy, hres⟩, hrows⟩ v hv => ?_, fun hrep => ?_⟩
  · obtain ⟨hmem, hbefore, -⟩ := hget hv
    rw [hbefore, Registry.mem_list.1 hmem]
  · have hrow := hrows v hv
    rw [(hget hv).2.2] at hrow
    unfold Visit.Repeats
    split
    · trivial
    · next e he =>
      obtain ⟨now, hnow⟩ := (hvs.after hv).1 e he
      rw [hnow, Registry.get_insert_self] at hrow
      exact unstamped_written.1 hrow
    · next exc hexc he =>
      -- The visit would have stopped the sweep.
      rw [hy] at hall
      obtain ⟨r, -, hr⟩ := hall.reported_mem hv
      unfold Visit.reported at hr
      rw [he] at hr
      cases exc with
      | controlPlane e => exact absurd rfl (hexc e)
      | _ => cases hr
  · rcases hvs.visits with ⟨results, rfl, -, hids, hres⟩ | ⟨exc, rfl, v, hv, hexc, hnone⟩
    · refine ⟨hids, ⟨results, unmanaged, rfl, hres⟩, fun v hv => ?_⟩
      rw [(hget hv).2.2]
      have hv' := hrep v hv
      unfold Visit.Repeats at hv'
      split at hv'
      · next a ha => rw [(hvs.after hv).2 fun e he => nomatch ha.symm.trans he]
      · next e he =>
        obtain ⟨now, hnow⟩ := (hvs.after hv).1 e he
        rw [hnow, Registry.get_insert_self]
        exact unstamped_written.2 hv'
      · exact hv'.elim
    · have hv' := hrep v hv
      unfold Visit.reported at hnone
      unfold Visit.Repeats at hv'
      rw [hexc] at hnone hv'
      cases exc with
      | controlPlane e => cases hnone
      | _ => exact hv'.elim

/-- A registry of a drifting tenant, one being deleted and one suspended. -/
def threeRows : Registry :=
  ((withStatus .drift).upsert "now" .b none
    { desiredStatus := Fields.desire .gone, status := some .deleting }).2.upsert "now" .c none
    { desiredStatus := Fields.desire .suspended, status := some .suspended } |>.2

/-- A sweep of three tenants in whose world all commands succeed. -/
theorem alone_iff_three :
    ∃ vs, SweepAll kubectlObserver actuators threeRows (swept succeeding threeRows).1 vs
        (swept succeeding threeRows).2.1 (swept succeeding threeRows).2.2 ∧
      vs.map (fun v => (v.tenant, v.item)) = threeRows.list ∧
      ∀ v ∈ vs, ((swept succeeding threeRows).2.2.get v.tenant).map Row.unstamped =
        (v.left.get v.tenant).map Row.unstamped := by
  obtain ⟨vs, hall, -, hiff⟩ := alone_iff (fun _ => kubectlObserver_quiet)
    (swept_exec succeeding threeRows)
  have hok : ∃ r₁ r₂ r₃ unmanaged, (swept succeeding threeRows).2.1 =
      .ok ([(.a, .inl r₁), (.b, .inl r₂), (.c, .inl r₃)], unmanaged) := ⟨_, _, _, _, rfl⟩
  obtain ⟨r₁, r₂, r₃, unmanaged, hok⟩ := hok
  have hrep (v : Visit) (hv : v ∈ vs) : v.Repeats := by
    rw [hok] at hall
    obtain ⟨r, hr, hrep⟩ := hall.reported_mem hv
    simp only [List.mem_cons, List.not_mem_nil, or_false] at hr
    rcases hr with rfl | rfl | rfl <;> exact Visit.repeats_of_reported hrep
  obtain ⟨hids, -, hrows⟩ := hiff.2 hrep
  exact ⟨vs, hall, hids, hrows⟩

/-- An answer to every command: the job that drops a role fails, the rest succeeds. -/
def undroppable : (c : Cmd) → cpSig.Resp c
  | .kube (.dropJobConditions _ _) => .ok [("Failed", "True")]
  | c => succeeding c

/-- A sweep is stopped by a tenant whose role cannot be dropped. -/
theorem sweep_stopped :
    ¬∀ s tr y s', Exec openWorld (reconcileAll kubectlObserver actuators) s tr y s' →
      ∃ vs, SweepAll kubectlObserver actuators s tr vs y s' ∧
        vs.map (fun v => (v.tenant, v.item)) = s.list ∧
        (∃ results unmanaged, y = .ok (results, unmanaged) ∧
          results.map Prod.fst = s.list.map Prod.fst) ∧
        ∀ v ∈ vs, (s'.get v.tenant).map Row.unstamped = (v.left.get v.tenant).map Row.unstamped := by
  intro h
  obtain ⟨vs, -, -, ⟨results, unmanaged, hok, -⟩, -⟩ :=
    h _ _ _ _ (swept_exec undroppable (withStatus .deleting))
  have herr : ∃ text, (swept undroppable (withStatus .deleting)).2.1 = .error (.onboardError text) :=
    ⟨_, rfl⟩
  obtain ⟨text, herr⟩ := herr
  cases herr.symm.trans hok

/-! ## The failures a sweep keeps -/

/-- The status of the failure found is kept, and its text. -/
def Visit.Kept (v : Visit) (e : ControlPlaneError) (s' : Registry) : Prop :=
  ∃ row, s'.get v.tenant = some row ∧ row.status = failedStatus v.item.desiredStatus e ∧
    row.error = some e.message

theorem failedStatus_mem (d : Desired) (e : ControlPlaneError) :
    failedStatus d e ∈ [Status.deleteFailed, .drift, .failed] := by
  unfold failedStatus
  split_ifs <;> simp

/-- A record of an error has the status of a failure if it is the one recorded. -/
theorem written_failedStatus {item : Row} {e : ControlPlaneError} {now : String} {d : Desired} :
    (s.written now t (sweepFailed item e)).status = failedStatus d e ↔
      (if e.kind.retryable then item.status else .drift) = failedStatus d e := by
  have hmem := failedStatus_mem d e
  generalize failedStatus d e = st at hmem
  cases hrow : s.get t with
  | some row => rw [Registry.written_update hrow]; rfl
  | none =>
    rw [Registry.written_insert hrow]
    simp only [Row.insert, Row.insertStatus, sweepFailed]
    split
    · next h => cases h
    · next h =>
      -- A row is not inserted with an empty status.
      rw [Option.some.inj h]
      exact iff_of_false (fun h => by simp [← h] at hmem) fun h => by simp [← h] at hmem
    · next h => rw [Option.some.inj h]

/-- The record is the status of the failure exactly if the error is retryable and the row of
    the snapshot had that status already. -/
theorem recorded_failedStatus {item : Row} {e : ControlPlaneError} :
    (if e.kind.retryable then item.status else .drift) = failedStatus item.desiredStatus e ↔
      e.kind.retryable ∧
        item.status = if item.desiredStatus = .gone then .deleteFailed else .drift := by
  unfold failedStatus
  by_cases hr : e.kind.retryable <;> by_cases hd : item.desiredStatus = .gone <;> simp [hr, hd]

/-- Of a tenant whose reconciliation raises an error of the hierarchy, a sweep keeps the status
    the reconciliation chose exactly if the error is retryable and the row had that status
    before the sweep. -/
theorem failure_kept_iff (hobs : ∀ t, (observer t).Calls Quiet)
    (hx : Exec openWorld (reconcileAll observer actuators) s tr y s') :
    ∃ vs, SweepAll observer actuators s tr vs y s' ∧
      ∀ v ∈ vs, s.get v.tenant = some v.item ∧ v.before.get v.tenant = some v.item ∧
        ∀ e, v.outcome = .error (.controlPlane e) → (v.Kept e s' ↔ e.kind.retryable ∧
          v.item.status = if v.item.desiredStatus = .gone then .deleteFailed else .drift) := by
  obtain ⟨vs, hall⟩ := exec_reconcileAll hx
  refine ⟨vs, hall, fun v hv => ?_⟩
  obtain ⟨unmanaged, tr₁, tr₂, z, rfl, -, rfl, hvs⟩ := hall
  obtain ⟨hmem, hbefore, hafter⟩ := hvs.get hobs actuators_local Registry.list_nodup hv
  have hitem := Registry.mem_list.1 hmem
  refine ⟨hitem, hbefore.trans hitem, fun e he => ?_⟩
  obtain ⟨now, hnow⟩ := (hvs.after hv).1 e he
  rw [← recorded_failedStatus, ← written_failedStatus (s := v.left) (t := v.tenant), Visit.Kept, hafter, hnow,
    Registry.get_insert_self]
  constructor
  · rintro ⟨row, hrow, hst, -⟩
    rw [← Option.some.inj hrow] at hst
    exact hst
  · intro hst
    exact ⟨_, rfl, hst, by simp [sweepFailed]⟩

/-- An answer to every command: the secrets are throttled and no workload is ready. -/
def throttled : (c : Cmd) → cpSig.Resp c
  | .aws (.describeSecret _) => .error (.clientError "ThrottlingException" "Rate exceeded" "")
  | .kube (.get _ _) => .ok (.json { specReplicas := 1, readyReplicas := 0, roleArn := "arn" })
  | c => succeeding c

/-- The error of a throttled repair. -/
def throttledError : ControlPlaneError :=
  ⟨.awsRetryableError, "ThrottlingException: Rate exceeded"⟩

theorem swept_throttled (st : Status) (h : st = .active ∨ st = .drift) :
    (swept throttled (withStatus st)).2.1 = .ok ([(.a, .inr throttledError)], []) := by
  rcases h with rfl | rfl <;> rfl

/-- A drifting tenant whose repair is throttled keeps drifting, with the error. -/
theorem failure_kept_iff_drift :
    ∃ row, (swept throttled (withStatus .drift)).2.2.get .a = some row ∧ row.status = .drift ∧
      row.error = some throttledError.message := by
  obtain ⟨vs, hall, hkept⟩ := failure_kept_iff (fun _ => kubectlObserver_quiet)
    (swept_exec throttled (withStatus .drift))
  rw [swept_throttled .drift (.inr rfl)] at hall
  obtain ⟨v, hv, ht, he⟩ := hall.exists_failed List.mem_cons_self
  obtain ⟨hitem, -, hiff⟩ := hkept v hv
  have hdrift : ((withStatus .drift).get .a).map (fun row => (row.desiredStatus, row.status)) =
      some (.active, .drift) := rfl
  rw [ht] at hitem
  rw [hitem] at hdrift
  obtain ⟨hd, hst⟩ := Prod.mk.inj (Option.some.inj hdrift)
  have hkeeps := (hiff _ he).2 ⟨rfl, by rw [hd, hst]; rfl⟩
  rw [Visit.Kept, ht, hd] at hkeeps
  exact hkeeps

/-- A sweep sets a tenant whose repair failed back to ACTIVE. -/
theorem sweep_back_to_active :
    ¬∀ s tr y s', Exec openWorld (reconcileAll kubectlObserver actuators) s tr y s' →
      ∃ vs, SweepAll kubectlObserver actuators s tr vs y s' ∧
        ∀ v ∈ vs, ∀ e, v.outcome = .error (.controlPlane e) → v.Kept e s' := by
  intro h
  obtain ⟨vs, hall, hkept⟩ := h _ _ _ _ (swept_exec throttled (withStatus .active))
  rw [swept_throttled .active (.inl rfl)] at hall
  obtain ⟨v, hv, ht, he⟩ := hall.exists_failed List.mem_cons_self
  obtain ⟨row, hrow, hst, -⟩ := hkept v hv _ he
  have hactive : ((swept throttled (withStatus .active)).2.2.get .a).map (·.status) = some .active := by
    rfl
  rw [← ht, hrow] at hactive
  have hrow' : row.status = .active := Option.some.inj hactive
  have hmem := failedStatus_mem v.item.desiredStatus throttledError
  rw [← hst, hrow'] at hmem
  simp at hmem

end NtierLab
