import NtierLab.ControlPlane.Console

/-!
# Deletion is one-way

A row that is desired GONE stays so until it is removed (`Kept`), in every run in
which no operation that would take the tenant back is started on it (`Takes`).

* `onRow_of_puts` at `Fields.Shields` and at `Fields.Spares`: the writes of a deletion
  keep GONE, and those of the other operations are on rows that are not GONE;
* `gone_stays`: every turn of every run keeps GONE;
* `create_takes_back`: the command line takes back a tenant being deleted.
-/

namespace NtierLab

open Prog

/-- A row desired GONE stays so, or is removed. -/
def Kept (o o' : Option Row) : Prop :=
  ∀ row row', o = some row → row.desiredStatus = .gone → o' = some row' → row'.desiredStatus = .gone

/-- The row is not desired GONE. -/
def Live (o : Option Row) : Prop := ∀ row, o = some row → row.desiredStatus ≠ .gone

/-- The fields leave a row desired GONE as it is. -/
def Fields.Shields (f : Fields) : Prop :=
  (f.desiredStatus = none ∨ f.desiredStatus = Fields.desire .gone) ∧ f.version = none

/-- The fields of a deletion shield a row desired GONE. -/
theorem Fields.Dooms.shields {f : Fields} (hf : f.Dooms) : f.Shields := ⟨hf.1, hf.2.2⟩

/-- They are ones the store accepts. -/
theorem Fields.Shields.valid {f : Fields} (hf : f.Shields) : f.Valid := by
  rcases hf.1 with h | h <;> simp [h, hf.2]

theorem kept_refl (o : Option Row) : Kept o o := fun row row' h hd h' => by
  rw [h] at h'
  exact Option.some.inj h' ▸ hd

theorem kept_none (o : Option Row) : Kept o none := fun _ _ _ _ h => nomatch h

theorem live_none : Live none := fun _ h => nomatch h

/-- There is nothing to keep of a row that is not desired GONE. -/
theorem Live.kept {o o' : Option Row} (h : Live o) : Kept o o' := fun row _ ho hd =>
  absurd hd (h row ho)

section

variable {s : Registry} {t u : TenantId} {now : String} {f : Fields}

/-- A write that shields the desired status keeps it GONE. -/
theorem Fields.Shields.kept (hf : f.Shields) : Kept (s.get t) (some (s.written now t f)) := by
  intro row row' hrow hd hrow'
  obtain rfl := Option.some.inj hrow'
  rcases hf.1 with hf | hf
  · -- The desired status is the one it was.
    rw [Registry.written_update hrow]
    simp [Row.update, Fields.desired, hf, hd]
  · exact Registry.written_desiredStatus hf

/-- The fields name a desired status but GONE. -/
def Fields.NamesLive (f : Fields) : Prop :=
  (∃ d, d ≠ .gone ∧ f.desiredStatus = Fields.desire d) ∧ f.version = none

/-- A write that names another desired status leaves it. -/
theorem Fields.NamesLive.live (hf : f.NamesLive) : Live (some (s.written now t f)) := by
  intro row hrow
  obtain ⟨⟨d, hdg, hd⟩, -⟩ := hf
  obtain rfl := Option.some.inj hrow
  rw [Registry.written_desiredStatus hd]
  exact hdg

/-- A write that spares the desired status leaves one other than GONE. -/
theorem Fields.Spares.live (hf : f.Spares) (h : Live (s.get t)) :
    Live (some (s.written now t f)) := by
  rcases hf with ⟨hd | hd, hst, hv⟩
  · intro row hrow
    obtain rfl := Option.some.inj hrow
    cases hrow : s.get t with
    | some row =>
      rw [Registry.written_update hrow]
      simpa [Row.update, Fields.desired, hd] using h row hrow
    | none =>
      rw [Registry.written_insert hrow]
      simpa [Row.insert, Fields.desired, hd] using Row.inferDesired_ne_gone hst
  · exact Fields.NamesLive.live ⟨hd, hv⟩

variable {α : Type} {p : CP α} {may : Event cpSig → Registry → Prop}

/-- A program that leaves rows desired GONE as they are. -/
theorem kept_of_shields (hp : p.Calls (Puts t Fields.Shields)) :
    p.wp (steps openWorld may (onRow t Kept)) (fun _ _ => True) s :=
  (onRow_of_puts (J := fun _ => True) hp (fun _ => Fields.Shields.valid) kept_refl kept_none trivial
    (fun _ _ _ hf _ => ⟨hf.kept, trivial⟩) trivial)

/-- A program that spares a tenant that is not desired GONE. -/
theorem kept_of_spares (hp : p.Calls (Puts t Fields.Spares)) (hs : Live (s.get t)) :
    p.wp (steps openWorld may (onRow t Kept)) (fun _ _ => True) s :=
  (onRow_of_puts (J := Live) hp (fun _ => Fields.Spares.valid) kept_refl kept_none live_none
    (fun _ _ _ hf h => ⟨h.kept, hf.live h⟩) hs).imp fun _ _ _ => trivial

/-- A program that names no desired status but those of a tenant that is not desired GONE. -/
theorem kept_of_names (hp : p.Calls (Puts t Fields.NamesLive)) (hs : Live (s.get t)) :
    p.wp (steps openWorld may (onRow t Kept)) (fun _ _ => True) s :=
  (onRow_of_puts (J := Live) hp (fun _ ⟨⟨_, _, h⟩, hv⟩ => by simp [h, hv]) kept_refl kept_none live_none
    (fun _ _ _ hf h => ⟨h.kept, hf.live⟩) hs).imp fun _ _ _ => trivial

/-- A program of a deletion keeps GONE. -/
theorem kept_of_dooms (hp : p.Calls (Puts t Fields.Dooms)) :
    p.wp (steps openWorld may (onRow t Kept)) (fun _ _ => True) s :=
  kept_of_shields (hp.imp fun _ => Puts.mono fun _ => Fields.Dooms.shields)

/-- A program of another tenant does not touch the row. -/
theorem kept_of_own (hp : p.Calls (Own u)) (hu : u ≠ t) :
    p.wp (steps openWorld may (onRow t Kept)) (fun _ _ => True) s :=
  (onRow_of_own hp hu kept_refl).imp fun _ _ _ => trivial

/-! ## Each operation -/

/-- The reconciliation of a tenant keeps GONE, its own and the others'. -/
theorem reconcileOne_kept :
    (reconcileOne kubectlObserver actuators u).wp (steps openWorld may (onRow t Kept))
      (fun _ _ => True) s := by
  by_cases hu : u = t
  · subst hu
    refine onRow_get kept_refl ?_
    cases hrow : s.get u with
    | none => trivial
    | some item =>
      have hobserved (F : Fields → Prop)
          (hF : ∀ o : Observed, F { observedJson := some (some o.asJson) })
          (hfollow : ∀ o, (follow kubectlObserver actuators u item o
            (planAction item.desiredStatus o item.status).action).Calls (Puts u F)) :
          Calls (Puts u F) (do
            let observed ← kubectlObserver u
            let decision := planAction item.desiredStatus observed item.status
            let _ ← TenantStore.upsert u { observedJson := some (some observed.asJson) }
            let row ← follow kubectlObserver actuators u item observed decision.action
            return (⟨row, decision.reason⟩ : Reconciled)) :=
        .bind (puts_of_quiet kubectlObserver_quiet) fun o => .bind (upsert_puts (hF o)) fun _ =>
          .bind (hfollow o) fun _ => trivial
      by_cases hd : item.desiredStatus = .gone
      · refine kept_of_shields (hobserved _ (fun _ => ⟨.inl rfl, rfl⟩) fun o => ?_)
        refine (follow_dooms hd o ?_).imp fun _ => Puts.mono fun _ => Fields.Dooms.shields
        rw [hd]
        exact planAction_gone o _
      · refine kept_of_spares (hobserved _ (fun _ => ⟨.inl rfl, nofun, rfl⟩) fun o => ?_) fun row h => ?_
        · exact follow_spares hd o (planAction_ne_delete hd o _)
        · obtain rfl := Option.some.inj (hrow.symm.trans h)
          exact hd
  · exact kept_of_own (reconcileOne_own kubectlObserver_quiet actuators_local) hu

/-- The visits of a sweep keep GONE. -/
theorem reconcileRows_kept (rows : List (TenantId × Row)) (s : Registry) :
    (reconcileRows kubectlObserver actuators rows).wp (steps openWorld may (onRow t Kept))
      (fun _ _ => True) s := by
  induction rows generalizing s with
  | nil => trivial
  | cons p rows ih =>
    obtain ⟨u, item⟩ := p
    refine onRow_bind (Q := fun _ => True) ?_ fun _ s' _ => onRow_bind (ih s') fun _ _ _ => trivial
    refine (wp_tryCatch _ _).2 ((wp_map _ _).2 (reconcileOne_kept.imp fun x s' _ => ?_))
    rcases x with e | a
    · cases e with
      | controlPlane exc =>
        have hf : Fields.Shields
            { status := some (if exc.kind.retryable then item.status else .drift),
              error := some (some exc.message) } := ⟨.inl rfl, rfl⟩
        exact kept_of_shields (.bind (upsert_puts hf) fun _ => trivial)
      | _ => trivial
    · trivial

/-- So does the sweep. -/
theorem reconcileAll_kept :
    (reconcileAll kubectlObserver actuators).wp (steps openWorld may (onRow t Kept))
      (fun _ _ => True) s := by
  have hq : listUnmanagedNamespaces.Calls Quiet := .bind list_quiet fun _ => ⟨trivial, fun _ => trivial⟩
  refine onRow_bind (onRow_of_quiet hq kept_refl) fun _ s₁ _ => ?_
  refine onRow_bind (onRow_of_quiet list_quiet kept_refl) fun rows s₂ _ => ?_
  exact onRow_bind (reconcileRows_kept rows s₂) fun _ _ _ => trivial

/-- Adopting a tenant keeps the desired status it had. -/
theorem adoptTenant_kept (outputs : Outputs) (alb : String) :
    (adoptTenant outputs alb u).wp (steps openWorld may (onRow t Kept)) (fun _ _ => True) s := by
  by_cases hu : u = t
  · subst hu
    refine onRow_bind (onRow_of_quiet (orMissing_calls (describeSecret_quiet _) _) kept_refl) fun secret s₁ _ => ?_
    refine (wp_ite _ _ _).2 ⟨fun _ => trivial, fun _ => ?_⟩
    have hrole : (call (.aws (.getRole (roleName outputs u))) result : CP String).Calls Quiet :=
      ⟨trivial, fun r => calls_result r⟩
    refine onRow_bind (onRow_of_quiet (orMissing_calls hrole _) kept_refl) fun role s₂ _ => ?_
    cases role with
    | none => trivial
    | some arn =>
      refine onRow_bind (onRow_of_quiet (tagIdentity_quiet outputs) kept_refl) fun _ s₃ _ => ?_
      refine onRow_get kept_refl ?_
      -- A row desired GONE is adopted as it is.
      by_cases hgone : ∃ row, s₃.get u = some row ∧ row.desiredStatus = .gone
      · obtain ⟨row, hrow, hd⟩ := hgone
        refine kept_of_shields (.map _ (upsert_puts ⟨.inr ?_, rfl⟩))
        simp [adopted, hrow, hd]
      · refine kept_of_names (.map _ (upsert_puts ⟨⟨_, fun hd => hgone ?_, rfl⟩, rfl⟩)) fun row h hd =>
          hgone ⟨row, h, hd⟩
        cases hrow : s₃.get u with
        | none => rw [hrow] at hd; cases hd
        | some row => rw [hrow] at hd; exact ⟨row, rfl, hd⟩
  · exact kept_of_own (adoptTenant_own outputs alb) hu

/-- So does adopting a list of tenants. -/
theorem adoptEach_kept (outputs : Outputs) (alb : String) (tids : List String) (s : Registry) :
    (adoptEach outputs alb tids).wp (steps openWorld may (onRow t Kept)) (fun _ _ => True) s := by
  induction tids generalizing s with
  | nil => trivial
  | cons tid tids ih =>
    rw [adoptEach]
    split
    · exact ih s
    · exact onRow_bind (Q := fun _ => True) (adoptTenant_kept outputs alb) fun _ s' _ =>
        onRow_bind (ih s') fun _ _ _ => trivial

/-- So does the adoption of all. -/
theorem adoptTenants_kept (tids : List String) :
    (adoptTenants tids).wp (steps openWorld may (onRow t Kept)) (fun _ _ => True) s := by
  refine onRow_bind (onRow_of_quiet tofuOutputs_quiet kept_refl) fun outputs s₁ _ => ?_
  refine onRow_bind (onRow_of_quiet (adoptUrl_quiet outputs) kept_refl) fun alb s₂ _ => ?_
  refine onRow_bind (onRow_of_quiet (adoptIds_quiet outputs tids) kept_refl) fun tids s₃ _ => ?_
  exact (wp_ite _ _ _).2 ⟨fun _ => trivial, fun _ => adoptEach_kept outputs alb tids s₃⟩

/-! ## Runs -/

/-- The operation would take back a tenant with the row: it creates it, whatever its status, or
    its guard accepts the status. -/
def Op.Takes (t : TenantId) (row : Row) : Op → Prop
  | .createTenant body => body.tenantId = .ok t ∧
      row.status ∉ [Status.active, .provisioning, .deleting, .deleteFailed, .suspended]
  | .suspend u | .suspendTenant u => u = t ∧ row.status ∈ [Status.active, .failed, .drift]
  | .resume u | .resumeTenant u => u = t ∧ row.status = .suspended
  | .provision u _ => u = t
  | _ => False

/-- No operation is started that would take back the tenant where its row is desired GONE. -/
def NotTaken (t : TenantId) (s : Registry) :
    Turn cpSig Op (String × List (String × LegacyMeta)) → Prop
  | .start i => i.FromOutside ∧ ∀ row, s.get t = some row → row.desiredStatus = .gone → ¬i.Takes t row
  | _ => True

/-- Suspending a tenant with a status that is refused. -/
theorem suspendTenant_kept (h : ∀ row, s.get t = some row → row.desiredStatus = .gone →
      row.status ∉ [Status.active, .failed, .drift]) :
    (suspendTenant t).wp (steps openWorld may (onRow t Kept)) (fun _ _ => True) s := by
  by_cases hs : Live (s.get t)
  · refine kept_of_spares (suspendTenant_restores.imp fun _ hc => ?_) hs
    exact hc.puts.mono fun _ => Fields.Restores.spares
  · obtain ⟨row, hrow, hd⟩ : ∃ row, s.get t = some row ∧ row.desiredStatus = .gone := by
      simpa [Live] using hs
    refine onRow_get kept_refl ?_
    rw [hrow]
    refine (wp_ite _ _ _).2 ⟨fun _ => trivial, fun _ => (wp_ite _ _ _).2 ⟨fun _ => trivial, fun hst => ?_⟩⟩
    exact absurd (not_not.1 hst) (h row hrow hd)

/-- A resumption keeps GONE, unless the row is SUSPENDED. -/
theorem resumeTenant_kept (h : ∀ row, s.get t = some row → row.desiredStatus = .gone →
      row.status ≠ .suspended) :
    (resumeTenant t).wp (steps openWorld may (onRow t Kept)) (fun _ _ => True) s := by
  by_cases hs : Live (s.get t)
  · refine kept_of_spares (resumeTenant_restores.imp fun _ hc => ?_) hs
    exact hc.puts.mono fun _ => Fields.Restores.spares
  · obtain ⟨row, hrow, hd⟩ : ∃ row, s.get t = some row ∧ row.desiredStatus = .gone := by
      simpa [Live] using hs
    refine onRow_get kept_refl ?_
    rw [hrow]
    refine (wp_ite _ _ _).2 ⟨fun _ => trivial, fun _ => (wp_ite _ _ _).2 ⟨fun _ => trivial, fun hst => ?_⟩⟩
    exact absurd (not_not.1 hst) (h row hrow hd)

/-- A request answered at once, for the row it reads. -/
theorem kept_of_answer {k : Option Row → CP Unit} {row : Row} (hrow : s.get t = some row)
    (hk : (k (some row)).Calls (Puts t Fields.Shields)) :
    (call (.reg (.get t)) k : CP Unit).wp (steps openWorld may (onRow t Kept)) (fun _ _ => True) s := by
  refine onRow_get kept_refl ?_
  rw [hrow]
  exact kept_of_shields hk

/-- An answer keeps everything. -/
theorem answer_shields (code : ℕ) (a : Body) :
    (served (handled (respond code a))).Calls (Puts t Fields.Shields) := ⟨trivial, fun _ => trivial⟩

/-- A creation keeps GONE, unless it takes the tenant back. -/
theorem createTenant_kept {body : CreateBody} {p : CP Unit} (hp : served (createTenant body) = p)
    (h : ∀ row, s.get t = some row → row.desiredStatus = .gone →
      ¬(Op.createTenant body).Takes t row) :
    p.wp (steps openWorld may (onRow t Kept)) (fun _ _ => True) s := by
  subst hp
  cases hbody : body.tenantId with
  | error e =>
    rw [createTenant_error hbody]
    exact kept_of_shields (served_respondError _ _ _ fun _ => trivial)
  | ok u =>
    rw [createTenant_ok hbody]
    by_cases hu : u = t
    · subst hu
      by_cases hs : Live (s.get u)
      · exact kept_of_spares ((served_createChecked body).imp fun _ => Puts.mono fun _ =>
          Fields.Restores.spares) hs
      · obtain ⟨row, hrow, hd⟩ : ∃ row, s.get u = some row ∧ row.desiredStatus = .gone := by
          simpa [Live] using hs
        have hst := not_not.1 (not_and.1 (h row hrow hd) hbody)
        rw [createChecked, served_get]
        refine kept_of_answer hrow ?_
        -- The statuses of a tenant that may not be created are answered.
        dsimp only
        unfold createExisting
        split <;> first | exact answer_shields _ _ | simp_all
    · exact kept_of_own (served_own (createChecked_own body)) hu

/-- So does the request to resume. -/
theorem resume_kept (h : ∀ row, s.get t = some row → row.desiredStatus = .gone →
      ¬(Op.resume u).Takes t row) :
    (served (resume u)).wp (steps openWorld may (onRow t Kept)) (fun _ _ => True) s := by
  by_cases hu : u = t
  · subst hu
    by_cases hs : Live (s.get u)
    · exact kept_of_spares (served_resume.imp fun _ => Puts.mono fun _ => Fields.Restores.spares) hs
    · obtain ⟨row, hrow, hd⟩ : ∃ row, s.get u = some row ∧ row.desiredStatus = .gone := by
        simpa [Live] using hs
      have hst := not_and.1 (h row hrow hd) rfl
      rw [resume, served_get]
      refine kept_of_answer hrow ?_
      dsimp only
      split <;> first | exact answer_shields _ _ | contradiction
  · exact kept_of_own (served_own resume_own) hu

/-- Every operation that does not take the tenant back keeps it GONE. -/
theorem Op.kept {i : Op} (hi : i.FromOutside)
    (h : ∀ row, s.get t = some row → row.desiredStatus = .gone → ¬i.Takes t row) :
    i.whole.wp (steps openWorld may (onRow t Kept)) (fun _ _ => True) s := by
  generalize hp : i.whole = p
  cases i with
  | createTenant body => exact createTenant_kept hp h
  | suspend u =>
    rw [← hp, Op.whole_suspend]
    by_cases hu : u = t
    · subst hu
      have hanswer (code : ℕ) (a : Body) (s' : Registry) :
          (respond code a).wp (steps openWorld may (onRow u Kept)) (fun _ _ => True) s' :=
        kept_of_shields ⟨trivial, fun _ => trivial⟩
      refine onRow_tryCatch (onRow_tryCatch (onRow_bind (suspendTenant_kept fun row hrow hd => ?_)
        fun row s' _ => hanswer _ _ s') fun e s' => ?_) fun e s' => ?_
      · exact not_and.1 (h row hrow hd) rfl
      · cases e <;> first | exact hanswer _ _ s' | trivial
      · cases e <;> first | exact hanswer _ _ s' | trivial
    · exact kept_of_own (@suspend_own u) hu
  | resume u => exact hp ▸ resume_kept h
  | remove u =>
    subst hp
    by_cases hu : u = t
    · exact hu ▸ kept_of_dooms served_remove
    · exact kept_of_own (served_own remove_own) hu
  | job u fn => exact hi.elim
  | provision u args =>
    subst hp
    by_cases hu : u = t
    · subst hu
      refine kept_of_spares ((provision_restores args).imp fun _ hc => hc.puts.mono fun _ =>
        Fields.Restores.spares) fun row hrow hd => h row hrow hd rfl
    · exact kept_of_own (provision_own args) hu
  | suspendTenant u =>
    subst hp
    by_cases hu : u = t
    · subst hu
      exact onRow_bind (suspendTenant_kept fun row hrow hd => not_and.1 (h row hrow hd) rfl)
        fun _ _ _ => trivial
    · exact kept_of_own (.bind suspendTenant_own fun _ => trivial) hu
  | resumeTenant u =>
    subst hp
    by_cases hu : u = t
    · subst hu
      exact onRow_bind (resumeTenant_kept fun row hrow hd => not_and.1 (h row hrow hd) rfl)
        fun _ _ _ => trivial
    · exact kept_of_own (.bind resumeTenant_own fun _ => trivial) hu
  | deleteTenant u =>
    subst hp
    by_cases hu : u = t
    · exact hu ▸ kept_of_dooms (deleteTenant_deletes.imp fun _ => Deletes.puts)
    · exact kept_of_own deleteTenant_own hu
  | reconcileOne u => exact hp ▸ onRow_bind reconcileOne_kept fun _ _ _ => trivial
  | reconcileAll => exact hp ▸ onRow_bind reconcileAll_kept fun _ _ _ => trivial
  | adoptTenants tids => exact hp ▸ onRow_bind (adoptTenants_kept tids) fun _ _ _ => trivial

/-- A row desired GONE stays so until it is removed, in every run in which no operation is started
    that would take the tenant back. -/
theorem gone_stays {ts : List (Turn cpSig Op (String × List (String × LegacyMeta)))}
    {p p' : Desk cpSig Exn Op Registry} {x : Turn cpSig Op (String × List (String × LegacyMeta))}
    (hr : console.Run (NotTaken t) s ts p) (hg : NotTaken t p.world x) (hst : console.Step p x p') :
    Kept (p.world.get t) (p'.world.get t) := by
  have hsteady : console.Steady (NotTaken t) (fun _ => True) (onRow t Kept) p :=
    hr.steady (fun i w _ hi => Op.kept hi.1 hi.2) (fun _ _ _ _ => trivial) (fun _ _ _ _ _ => trivial)
      trivial
  rcases hsteady.turn hg hst with h | h | ⟨y, rfl, h⟩
  · rw [h]
    exact kept_refl _
  · exact h
  · -- Nothing is imported where there is a row.
    intro row row' hrow hd hrow'
    rw [h, Registry.importLegacy_of_get hrow, hrow] at hrow'
    exact Option.some.inj hrow' ▸ hd

end

/-! ## Turns on a schedule -/

/-- A schedule, and one more command: the desired status of `a` before and after it. -/
def desiredAround (ok : Turn cpSig Op (String × List (String × LegacyMeta)) → Bool)
    (xs : List (Serial.Move Op Unit)) : Option (Option Desired × Option Desired) := do
  let p ← playConsole succeeding ok xs
  let q ← console.move (fun _ => openAnswer "now" succeeding) p (.run ())
  some ((p.world.get .a).map (·.desiredStatus), (q.2.world.get .a).map (·.desiredStatus))

theorem desiredAround_run {ok : Turn cpSig Op (String × List (String × LegacyMeta)) → Bool}
    {G : Registry → Turn cpSig Op (String × List (String × LegacyMeta)) → Prop}
    {xs : List (Serial.Move Op Unit)} {d d' : Option Desired}
    (hG : ∀ s x, ok x = true → G s x) (h : desiredAround ok xs = some (d, d')) :
    ∃ ts p i e p', console.Run G ∅ ts p ∧ console.Step p (.run i e) p' ∧
      (p.world.get .a).map (·.desiredStatus) = d ∧ (p'.world.get .a).map (·.desiredStatus) = d' := by
  have hf (x : Unit) := openAnswer_step "now" succeeding
  simp only [desiredAround, playConsole, Option.bind_eq_bind, Option.bind_eq_some_iff] at h
  obtain ⟨p, hp, ⟨x, p'⟩, hx, h⟩ := h
  obtain ⟨ts, hr⟩ := Serial.run_play hf hG .nil hp
  obtain ⟨i, e, rfl⟩ := Serial.move_run hx
  obtain ⟨rfl, rfl⟩ := Prod.mk.inj (Option.some.inj h)
  exact ⟨ts, p, i, e, p', hr, Serial.step_move hf hx, rfl, rfl⟩

/-- Operations from outside, of which none creates a tenant. -/
def deletesOnly : Turn cpSig Op (String × List (String × LegacyMeta)) → Bool
  | .start (.deleteTenant _) => true
  | .start _ => false
  | _ => true

/-- Turns that start no job. -/
def jobless : Turn cpSig Op (String × List (String × LegacyMeta)) → Bool
  | .start (.job _ _) => false
  | _ => true

/-- A job is not started from outside. -/
theorem jobless_start {i : Op} (h : jobless (.start i) = true) : i.FromOutside := by
  cases i with
  | job t fn => cases h
  | _ => trivial

/-- A tenant whose deletion is started again stays GONE. -/
theorem gone_stays_deletion : ∃ row row' : Row, row.desiredStatus = .gone ∧ row'.desiredStatus = .gone ∧
    ∃ ts p x p', console.Run (NotTaken .a) ∅ ts p ∧ console.Step p x p' ∧
      p.world.get .a = some row ∧ p'.world.get .a = some row' := by
  have hplay : desiredAround deletesOnly
      [.start (.deleteTenant .a), .run (), .run (), .start (.deleteTenant .a), .run ()] =
      some (some .gone, some .gone) := rfl
  have hG (s : Registry) (x : Turn cpSig Op (String × List (String × LegacyMeta)))
      (hx : deletesOnly x = true) : NotTaken .a s x := by
    unfold deletesOnly at hx
    split at hx
    · exact ⟨trivial, fun _ _ _ => id⟩
    · cases hx
    · next h => cases x <;> first | trivial | exact absurd rfl (h _)
  obtain ⟨ts, p, i, e, p', hr, hst, hd, hd'⟩ := desiredAround_run hG hplay
  obtain ⟨row, hrow, hgone⟩ := Option.map_eq_some_iff.1 hd
  obtain ⟨row', hrow', -⟩ := Option.map_eq_some_iff.1 hd'
  exact ⟨row, row', hgone, gone_stays hr (hG _ _ rfl) hst row row' hrow hgone hrow', ts, p, _, p', hr, hst,
    hrow, hrow'⟩

/-- The command line creates a tenant that is being deleted. -/
theorem create_takes_back :
    ¬∀ (t : TenantId) (s : Registry) ts p x p',
      console.Run (fun _ x => ∀ i, x = .start i → i.FromOutside) s ts p →
      (∀ i, x = .start i → i.FromOutside) → console.Step p x p' →
      Kept (p.world.get t) (p'.world.get t) := by
  intro h
  have hplay : desiredAround jobless
      [.start (.deleteTenant .a), .run (), .run (), .start (.provision .a {})] =
      some (some .gone, some .active) := rfl
  have hG (s : Registry) (x : Turn cpSig Op (String × List (String × LegacyMeta)))
      (hx : jobless x = true) : ∀ i, x = .start i → i.FromOutside := by
    rintro i rfl
    exact jobless_start hx
  obtain ⟨ts, p, i, e, p', hr, hst, hd, hd'⟩ := desiredAround_run hG hplay
  obtain ⟨row, hrow, hgone⟩ := Option.map_eq_some_iff.1 hd
  obtain ⟨row', hrow', hactive⟩ := Option.map_eq_some_iff.1 hd'
  have hkept := h .a ∅ ts p _ p' hr (fun _ hi => by cases hi) hst row row' hrow hgone hrow'
  cases hkept.symm.trans hactive

end NtierLab
