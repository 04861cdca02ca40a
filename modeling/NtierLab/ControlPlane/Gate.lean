import NtierLab.ControlPlane.OpenWorld

/-!
# The gate of the reconciler

`reconcileOne` with any observer and any actuators, which may write anything: what it
returns normally of a tenant desired ACTIVE has passed the contract gate on its last
observation, or drifts with the reason of the gate; of a tenant desired otherwise, it
never writes ACTIVE itself (`reconcileOne_gated`).
-/

namespace NtierLab

open Prog

/-- An observer that answers anything. -/
def anyObserver (t : TenantId) : CP Observed := .call (.kube (.observe t)) result

/-- The observation an event is. -/
def observation (e : Event cpSig) : Option Observed :=
  match e with
  | ⟨.kube (.observe _), .ok o⟩ => some o
  | _ => none

/-- The last observation of a trace. -/
def lastObserved (tr : Trace cpSig) : Option Observed :=
  tr.foldl (fun o e => observation e <|> o) none

/-- The monitor of the last observation. -/
def observing : Monitor cpSig (Option Observed) where
  allow _ _ := True
  next o e := observation e <|> o

/-- A row that the gate let through on an observation, or not. -/
structure Gated (row : Row) (o : Observed) : Prop where
  observed : row.observedJson = some o.asJson
  active : (row.status = .active ∧ row.error = none) ↔
    (o.matchesActive = true ∧ row.identity.Complete)
  drift : ¬(o.matchesActive = true ∧ row.identity.Complete) →
    row.status = .drift ∧ row.error = some (validateActiveContract o row.identity).reason

section

variable {s : Registry} {t : TenantId} {o : Observed} {now : String}

/-- The gate writes a gated row, if its identity is the one gated. -/
theorem recordGated_wp {ob : Option Observed} {item : Identity}
    (hitem : item = ((s.get t).map Row.identity).getD ⟨none, none, none⟩) :
    (recordGated t o item).wp (observing.on openWorld) (fun x v => ∃ row, x = .ok row ∧ v.2 = ob ∧
      v.1.get t = some row ∧ Gated row o) (s, ob) := by
  have hid (now : String) (status : Status) (error : Option String) :
      (s.written now t (observedFields o status error)).identity = item := by
    rw [Registry.written_identity, hitem]
    cases s.get t <;> rfl
  have hstatus (now : String) {status : Status} (error : Option String) (h : status ≠ .other "") :
      (s.written now t (observedFields o status error)).status = status :=
    Registry.written_status rfl h
  have herror (now : String) (status : Status) (error : Option String) :
      (s.written now t (observedFields o status error)).error = error := by
    simp [observedFields]
  have hok := validateActiveContract_ok o item
  simp only [recordGated, recordObserved]
  cases hc : (validateActiveContract o item).ok with
  | true =>
    rw [if_pos rfl, wp_upsert (by simp [observedFields])]
    refine ⟨trivial, fun now => ⟨_, rfl, rfl, Registry.get_insert_self, ?_, ?_, ?_⟩⟩
    · simp [observedFields]
    · rw [hid, hstatus _ _ (by simp), herror, ← hok, hc]; simp
    · rw [hid, ← hok, hc]; simp
  | false =>
    rw [if_neg (by simp), wp_upsert (by simp [observedFields])]
    refine ⟨trivial, fun now => ⟨_, rfl, rfl, Registry.get_insert_self, ?_, ?_, ?_⟩⟩
    · simp [observedFields]
    · rw [hid, hstatus _ _ (by simp), ← hok, hc]; simp
    · rw [hid, hstatus _ _ (by simp), herror]; simp

/-- A reconciliation that returned has gated the row on its last observation. -/
def ReGated (t : TenantId) {α : Type} (x : Except Exn α) (v : Registry × Option Observed) : Prop :=
  ∀ a, x = .ok a → ∃ row o, v.2 = some o ∧ v.1.get t = some row ∧ Gated row o

theorem regate_wp {ob : Option Observed} {item : Option Row} (hitem : s.get t = none → item = none) :
    (regate anyObserver t item).wp (observing.on openWorld) (ReGated t) (s, ob) := by
  rw [regate, wp_bind, wp_get]
  refine ⟨trivial, ?_⟩
  simp only [outcome_ok, anyObserver, wp_bind, wp_call, wp_result]
  refine ⟨trivial, ?_⟩
  rintro (e | o) ⟨s', ob'⟩ ⟨hs, hob⟩
  · rintro a ⟨⟩
  · obtain rfl := hs
    rw [outcome_ok, wp_map]
    refine (recordGated_wp ?_).imp ?_
    · cases h : s'.get t with
      | none => simp [hitem h]
      | some row => simp
    · rintro _ v ⟨row, rfl, hv, hrow, hg⟩
      exact fun a _ => ⟨row, o, hv.trans hob, hrow, hg⟩

/-- An action towards ACTIVE, its actuators being arbitrary, does not find the tenant gone. -/
theorem runPlan_wp (acts : Actuators) (tier : String) {action : Action}
    (ha : action ∈ [Action.provision, .resume, .repair]) (v : Registry × Option Observed) :
    (runPlan acts t .active tier action).wp (observing.on openWorld)
      (fun x _ => ∀ gone, x = .ok gone → gone = false) v := by
  have hfalse {α : Type} (p : CP α) (v : Registry × Option Observed) :
      (do let _ ← p; return false : CP Bool).wp (observing.on openWorld)
        (outcome (fun gone _ => gone = false) fun _ _ => True) v := by
    rw [wp_bind]
    refine wp_of_forall (fun _ _ => trivial) (fun x v => ?_) p
    cases x <;> simp
  have hact : (act acts t tier action).wp (observing.on openWorld)
      (outcome (fun gone _ => gone = false) fun _ _ => True) v := by
    fin_cases ha <;> exact hfalse _ v
  rw [runPlan, exceptControlPlane, wp_tryCatch]
  refine hact.imp ?_
  rintro (e | gone) v h
  · cases e with
    | controlPlane e =>
      obtain ⟨s, ob⟩ := v
      rw [outcome_error, wp_bind, wp_upsert (by simp)]
      exact ⟨trivial, fun _ _ h => nomatch h⟩
    | _ => exact fun _ h => nomatch h
  · rintro _ ⟨⟩
    exact h

/-- An action towards ACTIVE: the tenant is observed again, and gated. -/
theorem carryOut_wp (acts : Actuators) {item : Row} (hd : item.desiredStatus = .active)
    {action : Action} (ha : action ∈ [Action.provision, .resume, .repair])
    (v : Registry × Option Observed) :
    (carryOut anyObserver acts t item action).wp (observing.on openWorld) (ReGated t) v := by
  have hact : action.towardsActive = true := by fin_cases ha <;> rfl
  rw [carryOut, hd]
  refine wp.bind (runPlan_wp acts _ ha v) ?_ fun e _ _ _ h => nomatch h
  rintro gone ⟨s, ob⟩ hgone
  rw [hgone gone rfl, if_neg (by simp), wp_bind, wp_get]
  refine ⟨trivial, ?_⟩
  rw [outcome_ok, if_pos ⟨rfl, hact⟩]
  exact regate_wp fun h => h

/-- A tenant desired ACTIVE is gated on the last observation. -/
theorem reconcileOne_wp (acts : Actuators) {item : Row} (hrow : s.get t = some item)
    (hd : item.desiredStatus = .active) (ob : Option Observed) :
    (reconcileOne anyObserver acts t).wp (observing.on openWorld) (ReGated t) (s, ob) := by
  rw [reconcileOne, wp_bind, wp_get]
  refine ⟨trivial, ?_⟩
  rw [outcome_ok, hrow]
  simp only [anyObserver, wp_bind, wp_call, wp_result]
  refine ⟨trivial, ?_⟩
  rintro (e | o) ⟨s', ob'⟩ ⟨hs, hob⟩
  · rintro a ⟨⟩
  obtain rfl := hs
  rw [outcome_ok, wp_bind, wp_upsert (by simp)]
  refine ⟨trivial, fun now => ?_⟩
  rw [outcome_ok, hd, wp_bind]
  suffices h : (follow anyObserver acts t item o (planAction .active o item.status).action).wp
      (observing.on openWorld) (ReGated t) (s'.insert t (s'.written now t
        { observedJson := some (some o.asJson) }), some o) by
    obtain rfl : ob' = some o := hob
    refine h.imp ?_
    rintro (e | row) v h
    · rintro a ⟨⟩
    · exact fun _ _ => h row rfl
  rcases planAction_active o item.status with hp | hp
  · -- Nothing to do: the row read at first is gated on the observation.
    simp only [hp, follow, settle, hd, reduceCtorEq, if_false, wp_map]
    refine (recordGated_wp ?_).imp ?_
    · rw [Registry.get_insert_self, Option.map_some, Option.getD_some, Registry.written_identity]
      simp [hrow, Row.identity]
    · rintro _ v ⟨row, rfl, hv, hrow, hg⟩
      exact fun _ _ => ⟨row, o, hv, hrow, hg⟩
  · -- An action: the tenant is observed again.
    have := carryOut_wp (t := t) acts hd hp (s'.insert t (s'.written now t
        { observedJson := some (some o.asJson) }), some o)
    generalize (planAction .active o item.status).action = action at hp this ⊢
    fin_cases hp <;> exact this

end

/-! ## Around the actuators -/

/-- The executions of `p`, with commands in `P` before and after one of `q`, if it is run. -/
def Around (P : Cmd → Prop) (q : Trace cpSig → Prop) {α : Type} (p : CP α) : Prop :=
  ∀ s tr x s', Exec openWorld p s tr x s' → ∃ t₁ t₂ t₃, tr = t₁ ++ t₂ ++ t₃ ∧
    (∀ e ∈ t₁ ++ t₃, P e.cmd) ∧ (t₂ = [] ∨ q t₂)

namespace Around

variable {P : Cmd → Prop} {q : Trace cpSig → Prop} {α β : Type} {p : CP α} {f : α → CP β}

theorem of_calls (hp : p.Calls P) : Around P q p := fun _ tr _ _ hx =>
  ⟨tr, [], [], by simp, by simpa using hx.mem_calls hp, .inl rfl⟩

theorem of_exec (hp : ∀ s tr x s', Exec openWorld p s tr x s' → q tr) : Around P q p :=
  fun _ tr _ _ hx => ⟨[], tr, [], by simp, by simp, .inr (hp _ _ _ _ hx)⟩

/-- Commands in `P`, then a program around `q`. -/
theorem before (hp : p.Calls P) (hf : ∀ a, Around P q (f a)) : Around P q (p >>= f) := by
  intro s tr x s' hx
  rcases Exec.of_bind hx with ⟨e, rfl, h₁⟩ | ⟨a, t₁, t₂, s₁, rfl, h₁, h₂⟩
  · exact ⟨tr, [], [], by simp, by simpa using h₁.mem_calls hp, .inl rfl⟩
  · obtain ⟨u₁, u₂, u₃, rfl, hu, hq⟩ := hf a _ _ _ _ h₂
    refine ⟨t₁ ++ u₁, u₂, u₃, by simp, fun e he => ?_, hq⟩
    rw [List.append_assoc, List.mem_append] at he
    exact he.elim (h₁.mem_calls hp e) (hu e)

/-- A program around `q`, then commands in `P`. -/
theorem after (hp : Around P q p) (hf : ∀ a, (f a).Calls P) : Around P q (p >>= f) := by
  intro s tr x s' hx
  rcases Exec.of_bind hx with ⟨e, rfl, h₁⟩ | ⟨a, t₁, t₂, s₁, rfl, h₁, h₂⟩
  · exact hp _ _ _ _ h₁
  · obtain ⟨u₁, u₂, u₃, rfl, hu, hq⟩ := hp _ _ _ _ h₁
    refine ⟨u₁, u₂, u₃ ++ t₂, by simp, fun e he => ?_, hq⟩
    rw [← List.append_assoc, List.mem_append] at he
    exact he.elim (hu e) (h₂.mem_calls (hf a) e)

/-- A program around `q`, its errors handled by commands in `P`. -/
theorem rescue {h : Exn → CP α} (hp : Around P q p) (hh : ∀ e, (h e).Calls P) :
    Around P q (tryCatch p h) := by
  intro s tr x s' hx
  rcases Exec.of_rescue hx with ⟨a, rfl, h₁⟩ | ⟨e, t₁, t₂, s₁, rfl, h₁, h₂⟩
  · exact hp _ _ _ _ h₁
  · obtain ⟨u₁, u₂, u₃, rfl, hu, hq⟩ := hp _ _ _ _ h₁
    refine ⟨u₁, u₂, u₃ ++ t₂, by simp, fun e he => ?_, hq⟩
    rw [← List.append_assoc, List.mem_append] at he
    exact he.elim (hu e) (h₂.mem_calls (hh _) e)

end Around

/-- The command does not write ACTIVE. -/
def NotActive (c : Cmd) : Prop := ∀ t v f, c = .reg (.upsert t v f) → f.status ≠ some .active

/-- The trace of the actuator of a tenant not desired ACTIVE. -/
def Actuated (acts : Actuators) (t : TenantId) (tr : Trace cpSig) : Prop :=
  (∃ s x s', Exec openWorld (acts.suspendFn t) s tr x s') ∨
    ∃ s x s', Exec openWorld (acts.deleteFn t) s tr x s'

section

variable {t : TenantId} {acts : Actuators}

theorem get_notActive : (TenantStore.get t).Calls NotActive :=
  ⟨fun _ _ _ h => (nomatch h), fun _ => trivial⟩

theorem delete_notActive : (TenantStore.delete t).Calls NotActive :=
  ⟨fun _ _ _ h => (nomatch h), fun _ => trivial⟩

theorem upsert_notActive {f : Fields} (hf : f.status ≠ some .active) :
    (TenantStore.upsert t f).Calls NotActive := by
  refine ⟨?_, fun r => calls_result r⟩
  rintro _ _ _ ⟨⟩
  exact hf

/-- The reconciler itself does not write ACTIVE, of a tenant not desired ACTIVE. -/
theorem follow_around {item : Row} (hd : item.desiredStatus ≠ .active) (o : Observed) :
    Around NotActive (Actuated acts t)
      (follow anyObserver acts t item o (planAction item.desiredStatus o item.status).action) := by
  have hp := planAction_ne_active hd o item.status
  generalize (planAction item.desiredStatus o item.status).action = action at hp ⊢
  have hcarry (h : Around NotActive (Actuated acts t)
      (act acts t (if truthy item.tier then item.tier.getD "" else "standard") action)) :
      Around NotActive (Actuated acts t) (carryOut anyObserver acts t item action) := by
    refine Around.after (Around.rescue h fun e => ?_) fun gone => ?_
    · cases e with
      | controlPlane e =>
        refine Calls.bind (upsert_notActive ?_) fun _ => trivial
        unfold failedStatus
        split_ifs <;> simp
      | _ => trivial
    · refine Calls.ite (fun _ => trivial) fun _ => Calls.bind get_notActive fun _ => ?_
      exact Calls.ite (fun h => absurd h.1 hd) fun _ => trivial
  fin_cases hp
  · simp only [follow, settle]
    refine Around.of_calls (Calls.ite (fun _ => ?_) fun hg => Calls.ite (fun _ => ?_) fun hs => ?_)
    · exact delete_notActive.bind fun _ => calls_pure _
    · exact (upsert_notActive (by simp [observedFields])).bind' fun _ => trivial
    · cases h : item.desiredStatus <;> contradiction
  · exact hcarry (Around.after (Around.of_exec fun _ _ _ _ hx => .inl ⟨_, _, _, hx⟩) fun _ =>
      calls_pure _)
  · exact hcarry (Around.after (Around.of_exec fun _ _ _ _ hx => .inr ⟨_, _, _, hx⟩) fun _ =>
      get_notActive.bind fun _ => calls_pure _)
  · exact Around.of_calls (delete_notActive.bind fun _ => calls_pure _)

/-- The gate of the reconciler, with any observer and any actuators. If it returns, the row of a
    tenant desired ACTIVE holds the last observation, and is ACTIVE without an error exactly if
    that observation matches and its identity is complete, or else drifts with the reason of
    the gate; of any other tenant, no command but those of the actuator writes ACTIVE. -/
theorem reconcileOne_gated {s s' : Registry} {tr : Trace cpSig} {x : Except Exn Reconciled}
    {item : Row} (hrow : s.get t = some item)
    (hx : Exec openWorld (reconcileOne anyObserver acts t) s tr x s') :
    (item.desiredStatus = .active → ∀ a, x = .ok a → ∃ row o, lastObserved tr = some o ∧
      s'.get t = some row ∧ Gated row o) ∧
    (item.desiredStatus ≠ .active → ∃ t₁ t₂ t₃, tr = t₁ ++ t₂ ++ t₃ ∧
      (∀ e ∈ t₁ ++ t₃, NotActive e.cmd) ∧ (t₂ = [] ∨ Actuated acts t t₂)) := by
  refine ⟨fun hd => hx.on_outcome (reconcileOne_wp acts hrow hd none), fun hd => ?_⟩
  rw [reconcileOne] at hx
  rcases Exec.of_bind hx with ⟨e, rfl, h₁⟩ | ⟨a, t₁, t₂, s₁, rfl, h₁, h₂⟩
  · cases h₁ with
    | call hr h => cases h
  · -- The row read is the one of the registry, not desired ACTIVE.
    cases h₁ with
    | call hr h =>
      cases h
      obtain ⟨rfl, rfl⟩ := openWorld_get.1 hr
      rw [hrow] at h₂
      have hrest : Around NotActive (Actuated acts t) (do
          let observed ← anyObserver t
          let decision := planAction item.desiredStatus observed item.status
          let _ ← TenantStore.upsert t { observedJson := some (some observed.asJson) }
          let row ← follow anyObserver acts t item observed decision.action
          return ⟨row, decision.reason⟩ : CP Reconciled) :=
        Around.before ⟨fun _ _ _ h => (nomatch h), fun r => calls_result r⟩ fun o =>
          Around.before (upsert_notActive (by simp)) fun _ =>
            Around.after (follow_around hd o) fun _ => calls_pure _
      obtain ⟨u₁, u₂, u₃, rfl, hu, hq⟩ := hrest _ _ _ _ h₂
      refine ⟨_ :: u₁, u₂, u₃, rfl, fun e he => ?_, hq⟩
      rw [List.cons_append, List.mem_cons] at he
      rcases he with rfl | he
      · exact fun _ _ _ h => nomatch h
      · exact hu e he

end

/-- Actuators that do nothing but write ACTIVE. -/
def lying : Actuators where
  provisionFn t _ := do let _ ← TenantStore.upsert t { status := some .active }
  suspendFn t := TenantStore.upsert t { status := some .active }
  resumeFn t := TenantStore.upsert t { status := some .active }
  deleteFn t := do let _ ← TenantStore.upsert t { status := some .active }

/-- A registry with the tenant `a`, desired ACTIVE. -/
def created : Registry :=
  (Registry.upsert ∅ "now" .a none { desiredStatus := Fields.desire .active }).2

/-- A tenant without a namespace, reconciled by lying actuators. -/
def lied : Trace cpSig × Except Exn Reconciled × Registry :=
  (reconcileOne anyObserver lying .a).eval (openAnswer "now") (fun _ => succeeding) 0 created

/-- The tenant drifts. -/
theorem reconcileOne_gated_lying : ∃ row, lied.2.2.get .a = some row ∧ row.status = .drift := by
  have hrow : ∃ item, created.get .a = some item ∧ item.desiredStatus = .active :=
    ⟨_, rfl, rfl⟩
  have hx : ∃ a, lied.2.1 = .ok a := ⟨_, rfl⟩
  have ho : lastObserved lied.1 = some {} := rfl
  obtain ⟨item, hrow, hd⟩ := hrow
  obtain ⟨a, hx⟩ := hx
  obtain ⟨row, o, hlast, hget, hg⟩ := (reconcileOne_gated hrow
    (exec_eval (openAnswer_step "now") (fun _ => succeeding) (reconcileOne anyObserver lying .a)
      0 created)).1 hd a hx
  obtain rfl : o = {} := Option.some.inj (hlast.symm.trans ho)
  exact ⟨row, hget, (hg.drift fun h => nomatch h.1).1⟩

end NtierLab
