import NtierLab.ControlPlane.OneWay

/-!
# Status and intent

A row is desired GONE exactly when its status is one of a tenant being deleted
(`Row.Coherent`), in every run in which no sweep records a permanent error on a row
desired GONE (`NotSwept`).

* `Live`, `Dead`: on either side, the writes that name a status only keep the row
  coherent;
* `coherent_run`: every registry reached is coherent;
* `sweep_incoherent`: a sweep leaves a tenant being deleted as a drifting one.
-/

namespace NtierLab

open Prog

/-- The desired status is GONE exactly when the status is one of a tenant being deleted. -/
def Row.Coherent (row : Row) : Prop := row.desiredStatus = .gone ↔ row.status.Doomed

/-- There is no row, or a coherent one. -/
def CoherentAt (o : Option Row) : Prop := ∀ row, o = some row → row.Coherent

/-- There is no row, or one desired GONE. -/
def Dead (o : Option Row) : Prop := ∀ row, o = some row → row.desiredStatus = .gone

/-- A coherent row stays coherent. -/
def StaysCoherent (o o' : Option Row) : Prop := CoherentAt o → CoherentAt o'

/-- A missing row is coherent. -/
theorem coherentAt_none : CoherentAt none := fun _ h => nomatch h

/-- A missing row is dead. -/
theorem dead_none : Dead none := fun _ h => nomatch h

theorem staysCoherent_refl (o : Option Row) : StaysCoherent o o := id

/-- A removal leaves nothing incoherent. -/
theorem staysCoherent_none (o : Option Row) : StaysCoherent o none := fun _ => coherentAt_none

section

variable {s : Registry} {t u : TenantId} {now : String} {f : Fields}

/-! ## Writes -/

/-- The status written, if one is named. -/
theorem written_doomed {st : Status} (h : f.status = some st) :
    (s.written now t f).status.Doomed ↔ st.Doomed := by
  cases hrow : s.get t with
  | some row =>
    rw [Registry.written_update hrow]
    simp [Row.update, h]
  | none =>
    rw [Registry.written_insert hrow]
    simp only [Row.insert, Row.insertStatus, h]
    split
    · next heq => cases heq
    · next heq =>
      obtain rfl := Option.some.inj heq
      simp [Status.Doomed]
    · next heq => obtain rfl := Option.some.inj heq; rfl

/-- The fields name a desired status and a status that go together. -/
def Fields.Pairs (f : Fields) : Prop :=
  ∃ d st, f.desiredStatus = Fields.desire d ∧ f.status = some st ∧ (d = .gone ↔ st.Doomed) ∧
    f.version = none

/-- Fields that restore a tenant name a desired status and a status that agree. -/
theorem Fields.Restores.pairs (hf : f.Restores) : f.Pairs := by
  obtain ⟨d, st, hd, hst, hdg, hdoom, hv⟩ := hf
  exact ⟨d, st, hd, hst, iff_of_false hdg hdoom, hv⟩

/-- Statuses that agree are ones the store accepts. -/
theorem Fields.Pairs.valid (hf : f.Pairs) : f.Valid := by
  obtain ⟨d, st, hd, -, -, hv⟩ := hf
  simp [hd, hv]

/-- A row written with statuses that agree is coherent, whatever was there. -/
theorem Fields.Pairs.coherent (hf : f.Pairs) : CoherentAt (some (s.written now t f)) := by
  intro row hrow
  obtain ⟨d, st, hd, hst, hpair, -⟩ := hf
  obtain rfl := Option.some.inj hrow
  rw [Row.Coherent, Registry.written_desiredStatus hd, written_doomed hst]
  exact hpair

/-- Fields that leave the desired status keep a coherent row that is not being deleted coherent. -/
theorem Fields.Spares.coherent (hf : f.Spares) (hl : Live (s.get t)) (hc : CoherentAt (s.get t)) :
    CoherentAt (some (s.written now t f)) := by
  intro row hrow
  have hlive : row.desiredStatus ≠ .gone := hf.live hl row hrow
  obtain rfl := Option.some.inj hrow
  refine iff_of_false hlive ?_
  cases hst : f.status with
  | some st => exact fun h => hf.2.1 st hst ((written_doomed hst).1 h)
  | none =>
    cases hrow : s.get t with
    | some row =>
      rw [Registry.written_update hrow]
      simpa [Row.update, hst] using fun h => hl row hrow ((hc row hrow).2 h)
    | none =>
      rw [Registry.written_insert hrow]
      simp [Row.insert, Row.insertStatus, hst, Status.Doomed]

/-- Fields of a deletion leave a row of a tenant being deleted, if they desire GONE or it was. -/
theorem Fields.Dooms.dead (hf : f.Dooms) (h : f.desiredStatus = Fields.desire .gone ∨ Dead (s.get t)) :
    Dead (some (s.written now t f)) := by
  intro row hrow
  obtain rfl := Option.some.inj hrow
  rcases hf.1 with hd | hd
  · have h := h.resolve_left (by simp [hd])
    cases hrow : s.get t with
    | some row =>
      rw [Registry.written_update hrow]
      simpa [Row.update, Fields.desired, hd] using h row hrow
    | none =>
      rw [Registry.written_insert hrow]
      rcases hf.2.1 with hst | hst <;>
        simp [Row.insert, Fields.desired, hd, Row.inferDesired, Row.insertStatus, hst]
  · exact Registry.written_desiredStatus hd

/-- Fields of a deletion leave the row coherent, if they desire GONE or the tenant was being
    deleted. -/
theorem Fields.Dooms.coherent (hf : f.Dooms)
    (h : f.desiredStatus = Fields.desire .gone ∨ Dead (s.get t)) :
    CoherentAt (some (s.written now t f)) := by
  intro row hrow
  have hdead : row.desiredStatus = .gone := hf.dead h row hrow
  obtain rfl := Option.some.inj hrow
  refine iff_of_true hdead ?_
  rcases hf.2.1 with hst | hst
  · exact (written_doomed hst).2 (.inl rfl)
  · exact (written_doomed hst).2 (.inr rfl)

variable {α : Type} {p : CP α} {may : Event cpSig → Registry → Prop}

/-- A program that only restores the tenant keeps its row coherent, from any row. -/
theorem coherent_of_restores (hp : p.Calls (Puts t Fields.Restores)) :
    p.wp (steps openWorld may (onRow t StaysCoherent)) (fun _ _ => True) s :=
  onRow_of_puts (J := fun _ => True) hp (fun _ => Fields.Restores.valid) staysCoherent_refl
    staysCoherent_none trivial (fun _ _ _ hf _ => ⟨fun _ => hf.pairs.coherent, trivial⟩) trivial

/-- A program that spares the desired status keeps a coherent row of a tenant that is not being
    deleted. -/
theorem coherent_of_spares (hp : p.Calls (Puts t Fields.Spares))
    (hs : Live (s.get t) ∧ CoherentAt (s.get t)) :
    p.wp (steps openWorld may (onRow t StaysCoherent))
      (fun _ s' => Live (s'.get t) ∧ CoherentAt (s'.get t)) s :=
  onRow_of_puts (J := fun o => Live o ∧ CoherentAt o) hp (fun _ => Fields.Spares.valid)
    staysCoherent_refl staysCoherent_none ⟨live_none, coherentAt_none⟩
    (fun _ _ _ hf h => ⟨fun _ => hf.coherent h.1 h.2, hf.live h.1, hf.coherent h.1 h.2⟩) hs

/-- A program of a deletion keeps a coherent row of a tenant being deleted. -/
theorem coherent_of_dooms (hp : p.Calls (Puts t Fields.Dooms))
    (hs : Dead (s.get t) ∧ CoherentAt (s.get t)) :
    p.wp (steps openWorld may (onRow t StaysCoherent))
      (fun _ s' => Dead (s'.get t) ∧ CoherentAt (s'.get t)) s :=
  onRow_of_puts (J := fun o => Dead o ∧ CoherentAt o) hp (fun _ => Fields.Dooms.valid)
    staysCoherent_refl staysCoherent_none ⟨dead_none, coherentAt_none⟩
    (fun _ _ _ hf h => ⟨fun _ => hf.coherent (.inr h.1), hf.dead (.inr h.1), hf.coherent (.inr h.1)⟩) hs

/-- A program of another tenant does not touch the row. -/
theorem coherent_of_own (hp : p.Calls (Own u)) (hu : u ≠ t) :
    p.wp (steps openWorld may (onRow t StaysCoherent)) (fun _ _ => True) s :=
  (onRow_of_own hp hu staysCoherent_refl).imp fun _ _ _ => trivial

/-- A program that first writes the row as one of a tenant being deleted. -/
theorem coherent_of_condemned {k : Except Exn Row → CP α} (hf : f.Dooms)
    (hd : f.desiredStatus = Fields.desire .gone) (hk : ∀ row, (k (.ok row)).Calls (Puts t Fields.Dooms)) :
    (call (.reg (.upsert t none f)) k : CP α).wp (steps openWorld may (onRow t StaysCoherent))
      (fun _ s' => Dead (s'.get t) ∧ CoherentAt (s'.get t)) s := by
  refine onRow_upsert hf.valid (fun now _ _ => hf.coherent (.inl hd)) fun now _ => ?_
  refine coherent_of_dooms (hk _) ?_
  rw [Registry.get_insert_self]
  exact ⟨hf.dead (.inl hd), hf.coherent (.inl hd)⟩

/-! ## Each operation -/

/-- A deletion keeps the row coherent: it writes GONE first. -/
theorem deleteTenant_coherent :
    (deleteTenant t).wp (steps openWorld may (onRow t StaysCoherent)) (fun _ _ => True) s := by
  refine onRow_get staysCoherent_refl ?_
  refine (coherent_of_condemned (k := fun r => result r >>= _) ⟨.inr rfl, .inl rfl, rfl⟩ rfl
    fun row => ?_).imp fun _ _ _ => trivial
  refine .tryCatch ((teardown_deletes _).imp fun _ => Deletes.puts) fun exc => ?_
  exact .bind (upsert_puts ⟨.inr rfl, .inr rfl, rfl⟩) fun _ => trivial

/-- So does the request for it. -/
theorem remove_coherent :
    (served (remove t)).wp (steps openWorld may (onRow t StaysCoherent)) (fun _ _ => True) s := by
  have haccept (s : Registry) : (served (handled (acceptRemove t))).wp
      (steps openWorld may (onRow t StaysCoherent)) (fun _ _ => True) s := by
    rw [acceptRemove, served_upsert]
    refine (coherent_of_condemned ⟨.inr rfl, .inl rfl, rfl⟩ rfl fun row => ?_).imp fun _ _ _ => trivial
    exact served_puts (handled_puts (startJob_puts (J := (· = .delete)) _ rfl)) fun _ h =>
      h ▸ runJob_dooms
  rw [remove, served_get]
  refine onRow_get staysCoherent_refl ?_
  cases s.get t with
  | none =>
    -- The row is inserted as one being deleted, and its job only deletes.
    dsimp only
    rw [served_upsert]
    refine (coherent_of_condemned ⟨.inr rfl, .inl rfl, rfl⟩ rfl fun row => ?_).imp fun _ _ _ => trivial
    exact served_puts (handled_puts acceptRemove_puts) fun _ h => h ▸ runJob_dooms
  | some item =>
    dsimp only
    split
    · refine ⟨fun r s' h _ => ?_, fun r s' h => ?_⟩
      · rw [show s' = s from h]
        exact staysCoherent_refl _
      · rw [show s' = s from h.1]
        -- A job in flight is left to delete the tenant; the answer writes nothing.
        cases r with
        | true => exact coherent_of_restores ⟨trivial, fun _ => trivial⟩
        | false => exact haccept s
    · exact haccept s

/-- What a reconciliation leaves, on the side of the row it found. -/
def OnSide (item : Row) (o : Option Row) : Prop :=
  CoherentAt o ∧ if item.desiredStatus = .gone then Dead o else Live o

/-- A row with the statuses of a coherent one is on its side. -/
theorem OnSide.of_row {item row : Row} (hc : item.Coherent)
    (hd : row.desiredStatus = item.desiredStatus) (hst : row.status = item.status) :
    OnSide item (some row) := by
  constructor
  · intro row' h
    obtain rfl := Option.some.inj h
    rw [Row.Coherent, hd, hst]
    exact hc
  · split
    · next hgone =>
      intro row' h
      obtain rfl := Option.some.inj h
      exact hd.trans hgone
    · next hgone =>
      intro row' h
      obtain rfl := Option.some.inj h
      rwa [hd]

/-- On the side of a row desired GONE the tenant is being deleted. -/
theorem OnSide.dead {item : Row} {o : Option Row} (h : OnSide item o)
    (hd : item.desiredStatus = .gone) : Dead o ∧ CoherentAt o :=
  ⟨by simpa [hd] using h.2, h.1⟩

/-- On the side of any other it is not. -/
theorem OnSide.live {item : Row} {o : Option Row} (h : OnSide item o)
    (hd : item.desiredStatus ≠ .gone) : Live o ∧ CoherentAt o :=
  ⟨by simpa [hd] using h.2, h.1⟩

/-- The reconciliation of a coherent row keeps it coherent, and on its side of GONE. -/
theorem reconcileOne_coherent {item : Row} (hrow : s.get t = some item) (hc : item.Coherent) :
    (reconcileOne kubectlObserver actuators t).wp (steps openWorld may (onRow t StaysCoherent))
      (fun _ s' => OnSide item (s'.get t)) s := by
  refine onRow_get staysCoherent_refl ?_
  rw [hrow]
  refine (onRow_of_quiet kubectlObserver_quiet staysCoherent_refl).bind (fun o s₁ h₁ => ?_) fun e s₁ h₁ => ?_
  · -- What was seen is recorded on the row found.
    have hrow₁ : s₁.get t = some item := h₁.trans hrow
    have hside (now : String) : OnSide item
        (some (s₁.written now t { observedJson := some (some o.asJson) })) := by
      rw [Registry.written_update hrow₁]
      exact .of_row hc rfl rfl
    refine onRow_upsert (by simp) (fun now _ _ => (hside now).1) fun now _ => ?_
    have hside' := hside now
    rw [← Registry.get_insert_self (s := s₁) (t := t)] at hside'
    have hfollow : (follow kubectlObserver actuators t item o
        (planAction item.desiredStatus o item.status).action).wp
          (steps openWorld may (onRow t StaysCoherent)) (fun _ s' => OnSide item (s'.get t))
          (s₁.insert t (s₁.written now t { observedJson := some (some o.asJson) })) := by
      -- A row desired GONE is only deleted or purged, any other never.
      by_cases hd : item.desiredStatus = .gone
      · have hplan := planAction_gone o item.status
        rw [← hd] at hplan
        refine (coherent_of_dooms (follow_dooms hd o hplan) (hside'.dead hd)).imp fun _ s₂ h₂ => ?_
        exact ⟨h₂.2, by rw [if_pos hd]; exact h₂.1⟩
      · have hplan := planAction_ne_delete hd o item.status
        refine (coherent_of_spares (follow_spares hd o hplan) (hside'.live hd)).imp fun _ s₂ h₂ => ?_
        exact ⟨h₂.2, by rw [if_neg hd]; exact h₂.1⟩
    exact hfollow.bind (fun _ _ h => h) fun _ _ h => h
  · rw [h₁, hrow]
    exact .of_row hc rfl rfl

/-- The fields of a sweep's record of an error. -/
def sweepFailed (item : Row) (exc : ControlPlaneError) : Fields :=
  { status := some (if exc.kind.retryable then item.status else .drift),
    error := some (some exc.message) }

/-- A sweep's record of a permanent error. -/
def sweepDrifted (message : String) : Fields :=
  { status := some .drift, error := some (some message) }

/-- No permanent error is recorded on the row of the tenant where it is desired GONE. -/
def NotDrifted (e : Event cpSig) (s : Registry) : Prop :=
  ∀ t v message row, e.cmd = .reg (.upsert t v (sweepDrifted message)) → s.get t = some row →
    row.desiredStatus ≠ .gone

/-- What a sweep records of an error is coherent, unless it is a drift of a row desired GONE. -/
theorem sweepFailed_coherent {item : Row} {exc : ControlPlaneError} (hc : item.Coherent)
    (hs : OnSide item (s.get t)) (hmay : ∀ e, may e s → NotDrifted e s) :
    (TenantStore.upsert t (sweepFailed item exc)).wp (steps openWorld may (onRow t StaysCoherent))
      (fun _ s' => CoherentAt (s'.get t)) s := by
  have hvalid : (sweepFailed item exc).Valid := by simp [sweepFailed]
  -- What is recorded is on the side of GONE that the row was on.
  suffices h : ∀ now, may ⟨.reg (.upsert t none (sweepFailed item exc)),
      .ok (s.written now t (sweepFailed item exc))⟩ s →
      CoherentAt (some (s.written now t (sweepFailed item exc))) by
    refine onRow_upsert hvalid (fun now hm _ => h now hm) fun now hm => ?_
    rw [wp_result, Registry.get_insert_self]
    exact h now hm
  intro now hm
  by_cases hd : item.desiredStatus = .gone
  · obtain ⟨hdead, hcoh⟩ := hs.dead hd
    have hdoom := hc.1 hd
    by_cases hretry : exc.kind.retryable
    · exact Fields.Dooms.coherent
        ⟨.inl rfl, by simpa [sweepFailed, hretry, Status.Doomed] using hdoom, rfl⟩ (.inr hdead)
    · -- The row is absent, or the record is not made.
      cases hrow : s.get t with
      | none =>
        intro row h
        obtain rfl := Option.some.inj h
        rw [Registry.written_insert hrow]
        simp [Row.Coherent, Row.insert, sweepFailed, hretry, Fields.desired, Row.inferDesired,
          Row.insertStatus, Status.Doomed]
      | some row =>
        refine absurd (hdead row hrow) (hmay _ hm t none exc.message row ?_ hrow)
        simp [sweepFailed, sweepDrifted, hretry]
  · obtain ⟨hlive, hcoh⟩ := hs.live hd
    refine Fields.Spares.coherent ⟨.inl rfl, fun st h => ?_, rfl⟩ hlive hcoh
    obtain rfl := Option.some.inj h
    split
    · exact fun h => hd (hc.2 h)
    · exact not_or.2 ⟨by simp, by simp⟩

/-- The visits of a sweep keep the row of the tenant coherent; it is visited once at most. -/
theorem reconcileRows_coherent (hmay : ∀ e s, may e s → NotDrifted e s)
    {rows : List (TenantId × Row)} (hnodup : (rows.map Prod.fst).Nodup) {s : Registry}
    (hs : CoherentAt (s.get t)) (hrows : ∀ row, (t, row) ∈ rows → s.get t = some row) :
    (reconcileRows kubectlObserver actuators rows).wp (steps openWorld may (onRow t StaysCoherent))
      (fun _ _ => True) s := by
  -- Over the rows of the snapshot: until its visit the row of the tenant is the one listed.
  induction rows generalizing s with
  | nil => trivial
  | cons p rows ih =>
    obtain ⟨u, item⟩ := p
    obtain ⟨hu, hnodup⟩ := List.nodup_cons.1 hnodup
    -- What comes after the tenant of the first row.
    have hrest {s' : Registry} (hs' : CoherentAt (s'.get t))
        (hrows' : ∀ row, (t, row) ∈ rows → s'.get t = some row) (result : Reconciled ⊕ ControlPlaneError) :
        (reconcileRows kubectlObserver actuators rows >>= fun results =>
          (pure ((u, result) :: results) : CP (List Result))).wp
          (steps openWorld may (onRow t StaysCoherent)) (fun _ _ => True) s' :=
      onRow_bind (Q := fun _ => True) (ih hnodup hs' hrows') fun _ _ _ => trivial
    by_cases hut : u = t
    · subst hut
      have hrow := hrows item List.mem_cons_self
      have hc := hs item hrow
      have hnone (row : Row) (s' : Registry) (h : (u, row) ∈ rows) : s'.get u = some row :=
        absurd (List.mem_map_of_mem (f := Prod.fst) h) hu
      refine wp.bind (Q := fun _ s' => CoherentAt (s'.get u)) ?_
        (fun result s' hs' => hrest hs' (fun row h => hnone row s' h) result) fun _ _ _ => trivial
      refine (wp_tryCatch _ _).2 ((wp_map _ _).2 ((reconcileOne_coherent hrow hc).imp fun x s' h => ?_))
      rcases x with e | a
      · cases e with
        | controlPlane exc =>
          refine (wp_bind _ _).2 ((sweepFailed_coherent hc h fun e => hmay e s').imp
            fun x s'' h => ?_)
          cases x <;> exact h
        | _ => exact h.1
      · exact h.1
    · have hown : Calls (Own u) (exceptControlPlane
          (Sum.inl <$> reconcileOne kubectlObserver actuators u) fun exc => do
            let _ ← TenantStore.upsert u (sweepFailed item exc)
            return .inr exc) :=
        exceptControlPlane_calls (.map _ (reconcileOne_own kubectlObserver_quiet actuators_local))
          fun exc => .bind (upsert_own _) fun _ => trivial
      refine wp.bind (onRow_of_own hown hut staysCoherent_refl) (fun result s' hs' => ?_) fun _ _ _ => trivial
      refine hrest (hs'.symm ▸ hs) (fun row h => ?_) result
      rw [hs']
      exact hrows row (List.mem_cons_of_mem _ h)

/-- A sweep keeps the row coherent, if it records no drift of a row desired GONE. -/
theorem reconcileAll_coherent (hmay : ∀ e s, may e s → NotDrifted e s) (hs : CoherentAt (s.get t)) :
    (reconcileAll kubectlObserver actuators).wp (steps openWorld may (onRow t StaysCoherent))
      (fun _ _ => True) s := by
  have hq : listUnmanagedNamespaces.Calls Quiet := .bind list_quiet fun _ => ⟨trivial, fun _ => trivial⟩
  refine wp.bind (onRow_of_quiet hq staysCoherent_refl) (fun unmanaged s₁ h₁ => ?_) fun _ _ _ => trivial
  -- The snapshot lists the registry as it is when the visits begin.
  refine ⟨fun r s' h _ => ?_, fun r s' h => ?_⟩
  · rw [onRow, (openWorld_list.1 h).2]
    exact staysCoherent_refl _
  · obtain ⟨rfl, rfl⟩ := openWorld_list.1 h.1
    have hrows : (reconcileRows kubectlObserver actuators s'.list).wp
        (steps openWorld may (onRow t StaysCoherent)) (fun _ _ => True) s' :=
      reconcileRows_coherent hmay Registry.list_nodup (by rwa [h₁]) fun row h => Registry.mem_list.1 h
    have h : (reconcileRows kubectlObserver actuators s'.list >>= fun results =>
        (pure (results, unmanaged) : CP (List Result × List String))).wp
        (steps openWorld may (onRow t StaysCoherent)) (fun _ _ => True) s' :=
      onRow_bind hrows fun _ _ _ => trivial
    exact h

/-- Adoption keeps statuses that agree, and gives ACTIVE for both where there is no row. -/
theorem adopted_pairs (outputs : Outputs) (alb arn : String) {existing : Option Row}
    (hc : CoherentAt existing) : (adopted outputs t alb arn existing).Pairs := by
  refine ⟨_, _, rfl, rfl, ?_, rfl⟩
  cases existing with
  | none => simp [adoptedStatus, Status.Doomed]
  | some row =>
    have hrow := hc row rfl
    simp only [Option.map_some, Option.getD_some, adoptedStatus]
    split
    · next htext =>
      -- A status without a text is not one of a tenant being deleted.
      refine hrow.trans (iff_of_false ?_ (not_or.2 ⟨nofun, nofun⟩))
      rintro (h | h) <;> simp [h, Status.text] at htext
    · exact hrow

/-- Adopting a tenant keeps each row coherent. -/
theorem adoptTenant_coherent (outputs : Outputs) (alb : String) (hs : CoherentAt (s.get t)) :
    (adoptTenant outputs alb u).wp (steps openWorld may (onRow t StaysCoherent))
      (fun _ s' => CoherentAt (s'.get t)) s := by
  by_cases hu : u = t
  · subst hu
    have hquiet {β : Type} {p : CP β} {k : β → CP (Option Row)} {s₁ : Registry}
        (hp : p.Calls Quiet) (h₁ : CoherentAt (s₁.get u))
        (hk : ∀ a s₂, CoherentAt (s₂.get u) → (k a).wp (steps openWorld may (onRow u StaysCoherent))
          (fun _ s' => CoherentAt (s'.get u)) s₂) :
        (p >>= k).wp (steps openWorld may (onRow u StaysCoherent))
          (fun _ s' => CoherentAt (s'.get u)) s₁ :=
      (onRow_of_quiet hp staysCoherent_refl).bind (fun a s₂ h₂ => hk a s₂ (h₂.symm ▸ h₁))
        fun _ _ h₂ => h₂.symm ▸ h₁
    have hrole : (call (.aws (.getRole (roleName outputs u))) result : CP String).Calls Quiet :=
      ⟨trivial, fun r => calls_result r⟩
    -- AWS is asked, and the row read again, before the one write.
    refine hquiet (orMissing_calls (describeSecret_quiet _) _) hs fun secret s₁ h₁ => ?_
    refine (wp_ite _ _ _).2 ⟨fun _ => h₁, fun _ => ?_⟩
    refine hquiet (orMissing_calls hrole _) h₁ fun role s₂ h₂ => ?_
    cases role with
    | none => exact h₂
    | some arn =>
      refine hquiet (tagIdentity_quiet outputs) h₂ fun _ s₃ h₃ => onRow_get staysCoherent_refl ?_
      have hpairs := adopted_pairs (t := u) outputs alb arn h₃
      refine (wp_map _ _).2 (onRow_upsert hpairs.valid (fun _ _ _ => hpairs.coherent) fun now _ => ?_)
      rw [wp_result, outcome_ok, Registry.get_insert_self]
      exact hpairs.coherent
  · exact (onRow_of_own (adoptTenant_own outputs alb) hu staysCoherent_refl).imp fun _ _ h => h ▸ hs

/-- So does adopting a list of tenants. -/
theorem adoptEach_coherent (outputs : Outputs) (alb : String) (tids : List String) {s : Registry}
    (hs : CoherentAt (s.get t)) :
    (adoptEach outputs alb tids).wp (steps openWorld may (onRow t StaysCoherent)) (fun _ _ => True) s := by
  induction tids generalizing s with
  | nil => trivial
  | cons tid tids ih =>
    rw [adoptEach]
    split
    · exact ih hs
    · exact onRow_bind (adoptTenant_coherent outputs alb hs) fun _ s' h =>
        onRow_bind (Q := fun _ => True) (ih h) fun _ _ _ => trivial

/-- So does the adoption of all. -/
theorem adoptTenants_coherent (tids : List String) (hs : CoherentAt (s.get t)) :
    (adoptTenants tids).wp (steps openWorld may (onRow t StaysCoherent)) (fun _ _ => True) s := by
  refine onRow_bind (onRow_of_quiet tofuOutputs_quiet staysCoherent_refl) fun outputs s₁ h₁ => ?_
  refine onRow_bind (onRow_of_quiet (adoptUrl_quiet outputs) staysCoherent_refl) fun alb s₂ h₂ => ?_
  refine onRow_bind (onRow_of_quiet (adoptIds_quiet outputs tids) staysCoherent_refl) fun ids s₃ h₃ => ?_
  refine (wp_ite _ _ _).2 ⟨fun _ => trivial, fun _ => adoptEach_coherent outputs alb ids ?_⟩
  rwa [h₃, h₂, h₁]

/-! ## Runs -/

/-- In no sweep is a permanent error recorded on a row desired GONE. -/
def NotSwept (s : Registry) : Turn cpSig Op (String × List (String × LegacyMeta)) → Prop
  | .start i => i.FromOutside
  | .run .reconcileAll e => NotDrifted e s
  | _ => True

/-- Every operation keeps the rows coherent. -/
theorem Op.coherent {i : Op} (hi : i.FromOutside) (hs : CoherentAt (s.get t)) :
    i.whole.wp (steps openWorld (fun e s => NotSwept s (.run i e)) (onRow t StaysCoherent))
      (fun _ _ => True) s := by
  -- An operation of another tenant does not touch the row; one of this tenant restores or deletes.
  cases i with
  | createTenant body =>
    cases hbody : body.tenantId with
    | error e =>
      rw [Op.whole_createTenant, createTenant_error hbody]
      exact coherent_of_restores (served_respondError _ _ _ fun _ => trivial)
    | ok u =>
      rw [Op.whole_createTenant, createTenant_ok hbody]
      by_cases hu : u = t
      · exact hu ▸ coherent_of_restores (served_createChecked body)
      · exact coherent_of_own (served_own (createChecked_own body)) hu
  | suspend u =>
    rw [Op.whole_suspend]
    by_cases hu : u = t
    · exact hu ▸ coherent_of_restores suspend_puts
    · exact coherent_of_own (@suspend_own u) hu
  | resume u =>
    by_cases hu : u = t
    · exact hu ▸ coherent_of_restores served_resume
    · exact coherent_of_own (served_own resume_own) hu
  | remove u =>
    by_cases hu : u = t
    · exact hu ▸ remove_coherent
    · exact coherent_of_own (served_own remove_own) hu
  | job u fn => exact hi.elim
  | provision u args =>
    by_cases hu : u = t
    · exact hu ▸ coherent_of_restores ((provision_restores args).imp fun _ => Restores.puts)
    · exact coherent_of_own (provision_own args) hu
  | suspendTenant u =>
    by_cases hu : u = t
    · exact hu ▸ coherent_of_restores
        (.bind (suspendTenant_restores.imp fun _ => Restores.puts) fun _ => trivial)
    · exact coherent_of_own (.bind suspendTenant_own fun _ => trivial) hu
  | resumeTenant u =>
    by_cases hu : u = t
    · exact hu ▸ coherent_of_restores
        (.bind (resumeTenant_restores.imp fun _ => Restores.puts) fun _ => trivial)
    · exact coherent_of_own (.bind resumeTenant_own fun _ => trivial) hu
  | deleteTenant u =>
    by_cases hu : u = t
    · exact hu ▸ deleteTenant_coherent
    · exact coherent_of_own deleteTenant_own hu
  | reconcileOne u =>
    by_cases hu : u = t
    · subst hu
      cases hrow : s.get u with
      | some item =>
        exact onRow_bind (Q := fun _ => True)
          ((reconcileOne_coherent hrow (hs item hrow)).imp fun _ _ _ => trivial) fun _ _ _ => trivial
      | none =>
        refine onRow_bind (Q := fun _ => True) (onRow_get staysCoherent_refl ?_) fun _ _ _ => trivial
        rw [hrow]
        trivial
    · exact coherent_of_own (.bind (reconcileOne_own kubectlObserver_quiet actuators_local) fun _ =>
        trivial) hu
  | reconcileAll =>
    exact onRow_bind (Q := fun _ => True) (reconcileAll_coherent (fun _ _ h => h) hs) fun _ _ _ => trivial
  | adoptTenants tids =>
    exact onRow_bind (Q := fun _ => True) (adoptTenants_coherent tids hs) fun _ _ _ => trivial

/-- The rows of a legacy file are coherent. -/
theorem LegacyMeta.coherent (m : LegacyMeta) (now : String) : (m.row now).Coherent := by
  simp only [Row.Coherent, LegacyMeta.row, LegacyMeta.importedDesired, Status.Doomed]
  split_ifs <;> simp_all

end

/-- Every row is coherent, in every run from an empty registry in which no sweep records a
    permanent error on a row desired GONE. -/
theorem coherent_run {ts : List (Turn cpSig Op (String × List (String × LegacyMeta)))}
    {p : Desk cpSig Exn Op Registry} (hr : console.Run NotSwept ∅ ts p) {t : TenantId} {row : Row}
    (hrow : p.world.get t = some row) : row.desiredStatus = .gone ↔ row.status.Doomed := by
  have hsteady : console.Steady NotSwept (fun s => ∀ t, CoherentAt (s.get t))
      (fun s s' => ∀ t, onRow t StaysCoherent s s') p := by
    refine hr.steady (fun i s hs hi => wp_steps_forall fun t => Op.coherent hi (hs t))
      (fun s s' hs h t => h t (hs t)) (fun x s s' hs h t row hrow => ?_) fun t => ?_
    · rw [h] at hrow
      rcases Registry.importLegacy_get hrow with hrow | ⟨q, -, rfl⟩
      · exact hs t row hrow
      · exact LegacyMeta.coherent _ _
    · rw [Registry.get_empty]
      exact coherentAt_none
  exact hsteady.world t row hrow

/-! ## Turns on a schedule -/

/-- An answer to every command: no role can be deleted, the rest succeeds. -/
def keepingRole : (c : Cmd) → cpSig.Resp c
  | .aws (.deleteRole _) => .error (.clientError "AccessDenied" "DeleteRole" "not authorized")
  | c => succeeding c

/-- The desired status and the status of `a` after a schedule. -/
def statusesAfter (ok : Turn cpSig Op (String × List (String × LegacyMeta)) → Bool)
    (xs : List (Serial.Move Op Unit)) : Option (Desired × Status) :=
  (playConsole keepingRole ok xs).bind fun p =>
    (p.world.get .a).map fun row => (row.desiredStatus, row.status)

theorem statusesAfter_run {ok : Turn cpSig Op (String × List (String × LegacyMeta)) → Bool}
    {G : Registry → Turn cpSig Op (String × List (String × LegacyMeta)) → Prop}
    {xs : List (Serial.Move Op Unit)} {d : Desired} {st : Status}
    (hG : ∀ s x, ok x = true → G s x) (h : statusesAfter ok xs = some (d, st)) :
    ∃ ts p row, console.Run G ∅ ts p ∧ p.world.get .a = some row ∧ row.desiredStatus = d ∧
      row.status = st := by
  simp only [statusesAfter, playConsole, Option.bind_eq_some_iff, Option.map_eq_some_iff] at h
  obtain ⟨p, hp, row, hrow, hst⟩ := h
  obtain ⟨ts, hr⟩ := Serial.run_play (fun _ => openAnswer_step "now" keepingRole) hG .nil hp
  exact ⟨ts, p, row, hr, hrow, congrArg Prod.fst hst, congrArg Prod.snd hst⟩

/-- The turns of deletions on the command line. -/
def unswept : Turn cpSig Op (String × List (String × LegacyMeta)) → Bool
  | .start (.deleteTenant _) | .run (.deleteTenant _) _ => true
  | _ => false

/-- A tenant whose deletion was interrupted is a coherent one. -/
theorem coherent_run_deletion :
    ∃ ts p row, console.Run NotSwept ∅ ts p ∧ p.world.get .a = some row ∧
      row.status = .deleting ∧ (row.desiredStatus = .gone ↔ row.status.Doomed) := by
  have hplay : statusesAfter unswept [.start (.deleteTenant .a), .run (), .run ()] =
      some (.gone, .deleting) := rfl
  have hG (s : Registry) (x : Turn cpSig Op (String × List (String × LegacyMeta)))
      (hx : unswept x = true) : NotSwept s x := by
    unfold unswept at hx
    split at hx
    · exact trivial
    · exact trivial
    · cases hx
  obtain ⟨ts, p, row, hr, hrow, -, hst⟩ := statusesAfter_run hG hplay
  exact ⟨ts, p, row, hr, hrow, hst, coherent_run hr hrow⟩

/-- A sweep leaves a tenant whose deletion failed for good as a drifting one. -/
theorem sweep_incoherent :
    ¬∀ ts p (t : TenantId) (row : Row),
      console.Run (fun _ x => ∀ i, x = .start i → i.FromOutside) ∅ ts p →
      p.world.get t = some row → (row.desiredStatus = .gone ↔ row.status.Doomed) := by
  intro h
  -- A creation, a deletion interrupted after its first write, and a sweep.
  have hplay : statusesAfter jobless
      ([.start (.provision .a {})] ++ List.replicate 23 (.run ()) ++
        [.start (.deleteTenant .a), .run (), .run (), .start .reconcileAll] ++
        List.replicate 37 (.run ())) =
      some (.gone, .drift) := rfl
  have hG (s : Registry) (x : Turn cpSig Op (String × List (String × LegacyMeta)))
      (hx : jobless x = true) : ∀ i, x = .start i → i.FromOutside := by
    rintro i rfl
    exact jobless_start hx
  obtain ⟨ts, p, row, hr, hrow, hgone, hdrift⟩ := statusesAfter_run hG hplay
  rcases (h ts p .a row hr hrow).1 hgone with hst | hst
  · cases hdrift.symm.trans hst
  · cases hdrift.symm.trans hst

end NtierLab
