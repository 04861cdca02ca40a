import NtierLab.Prog.Serial
import NtierLab.ControlPlane.Legacy
import NtierLab.ControlPlane.Locality
import NtierLab.ControlPlane.OpenWorld

/-!
# The control plane, one operation at a time

The operations of the control plane on one registry, one after the other
(`console`): the requests of the API with their jobs run to completion (`served`),
the functions called by the command line, and the import of the legacy registry
when a store is opened. Every command may fail, and an operation may crash at any
point; everything but the registry is open.
-/

namespace NtierLab

open Prog

/-- The job an event starts, run to its end; its exceptions end its thread only. -/
def jobOf (e : Event cpSig) : CP Unit :=
  match jobStarted e with
  | some (t, fn) => tryCatch (runJob t fn) fun _ => pure ()
  | none => pure ()

/-- A program, each job run to its end where it is started. -/
def served {α : Type} : CP α → CP α
  | .ret a => .ret a
  | .fail e => .fail e
  | .call c k => .call c fun r => (jobOf ⟨c, r⟩).bind fun _ => served (k r)

/-- An operation with its jobs: the requests that start jobs, and the others as they are. -/
def Op.whole : Op → CP Unit
  | .createTenant body => served (NtierLab.createTenant body)
  | .resume t => served (NtierLab.resume t)
  | .remove t => served (NtierLab.remove t)
  | i => i.prog

theorem Op.whole_suspend (t : TenantId) : (Op.suspend t).whole = NtierLab.suspend t := rfl

theorem Op.whole_createTenant (body : CreateBody) :
    (Op.createTenant body).whole = served (NtierLab.createTenant body) := rfl

/-- A request that is refused. -/
theorem served_respondError (code : ℕ) (error message : String) {P : Cmd → Prop}
    (hP : ∀ a, P (.app (.respond code a))) : (served (respondError code error message)).Calls P :=
  ⟨hP _, fun _ => trivial⟩

/-- A request that first reads the row of the tenant. -/
theorem served_get (t : TenantId) (f : Option Row → CP Unit) :
    served (handled (TenantStore.get t >>= f)) =
      .call (.reg (.get t)) fun item => served (handled (f item)) := rfl

/-- A write of a request comes before its job. -/
theorem served_upsert (t : TenantId) (f : Fields) (k : Row → CP Unit) :
    served (handled (TenantStore.upsert t f >>= k)) =
      .call (.reg (.upsert t none f)) fun r => served (handled (result r >>= k)) := rfl

/-- The operations one at a time; the world moves by importing a legacy file, at some time. -/
def console : Serial cpSig Exn Op (String × List (String × LegacyMeta)) Registry where
  prog := Op.whole
  step := openWorld
  env x s s' := s' = s.importLegacy x.1 x.2

/-- Jobs are started by requests only. -/
def Op.FromOutside : Op → Prop
  | .job _ _ => False
  | _ => True

instance (i : Op) : Decidable i.FromOutside := by
  cases i <;> first | exact .isTrue trivial | exact .isFalse id

/-! ## The commands of a program with its jobs -/

section

variable {α : Type} {t u : TenantId} {P P' : Cmd → Prop} {p : CP α}

/-- A request with its job makes the calls of both. -/
theorem served_calls (hp : p.Calls P) (h : ∀ c, P c → P' c)
    (hjob : ∀ t fn, P (.app (.enter t fn)) → (runJob t fn).Calls P') : (served p).Calls P' := by
  induction p with
  | ret a => trivial
  | fail e => trivial
  | call c k ih =>
    refine ⟨h c hp.1, fun r => .bind' ?_ fun _ => ih r (hp.2 r)⟩
    unfold jobOf
    split
    · next u fn hstart =>
      have hc : c = .app (.enter u fn) := congrArg Event.cmd (jobStarted_eq hstart)
      exact (hjob u fn (hc ▸ hp.1)).tryCatch fun _ => trivial
    · trivial

/-- They are its tenant's. -/
theorem served_own (hp : p.Calls (Own t)) : (served p).Calls (Own t) :=
  served_calls hp (fun _ h => h) fun u fn h => by
    obtain rfl : u = t := h u rfl
    exact runJob_own fn

/-! ## The row of a tenant -/

/-- The command writes the row of `t` with fields in `F` only. -/
def Puts (t : TenantId) (F : Fields → Prop) : Cmd → Prop
  | .reg (.upsert u v f) => u = t → v = none ∧ F f
  | _ => True

variable {F F' : Fields → Prop} {c : Cmd}

theorem Puts.mono (h : ∀ f, F f → F' f) (hc : Puts t F c) : Puts t F' c := by
  unfold Puts at hc ⊢
  split at hc
  · exact fun hu => (hc hu).imp_right (h _)
  · trivial

/-- A command of another tenant puts nothing on this one's row. -/
theorem Own.puts (hc : Own u c) (hu : u ≠ t) : Puts t F c := by
  unfold Puts
  split
  · next v _ _ => exact fun hv => absurd ((hc _ rfl).symm.trans hv) hu
  · trivial

theorem Quiet.puts (hc : Quiet c) : Puts t F c := by
  unfold Puts
  split
  · exact hc.elim
  · trivial

theorem Restores.puts (hc : Restores t c) : Puts t Fields.Restores c := by
  unfold Restores at hc
  split at hc
  · exact fun _ => hc.2
  · exact hc.puts

theorem Deletes.puts (hc : Deletes t c) : Puts t Fields.Dooms c := by
  unfold Deletes at hc
  split at hc
  · exact fun _ => hc.2
  · trivial
  · exact hc.puts

/-- A quiet command leaves the registry. -/
theorem openWorld_quiet {s s' : Registry} {r : cpSig.Resp c} (hc : Quiet c)
    (h : openWorld c s r s') : s' = s := by
  rcases c with (u | _ | ⟨u, v, f⟩ | u) | _ | _ | _ | _ | _
  · exact (openWorld_get.1 h).2
  · exact (openWorld_list.1 h).2
  · exact hc.elim
  · exact hc.elim
  all_goals exact h

/-- The row of the tenant changes with the writes and the deletions of it only. -/
theorem openWorld_own {s s' : Registry} {r : cpSig.Resp c} (hc : Own u c) (hu : u ≠ t)
    (h : openWorld c s r s') : s'.get t = s.get t := by
  rcases c with (v | _ | ⟨v, e, f⟩ | v) | _ | _ | _ | _ | _
  · rw [(openWorld_get.1 h).2]
  · rw [(openWorld_list.1 h).2]
  · obtain ⟨now, hrun⟩ := h
    have hs' : (s.upsert now v e f).2 = s' := congrArg Prod.snd hrun
    rw [← hs', Registry.upsert_get_ne fun hv => hu ((hc v rfl).symm.trans hv)]
  · rw [(openWorld_delete.1 h).2, Registry.delete_get_ne fun hv => hu ((hc v rfl).symm.trans hv)]
  all_goals rw [show s' = s from h]

/-- What a command does to the row of the tenant: nothing, it deletes it, or it writes fields
    of its own. -/
theorem openWorld_row {s s' : Registry} {r : cpSig.Resp c} (hF : ∀ f, F f → f.Valid)
    (hc : Puts t F c) (h : openWorld c s r s') :
    s'.get t = s.get t ∨ s'.get t = none ∨
      ∃ f now, F f ∧ s'.get t = some (s.written now t f) := by
  rcases c with (u | _ | ⟨u, v, f⟩ | u) | _ | _ | _ | _ | _
  · exact .inl (by rw [(openWorld_get.1 h).2])
  · exact .inl (by rw [(openWorld_list.1 h).2])
  · by_cases hu : u = t
    · obtain ⟨rfl, hf⟩ := hc hu
      subst hu
      obtain ⟨now, -, hs'⟩ := (openWorld_upsert (hF f hf)).1 h
      exact .inr (.inr ⟨f, now, hf, by rw [hs', Registry.get_insert_self]⟩)
    · obtain ⟨now, hrun⟩ := h
      have hs' : (s.upsert now u v f).2 = s' := congrArg Prod.snd hrun
      exact .inl (by rw [← hs', Registry.upsert_get_ne hu])
  · by_cases hu : u = t
    · exact .inr (.inl (by rw [(openWorld_delete.1 h).2, hu, Registry.delete_get_self]))
    · exact .inl (by rw [(openWorld_delete.1 h).2, Registry.delete_get_ne hu])
  all_goals exact .inl (by rw [show s' = s from h])

end

/-- The row of the tenant changes along a relation. -/
def onRow (t : TenantId) (R : Option Row → Option Row → Prop) (s s' : Registry) : Prop :=
  R (s.get t) (s'.get t)

section OnRow

variable {α : Type} {t u : TenantId} {p : CP α} {s : Registry} {F : Fields → Prop}
  {R : Option Row → Option Row → Prop} {J : Option Row → Prop}
  {may : Event cpSig → Registry → Prop}

/-- A program whose writes of the row keep to the relation from where `J` holds, and keep `J`. -/
theorem onRow_of_puts (hp : p.Calls (Puts t F)) (hF : ∀ f, F f → f.Valid) (hrefl : ∀ o, R o o)
    (hnone : ∀ o, R o none) (hJnone : J none)
    (hw : ∀ s : Registry, ∀ f now, F f → J (s.get t) →
      R (s.get t) (some (s.written now t f)) ∧ J (some (s.written now t f))) (hJ : J (s.get t)) :
    p.wp (steps openWorld may (onRow t R)) (fun _ s' => J (s'.get t)) s := by
  refine hp.steps (I := fun s : Registry => J (s.get t)) (fun c s r s' hc hs h _ => ?_) hJ
  unfold onRow
  rcases openWorld_row hF hc h with hrow | hrow | ⟨f, now, hf, hrow⟩
  · rw [hrow]; exact ⟨hrefl _, hs⟩
  · rw [hrow]; exact ⟨hnone _, hJnone⟩
  · rw [hrow]; exact hw s f now hf hs

/-- A program that does not write the row keeps it. -/
theorem onRow_of_own (hp : p.Calls (Own u)) (hu : u ≠ t) (hrefl : ∀ o, R o o) :
    p.wp (steps openWorld may (onRow t R)) (fun _ s' => s'.get t = s.get t) s := by
  refine hp.steps (I := fun s' : Registry => s'.get t = s.get t) (fun c s₁ r s' hc hs h _ => ?_) rfl
  have hrow : s'.get t = s₁.get t := openWorld_own hc hu h
  exact ⟨by rw [onRow, hrow]; exact hrefl _, hrow.trans hs⟩

/-- A quiet program leaves the row. -/
theorem onRow_of_quiet (hp : p.Calls Quiet) (hrefl : ∀ o, R o o) :
    p.wp (steps openWorld may (onRow t R)) (fun _ s' => s'.get t = s.get t) s := by
  refine hp.steps (I := fun s' : Registry => s'.get t = s.get t) (fun c s₁ r s' hc hs h _ => ?_) rfl
  have hrow : s' = s₁ := openWorld_quiet hc h
  exact ⟨by rw [onRow, hrow]; exact hrefl _, hrow ▸ hs⟩

/-- A program in two parts, each keeping to the relation. -/
theorem onRow_bind {β : Type} {K : Contract cpSig Registry} {f : α → CP β}
    {Q : Registry → Prop} (hp : p.wp K (fun _ => Q) s) (hf : ∀ a s', Q s' → (f a).wp K (fun _ _ => True) s') :
    (p >>= f).wp K (fun _ _ => True) s :=
  hp.bind (fun a s' hs' => hf a s' hs') fun _ _ _ => trivial

/-- A program with a handler, each keeping to the relation. -/
theorem onRow_tryCatch {K : Contract cpSig Registry} {h : Exn → CP α}
    (hp : p.wp K (fun _ _ => True) s) (hh : ∀ e s', (h e).wp K (fun _ _ => True) s') :
    (tryCatch p h).wp K (fun _ _ => True) s :=
  (wp_tryCatch _ _).2 (hp.imp fun x s' _ => match x with
    | .ok _ => trivial
    | .error e => hh e s')

/-- Writing the row. -/
theorem onRow_upsert {f : Fields} {k : Except Exn Row → CP α} {Q : Except Exn α → Registry → Prop}
    (hf : f.Valid) (hR : ∀ now, may ⟨.reg (.upsert t none f), .ok (s.written now t f)⟩ s →
      R (s.get t) (some (s.written now t f)))
    (hk : ∀ now, may ⟨.reg (.upsert t none f), .ok (s.written now t f)⟩ s →
      (k (.ok (s.written now t f))).wp (steps openWorld may (onRow t R)) Q
        (s.insert t (s.written now t f))) :
    (call (.reg (.upsert t none f)) k : CP α).wp (steps openWorld may (onRow t R)) Q s := by
  refine ⟨fun r s' h hm => ?_, fun r s' h => ?_⟩
  · obtain ⟨now, rfl, rfl⟩ := (openWorld_upsert hf).1 h
    rw [onRow, Registry.get_insert_self]
    exact hR now hm
  · obtain ⟨now, rfl, rfl⟩ := (openWorld_upsert hf).1 h.1
    exact hk now h.2

/-- Reading the row. -/
theorem onRow_get {k : Option Row → CP α} {Q : Except Exn α → Registry → Prop}
    (hrefl : ∀ o, R o o) (hk : (k (s.get t)).wp (steps openWorld may (onRow t R)) Q s) :
    (call (.reg (.get t)) k : CP α).wp (steps openWorld may (onRow t R)) Q s := by
  refine ⟨fun r s' h _ => ?_, fun r s' h => ?_⟩
  · rw [onRow, (openWorld_get.1 h).2]
    exact hrefl _
  · obtain ⟨rfl, rfl⟩ := openWorld_get.1 h.1
    exact hk

end OnRow

/-! ## What an operation writes -/

/-- The fields leave the desired status as it is, or name one but GONE, and name no status of a
    tenant being deleted. -/
def Fields.Spares (f : Fields) : Prop :=
  (f.desiredStatus = none ∨ ∃ d, d ≠ .gone ∧ f.desiredStatus = Fields.desire d) ∧
    (∀ st, f.status = some st → ¬st.Doomed) ∧ f.version = none

/-- A row inserted without a desired status is desired GONE only if its status is one of a tenant
    being deleted. -/
theorem Row.inferDesired_ne_gone {f : Fields} (hst : ∀ st, f.status = some st → ¬st.Doomed) :
    Row.inferDesired f ≠ .gone := by
  have hst' : ¬(Row.insertStatus f).Doomed := by
    unfold Row.insertStatus
    split
    · exact not_or.2 ⟨nofun, nofun⟩
    · exact not_or.2 ⟨nofun, nofun⟩
    · next st _ h => exact hst st h
  unfold Row.inferDesired
  split
  · nofun
  · next h => exact absurd (.inl h) hst'
  · next h => exact absurd (.inr h) hst'
  · nofun

theorem Fields.Restores.spares {f : Fields} (hf : f.Restores) : f.Spares := by
  obtain ⟨d, st, hd, hst, hdg, hdoom, hv⟩ := hf
  refine ⟨.inr ⟨d, hdg, hd⟩, fun st' h => ?_, hv⟩
  rw [hst] at h
  obtain rfl := Option.some.inj h
  exact hdoom

theorem Fields.Spares.valid {f : Fields} (hf : f.Spares) : f.Valid := by
  rcases hf.1 with h | ⟨d, -, h⟩ <;> simp [h, hf.2.2]

theorem Fields.Restores.valid {f : Fields} (hf : f.Restores) : f.Valid := hf.spares.valid

/-- A record of what was seen spares the desired status, if it is not one of a deletion. -/
theorem spares_observed {o : Observed} {st : Status} {error : Option String} (hst : ¬st.Doomed) :
    (observedFields o st error).Spares := by
  refine ⟨.inl rfl, fun st' h => ?_, rfl⟩
  obtain rfl := Option.some.inj h
  exact hst

section

variable {t : TenantId} {α : Type} {p : CP α} {F : Fields → Prop} {fn : JobFn}

theorem puts_of_quiet (hp : p.Calls Quiet) : p.Calls (Puts t F) := hp.imp fun _ => Quiet.puts

theorem upsert_puts {u : TenantId} {f : Fields} (hf : F f) :
    (TenantStore.upsert u f).Calls (Puts t F) :=
  ⟨fun _ => ⟨rfl, hf⟩, fun r => calls_result r⟩

/-- The command starts jobs of `t` in `J` only. -/
def Starts (t : TenantId) (J : JobFn → Prop) : Cmd → Prop
  | .app (.enter u fn) => u = t ∧ J fn
  | _ => True

/-- The command writes fields in `F`, and starts jobs in `J`. -/
abbrev PutsAndStarts (t : TenantId) (F : Fields → Prop) (J : JobFn → Prop) (c : Cmd) : Prop :=
  Puts t F c ∧ Starts t J c

section Requests

variable {J : JobFn → Prop}

theorem respond_puts (code : ℕ) (body : Body) : (respond code body).Calls (PutsAndStarts t F J) :=
  ⟨⟨trivial, trivial⟩, fun _ => trivial⟩

theorem handled_puts {p : CP Unit} (hp : p.Calls (PutsAndStarts t F J)) :
    (handled p).Calls (PutsAndStarts t F J) :=
  exceptControlPlane_calls hp fun _ => respond_puts _ _

/-- A job started puts nothing itself. -/
theorem startJob_puts (status : String) (hfn : J fn) :
    (startJob t status fn).Calls (PutsAndStarts t F J) :=
  ⟨⟨trivial, rfl, hfn⟩, fun _ => ⟨⟨trivial, trivial⟩, fun _ => respond_puts _ _⟩⟩

theorem upsert_starts {f : Fields} (hf : F f) :
    (TenantStore.upsert t f).Calls (PutsAndStarts t F J) :=
  ⟨⟨fun _ => ⟨rfl, hf⟩, trivial⟩, fun r => calls_result r⟩

theorem acceptCreate_puts (body : CreateBody) :
    (acceptCreate t body).Calls (PutsAndStarts t Fields.Restores (· ≠ .delete)) :=
  .bind (upsert_starts (Fields.restores rfl rfl rfl nofun ⟨nofun, nofun⟩)) fun _ => startJob_puts _ nofun

/-- A creation puts fields that restore, and starts no deletion. -/
theorem createChecked_puts (body : CreateBody) :
    (handled (createChecked t body)).Calls (PutsAndStarts t Fields.Restores (· ≠ .delete)) := by
  refine handled_puts ⟨⟨trivial, trivial⟩, fun existing => ?_⟩
  cases existing with
  | none => exact acceptCreate_puts _
  | some existing =>
    simp only [Prog.bind, createExisting]
    split <;> first | exact acceptCreate_puts _ | exact respond_puts _ _

/-- So does a resumption. -/
theorem resume_puts : (resume t).Calls (PutsAndStarts t Fields.Restores (· ≠ .delete)) := by
  refine handled_puts ⟨⟨trivial, trivial⟩, fun item => ?_⟩
  cases item with
  | none => exact respond_puts _ _
  | some item =>
    simp only [Prog.bind]
    split <;> first | exact startJob_puts _ nofun | exact respond_puts _ _

theorem acceptRemove_puts : (acceptRemove t).Calls (PutsAndStarts t Fields.Dooms (· = .delete)) :=
  .bind (upsert_starts ⟨.inr rfl, .inl rfl, rfl⟩) fun _ => startJob_puts _ rfl

/-- A deletion puts fields of one, and starts its job. -/
theorem remove_puts : (remove t).Calls (PutsAndStarts t Fields.Dooms (· = .delete)) := by
  refine handled_puts ⟨⟨trivial, trivial⟩, fun item => ?_⟩
  cases item with
  | none =>
    simp only [Prog.bind]
    exact .bind (upsert_starts ⟨.inr rfl, .inl rfl, rfl⟩) fun _ => acceptRemove_puts
  | some item =>
    simp only [Prog.bind]
    refine .ite (fun _ => ⟨⟨trivial, trivial⟩, fun running => ?_⟩) fun _ => acceptRemove_puts
    exact .ite (fun _ => respond_puts _ _) fun _ => acceptRemove_puts

end Requests

/-- A request and its job put what the request may put. -/
theorem served_puts {J : JobFn → Prop} (hp : p.Calls (PutsAndStarts t F J))
    (hJ : ∀ fn, J fn → (runJob t fn).Calls (Puts t F)) : (served p).Calls (Puts t F) := by
  refine served_calls hp (fun _ h => h.1) fun u fn h => ?_
  obtain ⟨rfl, hfn⟩ := h.2
  exact hJ fn hfn

/-- A job other than a deletion restores. -/
theorem runJob_restores (hfn : fn ≠ .delete) : (runJob t fn).Calls (Puts t Fields.Restores) :=
  ((jobFn_restores hfn).imp fun _ => Restores.puts).ensuring ⟨trivial, fun _ => trivial⟩

/-- A job that deletes puts fields of a deletion. -/
theorem runJob_dooms : (runJob t .delete).Calls (Puts t Fields.Dooms) :=
  (jobFn_deletes.imp fun _ => Deletes.puts).ensuring ⟨trivial, fun _ => trivial⟩

theorem served_createChecked (body : CreateBody) :
    (served (handled (createChecked t body))).Calls (Puts t Fields.Restores) :=
  served_puts (createChecked_puts body) fun _ => runJob_restores

theorem served_resume : (served (resume t)).Calls (Puts t Fields.Restores) :=
  served_puts resume_puts fun _ => runJob_restores

theorem served_remove : (served (remove t)).Calls (Puts t Fields.Dooms) :=
  served_puts remove_puts fun _ h => h ▸ runJob_dooms

theorem suspend_puts : (suspend t).Calls (Puts t Fields.Restores) := by
  have hanswer {F : Fields → Prop} (code : ℕ) (body : Body) : (respond code body).Calls (Puts t F) :=
    ⟨trivial, fun _ => trivial⟩
  refine exceptControlPlane_calls (.tryCatch ?_ fun e => ?_) fun _ => hanswer _ _
  · exact .bind (suspendTenant_restores.imp fun _ => Restores.puts) fun _ => hanswer _ _
  · cases e <;> first | exact hanswer _ _ | trivial

/-! ## What the reconciler writes -/

theorem recordObserved_spares (o : Observed) {st : Status} (error : Option String)
    (hst : ¬st.Doomed) : (recordObserved t o st error).Calls (Puts t Fields.Spares) :=
  upsert_puts (spares_observed hst)

theorem recordGated_spares (o : Observed) (item : Identity) :
    (recordGated t o item).Calls (Puts t Fields.Spares) :=
  .ite (fun _ => recordObserved_spares _ _ (not_or.2 ⟨nofun, nofun⟩)) fun _ =>
    recordObserved_spares _ _ (not_or.2 ⟨nofun, nofun⟩)

/-- An action other than a deletion spares the desired status. -/
theorem act_spares {action : Action} (ha : action ≠ .delete) (tier : String) :
    (act actuators t tier action).Calls (Puts t Fields.Spares) := by
  have hr {α : Type} {p : CP α} (hp : p.Calls (Restores t)) : p.Calls (Puts t Fields.Spares) :=
    hp.imp fun _ hc => hc.puts.mono fun _ => Fields.Restores.spares
  cases action with
  | provision | repair => exact .bind (hr (provision_restores _)) fun _ => trivial
  | suspend => exact .bind (hr suspendTenant_restores) fun _ => trivial
  | resume => exact .bind (hr resumeTenant_restores) fun _ => trivial
  | delete => contradiction
  | none | purgeRegistry => trivial

/-- The status of a failed action towards another state than GONE. -/
theorem failedStatus_ne_gone {desired : Desired} (hd : desired ≠ .gone) (e : ControlPlaneError) :
    ¬(failedStatus desired e).Doomed := by
  unfold failedStatus
  rw [if_neg hd]
  split <;> exact not_or.2 ⟨nofun, nofun⟩

theorem failedStatus_gone (e : ControlPlaneError) : failedStatus .gone e = .deleteFailed := if_pos rfl

/-- What follows a plan for a tenant that is not desired GONE. -/
theorem follow_spares {item : Row} (hd : item.desiredStatus ≠ .gone) (o : Observed) {action : Action}
    (ha : action ≠ .delete) :
    (follow kubectlObserver actuators t item o action).Calls (Puts t Fields.Spares) := by
  have hcarry : (carryOut kubectlObserver actuators t item action).Calls (Puts t Fields.Spares) := by
    refine .bind (exceptControlPlane_calls (act_spares ha _) fun exc => ?_) fun gone => ?_
    · refine .bind (upsert_puts ⟨.inr ⟨_, hd, rfl⟩, fun st h => ?_, rfl⟩) fun _ => trivial
      obtain rfl := Option.some.inj h
      exact failedStatus_ne_gone hd exc
    · refine .ite (fun _ => trivial) fun _ => .bind (puts_of_quiet (get_quiet t)) fun again => ?_
      refine .ite (fun _ => ?_) fun _ => trivial
      exact .bind (puts_of_quiet (get_quiet t)) fun _ =>
        .bind (puts_of_quiet kubectlObserver_quiet) fun _ => .map _ (recordGated_spares _ _)
  cases action with
  | none =>
    refine .ite (fun h => absurd h hd) fun _ => .ite (fun _ => ?_) fun _ => ?_
    · exact .map _ (recordObserved_spares _ _ (not_or.2 ⟨nofun, nofun⟩))
    · exact .map _ (recordGated_spares _ _)
  | purgeRegistry => exact ⟨trivial, fun _ => trivial⟩
  | delete => contradiction
  | provision | repair | suspend | resume => exact hcarry

/-- What follows a plan for a tenant desired GONE. -/
theorem follow_dooms {item : Row} (hd : item.desiredStatus = .gone) (o : Observed) {action : Action}
    (ha : action = .delete ∨ action = .purgeRegistry) :
    (follow kubectlObserver actuators t item o action).Calls (Puts t Fields.Dooms) := by
  rcases ha with rfl | rfl
  · refine .bind (exceptControlPlane_calls (.bind ?_ fun _ => ?_) fun exc => ?_) fun gone => ?_
    · exact deleteTenant_deletes.imp fun _ => Deletes.puts
    · exact .bind (puts_of_quiet (get_quiet t)) fun _ => trivial
    · refine .bind (upsert_puts ⟨.inr (by rw [hd]), .inr ?_, rfl⟩) fun _ => trivial
      rw [hd, failedStatus_gone]
    · refine .ite (fun _ => trivial) fun _ => .bind (puts_of_quiet (get_quiet t)) fun again => ?_
      exact .ite (fun h => absurd (hd.symm.trans h.1) nofun) fun _ => trivial
  · exact ⟨trivial, fun _ => trivial⟩

/-- The plans for a tenant desired GONE. -/
theorem planAction_gone (o : Observed) (st : Status) :
    (planAction .gone o st).action = .delete ∨ (planAction .gone o st).action = .purgeRegistry := by
  simp only [planAction]
  split_ifs <;> simp

/-- No other tenant is deleted by its plan. -/
theorem planAction_ne_delete {d : Desired} (hd : d ≠ .gone) (o : Observed) (st : Status) :
    (planAction d o st).action ≠ .delete := by
  cases d with
  | gone => contradiction
  | _ => simp only [planAction]; split_ifs <;> simp

end

/-! ## Turns on a schedule -/

/-- The play of a schedule on an empty registry, with the answers `a` to all but the store. -/
def playConsole (a : (c : Cmd) → cpSig.Resp c)
    (ok : Turn cpSig Op (String × List (String × LegacyMeta)) → Bool)
    (xs : List (Serial.Move Op Unit)) : Option (Desk cpSig Exn Op Registry) :=
  console.play (fun _ => openAnswer "now" a) (fun _ => ok) ⟨∅, none⟩ xs

end NtierLab
