import NtierLab.ControlPlane.Locality
import NtierLab.ControlPlane.Server

/-!
# Stale writers

An operation that does not start from a request for a tenant writes its row only once
it has read it (`seeing`). So a row that was removed is only written again by a stale
operation, one that had read it, or was started for it, before it was removed:
without those the row stays absent, until it is requested again
(`removed_stays_absent`). With them it does not (`suspended_resurrects`).
-/

namespace NtierLab

open Prog
open NtierLab.System (run_play step_move)

/-- The event shows that the tenant has a row. -/
def Shows (t : TenantId) (e : Event cpSig) : Prop :=
  match e with
  | ⟨.reg (.get u), some _⟩ => u = t
  | ⟨.reg .list, rows⟩ => ∃ row, (t, row) ∈ (rows : List (TenantId × Row))
  | _ => False

/-- The operation is requested for the tenant, to create it, to adopt it or to delete it, or it
    is a job of the tenant. -/
def Op.Requests (t : TenantId) : Op → Prop
  | .createTenant body => body.tenantId = .ok t
  | .remove u | .deleteTenant u | .provision u _ | .job u _ => u = t
  | .adoptTenants tids => tids = [] ∨ t.val ∈ tids
  | _ => False

/-- The monitor of whether the row was seen: only then is it written. -/
def seeing (t : TenantId) : Monitor cpSig Prop where
  allow seen c := c.Writes t → seen
  next seen e := seen ∨ Shows t e

theorem seeing_after {t : TenantId} {seen : Prop} {tr : Trace cpSig} :
    (seeing t).after seen tr ↔ seen ∨ ∃ e ∈ tr, Shows t e := by
  induction tr using List.reverseRecOn with
  | nil => simp
  | append_singleton tr e ih =>
    rw [Monitor.after_concat]
    simp only [seeing] at ih ⊢
    rw [ih]
    simp only [List.mem_append, List.mem_singleton, or_and_right, exists_or, exists_eq_left, or_assoc]

/-! ## The operations see the row before they write it -/

/-- Any response is granted. -/
abbrev anyEvent (_ : Event cpSig) : Prop := True

section Seeing

variable {t u : TenantId} {α β : Type} {p : CP α} {seen : Prop}

/-- Once the row was seen, all is allowed. -/
theorem obeys_seen (hseen : seen) (p : CP α) : p.Obeys (seeing t) anyEvent seen := by
  induction p generalizing seen with
  | ret a => trivial
  | fail e => trivial
  | call c k ih => exact obeys_call.2 ⟨fun _ => hseen, fun r _ => ih r (.inl hseen)⟩

/-- A program that does not write the row need not see it. -/
theorem obeys_of_calls (hp : p.Calls fun c : Cmd => ¬c.Writes t) :
    p.Obeys (seeing t) anyEvent seen :=
  (hp.wp (I := fun _ => True) (fun _ _ hc _ => ⟨fun h => absurd h hc, fun _ _ _ => trivial⟩)
    trivial).imp fun _ _ _ => trivial

theorem Own.not_writes {c : Cmd} (hc : Own u c) (hu : u ≠ t) : ¬c.Writes t := by
  intro h
  unfold Cmd.Writes at h
  split at h
  · exact hu ((hc _ rfl).symm.trans h)
  · exact hu ((hc _ rfl).symm.trans h)
  · exact h

theorem Quiet.not_writes {c : Cmd} (hc : Quiet c) : ¬c.Writes t := by
  intro h
  unfold Cmd.Writes at h
  split at h
  · exact hc
  · exact hc
  · exact h

/-- An operation on another tenant. -/
theorem obeys_own (hp : p.Calls (Own u)) (hu : u ≠ t) : p.Obeys (seeing t) anyEvent seen :=
  obeys_of_calls (hp.imp fun _ hc => hc.not_writes hu)

/-- An operation on `u` that reads its row first, and writes nothing if it is missing. -/
theorem obeys_get {k : Option Row → CP α} (hown : (call (.reg (.get u)) k : CP α).Calls (Own u))
    (hnone : (k none).Calls fun c : Cmd => ¬c.Writes t) :
    (call (.reg (.get u)) k : CP α).Obeys (seeing t) anyEvent seen := by
  by_cases hu : u = t
  · refine obeys_call.2 ⟨fun h => h.elim, fun r _ => ?_⟩
    cases r with
    | none => exact obeys_of_calls hnone
    | some row => exact obeys_seen (.inr hu) _
  · exact obeys_own hown hu

/-- The rows of other tenants are reconciled without writing the row of `t`. -/
theorem reconcileRows_calls {rows : List (TenantId × Row)} (hrows : ∀ row, (t, row) ∉ rows) :
    (reconcileRows kubectlObserver actuators rows).Calls fun c : Cmd => ¬c.Writes t := by
  induction rows with
  | nil => trivial
  | cons p rows ih =>
    obtain ⟨u, row⟩ := p
    have hu : u ≠ t := by
      rintro rfl
      exact hrows row (List.mem_cons_self ..)
    have hown {β : Type} {q : CP β} (hq : q.Calls (Own u)) : q.Calls fun c : Cmd => ¬c.Writes t :=
      hq.imp fun _ hc => hc.not_writes hu
    refine .bind (exceptControlPlane_calls ?_ fun _ => ?_) fun _ => .bind (ih ?_) fun _ => trivial
    · exact .map _ (hown (reconcileOne_own kubectlObserver_quiet actuators_local))
    · exact .bind (hown (upsert_own _)) fun _ => trivial
    · exact fun row h => hrows row (List.mem_cons_of_mem _ h)

/-- A sweep writes the row of `t` only if it has listed it. -/
theorem reconcileAll_obeys :
    (reconcileAll kubectlObserver actuators).Obeys (seeing t) anyEvent seen := by
  refine obeys_call.2 ⟨fun h => h.elim, fun _ _ => ?_⟩
  refine obeys_call.2 ⟨fun h => h.elim, fun _ _ => obeys_call.2 ⟨fun h => h.elim, fun rows _ => ?_⟩⟩
  by_cases hrows : ∃ row, (t, row) ∈ (rows : List (TenantId × Row))
  · exact obeys_seen (.inr hrows) _
  · refine obeys_of_calls ?_
    change (reconcileRows kubectlObserver actuators rows >>= _).Calls _
    exact .bind (reconcileRows_calls (not_exists.1 hrows)) fun _ => trivial

/-- The adoption of other ids does not write the row of `t`. -/
theorem adoptEach_calls (outputs : Outputs) (alb : String) {tids : List String}
    (htids : t.val ∉ tids) :
    (adoptEach outputs alb tids).Calls fun c : Cmd => ¬c.Writes t := by
  induction tids with
  | nil => trivial
  | cons tid tids ih =>
    rw [List.mem_cons, not_or] at htids
    rw [adoptEach]
    split
    · exact ih htids.2
    · next u hu =>
      have hne : u ≠ t := by
        rintro rfl
        exact htids.1 (TenantId.validate_ok hu)
      refine .bind ((adoptTenant_own outputs alb).imp fun _ hc => hc.not_writes hne) fun _ => ?_
      exact .bind (ih htids.2) fun _ => trivial

theorem adoptTenants_calls {tids : List String} (hne : tids ≠ []) (htids : t.val ∉ tids) :
    (adoptTenants tids).Calls fun c : Cmd => ¬c.Writes t := by
  have hids (outputs : Outputs) : adoptIds outputs tids = pure tids := by
    cases tids with
    | nil => contradiction
    | cons => rfl
  refine .bind (tofuOutputs_quiet.imp fun _ hc => hc.not_writes) fun outputs => .bind ?_ fun alb => ?_
  · exact .ite (fun _ => trivial) fun _ => ⟨fun h => h.elim, fun _ => trivial⟩
  · rw [hids]
    exact .ite (fun _ => trivial) fun _ => adoptEach_calls outputs alb htids

/-- Every operation writes the row of `t` only once it has seen it, unless it is requested for
    `t`. -/
theorem Op.obeys (i : Op) : i.prog.Obeys (seeing t) anyEvent (i.Requests t) := by
  by_cases hi : i.Requests t
  · exact obeys_seen hi _
  cases i with
  | createTenant body =>
    rw [Op.prog]
    cases hbody : body.tenantId with
    | error e =>
      rw [createTenant_error hbody]
      exact obeys_of_calls ⟨fun h => h.elim, fun _ => trivial⟩
    | ok u =>
      rw [createTenant_ok hbody]
      exact obeys_own (createChecked_own body) fun h => hi (by rw [Op.Requests, hbody, h])
  | suspend u => exact obeys_get suspend_own ⟨id, fun _ => trivial⟩
  | resume u => exact obeys_get resume_own ⟨id, fun _ => trivial⟩
  | remove u => exact obeys_own remove_own hi
  | job u fn => exact obeys_own (runJob_own fn) hi
  | provision u args => exact obeys_own (provision_own args) hi
  | suspendTenant u => exact obeys_get (.bind suspendTenant_own fun _ => trivial) trivial
  | resumeTenant u => exact obeys_get (.bind resumeTenant_own fun _ => trivial) trivial
  | deleteTenant u => exact obeys_own deleteTenant_own hi
  | reconcileOne u =>
    exact obeys_get (.bind (reconcileOne_own kubectlObserver_quiet actuators_local) fun _ => trivial)
      trivial
  | reconcileAll =>
    refine (wp_bind _ _).2 (wp.imp reconcileAll_obeys fun x _ _ => ?_)
    cases x <;> trivial
  | adoptTenants tids =>
    obtain ⟨hne, htids⟩ := not_or.1 hi
    exact obeys_of_calls (.bind (adoptTenants_calls hne htids) fun _ => trivial)

end Seeing

/-! ## A removed row -/

section Removal

variable {t : TenantId} {s s' : Server} {p₁ p p' : Config cpSig Exn Op Server}
  {l : Label cpSig Op Empty} {ls₁ ls₂ : List (Label cpSig Op Empty)}

/-- A command that does not write a missing row leaves it missing, and does not show it. -/
theorem serverWorld_absent {c : Cmd} {r : cpSig.Resp c} (h : serverWorld c s r s')
    (hc : ¬c.Writes t) (hs : s.registry.get t = none) :
    s'.registry.get t = none ∧ ¬Shows t ⟨c, r⟩ := by
  cases c with
  | reg c =>
    obtain ⟨h, -⟩ := h
    cases c with
    | get u =>
      obtain ⟨rfl, hs'⟩ := openWorld_get.1 h
      refine ⟨hs' ▸ hs, fun hshow => ?_⟩
      unfold Shows at hshow
      split at hshow
      · next u' row heq =>
        obtain ⟨hcmd, hrow⟩ := Event.mk.inj heq
        cases hcmd
        subst hshow
        cases hs.symm.trans (eq_of_heq hrow)
      · next heq => cases heq
      · exact hshow
    | list =>
      obtain ⟨rfl, hs'⟩ := openWorld_list.1 h
      refine ⟨hs' ▸ hs, ?_⟩
      rintro ⟨row, hrow⟩
      cases hs.symm.trans (Registry.mem_list.1 hrow)
    | upsert u v f =>
      obtain ⟨now, hrun⟩ := h
      have hu : s'.registry = (s.registry.upsert now u v f).2 := (congrArg Prod.snd hrun).symm
      exact ⟨by rw [hu, Registry.upsert_get_ne hc, hs], id⟩
    | delete u =>
      obtain ⟨-, hs'⟩ := openWorld_delete.1 h
      refine ⟨?_, id⟩
      by_cases hu : u = t
      · rw [hs', hu, Registry.delete_get_self]
      · rw [hs', Registry.delete_get_ne hu, hs]
  | app c => cases c <;> simp_all [serverWorld, Shows]
  | _ => exact ⟨by rw [show s' = s from h, hs], id⟩

/-- The operation was started for the tenant, or has seen its row. -/
def Informed (t : TenantId) (th : Thread cpSig Exn Op) : Prop :=
  th.op.Requests t ∨ ∃ e ∈ th.hist, Shows t e

/-- A step that does not request the tenant, and in which no operation informed in `p₁` writes
    its row or starts a job for it. -/
def NotStale (t : TenantId) (p₁ : Config cpSig Exn Op Server) :
    System.Guard cpSig Exn Op Empty Server := fun _ l =>
  (∀ i, l = .start i → ¬i.Requests t) ∧
    ∀ n i e, l = .run n i e → Cmd.Writes t e.cmd →
      ∀ th, p₁.threads[n]? = some th → ¬Informed t th

/-- The operations informed in `p` were informed in `p₁`. -/
def InformedBy (t : TenantId) (p₁ p : Config cpSig Exn Op Server) : Prop :=
  ∀ (n : ℕ) th, p.threads[n]? = some th → Informed t th →
    ∃ th₁, p₁.threads[n]? = some th₁ ∧ Informed t th₁

/-- Every job started is for the tenant of a write. -/
theorem started_writes {e : Event cpSig} {i : Op} (hi : i ∈ controlPlane.fork e)
    (hreq : i.Requests t) : Cmd.Writes t e.cmd := by
  simp only [controlPlane, Option.mem_toList, Option.map_eq_some_iff, Prod.exists] at hi
  obtain ⟨u, fn, hu, rfl⟩ := hi
  exact jobStarted_eq hu ▸ hreq

/-- A command that neither writes the row nor shows it informs no operation. -/
theorem InformedBy.run {n : ℕ} {i : Op} {e : Event cpSig} (hp : InformedBy t p₁ p)
    (hst : controlPlane.Step p (.run n i e) p') (hw : ¬Cmd.Writes t e.cmd) (hshow : ¬Shows t e) :
    InformedBy t p₁ p' := by
  intro m th hm hth
  rcases hst.thread_at hm with h | ⟨j, hl, -⟩ | ⟨j, tr, c, k, r, hm', hl, rfl⟩ |
    ⟨_, _, _, j, hl, hj, rfl⟩
  · exact hp m th h hth
  · cases hl
  · cases hl
    refine hp _ _ hm' (hth.imp_right ?_)
    rintro ⟨e, he, hshow'⟩
    rcases List.mem_append.1 he with he | he
    · exact ⟨e, he, hshow'⟩
    · exact absurd (List.mem_singleton.1 he ▸ hshow') hshow
  · cases hl
    rcases hth with hth | ⟨e, he, -⟩
    · exact absurd (started_writes hj hth) hw
    · cases he

/-- A request for another tenant informs no operation. -/
theorem InformedBy.start {i : Op} (hp : InformedBy t p₁ p)
    (hst : controlPlane.Step p (.start i) p') (hi : ¬i.Requests t) : InformedBy t p₁ p' := by
  intro m th hm hth
  rcases hst.thread_at hm with h | ⟨j, hl, rfl⟩ | ⟨_, _, _, _, _, -, hl, -⟩ | ⟨_, _, _, _, hl, -⟩
  · exact hp m th h hth
  · cases hl
    rcases hth with hth | ⟨e, he, -⟩
    · exact absurd hth hi
    · cases he
  · cases hl
  · cases hl

/-- A step that is not stale keeps the row absent, and informs no further operation. -/
theorem removed_step (hobeys : p.Obeys (seeing t) anyEvent (Op.Requests t))
    (hrow : p.world.registry.get t = none) (hp : InformedBy t p₁ p) (hg : NotStale t p₁ p l)
    (hst : controlPlane.Step p l p') :
    p'.world.registry.get t = none ∧ InformedBy t p₁ p' := by
  cases l with
  | start i =>
    have hp' := hp.start hst (hg.1 i rfl)
    cases hst
    exact ⟨hrow, hp'⟩
  | run n i e =>
    obtain ⟨tr, k, hn, hw, -⟩ := hst.run_inv
    -- A write is one of an informed operation, which was informed when the row was removed.
    have he : ¬Cmd.Writes t e.cmd := fun he => by
      obtain ⟨th, hth, rfl, hall⟩ := hst.allow hobeys
      obtain ⟨th₁, hth₁, hinf⟩ := hp n th hth (seeing_after.1 (hall he))
      exact hg.2 n _ e rfl he th₁ hth₁ hinf
    obtain ⟨hrow', hshow⟩ := serverWorld_absent hw he hrow
    exact ⟨hrow', hp.run hst he hshow⟩
  | env x => cases x

/-- A row removed stays absent until the tenant is requested again, if from then on no operation
    that had seen the row, or was started for the tenant, writes it or starts a job for it. -/
theorem removed_stays_absent {m : ℕ} {i : Op} {p₂ p₃ : Config cpSig Exn Op Server}
    (h₁ : controlPlane.Run (fun _ _ => True) (.new s) ls₁ p₁)
    (hdel : controlPlane.Step p₁ (.run m i ⟨.reg (.delete t), true⟩) p₂)
    (h₂ : controlPlane.Run (NotStale t p₁) p₂ ls₂ p₃) : p₃.world.registry.get t = none := by
  have hany (c : Cmd) (w : Server) (r : cpSig.Resp c) (w' : Server) :
      controlPlane.step c w r w' → anyEvent ⟨c, r⟩ := fun _ => trivial
  have ho₁ := h₁.obeys Op.obeys hany (Config.obeys_new (seeing t) anyEvent (Op.Requests t) s)
  have ho₂ := hdel.obeys Op.obeys (fun _ _ _ _ => trivial) ho₁
  -- The removal itself.
  obtain ⟨tr, k, hn, hw, -⟩ := hdel.run_inv
  have hrow₂ : p₂.world.registry.get t = none := by
    rw [(openWorld_delete.1 hw.1).2, Registry.delete_get_self]
  have hinf₂ : InformedBy t p₁ p₂ :=
    InformedBy.run (fun n th h hth => ⟨th, h, hth⟩) hdel id id
  -- The steps after it.
  have hinv := h₂.invariant
    (I := fun _ p => p.Obeys (seeing t) anyEvent (Op.Requests t) ∧
      p.world.registry.get t = none ∧ InformedBy t p₁ p)
    ⟨ho₂, hrow₂, hinf₂⟩ fun _ _ _ _ hp hg hst =>
      ⟨hst.obeys Op.obeys (fun _ _ _ _ => trivial) hp.1, removed_step hp.1 hp.2.1 hp.2.2 hg hst⟩
  exact hinv.2.1

end Removal

/-! ## Removals on a schedule -/

/-- A server with the ACTIVE tenant `a`. -/
def serving : Server where
  registry := (Registry.upsert ∅ "now" .a none { status := some .active }).2
  inflight := ∅

/-- The play of a schedule, every command succeeding. -/
def playAll (ok : Label cpSig Op Empty → Bool) (p : Config cpSig Exn Op Server)
    (xs : List (System.Move Op Empty Unit)) :
    Option (List (Label cpSig Op Empty) × Config cpSig Exn Op Server) :=
  controlPlane.play (fun _ => serverAnswer "now" succeeding) (fun _ _ => none) (fun _ l => ok l) p xs

/-- Whether a step removes the row of `a`. -/
def removesA : Label cpSig Op Empty → Bool
  | .run _ _ ⟨.reg (.delete t), true⟩ => t = .a
  | _ => false

theorem removesA_eq {l : Label cpSig Op Empty} (h : removesA l = true) :
    ∃ n i, l = .run n i ⟨.reg (.delete .a), true⟩ := by
  unfold removesA at h
  split at h
  · exact ⟨_, _, by rw [of_decide_eq_true h]⟩
  · cases h

/-- A schedule up to the removal of the row of `a`, by a step of the thread `m`, and a schedule
    after it, whose labels are `ok`: whether the row is there in the end. -/
def playRemoval (ok : Label cpSig Op Empty → Bool) (before : List (System.Move Op Empty Unit))
    (m : ℕ) (after : List (System.Move Op Empty Unit)) : Option Bool := do
  let q₁ ← playAll (fun _ => true) (.new serving) before
  let q₂ ← controlPlane.move (fun _ => serverAnswer "now" succeeding) (fun _ _ => none) q₁.2 (.run m ())
  if removesA q₂.1 then
    (playAll ok q₂.2 after).map fun q₃ => (q₃.2.world.registry.get .a).isSome
  else none

/-- What is played is a removal, with the steps before and after it. -/
theorem playRemoval_run {ok : Label cpSig Op Empty → Bool} {m : ℕ} {b : Bool}
    {before after : List (System.Move Op Empty Unit)}
    (h : playRemoval ok before m after = some b) :
    ∃ ls₁ p₁ n i p₂ ls₂ p₃, controlPlane.Run (fun _ _ => True) (.new serving) ls₁ p₁ ∧
      controlPlane.Step p₁ (.run n i ⟨.reg (.delete .a), true⟩) p₂ ∧
      controlPlane.Run (fun _ l => ok l = true) p₂ ls₂ p₃ ∧
      (p₃.world.registry.get .a).isSome = b := by
  have hf (x : Unit) := serverAnswer_step "now" succeeding
  have hg (x : Empty) (w w' : Server) : none = some w' → controlPlane.env x w w' := nofun
  simp only [playRemoval, playAll, Option.bind_eq_bind, Option.bind_eq_some_iff] at h
  obtain ⟨⟨ls₁, p₁⟩, h₁, ⟨l, p₂⟩, h₂, h⟩ := h
  split at h
  · next hrem =>
    obtain ⟨n, i, rfl⟩ := removesA_eq hrem
    obtain ⟨⟨ls₂, p₃⟩, h₃, hb⟩ := Option.map_eq_some_iff.1 h
    exact ⟨ls₁, p₁, n, i, p₂, ls₂, p₃, (run_play hf hg h₁).weaken fun _ _ _ => trivial,
      step_move hf hg h₂, run_play hf hg h₃, hb⟩
  · cases h

/-- The schedule of a deletion of `a` by the thread `m`, up to the removal of its row. -/
def deletion (m : ℕ) : List (System.Move Op Empty Unit) :=
  .start (.deleteTenant .a) :: List.replicate 20 (.run m ())

/-- A step that suspends, reads a row, or answers. -/
def readsOnly : Label cpSig Op Empty → Bool
  | .start (.suspendTenant _) => true
  | .run _ _ ⟨.reg (.get _), _⟩ => true
  | .run _ _ ⟨.app (.respond _ _), _⟩ => true
  | _ => false

/-- The row of a tenant deleted stays absent: a request to suspend it that read the row while it was
    being deleted is answered after the removal, and a suspension after that finds no row. -/
theorem removed_stays_absent_suspended : ∃ ls₁ p₁ m i p₂ ls₂ p₃,
    controlPlane.Run (fun _ _ => True) (.new serving) ls₁ p₁ ∧
    controlPlane.Step p₁ (.run m i ⟨.reg (.delete .a), true⟩) p₂ ∧
    controlPlane.Run (NotStale .a p₁) p₂ ls₂ p₃ ∧ p₃.world.registry.get .a = none := by
  have hplay : playRemoval readsOnly
      (.start (.deleteTenant .a) :: List.replicate 2 (.run 0 ()) ++
        [.start (.suspend .a), .run 1 ()] ++ List.replicate 18 (.run 0 ())) 0
      [.run 1 (), .start (.suspendTenant .a), .run 2 ()] = some false := rfl
  obtain ⟨ls₁, p₁, n, i, p₂, ls₂, p₃, h₁, h₂, h₃, -⟩ := playRemoval_run hplay
  have h₃' : controlPlane.Run (NotStale .a p₁) p₂ ls₂ p₃ := h₃.weaken fun _ l hl => by
    unfold readsOnly at hl
    split at hl
    · refine ⟨fun i hi => ?_, fun _ _ _ h => nomatch h⟩
      cases hi
      exact id
    · refine ⟨fun _ h => (nomatch h), fun n i e hi hw => ?_⟩
      cases hi
      exact hw.elim
    · refine ⟨fun _ h => (nomatch h), fun n i e hi hw => ?_⟩
      cases hi
      exact hw.elim
    · cases hl
  exact ⟨ls₁, p₁, n, i, p₂, ls₂, p₃, h₁, h₂, h₃', removed_stays_absent h₁ h₂ h₃'⟩

/-- A tenant deleted while it is suspended is there again after its deletion, with no further
    request for it: the suspension records its status last. -/
theorem suspended_resurrects :
    ¬∀ (t : TenantId) (s : Server) ls₁ ls₂ p₁ p₂ p₃ m i,
      controlPlane.Run (fun _ _ => True) (.new s) ls₁ p₁ →
      controlPlane.Step p₁ (.run m i ⟨.reg (.delete t), true⟩) p₂ →
      controlPlane.Run (fun _ l => ∀ i, l = .start i → ¬i.Requests t) p₂ ls₂ p₃ →
      p₃.world.registry.get t = none := by
  intro h
  have hplay : playRemoval (fun l => match l with | .run _ _ _ => true | _ => false)
      ([.start (.suspendTenant .a), .run 0 (), .run 0 (), .run 0 ()] ++ deletion 1) 1 [.run 0 ()] =
      some true := rfl
  obtain ⟨ls₁, p₁, n, i, p₂, ls₂, p₃, h₁, h₂, h₃, hrow⟩ := playRemoval_run hplay
  have hnone := h .a serving ls₁ ls₂ p₁ p₂ p₃ n i h₁ h₂ (h₃.weaken fun _ l hl j hj => by
    subst hj
    cases hl)
  rw [hnone] at hrow
  cases hrow

end NtierLab
