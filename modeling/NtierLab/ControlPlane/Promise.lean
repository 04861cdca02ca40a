import NtierLab.ControlPlane.Accepted

/-!
# The promise of a 202

A request answered 202 is not dropped (`Honoured`) in every run in which the tenant has one
request at a time (`OneAtATime`), whatever its jobs do and however they end.

* `Slotted`: the tenants in flight are those with a job that has not ended, and have one;
* `Sound`: what every step keeps of the threads and of the registry;
* `accepted_honoured`: the requests are honoured;
* `dropped_deletion`: without the guard they are not.
-/

namespace NtierLab

open Prog
open NtierLab.System (Guard Run Step run_play)

/-- The requests and the jobs of a tenant. -/
def Request.Of (t : TenantId) : Request → Prop
  | .createTenant body => body.tenantId = .ok t
  | .resume u | .remove u | .job u _ => u = t

/-- The request creates the tenant. -/
def Request.Creates (t : TenantId) : Request → Prop
  | .createTenant body => body.tenantId = .ok t
  | _ => False

/-- The requests to create or to resume the tenant, and the jobs they start. -/
def Request.Revives (t : TenantId) : Request → Prop
  | .createTenant body => body.tenantId = .ok t
  | .resume u => u = t
  | .remove _ => False
  | .job u fn => u = t ∧ fn ≠ .delete

/-- Jobs are started by requests only. -/
def Requested : Guard cpSig Exn Request Empty Server := fun _ l =>
  ∀ u fn, l ≠ .start (.job u fn)

/-- One request at a time. When a request to create or to resume the tenant writes its row or
    asks for its job, every other request and job of the tenant has finished; when a request to
    delete it does anything after its first reading, every request to create or to resume it
    has finished, with its job. -/
def OneAtATime (t : TenantId) : Guard cpSig Exn Request Empty Server := fun p l =>
  ∀ n i e, l = .run n i e →
    (i.Creates t ∨ i = .resume t → Cmd.Writes t e.cmd →
      ∀ m th, m ≠ n → p.threads[m]? = some th → th.op.Of t → Finished th.hist) ∧
    (i = .remove t → e.cmd ≠ .reg (.get t) →
      ∀ th ∈ p.threads, th.op.Revives t → Finished th.hist)

/-- Whether the deletion of the tenant is promised after a step: from a request to delete it
    answered 202, to the next request to create it. -/
def promise (t : TenantId) (b : Prop) : Label cpSig Request Empty → Prop
  | .start i => b ∧ ¬i.Creates t
  | .run _ i e => b ∨ (i = .remove t ∧ Answers 202 e)
  | .env _ => b

def Promised (t : TenantId) (ls : List (Label cpSig Request Empty)) : Prop :=
  ls.foldl (promise t) False

/-- The job `m` had not ended when the request `n` to delete the tenant asked for one, or found
    one in flight. -/
def Serves (t : TenantId) (ls : List (Label cpSig Request Empty)) (m n : ℕ) : Prop :=
  ∃ ls₁ ls₂ e, ls = ls₁ ++ .run n (.remove t) e :: ls₂ ∧ Handed t [e] ∧
    ∀ i e', .run m i e' ∈ ls₁ → ¬Finishes e'

/-- The requests answered 202 are not dropped: a tenant whose deletion is promised has no row, or
    is desired GONE, and a job to delete it runs, or has run, since it was asked for; a request
    to create it that wrote its row, and a request to resume it, have started their own job. -/
structure Honoured (t : TenantId) (ls : List (Label cpSig Request Empty))
    (p : Config cpSig Exn Request Server) : Prop where
  gone : Promised t ls → ∀ row, p.world.registry.get t = some row → row.desiredStatus = .gone
  removed : ∀ (n : ℕ) th, p.threads[n]? = some th → th.op = .remove t →
    (∃ e ∈ th.hist, Answers 202 e) → ∃ (m : ℕ) (th' : Thread cpSig Exn Request),
      p.threads[m]? = some th' ∧ th'.op = .job t .delete ∧ Serves t ls m n
  created : ∀ th ∈ p.threads, ∀ body, th.op = .createTenant body → body.tenantId = .ok t →
    (∃ e ∈ th.hist, WritesRow e) → (∃ e ∈ th.hist, Answers 202 e) →
    (∃ e ∈ th.hist, Enters t body.job true e) ∧ ∃ th' ∈ p.threads, th'.op = .job t body.job
  resumed : ∀ th ∈ p.threads, th.op = .resume t → (∃ e ∈ th.hist, Answers 202 e) →
    (∃ e ∈ th.hist, Enters t .resume true e) ∧ ∃ th' ∈ p.threads, th'.op = .job t .resume

/-- The tenant has no row, or one of a tenant being deleted. -/
def Doomed (t : TenantId) (s : Registry) : Prop :=
  ∀ row, s.get t = some row →
    row.desiredStatus = .gone ∧ (row.status = .deleting ∨ row.status = .deleteFailed)

/-- The fields of a deletion leave the tenant as one being deleted. -/
theorem Doomed.written {t : TenantId} {s : Registry} {f : Fields} {now : String} (hf : f.Dooms)
    (h : f.desiredStatus = Fields.desire .gone ∨ Doomed t s) :
    Doomed t (Std.ExtTreeMap.insert s t (s.written now t f)) := by
  intro row hrow
  rw [Registry.get_insert_self] at hrow
  obtain rfl := Option.some.inj hrow
  refine ⟨?_, hf.2.1.imp (fun h => Registry.written_status h (by simp)) fun h =>
    Registry.written_status h (by simp)⟩
  rcases hf.1 with hd | hd
  · -- The desired status is the one it was, or inferred from the status.
    have hs := h.resolve_left (by simp [hd])
    unfold Registry.written
    cases hrow : s.get t with
    | some row => simpa [Row.update, Fields.desired, hd] using (hs row hrow).1
    | none => rcases hf.2.1 with h | h <;> simp [Row.insert, Fields.desired, hd, Row.inferDesired,
        Row.insertStatus, h]
  · exact Registry.written_desiredStatus hd

/-- The row of the tenant changes with the writes and the deletions of it only. -/
theorem serverWorld_registry {t : TenantId} {s s' : Server} {c : Cmd} {r : cpSig.Resp c}
    (h : serverWorld c s r s') (hupsert : ∀ v f, c ≠ .reg (.upsert t v f))
    (hdelete : c ≠ .reg (.delete t)) : s'.registry.get t = s.registry.get t := by
  cases c with
  | reg c =>
    obtain ⟨h, -⟩ := h
    cases c with
    | get u => rw [(openWorld_get.1 h).2]
    | list => rw [(openWorld_list.1 h).2]
    | upsert u v f =>
      obtain ⟨now, hrun⟩ := h
      have hu : u ≠ t := by
        rintro rfl
        exact hupsert v f rfl
      rw [← show (s.registry.upsert now u v f).2 = s'.registry from congrArg Prod.snd hrun,
        Registry.upsert_get_ne hu]
    | delete u =>
      have hu : u ≠ t := by
        rintro rfl
        exact hdelete rfl
      rw [(openWorld_delete.1 h).2, Registry.delete_get_ne hu]
  | app c =>
    cases c with
    | inFlight u => rw [h.2]
    | enter u fn => rw [h.2]
    | discard u => rw [show s' = { s with inflight := s.inflight.erase u } from h]
    | respond code body => rw [show s' = s from h]
  | _ => rw [show s' = s from h]

/-- A job of the tenant that has not ended. -/
def Runs (t : TenantId) (th : Thread cpSig Exn Request) : Prop :=
  (∃ fn, th.op = .job t fn) ∧ ¬Finished th.hist

/-- A request that has begun to delete the tenant and is not answered, or a job that deletes it. -/
def Removing (t : TenantId) (th : Thread cpSig Exn Request) : Prop :=
  ¬Finished th.hist ∧ (th.op = .remove t ∧ Committed t th.hist ∨ th.op = .job t .delete)

/-- A request answered 202 has asked for its job, or found one to do its work. -/
def AnsweredRightly (th : Thread cpSig Exn Request) : Prop :=
  (∃ e ∈ th.hist, Answers 202 e) → match th.op with
    | .createTenant body => (∃ e ∈ th.hist, WritesRow e) →
      ∃ u, body.tenantId = .ok u ∧ ∃ e ∈ th.hist, ∃ begun, Enters u body.job begun e
    | .resume t => ∃ e ∈ th.hist, ∃ begun, Enters t .resume begun e
    | .remove t => Handed t th.hist
    | .job _ _ => True

section

variable {t : TenantId} {ls : List (Label cpSig Request Empty)} {l : Label cpSig Request Empty}
  {p p' : Config cpSig Exn Request Server} {n : ℕ} {i : Request} {e : Event cpSig}

/-- The jobs of the tenant that have not ended are the one in flight, if there is one. -/
structure Slotted (t : TenantId) (p : Config cpSig Exn Request Server) : Prop where
  one : ∀ (n m : ℕ) th th', p.threads[n]? = some th → p.threads[m]? = some th' → Runs t th →
    Runs t th' → n = m
  inflight : t ∈ p.world.inflight ↔ ∃ th ∈ p.threads, Runs t th

/-- What a thread did in a step: nothing, it issued the command, or it is the job just started. -/
theorem thread_cases (hst : api.Step p (.run n i e) p') {m : ℕ} {th : Thread cpSig Exn Request}
    (hm : p'.threads[m]? = some th) :
    p.threads[m]? = some th ∨
      (∃ th₀, p.threads[m]? = some th₀ ∧ m = n ∧ th₀.op = i ∧ th.op = i ∧ th.hist = th₀.hist ++ [e]) ∨
      ∃ u fn, e = ⟨.app (.enter u fn), true⟩ ∧ m = p.threads.length ∧ th.op = .job u fn ∧
        th.hist = [] := by
  obtain ⟨tr, k, hn, -, hthreads⟩ := hst.run_inv
  rw [hthreads] at hm
  rcases Nat.lt_or_ge m p.threads.length with hlt | hge
  · rw [List.getElem?_append_left (by simpa using hlt), List.getElem?_set] at hm
    split at hm
    · next hmn =>
      subst hmn
      rw [if_pos hlt] at hm
      obtain rfl := Option.some.inj hm
      exact .inr (.inl ⟨_, hn, rfl, rfl, rfl, rfl⟩)
    · exact .inl hm
  · rw [List.getElem?_append_right (by simpa using hge), List.length_set] at hm
    obtain ⟨j, hj, rfl⟩ := List.mem_map.1 (List.mem_of_getElem? hm)
    obtain ⟨u, fn, rfl, rfl⟩ := api_fork.1 hj
    have hlen : m - p.threads.length < 1 := (List.getElem?_eq_some_iff.1 hm).1
    exact .inr (.inr ⟨u, fn, rfl, by omega, rfl, rfl⟩)

/-- The thread of a step, before and after it. -/
theorem thread_ran (hst : api.Step p (.run n i e) p') :
    ∃ th th', p.threads[n]? = some th ∧ p'.threads[n]? = some th' ∧ th.op = i ∧ th'.op = i ∧
      th'.hist = th.hist ++ [e] := by
  obtain ⟨tr, k, hn, -, hthreads⟩ := hst.run_inv
  refine ⟨_, ⟨i, tr ++ [e], k e.resp⟩, hn, ?_, rfl, rfl, rfl⟩
  have hlt := (List.getElem?_eq_some_iff.1 hn).1
  rw [hthreads, List.getElem?_append_left (by simpa using hlt), List.getElem?_set_self hlt]

/-- The other threads stay. -/
theorem thread_stays (hst : api.Step p (.run n i e) p') {m : ℕ} {th : Thread cpSig Exn Request}
    (hm : p.threads[m]? = some th) (hne : m ≠ n) : p'.threads[m]? = some th := by
  obtain ⟨tr, k, hn, -, hthreads⟩ := hst.run_inv
  have hlt := (List.getElem?_eq_some_iff.1 hm).1
  rw [hthreads, List.getElem?_append_left (by simpa using hlt), List.getElem?_set_ne (Ne.symm hne), hm]

/-- A thread keeps its place and its operation. -/
theorem op_stays_at (hst : api.Step p (.run n i e) p') {m : ℕ} {th : Thread cpSig Exn Request}
    (hm : p.threads[m]? = some th) : ∃ th', p'.threads[m]? = some th' ∧ th'.op = th.op := by
  by_cases hne : m = n
  · obtain ⟨th₀, th', h₀, h', hop₀, hop', -⟩ := thread_ran hst
    rw [hne, h₀] at hm
    obtain rfl := Option.some.inj hm
    exact ⟨th', hne ▸ h', hop'.trans hop₀.symm⟩
  · exact ⟨th, thread_stays hst hm hne, rfl⟩

theorem op_stays (hst : api.Step p (.run n i e) p') {j : Request} (h : ∃ th ∈ p.threads, th.op = j) :
    ∃ th ∈ p'.threads, th.op = j := by
  obtain ⟨th, hth, rfl⟩ := h
  obtain ⟨m, hm⟩ := List.mem_iff_getElem?.1 hth
  obtain ⟨th', hm', hop⟩ := op_stays_at hst hm
  exact ⟨th', List.mem_of_getElem? hm', hop⟩

/-- What the protocol allows in a step. -/
theorem allowed (hst : api.Step p (.run n i e) p') (hp : p.Obeys protocol StoreOk fun i => (i, [])) :
    ∃ th, p.threads[n]? = some th ∧ th.op = i ∧ ¬Finished th.hist ∧ i.Allows th.hist e.cmd := by
  obtain ⟨th, hn, hop, hallow⟩ := hst.allow hp
  rw [protocol_after] at hallow
  exact ⟨th, hn, hop, hallow.1, hallow.2⟩

/-! ## The job in flight -/

/-- A job running after a step ran before it, or was started by it. -/
theorem runs_before (hst : api.Step p (.run n i e) p') (he : ∀ fn, ¬Enters t fn true e) {m : ℕ}
    {th : Thread cpSig Exn Request} (hm : p'.threads[m]? = some th) (hth : Runs t th) :
    ∃ th₀, p.threads[m]? = some th₀ ∧ Runs t th₀ ∧ th₀.op = th.op := by
  rcases thread_cases hst hm with h | ⟨th₀, h₀, -, hop₀, hop, hhist⟩ | ⟨u, fn, rfl, -, hop, -⟩
  · exact ⟨th, h, hth, rfl⟩
  · refine ⟨th₀, h₀, ⟨by rw [hop₀, ← hop]; exact hth.1, fun hfin => hth.2 ?_⟩, hop₀.trans hop.symm⟩
    obtain ⟨e', he', hfin⟩ := hfin
    exact ⟨e', hhist ▸ List.mem_append_left _ he', hfin⟩
  · obtain ⟨⟨g, hg⟩, -⟩ := hth
    cases hop.symm.trans hg
    exact absurd ⟨rfl, rfl, rfl⟩ (he fn)

/-- A job running before a step runs after it, unless it ends in it. -/
theorem runs_after (hst : api.Step p (.run n i e) p') {m : ℕ} {th : Thread cpSig Exn Request}
    (hm : p.threads[m]? = some th) (hth : Runs t th) (he : m = n → ¬Finishes e) :
    ∃ th', p'.threads[m]? = some th' ∧ Runs t th' := by
  by_cases hmn : m = n
  · obtain ⟨th₀, th', h₀, h', hop₀, hop', hhist⟩ := thread_ran hst
    rw [hmn, h₀] at hm
    obtain rfl := Option.some.inj hm
    refine ⟨th', hmn ▸ h', by rw [hop', ← hop₀]; exact hth.1, ?_⟩
    rw [hhist]
    exact not_finished_concat hth.2 (he hmn)
  · exact ⟨th, thread_stays hst hm hmn, hth⟩

/-- The tenants in flight change with the jobs asked for and ended only. -/
theorem serverWorld_inflight {s s' : Server} {c : Cmd} {r : cpSig.Resp c} (h : serverWorld c s r s')
    (henter : ∀ fn, c ≠ .app (.enter t fn)) (hdiscard : c ≠ .app (.discard t)) :
    t ∈ s'.inflight ↔ t ∈ s.inflight := by
  cases c with
  | reg c => rw [h.2]
  | app c =>
    cases c with
    | inFlight u => rw [h.2]
    | enter u fn =>
      have hu : t ≠ u := by
        rintro rfl
        exact henter fn rfl
      rw [h.2, Finset.mem_insert, or_iff_right hu]
    | discard u =>
      have hu : t ≠ u := by
        rintro rfl
        exact hdiscard rfl
      rw [show s' = { s with inflight := s.inflight.erase u } from h, Finset.mem_erase,
        and_iff_right hu]
    | respond code body => rw [show s' = s from h]
  | _ => rw [show s' = s from h]

/-- A step that neither starts nor ends a job of the tenant. -/
theorem Slotted.keep (hp : Slotted t p) (hst : api.Step p (.run n i e) p')
    (he : ∀ fn, ¬Enters t fn true e) (hfin : ∀ fn, i = .job t fn → ¬Finishes e)
    (hin : t ∈ p'.world.inflight ↔ t ∈ p.world.inflight) : Slotted t p' where
  one k m th th' hk hm hth hth' := by
    obtain ⟨_, h₁, hr₁, -⟩ := runs_before hst he hk hth
    obtain ⟨_, h₂, hr₂, -⟩ := runs_before hst he hm hth'
    exact hp.one k m _ _ h₁ h₂ hr₁ hr₂
  inflight := by
    rw [hin, hp.inflight]
    constructor
    · rintro ⟨th, hth, hr⟩
      obtain ⟨m, hm⟩ := List.mem_iff_getElem?.1 hth
      obtain ⟨th', hm', hr'⟩ := runs_after hst hm hr fun hmn => by
        obtain ⟨th₀, -, h₀, -, hop₀, -⟩ := thread_ran hst
        rw [hmn, h₀] at hm
        obtain rfl := Option.some.inj hm
        obtain ⟨fn, hfn⟩ := hr.1
        exact hfin fn (hop₀.symm.trans hfn)
      exact ⟨th', List.mem_of_getElem? hm', hr'⟩
    · rintro ⟨th, hth, hr⟩
      obtain ⟨m, hm⟩ := List.mem_iff_getElem?.1 hth
      obtain ⟨th₀, h₀, hr₀, -⟩ := runs_before hst he hm hr
      exact ⟨th₀, List.mem_of_getElem? h₀, hr₀⟩

/-- The job in flight, if there is one, is the only one that has not ended. -/
theorem Slotted.run (hp : Slotted t p) (hobeys : p.Obeys protocol StoreOk fun i => (i, []))
    (hst : api.Step p (.run n i e) p') : Slotted t p' := by
  obtain ⟨th₀, h₀, hop₀, hfin₀, hallow⟩ := allowed hst hobeys
  obtain ⟨tr, k, hn, hw, hthreads⟩ := hst.run_inv
  obtain ⟨c, r⟩ := e
  by_cases henter : ∃ fn, c = .app (.enter t fn)
  · obtain ⟨fn, rfl⟩ := henter
    have hjob (g : JobFn) : i ≠ .job t g := by
      rintro rfl
      exact False.elim hallow
    obtain ⟨(hr : r = decide (t ∉ p.world.inflight)), hw'⟩ := hw
    by_cases hin : t ∈ p.world.inflight
    · -- A job is in flight: none is started.
      refine hp.keep hst (fun g hg => ?_) (fun g hg => absurd hg (hjob g)) ?_
      · obtain ⟨-, -, hg⟩ := hg
        rw [hr] at hg
        exact of_decide_eq_true hg hin
      · rw [hw']
        simp [hin]
    · -- None is in flight: the job started is the only one.
      have hnew {m : ℕ} {th : Thread cpSig Exn Request} (hm : p'.threads[m]? = some th)
          (hr' : Runs t th) : m = p.threads.length := by
        rcases thread_cases hst hm with h | ⟨_, -, -, -, hop, -⟩ | ⟨_, _, -, hlen, -, -⟩
        · exact absurd (hp.inflight.2 ⟨th, List.mem_of_getElem? h, hr'⟩) hin
        · obtain ⟨⟨g, hg⟩, -⟩ := hr'
          exact absurd (hop.symm.trans hg) (hjob g)
        · exact hlen
      refine ⟨fun k m th th' hk hm hth hth' => (hnew hk hth).trans (hnew hm hth').symm, ?_⟩
      rw [hw']
      refine iff_of_true (Finset.mem_insert_self ..) ⟨api.thread (.job t fn), ?_, ⟨fn, rfl⟩, not_finished_nil⟩
      rw [hthreads]
      refine List.mem_append_right _ (List.mem_map.2 ⟨_, api_fork.2 ⟨t, fn, ?_, rfl⟩, rfl⟩)
      rw [hr, decide_eq_true hin]
  · have he (fn : JobFn) : ¬Enters t fn true ⟨c, r⟩ := fun h => henter ⟨fn, congrArg Event.cmd h.eq⟩
    by_cases hdiscard : c = .app (.discard t)
    · -- The job in flight ends: no other was running.
      subst hdiscard
      obtain ⟨fn, rfl⟩ := hallow.discard
      have hnone {m : ℕ} {th : Thread cpSig Exn Request} (hm : p'.threads[m]? = some th) :
          ¬Runs t th := by
        intro hr
        rcases thread_cases hst hm with h | ⟨_, -, -, -, -, hhist⟩ | ⟨_, _, h, -⟩
        · have hmn := hp.one m n _ _ h h₀ hr ⟨⟨fn, hop₀⟩, hfin₀⟩
          obtain ⟨_, th', -, h', -, -, hhist⟩ := thread_ran hst
          rw [hmn, h'] at hm
          obtain rfl := Option.some.inj hm
          exact hr.2 (hhist ▸ ⟨_, mem_last, trivial⟩)
        · exact hr.2 (hhist ▸ ⟨_, mem_last, trivial⟩)
        · cases h
      refine ⟨fun k m th th' hk _ hth _ => absurd hth (hnone hk), ?_⟩
      rw [show p'.world = { p.world with inflight := p.world.inflight.erase t } from hw]
      refine iff_of_false (Finset.notMem_erase _ _) ?_
      rintro ⟨th, hth, hr⟩
      obtain ⟨m, hm⟩ := List.mem_iff_getElem?.1 hth
      exact hnone hm hr
    · refine hp.keep hst he (fun fn hi hfin => hdiscard ?_) ?_
      · subst hi
        exact hallow.finishes hfin
      · exact serverWorld_inflight hw (fun fn h => henter ⟨fn, h⟩) hdiscard

/-! ## The steps of a thread -/

/-- What is kept of the threads and of the registry. -/
structure Sound (t : TenantId) (ls : List (Label cpSig Request Empty))
    (p : Config cpSig Exn Request Server) : Prop where
  obeys : p.Obeys protocol StoreOk fun i => (i, [])
  slotted : Slotted t p
  /-- A job that was started has a thread. -/
  begun : ∀ th ∈ p.threads, ∀ e ∈ th.hist, ∀ fn, Enters t fn true e →
    ∃ th' ∈ p.threads, th'.op = .job t fn
  /-- A request to create or to resume the tenant is not refused its job. -/
  admitted : ∀ th ∈ p.threads, th.op.Revives t → ∀ e ∈ th.hist, ∀ fn begun,
    Enters t fn begun e → begun = true
  /-- The events of a run are those of its threads. -/
  logged : ∀ n i e, .run n i e ∈ ls → ∃ th, p.threads[n]? = some th ∧ e ∈ th.hist
  handed : ∀ (n : ℕ) th, p.threads[n]? = some th → th.op = .remove t → Handed t th.hist →
    ∃ (m : ℕ) (th' : Thread cpSig Exn Request),
      p.threads[m]? = some th' ∧ th'.op = .job t .delete ∧ Serves t ls m n
  answered : ∀ th ∈ p.threads, AnsweredRightly th
  doomed : Promised t ls ∨ (∃ th ∈ p.threads, Removing t th) →
    Doomed t p.world.registry ∧ ∀ th ∈ p.threads, Runs t th → th.op = .job t .delete
  clear : Promised t ls → ∀ th ∈ p.threads, ¬Finished th.hist →
    ¬th.op.Creates t ∧ (th.op = .resume t → ∀ e ∈ th.hist, ¬ReadsSuspended t e)

theorem promised_concat : Promised t (ls ++ [l]) ↔ promise t (Promised t ls) l := by
  simp [Promised]

theorem Serves.concat {m k : ℕ} (h : Serves t ls m k) : Serves t (ls ++ [l]) m k := by
  obtain ⟨ls₁, ls₂, e, rfl, h⟩ := h
  exact ⟨ls₁, ls₂ ++ [l], e, by simp, h⟩

/-- A job that is started has a thread, and had none before. -/
theorem job_started {fn : JobFn} (hst : api.Step p (.run n i e) p') (he : Enters t fn true e) :
    ∃ (m : ℕ) (th : Thread cpSig Exn Request), p'.threads[m]? = some th ∧ th.op = .job t fn ∧
      p.threads[m]? = none := by
  obtain rfl := he.eq
  obtain ⟨tr, k, hn, hw, hthreads⟩ := hst.run_inv
  refine ⟨p.threads.length, api.thread (.job t fn), ?_, rfl, List.getElem?_eq_none le_rfl⟩
  rw [hthreads, List.getElem?_append_right (by simp)]
  simp [api, jobStarted]

namespace Sound

variable (hp : Sound t ls p) (hst : api.Step p (.run n i e) p')

include hp hst

theorem begun_run : ∀ th ∈ p'.threads, ∀ e ∈ th.hist, ∀ fn, Enters t fn true e →
    ∃ th' ∈ p'.threads, th'.op = .job t fn := by
  intro th hth e' he' fn henters
  obtain ⟨m, hm⟩ := List.mem_iff_getElem?.1 hth
  rcases thread_cases hst hm with h | ⟨th₀, h₀, -, -, -, hhist⟩ | ⟨_, _, -, -, -, hhist⟩
  · exact op_stays hst (hp.begun th (List.mem_of_getElem? h) e' he' fn henters)
  · rcases List.mem_append.1 (hhist ▸ he') with he' | he'
    · exact op_stays hst (hp.begun th₀ (List.mem_of_getElem? h₀) e' he' fn henters)
    · obtain ⟨_, th', hm', hop, -⟩ := job_started hst (List.mem_singleton.1 he' ▸ henters)
      exact ⟨th', List.mem_of_getElem? hm', hop⟩
  · cases hhist ▸ he'

/-- A request to create or to resume the tenant that asks for its job finds none in flight. -/
theorem not_inflight
    (hg : ∀ m th, m ≠ n → p.threads[m]? = some th → th.op.Of t → Finished th.hist)
    (hi : ∀ fn, i ≠ .job t fn) : t ∉ p.world.inflight := by
  intro hin
  obtain ⟨th, hth, ⟨⟨fn, hfn⟩, hfin⟩⟩ := hp.slotted.inflight.1 hin
  obtain ⟨m, hm⟩ := List.mem_iff_getElem?.1 hth
  refine hfin (hg m th (fun hmn => ?_) hm (hfn ▸ rfl))
  obtain ⟨th₀, _, h₀, -, hop₀, -⟩ := thread_ran hst
  rw [hmn, h₀] at hm
  obtain rfl := Option.some.inj hm
  exact hi fn (hop₀.symm.trans hfn)

theorem admitted_run (hg : OneAtATime t p (.run n i e)) :
    ∀ th ∈ p'.threads, th.op.Revives t → ∀ e ∈ th.hist, ∀ fn begun,
      Enters t fn begun e → begun = true := by
  intro th hth hrev e' he' fn begun henters
  obtain ⟨m, hm⟩ := List.mem_iff_getElem?.1 hth
  rcases thread_cases hst hm with h | ⟨th₀, h₀, -, hop₀, hop, hhist⟩ | ⟨_, _, -, -, -, hhist⟩
  · exact hp.admitted th (List.mem_of_getElem? h) hrev e' he' fn begun henters
  · rw [hop, ← hop₀] at hrev
    rcases List.mem_append.1 (hhist ▸ he') with he' | he'
    · exact hp.admitted th₀ (List.mem_of_getElem? h₀) hrev e' he' fn begun henters
    · obtain rfl := List.mem_singleton.1 he'
      obtain rfl := henters.eq
      obtain ⟨_, _, -, -, hallow⟩ := allowed hst hp.obeys
      obtain ⟨_, _, _, hw, -⟩ := hst.run_inv
      have hi : (i.Creates t ∨ i = .resume t) ∧ ∀ fn, i ≠ .job t fn := by
        rcases hallow.enter with ⟨body, rfl, hbody, -⟩ | ⟨rfl, -⟩ | ⟨rfl, -⟩
        · exact ⟨.inl hbody, fun _ => nofun⟩
        · exact ⟨.inr rfl, fun _ => nofun⟩
        · rw [hop₀] at hrev
          exact False.elim hrev
      have hin := hp.not_inflight hst ((hg n i _ rfl).1 hi.1 rfl) hi.2
      have hr : begun = decide (t ∉ p.world.inflight) := hw.1
      rw [hr, decide_eq_true hin]
  · cases hhist ▸ he'

omit hst in
/-- A request to delete the tenant, past its first reading, finds only a job to delete it in
    flight. -/
theorem deletion_inflight (hi : i = .remove t) (he : e.cmd ≠ .reg (.get t))
    (hg : OneAtATime t p (.run n i e)) (hin : t ∈ p.world.inflight) :
    ∃ th ∈ p.threads, ¬Finished th.hist ∧ th.op = .job t .delete := by
  obtain ⟨th, hth, ⟨⟨fn, hfn⟩, hfin⟩⟩ := hp.slotted.inflight.1 hin
  refine ⟨th, hth, hfin, ?_⟩
  by_cases hdel : fn = .delete
  · rw [hfn, hdel]
  · exact absurd ((hg n i e rfl).2 hi he th hth (hfn ▸ ⟨rfl, hdel⟩)) hfin

/-- The events of a run are those of its threads. -/
theorem logged_run : ∀ m j e', .run m j e' ∈ ls ++ [.run n i e] →
    ∃ th, p'.threads[m]? = some th ∧ e' ∈ th.hist := by
  intro m j e' hmem
  obtain ⟨th₀, th', h₀, h', -, -, hhist⟩ := thread_ran hst
  rcases List.mem_append.1 hmem with hmem | hmem
  · obtain ⟨th, hm, he'⟩ := hp.logged m j e' hmem
    by_cases hmn : m = n
    · rw [hmn, h₀] at hm
      obtain rfl := Option.some.inj hm
      exact ⟨th', hmn ▸ h', hhist ▸ mem_concat he'⟩
    · exact ⟨th, thread_stays hst hm hmn, he'⟩
  · cases List.mem_singleton.1 hmem
    exact ⟨th', h', hhist ▸ mem_last⟩

omit hst in
/-- A job that has not ended, or is about to start, serves the request that asks for it now. -/
theorem serves (hhand : Handed t [e]) {m : ℕ}
    (hm : ∀ th, p.threads[m]? = some th → ¬Finished th.hist) :
    Serves t (ls ++ [.run n (.remove t) e]) m n := by
  refine ⟨ls, [], e, rfl, hhand, fun j e' hmem hfin => ?_⟩
  obtain ⟨th, hth, he'⟩ := hp.logged m j e' hmem
  exact hm th hth ⟨e', he', hfin⟩

theorem handed_run (hg : OneAtATime t p (.run n i e)) :
    ∀ (k : ℕ) th, p'.threads[k]? = some th → th.op = .remove t → Handed t th.hist →
      ∃ (m : ℕ) (th' : Thread cpSig Exn Request), p'.threads[m]? = some th' ∧
        th'.op = .job t .delete ∧ Serves t (ls ++ [.run n i e]) m k := by
  intro k th hk hrem hhanded
  -- A job that serves a request goes on serving it.
  have hold {k : ℕ} (h : ∃ (m : ℕ) (th' : Thread cpSig Exn Request), p.threads[m]? = some th' ∧
      th'.op = .job t .delete ∧ Serves t ls m k) :
      ∃ (m : ℕ) (th' : Thread cpSig Exn Request), p'.threads[m]? = some th' ∧
        th'.op = .job t .delete ∧ Serves t (ls ++ [.run n i e]) m k := by
    obtain ⟨m, th', hm, hop, hs⟩ := h
    obtain ⟨th'', hm', hop'⟩ := op_stays_at hst hm
    exact ⟨m, th'', hm', hop'.trans hop, hs.concat⟩
  rcases thread_cases hst hk with h | ⟨th₀, h₀, hkn, hop₀, hop, hhist⟩ | ⟨_, _, -, -, hop, -⟩
  · exact hold (hp.handed k th h hrem hhanded)
  · obtain ⟨e', he', hhand⟩ := hhanded
    rcases List.mem_append.1 (hhist ▸ he') with he' | he'
    · exact hold (hp.handed k th₀ h₀ (hop₀.trans (hop.symm.trans hrem)) ⟨e', he', hhand⟩)
    · obtain rfl := List.mem_singleton.1 he'
      obtain rfl : i = .remove t := hop.symm.trans hrem
      have hhanded : Handed t [e'] := ⟨e', he', hhand⟩
      obtain ⟨_, _, hn, hw, -⟩ := hst.run_inv
      -- A job to delete the tenant runs, if one is in flight.
      have hrunning (he : e'.cmd ≠ .reg (.get t)) (hin : t ∈ p.world.inflight) :
          ∃ (m : ℕ) (th' : Thread cpSig Exn Request), p'.threads[m]? = some th' ∧
            th'.op = .job t .delete ∧ Serves t (ls ++ [.run n (.remove t) e']) m k := by
        obtain ⟨th', hth', hfin, hop'⟩ := hp.deletion_inflight rfl he hg hin
        obtain ⟨m, hm⟩ := List.mem_iff_getElem?.1 hth'
        obtain ⟨th'', hm', hop''⟩ := op_stays_at hst hm
        refine ⟨m, th'', hm', hop''.trans hop', hkn ▸ hp.serves hhanded fun th hth => ?_⟩
        obtain rfl := Option.some.inj (hm.symm.trans hth)
        exact hfin
      rcases hhand with hfinds | ⟨begun, henters⟩
      · obtain rfl := hfinds.eq
        exact hrunning (by simp) (of_decide_eq_true hw.1.symm)
      · cases begun with
        | true =>
          obtain ⟨m, th', hm, hop', hnew⟩ := job_started hst henters
          refine ⟨m, th', hm, hop', hkn ▸ hp.serves hhanded fun th hth => ?_⟩
          exact absurd (hnew.symm.trans hth) nofun
        | false =>
          obtain rfl := henters.eq
          have hr : false = decide (t ∉ p.world.inflight) := hw.1
          exact hrunning (by simp) (not_not.1 (of_decide_eq_false hr.symm))
  · cases hop.symm.trans hrem

theorem answered_run : ∀ th ∈ p'.threads, AnsweredRightly th := by
  intro th hth
  obtain ⟨m, hm⟩ := List.mem_iff_getElem?.1 hth
  rcases thread_cases hst hm with h | ⟨th₀, h₀, hmn, hop₀, hop, hhist⟩ | ⟨_, _, -, -, hop, -⟩
  · exact hp.answered th (List.mem_of_getElem? h)
  · rintro ⟨e', he', hans⟩
    obtain ⟨th₁, h₁, -, hfin, hallow⟩ := allowed hst hp.obeys
    rw [hmn, h₁] at h₀
    obtain rfl := Option.some.inj h₀
    rcases List.mem_append.1 (hhist ▸ he') with he' | he'
    · -- A request that was answered issues no command.
      obtain ⟨body, rfl⟩ := hans.eq
      exact absurd ⟨_, he', trivial⟩ hfin
    · obtain rfl := List.mem_singleton.1 he'
      obtain ⟨body, rfl⟩ := hans.eq
      rw [hop, hhist]
      cases i with
      | createTenant body' =>
        rintro ⟨e, he, hw⟩
        rcases List.mem_append.1 he with he | he
        · obtain ⟨u, hu, e', he', h⟩ := hallow rfl ⟨e, he, hw⟩
          exact ⟨u, hu, e', mem_concat he', h⟩
        · rw [List.mem_singleton.1 he] at hw
          exact False.elim hw
      | resume u =>
        obtain ⟨e', he', h⟩ := hallow rfl
        exact ⟨e', mem_concat he', h⟩
      | remove u =>
        obtain ⟨-, e', he', h⟩ := hallow rfl
        exact ⟨e', mem_concat he', h⟩
      | job u fn => trivial
  · intro _
    rw [hop]
    trivial

/-- A request to create or to resume the tenant that writes, or asks for its job, does so only
    while its deletion is not promised, and none is under way. -/
theorem not_doomed (hg : OneAtATime t p (.run n i e)) (hw : Cmd.Writes t e.cmd)
    (hi : i.Creates t ∨ i = .resume t) :
    ¬(Promised t ls ∨ ∃ th ∈ p.threads, Removing t th) := by
  obtain ⟨th₀, h₀, hop₀, hfin₀, hallow⟩ := allowed hst hp.obeys
  rintro (hprom | ⟨th, hth, hfin, hrem⟩)
  · obtain ⟨hcreates, hresume⟩ := hp.clear hprom th₀ (List.mem_of_getElem? h₀) hfin₀
    rcases hi with hi | rfl
    · exact hcreates (hop₀ ▸ hi)
    · rcases hw.eq with ⟨v, f, hc⟩ | ⟨fn, hc⟩ <;> rw [hc] at hallow
      · exact False.elim hallow
      · obtain ⟨-, -, e', he', hreads⟩ := hallow
        exact hresume hop₀ e' he' hreads
  · obtain ⟨m, hm⟩ := List.mem_iff_getElem?.1 hth
    refine hfin ((hg n i e rfl).1 hi hw m th (fun hmn => ?_) hm ?_)
    · rw [hmn, h₀] at hm
      obtain rfl := Option.some.inj hm
      rw [hop₀] at hrem
      rcases hrem with ⟨rfl, -⟩ | rfl
      · exact hi.elim id nofun
      · exact hi.elim id nofun
    · rcases hrem with ⟨h, -⟩ | h <;> rw [h] <;> rfl

/-- What is promised or under way after a step was before it, or a request to delete the tenant
    has written its row. -/
theorem doomed_before (hg : OneAtATime t p (.run n i e))
    (h : Promised t (ls ++ [.run n i e]) ∨ ∃ th ∈ p'.threads, Removing t th) :
    (Promised t ls ∨ ∃ th ∈ p.threads, Removing t th) ∨ (i = .remove t ∧ WritesRow e) := by
  obtain ⟨th₀, h₀, hop₀, hfin₀, hallow⟩ := allowed hst hp.obeys
  have hmem := List.mem_of_getElem? h₀
  rcases h with hprom | ⟨th, hth, hfin, hrem⟩
  · rcases promised_concat.1 hprom with hprom | ⟨rfl, hans⟩
    · exact .inl (.inl hprom)
    · obtain ⟨body, rfl⟩ := hans.eq
      exact .inl (.inr ⟨th₀, hmem, hfin₀, .inl ⟨hop₀, (hallow rfl).1⟩⟩)
  · obtain ⟨m, hm⟩ := List.mem_iff_getElem?.1 hth
    rcases thread_cases hst hm with h | ⟨th₁, h₁, hmn, -, hop, hhist⟩ | ⟨u, fn, rfl, -, hop, -⟩
    · exact .inl (.inr ⟨th, List.mem_of_getElem? h, hfin, hrem⟩)
    · rw [hmn, h₀] at h₁
      obtain rfl := Option.some.inj h₁
      rcases hrem with ⟨hrem, e', he', hcom⟩ | hdel
      · have hi : i = .remove t := hop.symm.trans hrem
        rcases List.mem_append.1 (hhist ▸ he') with he' | he'
        · exact .inl (.inr ⟨th₀, hmem, hfin₀, .inl ⟨hop₀.trans hi, e', he', hcom⟩⟩)
        · obtain rfl := List.mem_singleton.1 he'
          rcases hcom with hwrites | hfinds
          · exact .inr ⟨hi, hwrites⟩
          · -- The job found in flight deletes the tenant.
            obtain rfl := hfinds.eq
            obtain ⟨_, _, _, hw, -⟩ := hst.run_inv
            obtain ⟨th', hth', hfin', hop'⟩ := hp.deletion_inflight hi (by simp) hg
              (of_decide_eq_true hw.1.symm)
            exact .inl (.inr ⟨th', hth', hfin', .inr hop'⟩)
      · exact .inl (.inr ⟨th₀, hmem, hfin₀, .inr (hop₀.trans (hop.symm.trans hdel))⟩)
    · -- The job to delete the tenant was asked for by a request to delete it.
      rcases hrem with ⟨hrem, -⟩ | hdel
      · cases hop.symm.trans hrem
      · cases hop.symm.trans hdel
        rcases hallow.enter with ⟨_, -, -, h⟩ | ⟨-, h, -⟩ | ⟨hi, -, hcom⟩
        · cases h
        · cases h
        · exact .inl (.inr ⟨th₀, hmem, hfin₀, .inl ⟨hop₀.trans hi, hcom⟩⟩)

theorem doomed_run (hg : OneAtATime t p (.run n i e))
    (h : Promised t (ls ++ [.run n i e]) ∨ ∃ th ∈ p'.threads, Removing t th) :
    Doomed t p'.world.registry ∧ ∀ th ∈ p'.threads, Runs t th → th.op = .job t .delete := by
  obtain ⟨th₀, h₀, hop₀, hfin₀, hallow⟩ := allowed hst hp.obeys
  obtain ⟨_, _, _, hw, -⟩ := hst.run_inv
  have hbefore := hp.doomed_before hst hg h
  obtain ⟨c, r⟩ := e
  have hrow (hsame : p'.world.registry.get t = p.world.registry.get t)
      (h : Doomed t p.world.registry) : Doomed t p'.world.registry := fun row hrow =>
    h row (hsame ▸ hrow)
  constructor
  · by_cases hupsert : ∃ v f, c = .reg (.upsert t v f)
    · obtain ⟨v, f, rfl⟩ := hupsert
      -- Who writes the row: a request to delete the tenant, or its job.
      have hwrites : v = none ∧ f.Dooms ∧
          (f.desiredStatus = Fields.desire .gone ∨ Doomed t p.world.registry) := by
        cases i with
        | createTenant body =>
          have hnot := hp.not_doomed hst hg rfl (.inl hallow)
          exact absurd (hbefore.resolve_right fun h => nomatch h.1) hnot
        | resume u => exact False.elim hallow
        | remove u => exact ⟨hallow.2.1, hallow.2.2.1, .inl hallow.2.2.2⟩
        | job u fn =>
          obtain ⟨rfl, hdel⟩ := hallow
          have hd := hp.doomed (hbefore.resolve_right fun h => nomatch h.1)
          have hfn := hd.2 th₀ (List.mem_of_getElem? h₀) ⟨⟨fn, hop₀⟩, hfin₀⟩
          obtain ⟨hv, hf⟩ := hdel (Request.job.inj (hop₀.symm.trans hfn)).2
          exact ⟨hv, hf, .inr hd.1⟩
      obtain ⟨rfl, hf, hdoomed⟩ := hwrites
      obtain ⟨now, -, hs'⟩ := (openWorld_upsert hf.valid).1 hw.1
      rw [hs']
      exact Doomed.written hf hdoomed
    · by_cases hdelete : c = .reg (.delete t)
      · subst hdelete
        intro row hrow'
        rw [(openWorld_delete.1 hw.1).2, Registry.delete_get_self] at hrow'
        cases hrow'
      · have hsame := serverWorld_registry hw (fun v f h => hupsert ⟨v, f, h⟩) hdelete
        refine hrow hsame (hp.doomed (hbefore.resolve_right ?_)).1
        rintro ⟨rfl, hwrites⟩
        obtain ⟨u, v, f, rfl⟩ := hwrites.eq
        exact hupsert ⟨v, f, by rw [hallow.1]⟩
  · intro th hth hr
    obtain ⟨m, hm⟩ := List.mem_iff_getElem?.1 hth
    by_cases henter : ∃ fn, Enters t fn true ⟨c, r⟩
    · -- A job is started: it deletes the tenant, since nothing else may be asked for.
      obtain ⟨fn, henters⟩ := henter
      cases henters.eq
      have hb := hbefore.resolve_right fun h => h.2
      have hi : i = .remove t ∧ fn = .delete := by
        rcases hallow.enter with ⟨body, rfl, hbody, -⟩ | ⟨rfl, -⟩ | ⟨hi, hfn, -⟩
        · exact absurd hb (hp.not_doomed hst hg rfl (.inl hbody))
        · exact absurd hb (hp.not_doomed hst hg rfl (.inr rfl))
        · exact ⟨hi, hfn⟩
      rcases thread_cases hst hm with h | ⟨_, -, -, -, hop, -⟩ | ⟨u, g, he, -, hop, -⟩
      · exact (hp.doomed hb).2 th (List.mem_of_getElem? h) hr
      · obtain ⟨g, hg⟩ := hr.1
        cases hi.1.symm.trans (hop.symm.trans hg)
      · cases he
        rw [hop, hi.2]
    · obtain ⟨th₁, h₁, hr₁, hop₁⟩ := runs_before hst (fun fn h => henter ⟨fn, h⟩) hm hr
      rw [← hop₁]
      rcases hbefore with hbefore | ⟨rfl, hwrites⟩
      · exact (hp.doomed hbefore).2 th₁ (List.mem_of_getElem? h₁) hr₁
      · obtain ⟨⟨fn, hfn⟩, hfin⟩ := hr₁
        obtain ⟨u, v, f, rfl⟩ := hwrites.eq
        by_cases hdel : fn = .delete
        · rw [hfn, hdel]
        · have hrev : th₁.op.Revives t := hfn ▸ ⟨rfl, hdel⟩
          exact absurd ((hg n _ _ rfl).2 rfl (by simp) th₁ (List.mem_of_getElem? h₁) hrev) hfin

theorem clear_run (hg : OneAtATime t p (.run n i e)) (h : Promised t (ls ++ [.run n i e])) :
    ∀ th ∈ p'.threads, ¬Finished th.hist →
      ¬th.op.Creates t ∧ (th.op = .resume t → ∀ e ∈ th.hist, ¬ReadsSuspended t e) := by
  obtain ⟨_, _, _, hw, -⟩ := hst.run_inv
  -- A request to create or to resume the tenant, of before the promise, has finished.
  have hbefore (th : Thread cpSig Exn Request) (hth : th ∈ p.threads) (hfin : ¬Finished th.hist) :
      ¬th.op.Creates t ∧ (th.op = .resume t → ∀ e ∈ th.hist, ¬ReadsSuspended t e) := by
    rcases promised_concat.1 h with hprom | ⟨rfl, hans⟩
    · exact hp.clear hprom th hth hfin
    · obtain ⟨body, rfl⟩ := hans.eq
      have hrev : ¬th.op.Revives t := fun hrev =>
        hfin ((hg n _ _ rfl).2 rfl (by simp) th hth hrev)
      refine ⟨fun hc => hrev ?_, fun hr => absurd (hr ▸ rfl) hrev⟩
      unfold Request.Creates at hc
      split at hc
      · next hop => rw [hop]; exact hc
      · exact hc.elim
  intro th hth hfin
  obtain ⟨m, hm⟩ := List.mem_iff_getElem?.1 hth
  rcases thread_cases hst hm with h' | ⟨th₀, h₀, -, hop₀, hop, hhist⟩ | ⟨_, _, -, -, hop, -⟩
  · exact hbefore th (List.mem_of_getElem? h') hfin
  · have hfin₀ : ¬Finished th₀.hist := by
      rintro ⟨e', he', hfin'⟩
      exact hfin (hhist ▸ ⟨e', mem_concat he', hfin'⟩)
    obtain ⟨hcreates, hresume⟩ := hbefore th₀ (List.mem_of_getElem? h₀) hfin₀
    rw [hop₀, ← hop] at hcreates hresume
    refine ⟨hcreates, fun hr e' he' hreads => ?_⟩
    rcases List.mem_append.1 (hhist ▸ he') with he' | he'
    · exact hresume hr e' he' hreads
    · -- The row read is one of a tenant being deleted.
      obtain rfl := List.mem_singleton.1 he'
      obtain ⟨row, rfl, hrow⟩ := hreads.eq
      rcases promised_concat.1 h with hprom | ⟨rfl, hans⟩
      · have hget := (openWorld_get.1 hw.1).1
        obtain ⟨-, hs⟩ := (hp.doomed (.inl hprom)).1 row hget.symm
        rcases hs with hs | hs <;> cases hs.symm.trans hrow
      · exact hans
  · rw [hop]
    exact ⟨id, nofun⟩

/-- A step of a thread, one request at a time. -/
theorem run (hg : OneAtATime t p (.run n i e)) : Sound t (ls ++ [.run n i e]) p' where
  obeys := hst.obeys (fun i => i.obeys) (fun _ _ _ h => hst.event_ok (fun _ _ _ _ => storeOk) h) hp.obeys
  slotted := hp.slotted.run hp.obeys hst
  begun := hp.begun_run hst
  admitted := hp.admitted_run hst hg
  logged := hp.logged_run hst
  handed := hp.handed_run hst hg
  answered := hp.answered_run hst
  doomed := hp.doomed_run hst hg
  clear := hp.clear_run hst hg

omit hst in
/-- A request that arrives. -/
theorem start (hi : ∀ u fn, i ≠ .job u fn) (hst : api.Step p (.start i) p') :
    Sound t (ls ++ [.start i]) p' := by
  have hobeys := hst.obeys (fun i => i.obeys) (fun _ _ _ h => nomatch h) hp.obeys
  cases hst with
  | @start w ts i =>
  have hmem {th : Thread cpSig Exn Request} (hth : th ∈ ts ++ [api.thread i]) :
      th ∈ ts ∨ th.op = i ∧ th.hist = [] := by
    rcases List.mem_append.1 hth with h | h
    · exact .inl h
    · exact .inr (List.mem_singleton.1 h ▸ ⟨rfl, rfl⟩)
  have hold {P : Thread cpSig Exn Request → Prop} (h : ∃ th ∈ ts, P th) :
      ∃ th ∈ ts ++ [api.thread i], P th := by
    obtain ⟨th, hth, h⟩ := h
    exact ⟨th, List.mem_append_left _ hth, h⟩
  have hruns {th : Thread cpSig Exn Request} (hr : Runs t th) (hop : th.op = i) : False := by
    obtain ⟨⟨fn, hfn⟩, -⟩ := hr
    exact hi t fn (hop.symm.trans hfn)
  have hplace {m : ℕ} {th : Thread cpSig Exn Request} (hm : (ts ++ [api.thread i])[m]? = some th) :
      ts[m]? = some th ∨ th = api.thread i := by
    rcases Nat.lt_or_ge m ts.length with h | h
    · exact .inl (by rwa [List.getElem?_append_left h] at hm)
    · rw [List.getElem?_append_right h] at hm
      exact .inr (List.mem_singleton.1 (List.mem_of_getElem? hm))
  have hstays {m : ℕ} {th : Thread cpSig Exn Request} (hm : ts[m]? = some th) :
      (ts ++ [api.thread i])[m]? = some th := by
    rw [List.getElem?_append_left (List.getElem?_eq_some_iff.1 hm).1, hm]
  have hat {m : ℕ} {th : Thread cpSig Exn Request} (hm : (ts ++ [api.thread i])[m]? = some th)
      (hr : Runs t th) : ts[m]? = some th :=
    (hplace hm).resolve_right fun h => hruns hr (h ▸ rfl)
  refine ⟨hobeys, ⟨fun k m th th' hk hm hr hr' =>
    hp.slotted.one k m th th' (hat hk hr) (hat hm hr') hr hr', ?_⟩, ?_, ?_, ?_, ?_, ?_, ?_, ?_⟩
  · refine hp.slotted.inflight.trans ⟨hold, ?_⟩
    rintro ⟨th, hth, hr⟩
    exact ⟨th, (hmem hth).resolve_right fun h => hruns hr h.1, hr⟩
  · intro th hth e he fn henters
    rcases hmem hth with h | ⟨-, h⟩
    · exact hold (hp.begun th h e he fn henters)
    · cases h ▸ he
  · intro th hth hrev e he
    rcases hmem hth with h | ⟨-, h⟩
    · exact hp.admitted th h hrev e he
    · cases h ▸ he
  · intro m j e hmem
    obtain ⟨th, hth, he⟩ := hp.logged m j e ((List.mem_append.1 hmem).resolve_right (by simp))
    exact ⟨th, hstays hth, he⟩
  · intro k th hk hrem hhanded
    rcases hplace hk with h | rfl
    · obtain ⟨m, th', hm, hop, hs⟩ := hp.handed k th h hrem hhanded
      exact ⟨m, th', hstays hm, hop, hs.concat⟩
    · obtain ⟨e, he, -⟩ := hhanded
      cases he
  · intro th hth
    rcases hmem hth with h | ⟨-, h⟩
    · exact hp.answered th h
    · rintro ⟨e, he, -⟩
      cases h ▸ he
  · intro h
    have hprom (h : Promised t (ls ++ [.start i])) : Promised t ls := by
      have h' : Promised t ls ∧ ¬i.Creates t := promised_concat.1 h
      exact h'.1
    have hremoving (h : ∃ th ∈ ts ++ [api.thread i], Removing t th) : ∃ th ∈ ts, Removing t th := by
      obtain ⟨th, hth, hfin, hrem⟩ := h
      rcases hmem hth with h | ⟨hop, hhist⟩
      · exact ⟨th, h, hfin, hrem⟩
      · rcases hrem with ⟨-, e, he, -⟩ | hdel
        · cases hhist ▸ he
        · exact (hi t .delete (hop.symm.trans hdel)).elim
    obtain ⟨hd, hr⟩ := hp.doomed (h.imp hprom hremoving)
    refine ⟨hd, fun th hth hrun => ?_⟩
    exact hr th ((hmem hth).resolve_right fun h => hruns hrun h.1) hrun
  · intro h th hth hfin
    obtain ⟨hprom, hcreates⟩ := promised_concat.1 h
    rcases hmem hth with h | ⟨hop, hhist⟩
    · exact hp.clear hprom th h hfin
    · refine ⟨hop ▸ hcreates, fun _ e he => ?_⟩
      cases hhist ▸ he

omit hst in
/-- What is kept is what was promised. -/
theorem honoured : Honoured t ls p where
  gone h row hrow := ((hp.doomed (.inl h)).1 row hrow).1
  removed n th hn hop hans := by
    have h := hp.answered th (List.mem_of_getElem? hn) hans
    rw [hop] at h
    exact hp.handed n th hn hop h
  created th hth body hop hbody hwrites hans := by
    have h := hp.answered th hth hans
    rw [hop] at h
    obtain ⟨u, hu, e, he, begun, henters⟩ := h hwrites
    obtain rfl : u = t := Except.ok.inj (hu.symm.trans hbody)
    obtain rfl := hp.admitted th hth (hop ▸ hbody) e he _ begun henters
    exact ⟨⟨e, he, henters⟩, hp.begun th hth e he _ henters⟩
  resumed th hth hop hans := by
    have h := hp.answered th hth hans
    rw [hop] at h
    obtain ⟨e, he, begun, henters⟩ := h
    obtain rfl := hp.admitted th hth (hop ▸ rfl) e he _ begun henters
    exact ⟨⟨e, he, henters⟩, hp.begun th hth e he _ henters⟩

end Sound

end

/-- The requests answered 202 are honoured in every run in which the tenant has one request at
    a time, whatever the jobs do. -/
theorem accepted_honoured {t : TenantId} {s : Registry} {ls : List (Label cpSig Request Empty)}
    {p : Config cpSig Exn Request Server}
    (hr : api.Run (fun p l => Requested p l ∧ OneAtATime t p l) (.new ⟨s, ∅⟩) ls p) :
    Honoured t ls p := by
  have h₀ : Sound t [] (.new ⟨s, ∅⟩) := by
    refine ⟨Config.obeys_new _ _ _ _, ⟨fun n m th th' h => ?_, ?_⟩, ?_, ?_, ?_, ?_, ?_, ?_, ?_⟩
    · cases h
    · simp [Config.new]
    · intro _ h
      cases h
    · intro _ h
      cases h
    · intro _ _ _ h
      cases h
    · intro _ _ h
      cases h
    · intro _ h
      cases h
    · rintro (h | ⟨_, h, -⟩)
      · exact h.elim
      · cases h
    · exact fun h => h.elim
  refine (hr.invariant (I := Sound t) h₀ fun ls p l p' hp hg hst => ?_).honoured
  cases l with
  | start i => exact hp.start (fun u fn h => hg.1 u fn (h ▸ rfl)) hst
  | run n i e => exact hp.run hst hg.2
  | env x => cases x

/-! ## Requests on a schedule -/

/-- An answer to every command: each process fails, the rest succeeds. -/
def refusing : (c : Cmd) → cpSig.Resp c
  | .shell _ => .exited 1
  | c => succeeding c

/-- The play of a schedule on an empty server. -/
def playRequests (a : (c : Cmd) → cpSig.Resp c)
    (ok : Config cpSig Exn Request Server → Label cpSig Request Empty → Bool)
    (xs : List (System.Move Request Empty Unit)) :
    Option (List (Label cpSig Request Empty) × Config cpSig Exn Request Server) :=
  api.play (fun _ => serverAnswer "now" a) (fun _ _ => none) ok (.new ⟨∅, ∅⟩) xs

theorem run_playRequests {a : (c : Cmd) → cpSig.Resp c}
    {ok : Config cpSig Exn Request Server → Label cpSig Request Empty → Bool}
    {xs : List (System.Move Request Empty Unit)} {ls : List (Label cpSig Request Empty)}
    {p : Config cpSig Exn Request Server} (h : playRequests a ok xs = some (ls, p)) :
    api.Run (fun p l => ok p l = true) (.new ⟨∅, ∅⟩) ls p :=
  run_play (fun _ => serverAnswer_step "now" a) (fun _ _ _ h => nomatch h) h

/-- A request to delete a tenant, or its job. -/
def deletes : Request → Bool
  | .remove _ | .job _ .delete => true
  | _ => false

/-- Only deletions arrive, and are under way. -/
def deletionsOnly (p : Config cpSig Exn Request Server) : Label cpSig Request Empty → Bool
  | .start (.remove _) => true
  | .run _ i _ => deletes i && p.threads.all fun th => deletes th.op
  | _ => false

/-- Deletions only are one at a time. -/
theorem deletionsOnly_oneAtATime {p : Config cpSig Exn Request Server}
    {l : Label cpSig Request Empty} (h : deletionsOnly p l = true) (t : TenantId) :
    Requested p l ∧ OneAtATime t p l := by
  constructor
  · rintro u fn rfl
    cases h
  · rintro n i e rfl
    obtain ⟨hi, hall⟩ := (Bool.and_eq_true _ _).mp h
    refine ⟨fun hrev => ?_, fun _ _ th hth hrev => ?_⟩
    · cases i with
      | createTenant _ | resume _ => cases hi
      | remove _ | job _ _ => exact hrev.elim False.elim nofun
    · have hdel := List.all_eq_true.1 hall th hth
      unfold Request.Revives at hrev
      split at hrev
      · next hop => rw [hop] at hdel; cases hdel
      · next hop => rw [hop] at hdel; cases hdel
      · exact hrev.elim
      · next u fn hop =>
        rw [hop] at hdel
        cases fn with
        | delete => exact absurd rfl hrev.2
        | _ => cases hdel

/-- A thread that was answered 202. -/
def accepted (th : Thread cpSig Exn Request) : Bool :=
  th.hist.any fun e => match e.cmd with
    | .app (.respond code _) => code = 202
    | _ => false

theorem accepted_answers {th : Thread cpSig Exn Request} (h : accepted th = true) :
    ∃ e ∈ th.hist, Answers 202 e := by
  obtain ⟨e, he, h⟩ := List.any_eq_true.1 h
  refine ⟨e, he, ?_⟩
  split at h
  · next code body hc => simpa [Answers, hc] using h
  · cases h

/-- Two deletions of a tenant that overlap, the one finding the job of the other in flight, are both
    answered 202 after that job has failed, and honoured. -/
theorem accepted_honoured_deletion : ∃ ls p, Honoured .a ls p ∧
    (p : Config cpSig Exn Request Server).threads.countP accepted = 2 ∧
    (p.world.registry.get .a).map Row.status = some .deleteFailed := by
  have hplay : (playRequests refusing deletionsOnly
      ([.start (.remove .a), .start (.remove .a)] ++
        (List.replicate 5 [.run 0 (), .run 1 ()]).flatten ++ List.replicate 13 (.run 2 ()) ++
        [.run 0 (), .run 1 ()])).map
      (fun q => (q.2.threads.countP accepted, (q.2.world.registry.get .a).map Row.status)) =
      some (2, some .deleteFailed) := rfl
  obtain ⟨⟨ls, p⟩, hq, hend⟩ := Option.map_eq_some_iff.1 hplay
  obtain ⟨hcount, hstatus⟩ := Prod.mk.inj hend
  have hrun := (run_playRequests hq).weaken fun p l h => deletionsOnly_oneAtATime h .a
  exact ⟨ls, p, accepted_honoured hrun, hcount, hstatus⟩

/-- Jobs are not started from outside. -/
def requestsOnly (_ : Config cpSig Exn Request Server) : Label cpSig Request Empty → Bool
  | .start (.job _ _) => false
  | _ => true

/-- A tenant whose deletion is answered 202 while its job to create it runs is not deleted. -/
theorem dropped_deletion :
    ¬∀ (t : TenantId) (s : Registry) ls (p : Config cpSig Exn Request Server),
      api.Run Requested (.new ⟨s, ∅⟩) ls p → Honoured t ls p := by
  intro h
  have hplay : (playRequests succeeding requestsOnly
      ([.start (.createTenant { id := "a" })] ++ List.replicate 5 (.run 0 ()) ++
        [.start (.remove .a)] ++ List.replicate 5 (.run 2 ()))).map
      (fun q => (q.2.threads.any fun th => th.op = .remove .a && accepted th,
        q.2.threads.any fun th => th.op = .job .a .delete)) = some (true, false) := by
    rfl
  obtain ⟨⟨ls, p⟩, hq, hthreads⟩ := Option.map_eq_some_iff.1 hplay
  obtain ⟨hanswered, hnone⟩ := Prod.mk.inj hthreads
  have hrun : api.Run Requested (.new ⟨∅, ∅⟩) ls p := by
    refine (run_playRequests hq).weaken fun p l hok u fn hl => ?_
    rw [hl] at hok
    cases hok
  obtain ⟨th, hth, hremove⟩ := List.any_eq_true.1 hanswered
  obtain ⟨hop, hacc⟩ := (Bool.and_eq_true _ _).mp hremove
  obtain ⟨n, hn⟩ := List.mem_iff_getElem?.1 hth
  obtain ⟨m, th', hm, hjob, -⟩ := (h .a ∅ ls p hrun).removed n th hn (of_decide_eq_true hop)
    (accepted_answers hacc)
  refine absurd (List.any_eq_true.2 ⟨th', List.mem_of_getElem? hm, ?_⟩) (Bool.eq_false_iff.1 hnone)
  exact decide_eq_true hjob

end NtierLab
