import NtierLab.ControlPlane.Promise
import NtierLab.Prog.Jobs

/-!
# The jobs in flight

The table of the jobs in flight, whatever the functions of the jobs do and however they end
(`apiOf`): in every run of requests, a tenant is in flight while one job of it was admitted and
has not ended, it never has two, and its requests are admitted or not by its own jobs alone
(`inflight_right`).
-/

namespace NtierLab

open Prog
open NtierLab.System (Run Step run_play)

/-- The command leaves the table of the jobs in flight alone. -/
def OffTable : Cmd → Prop
  | .app (.enter _ _) | .app (.discard _) => False
  | _ => True

/-- The function of a job: it may do anything but change the table, and returns or fails. -/
structure Job where
  body : CP Unit
  offTable : body.Calls OffTable

/-- The program of a request, given the functions of the jobs. -/
def Request.progOf (jobs : TenantId → JobFn → Job) : Request → CP Unit
  | .job t fn => (jobs t fn).body.ensuring (.call (.app (.discard t)) .ret)
  | i => i.prog

/-- The API, with any functions for its jobs. -/
def apiOf (jobs : TenantId → JobFn → Job) : System cpSig Exn Request Empty Server where
  prog := Request.progOf jobs
  step := serverWorld
  env _ _ _ := False
  fork e := ((jobStarted e).map fun q => .job q.1 q.2).toList

theorem Quiet.offTable {c : Cmd} (h : Quiet c) : OffTable c := by
  unfold OffTable
  split
  · exact h
  · exact h
  · trivial

/-- The functions of the control plane's own jobs. -/
def lifecycleJobs (t : TenantId) (fn : JobFn) : Job where
  body := jobFn t fn
  offTable := by
    by_cases hfn : fn = .delete
    · refine hfn ▸ jobFn_deletes.imp fun c hc => ?_
      unfold Deletes at hc
      split at hc
      · trivial
      · trivial
      · exact Quiet.offTable hc
    · refine (jobFn_upserts hfn).imp fun c hc => ?_
      unfold Upserts at hc
      split at hc
      · trivial
      · exact Quiet.offTable hc

theorem apiOf_lifecycleJobs : apiOf lifecycleJobs = api := by
  have hprog : Request.progOf lifecycleJobs = Request.prog := by
    funext i
    cases i <;> rfl
  rw [apiOf, hprog, api]

/-! ## The table -/

/-- The tenant of a job. -/
def Request.jobOf : Request → Option TenantId
  | .job t _ => some t
  | _ => none

/-- The number of the jobs of the tenant that have not ended. -/
def underWay (t : TenantId) (p : Config cpSig Exn Request Server) : ℕ :=
  p.threads.countP fun th => decide (th.op.jobOf = some t) && th.prog.isCall

/-- What an event does to the table. -/
def tableEvent (e : Event cpSig) : TableEvent TenantId :=
  match e with
  | ⟨.app (.enter t _), true⟩ => .accept t
  | ⟨.app (.enter t _), false⟩ => .refuse t
  | ⟨.app (.discard t), _⟩ => .finish t
  | _ => .other

theorem OffTable.tableEvent {c : Cmd} (h : OffTable c) (r : cpSig.Resp c) :
    tableEvent ⟨c, r⟩ = .other := by
  cases c with
  | app c =>
    cases c with
    | enter t fn => exact h.elim
    | discard t => exact h.elim
    | inFlight t => rfl
    | respond code body => rfl
  | _ => rfl

theorem tableEvent_starts (e : Event cpSig) : (tableEvent e).starts =
    (((jobStarted e).map fun q => Request.job q.1 q.2).toList).filterMap Request.jobOf := by
  obtain ⟨c, r⟩ := e
  cases c with
  | app c =>
    cases c with
    | enter t fn => obtain _ | _ := (r : Bool) <;> rfl
    | _ => rfl
  | _ => rfl

theorem serverWorld_takes {s s' : Server} {c : Cmd} {r : cpSig.Resp c} (h : serverWorld c s r s') :
    (tableEvent ⟨c, r⟩).Takes s.inflight s'.inflight := by
  cases c with
  | reg c => exact h.2
  | app c =>
    cases c with
    | inFlight t => exact congrArg Server.inflight h.2
    | enter t fn =>
      obtain ⟨(hr : r = decide (t ∉ s.inflight)), rfl⟩ := h
      by_cases ht : t ∈ s.inflight
      · obtain rfl : r = false := by simpa [ht] using hr
        exact ⟨ht, Finset.insert_eq_self.2 ht⟩
      · obtain rfl : r = true := by simpa [ht] using hr
        exact ⟨ht, rfl⟩
    | discard t => exact congrArg Server.inflight h
    | respond code body => exact congrArg Server.inflight h
  | _ => exact congrArg Server.inflight h

/-- The command ends no job. -/
def EndsNone : Cmd → Prop
  | .app (.discard _) => False
  | _ => True

section

variable {t : TenantId}

theorem endsNone_handled {p : CP Unit} (hp : p.Calls EndsNone) : (handled p).Calls EndsNone :=
  exceptControlPlane_calls hp fun _ => ⟨trivial, fun _ => trivial⟩

theorem startJob_endsNone (status : String) (fn : JobFn) :
    (startJob t status fn).Calls EndsNone :=
  ⟨trivial, fun _ => ⟨trivial, fun _ => ⟨trivial, fun _ => trivial⟩⟩⟩

theorem accept_endsNone (f : Fields) (status : String) (fn : JobFn) :
    (do let _ ← TenantStore.upsert t f; startJob t status fn : CP Unit).Calls EndsNone :=
  .bind ⟨trivial, fun r => calls_result r⟩ fun _ => startJob_endsNone status fn

end

/-- A request ends no job. -/
theorem request_endsNone {i : Request} (hi : i.jobOf = none) : i.prog.Calls EndsNone := by
  have hrespond (code : ℕ) (body : Body) : (respond code body).Calls EndsNone :=
    ⟨trivial, fun _ => trivial⟩
  cases i with
  | createTenant body =>
    change (createTenant body).Calls EndsNone
    unfold createTenant
    split
    · exact hrespond _ _
    · refine endsNone_handled ⟨trivial, fun row => ?_⟩
      cases (row : Option Row) with
      | none => exact accept_endsNone _ _ _
      | some existing =>
        change (createExisting _ body existing).Calls EndsNone
        unfold createExisting
        split <;> first | exact hrespond _ _ | exact accept_endsNone _ _ _
  | resume t =>
    refine endsNone_handled ⟨trivial, fun row => ?_⟩
    cases (row : Option Row) with
    | none => exact hrespond _ _
    | some item =>
      simp only [Prog.bind]
      split <;> first | exact hrespond _ _ | exact startJob_endsNone _ _
  | remove t =>
    refine endsNone_handled ⟨trivial, fun row => ?_⟩
    cases (row : Option Row) with
    | none =>
      simp only [Prog.bind]
      exact .bind ⟨trivial, fun r => calls_result r⟩ fun _ => accept_endsNone _ _ _
    | some item =>
      simp only [Prog.bind]
      refine .ite (fun _ => ⟨trivial, fun running => ?_⟩) fun _ => accept_endsNone _ _ _
      exact .ite (fun _ => hrespond _ _) fun _ => accept_endsNone _ _ _
  | job t fn => cases hi

/-- The table of the jobs of the API. -/
def jobTable (jobs : TenantId → JobFn → Job) : JobTable (apiOf jobs) TenantId where
  inflight := Server.inflight
  key := Request.jobOf
  event := tableEvent
  step := serverWorld_takes
  env := False.elim
  fork e := (tableEvent_starts e).symm
  job := fun {i t} hi => by
    cases i with
    | job u fn =>
      obtain rfl := Option.some.inj hi
      exact closes_ensuring ((jobs u fn).offTable.imp fun _ => OffTable.tableEvent) (fun _ => rfl)
        fun _ => rfl
    | _ => cases hi
  request := fun {i} hi => by
    have hprog : (apiOf jobs).prog i = i.prog := by
      cases i with
      | job u fn => cases hi
      | _ => rfl
    rw [hprog]
    refine (request_endsNone hi).imp fun c hc r t h => ?_
    unfold tableEvent at h
    split at h
    · cases h
    · cases h
    · next heq =>
      cases heq
      exact hc
    · cases h

/-! ## The runs of the API -/

section

variable {jobs : TenantId → JobFn → Job} {t : TenantId} {p p' p₁ : Config cpSig Exn Request Server}
  {ls : List (Label cpSig Request Empty)} {n : ℕ} {i : Request}

theorem requested_outside {l : Label cpSig Request Empty} (h : Requested p l) :
    (jobTable jobs).Outside p l := by
  rintro i rfl
  cases i with
  | job u fn => exact absurd rfl (h u fn)
  | _ => rfl

/-- A job admitted is one more, and a job refused is none more. -/
theorem enter_threads {fn : JobFn} {begun : Bool}
    (hst : (apiOf jobs).Step p (.run n i ⟨.app (.enter t fn), begun⟩) p') :
    p'.threads.length = p.threads.length + begun.toNat ∧
      (begun = true → ∃ th, p'.threads[p.threads.length]? = some th ∧ th.op = .job t fn) := by
  obtain ⟨tr, k, -, -, hthreads⟩ := hst.run_inv
  rw [hthreads]
  refine ⟨by cases begun <;> simp [apiOf, jobStarted], ?_⟩
  rintro rfl
  refine ⟨(apiOf jobs).thread (.job t fn), ?_, rfl⟩
  rw [List.getElem?_append_right (by simp)]
  simp [apiOf, jobStarted]

/-- A job is admitted if and only if none of the tenant is under way, and one is afterwards. -/
theorem enter_admits {fn : JobFn} {begun : Bool} (hp : (jobTable jobs).Kept p)
    (hst : (apiOf jobs).Step p (.run n i ⟨.app (.enter t fn), begun⟩) p') :
    (begun = true ↔ underWay t p = 0) ∧ underWay t p' = 1 := by
  obtain ⟨haccept, hrefuse⟩ := hp.event (k := t) hst
  obtain ⟨tr, k, -, ⟨-, hw⟩, -⟩ := hst.run_inv
  constructor
  · cases begun with
    | true => exact iff_of_true rfl (haccept rfl)
    | false =>
      have hone : underWay t p = 1 := hrefuse rfl
      simp [hone]
  · refine ((hp.run hst).jobs t).trans (if_pos ?_)
    change t ∈ p'.world.inflight
    rw [hw]
    exact Finset.mem_insert_self ..

/-- Once a job of the tenant has ended, none is under way. -/
theorem underWay_ended {fn : JobFn} {e : Event cpSig} (hp : (jobTable jobs).Kept p)
    (hst : (apiOf jobs).Step p (.run n (.job t fn) e) p')
    (hend : ∃ th, p'.threads[n]? = some th ∧ th.prog.isCall = false) : underWay t p' = 0 := by
  obtain ⟨tr, k, hn, hw, hthreads⟩ := hst.run_inv
  have hlt := (List.getElem?_eq_some_iff.1 hn).1
  obtain ⟨th, hth, hcall⟩ := hend
  rw [hthreads, List.getElem?_append_left (by simpa using hlt), List.getElem?_set_self hlt] at hth
  obtain rfl := Option.some.inj hth
  refine ((hp.run hst).jobs t).trans (if_neg ?_)
  have htakes : (tableEvent e).Takes p.world.inflight p'.world.inflight := (jobTable jobs).step hw
  rcases hp.job_run (k := t) hn rfl with ⟨hevent, -⟩ | ⟨-, hcloses⟩
  · rw [show tableEvent e = .finish t from hevent] at htakes
    change t ∉ p'.world.inflight
    rw [show p'.world.inflight = p.world.inflight.erase t from htakes]
    exact Finset.notMem_erase _ _
  · exact absurd (hcall.symm.trans hcloses.isCall) (by simp)

end

/-- What is right of the table for a tenant, in a configuration: the tenant is in flight while
    one job of it is under way, and it never has two; a request that asks for a job of it, or
    for one in flight, is answered by the jobs of the tenant alone; and when one has ended, the
    next request to ask is admitted. -/
structure InFlightRight (jobs : TenantId → JobFn → Job) (t : TenantId)
    (p : Config cpSig Exn Request Server) : Prop where
  inflight : t ∈ p.world.inflight ↔ underWay t p = 1
  one : underWay t p ≤ 1
  enter : ∀ n i fn begun p', (apiOf jobs).Step p (.run n i ⟨.app (.enter t fn), begun⟩) p' →
    (begun = true ↔ underWay t p = 0) ∧ underWay t p' = 1 ∧
      p'.threads.length = p.threads.length + begun.toNat ∧
      (begun = true → ∃ th, p'.threads[p.threads.length]? = some th ∧ th.op = .job t fn)
  finds : ∀ n i found p', (apiOf jobs).Step p (.run n i ⟨.app (.inFlight t), found⟩) p' →
    (found = true ↔ underWay t p = 1)
  next : ∀ m fn e p₁, (apiOf jobs).Step p (.run m (.job t fn) e) p₁ →
    (∃ th, p₁.threads[m]? = some th ∧ th.prog.isCall = false) →
    ∀ ls p₂, (apiOf jobs).Run Requested p₁ ls p₂ →
    (∀ n i g begun, .run n i ⟨.app (.enter t g), begun⟩ ∉ ls) →
    ∀ n i g begun p₃, (apiOf jobs).Step p₂ (.run n i ⟨.app (.enter t g), begun⟩) p₃ → begun = true

/-- The table of the jobs in flight is right in every run of requests, whatever the functions of
    the jobs do and however they end. -/
theorem inflight_right {jobs : TenantId → JobFn → Job} {s : Registry}
    {ls : List (Label cpSig Request Empty)} {p : Config cpSig Exn Request Server}
    (hr : (apiOf jobs).Run Requested (.new ⟨s, ∅⟩) ls p) (t : TenantId) :
    InFlightRight jobs t p := by
  have hG : ∀ p l, Requested p l → (jobTable jobs).Outside p l := fun _ _ => requested_outside
  have hp : (jobTable jobs).Kept p := JobTable.kept_of_run hG (JobTable.kept_new rfl) hr
  have hjobs : underWay t p = if t ∈ p.world.inflight then 1 else 0 := hp.jobs t
  refine ⟨?_, ?_, ?_, ?_, ?_⟩
  · rw [hjobs]
    split <;> simp_all
  · rw [hjobs]
    split <;> omega
  · intro n i fn begun p' hst
    obtain ⟨hadmits, hone⟩ := enter_admits hp hst
    exact ⟨hadmits, hone, enter_threads hst⟩
  · intro n i found p' hst
    obtain ⟨tr, k, -, ⟨hfound, -⟩, -⟩ := hst.run_inv
    rw [show found = decide (t ∈ p.world.inflight) from hfound, decide_eq_true_iff, hjobs]
    split <;> simp_all
  · intro m fn e p₁ hst hend ls' p₂ hrun hno n i g begun p₃ hst'
    have hp₁ := hp.run hst
    have hp₂ := JobTable.kept_of_run hG hp₁ hrun
    refine (enter_admits hp₂ hst').1.2 ?_
    refine JobTable.jobs_zero_of_run hG hp₁ (underWay_ended hp hst hend) hrun fun n i e he hevent => ?_
    -- A job is admitted by the command that asks for it only.
    change tableEvent e = .accept t at hevent
    unfold tableEvent at hevent
    split at hevent
    · cases hevent
      exact hno _ _ _ _ he
    · cases hevent
    · cases hevent
    · cases hevent

/-- A request to create a tenant, once its job is started. -/
theorem inflight_right_create : ∃ ls p, InFlightRight lifecycleJobs .a p ∧
    (apiOf lifecycleJobs).Run Requested (.new ⟨∅, ∅⟩) ls p ∧ underWay .a p = 1 := by
  have hplay : ((apiOf lifecycleJobs).play (fun _ => serverAnswer "now" succeeding)
      (fun _ _ => none) requestsOnly (.new ⟨∅, ∅⟩)
      (.start (.createTenant { id := "a" }) :: List.replicate 4 (.run 0 ()))).map
      (fun q => underWay .a q.2) = some 1 := rfl
  obtain ⟨⟨ls, p⟩, hq, hone⟩ := Option.map_eq_some_iff.1 hplay
  have hrun : (apiOf lifecycleJobs).Run Requested (.new ⟨∅, ∅⟩) ls p := by
    have hplayed := run_play (fun _ => serverAnswer_step "now" succeeding)
      (fun x _ _ _ => Empty.elim x) hq
    refine hplayed.weaken fun p l hok u fn hl => ?_
    rw [hl] at hok
    cases hok
  exact ⟨ls, p, inflight_right hrun .a, hrun, hone⟩

end NtierLab
