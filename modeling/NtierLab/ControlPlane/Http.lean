import NtierLab.ControlPlane.Accepted
import NtierLab.ControlPlane.Safety

/-!
# Requests from the network

The requests of the API on tenants (`app.py`) as they arrive: a path and a header, before the
token is checked and the id of the path validated (`HttpRequest.prog`). They run with the jobs
they start, any number at a time (`http`).

* `answers`: the monitor of a request: nothing after its answer, and nothing but readings
  before an answer that refuses it;
* `AnsweredOnce`: what is seen of a request: one answer, as the last thing it does, after
  readings only if it refuses, and nothing but a 401 without the token;
* `answered_once`: the requests of every run are answered so.
-/

namespace NtierLab

open Prog

/-! ## The requests -/

/-- A reading of a tenant. -/
def getTenant (t : TenantId) : CP Unit :=
  handled do
    match ← TenantStore.get t with
    | none => respondNotFound t
    | some item => respondRow 200 t item

/-- A handler of the tenant in a path, its id validated first. -/
def withTenant (raw : String) (f : TenantId → CP Unit) : CP Unit :=
  match validateTenantId (some raw) with
  | .error exc => handled (throw exc)
  | .ok t => f t

/-- The requests on tenants, with the id of the path as it arrives. -/
inductive TenantRoute
  | getTenant (raw : String)
  | createTenant (body : CreateBody)
  | suspend (raw : String)
  | resume (raw : String)
  | remove (raw : String)
  deriving DecidableEq

/-- The path of a request. -/
def TenantRoute.path : TenantRoute → String
  | getTenant raw | remove raw => "/tenants/" ++ raw
  | createTenant _ => "/tenants"
  | suspend raw => "/tenants/" ++ raw ++ "/suspend"
  | resume raw => "/tenants/" ++ raw ++ "/resume"

/-- The handler of a request. -/
def TenantRoute.prog : TenantRoute → CP Unit
  | getTenant raw => withTenant raw NtierLab.getTenant
  | createTenant body => NtierLab.createTenant body
  | suspend raw => withTenant raw NtierLab.suspend
  | resume raw => withTenant raw NtierLab.resume
  | remove raw => withTenant raw NtierLab.remove

/-- A request and its `Authorization` header. -/
structure HttpRequest where
  route : TenantRoute
  authorization : Option String
  deriving DecidableEq

/-- The check of the token comes before the handler; its exception is not of the hierarchy. -/
def HttpRequest.prog (env : CpEnv) (q : HttpRequest) : CP Unit :=
  match requireCpAuth env q.route.path q.authorization with
  | .error _ => throw (.other "comparing strings with non-ASCII characters is not supported")
  | .ok (some rejection) =>
    respond rejection.status
      (.error ((rejection.body.lookup "error").getD "") (rejection.body.lookup "message") none)
  | .ok none => q.route.prog

/-- The operations of the server: the requests, and the jobs they start. -/
inductive HttpOp
  | request (q : HttpRequest)
  | job (t : TenantId) (fn : JobFn)
  deriving DecidableEq

/-- The program of an operation. -/
def HttpOp.prog (env : CpEnv) : HttpOp → CP Unit
  | request q => q.prog env
  | job t fn => runJob t fn

/-- The server. -/
def http (env : CpEnv) : System cpSig Exn HttpOp Empty Server where
  prog := HttpOp.prog env
  step := serverWorld
  env _ _ _ := False
  fork e := ((jobStarted e).map fun q => .job q.1 q.2).toList

/-! ## The monitor of a request -/

/-- The event reads the registry, or the tenants in flight. -/
def Peeks (e : Event cpSig) : Prop :=
  match e.cmd with
  | .reg (.get _) | .app (.inFlight _) => True
  | _ => False

/-- The events are readings. -/
def Peeking (tr : Trace cpSig) : Prop := ∀ e ∈ tr, Peeks e

/-- The command answers no request. -/
def Silent : Cmd → Prop
  | .app (.respond _ _) => False
  | _ => True

/-- The request is not answered. -/
def Unanswered (tr : Trace cpSig) : Prop := ∀ e ∈ tr, Silent e.cmd

/-- The code refuses a request. -/
def Refusal (code : ℕ) : Prop := 400 ≤ code ∧ code < 500

/-- The request is answered, at last, after readings only if it is refused. -/
def Answered (tr : Trace cpSig) : Prop :=
  ∃ tr' code body, tr = tr' ++ [⟨.app (.respond code body), ()⟩] ∧ Unanswered tr' ∧
    (Refusal code → Peeking tr')

/-- What a request may do after the events `tr`: go on as long as it is not answered, and be
    refused as long as it has only read. -/
def MayAnswer (tr : Trace cpSig) : Cmd → Prop
  | .app (.respond code _) => Refusal code → Peeking tr
  | _ => True

/-- The monitor of a request: its state is the events so far. -/
def answers : Monitor cpSig (Trace cpSig) where
  allow tr c := Unanswered tr ∧ MayAnswer tr c
  next tr e := tr ++ [e]

@[simp] theorem answers_after (tr tr' : Trace cpSig) : answers.after tr tr' = tr ++ tr' := by
  induction tr' using List.reverseRecOn with
  | nil => simp
  | append_singleton tr' e ih => rw [Monitor.after_concat, ih]; simp [answers]

/-- The exception is answered by refusing the request. -/
def Refuses : Exn → Prop
  | .onboardError _ => True
  | .controlPlane exc => Refusal exc.kind.httpStatus
  | _ => False

/-- An exception after the events `tr`: the request is not answered, and what refuses it comes of
    readings only. -/
def Unwinds (e : Exn) (tr : Trace cpSig) : Prop := Unanswered tr ∧ (Refuses e → Peeking tr)

/-- The outcome of a request: it returns answered, or raises without an answer. -/
def Replied : Except Exn Unit → Trace cpSig → Prop := outcome (fun _ => Answered) Unwinds

section Handlers

variable {α : Type} {tr : Trace cpSig} {c : Cmd} {p : CP α} {t : TenantId}

theorem Peeking.unanswered (h : Peeking tr) : Unanswered tr := fun e he => by
  have := h e he
  unfold Peeks at this
  split at this
  · next hc => rw [hc]; trivial
  · next hc => rw [hc]; trivial
  · exact this.elim

theorem Peeking.concat {e : Event cpSig} (h : Peeking tr) (he : Peeks e) : Peeking (tr ++ [e]) := by
  intro e' he'
  rcases List.mem_append.1 he' with he' | he'
  · exact h e' he'
  · exact List.mem_singleton.1 he' ▸ he

theorem Unanswered.concat {e : Event cpSig} (h : Unanswered tr) (he : Silent e.cmd) :
    Unanswered (tr ++ [e]) := by
  intro e' he'
  rcases List.mem_append.1 he' with he' | he'
  · exact h e' he'
  · exact List.mem_singleton.1 he' ▸ he

/-- The events after a reading. -/
theorem Peeking.next {tr' : Trace cpSig} {r : cpSig.Resp c} (h : Peeking tr)
    (hpost : (answers.contract StoreOk).post c tr r tr') (hc : Peeks ⟨c, r⟩) : Peeking tr' := by
  obtain rfl := hpost.2
  exact h.concat hc

/-- The events after a command that is no answer. -/
theorem Unanswered.next {tr' : Trace cpSig} {r : cpSig.Resp c} (h : Unanswered tr)
    (hpost : (answers.contract StoreOk).post c tr r tr') (hc : Silent c) : Unanswered tr' := by
  obtain rfl := hpost.2
  exact h.concat hc

/-- An answer, after readings only if it refuses the request. -/
theorem replied_respond {code : ℕ} {body : Body} (htr : Unanswered tr)
    (h : Refusal code → Peeking tr) :
    (respond code body).wp (answers.contract StoreOk) Replied tr :=
  ⟨⟨htr, h⟩, fun _ _ hpost => ⟨tr, code, body, hpost.2, htr, h⟩⟩

/-- A refusal, after readings. -/
theorem replied_refusal {code : ℕ} {body : Body} (htr : Peeking tr) :
    (respond code body).wp (answers.contract StoreOk) Replied tr :=
  replied_respond htr.unanswered fun _ => htr

/-- An answer that is no refusal. -/
theorem replied_answer {code : ℕ} {body : Body} (htr : Unanswered tr) (h : ¬Refusal code) :
    (respond code body).wp (answers.contract StoreOk) Replied tr :=
  replied_respond htr fun hcode => absurd hcode h

/-- The errors of the hierarchy are answered, with the code of their class. -/
theorem replied_handled {q : CP Unit} (hq : q.wp (answers.contract StoreOk) Replied tr) :
    (handled q).wp (answers.contract StoreOk) Replied tr := by
  refine (wp_tryCatch _ _).2 (wp.imp hq fun x tr' hx => ?_)
  cases x with
  | ok a => exact hx
  | error e =>
    cases e with
    | controlPlane exc => exact replied_respond hx.1 hx.2
    | _ => exact hx

/-- A reading of a tenant, then the rest of the request. -/
theorem replied_get {g : Option Row → CP Unit} (htr : Peeking tr)
    (hg : ∀ item tr', Peeking tr' → (g item).wp (answers.contract StoreOk) Replied tr') :
    (TenantStore.get t >>= g).wp (answers.contract StoreOk) Replied tr :=
  (wp_bind _ _).2 ⟨⟨htr.unanswered, trivial⟩, fun item _ hpost =>
    hg item _ (htr.next hpost trivial)⟩

/-- A write of a tenant succeeds, then the rest of the request. -/
theorem unanswered_upsert {fs : Fields} (hfs : fs.Valid) (htr : Unanswered tr) :
    (TenantStore.upsert t fs).wp (answers.contract StoreOk)
      (outcome (fun _ => Unanswered) Unwinds) tr := by
  refine ⟨⟨htr, trivial⟩, fun r _ hpost => ?_⟩
  obtain ⟨row, rfl⟩ := hpost.1 hfs
  exact htr.next hpost trivial

theorem not_refusal {code : ℕ} (h : code < 400 ∨ 500 ≤ code) : ¬Refusal code := by
  unfold Refusal
  omega

/-- An error of the hierarchy refuses by the code of its class. -/
theorem not_refuses {kind : ControlPlaneKind} {message : String} (h : 500 ≤ kind.httpStatus) :
    ¬Refuses (.controlPlane ⟨kind, message⟩) := not_refusal (.inr h)

/-- The failure of a process refuses nothing. -/
theorem not_refuses_classifyFailure (c : Shell) (code : ℤ) : ¬Refuses (classifyFailure c code) := by
  have hretry (msg : String) : ¬Refuses (.kubernetesRetryableError msg) := not_refuses (by decide)
  have hfail (msg : String) : ¬Refuses (.permanentProvisioningError msg) := not_refuses (by decide)
  have hite {P : Prop} [Decidable P] {e e' : Exn} (he : ¬Refuses e) (he' : ¬Refuses e') :
      ¬Refuses (if P then e else e') := by
    split
    · exact he
    · exact he'
  exact hite (hretry _) (hfail _)

/-- A process of the lifecycle raises nothing that refuses the request. -/
theorem unanswered_lifecycleRun (c : Shell) (htr : Unanswered tr) :
    (lifecycleRun c).wp (answers.contract StoreOk) (outcome (fun _ => Unanswered) Unwinds) tr := by
  refine ⟨⟨htr, trivial⟩, fun r _ hpost => ?_⟩
  have hdone := htr.next hpost trivial
  cases r with
  | exited code =>
    refine (wp_ite _ _ _).2 ⟨fun _ => hdone, fun _ => ⟨hdone, fun h => ?_⟩⟩
    exact absurd h (not_refuses_classifyFailure c code)
  | timeoutExpired text =>
    have hretry : ¬Refuses (.kubernetesRetryableError text) := not_refuses (by decide)
    exact ⟨hdone, fun h => absurd h hretry⟩
  | raised text => exact ⟨hdone, fun h => h.elim⟩

theorem unanswered_runOk (c : Shell) (htr : Unanswered tr) :
    (runOk c).wp (answers.contract StoreOk) (outcome (fun _ => Unanswered) Unwinds) tr := by
  refine ⟨⟨htr, trivial⟩, fun r _ hpost => ?_⟩
  have hdone := htr.next hpost trivial
  cases r with
  | exited code => exact hdone
  | timeoutExpired text => exact ⟨hdone, fun h => h.elim⟩
  | raised text => exact ⟨hdone, fun h => h.elim⟩

/-- A job is started, or in flight already; the request is accepted in either case. -/
theorem replied_startJob (status : String) (fn : JobFn) (htr : Unanswered tr) :
    (startJob t status fn).wp (answers.contract StoreOk) Replied tr := by
  refine (wp_bind _ _).2 ⟨⟨htr, trivial⟩, fun begun _ hpost => ?_⟩
  have henter := htr.next hpost trivial
  refine (wp_bind _ _).2 ⟨⟨henter, trivial⟩, fun item _ hpost => ?_⟩
  exact replied_answer (henter.next hpost trivial) (not_refusal (.inl (by decide)))

/-! ## The handlers -/

theorem replied_getTenant (htr : Peeking tr) :
    (getTenant t).wp (answers.contract StoreOk) Replied tr := by
  refine replied_handled (replied_get htr fun item tr' htr' => ?_)
  cases item with
  | none => exact replied_refusal htr'
  | some row => exact replied_refusal htr'

theorem replied_acceptCreate (body : CreateBody) (htr : Unanswered tr) :
    (acceptCreate t body).wp (answers.contract StoreOk) Replied tr :=
  wp.bind (unanswered_upsert (by simp [provisioning]) htr)
    (fun _ _ h => replied_startJob _ _ h) fun _ _ h => h

/-- With a row, a request to create is refused or answered at once, or accepted. -/
theorem replied_createExisting (body : CreateBody) (row : Row) (htr : Peeking tr) :
    (createExisting t body row).wp (answers.contract StoreOk) Replied tr := by
  unfold createExisting
  split
  all_goals first | exact replied_refusal htr | exact replied_acceptCreate body htr.unanswered

theorem replied_createTenant (body : CreateBody) (htr : Peeking tr) :
    (createTenant body).wp (answers.contract StoreOk) Replied tr := by
  cases h : body.tenantId with
  | error e =>
    rw [createTenant_error h]
    exact replied_refusal htr
  | ok t =>
    rw [createTenant_ok h]
    refine replied_handled (replied_get htr fun item tr' htr' => ?_)
    cases item with
    | none => exact replied_acceptCreate body htr'.unanswered
    | some row => exact replied_createExisting body row htr'

/-- A suspension refused by the status has only read it. -/
theorem raises_suspendTenant (htr : Peeking tr) :
    (suspendTenant t).wp (answers.contract StoreOk) (outcome (fun _ => Unanswered) Unwinds) tr := by
  refine (wp_bind _ _).2 ⟨⟨htr.unanswered, trivial⟩, fun item _ hpost => ?_⟩
  have hread := htr.next hpost trivial
  cases item with
  | none => exact ⟨hread.unanswered, fun _ => hread⟩
  | some row =>
    refine (wp_ite _ _ _).2 ⟨fun _ => hread.unanswered, fun _ => ?_⟩
    refine (wp_ite _ _ _).2 ⟨fun _ => ⟨hread.unanswered, fun _ => hread⟩, fun _ => ?_⟩
    refine wp.bind (unanswered_lifecycleRun _ hread.unanswered) (fun _ _ h => ?_) fun _ _ h => h
    refine wp.bind (unanswered_runOk _ h) (fun _ _ h => ?_) fun _ _ h => h
    exact unanswered_upsert (by simp [Fields.desire]) h

theorem replied_suspend (htr : Peeking tr) :
    (suspend t).wp (answers.contract StoreOk) Replied tr := by
  refine replied_handled ((wp_tryCatch _ _).2 ?_)
  refine wp.bind (raises_suspendTenant htr) (fun row _ h => ?_) fun e _ h => ?_
  · exact replied_answer h (not_refusal (.inl (by decide)))
  · cases e with
    | onboardError message => exact replied_refusal (h.2 trivial)
    | _ => exact h

theorem replied_resume (htr : Peeking tr) :
    (resume t).wp (answers.contract StoreOk) Replied tr := by
  refine replied_handled (replied_get htr fun item tr' htr' => ?_)
  cases item with
  | none => exact replied_refusal htr'
  | some row =>
    dsimp only
    split
    · exact replied_refusal htr'
    · exact replied_startJob _ _ htr'.unanswered
    · exact replied_refusal htr'

theorem replied_acceptRemove (htr : Unanswered tr) :
    (acceptRemove t).wp (answers.contract StoreOk) Replied tr :=
  wp.bind (unanswered_upsert (by simp [deleting, Fields.desire]) htr)
    (fun _ _ h => replied_startJob _ _ h) fun _ _ h => h

theorem replied_remove (htr : Peeking tr) :
    (remove t).wp (answers.contract StoreOk) Replied tr := by
  refine replied_handled (replied_get htr fun item tr' htr' => ?_)
  cases item with
  | none =>
    -- A tenant without a row gets one, so the answer after it is no refusal.
    exact wp.bind (unanswered_upsert (by simp [deleting, Fields.desire]) htr'.unanswered)
      (fun _ _ h => replied_acceptRemove h) fun _ _ h => h
  | some row =>
    refine (wp_ite _ _ _).2 ⟨fun _ => ?_, fun _ => replied_acceptRemove htr'.unanswered⟩
    refine (wp_bind _ _).2 ⟨⟨htr'.unanswered, trivial⟩, fun running _ hpost => ?_⟩
    have hread := htr'.next hpost trivial
    refine (wp_ite _ _ _).2 ⟨fun _ => replied_refusal hread, fun _ => ?_⟩
    exact replied_acceptRemove hread.unanswered

/-- The id of a path is validated before anything else. -/
theorem replied_withTenant {raw : String} {g : TenantId → CP Unit} (htr : Peeking tr)
    (hg : ∀ t, (g t).wp (answers.contract StoreOk) Replied tr) :
    (withTenant raw g).wp (answers.contract StoreOk) Replied tr := by
  unfold withTenant
  split
  · exact replied_handled ⟨htr.unanswered, fun _ => htr⟩
  · exact hg _

theorem HttpRequest.replied (env : CpEnv) (q : HttpRequest) :
    (q.prog env).wp (answers.contract StoreOk) Replied [] := by
  have hnil : Peeking [] := fun e he => absurd he List.not_mem_nil
  unfold HttpRequest.prog
  split
  · exact ⟨hnil.unanswered, fun h => h.elim⟩
  · exact replied_refusal hnil
  · cases q.route with
    | getTenant raw => exact replied_withTenant hnil fun t => replied_getTenant hnil
    | createTenant body => exact replied_createTenant body hnil
    | suspend raw => exact replied_withTenant hnil fun t => replied_suspend hnil
    | resume raw => exact replied_withTenant hnil fun t => replied_resume hnil
    | remove raw => exact replied_withTenant hnil fun t => replied_remove hnil

end Handlers

/-! ## Without the token -/

variable {env : CpEnv} {q : HttpRequest} {s : Server} {ls : List (Label cpSig HttpOp Empty)}
  {p : Config cpSig Exn HttpOp Server} {G : System.Guard cpSig Exn HttpOp Empty Server}
  {th : Thread cpSig Exn HttpOp}

/-- The check of the token lets a request through. -/
def HttpRequest.Admitted (env : CpEnv) (q : HttpRequest) : Prop :=
  requireCpAuth env q.route.path q.authorization = .ok none

/-- A rejection is for want of the token. -/
theorem requireCpAuth_rejection {path : String} {authorization : Option String} {r : Rejection}
    (h : requireCpAuth env path authorization = .ok (some r)) : r = unauthorized := by
  simp only [requireCpAuth, authorizeHttp] at h
  split at h
  · cases h
  split at h
  · cases h
  split at h
  · cases h
    rfl
  cases hcompare : compareDigest (bearerToken authorization) (pyStrip (configuredToken env)) with
  | error e =>
    rw [hcompare] at h
    cases h
  | ok same =>
    rw [hcompare] at h
    cases same
    · cases h
      rfl
    · cases h

/-- A request that is not let through is answered 401 at most. -/
theorem HttpRequest.calls_unauthorized (h : ¬q.Admitted env) :
    (q.prog env).Calls fun c : Cmd => ∃ body, c = .app (.respond 401 body) := by
  unfold HttpRequest.prog
  split
  · trivial
  · next r hr =>
    obtain rfl := requireCpAuth_rejection hr
    exact ⟨⟨_, rfl⟩, fun _ => trivial⟩
  · next hr => exact absurd hr h

/-! ## Every run -/

/-- What is seen of a request. -/
structure AnsweredOnce (env : CpEnv) (q : HttpRequest) (th : Thread cpSig Exn HttpOp) : Prop where
  /-- Its answer is the last thing it does; refused, it has only read. -/
  answer : ∀ tr code body tr', th.hist = tr ++ ⟨.app (.respond code body), ()⟩ :: tr' →
    tr' = [] ∧ th.prog = .ret () ∧ (Refusal code → Peeking tr)
  /-- It returns with an answer only. -/
  returned : th.prog = .ret () → ∃ code body, ⟨.app (.respond code body), ()⟩ ∈ th.hist
  /-- Without the token, it is answered 401 at most. -/
  unauthorized : ¬q.Admitted env → ∀ e ∈ th.hist, ∃ body, e.cmd = .app (.respond 401 body)

/-- An answer at the end of events among which it is the only one. -/
theorem answer_last {tr₁ tr₂ tr' : Trace cpSig} {code code' : ℕ} {body body' : Body}
    (h : tr₁ ++ ⟨.app (.respond code body), ()⟩ :: tr₂ =
      tr' ++ [⟨.app (.respond code' body'), ()⟩]) (htr' : Unanswered tr') :
    tr₂ = [] ∧ tr₁ = tr' ∧ code = code' := by
  rcases List.eq_nil_or_concat tr₂ with rfl | ⟨tr₃, e, rfl⟩
  · obtain ⟨rfl, he⟩ := List.append_inj' h rfl
    refine ⟨rfl, rfl, ?_⟩
    have hcmd := congrArg Event.cmd (List.singleton_inj.1 he)
    simp only [Cmd.app.injEq, AppCmd.respond.injEq] at hcmd
    exact hcmd.1
  · -- An answer before the last event is among those that are silent.
    rw [List.concat_eq_append, ← List.cons_append, ← List.append_assoc] at h
    obtain ⟨rfl, -⟩ := List.append_inj' h rfl
    exact absurd (htr' _ (List.mem_append_right _ List.mem_cons_self)) id

/-- In every run, with any number of requests and jobs at once and whatever the commands do, a
    request is answered once at most. -/
theorem answered_once (hr : (http env).Run G (.new s) ls p) (hth : th ∈ p.threads)
    (hop : th.op = .request q) : AnsweredOnce env q th := by
  have hwp := hr.meets (m := answers) (q.replied env) (fun _ _ _ _ h => storeOk h) th hth hop
  rw [answers_after, List.nil_append] at hwp
  refine ⟨fun tr code body tr' h => ?_, fun hret => ?_, fun hauth e he => ?_⟩
  · have hanswer : ¬Unanswered th.hist := fun hsilent =>
      hsilent ⟨.app (.respond code body), ()⟩ (h ▸ List.mem_append_right _ List.mem_cons_self)
    -- A thread that has answered has ended: one that goes on, or raised, was silent.
    cases hprog : th.prog with
    | ret a =>
      rw [hprog] at hwp
      obtain ⟨tr₁, code', body', hhist, hsilent, hread⟩ := hwp
      obtain ⟨rfl, rfl, rfl⟩ := answer_last (h.symm.trans hhist) hsilent
      exact ⟨rfl, rfl, hread⟩
    | fail e =>
      rw [hprog] at hwp
      exact absurd hwp.1 hanswer
    | call c k =>
      rw [hprog] at hwp
      exact absurd hwp.1.1 hanswer
  · rw [hret] at hwp
    obtain ⟨tr, code, body, hhist, -, -⟩ := hwp
    exact ⟨code, body, hhist ▸ List.mem_append_right _ (List.mem_singleton_self _)⟩
  · exact (hr.calls (HttpRequest.calls_unauthorized hauth) th hth hop).2 e he

/-- A request to resume a tenant without a row. -/
def resumeMissing : HttpRequest := ⟨.resume "a", none⟩

/-- It reads the registry, and is answered. -/
theorem resumeMissing_answered : ((http {}).play (fun _ => serverAnswer "now" succeeding)
    (fun _ _ => none) (fun _ _ => true) (.new ⟨∅, ∅⟩)
    [.start (.request resumeMissing), .run 0 (), .run 0 ()]).map
    (fun r => r.2.threads.map fun th => (th.op, th.hist.length)) =
      some [(.request resumeMissing, 2)] := by
  decide +kernel

theorem answered_once_missing : ∃ th : Thread cpSig Exn HttpOp, th.hist.length = 2 ∧
    AnsweredOnce {} resumeMissing th := by
  obtain ⟨⟨ls, p⟩, hp, hthreads⟩ := Option.map_eq_some_iff.1 resumeMissing_answered
  obtain ⟨th, hth, hseen⟩ := List.map_eq_singleton_iff.1 hthreads
  obtain ⟨hop, hlen⟩ := Prod.mk.inj hseen
  have hrun := System.run_play (fun _ => serverAnswer_step "now" succeeding) (fun x => x.elim) hp
  exact ⟨th, hlen, answered_once hrun (hth ▸ List.mem_singleton_self th) hop⟩

end NtierLab
