import NtierLab.ControlPlane.Locality
import NtierLab.ControlPlane.Server

/-!
# Accepted requests

What becomes of the requests to create, to resume and to delete a tenant that are
answered 202.
-/

namespace NtierLab

open Prog

/-! ## Events of a request -/

/-- The event answers the request with a code. -/
def Answers (code : ℕ) (e : Event cpSig) : Prop :=
  match e.cmd with
  | .app (.respond c _) => c = code
  | _ => False

/-- The event answers the request, or ends the job. -/
def Finishes (e : Event cpSig) : Prop :=
  match e.cmd with
  | .app (.respond _ _) | .app (.discard _) => True
  | _ => False

/-- The event writes a row. -/
def WritesRow (e : Event cpSig) : Prop :=
  match e.cmd with
  | .reg (.upsert _ _ _) => True
  | _ => False

/-- The event asks to start a job of the tenant; whether it is started. -/
def Enters (t : TenantId) (fn : JobFn) (begun : Bool) (e : Event cpSig) : Prop :=
  match e with
  | ⟨.app (.enter u g), r⟩ => u = t ∧ g = fn ∧ r = begun
  | _ => False

theorem Enters.eq {t : TenantId} {fn : JobFn} {begun : Bool} {e : Event cpSig}
    (h : Enters t fn begun e) : e = ⟨.app (.enter t fn), begun⟩ := by
  unfold Enters at h
  split at h
  · next u g r =>
    obtain ⟨rfl, rfl, rfl⟩ := h
    rfl
  · exact h.elim

/-- The event finds a job of the tenant in flight. -/
def FindsJob (t : TenantId) (e : Event cpSig) : Prop :=
  match e with
  | ⟨.app (.inFlight u), r⟩ => u = t ∧ r = true
  | _ => False

theorem FindsJob.eq {t : TenantId} {e : Event cpSig} (h : FindsJob t e) :
    e = ⟨.app (.inFlight t), true⟩ := by
  unfold FindsJob at h
  split at h
  · next u r =>
    obtain ⟨rfl, rfl⟩ := h
    rfl
  · exact h.elim

/-- The event reads the row of the tenant as SUSPENDED. -/
def ReadsSuspended (t : TenantId) (e : Event cpSig) : Prop :=
  match e with
  | ⟨.reg (.get u), r⟩ => u = t ∧ ∃ row, r = some row ∧ row.status = .suspended
  | _ => False

theorem ReadsSuspended.eq {t : TenantId} {e : Event cpSig} (h : ReadsSuspended t e) :
    ∃ row : Row, e = ⟨.reg (.get t), some row⟩ ∧ row.status = .suspended := by
  unfold ReadsSuspended at h
  split at h
  · next u r =>
    obtain ⟨rfl, row, rfl, hrow⟩ := h
    exact ⟨row, rfl, hrow⟩
  · exact h.elim

theorem Answers.eq {code : ℕ} {e : Event cpSig} (h : Answers code e) :
    ∃ body, e = ⟨.app (.respond code body), ()⟩ := by
  obtain ⟨c, r⟩ := e
  unfold Answers at h
  split at h
  · next code' body hc =>
    obtain rfl : c = .app (.respond code' body) := hc
    subst h
    exact ⟨body, rfl⟩
  · exact h.elim

theorem WritesRow.eq {e : Event cpSig} (h : WritesRow e) :
    ∃ t v f, e.cmd = .reg (.upsert t v f) := by
  unfold WritesRow at h
  split at h
  · next t v f hc => exact ⟨t, v, f, hc⟩
  · exact h.elim

/-- The request has been answered, or the job has ended. -/
def Finished (tr : Trace cpSig) : Prop := ∃ e ∈ tr, Finishes e

/-- A deletion has written the row, or found a job in flight. -/
def Committed (t : TenantId) (tr : Trace cpSig) : Prop := ∃ e ∈ tr, WritesRow e ∨ FindsJob t e

/-- A deletion has asked to start its job, or found a job in flight. -/
def Handed (t : TenantId) (tr : Trace cpSig) : Prop :=
  ∃ e ∈ tr, FindsJob t e ∨ ∃ begun, Enters t .delete begun e

/-- What a request, or a job, does after the events `tr`. -/
def Request.Allows (tr : Trace cpSig) : Request → Cmd → Prop
  | .createTenant body, .reg (.upsert u _ _) => body.tenantId = .ok u
  | .createTenant body, .app (.enter u fn) => body.tenantId = .ok u ∧ fn = body.job
  | .createTenant body, .app (.respond code _) => code = 202 → (∃ e ∈ tr, WritesRow e) →
      ∃ u, body.tenantId = .ok u ∧ ∃ e ∈ tr, ∃ begun, Enters u body.job begun e
  | .resume _, .reg (.upsert _ _ _) => False
  | .resume t, .app (.enter u fn) => u = t ∧ fn = .resume ∧ ∃ e ∈ tr, ReadsSuspended t e
  | .resume t, .app (.respond code _) => code = 202 → ∃ e ∈ tr, ∃ begun, Enters t .resume begun e
  | .remove t, .reg (.upsert u v f) =>
    u = t ∧ v = none ∧ f.Dooms ∧ f.desiredStatus = Fields.desire .gone
  | .remove t, .app (.enter u fn) => u = t ∧ fn = .delete ∧ Committed t tr
  | .remove t, .app (.respond code _) => code = 202 → Committed t tr ∧ Handed t tr
  | .job t fn, .reg (.upsert u v f) => u = t ∧ (fn = .delete → v = none ∧ f.Dooms)
  | .job t fn, .reg (.delete u) => u = t ∧ fn = .delete
  | .job t _, .app (.discard u) => u = t
  | .job _ _, .app (.enter _ _) | .job _ _, .app (.respond _ _) => False
  | _, .reg (.delete _) | _, .app (.discard _) => False
  | _, _ => True

section Allows

variable {i : Request} {tr : Trace cpSig} {t : TenantId} {fn : JobFn}

/-- Only a request asks for a job: to create, to resume or to delete its tenant. -/
theorem Request.Allows.enter (h : i.Allows tr (.app (.enter t fn))) :
    (∃ body, i = .createTenant body ∧ body.tenantId = .ok t ∧ fn = body.job) ∨
      (i = .resume t ∧ fn = .resume ∧ ∃ e ∈ tr, ReadsSuspended t e) ∨
      (i = .remove t ∧ fn = .delete ∧ Committed t tr) := by
  cases i with
  | createTenant body => exact .inl ⟨body, rfl, h.1, h.2⟩
  | resume u => obtain ⟨rfl, h⟩ := h; exact .inr (.inl ⟨rfl, h⟩)
  | remove u => obtain ⟨rfl, h⟩ := h; exact .inr (.inr ⟨rfl, h⟩)
  | job u g => exact False.elim h

/-- Only a job ends: that of its tenant. -/
theorem Request.Allows.discard (h : i.Allows tr (.app (.discard t))) : ∃ fn, i = .job t fn := by
  cases i with
  | job u g => obtain rfl : t = u := h; exact ⟨g, rfl⟩
  | _ => exact False.elim h

/-- A job finishes by ending. -/
theorem Request.Allows.finishes {c : Cmd} {r : cpSig.Resp c}
    (h : (Request.job t fn).Allows tr c) (hc : Finishes ⟨c, r⟩) : c = .app (.discard t) := by
  unfold Finishes at hc
  split at hc
  · next code body hcmd =>
    obtain rfl : c = .app (.respond code body) := hcmd
    exact False.elim h
  · next u hcmd =>
    obtain rfl : c = .app (.discard u) := hcmd
    rw [show u = t from h]
  · exact hc.elim

end Allows

/-- The protocol of the requests and the jobs: its state is the request with its events so far. -/
def protocol : Monitor cpSig (Request × Trace cpSig) where
  allow q c := ¬Finished q.2 ∧ q.1.Allows q.2 c
  next q e := (q.1, q.2 ++ [e])

/-- The protocol keeps the history of the request. -/
@[simp] theorem protocol_after (i : Request) (tr tr' : Trace cpSig) :
    protocol.after (i, tr) tr' = (i, tr ++ tr') := by
  induction tr' using List.reverseRecOn with
  | nil => simp
  | append_singleton tr' e ih => rw [Monitor.after_concat, ih]; simp [protocol]

/-- The transactions of the store succeed on valid fields. -/
def StoreOk (e : Event cpSig) : Prop :=
  match e with
  | ⟨.reg (.upsert _ none f), r⟩ => f.Valid → ∃ row, r = .ok row
  | _ => True

/-- The server's store answers so. -/
theorem storeOk {c : Cmd} {s s' : Server} {r : cpSig.Resp c} (h : serverWorld c s r s') :
    StoreOk ⟨c, r⟩ := by
  unfold StoreOk
  split
  · next t f r' heq =>
    cases heq
    intro hf
    obtain ⟨now, rfl, -⟩ := (openWorld_upsert hf).1 h.1
    exact ⟨_, rfl⟩
  · trivial

section Handlers

variable {t : TenantId} {i : Request} {tr : Trace cpSig}
  {Q : Except Exn Unit → Request × Trace cpSig → Prop}

theorem not_finished_nil : ¬Finished [] := fun ⟨_, h, _⟩ => nomatch h

theorem mem_last {e : Event cpSig} : e ∈ tr ++ [e] :=
  List.mem_append_right tr (List.mem_singleton_self e)

theorem mem_concat {e e' : Event cpSig} (h : e ∈ tr) : e ∈ tr ++ [e'] := List.mem_append_left _ h

/-- A request goes on with an event that does not finish it. -/
theorem not_finished_concat {e : Event cpSig} (htr : ¬Finished tr) (he : ¬Finishes e) :
    ¬Finished (tr ++ [e]) := by
  rintro ⟨e', h, he'⟩
  rcases List.mem_append.1 h with h | h
  · exact htr ⟨e', h, he'⟩
  · exact he (List.mem_singleton.1 h ▸ he')

/-- The last steps of a request: its job is asked for, the row is read, and it is answered. -/
theorem startJob_wp {fn : JobFn} {status : String} (htr : ¬Finished tr)
    (hget : ∀ tr', i.Allows tr' (.reg (.get t))) (henter : i.Allows tr (.app (.enter t fn)))
    (hrespond : ∀ (begun : Bool) (row : Option Row) body,
      i.Allows (tr ++ [⟨.app (.enter t fn), begun⟩] ++ [⟨.reg (.get t), row⟩])
        (.app (.respond 202 body)))
    (hQ : ∀ v, Q (.ok ()) v) :
    (startJob t status fn).wp (protocol.contract StoreOk) Q (i, tr) := by
  refine ⟨⟨htr, henter⟩, ?_⟩
  rintro (begun : Bool) _ ⟨-, rfl⟩
  have htr' := not_finished_concat (e := ⟨.app (.enter t fn), begun⟩) htr id
  refine ⟨⟨htr', hget _⟩, ?_⟩
  rintro (row : Option Row) _ ⟨-, rfl⟩
  have htr'' := not_finished_concat (e := ⟨.reg (.get t), row⟩) htr' id
  exact ⟨⟨htr'', hrespond begun row _⟩, fun _ _ _ => hQ _⟩

/-- Answering ends the request. -/
theorem respond_wp {code : ℕ} {body : Body} (htr : ¬Finished tr)
    (hrespond : i.Allows tr (.app (.respond code body))) (hQ : ∀ v, Q (.ok ()) v) :
    (respond code body).wp (protocol.contract StoreOk) Q (i, tr) :=
  ⟨⟨htr, hrespond⟩, fun _ _ _ => hQ _⟩

/-- Valid fields are written. -/
theorem upsert_wp {f : Fields} {k : Row → CP Unit} (hf : f.Valid) (htr : ¬Finished tr)
    (hupsert : i.Allows tr (.reg (.upsert t none f)))
    (hk : ∀ row, (k row).wp (protocol.contract StoreOk) Q
      (i, tr ++ [⟨.reg (.upsert t none f), .ok row⟩])) :
    (TenantStore.upsert t f >>= k).wp (protocol.contract StoreOk) Q (i, tr) := by
  refine ⟨⟨htr, hupsert⟩, ?_⟩
  rintro r _ ⟨hr, rfl⟩
  obtain ⟨row, rfl⟩ := hr hf
  exact hk row

/-- The request to resume keeps to its protocol. -/
theorem resume_obeys (t : TenantId) : (resume t).Obeys protocol StoreOk (.resume t, []) := by
  refine (wp_tryCatch _ _).2 ⟨⟨not_finished_nil, trivial⟩, ?_⟩
  rintro (row : Option Row) _ ⟨-, rfl⟩
  have htr := not_finished_concat (e := ⟨.reg (.get t), row⟩) not_finished_nil id
  cases row with
  | none => exact respond_wp htr (fun h => nomatch h) fun _ => trivial
  | some item =>
    simp only [Prog.bind]
    split
    · exact respond_wp htr (fun h => nomatch h) fun _ => trivial
    · next hs =>
      refine startJob_wp htr (fun _ => trivial) ⟨rfl, rfl, _, mem_last, rfl, item, rfl, hs⟩ ?_ fun _ =>
        trivial
      exact fun begun row body _ => ⟨_, mem_concat mem_last, begun, rfl, rfl, rfl⟩
    · exact respond_wp htr (fun h => nomatch h) fun _ => trivial

/-- A deletion accepted writes the row, then asks for its job. -/
theorem acceptRemove_wp (htr : ¬Finished tr) (hQ : ∀ v, Q (.ok ()) v) :
    (acceptRemove t).wp (protocol.contract StoreOk) Q (.remove t, tr) := by
  have hdooms : deleting.Dooms := ⟨.inr rfl, .inl rfl, rfl⟩
  refine upsert_wp (by simp [deleting]) htr ⟨rfl, rfl, hdooms, rfl⟩ fun row => ?_
  have htr' := not_finished_concat (e := ⟨.reg (.upsert t none deleting), .ok row⟩) htr id
  refine startJob_wp htr' (fun _ => trivial) ⟨rfl, rfl, _, mem_last, .inl trivial⟩ ?_ hQ
  intro begun row' body _
  exact ⟨⟨_, mem_concat (mem_concat mem_last), .inl trivial⟩,
    ⟨_, mem_concat mem_last, .inr ⟨begun, rfl, rfl, rfl⟩⟩⟩

/-- The request to delete keeps to its protocol. -/
theorem remove_obeys (t : TenantId) : (remove t).Obeys protocol StoreOk (.remove t, []) := by
  refine (wp_tryCatch _ _).2 ⟨⟨not_finished_nil, trivial⟩, ?_⟩
  rintro (row : Option Row) _ ⟨-, rfl⟩
  have htr := not_finished_concat (e := ⟨.reg (.get t), row⟩) not_finished_nil id
  cases row with
  | none =>
    refine upsert_wp (by simp [deleting]) htr ⟨rfl, rfl, ⟨.inr rfl, .inl rfl, rfl⟩, rfl⟩ fun row => ?_
    exact acceptRemove_wp (not_finished_concat htr id) fun _ => trivial
  | some item =>
    refine (wp_ite _ _ _).2 ⟨fun _ => ⟨⟨htr, trivial⟩, ?_⟩, fun _ => acceptRemove_wp htr fun _ => trivial⟩
    rintro (running : Bool) _ ⟨-, rfl⟩
    have htr' := not_finished_concat (e := ⟨.app (.inFlight t), running⟩) htr id
    refine (wp_ite _ _ _).2 ⟨fun h => ?_, fun _ => acceptRemove_wp htr' fun _ => trivial⟩
    refine respond_wp htr' (fun _ => ?_) fun _ => trivial
    exact ⟨⟨_, mem_last, .inr ⟨rfl, h⟩⟩, ⟨_, mem_last, .inl ⟨rfl, h⟩⟩⟩

/-- A creation accepted writes the row, then asks for its job. -/
theorem acceptCreate_wp {body : CreateBody} (hbody : body.tenantId = .ok t) (htr : ¬Finished tr)
    (hQ : ∀ v, Q (.ok ()) v) :
    (acceptCreate t body).wp (protocol.contract StoreOk) Q (.createTenant body, tr) := by
  refine upsert_wp (by simp [provisioning]) htr hbody fun row => ?_
  refine startJob_wp (not_finished_concat htr id) (fun _ => trivial) ⟨hbody, rfl⟩ ?_ hQ
  intro begun row' body' _ _
  exact ⟨t, hbody, _, mem_concat mem_last, begun, rfl, rfl, rfl⟩

/-- The request to create keeps to its protocol. -/
theorem createTenant_obeys (body : CreateBody) :
    (createTenant body).Obeys protocol StoreOk (.createTenant body, []) := by
  cases hbody : body.tenantId with
  | error e =>
    rw [createTenant_error hbody]
    exact respond_wp not_finished_nil (fun h => nomatch h) fun _ => trivial
  | ok t =>
  rw [createTenant_ok hbody]
  refine (wp_tryCatch _ _).2 ⟨⟨not_finished_nil, trivial⟩, ?_⟩
  rintro (row : Option Row) _ ⟨-, rfl⟩
  have htr := not_finished_concat (e := ⟨.reg (.get t), row⟩) not_finished_nil id
  -- An answer without a row written.
  have hrespond (code : ℕ) (answer : Body) :
      (Request.createTenant body).Allows ([] ++ [⟨.reg (.get t), row⟩]) (.app (.respond code answer)) := by
    rintro - ⟨e, he, hw⟩
    cases List.mem_singleton.1 he
    exact hw.elim
  cases row with
  | none => exact acceptCreate_wp hbody htr fun _ => trivial
  | some existing =>
    simp only [Prog.bind, createExisting]
    split <;> first
      | exact respond_wp htr (hrespond _ _) fun _ => trivial
      | exact acceptCreate_wp hbody htr fun _ => trivial

/-- A job whose function issues commands that are allowed at any time, and end nothing. -/
theorem ensuring_obeys {fn : JobFn} {p : CP Unit}
    (hp : p.Calls fun c : Cmd => (∀ r, ¬Finishes ⟨c, r⟩) ∧ ∀ tr, (Request.job t fn).Allows tr c) :
    (p.ensuring (.call (.app (.discard t)) .ret)).Obeys protocol StoreOk (.job t fn, []) := by
  have hI := hp.wp (K := protocol.contract StoreOk) (I := fun q => q.1 = .job t fn ∧ ¬Finished q.2)
    (v := (.job t fn, [])) ?_ ⟨rfl, not_finished_nil⟩
  · refine (wp_ensuring _ _).2 (hI.imp fun x v hv => ⟨⟨hv.2, ?_⟩, fun _ _ _ => trivial⟩)
    rw [hv.1]
    rfl
  · rintro c ⟨i, tr⟩ hc ⟨rfl, htr⟩
    refine ⟨⟨htr, hc.2 tr⟩, ?_⟩
    rintro r _ ⟨-, rfl⟩
    exact ⟨rfl, not_finished_concat htr (hc.1 r)⟩

/-- A job ends with its discard. -/
theorem runJob_obeys (t : TenantId) (fn : JobFn) :
    (runJob t fn).Obeys protocol StoreOk (.job t fn, []) := by
  by_cases hfn : fn = .delete
  · subst hfn
    refine ensuring_obeys (jobFn_deletes.imp fun c hc => ?_)
    rcases c with (_ | _ | _ | _) | _ | _ | _ | _ | _ <;>
      simp_all [Deletes, Quiet, Finishes, Request.Allows]
  · refine ensuring_obeys ((jobFn_upserts hfn).imp fun c hc => ?_)
    rcases c with (_ | _ | _ | _) | _ | _ | _ | _ | _ <;>
      simp_all [Upserts, Quiet, Finishes, Request.Allows]

/-- Every request keeps to its protocol. -/
theorem Request.obeys (i : Request) : i.prog.Obeys protocol StoreOk (i, []) := by
  cases i with
  | createTenant body => exact createTenant_obeys body
  | resume t => exact resume_obeys t
  | remove t => exact remove_obeys t
  | job t fn => exact runJob_obeys t fn

end Handlers

end NtierLab
