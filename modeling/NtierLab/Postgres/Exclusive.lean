import NtierLab.Prog.System
import NtierLab.Postgres.Conserved
import NtierLab.Postgres.Acknowledged

/-!
# Requests at the same time

Any number of requests to a pod at the same time, on one pool, statement by statement, while the
other sessions write and run scripts (`requests`). What the pool hands out is in it, or none that a
request holds (`HandsOutFree`); the pool has no lock, and this is what it is left to keep to.

* `holding`: the monitor of a request: it uses the connection it holds, and takes one only when it
  holds none;
* `Exclusive`: a connection is held by one request at most, and is not in the pool then;
* `connections_exclusive`: so in every run, and what a request holds is left as it is by every
  other step.
-/

namespace NtierLab

open Prog

/-! ## What a request holds -/

/-- The monitor of a request; its state is the connection held. -/
def holding : Monitor podSig (Option ℕ) where
  allow held cmd :=
    (∀ c, cmd.conn = some c → held = some c) ∧ (cmd = .client .getconn → held = none)
  next held e :=
    match e with
    | ⟨.client c, r⟩ => heldAfter held c r
    | _ => held

/-- The connection a thread holds. -/
def Thread.held (th : Thread podSig String PodRequest) : Option ℕ := holding.after none th.hist

/-- The command is on no connection, and takes none. -/
def Aloof (cmd : PodCmd) : Prop := cmd.conn = none ∧ cmd ≠ .client .getconn

/-- The commands of a request, along what it holds. -/
abbrev holdings : Contract podSig (Option ℕ) := holding.contract fun _ => True

section

variable {pod : Pod} {c : ℕ} {s : Option ℕ} {α : Type} {cmd : PodCmd}

theorem Aloof.next (h : Aloof cmd) (r : cmd.Resp) : holding.next s ⟨cmd, r⟩ = s := by
  cases cmd with
  | client cmd =>
    cases cmd with
    | getconn => exact absurd rfl h.2
    | putconn c close => cases h.1
    | _ => rfl
  | _ => rfl

theorem Aloof.allow (h : Aloof cmd) : holding.allow s cmd :=
  ⟨fun _ hc => absurd (h.1.symm.trans hc) nofun, fun hget => absurd hget h.2⟩

theorem PodCmd.Apart.aloof (h : cmd.Apart) : Aloof cmd := ⟨h.1, h.2.1⟩

/-- A program that keeps away from connections does so whatever is held. -/
theorem aloof_held {p : Served α} (hp : p.Calls Aloof) : p.wp holdings (fun _ s' => s' = s) s :=
  hp.wp (fun _ _ hcmd hs => ⟨hcmd.allow, fun r _ hr => hr.2.trans ((hcmd.next r).trans hs)⟩) rfl

theorem apart_held {p : Served α} (hp : p.Calls PodCmd.Apart) : p.wp holdings (fun _ _ => True) s :=
  (aloof_held (hp.imp fun _ h => h.aloof)).imp fun _ _ _ => trivial

/-- A program that uses the connection held. -/
theorem uses_held {p : Served α} (hp : p.Calls (PodCmd.Uses c)) :
    p.wp holdings (fun _ s => s = some c) (some c) := by
  refine hp.wp (fun cmd s hcmd hs => ?_) rfl
  subst hs
  rcases hcmd with ⟨hapart, -⟩ | ⟨hconn, hput⟩
  · exact ⟨hapart.aloof.allow, fun r s' hr => hr.2.trans (hapart.aloof.next r)⟩
  · refine ⟨⟨fun d hd => hconn.symm.trans hd, fun hget => ?_⟩, fun r s' hr => hr.2.trans ?_⟩
    · rw [hget] at hconn
      cases hconn
    · cases cmd with
      | client cmd =>
        cases cmd with
        | getconn => cases hconn
        | putconn d close => exact absurd rfl (hput d close)
        | _ => rfl
      | _ => rfl

theorem rollback_held : (Serving.rollback c).wp holdings (fun _ s => s = some c) (some c) :=
  uses_held ⟨.inr ⟨rfl, by simp⟩, fun r => calls_result r⟩

theorem bindTenant_held :
    (Serving.bindTenant pod c).wp holdings (fun _ s => s = some c) (some c) := by
  have hclose : (Serving.closeCursor c).Calls (PodCmd.Uses c) :=
    ⟨.inr ⟨rfl, by simp⟩, fun r => calls_result r⟩
  have hset : (Serving.query c (.setConfig pod.tenantId)).Calls (PodCmd.Uses c) :=
    ⟨.inr ⟨rfl, by simp⟩, fun r => calls_result r⟩
  have hrollback : (Serving.rollback c).Calls (PodCmd.Uses c) :=
    ⟨.inr ⟨rfl, by simp⟩, fun r => calls_result r⟩
  exact uses_held (.bind hrollback fun _ => .ite (fun _ => uses_cursor fun _ =>
    .ensuring hset hclose) fun _ => trivial)

theorem attempt_held {p : Served α} {Q : Except String (Except String α) → Option ℕ → Prop}
    (hp : p.wp holdings (fun x s' => Q (.ok x) s') s) : (Serving.attempt p).wp holdings Q s :=
  (wp_tryCatch _ _).2 ((wp_map _ _).2 (hp.imp fun x _ hx => by
    cases x with
    | ok a => exact hx
    | error e => exact hx))

theorem putconn_held (close : Bool) :
    (Serving.putconn c close).wp holdings (fun _ _ => True) (some c) := by
  refine ⟨⟨fun d hd => hd, nofun⟩, fun r s' _ => (wp_result _).2 trivial⟩

theorem getconn_takes : Serving.getconn.wp holdings
    (fun x s' => (∀ c, x = .ok (some c) → s' = some c)) none := by
  refine ⟨⟨nofun, fun _ => rfl⟩, fun r s' hr => (wp_result _).2 ?_⟩
  rintro c rfl
  exact hr.2

/-- A request holds the connection it gets. -/
theorem getDbConnection_held : (Serving.getDbConnection pod).wp holdings
    (fun x s' => ∀ c, x = .ok (some c) → s' = some c) none := by
  have hlog : (Serving.logEvent "db_getconn_error").Calls Aloof :=
    ⟨⟨rfl, nofun⟩, fun r => calls_result r⟩
  refine (wp_bind _ _).2 (attempt_held (wp.imp (Q := fun x s' => ∀ c, x = .ok (some c) →
    s' = some c) ?_ fun x s₁ hx => ?_))
  · refine ⟨⟨nofun, nofun⟩, fun missing s₁ hs₁ => (wp_ite _ _ _).2 ⟨fun _ => ?_, fun _ => ?_⟩⟩
    · have hinit : Serving.initDbPool.Calls Aloof :=
        Serving.initDbPool_calls ⟨rfl, nofun⟩ fun _ => ⟨rfl, nofun⟩
      refine (wp_bind _ _).2 ((aloof_held hinit).imp fun x s₂ hs₂ => ?_)
      obtain rfl : s₂ = none := hs₂.trans hs₁.2
      cases x with
      | ok u => exact getconn_takes
      | error e => exact nofun
    · obtain rfl : s₁ = none := hs₁.2
      exact getconn_takes
  · rcases x with e | _ | c
    · refine (wp_bind _ _).2 ((aloof_held hlog).imp fun y s₂ _ => ?_)
      cases y <;> exact nofun
    · exact nofun
    · obtain rfl := hx c rfl
      refine (wp_bind _ _).2 (attempt_held (bindTenant_held.imp fun x s₂ hs₂ => ?_))
      obtain rfl := hs₂
      cases x with
      | ok u =>
        intro d hd
        cases hd
        rfl
      | error e =>
        -- One that cannot be bound is closed, and none is returned.
        refine (wp_bind _ _).2 ((aloof_held hlog).imp fun y s₃ hs₃ => ?_)
        obtain rfl := hs₃
        cases y with
        | error e => exact nofun
        | ok u =>
          refine (wp_bind _ _).2 ((wp_tryCatch _ _).2 ((putconn_held true).imp fun z s₄ _ => ?_))
          cases z <;> exact nofun

theorem dbConn_held {body : Option ℕ → Served α} (hbody : UsesOnly body) :
    (Serving.dbConn pod body).wp holdings (fun _ _ => True) none := by
  refine (wp_bind _ _).2 (getDbConnection_held.imp fun x s₁ hx => ?_)
  rcases x with e | _ | c
  · trivial
  · refine (wp_ensuring _ _).2 ((apart_held hbody.1).imp fun y s₂ _ => ?_)
    cases y <;> trivial
  · obtain rfl := hx c rfl
    refine (wp_ensuring _ _).2 ((uses_held (hbody.2 c)).imp fun y s₂ hs₂ => ?_)
    obtain rfl := hs₂
    refine ⟨⟨nofun, nofun⟩, fun missing s₃ hs₃ => ?_⟩
    obtain rfl : s₃ = some c := hs₃.2
    refine (wp_ite _ _ _).2 ⟨fun _ => trivial, fun _ => (wp_bind _ _).2 ((wp_tryCatch _ _).2
      (rollback_held.imp fun z s₄ hs₄ => ?_))⟩
    obtain rfl := hs₄
    cases z <;> exact (putconn_held false).imp fun z _ _ => by cases z <;> trivial

theorem orError_held {p : Served PodResponse} (hp : p.wp holdings (fun _ _ => True) s) :
    (Serving.orError pod p).wp holdings (fun _ _ => True) s :=
  (wp_tryCatch _ _).2 (hp.imp fun x _ _ => by
    cases x with
    | ok r => trivial
    | error e => exact apart_held (answer_apart _))

theorem withDb_held {p : Served PodResponse} (hp : p.wp holdings (fun _ _ => True) s) :
    (Serving.withDb pod p).wp holdings (fun _ _ => True) s := by
  refine (wp_ite _ _ _).2 ⟨fun _ => apart_held (answer_apart _), fun _ => ?_⟩
  split
  · exact apart_held (answer_apart _)
  · exact hp

theorem health_held : (Serving.health pod).wp holdings (fun _ _ => True) none := by
  have hlog : (Serving.logEvent "health").Calls PodCmd.Apart := logEvent_apart (by decide)
  have hunhealthy : (do
      Serving.logEvent "health"
      some <$> Serving.answer Pod.unhealthy : Served (Option PodResponse)).Calls PodCmd.Apart :=
    .bind hlog fun _ => .map _ (answer_apart _)
  refine (wp_ite _ _ _).2 ⟨fun _ => ?_, fun _ => apart_held (answer_apart _)⟩
  have hhealthy (s₁ : Option ℕ) : (Serving.answer { body := .texts [("status", "healthy")] }).wp
      holdings (fun _ _ => True) s₁ := apart_held (answer_apart _)
  refine (wp_bind _ _).2 ((wp_tryCatch _ _).2 ((dbConn_held ⟨hunhealthy, fun c => ?_⟩).imp ?_))
  · refine uses_cursor fun _ => uses_query fun _ => uses_closeCursor fun _ => ?_
    exact .bind ⟨.inl ⟨⟨rfl, by simp, by simp⟩, by simp⟩, fun r => calls_result r⟩ fun _ => trivial
  · intro x s₁ _
    cases x with
    | ok early =>
      cases early with
      | some r => trivial
      | none => exact hhealthy s₁
    | error e =>
      refine (apart_held hunhealthy).imp fun y s₂ _ => ?_
      cases y with
      | ok early =>
        cases early with
        | some r => trivial
        | none => exact hhealthy s₂
      | error e => trivial

theorem route_held (req : PodRequest) :
    (Serving.route pod req).wp holdings (fun _ _ => True) none := by
  have hdb {body : Option ℕ → Served PodResponse} (hbody : UsesOnly body) :
      (Serving.orError pod (Serving.dbConn pod body)).wp holdings (fun _ _ => True) none :=
    orError_held (dbConn_held hbody)
  unfold Serving.route
  split
  · exact apart_held (answer_apart _)
  · exact health_held
  · refine (wp_ite _ _ _).2 ⟨fun _ => apart_held (answer_apart _), fun _ => ?_⟩
    refine withDb_held (hdb ⟨answer_apart _, fun c => ?_⟩)
    exact uses_cursor fun _ => uses_query fun _ => uses_query fun _ => uses_closeCursor fun _ =>
      uses_answer _
  · refine withDb_held (hdb ⟨answer_apart _, fun c => ?_⟩)
    refine uses_cursor fun _ => uses_query fun row => uses_closeCursor fun _ => ?_
    rcases row with _ | ⟨rls, force⟩
    · exact uses_answer _
    · exact uses_answer _
  · refine withDb_held ?_
    by_cases hother : req.json = .other
    · rw [hother]
      trivial
    · rw [message_text hother]
      cases req.json.text with
      | none => exact apart_held (answer_apart _)
      | some message =>
        refine hdb ⟨answer_apart _, fun c => ?_⟩
        exact uses_cursor fun _ => uses_query fun _ => uses_commit fun _ =>
          uses_closeCursor fun _ => uses_answer _
  · refine withDb_held (hdb ⟨answer_apart _, fun c => ?_⟩)
    exact uses_cursor fun _ => uses_query fun _ => uses_closeCursor fun _ => uses_answer _
  · trivial

/-- A request uses the connection it holds, and takes one only when it holds none. -/
theorem serve_held (req : PodRequest) :
    (Serving.serve pod req).wp holdings (fun _ _ => True) none := by
  have hdispatch : (Serving.dispatch pod req).wp holdings (fun _ _ => True) none := by
    unfold Serving.dispatch
    split
    · exact apart_held (answer_apart _)
    · exact route_held req
  have hafter : (Serving.afterRequest req).Calls PodCmd.Apart :=
    .ite (fun _ => logEvent_apart (by decide)) fun _ => trivial
  refine (wp_bind _ _).2 (hdispatch.imp fun x s₁ _ => ?_)
  cases x with
  | error e => trivial
  | ok resp => exact apart_held (.bind hafter fun _ => trivial)

end

/-! ## The pool after a command -/

section

variable {order : RowOrder} {role : String} {x : ClientChoice} {w w' : Client} {c : ℕ}
  {cmd : ClientCmd}

/-- A command that takes and gives back no connection leaves the pool as it is. -/
theorem answer_idle (hget : cmd ≠ .getconn) (hput : ∀ c close, cmd ≠ .putconn c close) :
    (w.answer order role x cmd).2.idle = w.idle := by
  cases cmd with
  | poolMissing | initPool => rfl
  | getconn => exact absurd rfl hget
  | putconn c close => exact absurd rfl (hput c close)
  | rollback c =>
    simp only [Client.answer]
    split
    · split
      · rfl
      · split
        · exact endTx_idle
        · rfl
    · split
      · rfl
      · exact endTx_idle
  | commit c =>
    simp only [Client.answer]
    split
    · split
      · split <;> exact endTx_idle
      · split <;> rfl
    · split
      · rfl
      · exact endTx_idle
  | query c q =>
    simp only [Client.answer, Client.query]
    split
    · rfl
    · split
      · rfl
      · split <;> rfl

/-- A connection handed out leaves the pool, or was not in it. -/
theorem getconn_idle {r : Except String (Option ℕ)}
    (h : w.answer order role x .getconn = (r, w')) :
    (∃ c, r = .ok (some c) ∧ (c ∈ w.idle ∧ w' = { w with idle := w.idle.erase c } ∨
      c ∉ w.idle ∧ w' = w.setConn c (some {}))) ∨ w' = w ∧ ∀ c, r ≠ .ok (some c) := by
  simp only [Client.answer] at h
  split at h
  · cases h
    exact .inr ⟨rfl, by simp⟩
  · cases h
    exact .inr ⟨rfl, by simp⟩
  · split at h
    · next hidle =>
      cases h
      exact .inl ⟨_, rfl, .inl ⟨hidle, rfl⟩⟩
    · next hidle =>
      split at h
      · cases h
        exact .inl ⟨_, rfl, .inr ⟨hidle, rfl⟩⟩
      · cases h
        exact .inr ⟨rfl, by simp⟩

/-- A connection given back is in the pool, or closed. -/
theorem putconn_idle {close : Bool} :
    (w.answer order role x (.putconn c close)).2.idle = w.idle ∨
      (w.answer order role x (.putconn c close)).2.idle = c :: w.idle := by
  simp only [Client.answer]
  split
  · left
    split <;> rfl
  · split
    · exact .inl rfl
    · right
      rfl

theorem endTx_conns {d : ℕ} (h : d ≠ c) : (w.endTx c).conns d = w.conns d := by
  unfold Client.endTx
  split
  · rfl
  · exact Function.update_of_ne h ..

theorem setConn_conns {d : ℕ} {conn : Option Conn} (h : d ≠ c) :
    (w.setConn c conn).conns d = w.conns d := Function.update_of_ne h ..

/-- A command on another connection leaves a connection as it is. -/
theorem answer_conns {d : ℕ} (hget : cmd ≠ .getconn)
    (hconn : ∀ c, PodCmd.conn (.client cmd) = some c → d ≠ c) :
    (w.answer order role x cmd).2.conns d = w.conns d := by
  cases cmd with
  | poolMissing | initPool => rfl
  | getconn => exact absurd rfl hget
  | putconn c close =>
    have hne := hconn c rfl
    simp only [Client.answer]
    split
    · split
      · exact setConn_conns hne
      · rfl
    · split
      · exact setConn_conns hne
      · split
        · exact endTx_conns hne
        · rfl
  | rollback c =>
    have hne := hconn c rfl
    simp only [Client.answer]
    split
    · split
      · exact setConn_conns hne
      · split
        · exact endTx_conns hne
        · rfl
    · split
      · rfl
      · exact endTx_conns hne
  | commit c =>
    have hne := hconn c rfl
    simp only [Client.answer]
    split
    · split
      · split
        · exact (setConn_conns hne).trans (endTx_conns hne)
        · exact endTx_conns hne
      · split
        · exact setConn_conns hne
        · rfl
    · split
      · rfl
      · exact endTx_conns hne
  | query c q =>
    have hne := hconn c rfl
    simp only [Client.answer, Client.query]
    split
    · rfl
    · split
      · rfl
      · split
        · exact setConn_conns hne
        · exact setConn_conns hne
        · exact setConn_conns hne

end

/-! ## The requests at the same time -/

/-- A command of a request on the pool, after what the other sessions do. A pool opened by two
    requests at once is the later one; when that one fails, it is the one there was. -/
def sharing (order : RowOrder) (role : String) : Handler podSig Client
  | .client .initPool, w, _, w' =>
    ∃ w₁, w.Others w₁ ∧ (w' = w₁ ∨ w' = { w₁ with pool := true, idle := [] })
  | .client c, w, r, w' => clientStep order role c w r w'
  | .log _, w, _, w' | .cursor _, w, _, w' | .closeCursor _, w, _, w' | .jsonify, w, _, w' => w' = w

/-- Requests at the same time. -/
def requests (order : RowOrder) (role : String) (pod : Pod) :
    System podSig String PodRequest Unit Client where
  prog req := do let _ ← Serving.serve pod req
  step := sharing order role
  env _ w w' := w.Others w'
  fork _ := []

/-- The connection an event hands out. -/
def handedOut : Event podSig → Option ℕ
  | ⟨.client .getconn, .ok c⟩ => c
  | _ => none

/-- The connection a step hands out. -/
def Label.handsOut : Label podSig PodRequest Unit → Option ℕ
  | .run _ _ e => handedOut e
  | _ => none

/-- A connection handed out was in the pool, or is none that a request holds. -/
def HandsOutFree (p : Config podSig String PodRequest Client) (l : Label podSig PodRequest Unit) :
    Prop :=
  ∀ c ∈ l.handsOut, c ∈ p.world.idle ∨ ∀ th ∈ p.threads, th.held ≠ some c

instance (p : Config podSig String PodRequest Client) (l : Label podSig PodRequest Unit) :
    Decidable (HandsOutFree p l) :=
  inferInstanceAs (Decidable (∀ c ∈ l.handsOut, _))

/-- The request of a place holds a connection. -/
def Config.Holds (p : Config podSig String PodRequest Client) (n c : ℕ) : Prop :=
  ∃ th, p.threads[n]? = some th ∧ th.held = some c

/-- A connection is held by one request at most, and is out of the pool then. -/
structure Exclusive (p : Config podSig String PodRequest Client) : Prop where
  nodup : p.world.idle.Nodup
  out : ∀ n c, p.Holds n c → c ∉ p.world.idle
  one : ∀ m n c, p.Holds m c → p.Holds n c → m = n

/-- What a command of a request makes of the pool, by what it hands out, and what the request holds
    before and after it: nothing, or a connection is taken, or given back. -/
inductive Change (w w' : Client) : Option ℕ → Option ℕ → Option ℕ → Prop
  | none {h : Option ℕ} : w'.idle = w.idle ∨ w'.idle = [] →
      (∀ d, h ≠ some d → w'.conns d = w.conns d) → Change w w' none h h
  | taken {c : ℕ} : (c ∈ w.idle ∧ w'.idle = w.idle.erase c ∨ c ∉ w.idle ∧ w'.idle = w.idle) →
      (∀ d, d ≠ c → w'.conns d = w.conns d) → Change w w' (some c) none (some c)
  | given {c : ℕ} : w'.idle = w.idle ∨ w'.idle = c :: w.idle →
      (∀ d, d ≠ c → w'.conns d = w.conns d) → Change w w' none (some c) none

section

variable {order : RowOrder} {role : String} {pod : Pod} {w w' : Client}
  {p p' : Config podSig String PodRequest Client} {l : Label podSig PodRequest Unit}
  {ls : List (Label podSig PodRequest Unit)} {h : Option ℕ} {n c : ℕ}

theorem Others.conns (ho : w.Others w') : w'.conns = w.conns := by rw [ho.client]

theorem Others.idle (ho : w.Others w') : w'.idle = w.idle := by rw [ho.client]

theorem sharing_client {cmd : ClientCmd} {r : cmd.Resp} (hinit : cmd ≠ .initPool) :
    sharing order role (.client cmd) w r w' ↔ clientStep order role cmd w r w' := by
  cases cmd with
  | initPool => exact absurd rfl hinit
  | _ => exact Iff.rfl

theorem sharing_change {cmd : PodCmd} {r : cmd.Resp} (hallow : holding.allow h cmd)
    (hst : sharing order role cmd w r w') :
    Change w w' (handedOut ⟨cmd, r⟩) h (holding.next h ⟨cmd, r⟩) := by
  cases cmd with
  | client cmd =>
    -- Only the pool's own commands change it, and only one on a connection changes that connection.
    by_cases hinit : cmd = .initPool
    · subst hinit
      obtain ⟨w₁, ho, rfl | rfl⟩ := hst
      · exact .none (.inl (Others.idle ho)) fun _ _ => congrFun (Others.conns ho) _
      · exact .none (.inr rfl) fun _ _ => congrFun (Others.conns ho) _
    obtain ⟨w₁, x, ho, hans⟩ := (sharing_client hinit).1 hst
    have hw' : w' = (w₁.answer order role x cmd).2 := (congrArg Prod.snd hans).symm
    by_cases hget : cmd = .getconn
    · subst hget
      obtain rfl := hallow.2 rfl
      rcases getconn_idle hans with ⟨c, rfl, hc⟩ | ⟨hsame, hr⟩
      · refine .taken ?_ fun d hd => ?_
        · rw [← Others.idle ho]
          rcases hc with ⟨hc, rfl⟩ | ⟨hc, rfl⟩
          · exact .inl ⟨hc, rfl⟩
          · exact .inr ⟨hc, rfl⟩
        · rw [← Others.conns ho]
          rcases hc with ⟨-, rfl⟩ | ⟨-, rfl⟩
          · rfl
          · exact setConn_conns hd
      · subst hsame
        have hnone : Change w w' none none none :=
          .none (.inl (Others.idle ho)) fun _ _ => congrFun (Others.conns ho) _
        rcases r with e | _ | c
        · exact hnone
        · exact hnone
        · exact absurd rfl (hr c)
    · have hconns {d : ℕ} (hconn : ∀ c, PodCmd.conn (.client cmd) = some c → d ≠ c) :
          w'.conns d = w.conns d := by
        rw [hw', answer_conns hget hconn, Others.conns ho]
      by_cases hput : ∃ c close, cmd = .putconn c close
      · obtain ⟨c, close, rfl⟩ := hput
        obtain rfl := hallow.1 c rfl
        refine .given ?_ fun d hd => hconns fun c' hc' => Option.some.inj hc' ▸ hd
        rw [hw', ← Others.idle ho]
        exact putconn_idle
      · have hidle : w'.idle = w.idle := by
          rw [hw', answer_idle hget fun c close h => hput ⟨c, close, h⟩, Others.idle ho]
        have hnone : Change w w' none h h :=
          .none (.inl hidle) fun d hd => hconns fun c hc hdc => hd (hdc ▸ hallow.1 c hc)
        cases cmd with
        | getconn => exact absurd rfl hget
        | putconn c close => exact absurd ⟨c, close, rfl⟩ hput
        | _ => exact hnone
  | _ =>
    obtain rfl : w' = w := hst
    exact .none (.inl rfl) fun _ _ => rfl

/-- A step of another request leaves what a request holds. -/
theorem holds_other (hst : (requests order role pod).Step p l p')
    (hl : ∀ req e, l ≠ .run n req e) : p'.Holds n c ↔ p.Holds n c := by
  cases hst with
  | @start w ts i =>
    rcases Nat.lt_or_ge n ts.length with hn | hn
    · simp only [Config.Holds, List.getElem?_append_left hn]
    · have hnot : ¬Config.Holds ⟨w, ts⟩ n c := by
        rintro ⟨th, hth, -⟩
        rw [List.getElem?_eq_none hn] at hth
        cases hth
      refine iff_of_false ?_ hnot
      rintro ⟨th, hth, hheld⟩
      rw [List.getElem?_append_right hn] at hth
      obtain rfl := List.mem_singleton.1 (List.mem_of_getElem? hth)
      cases hheld
  | @run w w' ts m i t cmd k r hm hr =>
    have hne : m ≠ n := fun h => hl i ⟨cmd, r⟩ (h ▸ rfl)
    simp only [Config.Holds, requests, List.map_nil, List.append_nil, List.getElem?_set_ne hne]
  | env _ => exact Iff.rfl

/-- A step of a request changes the pool and what the request holds. -/
theorem holds_run {req : PodRequest} {e : Event podSig}
    (hobeys : p.Obeys holding (fun _ => True) fun _ => none)
    (hst : (requests order role pod).Step p (.run n req e) p') :
    ∃ h, Change p.world p'.world (handedOut e) h (holding.next h e) ∧
      (∀ c, p.Holds n c ↔ h = some c) ∧ ∀ c, p'.Holds n c ↔ holding.next h e = some c := by
  obtain ⟨th, hth, -, hallow⟩ := hst.allow hobeys
  cases hst with
  | @run w w' ts _ _ t cmd k r hn hr =>
    obtain rfl := Option.some.inj (hth.symm.trans hn)
    refine ⟨_, sharing_change hallow hr, fun c => ?_, fun c => ?_⟩
    · simp [Config.Holds, hn, Thread.held]
    · have hlt : n < ts.length := (List.getElem?_eq_some_iff.1 hn).1
      simp [Config.Holds, requests, List.getElem?_set_self hlt, Thread.held]

/-- A connection handed out is none that a request holds. -/
theorem Exclusive.handed (hx : Exclusive p) (hfree : HandsOutFree p l)
    (hc : l.handsOut = some c) : ¬p.Holds n c := by
  rintro ⟨th, hth, hheld⟩
  rcases hfree c hc with hidle | hnone
  · exact hx.out n c ⟨th, hth, hheld⟩ hidle
  · exact hnone th (List.mem_of_getElem? hth) hheld

/-- A connection stays exclusive, as long as the pool makes none that a request holds. -/
theorem Exclusive.step (hx : Exclusive p) (hobeys : p.Obeys holding (fun _ => True) fun _ => none)
    (hfree : HandsOutFree p l) (hst : (requests order role pod).Step p l p') : Exclusive p' := by
  have hsame (hidle : p'.world.idle = p.world.idle ∨ p'.world.idle = [])
      (hholds : ∀ m c, p'.Holds m c ↔ p.Holds m c) : Exclusive p' := by
    refine ⟨?_, fun m c hm => ?_,
      fun m n c hm hn => hx.one m n c ((hholds m c).1 hm) ((hholds n c).1 hn)⟩
    · rcases hidle with hidle | hidle
      · exact hidle ▸ hx.nodup
      · exact hidle ▸ List.nodup_nil
    · rcases hidle with hidle | hidle
      · exact hidle ▸ hx.out m c ((hholds m c).1 hm)
      · exact hidle ▸ List.not_mem_nil
  cases l with
  | start req =>
    refine hsame (.inl ?_) fun m c => holds_other hst fun req e hl => by cases hl
    cases hst
    rfl
  | env u =>
    refine hsame (.inl ?_) fun m c => holds_other hst fun req e hl => by cases hl
    cases hst with
    | env ho => exact Others.idle ho
  | run n req e =>
    have hother {m d : ℕ} (hm : m ≠ n) : p'.Holds m d ↔ p.Holds m d :=
      holds_other hst fun req' e' heq => hm (Label.run.inj heq).1.symm
    obtain ⟨h, hchange, hbefore, hafter⟩ := holds_run hobeys hst
    have hhanded (d : ℕ) (hd : handedOut e = some d) (m : ℕ) : ¬p.Holds m d := hx.handed hfree hd
    generalize handedOut e = s at hchange hhanded
    generalize holding.next h e = h' at hchange hafter
    cases hchange with
    | none hidle _ =>
      refine hsame hidle fun m d => ?_
      by_cases hm : m = n
      · rw [hm, hafter, hbefore]
      · exact hother hm
    | @taken c hc _ =>
      have hunheld (m : ℕ) : ¬p.Holds m c := hhanded c rfl m
      -- What is held after the step was held before it, or is the connection taken.
      have hback {m d : ℕ} (hm : p'.Holds m d) : m = n ∧ d = c ∨ m ≠ n ∧ d ≠ c ∧ p.Holds m d := by
        by_cases hmn : m = n
        · subst hmn
          exact .inl ⟨rfl, (Option.some.inj ((hafter d).1 hm)).symm⟩
        · have hm' := (hother hmn).1 hm
          exact .inr ⟨hmn, fun hd => hunheld m (hd ▸ hm'), hm'⟩
      have hsub {d : ℕ} (hd : d ∈ p'.world.idle) : d ∈ p.world.idle ∧ d ≠ c := by
        rcases hc with ⟨-, hidle⟩ | ⟨hnot, hidle⟩
        · rw [hidle, hx.nodup.mem_erase_iff] at hd
          exact hd.symm
        · rw [hidle] at hd
          exact ⟨hd, fun h => hnot (h ▸ hd)⟩
      refine ⟨?_, fun m d hm hd => ?_, fun m m' d hm hm' => ?_⟩
      · rcases hc with ⟨-, hidle⟩ | ⟨-, hidle⟩
        · exact hidle ▸ hx.nodup.erase c
        · exact hidle ▸ hx.nodup
      · rcases hback hm with ⟨-, rfl⟩ | ⟨-, -, hm⟩
        · exact (hsub hd).2 rfl
        · exact hx.out m d hm (hsub hd).1
      · rcases hback hm with ⟨rfl, rfl⟩ | ⟨hmn, hne, hm⟩
        · rcases hback hm' with ⟨rfl, -⟩ | ⟨-, hne, -⟩
          · rfl
          · exact absurd rfl hne
        · rcases hback hm' with ⟨-, rfl⟩ | ⟨-, -, hm'⟩
          · exact absurd rfl hne
          · exact hx.one m m' d hm hm'
    | @given c hc _ =>
      have hheld : p.Holds n c := (hbefore c).2 rfl
      -- What is held after the step is not the connection given back.
      have hback {m d : ℕ} (hm : p'.Holds m d) : d ≠ c ∧ p.Holds m d := by
        have hmn : m ≠ n := by
          rintro rfl
          exact absurd ((hafter d).1 hm) nofun
        have hm' := (hother hmn).1 hm
        exact ⟨fun hd => hmn (hx.one m n c (hd ▸ hm') hheld), hm'⟩
      refine ⟨?_, fun m d hm hd => ?_, fun m m' d hm hm' =>
        hx.one m m' d (hback hm).2 (hback hm').2⟩
      · rcases hc with hidle | hidle
        · exact hidle ▸ hx.nodup
        · exact hidle ▸ List.nodup_cons.2 ⟨hx.out n c hheld, hx.nodup⟩
      · obtain ⟨hne, hm⟩ := hback hm
        rcases hc with hidle | hidle
        · exact hx.out m d hm (hidle ▸ hd)
        · rw [hidle] at hd
          exact hx.out m d hm ((List.mem_cons.1 hd).resolve_left hne)

/-- A step leaves the connection of a request that it is no step of. -/
theorem Exclusive.kept (hx : Exclusive p) (hobeys : p.Obeys holding (fun _ => True) fun _ => none)
    (hfree : HandsOutFree p l) (hst : (requests order role pod).Step p l p')
    (hl : ∀ req e, l ≠ .run n req e) (hn : p.Holds n c) :
    p'.world.conns c = p.world.conns c := by
  cases l with
  | start req =>
    cases hst
    rfl
  | env u =>
    cases hst with
    | env ho => exact congrFun (Others.conns ho) c
  | run m req e =>
    have hmn : m ≠ n := fun h => hl req e (h ▸ rfl)
    obtain ⟨h, hchange, hbefore, -⟩ := holds_run hobeys hst
    have hhanded (d : ℕ) (hd : handedOut e = some d) : d ≠ c :=
      fun hdc => hx.handed hfree (l := .run m req e) hd (hdc ▸ hn)
    have hheld (d : ℕ) (hd : h = some d) : c ≠ d :=
      fun hcd => hmn (hx.one m n d ((hbefore d).2 hd) (hcd ▸ hn))
    -- The connection is not the one taken by the step, nor the one its thread holds.
    generalize handedOut e = s at hchange hhanded
    generalize holding.next h e = h' at hchange
    cases hchange with
    | none _ hconns => exact hconns c fun hc => hheld c hc rfl
    | taken _ hconns => exact hconns c (hhanded _ rfl).symm
    | given _ hconns => exact hconns c (hheld _ rfl)

/-- The requests of a run keep to the connections they hold. -/
theorem requests_obey {G : System.Guard podSig String PodRequest Unit Client}
    (hr : (requests order role pod).Run G (.new w) ls p) :
    p.Obeys holding (fun _ => True) fun _ => none := by
  refine hr.obeys (fun req => ?_) (fun _ _ _ _ _ => trivial) (Config.obeys_new holding _ _ _)
  refine (wp_bind _ _).2 ((serve_held req).imp fun x s _ => ?_)
  cases x <;> trivial

/-- In every run from an empty pool, the connections are exclusive. -/
theorem requests_exclusive (hw : w.idle = [])
    (hr : (requests order role pod).Run HandsOutFree (.new w) ls p) : Exclusive p := by
  induction hr with
  | nil =>
    have hnew (n c : ℕ) : ¬(Config.new w : Config podSig String PodRequest Client).Holds n c := by
      rintro ⟨th, hth, -⟩
      cases hth
    exact ⟨hw ▸ List.nodup_nil, fun n c hn => absurd hn (hnew n c),
      fun m n c hm => absurd hm (hnew m c)⟩
  | snoc hr hfree hst ih => exact ih.step (requests_obey hr) hfree hst

/-- In every run, a connection that a request holds is out of the pool and no other request's; a
    request uses only the connection it holds; and every step but its own leaves the connection as
    it is, and with the request. -/
theorem connections_exclusive {db : Db} {rows : List Record} {pool : Bool}
    (hr : (requests order role pod).Run HandsOutFree (.new { db, rows, pool }) ls p) :
    (∀ n c, p.Holds n c → c ∉ p.world.idle ∧ ∀ m, p.Holds m c → m = n) ∧
      ∀ l p', HandsOutFree p l → (requests order role pod).Step p l p' →
        (∀ n req e c, l = .run n req e → e.cmd.conn = some c → p.Holds n c) ∧
        ∀ n c, p.Holds n c → (∀ req e, l ≠ .run n req e) →
          p'.Holds n c ∧ p'.world.conns c = p.world.conns c := by
  have hobeys := requests_obey hr
  have hx := requests_exclusive rfl hr
  refine ⟨fun n c hn => ⟨hx.out n c hn, fun m hm => hx.one m n c hm hn⟩,
    fun l p' hfree hst => ⟨?_, fun n c hn hl =>
      ⟨(holds_other hst hl).2 hn, hx.kept hobeys hfree hst hl hn⟩⟩⟩
  rintro n req e c rfl hc
  obtain ⟨th, hth, -, hallow⟩ := hst.allow hobeys
  exact ⟨th, hth, hallow.1 c hc⟩

end

/-! ## Two requests at the same time -/

/-- How the client of `a` answers the requests, but for what raises. -/
def requestsAnswer (x : ClientChoice) (c : PodCmd) (w : Client) : c.Resp × Client :=
  match c with
  | .client .initPool => (.ready, { w with pool := true, idle := [] })
  | .client c => w.answer byTime TenantId.a.role x c
  | .log _ | .cursor _ | .closeCursor _ | .jsonify => (x.fails.elim (.ok ()) .error, w)

theorem requestsAnswer_step (x : ClientChoice) (c : PodCmd) (w : Client) :
    (requests byTime TenantId.a.role podA).step c w (requestsAnswer x c w).1
      (requestsAnswer x c w).2 := by
  cases c with
  | client c =>
    cases c with
    | initPool => exact ⟨w, ⟨rfl, .refl⟩, .inr rfl⟩
    | _ => exact ⟨w, x, ⟨rfl, .refl⟩, rfl⟩
  | _ => rfl

/-- Two items posted at the same time, up to where each request has its connection. -/
def twoItems : List (System.Move PodRequest Unit ClientChoice) :=
  [.start (spoofed .createItem), .start (spoofed .createItem),
    .run 0 {}, .run 0 {}, .run 0 {}, .run 1 {}, .run 0 { conn := some 0 },
    .run 1 { conn := some 1 }, .run 0 {}, .run 1 {}]

def twoItemsPlayed : Option (List (Label podSig PodRequest Unit) ×
    Config podSig String PodRequest Client) :=
  (requests byTime TenantId.a.role podA).play requestsAnswer (fun _ _ => none)
    (fun p l => decide (HandsOutFree p l)) (.new { db := migratedA.2.world, rows := [] }) twoItems

/-- They hold two connections, and neither is in the pool. -/
theorem connections_exclusive_two : ∃ p : Config podSig String PodRequest Client,
    p.Holds 0 0 ∧ p.Holds 1 1 ∧ ¬p.Holds 1 0 ∧ 0 ∉ p.world.idle := by
  have hplay : (twoItemsPlayed.map fun q => q.2.threads.map Thread.held) =
      some [some 0, some 1] := by decide +kernel
  obtain ⟨⟨ls, p⟩, hp, hheld⟩ := Option.map_eq_some_iff.1 hplay
  have hr := (System.run_play requestsAnswer_step (fun _ _ _ => by simp) hp).weaken
    fun _ _ => of_decide_eq_true
  have hholds (n c : ℕ) (hc : [some 0, some 1][n]? = some (some c)) : p.Holds n c := by
    rw [← hheld, List.getElem?_map] at hc
    obtain ⟨th, hth, hc⟩ := Option.map_eq_some_iff.1 hc
    exact ⟨th, hth, hc⟩
  obtain ⟨hexclusive, -⟩ := connections_exclusive hr
  obtain ⟨hout, hone⟩ := hexclusive 0 0 (hholds 0 0 rfl)
  exact ⟨p, hholds 0 0 rfl, hholds 1 1 rfl, fun h => absurd (hone 1 h) (by decide), hout⟩

end NtierLab
