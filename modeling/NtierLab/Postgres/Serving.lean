import NtierLab.Postgres.PodIsolation

/-!
# The application, statement by statement

The application of a pod with the statements around those of the database that may raise: its
log lines, its cursors and its responses (`Serving.serve`). Where none of these raises, it is the
application on the database alone (`erase_serve`).
-/

namespace NtierLab

open Prog

/-- The commands of the application. -/
inductive PodCmd
  | client (c : ClientCmd)
  /-- `log_event`, but for the fields other than `msg`. -/
  | log (msg : String)
  /-- `conn.cursor()`. -/
  | cursor (c : ℕ)
  | closeCursor (c : ℕ)
  /-- A response is built. -/
  | jsonify
  deriving DecidableEq

/-- The responses of the commands, or the text of the exception raised. -/
abbrev PodCmd.Resp : PodCmd → Type
  | client c => c.Resp
  | log _ | cursor _ | closeCursor _ | jsonify => Except String Unit

/-- The signature of the application. -/
abbrev podSig : Sig := ⟨PodCmd, PodCmd.Resp⟩

/-- The programs of the application, statement by statement. -/
abbrev Served (α : Type) := Prog podSig String α

namespace Serving

/-- Executes a query on a connection. -/
def query (c : ℕ) (q : Query) : Served q.Resp := .call (.client (.query c q)) result

/-- Rolls its transaction back. -/
def rollback (c : ℕ) : Served Unit := .call (.client (.rollback c)) result

/-- Commits its transaction. -/
def commit (c : ℕ) : Served Unit := .call (.client (.commit c)) result

/-- Puts a connection back to the pool, or closes it. -/
def putconn (c : ℕ) (close : Bool) : Served Unit := .call (.client (.putconn c close)) result

/-- `db_pool is None`. -/
def poolMissing : Served Bool := .call (.client .poolMissing) .ret

/-- Takes a connection from the pool, which may have none. -/
def getconn : Served (Option ℕ) := .call (.client .getconn) result

/-- Writes a log line. -/
def logEvent (msg : String) : Served Unit := .call (.log msg) result

/-- Opens a cursor on a connection. -/
def cursor (c : ℕ) : Served Unit := .call (.cursor c) result

/-- Closes it. -/
def closeCursor (c : ℕ) : Served Unit := .call (.closeCursor c) result

/-- A response is built, and returned. -/
def answer (r : PodResponse) : Served PodResponse := do
  .call .jsonify result
  return r

/-- The pool is opened, which is logged, or why it is not. A log line that raises is an error of the
    opening too. -/
def initDbPool : Served Unit := do
  let opening ← (.call (.client .initPool) .ret : Served PoolOpening)
  match opening with
  | .ready => tryCatch (logEvent "db_pool_ready") fun _ => logEvent "db_pool_error"
  | .noCredentials => pure ()
  | .secretError => tryCatch (logEvent "secret_error") fun _ => logEvent "db_pool_error"
  | .poolError => logEvent "db_pool_error"

/-- Opening the pool asks for it once; the rest are log lines. -/
theorem initDbPool_calls {P : PodCmd → Prop} (hinit : P (.client .initPool))
    (hlog : ∀ msg, P (.log msg)) : initDbPool.Calls P := by
  have hline (msg : String) : (logEvent msg).Calls P := ⟨hlog msg, fun r => calls_result r⟩
  refine .bind ⟨hinit, fun _ => trivial⟩ fun opening => ?_
  cases opening with
  | ready => exact .tryCatch (hline _) fun _ => hline _
  | noCredentials => trivial
  | secretError => exact .tryCatch (hline _) fun _ => hline _
  | poolError => exact hline _

variable (pod : Pod)

/-- Binds a connection to the tenant of the pod, never to one of the request. -/
def bindTenant (c : ℕ) : Served Unit := do
  rollback c
  if pod.tenantId ≠ "" then
    cursor c
    (query c (.setConfig pod.tenantId)).ensuring (closeCursor c)

/-- `try`, of the exceptions: the value returned, or the exception. -/
def attempt {α : Type} (p : Served α) : Served (Except String α) :=
  tryCatch (Except.ok <$> p) fun e => return .error e

/-- A connection bound to the tenant of the pod, if there is one. One that cannot be bound is
    closed, unless the log line before it raises. -/
def getDbConnection : Served (Option ℕ) := do
  match ← attempt (do
    if ← poolMissing then initDbPool
    getconn) with
  | .error _ =>
    logEvent "db_getconn_error"
    return none
  | .ok none => return none
  | .ok (some c) =>
    match ← attempt (bindTenant pod c) with
    | .ok _ => return some c
    | .error _ =>
      logEvent "db_getconn_error"
      tryCatch (putconn c true) fun _ => pure ()
      return none

/-- Rolls a connection back and puts it back to the pool. -/
def returnDbConnection : Option ℕ → Served Unit
  | none => pure ()
  | some c => do
    if ← poolMissing then return
    tryCatch (rollback c) fun _ => pure ()
    putconn c false

/-- `with db_conn() as conn`. -/
def dbConn {α : Type} (body : Option ℕ → Served α) : Served α := do
  let conn ← getDbConnection pod
  (body conn).ensuring (returnDbConnection conn)

/-! ## Routes -/

/-- A route that needs the database and the tenant of the pod. -/
def withDb (p : Served PodResponse) : Served PodResponse :=
  if !pod.dbEnabled then answer ⟨.texts [("error", "Database not enabled")], 400⟩
  else
    match pod.tenantMissing with
    | some err => answer err
    | none => p

/-- Its exceptions answered as errors. -/
def orError (p : Served PodResponse) : Served PodResponse :=
  tryCatch p fun e => answer (pod.apiError e 500)

/-- `GET /health`, its outcome logged. -/
def health : Served PodResponse :=
  if pod.dbEnabled then do
    let early ← tryCatch (dbConn pod fun
      | none => do
        logEvent "health"
        some <$> answer Pod.unhealthy
      | some c => do
        cursor c
        query c .ping
        closeCursor c
        logEvent "health"
        return none) fun _ => do
      logEvent "health"
      some <$> answer Pod.unhealthy
    match early with
    | some r => return r
    | none => answer { body := .texts [("status", "healthy")] }
  else answer { body := .texts [("status", "healthy")] }

/-- `GET /db/version`. -/
def dbVersion : Served PodResponse :=
  if !pod.labDiagnostics then answer Pod.notFound
  else withDb pod <| orError pod <| dbConn pod fun
    | none => answer (pod.apiError "no db connection" 503)
    | some c => do
      cursor c
      let version ← query c .version
      let setting ← query c .currentSetting
      closeCursor c
      answer { body := .version version setting }

/-- `GET /db/init`. -/
def initDb : Served PodResponse :=
  withDb pod <| orError pod <| dbConn pod fun
    | none => answer Pod.noConnection
    | some c => do
      cursor c
      let row ← query c .rowSecurity
      closeCursor c
      match row with
      | none =>
        answer ⟨.texts [("status", "error"), ("message", "table missing; run migrate Job")], 503⟩
      | some (rls, force) => answer { body := .rowSecurity rls force pod.tenantId }

/-- The message of a JSON body: `body.get("message")`, if it is a text and not empty. -/
def message : JsonBody → Served (Option String)
  | .missing => pure none
  | .object fields =>
    pure (match fields.lookup "message" with
      | some (.text s) => if s = "" then none else some s
      | _ => none)
  | .other => throw "object has no attribute 'get'"

/-- `POST /db/items`. -/
def createItem (req : PodRequest) : Served PodResponse :=
  withDb pod do
    match ← message req.json with
    | none => answer ⟨.texts [("error", "JSON body must include a string \"message\"")], 400⟩
    | some message =>
      orError pod <| dbConn pod fun
        | none => answer Pod.noConnection
        | some c => do
          cursor c
          let row ← query c (.insert req.remoteAddr pod.hostname (req.userAgent.getD "Unknown")
            message pod.tenantId)
          commit c
          closeCursor c
          answer ⟨.created row, 201⟩

/-- `GET /db/records`. -/
def getRecords (req : PodRequest) : Served PodResponse :=
  withDb pod <| orError pod <| dbConn pod fun
    | none => answer Pod.noConnection
    | some c => do
      cursor c
      let rows ← query c (.select (Pod.limit req))
      closeCursor c
      answer { body := .records pod.tenantId rows }

/-- The route of a request. -/
def route (req : PodRequest) : Served PodResponse :=
  match req.route with
  | .home =>
    answer (if pod.labDiagnostics then
      { body := .home pod.hostname req.remoteAddr pod.dbEnabled pod.tenantId }
    else Pod.notFound)
  | .health => health pod
  | .dbVersion => dbVersion pod
  | .dbInit => initDb pod
  | .createItem => createItem pod req
  | .getRecords => getRecords pod req
  | .unknown => pure Pod.notFound

/-- A request answered, unless its user is rejected. -/
def dispatch (req : PodRequest) : Served PodResponse :=
  match requireLabUser pod req with
  | some rejected => answer rejected
  | none => route pod req

/-- The log line of a response, but to a probe. -/
def afterRequest (req : PodRequest) : Served Unit :=
  if req.route ≠ .health then logEvent "request" else pure ()

/-- A request served. -/
def serve (req : PodRequest) : Served PodResponse := do
  let resp ← dispatch pod req
  afterRequest req
  return resp

end Serving

/-! ## The application on the database alone -/

/-- A program with the statements around those of the database not raising. -/
def erase {α : Type} : Served α → PodProg α
  | .ret a => .ret a
  | .fail e => .fail e
  | .call (.client c) k => .call c fun r => erase (k r)
  | .call (.log _) k => erase (k (.ok ()))
  | .call (.cursor _) k => erase (k (.ok ()))
  | .call (.closeCursor _) k => erase (k (.ok ()))
  | .call .jsonify k => erase (k (.ok ()))

section

variable {α β : Type}

theorem erase_bind (p : Served α) (f : α → Served β) :
    erase (p.bind f) = (erase p).bind fun a => erase (f a) := by
  induction p with
  | ret a => rfl
  | fail e => rfl
  | call c k ih =>
    cases c with
    | client c => exact congrArg (Prog.call (S := clientSig) c) (funext ih)
    | _ => exact ih _

theorem erase_rescue (p : Served α) (h : String → Served α) :
    erase (p.rescue h) = (erase p).rescue fun e => erase (h e) := by
  induction p with
  | ret a => rfl
  | fail e => rfl
  | call c k ih =>
    cases c with
    | client c => exact congrArg (Prog.call (S := clientSig) c) (funext ih)
    | _ => exact ih _

theorem erase_ensuring (p : Served α) (q : Served Unit) :
    erase (p.ensuring q) = (erase p).ensuring (erase q) := by
  induction p with
  | ret a => exact erase_bind q fun _ => .ret a
  | fail e => exact erase_bind q fun _ => .fail e
  | call c k ih =>
    cases c with
    | client c => exact congrArg (Prog.call (S := clientSig) c) (funext ih)
    | _ => exact ih _

/-- The program never raises. -/
def NeverRaises {S : Sig} {ε γ : Type} : Prog S ε γ → Prop
  | .ret _ => True
  | .fail _ => False
  | .call _ k => ∀ r, NeverRaises (k r)

section

variable {S : Sig} {ε γ : Type}

/-- A program that never raises needs no handler. -/
theorem NeverRaises.rescue_eq {p : Prog S ε γ} {h : ε → Prog S ε γ} (hp : NeverRaises p) :
    p.rescue h = p := by
  induction p with
  | ret a => rfl
  | fail e => exact hp.elim
  | call c k ih => exact congrArg (Prog.call c) (funext fun r => ih r (hp r))

theorem NeverRaises.rescue (p : Prog S ε γ) {h : ε → Prog S ε γ} (hh : ∀ e, NeverRaises (h e)) :
    NeverRaises (p.rescue h) := by
  induction p with
  | ret a => trivial
  | fail e => exact hh e
  | call c k ih => exact ih

theorem NeverRaises.bind {δ : Type} {p : Prog S ε γ} {f : γ → Prog S ε δ} (hp : NeverRaises p)
    (hf : ∀ a, NeverRaises (f a)) : NeverRaises (p.bind f) := by
  induction p with
  | ret a => exact hf a
  | fail e => exact hp.elim
  | call c k ih => exact fun r => ih r (hp r)

end

/-- A continuation that never raises may be left out of the `try`. -/
theorem erase_attempt {f : Except String α → Served β} (p : Served α)
    (hf : ∀ a, NeverRaises (erase (f (.ok a)))) :
    erase (Serving.attempt p >>= f) =
      ((erase p).bind fun a => erase (f (.ok a))).rescue fun e => erase (f (.error e)) := by
  have hbind : erase (Serving.attempt p >>= f) =
      (((erase p).bind fun a => .ret (.ok a)).rescue fun e => .ret (.error e)).bind
        fun x => erase (f x) := by
    refine (erase_bind _ _).trans (congrArg (Prog.bind · _) ?_)
    exact (erase_rescue _ _).trans (congrArg (Prog.rescue · _) (erase_bind _ _))
  rw [hbind]
  induction erase p with
  | ret a => exact (hf a).rescue_eq.symm
  | fail e => rfl
  | call c k ih => exact congrArg (Prog.call (S := clientSig) c) (funext ih)

theorem erase_ite (c : Prop) [Decidable c] (p q : Served α) :
    erase (if c then p else q) = if c then erase p else erase q := by
  split <;> rfl

theorem erase_result (x : Except String α) : erase (result x) = result x := by
  cases x <;> rfl

end

section

variable (pod : Pod) {c : ℕ} {α : Type}

theorem erase_bindTenant : erase (Serving.bindTenant pod c) = pod.bindTenant c := by
  refine congrArg (Prog.call (S := clientSig) (.rollback c)) (funext fun r => ?_)
  cases r with
  | error e => rfl
  | ok u =>
    refine (erase_ite _ _ _).trans (if_congr Iff.rfl ?_ rfl)
    refine congrArg (Prog.call (S := clientSig) _) (funext fun r => ?_)
    cases r <;> rfl

/-- The exception of a binding is handled, whatever it is. -/
theorem erase_bindOrClose : erase (do
    match ← Serving.attempt (Serving.bindTenant pod c) with
    | .ok _ => return some c
    | .error _ =>
      Serving.logEvent "db_getconn_error"
      tryCatch (Serving.putconn c true) fun _ => pure ()
      return none) =
    tryCatch (do
      pod.bindTenant c
      return some c) fun _ => do
      tryCatch (Pod.putconn c true) fun _ => pure ()
      return none := by
  refine (erase_attempt _ fun _ => by trivial).trans ?_
  rw [erase_bindTenant]
  refine congrArg (Prog.rescue _) (funext fun e => ?_)
  refine congrArg (Prog.call (S := clientSig) (.putconn c true)) (funext fun r => ?_)
  cases r <;> rfl

theorem erase_getDbConnection : erase (Serving.getDbConnection pod) = pod.getDbConnection := by
  have hclose (c : ℕ) : NeverRaises (tryCatch (do
      pod.bindTenant c
      return some c) fun _ => do
      tryCatch (Pod.putconn c true) fun _ => pure ()
      return none : PodProg (Option ℕ)) :=
    .rescue _ fun _ => .bind (.rescue _ fun _ => trivial) fun _ => trivial
  refine (erase_attempt _ ?_).trans ?_
  · rintro (_ | c)
    · trivial
    · exact (erase_bindOrClose pod (c := c)).symm ▸ hclose c
  · refine congrArg (Prog.rescue · _) ?_
    refine congrArg (Prog.call (S := clientSig) .poolMissing) (funext fun missing => ?_)
    cases missing
    · refine congrArg (Prog.call (S := clientSig) .getconn) (funext fun r => ?_)
      rcases r with e | _ | c
      · rfl
      · rfl
      · exact erase_bindOrClose pod
    · refine congrArg (Prog.call (S := clientSig) .initPool) (funext fun opening => ?_)
      -- each opening writes lines of its own, none of which is a client command
      cases opening <;> refine congrArg (Prog.call (S := clientSig) .getconn) (funext fun r => ?_) <;>
        rcases r with e | _ | c
      all_goals first | exact erase_bindOrClose pod | rfl

theorem erase_returnDbConnection (conn : Option ℕ) :
    erase (Serving.returnDbConnection conn) = Pod.returnDbConnection conn := by
  cases conn with
  | none => rfl
  | some c =>
    refine congrArg (Prog.call (S := clientSig) .poolMissing) (funext fun missing => ?_)
    cases missing with
    | true => rfl
    | false =>
      refine congrArg (Prog.call (S := clientSig) (.rollback c)) (funext fun r => ?_)
      have hput : erase (Serving.putconn c false) = Pod.putconn c false :=
        congrArg (Prog.call (S := clientSig) _) (funext erase_result)
      cases r <;> exact hput

theorem erase_dbConn {body : Option ℕ → Served α} {body' : Option ℕ → PodProg α}
    (h : ∀ conn, erase (body conn) = body' conn) :
    erase (Serving.dbConn pod body) = pod.dbConn body' := by
  refine (erase_bind _ _).trans ?_
  rw [erase_getDbConnection]
  refine congrArg (Prog.bind _) (funext fun conn => ?_)
  rw [erase_ensuring, h, erase_returnDbConnection]

/-! ## The routes -/

theorem erase_withDb (p : Served PodResponse) : erase (Serving.withDb pod p) = pod.withDb (erase p) := by
  unfold Serving.withDb Pod.withDb
  split
  · rfl
  · cases pod.tenantMissing <;> rfl

theorem erase_orError (p : Served PodResponse) : erase (Serving.orError pod p) = pod.orError (erase p) :=
  erase_rescue _ _

/-- A route on a connection: its statements are those on the database. -/
theorem erase_route {body : Option ℕ → Served PodResponse} {body' : Option ℕ → PodProg PodResponse}
    (h : ∀ conn, erase (body conn) = body' conn) :
    erase (Serving.orError pod (Serving.dbConn pod body)) = pod.orError (pod.dbConn body') := by
  rw [erase_orError, erase_dbConn pod h]

/-- Cleaning up on the way out goes by no value. -/
theorem map_ensuring {S : Sig} {ε γ δ : Type} (f : γ → δ) (p : Prog S ε γ) (q : Prog S ε Unit) :
    (p.bind fun a => .ret (f a)).ensuring q = (p.ensuring q).bind fun a => .ret (f a) := by
  induction p with
  | ret a => exact (Prog.bind_assoc q (fun _ => .ret a) fun a => .ret (f a)).symm
  | fail e => exact (Prog.bind_assoc q (fun _ => .fail e) fun a => .ret (f a)).symm
  | call c k ih => exact congrArg (Prog.call c) (funext ih)

theorem map_dbConn {γ δ : Type} (f : γ → δ) (body : Option ℕ → PodProg γ) :
    (pod.dbConn fun conn => (body conn).bind fun a => .ret (f a)) =
      Prog.bind (pod.dbConn body) fun a => .ret (f a) := by
  refine Eq.trans ?_ (Prog.bind_assoc pod.getDbConnection _ _).symm
  exact congrArg (Prog.bind _) (funext fun conn => map_ensuring f _ _)

/-- A value that goes through a handler. -/
theorem map_rescue {S : Sig} {ε γ δ ζ : Type} (f : γ → δ) (g : δ → ζ) (d : δ) (p : Prog S ε γ) :
    (((p.bind fun a => .ret (f a)).rescue fun _ => .ret d).bind fun x => .ret (g x)) =
      (p.bind fun a => .ret (g (f a))).rescue fun _ => .ret (g d) := by
  induction p with
  | ret a => rfl
  | fail e => rfl
  | call c k ih => exact congrArg (Prog.call c) (funext ih)

theorem erase_health : erase (Serving.health pod) = pod.health := by
  let healthy : PodResponse := { body := .texts [("status", "healthy")] }
  let early (connected : Bool) : Option PodResponse := if connected then none else some Pod.unhealthy
  let ping : Option ℕ → PodProg Bool
    | none => return false
    | some c => do
      Pod.query c .ping
      return true
  have hbody : erase (Serving.dbConn pod fun
      | none => do
        Serving.logEvent "health"
        some <$> Serving.answer Pod.unhealthy
      | some c => do
        Serving.cursor c
        Serving.query c .ping
        Serving.closeCursor c
        Serving.logEvent "health"
        return none) = Prog.bind (pod.dbConn ping) fun b => .ret (early b) := by
    rw [← map_dbConn]
    refine erase_dbConn pod fun conn => ?_
    cases conn with
    | none => rfl
    | some c =>
      refine congrArg (Prog.call (S := clientSig) _) (funext fun r => ?_)
      cases r <;> rfl
  unfold Serving.health Pod.health
  rw [erase_ite]
  refine if_congr Iff.rfl ?_ rfl
  have hmap := map_rescue early (Option.getD · healthy) (some Pod.unhealthy) (pod.dbConn ping)
  have hlast : (Prog.bind (pod.dbConn ping) fun b => .ret ((early b).getD healthy)) = (do
      let connected ← pod.dbConn ping
      return if connected then healthy else Pod.unhealthy) := by
    refine congrArg (Prog.bind _) (funext fun b => ?_)
    cases b <;> rfl
  rw [hlast] at hmap
  refine Eq.trans ?_ hmap
  refine (erase_bind _ _).trans ?_
  have hhandler := erase_rescue (Serving.dbConn pod fun
      | none => do
        Serving.logEvent "health"
        some <$> Serving.answer Pod.unhealthy
      | some c => do
        Serving.cursor c
        Serving.query c .ping
        Serving.closeCursor c
        Serving.logEvent "health"
        return none) fun _ => do
      Serving.logEvent "health"
      some <$> Serving.answer Pod.unhealthy
  rw [hbody] at hhandler
  refine (congrArg (Prog.bind · _) hhandler).trans ?_
  refine congrArg (Prog.bind _) (funext fun x => ?_)
  cases x <;> rfl

/-- The application on the database alone is the one with the statements around those of the
    database, where none of these raises. -/
theorem erase_serve (req : PodRequest) : erase (Serving.serve pod req) = pod.serve req := by
  have hcursor {c : ℕ} {q : Query} {k : q.Resp → Served PodResponse}
      {k' : q.Resp → PodProg PodResponse} (h : ∀ a, erase (k a) = k' a) :
      erase (Serving.query c q >>= k) = Pod.query c q >>= k' := by
    refine congrArg (Prog.call (S := clientSig) _) (funext fun r => ?_)
    cases r with
    | error e => rfl
    | ok a => exact h a
  have hroute : erase (Serving.route pod req) = pod.route req := by
    unfold Serving.route Pod.route
    cases req.route with
    | home => rfl
    | health => exact erase_health pod
    | dbVersion =>
      refine (erase_ite _ _ _).trans (if_congr Iff.rfl rfl ?_)
      refine (erase_withDb pod _).trans (congrArg _ (erase_route pod fun conn => ?_))
      cases conn with
      | none => rfl
      | some c => exact hcursor fun version => hcursor fun setting => rfl
    | dbInit =>
      refine (erase_withDb pod _).trans (congrArg _ (erase_route pod fun conn => ?_))
      cases conn with
      | none => rfl
      | some c => exact hcursor fun row => by rcases row with _ | ⟨rls, force⟩ <;> rfl
    | createItem =>
      refine (erase_withDb pod _).trans (congrArg _ ?_)
      cases req.json with
      | missing => rfl
      | other => rfl
      | object fields =>
        rcases hlookup : fields.lookup "message" with _ | (message | _)
        · simp only [Serving.message, Pod.message, pure_bind, hlookup]
          rfl
        · simp only [Serving.message, Pod.message, pure_bind, hlookup]
          by_cases hempty : message = ""
          · simp only [if_pos hempty]
            rfl
          · simp only [if_neg hempty]
            refine erase_route pod fun conn => ?_
            cases conn with
            | none => rfl
            | some c =>
              refine hcursor fun row => ?_
              refine congrArg (Prog.call (S := clientSig) (.commit c)) (funext fun r => ?_)
              cases r <;> rfl
        · simp only [Serving.message, Pod.message, pure_bind, hlookup]
          rfl
    | getRecords =>
      refine (erase_withDb pod _).trans (congrArg _ (erase_route pod fun conn => ?_))
      cases conn with
      | none => rfl
      | some c => exact hcursor fun rows => rfl
    | unknown => rfl
  have hdispatch : erase (Serving.dispatch pod req) = pod.serve req := by
    unfold Serving.dispatch Pod.serve
    cases requireLabUser pod req with
    | some rejected => rfl
    | none => exact hroute
  have hafter (resp : PodResponse) : erase (do
      Serving.afterRequest req
      return resp) = .ret resp := by
    unfold Serving.afterRequest
    split <;> rfl
  refine (erase_bind _ _).trans ?_
  rw [hdispatch]
  exact (congrArg (Prog.bind _) (funext hafter)).trans (Prog.bind_ret _)

end

end NtierLab
