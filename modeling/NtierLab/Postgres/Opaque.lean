import NtierLab.Prog.Twin
import NtierLab.Postgres.Serving

/-!
# What the application tells of its failures

A response of the application does not depend on the text of any exception it meets
(`Opaque`): answered the same but for the texts of its exceptions, it issues the same
commands and gives the same response, or raises where it raised. So it is exactly if
no user reaches a route that shows the text: without diagnostics, without the
database, without a tenant or without users (`opaque_iff`).
-/

namespace NtierLab

open Prog

/-- The same values, or two exceptions. -/
def SameBut {α : Type} : Except String α → Except String α → Prop :=
  Outcomes (fun _ _ => True) (· = ·)

/-- Responses of a command that are the same, but for the text of an exception. -/
def Reworded : (c : PodCmd) → c.Resp → c.Resp → Prop
  | .client .poolMissing => (· = ·)
  | .client .initPool => (· = ·)
  | .client .getconn => SameBut
  | .client (.putconn _ _) => SameBut
  | .client (.rollback _) => SameBut
  | .client (.commit _) => SameBut
  | .client (.query _ _) => SameBut
  | .log _ => SameBut
  | .cursor _ => SameBut
  | .closeCursor _ => SameBut
  | .jsonify => SameBut

/-- The programs are the same, but for the texts of the exceptions they meet. -/
abbrev Hidden {α : Type} (V : α → α → Prop) (p q : Served α) : Prop :=
  Twin (S := podSig) Reworded (fun _ _ => True) V p q

/-- The response to a request does not depend on the texts of the exceptions met. -/
def Opaque (pod : Pod) (req : PodRequest) : Prop :=
  ∀ (W : Type) (h : Handler podSig W) (w w' : W) (t t' : Trace podSig)
    (x : Except String PodResponse), Exec h (Serving.serve pod req) w t x w' →
    List.Forall₂ (Alike (S := podSig) Reworded) t t' →
    ∃ y, Exec anything (Serving.serve pod req) () t' y () ∧ y.toOption = x.toOption

/-- A user of the tenant reaches a route that shows the exceptions of the database. -/
structure Discloses (pod : Pod) : Prop where
  diagnostics : pod.labDiagnostics = true
  database : pod.dbEnabled = true
  tenant : pod.tenantId ≠ ""
  user : ∃ user, authorizeLabUser pod user = none

/-! ## Its connections -/

section

variable {pod : Pod} {α : Type}

/-- A query hides the text of its error. -/
theorem hidden_query (c : ℕ) (q : Query) :
    Hidden (· = ·) (Serving.query c q) (Serving.query c q) :=
  .call fun _ _ h => .result h

/-- A rollback hides the text of its error. -/
theorem hidden_rollback (c : ℕ) : Hidden (· = ·) (Serving.rollback c) (Serving.rollback c) :=
  .call fun _ _ h => .result h

/-- A commit hides the text of its error. -/
theorem hidden_commit (c : ℕ) : Hidden (· = ·) (Serving.commit c) (Serving.commit c) :=
  .call fun _ _ h => .result h

/-- The return of a connection to the pool hides the text of its error. -/
theorem hidden_putconn (c : ℕ) (close : Bool) :
    Hidden (· = ·) (Serving.putconn c close) (Serving.putconn c close) :=
  .call fun _ _ h => .result h

/-- So does the acquisition of one. -/
theorem hidden_getconn : Hidden (· = ·) Serving.getconn Serving.getconn :=
  .call fun _ _ h => .result h

/-- A log line hides the text of the error of its writing. -/
theorem hidden_logEvent (msg : String) :
    Hidden (· = ·) (Serving.logEvent msg) (Serving.logEvent msg) :=
  .call fun _ _ h => .result h

/-- The opening of a cursor hides the text of its error. -/
theorem hidden_cursor (c : ℕ) : Hidden (· = ·) (Serving.cursor c) (Serving.cursor c) :=
  .call fun _ _ h => .result h

/-- So does its closing. -/
theorem hidden_closeCursor (c : ℕ) :
    Hidden (· = ·) (Serving.closeCursor c) (Serving.closeCursor c) :=
  .call fun _ _ h => .result h

/-- Whether there is a pool is not the text of an error. -/
theorem hidden_poolMissing : Hidden (· = ·) Serving.poolMissing Serving.poolMissing :=
  .call fun _ _ h => .ret h

/-- What the opening of the pool raised is only logged. -/
theorem hidden_initDbPool : Hidden (· = ·) Serving.initDbPool Serving.initDbPool :=
  .bind (.call fun _ _ h => .ret h) fun opening _ h => by
    subst h
    cases opening with
    | ready | secretError => exact .tryCatch (hidden_logEvent _) fun _ _ _ => hidden_logEvent _
    | noCredentials => exact .ret rfl
    | poolError => exact hidden_logEvent _

/-- Two responses are built alike. -/
theorem hidden_answer {V : PodResponse → PodResponse → Prop} {r r' : PodResponse} (h : V r r') :
    Hidden V (Serving.answer r) (Serving.answer r') :=
  .bind (.call fun _ _ hx => .result hx) fun _ _ _ => .ret h

/-- The binding of a connection hides the texts of its errors. -/
theorem hidden_bindTenant (c : ℕ) :
    Hidden (· = ·) (Serving.bindTenant pod c) (Serving.bindTenant pod c) := by
  refine .seq (hidden_rollback c) fun _ => .ite (fun _ => ?_) fun _ => .ret rfl
  exact .seq (hidden_cursor c) fun _ =>
    .ensuring (hidden_query c (.setConfig _)) ((hidden_closeCursor c).imp fun _ _ _ => trivial)

/-- An exception caught is hidden. -/
theorem hidden_attempt {p q : Served α} (h : Hidden (· = ·) p q) :
    Hidden SameBut (Serving.attempt p) (Serving.attempt q) :=
  .tryCatch (h.bind fun _ _ hab => .ret hab) fun _ _ _ => .ret trivial

/-- Whatever the errors say, there is a connection or there is none. -/
theorem hidden_getDbConnection :
    Hidden (· = ·) (Serving.getDbConnection pod) (Serving.getDbConnection pod) := by
  have hget : Hidden (· = ·) (do
      if ← Serving.poolMissing then Serving.initDbPool
      Serving.getconn) (do
      if ← Serving.poolMissing then Serving.initDbPool
      Serving.getconn) :=
    .seq hidden_poolMissing fun missing =>
      .ite (fun _ => .seq hidden_initDbPool fun _ => hidden_getconn) fun _ => hidden_getconn
  -- Both executions fail, for reasons of their own, or neither does.
  refine .bind (hidden_attempt hget) fun a b hab => ?_
  cases a with
  | error e =>
    cases b with
    | error e' => exact .seq (hidden_logEvent _) fun _ => .ret rfl
    | ok _ => exact hab.elim
  | ok a =>
    cases b with
    | error e' => exact hab.elim
    | ok b =>
      obtain rfl : a = b := hab
      cases a with
      | none => exact .ret rfl
      | some c =>
        refine .bind (hidden_attempt (hidden_bindTenant c)) fun a b hab => ?_
        cases a with
        | error e =>
          cases b with
          | error e' =>
            refine .seq (hidden_logEvent _) fun _ => .seq ?_ fun _ => .ret rfl
            exact .tryCatch (hidden_putconn c true) fun _ _ _ => .ret rfl
          | ok _ => exact hab.elim
        | ok a =>
          cases b with
          | error e' => exact hab.elim
          | ok b => exact .ret rfl

/-- The return of a connection hides the texts of its errors. -/
theorem hidden_returnDbConnection (conn : Option ℕ) :
    Hidden (· = ·) (Serving.returnDbConnection conn) (Serving.returnDbConnection conn) := by
  cases conn with
  | none => exact .ret rfl
  | some c =>
    refine .seq hidden_poolMissing fun missing => .ite (fun _ => .ret rfl) fun _ => ?_
    refine .seq ?_ fun _ => hidden_putconn c false
    exact .tryCatch (hidden_rollback c) fun _ _ _ => .ret rfl

/-- A body that hides them hides them with a connection. -/
theorem hidden_dbConn {V : α → α → Prop} {f g : Option ℕ → Served α}
    (hf : ∀ conn, Hidden V (f conn) (g conn)) :
    Hidden V (Serving.dbConn pod f) (Serving.dbConn pod g) :=
  .seq hidden_getDbConnection fun conn =>
    (hf conn).ensuring ((hidden_returnDbConnection conn).imp fun _ _ _ => trivial)

/-! ## Its routes -/

/-- The responses are the same, unless the diagnostics are shown. -/
def ToldAlike (pod : Pod) (r r' : PodResponse) : Prop := pod.labDiagnostics = false → r = r'

/-- The responses are the same, unless the diagnostics of the database are shown. -/
def ToldAlikeByDb (pod : Pod) (r r' : PodResponse) : Prop :=
  ¬(pod.labDiagnostics = true ∧ pod.dbEnabled = true ∧ pod.tenantId ≠ "") → r = r'

/-- A response that is the same is told alike. -/
theorem hidden_same {V : PodResponse → PodResponse → Prop} (hV : ∀ r, V r r) (r : PodResponse) :
    Hidden V (Serving.answer r) (Serving.answer r) :=
  hidden_answer (hV r)

/-- The text of an error is told with diagnostics only. -/
theorem told_apiError (e e' : String) (status : ℕ) :
    ToldAlike pod (pod.apiError e status) (pod.apiError e' status) := by
  intro hd
  simp [Pod.apiError, hd]

/-- Errors answered are told alike. -/
theorem hidden_orError {p q : Served PodResponse} (h : Hidden (ToldAlike pod) p q) :
    Hidden (ToldAlike pod) (Serving.orError pod p) (Serving.orError pod q) :=
  .tryCatch h fun e e' _ => hidden_answer (told_apiError e e' 500)

/-- A route that needs the database tells no text without it. -/
theorem hidden_withDb {p q : Served PodResponse} (h : Hidden (ToldAlike pod) p q) :
    Hidden (ToldAlikeByDb pod) (Serving.withDb pod p) (Serving.withDb pod q) := by
  refine .ite (fun _ => hidden_answer fun _ => rfl) fun hdb => ?_
  cases herr : pod.tenantMissing with
  | some err => exact hidden_answer fun _ => rfl
  | none =>
    refine h.imp fun r r' hr hshown => hr ?_
    simp only [Pod.tenantMissing, ite_eq_right_iff, reduceCtorEq, imp_false] at herr
    by_contra hdiag
    refine hshown ⟨by simpa using hdiag, by simpa using hdb, fun ht => ?_⟩
    exact herr ⟨by simpa using hdb, ht⟩

/-- The probe tells no text. -/
theorem hidden_health : Hidden (· = ·) (Serving.health pod) (Serving.health pod) := by
  have hunhealthy : Hidden (· = ·) (do
      Serving.logEvent "health"
      some <$> Serving.answer Pod.unhealthy) (do
      Serving.logEvent "health"
      some <$> Serving.answer Pod.unhealthy) :=
    .seq (hidden_logEvent _) fun _ => .seq (hidden_same (fun _ => rfl) _) fun _ => .ret rfl
  refine .ite (fun _ => .seq (.tryCatch (hidden_dbConn fun conn => ?_) fun _ _ _ => hunhealthy)
    fun early => ?_) fun _ => hidden_answer rfl
  · cases conn with
    | none => exact hunhealthy
    | some c =>
      exact .seq (hidden_cursor c) fun _ => .seq (hidden_query c .ping) fun _ =>
        .seq (hidden_closeCursor c) fun _ => .seq (hidden_logEvent _) fun _ => .ret rfl
  · cases early with
    | none => exact hidden_answer rfl
    | some r => exact .ret rfl

/-- The version of the database is told with diagnostics only. -/
theorem hidden_dbVersion :
    Hidden (ToldAlikeByDb pod) (Serving.dbVersion pod) (Serving.dbVersion pod) := by
  refine .ite (fun _ => hidden_answer fun _ => rfl) fun _ => ?_
  refine hidden_withDb (hidden_orError (hidden_dbConn fun conn => ?_))
  cases conn with
  | none => exact hidden_answer fun _ => rfl
  | some c =>
    refine .seq (hidden_cursor c) fun _ => .seq (hidden_query c .version) fun version => ?_
    exact .seq (hidden_query c .currentSetting) fun setting =>
      .seq (hidden_closeCursor c) fun _ => hidden_answer fun _ => rfl

/-- Its row security is told with or without them. -/
theorem hidden_initDb : Hidden (ToldAlikeByDb pod) (Serving.initDb pod) (Serving.initDb pod) := by
  refine hidden_withDb (hidden_orError (hidden_dbConn fun conn => ?_))
  cases conn with
  | none => exact hidden_answer fun _ => rfl
  | some c =>
    refine .seq (hidden_cursor c) fun _ => .seq (hidden_query c .rowSecurity) fun row => ?_
    refine .seq (hidden_closeCursor c) fun _ => ?_
    cases row with
    | none => exact hidden_answer fun _ => rfl
    | some row => exact hidden_answer fun _ => rfl

/-- The message of a body is read off the request. -/
theorem hidden_message (json : JsonBody) :
    Hidden (· = ·) (Serving.message json) (Serving.message json) := by
  cases json with
  | missing => exact .ret rfl
  | object fields => exact .ret rfl
  | other => exact .fail trivial

/-- The creation of an item tells the text of its error with diagnostics only. -/
theorem hidden_createItem (req : PodRequest) :
    Hidden (ToldAlikeByDb pod) (Serving.createItem pod req) (Serving.createItem pod req) := by
  refine hidden_withDb (.seq (hidden_message req.json) fun message => ?_)
  cases message with
  | none => exact hidden_answer fun _ => rfl
  | some message =>
    refine hidden_orError (hidden_dbConn fun conn => ?_)
    cases conn with
    | none => exact hidden_answer fun _ => rfl
    | some c =>
      refine .seq (hidden_cursor c) fun _ => .seq (hidden_query c (.insert ..)) fun row => ?_
      exact .seq (hidden_commit c) fun _ => .seq (hidden_closeCursor c) fun _ =>
        hidden_answer fun _ => rfl

/-- So does the listing of the records. -/
theorem hidden_getRecords (req : PodRequest) :
    Hidden (ToldAlikeByDb pod) (Serving.getRecords pod req) (Serving.getRecords pod req) := by
  refine hidden_withDb (hidden_orError (hidden_dbConn fun conn => ?_))
  cases conn with
  | none => exact hidden_answer fun _ => rfl
  | some c =>
    refine .seq (hidden_cursor c) fun _ => .seq (hidden_query c (.select _)) fun rows => ?_
    exact .seq (hidden_closeCursor c) fun _ => hidden_answer fun _ => rfl

/-- So does every route. -/
theorem hidden_route (req : PodRequest) :
    Hidden (ToldAlikeByDb pod) (Serving.route pod req) (Serving.route pod req) := by
  unfold Serving.route
  split
  · exact hidden_answer fun _ => rfl
  · exact hidden_health.imp fun r r' h _ => h
  · exact hidden_dbVersion
  · exact hidden_initDb
  · exact hidden_createItem req
  · exact hidden_getRecords req
  · exact .ret fun _ => rfl

/-- The responses to a request are the same, unless its user is shown the diagnostics. -/
theorem hidden_serve (req : PodRequest) :
    Hidden (fun r r' => ¬Discloses pod → r = r') (Serving.serve pod req)
      (Serving.serve pod req) := by
  have hdispatch : Hidden (fun r r' => ¬Discloses pod → r = r') (Serving.dispatch pod req)
      (Serving.dispatch pod req) := by
    unfold Serving.dispatch
    cases hreq : requireLabUser pod req with
    | some rejected => exact hidden_answer fun _ => rfl
    | none =>
      -- The probe is answered without a user, and tells nothing.
      by_cases hhealth : req.route = .health
      · simp only [Serving.route, hhealth]
        exact hidden_health.imp fun r r' h _ => h
      · refine (hidden_route req).imp fun r r' h hd => h fun ⟨hdiag, hdb, ht⟩ => ?_
        exact hd ⟨hdiag, hdb, ht, req.labUser, by simpa [requireLabUser, hhealth] using hreq⟩
  have hafter : Hidden (· = ·) (Serving.afterRequest req) (Serving.afterRequest req) :=
    .ite (fun _ => hidden_logEvent _) fun _ => .ret rfl
  exact hdispatch.bind fun r r' h => .seq hafter fun _ => .ret h

/-! ## What is shown -/

/-- The queries of a connection fail with a text. -/
def failingQueries (text : String) : (c : PodCmd) → c.Resp
  | .client .poolMissing => false
  | .client .initPool => .ready
  | .client .getconn => .ok (some 0)
  | .client (.query _ (.setConfig _)) => .ok ()
  | .client (.query _ _) => .error text
  | .client (.putconn _ _) | .client (.rollback _) | .client (.commit _) => .ok ()
  | .log _ | .cursor _ | .closeCursor _ | .jsonify => .ok ()

/-- The records are asked for. -/
def recordsRequest (user : Option String) : PodRequest where
  route := .getRecords
  labUser := user
  userAgent := none
  remoteAddr := ""
  args := []
  json := .missing

/-- With diagnostics the text of a failing query is the response. -/
theorem failing_records (hd : Discloses pod) {user : Option String}
    (huser : authorizeLabUser pod user = none) (text : String) :
    ((Serving.serve pod (recordsRequest user)).eval (fun _ c _ => (failingQueries text c, ()))
      (fun _ : ℕ => ()) 0 ()).2.1 = .ok (pod.apiError text 500) := by
  have hreq : requireLabUser pod (recordsRequest user) = none := by
    simp [requireLabUser, recordsRequest, huser]
  have hmissing : pod.tenantMissing = none := if_neg fun h => hd.tenant h.2
  have hbind (c : ℕ) : Serving.bindTenant pod c = (do
      Serving.rollback c
      Serving.cursor c
      (Serving.query c (.setConfig pod.tenantId)).ensuring (Serving.closeCursor c)) := by
    simp [Serving.bindTenant, hd.tenant]
  have hdispatch : Serving.dispatch pod (recordsRequest user) =
      Serving.getRecords pod (recordsRequest user) := by
    rw [Serving.dispatch, hreq]
    rfl
  -- The connection is had and bound; the first query of the route fails.
  rw [Serving.serve, hdispatch, Serving.getRecords, Serving.withDb, hd.database, hmissing]
  simp only [Serving.dbConn, Serving.getDbConnection, hbind]
  rfl

/-- Two failing databases answer alike but for the text. -/
theorem failingQueries_reworded (text text' : String) (c : PodCmd) :
    Reworded c (failingQueries text c) (failingQueries text' c) := by
  rcases c with (_ | _ | _ | _ | _ | _ | ⟨c, q⟩) | _ | _ | _ | _
  case client.query => cases q <;> first | exact rfl | trivial
  all_goals exact rfl

/-- No text of an exception is told exactly if no user is shown the diagnostics. -/
theorem opaque_iff : (∀ req, Opaque pod req) ↔ ¬Discloses pod := by
  constructor
  · intro h hd
    obtain ⟨user, huser⟩ := hd.user
    let run (text : String) := (Serving.serve pod (recordsRequest user)).eval
      (fun _ c _ => (failingQueries text c, ())) (fun _ : ℕ => ()) 0 ()
    have hexec (text : String) : Exec anything (Serving.serve pod (recordsRequest user)) ()
        (run text).1 (run text).2.1 (run text).2.2 := exec_eval (fun _ _ _ => trivial) _ _ _ _
    have halike : List.Forall₂ (Alike Reworded) (run "a").1 (run "b").1 :=
      (hidden_serve (recordsRequest user)).alike (failingQueries_reworded "a" "b") 0
    -- The other run ends in one way only, and not with the same text.
    obtain ⟨y, hy, hxy⟩ := h _ _ _ _ _ _ _ _ (hexec "a") halike
    obtain rfl := hy.outcome_unique (hexec "b")
    have hne : pod.apiError "b" 500 = pod.apiError "a" 500 := by
      simpa [run, failing_records hd huser, Except.toOption] using hxy
    simp [Pod.apiError, hd.diagnostics] at hne
  · intro hd req W h w w' t t' x hx ht
    obtain ⟨y, hy, hxy⟩ := (hidden_serve req).exec hx ht
    refine ⟨y, hy, ?_⟩
    cases x <;> cases y
    · rfl
    · exact hxy.elim
    · exact hxy.elim
    · exact congrArg some (hxy hd).symm

end

end NtierLab
