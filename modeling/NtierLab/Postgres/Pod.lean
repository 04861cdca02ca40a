import NtierLab.Postgres.Session
import NtierLab.ControlPlane.App

/-!
# The application of a tenant

The pod of a tenant (`helm/test-app/templates/configmap.yaml`, `app.py`, with
`lab_auth.py`), as programs over the commands of a client of the database: a
connection taken from the pool is rolled back and bound to the tenant of the pod
before it is used (`getDbConnection`), and rolled back before it is put back
(`returnDbConnection`); the tenant is never one of the request.
-/

namespace NtierLab

open Prog

/-- The configuration of a pod, from its environment. -/
structure Pod where
  tenantId : String
  dbEnabled : Bool
  labDiagnostics : Bool
  labUsers : List (String × List String)
  hostname : String

/-- A value of a JSON body. -/
inductive JsonValue
  | text (s : String)
  | other

/-- The JSON body of a request: absent, malformed or empty; an object; anything else. -/
inductive JsonBody
  | missing
  | object (fields : List (String × JsonValue))
  | other

/-- The routes of the application. -/
inductive Route
  | home
  | health
  | dbVersion
  | dbInit
  | createItem
  | getRecords
  | unknown
  deriving DecidableEq

/-- A request. -/
structure PodRequest where
  route : Route
  labUser : Option String
  userAgent : Option String
  remoteAddr : String
  args : List (String × String)
  json : JsonBody

/-- The bodies of the responses. -/
inductive PodBody
  | texts (fields : List (String × String))
  | home (hostname ip : String) (dbEnabled : Bool) (tenantId : String)
  | version (dbVersion : String) (setting : Option String)
  | rowSecurity (rls forceRls : Bool) (tenantId : String)
  | created (row : Record)
  | records (tenantId : String) (rows : List Record)

/-- A response. -/
structure PodResponse where
  body : PodBody
  status : ℕ := 200

/-- The programs of the application. -/
abbrev PodProg (α : Type) := Prog clientSig String α

/-! ## Authorization -/

/-- `normalize_tenant_id`. -/
def normalizeTenantId (value : String) : String :=
  let v := pyLower (pyStrip value)
  if "tenant-".toList <+: v.toList then String.ofList (v.toList.drop "tenant-".length) else v

/-- An id is normalized already. -/
@[simp] theorem normalizeTenantId_val (t : TenantId) : normalizeTenantId t.val = t.val := by
  have hdash : ¬"tenant-".toList <+: t.val.toList := by
    intro h
    have := t.char_toNat (h.subset (by decide +kernel : '-' ∈ "tenant-".toList))
    simp at this
  unfold normalizeTenantId
  rw [t.pyStrip_val, t.pyLower_val]
  exact if_neg hdash

/-- Rejects the request of a user who is not one of the tenant. Not authentication. -/
def authorizeLabUser (pod : Pod) (user : Option String) : Option PodResponse :=
  let name := pyStrip (user.getD "")
  if name = "" then
    some ⟨.texts [("error", "unauthorized"), ("message", "Missing X-Lab-User header")], 401⟩
  else
    match pod.labUsers.lookup name with
    | none =>
      some ⟨.texts [("error", "unauthorized"), ("message", "Unknown lab user"), ("user", name)], 401⟩
    | some allowed =>
      let podTenant := normalizeTenantId pod.tenantId
      if podTenant = "" ∨ podTenant ∉ allowed.map normalizeTenantId then
        some ⟨.texts [("error", "forbidden"), ("message", "User is not authorized for this tenant"),
          ("user", name), ("tenant_id", pod.tenantId)], 403⟩
      else none

/-- Probes stay unauthenticated. -/
def requireLabUser (pod : Pod) (req : PodRequest) : Option PodResponse :=
  if req.route = .health then none else authorizeLabUser pod req.labUser

/-! ## Connections -/

namespace Pod

/-- Executes a query on a connection. -/
def query (c : ℕ) (q : Query) : PodProg q.Resp := .call (.query c q) result

/-- Rolls its transaction back. -/
def rollback (c : ℕ) : PodProg Unit := .call (.rollback c) result

/-- Commits its transaction. -/
def commit (c : ℕ) : PodProg Unit := .call (.commit c) result

/-- Puts a connection back to the pool, or closes it. -/
def putconn (c : ℕ) (close : Bool) : PodProg Unit := .call (.putconn c close) result

/-- `db_pool is None`. -/
def poolMissing : PodProg Bool := .call .poolMissing .ret

/-- Opens the pool, if it can be. -/
def initDbPool : PodProg Unit := .call .initPool fun _ => .ret ()

/-- Takes a connection from the pool, which may have none. -/
def getconn : PodProg (Option ℕ) := .call .getconn result

variable (pod : Pod)

/-- Binds a connection to the tenant of the pod, never to one of the request. -/
def bindTenant (c : ℕ) : PodProg Unit := do
  rollback c
  if pod.tenantId ≠ "" then query c (.setConfig pod.tenantId)

/-- A connection bound to the tenant of the pod, if there is one. One that cannot be bound is
    closed. -/
def getDbConnection : PodProg (Option ℕ) :=
  tryCatch (do
    if ← poolMissing then initDbPool
    match ← getconn with
    | none => return none
    | some c =>
      tryCatch (do
        bindTenant pod c
        return some c) fun _ => do
        tryCatch (putconn c true) fun _ => pure ()
        return none) fun _ => return none

/-- Rolls a connection back and puts it back to the pool. -/
def returnDbConnection : Option ℕ → PodProg Unit
  | none => pure ()
  | some c => do
    if ← poolMissing then return
    tryCatch (rollback c) fun _ => pure ()
    putconn c false

/-- `with db_conn() as conn`. -/
def dbConn {α : Type} (body : Option ℕ → PodProg α) : PodProg α := do
  let conn ← getDbConnection pod
  (body conn).ensuring (returnDbConnection conn)

/-! ## Routes -/

/-- The response to an error, its text for diagnostics only. -/
def apiError (message : String) (status : ℕ) : PodResponse :=
  ⟨.texts [("status", "error"), ("message", if pod.labDiagnostics then message else "request failed")],
    status⟩

/-- The response of a pod with a database and no tenant id. -/
def tenantMissing : Option PodResponse :=
  if pod.dbEnabled ∧ pod.tenantId = "" then
    some ⟨.texts [("error", "TENANT_ID is not set on this pod")], 500⟩
  else none

/-- The response of a route that is hidden. -/
def notFound : PodResponse := ⟨.texts [("error", "not found")], 404⟩

/-- The response where there is no connection. -/
def noConnection : PodResponse :=
  ⟨.texts [("status", "error"), ("message", "no db connection")], 503⟩

/-- A route that needs the database and the tenant of the pod. -/
def withDb (p : PodProg PodResponse) : PodProg PodResponse :=
  if !pod.dbEnabled then pure ⟨.texts [("error", "Database not enabled")], 400⟩
  else
    match tenantMissing pod with
    | some err => pure err
    | none => p

/-- Its exceptions answered as errors. -/
def orError (p : PodProg PodResponse) : PodProg PodResponse :=
  tryCatch p fun e => pure (apiError pod e 500)

/-- `GET /`: who serves, for diagnostics only. -/
def home (req : PodRequest) : PodProg PodResponse :=
  pure (if pod.labDiagnostics then
      { body := .home pod.hostname req.remoteAddr pod.dbEnabled pod.tenantId }
    else notFound)

/-- The response of a probe that fails. -/
def unhealthy : PodResponse := ⟨.texts [("status", "unhealthy")], 503⟩

/-- `GET /health`: a connection is had, and answers. -/
def health : PodProg PodResponse :=
  if pod.dbEnabled then
    tryCatch (do
      let connected ← dbConn pod fun
        | none => return false
        | some c => do
          query c .ping
          return true
      return if connected then { body := .texts [("status", "healthy")] } else unhealthy)
      fun _ => pure unhealthy
  else pure { body := .texts [("status", "healthy")] }

/-- `GET /db/version`, for diagnostics only. -/
def dbVersion : PodProg PodResponse :=
  if !pod.labDiagnostics then pure notFound
  else withDb pod <| orError pod <| dbConn pod fun
    | none => return apiError pod "no db connection" 503
    | some c => do
      let version ← query c .version
      let setting ← query c .currentSetting
      return { body := .version version setting }

/-- `GET /db/init`: whether row-level security is on. -/
def initDb : PodProg PodResponse :=
  withDb pod <| orError pod <| dbConn pod fun
    | none => return noConnection
    | some c => do
      match ← query c .rowSecurity with
      | none =>
        return ⟨.texts [("status", "error"), ("message", "table missing; run migrate Job")], 503⟩
      | some (rls, force) => return { body := .rowSecurity rls force pod.tenantId }

/-- The message of a JSON body: `body.get("message")`, if it is a text and not empty. -/
def message : JsonBody → PodProg (Option String)
  | .missing => pure none
  | .object fields =>
    pure (match fields.lookup "message" with
      | some (.text s) => if s = "" then none else some s
      | _ => none)
  | .other => throw "object has no attribute 'get'"

/-- `POST /db/items`: inserts the message of the body as a row of the tenant. -/
def createItem (req : PodRequest) : PodProg PodResponse :=
  withDb pod do
    match ← message req.json with
    | none => return ⟨.texts [("error", "JSON body must include a string \"message\"")], 400⟩
    | some message =>
      orError pod <| dbConn pod fun
        | none => return noConnection
        | some c => do
          let row ← query c (.insert req.remoteAddr pod.hostname (req.userAgent.getD "Unknown")
            message pod.tenantId)
          commit c
          return ⟨.created row, 201⟩

/-- The zeros of Python's decimal digits (Unicode 14); the others follow theirs. -/
def decimalZeros : List ℕ :=
  [48, 1632, 1776, 1984, 2406, 2534, 2662, 2790, 2918, 3046, 3174, 3302, 3430, 3558, 3664, 3792,
    3872, 4160, 4240, 6112, 6160, 6470, 6608, 6784, 6800, 6992, 7088, 7232, 7248, 42528, 43216,
    43264, 43472, 43504, 43600, 44016, 65296, 66720, 68912, 69734, 69872, 69942, 70096, 70384,
    70736, 70864, 71248, 71360, 71472, 71904, 72016, 72784, 73040, 73120, 92768, 92864, 93008,
    120782, 120792, 120802, 120812, 120822, 123200, 123632, 125264, 130032]

/-- The value of a decimal digit. -/
def decimalDigit (c : Char) : Option ℕ :=
  (decimalZeros.find? fun z => z ≤ c.toNat && c.toNat ≤ z + 9).map (c.toNat - ·)

/-- Decimal digits in groups, a single underscore between two. -/
def decimal (n : ℕ) (digit : Bool) : List Char → Option ℕ
  | [] => if digit then some n else none
  | '_' :: cs => if digit then decimal n false cs else none
  | c :: cs =>
    match decimalDigit c with
    | some d => decimal (10 * n + d) true cs
    | none => none

/-- The whitespace around a number, the separators of ASCII not being any. -/
def isIntSpace (c : Char) : Bool := pyIsSpace c && !(28 ≤ c.toNat && c.toNat ≤ 31)

/-- Python's `int` of a text (of 4300 digits at most: it refuses longer ones). -/
def pyInt (s : String) : Option ℤ :=
  match (s.toList.dropWhile isIntSpace).rdropWhile isIntSpace with
  | '-' :: cs => (decimal 0 false cs).map fun n => -(n : ℤ)
  | '+' :: cs => (decimal 0 false cs).map fun n => (n : ℤ)
  | cs => (decimal 0 false cs).map fun n => (n : ℤ)

/-- `request.args.get("limit", 10, type=int)`. -/
def limit (req : PodRequest) : ℤ := ((req.args.lookup "limit").bind pyInt).getD 10

/-- `GET /db/records`: the latest rows the pod is shown. -/
def getRecords (req : PodRequest) : PodProg PodResponse :=
  withDb pod <| orError pod <| dbConn pod fun
    | none => return noConnection
    | some c => do
      let rows ← query c (.select (limit req))
      return { body := .records pod.tenantId rows }

/-- The route of a request. -/
def route (req : PodRequest) : PodProg PodResponse :=
  match req.route with
  | .home => home pod req
  | .health => health pod
  | .dbVersion => dbVersion pod
  | .dbInit => initDb pod
  | .createItem => createItem pod req
  | .getRecords => getRecords pod req
  | .unknown => pure notFound

/-- A request served. -/
def serve (req : PodRequest) : PodProg PodResponse :=
  match requireLabUser pod req with
  | some rejected => pure rejected
  | none => route pod req

end Pod

end NtierLab
