import NtierLab.Postgres.Isolation

/-!
# Sessions on the table

What a client of the database sees of `sample_requests`: it holds connections, each
with at most one transaction under way, in which the setting `app.tenant_id` is local
(`Tx`), and it takes them from a pool that hands out any connection put back, in
whatever state it was put back (`Client.answer`). A statement is executed under the
policies of the role of the client, or it fails and aborts its transaction, or its
connection is lost; a commit that fails may have been executed.

* `Db.shows`: what the policies show a role under a setting;
* `Client.Others`: what the other sessions do to the database meanwhile.
-/

namespace NtierLab

open Prog

/-- A row of `sample_requests`. -/
structure Record where
  id : ℕ
  timestamp : ℕ
  remoteIp : Option String
  hostname : Option String
  userAgent : Option String
  message : Option String
  tenantId : String
  deriving DecidableEq

/-- `ORDER BY timestamp DESC`: rows of one time come in any order. -/
structure RowOrder where
  sort : List Record → List Record
  perm : ∀ l, (sort l).Perm l
  sorted : ∀ l, (sort l).Pairwise fun r r' => r'.timestamp ≤ r.timestamp

/-- A transaction: the setting `app.tenant_id`, whether it is aborted, and its inserts. -/
structure Tx where
  setting : Option String := none
  failed : Bool := false
  pending : List Record := []
  deriving DecidableEq

/-- A connection, with its transaction. -/
structure Conn where
  tx : Option Tx := none
  deriving DecidableEq

/-- The statements of the client. -/
inductive Query
  /-- `SELECT set_config('app.tenant_id', value, true)`. -/
  | setConfig (value : String)
  /-- `SELECT 1`. -/
  | ping
  | version
  /-- `SELECT current_setting('app.tenant_id', true)`. -/
  | currentSetting
  /-- Whether row-level security is enabled, and forced, on `sample_requests`. -/
  | rowSecurity
  /-- `INSERT INTO sample_requests ... RETURNING id, timestamp, message, tenant_id`. -/
  | insert (remoteIp hostname userAgent message tenantId : String)
  /-- `SELECT ... FROM sample_requests ORDER BY timestamp DESC LIMIT limit`. -/
  | select (limit : ℤ)
  deriving DecidableEq

/-- The statement is one on `sample_requests`. -/
def Query.OnTable : Query → Prop
  | insert .. | select _ => True
  | _ => False

abbrev Query.Resp : Query → Type
  | setConfig _ | ping => Unit
  | version => String
  | currentSetting => Option String
  | rowSecurity => Option (Bool × Bool)
  | insert .. => Record
  | select _ => List Record

/-- The commands of the client. -/
inductive ClientCmd
  /-- `db_pool is None`. -/
  | poolMissing
  /-- Loads the credentials and opens the pool; a failure is logged. -/
  | initPool
  | getconn
  | putconn (c : ℕ) (close : Bool)
  | rollback (c : ℕ)
  | commit (c : ℕ)
  | query (c : ℕ) (q : Query)
  deriving DecidableEq

/-- How the opening of the pool ends: there may be no credentials, or they may not be loaded. -/
inductive PoolOpening
  | ready
  | noCredentials
  | secretError
  | poolError
  deriving DecidableEq

/-- The responses of the commands, or the text of the exception raised. -/
abbrev ClientCmd.Resp : ClientCmd → Type
  | poolMissing => Bool
  | initPool => PoolOpening
  | getconn => Except String (Option ℕ)
  | putconn _ _ | rollback _ | commit _ => Except String Unit
  | query _ q => Except String q.Resp

/-- The signature of the client. -/
abbrev clientSig : Sig := ⟨ClientCmd, ClientCmd.Resp⟩

namespace Db

variable (db : Db)

/-- The role holds a privilege. -/
def holds (role : String) (p : Privilege) : Bool := (db.roles role).any fun r => p ∈ r.grants

/-- The policies show a role the rows of a tenant, under a setting. -/
def shows (role : String) (setting : Option String) (tenant : String) : Bool :=
  !db.rls || db.policies.any fun p => p.role = role ∧ p.tenant = tenant ∧ setting = some p.tenant

end Db

/-- A client: the database, the rows of the table, the pool, whether it is open, the open
    connections and those of them in the pool. -/
structure Client where
  db : Db
  rows : List Record
  pool : Bool := false
  conns : ℕ → Option Conn := fun _ => none
  idle : List ℕ := []

/-- What the client meets at a command: whether it raises, and still has its effect, or loses
    the connection; how the pool is opened; the connection it hands out, if any; and what a
    statement returns. -/
structure ClientChoice where
  fails : Option String := none
  opening : PoolOpening := .ready
  done : Bool := false
  lost : Bool := false
  conn : Option ℕ := none
  id : ℕ := 0
  timestamp : ℕ := 0
  text : String := ""

namespace Client

variable (order : RowOrder) (role : String) (x : ClientChoice) (w : Client)

/-- The client with a connection changed. -/
def setConn (c : ℕ) (conn : Option Conn) : Client :=
  { w with conns := Function.update w.conns c conn }

/-- The rows the policies show in a transaction: the committed ones, and its own. -/
def visible (tx : Tx) : List Record :=
  (w.rows ++ tx.pending).filter fun r => w.db.shows role tx.setting r.tenantId

/-- What a statement returns in a transaction, and the transaction after it. -/
def run (tx : Tx) : (q : Query) → Except String q.Resp × Tx
  | .setConfig value => (.ok (), { tx with setting := some value })
  | .ping => (.ok (), tx)
  | .version => (.ok x.text, tx)
  | .currentSetting => (.ok tx.setting, tx)
  | .rowSecurity =>
    (.ok (if w.db.table then some (w.db.rls, w.db.forceRls) else none), tx)
  | .insert remoteIp hostname userAgent message tenantId =>
    let row : Record := ⟨x.id, x.timestamp, remoteIp, hostname, userAgent, message, tenantId⟩
    if !(w.db.table && w.db.holds role .table && w.db.holds role .sequence) then
      (.error "permission denied", tx)
    else if !w.db.shows role tx.setting tenantId then
      (.error "new row violates row-level security policy for table \"sample_requests\"", tx)
    else (.ok row, { tx with pending := tx.pending ++ [row] })
  | .select limit =>
    if !(w.db.table && w.db.holds role .table) then (.error "permission denied", tx)
    else if limit < 0 then (.error "LIMIT must not be negative", tx)
    else (.ok ((order.sort (w.visible role tx)).take limit.toNat), tx)

/-- A statement on a connection, which begins a transaction unless one is under way. -/
def query (c : ℕ) (q : Query) : Except String q.Resp × Client :=
  match w.conns c with
  | none => (.error "connection already closed", w)
  | some conn =>
    let tx := conn.tx.getD {}
    if tx.failed then (.error "current transaction is aborted", w)
    else
      match x.fails, w.run order role x tx q with
      | none, (.ok r, tx') => (.ok r, w.setConn c (some ⟨some tx'⟩))
      | none, (.error e, _) => (.error e, w.setConn c (some ⟨some { tx with failed := true }⟩))
      | some e, _ =>
        (.error e, w.setConn c (if x.lost then none else some ⟨some { tx with failed := true }⟩))

/-- The client with the transaction of a connection ended. -/
def endTx (c : ℕ) : Client :=
  match w.conns c with
  | none => w
  | some _ => w.setConn c (some {})

/-- The rows a connection has inserted, which a commit adds to the table. -/
def inserted (c : ℕ) : List Record :=
  match (w.conns c).bind Conn.tx with
  | some tx => if tx.failed then [] else tx.pending
  | none => []

/-- How the database and the pool answer a command. The pool hands out any connection in it, or
    a new one, and takes one back as it is, or rolled back, or closed. -/
def answer : (c : ClientCmd) → Client → c.Resp × Client
  | .poolMissing, w => (!w.pool, w)
  | .initPool, w => (x.opening, { w with pool := decide (x.opening = .ready) })
  | .getconn, w =>
    match x.fails, x.conn with
    | some e, _ => (.error e, w)
    | none, none => (.ok none, w)
    | none, some c =>
      if c ∈ w.idle then (.ok (some c), { w with idle := w.idle.erase c })
      else if (w.conns c).isNone then (.ok (some c), w.setConn c (some {}))
      else (.error "connection pool exhausted", w)
  | .putconn c close, w =>
    match x.fails with
    | some e => (.error e, if x.done then w.setConn c none else w)
    | none =>
      if close || x.lost then (.ok (), w.setConn c none)
      else (.ok (), { (if x.done then w.endTx c else w) with idle := c :: w.idle })
  | .rollback c, w =>
    match x.fails with
    | some e => (.error e, if x.lost then w.setConn c none else if x.done then w.endTx c else w)
    | none =>
      if (w.conns c).isNone then (.error "connection already closed", w) else (.ok (), w.endTx c)
  | .commit c, w =>
    let committed := { w.endTx c with rows := w.rows ++ w.inserted c }
    match x.fails with
    | some e =>
      (.error e, if x.done then (if x.lost then committed.setConn c none else committed)
        else if x.lost then w.setConn c none else w)
    | none =>
      if (w.conns c).isNone then (.error "connection already closed", w) else (.ok (), committed)
  | .query c q, w => w.query order role x c q

/-- What the other sessions do: they write any rows, and the scripts are run. -/
structure Others (w w' : Client) : Prop where
  client : w' = { w with db := w'.db, rows := w'.rows }
  scripts : Relation.ReflTransGen
    (fun db db' : Db => ∃ s : Statement, s.Scripted ∧ db.exec s = some db') w.db w'.db

end Client

end NtierLab
