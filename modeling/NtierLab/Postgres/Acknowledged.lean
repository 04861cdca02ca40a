import NtierLab.Prog.Crash
import NtierLab.Postgres.Serving

/-!
# Items acknowledged

What becomes of the items posted to a pod. The rest of the world, other requests to the pod and
other sessions included, does anything at any time, but to the connection a request holds
(`ledger`); a request may raise or be left at any command (`ServedItems`).

* `Ledger`: the client, the connection held, and the rows the commits of the requests have added;
* `Lands`: what a request adds to the table, by its answer: at most the item it posts, once, and
  that item if it is answered with it;
* `items_land`: so do the requests of every run, in turn.
-/

namespace NtierLab

open Prog

/-! ## Items -/

/-- What a row says, without its id and its time. -/
structure PodItem where
  remoteIp : Option String
  hostname : Option String
  userAgent : Option String
  message : Option String
  tenantId : String
  deriving DecidableEq

def Record.podItem (r : Record) : PodItem :=
  ⟨r.remoteIp, r.hostname, r.userAgent, r.message, r.tenantId⟩

/-- The item of a message posted to a pod. -/
def Pod.podItem (pod : Pod) (req : PodRequest) (message : String) : PodItem :=
  ⟨some req.remoteAddr, some pod.hostname, some (req.userAgent.getD "Unknown"), some message,
    pod.tenantId⟩

/-- The message of a JSON body, if it has one. -/
def JsonBody.text : JsonBody → Option String
  | .object fields =>
    match fields.lookup "message" with
    | some (.text s) => if s = "" then none else some s
    | _ => none
  | _ => none

/-- The item a request posts, if it is one of a user of the tenant. -/
def posts (pod : Pod) (req : PodRequest) : Option PodItem :=
  if req.route = .createItem ∧ authorizeLabUser pod req.labUser = none then
    req.json.text.map (pod.podItem req)
  else none

/-- The row a request is answered with, if it is one it created. -/
def acknowledged : Option PodResponse → Option Record
  | some ⟨.created row, _⟩ => some row
  | _ => none

/-- What a request adds to the table, by its answer, if it is answered. -/
structure Lands (pod : Pod) (q : PodRequest × Option PodResponse) (new : List Record) : Prop where
  once : new.length ≤ 1
  posted : ∀ row ∈ new, posts pod q.1 = some row.podItem
  kept : ∀ row, acknowledged q.2 = some row → new = [row]

/-! ## The ledger -/

/-- The client of a pod, the connection a request holds, and the rows its commits have added. -/
structure Ledger where
  client : Client
  held : Option ℕ := none
  written : List Record := []

/-- The connection held after a command: the one handed out, until it is given back. -/
def heldAfter (held : Option ℕ) : (c : ClientCmd) → c.Resp → Option ℕ
  | .getconn, .ok (some c) => some c
  | .putconn _ _, _ => none
  | _, _ => held

/-- The client as the rest of the world may leave it: the connection held is as it was. -/
def Ledger.Moved (l : Ledger) (w : Client) : Prop :=
  ∀ c, l.held = some c → w.conns c = l.client.conns c

/-- A command of a request, after what the rest of the world does. -/
def ledger (order : RowOrder) (role : String) : Handler podSig Ledger
  | .client c, l, r, l' => ∃ w x, l.Moved w ∧ w.answer order role x c = (r, l'.client) ∧
      l'.held = heldAfter l.held c r ∧
      ∃ new, l'.client.rows = w.rows ++ new ∧ l'.written = l.written ++ new
  | .log _, l, _, l' | .cursor _, l, _, l' | .closeCursor _, l, _, l' | .jsonify, l, _, l' => l' = l

/-- The requests served one after the other, each on any client, with their answers, if they are
    not left at a command, and the rows they have added to the table. -/
inductive ServedItems (order : RowOrder) (role : String) (pod : Pod) :
    List (PodRequest × Option PodResponse) → List Record → Prop
  | nil : ServedItems order role pod [] []
  | answered {served : List (PodRequest × Option PodResponse)} {written : List Record}
      {req : PodRequest} {w : Client} {tr : Trace podSig} {x : Except String PodResponse}
      {l : Ledger} :
      ServedItems order role pod served written →
      Exec (ledger order role) (Serving.serve pod req) { client := w, written } tr x l →
      ServedItems order role pod (served ++ [(req, x.toOption)]) l.written
  | left {served : List (PodRequest × Option PodResponse)} {written : List Record}
      {req : PodRequest} {w : Client} {l : Ledger} :
      ServedItems order role pod served written →
      Reaches (ledger order role) (Serving.serve pod req) { client := w, written } l →
      ServedItems order role pod (served ++ [(req, none)]) l.written

/-! ## The client after a command -/

section

variable {order : RowOrder} {role : String} {x : ClientChoice} {w w' : Client} {c : ℕ}

/-- A query adds no row before its commit. -/
theorem query_adds_none {q : Query} : (w.query order role x c q).2.rows = w.rows := by
  unfold Client.query
  split
  · rfl
  · dsimp only
    split
    · rfl
    · split <;> rfl

/-- Only a commit adds rows to the table. -/
theorem answer_adds_none {cmd : ClientCmd} (hcmd : ∀ n, cmd ≠ .commit n) :
    (w.answer order role x cmd).2.rows = w.rows := by
  cases cmd with
  | poolMissing | initPool => rfl
  | getconn =>
    simp only [Client.answer]
    split
    · rfl
    · rfl
    · split
      · rfl
      · split <;> rfl
  | putconn c close =>
    simp only [Client.answer]
    split
    · split <;> rfl
    · split
      · rfl
      · split
        · exact (Client.endTx_rows []).1
        · rfl
  | rollback c =>
    simp only [Client.answer]
    split
    · split
      · rfl
      · split
        · exact (Client.endTx_rows []).1
        · rfl
    · split
      · rfl
      · exact (Client.endTx_rows []).1
  | commit c => exact absurd rfl (hcmd c)
  | query c q => exact query_adds_none

/-- A connection rolled back has inserted nothing. -/
theorem rollback_ok {u : Unit} (h : w.answer order role x (.rollback c) = (.ok u, w')) :
    w'.conns c = some {} := by
  simp only [Client.answer] at h
  split at h
  · cases h
  · split at h
    · cases h
    · next hopen =>
      obtain ⟨conn, hconn⟩ := Option.ne_none_iff_exists'.1 (by simpa using hopen)
      cases h
      simp only [Client.endTx, hconn]
      exact Client.setConn_self _

/-- A setting inserts nothing. -/
theorem setConfig_pending {value : String} {r : Except String Unit}
    (h : w.query order role x c (.setConfig value) = (r, w'))
    (hfresh : ∀ conn, w.conns c = some conn → (conn.tx.getD {}).pending = []) {conn : Conn}
    (hconn : w'.conns c = some conn) : (conn.tx.getD {}).pending = [] := by
  unfold Client.query at h
  split at h
  · cases h
    exact hfresh conn hconn
  · next conn₀ hconn₀ =>
    have hpending := hfresh conn₀ hconn₀
    dsimp only [Client.run] at h
    split at h
    · cases h
      exact hfresh conn hconn
    · split at h
      · next heq =>
        cases heq
        cases h
        rw [Client.setConn_self] at hconn
        cases hconn
        exact hpending
      · next heq => cases heq
      · cases h
        rw [Client.setConn_self] at hconn
        split at hconn
        · cases hconn
        · cases hconn
          exact hpending

/-- An insert that returns is the last of its transaction, which is not aborted. -/
theorem insert_ok {ip host agent message tenant : String} {row : Record}
    (h : w.query order role x c (.insert ip host agent message tenant) = (.ok row, w')) :
    ∃ conn, w.conns c = some conn ∧
      row.podItem = ⟨some ip, some host, some agent, some message, tenant⟩ ∧
      ∃ tx, w'.conns c = some ⟨some tx⟩ ∧ tx.failed = false ∧
        tx.pending = (conn.tx.getD {}).pending ++ [row] := by
  have hlive : ∀ conn, w.conns c = some conn → (conn.tx.getD {}).failed = false := by
    intro conn hconn
    unfold Client.query at h
    simp only [hconn] at h
    split at h
    · cases h
    · next hf => simpa using hf
  obtain ⟨conn, hconn, hrun, hw⟩ := Client.query_ok (congrArg Prod.fst h)
  have hw' : w' = w.setConn c (some ⟨some (w.run order role x (conn.tx.getD {})
      (.insert ip host agent message tenant)).2⟩) := (congrArg Prod.snd h).symm.trans hw
  have hconns := congrArg (fun w => w.conns c) hw'
  simp only [Client.setConn_self, Client.run] at hrun hconns
  split_ifs at hrun hconns
  cases hrun
  exact ⟨conn, hconn, rfl, _, hconns, hlive conn hconn, rfl⟩

/-- A commit adds what its connection has inserted, or raises. -/
theorem commit_rows {r : Except String Unit} (h : w.answer order role x (.commit c) = (r, w')) :
    w'.rows = w.rows ++ w.inserted c ∨ w'.rows = w.rows ∧ ∃ e, r = .error e := by
  simp only [Client.answer] at h
  split at h
  · split at h
    · left
      split at h <;> cases h <;> rfl
    · right
      split at h <;> cases h <;> exact ⟨rfl, _, rfl⟩
  · split at h
    · right
      cases h
      exact ⟨rfl, _, rfl⟩
    · left
      cases h
      rfl

/-- No command removes rows. -/
theorem answer_grows (w : Client) (cmd : ClientCmd) :
    ∃ new, (w.answer order role x cmd).2.rows = w.rows ++ new := by
  by_cases hcmd : ∃ n, cmd = .commit n
  · obtain ⟨n, rfl⟩ := hcmd
    have hcommit : w.answer order role x (.commit n) = (_, _) := rfl
    rcases commit_rows hcommit with h | ⟨h, -⟩
    · exact ⟨_, h⟩
    · exact ⟨[], h.trans (List.append_nil _).symm⟩
  · exact ⟨[], by rw [answer_adds_none fun n h => hcmd ⟨n, h⟩, List.append_nil]⟩

end

/-! ## The rules of the statements -/

/-- The commands of a request, as long as `J` holds of the rows added. -/
abbrev recording (order : RowOrder) (role : String) (J : List Record → Prop) :
    Contract podSig Ledger :=
  keeping (ledger order role) fun l => J l.written

/-- A connection held, on which nothing was inserted. -/
def Ledger.Fresh (l : Ledger) (c : ℕ) : Prop :=
  l.held = some c ∧ ∀ conn, l.client.conns c = some conn → (conn.tx.getD {}).pending = []

/-- A connection held, on which a row was inserted. -/
def Ledger.Inserted (l : Ledger) (c : ℕ) (row : Record) : Prop :=
  l.held = some c ∧ ∃ tx, l.client.conns c = some ⟨some tx⟩ ∧ tx.failed = false ∧ tx.pending = [row]

section

variable {order : RowOrder} {role : String} {J : List Record → Prop} {l : Ledger} {c : ℕ}
  {α : Type} {pod : Pod}

/-- A command but a commit adds no row. -/
theorem wp_client {cmd : ClientCmd} {k : cmd.Resp → Served α} {Q : Except String α → Ledger → Prop}
    (hcmd : ∀ n, cmd ≠ .commit n) (hJ : J l.written)
    (hk : ∀ r l' w x, l'.written = l.written → l'.held = heldAfter l.held cmd r → l.Moved w →
      w.answer order role x cmd = (r, l'.client) → (k r).wp (recording order role J) Q l') :
    (call (.client cmd) k : Served α).wp (recording order role J) Q l := by
  refine ⟨hJ, fun r l' hr => ?_⟩
  obtain ⟨w, x, hmoved, hans, hheld, new, hrows, hwritten⟩ := hr
  have hsame : l'.client.rows = w.rows :=
    (congrArg (·.2.rows) hans).symm.trans (answer_adds_none hcmd)
  obtain rfl : new = [] := List.append_right_eq_self.1 (hrows.symm.trans hsame)
  exact hk r l' w x (by simpa using hwritten) hheld hmoved hans

/-- A connection rolled back is fresh. -/
theorem wp_rollback {Q : Except String Unit → Ledger → Prop} (hJ : J l.written)
    (hheld : l.held = some c)
    (hok : ∀ l', l'.written = l.written → l'.Fresh c → Q (.ok ()) l')
    (herror : ∀ e l', l'.written = l.written → Q (.error e) l') :
    (Serving.rollback c).wp (recording order role J) Q l := by
  refine wp_client nofun hJ fun r l' w x hwritten hheld' _ hans => ?_
  cases r with
  | error e => exact herror e l' hwritten
  | ok u =>
    refine hok l' hwritten ⟨hheld'.trans hheld, fun conn hconn => ?_⟩
    rw [rollback_ok hans] at hconn
    cases hconn
    rfl

/-- A fresh connection stays so when its setting is made. -/
theorem wp_setConfig {value : String} {Q : Except String Unit → Ledger → Prop} (hJ : J l.written)
    (hfresh : l.Fresh c)
    (h : ∀ r l', l'.written = l.written → l'.Fresh c → Q r l') :
    (Serving.query c (.setConfig value)).wp (recording order role J) Q l := by
  refine wp_client nofun hJ fun r l' w x hwritten hheld hmoved hans => ?_
  rw [wp_result]
  refine h r l' hwritten ⟨hheld.trans hfresh.1, fun conn hconn => ?_⟩
  refine setConfig_pending hans (fun conn₀ hconn₀ => hfresh.2 conn₀ ?_) hconn
  rw [← hmoved c hfresh.1]
  exact hconn₀

/-- An insert on a fresh connection. -/
theorem wp_insert {ip host agent message tenant : String}
    {Q : Except String Record → Ledger → Prop} (hJ : J l.written) (hfresh : l.Fresh c)
    (hok : ∀ row l', l'.written = l.written → l'.Inserted c row →
      row.podItem = ⟨some ip, some host, some agent, some message, tenant⟩ → Q (.ok row) l')
    (herror : ∀ e l', l'.written = l.written → Q (.error e) l') :
    (Serving.query c (.insert ip host agent message tenant)).wp (recording order role J) Q l := by
  refine wp_client nofun hJ fun r l' w x hwritten hheld hmoved hans => ?_
  rw [wp_result]
  cases r with
  | error e => exact herror e l' hwritten
  | ok row =>
    obtain ⟨conn, hconn, hitem, tx, htx, hlive, hpending⟩ := insert_ok hans
    refine hok row l' hwritten ⟨hheld.trans hfresh.1, tx, htx, hlive, ?_⟩ hitem
    rw [hpending, hfresh.2 conn ((hmoved c hfresh.1).symm.trans hconn)]
    rfl

/-- The commit of a row adds it, unless it raises, and may add it then too. -/
theorem wp_commit {row : Record} {Q : Except String Unit → Ledger → Prop} (hJ : J l.written)
    (hins : l.Inserted c row)
    (hadded : ∀ r l', l'.written = l.written ++ [row] → Q r l')
    (herror : ∀ e l', l'.written = l.written → Q (.error e) l') :
    (Serving.commit c).wp (recording order role J) Q l := by
  refine ⟨hJ, fun r l' hr => ?_⟩
  obtain ⟨w, x, hmoved, hans, -, new, hrows, hwritten⟩ := hr
  rw [wp_result]
  obtain ⟨hheld, tx, htx, hlive, hpending⟩ := hins
  have hinserted : w.inserted c = [row] := by
    simp [Client.inserted, hmoved c hheld, htx, hlive, hpending]
  rcases commit_rows hans with h | ⟨h, e, rfl⟩
  · obtain rfl : new = w.inserted c := List.append_cancel_left (hrows.symm.trans h)
    exact hadded r l' (hinserted ▸ hwritten)
  · obtain rfl : new = [] := List.append_right_eq_self.1 (hrows.symm.trans h)
    exact herror e l' (by simpa using hwritten)

/-- The statements that are not the database's leave the ledger as it is. -/
theorem wp_logEvent {msg : String} {Q : Except String Unit → Ledger → Prop} (hJ : J l.written)
    (h : ∀ r, Q r l) : (Serving.logEvent msg).wp (recording order role J) Q l :=
  ⟨hJ, fun r _ hl => (wp_result _).2 (hl ▸ h r)⟩

theorem wp_cursor {Q : Except String Unit → Ledger → Prop} (hJ : J l.written)
    (h : ∀ r, Q r l) : (Serving.cursor c).wp (recording order role J) Q l :=
  ⟨hJ, fun r _ hl => (wp_result _).2 (hl ▸ h r)⟩

theorem wp_closeCursor {Q : Except String Unit → Ledger → Prop} (hJ : J l.written)
    (h : ∀ r, Q r l) : (Serving.closeCursor c).wp (recording order role J) Q l :=
  ⟨hJ, fun r _ hl => (wp_result _).2 (hl ▸ h r)⟩

/-! ## Programs that commit nothing -/

/-- The command is no commit. -/
def Uncommitting : PodCmd → Prop
  | .client (.commit _) => False
  | _ => True

/-- The program commits nothing, and ends as `Φ` says. -/
def Commitless (Φ : Except String α → Prop) (p : Served α) : Prop :=
  p.wp ⟨fun c _ => Uncommitting c, fun _ _ _ _ => True⟩ (fun x _ => Φ x) ()

/-- A program that does not commit writes nothing. -/
theorem Commitless.wp {Φ : Except String α → Prop} {p : Served α} (hp : Commitless Φ p)
    (hJ : J l.written) :
    p.wp (recording order role J) (fun x l' => Φ x ∧ l'.written = l.written) l := by
  induction p generalizing l with
  | ret a => exact ⟨hp, rfl⟩
  | fail e => exact ⟨hp, rfl⟩
  | call cmd k ih =>
    have hk (r : cmd.Resp) : Commitless Φ (k r) := hp.2 r () trivial
    have hsame (r : cmd.Resp) (l' : Ledger) (h : l'.written = l.written) :
        (k r).wp (recording order role J) (fun x l' => Φ x ∧ l'.written = l.written) l' :=
      h ▸ ih r (hk r) (h ▸ hJ)
    cases cmd with
    | client cmd =>
      refine wp_client ?_ hJ fun r l' _ _ h _ _ _ => hsame r l' h
      rintro n rfl
      exact hp.1
    | _ => exact ⟨hJ, fun r l' h => hsame r l' (congrArg Ledger.written h)⟩

variable {β : Type} {Φ : Except String α → Prop} {Ψ : Except String β → Prop}

/-- A program without the command does not. -/
theorem Commitless.of_calls {p : Served α} (hp : p.Calls Uncommitting) :
    Commitless (fun _ => True) p :=
  Calls.wp hp (fun _ _ hc _ => ⟨hc, fun _ _ _ => trivial⟩) trivial

theorem Commitless.bind {p : Served β} {f : β → Served α} (hp : Commitless Ψ p)
    (hf : ∀ b, Ψ (.ok b) → Commitless Φ (f b)) (he : ∀ e, Φ (.error e)) :
    Commitless Φ (p >>= f) :=
  Prog.wp.bind hp (fun b _ hb => hf b hb) fun e _ _ => he e

/-- The statements before do not matter to how the program ends. -/
theorem Commitless.seq {p : Served β} {f : β → Served α} (hp : p.Calls Uncommitting)
    (hf : ∀ b, Commitless Φ (f b)) (he : ∀ e, Φ (.error e)) : Commitless Φ (p >>= f) :=
  (Commitless.of_calls hp).bind (fun b _ => hf b) he

theorem Commitless.tryCatch {p : Served α} {f : String → Served α} (hp : Commitless Φ p)
    (hf : ∀ e, Commitless Φ (f e)) : Commitless Φ (MonadExcept.tryCatch p f) :=
  (wp_tryCatch _ _).2 (Prog.wp.imp hp fun x _ hx => by
    cases x with
    | ok a => exact hx
    | error e => exact hf e)

theorem attempt_calls {p : Served α} {P : PodCmd → Prop} (hp : p.Calls P) :
    (Serving.attempt p).Calls P :=
  .tryCatch (.map _ hp) fun _ => trivial

theorem logEvent_uncommitting (msg : String) : (Serving.logEvent msg).Calls Uncommitting :=
  ⟨trivial, fun r => calls_result r⟩

theorem cursor_uncommitting : (Serving.cursor c).Calls Uncommitting :=
  ⟨trivial, fun r => calls_result r⟩

theorem closeCursor_uncommitting : (Serving.closeCursor c).Calls Uncommitting :=
  ⟨trivial, fun r => calls_result r⟩

theorem query_uncommitting (q : Query) : (Serving.query c q).Calls Uncommitting :=
  ⟨trivial, fun r => calls_result r⟩

theorem rollback_uncommitting : (Serving.rollback c).Calls Uncommitting :=
  ⟨trivial, fun r => calls_result r⟩

theorem putconn_uncommitting (close : Bool) : (Serving.putconn c close).Calls Uncommitting :=
  ⟨trivial, fun r => calls_result r⟩

/-! ## Its connection -/

theorem attempt_wp {p : Served α} {Q : Except String (Except String α) → Ledger → Prop}
    (hp : p.wp (recording order role J) (fun x l' => Q (.ok x) l') l) :
    (Serving.attempt p).wp (recording order role J) Q l :=
  (wp_tryCatch _ _).2 ((wp_map _ _).2 (wp.imp hp fun x _ hx => by
    cases x with
    | ok a => exact hx
    | error e => exact hx))

/-- What the pool hands out is held. -/
theorem getconn_held (hJ : J l.written) : Serving.getconn.wp (recording order role J)
    (fun x l' => l'.written = l.written ∧ ∀ c, x = .ok (some c) → l'.held = some c) l := by
  refine wp_client nofun hJ fun r l' _ _ hwritten hheld _ _ => (wp_result _).2 ⟨hwritten, ?_⟩
  rintro c rfl
  exact hheld

/-- A connection bound is fresh, whatever it was. -/
theorem bindTenant_fresh (hJ : J l.written) (hheld : l.held = some c) :
    (Serving.bindTenant pod c).wp (recording order role J)
      (outcome (fun _ l' => l'.written = l.written ∧ l'.Fresh c)
        fun _ l' => l'.written = l.written) l := by
  refine (wp_bind _ _).2 (wp_rollback hJ hheld (fun l₁ h₁ hfresh => ?_) fun _ _ h => h)
  have hJ₁ : J l₁.written := h₁ ▸ hJ
  refine (wp_ite _ _ _).2 ⟨fun _ => ?_, fun _ => ⟨h₁, hfresh⟩⟩
  refine (wp_bind _ _).2 (wp_cursor hJ₁ fun r => ?_)
  cases r with
  | error e => exact h₁
  | ok u =>
    refine (wp_ensuring _ _).2 (wp_setConfig hJ₁ hfresh fun r l₂ h₂ hfresh₂ => ?_)
    have h₂₀ : l₂.written = l.written := h₂.trans h₁
    refine wp_closeCursor (h₂₀ ▸ hJ) fun r' => ?_
    -- Any of the two may raise.
    cases r' with
    | error e => exact h₂₀
    | ok u =>
      cases r with
      | error e => exact h₂₀
      | ok u => exact ⟨h₂₀, hfresh₂⟩

/-- The connection a request gets is held, and fresh. -/
theorem getDbConnection_fresh (hJ : J l.written) :
    (Serving.getDbConnection pod).wp (recording order role J)
      (fun x l' => l'.written = l.written ∧ ∀ c, x = .ok (some c) → l'.Fresh c) l := by
  have hnone {p : Served (Option ℕ)} {l₁ : Ledger} (h₁ : l₁.written = l.written)
      (hp : Commitless (fun x => ∀ c, x ≠ .ok (some c)) p) : p.wp (recording order role J)
        (fun x l' => l'.written = l.written ∧ ∀ c, x = .ok (some c) → l'.Fresh c) l₁ :=
    (hp.wp (h₁ ▸ hJ)).imp fun x l' h => ⟨h.2.trans h₁, fun c hx => absurd hx (h.1 c)⟩
  have hlog := logEvent_uncommitting "db_getconn_error"
  refine (wp_bind _ _).2 (attempt_wp (wp.imp (Q := fun x l' => l'.written = l.written ∧
    ∀ c, x = .ok (some c) → l'.held = some c) ?_ fun x l₁ ⟨h₁, hheld⟩ => ?_))
  · refine wp_client nofun hJ fun missing l₁ _ _ h₁ _ _ _ => ?_
    refine (wp_ite _ _ _).2 ⟨fun _ => ?_, fun _ => ?_⟩
    · have hinit : Serving.initDbPool.Calls Uncommitting :=
        Serving.initDbPool_calls trivial fun _ => trivial
      refine (wp_bind _ _).2
        (((Commitless.of_calls hinit).wp (h₁ ▸ hJ)).imp fun y l₂ ⟨_, h₂⟩ => ?_)
      have hJ₂ : J l₂.written := h₂ ▸ h₁ ▸ hJ
      cases y with
      | error e => exact ⟨h₂.trans h₁, nofun⟩
      | ok u => exact (getconn_held hJ₂).imp fun x l' h => ⟨h.1.trans (h₂.trans h₁), h.2⟩
    · exact (getconn_held (h₁ ▸ hJ)).imp fun x l' h => ⟨h.1.trans h₁, h.2⟩
  · rcases x with e | _ | c
    · exact hnone h₁ (.seq hlog (fun _ => nofun) nofun)
    · exact ⟨h₁, nofun⟩
    · refine (wp_bind _ _).2 (attempt_wp ((bindTenant_fresh (h₁ ▸ hJ) (hheld c rfl)).imp
        fun x l₂ h₂ => ?_))
      cases x with
      | error e =>
        refine hnone (h₂.trans h₁) (.seq hlog (fun _ => .seq ?_ (fun _ => nofun) nofun) nofun)
        exact .tryCatch (putconn_uncommitting true) fun _ => trivial
      | ok u =>
        refine ⟨h₂.1.trans h₁, fun d hd => ?_⟩
        cases hd
        exact h₂.2

/-- Nor does its return. -/
theorem returnDbConnection_uncommitting (conn : Option ℕ) :
    (Serving.returnDbConnection conn).Calls Uncommitting := by
  cases conn with
  | none => trivial
  | some c =>
    refine .bind ⟨trivial, fun _ => trivial⟩ fun missing => .ite (fun _ => trivial) fun _ => ?_
    exact .bind (.tryCatch rollback_uncommitting fun _ => trivial) fun _ =>
      putconn_uncommitting false

/-- Acquiring a connection does not commit. -/
theorem getDbConnection_uncommitting : (Serving.getDbConnection pod).Calls Uncommitting := by
  have hlog := logEvent_uncommitting "db_getconn_error"
  have hget : Serving.getconn.Calls Uncommitting := ⟨trivial, fun r => calls_result r⟩
  refine .bind (attempt_calls (.bind ⟨trivial, fun _ => trivial⟩ fun missing =>
    .ite (fun _ => .bind (Serving.initDbPool_calls trivial fun _ => trivial) fun _ => hget)
      fun _ => hget)) fun x => ?_
  · rcases x with e | _ | c
    · exact .bind hlog fun _ => trivial
    · trivial
    · have hbind : (Serving.bindTenant pod c).Calls Uncommitting :=
        .bind rollback_uncommitting fun _ => .ite (fun _ => .bind cursor_uncommitting fun _ =>
          .ensuring (query_uncommitting _) closeCursor_uncommitting) fun _ => trivial
      refine .bind (attempt_calls hbind) fun x => ?_
      cases x with
      | error e =>
        exact .bind hlog fun _ =>
          .bind (.tryCatch (putconn_uncommitting true) fun _ => trivial) fun _ => trivial
      | ok u => trivial

/-- Nor does a body that does not, with a connection. -/
theorem Commitless.dbConn {body : Option ℕ → Served α} (h : ∀ conn, Commitless Φ (body conn))
    (he : ∀ e, Φ (.error e)) : Commitless Φ (Serving.dbConn pod body) := by
  refine .seq getDbConnection_uncommitting (fun conn => (wp_ensuring _ _).2 ?_) he
  refine Prog.wp.imp (h conn) fun x _ hx => ?_
  refine Prog.wp.imp (Commitless.of_calls (returnDbConnection_uncommitting conn)) fun y _ _ => ?_
  cases y with
  | ok u => exact hx
  | error e => exact he e

/-! ## Responses that acknowledge nothing -/

/-- The request is not answered with a row it created. -/
def Unacknowledged (x : Except String PodResponse) : Prop := acknowledged x.toOption = none

theorem unacknowledged_error (e : String) : Unacknowledged (.error e) := rfl

theorem Commitless.answer {r : PodResponse} (hr : Unacknowledged (.ok r)) :
    Commitless Unacknowledged (Serving.answer r) :=
  .seq ⟨trivial, fun x => calls_result x⟩ (fun _ => hr) unacknowledged_error

theorem Commitless.orError {p : Served PodResponse} (hp : Commitless Unacknowledged p) :
    Commitless Unacknowledged (Serving.orError pod p) :=
  hp.tryCatch fun _ => .answer rfl

theorem tenantMissing_unacknowledged {err : PodResponse} (h : pod.tenantMissing = some err) :
    Unacknowledged (.ok err) := by
  unfold Pod.tenantMissing at h
  split at h <;> cases h
  rfl

theorem authorizeLabUser_unacknowledged {user : Option String} {r : PodResponse}
    (h : authorizeLabUser pod user = some r) : Unacknowledged (.ok r) := by
  unfold authorizeLabUser at h
  dsimp only at h
  split at h
  · cases h
    rfl
  · split at h
    · cases h
      rfl
    · split at h <;> cases h
      rfl

/-- Nor does a route that needs the database. -/
theorem Commitless.withDb {p : Served PodResponse} (hp : Commitless Unacknowledged p) :
    Commitless Unacknowledged (Serving.withDb pod p) := by
  refine (wp_ite _ _ _).2 ⟨fun _ => Commitless.answer rfl, fun _ => ?_⟩
  cases herr : pod.tenantMissing with
  | some err => exact Commitless.answer (tenantMissing_unacknowledged herr)
  | none => exact hp

theorem home_commitless (req : PodRequest) : Commitless Unacknowledged (Serving.answer
    (if pod.labDiagnostics then
      { body := .home pod.hostname req.remoteAddr pod.dbEnabled pod.tenantId }
    else Pod.notFound)) := by
  split
  · exact .answer rfl
  · exact .answer rfl

/-- The response of a failed probe, built where its connection is and returned after it. -/
def Early (x : Except String (Option PodResponse)) : Prop :=
  ∀ r, x = .ok (some r) → Unacknowledged (.ok r)

/-- The probe does not commit. -/
theorem health_commitless : Commitless Unacknowledged (Serving.health pod) := by
  refine (wp_ite _ _ _).2 ⟨fun _ => ?_, fun _ => Commitless.answer rfl⟩
  have hunhealthy : Commitless Early (do
      Serving.logEvent "health"
      some <$> Serving.answer Pod.unhealthy) := by
    refine .seq (logEvent_uncommitting _) (fun _ => (wp_map _ _).2 ?_) nofun
    refine Prog.wp.imp (Commitless.answer (r := Pod.unhealthy) rfl) fun x _ hx => ?_
    cases x with
    | ok r =>
      rintro _ ⟨⟩
      exact hx
    | error e => exact nofun
  refine Commitless.bind (show Commitless Early _ from .tryCatch (.dbConn (fun conn => ?_) nofun)
    fun _ => hunhealthy) (fun early h => ?_) unacknowledged_error
  · cases conn with
    | none => exact hunhealthy
    | some c =>
      exact .seq cursor_uncommitting (fun _ => .seq (query_uncommitting _) (fun _ =>
        .seq closeCursor_uncommitting (fun _ => .seq (logEvent_uncommitting _) (fun _ => nofun)
          nofun) nofun) nofun) nofun
  · cases early with
    | none => exact .answer rfl
    | some r => exact h r rfl

/-- Nor does the version of the database. -/
theorem dbVersion_commitless : Commitless Unacknowledged (Serving.dbVersion pod) := by
  refine (wp_ite _ _ _).2 ⟨fun _ => Commitless.answer rfl, fun _ => ?_⟩
  refine Commitless.withDb (.orError (.dbConn (fun conn => ?_) unacknowledged_error))
  cases conn with
  | none => exact .answer rfl
  | some c =>
    exact .seq cursor_uncommitting (fun _ => .seq (query_uncommitting _) (fun _ =>
      .seq (query_uncommitting _) (fun _ => .seq closeCursor_uncommitting (fun _ => .answer rfl)
        unacknowledged_error) unacknowledged_error) unacknowledged_error) unacknowledged_error

/-- Nor does its row security. -/
theorem initDb_commitless : Commitless Unacknowledged (Serving.initDb pod) := by
  refine Commitless.withDb (.orError (.dbConn (fun conn => ?_) unacknowledged_error))
  cases conn with
  | none => exact .answer rfl
  | some c =>
    refine .seq cursor_uncommitting (fun _ => .seq (query_uncommitting _) (fun row =>
      .seq closeCursor_uncommitting (fun _ => ?_) unacknowledged_error) unacknowledged_error)
      unacknowledged_error
    rcases row with _ | ⟨rls, force⟩
    · exact .answer rfl
    · exact .answer rfl

/-- Nor does the listing of the records. -/
theorem getRecords_commitless (req : PodRequest) :
    Commitless Unacknowledged (Serving.getRecords pod req) := by
  refine Commitless.withDb (.orError (.dbConn (fun conn => ?_) unacknowledged_error))
  cases conn with
  | none => exact .answer rfl
  | some c =>
    exact .seq cursor_uncommitting (fun _ => .seq (query_uncommitting _) (fun _ =>
      .seq closeCursor_uncommitting (fun _ => .answer rfl) unacknowledged_error)
      unacknowledged_error) unacknowledged_error

/-! ## Requests -/

/-- Nothing lands of a request that is not acknowledged. -/
theorem Lands.nothing {q : PodRequest × Option PodResponse} (h : acknowledged q.2 = none) :
    Lands pod q [] :=
  ⟨Nat.zero_le 1, fun _ hrow => absurd hrow List.not_mem_nil, fun _ hrow => by simp [h] at hrow⟩

/-- What lands of a request may land of one that was left. -/
theorem Lands.left {req : PodRequest} {r : Option PodResponse} {new : List Record}
    (h : Lands pod (req, r) new) : Lands pod (req, none) new :=
  ⟨h.once, h.posted, nofun⟩

/-- A request that adds the row it posts, and is answered with it or with none. -/
theorem Lands.row {req : PodRequest} {r : Option PodResponse} {row : Record}
    (hposts : posts pod req = some row.podItem)
    (hr : ∀ row', acknowledged r = some row' → row' = row) : Lands pod (req, r) [row] :=
  ⟨le_rfl, fun row' hrow => List.mem_singleton.1 hrow ▸ hposts,
    fun row' hrow => by rw [hr row' hrow]⟩

/-- What a request has added so far to the rows there were. -/
def LandedSo (pod : Pod) (req : PodRequest) (before written : List Record) : Prop :=
  ∃ new, written = before ++ new ∧ Lands pod (req, none) new

/-- What a request has added, by how it ends. -/
def Landed (pod : Pod) (req : PodRequest) (before : List Record) (x : Except String PodResponse)
    (l : Ledger) : Prop :=
  ∃ new, l.written = before ++ new ∧ Lands pod (req, x.toOption) new

variable {req : PodRequest} {before : List Record}

/-- What has landed in the end is so in between. -/
theorem Landed.so {x : Except String PodResponse} (h : Landed pod req before x l) :
    LandedSo pod req before l.written := by
  obtain ⟨new, hnew, hlands⟩ := h
  exact ⟨new, hnew, hlands.left⟩

/-- An exception after it takes the answer away, not the row. -/
theorem Landed.raises {x : Except String PodResponse} (h : Landed pod req before x l) (e : String) :
    Landed pod req before (.error e) l := h.so

theorem LandedSo.refl : LandedSo pod req before before := ⟨[], by simp, .nothing rfl⟩

theorem Landed.nothing {x : Except String PodResponse} (hx : Unacknowledged x)
    (hl : l.written = before) : Landed pod req before x l := ⟨[], by simp [hl], .nothing hx⟩

/-- A response that acknowledges nothing leaves what was added as it is. -/
theorem LandedSo.answered {x : Except String PodResponse} {written : List Record}
    (h : LandedSo pod req before written) (hx : Unacknowledged x) (hl : l.written = written) :
    Landed pod req before x l := by
  obtain ⟨new, rfl, hlands⟩ := h
  exact ⟨new, hl, hlands.once, hlands.posted, fun row hrow => by cases hx.symm.trans hrow⟩

/-- A program that commits nothing, and acknowledges nothing. -/
theorem Commitless.lands {p : Served PodResponse} (hp : Commitless Unacknowledged p)
    (hl : LandedSo pod req before l.written) :
    p.wp (recording order role (LandedSo pod req before)) (Landed pod req before) l :=
  (hp.wp hl).imp fun _ _ h => hl.answered h.1 h.2

/-- The item is inserted and committed on the connection, and answered. -/
theorem insertItem_lands {message : String}
    (hposts : posts pod req = some (pod.podItem req message)) (hl : l.written = before) (hfresh : l.Fresh c) :
    (do
      Serving.cursor c
      let row ← Serving.query c (.insert req.remoteAddr pod.hostname (req.userAgent.getD "Unknown")
        message pod.tenantId)
      Serving.commit c
      Serving.closeCursor c
      Serving.answer ⟨.created row, 201⟩).wp (recording order role (LandedSo pod req before))
        (Landed pod req before) l := by
  have hso {l' : Ledger} (h : l'.written = before) : LandedSo pod req before l'.written := h ▸ .refl
  refine (wp_bind _ _).2 (wp_cursor (hso hl) fun r => ?_)
  cases r with
  | error e => exact .nothing (unacknowledged_error e) hl
  | ok u =>
    refine (wp_bind _ _).2 (wp_insert (hso hl) hfresh (fun row l₁ h₁ hins hitem => ?_)
      fun e l₁ h₁ => .nothing (unacknowledged_error e) (h₁.trans hl))
    have hrow : posts pod req = some row.podItem := hposts.trans (congrArg some hitem.symm)
    refine (wp_bind _ _).2 (wp_commit (hso (h₁.trans hl)) hins (fun r l₂ h₂ => ?_)
      fun e l₂ h₂ => .nothing (unacknowledged_error e) (h₂.trans (h₁.trans hl)))
    -- From here the row is in the table, whatever raises.
    have hadded : l₂.written = before ++ [row] := by rw [h₂, h₁, hl]
    have hraised (e : String) : Landed pod req before (.error e) l₂ :=
      ⟨[row], hadded, .row hrow nofun⟩
    cases r with
    | error e => exact hraised e
    | ok u =>
      refine (wp_bind _ _).2 (wp_closeCursor (hraised "").so fun r => ?_)
      cases r with
      | error e => exact hraised e
      | ok u =>
        refine (wp_bind _ _).2 ⟨(hraised "").so, fun r l₃ h₃ => (wp_result _).2 ?_⟩
        obtain rfl : l₃ = l₂ := h₃
        cases r with
        | error e => exact hraised e
        | ok u => exact ⟨[row], hadded, .row hrow fun row' h => (Option.some.inj h).symm⟩

/-- A request whose body adds what it should on a fresh connection. -/
theorem dbConn_lands {body : Option ℕ → Served PodResponse} (hl : l.written = before)
    (hnone : Commitless Unacknowledged (body none))
    (hsome : ∀ c (l₁ : Ledger), l₁.written = before → l₁.Fresh c →
      (body (some c)).wp (recording order role (LandedSo pod req before))
        (Landed pod req before) l₁) :
    (Serving.dbConn pod body).wp (recording order role (LandedSo pod req before))
      (Landed pod req before) l := by
  have hso {l' : Ledger} (h : l'.written = before) : LandedSo pod req before l'.written := h ▸ .refl
  refine (wp_bind _ _).2 ((getDbConnection_fresh (hso hl)).imp fun x l₁ ⟨h₁, hfresh⟩ => ?_)
  cases x with
  | error e => exact .nothing (unacknowledged_error e) (h₁.trans hl)
  | ok conn =>
    have hbody : (body conn).wp (recording order role (LandedSo pod req before))
        (Landed pod req before) l₁ := by
      cases conn with
      | none => exact hnone.lands (hso (h₁.trans hl))
      | some c => exact hsome c l₁ (h₁.trans hl) (hfresh c rfl)
    refine (wp_ensuring _ _).2 (hbody.imp fun x l₂ h₂ => ?_)
    refine ((Commitless.of_calls (returnDbConnection_uncommitting conn)).wp h₂.so).imp
      fun y l₃ ⟨_, h₃⟩ => ?_
    obtain ⟨new, hnew, hlands⟩ := h₂
    cases y with
    | ok u => exact ⟨new, h₃.trans hnew, hlands⟩
    | error e => exact ⟨new, h₃.trans hnew, hlands.left⟩

/-- The message of a body that is no other value than an object. -/
theorem message_text {json : JsonBody} (h : json ≠ .other) :
    Serving.message json = pure json.text := by
  cases json with
  | missing => rfl
  | object fields => rfl
  | other => exact absurd rfl h

/-- A request that creates an item. -/
theorem createItem_lands (hroute : req.route = .createItem)
    (hauth : authorizeLabUser pod req.labUser = none) (hl : l.written = before) :
    (Serving.createItem pod req).wp (recording order role (LandedSo pod req before))
      (Landed pod req before) l := by
  have hso : LandedSo pod req before l.written := hl ▸ .refl
  refine (wp_ite _ _ _).2 ⟨fun _ => Commitless.lands (.answer rfl) hso, fun _ => ?_⟩
  cases herr : pod.tenantMissing with
  | some err => exact Commitless.lands (.answer (tenantMissing_unacknowledged herr)) hso
  | none =>
    have hposts : posts pod req = req.json.text.map (pod.podItem req) := if_pos ⟨hroute, hauth⟩
    by_cases hother : req.json = .other
    · rw [hother]
      exact .nothing (unacknowledged_error _) hl
    · rw [message_text hother]
      cases htext : req.json.text with
      | none => exact Commitless.lands (.answer rfl) hso
      | some message =>
        rw [htext] at hposts
        -- An exception is answered as an error, which acknowledges nothing.
        refine (wp_tryCatch _ _).2 (Prog.wp.imp (dbConn_lands hl (.answer rfl)
          fun c l₁ h₁ hfresh => insertItem_lands hposts h₁ hfresh) fun x l₁ h₁ => ?_)
        cases x with
        | ok r => exact h₁
        | error e => exact Commitless.lands (.answer rfl) h₁.so

/-- A request adds to the table what it should. -/
theorem dispatch_lands (hl : l.written = before) :
    (Serving.dispatch pod req).wp (recording order role (LandedSo pod req before))
      (Landed pod req before) l := by
  have hso : LandedSo pod req before l.written := hl ▸ .refl
  unfold Serving.dispatch
  split
  · next rejected hrejected =>
    refine Commitless.lands (.answer ?_) hso
    unfold requireLabUser at hrejected
    split at hrejected
    · cases hrejected
    · exact authorizeLabUser_unacknowledged hrejected
  · next hallowed =>
    unfold Serving.route
    split
    · exact (home_commitless req).lands hso
    · exact health_commitless.lands hso
    · exact dbVersion_commitless.lands hso
    · exact initDb_commitless.lands hso
    · next hroute =>
      have hauth : authorizeLabUser pod req.labUser = none := by
        simpa [requireLabUser, hroute] using hallowed
      exact createItem_lands hroute hauth hl
    · exact (getRecords_commitless req).lands hso
    · exact .nothing rfl hl

/-- A request lands its item once at most, and once if it is acknowledged. -/
theorem serve_lands (hl : l.written = before) :
    (Serving.serve pod req).wp (recording order role (LandedSo pod req before))
      (Landed pod req before) l := by
  refine (wp_bind _ _).2 ((dispatch_lands hl).imp fun x l₁ h₁ => ?_)
  cases x with
  | error e => exact h₁
  | ok r =>
    have hlog : (Serving.afterRequest req).wp (recording order role (LandedSo pod req before))
        (fun _ l' => l' = l₁) l₁ :=
      (wp_ite _ _ _).2 ⟨fun _ => wp_logEvent h₁.so fun _ => rfl, fun _ => rfl⟩
    refine (wp_bind _ _).2 (hlog.imp fun y l₂ hl₂ => ?_)
    obtain rfl := hl₂
    cases y with
    | ok u => exact h₁
    | error e => exact h₁.raises e

end

/-! ## Runs -/

variable {order : RowOrder} {role : String} {pod : Pod}

/-- The requests to a pod, each on any database, whatever raises and wherever it is left: the rows
    they have added to the table are, request by request, none or the item posted, once, and the
    row the request is answered with, if it is answered with one. -/
theorem items_land {served : List (PodRequest × Option PodResponse)} {written : List Record}
    (h : ServedItems order role pod served written) :
    ∃ news : List (List Record), written = news.flatten ∧ List.Forall₂ (Lands pod) served news := by
  induction h with
  | nil => exact ⟨[], rfl, .nil⟩
  | answered _ hx ih =>
    obtain ⟨news, rfl, hlands⟩ := ih
    obtain ⟨new, hnew, hland⟩ := hx.keeps (serve_lands rfl)
    exact ⟨news ++ [new], by simp [hnew], List.rel_append hlands (.cons hland .nil)⟩
  | left _ hr ih =>
    obtain ⟨news, rfl, hlands⟩ := ih
    obtain ⟨new, hnew, hland⟩ := hr.keeps ((serve_lands rfl).imp fun _ _ h => h.so)
    exact ⟨news ++ [new], by simp [hnew], List.rel_append hlands (.cons hland .nil)⟩

/-- How the client of `a` answers a request that no one disturbs, but for what raises. -/
def ledgerAnswer (x : ClientChoice) (c : PodCmd) (l : Ledger) : c.Resp × Ledger :=
  match c with
  | .client c =>
    let a := l.client.answer byTime TenantId.a.role x c
    (a.1, ⟨a.2, heldAfter l.held c a.1, l.written ++ a.2.rows.drop l.client.rows.length⟩)
  | .log _ | .cursor _ | .closeCursor _ | .jsonify => (x.fails.elim (.ok ()) .error, l)

theorem ledgerAnswer_step (x : ClientChoice) (c : PodCmd) (l : Ledger) :
    ledger byTime TenantId.a.role c l (ledgerAnswer x c l).1 (ledgerAnswer x c l).2 := by
  cases c with
  | client c =>
    refine ⟨l.client, x, fun _ _ => rfl, rfl, rfl, _, ?_, rfl⟩
    have hgrows : ∃ new, (l.client.answer byTime TenantId.a.role x c).2.rows =
        l.client.rows ++ new := answer_grows l.client c
    obtain ⟨new, hnew⟩ := hgrows
    simp only [ledgerAnswer, hnew, List.drop_left]
  | _ => rfl

/-- An item posted to the pod of `a`. -/
def itemPosted : Trace podSig × Except String PodResponse × Ledger :=
  (Serving.serve podA (spoofed .createItem)).eval ledgerAnswer (fun _ => { conn := some 0 }) 0
    { client := { db := migratedA.2.world, rows := [] } }

/-- The row it is answered with is the one added. -/
theorem items_land_hello :
    ∃ row, acknowledged itemPosted.2.1.toOption = some row ∧ itemPosted.2.2.written = [row] := by
  have hserves : ServedItems byTime TenantId.a.role podA
      [(spoofed .createItem, itemPosted.2.1.toOption)] itemPosted.2.2.written :=
    .answered .nil (exec_eval ledgerAnswer_step _ _ _ _)
  obtain ⟨news, hwritten, hlands⟩ := items_land hserves
  obtain ⟨new, _, hland, htail, rfl⟩ := List.forall₂_cons_left_iff.1 hlands
  obtain rfl := List.forall₂_nil_left_iff.1 htail
  have hrow : acknowledged itemPosted.2.1.toOption =
      some ⟨0, 0, some "10.0.0.1", some "pod", some "Unknown", some "hello", "a"⟩ := rfl
  exact ⟨_, hrow, by rw [hwritten, hland.kept _ hrow]; rfl⟩

end NtierLab
