import NtierLab.Postgres.Serving

/-!
# Connections are conserved

What becomes of the connections a request takes from the pool, whatever raises.

* `Lease`: a connection handed out is bound, used and given back, or closed when it cannot be
  bound;
* `pooled`: the pool, which takes back the connections given to it and rolls them back;
* `serve_conserves`: a request leaves no connection behind, unless a log line raises;
* `conserved_iff`: so do all the requests of a run, if and only if none of them drops its
  connection, when the log line of an acquisition that failed half-way raises.
-/

namespace NtierLab

open Prog

/-! ## The lease of a connection -/

/-- A connection in the hands of a request. -/
inductive Lease
  | free
  /-- Handed out; what is left to bind it. -/
  | binding (c : ℕ) (rest : List PodCmd)
  /-- It cannot be bound. -/
  | failed (c : ℕ)
  | bound (c : ℕ)
  deriving DecidableEq

/-- The connection a command is issued on. -/
def PodCmd.conn : PodCmd → Option ℕ
  | .client (.putconn c _) | .client (.rollback c) | .client (.commit c) | .client (.query c _)
  | .cursor c | .closeCursor c => some c
  | _ => none

/-- A statement on a connection has raised. -/
def raised : Event podSig → Bool
  | ⟨.client (.rollback _), r⟩ => !Except.toBool r
  | ⟨.client (.query _ _), r⟩ => !Except.toBool r
  | ⟨.cursor _, r⟩ => !Except.toBool r
  | ⟨.closeCursor _, r⟩ => !Except.toBool r
  | _ => false

/-- The statements that bind a connection to the tenant of the pod. -/
def bindSteps (pod : Pod) (c : ℕ) : List PodCmd :=
  .client (.rollback c) ::
    if pod.tenantId ≠ "" then
      [.cursor c, .client (.query c (.setConfig pod.tenantId)), .closeCursor c]
    else []

/-- What an event makes of a lease: nothing, where it breaks it. -/
def Lease.next (pod : Pod) (e : Event podSig) : Lease → Option Lease
  | .free =>
    match e with
    | ⟨.client .getconn, .ok (some c)⟩ => some (.binding c (bindSteps pod c))
    | e => if e.cmd.conn = none then some .free else none
  | .binding _ [] => none
  | .binding c (s :: rest) =>
    if e.cmd ≠ s then none
    else if raised e then some (.failed c)
    else if rest = [] then some (.bound c)
    else some (.binding c rest)
  | .failed c =>
    -- It is closed, after its cursor and the log line.
    match e.cmd with
    | .client .getconn => none
    | .client (.putconn d close) => if d = c ∧ close = true then some .free else none
    | cmd => if cmd.conn = none ∨ cmd = .closeCursor c then some (.failed c) else none
  | .bound c =>
    match e.cmd with
    | .client .getconn => none
    | .client (.putconn d close) => if d = c ∧ close = false then some .free else none
    | cmd => if cmd.conn = none ∨ cmd.conn = some c then some (.bound c) else none

/-- The lease after the events of a request, if they keep to it. -/
def leases (pod : Pod) (tr : Trace podSig) : Option Lease :=
  tr.foldlM (fun l e => l.next pod e) .free

/-- The pool has handed out a connection. -/
def HandedOut (tr : Trace podSig) : Prop :=
  ∃ c : ℕ, ⟨.client .getconn, .ok (some c)⟩ ∈ tr

/-- A connection was handed out, and the log line that it cannot be bound raises. -/
def Drops (tr : Trace podSig) : Prop :=
  ∃ tr₁ e tr₂, tr = tr₁ ++ ⟨.log "db_getconn_error", .error e⟩ :: tr₂ ∧ HandedOut tr₁

/-! ## The pool -/

/-- The pool hands out connections once it is open, and whatever it is given back is out of the
    hands of the request, with its transaction rolled back. -/
def pooled (order : RowOrder) (role : String) : Handler podSig Client
  | .client .getconn, w, r, w' =>
    if w.pool then clientStep order role .getconn w r w' else (∃ e, r = .error e) ∧ w' = w
  | .client (.putconn c close), w, r, w' =>
    ∃ w₁ x, w.Others w₁ ∧ x.done = true ∧ w₁.answer order role x (.putconn c close) = (r, w')
  | .client c, w, r, w' => clientStep order role c w r w'
  | .log _, w, _, w' | .cursor _, w, _, w' | .closeCursor _, w, _, w' | .jsonify, w, _, w' => w' = w

/-- The connections in the pool have no transaction under way, and so no tenant. -/
structure Client.Clean (w : Client) : Prop where
  nodup : w.idle.Nodup
  idle : ∀ c ∈ w.idle, (w.conns c).bind Conn.tx = none

/-- The pool is clean, and a connection is out of it. -/
structure Client.Lends (c : ℕ) (w : Client) : Prop where
  clean : w.Clean
  out : c ∉ w.idle
  pool : w.pool = true

/-- The requests served one after the other, with their events. -/
inductive Handles (order : RowOrder) (role : String) (pod : Pod) (w₀ : Client) :
    List (PodRequest × Trace podSig) → Client → Prop
  | nil : Handles order role pod w₀ [] w₀
  | snoc {served : List (PodRequest × Trace podSig)} {w w' : Client} {req : PodRequest}
      {tr : Trace podSig} {x : Except String PodResponse} :
      Handles order role pod w₀ served w → Exec (pooled order role) (Serving.serve pod req) w tr x w' →
      Handles order role pod w₀ (served ++ [(req, tr)]) w'

section

variable {order : RowOrder} {role : String} {pod : Pod} {w w' : Client} {c : ℕ}
  {tr : Trace podSig} {e : Event podSig} {ℓ : Lease}

/-! ## Traces -/

@[simp] theorem leases_nil : leases pod [] = some .free := rfl

theorem leases_concat : leases pod (tr ++ [e]) = (leases pod tr).bind fun l => l.next pod e := by
  simp [leases, List.foldlM_append]

theorem handedOut_concat : HandedOut (tr ++ [e]) ↔
    HandedOut tr ∨ ∃ c, e = ⟨.client .getconn, .ok (some c)⟩ := by
  simp [HandedOut, exists_or, eq_comm]

theorem Drops.handedOut (h : Drops tr) : HandedOut tr := by
  obtain ⟨tr₁, e, tr₂, rfl, c, hc⟩ := h
  exact ⟨c, List.mem_append_left _ hc⟩

theorem drops_concat : Drops (tr ++ [e]) ↔
    Drops tr ∨ HandedOut tr ∧ ∃ err, e = ⟨.log "db_getconn_error", .error err⟩ := by
  constructor
  · rintro ⟨tr₁, err, tr₂, h, hhanded⟩
    rcases List.eq_nil_or_concat tr₂ with rfl | ⟨tr₂, e', rfl⟩
    · obtain ⟨rfl, he⟩ := List.append_inj' h rfl
      exact .inr ⟨hhanded, err, List.singleton_inj.1 he⟩
    · refine .inl ⟨tr₁, err, tr₂, ?_, hhanded⟩
      rw [List.concat_eq_append, ← List.cons_append, ← List.append_assoc] at h
      exact (List.append_inj' h rfl).1
  · rintro (⟨tr₁, err, tr₂, rfl, hhanded⟩ | ⟨hhanded, err, rfl⟩)
    · exact ⟨tr₁, err, tr₂ ++ [e], by simp, hhanded⟩
    · exact ⟨tr, err, [], rfl, hhanded⟩

theorem next_free (hconn : e.cmd.conn = none) (hget : ∀ c, e ≠ ⟨.client .getconn, .ok (some c)⟩) :
    Lease.free.next pod e = some .free := by
  simp only [Lease.next]
  exact if_pos hconn

theorem next_failed (hconn : e.cmd.conn = none ∨ e.cmd = .closeCursor c)
    (hget : e.cmd ≠ .client .getconn) : (Lease.failed c).next pod e = some (.failed c) := by
  simp only [Lease.next]
  split
  · next h => exact absurd h hget
  · next d close h => simp [h, PodCmd.conn] at hconn
  · exact if_pos hconn

theorem next_bound (hconn : e.cmd.conn = none ∨ e.cmd.conn = some c)
    (hget : e.cmd ≠ .client .getconn) (hput : ∀ d close, e.cmd ≠ .client (.putconn d close)) :
    (Lease.bound c).next pod e = some (.bound c) := by
  simp only [Lease.next]
  exact if_pos hconn

theorem next_binding {s : PodCmd} {rest : List PodCmd} (hs : e.cmd = s) :
    (Lease.binding c (s :: rest)).next pod e =
      if raised e then some (.failed c)
      else if rest = [] then some (.bound c) else some (.binding c rest) := by
  simp [Lease.next, hs]

/-- A connection under lease was handed out. -/
theorem handedOut_of_leases (h : leases pod tr = some ℓ) (hℓ : ℓ ≠ .free) : HandedOut tr := by
  induction tr using List.reverseRecOn generalizing ℓ with
  | nil => exact absurd (Option.some.inj h).symm hℓ
  | append_singleton tr e ih =>
    rw [leases_concat] at h
    obtain ⟨ℓ₀, h₀, h⟩ := Option.bind_eq_some_iff.1 h
    by_cases hfree : ℓ₀ = .free
    · subst hfree
      simp only [Lease.next] at h
      split at h
      · exact ⟨_, List.mem_append_right _ (List.mem_singleton_self _)⟩
      · split at h
        · exact absurd (Option.some.inj h).symm hℓ
        · cases h
    · exact handedOut_concat.2 (.inl (ih h₀ hfree))

/-! ## The pool after a command -/

theorem Clean.others (h : w.Clean) (ho : w.Others w') : w'.Clean := by
  rw [ho.client]
  exact ⟨h.nodup, h.idle⟩

theorem Lends.others (h : w.Lends c) (ho : w.Others w') : w'.Lends c := by
  have hclean := Clean.others h.clean ho
  rw [ho.client] at hclean ⊢
  exact ⟨hclean, h.out, h.pool⟩

/-- A connection out of the pool changes. -/
theorem Lends.setConn (h : w.Lends c) (conn : Option Conn) : (w.setConn c conn).Lends c := by
  refine ⟨⟨h.clean.nodup, fun d hd => ?_⟩, h.out, h.pool⟩
  have hne : d ≠ c := fun hdc => h.out (hdc ▸ hd)
  have hconn : (w.setConn c conn).conns d = w.conns d := Function.update_of_ne hne ..
  rw [hconn]
  exact h.clean.idle d hd

@[simp] theorem endTx_idle : (w.endTx c).idle = w.idle := by
  unfold Client.endTx
  split <;> rfl

theorem Lends.endTx (h : w.Lends c) : (w.endTx c).Lends c := by
  unfold Client.endTx
  split
  · exact h
  · exact Lends.setConn h _

theorem Lends.rows (h : w.Lends c) (rows : List Record) : ({ w with rows } : Client).Lends c :=
  ⟨⟨h.clean.nodup, h.clean.idle⟩, h.out, h.pool⟩

theorem Lends.query {x : ClientChoice} {q : Query} (h : w.Lends c) :
    (w.query order role x c q).2.Lends c := by
  unfold Client.query
  split
  · exact h
  · dsimp only
    split
    · exact h
    · split
      · exact Lends.setConn h _
      · exact Lends.setConn h _
      · exact Lends.setConn h _

/-- A statement on a connection leaves the pool as it is. -/
theorem Lends.answer {x : ClientChoice} {cmd : ClientCmd} (h : w.Lends c)
    (hconn : PodCmd.conn (.client cmd) = some c) (hput : ∀ d close, cmd ≠ .putconn d close) :
    (w.answer order role x cmd).2.Lends c := by
  cases cmd with
  | putconn d close => exact absurd rfl (hput d close)
  | rollback d =>
    obtain rfl := Option.some.inj hconn
    simp only [Client.answer]
    split
    · dsimp only
      split
      · exact Lends.setConn h _
      · split
        · exact Lends.endTx h
        · exact h
    · split
      · exact h
      · exact Lends.endTx h
  | commit d =>
    obtain rfl := Option.some.inj hconn
    have hcommitted := Lends.rows (Lends.endTx h) (w.rows ++ w.inserted d)
    simp only [Client.answer]
    split
    · dsimp only
      split
      · split
        · exact Lends.setConn hcommitted _
        · exact hcommitted
      · split
        · exact Lends.setConn h _
        · exact h
    · split
      · exact h
      · exact hcommitted
  | query d q =>
    obtain rfl := Option.some.inj hconn
    exact Lends.query h
  | poolMissing => cases hconn
  | initPool => cases hconn
  | getconn => cases hconn

/-- What is given back is closed, or in the pool and rolled back. -/
theorem Lends.putconn {x : ClientChoice} {close : Bool} (h : w.Lends c) (hx : x.done = true) :
    (w.answer order role x (.putconn c close)).2.Clean := by
  have hclosed := (Lends.setConn h none).clean
  simp only [Client.answer, hx, if_true]
  split
  · exact hclosed
  · split
    · exact hclosed
    · have hended := Lends.endTx h
      refine ⟨List.nodup_cons.2 ⟨h.out, h.clean.nodup⟩, fun d hd => ?_⟩
      rcases List.mem_cons.1 hd with rfl | hd
      · unfold Client.endTx
        split
        · next hnone => simp [hnone]
        · rw [Client.setConn_self]
          rfl
      · exact hended.clean.idle d (by rwa [endTx_idle])

/-- A connection handed out was in the pool, or is a new one. -/
theorem Clean.getconn {x : ClientChoice} (h : w.Clean) (hpool : w.pool = true)
    (hr : (w.answer order role x .getconn).1 = .ok (some c)) :
    (w.answer order role x .getconn).2.Lends c := by
  simp only [Client.answer] at hr ⊢
  split at hr
  · cases hr
  · cases hr
  · next d hfails hd =>
    split at hr
    · next hidle =>
      obtain rfl : d = c := by simpa using hr
      rw [if_pos hidle]
      refine ⟨⟨h.nodup.erase d, fun b hb => h.idle b (List.mem_of_mem_erase hb)⟩, ?_, hpool⟩
      exact fun hmem => ((List.Nodup.mem_erase_iff h.nodup).1 hmem).1 rfl
    · next hidle =>
      split at hr
      · next hnew =>
        obtain rfl : d = c := by simpa using hr
        rw [if_neg hidle, if_pos hnew]
        exact Lends.setConn ⟨h, hidle, hpool⟩ _
      · cases hr

/-- The pool is as it was, where it hands out no connection. -/
theorem Clean.getconn_none {x : ClientChoice} (h : w.Clean)
    (hr : ∀ c, (w.answer order role x .getconn).1 ≠ .ok (some c)) :
    (w.answer order role x .getconn).2.Clean := by
  simp only [Client.answer] at hr ⊢
  split at hr
  · exact h
  · exact h
  · next d hfails hd =>
    split at hr
    · exact absurd rfl (hr d)
    · next hidle =>
      rw [if_neg hidle]
      split at hr
      · exact absurd rfl (hr d)
      · next hnew =>
        rw [if_neg hnew]
        exact h

/-! ## A request -/

/-- The pool, seen with a lease. -/
def Lease.World : Lease → Client → Prop
  | .free, w => w.Clean
  | .binding c _, w | .failed c, w | .bound c, w => w.Lends c

/-- The events of a request, and the client after them. -/
abbrev Served.State := Trace podSig × Client

/-- The application on the pool, with its events. -/
def leasing (order : RowOrder) (role : String) : Contract podSig Served.State where
  pre _ _ := True
  post c v r v' := v'.1 = v.1 ++ [⟨c, r⟩] ∧ pooled order role c v.2 r v'.2

/-- The lease after the events, none being dropped. -/
structure At (pod : Pod) (ℓ : Lease) (v : Served.State) : Prop where
  leases : leases pod v.1 = some ℓ
  drops : ¬Drops v.1
  world : ℓ.World v.2

/-- The connection is dropped. -/
def Dropped (pod : Pod) (v : Served.State) : Prop :=
  Drops v.1 ∧ ∃ c, leases pod v.1 = some (.failed c)

/-- The connection was given back, or dropped. -/
def Settled (pod : Pod) (v : Served.State) : Prop := At pod .free v ∨ Dropped pod v

/-- No connection has been handed out. -/
def Fresh (pod : Pod) (v : Served.State) : Prop := At pod .free v ∧ ¬HandedOut v.1

/-- The command is not about connections. -/
def PodCmd.Apart (c : PodCmd) : Prop :=
  c.conn = none ∧ c ≠ .client .getconn ∧ c ≠ .log "db_getconn_error"

/-- The command uses the connection, or is not about connections, nor about the pool. -/
def PodCmd.Uses (c : ℕ) (cmd : PodCmd) : Prop :=
  cmd.Apart ∧ cmd ≠ .client .initPool ∨
    cmd.conn = some c ∧ ∀ d close, cmd ≠ .client (.putconn d close)

variable {v v' : Served.State} {cmd : PodCmd} {r : cmd.Resp}

/-- A command that hands out no connection keeps what is dropped. -/
theorem not_drops (h : ¬Drops v.1) (hcmd : cmd ≠ .log "db_getconn_error")
    (hpost : (leasing order role).post cmd v r v') : ¬Drops v'.1 := by
  rw [hpost.1, drops_concat]
  rintro (hd | ⟨-, err, he⟩)
  · exact h hd
  · exact hcmd (congrArg Event.cmd he)

/-- A command that is not about connections leaves the pool as it is. -/
theorem pooled_apart (hcmd : cmd.Apart) (hr : pooled order role cmd w r w') :
    (w.Clean → w'.Clean) ∧ ∀ c, w.Lends c → cmd ≠ .client .initPool → w'.Lends c := by
  obtain ⟨hconn, hget, -⟩ := hcmd
  cases cmd with
  | client c =>
    cases c with
    | poolMissing =>
      obtain ⟨w₁, x, ho, hx⟩ := hr
      obtain rfl : w₁ = w' := congrArg Prod.snd hx
      exact ⟨fun h => Clean.others h ho, fun c h _ => Lends.others h ho⟩
    | initPool =>
      obtain ⟨w₁, x, ho, hx⟩ := hr
      obtain rfl : { w₁ with pool := decide (x.opening = .ready) } = w' := congrArg Prod.snd hx
      refine ⟨fun h => ?_, fun c _ hne => absurd rfl hne⟩
      have h₁ := Clean.others h ho
      exact ⟨h₁.nodup, h₁.idle⟩
    | getconn => exact absurd rfl hget
    | putconn c close => cases hconn
    | rollback c => cases hconn
    | commit c => cases hconn
    | query c q => cases hconn
  | log msg => obtain rfl := hr; exact ⟨id, fun _ h _ => h⟩
  | jsonify => obtain rfl := hr; exact ⟨id, fun _ h _ => h⟩
  | cursor c => cases hconn
  | closeCursor c => cases hconn

/-- A statement on a connection leaves the pool as it is. -/
theorem pooled_uses (hconn : cmd.conn = some c) (hput : ∀ d close, cmd ≠ .client (.putconn d close))
    (h : w.Lends c) (hr : pooled order role cmd w r w') : w'.Lends c := by
  have hclient {cc : ClientCmd} {rr : cc.Resp} (hcc : PodCmd.conn (.client cc) = some c)
      (hput : ∀ d close, cc ≠ .putconn d close) (hr : clientStep order role cc w rr w') :
      w'.Lends c := by
    obtain ⟨w₁, x, ho, hx⟩ := hr
    rw [← show (w₁.answer order role x cc).2 = w' from congrArg Prod.snd hx]
    exact Lends.answer (Lends.others h ho) hcc hput
  cases cmd with
  | client cc =>
    cases cc with
    | poolMissing => cases hconn
    | initPool => cases hconn
    | getconn => cases hconn
    | putconn d close => exact absurd rfl (hput d close)
    | rollback d => exact hclient hconn nofun hr
    | commit d => exact hclient hconn nofun hr
    | query d q => exact hclient hconn nofun hr
  | cursor d => obtain rfl := hr; exact h
  | closeCursor d => obtain rfl := hr; exact h
  | log msg => cases hconn
  | jsonify => cases hconn

/-- What is not about connections keeps a request settled. -/
theorem Settled.apart (hcmd : cmd.Apart) (h : Settled pod v)
    (hpost : (leasing order role).post cmd v r v') : Settled pod v' := by
  have hget (c : ℕ) : (⟨cmd, r⟩ : Event podSig) ≠ ⟨.client .getconn, .ok (some c)⟩ := fun he =>
    hcmd.2.1 (congrArg Event.cmd he)
  rcases h with h | ⟨hd, c, hc⟩
  · refine .inl ⟨?_, not_drops h.drops hcmd.2.2 hpost, (pooled_apart hcmd hpost.2).1 h.world⟩
    rw [hpost.1, leases_concat, h.leases, Option.bind_some, next_free hcmd.1 hget]
  · refine .inr ⟨?_, c, ?_⟩
    · rw [hpost.1, drops_concat]
      exact .inl hd
    · rw [hpost.1, leases_concat, hc, Option.bind_some, next_failed (.inl hcmd.1) hcmd.2.1]

/-- What is not about connections hands out none. -/
theorem Fresh.apart (hconn : cmd.conn = none) (hget : cmd ≠ .client .getconn) (h : Fresh pod v)
    (hpost : (leasing order role).post cmd v r v') : Fresh pod v' := by
  have hne (c : ℕ) : (⟨cmd, r⟩ : Event podSig) ≠ ⟨.client .getconn, .ok (some c)⟩ := fun he =>
    hget (congrArg Event.cmd he)
  have hhanded : ¬HandedOut v'.1 := by
    rw [hpost.1, handedOut_concat]
    rintro (hh | ⟨c, hc⟩)
    · exact h.2 hh
    · exact hne c hc
  refine ⟨⟨?_, fun hd => hhanded hd.handedOut, ?_⟩, hhanded⟩
  · rw [hpost.1, leases_concat, h.1.leases, Option.bind_some, next_free hconn hne]
  · by_cases hlog : cmd = .log "db_getconn_error"
    · subst hlog
      rw [show v'.2 = v.2 from hpost.2]
      exact h.1.world
    · exact (pooled_apart ⟨hconn, hget, hlog⟩ hpost.2).1 h.1.world

/-- A connection that is used stays bound. -/
theorem At.uses {c : ℕ} (hcmd : cmd.Uses c) (h : At pod (.bound c) v)
    (hpost : (leasing order role).post cmd v r v') : At pod (.bound c) v' := by
  rcases hcmd with ⟨hcmd, hinit⟩ | ⟨hconn, hput⟩
  · refine ⟨?_, not_drops h.drops hcmd.2.2 hpost, (pooled_apart hcmd hpost.2).2 c h.world hinit⟩
    rw [hpost.1, leases_concat, h.leases, Option.bind_some]
    refine next_bound (.inl hcmd.1) hcmd.2.1 ?_
    rintro d close rfl
    cases hcmd.1
  · have hget : cmd ≠ .client .getconn := by
      rintro rfl
      cases hconn
    have hlog : cmd ≠ .log "db_getconn_error" := by
      rintro rfl
      cases hconn
    refine ⟨?_, not_drops h.drops hlog hpost, pooled_uses hconn hput h.world hpost.2⟩
    rw [hpost.1, leases_concat, h.leases, Option.bind_some]
    exact next_bound (.inr hconn) hget hput

/-- A statement that binds a connection. -/
theorem At.binds {rest : List PodCmd} (h : At pod (.binding c (cmd :: rest)) v)
    (hconn : cmd.conn = some c) (hput : ∀ d close, cmd ≠ .client (.putconn d close))
    (hpost : (leasing order role).post cmd v r v') :
    At pod (if raised ⟨cmd, r⟩ then .failed c else if rest = [] then .bound c
      else .binding c rest) v' := by
  have hlog : cmd ≠ .log "db_getconn_error" := by
    rintro rfl
    cases hconn
  have hlends : v'.2.Lends c := pooled_uses hconn hput h.world hpost.2
  refine ⟨?_, not_drops h.drops hlog hpost, ?_⟩
  · rw [hpost.1, leases_concat, h.leases, Option.bind_some, next_binding rfl]
    split
    · rfl
    · split <;> rfl
  · split
    · exact hlends
    · split <;> exact hlends

/-- A connection is given back. -/
theorem At.putconn {close : Bool} {r : Except String Unit}
    (h : At pod (if close then .failed c else .bound c) v)
    (hpost : (leasing order role).post (.client (.putconn c close)) v r v') : At pod .free v' := by
  have hlends : v.2.Lends c := by
    have hw := h.world
    split at hw <;> exact hw
  obtain ⟨htr, w₁, x, ho, hdone, hx⟩ := hpost
  refine ⟨?_, ?_, ?_⟩
  · rw [htr, leases_concat, h.leases, Option.bind_some]
    cases close <;> simp [Lease.next]
  · rw [htr, drops_concat]
    rintro (hd | ⟨-, err, he⟩)
    · exact h.drops hd
    · exact nomatch congrArg Event.cmd he
  · have hw : (w₁.answer order role x (.putconn c close)).2 = v'.2 := congrArg Prod.snd hx
    rw [← hw]
    exact Lends.putconn (Lends.others hlends ho) hdone

/-! ## The programs -/

open Serving

/-- A connection is bound, or cannot be. -/
theorem bindTenant_serving (h : At pod (.binding c (bindSteps pod c)) v) :
    (bindTenant pod c).wp (leasing order role)
      (outcome (fun _ v' => At pod (.bound c) v') fun _ v' => At pod (.failed c) v') v := by
  refine (wp_bind _ _).2 ⟨trivial, fun r v₁ hr => (wp_result _).2 ?_⟩
  have h₁ := h.binds rfl nofun hr
  cases r with
  | error e => exact h₁
  | ok _ =>
    by_cases ht : pod.tenantId = ""
    · rw [outcome_ok, if_neg (not_not.2 ht)]
      simpa [raised, Except.toBool, ht] using h₁
    rw [outcome_ok, if_pos ht]
    have h₁ : At pod (.binding c [.cursor c, .client (.query c (.setConfig pod.tenantId)),
        .closeCursor c]) v₁ := by simpa [raised, Except.toBool, ht] using h₁
    refine (wp_bind _ _).2 ⟨trivial, fun r v₂ hr => (wp_result _).2 ?_⟩
    have h₂ := h₁.binds rfl nofun hr
    cases r with
    | error e => exact h₂
    | ok _ =>
      refine (wp_ensuring _ _).2 ⟨trivial, fun r v₃ hr => (wp_result _).2 ?_⟩
      have h₃ := h₂.binds rfl nofun hr
      cases r with
      | error e =>
        -- The cursor is closed on the way out, whatever this raises.
        refine ⟨trivial, fun r' v₄ hr' => (wp_result _).2 ?_⟩
        have hlog : PodCmd.closeCursor c ≠ .log "db_getconn_error" := nofun
        have hput (d : ℕ) (close : Bool) : PodCmd.closeCursor c ≠ .client (.putconn d close) := nofun
        have h₄ : At pod (.failed c) v₄ := by
          refine ⟨?_, not_drops h₃.drops hlog hr', pooled_uses rfl hput h₃.world hr'.2⟩
          rw [hr'.1, leases_concat, h₃.leases, Option.bind_some]
          exact next_failed (.inr rfl) (by simp)
        cases r' <;> exact h₄
      | ok u =>
        refine ⟨trivial, fun r' v₄ hr' => (wp_result _).2 ?_⟩
        have h₃ : At pod (.binding c [.closeCursor c]) v₃ := h₃
        have h₄ := h₃.binds rfl nofun hr'
        cases r' <;> exact h₄

theorem wp_attempt {α : Type} {K : Contract podSig Served.State} {p : Served α}
    {Q : Except String (Except String α) → Served.State → Prop} :
    (attempt p).wp K Q v ↔ p.wp K (fun x v' => Q (.ok x) v') v := by
  refine (wp_tryCatch _ _).trans ((wp_map _ _).trans ⟨fun h => h.imp ?_, fun h => h.imp ?_⟩)
  · intro x v' hx
    cases x <;> exact hx
  · intro x v' hx
    cases x <;> exact hx

/-- The pool hands out a connection, or none. -/
theorem getconn_serving (h : Fresh pod v) :
    (Serving.getconn).wp (leasing order role) (outcome
      (fun conn v' => match conn with
        | none => Fresh pod v'
        | some c => At pod (.binding c (bindSteps pod c)) v') fun _ v' => Fresh pod v') v := by
  refine ⟨trivial, fun r v' hr => (wp_result _).2 ?_⟩
  have hkeep (hne : ∀ c, r ≠ .ok (some c)) (hclean : v'.2.Clean) : Fresh pod v' := by
    have hhanded : ¬HandedOut v'.1 := by
      rw [hr.1, handedOut_concat]
      rintro (hh | ⟨c, hc⟩)
      · exact h.2 hh
      · cases hc
        exact hne c rfl
    refine ⟨⟨?_, fun hd => hhanded hd.handedOut, hclean⟩, hhanded⟩
    rw [hr.1, leases_concat, h.1.leases, Option.bind_some]
    refine next_free rfl fun c hc => ?_
    cases hc
    exact hne c rfl
  have hw : if v.2.pool then clientStep order role .getconn v.2 r v'.2
      else (∃ e, r = .error e) ∧ v'.2 = v.2 := hr.2
  by_cases hpool : v.2.pool = true
  · rw [if_pos hpool] at hw
    obtain ⟨w₁, x, ho, hx⟩ := hw
    have hclean : w₁.Clean := Clean.others h.1.world ho
    have hpool₁ : w₁.pool = true := by
      rw [ho.client]
      exact hpool
    have hfst : (w₁.answer order role x .getconn).1 = r := congrArg Prod.fst hx
    have hsnd : (w₁.answer order role x .getconn).2 = v'.2 := congrArg Prod.snd hx
    rcases r with e | _ | c
    · exact hkeep nofun (hsnd ▸ Clean.getconn_none hclean (by rw [hfst]; nofun))
    · exact hkeep nofun (hsnd ▸ Clean.getconn_none hclean (by rw [hfst]; nofun))
    · refine ⟨?_, ?_, hsnd ▸ Clean.getconn hclean hpool₁ hfst⟩
      · rw [hr.1, leases_concat, h.1.leases]
        rfl
      · rw [hr.1, drops_concat]
        rintro (hd | ⟨-, err, he⟩)
        · exact h.1.drops hd
        · exact nomatch congrArg Event.cmd he
  · rw [if_neg hpool] at hw
    obtain ⟨⟨e, rfl⟩, hw⟩ := hw
    exact hkeep nofun (hw ▸ h.1.world)

/-- Opening the pool hands out no connection. -/
theorem initDbPool_serving (h : Fresh pod v) :
    initDbPool.wp (leasing order role) (fun _ v' => Fresh pod v') v := by
  have hcalls : initDbPool.Calls fun (cmd : PodCmd) => cmd.conn = none ∧ cmd ≠ .client .getconn :=
    initDbPool_calls ⟨rfl, nofun⟩ fun _ => ⟨rfl, nofun⟩
  exact hcalls.wp (fun _ _ hc h => ⟨trivial, fun _ _ hr => h.apart hc.1 hc.2 hr⟩) h

/-- A connection is acquired, or none is, or it is dropped. -/
theorem getDbConnection_serving (h : Fresh pod v) :
    (getDbConnection pod).wp (leasing order role) (outcome
      (fun conn v' => match conn with
        | none => Settled pod v'
        | some c => At pod (.bound c) v') fun _ v' => Settled pod v') v := by
  have htake : (do
      if ← poolMissing then initDbPool
      Serving.getconn : Served (Option ℕ)).wp (leasing order role) (outcome
        (fun conn v' => match conn with
          | none => Fresh pod v'
          | some c => At pod (.binding c (bindSteps pod c)) v') fun _ v' => Fresh pod v') v := by
    refine (wp_bind _ _).2 ⟨trivial, fun missing v₁ hr₁ => ?_⟩
    have h₁ := h.apart rfl (by simp) hr₁
    refine (wp_ite _ _ _).2 ⟨fun _ => ?_, fun _ => getconn_serving h₁⟩
    refine (wp_bind _ _).2 ((initDbPool_serving h₁).imp fun y v₂ h₂ => ?_)
    cases y with
    | error e => exact h₂
    | ok u => exact getconn_serving h₂
  refine (wp_bind _ _).2 (wp_attempt.2 (htake.imp fun x v₁ hx => ?_))
  rcases x with e | _ | c
  · refine (wp_bind _ _).2 ⟨trivial, fun r v₂ hr => (wp_result _).2 ?_⟩
    have h₂ : Fresh pod v₁ := hx
    have h₃ := h₂.apart rfl (by simp) hr
    cases r <;> exact .inl h₃.1
  · exact .inl (show Fresh pod v₁ from hx).1
  · have hx : At pod (.binding c (bindSteps pod c)) v₁ := hx
    refine (wp_bind _ _).2 (wp_attempt.2 ((bindTenant_serving hx).imp fun y v₂ hy => ?_))
    cases y with
    | ok u => exact hy
    | error e =>
      have hy : At pod (.failed c) v₂ := hy
      refine (wp_bind _ _).2 ⟨trivial, fun r v₃ hr => (wp_result _).2 ?_⟩
      have hlease : leases pod v₃.1 = some (.failed c) := by
        rw [hr.1, leases_concat, hy.leases, Option.bind_some, next_failed (.inl rfl) (by simp)]
      cases r with
      | error err =>
        -- The log line raises: the connection is dropped.
        refine .inr ⟨?_, c, hlease⟩
        rw [hr.1, drops_concat]
        exact .inr ⟨handedOut_of_leases hy.leases nofun, err, rfl⟩
      | ok u =>
        have h₃ : At pod (.failed c) v₃ := by
          refine ⟨hlease, ?_, ?_⟩
          · rw [hr.1, drops_concat]
            rintro (hd | ⟨-, err, he⟩)
            · exact hy.drops hd
            · cases he
          · rw [show v₃.2 = v₂.2 from hr.2]
            exact hy.world
        refine (wp_bind _ _).2 ((wp_tryCatch _ _).2 ⟨trivial, fun r' v₄ hr' => (wp_result _).2 ?_⟩)
        have h₄ : At pod .free v₄ := by
          refine At.putconn ?_ hr'
          exact h₃
        cases r' <;> exact .inl h₄

/-- A connection is given back, whatever raises. -/
theorem returnDbConnection_serving (h : At pod (.bound c) v) :
    (returnDbConnection (some c)).wp (leasing order role) (fun _ v' => At pod .free v') v := by
  refine (wp_bind _ _).2 ⟨trivial, fun missing v₁ hr => ?_⟩
  have h₁ := h.uses (.inl ⟨⟨rfl, by simp, by simp⟩, by simp⟩) hr
  have hmissing : missing = false := by
    obtain ⟨-, w₁, x, ho, hx⟩ := hr
    have hpool := (Lends.others h.world ho).pool
    have hfst : (!w₁.pool) = missing := congrArg Prod.fst hx
    rw [← hfst, hpool]
    rfl
  subst hmissing
  refine (wp_bind _ _).2 ((wp_tryCatch _ _).2 ⟨trivial, fun r v₂ hr₂ => (wp_result _).2 ?_⟩)
  have h₂ := h₁.uses (.inr ⟨rfl, by simp⟩) hr₂
  have hput : (Serving.putconn c false).wp (leasing order role) (fun _ v' => At pod .free v') v₂ :=
    ⟨trivial, fun r' v₃ hr₃ => (wp_result _).2 (by
      refine At.putconn ?_ hr₃
      exact h₂)⟩
  cases r <;> exact hput

/-- The body of a request uses the connection, if there is one. -/
def UsesOnly {α : Type} (body : Option ℕ → Served α) : Prop :=
  (body none).Calls PodCmd.Apart ∧
    ∀ c, (body (some c)).Calls (PodCmd.Uses c)

/-- A request takes a connection and gives it back, or drops it. -/
theorem dbConn_serving {α : Type} {body : Option ℕ → Served α} (hbody : UsesOnly body)
    (h : Fresh pod v) :
    (dbConn pod body).wp (leasing order role) (fun _ v' => Settled pod v') v := by
  refine (wp_bind _ _).2 ((getDbConnection_serving h).imp fun x v₁ hx => ?_)
  rcases x with e | _ | c
  · exact hx
  · have hnone : (body none).wp (leasing order role) (fun _ v' => Settled pod v') v₁ :=
      hbody.1.wp (fun cmd v hcmd hv => ⟨trivial, fun r v' hr => hv.apart hcmd hr⟩) hx
    exact (wp_ensuring _ _).2 (hnone.imp fun y v₂ hy => hy)
  · have hsome : (body (some c)).wp (leasing order role) (fun _ v' => At pod (.bound c) v') v₁ :=
      (hbody.2 c).wp (fun cmd v hcmd hv => ⟨trivial, fun r v' hr => hv.uses hcmd hr⟩) hx
    refine (wp_ensuring _ _).2 (hsome.imp fun y v₂ hy => ?_)
    refine (returnDbConnection_serving hy).imp fun z v₃ hz => ?_
    cases z <;> exact .inl hz

/-- What is not about connections, before or after one is given back. -/
theorem settled_of_apart {α : Type} {p : Served α} (hp : p.Calls PodCmd.Apart)
    (h : Settled pod v) : p.wp (leasing order role) (fun _ v' => Settled pod v') v :=
  hp.wp (fun _ _ hcmd hv => ⟨trivial, fun _ _ hr => hv.apart hcmd hr⟩) h

theorem answer_apart (resp : PodResponse) : (answer resp).Calls PodCmd.Apart :=
  ⟨⟨rfl, by simp, by simp⟩, fun r => (calls_result r).bind fun _ => trivial⟩

theorem logEvent_apart {msg : String} (hmsg : msg ≠ "db_getconn_error") :
    (logEvent msg).Calls PodCmd.Apart :=
  ⟨⟨rfl, by simp, fun h => hmsg (PodCmd.log.inj h)⟩, fun r => calls_result r⟩

theorem orError_serving {p : Served PodResponse}
    (hp : p.wp (leasing order role) (fun _ v' => Settled pod v') v) :
    (orError pod p).wp (leasing order role) (fun _ v' => Settled pod v') v := by
  refine (wp_tryCatch _ _).2 (hp.imp fun x v₁ hx => ?_)
  cases x with
  | ok r => exact hx
  | error e => exact settled_of_apart (answer_apart _) hx

theorem withDb_serving {p : Served PodResponse} (h : Fresh pod v)
    (hp : p.wp (leasing order role) (fun _ v' => Settled pod v') v) :
    (withDb pod p).wp (leasing order role) (fun _ v' => Settled pod v') v := by
  refine (wp_ite _ _ _).2 ⟨fun _ => settled_of_apart (answer_apart _) (.inl h.1), fun _ => ?_⟩
  split
  · exact settled_of_apart (answer_apart _) (.inl h.1)
  · exact hp

section

variable {α : Type} {p : Served α}

/-- A body that makes statements on the connection. -/
theorem uses_query {q : Query} {k : q.Resp → Served α}
    (hk : ∀ a, (k a).Calls (PodCmd.Uses c)) :
    (Serving.query c q >>= k).Calls (PodCmd.Uses c) :=
  .bind ⟨.inr ⟨rfl, by simp⟩, fun r => calls_result r⟩ hk

theorem uses_cursor {k : Unit → Served α}
    (hk : ∀ a, (k a).Calls (PodCmd.Uses c)) :
    (Serving.cursor c >>= k).Calls (PodCmd.Uses c) :=
  .bind ⟨.inr ⟨rfl, by simp⟩, fun r => calls_result r⟩ hk

theorem uses_closeCursor {k : Unit → Served α}
    (hk : ∀ a, (k a).Calls (PodCmd.Uses c)) :
    (Serving.closeCursor c >>= k).Calls (PodCmd.Uses c) :=
  .bind ⟨.inr ⟨rfl, by simp⟩, fun r => calls_result r⟩ hk

theorem uses_commit {k : Unit → Served α}
    (hk : ∀ a, (k a).Calls (PodCmd.Uses c)) :
    (Serving.commit c >>= k).Calls (PodCmd.Uses c) :=
  .bind ⟨.inr ⟨rfl, by simp⟩, fun r => calls_result r⟩ hk

theorem uses_answer (resp : PodResponse) :
    (answer resp).Calls (PodCmd.Uses c) :=
  ⟨.inl ⟨⟨rfl, by simp, by simp⟩, by simp⟩, fun r => (calls_result r).bind fun _ => trivial⟩

end

theorem health_serving (h : Fresh pod v) :
    (health pod).wp (leasing order role) (fun _ v' => Settled pod v') v := by
  have hlog : (logEvent "health").Calls PodCmd.Apart := logEvent_apart (by decide)
  have hunhealthy : (some <$> answer Pod.unhealthy : Served (Option PodResponse)).Calls
      PodCmd.Apart := (answer_apart _).map _
  refine (wp_ite _ _ _).2 ⟨fun _ => ?_, fun _ => settled_of_apart (answer_apart _) (.inl h.1)⟩
  refine (wp_bind _ _).2 ((wp_tryCatch _ _).2 ((dbConn_serving ⟨?_, fun c => ?_⟩ h).imp ?_))
  · exact .bind hlog fun _ => hunhealthy
  · refine uses_cursor fun _ => uses_query fun _ => uses_closeCursor fun _ => ?_
    exact .bind ⟨.inl ⟨⟨rfl, by simp, by simp⟩, by simp⟩, fun r => calls_result r⟩ fun _ => trivial
  · intro x v₁ hx
    cases x with
    | ok early =>
      cases early with
      | some r => exact hx
      | none => exact settled_of_apart (answer_apart _) hx
    | error e =>
      refine (settled_of_apart (.bind hlog fun _ => hunhealthy) hx).imp fun y v₂ hy => ?_
      cases y with
      | ok early =>
        cases early with
        | some r => exact hy
        | none => exact settled_of_apart (answer_apart _) hy
      | error e => exact hy

/-- A request leaves no connection behind, or drops it. -/
theorem route_serving (req : PodRequest) (h : Fresh pod v) :
    (route pod req).wp (leasing order role) (fun _ v' => Settled pod v') v := by
  have hsettled : Settled pod v := .inl h.1
  have hdb {body : Option ℕ → Served PodResponse} (hbody : UsesOnly body) :
      (orError pod (dbConn pod body)).wp (leasing order role) (fun _ v' => Settled pod v') v :=
    orError_serving (dbConn_serving hbody h)
  unfold route
  split
  · exact settled_of_apart (answer_apart _) hsettled
  · exact health_serving h
  · refine (wp_ite _ _ _).2 ⟨fun _ => settled_of_apart (answer_apart _) hsettled, fun _ => ?_⟩
    refine withDb_serving h (hdb ⟨answer_apart _, fun c => ?_⟩)
    exact uses_cursor fun _ => uses_query fun _ => uses_query fun _ => uses_closeCursor fun _ =>
      uses_answer _
  · refine withDb_serving h (hdb ⟨answer_apart _, fun c => ?_⟩)
    refine uses_cursor fun _ => uses_query fun row => uses_closeCursor fun _ => ?_
    rcases row with _ | ⟨rls, force⟩ <;> exact uses_answer _
  · refine withDb_serving h ((wp_bind _ _).2 ?_)
    cases req.json with
    | missing => exact settled_of_apart (answer_apart _) hsettled
    | other => exact hsettled
    | object fields =>
      simp only [Serving.message, wp_pure, outcome_ok]
      split
      · exact settled_of_apart (answer_apart _) hsettled
      · refine hdb ⟨answer_apart _, fun c => ?_⟩
        exact uses_cursor fun _ => uses_query fun _ => uses_commit fun _ => uses_closeCursor fun _ =>
          uses_answer _
  · refine withDb_serving h (hdb ⟨answer_apart _, fun c => ?_⟩)
    exact uses_cursor fun _ => uses_query fun _ => uses_closeCursor fun _ => uses_answer _
  · exact hsettled

theorem serve_settles (req : PodRequest) (h : Fresh pod v) :
    (serve pod req).wp (leasing order role) (fun _ v' => Settled pod v') v := by
  have hdispatch : (dispatch pod req).wp (leasing order role) (fun _ v' => Settled pod v') v := by
    unfold dispatch
    split
    · exact settled_of_apart (answer_apart _) (.inl h.1)
    · exact route_serving req h
  have hafter : (afterRequest req).Calls PodCmd.Apart :=
    .ite (fun _ => logEvent_apart (by decide)) fun _ => trivial
  refine (wp_bind _ _).2 (hdispatch.imp fun x v₁ hx => ?_)
  cases x with
  | error e => exact hx
  | ok resp => exact settled_of_apart (.bind hafter fun _ => trivial) hx

/-! ## Runs -/

/-- The events of a request keep to the lease of a connection, which is given back. -/
def Conserves (pod : Pod) (tr : Trace podSig) : Prop := leases pod tr = some .free

/-- The application is followed with its events. -/
theorem leasing_follows : Follows (pooled order role) (leasing order role)
    (fun tr w (v : Served.State) => v = (tr, w)) := by
  rintro t w v c r w' rfl - hr
  exact ⟨(t ++ [⟨c, r⟩], w'), ⟨rfl, hr⟩, rfl⟩

/-- A request served on a clean pool gives back the connection it takes if and only if it does
    not drop it, and leaves the pool clean then. -/
theorem serve_conserves {req : PodRequest} {x : Except String PodResponse} (h : w.Clean)
    (hx : Exec (pooled order role) (serve pod req) w tr x w') :
    (Conserves pod tr ↔ ¬Drops tr) ∧ (¬Drops tr → w'.Clean) := by
  have hfresh : Fresh pod ([], w) := by
    refine ⟨⟨rfl, ?_, h⟩, ?_⟩
    · rintro ⟨tr₁, e, tr₂, h, -⟩
      exact absurd h (by simp)
    · rintro ⟨c, hc⟩
      cases hc
  have hstart : (([], w) : Served.State) = ([], w) := rfl
  obtain ⟨v, hv, rfl⟩ := hx.simulate leasing_follows hstart (serve_settles req hfresh)
  rcases hv with hv | ⟨hd, c, hc⟩
  · exact ⟨iff_of_true hv.leases hv.drops, fun _ => hv.world⟩
  · refine ⟨iff_of_false ?_ (not_not.2 hd), fun hn => absurd hd hn⟩
    intro hfree
    cases hc.symm.trans hfree

theorem conserved_of_handles {served : List (PodRequest × Trace podSig)} (h₀ : w.Clean)
    (h : Handles order role pod w served w') :
    ((∀ q ∈ served, Conserves pod q.2) → ∀ q ∈ served, ¬Drops q.2) ∧
      ((∀ q ∈ served, ¬Drops q.2) → (∀ q ∈ served, Conserves pod q.2) ∧ w'.Clean) := by
  induction h with
  | nil => exact ⟨fun _ _ h => (nomatch h), fun _ => ⟨fun _ h => (nomatch h), h₀⟩⟩
  | @snoc served w₁ w₂ req tr x hs hx ih =>
    simp only [List.forall_mem_append, List.forall_mem_singleton]
    constructor
    · rintro ⟨hold, hlast⟩
      have hdrops := ih.1 hold
      exact ⟨hdrops, (serve_conserves (ih.2 hdrops).2 hx).1.1 hlast⟩
    · rintro ⟨hold, hlast⟩
      obtain ⟨hconserves, hclean⟩ := ih.2 hold
      obtain ⟨hiff, hworld⟩ := serve_conserves hclean hx
      exact ⟨⟨hconserves, hiff.2 hlast⟩, hworld hlast⟩

end

/-- The requests of a run give back the connections they take, each as its lease says, and leave
    in the pool no transaction under way, if and only if none of them drops its connection. -/
theorem conserved_iff {order : RowOrder} {role : String} {pod : Pod} {db : Db}
    {rows : List Record} {served : List (PodRequest × Trace podSig)} {w : Client}
    (h : Handles order role pod { db, rows } served w) :
    ((∀ q ∈ served, Conserves pod q.2) ∧ w.Clean) ↔ ∀ q ∈ served, ¬Drops q.2 := by
  have h₀ : ({ db, rows } : Client).Clean := ⟨List.nodup_nil, fun c hc => nomatch hc⟩
  obtain ⟨hdrops, hconserves⟩ := conserved_of_handles h₀ h
  exact ⟨fun hc => hdrops hc.1, hconserves⟩

/-! ## A probe -/

/-- How the pool answers a command, and whether a statement around those of the database raises. -/
def poolAnswer (x : ClientChoice) (c : PodCmd) (w : Client) : c.Resp × Client :=
  match c with
  | .client .getconn =>
    if w.pool then w.answer byTime TenantId.a.role x .getconn else (.error "no pool", w)
  | .client (.putconn c close) =>
    w.answer byTime TenantId.a.role { x with done := true } (.putconn c close)
  | .client c => w.answer byTime TenantId.a.role x c
  | .log _ | .cursor _ | .closeCursor _ | .jsonify => (x.fails.elim (.ok ()) .error, w)

theorem poolAnswer_step (x : ClientChoice) (c : PodCmd) (w : Client) :
    pooled byTime TenantId.a.role c w (poolAnswer x c w).1 (poolAnswer x c w).2 := by
  have hself : w.Others w := ⟨rfl, .refl⟩
  cases c with
  | client c =>
    cases c with
    | getconn =>
      change if w.pool then _ else _
      unfold poolAnswer
      split
      · exact ⟨w, x, hself, rfl⟩
      · exact ⟨⟨_, rfl⟩, rfl⟩
    | putconn c close => exact ⟨w, { x with done := true }, hself, rfl, rfl⟩
    | _ => exact ⟨w, x, hself, rfl⟩
  | _ => rfl

/-- The connection handed out to a probe is broken, and the log line of it raises or not. -/
def brokenProbe (log : Option String) (n : ℕ) : ClientChoice :=
  { conn := some 0, fails := match n with
      | 4 => some "server closed the connection unexpectedly"
      | 5 => log
      | _ => none }

/-- A probe, and its events. -/
def probe (log : Option String) : Trace podSig × Except String PodResponse × Client :=
  (Serving.serve podA (spoofed .health)).eval poolAnswer (brokenProbe log) 0 { db := {}, rows := [] }

theorem probe_handles (log : Option String) : Handles byTime TenantId.a.role podA
    { db := {}, rows := [] } [(spoofed .health, (probe log).1)] (probe log).2.2 :=
  .snoc (x := (probe log).2.1) .nil (exec_eval poolAnswer_step _ _ _ _)

/-- No log line raised at the event. -/
def logged : Event podSig → Bool
  | ⟨.log _, .error _⟩ => false
  | _ => true

/-- A connection that cannot be bound is closed. -/
theorem conserved_iff_probe : Conserves podA (probe none).1 ∧ (probe none).2.2.Clean := by
  have hlogs : (probe none).1.all logged = true := by rfl
  have hdrops : ∀ q ∈ [(spoofed .health, (probe none).1)], ¬Drops q.2 := by
    rintro q hq ⟨tr₁, e, tr₂, htr, -⟩
    rw [List.mem_singleton.1 hq] at htr
    have hmem : ⟨.log "db_getconn_error", .error e⟩ ∈ (probe none).1 :=
      List.mem_of_mem_drop (i := tr₁.length) (by
        rw [show (probe none).1 = _ from htr, List.drop_left]
        exact List.mem_cons_self)
    cases List.all_eq_true.1 hlogs _ hmem
  obtain ⟨hconserves, hclean⟩ := (conserved_iff (probe_handles none)).2 hdrops
  exact ⟨hconserves _ List.mem_cons_self, hclean⟩

/-- A connection that cannot be bound is lost when the log line of it raises. -/
theorem dropped_connection : ¬∀ (order : RowOrder) (role : String) (pod : Pod) (db : Db)
    (rows : List Record) served w, Handles order role pod { db, rows } served w →
      ∀ q ∈ served, Conserves pod q.2 := by
  intro h
  have hc := h _ _ _ _ _ _ _ (probe_handles (some "Broken pipe")) _ List.mem_cons_self
  have hlease : leases podA (probe (some "Broken pipe")).1 = some (.failed 0) := by rfl
  cases hlease.symm.trans hc

end NtierLab
