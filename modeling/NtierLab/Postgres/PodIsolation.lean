import NtierLab.Postgres.Pod
import NtierLab.Prog.Serial

/-!
# Requests to a pod

Any sequence of requests to the pod of a tenant, one at a time, each of which may
raise or be left at any command, while the other sessions write any rows and run the
scripts (`pods`), on a database on which a migration with the tenant has completed
(`Db.Migrated`).

* `Client.Safe`: row-level security is enabled, every policy is a tenant's own, and
  the rows a transaction has inserted are the tenant's;
* `bound`: the contract of a statement on the table: its transaction is bound to the
  tenant;
* `Client.Agree`: two databases with the same rows of the tenant, which answer every
  command alike;
* `pod_isolated`: the requests are isolated.
-/

namespace NtierLab

open Prog

/-- A migration with the tenant has completed. -/
structure Db.Migrated (db : Db) (t : TenantId) : Prop where
  table : db.table = true
  rls : db.rls = true
  forceRls : db.forceRls = true
  role : ∃ r, db.roles t.role = some r ∧ r.login = true ∧ Privilege.table ∈ r.grants ∧
    Privilege.sequence ∈ r.grants
  policy : ⟨t.policy, t.role, t.val⟩ ∈ db.policies

/-- Every policy is a tenant's own. -/
def Db.OwnPolicies (db : Db) : Prop :=
  ∀ p ∈ db.policies, ∃ t : TenantId, p = ⟨t.policy, t.role, t.val⟩

namespace Db

variable {db db' : Db} {s : Statement} {t : TenantId} {setting : Option String} {tenant : String}

/-- The statements of the scripts create policies of tenants only. -/
theorem OwnPolicies.effect (h : db.OwnPolicies) (hs : s.Scripted) (hdb : db.effect s = some db') :
    db'.OwnPolicies := by
  cases s with
  | ddl d => cases d <;> cases hdb <;> exact h
  | createRole role password =>
    simp only [Db.effect] at hdb
    split at hdb <;> cases hdb
    exact h
  | dropRole role =>
    obtain ⟨r, -, hdb⟩ := Option.bind_eq_some_iff.1 hdb
    split at hdb <;> cases hdb
    exact h
  | dropPolicy name =>
    cases hdb
    exact fun p hp => h p (List.mem_of_mem_filter hp)
  | createPolicy name role tenant =>
    simp only [Db.effect] at hdb
    split at hdb <;> cases hdb
    obtain ⟨t, rfl, rfl, rfl⟩ := hs
    exact List.forall_mem_cons.2 ⟨⟨t, rfl⟩, h⟩
  | enableRls | forceRls =>
    cases hdb
    exact h
  | _ =>
    obtain ⟨r, -, rfl⟩ := Option.map_eq_some_iff.1 hdb
    exact h

/-- No statement disables row-level security. -/
theorem effect_rls (hdb : db.effect s = some db') (h : db.rls = true) : db'.rls = true := by
  cases s with
  | ddl d => cases d <;> cases hdb <;> exact h
  | createRole role password =>
    simp only [Db.effect] at hdb
    split at hdb <;> cases hdb
    exact h
  | dropRole role =>
    obtain ⟨r, -, hdb⟩ := Option.bind_eq_some_iff.1 hdb
    split at hdb <;> cases hdb
    exact h
  | createPolicy name role tenant =>
    simp only [Db.effect] at hdb
    split at hdb <;> cases hdb
    exact h
  | enableRls => cases hdb; rfl
  | dropPolicy name | forceRls =>
    cases hdb
    exact h
  | _ =>
    obtain ⟨r, -, rfl⟩ := Option.map_eq_some_iff.1 hdb
    exact h

theorem exec_effect (h : db.exec s = some db') : db.effect s = some db' := by
  unfold exec at h
  split at h
  · cases h
  · exact h

/-- The policies show a tenant its own rows only, under its own setting. -/
theorem OwnPolicies.shows (h : db.OwnPolicies) (hrls : db.rls = true)
    (hs : db.shows t.role setting tenant = true) : tenant = t.val ∧ setting = some t.val := by
  simp only [Db.shows, hrls, Bool.not_true, Bool.false_or, List.any_eq_true, decide_eq_true_eq] at hs
  obtain ⟨p, hp, hrole, rfl, rfl⟩ := hs
  obtain ⟨u, rfl⟩ := h p hp
  obtain rfl := TenantId.role_injective hrole
  exact ⟨rfl, rfl⟩

end Db

/-- The policies of a database the scripts have reached are the tenants' own. -/
theorem scripts_ownPolicies {owns : TenantId → String → Prop}
    {ls : List (Label sqlSig (ScriptOp owns) Empty)} {p : Scripts owns}
    (hr : (scripts owns).Run (fun _ _ => True) (.new {}) ls p) : p.world.OwnPolicies := by
  induction hr with
  | nil => exact fun _ h => absurd h List.not_mem_nil
  | @snoc _ p₀ p' l hr _ hst ih =>
    have hobeys := scripts_obeys hr
    obtain ⟨w, ts⟩ := p₀
    cases hst with
    | start i => exact ih
    | env h => exact h.elim
    | @run w w' ts n i t c k r hn hr =>
      obtain ⟨⟨x, hx⟩, -⟩ := hr
      by_cases hc : ∃ s, c = .exec s
      · obtain ⟨s, rfl⟩ := hc
        rcases Db.answer_exec hx with ⟨rfl, hdb⟩ | ⟨-, rfl⟩
        · exact ih.effect ((obeys_call.1 (hobeys _ (List.mem_of_getElem? hn))).1 s rfl) hdb
        · exact ih
      · rw [Db.answer_other (fun s h => hc ⟨s, h⟩) hx]
        exact ih

/-! ## The client -/

/-- Row-level security is enabled, every policy is a tenant's own, and what the transactions
    have inserted is the tenant's. -/
structure Client.Safe (t : TenantId) (w : Client) : Prop where
  rls : w.db.rls = true
  policies : w.db.OwnPolicies
  pending : ∀ c tx, w.conns c = some ⟨some tx⟩ → ∀ r ∈ tx.pending, r.tenantId = t.val

/-- The transaction of a connection is bound to the tenant. -/
def Client.Bound (t : TenantId) (c : ℕ) (w : Client) : Prop :=
  ∃ tx, w.conns c = some ⟨some tx⟩ ∧ tx.setting = some t.val

namespace Client

variable {t : TenantId} {w w' : Client} {order : RowOrder} {x : ClientChoice} {c n : ℕ} {tx : Tx}
  {q : Query}

theorem setConn_self (conn : Option Conn) : (w.setConn c conn).conns c = conn := by
  simp [setConn]

/-- What the other sessions do keeps the client safe. -/
theorem Safe.others (h : w.Safe t) (ho : Others w w') : w'.Safe t := by
  have hdb : w'.db.rls = true ∧ w'.db.OwnPolicies := by
    have hscripts := ho.scripts
    generalize w'.db = db at hscripts ⊢
    induction hscripts with
    | refl => exact ⟨h.rls, h.policies⟩
    | tail _ hs ih =>
      obtain ⟨s, hs, hdb⟩ := hs
      exact ⟨Db.effect_rls (Db.exec_effect hdb) ih.1, ih.2.effect hs (Db.exec_effect hdb)⟩
  refine ⟨hdb.1, hdb.2, fun c tx hc => ?_⟩
  rw [ho.client] at hc
  exact h.pending c tx hc

theorem Safe.setConn (h : w.Safe t) {conn : Option Conn}
    (hc : ∀ tx, conn = some ⟨some tx⟩ → ∀ r ∈ tx.pending, r.tenantId = t.val) :
    (w.setConn c conn).Safe t := by
  refine ⟨h.rls, h.policies, fun d tx hd => ?_⟩
  by_cases hdc : d = c
  · subst hdc
    rw [setConn_self] at hd
    exact hc tx hd
  · exact h.pending d tx (by simpa [Client.setConn, hdc] using hd)

theorem Safe.endTx (h : w.Safe t) : (w.endTx c).Safe t := by
  unfold Client.endTx
  split
  · exact h
  · exact h.setConn nofun

/-- A statement inserts rows of the tenant only. -/
theorem run_pending (h : w.Safe t) (htx : ∀ r ∈ tx.pending, r.tenantId = t.val) :
    ∀ r ∈ (w.run order t.role x tx q).2.pending, r.tenantId = t.val := by
  cases q with
  | insert remoteIp hostname userAgent message tenantId =>
    simp only [run]
    split_ifs with hheld hshown
    · exact htx
    · exact htx
    · intro r hr
      rcases List.mem_append.1 hr with hr | hr
      · exact htx r hr
      · rw [List.mem_singleton.1 hr]
        exact (h.policies.shows h.rls (by simpa using hshown)).1
  | select limit =>
    simp only [run]
    split_ifs <;> exact htx
  | _ => exact htx

/-- The rows the table shows are rows of the tenant. -/
theorem visible_own (h : w.Safe t) {r : Record} (hr : r ∈ w.visible t.role tx) : r.tenantId = t.val :=
  (h.policies.shows h.rls (List.mem_filter.1 hr).2).1

/-- The statements return rows of the tenant only. -/
theorem run_select (h : w.Safe t) {limit : ℤ} {rows : List Record}
    (hrows : (w.run order t.role x tx (.select limit)).1 = .ok rows) :
    ∀ r ∈ rows, r.tenantId = t.val := by
  simp only [run] at hrows
  split_ifs at hrows
  obtain rfl := Except.ok.inj hrows
  intro r hr
  exact visible_own h ((order.perm _).subset (List.mem_of_mem_take hr))

theorem run_insert (h : w.Safe t) {ip host agent message tenant : String} {row : Record}
    (hrow : (w.run order t.role x tx (.insert ip host agent message tenant)).1 = .ok row) :
    row.tenantId = t.val := by
  simp only [run] at hrow
  split_ifs at hrow with hheld hshown
  obtain rfl := Except.ok.inj hrow
  exact (h.policies.shows h.rls (by simpa using hshown)).1

/-- A statement that returns is run in the transaction of its connection, or in a new one. -/
theorem query_ok {role : String} {r : q.Resp} (hq : (w.query order role x c q).1 = .ok r) :
    ∃ conn, w.conns c = some conn ∧ (w.run order role x (conn.tx.getD {}) q).1 = .ok r ∧
      (w.query order role x c q).2 =
        w.setConn c (some ⟨some (w.run order role x (conn.tx.getD {}) q).2⟩) := by
  unfold query at hq ⊢
  cases hc : w.conns c with
  | none =>
    rw [hc] at hq
    cases hq
  | some conn =>
    rw [hc] at hq
    refine ⟨conn, rfl, ?_⟩
    dsimp only at hq ⊢
    split at hq
    · cases hq
    · next hf =>
      rw [if_neg hf]
      cases hx : x.fails with
      | some e =>
        rw [hx] at hq
        cases hq
      | none =>
        rw [hx] at hq
        rcases hrun : w.run order role x (conn.tx.getD {}) q with ⟨_ | r', tx'⟩
        · rw [hrun] at hq
          cases hq
        · rw [hrun] at hq
          exact ⟨hq, rfl⟩

theorem query_safe (h : w.Safe t) : (w.query order t.role x c q).2.Safe t := by
  unfold query
  cases hc : w.conns c with
  | none => exact h
  | some conn =>
    have htx : ∀ r ∈ (conn.tx.getD {}).pending, r.tenantId = t.val := by
      obtain ⟨_ | tx⟩ := conn
      · exact fun r hr => absurd hr List.not_mem_nil
      · exact h.pending c tx hc
    have hfailed : (w.setConn c (some ⟨some { conn.tx.getD {} with failed := true }⟩)).Safe t :=
      h.setConn fun tx h => by
        cases h
        exact htx
    dsimp only
    split
    · exact h
    · have hrun := @run_pending t w order x _ q h htx
      split
      · next r tx' heq =>
        rw [heq] at hrun
        refine h.setConn fun tx h => ?_
        cases h
        exact hrun
      · exact hfailed
      · split
        · exact h.setConn nofun
        · exact hfailed

/-- The rows a commit adds to the table are the tenant's. -/
theorem inserted_own (h : w.Safe t) : ∀ r ∈ w.inserted c, r.tenantId = t.val := by
  unfold inserted
  split
  · next tx htx =>
    split
    · exact fun r hr => absurd hr List.not_mem_nil
    · obtain ⟨conn, hc, htx⟩ := Option.bind_eq_some_iff.1 htx
      obtain ⟨_⟩ := conn
      cases htx
      exact h.pending c tx hc
  · exact fun r hr => absurd hr List.not_mem_nil

/-- The rows of the table do not matter to what is safe. -/
theorem Safe.rows (h : w.Safe t) (rows : List Record) : ({ w with rows } : Client).Safe t :=
  ⟨h.rls, h.policies, h.pending⟩

theorem answer_safe (h : w.Safe t) (cmd : ClientCmd) : (answer order t.role x cmd w).2.Safe t := by
  cases cmd with
  | poolMissing => exact h
  | initPool => exact ⟨h.rls, h.policies, h.pending⟩
  | getconn =>
    simp only [answer]
    split
    · exact h
    · exact h
    · split
      · exact ⟨h.rls, h.policies, h.pending⟩
      · split
        · exact h.setConn nofun
        · exact h
  | putconn c close =>
    simp only [answer]
    split
    · split
      · exact h.setConn nofun
      · exact h
    · split
      · exact h.setConn nofun
      · split
        · exact ⟨h.endTx.rls, h.endTx.policies, h.endTx.pending⟩
        · exact ⟨h.rls, h.policies, h.pending⟩
  | rollback c =>
    simp only [answer]
    split
    · split
      · exact h.setConn nofun
      · split
        · exact h.endTx
        · exact h
    · split
      · exact h
      · exact h.endTx
  | commit c =>
    have hcommitted : ({ w.endTx c with rows := w.rows ++ w.inserted c } : Client).Safe t :=
      h.endTx.rows _
    simp only [answer]
    split
    · split
      · split
        · exact hcommitted.setConn nofun
        · exact hcommitted
      · split
        · exact h.setConn nofun
        · exact h
    · split
      · exact h
      · exact hcommitted
  | query c q => exact query_safe h

/-! ## Two databases with the same rows of the tenant -/

/-- The rows of a tenant. -/
def own (t : TenantId) (rows : List Record) : List Record := rows.filter fun r => r.tenantId = t.val

/-- What the policies show of the table are rows of the tenant, as many as it has. -/
theorem visible_rows (h : w.Safe t) {rows : List Record} (hrows : own t rows = own t w.rows) :
    ({ w with rows } : Client).visible t.role tx = w.visible t.role tx := by
  have hown (l : List Record) : (l.filter fun r => w.db.shows t.role tx.setting r.tenantId) =
      (own t l).filter fun r => w.db.shows t.role tx.setting r.tenantId := by
    rw [own, List.filter_filter]
    refine List.filter_congr fun r _ => ?_
    cases hr : w.db.shows t.role tx.setting r.tenantId with
    | false => rfl
    | true => simp [(h.policies.shows h.rls hr).1]
  simp only [visible, List.filter_append]
  rw [hown rows, hown w.rows, hrows]

theorem run_rows (h : w.Safe t) {rows : List Record} (hrows : own t rows = own t w.rows) :
    ({ w with rows } : Client).run order t.role x tx q = w.run order t.role x tx q := by
  cases q with
  | select limit => simp only [run, visible_rows h hrows]
  | _ => rfl

theorem query_rows (h : w.Safe t) {rows : List Record} (hrows : own t rows = own t w.rows) :
    ({ w with rows } : Client).query order t.role x c q =
      ((w.query order t.role x c q).1, { (w.query order t.role x c q).2 with rows }) ∧
    (w.query order t.role x c q).2.rows = w.rows := by
  simp only [query, run_rows h hrows]
  cases w.conns c with
  | none => exact ⟨rfl, rfl⟩
  | some conn =>
    dsimp only
    split
    · exact ⟨rfl, rfl⟩
    · split <;> exact ⟨rfl, rfl⟩

theorem endTx_rows (rows : List Record) :
    (w.endTx c).rows = w.rows ∧ ({ w with rows } : Client).endTx c = { w.endTx c with rows } := by
  unfold endTx
  cases w.conns c <;> exact ⟨rfl, rfl⟩

/-- A command adds rows of the tenant to the table, if any, and is answered alike on a database
    with the same rows of the tenant. -/
theorem answer_rows (h : w.Safe t) (cmd : ClientCmd) :
    ∃ new : List Record, (∀ r ∈ new, r.tenantId = t.val) ∧
      (answer order t.role x cmd w).2.rows = w.rows ++ new ∧
      ∀ rows, own t rows = own t w.rows → answer order t.role x cmd { w with rows } =
        ((answer order t.role x cmd w).1,
          { (answer order t.role x cmd w).2 with rows := rows ++ new }) := by
  have hnil : ∀ r ∈ ([] : List Record), r.tenantId = t.val := fun r hr => absurd hr List.not_mem_nil
  cases cmd with
  | poolMissing => exact ⟨[], hnil, by simp [answer], fun rows _ => by simp [answer]⟩
  | initPool => exact ⟨[], hnil, by simp [answer], fun rows _ => by simp [answer]⟩
  | getconn =>
    refine ⟨[], hnil, ?_, fun rows _ => ?_⟩ <;> simp only [answer, List.append_nil]
    all_goals
      split
      · rfl
      · rfl
      · split
        · rfl
        · split <;> rfl
  | putconn c close =>
    refine ⟨[], hnil, ?_, fun rows _ => ?_⟩
    · simp only [answer, List.append_nil]
      split
      · split <;> rfl
      · split
        · rfl
        · split
          · exact (endTx_rows []).1
          · rfl
    · simp only [answer, List.append_nil, (endTx_rows rows).2]
      split
      · split <;> rfl
      · split
        · rfl
        · split <;> rfl
  | rollback c =>
    refine ⟨[], hnil, ?_, fun rows _ => ?_⟩
    · simp only [answer, List.append_nil]
      split
      · split
        · rfl
        · split
          · exact (endTx_rows []).1
          · rfl
      · split
        · rfl
        · exact (endTx_rows []).1
    · simp only [answer, List.append_nil, (endTx_rows rows).2]
      split
      · split
        · rfl
        · split <;> rfl
      · split <;> rfl
  | commit c =>
    -- The rows inserted are added if the commit takes effect.
    cases hx : x.fails with
    | some e =>
      cases hd : x.done with
      | true =>
        refine ⟨w.inserted c, inserted_own h, ?_, fun rows _ => ?_⟩
        · simp only [answer, hx, hd, if_true]
          split <;> rfl
        · simp only [answer, hx, hd, if_true, (endTx_rows rows).2]
          split <;> rfl
      | false =>
        refine ⟨[], hnil, ?_, fun rows _ => ?_⟩
        · simp only [answer, hx, hd, List.append_nil]
          cases x.lost <;> rfl
        · simp only [answer, hx, hd, List.append_nil, (endTx_rows rows).2]
          cases x.lost <;> rfl
    | none =>
      cases hc : w.conns c with
      | none =>
        refine ⟨[], hnil, ?_, fun rows _ => ?_⟩ <;> simp only [answer, hx, hc, List.append_nil] <;> rfl
      | some conn =>
        refine ⟨w.inserted c, inserted_own h, ?_, fun rows _ => ?_⟩
        · simp only [answer, hx, hc]
          rfl
        · simp only [answer, hx, hc, (endTx_rows rows).2]
          rfl
  | query c q =>
    refine ⟨[], hnil, ?_, fun rows hrows => ?_⟩ <;> rw [List.append_nil]
    · exact (query_rows h rfl).2
    · exact (query_rows h hrows).1

/-- A program ends alike on two databases with the same rows of the tenant. -/
theorem eval_rows {α : Type} (p : PodProg α) (o : ℕ → ClientChoice) (m : ℕ) (h : w.Safe t)
    {rows : List Record} (hrows : own t rows = own t w.rows) :
    (p.eval (answer order t.role) o m { w with rows }).2.1 =
      (p.eval (answer order t.role) o m w).2.1 := by
  induction p generalizing m w rows with
  | ret a => rfl
  | fail e => rfl
  | call cmd k ih =>
    obtain ⟨new, -, hnew, heq⟩ := @answer_rows t w order (o m) h cmd
    simp only [eval, heq rows hrows]
    refine ih _ (m + 1) (answer_safe h cmd) ?_
    rw [hnew, own, own, List.filter_append, List.filter_append]
    exact congrArg (· ++ _) hrows

end Client

/-! ## The contract of the statements on the table -/

/-- A command of the client, after what the other sessions do. -/
def clientStep (order : RowOrder) (role : String) : Handler clientSig Client := fun c w r w' =>
  ∃ w₁ x, w.Others w₁ ∧ w₁.answer order role x c = (r, w')

/-- A statement on the table is made in a transaction bound to the tenant. -/
def bound (order : RowOrder) (t : TenantId) : Contract clientSig Client where
  pre c w := ∀ n q, c = .query n q → q.OnTable → w.Bound t n
  post := clientStep order t.role

/-- The command is not a statement on the table. -/
def Harmless (c : ClientCmd) : Prop := ∀ n q, c = .query n q → ¬q.OnTable

section

variable {order : RowOrder} {t : TenantId} {pod : Pod} {w : Client} {α : Type} {c : ℕ}

/-- A program without statements on the table meets the contract. -/
theorem bound_of_harmless {p : PodProg α} (hp : p.Calls Harmless) :
    p.wp (bound order t) (fun _ _ => True) w :=
  hp.wp (fun _ _ hc _ => ⟨fun n q h hq => absurd hq (hc n q h), fun _ _ _ => trivial⟩) trivial

theorem query_harmless {q : Query} (hq : ¬q.OnTable) : (Pod.query c q).Calls Harmless :=
  ⟨fun n q' h => by cases h; exact hq, fun r => calls_result r⟩

theorem putconn_harmless (close : Bool) : (Pod.putconn c close).Calls Harmless :=
  ⟨nofun, fun r => calls_result r⟩

theorem rollback_harmless : (Pod.rollback c).Calls Harmless :=
  ⟨nofun, fun r => calls_result r⟩

theorem commit_harmless : (Pod.commit c).Calls Harmless :=
  ⟨nofun, fun r => calls_result r⟩

theorem returnDbConnection_harmless (conn : Option ℕ) :
    (Pod.returnDbConnection conn).Calls Harmless := by
  cases conn with
  | none => trivial
  | some c =>
    refine .bind ⟨nofun, fun _ => trivial⟩ fun missing => .ite (fun _ => trivial) fun _ => ?_
    exact .bind (.tryCatch rollback_harmless fun _ => trivial) fun _ => putconn_harmless _

/-- Binding a connection binds its transaction. -/
theorem bindTenant_bound (hT : pod.tenantId = t.val) :
    (pod.bindTenant c).wp (bound order t) (outcome (fun _ w' => w'.Bound t c) fun _ _ => True) w := by
  have hne : pod.tenantId ≠ "" := by
    intro h
    have hv := t.valid
    rw [← hT, h] at hv
    exact absurd hv (by simp [tenantIdRe])
  refine wp.bind (Q := fun _ _ => True) ?_ (fun _ w₁ _ => ?_) fun _ _ _ => trivial
  · exact (bound_of_harmless rollback_harmless).imp fun x _ _ => by cases x <;> trivial
  · rw [if_pos hne]
    refine ⟨fun n q h hq => ?_, fun r w₂ hr => ?_⟩
    · cases h
      exact hq.elim
    · rw [wp_result]
      cases r with
      | error e => trivial
      | ok r =>
        obtain ⟨w₁, x, -, hx⟩ := hr
        obtain ⟨conn, -, -, hw⟩ := Client.query_ok (congrArg Prod.fst hx)
        have hw₂ : w₂ = _ := (congrArg Prod.snd hx).symm.trans hw
        rw [hw₂]
        exact ⟨_, Client.setConn_self _, by rw [← hT]; rfl⟩

/-- A connection taken from the pool, whatever its state there, is bound to the tenant. -/
theorem getDbConnection_bound (hT : pod.tenantId = t.val) :
    (pod.getDbConnection).wp (bound order t)
      (fun x w' => ∀ c, x = .ok (some c) → w'.Bound t c) w := by
  have hnone (w' : Client) : ∀ c, (.ok none : Except String (Option ℕ)) = .ok (some c) →
      w'.Bound t c := fun c h => absurd h (by simp)
  have hpool : Pod.poolMissing.Calls Harmless := ⟨nofun, fun _ => trivial⟩
  have hinit : Pod.initDbPool.Calls Harmless := ⟨nofun, fun _ => trivial⟩
  have hget : Pod.getconn.Calls Harmless := ⟨nofun, fun r => calls_result r⟩
  refine (wp_tryCatch _ _).2 (wp.imp (Q := outcome (fun a w' =>
    ∀ c, (.ok a : Except String (Option ℕ)) = .ok (some c) → w'.Bound t c) fun _ _ => True) ?_
    fun x w' h => ?_)
  · refine wp.bind (bound_of_harmless hpool) (fun missing w₁ _ => ?_) fun _ _ _ => trivial
    refine (wp_ite _ _ _).2 ⟨fun _ => wp.bind (bound_of_harmless hinit) (fun _ w₂ _ => ?_)
      fun _ _ _ => trivial, fun _ => ?_⟩
    -- A connection is handed out, and bound, or closed.
    all_goals
      refine wp.bind (bound_of_harmless hget) (fun conn w₂ _ => ?_) fun _ _ _ => trivial
      cases conn with
      | none => exact hnone w₂
      | some c =>
        refine (wp_tryCatch _ _).2 ((wp_bind _ _).2 ((bindTenant_bound hT).imp fun x w₃ h => ?_))
        cases x with
        | error e =>
          refine wp.bind (bound_of_harmless (.tryCatch (putconn_harmless true) fun _ => trivial))
            (fun _ w₄ _ => hnone w₄) fun _ _ _ => trivial
        | ok u =>
          intro d hd
          cases hd
          exact h
  · cases x with
    | ok a => exact h
    | error e => exact hnone w'

/-- A body that uses the connection where it is bound, and is harmless without one. -/
theorem dbConn_bound (hT : pod.tenantId = t.val) {body : Option ℕ → PodProg α}
    (hnone : (body none).Calls Harmless)
    (hsome : ∀ c w, w.Bound t c → (body (some c)).wp (bound order t) (fun _ _ => True) w) :
    (pod.dbConn body).wp (bound order t) (fun _ _ => True) w := by
  refine (wp_bind _ _).2 ((getDbConnection_bound hT).imp fun x w₁ h => ?_)
  cases x with
  | error e => trivial
  | ok conn =>
    have hbody : (body conn).wp (bound order t) (fun _ _ => True) w₁ := by
      cases conn with
      | none => exact bound_of_harmless hnone
      | some c => exact hsome c w₁ (h c rfl)
    have hreturn (w₂ : Client) : (Pod.returnDbConnection conn).wp (bound order t) (fun _ _ => True) w₂ :=
      bound_of_harmless (returnDbConnection_harmless conn)
    refine (wp_ensuring _ _).2 (hbody.imp fun y w₂ _ => (hreturn w₂).imp fun z _ _ => ?_)
    cases z <;> trivial

/-! ## Requests -/

theorem withDb_bound {p : PodProg PodResponse} (hp : p.wp (bound order t) (fun _ _ => True) w) :
    (pod.withDb p).wp (bound order t) (fun _ _ => True) w := by
  refine (wp_ite _ _ _).2 ⟨fun _ => trivial, fun _ => ?_⟩
  split
  · trivial
  · exact hp

theorem orError_bound {p : PodProg PodResponse} (hp : p.wp (bound order t) (fun _ _ => True) w) :
    (pod.orError p).wp (bound order t) (fun _ _ => True) w :=
  (wp_tryCatch _ _).2 (hp.imp fun x _ _ => by cases x <;> trivial)

/-- A route that makes no statement on the table. -/
theorem dbConn_harmless (hT : pod.tenantId = t.val) {body : Option ℕ → PodProg α}
    (h : ∀ conn, (body conn).Calls Harmless) :
    (pod.dbConn body).wp (bound order t) (fun _ _ => True) w :=
  dbConn_bound hT (h none) fun c _ _ => bound_of_harmless (h (some c))

theorem health_bound (hT : pod.tenantId = t.val) :
    pod.health.wp (bound order t) (fun _ _ => True) w := by
  refine (wp_ite _ _ _).2 ⟨fun _ => (wp_tryCatch _ _).2 ?_, fun _ => trivial⟩
  refine (wp_bind _ _).2 ((dbConn_harmless hT fun conn => ?_).imp fun x w' _ => ?_)
  · cases conn with
    | none => trivial
    | some c => exact .bind (query_harmless id) fun _ => trivial
  · cases x <;> trivial

theorem dbVersion_bound (hT : pod.tenantId = t.val) :
    pod.dbVersion.wp (bound order t) (fun _ _ => True) w := by
  refine (wp_ite _ _ _).2 ⟨fun _ => trivial, fun _ => withDb_bound (orError_bound ?_)⟩
  refine dbConn_harmless hT fun conn => ?_
  cases conn with
  | none => trivial
  | some c => exact .bind (query_harmless id) fun _ => .bind (query_harmless id) fun _ => trivial

theorem initDb_bound (hT : pod.tenantId = t.val) :
    pod.initDb.wp (bound order t) (fun _ _ => True) w := by
  refine withDb_bound (orError_bound (dbConn_harmless hT fun conn => ?_))
  cases conn with
  | none => trivial
  | some c =>
    refine .bind (query_harmless id) fun row => ?_
    rcases row with _ | ⟨rls, force⟩ <;> trivial

/-- An item is inserted in a transaction bound to the tenant. -/
theorem createItem_bound (hT : pod.tenantId = t.val) (req : PodRequest) :
    (pod.createItem req).wp (bound order t) (fun _ _ => True) w := by
  refine withDb_bound ((wp_bind _ _).2 ?_)
  cases req.json with
  | missing => trivial
  | other => trivial
  | object fields =>
    simp only [Pod.message, wp_pure, outcome_ok]
    split
    · trivial
    · refine orError_bound (dbConn_bound hT trivial fun c w₁ hb => ?_)
      refine ⟨fun n q h _ => ?_, fun r w₂ _ => bound_of_harmless ?_⟩
      · cases h
        exact hb
      · exact .bind (calls_result r) fun row => .bind commit_harmless fun _ => trivial

/-- The records are selected in a transaction bound to the tenant. -/
theorem getRecords_bound (hT : pod.tenantId = t.val) (req : PodRequest) :
    (pod.getRecords req).wp (bound order t) (fun _ _ => True) w := by
  refine withDb_bound (orError_bound (dbConn_bound hT trivial fun c w₁ hb => ?_))
  refine ⟨fun n q h _ => ?_, fun r w₂ _ => bound_of_harmless ?_⟩
  · cases h
    exact hb
  · exact .bind (calls_result r) fun rows => trivial

/-- Every request makes its statements on the table in a transaction bound to the tenant. -/
theorem serve_bound (hT : pod.tenantId = t.val) (req : PodRequest) :
    (pod.serve req).wp (bound order t) (fun _ _ => True) w := by
  unfold Pod.serve
  split
  · trivial
  · unfold Pod.route
    split
    · trivial
    · exact health_bound hT
    · exact dbVersion_bound hT
    · exact initDb_bound hT
    · exact createItem_bound hT req
    · exact getRecords_bound hT req
    · trivial

end

/-! ## Runs -/

/-- The requests to a pod, one after the other, on a database the other sessions move. -/
def pods (order : RowOrder) (pod : Pod) (role : String) :
    Serial clientSig String PodRequest Unit Client where
  prog req := do let _ ← pod.serve req
  step := clientStep order role
  env _ w w' := w.Others w'

variable {order : RowOrder} {t : TenantId} {pod : Pod}

theorem clientStep_safe {c : ClientCmd} {w w' : Client} {r : c.Resp} (h : w.Safe t)
    (hst : clientStep order t.role c w r w') : w'.Safe t := by
  obtain ⟨w₁, x, ho, hx⟩ := hst
  have hw : w' = _ := (congrArg Prod.snd hx).symm
  rw [hw]
  exact Client.answer_safe (h.others ho) c

/-- The requests to a pod of a tenant meet the contract, on a database on which a migration with
    the tenant has completed. -/
theorem pods_meet {owns : TenantId → String → Prop} {ls : List (Label sqlSig (ScriptOp owns) Empty)}
    {q : Scripts owns} {rows : List Record} {ts : List (Turn clientSig PodRequest Unit)}
    {p : Desk clientSig String PodRequest Client}
    (hscripts : (scripts owns).Run (fun _ _ => True) (.new {}) ls q) (hmig : q.world.Migrated t)
    (hT : pod.tenantId = t.val)
    (hr : (pods order pod t.role).Run (fun _ _ => True) { db := q.world, rows } ts p) :
    (pods order pod t.role).Meets (bound order t) (Client.Safe t) p :=
  have hsafe : Client.Safe t { db := q.world, rows } :=
    ⟨hmig.rls, scripts_ownPolicies hscripts, fun _ _ h => nomatch h⟩
  hr.meets (fun req _ _ => wp.bind (serve_bound hT req) (fun _ _ _ => trivial) fun _ _ _ => trivial)
    (fun _ _ _ _ h hst => ⟨hst, clientStep_safe h hst⟩) (fun _ _ _ h ho => h.others ho) hsafe

/-- The rows selected are the tenant's. -/
theorem Serial.Meets.select_own {p p' : Desk clientSig String PodRequest Client}
    (h : (pods order pod t.role).Meets (bound order t) (Client.Safe t) p) {req : PodRequest} {c : ℕ}
    {n : ℤ} {found : List Record}
    (hst : (pods order pod t.role).Step p (.run req ⟨.query c (.select n), .ok found⟩) p') :
    ∀ row ∈ found, row.tenantId = t.val := by
  intro row hrow
  obtain ⟨w, x, ho, hx⟩ := (h.pre hst).2
  obtain ⟨conn, -, hrun, -⟩ := Client.query_ok (congrArg Prod.fst hx)
  exact Client.run_select (h.world.others ho) hrun row hrow

/-- The requests to a pod of a tenant are isolated, on a database on which a migration with the
    tenant has completed: in every run, every statement on the table is made in a transaction
    bound to the tenant; every row returned, inserted or added to the table is the tenant's; and
    a request is answered alike on every database with the same rows of the tenant. -/
theorem pod_isolated {owns : TenantId → String → Prop} {ls : List (Label sqlSig (ScriptOp owns) Empty)}
    {q : Scripts owns} {rows : List Record} {ts : List (Turn clientSig PodRequest Unit)}
    {p : Desk clientSig String PodRequest Client}
    (hscripts : (scripts owns).Run (fun _ _ => True) (.new {}) ls q) (hmig : q.world.Migrated t)
    (hT : pod.tenantId = t.val)
    (hr : (pods order pod t.role).Run (fun _ _ => True) { db := q.world, rows } ts p) :
    (∀ req c s r p', (pods order pod t.role).Step p (.run req ⟨.query c s, r⟩) p' → s.OnTable →
      ∃ tx, p.world.conns c = some ⟨some tx⟩ ∧ tx.setting = some t.val) ∧
    (∀ req c n found p', (pods order pod t.role).Step p (.run req ⟨.query c (.select n), .ok found⟩) p' →
      ∀ row ∈ found, row.tenantId = t.val) ∧
    (∀ req c ip host agent message tenant row p',
      (pods order pod t.role).Step p
        (.run req ⟨.query c (.insert ip host agent message tenant), .ok row⟩) p' →
      row.tenantId = t.val) ∧
    (∀ req e p', (pods order pod t.role).Step p (.run req e) p' → ∃ w new, p.world.Others w ∧
      p'.world.rows = w.rows ++ new ∧ ∀ row ∈ new, row.tenantId = t.val) ∧
    (∀ req o others, Client.own t others = Client.own t p.world.rows →
      ((pod.serve req).eval (Client.answer order t.role) o 0 { p.world with rows := others }).2.1 =
        ((pod.serve req).eval (Client.answer order t.role) o 0 p.world).2.1) := by
  have hmeets := pods_meet hscripts hmig hT hr
  refine ⟨fun req c s r p' hst hs => (hmeets.pre hst).1 c s rfl hs,
    fun req c n found p' hst => hmeets.select_own hst, ?_, ?_, ?_⟩
  · intro req c ip host agent message tenant row p' hst
    obtain ⟨w, x, ho, hx⟩ := (hmeets.pre hst).2
    obtain ⟨conn, -, hrun, -⟩ := Client.query_ok (congrArg Prod.fst hx)
    exact Client.run_insert (hmeets.world.others ho) hrun
  · intro req e p' hst
    obtain ⟨w, x, ho, hx⟩ := (hmeets.pre hst).2
    obtain ⟨new, hnew, hrows, -⟩ := Client.answer_rows (hmeets.world.others ho) e.cmd
    have hw : p'.world = _ := (congrArg Prod.snd hx).symm
    exact ⟨w, new, ho, hw ▸ hrows, hnew⟩
  · intro req o others hothers
    exact Client.eval_rows _ o 0 hmeets.world hothers

/-! ## A pod on a schedule -/

/-- Rows of one time in the order of the table. -/
def byTime : RowOrder where
  sort l := l.insertionSort fun r r' => r'.timestamp ≤ r.timestamp
  perm l := List.perm_insertionSort _ l
  sorted l := by
    have : Std.Total fun r r' : Record => r'.timestamp ≤ r.timestamp := ⟨fun r r' => le_total _ _⟩
    have : IsTrans Record fun r r' => r'.timestamp ≤ r.timestamp := ⟨fun _ _ _ h h' => h'.trans h⟩
    exact List.pairwise_insertionSort _ l

/-- The first migration of the tenant `a`. -/
def firstMigration : List (System.Move (ScriptOp ownsA) Empty Unit) :=
  .start (.migrate "master" ⟨[(.a, "ntier-dev/rds/tenant-a")], ownsA_honest⟩) ::
    List.replicate 17 (.run 0 ())

/-- The database it leaves. -/
def migratedA : List (Label sqlSig (ScriptOp ownsA) Empty) × Scripts ownsA :=
  ((scripts ownsA).play answerA (fun _ _ => none) (fun _ _ => true) (.new {}) firstMigration).get rfl

/-- The pod of the tenant `a`. -/
def podA : Pod := ⟨"a", true, true, [("alice", ["a"])], "pod"⟩

/-- A request that names another tenant. -/
def spoofed (route : Route) : PodRequest where
  route
  labUser := some "alice"
  userAgent := none
  remoteAddr := "10.0.0.1"
  args := [("tenant_id", "b")]
  json := .object [("message", .text "hello"), ("tenant_id", .text "b")]

/-- An item is created, then the records are read. -/
def createThenRead : List (Serial.Move PodRequest ClientChoice) :=
  .start (spoofed .createItem) :: List.replicate 10 (.run { conn := some 0 }) ++
    .start (spoofed .getRecords) :: List.replicate 4 (.run { conn := some 0 })

/-- The client of the pod answered without interference. -/
def podAnswer (x : ClientChoice) : (c : ClientCmd) → Client → c.Resp × Client :=
  Client.answer byTime TenantId.a.role x

theorem podAnswer_step (x : ClientChoice) (c : ClientCmd) (w : Client) :
    (pods byTime podA TenantId.a.role).step c w (podAnswer x c w).1 (podAnswer x c w).2 :=
  ⟨w, x, ⟨rfl, .refl⟩, rfl⟩

/-- The pod of `a` reads the item it created, as an item of `a`. -/
theorem pod_isolated_spoofed : ∃ row : Record, row.message = some "hello" ∧ row.tenantId = "a" := by
  have hmigrated : (scripts ownsA).play answerA (fun _ _ => none) (fun _ _ => true) (.new {})
      firstMigration = some migratedA := (Option.some_get _).symm
  have hscripts : (scripts ownsA).Run (fun _ _ => True) (.new {}) migratedA.1 migratedA.2 :=
    (System.run_play answerA_step (fun x => nomatch x) hmigrated).weaken fun _ _ _ => trivial
  have hmig : migratedA.2.world.Migrated .a :=
    ⟨rfl, rfl, rfl, ⟨⟨true, "pw", [.sequence, .table, .schema, .database]⟩, rfl, rfl, by decide, by decide⟩,
      List.mem_cons_self⟩
  have hplay : (((pods byTime podA TenantId.a.role).play podAnswer (fun _ _ => true)
      ⟨{ db := migratedA.2.world, rows := [] }, none⟩ createThenRead).bind fun p =>
        ((pods byTime podA TenantId.a.role).move podAnswer p (.run {})).map (·.1)) =
      some (.run (spoofed .getRecords) ⟨.query 0 (.select 10), .ok
        [⟨0, 0, some "10.0.0.1", some "pod", some "Unknown", some "hello", "a"⟩]⟩) := rfl
  obtain ⟨p, hp, hmove⟩ := Option.bind_eq_some_iff.1 hplay
  obtain ⟨⟨x, p'⟩, hmove, rfl⟩ := Option.map_eq_some_iff.1 hmove
  obtain ⟨ts, hr⟩ := Serial.run_play podAnswer_step (fun _ _ _ => trivial) .nil hp
  obtain ⟨-, hown, -⟩ := pod_isolated hscripts hmig rfl hr
  exact ⟨_, rfl, hown _ _ _ _ _ (Serial.step_move podAnswer_step hmove) _ List.mem_cons_self⟩

end NtierLab
