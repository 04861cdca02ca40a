import Mathlib.Data.Finset.Basic
import NtierLab.Prog.Logic
import NtierLab.Prog.System

/-!
# Tables of jobs

A system may keep a *table of jobs*: the set of the keys in flight. A command admits a job
of a key, which it starts, or refuses it, and a job takes its key off the table when it ends.

* `JobTable`: what the commands, the jobs and the other operations do to the table;
* `Prog.Closes`: a program that takes its key off the table, whatever it is answered, and
  does nothing after it; `closes_ensuring`: cleaning up on the way out is enough;
* `JobTable.Kept`: a key in flight has one job that has not ended, and another key has none;
* `JobTable.Kept.event`: a job is admitted if and only if none of its key is under way.
-/

namespace NtierLab

open Prog
open NtierLab.System (Guard Run Step)

variable {S : Sig} {ε ι E W K α : Type}

/-- What an event does to a table of jobs. -/
inductive TableEvent (K : Type)
  | accept (k : K)
  | refuse (k : K)
  | finish (k : K)
  | other

namespace TableEvent

/-- The keys of the jobs started. -/
def starts : TableEvent K → List K
  | accept k => [k]
  | _ => []

/-- The keys in flight before and after. -/
def Takes [DecidableEq K] (s s' : Finset K) : TableEvent K → Prop
  | accept k => k ∉ s ∧ s' = insert k s
  | refuse k => k ∈ s ∧ s' = s
  | finish k => s' = s.erase k
  | other => s' = s

end TableEvent

namespace Prog

/-- The program has a command to issue. -/
def isCall : Prog S ε α → Bool
  | call _ _ => true
  | _ => false

@[simp] theorem isCall_call (c : S.Cmd) (k : S.Resp c → Prog S ε α) :
    (call c k).isCall = true := rfl

/-- The program ends by taking the key off the table, whatever it is answered. -/
def Closes (event : Event S → TableEvent K) (k : K) : Prog S ε α → Prop
  | ret _ | fail _ => False
  | call c f => ∀ r, event ⟨c, r⟩ = .finish k ∧ (f r).isCall = false ∨
      event ⟨c, r⟩ = .other ∧ (f r).Closes event k

/-- The program takes no key off the table. -/
def NeverFinishes (event : Event S → TableEvent K) (p : Prog S ε α) : Prop :=
  p.Calls fun c => ∀ r k, event ⟨c, r⟩ ≠ .finish k

variable {event : Event S → TableEvent K} {k : K}

theorem Closes.isCall {p : Prog S ε α} (h : p.Closes event k) : p.isCall = true := by
  cases p with
  | call c f => rfl
  | ret a => exact h.elim
  | fail e => exact h.elim

/-- A program that leaves the table alone, then takes the key off it, whether it returned or
    failed. -/
theorem closes_ensuring {p : Prog S ε α} {c : S.Cmd} {f : S.Resp c → Prog S ε Unit}
    (hp : p.Calls fun c => ∀ r, event ⟨c, r⟩ = .other) (hc : ∀ r, event ⟨c, r⟩ = .finish k)
    (hf : ∀ r, (f r).isCall = false) : (p.ensuring (call c f)).Closes event k := by
  have hbind (r : S.Resp c) (g : Unit → Prog S ε α) (hg : (g ()).isCall = false) :
      ((f r).bind g).isCall = false := by
    cases hr : f r with
    | ret u => exact hg
    | fail e => rfl
    | call c' f' => exact absurd (hr ▸ hf r) (by simp [Prog.isCall])
  induction p with
  | ret a => exact fun r => .inl ⟨hc r, hbind r _ rfl⟩
  | fail e => exact fun r => .inl ⟨hc r, hbind r _ rfl⟩
  | call c' k' ih => exact fun r => .inr ⟨hp.1 r, ih r (hp.2 r)⟩

end Prog

/-- A table of the jobs of a system, by their keys. -/
structure JobTable (M : System S ε ι E W) (K : Type) [DecidableEq K] where
  /-- The keys in flight. -/
  inflight : W → Finset K
  /-- The key of a job. -/
  key : ι → Option K
  event : Event S → TableEvent K
  step : ∀ {c w r w'}, M.step c w r w' → (event ⟨c, r⟩).Takes (inflight w) (inflight w')
  env : ∀ {x w w'}, M.env x w w' → inflight w' = inflight w
  /-- A job is started by the command that admits it. -/
  fork : ∀ e, (M.fork e).filterMap key = (event e).starts
  /-- A job takes its key off the table at its end, and no other operation does. -/
  job : ∀ {i k}, key i = some k → (M.prog i).Closes event k
  request : ∀ {i}, key i = none → (M.prog i).NeverFinishes event

namespace JobTable

variable {M : System S ε ι E W} [DecidableEq K] (T : JobTable M K)

/-- The thread is a job of the key, and has not ended. -/
def active (k : K) (th : Thread S ε ι) : Bool := decide (T.key th.op = some k) && th.prog.isCall

/-- The number of the jobs of a key that have not ended. -/
def jobs (k : K) (p : Config S ε ι W) : ℕ := p.threads.countP (T.active k)

/-- What is left of the program of a thread. -/
def Goes (th : Thread S ε ι) : Prop :=
  match T.key th.op with
  | some k => th.prog.isCall = true → th.prog.Closes T.event k
  | none => th.prog.NeverFinishes T.event

/-- A key in flight has one job that has not ended, another key has none. -/
structure Kept (p : Config S ε ι W) : Prop where
  goes : ∀ th ∈ p.threads, T.Goes th
  jobs : ∀ k, T.jobs k p = if k ∈ T.inflight p.world then 1 else 0

/-- Jobs are started by the commands that accept them only. -/
def Outside : Guard S ε ι E W := fun _ l => ∀ i, l = .start i → T.key i = none

variable {T} {p p₀ p' : Config S ε ι W} {ls : List (Label S ι E)} {n : ℕ} {i : ι} {e : Event S}
  {k : K}

theorem active_eq_false {th : Thread S ε ι} (h : T.key th.op ≠ some k) : T.active k th = false := by
  simp [active, h]

theorem goes_thread (i : ι) : T.Goes (M.thread i) := by
  unfold Goes
  split
  · next k hk => exact fun _ => T.job hk
  · next hk => exact T.request hk

/-- The jobs of a key that a command starts. -/
theorem jobs_fork (e : Event S) :
    ((M.fork e).map M.thread).countP (T.active k) = (T.event e).starts.count k := by
  rw [← T.fork e, List.count_filterMap, List.countP_map]
  congr 1
  funext i
  cases hi : T.key i with
  | none => simp [active, System.thread, hi]
  | some k' =>
    simp only [Function.comp_apply, active, System.thread, hi, (T.job hi).isCall, Bool.and_true,
      Option.some.injEq]
    exact Bool.decide_congr (by simp)

/-- The jobs of a key after a step: the thread that ran may have ended, and the command may
    have started one. -/
theorem jobs_run {t : Trace S} {f : S.Resp e.cmd → Prog S ε Unit}
    (hn : p.threads[n]? = some ⟨i, t, call e.cmd f⟩)
    (hthreads : p'.threads =
      p.threads.set n ⟨i, t ++ [e], f e.resp⟩ ++ (M.fork e).map M.thread) :
    T.jobs k p' + (T.active k ⟨i, t, call e.cmd f⟩).toNat =
      T.jobs k p + (T.active k ⟨i, t ++ [e], f e.resp⟩).toNat + (T.event e).starts.count k := by
  obtain ⟨hlt, hget⟩ := List.getElem?_eq_some_iff.1 hn
  have hle : (T.active k ⟨i, t, call e.cmd f⟩).toNat ≤ T.jobs k p := by
    cases h : T.active k ⟨i, t, call e.cmd f⟩ with
    | false => exact Nat.zero_le _
    | true => exact List.countP_pos_iff.2 ⟨_, List.mem_of_getElem? hn, h⟩
  have hset := List.countP_set (p := T.active k) (a := ⟨i, t ++ [e], f e.resp⟩) hlt
  rw [hget] at hset
  have hnat (b : Bool) : (if b = true then 1 else 0) = b.toNat := by cases b <;> rfl
  rw [hnat, hnat] at hset
  unfold jobs at hle ⊢
  rw [hthreads, List.countP_append, jobs_fork, hset]
  omega

/-- A job that runs leaves the table alone, or takes its key off it and ends. -/
theorem Kept.job_run (hp : T.Kept p) {t : Trace S} {f : S.Resp e.cmd → Prog S ε Unit}
    (hn : p.threads[n]? = some ⟨i, t, call e.cmd f⟩) (hk : T.key i = some k) :
    T.event e = .finish k ∧ (f e.resp).isCall = false ∨
      T.event e = .other ∧ (f e.resp).Closes T.event k := by
  have h := hp.goes _ (List.mem_of_getElem? hn)
  unfold Goes at h
  rw [hk] at h
  exact h rfl e.resp

/-- An operation that is no job takes no key off the table. -/
theorem Kept.request_run (hp : T.Kept p) {t : Trace S} {f : S.Resp e.cmd → Prog S ε Unit}
    (hn : p.threads[n]? = some ⟨i, t, call e.cmd f⟩) (hk : T.key i = none) :
    (∀ k, T.event e ≠ .finish k) ∧ (f e.resp).NeverFinishes T.event := by
  have h := hp.goes _ (List.mem_of_getElem? hn)
  unfold Goes at h
  rw [hk] at h
  exact ⟨h.1 e.resp, h.2 e.resp⟩

theorem Kept.goes_run (hp : T.Kept p) (hst : M.Step p (.run n i e) p') :
    ∀ th ∈ p'.threads, T.Goes th := by
  intro th hth
  rcases hst.mem_threads hth with hth | ⟨j, rfl⟩ | ⟨m, j, t, c, f, r, hm, hl, rfl⟩
  · exact hp.goes th hth
  · exact goes_thread j
  · cases hl
    unfold Goes
    split
    · next k hk =>
      intro hcall
      rcases hp.job_run (e := ⟨c, r⟩) hm hk with ⟨-, hend⟩ | ⟨-, hcloses⟩
      · exact absurd (hend.symm.trans hcall) (by simp)
      · exact hcloses
    · next hk =>
      exact (hp.request_run (e := ⟨c, r⟩) hm hk).2

theorem Kept.jobs_kept (hp : T.Kept p) (hst : M.Step p (.run n i e) p') (k : K) :
    T.jobs k p' = if k ∈ T.inflight p'.world then 1 else 0 := by
  obtain ⟨t, f, hn, hw, hthreads⟩ := hst.run_inv
  have hjobs := jobs_run (T := T) (k := k) hn hthreads
  have htakes : (T.event e).Takes _ _ := T.step hw
  rw [hp.jobs k] at hjobs
  cases hkey : T.key i with
  | none =>
    -- A request is no job of any key: it may start one.
    rw [active_eq_false (by simp [hkey]), active_eq_false (by simp [hkey])] at hjobs
    have hnever := (hp.request_run hn hkey).1
    cases hevent : T.event e with
    | accept k' =>
      rw [hevent] at hjobs htakes
      obtain ⟨hfree, hin⟩ := htakes
      rw [hin]
      by_cases hk : k = k'
      · subst hk
        simpa [hfree, TableEvent.starts] using hjobs
      · simpa [hk, Ne.symm hk, TableEvent.starts] using hjobs
    | refuse k' =>
      rw [hevent] at htakes
      obtain ⟨-, hin⟩ := htakes
      rw [hin]
      simpa [hevent, TableEvent.starts] using hjobs
    | finish k' => exact absurd hevent (hnever k')
    | other =>
      rw [hevent] at htakes
      have hin : T.inflight p'.world = T.inflight p.world := htakes
      rw [hin]
      simpa [hevent, TableEvent.starts] using hjobs
  | some k' =>
    rcases hp.job_run hn hkey with ⟨hevent, hend⟩ | ⟨hevent, hcloses⟩
    · -- The job ends: it was the one in flight.
      rw [hevent] at htakes
      have hin : T.inflight p'.world = (T.inflight p.world).erase k' := htakes
      rw [hin]
      by_cases hk : k = k'
      · subst hk
        simp only [active, hkey, hend, hevent, TableEvent.starts, isCall_call, decide_true,
          Bool.and_true, Bool.and_false, Bool.toNat_true, Bool.toNat_false, List.count_nil] at hjobs
        rw [if_neg (Finset.notMem_erase _ _)]
        split at hjobs <;> omega
      · simpa [active, hkey, Ne.symm hk, hk, hevent, TableEvent.starts] using hjobs
    · rw [hevent] at htakes
      have hin : T.inflight p'.world = T.inflight p.world := htakes
      rw [hin]
      simpa [active, hkey, hcloses.isCall, hevent, TableEvent.starts] using hjobs

/-- A step of a thread. -/
theorem Kept.run (hp : T.Kept p) (hst : M.Step p (.run n i e) p') : T.Kept p' where
  goes := hp.goes_run hst
  jobs := hp.jobs_kept hst

/-- An operation that arrives, and is no job. -/
theorem Kept.start (hp : T.Kept p) (hi : T.key i = none) (hst : M.Step p (.start i) p') :
    T.Kept p' := by
  cases hst with
  | @start w ts i =>
  refine ⟨fun th hth => ?_, fun k => ?_⟩
  · rcases List.mem_append.1 hth with h | h
    · exact hp.goes th h
    · exact List.mem_singleton.1 h ▸ goes_thread i
  · have hnew : T.active k (M.thread i) = false := active_eq_false (by simp [System.thread, hi])
    have hold := hp.jobs k
    unfold JobTable.jobs at hold ⊢
    simpa [List.countP_append, hnew] using hold

theorem Kept.env {x : E} (hp : T.Kept p) (hst : M.Step p (.env x) p') : T.Kept p' := by
  cases hst with
  | env hx => exact ⟨hp.goes, fun k => by rw [T.env hx]; exact hp.jobs k⟩

theorem kept_new {w : W} (hw : T.inflight w = ∅) : T.Kept (.new w) where
  goes th h := nomatch h
  jobs k := by simp [JobTable.jobs, Config.new, hw]

/-- In every run in which jobs are started by the commands that accept them, the table is kept. -/
theorem kept_of_run {G : Guard S ε ι E W} (hG : ∀ p l, G p l → T.Outside p l) (h₀ : T.Kept p₀)
    (hr : M.Run G p₀ ls p) : T.Kept p :=
  hr.invariant (I := fun _ p => T.Kept p) h₀ fun _ p l p' hp hg hst => by
    cases l with
    | start i => exact hp.start (hG p _ hg i rfl) hst
    | run n i e => exact hp.run hst
    | env x => exact hp.env hst

/-- A job is admitted when none of its key is under way, and refused when one is. -/
theorem Kept.event (hp : T.Kept p) (hst : M.Step p (.run n i e) p') :
    (T.event e = .accept k → T.jobs k p = 0) ∧ (T.event e = .refuse k → T.jobs k p = 1) := by
  obtain ⟨t, f, hn, hw, -⟩ := hst.run_inv
  have htakes : (T.event e).Takes _ _ := T.step hw
  constructor
  · intro h
    rw [h] at htakes
    rw [hp.jobs, if_neg htakes.1]
  · intro h
    rw [h] at htakes
    rw [hp.jobs, if_pos htakes.1]

/-- The jobs of a key under way are not more than before, unless one is admitted. -/
theorem Kept.jobs_le (hp : T.Kept p) {l : Label S ι E} (hl : T.Outside p l) (hst : M.Step p l p')
    (he : ∀ n i e, l = .run n i e → T.event e ≠ .accept k) : T.jobs k p' ≤ T.jobs k p := by
  cases l with
  | start i =>
    rw [(hp.start (hl i rfl) hst).jobs, hp.jobs]
    cases hst with
    | start i => exact le_rfl
  | env x =>
    rw [(hp.env hst).jobs, hp.jobs]
    cases hst with
    | env hx => rw [T.env hx]
  | run n i e =>
    rw [(hp.run hst).jobs, hp.jobs]
    obtain ⟨t, f, hn, hw, -⟩ := hst.run_inv
    have htakes : (T.event e).Takes _ _ := T.step hw
    have hne := he n i e rfl
    cases hevent : T.event e with
    | accept k' =>
      rw [hevent] at htakes
      obtain ⟨-, hin⟩ := htakes
      have hk : k ≠ k' := fun h => hne (h ▸ hevent)
      simp [hin, hk]
    | refuse k' =>
      rw [hevent] at htakes
      obtain ⟨-, hin⟩ := htakes
      rw [hin]
    | finish k' =>
      rw [hevent] at htakes
      have hin : T.inflight p'.world = (T.inflight p.world).erase k' := htakes
      rw [hin]
      split <;> split <;> simp_all
    | other =>
      rw [hevent] at htakes
      have hin : T.inflight p'.world = T.inflight p.world := htakes
      rw [hin]

/-- After a job of the key has ended, none is under way until the next is admitted. -/
theorem jobs_zero_of_run {G : Guard S ε ι E W} (hG : ∀ p l, G p l → T.Outside p l)
    (h₀ : T.Kept p₀) (hzero : T.jobs k p₀ = 0) (hr : M.Run G p₀ ls p)
    (hls : ∀ n i e, .run n i e ∈ ls → T.event e ≠ .accept k) : T.jobs k p = 0 := by
  induction hr with
  | nil => exact hzero
  | snoc hr hg hst ih =>
    have hp := kept_of_run hG h₀ hr
    have hle := hp.jobs_le (hG _ _ hg) hst fun n i e hl => hls n i e (by simp [hl])
    have := ih fun n i e he => hls n i e (by simp [he])
    omega

end JobTable

end NtierLab
