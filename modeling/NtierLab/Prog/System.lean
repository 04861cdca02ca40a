import NtierLab.Prog.Monitor

/-!
# Systems of concurrent programs

A *system* runs any number of programs on one world, each started for an
operation, interleaved command by command, while the world also moves by itself.
A command may start further operations (a thread, a job).

* `System.Step`, `System.Run`: the steps, labelled, and the runs whose every step
  meets a guard on the configuration before it;
* `Run.invariant`: what every step preserves holds in every configuration reached;
* `Run.obeys`: a program that obeys a monitor alone obeys it in every run, on the
  history of its thread, whatever the other threads do;
* `Run.meets`: and its threads meet the postcondition of its program;
* `System.play`: the run resolved by a schedule, computable.
-/

namespace NtierLab

open Prog

variable {S : Sig} {ε ι E W σ : Type}

/-- A thread: the operation it was started for, the commands it has issued, and the
    program it goes on with. -/
structure Thread (S : Sig) (ε ι : Type) where
  op : ι
  hist : Trace S
  prog : Prog S ε Unit

/-- A thread goes on as long as its program issues commands. -/
def Thread.Live (th : Thread S ε ι) : Prop := ∃ c k, th.prog = call c k

/-- A system of operations on a world. -/
structure System (S : Sig) (ε ι E W : Type) where
  /-- The program of an operation. -/
  prog : ι → Prog S ε Unit
  /-- The commands on the world. -/
  step : Handler S W
  /-- The moves of the world itself. -/
  env : E → W → W → Prop
  /-- The operations a command starts. -/
  fork : Event S → List ι

/-- The world and the threads on it, in the order they were started. -/
structure Config (S : Sig) (ε ι W : Type) where
  world : W
  threads : List (Thread S ε ι)

/-- A world on which nothing was started. -/
def Config.new (w : W) : Config S ε ι W := ⟨w, []⟩

/-- What happens in a step: an operation is requested, the thread `n` of the operation `i`
    issues a command, or the world moves. -/
inductive Label (S : Sig) (ι E : Type) where
  | start (i : ι)
  | run (n : ℕ) (i : ι) (e : Event S)
  | env (x : E)

namespace System

variable (M : System S ε ι E W)

/-- The thread of an operation just started. -/
def thread (i : ι) : Thread S ε ι := ⟨i, [], M.prog i⟩

/-- The steps of a system. -/
inductive Step : Config S ε ι W → Label S ι E → Config S ε ι W → Prop
  | start {w : W} {ts : List (Thread S ε ι)} (i : ι) :
      Step ⟨w, ts⟩ (.start i) ⟨w, ts ++ [M.thread i]⟩
  | run {w w' : W} {ts : List (Thread S ε ι)} {n : ℕ} {i : ι} {t : Trace S} {c : S.Cmd}
      {k : S.Resp c → Prog S ε Unit} {r : S.Resp c} :
      ts[n]? = some ⟨i, t, call c k⟩ → M.step c w r w' →
      Step ⟨w, ts⟩ (.run n i ⟨c, r⟩)
        ⟨w', ts.set n ⟨i, t ++ [⟨c, r⟩], k r⟩ ++ (M.fork ⟨c, r⟩).map M.thread⟩
  | env {w w' : W} {ts : List (Thread S ε ι)} {x : E} :
      M.env x w w' → Step ⟨w, ts⟩ (.env x) ⟨w', ts⟩

/-- A guard on steps: the steps that may be taken from a configuration. -/
abbrev Guard (S : Sig) (ε ι E W : Type) := Config S ε ι W → Label S ι E → Prop

/-- The runs from `p₀` whose every step meets the guard, with their labels. -/
inductive Run (G : Guard S ε ι E W) (p₀ : Config S ε ι W) :
    List (Label S ι E) → Config S ε ι W → Prop
  | nil : Run G p₀ [] p₀
  | snoc {ls : List (Label S ι E)} {p p' : Config S ε ι W} {l : Label S ι E} :
      Run G p₀ ls p → G p l → M.Step p l p' → Run G p₀ (ls ++ [l]) p'

variable {M} {G : Guard S ε ι E W} {p₀ p p' : Config S ε ι W} {ls : List (Label S ι E)}
  {l : Label S ι E}

/-- What holds initially and is preserved by every step holds in every configuration
    reached. -/
theorem Run.invariant {I : List (Label S ι E) → Config S ε ι W → Prop} (h₀ : I [] p₀)
    (hs : ∀ ls p l p', I ls p → G p l → M.Step p l p' → I (ls ++ [l]) p')
    (hr : M.Run G p₀ ls p) : I ls p := by
  induction hr with
  | nil => exact h₀
  | snoc _ hg hst ih => exact hs _ _ _ _ ih hg hst

theorem Run.weaken {G' : Guard S ε ι E W} (hG : ∀ p l, G p l → G' p l)
    (hr : M.Run G p₀ ls p) : M.Run G' p₀ ls p := by
  induction hr with
  | nil => exact .nil
  | snoc _ hg hst ih => exact .snoc ih (hG _ _ hg) hst

theorem Run.trans {ls' : List (Label S ι E)} (hr : M.Run G p₀ ls p) (hr' : M.Run G p ls' p') :
    M.Run G p₀ (ls ++ ls') p' := by
  induction hr' with
  | nil => simpa using hr
  | snoc _ hg hst ih => rw [← List.append_assoc]; exact .snoc ih hg hst

/-! ## Threads after a step -/

/-- A thread that runs issues its command, and goes on with the response. -/
theorem Step.run_inv {n : ℕ} {i : ι} {e : Event S} (hst : M.Step p (.run n i e) p') :
    ∃ t k, p.threads[n]? = some ⟨i, t, call e.cmd k⟩ ∧ M.step e.cmd p.world e.resp p'.world ∧
      p'.threads = p.threads.set n ⟨i, t ++ [e], k e.resp⟩ ++ (M.fork e).map M.thread := by
  cases hst with
  | run hn hr => exact ⟨_, _, hn, hr, rfl⟩

/-- The threads after a step: those before it, the one that ran having issued its command,
    and those just started, by a request or by the command. -/
theorem Step.thread_at (hst : M.Step p l p') {n : ℕ} {th : Thread S ε ι}
    (hth : p'.threads[n]? = some th) :
    p.threads[n]? = some th ∨ (∃ i, l = .start i ∧ th = M.thread i) ∨
      (∃ i t c k r, p.threads[n]? = some ⟨i, t, call c k⟩ ∧ l = .run n i ⟨c, r⟩ ∧
        th = ⟨i, t ++ [⟨c, r⟩], k r⟩) ∨
      ∃ m i e j, l = .run m i e ∧ j ∈ M.fork e ∧ th = M.thread j := by
  cases hst with
  | @start w ts i =>
    rcases Nat.lt_or_ge n ts.length with hn | hn
    · exact .inl (by rwa [List.getElem?_append_left hn] at hth)
    · rw [List.getElem?_append_right hn] at hth
      exact .inr (.inl ⟨i, rfl, List.mem_singleton.1 (List.mem_of_getElem? hth)⟩)
  | @run w w' ts m i t c k r hm hr =>
    rcases Nat.lt_or_ge n ts.length with hn | hn
    · rw [List.getElem?_append_left (by simpa using hn), List.getElem?_set] at hth
      split at hth
      · next hmn =>
        subst hmn
        rw [if_pos hn] at hth
        exact .inr (.inr (.inl ⟨i, t, c, k, r, hm, rfl, (Option.some.inj hth).symm⟩))
      · exact .inl hth
    · rw [List.getElem?_append_right (by simpa using hn)] at hth
      obtain ⟨j, hj, rfl⟩ := List.mem_map.1 (List.mem_of_getElem? hth)
      exact .inr (.inr (.inr ⟨m, i, _, j, rfl, hj, rfl⟩))
  | env _ => exact .inl hth

/-- The same, of the threads without their places. -/
theorem Step.mem_threads (hst : M.Step p l p') {th : Thread S ε ι} (hth : th ∈ p'.threads) :
    th ∈ p.threads ∨ (∃ i, th = M.thread i) ∨
      ∃ n i t c k r, p.threads[n]? = some ⟨i, t, call c k⟩ ∧ l = .run n i ⟨c, r⟩ ∧
        th = ⟨i, t ++ [⟨c, r⟩], k r⟩ := by
  obtain ⟨n, hn⟩ := List.mem_iff_getElem?.1 hth
  rcases hst.thread_at hn with h | ⟨i, -, h⟩ | ⟨i, t, c, k, r, h⟩ | ⟨m, i, e, j, -, -, h⟩
  · exact .inl (List.mem_of_getElem? h)
  · exact .inr (.inl ⟨i, h⟩)
  · exact .inr (.inr ⟨n, i, t, c, k, r, h⟩)
  · exact .inr (.inl ⟨j, h⟩)

/-- The event of a step is one of the handler. -/
theorem Step.event_ok {ok : Event S → Prop} (hst : M.Step p l p')
    (hok : ∀ c w r w', M.step c w r w' → ok ⟨c, r⟩) {n : ℕ} {i : ι} {e : Event S}
    (hl : l = .run n i e) : ok e := by
  cases hst with
  | start i => cases hl
  | run hn hr => cases hl; exact hok _ _ _ _ hr
  | env _ => cases hl

end System

/-! ## Monitored threads -/

/-- The threads of a configuration obey a monitor, started in the state of their operation
    and run on their history. -/
def Config.Obeys (m : Monitor S σ) (ok : Event S → Prop) (init : ι → σ) (p : Config S ε ι W) :
    Prop :=
  ∀ th ∈ p.threads, th.prog.Obeys m ok (m.after (init th.op) th.hist)

theorem Config.obeys_new (m : Monitor S σ) (ok : Event S → Prop) (init : ι → σ) (w : W) :
    (.new w : Config S ε ι W).Obeys m ok init := by
  simp [Config.Obeys, Config.new]

namespace System

variable {M : System S ε ι E W} {G : Guard S ε ι E W} {p₀ p p' : Config S ε ι W}
  {ls : List (Label S ι E)} {l : Label S ι E}

section Obeys

variable {m : Monitor S σ} {ok : Event S → Prop} {init : ι → σ}

/-- A command issued by a thread that obeys a monitor is allowed by it. -/
theorem Step.allow {n : ℕ} {i : ι} {e : Event S} (hst : M.Step p (.run n i e) p')
    (hp : p.Obeys m ok init) :
    ∃ th, p.threads[n]? = some th ∧ th.op = i ∧ m.allow (m.after (init i) th.hist) e.cmd := by
  cases hst with
  | run hn hr => exact ⟨_, hn, rfl, (obeys_call.1 (hp _ (List.mem_of_getElem? hn))).1⟩

/-- A step keeps the threads to a monitor which every operation obeys. -/
theorem Step.obeys (hprog : ∀ i, (M.prog i).Obeys m ok (init i))
    (hok : ∀ n i e, l = .run n i e → ok e) (hp : p.Obeys m ok init) (hst : M.Step p l p') :
    p'.Obeys m ok init := by
  intro th hth
  rcases hst.mem_threads hth with hth | ⟨i, rfl⟩ | ⟨n, i, t, c, k, r, hn, rfl, rfl⟩
  · exact hp th hth
  · exact hprog i
  · have := obeys_call.1 (hp _ (List.mem_of_getElem? hn))
    rw [Monitor.after_concat]
    exact this.2 r (hok _ _ _ rfl)

/-- In every run, the threads obey a monitor which every operation obeys. -/
theorem Run.obeys (hprog : ∀ i, (M.prog i).Obeys m ok (init i))
    (hok : ∀ c w r w', M.step c w r w' → ok ⟨c, r⟩) (h₀ : p₀.Obeys m ok init)
    (hr : M.Run G p₀ ls p) : p.Obeys m ok init :=
  hr.invariant (I := fun _ p => p.Obeys m ok init) h₀ fun _ _ _ _ hp _ hst =>
    hst.obeys hprog (fun _ _ _ h => hst.event_ok hok h) hp

/-- In every run, the threads of an operation keep to the postcondition of its program. -/
theorem Run.meets {w : W} {i : ι} {s : σ} {Q : Except ε Unit → σ → Prop}
    (hprog : (M.prog i).wp (m.contract ok) Q s) (hok : ∀ c w r w', M.step c w r w' → ok ⟨c, r⟩)
    (hr : M.Run G (.new w) ls p) : ∀ th ∈ p.threads, th.op = i →
      th.prog.wp (m.contract ok) Q (m.after s th.hist) := by
  induction hr with
  | nil => exact fun th hth => absurd hth List.not_mem_nil
  | snoc _ _ hst ih =>
    rintro th hth rfl
    rcases hst.mem_threads hth with hth | ⟨i, rfl⟩ | ⟨n, i, t, c, k, r, hn, hl, rfl⟩
    · exact ih th hth rfl
    · exact hprog
    · have hcall := ih _ (List.mem_of_getElem? hn) rfl
      rw [Monitor.after_concat]
      exact hcall.2 r _ ⟨hst.event_ok hok hl, rfl⟩

end Obeys

/-- In every run, the threads of an operation issue the commands of its program only. -/
theorem Run.calls {w : W} {i : ι} {P : S.Cmd → Prop} (hprog : (M.prog i).Calls P)
    (hr : M.Run G (.new w) ls p) : ∀ th ∈ p.threads, th.op = i →
      th.prog.Calls P ∧ ∀ e ∈ th.hist, P e.cmd := by
  induction hr with
  | nil => exact fun th hth => absurd hth List.not_mem_nil
  | snoc _ _ hst ih =>
    rintro th hth rfl
    rcases hst.mem_threads hth with hth | ⟨i, rfl⟩ | ⟨n, i, t, c, k, r, hn, -, rfl⟩
    · exact ih th hth rfl
    · exact ⟨hprog, fun e he => absurd he List.not_mem_nil⟩
    · obtain ⟨hcall, hhist⟩ := ih _ (List.mem_of_getElem? hn) rfl
      refine ⟨hcall.2 r, fun e he => ?_⟩
      rcases List.mem_append.1 he with he | he
      · exact hhist e he
      · obtain rfl := List.mem_singleton.1 he
        exact hcall.1

/-! ## Runs resolved by a schedule -/

/-- What a schedule chooses: to start an operation, to run a thread with a choice of the
    response, or to move the world. -/
inductive Move (ι E χ : Type) where
  | start (i : ι)
  | run (n : ℕ) (x : χ)
  | env (x : E)

variable {χ : Type}

/-- A move of a schedule, if it is possible. -/
def move (M : System S ε ι E W) (f : χ → (c : S.Cmd) → W → S.Resp c × W) (g : E → W → Option W)
    (p : Config S ε ι W) : Move ι E χ → Option (Label S ι E × Config S ε ι W)
  | .start i => some (.start i, ⟨p.world, p.threads ++ [M.thread i]⟩)
  | .run n x =>
    match p.threads[n]? with
    | some ⟨i, t, call c k⟩ =>
      let a := f x c p.world
      some (.run n i ⟨c, a.1⟩,
        ⟨a.2, p.threads.set n ⟨i, t ++ [⟨c, a.1⟩], k a.1⟩ ++ (M.fork ⟨c, a.1⟩).map M.thread⟩)
    | _ => none
  | .env x => (g x p.world).map fun w => (.env x, ⟨w, p.threads⟩)

/-- The run of a schedule, if each of its moves is possible and `ok`. -/
def play (M : System S ε ι E W) (f : χ → (c : S.Cmd) → W → S.Resp c × W) (g : E → W → Option W)
    (ok : Config S ε ι W → Label S ι E → Bool) :
    Config S ε ι W → List (Move ι E χ) → Option (List (Label S ι E) × Config S ε ι W)
  | p, [] => some ([], p)
  | p, x :: xs => (M.move f g p x).bind fun a =>
      if ok p a.1 then (play M f g ok a.2 xs).map fun b => (a.1 :: b.1, b.2) else none

variable {f : χ → (c : S.Cmd) → W → S.Resp c × W} {g : E → W → Option W}
  {ok : Config S ε ι W → Label S ι E → Bool}

theorem step_move (hf : ∀ x c w, M.step c w (f x c w).1 (f x c w).2)
    (hg : ∀ x w w', g x w = some w' → M.env x w w') {x : Move ι E χ}
    (hx : M.move f g p x = some (l, p')) : M.Step p l p' := by
  obtain ⟨w, ts⟩ := p
  cases x with
  | start i =>
    simp only [move, Option.some.injEq, Prod.mk.injEq] at hx
    obtain ⟨rfl, rfl⟩ := hx
    exact .start i
  | run n x =>
    simp only [move] at hx
    split at hx
    · next i t c k hn =>
      simp only [Option.some.injEq, Prod.mk.injEq] at hx
      obtain ⟨rfl, rfl⟩ := hx
      exact .run hn (hf x c w)
    · cases hx
  | env x =>
    simp only [move, Option.map_eq_some_iff, Prod.mk.injEq] at hx
    obtain ⟨w', hw', rfl, rfl⟩ := hx
    exact .env (hg x w w' hw')

/-- What a schedule plays is a run, whose every step is `ok`. -/
theorem run_play (hf : ∀ x c w, M.step c w (f x c w).1 (f x c w).2)
    (hg : ∀ x w w', g x w = some w' → M.env x w w') {xs : List (Move ι E χ)}
    (hx : M.play f g ok p xs = some (ls, p')) : M.Run (fun p l => ok p l = true) p ls p' := by
  induction xs generalizing p ls with
  | nil =>
    simp only [play, Option.some.injEq, Prod.mk.injEq] at hx
    obtain ⟨rfl, rfl⟩ := hx
    exact .nil
  | cons x xs ih =>
    simp only [play, Option.bind_eq_some_iff] at hx
    obtain ⟨⟨l, q⟩, hl, hx⟩ := hx
    split at hx
    · next hok =>
      obtain ⟨⟨ls', q'⟩, hls, hq⟩ := Option.map_eq_some_iff.1 hx
      cases hq
      exact Run.trans (.snoc .nil hok (step_move hf hg hl)) (ih hls)
    · cases hx

end System

end NtierLab
