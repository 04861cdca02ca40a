import NtierLab.Prog.Serial
import NtierLab.Prog.System

/-!
# Crashes

A program may stop between any two of its commands, by a crash of the process that
runs it: the worlds it may leave are those its executions pass through (`Reaches`).

* `Reaches.keeps`: what holds whenever the program issues a command or ends holds
  of every world it may leave;
* `Issues.allowed`: a command is issued only on a world its contract allows;
* `Can`: what a program can do, by the executions of its parts;
* `Prog.crashAt`: the world left after a number of commands, computable.
* `Serial.run_of_reaches`, `System.run_of_reaches`: an operation that crashes is a run, and so
  is one up to a command it issues (`Serial.step_of_issues`).
-/

namespace NtierLab

namespace Prog

variable {S : Sig} {ε α W : Type} {h : Handler S W}

/-- The worlds an execution passes through, the last one included. -/
inductive Reaches (h : Handler S W) : Prog S ε α → W → W → Prop
  | here {p : Prog S ε α} {w : W} : Reaches h p w w
  | call {c : S.Cmd} {k : S.Resp c → Prog S ε α} {w w' w'' : W} {r : S.Resp c} :
      h c w r w' → Reaches h (k r) w' w'' → Reaches h (call c k) w w''

/-- An invariant of the commands issued, along a handler. -/
def keeping (h : Handler S W) (I : W → Prop) : Contract S W where
  pre _ w := I w
  post := h

@[simp] theorem keeping_pre (I : W → Prop) (c : S.Cmd) (w : W) :
    (keeping h I).pre c w ↔ I w := Iff.rfl

@[simp] theorem keeping_post (I : W → Prop) (c : S.Cmd) (w w' : W) (r : S.Resp c) :
    (keeping h I).post c w r w' ↔ h c w r w' := Iff.rfl

variable {p : Prog S ε α} {w w' : W} {I : W → Prop}

/-- What holds at every command, and at the end, holds of every world reached. -/
theorem Reaches.keeps (hr : Reaches h p w w') (hp : p.wp (keeping h I) (fun _ => I) w) : I w' := by
  induction hr with
  | @here p w =>
    cases p with
    | ret a => exact hp
    | fail e => exact hp
    | call c k => exact hp.1
  | call hc _ ih => exact ih (hp.2 _ _ hc)

/-- An execution reaches the world it ends in. -/
theorem Exec.reaches {t : Trace S} {x : Except ε α} (hx : Exec h p w t x w') :
    Reaches h p w w' := by
  induction hx with
  | ret => exact .here
  | fail => exact .here
  | call hc _ ih => exact .call hc ih

/-- An execution along the handler of a contract meets the postcondition of its program. -/
theorem Exec.meets {pre : S.Cmd → W → Prop} {t : Trace S} {x : Except ε α}
    {Q : Except ε α → W → Prop} (hx : Exec h p w t x w') (hp : p.wp ⟨pre, h⟩ Q w) : Q x w' := by
  induction hx with
  | ret => exact hp
  | fail => exact hp
  | call hc _ ih => exact ih (hp.2 _ _ hc)

/-- An execution meets the postcondition of its program along its own handler. -/
theorem Exec.keeps {t : Trace S} {x : Except ε α} {Q : Except ε α → W → Prop}
    (hx : Exec h p w t x w') (hp : p.wp (keeping h I) Q w) : Q x w' := hx.meets hp

/-- An execution where less may be answered. -/
theorem Exec.mono {h' : Handler S W} (hh : ∀ c w r w', h c w r w' → h' c w r w') {t : Trace S}
    {x : Except ε α} (hx : Exec h p w t x w') : Exec h' p w t x w' := by
  induction hx with
  | ret => exact .ret
  | fail => exact .fail
  | call hc _ ih => exact .call (hh _ _ _ _ hc) ih

/-- The commands an execution issues, with the worlds it issues them on. -/
inductive Issues (h : Handler S W) : Prog S ε α → W → S.Cmd → W → Prop
  | here {c : S.Cmd} {k : S.Resp c → Prog S ε α} {w : W} : Issues h (call c k) w c w
  | call {c d : S.Cmd} {k : S.Resp c → Prog S ε α} {w w' w'' : W} {r : S.Resp c} :
      h c w r w' → Issues h (k r) w' d w'' → Issues h (call c k) w d w''

/-- A command issued is one the contract along the handler allows. -/
theorem Issues.allowed {pre : S.Cmd → W → Prop} {c : S.Cmd} {Q : Except ε α → W → Prop}
    (hi : Issues h p w c w') (hp : p.wp ⟨pre, h⟩ Q w) : pre c w' := by
  induction hi with
  | here => exact hp.1
  | call hc _ ih => exact ih (hp.2 _ _ hc)

/-- The execution of a sequence that returns. -/
theorem Exec.of_bind_ok {β : Type} {f : α → Prog S ε β} {t : Trace S} {b : β}
    (hx : Exec h (p.bind f) w t (.ok b) w') :
    ∃ a t₁ t₂ w₁, t = t₁ ++ t₂ ∧ Exec h p w t₁ (.ok a) w₁ ∧ Exec h (f a) w₁ t₂ (.ok b) w' := by
  rcases Exec.of_bind hx with ⟨e, h, -⟩ | hx
  · cases h
  · exact hx

/-- An execution of a sequence, from those of its parts. -/
theorem Exec.bind {β : Type} {f : α → Prog S ε β} {t t' : Trace S} {a : α} {x : Except ε β}
    {w₁ : W} (hp : Exec h p w t (.ok a) w₁) (hf : Exec h (f a) w₁ t' x w') :
    Exec h (p.bind f) w (t ++ t') x w' := by
  generalize hy : (Except.ok a : Except ε α) = y at hp
  induction hp with
  | ret =>
    cases hy
    exact hf
  | fail => cases hy
  | call hc _ ih => exact .call hc (ih hf hy)

section

variable {t t' : Trace S} {w₁ : W}

/-- An execution of a sequence whose first part fails. -/
theorem Exec.bind_error {p : Prog S ε α} {f : α → Prog S ε β} {e : ε}
    (hp : Exec h p w t (.error e) w') : Exec h (p.bind f) w t (.error e) w' := by
  generalize hy : (Except.error e : Except ε α) = y at hp
  induction hp with
  | ret => cases hy
  | fail =>
    cases hy
    exact .fail
  | call hc _ ih => exact .call hc (ih hy)

/-- An execution of a program that fails, and of its handler. -/
theorem Exec.rescue {p : Prog S ε α} {q : ε → Prog S ε α} {e : ε} {x : Except ε α}
    (hp : Exec h p w t (.error e) w₁) (hq : Exec h (q e) w₁ t' x w') :
    Exec h (p.rescue q) w (t ++ t') x w' := by
  generalize hy : (Except.error e : Except ε α) = y at hp
  induction hp with
  | ret => cases hy
  | fail =>
    cases hy
    exact hq
  | call hc _ ih => exact .call hc (ih hq hy)

/-- The execution of a program and of what is run after it. -/
theorem Exec.of_ensuring {p : Prog S ε α} {q : Prog S ε Unit} {x : Except ε α}
    (hx : Exec h (p.ensuring q) w t x w') :
    ∃ y t₁ t₂ w₁ z, t = t₁ ++ t₂ ∧ Exec h p w t₁ y w₁ ∧ Exec h q w₁ t₂ z w' := by
  induction p generalizing w t with
  | ret a =>
    rcases Exec.of_bind hx with ⟨e, -, hq⟩ | ⟨b, t₁, t₂, w₁, rfl, hq, hr⟩
    · exact ⟨_, [], t, w, _, rfl, .ret, hq⟩
    · cases hr
      exact ⟨_, [], t₁ ++ [], w, .ok b, rfl, .ret, by simpa using hq⟩
  | fail e =>
    rcases Exec.of_bind hx with ⟨e', -, hq⟩ | ⟨b, t₁, t₂, w₁, rfl, hq, hr⟩
    · exact ⟨_, [], t, w, _, rfl, .fail, hq⟩
    · cases hr
      exact ⟨_, [], t₁ ++ [], w, .ok b, rfl, .fail, by simpa using hq⟩
  | call c k ih =>
    cases hx with
    | call hr hx =>
      obtain ⟨y, t₁, t₂, w₁, z, rfl, hp, hq⟩ := ih _ hx
      exact ⟨y, _ :: t₁, t₂, w₁, z, rfl, .call hr hp, hq⟩

/-- An execution of a program, and of what is run after it. -/
theorem Exec.ensuring {p : Prog S ε α} {q : Prog S ε Unit} {y : Except ε α}
    {z : Except ε Unit}
    (hp : Exec h p w t y w₁) (hq : Exec h q w₁ t' z w') :
    ∃ x, Exec h (p.ensuring q) w (t ++ t') x w' := by
  induction hp with
  | @ret a w =>
    cases z with
    | ok b =>
      have hx := hq.bind (f := fun _ => Prog.ret a) .ret
      rw [List.append_nil] at hx
      exact ⟨.ok a, hx⟩
    | error e => exact ⟨_, hq.bind_error⟩
  | @fail e w =>
    cases z with
    | ok b =>
      have hx := hq.bind (f := fun _ => Prog.fail (α := α) e) .fail
      rw [List.append_nil] at hx
      exact ⟨.error e, hx⟩
    | error e => exact ⟨_, hq.bind_error⟩
  | call hc _ ih =>
    obtain ⟨x, hx⟩ := ih hq
    exact ⟨x, .call hc hx⟩

end

/-- The program can return, with a value and in a world of `V`. -/
def Can (h : Handler S W) (p : Prog S ε α) (V : α → W → Prop) (w : W) : Prop :=
  ∃ t a w', Exec h p w t (.ok a) w' ∧ V a w'

section

variable {β : Type} {V : α → W → Prop} {V' : β → W → Prop} {f : α → Prog S ε β}

theorem can_pure {a : α} (hv : V a w) : Can h (pure a : Prog S ε α) V w := ⟨[], a, w, .ret, hv⟩

theorem Can.bind (hp : Can h p V w) (hf : ∀ a w', V a w' → Can h (f a) V' w') :
    Can h (p >>= f) V' w := by
  obtain ⟨t, a, w₁, hx, hv⟩ := hp
  obtain ⟨t', b, w₂, hx', hv'⟩ := hf a w₁ hv
  exact ⟨t ++ t', b, w₂, hx.bind hx', hv'⟩

/-- A command that may be answered with a value. -/
theorem can_result {c : S.Cmd} {g : S.Resp c → Except ε α} {r : S.Resp c} {a : α}
    (hc : h c w r w') (hr : g r = .ok a) (hv : V a w') :
    Can h (.call c fun r => result (g r)) V w :=
  ⟨[⟨c, r⟩], a, w', .call hc (by rw [hr]; exact .ret), hv⟩

end

/-- The world left by a crash after `n` commands. -/
def crashAt (f : (c : S.Cmd) → W → S.Resp c × W) : ℕ → Prog S ε α → W → W
  | n + 1, call c k, w => crashAt f n (k (f c w).1) (f c w).2
  | _, _, w => w

theorem reaches_crashAt {f : (c : S.Cmd) → W → S.Resp c × W}
    (hf : ∀ c w, h c w (f c w).1 (f c w).2) (n : ℕ) (p : Prog S ε α) (w : W) :
    Reaches h p w (crashAt f n p w) := by
  induction p generalizing n w with
  | ret a => cases n <;> exact .here
  | fail e => cases n <;> exact .here
  | call c k ih =>
    cases n with
    | zero => exact .here
    | succ n => exact .call (hf c w) (ih _ n _)

end Prog

namespace Serial

open Prog

variable {S : Sig} {ε ι E W : Type} {M : Serial S ε ι E W} {G : W → Turn S ι E → Prop}
  {w₀ w w' : W} {ts : List (Turn S ι E)} {i : ι} {q : Prog S ε Unit}

/-- The operation under way runs on to a world it reaches. -/
theorem run_of_reaches (hG : ∀ w t, G w t) (hr : M.Run G w₀ ts ⟨w, some (i, q)⟩)
    (h : Reaches M.step q w w') : ∃ ts' o, M.Run G w₀ ts' ⟨w', o⟩ := by
  induction h generalizing ts with
  | here => exact ⟨ts, _, hr⟩
  | call hc _ ih => exact ih (.snoc hr (hG _ _) (.run hc))

/-- The operation under way runs on to a command it issues. -/
theorem step_of_issues {c : S.Cmd} {r : S.Resp c} {w'' : W} (hG : ∀ w t, G w t)
    (hr : M.Run G w₀ ts ⟨w, some (i, q)⟩) (h : Issues M.step q w c w') (hc : M.step c w' r w'') :
    ∃ ts' p p', M.Run G w₀ ts' p ∧ M.Step p (.run i ⟨c, r⟩) p' := by
  induction h generalizing ts with
  | here => exact ⟨ts, _, _, hr, .run hc⟩
  | call hc' _ ih => exact ih (.snoc hr (hG _ _) (.run hc')) hc

end Serial

namespace System

open Prog

variable {S : Sig} {ε ι E W : Type} {M : System S ε ι E W}

/-- A thread that runs alone, and may stop anywhere, is a run. -/
theorem run_of_reaches {ts : List (Thread S ε ι)} {n : ℕ} {i : ι} {t : Trace S}
    {q : Prog S ε Unit} {w w' : W} (hfork : ∀ e, M.fork e = []) (h : Reaches M.step q w w')
    (hn : ts[n]? = some ⟨i, t, q⟩) : ∃ ls ts', M.Run (fun _ _ => True) ⟨w, ts⟩ ls ⟨w', ts'⟩ := by
  induction h generalizing ts t with
  | here => exact ⟨[], ts, .nil⟩
  | @call c k w w₁ w' r hc _ ih =>
    have hlt : n < ts.length := (List.getElem?_eq_some_iff.1 hn).1
    have hn' : (ts.set n ⟨i, t ++ [⟨c, r⟩], k r⟩)[n]? = some ⟨i, t ++ [⟨c, r⟩], k r⟩ := by
      rw [List.getElem?_set_self hlt]
    obtain ⟨ls, ts', hr⟩ := ih hn'
    have hst : M.Step ⟨w, ts⟩ (.run n i ⟨c, r⟩) ⟨w₁, ts.set n ⟨i, t ++ [⟨c, r⟩], k r⟩⟩ := by
      have h := Step.run hn hc
      rwa [hfork, List.map_nil, List.append_nil] at h
    exact ⟨_, ts', Run.trans (.snoc .nil trivial hst) hr⟩

/-- A thread that runs alone to its end is a run, which leaves it ended. -/
theorem run_of_exec {ts : List (Thread S ε ι)} {n : ℕ} {i : ι} {t t' : Trace S}
    {q : Prog S ε Unit} {w w' : W} {x : Except ε Unit} (hfork : ∀ e, M.fork e = [])
    (h : Exec M.step q w t' x w') (hn : ts[n]? = some ⟨i, t, q⟩) :
    ∃ ls, M.Run (fun _ _ => True) ⟨w, ts⟩ ls ⟨w', ts.set n ⟨i, t ++ t', result x⟩⟩ := by
  have hset {ts : List (Thread S ε ι)} {th : Thread S ε ι} (hlt : n < ts.length)
      (heq : ts[n] = th) : ts = ts.set n th := by
    rw [← heq, List.set_getElem_self]
  induction h generalizing ts t with
  | ret =>
    obtain ⟨hlt, heq⟩ := List.getElem?_eq_some_iff.1 hn
    refine ⟨[], ?_⟩
    rw [List.append_nil, result, ← hset hlt heq]
    exact .nil
  | fail =>
    obtain ⟨hlt, heq⟩ := List.getElem?_eq_some_iff.1 hn
    refine ⟨[], ?_⟩
    rw [List.append_nil, result, ← hset hlt heq]
    exact .nil
  | @call c k w w₁ w' r t₁ x hc _ ih =>
    have hlt : n < ts.length := (List.getElem?_eq_some_iff.1 hn).1
    have hn' : (ts.set n ⟨i, t ++ [⟨c, r⟩], k r⟩)[n]? = some ⟨i, t ++ [⟨c, r⟩], k r⟩ := by
      rw [List.getElem?_set_self hlt]
    obtain ⟨ls, hr⟩ := ih hn'
    have hst : M.Step ⟨w, ts⟩ (.run n i ⟨c, r⟩) ⟨w₁, ts.set n ⟨i, t ++ [⟨c, r⟩], k r⟩⟩ := by
      have h := Step.run hn hc
      rwa [hfork, List.map_nil, List.append_nil] at h
    rw [List.set_set, List.append_assoc] at hr
    exact ⟨_, Run.trans (.snoc .nil trivial hst) hr⟩

end System

end NtierLab
