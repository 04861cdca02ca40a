import Mathlib.Data.List.Basic

/-!
# Programs that issue commands

A program over a *signature* of commands either returns a value, fails with an
error, or issues a command and goes on with a program chosen by the response
(`Prog`): the free monad of the signature, with failures. Its tree is
well-founded, so a program ends in every world, but it branches on every
response, whatever the world makes of its commands.

* `Prog.bind`, `Prog.rescue`, `Prog.ensuring`: the combinators of `do` blocks with
  exceptions;
* a *handler* says what the world may answer to a command; the executions of a
  program under a handler (`Prog.Exec`) record their *trace*, the commands
  issued with the responses;
* `Prog.eval`: the execution resolved by an oracle, computable.
-/

namespace NtierLab

/-- A signature: commands, each with the type of its responses. -/
structure Sig where
  Cmd : Type
  Resp : Cmd → Type

/-- A command issued, with the response to it. -/
structure Event (S : Sig) where
  cmd : S.Cmd
  resp : S.Resp cmd

/-- The commands issued by an execution, in order. -/
abbrev Trace (S : Sig) := List (Event S)

/-- The programs over `S` failing with errors in `ε` and returning values in `α`. -/
inductive Prog (S : Sig) (ε α : Type) where
  | ret (a : α)
  | fail (e : ε)
  | call (c : S.Cmd) (k : S.Resp c → Prog S ε α)

/-- What the world may answer to a command, and how it changes. -/
abbrev Handler (S : Sig) (W : Type) := (c : S.Cmd) → W → S.Resp c → W → Prop

namespace Prog

variable {S : Sig} {ε α β γ W : Type}

/-- Sequencing: `f` goes on with the value returned, a failure ends the program. -/
protected def bind : Prog S ε α → (α → Prog S ε β) → Prog S ε β
  | ret a, f => f a
  | fail e, _ => fail e
  | call c k, f => call c fun r => (k r).bind f

/-- Catching: `h` goes on with the error of a failure. -/
protected def rescue : Prog S ε α → (ε → Prog S ε α) → Prog S ε α
  | ret a, _ => ret a
  | fail e, h => h e
  | call c k, h => call c fun r => (k r).rescue h

/-- Running `q` after `p`, whether `p` returns or fails; a failure of `q` replaces the
    outcome of `p`. -/
protected def ensuring (p : Prog S ε α) (q : Prog S ε Unit) : Prog S ε α :=
  match p with
  | ret a => q.bind fun _ => ret a
  | fail e => q.bind fun _ => fail e
  | call c k => call c fun r => (k r).ensuring q

/-- Issuing a command, and returning the response. -/
def perform (c : S.Cmd) : Prog S ε (S.Resp c) := call c ret

/-- An outcome, as a program: the value returned, or the error raised. -/
def result : Except ε α → Prog S ε α
  | .ok a => ret a
  | .error e => fail e

instance : Monad (Prog S ε) where
  pure := ret
  bind := Prog.bind

instance : MonadExceptOf ε (Prog S ε) where
  throw := fail
  tryCatch := Prog.rescue

theorem bind_ret (p : Prog S ε α) : p.bind ret = p := by
  induction p with
  | ret a => rfl
  | fail e => rfl
  | call c k ih => exact congrArg (call c) (funext ih)

/-- A handler that raises what it catches. -/
theorem rescue_fail (p : Prog S ε α) : p.rescue fail = p := by
  induction p with
  | ret a => rfl
  | fail e => rfl
  | call c k ih => exact congrArg (call c) (funext ih)

theorem bind_assoc (p : Prog S ε α) (f : α → Prog S ε β) (g : β → Prog S ε γ) :
    (p.bind f).bind g = p.bind fun a => (f a).bind g := by
  induction p with
  | ret a => rfl
  | fail e => rfl
  | call c k ih => exact congrArg (call c) (funext ih)

instance : LawfulMonad (Prog S ε) := 
  LawfulMonad.mk' (Prog S ε) bind_ret (fun _ _ => rfl) bind_assoc

/-- The executions of a program under a handler: from a world, its trace, its outcome
    and the world it ends in. -/
inductive Exec (h : Handler S W) : Prog S ε α → W → Trace S → Except ε α → W → Prop
  | ret {a : α} {w : W} : Exec h (ret a) w [] (.ok a) w
  | fail {e : ε} {w : W} : Exec h (fail e) w [] (.error e) w
  | call {c : S.Cmd} {k : S.Resp c → Prog S ε α} {w w' w'' : W} {r : S.Resp c} {t : Trace S}
      {x : Except ε α} : h c w r w' → Exec h (k r) w' t x w'' →
      Exec h (call c k) w (⟨c, r⟩ :: t) x w''

section

variable {h : Handler S W} {w w' : W} {t : Trace S}

/-- The execution of a sequence: one of its first part that fails, or one that returns and one
    of its second part. -/
theorem Exec.of_bind {p : Prog S ε α} {f : α → Prog S ε β} {x : Except ε β}
    (hx : Exec h (p.bind f) w t x w') :
    (∃ e, x = .error e ∧ Exec h p w t (.error e) w') ∨
      ∃ a t₁ t₂ w₁, t = t₁ ++ t₂ ∧ Exec h p w t₁ (.ok a) w₁ ∧ Exec h (f a) w₁ t₂ x w' := by
  induction p generalizing w t with
  | ret a => exact .inr ⟨a, [], t, w, rfl, .ret, hx⟩
  | fail e => cases hx; exact .inl ⟨e, rfl, .fail⟩
  | call c k ih =>
    cases hx with
    | call hr hx =>
      rcases ih _ hx with ⟨e, rfl, hk⟩ | ⟨a, t₁, t₂, w₁, rfl, h₁, h₂⟩
      · exact .inl ⟨e, rfl, .call hr hk⟩
      · exact .inr ⟨a, _ :: t₁, t₂, w₁, rfl, .call hr h₁, h₂⟩

/-- The execution of a program with a handler of errors: one of the program that returns, or
    one that fails and one of the handler. -/
theorem Exec.of_rescue {p : Prog S ε α} {q : ε → Prog S ε α} {x : Except ε α}
    (hx : Exec h (p.rescue q) w t x w') :
    (∃ a, x = .ok a ∧ Exec h p w t (.ok a) w') ∨
      ∃ e t₁ t₂ w₁, t = t₁ ++ t₂ ∧ Exec h p w t₁ (.error e) w₁ ∧ Exec h (q e) w₁ t₂ x w' := by
  induction p generalizing w t with
  | ret a => cases hx; exact .inl ⟨a, rfl, .ret⟩
  | fail e => exact .inr ⟨e, [], t, w, rfl, .fail, hx⟩
  | call c k ih =>
    cases hx with
    | call hr hx =>
      rcases ih _ hx with ⟨a, rfl, hk⟩ | ⟨e, t₁, t₂, w₁, rfl, h₁, h₂⟩
      · exact .inl ⟨a, rfl, .call hr hk⟩
      · exact .inr ⟨e, _ :: t₁, t₂, w₁, rfl, .call hr h₁, h₂⟩

end

/-- The execution resolved by an oracle, which chooses how the world answers the `n`-th
    command. -/
def eval {χ : Type} (f : χ → (c : S.Cmd) → W → S.Resp c × W) (o : ℕ → χ) :
    Prog S ε α → ℕ → W → Trace S × Except ε α × W
  | ret a, _, w => ([], .ok a, w)
  | fail e, _, w => ([], .error e, w)
  | call c k, n, w =>
    let a := f (o n) c w
    let b := eval f o (k a.1) (n + 1) a.2
    (⟨c, a.1⟩ :: b.1, b.2)

/-- What the oracle chooses is an execution. -/
theorem exec_eval {χ : Type} {f : χ → (c : S.Cmd) → W → S.Resp c × W} {h : Handler S W}
    (hf : ∀ x c w, h c w (f x c w).1 (f x c w).2) (o : ℕ → χ) (p : Prog S ε α) (n : ℕ) (w : W) :
    Exec h p w (p.eval f o n w).1 (p.eval f o n w).2.1 (p.eval f o n w).2.2 := by
  induction p generalizing n w with
  | ret a => exact .ret
  | fail e => exact .fail
  | call c k ih => exact .call (hf _ _ _) (ih _ _ _)

end Prog

end NtierLab
