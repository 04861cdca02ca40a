import NtierLab.Prog.Logic

/-!
# Operations one after the other

A world on which operations run one at a time (`Serial`): an operation that was
started issues its commands one by one, and the next one may be started at any
point, the one before it being left where it is, done or crashed. Between two
operations the world may move by itself.

* `Serial.Run`: the runs whose every turn meets a guard on the world before it;
* `steps`: every command changes the world along a relation, as a contract;
* `Serial.Run.steady`: if every operation keeps to the relation where it may be
  started, every command of every run does;
* `Serial.Run.meets`: if every operation meets a contract, every run does.
-/

namespace NtierLab

open Prog

variable {S : Sig} {ε α ι E W : Type}

/-- Operations on a world. -/
structure Serial (S : Sig) (ε ι E W : Type) where
  /-- The program of an operation. -/
  prog : ι → Prog S ε Unit
  /-- The commands on the world. -/
  step : Handler S W
  /-- The moves of the world itself. -/
  env : E → W → W → Prop

/-- The world, and what is left of the operation under way. -/
structure Desk (S : Sig) (ε ι W : Type) where
  world : W
  current : Option (ι × Prog S ε Unit)

/-- What happens in a turn: an operation is started, the one under way issues a command, or the
    world moves. -/
inductive Turn (S : Sig) (ι E : Type) where
  | start (i : ι)
  | run (i : ι) (e : Event S)
  | env (x : E)

namespace Serial

variable (M : Serial S ε ι E W)

/-- The turns. -/
inductive Step : Desk S ε ι W → Turn S ι E → Desk S ε ι W → Prop
  | start {w : W} {o : Option (ι × Prog S ε Unit)} (i : ι) :
      Step ⟨w, o⟩ (.start i) ⟨w, some (i, M.prog i)⟩
  | run {w w' : W} {i : ι} {c : S.Cmd} {k : S.Resp c → Prog S ε Unit} {r : S.Resp c} :
      M.step c w r w' → Step ⟨w, some (i, call c k)⟩ (.run i ⟨c, r⟩) ⟨w', some (i, k r)⟩
  | env {w w' : W} {o : Option (ι × Prog S ε Unit)} {x : E} :
      M.env x w w' → Step ⟨w, o⟩ (.env x) ⟨w', none⟩

/-- The runs from `w₀` whose every turn meets the guard, with their turns. -/
inductive Run (G : W → Turn S ι E → Prop) (w₀ : W) :
    List (Turn S ι E) → Desk S ε ι W → Prop
  | nil : Run G w₀ [] ⟨w₀, none⟩
  | snoc {ts : List (Turn S ι E)} {p p' : Desk S ε ι W} {t : Turn S ι E} :
      Run G w₀ ts p → G p.world t → M.Step p t p' → Run G w₀ (ts ++ [t]) p'

end Serial

/-- Every command changes the world along `P`, the events being those in `may`. -/
def steps (h : Handler S W) (may : Event S → W → Prop) (P : W → W → Prop) : Contract S W where
  pre c w := ∀ r w', h c w r w' → may ⟨c, r⟩ w → P w w'
  post c w r w' := h c w r w' ∧ may ⟨c, r⟩ w

namespace Serial

variable {M : Serial S ε ι E W} {G : W → Turn S ι E → Prop} {I : W → Prop} {P : W → W → Prop}
  {w₀ : W} {p p' : Desk S ε ι W} {ts : List (Turn S ι E)} {t : Turn S ι E}

/-- The invariant holds, and the operation under way keeps to the relation. -/
structure Steady (M : Serial S ε ι E W) (G : W → Turn S ι E → Prop) (I : W → Prop)
    (P : W → W → Prop) (p : Desk S ε ι W) : Prop where
  world : I p.world
  current : ∀ i q, p.current = some (i, q) →
    q.wp (steps M.step (fun e w => G w (.run i e)) P) (fun _ _ => True) p.world

/-- What a turn does to the world: nothing, a step along the relation, or a move of its own. -/
theorem Steady.turn (hp : Steady M G I P p) (hg : G p.world t) (hst : M.Step p t p') :
    p'.world = p.world ∨ P p.world p'.world ∨ ∃ x, t = .env x ∧ M.env x p.world p'.world := by
  cases hst with
  | start i => exact .inl rfl
  | run hr => exact .inr (.inl ((hp.current _ _ rfl).1 _ _ hr hg))
  | env hx => exact .inr (.inr ⟨_, rfl, hx⟩)

theorem Steady.step (hprog : ∀ i w, I w → G w (.start i) →
      (M.prog i).wp (steps M.step (fun e w => G w (.run i e)) P) (fun _ _ => True) w)
    (hP : ∀ w w', I w → P w w' → I w') (henv : ∀ x w w', I w → M.env x w w' → I w')
    (hp : Steady M G I P p) (hg : G p.world t) (hst : M.Step p t p') : Steady M G I P p' := by
  cases hst with
  | start i =>
    refine ⟨hp.world, fun j q hq => ?_⟩
    cases hq
    exact hprog i _ hp.world hg
  | run hr =>
    obtain ⟨hpre, hk⟩ := hp.current _ _ rfl
    refine ⟨hP _ _ hp.world (hpre _ _ hr hg), fun j q hq => ?_⟩
    cases hq
    exact hk _ _ ⟨hr, hg⟩
  | env hx => exact ⟨henv _ _ _ hp.world hx, fun _ _ hq => nomatch hq⟩

/-- If every operation keeps to the relation where it may be started, every run does. -/
theorem Run.steady (hprog : ∀ i w, I w → G w (.start i) →
      (M.prog i).wp (steps M.step (fun e w => G w (.run i e)) P) (fun _ _ => True) w)
    (hP : ∀ w w', I w → P w w' → I w') (henv : ∀ x w w', I w → M.env x w w' → I w')
    (h₀ : I w₀) (hr : M.Run G w₀ ts p) : Steady M G I P p := by
  induction hr with
  | nil => exact ⟨h₀, fun _ _ hq => nomatch hq⟩
  | snoc _ hg hst ih => exact ih.step hprog hP henv hg hst

/-- The invariant holds, and the operation under way meets the contract. -/
structure Meets (M : Serial S ε ι E W) (K : Contract S W) (I : W → Prop) (p : Desk S ε ι W) :
    Prop where
  world : I p.world
  current : ∀ i q, p.current = some (i, q) → q.wp K (fun _ _ => True) p.world

/-- The commands of an operation that meets a contract are those the contract allows. -/
theorem Meets.pre {K : Contract S W} {i : ι} {e : Event S} (hp : M.Meets K I p)
    (hst : M.Step p (.run i e) p') : K.pre e.cmd p.world ∧ M.step e.cmd p.world e.resp p'.world := by
  cases hst with
  | run hr => exact ⟨(hp.current _ _ rfl).1, hr⟩

/-- If every operation meets a contract where the invariant holds, and the contract keeps it,
    every run does. -/
theorem Run.meets {K : Contract S W} (hprog : ∀ i w, I w → (M.prog i).wp K (fun _ _ => True) w)
    (hstep : ∀ c w r w', I w → M.step c w r w' → K.post c w r w' ∧ I w')
    (henv : ∀ x w w', I w → M.env x w w' → I w') (h₀ : I w₀) (hr : M.Run G w₀ ts p) :
    M.Meets K I p := by
  induction hr with
  | nil => exact ⟨h₀, fun _ _ hq => nomatch hq⟩
  | snoc _ _ hst ih =>
    cases hst with
    | start i =>
      refine ⟨ih.world, fun j q hq => ?_⟩
      cases hq
      exact hprog i _ ih.world
    | run hr =>
      obtain ⟨hpost, hw⟩ := hstep _ _ _ _ ih.world hr
      refine ⟨hw, fun j q hq => ?_⟩
      cases hq
      exact (ih.current _ _ rfl).2 _ _ hpost
    | env hx => exact ⟨henv _ _ _ ih.world hx, fun _ _ hq => nomatch hq⟩

/-- If every operation meets a contract of its own anywhere, so does the operation under way in
    every run. -/
theorem Run.meets_each {K : ι → Contract S W}
    (hprog : ∀ i w, (M.prog i).wp (K i) (fun _ _ => True) w)
    (hstep : ∀ i c w r w', M.step c w r w' → (K i).post c w r w') (hr : M.Run G w₀ ts p) :
    ∀ i q, p.current = some (i, q) → q.wp (K i) (fun _ _ => True) p.world := by
  induction hr with
  | nil => exact nofun
  | snoc _ _ hst ih =>
    cases hst with
    | start i =>
      rintro j q ⟨⟩
      exact hprog i _
    | run hr =>
      rintro j q ⟨⟩
      exact (ih _ _ rfl).2 _ _ (hstep _ _ _ _ _ hr)
    | env hx => exact nofun

end Serial

/-! ## Commands that keep to the relation -/

namespace Prog

variable {h : Handler S W} {may : Event S → W → Prop} {P : W → W → Prop} {I : W → Prop}
  {C : S.Cmd → Prop} {p : Prog S ε α} {w : W}

/-- A program whose commands keep an invariant, and keep to the relation where it holds. -/
theorem Calls.steps (hp : p.Calls C)
    (hC : ∀ c w r w', C c → I w → h c w r w' → may ⟨c, r⟩ w → P w w' ∧ I w') (hw : I w) :
    p.wp (NtierLab.steps h may P) (fun _ => I) w :=
  hp.wp (fun c w hc hI => ⟨fun r w' hr hm => (hC c w r w' hc hI hr hm).1,
    fun r w' hr => (hC c w r w' hc hI hr.1 hr.2).2⟩) hw

/-- A program that keeps to each of some relations keeps to all of them. -/
theorem wp_steps_forall {κ : Type} {P : κ → W → W → Prop}
    (hp : ∀ j, p.wp (NtierLab.steps h may (P j)) (fun _ _ => True) w) :
    p.wp (NtierLab.steps h may fun w w' => ∀ j, P j w w') (fun _ _ => True) w := by
  induction p generalizing w with
  | ret a => trivial
  | fail e => trivial
  | call c k ih =>
    exact ⟨fun r w' hr hm j => (hp j).1 r w' hr hm, fun r w' hr => ih r fun j => (hp j).2 r w' hr⟩

end Prog

/-! ## Runs resolved by a schedule -/

namespace Serial

variable {χ : Type}

/-- What a schedule chooses: to start an operation, or to run it with a choice of the response. -/
inductive Move (ι χ : Type) where
  | start (i : ι)
  | run (x : χ)

/-- A move of a schedule, if it is possible. -/
def move (M : Serial S ε ι E W) (f : χ → (c : S.Cmd) → W → S.Resp c × W) (p : Desk S ε ι W) :
    Move ι χ → Option (Turn S ι E × Desk S ε ι W)
  | .start i => some (.start i, ⟨p.world, some (i, M.prog i)⟩)
  | .run x =>
    match p.current with
    | some (i, call c k) =>
      let a := f x c p.world
      some (.run i ⟨c, a.1⟩, ⟨a.2, some (i, k a.1)⟩)
    | _ => none

/-- The run of a schedule, if each of its moves is possible and `ok`. -/
def play (M : Serial S ε ι E W) (f : χ → (c : S.Cmd) → W → S.Resp c × W)
    (ok : W → Turn S ι E → Bool) :
    Desk S ε ι W → List (Move ι χ) → Option (Desk S ε ι W)
  | p, [] => some p
  | p, x :: xs => (M.move f p x).bind fun a => if ok p.world a.1 then play M f ok a.2 xs else none

variable {M : Serial S ε ι E W} {G : W → Turn S ι E → Prop} {w₀ : W} {p p' : Desk S ε ι W}
  {ts : List (Turn S ι E)} {f : χ → (c : S.Cmd) → W → S.Resp c × W} {ok : W → Turn S ι E → Bool}

theorem step_move (hf : ∀ x c w, M.step c w (f x c w).1 (f x c w).2) {x : Move ι χ}
    {t : Turn S ι E} (hx : M.move f p x = some (t, p')) : M.Step p t p' := by
  obtain ⟨w, o⟩ := p
  cases x with
  | start i =>
    simp only [move, Option.some.injEq, Prod.mk.injEq] at hx
    obtain ⟨rfl, rfl⟩ := hx
    exact .start i
  | run x =>
    simp only [move] at hx
    split at hx
    · next i c k =>
      simp only [Option.some.injEq, Prod.mk.injEq] at hx
      obtain ⟨rfl, rfl⟩ := hx
      exact .run (hf x c w)
    · cases hx

/-- A move that runs the operation under way is a command of it. -/
theorem move_run {x : χ} {t : Turn S ι E} (hx : M.move f p (.run x) = some (t, p')) :
    ∃ i e, t = .run i e := by
  obtain ⟨w, o⟩ := p
  simp only [move] at hx
  split at hx
  · simp only [Option.some.injEq, Prod.mk.injEq] at hx
    exact ⟨_, _, hx.1.symm⟩
  · cases hx

/-- What a schedule plays is a run, whose every turn is `ok`. -/
theorem run_play (hf : ∀ x c w, M.step c w (f x c w).1 (f x c w).2)
    (hG : ∀ w t, ok w t = true → G w t) {xs : List (Move ι χ)} (hr : M.Run G w₀ ts p)
    (hx : M.play f ok p xs = some p') : ∃ ts', M.Run G w₀ ts' p' := by
  induction xs generalizing p ts with
  | nil =>
    cases hx
    exact ⟨ts, hr⟩
  | cons x xs ih =>
    simp only [play, Option.bind_eq_some_iff] at hx
    obtain ⟨⟨t, q⟩, ht, hx⟩ := hx
    split at hx
    · next hok => exact ih (.snoc hr (hG _ _ hok) (step_move hf ht)) hx
    · cases hx

end Serial

end NtierLab
