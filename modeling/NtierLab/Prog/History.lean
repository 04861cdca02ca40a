import Mathlib.Data.List.Chain
import NtierLab.Prog.Serial

/-!
# Histories

The worlds an execution passes through, in order (`Passes`), and those that any number
of calls pass through, one after the other (`Calling`): what every command does to the
world, every two neighbours of a history tell.

* `Passes.along`, `Calling.along`: programs that keep to a relation pass along it;
* `exists_since`: what stays once it is there divides a history that ends with it into
  the worlds before it was there, and those since.
-/

namespace NtierLab

open Prog

variable {S : Sig} {ε α ι A W : Type}

/-- The executions of a program under a handler: from a world, the worlds passed through, the
    first and the last one included, the outcome and the world it ends in. -/
inductive Passes (h : Handler S W) : Prog S ε α → W → List W → Except ε α → W → Prop
  | ret {a : α} {w : W} : Passes h (ret a) w [w] (.ok a) w
  | fail {e : ε} {w : W} : Passes h (fail e) w [w] (.error e) w
  | call {c : S.Cmd} {k : S.Resp c → Prog S ε α} {w w' w'' : W} {r : S.Resp c} {ws : List W}
      {x : Except ε α} : h c w r w' → Passes h (k r) w' ws x w'' →
      Passes h (call c k) w (w :: ws) x w''

/-- Any number of calls, one after the other, with the worlds passed through. -/
inductive Calling (h : Handler S W) (prog : ι → Prog S ε α) : W → List W → W → Prop
  | none {w : W} : Calling h prog w [] w
  | call {i : ι} {w w' w'' : W} {ws ws' : List W} {x : Except ε α} :
      Calling h prog w ws w' → Passes h (prog i) w' ws' x w'' → Calling h prog w (ws ++ ws') w''

section

variable {h : Handler S W} {p : Prog S ε α} {prog : ι → Prog S ε α} {w w' : W} {ws : List W}
  {x : Except ε α} {P : W → W → Prop} {Q : Except ε α → W → Prop}

/-- An execution passes through worlds. -/
theorem Prog.Exec.passes {t : Trace S} (hx : Exec h p w t x w') : ∃ ws, Passes h p w ws x w' := by
  induction hx with
  | ret => exact ⟨_, .ret⟩
  | fail => exact ⟨_, .fail⟩
  | call hr _ ih =>
    obtain ⟨ws, hws⟩ := ih
    exact ⟨_, .call hr hws⟩

/-- What passes through worlds is an execution. -/
theorem Passes.exec (hx : Passes h p w ws x w') : ∃ t, Exec h p w t x w' := by
  induction hx with
  | ret => exact ⟨_, .ret⟩
  | fail => exact ⟨_, .fail⟩
  | call hr _ ih =>
    obtain ⟨t, ht⟩ := ih
    exact ⟨_, .call hr ht⟩

theorem Passes.head (hx : Passes h p w ws x w') : ws.head? = some w := by
  cases hx <;> rfl

theorem Passes.last (hx : Passes h p w ws x w') : ws.getLast? = some w' := by
  induction hx with
  | ret => rfl
  | fail => rfl
  | call _ hx ih => rw [List.getLast?_cons, ih, Option.getD_some]

/-- A program that keeps to a relation passes along it, and meets its postcondition. -/
theorem Passes.along (hx : Passes h p w ws x w')
    (hp : p.wp (steps h (fun _ _ => True) P) Q w) : ws.IsChain P ∧ Q x w' := by
  induction hx with
  | ret => exact ⟨.singleton _, hp⟩
  | fail => exact ⟨.singleton _, hp⟩
  | call hr hx ih =>
    obtain ⟨hchain, hQ⟩ := ih (hp.2 _ _ ⟨hr, trivial⟩)
    refine ⟨List.isChain_cons.2 ⟨fun v hv => ?_, hchain⟩, hQ⟩
    rw [hx.head, Option.mem_some_iff] at hv
    exact hv ▸ hp.1 _ _ hr trivial

/-- The history of calls ends in the world they end in, if there was one. -/
theorem Calling.last (hc : Calling h prog w ws w') : ∀ v ∈ ws.getLast?, v = w' := by
  cases hc with
  | none => exact fun _ hv => nomatch hv
  | call _ hx =>
    intro v hv
    rw [List.getLast?_append, hx.last, Option.some_or, Option.mem_some_iff] at hv
    exact hv.symm

/-- Programs that keep to a reflexive relation pass along it, call after call. -/
theorem Calling.along (hrefl : ∀ w, P w w)
    (hp : ∀ i w, (prog i).wp (steps h (fun _ _ => True) P) (fun _ _ => True) w)
    (hc : Calling h prog w ws w') : ws.IsChain P := by
  induction hc with
  | none => exact .nil
  | call hc hx ih =>
    refine List.isChain_append.2 ⟨ih, (hx.along (hp _ _)).1, fun v hv u hu => ?_⟩
    rw [hx.head, Option.mem_some_iff] at hu
    rw [hc.last v hv, hu]
    exact hrefl _

/-- What stays once it is there, and is there in the end, divides the history: it was not there,
    and then it was. -/
theorem exists_since {f : W → Option A} {a : A}
    (hstay : ws.IsChain fun w w' => ∀ b, f w = some b → f w' = some b)
    (hlast : ∀ w ∈ ws.getLast?, f w = some a) :
    ∃ before since, ws = before ++ since ∧ (∀ w ∈ before, f w = none) ∧
      ∀ w ∈ since, f w = some a := by
  induction ws with
  | nil => exact ⟨[], [], rfl, nofun, nofun⟩
  | cons w ws ih =>
    obtain ⟨hw, hchain⟩ := List.isChain_cons.1 hstay
    cases ws with
    | nil => exact ⟨[], [w], rfl, nofun, fun v hv => List.mem_singleton.1 hv ▸ hlast w rfl⟩
    | cons v ws =>
      obtain ⟨before, since, heq, hbefore, hsince⟩ := ih hchain hlast
      cases hf : f w with
      | none =>
        refine ⟨w :: before, since, by rw [heq, List.cons_append], fun u hu => ?_, hsince⟩
        rcases List.mem_cons.1 hu with rfl | hu
        · exact hf
        · exact hbefore u hu
      | some b =>
        -- It was there before `v`, so that it is there ever since.
        have hv : f v = some b := hw v rfl b hf
        cases before with
        | cons u before =>
          obtain ⟨rfl, -⟩ := List.cons.inj heq
          cases (hbefore v List.mem_cons_self).symm.trans hv
        | nil =>
          obtain rfl : v :: ws = since := heq
          obtain rfl := Option.some.inj (hv.symm.trans (hsince v List.mem_cons_self))
          refine ⟨[], w :: v :: ws, rfl, nofun, fun u hu => ?_⟩
          rcases List.mem_cons.1 hu with rfl | hu
          · exact hf
          · exact hsince u hu

end

end NtierLab
