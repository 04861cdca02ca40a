import NtierLab.Prog.Logic

/-!
# Programs answered alike

Two programs that issue the same commands and end alike, as long as they are answered
alike (`Prog.Twin`), for a relation on the responses of each command: what the relation
forgets of a response has no influence on the commands, nor on the outcome.

* `Twin.bind`, `Twin.rescue`, `Twin.ensuring`: the combinators;
* `Twin.exec`: an execution of one is, its trace answered alike, an execution of the other;
* `Twin.alike`: oracles that answer alike resolve them to traces that are alike.
-/

namespace NtierLab

/-- Two events of one command, answered alike. -/
inductive Alike {S : Sig} (R : (c : S.Cmd) → S.Resp c → S.Resp c → Prop) :
    Event S → Event S → Prop
  | intro {c : S.Cmd} {r r' : S.Resp c} : R c r r' → Alike R ⟨c, r⟩ ⟨c, r'⟩

/-- A world that may answer anything. -/
def anything {S : Sig} : Handler S Unit := fun _ _ _ _ => True

namespace Prog

variable {S : Sig} {ε α β γ δ : Type} {R : (c : S.Cmd) → S.Resp c → S.Resp c → Prop}
  {E : ε → ε → Prop}

/-- The programs issue the same commands, and end with values in `V` or errors in `E`, as long
    as they are answered in `R`. -/
inductive Twin (R : (c : S.Cmd) → S.Resp c → S.Resp c → Prop) (E : ε → ε → Prop)
    (V : α → β → Prop) : Prog S ε α → Prog S ε β → Prop
  | ret {a : α} {b : β} : V a b → Twin R E V (ret a) (ret b)
  | fail {e e' : ε} : E e e' → Twin R E V (fail e) (fail e')
  | call {c : S.Cmd} {k : S.Resp c → Prog S ε α} {k' : S.Resp c → Prog S ε β} :
      (∀ r r', R c r r' → Twin R E V (k r) (k' r')) → Twin R E V (call c k) (call c k')

/-- Two outcomes: values in `V`, or errors in `E`. -/
def Outcomes (E : ε → ε → Prop) (V : α → β → Prop) : Except ε α → Except ε β → Prop
  | .ok a, .ok b => V a b
  | .error e, .error e' => E e e'
  | _, _ => False

namespace Twin

variable {V : α → β → Prop} {V' : γ → δ → Prop} {p : Prog S ε α} {q : Prog S ε β}

theorem result {x : Except ε α} {y : Except ε β} (h : Outcomes E V x y) :
    Twin R E V (result x) (Prog.result y) := by
  cases x <;> cases y
  · exact .fail h
  · exact h.elim
  · exact h.elim
  · exact .ret h

theorem imp {V₂ : α → β → Prop} (h : Twin R E V p q) (hV : ∀ a b, V a b → V₂ a b) :
    Twin R E V₂ p q := by
  induction h with
  | ret h => exact .ret (hV _ _ h)
  | fail h => exact .fail h
  | call _ ih => exact .call ih

theorem bind {f : α → Prog S ε γ} {g : β → Prog S ε δ} (h : Twin R E V p q)
    (hf : ∀ a b, V a b → Twin R E V' (f a) (g b)) : Twin R E V' (p >>= f) (q >>= g) := by
  induction h with
  | ret h => exact hf _ _ h
  | fail h => exact .fail h
  | call _ ih => exact .call ih

/-- The value of the first part is passed on as it is. -/
theorem seq {p q : Prog S ε α} {f g : α → Prog S ε γ} {V : γ → γ → Prop}
    (h : Twin R E (· = ·) p q) (hf : ∀ a, Twin R E V (f a) (g a)) :
    Twin R E V (p >>= f) (q >>= g) :=
  h.bind fun a _ hab => hab ▸ hf a

theorem tryCatch {f : ε → Prog S ε α} {g : ε → Prog S ε β} (h : Twin R E V p q)
    (hf : ∀ e e', E e e' → Twin R E V (f e) (g e')) :
    Twin R E V (tryCatch p f) (MonadExcept.tryCatch q g) := by
  induction h with
  | ret h => exact .ret h
  | fail h => exact hf _ _ h
  | call _ ih => exact .call ih

theorem ensuring {p' q' : Prog S ε Unit} (h : Twin R E V p q)
    (h' : Twin R E (fun _ _ => True) p' q') : Twin R E V (p.ensuring p') (q.ensuring q') := by
  induction h with
  | ret h => exact h'.bind fun _ _ _ => .ret h
  | fail h => exact h'.bind fun _ _ _ => .fail h
  | call _ ih => exact .call ih

theorem ite {c : Prop} [Decidable c] {p' : Prog S ε α} {q' : Prog S ε β}
    (h : c → Twin R E V p q) (h' : ¬c → Twin R E V p' q') :
    Twin R E V (if c then p else p') (if c then q else q') := by
  split
  · exact h ‹_›
  · exact h' ‹_›

/-- An execution of the one, answered alike, is an execution of the other, which ends alike. -/
theorem exec {W : Type} {h : Handler S W} {w w' : W} {t t' : Trace S} {x : Except ε α}
    (hp : Twin R E V p q) (hx : Exec h p w t x w') (ht : List.Forall₂ (Alike R) t t') :
    ∃ y, Exec anything q () t' y () ∧ Outcomes E V x y := by
  induction hp generalizing w t t' with
  | ret hV =>
    cases hx
    cases ht
    exact ⟨_, .ret, hV⟩
  | fail hE =>
    cases hx
    cases ht
    exact ⟨_, .fail, hE⟩
  | call _ ih =>
    cases hx with
    | call _ hx =>
      cases ht with
      | cons hr ht =>
        cases hr with
        | intro hr =>
          -- The call is the same for both, and the responses to it are alike.
          obtain ⟨y, hy, hV⟩ := ih _ _ hr hx ht
          exact ⟨y, .call trivial hy, hV⟩

/-- Answered alike, they leave traces that are alike. -/
theorem alike {f g : (c : S.Cmd) → S.Resp c} (hp : Twin R E V p q) (hR : ∀ c, R c (f c) (g c))
    (n : ℕ) : List.Forall₂ (Alike R) (p.eval (fun _ c _ => (f c, ())) (fun _ => ()) n ()).1
      (q.eval (fun _ c _ => (g c, ())) (fun _ => ()) n ()).1 := by
  induction hp generalizing n with
  | ret => exact .nil
  | fail => exact .nil
  | call _ ih => exact .cons (.intro (hR _)) (ih _ _ (hR _) _)

end Twin

/-- A program ends in one way on a trace. -/
theorem Exec.outcome_unique {W W' : Type} {h : Handler S W} {h' : Handler S W'} {p : Prog S ε α}
    {w w₁ : W} {v v₁ : W'} {t : Trace S} {x y : Except ε α} (hx : Exec h p w t x w₁)
    (hy : Exec h' p v t y v₁) : x = y := by
  induction hx generalizing v with
  | ret => cases hy; rfl
  | fail => cases hy; rfl
  | call _ _ ih =>
    cases hy with
    | call _ hy => exact ih hy

end Prog

end NtierLab
