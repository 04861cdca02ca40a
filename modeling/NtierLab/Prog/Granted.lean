import NtierLab.Prog.Monitor

/-!
# Programs among granted responses

A program that issues the commands of a set only, and returns values of a set only, as long
as the responses to it are granted (`Within`): what a value tells is carried from a command to
those after it. Where no value matters, these are the commands of the program (`Calls`).

* `Within.bind`, `Within.tryCatch`, `Within.ensuring`, `Within.ite`: the rules, one a construct;
* `Within.seq`: a program whose value does not matter, then another;
* `Within.obeys`, `Within.calls`: what is left of it without the values, and without the
  responses.
-/

namespace NtierLab

variable {S : Sig} {ε α β : Type}

/-- The monitor of a set of commands. -/
def commandsIn (P : S.Cmd → Prop) : Monitor S Unit where
  allow _ c := P c
  next _ _ := ()

namespace Prog

/-- The program issues commands in `P` and returns a value in `U`, as long as the responses are
    in `ok`. -/
def Within (P : S.Cmd → Prop) (ok : Event S → Prop) (p : Prog S ε α) (U : α → Prop) : Prop :=
  p.wp ((commandsIn P).contract ok) (outcome (fun a _ => U a) fun _ _ => True) ()

variable {P : S.Cmd → Prop} {ok : Event S → Prop} {p q : Prog S ε α} {f : α → Prog S ε β}
  {U U' : α → Prop} {V : β → Prop}

theorem Within.imp (hp : Within P ok p U) (h : ∀ a, U a → U' a) : Within P ok p U' :=
  wp.imp hp fun x _ hx => by cases x <;> first | trivial | exact h _ hx

theorem Within.bind (hp : Within P ok p U) (hf : ∀ a, U a → Within P ok (f a) V) :
    Within P ok (p >>= f) V :=
  wp.bind hp (fun a _ ha => hf a ha) fun _ _ _ => trivial

theorem Within.map {g : α → β} (hp : Within P ok p fun a => V (g a)) : Within P ok (g <$> p) V :=
  (wp_map g p).2 (wp.imp hp fun x _ hx => by cases x <;> exact hx)

theorem Within.tryCatch {h : ε → Prog S ε α} (hp : Within P ok p U)
    (hh : ∀ e, Within P ok (h e) U) : Within P ok (tryCatch p h) U :=
  (wp_tryCatch p h).2 (wp.imp hp fun x _ hx => by cases x <;> first | exact hh _ | exact hx)

theorem Within.ite {c : Prop} [Decidable c] (hp : c → Within P ok p U)
    (hq : ¬c → Within P ok q U) : Within P ok (if c then p else q) U :=
  (wp_ite c p q).2 ⟨hp, hq⟩

theorem Within.ensuring {q : Prog S ε Unit} (hp : Within P ok p U) (hq : q.Calls P) :
    Within P ok (p.ensuring q) U := by
  refine (wp_ensuring p q).2 (wp.imp hp fun x _ hx => ?_)
  refine hq.wp (I := fun _ => True) (fun c _ hc _ => ⟨hc, fun _ _ _ => trivial⟩) trivial |>.imp ?_
  intro y _ _
  cases y with
  | ok u => exact hx
  | error e => trivial

/-- A program of commands in `P`, whatever it returns. -/
theorem within_of_calls (hp : p.Calls P) : Within P ok p fun _ => True :=
  (hp.wp (I := fun _ => True) (fun c _ hc _ => ⟨hc, fun _ _ _ => trivial⟩) trivial).imp
    fun x _ _ => by cases x <;> trivial

theorem Within.seq (hp : p.Calls P) (hf : ∀ a, Within P ok (f a) V) : Within P ok (p >>= f) V :=
  (within_of_calls hp).bind fun a _ => hf a

theorem Within.obeys (hp : Within P ok p U) : p.Obeys (commandsIn P) ok () :=
  wp.imp hp fun _ _ _ => trivial

/-- With every response granted, these are the commands of the program. -/
theorem Within.calls (hp : Within P (fun _ => True) p U) : p.Calls P := by
  induction p with
  | ret a => trivial
  | fail e => trivial
  | call c k ih => exact ⟨hp.1, fun r => ih r (hp.2 r () ⟨trivial, rfl⟩)⟩

end Prog

end NtierLab
