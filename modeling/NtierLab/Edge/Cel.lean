import Mathlib.Data.List.Basic

/-!
# Conditions in CEL

The conditions of an admission policy are expressions whose evaluation may be an error
(`Cond`). A conjunction is false as soon as one of its operands is false, whatever the
other is, and a disjunction true as soon as one is true; an error is left where neither
decides.
-/

namespace NtierLab.Cel

/-- The value of a condition, or none, if its evaluation is an error. -/
abbrev Cond := Option Bool

/-- `a && b`. -/
def conj : Cond → Cond → Cond
  | some false, _ | _, some false => some false
  | some true, some true => some true
  | _, _ => none

/-- `a || b`. -/
def disj : Cond → Cond → Cond
  | some true, _ | _, some true => some true
  | some false, some false => some false
  | _, _ => none

/-- `l.all(x, f)`, a conjunction. -/
def all {α : Type} (f : α → Cond) (l : List α) : Cond :=
  l.foldr (fun x c => conj (f x) c) (some true)

variable {α : Type} {a b : Cond} {f : α → Cond} {l : List α}

@[simp] theorem conj_true : conj a b = some true ↔ a = some true ∧ b = some true := by
  rcases a with _ | _ | _ <;> rcases b with _ | _ | _ <;> simp [conj]

@[simp] theorem disj_true : disj a b = some true ↔ a = some true ∨ b = some true := by
  rcases a with _ | _ | _ <;> rcases b with _ | _ | _ <;> simp [disj]

@[simp] theorem all_true : all f l = some true ↔ ∀ x ∈ l, f x = some true := by
  induction l with
  | nil => simp [all]
  | cons x l ih => rw [List.forall_mem_cons, ← ih]; exact conj_true

end NtierLab.Cel
