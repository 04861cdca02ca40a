import Mathlib.Data.List.DropRight
import Mathlib.Data.List.Infix

/-!
# Searching a text

A pattern occurs in a list where it is an infix of it (`<:+:`). What cannot be
part of an occurrence can be left out of the search.

* `infix_skip`: elements the pattern does not have, before the list searched;
* `infix_sep`: an occurrence is on one side of a separator the pattern does not
  have, and so in one of the parts of an intercalation (`infix_intercalate`).
-/

namespace NtierLab

variable {α : Type*} {p a b l : List α} {x : α}

/-- A prefix without the separator ends before it. -/
theorem prefix_sep (hx : x ∉ p) (h : p <+: a ++ x :: b) : p <+: a := by
  induction a generalizing p with
  | nil =>
    cases p with
    | nil => exact List.prefix_rfl
    | cons y p =>
      obtain ⟨rfl, -⟩ := List.cons_prefix_cons.1 h
      exact absurd List.mem_cons_self hx
  | cons c a ih =>
    cases p with
    | nil => exact List.nil_prefix
    | cons y p =>
      obtain ⟨rfl, htail⟩ := List.cons_prefix_cons.1 h
      exact List.cons_prefix_cons.2 ⟨rfl, ih (fun hm => hx (List.mem_cons_of_mem _ hm)) htail⟩

/-- An occurrence is on one side of a separator the pattern does not have. -/
theorem infix_sep (hx : x ∉ p) : p <:+: a ++ x :: b ↔ p <:+: a ∨ p <:+: b := by
  refine ⟨fun h => ?_, fun h => h.elim (fun h => ?_) fun h => ?_⟩
  · induction a with
    | nil =>
      rcases List.infix_cons_iff.1 h with h | h
      · exact .inl (prefix_sep hx (a := []) h).isInfix
      · exact .inr h
    | cons c a ih =>
      rcases List.infix_cons_iff.1 h with h | h
      · exact .inl (prefix_sep (a := c :: a) hx h).isInfix
      · exact (ih h).imp_left fun h => List.infix_cons_iff.2 (.inr h)
  · exact h.trans (List.prefix_append _ _).isInfix
  · exact h.trans ((List.suffix_cons x b).trans (List.suffix_append _ _)).isInfix

/-- An occurrence does not begin among elements the pattern does not have. -/
theorem infix_skip (hp : p ≠ []) (ha : ∀ y ∈ a, y ∉ p) : p <:+: a ++ b ↔ p <:+: b := by
  induction a with
  | nil => rfl
  | cons c a ih =>
    rw [List.cons_append, ← List.nil_append (c :: _), infix_sep (ha c List.mem_cons_self),
      ih fun y hy => ha y (List.mem_cons_of_mem _ hy), List.infix_nil]
    simp [hp]

/-- Elements the pattern does not have may be dropped at the front, after a map. -/
theorem infix_map_dropWhile {β : Type*} {p : List β} {f : α → β} {q : α → Bool} (hp : p ≠ [])
    (hq : ∀ y, q y → f y ∉ p) : p <:+: (l.dropWhile q).map f ↔ p <:+: l.map f := by
  conv_rhs => rw [← List.takeWhile_append_dropWhile (p := q) (l := l), List.map_append]
  refine (infix_skip hp fun y hy => ?_).symm
  obtain ⟨z, hz, rfl⟩ := List.mem_map.1 hy
  exact hq z (List.mem_takeWhile_imp hz)

theorem map_intercalate {β : Type*} (f : α → β) (sep : List α) (parts : List (List α)) :
    (List.intercalate sep parts).map f = List.intercalate (sep.map f) (parts.map (List.map f)) := by
  induction parts with
  | nil => rfl
  | cons part parts ih =>
    cases parts with
    | nil => simp
    | cons next parts =>
      rw [List.intercalate_cons_cons, List.map_append, List.map_append, ih]
      exact List.intercalate_cons_cons.symm

/-- An occurrence in an intercalation is in one of its parts. -/
theorem infix_intercalate {parts : List (List α)} (hp : p ≠ []) (hx : x ∉ p) :
    p <:+: List.intercalate [x] parts ↔ ∃ part ∈ parts, p <:+: part := by
  induction parts with
  | nil => simp [List.intercalate, hp]
  | cons part parts ih =>
    cases parts with
    | nil => simp [List.intercalate]
    | cons next parts =>
      have hcons : List.intercalate [x] (part :: next :: parts) =
          part ++ x :: List.intercalate [x] (next :: parts) := by
        rw [List.intercalate_cons_cons, List.append_assoc]
        rfl
      rw [hcons, infix_sep hx, ih]
      simp

end NtierLab
