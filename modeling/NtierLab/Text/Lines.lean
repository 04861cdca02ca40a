import NtierLab.Text.Python

/-!
# Texts and their lines

How Python reads the lines of a file, and where a regular expression finds a
character or the end of a line.

* `universalNewlines` reads every line break as one `\n`: what has no `\r` is
  read as it is (`universalNewlines_eq`), and a text is read piece by piece
  around any other character (`universalNewlines_append`).
* `cut` splits a text at the first occurrence of a character (`cut_eq_some`).
* `lineEnd` matches `(\s*)$`. Whether it does is decided before the first
  character that is not a space (`lineEnd_isSome`).
-/

namespace NtierLab

/-! ## Line breaks -/

/-- A text read in text mode, after a carriage return or not. -/
def newlinesAfter : Bool → List Char → List Char
  | _, [] => []
  | cr, c :: l =>
    if c = '\r' then '\n' :: newlinesAfter true l
    else if cr ∧ c = '\n' then newlinesAfter false l
    else c :: newlinesAfter false l

/-- A text read in text mode: `\r\n` and `\r` are read as `\n`. -/
def universalNewlines (l : List Char) : List Char := newlinesAfter false l

section

variable {cr : Bool} {a b l : List Char} {c : Char}

theorem newlinesAfter_cons (hr : c ≠ '\r') (hn : c ≠ '\n') :
    newlinesAfter cr (c :: l) = c :: newlinesAfter false l := by
  simp [newlinesAfter, hr, hn]

theorem newlinesAfter_append (hr : c ≠ '\r') (hn : c ≠ '\n') :
    newlinesAfter cr (a ++ c :: b) = newlinesAfter cr a ++ c :: newlinesAfter false b := by
  induction a generalizing cr with
  | nil => exact newlinesAfter_cons hr hn
  | cons d a ih =>
    simp only [List.cons_append, newlinesAfter]
    split_ifs <;> simp [ih]

/-- A text is read piece by piece around a character that breaks no line. -/
theorem universalNewlines_append (hr : c ≠ '\r') (hn : c ≠ '\n') :
    universalNewlines (a ++ c :: b) = universalNewlines a ++ c :: universalNewlines b :=
  newlinesAfter_append hr hn

theorem mem_newlinesAfter (h : c ∈ newlinesAfter cr l) : c = '\n' ∨ (c ∈ l ∧ c ≠ '\r') := by
  induction l generalizing cr with
  | nil => exact (nomatch h)
  | cons d l ih =>
    simp only [newlinesAfter] at h
    split_ifs at h with hr hn
    · rcases List.mem_cons.1 h with rfl | h
      · exact .inl rfl
      · exact (ih h).imp_right (.imp_left (List.mem_cons_of_mem _))
    · exact (ih h).imp_right (.imp_left (List.mem_cons_of_mem _))
    · rcases List.mem_cons.1 h with rfl | h
      · exact .inr ⟨List.mem_cons_self, hr⟩
      · exact (ih h).imp_right (.imp_left (List.mem_cons_of_mem _))

theorem mem_universalNewlines (h : c ∈ universalNewlines l) : c = '\n' ∨ (c ∈ l ∧ c ≠ '\r') :=
  mem_newlinesAfter h

/-- No carriage return is read. -/
theorem not_mem_universalNewlines : '\r' ∉ universalNewlines l := fun h =>
  (mem_universalNewlines h).elim (by decide) fun h => h.2 rfl

/-- A piece without carriage returns is read as it is. -/
theorem universalNewlines_front (h : '\r' ∉ a) :
    universalNewlines (a ++ b) = a ++ universalNewlines b := by
  unfold universalNewlines
  induction a with
  | nil => rfl
  | cons c a ih =>
    have hc : c ≠ '\r' := fun hc => h (hc ▸ List.mem_cons_self)
    simp [newlinesAfter, hc, ih fun hm => h (List.mem_cons_of_mem _ hm)]

/-- A text without carriage returns is read as it is. -/
theorem universalNewlines_eq (h : '\r' ∉ l) : universalNewlines l = l := by
  have h' := universalNewlines_front (b := []) h
  rw [List.append_nil] at h'
  exact h'.trans (List.append_nil l)

/-- What is read around a character is what is there around it. -/
theorem newlinesAfter_eq_append (h : newlinesAfter cr l = a ++ c :: b) (hn : c ≠ '\n') :
    ∃ a' b', l = a' ++ c :: b' ∧ newlinesAfter cr a' = a ∧ newlinesAfter false b' = b := by
  induction l generalizing cr a with
  | nil => simp [newlinesAfter] at h
  | cons d l ih =>
    simp only [newlinesAfter] at h
    split_ifs at h with hr hdn
    · -- A carriage return is read as a newline, which is not the character.
      cases a with
      | nil => exact (hn (List.cons.inj h).1.symm).elim
      | cons x a =>
        obtain ⟨rfl, htail⟩ := List.cons.inj h
        obtain ⟨a', b', rfl, ha, hb⟩ := ih htail
        exact ⟨d :: a', b', rfl, by simp [newlinesAfter, hr, ha], hb⟩
    · obtain ⟨a', b', rfl, ha, hb⟩ := ih h
      exact ⟨d :: a', b', rfl, by simp [newlinesAfter, hdn, ha], hb⟩
    · cases a with
      | nil =>
        obtain ⟨rfl, htail⟩ := List.cons.inj h
        exact ⟨[], l, rfl, rfl, htail⟩
      | cons x a =>
        obtain ⟨rfl, htail⟩ := List.cons.inj h
        obtain ⟨a', b', rfl, ha, hb⟩ := ih htail
        exact ⟨d :: a', b', rfl, by simp [newlinesAfter, hr, hdn, ha], hb⟩

theorem universalNewlines_eq_append (h : universalNewlines l = a ++ c :: b) (hn : c ≠ '\n') :
    ∃ a' b', l = a' ++ c :: b' ∧ universalNewlines a' = a ∧ universalNewlines b' = b :=
  newlinesAfter_eq_append h hn

theorem eq_nil_of_universalNewlines (h : universalNewlines l = []) : l = [] := by
  cases l with
  | nil => rfl
  | cons c l =>
    simp only [universalNewlines, newlinesAfter] at h
    split_ifs at h
    · simp_all

/-- A piece without line breaks is there as it is read. -/
theorem universalNewlines_eq_front (h : universalNewlines l = a ++ b) (ha : '\n' ∉ a) :
    ∃ b', l = a ++ b' ∧ universalNewlines b' = b := by
  induction a generalizing l with
  | nil => exact ⟨l, rfl, h⟩
  | cons c a ih =>
    have hc : c ≠ '\n' := fun hc => ha (hc ▸ List.mem_cons_self)
    obtain ⟨a', rest, rfl, hnil, hrest⟩ := universalNewlines_eq_append (a := []) h hc
    obtain rfl := eq_nil_of_universalNewlines hnil
    obtain ⟨b', rfl, hb⟩ := ih hrest fun hm => ha (List.mem_cons_of_mem _ hm)
    exact ⟨b', rfl, hb⟩

/-- Every character that breaks no line is read. -/
theorem mem_of_newlinesAfter (h : c ∈ l) : c = '\r' ∨ c = '\n' ∨ c ∈ newlinesAfter cr l := by
  by_cases hr : c = '\r'
  · exact .inl hr
  by_cases hn : c = '\n'
  · exact .inr (.inl hn)
  obtain ⟨a, b, rfl⟩ := List.append_of_mem h
  refine .inr (.inr ?_)
  rw [newlinesAfter_append hr hn]
  exact List.mem_append_right _ List.mem_cons_self

end

/-! ## Cutting -/

/-- A list cut at the first occurrence of an element. -/
def cut {α : Type*} [DecidableEq α] (x : α) : List α → Option (List α × List α)
  | [] => none
  | y :: l => if y = x then some ([], l) else (cut x l).map fun p => (y :: p.1, p.2)

section

variable {α : Type*} [DecidableEq α] {x : α} {a b l : List α}

theorem cut_append (hx : x ∉ a) : cut x (a ++ x :: b) = some (a, b) := by
  induction a with
  | nil => simp [cut]
  | cons y a ih =>
    have hy : y ≠ x := fun h => hx (h ▸ List.mem_cons_self)
    rw [List.cons_append, cut, if_neg hy, ih fun h => hx (List.mem_cons_of_mem _ h)]
    rfl

theorem cut_eq_some : cut x l = some (a, b) ↔ l = a ++ x :: b ∧ x ∉ a := by
  refine ⟨fun h => ?_, fun ⟨hl, hx⟩ => hl ▸ cut_append hx⟩
  have hmem : x ∈ l := by
    by_contra hx
    have hnone : cut x l = none := by
      clear h
      induction l with
      | nil => rfl
      | cons y l ih =>
        have hy : y ≠ x := fun h => hx (h ▸ List.mem_cons_self)
        rw [cut, if_neg hy, ih fun h => hx (List.mem_cons_of_mem _ h)]
        rfl
    rw [hnone] at h
    cases h
  obtain ⟨a', b', rfl, hx⟩ := List.eq_append_cons_of_mem hmem
  rw [cut_append hx] at h
  cases h
  exact ⟨rfl, hx⟩

end

/-! ## The end of a line -/

/-- The spaces up to the last end of a line among them, and what follows. -/
def lineEnd : List Char → Option (List Char × List Char)
  | [] => some ([], [])
  | c :: l =>
    if pyIsSpace c then
      match lineEnd l with
      | some (g, r) => some (c :: g, r)
      | none => if c = '\n' then some ([], c :: l) else none
    else none

section

variable {c : Char} {v w w' l g r : List Char}

theorem lineEnd_append (h : lineEnd l = some (g, r)) : l = g ++ r := by
  induction l generalizing g r with
  | nil => cases h; rfl
  | cons c l ih =>
    rw [lineEnd] at h
    split at h
    · split at h
      · next hl =>
        cases h
        rw [List.cons_append, ← ih hl]
      · split at h
        · cases h
          rfl
        · cases h
    · cases h

/-- Whether a line ends is decided before the first character that is not a space. -/
theorem lineEnd_eq_none (hc : ¬pyIsSpace c) :
    lineEnd (v ++ c :: w) = none ↔ lineEnd (v ++ c :: w') = none := by
  induction v with
  | nil => simp [lineEnd, hc]
  | cons d v ih =>
    simp only [List.cons_append, lineEnd]
    cases h : lineEnd (v ++ c :: w) with
    | none =>
      rw [ih.1 h]
      split_ifs <;> simp
    | some p =>
      cases h' : lineEnd (v ++ c :: w') with
      | none => simp [ih.2 h'] at h
      | some p' => split_ifs <;> simp

end

end NtierLab
