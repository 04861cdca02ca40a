import Mathlib.Data.List.DropRight
import Mathlib.Data.List.TakeWhile

/-!
# Python's texts

The two operations on a text the program normalizes with, over lists of
characters.

* `pyStrip` drops whitespace at both ends, Unicode's as well; a text without
  any is kept (`pyStrip_eq`), and a stripped one too (`pyStrip_pyStrip`).
* `pyLower` sends a character to the characters of its lower case. Two
  characters outside of ASCII have an ASCII letter there, the Kelvin sign and
  the dotted capital I; every other one is kept as it is here, since no text a
  lowered one is compared with has one. A lowered text begins with a text
  without an `i` only where as many characters are lowered to it
  (`prefix_lower_iff`).
-/

namespace NtierLab

/-- Python's whitespace. -/
def pyIsSpace (c : Char) : Bool :=
  c.toNat ∈ [9, 10, 11, 12, 13, 28, 29, 30, 31, 32, 133, 160, 5760, 8232, 8233, 8239, 8287, 12288] ||
    (decide (8192 ≤ c.toNat) && decide (c.toNat ≤ 8202))

/-- Python's `strip`. -/
def pyStrip (s : String) : String :=
  String.ofList (((s.toList.dropWhile pyIsSpace).reverse.dropWhile pyIsSpace).reverse)

/-- A text without whitespace is not stripped. -/
theorem pyStrip_eq {s : String} (h : ∀ c ∈ s.toList, pyIsSpace c = false) : pyStrip s = s := by
  have hdrop (l : List Char) (hl : ∀ c ∈ l, pyIsSpace c = false) : l.dropWhile pyIsSpace = l := by
    cases l with
    | nil => rfl
    | cons c l => rw [List.dropWhile_cons_of_neg (by simp [hl c List.mem_cons_self])]
  have hrev : ∀ c ∈ s.toList.reverse, pyIsSpace c = false := by simpa using h
  simp [pyStrip, hdrop _ h, hdrop _ hrev]

/-- Dropping at the end leaves a list that has nothing to drop at its head so. -/
theorem dropWhile_rdropWhile {p : Char → Bool} {l : List Char} (h : l.dropWhile p = l) :
    (l.rdropWhile p).dropWhile p = l.rdropWhile p := by
  rw [List.dropWhile_eq_self_iff] at h ⊢
  intro hpos
  -- What is left is a prefix, so its head is the head of the list.
  have hpre : l.rdropWhile p <+: l := List.rdropWhile_prefix p l
  have hlen : 0 < l.length := lt_of_lt_of_le hpos hpre.length_le
  have hhead : (l.rdropWhile p)[0] = l[0] := hpre.getElem hpos
  rw [hhead]
  exact h hlen

theorem pyStrip_eq_rdropWhile (s : String) :
    pyStrip s = String.ofList ((s.toList.dropWhile pyIsSpace).rdropWhile pyIsSpace) := rfl

/-- A stripped text is stripped. -/
@[simp] theorem pyStrip_pyStrip (s : String) : pyStrip (pyStrip s) = pyStrip s := by
  have hfront : ((s.toList.dropWhile pyIsSpace).rdropWhile pyIsSpace).dropWhile pyIsSpace =
      (s.toList.dropWhile pyIsSpace).rdropWhile pyIsSpace :=
    dropWhile_rdropWhile (List.dropWhile_idempotent pyIsSpace _)
  simp only [pyStrip_eq_rdropWhile, String.toList_ofList]
  rw [hfront, List.rdropWhile_idempotent]

/-- Whitespace around a stripped text is stripped. -/
theorem pyStrip_append {front mid back : List Char} (hfront : ∀ c ∈ front, pyIsSpace c)
    (hback : ∀ c ∈ back, pyIsSpace c) (hmid : mid.dropWhile pyIsSpace = mid)
    (hmid' : mid.rdropWhile pyIsSpace = mid) :
    pyStrip (String.ofList (front ++ (mid ++ back))) = String.ofList mid := by
  have hrback : (mid ++ back).rdropWhile pyIsSpace = mid := by
    rw [List.rdropWhile, List.reverse_append,
      List.dropWhile_append_of_pos fun c hc => hback c (List.mem_reverse.1 hc)]
    exact hmid'
  rw [pyStrip_eq_rdropWhile, String.toList_ofList, List.dropWhile_append_of_pos hfront,
    List.dropWhile_append, hmid]
  split
  · next hnil =>
    rw [List.dropWhile_eq_nil_iff.2 hback, List.isEmpty_iff.1 hnil, List.rdropWhile_nil]
  · rw [hrback]

/-- The lower case of a character. -/
def pyLowerChar (c : Char) : List Char :=
  if c = '\u212a' then ['k'] else if c = '\u0130' then ['i', '\u0307'] else [c.toLower]

/-- Python's `lower`. -/
def pyLower (s : String) : String := String.ofList (s.toList.flatMap pyLowerChar)

theorem pyLowerChar_ascii {c : Char} (h : c.toNat < 128) : pyLowerChar c = [c.toLower] := by
  have hk : c ≠ '\u212a' := by rintro rfl; revert h; decide
  have hi : c ≠ '\u0130' := by rintro rfl; revert h; decide
  rw [pyLowerChar, if_neg hk, if_neg hi]

/-- The lower case of a character that does not begin with an `i` is one character. -/
theorem pyLowerChar_head {x c : Char} {l : List Char} (h : pyLowerChar x = c :: l) (hc : c ≠ 'i') :
    l = [] := by
  unfold pyLowerChar at h
  split_ifs at h with hk hi
  · exact (List.cons.inj h).2.symm
  · exact absurd (List.cons.inj h).1.symm hc
  · exact (List.cons.inj h).2.symm

theorem pyLowerChar_ne_nil (x : Char) : pyLowerChar x ≠ [] := by
  unfold pyLowerChar
  split_ifs <;> simp

/-- A lowered text begins with `p` where it does so character by character. -/
theorem prefix_lower_iff {p l : List Char} (hp : 'i' ∉ p) :
    p <+: l.flatMap pyLowerChar ↔
      ∃ head tail, l = head ++ tail ∧ head.length = p.length ∧ head.flatMap pyLowerChar = p := by
  constructor
  · intro h
    induction p generalizing l with
    | nil => exact ⟨[], l, rfl, rfl, rfl⟩
    | cons c p ih =>
      cases l with
      | nil => simp at h
      | cons x l =>
        rw [List.flatMap_cons] at h
        obtain ⟨d, rest, hx⟩ := List.exists_cons_of_ne_nil (pyLowerChar_ne_nil x)
        rw [hx, List.cons_append, List.cons_prefix_cons] at h
        obtain ⟨rfl, h⟩ := h
        have hc : c ≠ 'i' := fun he => hp (he ▸ List.mem_cons_self)
        have hrest : rest = [] := pyLowerChar_head hx hc
        subst hrest
        obtain ⟨head, tail, rfl, hlen, hhead⟩ := ih (fun hi => hp (List.mem_cons_of_mem _ hi)) h
        exact ⟨x :: head, tail, rfl, by simp [hlen], by simp [hx, hhead]⟩
  · rintro ⟨head, tail, rfl, -, rfl⟩
    rw [List.flatMap_append]
    exact List.prefix_append _ _

/-- Characters lowered to a text without an `i` are as many as it has. -/
theorem length_of_lower {p head : List Char} (hp : 'i' ∉ p) (h : head.flatMap pyLowerChar = p) :
    head.length = p.length := by
  have hpre : p <+: head.flatMap pyLowerChar := h ▸ List.prefix_rfl
  obtain ⟨head', tail, rfl, hlen, hhead⟩ := (prefix_lower_iff hp).1 hpre
  have htail : tail.flatMap pyLowerChar = [] := by
    rw [List.flatMap_append, hhead] at h
    exact List.append_right_eq_self.1 h
  cases tail with
  | nil => simpa using hlen
  | cons x tail => exact absurd (List.append_eq_nil_iff.1 htail).1 (pyLowerChar_ne_nil x)

/-! ## Numbers -/

/-- The text of a number has digits, and a sign. -/
theorem toString_chars {n : ℤ} {c : Char} (h : c ∈ (toString n).toList) :
    c.isDigit ∨ c = '-' := by
  cases n with
  | ofNat m =>
    change c ∈ (toString m).toList at h
    rw [Nat.toString_eq_ofList_toDigits, String.toList_ofList] at h
    exact .inl (Nat.isDigit_of_mem_toDigits (by decide) (by decide) h)
  | negSucc m =>
    change c ∈ ("-" ++ toString (m + 1)).toList at h
    rw [Nat.toString_eq_ofList_toDigits, String.toList_append, List.mem_append] at h
    rcases h with h | h
    · exact .inr (by simpa using h)
    · rw [String.toList_ofList] at h
      exact .inl (Nat.isDigit_of_mem_toDigits (by decide) (by decide) h)

theorem toString_ne_nil (n : ℤ) : (toString n).toList ≠ [] := by
  cases n with
  | ofNat m =>
    change (toString m).toList ≠ []
    rw [Nat.toString_eq_ofList_toDigits, String.toList_ofList]
    exact Nat.toDigits_ne_nil
  | negSucc m =>
    change ("-" ++ toString (m + 1)).toList ≠ []
    rw [String.toList_append]
    exact List.append_ne_nil_of_left_ne_nil (by decide +kernel) _

theorem not_isSpace_of_digit {c : Char} (h : c.isDigit ∨ c = '-') : ¬pyIsSpace c := by
  intro hspace
  simp only [pyIsSpace, Bool.or_eq_true, Bool.and_eq_true, decide_eq_true_eq, List.mem_cons,
    List.not_mem_nil, or_false] at hspace
  rcases h with h | rfl
  · simp only [Char.isDigit, Bool.and_eq_true, decide_eq_true_eq] at h
    have hge : 48 ≤ c.toNat := UInt32.le_iff_toNat_le.1 h.1
    have hle : c.toNat ≤ 57 := UInt32.le_iff_toNat_le.1 h.2
    omega
  · simp at hspace

end NtierLab
