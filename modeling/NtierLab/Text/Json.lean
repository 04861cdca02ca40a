import Mathlib.Data.List.Basic

/-!
# JSON texts

Texts, lists and objects of texts, as Python's `json.dumps` prints them and
`json.loads` reads them. What is not printable ASCII is escaped, a character
beyond the basic plane as its two surrogates.

* `readChar_jsonChar`: a printed character is read back, whatever follows it.
* `readText_jsonText`, `readMap_jsonMap`: so are a text and an object of texts.
-/

namespace NtierLab

/-! ## Printing -/

/-- A UTF-16 unit, escaped. -/
def jsonUnit (n : ℕ) : List Char :=
  ['\\', 'u', Nat.digitChar (n / 4096), Nat.digitChar (n / 256 % 16), Nat.digitChar (n / 16 % 16),
    Nat.digitChar (n % 16)]

/-- The characters with an escape of their own, and its letter. -/
def shortEscapes : List (Char × Char) :=
  [('"', '"'), ('\\', '\\'), ('\n', 'n'), ('\r', 'r'), ('\t', 't'), ('\x08', 'b'), ('\x0c', 'f')]

/-- A character in a text, escaped unless it is printable ASCII. -/
def jsonChar (c : Char) : List Char :=
  match shortEscapes.find? (·.1 = c) with
  | some p => ['\\', p.2]
  | none =>
    if 32 ≤ c.toNat ∧ c.toNat ≤ 126 then [c]
    else if c.toNat < 65536 then jsonUnit c.toNat
    else jsonUnit (55296 + (c.toNat - 65536) / 1024) ++ jsonUnit (56320 + (c.toNat - 65536) % 1024)

/-- `json.dumps` of a text. -/
def jsonText (s : String) : String := "\"" ++ String.ofList (s.toList.flatMap jsonChar) ++ "\""

/-- `json.dumps` of a list of texts. -/
def jsonList (l : List String) : String := "[" ++ ", ".intercalate (l.map jsonText) ++ "]"

/-- `json.dumps` of an object of texts. -/
def jsonMap (l : List (String × String)) : String :=
  "\x7b" ++ ", ".intercalate (l.map fun p => jsonText p.1 ++ ": " ++ jsonText p.2) ++ "\x7d"

/-! ## Reading -/

/-- The value of a hexadecimal digit. -/
def hexValue (c : Char) : Option ℕ :=
  if c.isDigit then some (c.toNat - 48)
  else if 97 ≤ c.toNat ∧ c.toNat ≤ 102 then some (c.toNat - 87)
  else if 65 ≤ c.toNat ∧ c.toNat ≤ 70 then some (c.toNat - 55)
  else none

/-- A UTF-16 unit, after its `\u`. -/
def readUnit : List Char → Option (ℕ × List Char)
  | a :: b :: c :: d :: rest => do
    let a ← hexValue a
    let b ← hexValue b
    let c ← hexValue c
    let d ← hexValue d
    return (4096 * a + 256 * b + 16 * c + d, rest)
  | _ => none

/-- The character of a unit and, if it is a surrogate, of the second. -/
def readUnits (l : List Char) : Option (Char × List Char) := do
  let (n, rest) ← readUnit l
  if 55296 ≤ n ∧ n < 56320 then
    match rest with
    | '\\' :: 'u' :: rest => do
      let (m, rest) ← readUnit rest
      if 56320 ≤ m ∧ m < 57344 then
        return (Char.ofNat (65536 + (n - 55296) * 1024 + (m - 56320)), rest)
      else none
    | _ => none
  else return (Char.ofNat n, rest)

/-- The character of an escape, by its letter. -/
def unescape (e : Char) : Option Char :=
  if e = '/' then some '/' else (shortEscapes.find? (·.2 = e)).map (·.1)

/-- A character of a text, and what follows. -/
def readChar : List Char → Option (Char × List Char)
  | '\\' :: 'u' :: rest => readUnits rest
  | '\\' :: e :: rest => (unescape e).map (·, rest)
  | c :: rest => if c.toNat < 32 ∨ c = '\\' then none else some (c, rest)
  | [] => none

/-- The characters of a text up to its end, `n` of them at most, and what follows. -/
def readChars : ℕ → List Char → Option (List Char × List Char)
  | _, '"' :: rest => some ([], rest)
  | 0, _ => none
  | n + 1, l => do
    let (c, rest) ← readChar l
    let (cs, rest) ← readChars n rest
    return (c :: cs, rest)

/-- A text, and what follows. -/
def readText : List Char → Option (String × List Char)
  | '"' :: rest => (readChars rest.length rest).map fun p => (String.ofList p.1, p.2)
  | _ => none

/-- The entries of an object of texts, `n` of them at most. -/
def readEntries : ℕ → List Char → Option (List (String × String))
  | 0, _ => none
  | n + 1, l =>
    match readText l with
    | some (k, ':' :: ' ' :: rest) =>
      match readText rest with
      | some (v, ['\x7d']) => some [(k, v)]
      | some (v, ',' :: ' ' :: rest) => ((k, v) :: ·) <$> readEntries n rest
      | _ => none
    | _ => none

/-- `json.loads`, of an object of texts as `json.dumps` prints it. -/
def readMap (s : String) : Option (List (String × String)) :=
  match s.toList with
  | ['\x7b', '\x7d'] => some []
  | '\x7b' :: rest => readEntries s.length rest
  | _ => none

/-! ## What is printed is read back -/

theorem hexValue_digitChar : ∀ d < 16, hexValue (Nat.digitChar d) = some d := by decide

/-- An escaped unit is read back. -/
theorem readUnit_jsonUnit {n : ℕ} (hn : n < 65536) (l : List Char) :
    ∃ rest, jsonUnit n ++ l = '\\' :: 'u' :: rest ∧ readUnit rest = some (n, l) := by
  refine ⟨Nat.digitChar (n / 4096) :: Nat.digitChar (n / 256 % 16) :: Nat.digitChar (n / 16 % 16) ::
    Nat.digitChar (n % 16) :: l, rfl, ?_⟩
  have hvalue : 4096 * (n / 4096) + 256 * (n / 256 % 16) + 16 * (n / 16 % 16) + n % 16 = n := by
    omega
  rw [readUnit, hexValue_digitChar _ (by omega), hexValue_digitChar _ (by omega),
    hexValue_digitChar _ (by omega), hexValue_digitChar _ (by omega)]
  simp [hvalue]

/-- The escapes with a letter of their own are read back. -/
theorem readChar_short {p : Char × Char} (h : p ∈ shortEscapes) (l : List Char) :
    readChar ('\\' :: p.2 :: l) = some (p.1, l) := by
  simp only [shortEscapes, List.mem_cons, List.not_mem_nil, or_false] at h
  rcases h with rfl | rfl | rfl | rfl | rfl | rfl | rfl <;> rfl

/-- A character is no surrogate. -/
theorem toNat_not_surrogate (c : Char) :
    c.toNat < 55296 ∨ 57344 ≤ c.toNat ∧ c.toNat < 1114112 := by
  have h : c.toNat < 55296 ∨ 57343 < c.toNat ∧ c.toNat < 1114112 := c.valid
  omega

/-- The units of a character are read back: it, or its two surrogates. -/
theorem readUnits_jsonUnit {c : Char} (h : c.toNat < 65536) (l : List Char) :
    readChar (jsonUnit c.toNat ++ l) = some (c, l) := by
  obtain ⟨rest, heq, hread⟩ := readUnit_jsonUnit h l
  have hnot : ¬(55296 ≤ c.toNat ∧ c.toNat < 56320) := by
    have := toNat_not_surrogate c
    omega
  rw [heq, readChar, readUnits, hread]
  simp [hnot, Char.ofNat_toNat]

/-- Two surrogates are read back as one character. -/
theorem readUnits_pair {high low : ℕ} (hhigh : 55296 ≤ high ∧ high < 56320)
    (hlow : 56320 ≤ low ∧ low < 57344) (l : List Char) :
    readChar (jsonUnit high ++ (jsonUnit low ++ l)) =
      some (Char.ofNat (65536 + (high - 55296) * 1024 + (low - 56320)), l) := by
  obtain ⟨rest, heq, hread⟩ := readUnit_jsonUnit (Nat.lt_trans hlow.2 (by decide)) l
  obtain ⟨rest', heq', hread'⟩ :=
    readUnit_jsonUnit (Nat.lt_trans hhigh.2 (by decide)) ('\\' :: 'u' :: rest)
  rw [heq, heq', readChar, readUnits, hread']
  simp [hhigh, hlow, hread]

theorem readUnits_surrogates {c : Char} (h : 65536 ≤ c.toNat) (l : List Char) :
    readChar (jsonUnit (55296 + (c.toNat - 65536) / 1024) ++
      (jsonUnit (56320 + (c.toNat - 65536) % 1024) ++ l)) = some (c, l) := by
  have hlt : c.toNat < 1114112 := by
    have := toNat_not_surrogate c
    omega
  have hvalue : 65536 + (55296 + (c.toNat - 65536) / 1024 - 55296) * 1024 +
      (56320 + (c.toNat - 65536) % 1024 - 56320) = c.toNat := by omega
  rw [readUnits_pair (by omega) (by omega), hvalue, Char.ofNat_toNat]

/-- A printed character is read back, and ends no text. -/
theorem readChar_jsonChar (c : Char) (l : List Char) :
    readChar (jsonChar c ++ l) = some (c, l) ∧ (jsonChar c ++ l).head? ≠ some '"' := by
  rw [jsonChar]
  split
  · next p hp =>
    have hc : p.1 = c := by simpa using List.find?_some hp
    exact ⟨hc ▸ readChar_short (List.mem_of_find?_eq_some hp) l, by simp⟩
  · next hnone =>
    have hshort (p : Char × Char) (hp : p ∈ shortEscapes) : p.1 ≠ c := by
      simpa using List.find?_eq_none.1 hnone p hp
    split_ifs with hprintable hbasic
    · -- The character stands for itself.
      have hslash : c ≠ '\\' := (hshort ('\\', '\\') (by decide)).symm
      have hquote : c ≠ '"' := (hshort ('"', '"') (by decide)).symm
      refine ⟨?_, by simpa using hquote⟩
      rw [List.singleton_append, readChar]
      · rw [if_neg (by simp only [hslash, or_false]; omega)]
      · exact fun rest h _ => hslash h
      · exact fun e rest h _ => hslash h
    · exact ⟨readUnits_jsonUnit hbasic l, by simp [jsonUnit]⟩
    · rw [List.append_assoc]
      exact ⟨readUnits_surrogates (by omega) l, by simp [jsonUnit]⟩

/-- The characters of a text are read back, up to its end. -/
theorem readChars_append (s rest : List Char) {n : ℕ} (hn : s.length ≤ n) :
    readChars n (s.flatMap jsonChar ++ '"' :: rest) = some (s, rest) := by
  induction s generalizing n with
  | nil => simp [readChars]
  | cons c s ih =>
    obtain ⟨n, rfl⟩ := Nat.exists_eq_succ_of_ne_zero (Nat.ne_of_gt (Nat.zero_lt_of_lt hn))
    obtain ⟨hread, hhead⟩ := readChar_jsonChar c (s.flatMap jsonChar ++ '"' :: rest)
    rw [List.flatMap_cons, List.append_assoc, readChars]
    · rw [hread]
      simp [ih (Nat.le_of_succ_le_succ hn)]
    · rintro x hx
      rw [hx] at hhead
      exact hhead rfl

/-- No character is left out. -/
theorem length_le_flatMap (s : List Char) : s.length ≤ (s.flatMap jsonChar).length := by
  induction s with
  | nil => simp
  | cons c s ih =>
    have hpos : 0 < (jsonChar c).length := by
      rw [jsonChar]
      split
      · simp
      · split_ifs <;> simp [jsonUnit]
    rw [List.flatMap_cons, List.length_append, List.length_cons]
    omega

/-- A printed text is read back. -/
theorem readText_jsonText (s : String) (rest : List Char) :
    readText ((jsonText s).toList ++ rest) = some (s, rest) := by
  have hlist : (jsonText s).toList ++ rest =
      '"' :: (s.toList.flatMap jsonChar ++ '"' :: rest) := by
    simp [jsonText]
  have hlength := length_le_flatMap s.toList
  rw [hlist, readText, readChars_append _ _ (by rw [List.length_append]; omega)]
  simp

/-- An entry, as `json.dumps` prints it. -/
def printEntry (p : String × String) : String := jsonText p.1 ++ ": " ++ jsonText p.2

/-- The entries printed are read back. -/
theorem readEntries_print (p : String × String) (l : List (String × String)) {n : ℕ}
    (hn : l.length < n) :
    readEntries n ((", ".intercalate ((p :: l).map printEntry)).toList ++ ['\x7d']) =
      some (p :: l) := by
  have hentry (p : String × String) (rest : List Char) : (printEntry p).toList ++ rest =
      (jsonText p.1).toList ++ ':' :: ' ' :: ((jsonText p.2).toList ++ rest) := by
    simp [printEntry]
  induction l generalizing p n with
  | nil =>
    obtain ⟨n, rfl⟩ := Nat.exists_eq_succ_of_ne_zero (Nat.ne_of_gt hn)
    rw [List.map_cons, List.map_nil, String.intercalate_singleton, hentry, readEntries,
      readText_jsonText]
    simp only [readText_jsonText]
  | cons q l ih =>
    obtain ⟨n, rfl⟩ := Nat.exists_eq_succ_of_ne_zero (Nat.ne_of_gt (Nat.zero_lt_of_lt hn))
    have hcons : (", ".intercalate ((p :: q :: l).map printEntry)).toList ++ ['\x7d'] =
        (printEntry p).toList ++ (',' :: ' ' ::
          ((", ".intercalate ((q :: l).map printEntry)).toList ++ ['\x7d'])) := by
      rw [List.map_cons, List.map_cons, String.toList_intercalate, List.map_cons, List.map_cons,
        List.intercalate_cons_cons, String.toList_intercalate, List.map_cons]
      simp
    rw [hcons, hentry, readEntries, readText_jsonText]
    simp only [readText_jsonText]
    rw [ih q (by simpa using hn)]
    rfl

theorem length_intercalate {α : Type*} (sep : List α) (hsep : sep ≠ []) (parts : List (List α)) :
    parts.length ≤ (List.intercalate sep parts).length + 1 := by
  induction parts with
  | nil => simp
  | cons part parts ih =>
    cases parts with
    | nil => simp
    | cons next parts =>
      have hpos := List.length_pos_iff.2 hsep
      rw [List.intercalate_cons_cons, List.length_append, List.length_append, List.length_cons]
      omega

/-- A printed map is read back. -/
theorem readMap_jsonMap (l : List (String × String)) : readMap (jsonMap l) = some l := by
  cases l with
  | nil => decide +kernel
  | cons p l =>
    have hlist : (jsonMap (p :: l)).toList =
        '\x7b' :: ((", ".intercalate ((p :: l).map printEntry)).toList ++ ['\x7d']) := by
      rw [jsonMap, String.toList_append, String.toList_append]
      rfl
    have hlength : l.length < (jsonMap (p :: l)).length := by
      have hle := length_intercalate [',', ' '] (by simp)
        (((p :: l).map printEntry).map String.toList)
      rw [← String.length_toList, hlist, String.toList_intercalate, List.length_cons,
        List.length_append]
      simp only [List.length_map, List.length_cons] at hle
      exact Nat.lt_succ_of_le (Nat.le_of_succ_le_succ (Nat.le_trans hle (by simp)))
    have hread := readEntries_print p l hlength
    unfold readMap
    rw [hlist]
    split
    · next h =>
      -- An entry does not begin with a brace.
      rw [(List.cons.inj h).2] at hread
      obtain ⟨n, hn⟩ := Nat.exists_eq_succ_of_ne_zero (Nat.ne_of_gt (Nat.zero_lt_of_lt hlength))
      rw [hn] at hread
      cases hread
    · next rest h =>
      rw [← (List.cons.inj h).2]
      exact hread
    · next h => exact absurd rfl (h _)

end NtierLab
