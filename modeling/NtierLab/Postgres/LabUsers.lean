import NtierLab.Postgres.Pod
import NtierLab.Text.Python

/-!
# The map of lab users

How the pod reads its map of users (`helm/test-app/lab_auth.py`,
`load_lab_users`): a JSON object, each key a name, each value a tenant or a list
of tenants. The elements are made texts, and a literal has a text too: `true` is
`True`, which normalizes to a valid id.

* `Decides`: the entry that decides about a user, the last one whose key is the
  name and whose value is a text or a list; the map loaded has its elements
  (`loadUsers_lookup`).
* `normalize_pyStr_iff`: of the values that are no text, five have a text that
  normalizes to a valid id (`Coerced`).
* `allows_iff`: the map grants exactly what it says, unless the entry that
  decides has such a value for the tenant and no text.
-/

namespace NtierLab

/-! ## JSON values -/

/-- A float, by its text in Python: that of a finite one begins with the sign and a number. -/
inductive FloatText
  | finite (negative : Bool) (whole : ℕ) (rest : String)
  | inf
  | negInf
  | nan
  deriving DecidableEq

/-- A value `json.loads` returns. An object is a dict: an entry for each name, in order. -/
inductive Json
  | null
  | bool (b : Bool)
  | int (n : ℤ)
  | float (f : FloatText)
  | str (s : String)
  | list (elements : List Json)
  | obj (entries : List (String × Json))

/-- How `json.loads` fails: on a malformed text, or otherwise. -/
inductive LoadsError
  | jsonDecodeError
  | other

/-- Python's `str` of a float. -/
def FloatText.text : FloatText → String
  | finite negative whole rest => (if negative then "-" else "") ++ toString whole ++ rest
  | inf => "inf"
  | negInf => "-inf"
  | nan => "nan"

section

variable (reprText : String → String)

mutual

/-- Python's `repr` of a value; `reprText` is that of a text. -/
def Json.repr : Json → String
  | .null => "None"
  | .bool b => if b then "True" else "False"
  | .int n => toString n
  | .float f => f.text
  | .str s => reprText s
  | .list elements => "[" ++ ", ".intercalate (reprElements elements) ++ "]"
  | .obj entries => "\x7b" ++ ", ".intercalate (reprEntries entries) ++ "\x7d"

def reprElements : List Json → List String
  | [] => []
  | j :: js => j.repr :: reprElements js

def reprEntries : List (String × Json) → List String
  | [] => []
  | (k, j) :: js => (reprText k ++ ": " ++ j.repr) :: reprEntries js

end

/-- Python's `str` of a value. -/
def Json.pyStr : Json → String
  | .str s => s
  | j => j.repr reprText

/-! ## Loading the map -/

/-- The elements of a value: a text is one. -/
def Json.elements : Json → Option (List Json)
  | .str s => some [.str s]
  | .list elements => some elements
  | _ => none

/-- `users[key] = tenants`. -/
def setUser (users : List (String × List String)) (key : String) (tenants : List String) :
    List (String × List String) :=
  (key, tenants) :: users.filter (·.1 ≠ key)

/-- The texts of the tenants of a user, the empty ones left out. -/
def tenantTexts (elements : List Json) : List String :=
  (elements.map fun e => pyStrip (e.pyStr reprText)).filter (· ≠ "")

/-- An entry of the map: skipped without a key, and with a value of another type. -/
def addUser (users : List (String × List String)) (entry : String × Json) :
    List (String × List String) :=
  let key := pyStrip entry.1
  if key = "" then users
  else
    match entry.2.elements with
    | none => users
    | some elements => setUser users key (tenantTexts reprText elements)

variable (loads : String → Except LoadsError Json)

/-- `load_lab_users`. -/
def loadLabUsers (raw : String) : Except LoadsError (List (String × List String)) :=
  if pyStrip raw = "" then .ok []
  else
    match loads raw with
    | .error .jsonDecodeError => .ok []
    | .error .other => .error .other
    | .ok (.obj entries) => .ok (entries.foldl (addUser reprText) [])
    | .ok _ => .ok []

/-- The request of a user is let through by the pod of a tenant, with the map of `raw`. -/
def Allows (raw : String) (user : Option String) (pod : Pod) (t : TenantId) : Prop :=
  ∃ users, loadLabUsers reprText loads raw = .ok users ∧
    authorizeLabUser { pod with tenantId := t.val, labUsers := users } user = none

end

/-! ## What the map says -/

/-- The text is a JSON object. -/
def IsObject (loads : String → Except LoadsError Json) (raw : String)
    (entries : List (String × Json)) : Prop :=
  pyStrip raw ≠ "" ∧ loads raw = .ok (.obj entries)

/-- The entry that decides about a name, by the elements of its value: the last one whose key is
    the name and whose value has elements. -/
def Decides (entries : List (String × Json)) (name : String) (elements : List Json) : Prop :=
  ∃ before key value after, entries = before ++ (key, value) :: after ∧ pyStrip key = name ∧
    value.elements = some elements ∧ ∀ e ∈ after, pyStrip e.1 = name → e.2.elements = none

/-- The map grants a tenant to a user: the entry that decides has a text that normalizes to it. -/
def Grants (loads : String → Except LoadsError Json) (raw : String) (user : Option String)
    (t : TenantId) : Prop :=
  ∃ entries elements, IsObject loads raw entries ∧ pyStrip (user.getD "") ≠ "" ∧
    Decides entries (pyStrip (user.getD "")) elements ∧
    ∃ s, .str s ∈ elements ∧ normalizeTenantId s = t.val

/-- A value that is no text, but has one that normalizes to the id of a tenant. -/
def Coerced (e : Json) (t : TenantId) : Prop :=
  match e with
  | .null => t.val = "none"
  | .bool b => t.val = if b then "true" else "false"
  | .float .inf => t.val = "inf"
  | .float .nan => t.val = "nan"
  | _ => False

section

variable {reprText : String → String} {loads : String → Except LoadsError Json} {t : TenantId}
  {entries : List (String × Json)} {name : String} {elements : List Json}

/-- The entry added last decides, if it can. -/
theorem decides_concat {key : String} {value : Json} :
    Decides (entries ++ [(key, value)]) name elements ↔
      (pyStrip key = name ∧ value.elements = some elements) ∨
        ((pyStrip key = name → value.elements = none) ∧ Decides entries name elements) := by
  constructor
  · rintro ⟨before, key', value', after, heq, hkey, hvalue, hafter⟩
    induction after using List.reverseRecOn with
    | nil =>
      obtain ⟨rfl, hlast⟩ := List.append_inj' heq rfl
      cases hlast
      exact .inl ⟨hkey, hvalue⟩
    | append_singleton after e _ =>
      have heq' : entries ++ [(key, value)] = (before ++ (key', value') :: after) ++ [e] := by
        simpa using heq
      obtain ⟨rfl, hlast⟩ := List.append_inj' heq' rfl
      cases hlast
      exact .inr ⟨hafter (key, value) (by simp), before, key', value', after, rfl, hkey, hvalue,
        fun e he => hafter e (List.mem_append_left _ he)⟩
  · rintro (⟨hkey, hvalue⟩ | ⟨hlast, before, key', value', after, rfl, hkey, hvalue, hafter⟩)
    · exact ⟨entries, key, value, [], rfl, hkey, hvalue, by simp⟩
    · refine ⟨before, key', value', after ++ [(key, value)], by simp, hkey, hvalue, ?_⟩
      intro e he
      rcases List.mem_append.1 he with he | he
      · exact hafter e he
      · rw [List.mem_singleton.1 he]
        exact hlast

theorem lookup_setUser {users : List (String × List String)} {key : String}
    {tenants : List String} : (setUser users key tenants).lookup name =
      if name = key then some tenants else users.lookup name := by
  have hfilter (hne : name ≠ key) :
      (users.filter (·.1 ≠ key)).lookup name = users.lookup name := by
    induction users with
    | nil => rfl
    | cons user users ih =>
      obtain ⟨k, v⟩ := user
      by_cases hk : k = key
      · subst hk
        rw [List.filter_cons_of_neg (by simp), ih, List.lookup_cons, beq_false_of_ne hne]
      · rw [List.filter_cons_of_pos (by simpa using hk), List.lookup_cons, List.lookup_cons, ih]
  rw [setUser, List.lookup_cons]
  split_ifs with h
  · rw [beq_iff_eq.2 h]
  · rw [beq_false_of_ne h]
    exact hfilter h

/-- The map loaded has the elements of the entry that decides, for every name. -/
theorem loadUsers_lookup (hname : name ≠ "") {texts : List String} :
    (entries.foldl (addUser reprText) []).lookup name = some texts ↔
      ∃ elements, Decides entries name elements ∧ texts = tenantTexts reprText elements := by
  induction entries using List.reverseRecOn with
  | nil => simp [Decides]
  | append_singleton entries e ih =>
    obtain ⟨key, value⟩ := e
    rw [List.foldl_concat, addUser]
    simp only [decides_concat]
    by_cases hempty : pyStrip key = ""
    · -- An entry whose key is empty is skipped, and no name is.
      simp [hempty, hname.symm, ih]
    · rw [if_neg hempty]
      cases hvalue : value.elements with
      | none => simpa using ih
      | some elements =>
        simp only [lookup_setUser]
        by_cases hkey : name = pyStrip key
        · simp [hkey, eq_comm]
        · simp [hkey, Ne.symm hkey, ih]

/-! ## What is no text -/

/-- A text that begins with a character that is no letter, nor whitespace, is not normalized to
    an id. -/
theorem normalize_ne {s : String} {c : Char} {rest : List Char} (hs : s.toList = c :: rest)
    (hspace : ¬pyIsSpace c) (hlower : pyLowerChar c = [c]) (hc : c.isLower = false) :
    normalizeTenantId s ≠ t.val := by
  have hstrip : ∃ tail, (pyStrip s).toList = c :: tail := by
    rw [pyStrip_eq_rdropWhile, String.toList_ofList, hs, List.dropWhile_cons_of_neg hspace,
      List.rdropWhile, List.reverse_cons, List.dropWhile_append]
    split
    · exact ⟨[], by simp [List.dropWhile_cons_of_neg hspace]⟩
    · exact ⟨_, by rw [List.reverse_append]; rfl⟩
  obtain ⟨tail, htail⟩ := hstrip
  have hv : (pyLower (pyStrip s)).toList = c :: tail.flatMap pyLowerChar := by
    rw [pyLower, String.toList_ofList, htail, List.flatMap_cons, hlower]
    rfl
  have hdash : ¬"tenant-".toList <+: (pyLower (pyStrip s)).toList := by
    rw [hv]
    rintro ⟨x, hx⟩
    have ht : 't' = c := (List.cons.inj hx).1
    exact absurd (ht ▸ hc) (by decide)
  unfold normalizeTenantId
  rw [if_neg hdash]
  intro heq
  obtain ⟨d, ds, hd, hdl⟩ := t.head_isLower
  rw [← heq, hv] at hd
  rw [(List.cons.inj hd).1] at hc
  exact Bool.false_ne_true (hc.symm.trans hdl)

/-- The text of a number is not normalized to an id. -/
theorem normalize_number_ne {s : String} {n : ℤ} {rest : List Char}
    (hs : s.toList = (toString n).toList ++ rest) : normalizeTenantId s ≠ t.val := by
  obtain ⟨c, cs, hcs⟩ := List.exists_cons_of_ne_nil (toString_ne_nil n)
  have hc : c.isDigit ∨ c = '-' := toString_chars (hcs ▸ List.mem_cons_self)
  rw [hcs, List.cons_append] at hs
  refine normalize_ne hs (not_isSpace_of_digit hc) ?_ ?_
  · have hascii : c.toNat < 128 ∧ ¬(65 ≤ c.toNat ∧ c.toNat ≤ 90) := by
      rcases hc with hc | rfl
      · simp only [Char.isDigit, Bool.and_eq_true, decide_eq_true_eq] at hc
        have hle : c.toNat ≤ 57 := UInt32.le_iff_toNat_le.1 hc.2
        omega
      · decide
    rw [pyLowerChar_ascii hascii.1, Char.toLower, dif_neg]
    exact fun h => hascii.2 ⟨UInt32.le_iff_toNat_le.1 h.1, UInt32.le_iff_toNat_le.1 h.2⟩
  · rcases hc with hc | rfl
    · simp only [Char.isDigit, Bool.and_eq_true, decide_eq_true_eq] at hc
      have hle : c.toNat ≤ 57 := UInt32.le_iff_toNat_le.1 hc.2
      rw [Bool.eq_false_iff]
      intro hlower
      simp only [Char.isLower, Bool.and_eq_true, decide_eq_true_eq] at hlower
      have hge : 97 ≤ c.toNat := UInt32.le_iff_toNat_le.1 hlower.1
      omega
    · rfl

/-- Of the values that are no text, the coerced ones normalize to an id. -/
theorem normalize_pyStr_iff (e : Json) : normalizeTenantId (e.pyStr reprText) = t.val ↔
    (∃ s, e = .str s ∧ normalizeTenantId s = t.val) ∨ Coerced e t := by
  have hopen {s : String} {c : Char} (hs : ∃ rest, s.toList = c :: rest)
      (hc : c ∈ ['[', '\x7b', '-']) : normalizeTenantId s ≠ t.val := by
    obtain ⟨rest, hs⟩ := hs
    simp only [List.mem_cons, List.not_mem_nil, or_false] at hc
    rcases hc with rfl | rfl | rfl <;>
      exact normalize_ne hs (by decide) (by decide) rfl
  cases e with
  | null =>
    have h : normalizeTenantId "None" = "none" := by decide +kernel
    simp [Json.pyStr, Json.repr, h, Coerced, eq_comm]
  | bool b =>
    have ht : normalizeTenantId "True" = "true" := by decide +kernel
    have hf : normalizeTenantId "False" = "false" := by decide +kernel
    cases b <;> simp [Json.pyStr, Json.repr, ht, hf, Coerced, eq_comm]
  | int n =>
    have hn : (toString n).toList = (toString n).toList ++ [] := (List.append_nil _).symm
    simpa [Json.pyStr, Json.repr, Coerced] using normalize_number_ne (t := t) hn
  | float f =>
    cases f with
    | finite negative whole rest =>
      have h : normalizeTenantId (FloatText.finite negative whole rest).text ≠ t.val := by
        cases negative with
        | true =>
          have hs : (FloatText.finite true whole rest).text.toList =
              '-' :: ((toString whole).toList ++ rest.toList) := by
            rw [FloatText.text, if_pos rfl, String.toList_append, String.toList_append]
            rfl
          exact hopen ⟨_, hs⟩ (by simp)
        | false =>
          have hs : (FloatText.finite false whole rest).text.toList =
              (toString (whole : ℤ)).toList ++ rest.toList := by
            rw [FloatText.text, if_neg Bool.false_ne_true, String.empty_append,
              String.toList_append]
            rfl
          exact normalize_number_ne hs
      simpa [Json.pyStr, Json.repr, Coerced] using h
    | inf =>
      have h : normalizeTenantId "inf" = "inf" := by decide +kernel
      simp [Json.pyStr, Json.repr, FloatText.text, h, Coerced, eq_comm]
    | negInf =>
      have h : normalizeTenantId "-inf" ≠ t.val := hopen (c := '-') ⟨_, rfl⟩ (by simp)
      simpa [Json.pyStr, Json.repr, FloatText.text, Coerced] using h
    | nan =>
      have h : normalizeTenantId "nan" = "nan" := by decide +kernel
      simp [Json.pyStr, Json.repr, FloatText.text, h, Coerced, eq_comm]
  | str s => simp [Json.pyStr, Coerced]
  | list elements =>
    have h : normalizeTenantId ((Json.list elements).repr reprText) ≠ t.val := by
      rw [Json.repr]
      exact hopen (c := '[') ⟨_, by rw [String.append_assoc, String.toList_append]; rfl⟩ (by simp)
    simpa [Json.pyStr, Coerced] using h
  | obj entries =>
    have h : normalizeTenantId ((Json.obj entries).repr reprText) ≠ t.val := by
      rw [Json.repr]
      exact hopen (c := '\x7b') ⟨_, by rw [String.append_assoc, String.toList_append]; rfl⟩ (by simp)
    simpa [Json.pyStr, Coerced] using h

/-! ## What is granted -/

/-- The pod of a tenant lets through a user whose tenants have its id. -/
theorem authorizeLabUser_eq_none {pod : Pod} {users : List (String × List String)}
    {user : Option String} :
    authorizeLabUser { pod with tenantId := t.val, labUsers := users } user = none ↔
      pyStrip (user.getD "") ≠ "" ∧ ∃ allowed, users.lookup (pyStrip (user.getD "")) = some allowed ∧
        ∃ text ∈ allowed, normalizeTenantId text = t.val := by
  have hne := t.val_ne_empty
  unfold authorizeLabUser
  by_cases hname : pyStrip (user.getD "") = ""
  · simp [hname]
  · cases hlookup : users.lookup (pyStrip (user.getD "")) with
    | none => simp [hname, hlookup]
    | some allowed =>
      simp only [hname, hlookup, if_false, normalizeTenantId_val, hne, false_or, List.mem_map,
        ite_eq_right_iff, not_false_eq_true, ne_eq, true_and, Option.some.injEq, exists_eq_left']
      constructor
      · intro h
        by_contra hnone
        exact absurd (h hnone) (by simp)
      · exact fun h hnone => absurd h hnone

/-- A map that has a user is that of an object. -/
theorem loadLabUsers_lookup {raw : String} (hname : name ≠ "") {texts : List String} :
    (∃ users, loadLabUsers reprText loads raw = .ok users ∧ users.lookup name = some texts) ↔
      ∃ entries, IsObject loads raw entries ∧
        ∃ elements, Decides entries name elements ∧ texts = tenantTexts reprText elements := by
  simp only [← loadUsers_lookup hname, IsObject]
  unfold loadLabUsers
  constructor
  · rintro ⟨users, hload, hlookup⟩
    split_ifs at hload with hraw
    · cases hload
      cases hlookup
    · split at hload
      · cases hload
        cases hlookup
      · cases hload
      · next entries hloads =>
        cases hload
        exact ⟨entries, ⟨hraw, hloads⟩, hlookup⟩
      · cases hload
        cases hlookup
  · rintro ⟨entries, ⟨hraw, hloads⟩, hlookup⟩
    exact ⟨_, by rw [if_neg hraw, hloads], hlookup⟩

/-- A tenant's text is one of an element, stripped. -/
theorem mem_tenantTexts_normalize :
    (∃ text ∈ tenantTexts reprText elements, normalizeTenantId text = t.val) ↔
      ∃ e ∈ elements, normalizeTenantId (e.pyStr reprText) = t.val := by
  have hstrip (s : String) : normalizeTenantId (pyStrip s) = normalizeTenantId s := by
    rw [normalizeTenantId, pyStrip_pyStrip, ← normalizeTenantId]
  have hempty : normalizeTenantId "" ≠ t.val := by
    have h : normalizeTenantId "" = "" := by decide +kernel
    rw [h]
    exact t.val_ne_empty.symm
  simp only [tenantTexts, List.mem_filter, List.mem_map, decide_eq_true_eq]
  constructor
  · rintro ⟨_, ⟨⟨e, he, rfl⟩, -⟩, h⟩
    exact ⟨e, he, by rwa [hstrip] at h⟩
  · rintro ⟨e, he, h⟩
    refine ⟨pyStrip (e.pyStr reprText), ⟨⟨e, he, rfl⟩, fun hnil => hempty ?_⟩, by rwa [hstrip]⟩
    rw [← hnil, hstrip, h]

/-- A request is let through where the entry that decides has an element whose text normalizes to
    the tenant. -/
theorem allows_iff {raw : String} {user : Option String} {pod : Pod} :
    Allows reprText loads raw user pod t ↔
      ∃ entries elements, IsObject loads raw entries ∧ pyStrip (user.getD "") ≠ "" ∧
        Decides entries (pyStrip (user.getD "")) elements ∧
        ∃ e ∈ elements, normalizeTenantId (e.pyStr reprText) = t.val := by
  simp only [Allows, authorizeLabUser_eq_none, ← mem_tenantTexts_normalize]
  constructor
  · rintro ⟨users, hload, hname, allowed, hlookup, h⟩
    obtain ⟨entries, hobj, elements, hdec, rfl⟩ :=
      (loadLabUsers_lookup hname).1 ⟨users, hload, hlookup⟩
    exact ⟨entries, elements, hobj, hname, hdec, h⟩
  · rintro ⟨entries, elements, hobj, hname, hdec, h⟩
    obtain ⟨users, hload, hlookup⟩ :=
      (loadLabUsers_lookup hname).2 ⟨entries, hobj, elements, hdec, rfl⟩
    exact ⟨users, hload, hname, _, hlookup, h⟩

/-- One entry decides. -/
theorem Decides.unique {elements' : List Json} (h : Decides entries name elements)
    (h' : Decides entries name elements') : elements = elements' := by
  induction entries using List.reverseRecOn with
  | nil => simp [Decides] at h
  | append_singleton entries e ih =>
    rw [decides_concat] at h h'
    rcases h with ⟨hkey, hv⟩ | ⟨hlast, h⟩ <;> rcases h' with ⟨hkey', hv'⟩ | ⟨hlast', h'⟩
    · exact Option.some.inj (hv.symm.trans hv')
    · rw [hlast' hkey] at hv
      cases hv
    · rw [hlast hkey'] at hv'
      cases hv'
    · exact ih h h'

/-- The map grants exactly what it says, unless the entry that decides about the user has a value
    coerced to the id of the tenant, and no text that normalizes to it. -/
theorem allows_grants_iff (reprText : String → String) (loads : String → Except LoadsError Json)
    (raw : String) (user : Option String) (pod : Pod) (t : TenantId) :
    (Allows reprText loads raw user pod t ↔ Grants loads raw user t) ↔
      ∀ entries elements, IsObject loads raw entries → pyStrip (user.getD "") ≠ "" →
        Decides entries (pyStrip (user.getD "")) elements → (∃ e ∈ elements, Coerced e t) →
        ∃ s, .str s ∈ elements ∧ normalizeTenantId s = t.val := by
  simp only [allows_iff, normalize_pyStr_iff, Grants]
  constructor
  · rintro h entries elements hobj hname hdec ⟨e, he, hcoerced⟩
    obtain ⟨entries', elements', hobj', -, hdec', hs⟩ :=
      h.1 ⟨entries, elements, hobj, hname, hdec, e, he, .inr hcoerced⟩
    obtain rfl : entries = entries' := by
      have := hobj.2.symm.trans hobj'.2
      simpa using this
    rwa [hdec.unique hdec']
  · intro h
    constructor
    · rintro ⟨entries, elements, hobj, hname, hdec, e, he, ⟨s, rfl, hs⟩ | hcoerced⟩
      · exact ⟨entries, elements, hobj, hname, hdec, s, he, hs⟩
      · exact ⟨entries, elements, hobj, hname, hdec, h entries elements hobj hname hdec
          ⟨e, he, hcoerced⟩⟩
    · rintro ⟨entries, elements, hobj, hname, hdec, s, he, hs⟩
      exact ⟨entries, elements, hobj, hname, hdec, .str s, he, .inl ⟨s, rfl, hs⟩⟩

end

/-- The map that says `true` of a user. -/
def trueMap : String := "\x7b\"alice\": [true]\x7d"

/-- How that map is loaded. -/
def loadsTrueMap (raw : String) : Except LoadsError Json :=
  if raw = trueMap then .ok (.obj [("alice", .list [.bool true])]) else .error .jsonDecodeError

/-- The tenant `true`. -/
def TenantId.yes : TenantId := ⟨"true", rfl⟩

/-- The literal lets its user through to the tenant with its name, which no text grants. -/
theorem trueMap_not_granted :
    ¬∀ reprText loads raw user pod t,
      Allows reprText loads raw user pod t ↔ Grants loads raw user t := by
  have hobj : IsObject loadsTrueMap trueMap [("alice", .list [.bool true])] :=
    ⟨by decide +kernel, if_pos rfl⟩
  have halice : pyStrip ((some "alice").getD "") = "alice" := by decide +kernel
  have hdec : Decides [("alice", .list [.bool true])] "alice" [.bool true] :=
    ⟨[], "alice", _, [], rfl, by decide +kernel, rfl, by simp⟩
  intro h
  have hallows : Allows id loadsTrueMap trueMap (some "alice") ⟨"", true, true, [], ""⟩ .yes :=
    allows_iff.2 ⟨_, _, hobj, by rw [halice]; decide +kernel, halice ▸ hdec, .bool true, by simp,
      by decide +kernel⟩
  obtain ⟨entries, elements, hobj', -, hdec', s, hs, -⟩ := (h _ _ _ _ _ _).1 hallows
  obtain rfl : [("alice", .list [.bool true])] = entries := by
    simpa using hobj.2.symm.trans hobj'.2
  rw [halice] at hdec'
  rw [← hdec.unique hdec', List.mem_singleton] at hs
  cases hs

end NtierLab
