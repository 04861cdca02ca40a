import NtierLab.Text.Lines
import NtierLab.Text.Infix
import NtierLab.ControlPlane.Ids

/-!
# The tenant ids in the variables of OpenTofu

`ensure_tenant_in_tfvars` (`control-plane/infra.py`) edits the list of tenant ids in
`terraform.tfvars` by a regular expression: it collects every quoted id between the
brackets, appends the tenant, and writes the list anew.

* `parseIds_render`: the ids collected are those of the list, and those in its comments;
* `searchFrom_replace`: the regular expression finds the edited list where it found the
  list before;
* `ensureTenantInTfvars_lossless_iff`: the edit is lossless exactly when the tenant was in
  the list already, where the regular expression reads it, or no comment of the list has a
  quoted id or a closing bracket and no line outside of the assignment ends in a carriage
  return.
-/

namespace NtierLab

/-! ## The regular expression -/

/-- `\s*tenant_ids\s*=\s*`. -/
def isHead (g : List Char) : Bool :=
  match (g.dropWhile pyIsSpace).dropPrefix? "tenant_ids".toList with
  | some l =>
    match l.dropWhile pyIsSpace with
    | '=' :: l => l.all pyIsSpace
    | _ => false
  | none => false

/-- A match of `_TENANT_IDS_RE`: its groups, and the text around it. -/
structure TenantIdsMatch where
  before : List Char
  group1 : List Char
  group2 : List Char
  group3 : List Char
  after : List Char

/-- `_TENANT_IDS_RE` at the start of a line. Its first group has no bracket, so it ends at the
    first one. -/
def matchAt (l : List Char) : Option TenantIdsMatch := do
  let (g1, l) ← cut '[' l
  guard (isHead g1)
  let (g2, l) ← cut ']' l
  let (g3, l) ← lineEnd l
  return ⟨[], g1, g2, g3, l⟩

/-- The first match of `_TENANT_IDS_RE`, from the start of a line or not. -/
def searchFrom : Bool → List Char → Option TenantIdsMatch
  | _, [] => none
  | bol, c :: l =>
    match if bol then matchAt (c :: l) else none with
    | some m => some m
    | none => (searchFrom (decide (c = '\n')) l).map fun m => { m with before := c :: m.before }

/-- `_TENANT_IDS_RE.search`. -/
def tenantIdsReSearch (text : List Char) : Option TenantIdsMatch := searchFrom true text

/-- A character of an id. -/
def isIdChar (c : Char) : Bool := c.isLower || c.isDigit

/-- A quoted id. -/
def quoted (t : TenantId) : List Char := '"' :: (t.val.toList ++ ['"'])

/-- The quoted id a text begins with. -/
def idAt : List Char → Option TenantId
  | '"' :: l =>
    let run := l.takeWhile isIdChar
    if h : tenantIdRe (String.ofList run) = true ∧ (l.dropWhile isIdChar).head? = some '"' then
      some ⟨String.ofList run, h.1⟩
    else none
  | _ => none

/-- The quoted ids of a text, after some characters. -/
def findIds : ℕ → List Char → List TenantId
  | _, [] => []
  | k + 1, _ :: l => findIds k l
  | 0, c :: l =>
    match idAt (c :: l) with
    | some t => t :: findIds (t.val.toList.length + 1) l
    | none => findIds 0 l

/-- `_parse_ids`. -/
def parseIds (inner : List Char) : List TenantId := findIds 0 inner

/-- `_format_ids`, between the brackets. -/
def formatIds (ids : List TenantId) : List Char := List.intercalate [',', ' '] (ids.map quoted)

/-- The message of a file without the list. -/
def noTenantIds (tfvars : String) : Exn := .onboardError s!"no tenant_ids = [...] line in {tfvars}"

/-- `ensure_tenant_in_tfvars`, on the text of the file: whether it was changed, and the text of
    the file then. -/
def ensureTenantInTfvars (tfvars : String) (file : List Char) (t : TenantId) :
    Except Exn (Bool × List Char) :=
  match tenantIdsReSearch (universalNewlines file) with
  | none => .error (noTenantIds tfvars)
  | some m =>
    let ids := parseIds m.group2
    if t ∈ ids then .ok (false, file)
    else .ok (true, m.before ++ (m.group1 ++ '[' :: (formatIds (ids ++ [t]) ++ ']' ::
      (m.group3 ++ m.after))))

/-! ## The match -/

section

variable {bol : Bool} {x y l inner inner' : List Char} {m : TenantIdsMatch}

/-- What a match is, at its place. -/
structure Matches (l : List Char) (m : TenantIdsMatch) : Prop where
  text : l = m.group1 ++ '[' :: (m.group2 ++ ']' :: (m.group3 ++ m.after))
  group1 : '[' ∉ m.group1
  head : isHead m.group1 = true
  group2 : ']' ∉ m.group2
  lineEnd : lineEnd (m.group3 ++ m.after) = some (m.group3, m.after)

theorem matchAt_eq_some : matchAt l = some m ↔ m.before = [] ∧ Matches l m := by
  constructor
  · intro h
    simp only [matchAt, Option.bind_eq_bind, Option.bind_eq_some_iff] at h
    obtain ⟨⟨g1, l₁⟩, h₁, _, hhead, ⟨g2, l₂⟩, h₂, ⟨g3, l₃⟩, h₃, hm⟩ := h
    cases hm
    obtain ⟨rfl, hg1⟩ := cut_eq_some.1 h₁
    obtain ⟨rfl, hg2⟩ := cut_eq_some.1 h₂
    obtain rfl := lineEnd_append h₃
    exact ⟨rfl, rfl, hg1, by simpa [guard] using hhead, hg2, h₃⟩
  · rintro ⟨hbefore, rfl, h₁, hhead, h₂, h₃⟩
    simp only [matchAt, cut_append h₁, hhead, cut_append h₂, h₃, Option.bind_eq_bind,
      Option.bind_some, guard_true, Option.pure_def]
    cases m
    obtain rfl := hbefore
    rfl

/-- A match after some text. -/
theorem searchFrom_eq_some (h : searchFrom bol l = some m) :
    ∃ l', l = m.before ++ l' ∧ Matches l' m := by
  induction l generalizing bol m with
  | nil => cases h
  | cons c l ih =>
    rw [searchFrom] at h
    split at h
    · next m' hm =>
      cases h
      split at hm
      · obtain ⟨hbefore, hmatch⟩ := matchAt_eq_some.1 hm
        exact ⟨c :: l, by rw [hbefore, List.nil_append], hmatch⟩
      · cases hm
    · obtain ⟨m', hm, rfl⟩ := Option.map_eq_some_iff.1 h
      obtain ⟨l', rfl, hmatch⟩ := ih hm
      exact ⟨l', rfl, ⟨hmatch.text, hmatch.group1, hmatch.head, hmatch.group2, hmatch.lineEnd⟩⟩

/-- An attempt that fails before the list fails before any other list. -/
theorem matchAt_eq_none (hinner : ']' ∉ inner) (hy : (lineEnd y).isSome)
    (h : matchAt (x ++ '[' :: (inner ++ ']' :: y)) = none) :
    matchAt (x ++ '[' :: (inner' ++ ']' :: y)) = none := by
  obtain ⟨⟨g3, after⟩, hy⟩ := Option.isSome_iff_exists.1 hy
  simp only [matchAt, Option.bind_eq_bind] at h ⊢
  by_cases hx : '[' ∈ x
  · obtain ⟨a, v, rfl, ha⟩ := List.eq_append_cons_of_mem hx
    simp only [List.append_assoc, List.cons_append, cut_append ha, Option.bind_some] at h ⊢
    cases hhead : isHead a with
    | false => rfl
    | true =>
      simp only [hhead, guard_true, Option.pure_def, Option.bind_some] at h ⊢
      by_cases hv : ']' ∈ v
      · -- The bracket is closed before the list.
        obtain ⟨b, w, rfl, hb⟩ := List.eq_append_cons_of_mem hv
        simp only [List.append_assoc, List.cons_append, cut_append hb, Option.bind_some] at h ⊢
        cases hend : lineEnd (w ++ '[' :: (inner ++ ']' :: y)) with
        | none => rw [(lineEnd_eq_none (by decide)).1 hend]; rfl
        | some p => simp [hend] at h
      · -- The bracket is closed with the list, so that the attempt does not fail.
        have hlist : ']' ∉ v ++ '[' :: inner := by simp [hv, hinner]
        rw [show v ++ '[' :: (inner ++ ']' :: y) = (v ++ '[' :: inner) ++ ']' :: y by simp,
          cut_append hlist] at h
        simp [hy] at h
  · simp only [cut_append hx, Option.bind_some] at h ⊢
    cases hhead : isHead x with
    | false => rfl
    | true => simp [hhead, cut_append hinner, hy] at h

/-- The list is found again where it was, whatever is between its brackets. -/
theorem searchFrom_replace (hinner' : ']' ∉ inner')
    (h : searchFrom bol (x ++ '[' :: (inner ++ ']' :: y)) = some m)
    (hx : m.before ++ m.group1 = x) (hm : m.group2 = inner) :
    searchFrom bol (x ++ '[' :: (inner' ++ ']' :: y)) = some { m with group2 := inner' } := by
  induction x generalizing bol m with
  | nil =>
    -- The first group is not empty.
    obtain ⟨_, -, hmatch⟩ := searchFrom_eq_some h
    have hhead := hmatch.head
    rw [(List.append_eq_nil_iff.1 hx).2] at hhead
    exact absurd hhead (by decide)
  | cons c x ih =>
    obtain ⟨l', hl, hmatch⟩ := searchFrom_eq_some h
    obtain rfl : y = m.group3 ++ m.after := by
      rw [hmatch.text, ← hx, hm] at hl
      simpa using hl
    have hinner : ']' ∉ inner := hm ▸ hmatch.group2
    rw [List.cons_append, searchFrom] at h ⊢
    split at h
    · next m' hfound =>
      obtain rfl := Option.some.inj h
      split at hfound
      · next hbol =>
        obtain ⟨hbefore, -⟩ := matchAt_eq_some.1 hfound
        rw [hbefore, List.nil_append] at hx
        have hfound' : matchAt (c :: (x ++ '[' :: (inner' ++ ']' :: (m'.group3 ++ m'.after)))) =
            some { m' with group2 := inner' } :=
          matchAt_eq_some.2 ⟨hbefore, by rw [hx]; rfl, hmatch.group1, hmatch.head, hinner',
            hmatch.lineEnd⟩
        rw [if_pos hbol, hfound']
      · cases hfound
    · next hnone =>
      obtain ⟨m', hm', rfl⟩ := Option.map_eq_some_iff.1 h
      obtain ⟨-, hx⟩ := List.cons.inj hx
      have hnone' : (if bol then matchAt (c :: (x ++ '[' :: (inner' ++ ']' ::
          (m'.group3 ++ m'.after)))) else none) = none := by
        split
        · next hbol =>
          rw [if_pos hbol] at hnone
          exact matchAt_eq_none (x := c :: x) hinner
            (Option.isSome_of_eq_some hmatch.lineEnd) hnone
        · rfl
      rw [hnone', ih hm' hx hm]
      rfl

end

/-! ## The quoted ids -/

section

variable {t : TenantId} {a b l : List Char} {c : Char}

theorem isIdChar_of_mem (t : TenantId) (hc : c ∈ t.val.toList) : isIdChar c = true := by
  simpa [isIdChar] using t.isAlphanum c hc

theorem mem_quoted (h : c ∈ quoted t) : c = '"' ∨ isIdChar c = true := by
  rcases List.mem_cons.1 h with rfl | h
  · exact .inl rfl
  · rcases List.mem_append.1 h with h | h
    · exact .inr (isIdChar_of_mem t h)
    · exact .inl (List.mem_singleton.1 h)

theorem takeWhile_id (t : TenantId) (l : List Char) :
    (t.val.toList ++ '"' :: l).takeWhile isIdChar = t.val.toList := by
  rw [List.takeWhile_append_of_pos fun c hc => isIdChar_of_mem t hc,
    List.takeWhile_cons_of_neg (by decide), List.append_nil]

theorem dropWhile_id (t : TenantId) (l : List Char) :
    (t.val.toList ++ '"' :: l).dropWhile isIdChar = '"' :: l := by
  rw [List.dropWhile_append_of_pos fun c hc => isIdChar_of_mem t hc,
    List.dropWhile_cons_of_neg (by decide)]

/-- An id is found where its text is. -/
theorem idAt_eq_some : idAt l = some t ↔ quoted t <+: l := by
  constructor
  · intro h
    unfold idAt at h
    split at h
    · next l =>
      dsimp only at h
      split at h
      · next hid =>
        cases h
        obtain ⟨r, hr⟩ := List.head?_eq_some_iff.1 hid.2
        refine ⟨r, ?_⟩
        rw [quoted, String.toList_ofList, List.cons_append, List.append_assoc,
          List.singleton_append, ← hr, List.takeWhile_append_dropWhile]
      · cases h
    · cases h
  · rintro ⟨r, rfl⟩
    simp [quoted, idAt, takeWhile_id, dropWhile_id, t.valid]

/-- A separator is not part of a quoted id. -/
theorem idAt_append (hc : c ≠ '"') (hid : isIdChar c = false) : idAt (a ++ c :: b) = idAt a := by
  refine Option.ext fun t => idAt_eq_some.trans (Iff.trans ⟨fun h => ?_, fun h => ?_⟩
    idAt_eq_some.symm)
  · refine prefix_sep (fun hm => ?_) h
    rcases mem_quoted hm with rfl | h
    · exact hc rfl
    · rw [hid] at h
      cases h
  · exact h.trans (List.prefix_append _ _)

theorem findIds_append (hc : c ≠ '"') (hid : isIdChar c = false) {k : ℕ} (hk : k ≤ a.length) :
    findIds k (a ++ c :: b) = findIds k a ++ parseIds b := by
  induction a generalizing k with
  | nil =>
    obtain rfl := Nat.le_zero.1 hk
    have hnone : idAt (c :: b) = none := idAt_append (a := []) hc hid
    simp [findIds, hnone, parseIds]
  | cons d a ih =>
    cases k with
    | succ k => exact ih (Nat.le_of_succ_le_succ hk)
    | zero =>
      have hat : idAt (d :: (a ++ c :: b)) = idAt (d :: a) := idAt_append (a := d :: a) hc hid
      simp only [List.cons_append, findIds, hat]
      cases h : idAt (d :: a) with
      | none => exact ih (Nat.zero_le _)
      | some t =>
        obtain ⟨r, hr⟩ := idAt_eq_some.1 h
        have hlen : t.val.toList.length + 1 ≤ a.length := by
          have h := congrArg List.length hr
          simp [quoted] at h
          omega
        rw [List.cons_append, ← ih hlen]

/-- The ids on both sides of a separator. -/
theorem parseIds_append (hc : c ≠ '"') (hid : isIdChar c = false) :
    parseIds (a ++ c :: b) = parseIds a ++ parseIds b :=
  findIds_append hc hid (Nat.zero_le _)

theorem parseIds_cons (hc : c ≠ '"') (hid : isIdChar c = false) :
    parseIds (c :: l) = parseIds l :=
  parseIds_append (a := []) hc hid

theorem findIds_drop : findIds a.length (a ++ l) = parseIds l := by
  induction a with
  | nil => rfl
  | cons c a ih => exact ih

theorem parseIds_quoted : parseIds (quoted t ++ l) = t :: parseIds l := by
  have hat : idAt (quoted t ++ l) = some t := idAt_eq_some.2 (List.prefix_append _ _)
  have hdrop := findIds_drop (a := t.val.toList ++ ['"']) (l := l)
  rw [List.length_append] at hdrop
  change findIds 0 ('"' :: (t.val.toList ++ ['"'] ++ l)) = _
  change idAt ('"' :: (t.val.toList ++ ['"'] ++ l)) = _ at hat
  rw [findIds, hat]
  exact congrArg (t :: ·) hdrop

/-- No id is found where there is none. -/
theorem parseIds_eq_nil : parseIds l = [] ↔ ∀ t, ¬quoted t <:+: l := by
  induction l with
  | nil => exact iff_of_true rfl fun t h => (nomatch List.infix_nil.1 h)
  | cons c l ih =>
    simp only [parseIds, findIds, List.infix_cons_iff, not_or, forall_and]
    cases h : idAt (c :: l) with
    | some t => exact iff_of_false (List.cons_ne_nil _ _) fun hn => hn.1 t (idAt_eq_some.1 h)
    | none =>
      refine (and_iff_right fun t ht => ?_).trans ih.symm |>.symm
      rw [idAt_eq_some.2 ht] at h
      cases h

/-- The ids do not depend on how the lines end. -/
theorem parseIds_universalNewlines (l : List Char) :
    parseIds (universalNewlines l) = parseIds l := by
  by_cases hr : '\r' ∈ l
  · obtain ⟨a, b, rfl, ha⟩ := List.eq_append_cons_of_mem hr
    have hread : universalNewlines (a ++ '\r' :: b) = a ++ '\n' :: newlinesAfter true b := by
      rw [universalNewlines_front ha]
      rfl
    have hb : parseIds (newlinesAfter true b) = parseIds b := by
      cases b with
      | nil => rfl
      | cons c b =>
        by_cases hc : c = '\n'
        · subst hc
          exact (parseIds_universalNewlines b).trans (parseIds_cons (by decide) (by decide)).symm
        · have hsame : newlinesAfter true (c :: b) = universalNewlines (c :: b) := by
            simp [universalNewlines, newlinesAfter, hc]
          rw [hsame, parseIds_universalNewlines (c :: b)]
    rw [hread, parseIds_append (by decide) (by decide), hb, parseIds_append (by decide) (by decide)]
  · rw [universalNewlines_eq hr]
termination_by l.length
decreasing_by all_goals (subst_vars; simp; try omega)

end

/-! ## Lists of HCL -/

/-- A piece of a list of ids: a blank, the end of a line, a comment up to the end of its line, a
    quoted id or a comma. -/
inductive Piece
  | blank (tab : Bool)
  | newline (cr : Bool)
  | comment (slashes : Bool) (text : List Char) (line : '\n' ∉ text)
  | item (t : TenantId)
  | comma

namespace Piece

def render : Piece → List Char
  | blank tab => [if tab then '\t' else ' ']
  | newline cr => if cr then ['\r', '\n'] else ['\n']
  | comment slashes text _ => (if slashes then ['/', '/'] else ['#']) ++ (text ++ ['\n'])
  | item t => quoted t
  | comma => [',']

/-- The id of a piece. -/
def item? : Piece → Option TenantId
  | item t => some t
  | _ => none

/-- The quoted ids of a piece, in a comment or not. -/
def found : Piece → List TenantId
  | item t => [t]
  | comment _ text _ => parseIds text
  | _ => []

/-- A comment has no quoted id. -/
def Plain : Piece → Prop
  | comment _ text _ => ∀ t, ¬quoted t <:+: text
  | _ => True

end Piece

/-- The ids and the commas alternate, from where an id may come or not; a comma may come last. -/
def Alternating : Bool → List Piece → Prop
  | _, [] => True
  | true, .item _ :: ps => Alternating false ps
  | false, .comma :: ps => Alternating true ps
  | _, .item _ :: _ | _, .comma :: _ => False
  | b, _ :: ps => Alternating b ps

/-- The text of the pieces. -/
def renderAll (ps : List Piece) : List Char := ps.flatMap Piece.render

/-- The value of a list. -/
def valueOf (ps : List Piece) : List TenantId := ps.filterMap Piece.item?

/-- The text between the brackets is a list of HCL with a value. -/
def HclList (text : List Char) (ids : List TenantId) : Prop :=
  ∃ ps, renderAll ps = text ∧ Alternating true ps ∧ valueOf ps = ids

section

variable {ps : List Piece} {l : List Char} {ids : List TenantId}

/-- The ids collected are those of the list, and those in its comments. -/
theorem parseIds_render (p : Piece) : parseIds (p.render ++ l) = p.found ++ parseIds l := by
  cases p with
  | blank tab => cases tab <;> exact parseIds_cons (by decide) (by decide)
  | newline cr =>
    cases cr with
    | false => exact parseIds_cons (by decide) (by decide)
    | true =>
      exact (parseIds_cons (by decide) (by decide)).trans (parseIds_cons (by decide) (by decide))
  | comment slashes text _ =>
    have htext : parseIds (text ++ '\n' :: l) = parseIds text ++ parseIds l :=
      parseIds_append (by decide) (by decide)
    have hrender : text ++ ['\n'] ++ l = text ++ '\n' :: l := by simp
    cases slashes with
    | false =>
      refine Eq.trans ?_ htext
      rw [← hrender]
      exact parseIds_cons (by decide) (by decide)
    | true =>
      refine Eq.trans ?_ htext
      rw [← hrender]
      exact (parseIds_cons (by decide) (by decide)).trans (parseIds_cons (by decide) (by decide))
  | item t => exact parseIds_quoted
  | comma => exact parseIds_cons (by decide) (by decide)

theorem parseIds_renderAll (ps : List Piece) :
    parseIds (renderAll ps) = ps.flatMap Piece.found := by
  induction ps with
  | nil => rfl
  | cons p ps ih =>
    rw [renderAll, List.flatMap_cons, parseIds_render, List.flatMap_cons]
    exact congrArg (p.found ++ ·) ih

theorem length_valueOf_le (ps : List Piece) :
    (valueOf ps).length ≤ (ps.flatMap Piece.found).length := by
  induction ps with
  | nil => exact Nat.zero_le _
  | cons p ps ih =>
    rw [List.flatMap_cons, List.length_append]
    cases p with
    | item t => exact (Nat.succ_le_succ ih).trans_eq (Nat.add_comm _ 1)
    | _ => exact ih.trans (Nat.le_add_left ..)

/-- The ids collected are those of the list exactly when its comments have none. -/
theorem found_eq_value (ps : List Piece) :
    ps.flatMap Piece.found = valueOf ps ↔ ∀ p ∈ ps, p.Plain := by
  induction ps with
  | nil => simp [valueOf]
  | cons p ps ih =>
    rw [List.forall_mem_cons, ← ih, List.flatMap_cons]
    cases p with
    | item t => simp [valueOf, Piece.found, Piece.item?, Piece.Plain]
    | comment slashes text _ =>
      have hvalue : valueOf (.comment slashes text ‹_› :: ps) = valueOf ps := rfl
      rw [hvalue, Piece.found, Piece.Plain, ← parseIds_eq_nil]
      refine ⟨fun h => ?_, fun ⟨htext, hps⟩ => by rw [htext, List.nil_append, hps]⟩
      -- The ids of the comment would make the list longer.
      have hlen := congrArg List.length h
      rw [List.length_append] at hlen
      have hle := length_valueOf_le ps
      have htext : parseIds text = [] := List.eq_nil_of_length_eq_zero (by omega)
      exact ⟨htext, by rwa [htext, List.nil_append] at h⟩
    | _ => exact (and_iff_right trivial).symm

/-! ## The value of a text -/

/-- The text without its comments, in a comment or not. -/
def uncomment : Bool → List Char → List Char
  | _, [] => []
  | true, c :: l => if c = '\n' then c :: uncomment false l else uncomment true l
  | false, c :: l => if c = '#' ∨ c = '/' then uncomment true l else c :: uncomment false l

theorem uncomment_comment {text : List Char} (h : '\n' ∉ text) :
    uncomment true (text ++ '\n' :: l) = '\n' :: uncomment false l := by
  induction text with
  | nil => rfl
  | cons c text ih =>
    have hc : c ≠ '\n' := fun hc => h (hc ▸ List.mem_cons_self)
    rw [List.cons_append, uncomment, if_neg hc, ih fun hm => h (List.mem_cons_of_mem _ hm)]

theorem uncomment_append {a : List Char} (h : '#' ∉ a) (h' : '/' ∉ a) :
    uncomment false (a ++ l) = a ++ uncomment false l := by
  induction a with
  | nil => rfl
  | cons c a ih =>
    have hc : ¬(c = '#' ∨ c = '/') := by
      rintro (rfl | rfl)
      · exact h List.mem_cons_self
      · exact h' List.mem_cons_self
    rw [List.cons_append, uncomment, if_neg hc, ih (fun hm => h (List.mem_cons_of_mem _ hm))
      fun hm => h' (List.mem_cons_of_mem _ hm)]
    rfl

theorem not_mem_quoted {t : TenantId} {c : Char} (hc : c ≠ '"') (hid : isIdChar c = false) :
    c ∉ quoted t := fun h => by
  rcases mem_quoted h with rfl | h
  · exact hc rfl
  · rw [hid] at h
    cases h

/-- The text of a piece without its comment. -/
def Piece.code : Piece → List Char
  | comment _ _ _ => ['\n']
  | p => p.render

theorem uncomment_render (p : Piece) :
    uncomment false (p.render ++ l) = p.code ++ uncomment false l := by
  cases p with
  | blank tab => cases tab <;> exact uncomment_append (by decide) (by decide)
  | newline cr => cases cr <;> exact uncomment_append (by decide) (by decide)
  | comment slashes text hline =>
    have hrender : text ++ ['\n'] ++ l = text ++ '\n' :: l := by simp
    cases slashes with
    | false =>
      exact (congrArg (uncomment true) hrender).trans (uncomment_comment hline)
    | true =>
      have hslash : '\n' ∉ '/' :: text := by simpa using hline
      refine Eq.trans ?_ (uncomment_comment (l := l) hslash)
      simp [Piece.render, uncomment]
  | item t =>
    have hnot {c : Char} (hc : c ≠ '"') (hid : isIdChar c = false) : c ∉ quoted t :=
      not_mem_quoted hc hid
    exact uncomment_append (hnot (by decide) (by decide)) (hnot (by decide) (by decide))
  | comma => exact uncomment_append (by decide) (by decide)

theorem uncomment_renderAll (ps : List Piece) :
    uncomment false (renderAll ps) = ps.flatMap Piece.code := by
  induction ps with
  | nil => rfl
  | cons p ps ih => rw [renderAll, List.flatMap_cons, uncomment_render, ← renderAll, ih,
      List.flatMap_cons]

theorem parseIds_code (p : Piece) : parseIds (p.code ++ l) = p.item?.toList ++ parseIds l := by
  cases p with
  | comment slashes text hline => exact parseIds_cons (by decide) (by decide)
  | blank tab => exact parseIds_render (.blank tab)
  | newline cr => exact parseIds_render (.newline cr)
  | item t => exact parseIds_render (.item t)
  | comma => exact parseIds_render .comma

theorem parseIds_uncomment_renderAll (ps : List Piece) :
    parseIds (uncomment false (renderAll ps)) = valueOf ps := by
  rw [uncomment_renderAll]
  induction ps with
  | nil => rfl
  | cons p ps ih =>
    rw [List.flatMap_cons, parseIds_code, ih, valueOf, valueOf]
    cases h : p.item? <;> simp [h]

/-- A list has a closing bracket in its comments only. -/
theorem HclList.not_mem (h : HclList l ids) : ']' ∉ uncomment false l := by
  obtain ⟨ps, rfl, -, -⟩ := h
  rw [uncomment_renderAll, List.mem_flatMap]
  rintro ⟨p, -, hp⟩
  cases p with
  | blank tab => cases tab <;> exact absurd hp (by decide)
  | newline cr => cases cr <;> exact absurd hp (by decide)
  | item t => exact not_mem_quoted (t := t) (by decide) (by decide) hp
  | comment _ _ _ => exact absurd (List.mem_singleton.1 hp) (by decide)
  | comma => exact absurd hp (by decide)

/-- A text has one value. -/
theorem HclList.unique {ids' : List TenantId} (h : HclList l ids) (h' : HclList l ids') :
    ids = ids' := by
  obtain ⟨ps, rfl, -, rfl⟩ := h
  obtain ⟨ps', hps', -, rfl⟩ := h'
  rw [← parseIds_uncomment_renderAll, ← parseIds_uncomment_renderAll, hps']

end

/-! ## The list written -/

/-- The pieces of a list after its first id. -/
def formatTail : List TenantId → List Piece
  | [] => []
  | t :: ts => .comma :: .blank false :: .item t :: formatTail ts

def formatPieces : List TenantId → List Piece
  | [] => []
  | t :: ts => .item t :: formatTail ts

section

variable {ids : List TenantId} {c : Char}

theorem renderAll_formatPieces (ids : List TenantId) :
    renderAll (formatPieces ids) = formatIds ids := by
  cases ids with
  | nil => rfl
  | cons t ts =>
    induction ts generalizing t with
    | nil => simp [formatPieces, formatTail, renderAll, Piece.render, formatIds]
    | cons u ts ih =>
      have hcons : formatIds (t :: u :: ts) = quoted t ++ ([',', ' '] ++ formatIds (u :: ts)) := by
        rw [formatIds, List.map_cons, List.map_cons, List.intercalate_cons_cons, List.append_assoc]
        rfl
      rw [hcons, ← ih]
      simp [formatPieces, formatTail, renderAll, Piece.render]

theorem alternating_formatTail (ts : List TenantId) : Alternating false (formatTail ts) := by
  induction ts with
  | nil => trivial
  | cons t ts ih => exact ih

theorem valueOf_formatTail (ts : List TenantId) : valueOf (formatTail ts) = ts := by
  induction ts with
  | nil => rfl
  | cons t ts ih => exact congrArg (t :: ·) ih

/-- The list written is one of HCL, with the ids. -/
theorem hclList_formatIds (ids : List TenantId) : HclList (formatIds ids) ids := by
  refine ⟨formatPieces ids, renderAll_formatPieces ids, ?_, ?_⟩
  · cases ids with
    | nil => trivial
    | cons t ts => exact alternating_formatTail ts
  · cases ids with
    | nil => rfl
    | cons t ts => exact congrArg (t :: ·) (valueOf_formatTail ts)

theorem not_mem_formatTail (hc : c ≠ '"') (hid : isIdChar c = false) (hcomma : c ≠ ',')
    (hblank : c ≠ ' ') (ts : List TenantId) : c ∉ renderAll (formatTail ts) := by
  induction ts with
  | nil => exact List.not_mem_nil
  | cons t ts ih =>
    have ht := not_mem_quoted (t := t) hc hid
    simpa [formatTail, renderAll, Piece.render, hcomma, hblank, ht] using ih

theorem not_mem_formatIds (hc : c ≠ '"') (hid : isIdChar c = false) (hcomma : c ≠ ',')
    (hblank : c ≠ ' ') : c ∉ formatIds ids := by
  rw [← renderAll_formatPieces]
  cases ids with
  | nil => exact List.not_mem_nil
  | cons t ts =>
    have ht := not_mem_quoted (t := t) hc hid
    have hts := not_mem_formatTail hc hid hcomma hblank ts
    rw [renderAll] at hts ⊢
    rw [formatPieces, List.flatMap_cons, List.mem_append]
    exact fun h => h.elim ht hts

/-- The ids written are read back. -/
theorem parseIds_formatIds (ids : List TenantId) : parseIds (formatIds ids) = ids := by
  rw [← renderAll_formatPieces, parseIds_renderAll]
  cases ids with
  | nil => rfl
  | cons t ts =>
    refine congrArg (t :: ·) ?_
    induction ts with
    | nil => rfl
    | cons u ts ih => exact congrArg (u :: ·) ih

end

/-! ## The edit -/

/-- `tenant_ids =`, up to the bracket. -/
def TenantIdsName (name : List Char) : Prop :=
  ∃ w w', (∀ c ∈ w, pyIsSpace c) ∧ (∀ c ∈ w', pyIsSpace c) ∧
    name = "tenant_ids".toList ++ (w ++ '=' :: w')

/-- The text of a file with an assignment of a list. -/
def fileOf (lead name inner tail : List Char) : List Char :=
  lead ++ (name ++ '[' :: (inner ++ ']' :: tail))

/-- The regular expression finds the assignment. -/
structure Finds (lead name inner tail : List Char) : Prop where
  named : TenantIdsName name
  found : ∃ m, tenantIdsReSearch (universalNewlines (fileOf lead name inner tail)) = some m ∧
    m.before ++ m.group1 = universalNewlines lead ++ universalNewlines name ∧
    m.group2 = universalNewlines inner

/-- The regular expression finds the assignment of a list, but its group may end in the list. -/
structure AssignsIds (lead name inner tail : List Char) : Prop where
  named : TenantIdsName name
  found : ∃ m, tenantIdsReSearch (universalNewlines (fileOf lead name inner tail)) = some m ∧
    m.before ++ m.group1 = universalNewlines lead ++ universalNewlines name

/-- The part of a list that the regular expression reads: it ends at a closing bracket, in a
    comment or not. -/
def readPart (inner : List Char) : List Char := inner.takeWhile (· ≠ ']')

/-- The value of the list after the edit. -/
def added (ids : List TenantId) (t : TenantId) : List TenantId :=
  if t ∈ ids then ids else ids ++ [t]

/-- The edit is lossless: the value is the old one with the tenant, all text outside of the
    assignment is kept, a change is told exactly when there is one, and a second edit changes
    nothing. -/
def Lossless (tfvars : String) (lead name inner tail : List Char) (ids : List TenantId)
    (t : TenantId) : Prop :=
  ∃ changed file, ensureTenantInTfvars tfvars (fileOf lead name inner tail) t = .ok (changed, file) ∧
    (∃ name' inner', TenantIdsName name' ∧ file = fileOf lead name' inner' tail ∧
      HclList inner' (added ids t)) ∧
    (changed = true ↔ added ids t ≠ ids) ∧
    ensureTenantInTfvars tfvars file t = .ok (false, file)

section

variable {lead name inner tail : List Char} {tfvars : String} {t : TenantId} {ids : List TenantId}

theorem TenantIdsName.read (h : TenantIdsName name) :
    TenantIdsName (universalNewlines name) := by
  obtain ⟨w, w', hw, hw', rfl⟩ := h
  have hspace {l : List Char} (hl : ∀ c ∈ l, pyIsSpace c) :
      ∀ c ∈ universalNewlines l, pyIsSpace c := fun c hc => by
    rcases mem_universalNewlines hc with rfl | ⟨hc, -⟩
    · decide
    · exact hl c hc
  refine ⟨_, _, hspace hw, hspace hw', ?_⟩
  rw [universalNewlines_front (by decide), universalNewlines_append (by decide) (by decide)]

theorem TenantIdsName.not_mem (h : TenantIdsName name) : '[' ∉ name := by
  obtain ⟨w, w', hw, hw', rfl⟩ := h
  have hspace {l : List Char} (hl : ∀ c ∈ l, pyIsSpace c) : '[' ∉ l := fun hm =>
    absurd (hl _ hm) (by decide)
  simp [hspace hw, hspace hw']

/-- The file is read piece by piece around its assignment. -/
theorem universalNewlines_fileOf (h : TenantIdsName name) :
    universalNewlines (fileOf lead name inner tail) = fileOf (universalNewlines lead)
      (universalNewlines name) (universalNewlines inner) (universalNewlines tail) := by
  obtain ⟨w, w', hw, hw', rfl⟩ := h
  have hname : "tenant_ids".toList ++ (w ++ '=' :: w') =
      't' :: ("enant_ids".toList ++ (w ++ '=' :: w')) := rfl
  rw [fileOf, fileOf, hname, List.cons_append, universalNewlines_append (by decide) (by decide),
    universalNewlines_append (by decide) (by decide),
    universalNewlines_append (by decide) (by decide), ← List.cons_append]
  congr 2

/-- The match of the assignment. -/
theorem Finds.exists_match (h : Finds lead name inner tail) : ∃ m,
    tenantIdsReSearch (universalNewlines (fileOf lead name inner tail)) = some m ∧
    m.before ++ m.group1 = universalNewlines lead ++ universalNewlines name ∧
    m.group2 = universalNewlines inner ∧ m.group3 ++ m.after = universalNewlines tail := by
  obtain ⟨m, hm, hbefore, hinner⟩ := h.found
  refine ⟨m, hm, hbefore, hinner, ?_⟩
  obtain ⟨l, hl, hmatch⟩ := searchFrom_eq_some hm
  rw [hmatch.text, universalNewlines_fileOf h.named, fileOf, ← List.append_assoc,
    ← List.append_assoc, hbefore, hinner] at hl
  simpa using hl.symm

theorem readPart_eq (h : ']' ∉ inner) : readPart inner = inner := by
  have hne : ∀ c ∈ inner, decide (c ≠ ']') = true := fun c hc =>
    decide_eq_true fun heq => h (heq ▸ hc)
  exact List.takeWhile_eq_self_iff.2 hne

theorem readPart_append {a b : List Char} (h : ']' ∉ a) : readPart (a ++ ']' :: b) = a := by
  have hne : ∀ c ∈ a, decide (c ≠ ']') = true := fun c hc =>
    decide_eq_true fun heq => h (heq ▸ hc)
  rw [readPart, List.takeWhile_append_of_pos hne]
  simp

/-- An assignment found is one of the part of its list that is read. -/
theorem AssignsIds.finds {rest : List Char} (h : AssignsIds lead name inner tail)
    (hrest : inner ++ ']' :: tail = readPart inner ++ ']' :: rest) :
    Finds lead name (readPart inner) rest := by
  have hfile : fileOf lead name inner tail = fileOf lead name (readPart inner) rest := by
    rw [fileOf, fileOf, hrest]
  obtain ⟨m, hm, hbefore⟩ := h.found
  rw [hfile] at hm
  refine ⟨h.named, m, hm, hbefore, ?_⟩
  obtain ⟨l, hl, hmatch⟩ := searchFrom_eq_some hm
  rw [hmatch.text, universalNewlines_fileOf h.named, fileOf, ← List.append_assoc,
    ← List.append_assoc, hbefore] at hl
  have hcut := congrArg (cut ']') (List.cons.inj (List.append_cancel_left hl)).2
  have hread : ']' ∉ universalNewlines (readPart inner) := fun hm => by
    rcases mem_universalNewlines hm with heq | ⟨hm, -⟩
    · exact absurd heq (by decide)
    · simpa using List.mem_takeWhile_imp hm
  rw [cut_append hread, cut_append hmatch.group2] at hcut
  exact (Prod.mk.inj (Option.some.inj hcut)).1.symm

theorem ensureTenantInTfvars_of_mem (h : Finds lead name inner tail) (ht : t ∈ parseIds inner) :
    ensureTenantInTfvars tfvars (fileOf lead name inner tail) t =
      .ok (false, fileOf lead name inner tail) := by
  obtain ⟨m, hm, -, hinner, -⟩ := h.exists_match
  have ht' : t ∈ parseIds m.group2 := by rwa [hinner, parseIds_universalNewlines]
  rw [ensureTenantInTfvars, hm]
  exact if_pos ht'

/-- The text of the file after an edit. -/
def edited (lead name inner tail : List Char) (t : TenantId) : List Char :=
  fileOf (universalNewlines lead) (universalNewlines name) (formatIds (parseIds inner ++ [t]))
    (universalNewlines tail)

theorem ensureTenantInTfvars_of_not_mem (h : Finds lead name inner tail) (ht : t ∉ parseIds inner) :
    ensureTenantInTfvars tfvars (fileOf lead name inner tail) t =
      .ok (true, edited lead name inner tail t) := by
  obtain ⟨m, hm, hbefore, hinner, hafter⟩ := h.exists_match
  have hids : parseIds m.group2 = parseIds inner := by rw [hinner, parseIds_universalNewlines]
  rw [ensureTenantInTfvars, hm]
  refine (if_neg (hids ▸ ht)).trans ?_
  rw [edited, fileOf, ← List.append_assoc (universalNewlines lead), ← hbefore, ← hafter, hids,
    List.append_assoc]

/-- The edited list is found where the list was. -/
theorem Finds.edited (h : Finds lead name inner tail) (ids : List TenantId) :
    Finds (universalNewlines lead) (universalNewlines name) (formatIds ids)
      (universalNewlines tail) where
  named := h.named.read
  found := by
    obtain ⟨m, hm, hbefore, hinner, -⟩ := h.exists_match
    have hread (l : List Char) : universalNewlines (universalNewlines l) = universalNewlines l :=
      universalNewlines_eq not_mem_universalNewlines
    have hformat : universalNewlines (formatIds ids) = formatIds ids :=
      universalNewlines_eq (not_mem_formatIds (by decide) (by decide) (by decide) (by decide))
    rw [universalNewlines_fileOf h.named, fileOf, ← List.append_assoc] at hm
    refine ⟨{ m with group2 := formatIds ids }, ?_, by rw [hread, hread]; exact hbefore,
      hformat.symm⟩
    rw [universalNewlines_fileOf h.named.read, hread, hread, hread, hformat, fileOf,
      ← List.append_assoc]
    exact searchFrom_replace (not_mem_formatIds (by decide) (by decide) (by decide) (by decide))
      hm hbefore hinner

end

/-! ## Every match is of an assignment -/

section

variable {g l a b name : List Char} {c : Char}

/-- The first group of a match. -/
theorem isHead_text (h : isHead g = true) :
    ∃ w name, g = w ++ name ∧ (∀ c ∈ w, pyIsSpace c) ∧ TenantIdsName name := by
  unfold isHead at h
  split at h
  · next l hl =>
    split at h
    · next l' hl' =>
      refine ⟨g.takeWhile pyIsSpace, _, ?_, fun c hc => List.mem_takeWhile_imp hc,
        l.takeWhile pyIsSpace, l', fun c hc => List.mem_takeWhile_imp hc, List.all_eq_true.1 h, rfl⟩
      obtain ⟨p, hp, hname⟩ := List.dropPrefix?_eq_some_iff.1 hl
      rw [← hl', List.takeWhile_append_dropWhile, ← eq_of_beq hname, ← hp,
        List.takeWhile_append_dropWhile]
    · cases h
  · cases h

theorem TenantIdsName.of_read (h : TenantIdsName (universalNewlines name)) :
    TenantIdsName name := by
  obtain ⟨w, w', hw, hw', hname⟩ := h
  obtain ⟨rest, rfl, hrest⟩ := universalNewlines_eq_front hname (by decide)
  obtain ⟨v, v', rfl, rfl, rfl⟩ := universalNewlines_eq_append hrest (by decide)
  have hspace {l : List Char} (hl : ∀ c ∈ universalNewlines l, pyIsSpace c) :
      ∀ c ∈ l, pyIsSpace c := fun c hc => by
    rcases mem_of_newlinesAfter hc with rfl | rfl | hc
    · decide
    · decide
    · exact hl c hc
  exact ⟨v, v', hspace hw, hspace hw', rfl⟩

/-- Where the regular expression matches, it finds an assignment. -/
theorem exists_finds {file : List Char} {m : TenantIdsMatch}
    (h : tenantIdsReSearch (universalNewlines file) = some m) :
    ∃ lead name inner tail, file = fileOf lead name inner tail ∧ Finds lead name inner tail := by
  obtain ⟨l, hl, hmatch⟩ := searchFrom_eq_some h
  obtain ⟨w, name, hg, hw, hname⟩ := isHead_text hmatch.head
  rw [hmatch.text, ← List.append_assoc] at hl
  obtain ⟨front, back, rfl, hfront, hback⟩ := universalNewlines_eq_append hl (by decide)
  obtain ⟨inner, tail, rfl, hinner, -⟩ := universalNewlines_eq_append hback (by decide)
  -- The name begins where its first letter is read.
  obtain ⟨name', hname'⟩ : ∃ name', name = 't' :: name' := by
    obtain ⟨v, v', -, -, rfl⟩ := hname
    exact ⟨_, rfl⟩
  rw [hg, ← List.append_assoc, hname'] at hfront
  obtain ⟨lead, rest, rfl, hlead, hrest⟩ := universalNewlines_eq_append hfront (by decide)
  have hread : universalNewlines ('t' :: rest) = name := by
    rw [hname', ← hrest]
    exact universalNewlines_append (a := []) (by decide) (by decide)
  refine ⟨lead, 't' :: rest, inner, tail, List.append_assoc .., .of_read (hread ▸ hname), m, ?_, ?_,
    hinner.symm⟩
  · rw [fileOf, ← List.append_assoc]
    exact h
  · rw [hread, hlead, List.append_assoc, ← hg]

end


/-! ## Losslessness -/

section

variable {lead name inner inner' tail : List Char} {tfvars : String} {t : TenantId}
  {ids : List TenantId} {ps : List Piece}

theorem added_of_mem (ht : t ∈ ids) : added ids t = ids := if_pos ht

theorem added_of_not_mem (ht : t ∉ ids) : added ids t = ids ++ [t] := if_neg ht

theorem added_ne (t : TenantId) (ids : List TenantId) : added ids t ≠ ids ↔ t ∉ ids := by
  by_cases ht : t ∈ ids
  · simp [added_of_mem ht, ht]
  · simp [added_of_not_mem ht, ht]

/-- The ids of the list are collected. -/
theorem mem_parseIds (ht : t ∈ valueOf ps) : t ∈ parseIds (renderAll ps) := by
  rw [parseIds_renderAll, List.mem_flatMap]
  obtain ⟨p, hp, hitem⟩ := List.mem_filterMap.1 ht
  refine ⟨p, hp, ?_⟩
  cases p with
  | item u => exact List.mem_singleton.2 (Option.some.inj hitem).symm
  | _ => cases hitem

/-- The edit of a list that has the tenant. -/
theorem lossless_of_mem (h : Finds lead name (renderAll ps) tail) (hps : Alternating true ps)
    (ht : t ∈ valueOf ps) : Lossless tfvars lead name (renderAll ps) tail (valueOf ps) t := by
  have hedit : ensureTenantInTfvars tfvars (fileOf lead name (renderAll ps) tail) t =
      .ok (false, _) := ensureTenantInTfvars_of_mem h (mem_parseIds ht)
  refine ⟨false, _, hedit, ⟨name, _, h.named, rfl, ps, rfl, hps, (added_of_mem ht).symm⟩, ?_, hedit⟩
  rw [added_ne]
  simp [ht]

/-- The edit of a list without the tenant, nor ids in its comments. -/
theorem lossless_of_plain (h : Finds lead name (renderAll ps) tail) (ht : t ∉ valueOf ps)
    (hplain : ∀ p ∈ ps, p.Plain) (hlead : '\r' ∉ lead) (htail : '\r' ∉ tail) :
    Lossless tfvars lead name (renderAll ps) tail (valueOf ps) t := by
  have hids : parseIds (renderAll ps) = valueOf ps :=
    (parseIds_renderAll ps).trans ((found_eq_value ps).2 hplain)
  refine ⟨true, _, ensureTenantInTfvars_of_not_mem h (hids ▸ ht),
    ⟨universalNewlines name, _, h.named.read, ?_, hclList_formatIds _⟩, ?_, ?_⟩
  · rw [edited, universalNewlines_eq hlead, universalNewlines_eq htail, hids, added_of_not_mem ht]
  · simp [added_ne, ht]
  · refine ensureTenantInTfvars_of_mem (h.edited _) ?_
    rw [parseIds_formatIds]
    exact List.mem_append_right _ (List.mem_singleton.2 rfl)

/-- An edited file has no carriage return. -/
theorem not_mem_edited (h : TenantIdsName name) : '\r' ∉ edited lead name inner tail t := by
  have hread : universalNewlines (edited lead name inner tail t) =
      edited lead name inner tail t := by
    rw [edited, universalNewlines_fileOf h.read, universalNewlines_eq not_mem_universalNewlines,
      universalNewlines_eq not_mem_universalNewlines,
      universalNewlines_eq not_mem_universalNewlines, universalNewlines_eq
        (not_mem_formatIds (by decide) (by decide) (by decide) (by decide))]
  exact hread ▸ not_mem_universalNewlines

/-- What a lossless edit that was written says of the list written: it is the one of the value,
    with the end of the assignment after it. -/
theorem lossless_written {rest : List Char} (h : Finds lead name inner rest)
    (ht : t ∉ parseIds inner) (hl : Lossless tfvars lead name inner' tail ids t)
    (hfile : fileOf lead name inner' tail = fileOf lead name inner rest) :
    '\r' ∉ lead ∧ '\r' ∉ tail ∧ ∃ inner', HclList inner' (added ids t) ∧
      formatIds (parseIds inner ++ [t]) ++ ']' :: universalNewlines rest = inner' ++ ']' :: tail := by
  obtain ⟨changed, file, hedit, ⟨name', inner', hname', rfl, hvalue⟩, -, -⟩ := hl
  rw [hfile, ensureTenantInTfvars_of_not_mem h ht] at hedit
  have hedited : edited lead name inner rest t = fileOf lead name' inner' tail :=
    (Prod.mk.inj (Except.ok.inj hedit)).2
  have hcr : '\r' ∉ fileOf lead name' inner' tail := hedited ▸ not_mem_edited h.named
  have hlead : '\r' ∉ lead := fun hm => hcr (by simp [fileOf, hm])
  have htail : '\r' ∉ tail := fun hm => hcr (by simp [fileOf, hm])
  rw [edited, universalNewlines_eq hlead, fileOf, fileOf, List.append_cancel_left_eq] at hedited
  -- The lists begin at the first bracket.
  have hcut := (cut_append h.named.read.not_mem).symm.trans
    ((congrArg (cut '[') hedited).trans (cut_append hname'.not_mem))
  exact ⟨hlead, htail, inner', hvalue, (Prod.mk.inj (Option.some.inj hcut)).2⟩

/-- An edit that says it changed nothing, where the tenant was collected. -/
theorem lossless_collected {rest : List Char} (h : Finds lead name inner rest)
    (ht : t ∈ parseIds inner) (hl : Lossless tfvars lead name inner' tail ids t)
    (hfile : fileOf lead name inner' tail = fileOf lead name inner rest) : t ∈ ids := by
  obtain ⟨changed, file, hedit, -, hchanged, -⟩ := hl
  rw [hfile, ensureTenantInTfvars_of_mem h ht] at hedit
  cases hedit
  by_contra hnot
  exact Bool.false_ne_true (hchanged.2 ((added_ne t ids).2 hnot))

/-- The edit is lossless exactly if the tenant was in the list, and quoted in the part of it that
    is read; or no comment has a closing bracket or a quoted id, and no line outside of the
    assignment ends in a carriage return. -/
theorem ensureTenantInTfvars_lossless_iff (h : AssignsIds lead name (renderAll ps) tail)
    (hps : Alternating true ps) :
    Lossless tfvars lead name (renderAll ps) tail (valueOf ps) t ↔
      (t ∈ valueOf ps ∧ t ∈ parseIds (readPart (renderAll ps))) ∨
        (']' ∉ renderAll ps ∧ (∀ p ∈ ps, p.Plain) ∧ '\r' ∉ lead ∧ '\r' ∉ tail) := by
  by_cases hbracket : ']' ∈ renderAll ps
  · -- The list is read up to a bracket in a comment, which ends the list that is written.
    obtain ⟨a, b, hinner, ha⟩ := List.eq_append_cons_of_mem hbracket
    have hread : readPart (renderAll ps) = a := hinner ▸ readPart_append ha
    have hrest : renderAll ps ++ ']' :: tail =
        readPart (renderAll ps) ++ ']' :: (b ++ ']' :: tail) := by
      rw [hread, hinner, List.append_assoc, List.cons_append]
    have hfinds := h.finds hrest
    have hfile : fileOf lead name (renderAll ps) tail =
        fileOf lead name (readPart (renderAll ps)) (b ++ ']' :: tail) := by
      rw [fileOf, fileOf, hrest]
    constructor
    · intro hl
      by_cases ht : t ∈ parseIds (readPart (renderAll ps))
      · exact .inl ⟨lossless_collected hfinds ht hl hfile, ht⟩
      · obtain ⟨-, htail, inner', hvalue, heq⟩ := lossless_written hfinds ht hl hfile
        rw [universalNewlines_append (by decide) (by decide), universalNewlines_eq htail,
          ← List.cons_append, ← List.append_assoc] at heq
        have hwritten := List.append_cancel_right heq
        refine absurd ?_ hvalue.not_mem
        rw [← hwritten, uncomment_append]
        · simp [uncomment]
        · exact not_mem_formatIds (by decide) (by decide) (by decide) (by decide)
        · exact not_mem_formatIds (by decide) (by decide) (by decide) (by decide)
    · rintro (⟨hmem, ht⟩ | ⟨hnot, -⟩)
      · have hedit : ensureTenantInTfvars tfvars (fileOf lead name (renderAll ps) tail) t =
            .ok (false, fileOf lead name (renderAll ps) tail) :=
          hfile ▸ ensureTenantInTfvars_of_mem hfinds ht
        refine ⟨false, _, hedit, ⟨name, _, h.named, rfl, ps, rfl, hps, (added_of_mem hmem).symm⟩,
          ?_, hedit⟩
        rw [added_ne]
        simp [hmem]
      · exact absurd hbracket hnot
  · have hread := readPart_eq hbracket
    have hfinds : Finds lead name (readPart (renderAll ps)) tail := h.finds (by rw [hread])
    rw [hread] at hfinds ⊢
    constructor
    · intro hl
      by_cases ht : t ∈ parseIds (renderAll ps)
      · exact .inl ⟨lossless_collected hfinds ht hl rfl, ht⟩
      · obtain ⟨hlead, htail, inner', hvalue, heq⟩ := lossless_written hfinds ht hl rfl
        rw [universalNewlines_eq htail] at heq
        have hwritten := List.append_cancel_right heq
        have hids := (hclList_formatIds _).unique (hwritten ▸ hvalue)
        rw [added_of_not_mem fun hm => ht (mem_parseIds hm), List.append_left_inj,
          parseIds_renderAll, found_eq_value] at hids
        exact .inr ⟨hbracket, hids, hlead, htail⟩
    · rintro (⟨ht, -⟩ | ⟨-, hplain, hlead, htail⟩)
      · exact lossless_of_mem hfinds hps ht
      · by_cases ht : t ∈ valueOf ps
        · exact lossless_of_mem hfinds hps ht
        · exact lossless_of_plain hfinds ht hplain hlead htail

end

/-- `tenant_ids = `. -/
def tenantIdsName : List Char := "tenant_ids".toList ++ ([' '] ++ '=' :: [' '])

theorem tenantIdsName_named : TenantIdsName tenantIdsName :=
  ⟨_, _, List.forall_mem_singleton.2 (by decide), List.forall_mem_singleton.2 (by decide), rfl⟩

theorem tenantIdRe_a : tenantIdRe "a" = true := rfl

theorem tenantIdRe_b : tenantIdRe "b" = true := rfl

theorem commentFirst_line : '\n' ∉ " the first".toList := by decide

theorem commentSee_line : '\n' ∉ " see [1]".toList := by decide

/-- A list on three lines, with a comment. -/
def spreadList : List Piece :=
  [.newline false, .blank false, .item ⟨"a", tenantIdRe_a⟩, .comma, .blank false,
    .comment false " the first".toList commentFirst_line, .newline false]

/-- A list of two ids, with a closing bracket in the comment between them. -/
def seeList : List Piece :=
  [.item ⟨"a", tenantIdRe_a⟩, .comma, .blank false,
    .comment false " see [1]".toList commentSee_line, .item ⟨"b", tenantIdRe_b⟩, .comma,
    .newline false]

/-- A tenant is added to the one; the other loses the id after the bracket, if it is ensured. -/
theorem ensureTenantInTfvars_lossless_iff_b :
    Lossless "terraform.tfvars" [] tenantIdsName (renderAll spreadList) ['\n'] (valueOf spreadList)
        ⟨"b", tenantIdRe_b⟩ ∧
      ¬Lossless "terraform.tfvars" [] tenantIdsName (renderAll seeList) ['\n'] (valueOf seeList)
        ⟨"b", tenantIdRe_b⟩ := by
  have hspread : AssignsIds [] tenantIdsName (renderAll spreadList) ['\n'] :=
    ⟨tenantIdsName_named, _, rfl, rfl⟩
  have hsee : AssignsIds [] tenantIdsName (renderAll seeList) ['\n'] :=
    ⟨tenantIdsName_named, _, rfl, rfl⟩
  have hlist : Alternating true spreadList ∧ Alternating true seeList := ⟨trivial, trivial⟩
  constructor
  · refine (ensureTenantInTfvars_lossless_iff hspread hlist.1).2
      (.inr ⟨by decide, fun p hp => ?_, by decide, by decide⟩)
    simp only [spreadList, List.mem_cons, List.not_mem_nil, or_false] at hp
    rcases hp with rfl | rfl | rfl | rfl | rfl | rfl | rfl <;> try trivial
    exact parseIds_eq_nil.1 rfl
  · refine (ensureTenantInTfvars_lossless_iff hsee hlist.2).not.2 ?_
    rintro (⟨-, hread⟩ | ⟨hbracket, -⟩)
    · exact absurd hread (by decide)
    · exact absurd hbracket (by decide)

theorem commentB_line : '\n' ∉ [' ', '"', 'b', '"'] := by decide

/-- The list `["a", # "b"` with its end on the next line: the second id is in a comment. -/
def commentedB : List Piece :=
  [.item ⟨"a", tenantIdRe_a⟩, .comma, .blank false,
    .comment false [' ', '"', 'b', '"'] commentB_line]

/-- The tenant of the comment is not added. -/
theorem commented_not_added : ¬∀ lead name ps tail t,
    AssignsIds lead name (renderAll ps) tail → Alternating true ps →
      Lossless "terraform.tfvars" lead name (renderAll ps) tail (valueOf ps) t := by
  intro h
  obtain ⟨changed, file, hedit, -, hchanged, -⟩ := h [] tenantIdsName commentedB ['\n']
    ⟨"b", tenantIdRe_b⟩ ⟨tenantIdsName_named, _, rfl, rfl⟩ trivial
  have hfalse : ensureTenantInTfvars "terraform.tfvars"
      (fileOf [] tenantIdsName (renderAll commentedB) ['\n']) ⟨"b", tenantIdRe_b⟩ =
        .ok (false, fileOf [] tenantIdsName (renderAll commentedB) ['\n']) := rfl
  rw [hfalse] at hedit
  cases hedit
  exact Bool.false_ne_true (hchanged.2 (by decide))

end NtierLab
