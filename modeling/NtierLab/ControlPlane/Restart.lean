import NtierLab.ControlPlane.Legacy
import NtierLab.ControlPlane.Versions

/-!
# Restarts

The store opened any number of times over one file `tenants.json`, with writes in
between (`StoreEvent`). An opening decides to import by the table being empty, which it is
again once every row was deleted.

* `Kept`: the entries are imported once at most, and a row deleted is there again only
  if it was inserted since;
* `kept_iff`: this holds of the histories whose every opening but the first finds a row,
  unless the file has no valid entry.
-/

namespace NtierLab

/-- The file. -/
abbrev LegacyFile := List (String × LegacyMeta)

/-- The file has an entry with a valid id. -/
def LegacyFile.HasEntry (file : LegacyFile) : Prop :=
  ∃ p ∈ file, ∃ t, validateTenantId (some p.1) = .ok t

/-- An opening of the store, or a write. -/
inductive StoreEvent
  | opening (now : String)
  | write (w : Write)

namespace StoreEvent

variable (file : LegacyFile)

/-- The registry after an event. -/
def run : StoreEvent → Registry → Registry
  | opening now, s => s.importLegacy now file
  | write w, s => w.run s

/-- The registry after a history. -/
def after (vs : List StoreEvent) (s : Registry) : Registry := vs.foldl (fun s v => v.run file s) s

/-- An opening that imports an entry. -/
def Imports (v : StoreEvent) (s : Registry) : Prop :=
  ∃ now, v = opening now ∧ ∃ t, s.get t = none ∧ ((v.run file s).get t).isSome

/-- A write that inserts the row of the tenant. -/
def Inserts (t : TenantId) (v : StoreEvent) (s : Registry) : Prop :=
  ∃ now e f, v = write (.upsert now t e f) ∧ s.get t = none ∧ ((v.run file s).get t).isSome

/-- The entries are imported once at most, and a row deleted is there again only if it was
    inserted since. -/
structure Kept (vs : List StoreEvent) : Prop where
  once : ∀ us v us' v' us'', vs = us ++ v :: us' ++ v' :: us'' → v.Imports file (after file us ∅) →
    ¬v'.Imports file (after file (us ++ v :: us') ∅)
  deleted : ∀ us t us', vs = us ++ write (.delete t) :: us' →
    ((after file vs ∅).get t).isSome → ∃ ws v ws', us' = ws ++ v :: ws' ∧
      v.Inserts file t (after file (us ++ write (.delete t) :: ws) ∅)

variable {file} {v : StoreEvent} {vs us : List StoreEvent} {s : Registry} {t : TenantId}
  {now : String}

@[simp] theorem after_nil : after file [] s = s := rfl

@[simp] theorem after_cons : after file (v :: vs) s = after file vs (v.run file s) := rfl

theorem after_append : after file (us ++ vs) s = after file vs (after file us s) :=
  List.foldl_append

end StoreEvent

namespace Registry

variable {file : LegacyFile} {now : String} {s : Registry}

theorem importEntry_mono {p : String × LegacyMeta} {t : TenantId} (h : (s.get t).isSome) :
    ((s.importEntry now p).get t).isSome := by
  unfold importEntry
  split
  · exact h
  · next u _ =>
    split
    · exact h
    · rcases eq_or_ne u t with rfl | hu
      · simp
      · rwa [get_insert_ne hu]

theorem foldl_importEntry_mono {t : TenantId} (h : (s.get t).isSome) :
    ((file.foldl (importEntry now) s).get t).isSome := by
  induction file generalizing s with
  | nil => exact h
  | cons p file ih => exact ih (importEntry_mono h)

/-- A valid entry is imported into an empty table. -/
theorem foldl_importEntry_get {p : String × LegacyMeta} {t : TenantId} (hp : p ∈ file)
    (ht : validateTenantId (some p.1) = .ok t) :
    ((file.foldl (importEntry now) s).get t).isSome := by
  induction file generalizing s with
  | nil => cases hp
  | cons q file ih =>
    rw [List.foldl_cons]
    rcases List.mem_cons.1 hp with rfl | hp
    · refine foldl_importEntry_mono ?_
      unfold importEntry
      rw [ht]
      dsimp only
      split
      · assumption
      · simp
    · exact ih hp

/-- Without a valid entry, nothing is imported. -/
theorem foldl_importEntry_eq (h : ¬file.HasEntry) : file.foldl (importEntry now) s = s := by
  induction file generalizing s with
  | nil => rfl
  | cons p file ih =>
    have hp : s.importEntry now p = s := by
      unfold importEntry
      split
      · rfl
      · next t ht => exact absurd ⟨p, List.mem_cons_self, t, ht⟩ h
    rw [List.foldl_cons, hp]
    exact ih fun ⟨q, hq, ht⟩ => h ⟨q, List.mem_cons_of_mem _ hq, ht⟩

end Registry

namespace StoreEvent

variable {file : LegacyFile} {v : StoreEvent} {vs us : List StoreEvent} {s : Registry} {t : TenantId}
  {now : String}

/-- An opening imports exactly into an empty table, and from a file with a valid entry. -/
theorem imports_iff : (opening now).Imports file s ↔ s = ∅ ∧ file.HasEntry := by
  constructor
  · rintro ⟨_, -, t, hnone, hsome⟩
    rw [run, Registry.importLegacy] at hsome
    split at hsome
    · next hempty =>
      refine ⟨Std.ExtTreeMap.isEmpty_iff.1 hempty, ?_⟩
      by_contra h
      rw [Registry.foldl_importEntry_eq h, hnone] at hsome
      cases hsome
    · rw [hnone] at hsome
      cases hsome
  · rintro ⟨rfl, p, hp, t, ht⟩
    refine ⟨now, rfl, t, Registry.get_empty, ?_⟩
    rw [run, Registry.importLegacy, if_pos (by simp)]
    exact Registry.foldl_importEntry_get hp ht

/-- Every opening of a history on `s` finds a row, unless the file has no valid entry. -/
def FindsRow (file : LegacyFile) (vs : List StoreEvent) (s : Registry) : Prop :=
  ∀ us now us', vs = us ++ opening now :: us' → after file us s ≠ ∅ ∨ ¬file.HasEntry

/-- Where no opening imports, a row comes by an insertion. -/
theorem exists_inserts (h : FindsRow file vs s) (hnone : s.get t = none)
    (hsome : ((after file vs s).get t).isSome) :
    ∃ ws v ws', vs = ws ++ v :: ws' ∧ v.Inserts file t (after file ws s) := by
  induction vs generalizing s with
  | nil =>
    rw [after_nil, hnone] at hsome
    cases hsome
  | cons v vs ih =>
    cases hv : (v.run file s).get t with
    | none =>
      have htail : FindsRow file vs (v.run file s) := fun us now us' heq =>
        h (v :: us) now us' (by rw [heq, List.cons_append])
      obtain ⟨ws, v', ws', rfl, hi⟩ := ih htail hv hsome
      exact ⟨v :: ws, v', ws', rfl, hi⟩
    | some row =>
      -- The row is new: an opening would have imported it.
      refine ⟨[], v, vs, rfl, ?_⟩
      cases v with
      | opening now =>
        have himp : (opening now).Imports file s := ⟨now, rfl, t, hnone, by rw [hv]; rfl⟩
        obtain ⟨hs, hentry⟩ := imports_iff.1 himp
        exact absurd (h [] now vs rfl) (not_or.2 ⟨not_not.2 hs, not_not.2 hentry⟩)
      | write w =>
        cases w with
        | upsert now u e f =>
          rcases eq_or_ne u t with rfl | hu
          · exact ⟨now, e, f, rfl, hnone, by rw [after_nil, hv]; rfl⟩
          · rw [run, Write.run, Registry.upsert_get_ne hu, hnone] at hv
            cases hv
        | delete u =>
          rcases eq_or_ne u t with rfl | hu
          · rw [run, Write.run, Registry.delete_get_self] at hv
            cases hv
          · rw [run, Write.run, Registry.delete_get_ne hu, hnone] at hv
            cases hv

/-- The entries are imported once at most, and a row deleted stays deleted until it is inserted
    again, exactly in the histories whose every opening but the first finds a row, unless the
    file has no valid entry. -/
theorem kept_iff (file : LegacyFile) (now₀ : String) (vs : List StoreEvent) :
    Kept file (opening now₀ :: vs) ↔ FindsRow file vs ((∅ : Registry).importLegacy now₀ file) := by
  constructor
  · rintro ⟨honce, -⟩ us now us' rfl
    by_contra h
    obtain ⟨hempty, hentry⟩ := not_or.1 h
    exact honce [] (opening now₀) us (opening now) us' rfl
      (imports_iff.2 ⟨rfl, not_not.1 hentry⟩)
      (imports_iff.2 ⟨not_not.1 hempty, not_not.1 hentry⟩)
  · intro h
    constructor
    · rintro us v us' v' us'' heq - himp
      -- The later opening is not the first of the history.
      have hv' := himp
      obtain ⟨now, rfl, -⟩ := hv'
      obtain ⟨hempty, hentry⟩ := imports_iff.1 himp
      cases us with
      | nil =>
        obtain ⟨rfl, rfl⟩ := List.cons.inj heq
        exact absurd (h us' now us'' rfl) (not_or.2 ⟨not_not.2 hempty, not_not.2 hentry⟩)
      | cons u us =>
        obtain ⟨rfl, rfl⟩ := List.cons.inj heq
        exact absurd (h (us ++ v :: us') now us'' (by simp))
          (not_or.2 ⟨not_not.2 hempty, not_not.2 hentry⟩)
    · rintro us t us' heq hsome
      cases us with
      | nil => cases heq
      | cons u us =>
        obtain ⟨rfl, rfl⟩ := List.cons.inj heq
        -- The row is gone after the deletion, and no opening after it imports.
        let s := (Write.delete t).run (after file us ((∅ : Registry).importLegacy now₀ file))
        have htail : FindsRow file us' s := by
          rintro ws now ws' rfl
          have := h (us ++ write (.delete t) :: ws) now ws' (by simp)
          rwa [after_append, after_cons] at this
        rw [after_cons, List.append_eq, after_append, after_cons] at hsome
        obtain ⟨ws, v, ws', rfl, hi⟩ := exists_inserts htail Registry.delete_get_self hsome
        refine ⟨ws, v, ws', rfl, ?_⟩
        rw [List.cons_append, after_cons, after_append, after_cons]
        exact hi

/-- A tenant deleted is there again when the store is opened again. -/
theorem not_kept : ¬∀ (file : LegacyFile) (now₀ : String) (vs : List StoreEvent),
    Kept file (opening now₀ :: vs) := by
  intro h
  have hback :
      ((after [("a", {})] [opening "t0", write (.delete .a), opening "t1"] ∅).get .a).isSome :=
    rfl
  obtain ⟨ws, v, ws', heq, hi⟩ := (h [("a", {})] "t0" [write (.delete .a), opening "t1"]).deleted
    [opening "t0"] .a [opening "t1"] rfl hback
  obtain ⟨now, e, f, rfl, -⟩ := hi
  rcases ws with _ | ⟨_, ws⟩ <;> simp at heq

end StoreEvent

end NtierLab
