import NtierLab.ControlPlane.Tfvars

/-!
# One tenant after the other in the variables of OpenTofu

`ensure_tenant_in_tfvars` for a sequence of tenants, on any file: the ids collected from
the file after it are those collected before, followed by the tenants that are new, in
order and once each; and the sequence changes nothing when it is run again. A file without
the list stays without it.
-/

namespace NtierLab

/-- The ids `ensure_tenant_in_tfvars` collects from a file, if it finds the list. -/
def collected (file : List Char) : Option (List TenantId) :=
  (tenantIdsReSearch (universalNewlines file)).map fun m => parseIds m.group2

/-- The text of a file after the tenants have been ensured in it, one after the other. -/
def ensureTenants (tfvars : String) : List TenantId → List Char → Except Exn (List Char)
  | [], file => .ok file
  | t :: ts, file =>
    match ensureTenantInTfvars tfvars file t with
    | .ok (_, file') => ensureTenants tfvars ts file'
    | .error e => .error e

section

variable {tfvars : String} {file lead name inner tail : List Char} {ids : List TenantId}
  {t : TenantId} {ts : List TenantId}

theorem Finds.collected_eq (h : Finds lead name inner tail) :
    collected (fileOf lead name inner tail) = some (parseIds inner) := by
  obtain ⟨m, hm, -, hinner, -⟩ := h.exists_match
  rw [collected, hm, Option.map_some, hinner, parseIds_universalNewlines]

/-- What a tenant ensured does to a file with a list. -/
theorem ensureTenantInTfvars_step (tfvars : String) (t : TenantId) (h : collected file = some ids) :
    ∃ changed file', ensureTenantInTfvars tfvars file t = .ok (changed, file') ∧
      collected file' = some (added ids t) ∧ (t ∈ ids → file' = file) := by
  rw [collected, Option.map_eq_some_iff] at h
  obtain ⟨m, hm, rfl⟩ := h
  obtain ⟨lead, name, inner, tail, rfl, hfinds⟩ := exists_finds hm
  have hids : parseIds m.group2 = parseIds inner := by
    obtain ⟨m', hm', -, hinner, -⟩ := hfinds.exists_match
    obtain rfl : m' = m := Option.some.inj (hm'.symm.trans hm)
    rw [hinner, parseIds_universalNewlines]
  rw [hids]
  by_cases ht : t ∈ parseIds inner
  · refine ⟨_, _, ensureTenantInTfvars_of_mem hfinds ht, ?_, fun _ => rfl⟩
    rw [added_of_mem ht]
    exact hfinds.collected_eq
  · refine ⟨_, _, ensureTenantInTfvars_of_not_mem hfinds ht, ?_, fun h => absurd h ht⟩
    rw [edited, (hfinds.edited _).collected_eq, parseIds_formatIds, added_of_not_mem ht]

theorem ensureTenantInTfvars_none (h : collected file = none) :
    ensureTenantInTfvars tfvars file t = .error (noTenantIds tfvars) := by
  rw [collected, Option.map_eq_none_iff] at h
  rw [ensureTenantInTfvars, h]

theorem subset_added : ids ⊆ added ids t := by
  intro u hu
  by_cases ht : t ∈ ids
  · rwa [added_of_mem ht]
  · rw [added_of_not_mem ht]
    exact List.mem_append_left _ hu

theorem mem_added : t ∈ added ids t := by
  by_cases ht : t ∈ ids
  · rwa [added_of_mem ht]
  · rw [added_of_not_mem ht]
    exact List.mem_append_right _ (List.mem_singleton_self t)

theorem mem_foldl_added (ts : List TenantId) {u : TenantId} (hu : u ∈ ids ∨ u ∈ ts) :
    u ∈ ts.foldl added ids := by
  induction ts generalizing ids with
  | nil => exact hu.elim id fun h => absurd h List.not_mem_nil
  | cons t ts ih =>
    refine ih ?_
    rcases hu with hu | hu
    · exact .inl (subset_added hu)
    · rcases List.mem_cons.1 hu with rfl | hu
      · exact .inl mem_added
      · exact .inr hu

/-- The tenants of a list ensured in a file that has them already. -/
theorem ensureTenants_of_subset (h : collected file = some ids) (hts : ts ⊆ ids) :
    ensureTenants tfvars ts file = .ok file := by
  induction ts with
  | nil => rfl
  | cons t ts ih =>
    obtain ⟨changed, file', hstep, -, hsame⟩ := ensureTenantInTfvars_step tfvars t h
    obtain rfl := hsame (hts List.mem_cons_self)
    rw [ensureTenants, hstep]
    exact ih fun _ hu => hts (List.mem_cons_of_mem _ hu)

/-- A sequence of tenants ensured in a file with a list. -/
theorem ensureTenants_step (tfvars : String) (ts : List TenantId) (h : collected file = some ids) :
    ∃ file', ensureTenants tfvars ts file = .ok file' ∧
      collected file' = some (ts.foldl added ids) := by
  induction ts generalizing file ids with
  | nil => exact ⟨file, rfl, h⟩
  | cons t ts ih =>
    obtain ⟨changed, file', hstep, hids, -⟩ := ensureTenantInTfvars_step tfvars t h
    obtain ⟨file'', hts, hids'⟩ := ih hids
    refine ⟨file'', ?_, hids'⟩
    rw [ensureTenants, hstep]
    exact hts

/-- The ids after a sequence of tenants are those before and the tenants that are new, and the
    sequence run again changes nothing. -/
theorem ensureTenants_collected (tfvars : String) (ts : List TenantId) (file : List Char) :
    (ensureTenants tfvars ts file).toOption.bind collected =
        (collected file).map (ts.foldl added) ∧
      (ensureTenants tfvars ts file).bind (ensureTenants tfvars ts) =
        ensureTenants tfvars ts file := by
  cases hids : collected file with
  | some ids =>
    obtain ⟨file', hts, hids'⟩ := ensureTenants_step tfvars ts hids
    rw [hts]
    exact ⟨hids', ensureTenants_of_subset hids' fun u hu => mem_foldl_added ts (.inr hu)⟩
  | none =>
    cases ts with
    | nil => exact ⟨hids, rfl⟩
    | cons t ts =>
      have hts : ensureTenants tfvars (t :: ts) file = .error (noTenantIds tfvars) := by
        rw [ensureTenants, ensureTenantInTfvars_none hids]
      rw [hts]
      exact ⟨rfl, rfl⟩

end

end NtierLab
