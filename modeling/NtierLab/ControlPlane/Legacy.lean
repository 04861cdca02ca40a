import NtierLab.ControlPlane.Store

/-!
# The legacy registry

The import of the file `tenants.json` into an empty table, when a store is opened.
-/

namespace NtierLab

/-- The status of a text. -/
def Status.ofText : String → Status
  | "PROVISIONING" => provisioning
  | "ACTIVE" => active
  | "SUSPENDED" => suspended
  | "DELETING" => deleting
  | "DELETE_FAILED" => deleteFailed
  | "FAILED" => failed
  | "DRIFT" => drift
  | t => other t

/-- An entry of the file; a field that is missing is null. -/
structure LegacyMeta where
  status : Option String := none
  tier : Option String := none
  endpoint : Option String := none
  pathPrefix : Option String := none
  ownedBy : Option String := none
  secretName : Option String := none
  irsaRoleArn : Option String := none
  error : Option String := none
  deleteStep : Option String := none
  createdAt : Option String := none
  updatedAt : Option String := none

namespace LegacyMeta

variable (m : LegacyMeta)

/-- The status of an entry, ACTIVE by default. -/
def importedStatus : Status :=
  if truthy m.status then Status.ofText (m.status.getD "") else .active

/-- The desired status, inferred from the status. -/
def importedDesired : Desired :=
  if m.importedStatus ∈ [Status.deleting, .deleteFailed] then .gone
  else if m.importedStatus = .suspended then .suspended
  else .active

/-- The row of an entry, imported at the time `now`. -/
def row (now : String) : Row where
  desiredStatus := m.importedDesired
  status := m.importedStatus
  tier := if truthy m.tier then m.tier else some "standard"
  endpoint := m.endpoint
  pathPrefix := m.pathPrefix
  ownedBy := m.ownedBy
  secretName := m.secretName
  irsaRoleArn := m.irsaRoleArn
  error := m.error
  deleteStep := m.deleteStep
  observedJson := none
  version := 1
  createdAt := if truthy m.createdAt then m.createdAt.getD "" else now
  updatedAt := if truthy m.updatedAt then m.updatedAt.getD "" else now

end LegacyMeta

namespace Registry

/-- `INSERT OR IGNORE` of an entry, unless its id is invalid. -/
def importEntry (now : String) (s : Registry) (p : String × LegacyMeta) : Registry :=
  match validateTenantId (some p.1) with
  | .error _ => s
  | .ok t => if (s.get t).isSome then s else Std.ExtTreeMap.insert s t (p.2.row now)

/-- `_import_legacy_json`: the entries of the file, unless there is a row already. -/
def importLegacy (now : String) (tenants : List (String × LegacyMeta)) (s : Registry) : Registry :=
  if s.isEmpty then tenants.foldl (importEntry now) s else s

variable {s : Registry} {now : String} {t : TenantId} {row : Row}

/-- Nothing is imported where there is a row. -/
theorem importLegacy_of_get {tenants : List (String × LegacyMeta)} (h : s.get t = some row) :
    s.importLegacy now tenants = s := by
  unfold importLegacy
  rw [if_neg]
  intro hempty
  rw [Std.ExtTreeMap.isEmpty_iff.1 hempty, get_empty] at h
  cases h

/-- A row after an import was there before it, or is the row of an entry. -/
theorem importLegacy_get {tenants : List (String × LegacyMeta)}
    (h : (s.importLegacy now tenants).get t = some row) :
    s.get t = some row ∨ ∃ p ∈ tenants, row = p.2.row now := by
  unfold importLegacy at h
  split at h
  · clear * - h
    induction tenants generalizing s with
    | nil => exact .inl h
    | cons p tenants ih =>
      rcases ih h with h | ⟨q, hq, h⟩
      · unfold importEntry at h
        split at h
        · exact .inl h
        · next u _ =>
          split at h
          · exact .inl h
          · by_cases hu : u = t
            · subst hu
              rw [get_insert_self] at h
              exact .inr ⟨p, List.mem_cons_self, (Option.some.inj h).symm⟩
            · exact .inl (by rwa [get_insert_ne hu] at h)
      · exact .inr ⟨q, List.mem_cons_of_mem _ hq, h⟩
  · exact .inl h

end Registry

end NtierLab
