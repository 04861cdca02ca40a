import NtierLab.ControlPlane.Ids

/-!
# The tenant registry

The SQLite table of tenants: one row per tenant id, listed in the order of the ids.
Each operation of the store is one transaction (`get`, `list`, `upsert`, `delete`).
An id is validated before the transaction, so that a registry maps tenant ids, and
a desired status is one of three: a row that breaks either cannot be built. Any
other column is text or null, a status too (`STATUSES` is never checked).

`upsert` on an absent id inserts the defaults, inferring the desired status from
the status; on a present id it changes the fields named, and counts a version, from
the one named if one is. An `upsert` that raises leaves the registry as it was (`upsert_error`), and touches no
other row (`upsert_get_ne`).
-/

namespace NtierLab

/-- `DESIRED_STATUSES`. -/
inductive Desired
  | active
  | suspended
  | gone
  deriving DecidableEq

namespace Desired

def text : Desired → String
  | active => "ACTIVE"
  | suspended => "SUSPENDED"
  | gone => "GONE"

def ofText : String → Option Desired
  | "ACTIVE" => some active
  | "SUSPENDED" => some suspended
  | "GONE" => some gone
  | _ => none

@[simp] theorem ofText_text (d : Desired) : ofText d.text = some d := by cases d <;> rfl

end Desired

/-- `STATUSES`, and any other text a status may be. -/
inductive Status
  | provisioning
  | active
  | suspended
  | deleting
  | deleteFailed
  | failed
  | drift
  | other (text : String)
  deriving DecidableEq

namespace Status

def text : Status → String
  | provisioning => "PROVISIONING"
  | active => "ACTIVE"
  | suspended => "SUSPENDED"
  | deleting => "DELETING"
  | deleteFailed => "DELETE_FAILED"
  | failed => "FAILED"
  | drift => "DRIFT"
  | other t => t

end Status

/-- Python's truth of a text or null. -/
def truthy (s : Option String) : Bool := s.getD "" != ""

/-- A row of the table, its key left out. -/
structure Row where
  desiredStatus : Desired
  status : Status
  tier : Option String
  endpoint : Option String
  pathPrefix : Option String
  ownedBy : Option String
  secretName : Option String
  irsaRoleArn : Option String
  error : Option String
  deleteStep : Option String
  observedJson : Option String
  version : ℤ
  createdAt : String
  updatedAt : String
  deriving DecidableEq

/-- The identity of a tenant: who owns it, its secret and its role. -/
structure Identity where
  ownedBy : Option String
  secretName : Option String
  irsaRoleArn : Option String
  deriving DecidableEq

/-- The identity recorded in a row. -/
def Row.identity (row : Row) : Identity := ⟨row.ownedBy, row.secretName, row.irsaRoleArn⟩

/-- The fields named in a call of `upsert`: a field is left out, or given a text or null
    (a status is given a text, a version a number or null). -/
structure Fields where
  desiredStatus : Option (Option String) := none
  status : Option Status := none
  tier : Option (Option String) := none
  endpoint : Option (Option String) := none
  pathPrefix : Option (Option String) := none
  ownedBy : Option (Option String) := none
  secretName : Option (Option String) := none
  irsaRoleArn : Option (Option String) := none
  error : Option (Option String) := none
  deleteStep : Option (Option String) := none
  observedJson : Option (Option String) := none
  version : Option (Option ℤ) := none
  deriving DecidableEq

namespace Fields

/-- The desired status named, as a value of `desired_status=`. -/
abbrev desire (d : Desired) : Option (Option String) := some (some d.text)

/-- The desired status named, if it is one. -/
def desired (f : Fields) : Option Desired := (f.desiredStatus.getD none).bind Desired.ofText

/-- The desired status is left out, or one of the three, and the version is not null. -/
def Valid (f : Fields) : Prop :=
  (∀ d, f.desiredStatus = some d → (d.bind Desired.ofText).isSome) ∧ f.version ≠ some none

@[simp] theorem valid_iff (f : Fields) :
    f.Valid ↔ (∀ d, f.desiredStatus = some d → (d.bind Desired.ofText).isSome) ∧
      f.version ≠ some none := Iff.rfl

/-- The message of an invalid desired status. -/
def invalidDesired (d : Option String) : String :=
  let value := d.elim "None" pyRepr
  s!"invalid desired_status {value}; must be one of ('ACTIVE', 'SUSPENDED', 'GONE')"

/-- What `int` raises of a null. -/
def nullVersion : Exn :=
  .other "int() argument must be a string, a bytes-like object or a real number, not 'NoneType'"

end Fields

namespace Row

/-- The row after an update of the fields named, with the desired status `d`, and the version
    after `n`. -/
def update (row : Row) (f : Fields) (d : Desired) (n : ℤ) (now : String) : Row where
  desiredStatus := d
  status := f.status.getD row.status
  tier := f.tier.getD row.tier
  endpoint := f.endpoint.getD row.endpoint
  pathPrefix := f.pathPrefix.getD row.pathPrefix
  ownedBy := f.ownedBy.getD row.ownedBy
  secretName := f.secretName.getD row.secretName
  irsaRoleArn := f.irsaRoleArn.getD row.irsaRoleArn
  error := f.error.getD row.error
  deleteStep := f.deleteStep.getD row.deleteStep
  observedJson := f.observedJson.getD row.observedJson
  version := n + 1
  createdAt := row.createdAt
  updatedAt := now

/-- `int(current["version"])`: the version an updated row counts from. -/
def updateVersion (row : Row) (f : Fields) : Except Exn ℤ :=
  match f.version with
  | none => .ok row.version
  | some (some n) => .ok n
  | some none => .error Fields.nullVersion

/-- The desired status of an updated row, if it is valid. -/
def updateDesired (row : Row) (f : Fields) : Except Exn Desired :=
  match f.desiredStatus with
  | none => .ok row.desiredStatus
  | some d =>
    match d.bind Desired.ofText with
    | some d => .ok d
    | none => .error (.validationError (Fields.invalidDesired d))

/-- The status of an inserted row. -/
def insertStatus (f : Fields) : Status :=
  match f.status with
  | none | some (.other "") => .provisioning
  | some s => s

/-- The desired status inferred from the status of an inserted row. -/
def inferDesired (f : Fields) : Desired :=
  match insertStatus f with
  | .suspended => .suspended
  | .deleting | .deleteFailed => .gone
  | _ => .active

/-- The desired status of an inserted row: inferred only when omitted. -/
def insertDesired (f : Fields) : Except Exn Desired :=
  match f.desiredStatus.getD none with
  | none => .ok (inferDesired f)
  | some d =>
    match Desired.ofText d with
    | some d => .ok d
    | none => .error (.validationError (Fields.invalidDesired (some d)))

/-- The row inserted with the fields named, with the desired status `d`. -/
def insert (f : Fields) (d : Desired) (now : String) : Row where
  desiredStatus := d
  status := insertStatus f
  tier := if truthy (f.tier.getD none) then f.tier.getD none else some "standard"
  endpoint := f.endpoint.getD none
  pathPrefix := f.pathPrefix.getD none
  ownedBy := f.ownedBy.getD none
  secretName := f.secretName.getD none
  irsaRoleArn := f.irsaRoleArn.getD none
  error := f.error.getD none
  deleteStep := f.deleteStep.getD none
  observedJson := f.observedJson.getD none
  version := 1
  createdAt := now
  updatedAt := now

end Row

/-- The registry. -/
abbrev Registry := Std.ExtTreeMap TenantId Row

namespace Registry

variable (s : Registry)

/-- `SELECT * FROM tenants WHERE id = ?`. -/
def get (t : TenantId) : Option Row := s[t]?

/-- `SELECT * FROM tenants ORDER BY id`. -/
def list : List (TenantId × Row) := s.toList

/-- The row an `upsert` writes, or what it raises. -/
def upsertRow (now : String) (t : TenantId) (expectedVersion : Option ℤ) (f : Fields) :
    Except Exn Row :=
  match s.get t with
  | some row =>
    if expectedVersion.any fun v => decide (v ≠ (row.version : ℤ)) then
      .error (.conflictError s!"tenant {t.val} version conflict: have {row.version}, expected {expectedVersion.getD 0}")
    else (row.updateVersion f).bind fun n =>
      (row.updateDesired f).map fun d => row.update f d n now
  | none => (Row.insertDesired f).map fun d => Row.insert f d now

/-- `INSERT` or `UPDATE`, returning the row written. -/
def upsert (now : String) (t : TenantId) (expectedVersion : Option ℤ) (f : Fields) :
    Except Exn Row × Registry :=
  match s.upsertRow now t expectedVersion f with
  | .ok row => (.ok row, Std.ExtTreeMap.insert s t row)
  | .error e => (.error e, s)

/-- `DELETE FROM tenants WHERE id = ?`, returning whether there was a row. -/
def delete (t : TenantId) : Bool × Registry := ((s.get t).isSome, s.erase t)

variable {s} {now : String} {t u : TenantId} {v : Option ℤ} {f : Fields} {row : Row}

@[ext] theorem ext {s s' : Registry} (h : ∀ t, s.get t = s'.get t) : s = s' :=
  Std.ExtTreeMap.ext_getElem? h

@[simp] theorem get_empty : get ∅ t = none := by simp [get]

@[simp] theorem get_insert_self : get (Std.ExtTreeMap.insert s t row) t = some row := by
  simp [get]

theorem get_insert_ne (h : t ≠ u) : get (Std.ExtTreeMap.insert s t row) u = s.get u := by
  simp [get, Std.ExtTreeMap.getElem?_insert, h]

@[simp] theorem delete_get_self : (s.delete t).2.get t = none := by
  simp [get, delete]

theorem delete_get_ne (h : t ≠ u) : (s.delete t).2.get u = s.get u := by
  simp [get, delete, Std.ExtTreeMap.getElem?_erase, h]

/-- The rows listed are the rows of the registry. -/
theorem mem_list : (t, row) ∈ s.list ↔ s.get t = some row := by
  simp [list, get]

/-- The rows listed have distinct ids. -/
theorem list_nodup : (s.list.map Prod.fst).Nodup := by
  have := s.distinct_keys_toList
  refine (List.pairwise_map.2 (this.imp fun h heq => h ?_))
  rw [heq]; exact Std.ReflOrd.compare_self

/-- What an `upsert` that returns has written. -/
theorem upsert_ok (h : (s.upsert now t v f).1 = .ok row) :
    s.upsertRow now t v f = .ok row ∧ (s.upsert now t v f).2.get t = some row := by
  unfold upsert at h ⊢
  split at h
  · next row' hrow => cases h; simp [hrow]
  · cases h

/-- An `upsert` of a row counts a version, from the one named if one is. -/
theorem upsertRow_version {row' : Row} (hrow : s.get t = some row)
    (h : s.upsertRow now t v f = .ok row') :
    ∃ n, row.updateVersion f = .ok n ∧ row'.version = n + 1 := by
  unfold upsertRow at h
  rw [hrow] at h
  dsimp only at h
  split at h
  · cases h
  · cases hn : row.updateVersion f with
    | error e => rw [hn] at h; cases h
    | ok n =>
      rw [hn] at h
      cases hd : row.updateDesired f with
      | error e => rw [hd] at h; cases h
      | ok d => rw [hd] at h; cases h; exact ⟨n, rfl, rfl⟩

/-- An `upsert` that raises changes nothing. -/
theorem upsert_error {e : Exn} (h : (s.upsert now t v f).1 = .error e) :
    (s.upsert now t v f).2 = s := by
  unfold upsert at h ⊢
  split at h
  · cases h
  · simp_all

/-- An `upsert` touches no other row. -/
theorem upsert_get_ne (h : t ≠ u) : (s.upsert now t v f).2.get u = s.get u := by
  unfold upsert
  split
  · exact get_insert_ne h
  · rfl

/-! ## Valid upserts -/

variable (s now t f)

/-- The row a valid `upsert` writes. -/
def written : Row :=
  match s.get t with
  | some row =>
    row.update f (f.desired.getD row.desiredStatus) ((f.version.getD none).getD row.version) now
  | none => Row.insert f (f.desired.getD (Row.inferDesired f)) now

variable {s now t f}

/-- A valid `upsert` writes its row. -/
theorem upsert_valid (hf : f.Valid) :
    s.upsert now t none f = (.ok (s.written now t f), Std.ExtTreeMap.insert s t (s.written now t f)) := by
  have h : s.upsertRow now t none f = .ok (s.written now t f) := by
    have hversion (row : Row) : row.updateVersion f =
        .ok ((f.version.getD none).getD row.version) := by
      unfold Row.updateVersion
      rcases hn : f.version with _ | _ | n
      · rfl
      · exact absurd hn hf.2
      · rfl
    unfold upsertRow written
    cases hd : f.desiredStatus with
    | none => cases s.get t <;>
        simp [Row.insertDesired, Row.updateDesired, Fields.desired, hd, hversion, Except.map,
          Except.bind]
    | some d =>
      obtain ⟨d', hd'⟩ := Option.isSome_iff_exists.1 (hf.1 d hd)
      cases d with
      | none => cases hd'
      | some x =>
        cases s.get t <;> simp_all [Row.insertDesired, Row.updateDesired, Fields.desired,
          Except.map, Except.bind]
  simp [upsert, h]

theorem written_update (h : s.get t = some row) :
    s.written now t f = row.update f (f.desired.getD row.desiredStatus)
      ((f.version.getD none).getD row.version) now := by
  simp only [written, h]

theorem written_insert (h : s.get t = none) :
    s.written now t f = Row.insert f (f.desired.getD (Row.inferDesired f)) now := by
  simp only [written, h]

theorem written_desiredStatus {d : Desired} (h : f.desiredStatus = Fields.desire d) :
    (s.written now t f).desiredStatus = d := by
  unfold written
  cases s.get t <;> simp [Fields.desired, h, Fields.desire, Row.insert, Row.update]

theorem written_status {st : Status} (h : f.status = some st) (hst : st ≠ .other "") :
    (s.written now t f).status = st := by
  unfold written
  cases s.get t with
  | none => simp [Row.insert, Row.insertStatus, h]
  | some row => simp [Row.update, h]

@[simp] theorem written_error :
    (s.written now t f).error = f.error.getD ((s.get t).bind Row.error) := by
  unfold written
  cases s.get t <;> rfl

@[simp] theorem written_deleteStep :
    (s.written now t f).deleteStep = f.deleteStep.getD ((s.get t).bind Row.deleteStep) := by
  unfold written
  cases s.get t <;> rfl

@[simp] theorem written_observedJson :
    (s.written now t f).observedJson = f.observedJson.getD ((s.get t).bind Row.observedJson) := by
  unfold written
  cases s.get t <;> rfl

@[simp] theorem written_identity :
    (s.written now t f).identity =
      ⟨f.ownedBy.getD ((s.get t).bind Row.ownedBy),
        f.secretName.getD ((s.get t).bind Row.secretName),
        f.irsaRoleArn.getD ((s.get t).bind Row.irsaRoleArn)⟩ := by
  unfold written
  cases s.get t <;> rfl

end Registry

end NtierLab
