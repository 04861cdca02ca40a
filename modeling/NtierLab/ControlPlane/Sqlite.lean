import NtierLab.ControlPlane.Legacy

/-!
# The store on SQLite

The table of tenants with its columns, as the statements of the store read and write it:
the parameters of an `INSERT` or an `UPDATE` are bound to its columns by their positions,
and a transaction that raises is rolled back (`Sqlite.upsert`, `get`, `list`, `delete`).

* `Stores`: a table holds the rows of a registry;
* `refines_step`: an operation answers alike on both, and keeps them so;
* `store_refines`: so does any history of operations.
-/

namespace NtierLab

/-! ## Simulation -/

section

variable {O R A B : Type}

/-- The replies to a history of operations, and the state after it. -/
def history (step : O → A → R × A) : List O → A → List R × A
  | [], a => ([], a)
  | o :: os, a =>
    let x := step o a
    let y := history step os x.2
    (x.1 :: y.1, y.2)

/-- Two systems that reply alike to an operation, and stay related, reply alike to a history. -/
theorem history_simulates {f : O → A → R × A} {g : O → B → R × B} {Rel : A → B → Prop}
    (h : ∀ o a b, Rel a b → (f o a).1 = (g o b).1 ∧ Rel (f o a).2 (g o b).2) (os : List O) {a : A}
    {b : B} (hab : Rel a b) :
    (history f os a).1 = (history g os b).1 ∧ Rel (history f os a).2 (history g os b).2 := by
  induction os generalizing a b with
  | nil => exact ⟨rfl, hab⟩
  | cons o os ih =>
    obtain ⟨hreply, hrel⟩ := h o a b hab
    obtain ⟨hreplies, hend⟩ := ih hrel
    exact ⟨congrArg₂ List.cons hreply hreplies, hend⟩

end

namespace Sqlite

/-! ## The table -/

/-- The columns of the table. -/
inductive Column
  | id
  | desiredStatus
  | status
  | tier
  | endpoint
  | pathPrefix
  | ownedBy
  | secretName
  | irsaRoleArn
  | error
  | deleteStep
  | observedJson
  | version
  | createdAt
  | updatedAt
  deriving DecidableEq

/-- A value of a column. -/
inductive Value
  | null
  | int (n : ℤ)
  | text (s : String)
  deriving DecidableEq

namespace Value

def ofOption : Option String → Value
  | none => null
  | some s => text s

/-- The order of values: null, then integers, then texts. -/
def le : Value → Value → Bool
  | null, _ => true
  | _, null => false
  | int m, int n => m ≤ n
  | int _, text _ => true
  | text _, int _ => false
  | text s, text s' => (compare s s').isLE

theorem le_trans {a b c : Value} (hab : a.le b = true) (hbc : b.le c = true) : a.le c = true := by
  cases a with
  | null => rfl
  | int m =>
    cases b with
    | null => cases hab
    | int n =>
      cases c with
      | null => cases hbc
      | int l => simpa [le] using (of_decide_eq_true hab).trans (of_decide_eq_true hbc)
      | text s => rfl
    | text s =>
      cases c with
      | text s' => rfl
      | _ => cases hbc
  | text s =>
    cases b with
    | text s' =>
      cases c with
      | text s'' => exact Std.TransOrd.isLE_trans hab hbc
      | _ => cases hbc
    | _ => cases hab

theorem le_total (a b : Value) : (a.le b || b.le a) = true := by
  cases a with
  | null => rfl
  | int m =>
    cases b with
    | int n => simpa [le] using Int.le_total m n
    | _ => rfl
  | text s =>
    cases b with
    | text s' =>
      rw [Bool.or_eq_true, le, le, Std.OrientedOrd.eq_swap (a := s'), Ordering.isLE_swap]
      cases compare s s' <;> simp
    | _ => rfl

theorem eq_of_le {a b : Value} (hab : a.le b = true) (hba : b.le a = true) : a = b := by
  cases a with
  | null =>
    cases b with
    | null => rfl
    | _ => cases hba
  | int m =>
    cases b with
    | int n =>
      have hab : m ≤ n := by simpa [le] using hab
      have hba : n ≤ m := by simpa [le] using hba
      exact congrArg int (le_antisymm hab hba)
    | null => cases hab
    | text s => cases hba
  | text s =>
    cases b with
    | text s' =>
      exact congrArg text (Std.LawfulEqOrd.eq_of_compare
        (Std.OrientedCmp.isLE_antisymm hab hba))
    | _ => cases hab

/-- Python's truth of a value. -/
def truthy : Value → Bool
  | null => false
  | int n => n ≠ 0
  | text s => s ≠ ""

end Value

/-- A row, with its columns. -/
abbrev Item := Column → Value

/-- The table, its rows in the order they were inserted. -/
abbrev Table := List Item

/-- `_FIELDS`. -/
def fields : List Column :=
  [.id, .desiredStatus, .status, .tier, .endpoint, .pathPrefix, .ownedBy, .secretName, .irsaRoleArn,
    .error, .deleteStep, .observedJson, .version, .createdAt, .updatedAt]

/-- The columns an `UPDATE` sets. -/
def updated : List Column :=
  [.desiredStatus, .status, .tier, .endpoint, .pathPrefix, .ownedBy, .secretName, .irsaRoleArn,
    .error, .deleteStep, .observedJson, .version, .updatedAt]

/-- The columns that are `NOT NULL`. -/
def notNull : List Column := [.desiredStatus, .status, .version, .createdAt, .updatedAt]

/-- The value bound to a column by its position, if there is one. -/
def bound (columns : List Column) (params : List Value) (c : Column) : Option Value :=
  (columns.zip params).lookup c

/-- A row with the columns bound set. -/
def setColumns (columns : List Column) (params : List Value) (row : Item) : Item :=
  fun c => (bound columns params c).getD (row c)

def integrityError (e : String) : Exn := .other (e ++ " constraint failed")

namespace Table

variable (tbl : Table)

/-- `SELECT * FROM tenants WHERE id = ?`, its first row. -/
def select (id : String) : Option Item := tbl.find? fun row => row .id = .text id

/-- `SELECT * FROM tenants ORDER BY id`. -/
def selectAll : List Item := tbl.mergeSort fun row row' => (row .id).le (row' .id)

/-- `INSERT INTO tenants (...) VALUES (...)`. A column left out is null, or its default. -/
def insert (columns : List Column) (params : List Value) : Except Exn Table :=
  let row : Item := fun c => (bound columns params c).getD (if c = .version then .int 1 else .null)
  if notNull.any fun c => row c = .null then .error (integrityError "NOT NULL")
  else if tbl.any fun row' => row' .id = row .id then .error (integrityError "UNIQUE")
  else .ok (tbl ++ [row])

/-- `UPDATE tenants SET ... WHERE id=?`. -/
def update (columns : List Column) (params : List Value) (id : String) : Except Exn Table :=
  if tbl.any fun row =>
      row .id = .text id ∧ notNull.any fun c => setColumns columns params row c = .null then
    .error (integrityError "NOT NULL")
  else .ok (tbl.map fun row => if row .id = .text id then setColumns columns params row else row)

end Table

/-! ## The store -/

/-- The fields named in a call of `upsert`: texts or nulls, and a text for the status. -/
structure Kwargs where
  desiredStatus : Option (Option String) := none
  status : Option String := none
  tier : Option (Option String) := none
  endpoint : Option (Option String) := none
  pathPrefix : Option (Option String) := none
  ownedBy : Option (Option String) := none
  secretName : Option (Option String) := none
  irsaRoleArn : Option (Option String) := none
  error : Option (Option String) := none
  deleteStep : Option (Option String) := none
  observedJson : Option (Option String) := none

namespace Kwargs

variable (k : Kwargs)

/-- The value a field is given, if it is named. -/
def get? : Column → Option Value
  | .desiredStatus => k.desiredStatus.map .ofOption
  | .status => k.status.map .text
  | .tier => k.tier.map .ofOption
  | .endpoint => k.endpoint.map .ofOption
  | .pathPrefix => k.pathPrefix.map .ofOption
  | .ownedBy => k.ownedBy.map .ofOption
  | .secretName => k.secretName.map .ofOption
  | .irsaRoleArn => k.irsaRoleArn.map .ofOption
  | .error => k.error.map .ofOption
  | .deleteStep => k.deleteStep.map .ofOption
  | .observedJson => k.observedJson.map .ofOption
  | .id | .version | .createdAt | .updatedAt => none

/-- `fields.get(c)`. -/
def get (c : Column) : Value := (k.get? c).getD .null

/-- `fields.get(c) or default`. -/
def getOr (c : Column) (default : String) : Value :=
  if (k.get c).truthy then k.get c else .text default

end Kwargs

/-- `DESIRED_STATUSES`. -/
def desiredStatuses : List Value := [.text "ACTIVE", .text "SUSPENDED", .text "GONE"]

/-- The error of a desired status that is none of them. -/
def invalidDesired : Value → Exn
  | .null => .validationError (Fields.invalidDesired none)
  | .text s => .validationError (Fields.invalidDesired (some s))
  | .int n => .validationError (Fields.invalidDesired (some (toString n)))

/-- Python's `int`. -/
def toInt : Value → Except Exn ℤ
  | .int n => .ok n
  | .null => .error (.other "int() argument must be a string or a number, not 'NoneType'")
  | .text s => .error (.other s!"invalid literal for int() with base 10: {pyRepr s}")

/-- `with self._connect() as conn`: the statements commit together, or not at all. -/
def transaction {α : Type} (tbl : Table) (body : Except Exn (α × Table)) : Except Exn α × Table :=
  match body with
  | .ok (a, tbl') => (.ok a, tbl')
  | .error e => (.error e, tbl)

/-- The version of the row is the one expected, if one is. -/
def checkVersion (tid : TenantId) (row : Item) : Option ℤ → Except Exn Unit
  | none => .ok ()
  | some v => (toInt (row .version)).bind fun n =>
    if n ≠ v then
      .error (.conflictError s!"tenant {tid.val} version conflict: have {n}, expected {v}")
    else .ok ()

/-- The values of an `UPDATE`, in the order of its columns. -/
def updateValues (current : Item) : List Value :=
  [current .desiredStatus, current .status, current .tier, current .endpoint, current .pathPrefix,
    current .ownedBy, current .secretName, current .irsaRoleArn, current .error,
    current .deleteStep, current .observedJson, current .version, current .updatedAt]

/-- The branch of a row that is there. -/
def upsertPresent (now : String) (tid : TenantId) (expected : Option ℤ) (k : Kwargs) (tbl : Table)
    (row : Item) : Except Exn (Item × Table) := do
  checkVersion tid row expected
  let current : Item := fun c => (k.get? c).getD (row c)
  let current := Function.update current .id (.text tid.val)
  let current := Function.update current .updatedAt (.text now)
  let version ← toInt (current .version)
  let current := Function.update current .version (.int (version + 1))
  if current .desiredStatus ∉ desiredStatuses then throw (invalidDesired (current .desiredStatus))
  else
    let tbl' ← tbl.update updated (updateValues current) tid.val
    return (current, tbl')

/-- The row of a call: its defaults, version 1, and the time it is inserted. -/
def newItem (now : String) (tid : TenantId) (k : Kwargs) (desired : Value) : Item
  | .id => .text tid.val
  | .desiredStatus => desired
  | .status => k.getOr .status "PROVISIONING"
  | .tier => k.getOr .tier "standard"
  | .version => .int 1
  | .createdAt => k.getOr .createdAt now
  | .updatedAt => .text now
  | c => k.get c

/-- The desired status inferred from a status. -/
def infer (status : Value) : Value :=
  if status = .text "SUSPENDED" then .text "SUSPENDED"
  else if status = .text "DELETING" ∨ status = .text "DELETE_FAILED" then .text "GONE"
  else .text "ACTIVE"

/-- The branch of a row that is missing. The desired status is inferred only when omitted. -/
def upsertAbsent (now : String) (tid : TenantId) (k : Kwargs) (tbl : Table) :
    Except Exn (Item × Table) :=
  let desired := k.get .desiredStatus
  if desired ≠ .null ∧ desired ∉ desiredStatuses then throw (invalidDesired desired)
  else do
    let item := newItem now tid k
      (if desired = .null then infer (k.getOr .status "PROVISIONING") else desired)
    let tbl' ← tbl.insert fields (fields.map item)
    return (item, tbl')

def upsert (now tenantId : String) (expected : Option ℤ) (k : Kwargs) (tbl : Table) :
    Except Exn Item × Table :=
  match validateTenantId (some tenantId) with
  | .error e => (.error e, tbl)
  | .ok tid =>
    transaction tbl <|
      match tbl.select tid.val with
      | some row => upsertPresent now tid expected k tbl row
      | none => upsertAbsent now tid k tbl

def get (tenantId : String) (tbl : Table) : Option Item := tbl.select tenantId

def list (tbl : Table) : List Item := tbl.selectAll

/-- `DELETE FROM tenants WHERE id = ?`, and whether it deleted a row. -/
def delete (tenantId : String) (tbl : Table) : Bool × Table :=
  (tbl.any fun row => row .id = .text tenantId,
    tbl.filter fun row => row .id ≠ .text tenantId)

/-! ## The rows of a registry -/

@[simp] theorem ofText_text (s : String) : (Status.ofText s).text = s := by
  unfold Status.ofText
  split <;> rfl

/-- The columns of a row of the registry. -/
def rowItem (t : TenantId) (row : Row) : Item
  | .id => .text t.val
  | .desiredStatus => .text row.desiredStatus.text
  | .status => .text row.status.text
  | .tier => .ofOption row.tier
  | .endpoint => .ofOption row.endpoint
  | .pathPrefix => .ofOption row.pathPrefix
  | .ownedBy => .ofOption row.ownedBy
  | .secretName => .ofOption row.secretName
  | .irsaRoleArn => .ofOption row.irsaRoleArn
  | .error => .ofOption row.error
  | .deleteStep => .ofOption row.deleteStep
  | .observedJson => .ofOption row.observedJson
  | .version => .int row.version
  | .createdAt => .text row.createdAt
  | .updatedAt => .text row.updatedAt

/-- The fields a call names, as the registry takes them. -/
def Kwargs.fields (k : Kwargs) : Fields where
  desiredStatus := k.desiredStatus
  status := k.status.map Status.ofText
  tier := k.tier
  endpoint := k.endpoint
  pathPrefix := k.pathPrefix
  ownedBy := k.ownedBy
  secretName := k.secretName
  irsaRoleArn := k.irsaRoleArn
  error := k.error
  deleteStep := k.deleteStep
  observedJson := k.observedJson

theorem ofOption_getD (x : Option (Option String)) (y : Option String) :
    Value.ofOption (x.getD y) = (x.map Value.ofOption).getD (.ofOption y) := by
  cases x <;> rfl

theorem ofOption_or (x : Option (Option String)) (y : String) :
    Value.ofOption (if truthy (x.getD none) then x.getD none else some y) =
      if ((x.map Value.ofOption).getD .null).truthy then (x.map Value.ofOption).getD .null
      else .text y := by
  rcases x with _ | _ | x
  · rfl
  · rfl
  · by_cases hx : x = "" <;> simp [truthy, Value.truthy, Value.ofOption, hx]

variable {t : TenantId} {row : Row} {k : Kwargs} {now : String} {d : Desired}

/-- A row renewed: the fields named, the time of the update, and the next version. -/
def renewed (now : String) (k : Kwargs) (n : ℤ) (item : Item) : Item
  | .version => .int (n + 1)
  | .updatedAt => .text now
  | c => (k.get? c).getD (item c)

/-- The update of a row of the registry renews its columns. -/
theorem rowItem_update (hd : (k.get? .desiredStatus).getD (rowItem t row .desiredStatus) = .text d.text) :
    rowItem t (row.update k.fields d row.version now) = renewed now k row.version (rowItem t row) := by
  funext c
  cases c with
  | desiredStatus => exact hd.symm
  | status =>
    simp only [rowItem, renewed, Row.update, Kwargs.fields, Kwargs.get?]
    cases k.status <;> simp
  | id | createdAt | updatedAt => rfl
  | version => simp [rowItem, renewed, Row.update]
  | _ => simp only [rowItem, renewed, Row.update, Kwargs.fields, Kwargs.get?, ofOption_getD]

/-! ## The table of a registry -/

/-- The table holds the rows of the registry, one for each id. -/
structure Stores (tbl : Table) (s : Registry) : Prop where
  nodup : (tbl.map fun row => row .id).Nodup
  mem : ∀ item, item ∈ tbl ↔ ∃ t row, s.get t = some row ∧ item = rowItem t row

variable {tbl : Table} {s : Registry} {item : Item}

theorem rowItem_id_inj {t u : TenantId} {row row' : Row} (h : rowItem t row .id = rowItem u row' .id) :
    t = u :=
  TenantId.ext (Value.text.inj h)

namespace Stores

theorem empty : Stores [] ∅ := ⟨List.nodup_nil, by simp⟩

/-- The row of an id is the one the registry has. -/
theorem select (h : Stores tbl s) (t : TenantId) :
    tbl.select t.val = (s.get t).map (rowItem t) := by
  cases hf : tbl.select t.val with
  | none =>
    cases hget : s.get t with
    | none => rfl
    | some row =>
      have hmem := (h.mem (rowItem t row)).2 ⟨t, row, hget, rfl⟩
      exact absurd rfl (of_decide_eq_false (eq_false_of_ne_true (List.find?_eq_none.1 hf _ hmem)))
  | some item =>
    obtain ⟨u, row, hget, rfl⟩ := (h.mem item).1 (List.mem_of_find?_eq_some hf)
    have hid : rowItem u row .id = .text t.val := by simpa using List.find?_some hf
    obtain rfl : u = t := TenantId.ext (Value.text.inj hid)
    rw [hget, Option.map_some]

/-- There is no row of a text that is no tenant id. -/
theorem select_invalid (h : Stores tbl s) {id : String} (hid : tenantIdRe id = false) :
    tbl.select id = none := by
  refine List.find?_eq_none.2 fun item hitem => ?_
  obtain ⟨t, row, -, rfl⟩ := (h.mem item).1 hitem
  simp only [rowItem, Value.text.injEq, decide_eq_true_eq]
  rintro rfl
  exact Bool.false_ne_true (hid.symm.trans t.valid)

theorem nodup_rows (h : Stores tbl s) : tbl.Nodup := h.nodup.of_map

/-- The rows of the table are those of the registry, in some order. -/
theorem perm_list (h : Stores tbl s) : tbl.Perm (s.list.map fun p => rowItem p.1 p.2) := by
  refine (List.perm_ext_iff_of_nodup h.nodup_rows ?_).2 fun item => ?_
  · refine List.Nodup.of_map (fun item => item .id) ?_
    have hids : ((s.list.map fun p => rowItem p.1 p.2).map fun item => item .id) =
        (s.list.map Prod.fst).map fun t => .text t.val := by
      simp [rowItem]
    rw [hids]
    exact Registry.list_nodup.map fun t u heq => TenantId.ext (Value.text.inj heq)
  · rw [h.mem, List.mem_map]
    constructor
    · rintro ⟨t, row, hget, rfl⟩
      exact ⟨(t, row), Registry.mem_list.2 hget, rfl⟩
    · rintro ⟨⟨t, row⟩, hmem, rfl⟩
      exact ⟨t, row, Registry.mem_list.1 hmem, rfl⟩

/-- The rows in the order of the ids are those of the registry. -/
theorem selectAll (h : Stores tbl s) : tbl.selectAll = s.list.map fun p => rowItem p.1 p.2 := by
  have hperm : tbl.selectAll.Perm (s.list.map fun p => rowItem p.1 p.2) :=
    (List.mergeSort_perm tbl _).trans h.perm_list
  have htrans (a b c : Item) : (a .id).le (b .id) = true → (b .id).le (c .id) = true →
      (a .id).le (c .id) = true := Value.le_trans
  have htotal (a b : Item) : ((a .id).le (b .id) || (b .id).le (a .id)) = true :=
    Value.le_total _ _
  have hsorted : tbl.selectAll.Pairwise fun row row' => (row .id).le (row' .id) = true :=
    List.pairwise_mergeSort htrans htotal tbl
  refine List.Perm.eq_of_pairwise (fun item item' hitem hitem' hle hle' => ?_) hsorted ?_ hperm
  · -- Two rows of one id are the same.
    obtain ⟨t, row, hget, rfl⟩ := (h.mem item).1 ((List.mergeSort_perm tbl _).subset hitem)
    obtain ⟨⟨u, row'⟩, hmem, rfl⟩ := List.mem_map.1 hitem'
    obtain rfl := rowItem_id_inj (Value.eq_of_le hle hle')
    rw [Registry.mem_list.1 hmem] at hget
    cases hget
    rfl
  · refine List.pairwise_map.2 (s.ordered_keys_toList.imp fun {p q} hlt => ?_)
    exact Ordering.isLE_of_eq_lt hlt

theorem insert (h : Stores tbl s) (hnone : s.get t = none) :
    Stores (tbl ++ [rowItem t row]) (Std.ExtTreeMap.insert s t row) := by
  refine ⟨?_, fun item => ?_⟩
  · rw [List.map_append, List.nodup_append]
    refine ⟨h.nodup, by simp, fun v hv w hw heq => ?_⟩
    obtain ⟨item, hitem, rfl⟩ := List.mem_map.1 hv
    obtain ⟨u, row', hget, rfl⟩ := (h.mem item).1 hitem
    obtain rfl := rowItem_id_inj (heq.trans (List.mem_singleton.1 hw))
    rw [hget] at hnone
    cases hnone
  · rw [List.mem_append, h.mem, List.mem_singleton]
    constructor
    · rintro (⟨u, row', hget, rfl⟩ | rfl)
      · have hne : t ≠ u := by
          rintro rfl
          rw [hget] at hnone
          cases hnone
        exact ⟨u, row', (Registry.get_insert_ne hne).trans hget, rfl⟩
      · exact ⟨t, row, Registry.get_insert_self, rfl⟩
    · rintro ⟨u, row', hget, rfl⟩
      by_cases hut : t = u
      · subst hut
        rw [Registry.get_insert_self] at hget
        cases hget
        exact .inr rfl
      · rw [Registry.get_insert_ne hut] at hget
        exact .inl ⟨u, row', hget, rfl⟩

theorem erase (h : Stores tbl s) (t : TenantId) :
    Stores (tbl.filter fun row => row .id ≠ .text t.val) (s.delete t).2 := by
  refine ⟨h.nodup.sublist (List.filter_sublist.map _), fun item => ?_⟩
  rw [List.mem_filter, h.mem]
  constructor
  · rintro ⟨⟨u, row, hget, rfl⟩, hne⟩
    have hut : t ≠ u := by
      rintro rfl
      simp [rowItem] at hne
    exact ⟨u, row, (Registry.delete_get_ne hut).trans hget, rfl⟩
  · rintro ⟨u, row, hget, rfl⟩
    have hut : t ≠ u := by
      rintro rfl
      rw [Registry.delete_get_self] at hget
      cases hget
    refine ⟨⟨u, row, (Registry.delete_get_ne hut).symm.trans hget, rfl⟩, ?_⟩
    simpa [rowItem] using fun heq => hut (TenantId.ext heq.symm)

/-- The row of an id is the only one. -/
theorem eq_rowItem (h : Stores tbl s) (hget : s.get t = some row) (hitem : item ∈ tbl)
    (hid : item .id = .text t.val) : item = rowItem t row := by
  obtain ⟨u, row', hget', rfl⟩ := (h.mem item).1 hitem
  obtain rfl : u = t := TenantId.ext (Value.text.inj hid)
  rw [hget'] at hget
  cases hget
  rfl

/-- An `UPDATE` of a row that keeps the time it was created. -/
theorem update (h : Stores tbl s) (hget : s.get t = some row) {row' : Row}
    (hcreated : row'.createdAt = row.createdAt) :
    ∃ tbl', tbl.update updated (updateValues (rowItem t row')) t.val = .ok tbl' ∧
      Stores tbl' (Std.ExtTreeMap.insert s t row') := by
  have hrow : setColumns updated (updateValues (rowItem t row')) (rowItem t row) =
      rowItem t row' := by
    funext c
    cases c with
    | createdAt => exact congrArg Value.text hcreated.symm
    | _ => rfl
  have hnull : (tbl.any fun item => item .id = .text t.val ∧ notNull.any fun c =>
      setColumns updated (updateValues (rowItem t row')) item c = .null) = false := by
    refine List.any_eq_false.2 fun item hitem => ?_
    simp only [decide_eq_true_eq, not_and]
    intro hid
    rw [h.eq_rowItem hget hitem hid, hrow]
    simp [notNull, rowItem]
  refine ⟨_, by rw [Table.update, if_neg (by rw [hnull]; exact Bool.false_ne_true)], ?_, ?_⟩
  · -- An `UPDATE` leaves the ids, so that they stay distinct.
    have hids : ((tbl.map fun item => if item .id = .text t.val then
        setColumns updated (updateValues (rowItem t row')) item else item).map
          fun item => item .id) = tbl.map fun item => item .id := by
      rw [List.map_map]
      refine List.map_congr_left fun item _ => ?_
      dsimp only [Function.comp_apply]
      split <;> rfl
    rw [hids]
    exact h.nodup
  · intro item
    rw [List.mem_map]
    constructor
    · rintro ⟨item, hitem, rfl⟩
      split
      · next hid =>
        refine ⟨t, row', Registry.get_insert_self, ?_⟩
        rw [h.eq_rowItem hget hitem hid, hrow]
      · next hid =>
        obtain ⟨u, row₁, hget₁, rfl⟩ := (h.mem item).1 hitem
        have hne : t ≠ u := by
          rintro rfl
          exact hid rfl
        exact ⟨u, row₁, (Registry.get_insert_ne hne).trans hget₁, rfl⟩
    · rintro ⟨u, row₁, hget₁, rfl⟩
      by_cases htu : t = u
      · subst htu
        rw [Registry.get_insert_self] at hget₁
        cases hget₁
        refine ⟨rowItem t row, (h.mem _).2 ⟨t, row, hget, rfl⟩, ?_⟩
        exact (if_pos rfl).trans hrow
      · rw [Registry.get_insert_ne htu] at hget₁
        refine ⟨rowItem u row₁, (h.mem _).2 ⟨u, row₁, hget₁, rfl⟩, if_neg ?_⟩
        exact fun hid => htu (TenantId.ext (Value.text.inj hid)).symm

end Stores

/-! ## The operations -/

theorem ofText_eq_some {x : String} (h : Desired.ofText x = some d) : x = d.text := by
  unfold Desired.ofText at h
  split at h <;> cases h <;> rfl

theorem text_mem (d : Desired) : Value.text d.text ∈ desiredStatuses := by
  cases d <;> decide

/-- A desired status is one of the three, or invalid. -/
theorem ofOption_mem_iff {x : Option String} :
    Value.ofOption x ∈ desiredStatuses ↔ ∃ d, x.bind Desired.ofText = some d := by
  cases x with
  | none => simp [Value.ofOption, desiredStatuses]
  | some x =>
    constructor
    · intro h
      simp only [Value.ofOption, desiredStatuses, List.mem_cons, Value.text.injEq,
        List.not_mem_nil, or_false] at h
      rcases h with rfl | rfl | rfl
      · exact ⟨.active, rfl⟩
      · exact ⟨.suspended, rfl⟩
      · exact ⟨.gone, rfl⟩
    · rintro ⟨d, hd⟩
      rw [ofText_eq_some hd]
      exact text_mem d

theorem invalidDesired_ofOption (x : Option String) :
    invalidDesired (.ofOption x) = .validationError (Fields.invalidDesired x) := by
  cases x <;> rfl

theorem checkVersion_rowItem (t : TenantId) (row : Row) (v : Option ℤ) :
    checkVersion t (rowItem t row) v =
      if v.any fun v => decide (v ≠ row.version) then .error (.conflictError
        s!"tenant {t.val} version conflict: have {row.version}, expected {v.getD 0}")
      else .ok () := by
  cases v with
  | none => rfl
  | some v =>
    have h : checkVersion t (rowItem t row) (some v) =
        if row.version ≠ v then .error (.conflictError
          s!"tenant {t.val} version conflict: have {row.version}, expected {v}") else .ok () := rfl
    rw [h]
    by_cases hv : v = row.version <;> simp [hv, eq_comm]

/-- The fields of a call, and those every update sets. -/
theorem current_eq (row : Row) : Function.update (Function.update (Function.update
    (fun c => (k.get? c).getD (rowItem t row c)) .id (.text t.val)) .updatedAt (.text now)) .version
      (.int (row.version + 1)) = renewed now k row.version (rowItem t row) := by
  funext c
  cases c <;> rfl

/-- A row that is there is updated as the registry updates it. -/
theorem upsertPresent_eq (h : Stores tbl s) (hget : s.get t = some row) (v : Option ℤ) :
    match s.upsertRow now t v k.fields with
    | .ok row' => rowItem t row' = renewed now k row.version (rowItem t row) ∧
      ∃ tbl', upsertPresent now t v k tbl (rowItem t row) = .ok (rowItem t row', tbl') ∧
        Stores tbl' (Std.ExtTreeMap.insert s t row')
    | .error e => upsertPresent now t v k tbl (rowItem t row) = .error e := by
  have hpresent : upsertPresent now t v k tbl (rowItem t row) =
      (checkVersion t (rowItem t row) v).bind fun _ =>
        if renewed now k row.version (rowItem t row) .desiredStatus ∉ desiredStatuses then
          .error (invalidDesired (renewed now k row.version (rowItem t row) .desiredStatus))
        else (tbl.update updated (updateValues (renewed now k row.version (rowItem t row))) t.val).map
          fun tbl' => (renewed now k row.version (rowItem t row), tbl') := by
    rw [← current_eq]
    unfold upsertPresent
    cases checkVersion t (rowItem t row) v <;> rfl
  have hupdate (d : Desired)
      (hd : (k.get? .desiredStatus).getD (rowItem t row .desiredStatus) = .text d.text) :
      rowItem t (row.update k.fields d row.version now) = renewed now k row.version (rowItem t row) ∧
        ∃ tbl', (if renewed now k row.version (rowItem t row) .desiredStatus ∉ desiredStatuses then
          .error (invalidDesired (renewed now k row.version (rowItem t row) .desiredStatus))
        else (tbl.update updated (updateValues (renewed now k row.version (rowItem t row))) t.val).map
          fun tbl' => (renewed now k row.version (rowItem t row), tbl')) =
            .ok (rowItem t (row.update k.fields d row.version now), tbl') ∧
          Stores tbl' (Std.ExtTreeMap.insert s t (row.update k.fields d row.version now)) := by
    have hitem := @rowItem_update t row k now d hd
    obtain ⟨tbl', htbl, hstores⟩ := @Stores.update t row tbl s h hget (row.update k.fields d row.version now) rfl
    refine ⟨hitem, tbl', ?_, hstores⟩
    have hmem : renewed now k row.version (rowItem t row) .desiredStatus ∈ desiredStatuses := by
      rw [← hitem]
      exact text_mem d
    rw [if_neg (not_not.2 hmem), ← hitem, htbl]
    rfl
  -- Both check the version first, then the desired status the row ends with.
  rw [hpresent, checkVersion_rowItem]
  simp only [Registry.upsertRow, hget]
  by_cases hv : (v.any fun v => decide (v ≠ row.version)) = true
  · rw [if_pos hv, if_pos hv]
    rfl
  · rw [if_neg hv, if_neg hv]
    have hversion : row.updateVersion k.fields = .ok row.version := rfl
    cases hd : k.desiredStatus with
    | none =>
      have hdesired : row.updateDesired k.fields = .ok row.desiredStatus := by
        simp [Row.updateDesired, Kwargs.fields, hd]
      rw [hversion, Except.bind, hdesired]
      exact hupdate _ (by simp [Kwargs.get?, hd, rowItem])
    | some x =>
      cases hx : x.bind Desired.ofText with
      | some d =>
        have hdesired : row.updateDesired k.fields = .ok d := by
          simp [Row.updateDesired, Kwargs.fields, hd, hx]
        rw [hversion, Except.bind, hdesired]
        refine hupdate d ?_
        obtain ⟨y, rfl, hy⟩ := Option.bind_eq_some_iff.1 hx
        simp [Kwargs.get?, hd, Value.ofOption, ofText_eq_some hy]
      | none =>
        have hdesired : row.updateDesired k.fields =
            .error (.validationError (Fields.invalidDesired x)) := by
          simp [Row.updateDesired, Kwargs.fields, hd, hx]
        have hvalue : renewed now k row.version (rowItem t row) .desiredStatus = .ofOption x := by
          simp [renewed, Kwargs.get?, hd]
        have hmem : Value.ofOption x ∉ desiredStatuses := by
          rw [ofOption_mem_iff]
          rintro ⟨d, hd'⟩
          rw [hx] at hd'
          cases hd'
        rw [hversion, Except.bind, hdesired, hvalue, ← invalidDesired_ofOption]
        exact if_pos hmem

/-- The status of a row inserted. -/
def Kwargs.statusText (k : Kwargs) : String :=
  match k.status with
  | none => "PROVISIONING"
  | some st => if st = "" then "PROVISIONING" else st

theorem getOr_status (k : Kwargs) : k.getOr .status "PROVISIONING" = .text k.statusText := by
  unfold Kwargs.statusText Kwargs.getOr Kwargs.get Kwargs.get?
  cases k.status with
  | none => rfl
  | some st => by_cases hst : st = "" <;> simp [Value.truthy, hst]

theorem insertStatus_some {f : Fields} {st : Status} (h : f.status = some st) :
    Row.insertStatus f = if st = .other "" then .provisioning else st := by
  unfold Row.insertStatus
  rw [h]
  cases st with
  | other x => by_cases hx : x = "" <;> simp [hx]
  | _ => rfl

theorem insertStatus_eq (k : Kwargs) : Row.insertStatus k.fields = Status.ofText k.statusText := by
  cases hk : k.status with
  | none =>
    have h : k.fields.status = none := by simp [Kwargs.fields, hk]
    simp [Row.insertStatus, h, Kwargs.statusText, hk, Status.ofText]
  | some st =>
    have h : k.fields.status = some (Status.ofText st) := by simp [Kwargs.fields, hk]
    rw [insertStatus_some h, Kwargs.statusText, hk]
    by_cases hst : st = ""
    · subst hst
      rfl
    · dsimp only
      rw [if_neg hst, if_neg fun heq => hst ?_]
      rw [← ofText_text st, heq]
      rfl

theorem infer_status (k : Kwargs) :
    infer (k.getOr .status "PROVISIONING") = .text (Row.inferDesired k.fields).text := by
  rw [getOr_status, Row.inferDesired, insertStatus_eq]
  generalize hx : Status.ofText k.statusText = x
  have hst : k.statusText = x.text := by rw [← hx, ofText_text]
  rw [hst] at hx ⊢
  cases x with
  | other st =>
    -- The text of a status that is none of the others.
    have hne (st' : Status) (h : Status.ofText st'.text = st') (hst' : ∀ st, st' ≠ .other st) :
        st ≠ st'.text := by
      rintro rfl
      exact hst' _ (h.symm.trans hx)
    have h₁ := hne .suspended (by decide) nofun
    have h₂ := hne .deleting (by decide) nofun
    have h₃ := hne .deleteFailed (by decide) nofun
    simp_all [infer, Status.text, Desired.text]
  | _ => rfl

/-- The row the registry inserts. -/
theorem rowItem_insert : rowItem t (Row.insert k.fields d now) = newItem now t k (.text d.text) := by
  funext c
  cases c with
  | status => simp [rowItem, newItem, Row.insert, insertStatus_eq, getOr_status]
  | tier =>
    simp only [rowItem, newItem, Row.insert, Kwargs.getOr, Kwargs.get, Kwargs.get?]
    exact ofOption_or k.tier "standard"
  | id | desiredStatus | version | createdAt | updatedAt => rfl
  | _ =>
    simp only [rowItem, newItem, Row.insert, Kwargs.fields, Kwargs.get, Kwargs.get?, ofOption_getD]
    rfl

/-- An `INSERT` of a row whose id is new. -/
theorem Stores.insert_ok (h : Stores tbl s) (hget : s.get t = none) (row : Row) :
    tbl.insert fields (fields.map (rowItem t row)) = .ok (tbl ++ [rowItem t row]) := by
  have hrow : (fun c => (bound fields (fields.map (rowItem t row)) c).getD
      (if c = .version then .int 1 else .null)) = rowItem t row := by
    funext c
    cases c <;> rfl
  unfold Table.insert
  rw [hrow, if_neg (by simp [notNull, rowItem]), if_neg ?_]
  simp only [List.any_eq_true, decide_eq_true_eq, not_exists, not_and]
  intro item hitem hid
  obtain ⟨u, row', hget', rfl⟩ := (h.mem item).1 hitem
  obtain rfl := rowItem_id_inj hid
  rw [hget'] at hget
  cases hget

/-- The desired status a call gives a row it inserts. -/
def newDesired (k : Kwargs) : Value :=
  if k.get .desiredStatus = .null then infer (k.getOr .status "PROVISIONING")
  else k.get .desiredStatus

/-- A row that is missing is inserted as the registry inserts it. -/
theorem upsertAbsent_eq (h : Stores tbl s) (hget : s.get t = none) (v : Option ℤ) :
    match s.upsertRow now t v k.fields with
    | .ok row => rowItem t row = newItem now t k (newDesired k) ∧
      ∃ tbl', upsertAbsent now t k tbl = .ok (rowItem t row, tbl') ∧
        Stores tbl' (Std.ExtTreeMap.insert s t row)
    | .error e => upsertAbsent now t k tbl = .error e := by
  have hinsert (d : Desired) (hd : newDesired k = .text d.text)
      (hvalid : ¬(k.get .desiredStatus ≠ .null ∧ k.get .desiredStatus ∉ desiredStatuses)) :
      rowItem t (Row.insert k.fields d now) = newItem now t k (newDesired k) ∧
        ∃ tbl', upsertAbsent now t k tbl = .ok (rowItem t (Row.insert k.fields d now), tbl') ∧
          Stores tbl' (Std.ExtTreeMap.insert s t (Row.insert k.fields d now)) := by
    have hitem : rowItem t (Row.insert k.fields d now) = newItem now t k (newDesired k) := by
      rw [hd, rowItem_insert]
    refine ⟨hitem, _, ?_, h.insert hget⟩
    have habsent : upsertAbsent now t k tbl =
        (tbl.insert fields (fields.map (newItem now t k (newDesired k)))).map
          fun tbl' => (newItem now t k (newDesired k), tbl') := by
      unfold upsertAbsent
      dsimp only
      rw [if_neg hvalid]
      rfl
    rw [habsent, ← hitem, h.insert_ok hget]
    rfl
  simp only [Registry.upsertRow, hget]
  have hfields : k.fields.desiredStatus = k.desiredStatus := rfl
  rcases hk : k.desiredStatus with _ | _ | x
  · -- Omitted, or null.
    have hnull : k.get .desiredStatus = .null := by simp [Kwargs.get, Kwargs.get?, hk]
    simp only [Row.insertDesired, hfields, hk]
    exact hinsert _ (by rw [newDesired, if_pos hnull, infer_status]) fun h => h.1 hnull
  · have hnull : k.get .desiredStatus = .null := by
      simp [Kwargs.get, Kwargs.get?, hk, Value.ofOption]
    simp only [Row.insertDesired, hfields, hk]
    exact hinsert _ (by rw [newDesired, if_pos hnull, infer_status]) fun h => h.1 hnull
  · have hvalue : k.get .desiredStatus = .ofOption (some x) := by
      simp [Kwargs.get, Kwargs.get?, hk]
    have hne : k.get .desiredStatus ≠ .null := by
      rw [hvalue]
      exact nofun
    simp only [Row.insertDesired, hfields, hk, Option.getD_some]
    cases hx : Desired.ofText x with
    | some d =>
      have hmem : k.get .desiredStatus ∈ desiredStatuses := by
        rw [hvalue]
        exact ofOption_mem_iff.2 ⟨d, hx⟩
      refine hinsert d ?_ fun h => h.2 hmem
      rw [newDesired, if_neg hne, hvalue, ofText_eq_some hx]
      rfl
    | none =>
      have hmem : k.get .desiredStatus ∉ desiredStatuses := by
        rw [hvalue, ofOption_mem_iff]
        rintro ⟨d, hd⟩
        rw [Option.bind_some, hx] at hd
        cases hd
      have hinvalid : upsertAbsent now t k tbl = .error (invalidDesired (k.get .desiredStatus)) :=
        if_pos ⟨hne, hmem⟩
      rw [hinvalid, hvalue, invalidDesired_ofOption]
      rfl

/-! ## Histories -/

/-- An operation of a client, at a time. -/
inductive StoreOp
  | get (tenantId : String)
  | list
  | upsert (now tenantId : String) (expected : Option ℤ) (k : Kwargs)
  | delete (tenantId : String)

/-- The reply to an operation. -/
inductive StoreReply
  | found (item : Option Item)
  | items (l : List Item)
  | item (x : Except Exn Item)
  | deleted (b : Bool)

/-- An operation on the table. -/
def StoreOp.onTable : StoreOp → Table → StoreReply × Table
  | .get id, tbl => (.found (Sqlite.get id tbl), tbl)
  | .list, tbl => (.items (Sqlite.list tbl), tbl)
  | .upsert now id v k, tbl =>
    let a := Sqlite.upsert now id v k tbl
    (.item a.1, a.2)
  | .delete id, tbl =>
    let a := Sqlite.delete id tbl
    (.deleted a.1, a.2)

/-- An operation on the registry, a map of tenant ids: it has no other ids. -/
def StoreOp.onMap : StoreOp → Registry → StoreReply × Registry
  | .get id, s => (.found (if h : tenantIdRe id then (s.get ⟨id, h⟩).map (rowItem ⟨id, h⟩) else none), s)
  | .list, s => (.items (s.list.map fun p => rowItem p.1 p.2), s)
  | .upsert now id v k, s =>
    match validateTenantId (some id) with
    | .error e => (.item (.error e), s)
    | .ok t =>
      let a := s.upsert now t v k.fields
      (.item (a.1.map (rowItem t)), a.2)
  | .delete id, s =>
    if h : tenantIdRe id then
      let a := s.delete ⟨id, h⟩
      (.deleted a.1, a.2)
    else (.deleted false, s)

/-- An upsert on the table is the one on the registry. -/
theorem Stores.upsert (h : Stores tbl s) (now : String) (t : TenantId) (v : Option ℤ) (k : Kwargs) :
    (Sqlite.upsert now t.val v k tbl).1 = (s.upsert now t v k.fields).1.map (rowItem t) ∧
      Stores (Sqlite.upsert now t.val v k tbl).2 (s.upsert now t v k.fields).2 := by
  -- Either body of the transaction does what the registry does, or fails as it fails.
  have hcommit (body : Except Exn (Item × Table)) (hbody : match s.upsertRow now t v k.fields with
      | .ok row => ∃ tbl', body = .ok (rowItem t row, tbl') ∧
          Stores tbl' (Std.ExtTreeMap.insert s t row)
      | .error e => body = .error e) :
      (transaction tbl body).1 = (s.upsert now t v k.fields).1.map (rowItem t) ∧
        Stores (transaction tbl body).2 (s.upsert now t v k.fields).2 := by
    rw [Registry.upsert]
    cases hup : s.upsertRow now t v k.fields with
    | ok row =>
      rw [hup] at hbody
      obtain ⟨tbl', rfl, hstores⟩ := hbody
      exact ⟨rfl, hstores⟩
    | error e =>
      rw [hup] at hbody
      rw [hbody]
      exact ⟨rfl, h⟩
  simp only [Sqlite.upsert, t.validate_val, h.select]
  cases hget : s.get t with
  | some row =>
    refine hcommit _ ?_
    have hrow := @upsertPresent_eq t row k now tbl s h hget v
    split at hrow
    · exact hrow.2
    · exact hrow
  | none =>
    refine hcommit _ ?_
    have hrow := @upsertAbsent_eq t k now tbl s h hget v
    split at hrow
    · exact hrow.2
    · exact hrow

/-- An operation replies alike on the table and on the registry, and keeps the one the table of
    the other. -/
theorem refines_step (op : StoreOp) (tbl : Table) (s : Registry) (h : Stores tbl s) :
    (op.onTable tbl).1 = (op.onMap s).1 ∧ Stores (op.onTable tbl).2 (op.onMap s).2 := by
  cases op with
  | get id =>
    refine ⟨?_, h⟩
    simp only [StoreOp.onTable, StoreOp.onMap, Sqlite.get]
    split
    · next hid => rw [h.select ⟨id, hid⟩]
    · next hid => rw [h.select_invalid (eq_false_of_ne_true hid)]
  | list => exact ⟨congrArg StoreReply.items h.selectAll, h⟩
  | upsert now id v k =>
    simp only [StoreOp.onTable, StoreOp.onMap]
    cases hid : validateTenantId (some id) with
    | error e =>
      simp only [Sqlite.upsert, hid]
      exact ⟨trivial, h⟩
    | ok t =>
      obtain rfl := TenantId.validate_ok hid
      obtain ⟨hreply, hstores⟩ := h.upsert now t v k
      exact ⟨congrArg StoreReply.item hreply, hstores⟩
  | delete id =>
    simp only [StoreOp.onTable, StoreOp.onMap]
    split
    · next hid =>
      refine ⟨congrArg StoreReply.deleted ?_, h.erase ⟨id, hid⟩⟩
      have hselect := congrArg Option.isSome (h.select ⟨id, hid⟩)
      rw [Option.isSome_map] at hselect
      exact List.isSome_find?.symm.trans hselect
    · next hid =>
      -- No row has an id that is not one of a tenant: there is nothing to delete.
      have hnone := h.select_invalid (eq_false_of_ne_true hid)
      have hne : ∀ item ∈ tbl, item .id ≠ .text id := by
        simpa [Table.select] using hnone
      refine ⟨congrArg StoreReply.deleted ?_, ?_⟩
      · simpa [Sqlite.delete] using hne
      · have hfilter : (Sqlite.delete id tbl).2 = tbl :=
          List.filter_eq_self.2 fun item hitem => decide_eq_true (hne item hitem)
        rw [hfilter]
        exact h

/-- What the operations do to a table: its rows have valid ids and desired statuses; an upsert
    writes the row it returns, inserted with its defaults or renewed, and no other row; one that
    raises writes nothing; a deletion deletes the row of its id only. -/
structure Lawful (tbl : Table) : Prop where
  valid : ∀ item ∈ tbl, (∃ id, item .id = .text id ∧ tenantIdRe id = true) ∧
    item .desiredStatus ∈ desiredStatuses
  returned : ∀ now id v k item, (upsert now id v k tbl).1 = .ok item →
    get id (upsert now id v k tbl).2 = some item ∧
      ∀ id', id' ≠ id → get id' (upsert now id v k tbl).2 = get id' tbl
  inserted : ∀ now id v k item, (upsert now id v k tbl).1 = .ok item → get id tbl = none →
    ∃ t : TenantId, t.val = id ∧ item = newItem now t k (newDesired k)
  renewed : ∀ now id v k item row, (upsert now id v k tbl).1 = .ok item → get id tbl = some row →
    ∃ n, row .version = .int n ∧ item = renewed now k n row
  raised : ∀ now id v k e, (upsert now id v k tbl).1 = .error e →
    (upsert now id v k tbl).2 = tbl
  deleted : ∀ id, get id (delete id tbl).2 = none ∧
    ∀ id', id' ≠ id → get id' (delete id tbl).2 = get id' tbl

theorem transaction_error {α : Type} {body : Except Exn (α × Table)} {e : Exn}
    (h : (transaction tbl body).1 = .error e) : (transaction tbl body).2 = tbl := by
  cases body with
  | ok a => cases h
  | error e => rfl

theorem Stores.get_ne (h : Stores tbl s) {tbl' : Table} {s' : Registry} (h' : Stores tbl' s')
    (hne : ∀ u, u ≠ t → s'.get u = s.get u) {id : String} (hid : id ≠ t.val) :
    Sqlite.get id tbl' = Sqlite.get id tbl := by
  unfold Sqlite.get
  by_cases hval : tenantIdRe id = true
  · have hu : (⟨id, hval⟩ : TenantId) ≠ t := fun heq => hid (congrArg TenantId.val heq)
    rw [h.select ⟨id, hval⟩, h'.select ⟨id, hval⟩, hne _ hu]
  · rw [h.select_invalid (eq_false_of_ne_true hval), h'.select_invalid (eq_false_of_ne_true hval)]

/-- An upsert that returns validated its id. -/
theorem upsert_ok_id {id : String} {v : Option ℤ} (h : (upsert now id v k tbl).1 = .ok item) :
    ∃ t : TenantId, t.val = id := by
  unfold upsert at h
  cases hid : validateTenantId (some id) with
  | error e =>
    rw [hid] at h
    cases h
  | ok t => exact ⟨t, TenantId.validate_ok hid⟩

/-- The row returned is the one the registry writes. -/
theorem Stores.upsert_returned (h : Stores tbl s) {v : Option ℤ}
    (hitem : (Sqlite.upsert now t.val v k tbl).1 = .ok item) :
    ∃ row, s.upsertRow now t v k.fields = .ok row ∧ item = rowItem t row := by
  rw [(h.upsert now t v k).1] at hitem
  cases hup : (s.upsert now t v k.fields).1 with
  | error e =>
    rw [hup] at hitem
    cases hitem
  | ok row =>
    rw [hup] at hitem
    exact ⟨row, (Registry.upsert_ok hup).1, (Except.ok.inj hitem).symm⟩

theorem Stores.lawful (h : Stores tbl s) : Lawful tbl where
  valid item hitem := by
    obtain ⟨t, row, -, rfl⟩ := (h.mem item).1 hitem
    exact ⟨⟨t.val, rfl, t.valid⟩, text_mem _⟩
  returned now id v k item hitem := by
    obtain ⟨t, rfl⟩ := upsert_ok_id hitem
    have hstores := (h.upsert now t v k).2
    obtain ⟨row, hup, rfl⟩ := h.upsert_returned hitem
    have hget : (s.upsert now t v k.fields).2.get t = some row := by simp [Registry.upsert, hup]
    refine ⟨?_, fun id' hid' => h.get_ne hstores (fun u hu => Registry.upsert_get_ne hu.symm) hid'⟩
    rw [Sqlite.get, hstores.select, hget, Option.map_some]
  inserted now id v k item hitem hnone := by
    obtain ⟨t, rfl⟩ := upsert_ok_id hitem
    refine ⟨t, rfl, ?_⟩
    rw [Sqlite.get, h.select, Option.map_eq_none_iff] at hnone
    obtain ⟨row, hup, rfl⟩ := h.upsert_returned hitem
    have hrow := @upsertAbsent_eq t k now tbl s h hnone v
    rw [hup] at hrow
    exact hrow.1
  renewed now id v k item row hitem hrow := by
    obtain ⟨t, rfl⟩ := upsert_ok_id hitem
    rw [Sqlite.get, h.select, Option.map_eq_some_iff] at hrow
    obtain ⟨row, hget, rfl⟩ := hrow
    obtain ⟨row', hup, rfl⟩ := h.upsert_returned hitem
    have hrow := @upsertPresent_eq t row k now tbl s h hget v
    rw [hup] at hrow
    exact ⟨row.version, rfl, hrow.1⟩
  raised now id v k e he := by
    unfold Sqlite.upsert at he ⊢
    cases hid : validateTenantId (some id) with
    | error e => rfl
    | ok t =>
      rw [hid] at he
      exact transaction_error he
  deleted id := by
    refine ⟨List.find?_eq_none.2 fun item hitem => ?_, fun id' hid => ?_⟩
    · simpa using (List.mem_filter.1 hitem).2
    · -- The rows left out have another id.
      unfold Sqlite.get Table.select Sqlite.delete
      rw [List.find?_filter]
      congr 1
      funext row
      by_cases hrow : row .id = .text id'
      · simp [hrow, hid]
      · simp [hrow]

/-- A history of operations on a new table replies as on an empty registry, and leaves a table of
    the registry it leaves, on which the operations are lawful. -/
theorem store_refines (ops : List StoreOp) :
    (history StoreOp.onTable ops []).1 = (history StoreOp.onMap ops ∅).1 ∧
      Stores (history StoreOp.onTable ops []).2 (history StoreOp.onMap ops ∅).2 ∧
      Lawful (history StoreOp.onTable ops []).2 := by
  obtain ⟨hreplies, hstores⟩ := history_simulates refines_step ops Stores.empty
  exact ⟨hreplies, hstores, hstores.lawful⟩

end Sqlite

end NtierLab
