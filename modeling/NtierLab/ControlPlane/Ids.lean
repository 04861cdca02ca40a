import NtierLab.ControlPlane.Errors

/-!
# Tenant ids

The single tenant-id rule, `^[a-z][a-z0-9]{0,15}\Z`, shared by the API, the CLI, the
provisioner, the lifecycle and the AWS identity. An id is a string that meets the
rule (`TenantId`): every operation validates the id it is given before anything
else, so that the operations take validated ids.
-/

namespace NtierLab

/-- `TENANT_ID_RULE`. -/
def tenantIdRule : String := "^[a-z][a-z0-9]{0,15}$"

/-- Whether `TENANT_ID_RE` matches. -/
def tenantIdRe (value : String) : Bool :=
  match value.toList with
  | [] => false
  | c :: cs => c.isLower && decide (cs.length ≤ 15) && cs.all fun d => d.isLower || d.isDigit

/-- A tenant id. -/
structure TenantId where
  val : String
  valid : tenantIdRe val = true
  deriving DecidableEq

/-- No strip: leading or trailing whitespace fails closed. -/
def validateTenantId (tenantId : Option String) : Except Exn TenantId :=
  let value := tenantId.getD ""
  if h : tenantIdRe value then .ok ⟨value, h⟩
  else .error (.validationError s!"invalid tenant id {pyRepr value}; must match {tenantIdRule}")

namespace TenantId

variable {t u : TenantId}

theorem ext (h : t.val = u.val) : t = u := by
  cases t; cases u; cases h; rfl

/-- Validation accepts an id, and returns it. -/
@[simp] theorem validate_val (t : TenantId) : validateTenantId (some t.val) = .ok t := by
  simp [validateTenantId, t.valid]

/-- The id validation returns is the one it was given. -/
theorem validate_ok {value : String} (h : validateTenantId (some value) = .ok t) : t.val = value := by
  simp only [validateTenantId, Option.getD_some] at h
  split at h
  · cases h; rfl
  · cases h

/-- Ids are ordered as strings, as the registry and `sorted` order them. -/
instance : Ord TenantId where
  compare t u := compare t.val u.val

instance : Std.TransOrd TenantId where
  eq_swap {t u} := Std.OrientedOrd.eq_swap (a := t.val) (b := u.val)
  isLE_trans {t u v} := Std.TransOrd.isLE_trans (a := t.val) (b := u.val) (c := v.val)

instance : Std.LawfulEqOrd TenantId where
  compare_self {t} := Std.ReflOrd.compare_self (a := t.val)
  eq_of_compare h := ext (Std.LawfulEqOrd.eq_of_compare h)

/-- An id begins with a lower-case letter. -/
theorem head_isLower (t : TenantId) : ∃ c cs, t.val.toList = c :: cs ∧ c.isLower = true := by
  have h := t.valid
  unfold tenantIdRe at h
  split at h
  · cases h
  · next c cs heq =>
    simp only [Bool.and_eq_true] at h
    exact ⟨c, cs, heq, h.1.1⟩

theorem val_ne_empty (t : TenantId) : t.val ≠ "" := by
  obtain ⟨c, cs, hcs, -⟩ := t.head_isLower
  intro h
  rw [h] at hcs
  exact absurd hcs (by simp)

/-- The characters of an id are lower-case letters and digits. -/
theorem isAlphanum (t : TenantId) : ∀ c ∈ t.val.toList, c.isLower ∨ c.isDigit := by
  have h := t.valid
  unfold tenantIdRe at h
  split at h
  · cases h
  · next c cs heq =>
    simp only [Bool.and_eq_true, List.all_eq_true, Bool.or_eq_true] at h
    intro d hd
    rw [heq] at hd
    rcases List.mem_cons.1 hd with rfl | hd
    · exact .inl h.1.1
    · exact h.2 d hd

/-- The characters of an id, by their codes. -/
theorem char_toNat (t : TenantId) {c : Char} (hc : c ∈ t.val.toList) :
    (97 ≤ c.toNat ∧ c.toNat ≤ 122) ∨ (48 ≤ c.toNat ∧ c.toNat ≤ 57) := by
  have h := t.isAlphanum c hc
  simp only [Char.isLower, Char.isDigit, Bool.and_eq_true, decide_eq_true_eq, ge_iff_le,
    UInt32.le_iff_toNat_le] at h
  exact h

theorem toLower (t : TenantId) {c : Char} (hc : c ∈ t.val.toList) : c.toLower = c := by
  have h := t.char_toNat hc
  unfold Char.toLower
  split
  · next hupper =>
    have hle : c.toNat ≤ 90 := UInt32.le_iff_toNat_le.1 hupper.2
    have hge : 65 ≤ c.toNat := UInt32.le_iff_toNat_le.1 hupper.1
    omega
  · rfl

/-- The namespace of a tenant. -/
def ns (t : TenantId) : String := "tenant-" ++ t.val

/-- The Postgres role of a tenant. -/
def role (t : TenantId) : String := "tenant_" ++ t.val

/-- The row-level-security policy of a tenant. -/
def policy (t : TenantId) : String := "tenant_" ++ t.val ++ "_isolation"

theorem role_injective : Function.Injective role := by
  intro t u h
  exact ext (by simpa [role] using h)

theorem policy_injective : Function.Injective policy := by
  intro t u h
  exact ext (by simpa [policy] using h)

end TenantId

end NtierLab
