import NtierLab.ControlPlane.Locality
import NtierLab.ControlPlane.OpenWorld

/-!
# Trust

The service accounts that may assume a role: the subject in the trust of the role of a
tenant, as the control plane creates it (`ensureTenantIdentity`) or as OpenTofu does
(`env/dev/workload/irsa.tf`, `tenantAssume`), and the two subjects of the migrator role
(`migratorAssume`), one of which is a literal, in the namespace `tenant-system`.

* `trust_disjoint_iff`: the subjects are those of each tenant's own namespace, and the
  migrator's those of the platform tenant, unless another tenant is called `system`.
-/

namespace NtierLab

open Prog

/-- What a subject that is a service account begins with. -/
def subjectPrefix : String := "system:serviceaccount:"

/-- The subject of a service account. -/
def serviceAccount (ns name : String) : String := subjectPrefix ++ ns ++ ":" ++ name

/-- The subject is a service account of the namespace. -/
def InNamespace (ns sub : String) : Prop := ∃ name, sub = serviceAccount ns name

/-- `tenant_assume`. -/
def tenantAssume (t : TenantId) : List String :=
  ["system:serviceaccount:tenant-" ++ t.val ++ ":test-app"]

/-- `migrator_assume`, of the platform tenant. -/
def migratorAssume (first : TenantId) : List String :=
  ["system:serviceaccount:tenant-" ++ first.val ++ ":test-app-migrate",
    "system:serviceaccount:tenant-system:rds-admin"]

/-- The subject a command lets assume a role. -/
def Cmd.trusted : Cmd → Option String
  | .aws (.createRole _ trust) | .aws (.updateAssumeRolePolicy _ trust) => some trust.sub
  | _ => none

/-- A world that answers anything. -/
def anyWorld : Handler cpSig Unit := fun _ _ _ _ => True

/-- The subjects trusted by the role of a tenant, created by OpenTofu or by the control plane. -/
def trustedSubjects (outputs : Outputs) (t : TenantId) : Set String :=
  { sub | sub ∈ tenantAssume t ∨ ∃ tr x, Exec anyWorld (ensureTenantIdentity outputs t) () tr x () ∧
    ∃ e ∈ tr, e.cmd.trusted = some sub }

/-- Each tenant trusts its own namespace, no two of them a common subject, and the migrator of
    the platform tenant no subject of another tenant. -/
structure TrustDisjoint (outputs : Outputs) (platform : TenantId) (tenants : Set TenantId) :
    Prop where
  own : ∀ t ∈ tenants, ∀ sub ∈ trustedSubjects outputs t, InNamespace t.ns sub
  disjoint : tenants.PairwiseDisjoint (trustedSubjects outputs)
  migrator : ∀ t ∈ tenants, t ≠ platform → ∀ sub ∈ migratorAssume platform, ¬InNamespace t.ns sub

/-! ## Namespaces -/

/-- What comes before the first separator. -/
theorem append_cons_left_inj {α : Type} {s : α} {a b x y : List α} (ha : s ∉ a) (hb : s ∉ b)
    (h : a ++ s :: x = b ++ s :: y) : a = b := by
  induction a generalizing b with
  | nil =>
    cases b with
    | nil => rfl
    | cons c b =>
      obtain ⟨rfl, -⟩ := List.cons.inj h
      exact absurd List.mem_cons_self hb
  | cons c a ih =>
    cases b with
    | nil =>
      obtain ⟨rfl, -⟩ := List.cons.inj h
      exact absurd List.mem_cons_self ha
    | cons d b =>
      obtain ⟨rfl, h'⟩ := List.cons.inj h
      rw [ih (fun h => ha (List.mem_cons_of_mem _ h)) (fun h => hb (List.mem_cons_of_mem _ h)) h']

theorem TenantId.colon_notMem (t : TenantId) : ':' ∉ t.ns.toList := by
  intro h
  rw [ns, String.toList_append, List.mem_append] at h
  rcases h with h | h
  · simp at h
  · rcases t.isAlphanum _ h with h | h <;> exact absurd h (by decide +kernel)

theorem TenantId.ns_injective : Function.Injective TenantId.ns := by
  intro t u h
  exact TenantId.ext (by simpa [TenantId.ns] using h)

/-- The namespaces of tenants have no service account in common. -/
theorem InNamespace.eq {t u : TenantId} {sub : String} (ht : InNamespace t.ns sub)
    (hu : InNamespace u.ns sub) : t = u := by
  obtain ⟨name, rfl⟩ := ht
  obtain ⟨name', h⟩ := hu
  have hcolon : (":" : String).toList = [':'] := by simp
  have h := congrArg String.toList h
  simp only [serviceAccount, String.toList_append, List.append_assoc, hcolon] at h
  exact TenantId.ns_injective (String.toList_injective
    (append_cons_left_inj t.colon_notMem u.colon_notMem (List.append_cancel_left h)))

/-! ## The roles of the tenants -/

section

variable {outputs : Outputs} {t u : TenantId}

theorem ns_serviceAccount (t : TenantId) (name : String) :
    "system:serviceaccount:tenant-" ++ t.val ++ (":" ++ name) = serviceAccount t.ns name := by
  have h : "system:serviceaccount:tenant-" = subjectPrefix ++ "tenant-" := by decide +kernel
  calc
    _ = subjectPrefix ++ "tenant-" ++ t.val ++ (":" ++ name) :=
      congrArg (· ++ t.val ++ (":" ++ name)) h
    _ = serviceAccount t.ns name := by simp only [serviceAccount, TenantId.ns, String.append_assoc]

/-- The literal subject of the migrator is one of the namespace of a tenant. -/
theorem rdsAdmin_serviceAccount : "system:serviceaccount:tenant-system:rds-admin" =
    serviceAccount (TenantId.ns ⟨"system", rfl⟩) "rds-admin" := by
  decide +kernel

/-- The command lets no other subject assume a role than the application of the tenant. -/
def TrustsOwn (t : TenantId) (c : Cmd) : Prop :=
  ∀ sub, c.trusted = some sub → sub = serviceAccount t.ns "test-app"

theorem own_subject (t : TenantId) :
    "system:serviceaccount:" ++ t.ns ++ ":test-app" = serviceAccount t.ns "test-app" := by
  have h : ":test-app" = ":" ++ "test-app" := by decide +kernel
  calc
    _ = "system:serviceaccount:" ++ t.ns ++ (":" ++ "test-app") :=
      congrArg ("system:serviceaccount:" ++ t.ns ++ ·) h
    _ = serviceAccount t.ns "test-app" := (String.append_assoc ..).symm

/-- The control plane trusts the application of the tenant, and nothing else. -/
theorem Creating.trustsOwn {c : Cmd} (h : Creating outputs t c) : TrustsOwn t c := by
  intro sub hsub
  unfold Cmd.trusted at hsub
  split at hsub
  · obtain ⟨-, rfl⟩ := h
    exact (Option.some.inj hsub).symm.trans (own_subject t)
  · obtain ⟨-, rfl⟩ := h
    exact (Option.some.inj hsub).symm.trans (own_subject t)
  · cases hsub

theorem ensureTenantIdentity_trusts : (ensureTenantIdentity outputs t).Calls (TrustsOwn t) :=
  ensureTenantIdentity_creating.imp fun _ => Creating.trustsOwn

/-- The subjects trusted by the role of a tenant: its application. -/
theorem trustedSubjects_eq : trustedSubjects outputs t = {serviceAccount t.ns "test-app"} := by
  have htofu : "system:serviceaccount:tenant-" ++ t.val ++ ":test-app" =
      serviceAccount t.ns "test-app" := by
    have h : ":test-app" = ":" ++ "test-app" := by decide +kernel
    exact (congrArg ("system:serviceaccount:tenant-" ++ t.val ++ ·) h).trans (ns_serviceAccount t _)
  ext sub
  rw [trustedSubjects, Set.mem_ofPred_eq, Set.mem_singleton_iff, tenantAssume, List.mem_singleton,
    htofu]
  refine ⟨?_, .inl⟩
  rintro (h | ⟨tr, x, hx, e, he, hsub⟩)
  · exact h
  · exact hx.mem_calls ensureTenantIdentity_trusts e he sub hsub

end

/-- The tenants trust disjoint subjects of their own, and the migrator none of another tenant
    than the platform tenant, exactly if no other tenant is called `system`. -/
theorem trust_disjoint_iff (outputs : Outputs) (platform : TenantId) (tenants : Set TenantId) :
    TrustDisjoint outputs platform tenants ↔
      ∀ t ∈ tenants, t.val = "system" → t = platform := by
  constructor
  · rintro h t ht hsys
    by_contra hne
    obtain rfl : t = ⟨"system", rfl⟩ := TenantId.ext hsys
    exact h.migrator _ ht hne _ (List.mem_cons_of_mem _ List.mem_cons_self)
      ⟨_, rdsAdmin_serviceAccount⟩
  · intro h
    refine ⟨fun t _ sub hsub => ?_, fun t _ u _ htu => ?_, fun t ht hne sub hsub hns => ?_⟩
    · rw [trustedSubjects_eq] at hsub
      exact ⟨_, hsub⟩
    · rw [Function.onFun, trustedSubjects_eq, trustedSubjects_eq, Set.disjoint_singleton]
      exact fun heq => htu (InNamespace.eq ⟨_, rfl⟩ ⟨_, heq⟩)
    · -- The migrator trusts a service account of the platform tenant, and one of `system`.
      rcases List.mem_cons.1 hsub with rfl | hsub
      · have hsub := ns_serviceAccount platform "test-app-migrate"
        exact hne (InNamespace.eq hns ⟨_, hsub⟩)
      · obtain rfl := List.mem_singleton.1 hsub
        obtain rfl := InNamespace.eq hns ⟨_, rdsAdmin_serviceAccount⟩
        exact hne (h _ ht rfl)

/-- The migrator trusts a service account in the namespace of the tenant `system`. -/
theorem migrator_trusts_system : ¬∀ (outputs : Outputs) (platform : TenantId)
    (tenants : Set TenantId), TrustDisjoint outputs platform tenants := by
  intro h
  have hne : (⟨"system", rfl⟩ : TenantId) ≠ .a := by decide +kernel
  exact (h labOutputs .a Set.univ).migrator _ trivial hne _
    (List.mem_cons_of_mem _ List.mem_cons_self) ⟨_, rdsAdmin_serviceAccount⟩

end NtierLab
