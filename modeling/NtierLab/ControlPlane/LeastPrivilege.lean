import NtierLab.ControlPlane.Identity
import NtierLab.ControlPlane.Trust
import NtierLab.Prog.Granted
import NtierLab.Prog.System

/-!
# What the application of a tenant may read

The functions of `aws_identity.py`, each for any tenant and any outputs, interleaved call by
call on IAM and Secrets Manager (`identities`): a call may fail having taken effect or not,
and a thread may stop at any call. The ARN of a secret names the secret; nothing else is
assumed of the answers.

* `Aws.Confined`: the roles of the tenants trust their application, and let it read the
  secret of the tenant only; no other role trusts it.
* `OwnPrivilege`: the calls that keep it so.
* `identities_confined`: in every run from such an account, it stays so, and no application
  reads the secret of another tenant.
-/

namespace NtierLab

open Prog

/-! ## Names -/

/-- The name of the role of a tenant, with a prefix. -/
def tenantRole (pre : String) (t : TenantId) : String := pre ++ "-tenant-" ++ t.val

/-- The name of the secret of a tenant, with a prefix. -/
def tenantSecret (pre : String) (t : TenantId) : String := pre ++ "/rds/tenant-" ++ t.val

theorem TenantId.dash_notMem (t : TenantId) : '-' ∉ t.val.toList := by
  intro h
  rcases t.isAlphanum _ h with h | h <;> exact absurd h (by decide +kernel)

/-- A name with a tenant after its last dash. -/
theorem append_tenant_inj {a b : List Char} {t u : TenantId}
    (h : a ++ '-' :: t.val.toList = b ++ '-' :: u.val.toList) : a = b ∧ t = u := by
  have hrev := congrArg List.reverse h
  simp only [List.reverse_append, List.reverse_cons, List.append_assoc, List.singleton_append]
    at hrev
  have hval : t.val.toList.reverse = u.val.toList.reverse :=
    append_cons_left_inj (by simpa using t.dash_notMem) (by simpa using u.dash_notMem) hrev
  have htu : t = u := TenantId.ext (String.toList_injective (List.reverse_injective hval))
  subst htu
  exact ⟨List.append_cancel_right h, rfl⟩

/-- The name of a role ends in the id, after a dash. -/
theorem toList_tenantRole (pre : String) (t : TenantId) :
    (tenantRole pre t).toList = (pre.toList ++ "-tenant".toList) ++ '-' :: t.val.toList := by
  simp [tenantRole]

/-- So does the name of a secret. -/
theorem toList_tenantSecret (pre : String) (t : TenantId) :
    (tenantSecret pre t).toList = (pre.toList ++ "/rds/tenant".toList) ++ '-' :: t.val.toList := by
  simp [tenantSecret]

/-- The name of a role tells its prefix and its tenant. -/
theorem tenantRole_inj {pre pre' : String} {t u : TenantId}
    (h : tenantRole pre t = tenantRole pre' u) : pre = pre' ∧ t = u := by
  have h := congrArg String.toList h
  rw [toList_tenantRole, toList_tenantRole] at h
  obtain ⟨hpre, rfl⟩ := append_tenant_inj h
  exact ⟨String.toList_injective (List.append_cancel_right hpre), rfl⟩

/-- The name of a secret tells its tenant. -/
theorem tenantSecret_tenant {pre pre' : String} {t u : TenantId}
    (h : tenantSecret pre t = tenantSecret pre' u) : t = u := by
  have h := congrArg String.toList h
  rw [toList_tenantSecret, toList_tenantSecret] at h
  exact (append_tenant_inj h).2

/-! ## The roles of the tenants -/

/-- The subject of the application of a tenant. -/
def application (t : TenantId) : String := serviceAccount t.ns "test-app"

/-- A role lets a subject read the secret of an ARN. -/
def Aws.Reads (s : Aws) (sub arn : String) : Prop :=
  ∃ name role policy, s.roles name = some role ∧ role.trust.sub = sub ∧
    role.policies policy = some arn

/-- The role is as the one of a tenant should be, `named` being the name of the secret of an
    ARN. -/
structure OwnRole (named : String → String) (pre : String) (t : TenantId) (role : IamRole) :
    Prop where
  trust : role.trust.sub = application t
  policies : ∀ policy arn, role.policies policy = some arn → named arn = tenantSecret pre t

/-- The roles of the tenants are as they should be, and no other role trusts an application. -/
structure Aws.Confined (named : String → String) (s : Aws) : Prop where
  own : ∀ pre t role, s.roles (tenantRole pre t) = some role → OwnRole named pre t role
  other : ∀ name role, s.roles name = some role → (∀ pre t, name ≠ tenantRole pre t) →
    ∀ t, role.trust.sub ≠ application t

variable {named : String → String} {s s' s₁ : Aws} {t : TenantId}

/-- The subject of an application tells its tenant. -/
theorem application_inj {u : TenantId} (h : application t = application u) : t = u :=
  InNamespace.eq ⟨_, rfl⟩ ⟨_, h⟩

/-- An application reads secrets of its tenant only. -/
theorem Aws.Confined.reads (hs : s.Confined named) {arn : String}
    (h : s.Reads (application t) arn) : ∃ pre, named arn = tenantSecret pre t := by
  obtain ⟨name, role, policy, hrole, hsub, harn⟩ := h
  by_cases hname : ∃ pre u, name = tenantRole pre u
  · obtain ⟨pre, u, rfl⟩ := hname
    have hown := hs.own pre u role hrole
    obtain rfl := application_inj (hown.trust.symm.trans hsub)
    exact ⟨pre, hown.policies policy arn harn⟩
  · -- A role of another name trusts no application.
    refine absurd hsub (hs.other name role hrole (fun pre u h => hname ⟨pre, u, h⟩) t)

/-! ## The calls -/

/-- What a call does to the roles, and to the secrets, when it takes effect: those that create an
    identity, and those that delete one. -/
def AwsCall.Acts : AwsCall → Aws → Aws → Prop
  | .deleteRolePolicy name policy, s, s' =>
    ∃ role, s.roles name = some role ∧
      s' = s.setRole name { role with policies := Function.update role.policies policy none }
  | .deleteRole name, s, s' => s' = { s with roles := Function.update s.roles name none }
  | c, s, s' => ∃ r, c.Takes s r s'

/-- The ARN answered for a secret is one of its name. -/
def ArnsNamed (named : String → String) : Event cpSig → Prop
  | ⟨.aws (.describeSecret name), r⟩ => ∀ desc, r = .ok desc → named desc.arn = name
  | ⟨.aws (.createSecret name _), r⟩ => ∀ arn, r = .ok arn → named arn = name
  | _ => True

/-- Deletions end at any time; a call takes effect or not, whatever is answered to it. -/
def identityWorld (named : String → String) : Handler cpSig Aws := fun c s r s' =>
  ArnsNamed named ⟨c, r⟩ ∧ ∃ s₁, s.Lapses s₁ ∧ (s' = s₁ ∨ ∃ d, c = .aws d ∧ d.Acts s₁ s')

/-- The command gives an application the secret of its tenant only. -/
def OwnPrivilege (named : String → String) : Cmd → Prop
  | .aws (.createRole name trust) | .aws (.updateAssumeRolePolicy name trust) =>
    ∃ pre t, name = tenantRole pre t ∧ trust.sub = application t
  | .aws (.putRolePolicy name _ arn) =>
    ∃ pre t, name = tenantRole pre t ∧ named arn = tenantSecret pre t
  | _ => True

/-- Being confined is a matter of the roles. -/
theorem Aws.Confined.of_roles (hs : s.Confined named) (h : s'.roles = s.roles) :
    s'.Confined named :=
  ⟨fun pre t role hr => hs.own pre t role (h ▸ hr), fun name role hr => hs.other name role (h ▸ hr)⟩

/-- A role of a tenant is written as it should be. -/
theorem Aws.Confined.setRole (hs : s.Confined named) {pre : String} {role : IamRole}
    (hrole : OwnRole named pre t role) : (s.setRole (tenantRole pre t) role).Confined named := by
  refine ⟨fun pre' u role' h => ?_, fun name role' h hname => ?_⟩
  · rw [Aws.setRole] at h
    -- One name is of one prefix and one tenant, so no other tenant's role is written.
    by_cases heq : tenantRole pre' u = tenantRole pre t
    · obtain ⟨rfl, rfl⟩ := tenantRole_inj heq
      obtain rfl : role = role' := by simpa using h
      exact hrole
    · exact hs.own pre' u role' (by simpa [heq] using h)
  · rw [Aws.setRole] at h
    exact hs.other name role' (by simpa [hname pre t] using h) hname

/-- A role is removed, or loses a policy. -/
theorem Aws.Confined.shrink (hs : s.Confined named) {name : String} {o : Option IamRole}
    (ho : ∀ role', o = some role' → ∃ role, s.roles name = some role ∧ role'.trust = role.trust ∧
      ∀ policy arn, role'.policies policy = some arn → role.policies policy = some arn) :
    Aws.Confined named { s with roles := Function.update s.roles name o } := by
  refine ⟨fun pre t role' h => ?_, fun name' role' h hname => ?_⟩
  · by_cases heq : tenantRole pre t = name
    · subst heq
      obtain ⟨role, hrole, htrust, hpol⟩ := ho role' (by simpa using h)
      have hown := hs.own pre t role hrole
      exact ⟨htrust ▸ hown.trust, fun policy arn h => hown.policies policy arn (hpol policy arn h)⟩
    · exact hs.own pre t role' (by simpa [heq] using h)
  · by_cases heq : name' = name
    · subst heq
      obtain ⟨role, hrole, htrust, -⟩ := ho role' (by simpa using h)
      exact htrust ▸ hs.other name' role hrole hname
    · exact hs.other name' role' (by simpa [heq] using h) hname

/-- A call with the privilege of its tenant keeps AWS confined. -/
theorem Aws.Confined.acts (hs : s.Confined named) {d : AwsCall}
    (hd : OwnPrivilege named (.aws d)) (h : d.Acts s s') : s'.Confined named := by
  cases d with
  | callerIdentity =>
    obtain ⟨r, -, rfl⟩ := h
    exact hs
  | describeSecret name =>
    obtain ⟨r, rfl, -⟩ := h
    exact hs
  | deleteSecret name days =>
    obtain ⟨r, h⟩ := h
    simp only [AwsCall.Takes] at h
    split at h
    · exact h.2 ▸ hs
    · exact h.2 ▸ hs.of_roles rfl
  | createSecret name payload =>
    obtain ⟨r, h⟩ := h
    simp only [AwsCall.Takes] at h
    split at h
    · obtain ⟨arn, -, rfl⟩ := h
      exact hs.of_roles rfl
    · exact h.2 ▸ hs
  | getRole name =>
    obtain ⟨r, rfl, -⟩ := h
    exact hs
  | updateAssumeRolePolicy name trust =>
    obtain ⟨r, h⟩ := h
    obtain ⟨pre, t, rfl, hsub⟩ := hd
    simp only [AwsCall.Takes] at h
    split at h
    · exact h.2 ▸ hs
    · next role hrole => exact h.2 ▸ hs.setRole ⟨hsub, (hs.own pre t role hrole).policies⟩
  | createRole name trust =>
    obtain ⟨r, h⟩ := h
    obtain ⟨pre, t, rfl, hsub⟩ := hd
    simp only [AwsCall.Takes] at h
    split at h
    · obtain ⟨arn, -, rfl⟩ := h
      exact hs.setRole ⟨hsub, fun _ _ h => by cases h⟩
    · exact h.2 ▸ hs
  | putRolePolicy name policy resource =>
    obtain ⟨r, h⟩ := h
    obtain ⟨pre, t, rfl, hnamed⟩ := hd
    simp only [AwsCall.Takes] at h
    split at h
    · exact h.2 ▸ hs
    · next role hrole =>
      -- The policy put is on the tenant's own secret; the others stay.
      have hown := hs.own pre t role hrole
      refine h.2 ▸ hs.setRole ⟨hown.trust, fun policy' arn harn => ?_⟩
      by_cases heq : policy' = policy
      · obtain rfl : resource = arn := by simpa [heq] using harn
        exact hnamed
      · exact hown.policies policy' arn (by simpa [heq] using harn)
  | deleteRolePolicy name policy =>
    obtain ⟨role, hrole, rfl⟩ := h
    refine hs.shrink fun role' h => ?_
    obtain rfl := Option.some.inj h
    refine ⟨role, hrole, rfl, fun policy' arn harn => ?_⟩
    by_cases heq : policy' = policy
    · simp [heq] at harn
    · simpa [heq] using harn
  | deleteRole name =>
    obtain rfl := h
    exact hs.shrink fun role' h => by cases h
  | listSecrets => exact h.elim fun _ h => h.elim
  | tagSecret name t => exact h.elim fun _ h => h.elim
  | tagRole name t => exact h.elim fun _ h => h.elim

/-- A command allowed keeps the roles of the tenants as they should be. -/
theorem Aws.Confined.step (hs : s.Confined named) {c : Cmd} {r : cpSig.Resp c}
    (hc : OwnPrivilege named c) (h : identityWorld named c s r s') : s'.Confined named := by
  obtain ⟨-, s₁, hlapse, hact⟩ := h
  have hs₁ : s₁.Confined named := hs.of_roles hlapse.1
  rcases hact with rfl | ⟨d, rfl, hact⟩
  · exact hs₁
  · exact hs₁.acts hc hact

/-! ## The functions of `aws_identity.py` -/

/-- Deletes the role of a tenant, then its secret. -/
def deleteTenantIdentity (outputs : Outputs) (t : TenantId) (secretName roleArn : Option String) :
    CP Unit := do
  deleteTenantIrsa outputs t roleArn
  deleteTenantSecret outputs t secretName

/-- The calls of the functions. -/
inductive IdentityOp
  | ensure (outputs : Outputs) (t : TenantId)
  | deleteIrsa (outputs : Outputs) (t : TenantId) (roleArn : Option String)
  | deleteSecret (outputs : Outputs) (t : TenantId) (secretName : Option String)
  | delete (outputs : Outputs) (t : TenantId) (secretName roleArn : Option String)

/-- The program of a call. -/
def IdentityOp.prog : IdentityOp → CP Unit
  | ensure outputs t => do let _ ← ensureTenantIdentity outputs t
  | deleteIrsa outputs t roleArn => deleteTenantIrsa outputs t roleArn
  | deleteSecret outputs t secretName => deleteTenantSecret outputs t secretName
  | delete outputs t secretName roleArn => deleteTenantIdentity outputs t secretName roleArn

/-- The functions, interleaved call by call. -/
def identities (named : String → String) : System cpSig Exn IdentityOp Empty Aws where
  prog := IdentityOp.prog
  step := identityWorld named
  env _ _ _ := False
  fork _ := []

section

variable {α β : Type} {outputs : Outputs} {p : CP α} {f : α → CP β} {U : α → Prop}

/-- The program gives privileges as it should, and a value in `U`. -/
abbrev Privileged (named : String → String) (p : CP α) (U : α → Prop) : Prop :=
  Within (OwnPrivilege named) (ArnsNamed named) p U

/-- A handler of the errors of AWS keeps within what both parts are within. -/
theorem within_exceptClientError {P : Cmd → Prop} {ok : Event cpSig → Prop}
    {h : String → Exn → CP α} (hp : Within P ok p U) (hh : ∀ code exc, Within P ok (h code exc) U) :
    Within P ok (exceptClientError p h) U :=
  hp.tryCatch fun e => by cases e <;> first | exact hh _ _ | trivial

/-- The ARN described is that of the secret of the name. -/
theorem describeSecret_privileged (name : String) :
    Privileged named (describeSecret name) fun desc => named desc.arn = name :=
  ⟨trivial, fun r _ hr => by
    cases r with
    | error e => trivial
    | ok desc => exact hr.1 desc rfl⟩

/-- So is the ARN of the secret created. -/
theorem createSecret_privileged (name : String) (payload : SecretPayload) :
    Privileged named (createSecret name payload) fun arn => named arn = name :=
  ⟨trivial, fun r _ hr => by
    cases r with
    | error e => trivial
    | ok arn => exact hr.1 arn rfl⟩

/-- Waiting for a deletion touches no role. -/
theorem pollDeleted_calls (name : String) (n : ℕ) :
    (pollDeleted name n).Calls (OwnPrivilege named) := by
  induction n with
  | zero => trivial
  | succ n ih =>
    refine .bind (exceptClientError_calls (.map _ ⟨trivial, fun r => calls_result r⟩) fun _ _ => ?_)
      fun gone => .ite (fun _ => trivial) fun _ => ih
    exact .ite (fun _ => trivial) fun _ => trivial

/-- The ARN of the secret ensured is one of its name. -/
theorem ensureSecret_privileged (name : String) (payload : SecretPayload) :
    Privileged named (ensureSecret name payload) fun arn => named arn = name := by
  refine within_exceptClientError ?_ fun code exc =>
    .ite (fun _ => trivial) fun _ => createSecret_privileged name payload
  refine (describeSecret_privileged name).bind fun desc hdesc => .ite (fun _ => ?_) fun _ => hdesc
  refine .seq (exceptClientError_calls ⟨trivial, fun r => calls_result r⟩ fun _ _ => ?_) fun _ => ?_
  · exact calls_pure _
  · refine .seq ⟨trivial, fun _ => trivial⟩ fun n => .seq (pollDeleted_calls name n) fun _ => ?_
    exact createSecret_privileged name payload

/-- The role ensured is the tenant's, trusting its application. -/
theorem ensureRole_calls {name : String} {trust : Trust} {pre : String}
    (hname : name = tenantRole pre t) (hsub : trust.sub = application t) :
    (ensureRole name trust).Calls (OwnPrivilege named) := by
  have hown : OwnPrivilege named (.aws (.createRole name trust)) := ⟨pre, t, hname, hsub⟩
  refine exceptClientError_calls ?_ fun _ _ => .ite (fun _ => trivial) fun _ => ?_
  · refine .bind ⟨trivial, fun r => calls_result r⟩ fun _ => ?_
    exact .bind ⟨hown, fun r => calls_result r⟩ fun _ => trivial
  · exact ⟨hown, fun r => calls_result r⟩

/-- A round of creating an identity lets the application of the tenant read its secret, and
    nothing else. -/
theorem ensureTenantIdentityOnce_privileged (outputs : Outputs) (t : TenantId) :
    Privileged named (ensureTenantIdentityOnce outputs t) fun _ => True := by
  refine .ite (fun _ => trivial) fun _ => .ite (fun _ => trivial) fun _ => ?_
  dsimp only
  refine .seq ⟨trivial, fun r => calls_result r⟩ fun _ => .seq ⟨trivial, fun _ => trivial⟩ ?_
  intro password
  refine (ensureSecret_privileged _ _).bind fun arn harn => ?_
  refine .seq (ensureRole_calls rfl (own_subject t)) fun _ => ?_
  exact .seq ⟨⟨outputs.prefix_, t, rfl, harn⟩, fun r => calls_result r⟩ fun _ => trivial

/-- Attempts keep within what one keeps within. -/
theorem within_withRetry {P : Cmd → Prop} {ok : Event cpSig → Prop} (hp : Within P ok p U) (n : ℕ) :
    Within P ok (withRetry p n) U := by
  induction n with
  | zero => trivial
  | succ n ih =>
    cases n with
    | zero => exact hp
    | succ n => exact hp.tryCatch fun e => .ite (fun _ => ih) fun _ => trivial

/-- Deleting the role of the application grants nothing. -/
theorem deleteTenantIrsa_calls (roleArn : Option String) :
    (deleteTenantIrsa outputs t roleArn).Calls (OwnPrivilege named) := by
  refine .bind (unlessGone_calls ?_ _) fun _ => unlessGone_calls ?_ _
  all_goals exact ⟨trivial, fun r => calls_result r⟩

/-- Nor does deleting the secret. -/
theorem deleteTenantSecret_calls (secretName : Option String) :
    (deleteTenantSecret outputs t secretName).Calls (OwnPrivilege named) := by
  have hdays : secretRecoveryWindowDays.Calls (OwnPrivilege named) :=
    ⟨trivial, fun r => by cases r <;> trivial⟩
  refine unlessGone_calls (hdays.bind fun days => ?_) _
  exact ⟨trivial, fun r => calls_result r⟩

/-- The operations on identities act with the privilege of their tenant. -/
theorem IdentityOp.obeys (i : IdentityOp) :
    i.prog.Obeys (commandsIn (OwnPrivilege named)) (ArnsNamed named) () := by
  suffices h : Privileged named i.prog fun _ => True from h.obeys
  cases i with
  | ensure outputs t =>
    have hcall : Privileged named (ensureTenantIdentity outputs t) fun _ => True := by
      refine within_withRetry (within_exceptClientError ?_ fun _ _ => ?_) 5
      · exact ensureTenantIdentityOnce_privileged outputs t
      · trivial
    exact hcall.bind fun _ _ => trivial
  | deleteIrsa outputs t roleArn => exact within_of_calls (deleteTenantIrsa_calls roleArn)
  | deleteSecret outputs t name => exact within_of_calls (deleteTenantSecret_calls name)
  | delete outputs t name roleArn =>
    exact within_of_calls (.bind (deleteTenantIrsa_calls roleArn)
      fun _ => deleteTenantSecret_calls name)

end

/-! ## Every run -/

variable {G : System.Guard cpSig Exn IdentityOp Empty Aws} {ls : List (Label cpSig IdentityOp Empty)}
  {p : Config cpSig Exn IdentityOp Aws}

/-- In every run, the roles of the tenants are as they should be. -/
theorem confined_run (hs : s.Confined named) (hr : (identities named).Run G (.new s) ls p) :
    p.world.Confined named := by
  induction hr with
  | nil => exact hs
  | snoc hr hg hst ih =>
    have hobeys := hr.obeys IdentityOp.obeys (fun _ _ _ _ (h : _ ∧ _) => h.1)
      (Config.obeys_new _ _ _ _)
    cases hst with
    | start i => exact ih
    | env h => exact h.elim
    | run hn hstep => exact ih.step (obeys_call.1 (hobeys _ (List.mem_of_getElem? hn))).1 hstep

/-- From an account with the roles of the tenants as they should be: however the functions are
    interleaved, and wherever they fail, the roles stay so, and no application comes to read the
    secret of another tenant, whatever the prefixes of their names. -/
theorem identities_confined (hs : s.Confined named)
    (hr : (identities named).Run G (.new s) ls p) :
    p.world.Confined named ∧ ∀ t u arn pre, p.world.Reads (application t) arn →
      named arn = tenantSecret pre u → u = t := by
  refine ⟨confined_run hs hr, fun t u arn pre hread harn => ?_⟩
  obtain ⟨pre', h⟩ := (confined_run hs hr).reads hread
  exact tenantSecret_tenant (harn.symm.trans h)

/-! ## Two tenants that read their secrets -/

/-- What the ARN of a secret begins with. -/
def arnPrefix : String := "arn:aws:secretsmanager:us-east-1:123456789012:secret:"

/-- The ARN of a secret: its name, and six random characters. -/
def arnOf (name : String) : String := arnPrefix ++ name ++ "-AbCdEf"

/-- The name in an ARN. -/
def nameOf (arn : String) : String :=
  let l := arn.toList.drop arnPrefix.toList.length
  String.ofList (l.take (l.length - "-AbCdEf".toList.length))

/-- An ARN names its secret. -/
theorem nameOf_arnOf (name : String) : nameOf (arnOf name) = name := by
  have hdrop : (arnOf name).toList.drop arnPrefix.toList.length =
      name.toList ++ "-AbCdEf".toList := by
    rw [arnOf, String.toList_append, String.toList_append, List.append_assoc, List.drop_left]
  rw [nameOf, hdrop, List.length_append, Nat.add_sub_cancel]
  rw [List.take_left, String.ofList_toList]

/-- AWS without the secret of the tenant, which answers every call that creates an identity. -/
def identityAnswer (_ : Unit) : (c : Cmd) → Aws → cpSig.Resp c × Aws
  | .aws (.describeSecret name), s => (.error (refusal "ResourceNotFoundException" name), s)
  | .aws (.createSecret name payload), s =>
    match s.secrets name with
    | none => (.ok (arnOf name), s.setSecret name ⟨arnOf name, payload, false⟩)
    | some _ => (.error (refusal "ResourceExistsException" name), s)
  | c, s => awsAnswer true c s

/-- The calls answered as by AWS. -/
theorem identityWorld_of_awsWorld {d : AwsCall} {r : d.Resp}
    (hr : ArnsNamed named ⟨.aws d, r⟩) (h : awsWorld (.aws d) s r s') :
    identityWorld named (.aws d) s r s' := by
  have hacts {s₁ : Aws} {r' : d.Resp} (h : d.Takes s₁ r' s') : d.Acts s₁ s' := by
    cases d <;> first | exact ⟨r', h⟩ | exact h.elim
  obtain ⟨s₁, hlapse, h⟩ := h
  refine ⟨hr, s₁, hlapse, ?_⟩
  rcases h with h | ⟨exc, -, -, rfl | ⟨r', h⟩⟩
  · exact .inr ⟨d, rfl, hacts h⟩
  · exact .inl rfl
  · exact .inr ⟨d, rfl, hacts h⟩

theorem identityAnswer_step (x : Unit) (c : Cmd) (s : Aws) : identityWorld nameOf c s
    (identityAnswer x c s).1 (identityAnswer x c s).2 := by
  by_cases hc : ∃ d, c = .aws d
  · obtain ⟨d, rfl⟩ := hc
    cases d with
    | describeSecret name =>
      refine ⟨fun desc h => ?_, s, s.lapses_refl, .inl rfl⟩
      cases h
    | createSecret name payload =>
      cases hs : s.secrets name with
      | none =>
        have hanswer : identityAnswer x (.aws (.createSecret name payload)) s =
            (.ok (arnOf name), s.setSecret name ⟨arnOf name, payload, false⟩) := by
          simp [identityAnswer, hs]
        rw [hanswer]
        refine ⟨fun arn h => ?_, s, s.lapses_refl, .inr ⟨_, rfl, .ok (arnOf name), ?_⟩⟩
        · obtain rfl := Except.ok.inj h
          exact nameOf_arnOf name
        · simp [AwsCall.Takes, hs]
      | some secret =>
        have hanswer : identityAnswer x (.aws (.createSecret name payload)) s =
            (.error (refusal "ResourceExistsException" name), s) := by
          simp [identityAnswer, hs]
        rw [hanswer]
        refine ⟨fun arn h => ?_, s, s.lapses_refl, .inl rfl⟩
        cases h
    | _ => exact identityWorld_of_awsWorld trivial (awsAnswer_step true _ s)
  · have hother : identityAnswer x c s = (succeeding c, s) := by
      cases c with
      | aws d => exact absurd ⟨d, rfl⟩ hc
      | _ => rfl
    rw [hother]
    refine ⟨?_, s, s.lapses_refl, .inl rfl⟩
    cases c with
    | aws d => exact absurd ⟨d, rfl⟩ hc
    | _ => trivial

/-- The identities of two tenants are created at the same time, call by call. -/
def creations : List (System.Move IdentityOp Empty Unit) :=
  .start (.ensure labOutputs .a) :: .start (.ensure labOutputs .b) ::
    (List.replicate 7 [.run 0 (), .run 1 ()]).flatten

/-- The subject of the role of a tenant, and the secret it gives. -/
def Aws.given (s : Aws) (t : TenantId) : Option (String × Option String) :=
  (s.roles ("ntier-dev-tenant-" ++ t.val)).map fun role =>
    (role.trust.sub, role.policies ("ntier-dev-tenant-" ++ t.val ++ "-secrets"))

theorem creations_given : ((identities nameOf).play identityAnswer (fun _ _ => none)
    (fun _ _ => true) (.new Aws.empty) creations).map
    (fun q => (q.2.world.given .a, q.2.world.given .b)) =
    some (some (application .a, some (arnOf "ntier-dev/rds/tenant-a")),
      some (application .b, some (arnOf "ntier-dev/rds/tenant-b"))) := by
  decide +kernel

/-- A role and its policy let its subject read. -/
theorem Aws.reads_of_given {sub arn : String} (h : s.given t = some (sub, some arn)) :
    s.Reads sub arn := by
  obtain ⟨role, hrole, hq⟩ := Option.map_eq_some_iff.1 h
  obtain ⟨hsub, harn⟩ := Prod.mk.inj hq
  exact ⟨_, role, _, hrole, hsub, harn⟩

/-- Without roles AWS is confined. -/
theorem confined_empty : Aws.empty.Confined named :=
  ⟨fun _ _ _ h => absurd h (by simp [Aws.empty]), fun _ _ h => absurd h (by simp [Aws.empty])⟩

/-- Each application reads the secret of its tenant, and not the other's. -/
theorem identities_confined_a : ∃ s : Aws,
    s.Reads (application .a) (arnOf "ntier-dev/rds/tenant-a") ∧
    s.Reads (application .b) (arnOf "ntier-dev/rds/tenant-b") ∧
    ¬s.Reads (application .a) (arnOf "ntier-dev/rds/tenant-b") ∧
    ¬s.Reads (application .b) (arnOf "ntier-dev/rds/tenant-a") := by
  obtain ⟨⟨ls, p⟩, hp, hq⟩ := Option.map_eq_some_iff.1 creations_given
  obtain ⟨ha, hb⟩ := Prod.mk.inj hq
  obtain ⟨-, hown⟩ := identities_confined confined_empty
    (System.run_play identityAnswer_step (fun x => x.elim) hp)
  refine ⟨p.world, Aws.reads_of_given ha, Aws.reads_of_given hb, fun h => ?_, fun h => ?_⟩
  · exact absurd (hown .a .b _ "ntier-dev" h (nameOf_arnOf _)) (by decide)
  · exact absurd (hown .b .a _ "ntier-dev" h (nameOf_arnOf _)) (by decide)

end NtierLab
