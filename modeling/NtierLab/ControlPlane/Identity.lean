import NtierLab.Prog.History
import NtierLab.ControlPlane.OpenWorld

/-!
# Creating an identity

Secrets Manager and IAM as maps (`Aws`), whose calls may fail before or after they took
effect (`awsWorld`), and the rounds of `ensureTenantIdentity` on them: each round starts
over, with a password of its own, from what the one before it left. No round touches a
live secret (`Aws.Keeps`), so that the one a round returns is the one first created.

* `describeSecret_wp`, `createSecret_wp`, ...: what each call does and tells;
* `ensureSecret_wp`, `ensureRole_wp`, `ensureTenantIdentityOnce_wp`: the parts of a round;
* `Rounds`, `exec_withRetry`: the rounds of a call;
* `ensureTenantIdentity_safe`: any number of calls.
-/

namespace NtierLab

open Prog

/-! ## Secrets Manager and IAM -/

/-- A secret, live or pending deletion. -/
structure Secret where
  arn : String
  value : SecretPayload
  pending : Bool

/-- A role: who assumes it, and the secret that each inline policy lets it read. -/
structure IamRole where
  arn : String
  trust : Trust
  policies : String → Option String

/-- The secrets and the roles, by name. -/
structure Aws where
  secrets : String → Option Secret
  roles : String → Option IamRole

namespace Aws

variable (s : Aws)

/-- The live secret of a name. -/
def live (name : String) : Option Secret := (s.secrets name).filter fun secret => !secret.pending

def setSecret (name : String) (secret : Secret) : Aws :=
  { s with secrets := Function.update s.secrets name (some secret) }

def setRole (name : String) (role : IamRole) : Aws :=
  { s with roles := Function.update s.roles name (some role) }

/-- Deletions that were pending have ended. -/
def Lapses (s' : Aws) : Prop :=
  s'.roles = s.roles ∧
    ∀ name, s'.secrets name = s.secrets name ∨ s'.secrets name = none ∧ s.live name = none

/-- The live secrets are as they were. -/
def Keeps (s' : Aws) : Prop := ∀ name secret, s.live name = some secret → s'.live name = some secret

end Aws

/-- The call is refused, with a code. -/
def Refused {α : Type} (code : String) (r : Except Exn α) : Prop :=
  ∃ message text, r = .error (.clientError code message text)

/-- What a call does when it takes effect, and answers. Only the calls that create an identity
    are answered. -/
def AwsCall.Takes : (c : AwsCall) → Aws → c.Resp → Aws → Prop
  | .callerIdentity, s, r, s' => (∃ account, r = .ok account) ∧ s' = s
  | .describeSecret name, s, r, s' => s' = s ∧
    match s.secrets name with
    | none => Refused "ResourceNotFoundException" r
    | some secret => r = .ok ⟨secret.arn, secret.pending⟩
  | .deleteSecret name _, s, r, s' =>
    match s.secrets name with
    | none => Refused "ResourceNotFoundException" r ∧ s' = s
    | some secret => r = .ok () ∧ s' = s.setSecret name { secret with pending := true }
  | .createSecret name payload, s, r, s' =>
    match s.secrets name with
    | none => ∃ arn, r = .ok arn ∧ s' = s.setSecret name ⟨arn, payload, false⟩
    | some secret =>
      Refused (if secret.pending then "InvalidRequestException" else "ResourceExistsException") r ∧
        s' = s
  | .getRole name, s, r, s' => s' = s ∧
    match s.roles name with
    | none => Refused "NoSuchEntity" r
    | some role => r = .ok role.arn
  | .updateAssumeRolePolicy name trust, s, r, s' =>
    match s.roles name with
    | none => Refused "NoSuchEntity" r ∧ s' = s
    | some role => r = .ok () ∧ s' = s.setRole name { role with trust := trust }
  | .createRole name trust, s, r, s' =>
    match s.roles name with
    | none => ∃ arn, r = .ok arn ∧ s' = s.setRole name ⟨arn, trust, fun _ => none⟩
    | some _ => Refused "EntityAlreadyExists" r ∧ s' = s
  | .putRolePolicy name policy resource, s, r, s' =>
    match s.roles name with
    | none => Refused "NoSuchEntity" r ∧ s' = s
    | some role => r = .ok () ∧ s' = s.setRole name
        { role with policies := Function.update role.policies policy (some resource) }
  | _, _, _, _ => False

/-- The call raises an exception. -/
def AwsCall.Raises (exc : Exn) : (c : AwsCall) → c.Resp → Prop
  | .callerIdentity, r | .createSecret _ _, r | .getRole _, r | .createRole _ _, r => r = .error exc
  | .describeSecret _, r => r = .error exc
  | .listSecrets, r => r = .error exc
  | .deleteSecret _ _, r | .updateAssumeRolePolicy _ _, r | .putRolePolicy _ _ _, r
  | .tagSecret _ _, r | .tagRole _ _, r | .deleteRolePolicy _ _, r | .deleteRole _, r =>
    r = .error exc

/-- The exception reports an object missing. -/
def Exn.Missing (exc : Exn) : Prop :=
  ∃ code message text, exc = .clientError code message text ∧
    code ∈ ["ResourceNotFoundException", "NoSuchEntity"]

/-- A transient error reports nothing missing. -/
theorem transient_not_missing {code message text : String} (h : code ∈ awsRetryableCodes) :
    ¬(Exn.clientError code message text).Missing := by
  rintro ⟨_, _, _, h', hmem⟩
  cases h'
  simp only [List.mem_cons, List.not_mem_nil, or_false] at hmem
  rcases hmem with rfl | rfl <;> simp [awsRetryableCodes] at h

/-- Deletions end at any time. A call takes effect, or it fails, transiently or for good, having
    taken effect or not; what it reports missing is missing. -/
def awsWorld : Handler cpSig Aws
  | .aws c, s, r, s' => ∃ s₁, s.Lapses s₁ ∧ (c.Takes s₁ r s' ∨
      ∃ exc, ¬exc.Missing ∧ c.Raises exc r ∧ (s' = s₁ ∨ ∃ r', c.Takes s₁ r' s'))
  | _, s, _, s' => s' = s

section

variable {s s' s₁ : Aws} {name n : String}

theorem Aws.Lapses.live (h : s.Lapses s₁) : s₁.live = s.live := by
  funext n
  rcases h.2 n with h | ⟨h, hn⟩
  · rw [Aws.live, Aws.live, h]
  · rw [hn, Aws.live, h]
    rfl

theorem Aws.keeps_of_live (h : s'.live = s.live) : s.Keeps s' := fun _ _ hn => h ▸ hn

theorem Aws.keeps_refl (s : Aws) : s.Keeps s := fun _ _ h => h

theorem Aws.live_setSecret (secret : Secret) (n : String) :
    (s.setSecret name secret).live n =
      if n = name then (if secret.pending then none else some secret) else s.live n := by
  unfold Aws.live Aws.setSecret
  by_cases h : n = name
  · subst h
    cases hp : secret.pending <;> simp [Option.filter, hp]
  · simp [h]

@[simp] theorem Aws.live_setRole (role : IamRole) : (s.setRole name role).live = s.live := rfl

theorem Aws.keeps_setSecret {secret : Secret} (h : s.live name = none) :
    s.Keeps (s.setSecret name secret) := by
  intro n live hn
  have hne : n ≠ name := by
    rintro rfl
    cases h.symm.trans hn
  rw [live_setSecret, if_neg hne, hn]

/-- The call creates or deletes a secret. -/
def AwsCall.writesSecret : AwsCall → Bool
  | .createSecret _ _ | .deleteSecret _ _ => true
  | _ => false

/-- A call that neither creates nor deletes a secret leaves the live ones as they are. -/
theorem AwsCall.Takes.live {c : AwsCall} {r : c.Resp} (hc : c.writesSecret = false)
    (h : c.Takes s r s') : s'.live = s.live := by
  cases c with
  | callerIdentity => exact h.2 ▸ rfl
  | describeSecret name => exact h.1 ▸ rfl
  | deleteSecret name days => cases hc
  | createSecret name payload => cases hc
  | getRole name => exact h.1 ▸ rfl
  | updateAssumeRolePolicy name trust =>
    simp only [Takes] at h
    split at h <;> exact h.2 ▸ rfl
  | createRole name trust =>
    simp only [Takes] at h
    split at h
    · obtain ⟨arn, -, rfl⟩ := h
      rfl
    · exact h.2 ▸ rfl
  | putRolePolicy role policy resource =>
    simp only [Takes] at h
    split at h <;> exact h.2 ▸ rfl
  | listSecrets => exact h.elim
  | tagSecret _ _ => exact h.elim
  | tagRole _ _ => exact h.elim
  | deleteRolePolicy _ _ => exact h.elim
  | deleteRole _ => exact h.elim

/-- A call keeps the live secrets, unless it deletes one. -/
theorem AwsCall.Takes.keeps {c : AwsCall} {r : c.Resp}
    (hc : ∀ name days, c = .deleteSecret name days → s.live name = none) (h : c.Takes s r s') :
    s.Keeps s' := by
  cases hw : c.writesSecret with
  | false => exact Aws.keeps_of_live (h.live hw)
  | true =>
    cases c with
    | createSecret name payload =>
      simp only [Takes] at h
      split at h
      · next hnone =>
        obtain ⟨arn, -, rfl⟩ := h
        exact Aws.keeps_setSecret (by rw [Aws.live, hnone]; rfl)
      · exact h.2 ▸ s.keeps_refl
    | deleteSecret name days =>
      simp only [Takes] at h
      split at h
      · exact h.2 ▸ s.keeps_refl
      · exact h.2 ▸ Aws.keeps_setSecret (hc _ _ rfl)
    | _ => cases hw

end

/-! ## The calls of a round -/

/-- Every command keeps the live secrets. -/
abbrev keepingLive : Contract cpSig Aws := steps awsWorld (fun _ _ => True) Aws.Keeps

section

variable {α : Type} {s : Aws} {Q : Except Exn α → Aws → Prop}

/-- A command other than a call of AWS. -/
theorem wp_elsewhere {c : Cmd} {k : cpSig.Resp c → CP α} (hc : ∀ d, c ≠ .aws d)
    (hk : ∀ r, (k r).wp keepingLive Q s) : (call c k : CP α).wp keepingLive Q s := by
  have hstep (r : cpSig.Resp c) (s' : Aws) (h : awsWorld c s r s') : s' = s := by
    cases c with
    | aws d => exact absurd rfl (hc d)
    | _ => exact h
  refine ⟨fun r s' h _ => ?_, fun r s' h => ?_⟩
  · exact hstep r s' h ▸ s.keeps_refl
  · exact hstep r s' h.1 ▸ hk r

/-- A call of AWS: it takes effect, or it fails. -/
theorem wp_aws {c : AwsCall} {k : c.Resp → CP α}
    (hc : ∀ name days, c = .deleteSecret name days → s.live name = none)
    (htakes : ∀ s₁ r s', s.Lapses s₁ → c.Takes s₁ r s' → (k r).wp keepingLive Q s')
    (hfails : ∀ s₁ exc r s', s.Lapses s₁ → ¬exc.Missing → c.Raises exc r →
      (s' = s₁ ∨ ∃ r', c.Takes s₁ r' s') → (k r).wp keepingLive Q s') :
    (call (Cmd.aws c) k : CP α).wp keepingLive Q s := by
  refine ⟨fun r s' h _ => ?_, fun r s' h => ?_⟩
  · obtain ⟨s₁, hlapse, h⟩ := h
    have hkeeps (r' : c.Resp) (h : c.Takes s₁ r' s') : s.Keeps s' := fun n secret hn =>
      h.keeps (fun name days hd => hlapse.live ▸ hc name days hd) n secret (hlapse.live ▸ hn)
    rcases h with h | ⟨exc, -, -, rfl | ⟨r', h⟩⟩
    · exact hkeeps r h
    · exact Aws.keeps_of_live hlapse.live
    · exact hkeeps r' h
  · obtain ⟨⟨s₁, hlapse, h | ⟨exc, hmiss, hr, h⟩⟩, -⟩ := h
    · exact htakes s₁ r s' hlapse h
    · exact hfails s₁ exc r s' hlapse hmiss hr h

end

/-- On returned values only. -/
abbrev returns {α V : Type} (Q : α → V → Prop) : Except Exn α → V → Prop :=
  outcome Q fun _ _ => True

section

variable {s : Aws} (name : String)

/-- What a description tells is so. -/
theorem describeSecret_wp : (describeSecret name).wp keepingLive
    (returns fun desc s' => if desc.deletedDate then s'.live name = none
      else ∃ secret, s'.live name = some secret ∧ secret.arn = desc.arn) s := by
  refine wp_aws (fun _ _ h => nomatch h) (fun s₁ r s' _ h => ?_) fun s₁ exc r s' _ _ hr _ => ?_
  · obtain ⟨rfl, h⟩ := h
    split at h
    · obtain ⟨message, text, rfl⟩ := h
      trivial
    · next secret hsecret =>
      subst h
      cases hp : secret.pending with
      | true => simp [Aws.live, hsecret, hp, result]
      | false => simp [Aws.live, hsecret, hp, result]
  · obtain rfl := hr
    trivial

theorem createSecret_wp (payload : SecretPayload) : (createSecret name payload).wp keepingLive
    (returns fun arn s' => ∃ secret, s'.live name = some secret ∧ secret.arn = arn) s := by
  refine wp_aws (fun _ _ h => nomatch h) (fun s₁ r s' _ h => ?_) fun s₁ exc r s' _ _ hr _ => ?_
  · simp only [AwsCall.Takes] at h
    split at h
    · obtain ⟨arn, rfl, rfl⟩ := h
      exact ⟨⟨arn, payload, false⟩, by simp [Aws.live_setSecret], rfl⟩
    · obtain ⟨⟨message, text, rfl⟩, -⟩ := h
      trivial
  · obtain rfl := hr
    trivial

/-- Deleting a secret that is not live. -/
theorem deleteSecret_wp (days : ℕ) (h : s.live name = none) :
    (deleteSecret name days).wp keepingLive (returns fun _ _ => True) s := by
  refine wp_aws (fun _ _ hd => by cases hd; exact h) (fun s₁ r s' _ _ => ?_)
    fun s₁ exc r s' _ _ _ _ => ?_
  all_goals exact (wp_result _).2 (by cases r <;> trivial)

/-- A handler of errors of AWS, which keeps the frame. -/
theorem exceptClientError_wp {α V : Type} {K : Contract cpSig V} {p : CP α}
    {h : String → Exn → CP α} {Q : α → V → Prop} {F : V → Prop} {v : V}
    (hp : p.wp K (outcome Q fun _ => F) v)
    (hh : ∀ code exc v', F v' → (h code exc).wp K (outcome Q fun _ => F) v') :
    (exceptClientError p h).wp K (outcome Q fun _ => F) v := by
  rw [exceptClientError, wp_tryCatch]
  refine hp.imp fun x v' hx => ?_
  cases x with
  | ok a => exact hx
  | error e =>
    cases e with
    | clientError code message text => exact hh _ _ _ hx
    | _ => exact hx

theorem pollDeleted_wp (k : ℕ) : (pollDeleted name k).wp keepingLive (returns fun _ _ => True) s := by
  induction k generalizing s with
  | zero => trivial
  | succ k ih =>
    refine wp.bind (Q := returns fun _ _ => True) ?_ (fun gone s' _ => ?_) fun _ _ _ => trivial
    · refine exceptClientError_wp ?_ fun code exc s' _ => ?_
      · rw [wp_map]
        exact (describeSecret_wp name).imp fun x s' _ => by cases x <;> trivial
      · split <;> trivial
    · split
      · trivial
      · exact ih

/-- A round ends with a live secret, of which it has the ARN. -/
theorem ensureSecret_wp (payload : SecretPayload) : (ensureSecret name payload).wp keepingLive
    (returns fun arn s' => ∃ secret, s'.live name = some secret ∧ secret.arn = arn) s := by
  refine exceptClientError_wp ?_ fun code exc s' _ => ?_
  · refine wp.bind (describeSecret_wp name) (fun desc s₁ hdesc => ?_) fun _ _ _ => trivial
    have hdesc : if desc.deletedDate then s₁.live name = none
      else ∃ secret, s₁.live name = some secret ∧ secret.arn = desc.arn := hdesc
    split
    · next hdate =>
      rw [if_pos hdate] at hdesc
      -- A secret pending deletion is not live: deleting it touches none.
      refine wp.bind (Q := returns fun _ _ => True) ?_ (fun _ s₂ _ => ?_) fun _ _ _ => trivial
      · exact exceptClientError_wp (deleteSecret_wp name 0 hdesc) fun _ _ _ _ => trivial
      refine wp.bind (Q := returns fun _ _ => True) ?_ (fun k s₃ _ => ?_) fun _ _ _ => trivial
      · exact wp_elsewhere (fun _ h => nomatch h) fun _ => trivial
      refine wp.bind (pollDeleted_wp name k) (fun _ s₄ _ => ?_) fun _ _ _ => trivial
      exact createSecret_wp name payload
    · next hdate =>
      rw [if_neg hdate] at hdesc
      exact hdesc
  · split
    · trivial
    · exact createSecret_wp name payload

/-! ### The role -/

section

variable {L : String → Option Secret} (hL : s.live = L)

include hL

/-- The live secrets after a call of a role, done or failed. -/
theorem live_of_call {c : AwsCall} {s₁ s' : Aws} (hc : c.writesSecret = false)
    (hlapse : s.Lapses s₁) (h : s' = s₁ ∨ ∃ r, c.Takes s₁ r s') : s'.live = L := by
  rw [← hL, ← hlapse.live]
  rcases h with rfl | ⟨r, h⟩
  · rfl
  · exact h.live hc

/-- A call of a role. -/
theorem wp_role {α : Type} {c : AwsCall} {k : c.Resp → CP α} {Q : α → Aws → Prop}
    (hc : c.writesSecret = false)
    (htakes : ∀ s₁ r s', s₁.roles = s.roles → c.Takes s₁ r s' → s'.live = L →
      (k r).wp keepingLive (outcome Q fun _ s' => s'.live = L) s')
    (hfails : ∀ exc r, c.Raises exc r → k r = throw exc) :
    (call (Cmd.aws c) k : CP α).wp keepingLive (outcome Q fun _ s' => s'.live = L) s := by
  refine wp_aws (fun _ _ h => by rw [h] at hc; cases hc) (fun s₁ r s' hl h => ?_)
    fun s₁ exc r s' hl _ hr h => ?_
  · exact htakes s₁ r s' hl.1 h (live_of_call hL hc hl (.inr ⟨r, h⟩))
  · rw [hfails exc r hr]
    exact live_of_call hL hc hl h

theorem ensureRole_wp (trust : Trust) : (ensureRole name trust).wp keepingLive
    (outcome (fun arn s' => s'.live = L ∧ ∃ role, s'.roles name = some role ∧ role.arn = arn ∧
      role.trust = trust) fun _ s' => s'.live = L) s := by
  refine exceptClientError_wp ?_ fun code exc s' hs' => ?_
  · refine wp.bind (Q := outcome (fun arn s' => s'.live = L ∧ ∃ role, s'.roles name = some role ∧
      role.arn = arn) fun _ s' => s'.live = L) ?_ (fun arn s₁ h₁ => ?_) fun _ _ h => h
    · refine wp_role hL rfl (fun s₁ r s' _ h hlive => ?_) fun exc r hr => by rw [hr]; rfl
      obtain ⟨rfl, h⟩ := h
      split at h
      · obtain ⟨message, text, rfl⟩ := h
        exact hlive
      · next role hrole =>
        subst h
        exact ⟨hlive, role, hrole, rfl⟩
    · -- The role is there, so that its trust is replaced.
      obtain ⟨hlive, role, hrole, harn⟩ := h₁
      refine wp.bind (Q := outcome (fun _ (s' : Aws) => s'.live = L ∧ ∃ role,
        s'.roles name = some role ∧ role.arn = arn ∧ role.trust = trust)
        fun _ (s' : Aws) => s'.live = L) ?_ (fun _ s₂ h₂ => h₂) fun _ _ h => h
      refine wp_role hlive rfl (fun s₂ r s' hroles h hlive => ?_) fun exc r hr => by rw [hr]; rfl
      simp only [AwsCall.Takes, hroles, hrole] at h
      obtain ⟨rfl, rfl⟩ := h
      exact ⟨hlive, { role with trust := trust }, by simp [Aws.setRole], harn, rfl⟩
  · split
    · exact hs'
    · -- The role was missing: it is created with its trust, unless it is there after all.
      refine wp_role hs' rfl (fun s₁ r s' _ h hlive => ?_) fun exc r hr => by rw [hr]; rfl
      simp only [AwsCall.Takes] at h
      split at h
      · obtain ⟨arn, rfl, rfl⟩ := h
        exact ⟨hlive, ⟨arn, trust, fun _ => none⟩, by simp [Aws.setRole], rfl, rfl⟩
      · obtain ⟨⟨message, text, rfl⟩, -⟩ := h
        exact hlive

theorem putRolePolicy_wp {role : IamRole} (policy resource : String)
    (hrole : s.roles name = some role) :
    (call (Cmd.aws (.putRolePolicy name policy resource)) result : CP Unit).wp keepingLive
      (outcome (fun _ s' => s'.live = L ∧ s'.roles name =
        some { role with policies := Function.update role.policies policy (some resource) })
        fun _ s' => s'.live = L) s := by
  refine wp_role hL rfl (fun s₁ r s' hroles h hlive => ?_) fun exc r hr => by rw [hr]; rfl
  simp only [AwsCall.Takes, hroles, hrole] at h
  obtain ⟨rfl, rfl⟩ := h
  exact ⟨hlive, by simp [Aws.setRole]⟩

end

end

/-! ## Rounds -/

/-- Who assumes the role of a tenant: the service account of its workload. -/
def tenantTrust (outputs : Outputs) (t : TenantId) : Trust :=
  ⟨outputs.oidcProviderArn, outputs.oidcProviderUrl,
    "system:serviceaccount:tenant-" ++ t.val ++ ":test-app", "sts.amazonaws.com"⟩

/-- The identity returned is there: a live secret of the tenant, and a role that its workload
    alone assumes, whose inline policy lets it read that secret. -/
structure Ensured (outputs : Outputs) (t : TenantId) (secret : Secret) (identity : Identity)
    (s : Aws) : Prop where
  live : s.live (secretName outputs t) = some secret
  role : ∃ role, s.roles (roleName outputs t) = some role ∧ role.trust = tenantTrust outputs t ∧
    role.policies (rolePolicyName outputs t) = some secret.arn ∧
    identity = ⟨some "control_plane", some (secretName outputs t), some role.arn⟩

section

variable {outputs : Outputs} {t : TenantId} {s : Aws}

/-- A round that returns has ensured the identity it returns. -/
theorem ensureTenantIdentityOnce_wp : (ensureTenantIdentityOnce outputs t).wp keepingLive
    (returns fun identity s' => ∃ secret, Ensured outputs t secret identity s') s := by
  refine (wp_ite (outputs.rdsHost = "") _ _).2 ⟨fun _ => trivial, fun _ => ?_⟩
  refine (wp_ite (outputs.oidcProviderArn = "" ∨ outputs.oidcProviderUrl = "") _ _).2
    ⟨fun _ => trivial, fun _ => ?_⟩
  refine wp.bind (Q := returns fun _ _ => True) ?_ (fun account s₁ _ => ?_) fun _ _ _ => trivial
  · refine wp_aws (fun _ _ h => nomatch h) (fun s₁ r s' _ _ => ?_) fun s₁ exc r s' _ _ _ _ => ?_
    all_goals exact (wp_result _).2 (by cases r <;> trivial)
  refine wp.bind (Q := returns fun _ _ => True) ?_ (fun password s₂ _ => ?_) fun _ _ _ => trivial
  · exact wp_elsewhere (fun _ h => nomatch h) fun _ => trivial
  refine wp.bind (ensureSecret_wp _ _) (fun arn s₃ hsecret => ?_) fun _ _ _ => trivial
  obtain ⟨secret, hlive, harn⟩ : ∃ secret, s₃.live (secretName outputs t) = some secret ∧
    secret.arn = arn := hsecret
  refine wp.bind (ensureRole_wp _ rfl _) (fun roleArn s₄ hrole => ?_) fun _ _ _ => trivial
  obtain ⟨hlive₄, role, hrole, hroleArn, htrust⟩ := hrole
  refine wp.bind (putRolePolicy_wp _ hlive₄ _ _ hrole) (fun _ s₅ hput => ?_) fun _ _ _ => trivial
  obtain ⟨hlive₅, hrole₅⟩ := hput
  exact ⟨secret, by rw [hlive₅, hlive], _, hrole₅, htrust, by simp [harn], by rw [hroleArn]⟩

end

/-- The rounds of an operation: the errors of those that were retried, and the outcome of the
    last one. -/
inductive Rounds {S : Sig} {α W : Type} (h : Handler S W) (fn : Prog S Exn α) :
    List Exn → Except Exn α → W → W → Prop
  | last {w w' : W} {tr : Trace S} {x : Except Exn α} :
      Exec h fn w tr x w' → Rounds h fn [] x w w'
  | retry {w w₁ w' : W} {tr : Trace S} {exc : Exn} {es : List Exn} {x : Except Exn α} :
      Exec h fn w tr (.error exc) w₁ → exc.retryOn = true → Rounds h fn es x w₁ w' →
      Rounds h fn (exc :: es) x w w'

section

variable {S : Sig} {α V W : Type} {fn : Prog S Exn α}

/-- An operation takes as many rounds as it has attempts, at most; an error that is retried ends
    it after the last attempt only. -/
theorem exec_withRetry {h : Handler S W} {w w' : W} {tr : Trace S} {x : Except Exn α} {n : ℕ}
    (hx : Exec h (withRetry fn (n + 1)) w tr x w') :
    ∃ es, Rounds h fn es x w w' ∧ es.length ≤ n ∧
      ∀ exc, x = .error exc → exc.retryOn = true → es.length = n := by
  induction n generalizing w tr with
  | zero => exact ⟨[], .last hx, le_rfl, fun _ _ _ => rfl⟩
  | succ n ih =>
    rw [withRetry] at hx
    rcases Exec.of_rescue hx with ⟨a, rfl, h₁⟩ | ⟨exc, t₁, t₂, w₁, rfl, h₁, h₂⟩
    · exact ⟨[], .last h₁, Nat.zero_le _, nofun⟩
    · cases hretry : exc.retryOn with
      | true =>
        -- What is left of the operation is the rounds it has left.
        rw [hretry] at h₂
        obtain ⟨es, hrounds, hlen, hlast⟩ := ih h₂
        exact ⟨exc :: es, .retry h₁ hretry hrounds, Nat.succ_le_succ hlen,
          fun e he hr => congrArg Nat.succ (hlast e he hr)⟩
      | false =>
        rw [hretry] at h₂
        cases h₂
        refine ⟨[], .last h₁, Nat.zero_le _, fun e he hr => ?_⟩
        cases he
        cases hretry.symm.trans hr

/-- What every round ensures when it returns, the operation ensures. -/
theorem withRetry_wp {K : Contract S V} {Q : α → V → Prop}
    (hfn : ∀ v, fn.wp K (returns Q) v) (n : ℕ) (v : V) : (withRetry fn n).wp K (returns Q) v := by
  match n with
  | 0 => trivial
  | 1 => exact hfn v
  | n + 2 =>
    rw [withRetry, wp_tryCatch]
    refine (hfn v).imp fun x v' hx => ?_
    cases x with
    | ok a => exact hx
    | error exc =>
      exact (wp_ite _ _ _).2 ⟨fun _ => withRetry_wp hfn (n + 1) v', fun _ => trivial⟩

end

/-- An error answered by AWS is retried exactly if its code is a transient one. -/
theorem raiseAws_retryOn (code message text : String) :
    (raiseAws (.clientError code message text)).retryOn = true ↔
      orElse code "Unknown" ∈ awsRetryableCodes := by
  rw [raiseAws, classifyAwsError]
  split_ifs with h
  · exact iff_of_true rfl h
  · exact iff_of_false Bool.false_ne_true h

section

variable {outputs : Outputs} {t : TenantId} {s s₁ s' : Aws} {ws ws' : List Aws}

/-- A round, with its error classified. -/
def identityRound (outputs : Outputs) (t : TenantId) : CP Identity :=
  exceptClientError (ensureTenantIdentityOnce outputs t) fun _ exc => throw (raiseAws exc)

theorem identityRound_wp (s : Aws) : (identityRound outputs t).wp keepingLive
    (returns fun identity s' => ∃ secret, Ensured outputs t secret identity s') s := by
  rw [identityRound]
  exact exceptClientError_wp ensureTenantIdentityOnce_wp fun _ _ _ _ => trivial

theorem ensureTenantIdentity_wp (s : Aws) : (ensureTenantIdentity outputs t).wp keepingLive
    (returns fun identity s' => ∃ secret, Ensured outputs t secret identity s') s :=
  withRetry_wp identityRound_wp 5 s

/-- After any calls, for any tenants, a call that returns has ensured the identity it returns, and
    its secret is the one first created (or found) since no secret of that name was live: it was
    never written again. The call takes five rounds at most; each but the last ended with a
    transient error. -/
theorem ensureTenantIdentity_safe {x : Except Exn Identity}
    (hc : Calling awsWorld (fun i : Outputs × TenantId => ensureTenantIdentity i.1 i.2) s ws s₁)
    (hx : Passes awsWorld (ensureTenantIdentity outputs t) s₁ ws' x s') :
    (∀ identity, x = .ok identity → ∃ secret, Ensured outputs t secret identity s' ∧
      ∃ before since, ws ++ ws' = before ++ since ∧
        (∀ w ∈ before, w.live (secretName outputs t) = none) ∧
        ∀ w ∈ since, w.live (secretName outputs t) = some secret) ∧
    ∃ es, Rounds awsWorld (identityRound outputs t) es x s₁ s' ∧ es.length < 5 := by
  obtain ⟨hchain, hpost⟩ := hx.along (ensureTenantIdentity_wp s₁)
  refine ⟨fun identity h => ?_, ?_⟩
  · subst h
    obtain ⟨secret, hsecret⟩ := hpost
    refine ⟨secret, hsecret, exists_since (f := fun w : Aws => w.live (secretName outputs t)) ?_ ?_⟩
    · -- Every command of every call keeps the live secrets, so that the secret stays.
      refine List.IsChain.imp (fun w w' (h : w.Keeps w') => h (secretName outputs t)) ?_
      refine List.isChain_append.2 ⟨hc.along Aws.keeps_refl fun i w =>
        (ensureTenantIdentity_wp w).imp fun _ _ _ => trivial, hchain, fun v hv u hu => ?_⟩
      rw [hx.head, Option.mem_some_iff] at hu
      rw [hc.last v hv, hu]
      exact Aws.keeps_refl _
    · intro w hw
      rw [List.getLast?_append, hx.last, Option.some_or, Option.mem_some_iff] at hw
      exact hw ▸ hsecret.live
  · obtain ⟨tr, hexec⟩ := hx.exec
    obtain ⟨es, hrounds, hlen, -⟩ := exec_withRetry hexec
    exact ⟨es, hrounds, Nat.lt_succ_of_le hlen⟩

end

/-- An error that reports an object missing, or refuses the call. -/
def refusal (code name : String) : Exn := .clientError code name name

/-- The world resolved: no deletion ends, and a call takes effect and is answered, but that a
    secret created is answered by a transient error unless `answered`. -/
def awsAnswer (answered : Bool) : (c : Cmd) → Aws → cpSig.Resp c × Aws
  | .aws (.describeSecret name), s =>
    ((s.secrets name).elim (.error (refusal "ResourceNotFoundException" name)) fun secret =>
      .ok ⟨secret.arn, secret.pending⟩, s)
  | .aws (.createSecret name payload), s =>
    match s.secrets name with
    | none =>
      (if answered then .ok ("arn:aws:secretsmanager:" ++ name)
        else .error (refusal "RequestTimeout" name),
        s.setSecret name ⟨"arn:aws:secretsmanager:" ++ name, payload, false⟩)
    | some secret =>
      (.error (refusal (if secret.pending then "InvalidRequestException"
        else "ResourceExistsException") name), s)
  | .aws (.getRole name), s =>
    ((s.roles name).elim (.error (refusal "NoSuchEntity" name)) fun role => .ok role.arn, s)
  | .aws (.createRole name trust), s =>
    match s.roles name with
    | none =>
      (.ok ("arn:aws:iam:" ++ name), s.setRole name ⟨"arn:aws:iam:" ++ name, trust, fun _ => none⟩)
    | some _ => (.error (refusal "EntityAlreadyExists" name), s)
  | .aws (.putRolePolicy name policy resource), s =>
    match s.roles name with
    | none => (.error (refusal "NoSuchEntity" name), s)
    | some role => (.ok (), s.setRole name
        { role with policies := Function.update role.policies policy (some resource) })
  | .aws .callerIdentity, s => (.ok "123456789012", s)
  | .aws (.deleteSecret name _), s | .aws (.updateAssumeRolePolicy name _), s
  | .aws (.tagSecret name _), s | .aws (.tagRole name _), s | .aws (.deleteRolePolicy name _), s
  | .aws (.deleteRole name), s => (.error (refusal "Throttling" name), s)
  | .aws .listSecrets, s => (.error (refusal "Throttling" ""), s)
  | c, s => (succeeding c, s)

theorem Aws.lapses_refl (s : Aws) : s.Lapses s := ⟨rfl, fun _ => .inl rfl⟩

theorem awsAnswer_step (answered : Bool) (c : Cmd) (s : Aws) :
    awsWorld c s (awsAnswer answered c s).1 (awsAnswer answered c s).2 := by
  have hthrottled (name : String) : ¬(refusal "Throttling" name).Missing :=
    transient_not_missing (by simp [awsRetryableCodes])
  cases c with
  | aws c =>
    refine ⟨s, s.lapses_refl, ?_⟩
    cases c with
    | callerIdentity => exact .inl ⟨⟨_, rfl⟩, rfl⟩
    | describeSecret name =>
      refine .inl ⟨rfl, ?_⟩
      cases h : s.secrets name with
      | none => exact ⟨name, name, by simp [awsAnswer, h, refusal]⟩
      | some secret => simp [awsAnswer, h]
    | createSecret name payload =>
      have htimeout : ¬(refusal "RequestTimeout" name).Missing :=
        transient_not_missing (by simp [awsRetryableCodes])
      simp only [AwsCall.Takes, awsAnswer]
      cases h : s.secrets name with
      | none =>
        cases answered with
        | true => exact .inl ⟨_, rfl, rfl⟩
        | false => exact .inr ⟨_, htimeout, rfl, .inr ⟨_, _, rfl, rfl⟩⟩
      | some secret => exact .inl ⟨⟨name, name, rfl⟩, rfl⟩
    | getRole name =>
      refine .inl ⟨rfl, ?_⟩
      cases h : s.roles name with
      | none => exact ⟨name, name, by simp [awsAnswer, h, refusal]⟩
      | some role => simp [awsAnswer, h]
    | createRole name trust =>
      left
      simp only [AwsCall.Takes, awsAnswer]
      cases h : s.roles name with
      | none => exact ⟨_, rfl, rfl⟩
      | some role => exact ⟨⟨name, name, rfl⟩, rfl⟩
    | putRolePolicy name policy resource =>
      left
      simp only [AwsCall.Takes, awsAnswer]
      cases h : s.roles name with
      | none => exact ⟨⟨name, name, rfl⟩, rfl⟩
      | some role => exact ⟨rfl, rfl⟩
    | _ => exact .inr ⟨_, hthrottled _, rfl, .inl rfl⟩
  | _ => rfl

/-- A world without secrets and roles. -/
def Aws.empty : Aws := ⟨fun _ => none, fun _ => none⟩

/-- An identity created in two rounds: the first one created the secret, and was told it failed. -/
def createdTwice : Trace cpSig × Except Exn Identity × Aws :=
  (ensureTenantIdentity labOutputs .a).eval awsAnswer (fun n => n ≠ 3) 0 Aws.empty

theorem ensureTenantIdentity_safe_twice : ∃ secret, Ensured labOutputs .a secret
    ⟨some "control_plane", some "ntier-dev/rds/tenant-a", some "arn:aws:iam:ntier-dev-tenant-a"⟩
    createdTwice.2.2 := by
  obtain ⟨ws, hx⟩ := (exec_eval awsAnswer_step (fun n => decide (n ≠ 3))
    (ensureTenantIdentity labOutputs .a) 0 Aws.empty).passes
  obtain ⟨hsafe, -⟩ := ensureTenantIdentity_safe .none hx
  obtain ⟨secret, hsecret, -⟩ := hsafe _ rfl
  exact ⟨secret, hsecret⟩

end NtierLab
