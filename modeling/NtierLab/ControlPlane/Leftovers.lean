import NtierLab.Prog.Serial
import NtierLab.ControlPlane.Locality
import NtierLab.ControlPlane.Tearing

/-!
# What a deletion leaves behind

A tenant is provisioned any number of times, each time crashing or failing anywhere
(`provisions`), and deleted. The migrate Jobs of these attempts run on by themselves
(`Lab.Migrates`): the cloud, with the tenants whose roles they are about to create, is
the lab (`Lab`).

A deletion that returns leaves nothing of the tenant (`deleteTenant_clean`), if its row
records the secret and the role that exist, no probe of a namespace that exists failed,
and the database role was not dropped before a migrate Job creates it.
-/

namespace NtierLab

open Prog

/-- The cloud, and the tenants whose roles the migrate Jobs running are about to create. -/
structure Lab where
  cloud : Cloud
  migrating : Finset TenantId

/-- The tenants whose roles are about to be created by the migrate Job a command starts. -/
def Cmd.starts : Cmd → Finset TenantId
  | .shell (.helmUpgrade v) => v.migrate.elim ∅ Migrate.tenants
  | _ => ∅

/-- The migrate Jobs run on: they create roles, end or fail. -/
structure Lab.Migrates (w w' : Lab) : Prop where
  registry : w'.cloud.registry = w.cloud.registry
  migrating : w'.migrating ⊆ w.migrating
  resources : ∃ ts ⊆ w.migrating, w'.cloud.resources = w.cloud.resources ∪ dbRoles ts

/-- A command on the cloud, while the migrate Jobs run on. -/
def lab (outputs : Outputs) : Handler cpSig Lab := fun c w r w' =>
  ∃ cloud, lossy outputs c w.cloud r cloud ∧ Lab.Migrates ⟨cloud, w.migrating ∪ c.starts⟩ w'

/-- A tenant provisioned by default, any number of times. -/
def provisions (outputs : Outputs) (t : TenantId) : Serial cpSig Exn String Unit Lab where
  prog tier := provision t { tier }
  step := lab outputs
  env _ w w' := w.Migrates w'

/-! ## The identity recorded -/

/-- An identity owned by the control plane names the role and the secret of the tenant. -/
def Names (outputs : Outputs) (t : TenantId) (i : Identity) : Prop :=
  i.ownedBy = some "control_plane" →
    arnRole i.irsaRoleArn (roleName outputs t) = roleName outputs t ∧
      rowSecret outputs t i.secretName = secretName outputs t

/-- The command records no identity of a tenant, or one that names its role and its secret. -/
def Naming (outputs : Outputs) (t : TenantId) : Cmd → Prop
  | .reg (.upsert _ v f) => v = none ∧ f.Valid ∧
      ((f.ownedBy = none ∧ f.secretName = none ∧ f.irsaRoleArn = none) ∨
        ∃ i, Names outputs t i ∧ f.ownedBy = some i.ownedBy ∧ f.secretName = some i.secretName ∧
          f.irsaRoleArn = some i.irsaRoleArn)
  | .reg (.delete _) => False
  | _ => True

section

variable {outputs : Outputs} {t : TenantId} {w w' : Lab} {c : Cmd} {r : cpSig.Resp c}

/-- A command that names the role and the secret of the tenant keeps the row naming them. -/
theorem Naming.step (hc : Naming outputs t c) (hr : lab outputs c w r w')
    (h : Names outputs t (w.cloud.identity t)) : Names outputs t (w'.cloud.identity t) := by
  cases c with
  | reg c =>
    obtain ⟨cloud, ⟨⟨now, hrun⟩, -⟩, hm⟩ := hr
    have hreg : w'.cloud.registry = (c.run now w.cloud.registry).2 := by rw [hrun, hm.registry]
    rw [Cloud.identity, hreg]
    cases c with
    | get u => exact h
    | list => exact h
    | upsert u v f =>
      obtain ⟨rfl, hf, hfields⟩ := hc
      rw [RegCmd.run, Registry.upsert_valid hf]
      rcases eq_or_ne u t with rfl | hu
      · rw [Registry.get_insert_self, Option.elim_some, Registry.written_identity]
        rcases hfields with ⟨ho, hs, hi⟩ | ⟨i, hi, ho, hs, hr⟩
        · rw [ho, hs, hi]
          rw [Cloud.identity] at h
          cases hrow : w.cloud.registry.get u with
          | none => exact fun h => absurd h (by simp)
          | some row =>
            rw [hrow] at h
            exact h
        · rw [ho, hs, hr]
          exact hi
      · rw [Registry.get_insert_ne hu]
        exact h
    | delete u => exact hc.elim
  | _ =>
    obtain ⟨cloud, ⟨hreg, -⟩, hm⟩ := hr
    rw [Cloud.identity, hm.registry, hreg]
    exact h

/-- Commands that keep the row naming the role and the secret. -/
abbrev naming (outputs : Outputs) (t : TenantId) : Contract cpSig Lab :=
  steps (lab outputs) (fun _ _ => True) fun w w' =>
    Names outputs t (w.cloud.identity t) → Names outputs t (w'.cloud.identity t)

/-- The row names the role and the secret, and so does the identity returned. -/
def Named (outputs : Outputs) (t : TenantId) {α : Type} (V : α → Prop) (x : Except Exn α)
    (w : Lab) : Prop :=
  Names outputs t (w.cloud.identity t) ∧ ∀ a, x = .ok a → V a

variable {α β : Type} {p : CP α} {V : α → Prop} {V' : β → Prop}

theorem Quiet.naming (h : Quiet c) : Naming outputs t c := by
  unfold Naming
  split <;> first | exact h.elim | trivial

/-- A program of commands that name the role and the secret. -/
theorem named_of_calls (hp : p.Calls (Naming outputs t)) (h : Names outputs t (w.cloud.identity t)) :
    p.wp (naming outputs t) (Named outputs t fun _ => True) w := by
  have hw : p.wp (naming outputs t) (fun _ w => Names outputs t (w.cloud.identity t)) w :=
    hp.steps (I := fun w : Lab => Names outputs t (w.cloud.identity t))
      (fun _ _ _ _ hc hI hr _ => ⟨fun _ => hc.step hr hI, hc.step hr hI⟩) h
  exact hw.imp fun _ _ h => ⟨h, fun _ _ => trivial⟩

theorem named_bind {f : α → CP β} (hp : p.wp (naming outputs t) (Named outputs t V) w)
    (hf : ∀ a w', V a → Names outputs t (w'.cloud.identity t) →
      (f a).wp (naming outputs t) (Named outputs t V') w') :
    (p >>= f).wp (naming outputs t) (Named outputs t V') w :=
  wp.bind hp (fun a w' h => hf a w' (h.2 a rfl) h.1) fun _ _ h => ⟨h.1, nofun⟩

/-- A command that is no transaction of the store, and what its response tells. -/
theorem named_call {c : Cmd} {k : cpSig.Resp c → CP α} (hc : Quiet c)
    (h : Names outputs t (w.cloud.identity t))
    (hk : ∀ r w' rs, Names outputs t (w'.cloud.identity t) → Tells outputs c r rs →
      (k r).wp (naming outputs t) (Named outputs t V) w') :
    (Prog.call c k : CP α).wp (naming outputs t) (Named outputs t V) w := by
  refine ⟨fun r w' hr _ => hc.naming.step hr, fun r w' hr => ?_⟩
  obtain ⟨cloud, hcl, -⟩ := hr.1
  refine hk r w' cloud.resources (hc.naming.step hr.1 h) ?_
  cases c with
  | reg c => trivial
  | _ => exact hcl.2.2

theorem arnRole_of_afterLastSlash {arn d : String} (h : afterLastSlash arn = d) :
    arnRole (some arn) d = d := by
  simp only [arnRole, h, ite_self]

theorem rowSecret_secretName :
    rowSecret outputs t (some (secretName outputs t)) = secretName outputs t := by
  simp [rowSecret]

theorem named_throw (e : Exn) (h : Names outputs t (w.cloud.identity t)) :
    (throw e : CP α).wp (naming outputs t) (Named outputs t V) w :=
  ⟨h, fun _ h => nomatch h⟩

theorem named_except {handler : String → Exn → CP α}
    (hp : p.wp (naming outputs t) (Named outputs t V) w)
    (hh : ∀ code e w', Names outputs t (w'.cloud.identity t) →
      (handler code e).wp (naming outputs t) (Named outputs t V) w') :
    (exceptClientError p handler).wp (naming outputs t) (Named outputs t V) w := by
  rw [exceptClientError, wp_tryCatch]
  refine hp.imp ?_
  rintro (e | a) w' hw
  · cases e with
    | clientError code message text => exact hh code _ w' hw.1
    | _ => exact named_throw _ hw.1
  · exact hw

theorem named_retry {fn : CP α}
    (hfn : ∀ w, Names outputs t (w.cloud.identity t) →
      fn.wp (naming outputs t) (Named outputs t V) w) (n : ℕ)
    (h : Names outputs t (w.cloud.identity t)) :
    (withRetry fn n).wp (naming outputs t) (Named outputs t V) w := by
  induction n generalizing w with
  | zero => exact named_throw _ h
  | succ n ih =>
    cases n with
    | zero => exact hfn w h
    | succ n =>
      rw [withRetry, wp_tryCatch]
      refine (hfn w h).imp ?_
      rintro (e | a) w' hw
      · exact (wp_ite _ _ _).2 ⟨fun _ => ih hw.1, fun _ => named_throw _ hw.1⟩
      · exact hw

/-- The role created, or found, is the one named after the tenant. -/
theorem ensureRole_named (trust : Trust) (h : Names outputs t (w.cloud.identity t)) :
    (ensureRole (roleName outputs t) trust).wp (naming outputs t)
      (Named outputs t fun arn => afterLastSlash arn = roleName outputs t) w := by
  refine named_except ?_ fun code e w' hw => (wp_ite _ _ _).2 ⟨fun _ => named_throw _ hw, fun _ => ?_⟩
  · refine named_call trivial h fun r w' rs hw ht => ?_
    cases r with
    | error e => exact named_throw e hw
    | ok arn =>
      refine named_call (c := .aws (.updateAssumeRolePolicy _ _)) trivial hw fun r w' _ hw _ => ?_
      cases r with
      | error e => exact named_throw e hw
      | ok _ => exact ⟨hw, fun a ha => by cases ha; exact ht arn rfl⟩
  · refine named_call trivial hw fun r w' rs hw ht => ?_
    cases r with
    | error e => exact named_throw e hw
    | ok arn => exact ⟨hw, fun a ha => by cases ha; exact ht arn rfl⟩

/-- The identity created names the role and the secret. -/
theorem ensureTenantIdentity_named (h : Names outputs t (w.cloud.identity t)) :
    (ensureTenantIdentity outputs t).wp (naming outputs t)
      (Named outputs t (Names outputs t)) w := by
  refine named_retry (fun w h => named_except ?_ fun _ _ w' hw => named_throw _ hw) 5 h
  refine (wp_ite _ _ _).2 ⟨fun _ => named_throw _ h, fun _ => ?_⟩
  refine (wp_ite _ _ _).2 ⟨fun _ => named_throw _ h, fun _ => ?_⟩
  have hquiet {β : Type} {q : CP β} {w : Lab} (hq : q.Calls Quiet)
      (h : Names outputs t (w.cloud.identity t)) :
      q.wp (naming outputs t) (Named outputs t fun _ => True) w :=
    named_of_calls (hq.imp fun _ => Quiet.naming) h
  refine named_bind (hquiet (q := .call (.aws .callerIdentity) result)
    ⟨trivial, fun r => calls_result r⟩ h) fun _ w _ h => ?_
  refine named_bind (hquiet (q := .call (.host .password) .ret) ⟨trivial, fun _ => trivial⟩ h)
    fun password w _ h => ?_
  refine named_bind (hquiet (ensureSecret_quiet _ _) h) fun secretArn w _ h => ?_
  refine named_bind (ensureRole_named _ h) fun arn w harn h => ?_
  refine named_bind (hquiet (q := .call (.aws (.putRolePolicy _ _ _)) result)
    ⟨trivial, fun r => calls_result r⟩ h) fun _ w _ h => ⟨h, fun i hi => ?_⟩
  cases hi
  exact fun _ => ⟨arnRole_of_afterLastSlash harn, rowSecret_secretName⟩

theorem ensureIdentity_named (tier : String) (h : Names outputs t (w.cloud.identity t)) :
    (ensureIdentity t { tier }).wp (naming outputs t)
      (Named outputs t fun a => a.1 = outputs ∧ Names outputs t a.2) w := by
  refine named_call (c := .host .tofuOutputs) trivial h fun r w _ h ht => ?_
  cases r with
  | error e => exact named_throw e h
  | ok outs =>
    obtain rfl := ht outs rfl
    change (ensureTenantIdentity outs t >>= fun i => pure (outs, i)).wp _ _ _
    exact named_bind (ensureTenantIdentity_named h) fun i w hi h => ⟨h, fun a ha => by
      cases ha
      exact ⟨rfl, hi⟩⟩

theorem upsert_naming {f : Fields} {i : Identity} (hf : f.Valid) (hi : Names outputs t i) :
    (TenantStore.upsert t (withIdentity f i)).Calls (Naming outputs t) :=
  ⟨⟨rfl, hf, .inr ⟨i, hi, rfl, rfl, rfl⟩⟩, fun r => calls_result r⟩

theorem provision_named (tier : String) (h : Names outputs t (w.cloud.identity t)) :
    (provision t { tier }).wp (naming outputs t) (Named outputs t fun _ => True) w := by
  have hquiet {β : Type} {q : CP β} {w : Lab} (hq : q.Calls Quiet)
      (h : Names outputs t (w.cloud.identity t)) :
      q.wp (naming outputs t) (Named outputs t fun _ => True) w :=
    named_of_calls (hq.imp fun _ => Quiet.naming) h
  have hupsert {f : Fields} {w : Lab} (hf : f.Valid) (hid : f.ownedBy = none ∧ f.secretName = none ∧
      f.irsaRoleArn = none) (h : Names outputs t (w.cloud.identity t)) :
      (TenantStore.upsert t f).wp (naming outputs t) (Named outputs t fun _ => True) w :=
    named_of_calls ⟨⟨rfl, hf, .inl hid⟩, fun r => calls_result r⟩ h
  refine named_bind (hupsert (by simp [provisioning]) ⟨rfl, rfl, rfl⟩ h) fun _ w _ h => ?_
  refine (wp_tryCatch _ _).2 (wp.imp (Q := Named outputs t fun _ => True) ?_ ?_)
  · refine named_bind (ensureIdentity_named tier h) fun a w ha h => ?_
    obtain ⟨outs, i⟩ := a
    obtain ⟨rfl, hi⟩ := ha
    refine named_bind (named_of_calls (upsert_naming (by simp [provisioning]) hi) h) fun _ w _ h => ?_
    refine named_bind (hquiet list_quiet h) fun rows w _ h => ?_
    refine named_bind (hquiet nodeIp_quiet h) fun ip w _ h => ?_
    refine named_bind (hquiet (onboardAll_quiet _ _) h) fun _ w _ h => ?_
    refine named_bind (hquiet (edgeUrl_quiet _ _) h) fun alb w _ h => ?_
    refine named_bind (named_of_calls (upsert_naming (by simp) hi) h) fun _ w _ h => ?_
    exact ⟨h, fun _ _ => trivial⟩
  · rintro (e | a) w hw
    · exact named_bind (hupsert (by simp [provisionFailed]) ⟨rfl, rfl, rfl⟩ hw.1) fun _ w _ h =>
        named_throw _ h
    · exact hw

/-- However often the tenant was provisioned, its row names its role and its secret. -/
theorem provisions_named {w₀ : Lab} {ts : List (Turn cpSig String Unit)} {p : Desk cpSig Exn String Lab}
    (h₀ : w₀.cloud.registry.get t = none)
    (hr : (provisions outputs t).Run (fun _ _ => True) w₀ ts p) :
    Names outputs t (p.world.cloud.identity t) := by
  have hnames : Names outputs t (w₀.cloud.identity t) := by
    rw [Cloud.identity, h₀]
    exact nofun
  refine (hr.steady (I := fun w => Names outputs t (w.cloud.identity t))
    (P := fun w w' => Names outputs t (w.cloud.identity t) → Names outputs t (w'.cloud.identity t))
    (fun tier w h _ => ?_) (fun w w' h hP => hP h) (fun _ w w' h hm => ?_) hnames).world
  · exact (provision_named tier h).imp fun _ _ _ => trivial
  · rw [Cloud.identity, hm.registry]
    exact h

end

/-! ## The deletion -/

/-- The probe of a namespace does not fail while it exists, and no migrate Job is about to create
    a database role seen dropped. -/
def Lab.Fair (w : Lab) : Event cpSig → Prop
  | ⟨.shell (.getNs t), .exited code⟩ => code ≠ 0 → .ns t ∉ w.cloud.resources
  | ⟨.kube (.dropJobConditions _ d), .ok conds⟩ =>
    condition conds "Complete" = some "True" → d.tenant ∉ w.migrating
  | _ => True

/-- A command on the lab that is fair. -/
def fairLab (outputs : Outputs) : Handler cpSig Lab := fun c w r w' =>
  lab outputs c w r w' ∧ w.Fair ⟨c, r⟩

/-- The resources in `N` are gone, and no migrate Job is about to create one of them. -/
structure Lab.Without (N : Finset Resource) (w : Lab) : Prop where
  gone : Disjoint w.cloud.resources N
  settled : ∀ t ∈ w.migrating, .dbRole t.role ∉ N

section

variable {outputs : Outputs} {t : TenantId} {item : Identity} {w w' : Lab} {c : Cmd}
  {r : cpSig.Resp c} {N N' : Finset Resource}

@[simp] theorem mem_dbRoles {ts : Finset TenantId} {u : TenantId} :
    .dbRole u.role ∈ dbRoles ts ↔ u ∈ ts := by
  simp [dbRoles, TenantId.role_injective.eq_iff]

/-- A command of a deletion starts no migrate Job. -/
theorem Tearing.starts (hc : Tearing outputs t item c) : c.starts = ∅ := by
  unfold Cmd.starts
  split
  · next v =>
    cases hm : v.migrate with
    | none => rfl
    | some m =>
      refine Finset.eq_empty_of_forall_notMem fun u hu => ?_
      have hsub := (hc ∅).subset
      simp only [Cmd.effect, hm, Option.elim_some, Finset.empty_union] at hsub
      exact absurd (hsub (mem_dbRoles.2 hu)) (Finset.notMem_empty _)
  · rfl

/-- A command of a deletion only erases resources of the cloud. -/
theorem Tearing.subset {cl cl' : Cloud} (hc : Tearing outputs t item c)
    (hr : lossy outputs c cl r cl') : cl'.resources ⊆ cl.resources := by
  cases c with
  | reg c => exact hr.2.subset
  | _ =>
    obtain ⟨-, hres | hres, -⟩ := hr
    · exact hres.subset
    · exact hres ▸ (hc.erased (fun _ h => by cases h) _).subset

/-- What is told to be erased by a fair command is, for good. -/
theorem Lab.Without.told {cl : Cloud} (hc : Tearing outputs t item c)
    (hr : lossy outputs c w.cloud r cl) (hfair : w.Fair ⟨c, r⟩) :
    Disjoint cl.resources (told true c r) ∧ ∀ u ∈ w.migrating, .dbRole u.role ∉ told true c r := by
  have hsingle {x : Resource} (hx : x ∉ cl.resources)
      (hu : ∀ u ∈ w.migrating, .dbRole u.role ≠ x) : Disjoint cl.resources {x} ∧
        ∀ u ∈ w.migrating, .dbRole u.role ∉ ({x} : Finset Resource) :=
    ⟨Finset.disjoint_singleton_right.2 hx, fun u h => Finset.notMem_singleton.2 (hu u h)⟩
  have hnone : Disjoint cl.resources ∅ ∧ ∀ u ∈ w.migrating, .dbRole u.role ∉ (∅ : Finset Resource) :=
    ⟨Finset.disjoint_empty_right _, fun _ _ => Finset.notMem_empty _⟩
  have hsub := hc.subset hr
  unfold NtierLab.told
  split
  · split_ifs with hcode
    · exact hsingle (fun h => hfair hcode.2 (hsub h)) fun _ _ => nofun
    · exact hnone
  · split_ifs with hcode
    · exact hsingle (hr.2.2 (by rw [hcode])) fun _ _ => nofun
    · exact hnone
  · split_ifs with hdone
    · refine hsingle (hr.2.2 _ rfl hdone) fun u hu heq => hfair hdone ?_
      rwa [← TenantId.role_injective (Resource.dbRole.inj heq)]
    · exact hnone
  · split_ifs with hg
    · exact hsingle (hr.2.2 hg) fun _ _ => nofun
    · exact hnone
  · split_ifs with hg
    · exact hsingle (hr.2.2 hg) fun _ _ => nofun
    · exact hnone
  · exact hnone

/-- The roles the migrate Jobs create are not among those gone. -/
theorem Lab.Without.migrates (h : w.Without N) (hm : w.Migrates w') : w'.Without N := by
  obtain ⟨ts, hts, hres⟩ := hm.resources
  refine ⟨?_, fun u hu => h.settled u (hm.migrating hu)⟩
  rw [hres]
  refine Finset.disjoint_union_left.2 ⟨h.gone, Finset.disjoint_left.2 fun x hx hN => ?_⟩
  obtain ⟨u, hu, rfl⟩ := Finset.mem_image.1 hx
  exact h.settled u (hts hu) hN

theorem erasing_fairLab (N₀ : Finset Resource) :
    Erasing outputs t item true (keeping (fairLab outputs) fun _ => True)
      fun N w => w.Without (N ∪ N₀) where
  call {c N w} hc h := by
    refine ⟨trivial, ?_⟩
    rintro r w' ⟨⟨cl, hcl, hm⟩, hfair⟩
    rw [hc.starts, Finset.union_empty] at hm
    obtain ⟨hgone, hsettled⟩ := Lab.Without.told hc hcl hfair
    refine Lab.Without.migrates ?_ hm
    rw [Finset.union_assoc]
    refine ⟨Finset.disjoint_union_right.2 ⟨hgone, h.gone.mono_left (hc.subset hcl)⟩, ?_⟩
    intro u hu hN
    exact (Finset.mem_union.1 hN).elim (hsettled u hu) (h.settled u hu)
  anti hN h := by
    have hsub := Finset.union_subset_union hN (le_refl N₀)
    exact ⟨h.gone.mono_right hsub, fun u hu hx => h.settled u hu (hsub hx)⟩
  outputs _ hr := by
    obtain ⟨⟨cl, hcl, -⟩, -⟩ := hr
    exact hcl.2.2

/-- The resources of a tenant. -/
def tenantResources (outputs : Outputs) (t : TenantId) : Finset Resource :=
  {.ns t, .dbRole t.role, .iamRole (roleName outputs t), .secret (secretName outputs t)}

/-- The row records the secret and the role of the tenant, if they exist. -/
def Lab.Owned (outputs : Outputs) (t : TenantId) (w : Lab) : Prop :=
  .iamRole (roleName outputs t) ∈ w.cloud.resources ∨ .secret (secretName outputs t) ∈ w.cloud.resources →
    (w.cloud.identity t).ownedBy = some "control_plane"

/-- A deletion that returns leaves no row, and none of the resources of the tenant. -/
theorem deleteTenant_without (hnames : Names outputs t (w.cloud.identity t))
    (howned : w.Owned outputs t) :
    (deleteTenant t).wp (keeping (fairLab outputs) fun _ => True)
      (outcome (fun _ w' => w'.cloud.registry.get t = none ∧
        Disjoint w'.cloud.resources (tenantResources outputs t)) fun _ _ => True) w := by
  -- An identity that the row does not record does not exist.
  let N₀ : Finset Resource :=
    if (w.cloud.identity t).ownedBy = some "control_plane" then ∅
    else {.iamRole (roleName outputs t), .secret (secretName outputs t)}
  have hall : tenantResources outputs t ⊆ ownedResources outputs t (w.cloud.identity t) ∪
      ({.ns t} ∪ {.dbRole t.role}) ∪ N₀ := by
    by_cases ho : (w.cloud.identity t).ownedBy = some "control_plane"
    · obtain ⟨hrole, hsecret⟩ := hnames ho
      simp only [N₀, ownedResources, if_pos ho, hrole, hsecret, tenantResources]
      intro x
      simp only [Finset.mem_insert, Finset.mem_singleton, Finset.mem_union]
      tauto
    · simp only [N₀, ownedResources, if_neg ho, tenantResources]
      intro x
      simp only [Finset.mem_insert, Finset.mem_singleton, Finset.mem_union]
      tauto
  have h₀ : w.Without (∅ ∪ N₀) := by
    rw [Finset.empty_union]
    by_cases ho : (w.cloud.identity t).ownedBy = some "control_plane"
    · simp only [N₀, if_pos ho]
      exact ⟨Finset.disjoint_empty_right _, fun _ _ => Finset.notMem_empty _⟩
    · have hnot : ¬(_ ∨ _) := fun h => ho (howned h)
      simp only [N₀, if_neg ho]
      refine ⟨?_, by simp⟩
      rw [Finset.disjoint_insert_right, Finset.disjoint_singleton_right]
      exact not_or.1 hnot
  have hT : Erasing outputs t (w.cloud.identity t) true (keeping (fairLab outputs) fun _ => True)
      fun N w => w.Without (N ∪ N₀) := erasing_fairLab N₀
  rw [deleteTenant_eq]
  refine ⟨trivial, fun row w₁ hr => ?_⟩
  have h₁ := hT.anti (Finset.empty_subset _) ((hT.call (c := .reg (.get t)) trivial h₀).2 row w₁ hr)
  obtain ⟨⟨cl, ⟨⟨now, hrun⟩, -⟩, -⟩, -⟩ := hr
  obtain ⟨rfl, -⟩ := Prod.mk.inj hrun
  refine wp.imp (hT.deleteFrom_tears (X := {.ns t}) (Q := fun w' => w'.cloud.registry.get t = none ∧
    Disjoint w'.cloud.resources (tenantResources outputs t)) (hT.deleteKubernetes_tears rfl)
    (fun w₂ hw => ⟨trivial, ?_⟩) h₁) ?_
  · rintro r w' ⟨⟨cl, ⟨⟨now, hrun⟩, hres⟩, hm⟩, -⟩
    obtain ⟨-, hreg⟩ := Prod.mk.inj hrun
    rw [show Cmd.starts (.reg (.delete t)) = ∅ from rfl, Finset.union_empty] at hm
    have hgone := Lab.Without.migrates (w := ⟨cl, w₂.migrating⟩)
      ⟨hres.symm ▸ hw.gone, hw.settled⟩ hm
    refine ⟨?_, hgone.gone.mono_right hall⟩
    rw [hm.registry, ← hreg]
    exact Registry.delete_get_self
  · rintro (e | a) w' hw
    · trivial
    · exact hw

/-- Whatever became of the attempts at provisioning a tenant, and whatever is answered to the
    commands of its deletion: if it returns, nothing of the tenant is left. -/
theorem deleteTenant_clean {w₀ : Lab} {ts : List (Turn cpSig String Unit)}
    {p : Desk cpSig Exn String Lab} {tr : Trace cpSig} (h₀ : w₀.cloud.registry.get t = none)
    (hr : (provisions outputs t).Run (fun _ _ => True) w₀ ts p) (howned : p.world.Owned outputs t)
    (hx : Exec (fairLab outputs) (deleteTenant t) p.world tr (.ok ()) w') :
    w'.cloud.registry.get t = none ∧ Disjoint w'.cloud.resources (tenantResources outputs t) :=
  hx.keeps (deleteTenant_without (provisions_named h₀ hr) howned)

end

/-- A prompt lab, in which no migrate Job creates anything by itself. -/
def promptLab (c : Cmd) (w : Lab) : cpSig.Resp c × Lab :=
  match c with
  | .kube (.dropJobConditions p d) =>
    if d.tenant ∈ w.migrating then (.ok [], w)
    else
      let a := promptly "now" labOutputs (.kube (.dropJobConditions p d)) w.cloud
      (a.1, ⟨a.2, w.migrating⟩)
  | c =>
    let a := promptly "now" labOutputs c w.cloud
    (a.1, ⟨a.2, w.migrating⟩)

theorem promptly_fair {c : Cmd} {w : Lab} (hc : ∀ p d, c ≠ .kube (.dropJobConditions p d)) :
    w.Fair ⟨c, (promptly "now" labOutputs c w.cloud).1⟩ := by
  cases c with
  | shell c =>
    cases c with
    | getNs t => exact fun hcode hns => hcode (if_pos hns)
    | _ => trivial
  | kube c =>
    cases c with
    | dropJobConditions p d => exact absurd rfl (hc p d)
    | _ => trivial
  | _ => trivial

theorem promptLab_step (c : Cmd) (w : Lab) :
    fairLab labOutputs c w (promptLab c w).1 (promptLab c w).2 := by
  have hmig (cl : Cloud) (ts : Finset TenantId) :
      Lab.Migrates ⟨cl, w.migrating ∪ ts⟩ ⟨cl, w.migrating⟩ :=
    ⟨rfl, Finset.subset_union_left, ∅, Finset.empty_subset _, (Finset.union_empty _).symm⟩
  have hprompt : lossy labOutputs c w.cloud (promptly "now" labOutputs c w.cloud).1
      (promptly "now" labOutputs c w.cloud).2 := lossy_of_prompt (promptly_step "now" labOutputs c w.cloud)
  unfold promptLab
  split
  · next p d =>
    split_ifs with hd
    · refine ⟨⟨w.cloud, ⟨rfl, .inl rfl, ?_⟩, hmig _ _⟩, ?_⟩
      · rintro conds ⟨⟩ hc
        cases hc
      · exact nofun
    · exact ⟨⟨_, hprompt, hmig _ _⟩, fun _ => hd⟩
  · next hc => exact ⟨⟨_, hprompt, hmig _ _⟩, promptly_fair fun p d h => hc p d h⟩

/-- The platform's namespace, and no tenant. -/
def freshLab : Lab := ⟨⟨∅, {.ns .a}⟩, ∅⟩

/-- The provisioning of a tenant crashes after a number of commands. -/
def interrupted (n : ℕ) : Lab := crashAt promptLab n (provision .b {}) freshLab

theorem interrupted_run (n : ℕ) : ∃ ts o,
    (provisions labOutputs .b).Run (fun _ _ => True) freshLab ts ⟨interrupted n, o⟩ :=
  Serial.run_of_reaches (fun _ _ => trivial) (.snoc .nil trivial (.start "standard"))
    (reaches_crashAt (fun c w => (promptLab_step c w).1) n _ _)

/-- The deletion after it. -/
def deletionAfter (n : ℕ) : Trace cpSig × Except Exn Unit × Lab :=
  (deleteTenant .b).eval (fun _ : Unit => promptLab) (fun _ => ()) 0 (interrupted n)

theorem deletionAfter_exec (n : ℕ) : Exec (fairLab labOutputs) (deleteTenant .b) (interrupted n)
    (deletionAfter n).1 (deletionAfter n).2.1 (deletionAfter n).2.2 :=
  exec_eval (fun _ => promptLab_step) _ _ _ _

/-- Provisioning crashed once it had recorded the identity. -/
theorem deleteTenant_clean_recorded : (deletionAfter 10).2.2.cloud.registry.get .b = none ∧
    Disjoint (deletionAfter 10).2.2.cloud.resources (tenantResources labOutputs .b) := by
  obtain ⟨ts, o, hr⟩ := interrupted_run 10
  exact deleteTenant_clean rfl hr (fun _ => rfl) (deletionAfter_exec 10)

/-- Provisioning crashed before it recorded the identity: the deletion returns, and leaves the
    role and the secret. -/
theorem orphaned_identity :
    (∃ ts o, (provisions labOutputs .b).Run (fun _ _ => True) freshLab ts ⟨interrupted 9, o⟩) ∧
      Exec (fairLab labOutputs) (deleteTenant .b) (interrupted 9) (deletionAfter 9).1 (.ok ())
        (deletionAfter 9).2.2 ∧
      (deletionAfter 9).2.2.cloud.registry.get .b = none ∧
      .iamRole (roleName labOutputs .b) ∈ (deletionAfter 9).2.2.cloud.resources ∧
      .secret (secretName labOutputs .b) ∈ (deletionAfter 9).2.2.cloud.resources := by
  refine ⟨interrupted_run 9, deletionAfter_exec 9, rfl, ?_, ?_⟩
  · decide
  · decide

end NtierLab
