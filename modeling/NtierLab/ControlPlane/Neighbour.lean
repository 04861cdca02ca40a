import NtierLab.ControlPlane.Active
import NtierLab.ControlPlane.Identity
import NtierLab.ControlPlane.Leftovers

/-!
# Neighbours

What an operation on a tenant changes of another one: its registry row, the replicas
and the Ingress of its workload, its secret and its role (`Estate`, `Standing`,
`Serving`). The commands of an operation are on its own tenant (`On`), but for those
of a provisioning on the platform tenant, which it onboards again, and those of a
deletion on an identity that the row wrongly records.

* `Apart.keeps`, `Afar.keeps`: what a command leaves as it was;
* `onboard_acts`, `dropPostgresRole_acts`, ...: the processes of the parts;
* `provision_returns`: the platform tenant is served by a release, whatever it was;
* `deleteTenant_keeps`, `deleteTenant_takes`: what a deletion spares, and what it takes;
* `TenantOperation.local_iff`: when an operation is local.
-/

namespace NtierLab

open Prog

/-! ## The estate -/

/-- The registry, the objects of the namespaces, the secrets and the roles, and the outputs that
    OpenTofu has. -/
structure Estate where
  registry : Registry
  objects : TenantId → Objects
  aws : Aws
  outputs : Outputs

/-- The row of a tenant, and its identity. -/
@[ext] structure Standing where
  row : Option Row
  secret : Option Secret
  role : Option IamRole

/-- How a tenant is served: the replicas of its workload, and whether it has an Ingress. -/
@[ext] structure Serving where
  replicas : Option ℤ
  ingress : Bool

/-- How the objects of a namespace serve. -/
def Objects.serving (o : Objects) : Serving :=
  ⟨(o .deploy).map (·.specReplicas), (o .ingress).isSome⟩

namespace Estate

variable (w : Estate)

def standing (outputs : Outputs) (u : TenantId) : Standing :=
  ⟨w.registry.get u, w.aws.live (secretName outputs u), w.aws.roles (roleName outputs u)⟩

def serving (u : TenantId) : Serving := (w.objects u).serving

end Estate

/-- The secret a call of AWS changes. -/
def AwsCall.secret : AwsCall → Option String
  | .createSecret name _ | .deleteSecret name _ | .tagSecret name _ => some name
  | _ => none

/-- The role a call of AWS changes. -/
def AwsCall.role : AwsCall → Option String
  | .updateAssumeRolePolicy name _ | .createRole name _ | .putRolePolicy name _ _ | .tagRole name _
  | .deleteRolePolicy name _ | .deleteRole name => some name
  | _ => none

/-- What a deletion tells to be gone is. -/
def AwsCall.Removes : (c : AwsCall) → c.Resp → Aws → Prop
  | .deleteSecret name _, r, s' =>
    goneBy ["ResourceNotFoundException", "InvalidRequestException"] r → s'.live name = none
  | .deleteRole name, r, s' => goneBy ["NoSuchEntity"] r → s'.roles name = none
  | _, _, _ => True

/-- A call changes the secret or the role it names only, and only the calls that are for it create
    one. -/
structure AwsCall.Leaves (c : AwsCall) (s : Aws) (r : c.Resp) (s' : Aws) : Prop where
  secrets : ∀ name, c.secret ≠ some name → s'.live name = s.live name
  roles : ∀ name, c.role ≠ some name → s'.roles name = s.roles name
  noSecret : ∀ name, (∀ payload, c ≠ .createSecret name payload) → s.live name = none →
    s'.live name = none
  noRole : ∀ name, (∀ trust, c ≠ .createRole name trust) → s.roles name = none →
    s'.roles name = none
  removes : c.Removes r s'

/-- Nothing changes of the secrets and the roles, but those of a tenant. -/
def Aws.Others (outputs : Outputs) (t : TenantId) (s s' : Aws) : Prop :=
  (∀ name, name ≠ secretName outputs t → s'.live name = s.live name) ∧
    ∀ name, name ≠ roleName outputs t → s'.roles name = s.roles name

/-- The outputs after a command: an apply of OpenTofu changes them, but not the prefix of the names,
    and no other command does. -/
def Cmd.Settles : Cmd → Outputs → Outputs → Prop
  | .host (.tofuApply _), o, o' => o'.prefix_ = o.prefix_
  | _, o, o' => o' = o

/-- The store is exact, a process changes the objects of its tenant, and leaves what it is for if
    it succeeds; an apply of OpenTofu changes the identity of the tenant `t`, which was added to
    its variables, by the names of `outputs`. -/
def estate (outputs : Outputs) (t : TenantId) : Handler cpSig Estate
  | .reg c, w, r, w' => (∃ now, c.run now w.registry = (r, w'.registry)) ∧
      w'.objects = w.objects ∧ w'.aws = w.aws ∧ w'.outputs = w.outputs
  | .aws c, w, r, w' => w'.registry = w.registry ∧ (∀ u, (w.objects u).Drifts (w'.objects u)) ∧
      c.Leaves w.aws r w'.aws ∧ w'.outputs = w.outputs
  | .shell c, w, r, w' => w'.registry = w.registry ∧ w.aws.Others outputs t w'.aws ∧
      (∀ u, c.touches ≠ some u → (w.objects u).Drifts (w'.objects u)) ∧
      (r = .exited 0 → ∀ u, c.touches = some u → c.Leaves (w.objects u) (w'.objects u)) ∧
      w'.outputs = w.outputs
  | c, w, r, w' => w'.registry = w.registry ∧ w.aws.Others outputs t w'.aws ∧
      (∀ u, (w.objects u).Drifts (w'.objects u)) ∧ Tells w.outputs c r ∅ ∧
      c.Settles w.outputs w'.outputs

/-! ## The names of an identity -/

theorem secretName_inj {outputs : Outputs} {t u : TenantId} :
    secretName outputs t = secretName outputs u ↔ t = u := by
  refine ⟨fun h => TenantId.ext ?_, fun h => h ▸ rfl⟩
  simpa [secretName] using h

theorem roleName_inj {outputs : Outputs} {t u : TenantId} :
    roleName outputs t = roleName outputs u ↔ t = u := by
  refine ⟨fun h => TenantId.ext ?_, fun h => h ▸ rfl⟩
  simpa [roleName] using h

/-- Names that depend on the prefix only. -/
theorem names_of_prefix {o o' : Outputs} (h : o.prefix_ = o'.prefix_) (t : TenantId) :
    secretName o t = secretName o' t ∧ roleName o t = roleName o' t ∧
      rolePolicyName o t = rolePolicyName o' t := by
  simp only [secretName, roleName, rolePolicyName, h, and_self]

/-! ## What is left as it was -/

/-- The command leaves the row and the identity of a tenant, of standing `s`: it deletes its
    secret or its role only if there is none. -/
def Apart (outputs : Outputs) (u : TenantId) (s : Standing) : Cmd → Prop
  | .reg (.upsert v _ _) | .reg (.delete v) => v ≠ u
  | .aws (.deleteSecret name _) => name = secretName outputs u → s.secret = none
  | .aws (.deleteRole name) | .aws (.deleteRolePolicy name _) =>
    name = roleName outputs u → s.role = none
  | .aws c => c.secret ≠ some (secretName outputs u) ∧ c.role ≠ some (roleName outputs u)
  | _ => True

/-- The command does not change the objects of a tenant. -/
def Afar (u : TenantId) (c : Cmd) : Prop := ∀ s, c = .shell s → s.touches ≠ some u

section

variable {outputs : Outputs} {t u : TenantId} {w w' : Estate} {c : Cmd} {r : cpSig.Resp c}

theorem estate_settles (hr : estate outputs t c w r w') : c.Settles w.outputs w'.outputs := by
  cases c with
  | reg c => exact hr.2.2.2
  | aws c => exact hr.2.2.2
  | shell c => exact hr.2.2.2.2
  | _ => exact hr.2.2.2.2

/-- The prefix of the names stays. -/
theorem estate_names (hr : estate outputs t c w r w') : w'.outputs.prefix_ = w.outputs.prefix_ := by
  have h := estate_settles hr
  unfold Cmd.Settles at h
  split at h
  · exact h
  · rw [h]

theorem Objects.Drifts.serving {o o' : Objects} (h : o.Drifts o') : o'.serving = o.serving := by
  ext1
  · exact map_of_unready (fun _ => rfl) (h .deploy)
  · exact h.isSome .ingress

/-- A command that leaves the objects of a tenant leaves it served as it was. -/
theorem Afar.keeps (hc : Afar u c) (hr : estate outputs t c w r w') :
    w'.serving u = w.serving u := by
  cases c with
  | reg c => exact congrArg (fun o => (o u).serving) hr.2.1
  | shell c => exact (hr.2.2.1 u (hc c rfl)).serving
  | aws c => exact (hr.2.1 u).serving
  | _ => exact (hr.2.2.1 u).serving

theorem standing_of_others (hu : t ≠ u) (hreg : w'.registry = w.registry)
    (h : w.aws.Others outputs t w'.aws) : w'.standing outputs u = w.standing outputs u := by
  have hsecret : secretName outputs u ≠ secretName outputs t := fun h =>
    hu (secretName_inj.1 h).symm
  have hrole : roleName outputs u ≠ roleName outputs t := fun h => hu (roleName_inj.1 h).symm
  ext1
  · exact congrArg (·.get u) hreg
  · exact h.1 _ hsecret
  · exact h.2 _ hrole

/-- A command that leaves the row and the identity of a tenant. -/
theorem Apart.keeps {s : Standing} (hu : t ≠ u) (hc : Apart outputs u s c)
    (hr : estate outputs t c w r w') (hs : w.standing outputs u = s) :
    w'.standing outputs u = s := by
  subst hs
  cases c with
  | reg c =>
    obtain ⟨⟨now, hrun⟩, -, haws, -⟩ := hr
    have hrow : w'.registry.get u = w.registry.get u := by
      obtain ⟨-, hreg⟩ := Prod.mk.inj hrun
      rw [← hreg]
      cases c with
      | get t | list => rfl
      | upsert v e f => exact Registry.upsert_get_ne hc
      | delete v => exact Registry.delete_get_ne hc
    rw [Estate.standing, Estate.standing, hrow, haws]
  | aws c =>
    obtain ⟨hreg, -, hr, -⟩ := hr
    have hrow : w'.registry.get u = w.registry.get u := congrArg (·.get u) hreg
    -- What a call names that is no deletion, or is there, is not of the tenant.
    have hsecret : w'.aws.live (secretName outputs u) = w.aws.live (secretName outputs u) := by
      by_cases hn : c.secret = some (secretName outputs u)
      · cases c with
        | deleteSecret name days =>
          have hnone := hc (Option.some.inj hn)
          exact (hr.noSecret _ nofun hnone).trans hnone.symm
        | createSecret name payload | tagSecret name v => exact absurd hn hc.1
        | _ => cases hn
      · exact hr.secrets _ hn
    have hrole : w'.aws.roles (roleName outputs u) = w.aws.roles (roleName outputs u) := by
      by_cases hn : c.role = some (roleName outputs u)
      · cases c with
        | deleteRole name | deleteRolePolicy name policy =>
          have hnone := hc (Option.some.inj hn)
          exact (hr.noRole _ nofun hnone).trans hnone.symm
        | updateAssumeRolePolicy name trust | createRole name trust | tagRole name v =>
          exact absurd hn hc.2
        | putRolePolicy name policy resource => exact absurd hn hc.2
        | _ => cases hn
      · exact hr.roles _ hn
    rw [Estate.standing, Estate.standing, hrow, hsecret, hrole]
  | _ => exact standing_of_others hu hr.1 hr.2.1

end

/-! ## The commands of the parts -/

/-- The command changes the objects of the tenant at most: it writes no row, and is none of the
    API nor of AWS. -/
def On (t : TenantId) : Cmd → Prop := Acts fun c => ∀ u, c.touches = some u → u = t

section On

variable {t u : TenantId} {outputs : Outputs} {c : Shell}

/-- A process in the namespace of the tenant changes the objects of no other one. -/
theorem touches_place (h : c.place = some t) (htouch : c.touches = some u) : u = t :=
  Option.some.inj ((Shell.place_of_touches htouch).symm.trans h)

theorem onboard_on (ip : String) (ids : List TenantId) (irsaRoles secrets : TidMap String) :
    (onboard t outputs ip ids irsaRoles secrets).Calls (On t) := by
  refine onboard_acts (fun c hc u htouch => ?_) (fun c hc u => touches_place hc) ip ids irsaRoles secrets
  exact absurd (Shell.place_of_touches htouch) (by simp [hc])

/-- The drop of a role changes no object of a release. -/
theorem revokeAttempts_on (u : TenantId) (last : String) (n : ℕ) :
    (revokeAttempts outputs u last n).Calls (On t) :=
  revokeAttempts_acts (fun c _ hc v htouch => by simp [hc] at htouch) u last n

end On

/-! ## The commands of the operations -/

/-- The command leaves a tenant of standing `s` as it is. -/
def Minds (outputs : Outputs) (u : TenantId) (s : Standing) (c : Cmd) : Prop :=
  Apart outputs u s c ∧ Afar u c

section

variable {outputs : Outputs} {t u : TenantId} {s : Standing} {c : Cmd} {α : Type} {p : CP α}

theorem On.apart (h : On t c) : Apart outputs u s c := by
  unfold Apart
  split <;> first | exact h.elim | trivial

theorem On.minds (hu : t ≠ u) (h : On t c) : Minds outputs u s c := by
  refine ⟨h.apart, ?_⟩
  rintro sh rfl htouch
  exact hu (h u htouch).symm

theorem minds_of_on (hu : t ≠ u) (hp : p.Calls (On t)) : p.Calls (Minds outputs u s) :=
  hp.imp fun _ => On.minds hu

theorem upsert_minds (hu : t ≠ u) (f : Fields) :
    (TenantStore.upsert t f).Calls (Minds outputs u s) :=
  ⟨⟨hu, fun _ h => (nomatch h)⟩, fun r => calls_result r⟩

/-- The identity of another tenant is created. -/
theorem Creating.minds {o : Outputs} (hu : t ≠ u) (ho : o.prefix_ = outputs.prefix_)
    (h : Creating o t c) : Minds outputs u s c := by
  obtain ⟨hsecrets, hroles, -⟩ := names_of_prefix ho t
  have hsecret : secretName o t ≠ secretName outputs u := fun h =>
    hu (secretName_inj.1 (hsecrets.symm.trans h))
  have hrole : roleName o t ≠ roleName outputs u := fun h =>
    hu (roleName_inj.1 (hroles.symm.trans h))
  refine ⟨?_, ?_⟩
  · unfold Creating at h
    split at h
    · exact ⟨nofun, nofun⟩
    · trivial
    · trivial
    · exact ⟨nofun, nofun⟩
    · exact fun hn => absurd (h.symm.trans hn) hsecret
    · exact ⟨fun hn => hsecret (h.symm.trans (Option.some.inj hn)), nofun⟩
    · exact ⟨nofun, nofun⟩
    · exact ⟨nofun, fun hn => hrole (h.symm.trans (Option.some.inj hn))⟩
    · exact ⟨nofun, fun hn => hrole (h.1.symm.trans (Option.some.inj hn))⟩
    · exact ⟨nofun, fun hn => hrole (h.1.symm.trans (Option.some.inj hn))⟩
    · exact h.elim
  · rintro _ rfl
    exact h.elim

theorem suspendTenant_minds (hu : t ≠ u) : (suspendTenant t).Calls (Minds outputs u s) := by
  refine .bind (minds_of_on hu (get_acts t)) fun item => ?_
  cases item with
  | none => trivial
  | some item =>
    refine .ite (fun _ => trivial) fun _ => .ite (fun _ => trivial) fun _ => ?_
    refine .bind (minds_of_on hu (lifecycleRun_acts fun _ => touches_place rfl)) fun _ => ?_
    refine .bind (minds_of_on hu (runOk_acts fun _ => touches_place rfl)) fun _ => ?_
    exact upsert_minds hu _

theorem resumeTenant_minds (hu : t ≠ u) : (resumeTenant t).Calls (Minds outputs u s) := by
  refine .bind (minds_of_on hu (get_acts t)) fun item => ?_
  cases item with
  | none => trivial
  | some item =>
    refine .ite (fun _ => trivial) fun _ => .ite (fun _ => trivial) fun _ => ?_
    refine .bind (minds_of_on hu tofuOutputs_acts) fun _ => .bind (minds_of_on hu list_acts) fun _ => ?_
    refine .ite (fun _ => trivial) fun _ => .bind (minds_of_on hu nodeIp_acts) fun _ => ?_
    refine .bind (minds_of_on hu (onboard_on _ _ _ _)) fun _ => ?_
    refine .bind (minds_of_on hu (lifecycleRun_acts fun _ => touches_place rfl)) fun _ => ?_
    refine .bind (minds_of_on hu (lifecycleRun_acts fun _ => touches_place rfl)) fun _ => ?_
    exact .bind (minds_of_on hu (edgeUrl_acts _ _)) fun _ => upsert_minds hu _

theorem aws_minds {c : AwsCall} {g : c.Resp → Except Exn α}
    (hc : Apart outputs u s (.aws c)) :
    (Prog.call (.aws c) fun r => result (g r) : CP α).Calls (Minds outputs u s) :=
  ⟨⟨hc, fun _ h => (nomatch h)⟩, fun r => calls_result (g r)⟩

end

/-! ## The platform tenant of a provisioning -/

/-- The identity is to be created by the control plane. -/
def ProvisionArgs.owns (args : ProvisionArgs) : Bool :=
  !args.ensureInfraFlag && args.ensureIdentityFlag

/-- The tenants a provisioning onboards with, besides those of OpenTofu: the others that own
    their identity, and the tenant if it is to own its. -/
def owners (s : Registry) (t : TenantId) (owns : Bool) : TidMap Identity :=
  let others := (cpIdentities s.list).erase t
  if owns then others.insert t ⟨none, none, none⟩ else others

/-- The platform tenant, which a provisioning onboards first. -/
def provisionPlatform (outputs : Outputs) (args : ProvisionArgs) (s : Registry) (t : TenantId) :
    TenantId :=
  platformTenant outputs (mergeIdentityMaps outputs (owners s t args.owns)).ids

section

variable {outputs : Outputs} {s : Registry} {t u : TenantId}

/-- The ids merged are those of the tenants given. -/
theorem mergeIdentityMaps_ids (extra : TidMap Identity) : (mergeIdentityMaps outputs extra).ids =
    extra.keys.foldl (fun ids u => if u ∈ ids then ids else ids ++ [u]) outputs.tenantIds := by
  have hfold (l : List (TenantId × Identity)) (m : IdentityMaps) : (l.foldl .add m).ids =
      (l.map Prod.fst).foldl (fun ids u => if u ∈ ids then ids else ids ++ [u]) m.ids := by
    induction l generalizing m with
    | nil => rfl
    | cons p l ih => exact ih _
  rw [← Std.ExtTreeMap.map_fst_toList_eq_keys]
  exact hfold _ _

/-- The ids merged depend on the tenants only. -/
theorem mergeIdentityMaps_ids_congr {m m' : TidMap Identity} (h : ∀ u, u ∈ m ↔ u ∈ m') :
    (mergeIdentityMaps outputs m).ids = (mergeIdentityMaps outputs m').ids := by
  have hunit : (m.map fun _ _ => ()) = m'.map fun _ _ => () :=
    Std.ExtTreeMap.ext_mem_unit fun u => by simpa using h u
  have hkeys := congrArg Std.ExtTreeMap.keys hunit
  rw [Std.ExtTreeMap.keys_map, Std.ExtTreeMap.keys_map] at hkeys
  rw [mergeIdentityMaps_ids, mergeIdentityMaps_ids, hkeys]

/-- The tenants whose identity is recorded. -/
theorem mem_cpIdentities :
    u ∈ cpIdentities s.list ↔ ∃ row, s.get u = some row ∧ row.ownsIdentity := by
  rw [cpIdentities, Std.ExtTreeMap.mem_ofList, List.contains_iff_mem, List.mem_map]
  constructor
  · rintro ⟨⟨v, i⟩, hv, rfl⟩
    obtain ⟨⟨v', row⟩, hrow, h⟩ := List.mem_filterMap.1 hv
    split_ifs at h with howns
    obtain ⟨rfl, -⟩ := Prod.mk.inj (Option.some.inj h)
    exact ⟨row, Registry.mem_list.1 hrow, howns⟩
  · rintro ⟨row, hrow, howns⟩
    exact ⟨(u, row.identity), List.mem_filterMap.2 ⟨(u, row), Registry.mem_list.2 hrow,
      if_pos howns⟩, rfl⟩

/-- The ids given to the onboarding are those of the tenants a provisioning onboards with. -/
theorem extraIdentities_ids {row : Row} {i : Identity} {owns : Bool} (hrow : row.identity = i)
    (howns : i.ownedBy = some "control_plane" ↔ owns = true) :
    (mergeIdentityMaps outputs (extraIdentities (Registry.list (s.insert t row)) t i)).ids =
      (mergeIdentityMaps outputs (owners s t owns)).ids := by
  have hself : Registry.get (s.insert t row) t = some row := Registry.get_insert_self
  have hother {u : TenantId} (hu : t ≠ u) :
      u ∈ cpIdentities (Registry.list (s.insert t row)) ↔ u ∈ cpIdentities s.list := by
    rw [mem_cpIdentities, mem_cpIdentities, Registry.get_insert_ne hu]
  refine mergeIdentityMaps_ids_congr fun u => ?_
  cases ho : owns with
  | true =>
    rw [extraIdentities, owners, if_pos (howns.2 ho), if_pos rfl, Std.ExtTreeMap.mem_insert,
      Std.ExtTreeMap.mem_insert, Std.ExtTreeMap.mem_erase]
    rcases eq_or_ne t u with rfl | hu
    · simp
    · simp [hother hu, hu]
  | false =>
    have hnot : i.ownedBy ≠ some "control_plane" := fun h => by simp [howns.1 h] at ho
    rw [extraIdentities, owners, if_neg hnot, if_neg (by simp), Std.ExtTreeMap.mem_erase]
    rcases eq_or_ne t u with rfl | hu
    · rw [mem_cpIdentities, hself]
      have hrow' : row.ownedBy ≠ some "control_plane" := fun h => hnot (hrow ▸ h)
      simp [Row.ownsIdentity, hrow']
    · simp [hother hu, hu]

end

/-! ## The stages of provisioning -/

section

variable {outputs : Outputs} {t u v : TenantId} {w : Estate} {α β : Type} {p : CP α} {s : Standing}
  {sv : Serving} {Q : β → Estate → Prop}

/-- A tenant of standing `s` is served as `sv`, and the names are those of `outputs`. -/
structure Stays (outputs : Outputs) (u : TenantId) (s : Standing) (sv : Serving) (w : Estate) :
    Prop where
  standing : w.standing outputs u = s
  serving : w.serving u = sv
  names : w.outputs.prefix_ = outputs.prefix_

/-- The commands of a program on the estate. -/
def onEstate (outputs : Outputs) (t : TenantId) : Contract cpSig Estate :=
  keeping (estate outputs t) fun _ => True

theorem returns_bind {V : α → Estate → Prop} {f : α → CP β}
    (hp : p.wp (onEstate outputs t) (returns V) w)
    (hf : ∀ a w', V a w' → (f a).wp (onEstate outputs t) (returns Q) w') :
    (p >>= f).wp (onEstate outputs t) (returns Q) w :=
  wp.bind hp hf fun _ _ _ => trivial

/-- What holds of the world of every outcome. -/
theorem returns_of_always {I : Estate → Prop} (hp : p.wp (onEstate outputs t) (fun _ => I) w) :
    p.wp (onEstate outputs t) (returns fun _ => I) w :=
  hp.imp fun x _ h => by cases x <;> first | exact h | trivial

/-- A program nothing is asked of, then a program. -/
theorem returns_seq {f : α → CP β} (hf : ∀ a w', (f a).wp (onEstate outputs t) (returns Q) w') :
    (p >>= f).wp (onEstate outputs t) (returns Q) w :=
  returns_bind (V := fun _ _ => True) (returns_of_always
    (wp_of_forall (fun _ _ => trivial) (fun _ _ => trivial) p)) fun a w' _ => hf a w'

/-- Commands that leave a tenant as it is. -/
theorem stays_of_minds (hu : t ≠ u) (hp : p.Calls (Minds outputs u s))
    (hw : Stays outputs u s sv w) :
    p.wp (onEstate outputs t) (fun _ => Stays outputs u s sv) w :=
  hp.wp (fun _ _ hc hw => ⟨trivial, fun _ _ hr =>
    ⟨hc.1.keeps hu hr hw.standing, (hc.2.keeps hr).trans hw.serving,
      (estate_names hr).trans hw.names⟩⟩) hw

/-- Commands on the objects of another tenant. -/
theorem stays_of_on (hu : t ≠ u) (hv : v ≠ u) (hp : p.Calls (On v)) (hw : Stays outputs u s sv w) :
    p.wp (onEstate outputs t) (fun _ => Stays outputs u s sv) w :=
  stays_of_minds hu (hp.imp fun _ => On.minds hv) hw

/-- Commands on the objects of some tenant leave the standing of all. -/
theorem standing_of_on (hu : t ≠ u) (hp : p.Calls (On v)) (hw : w.standing outputs u = s) :
    p.wp (onEstate outputs t) (fun _ w' => w'.standing outputs u = s) w :=
  hp.wp (fun _ _ hc hw => ⟨trivial, fun _ _ hr => (On.apart hc).keeps hu hr hw⟩) hw

/-- Any commands leave the prefix of the names. -/
theorem prefix_of_any {o : Outputs} (p : CP α) (hw : w.outputs.prefix_ = o.prefix_) :
    p.wp (onEstate outputs t) (fun _ w' => w'.outputs.prefix_ = o.prefix_) w := by
  have hany : p.Calls fun _ => True := calls_iff.2 (wp_of_forall (fun _ _ => trivial)
    (fun _ _ => trivial) p)
  exact hany.wp (I := fun (w : Estate) => w.outputs.prefix_ = o.prefix_)
    (fun _ _ _ hw => ⟨trivial, fun _ _ hr => (estate_names hr).trans hw⟩) hw

/-- Another command leaves the outputs. -/
theorem Cmd.Settles.eq {c : Cmd} {o o' : Outputs} (h : c.Settles o o')
    (hc : ∀ ip, c ≠ .host (.tofuApply ip)) : o' = o := by
  unfold Cmd.Settles at h
  split at h
  · exact absurd rfl (hc _)
  · exact h

/-- The command is no apply of OpenTofu. -/
def Unapplied (c : Cmd) : Prop := ∀ ip, c ≠ .host (.tofuApply ip)

theorem Acts.unapplied {S : Shell → Prop} {c : Cmd} (h : Acts S c) : Unapplied c := by
  rintro ip rfl
  exact h

/-- Without an apply, the outputs stay. -/
theorem outputs_of_unapplied {o : Outputs} (hp : p.Calls Unapplied) (hw : w.outputs = o) :
    p.wp (onEstate outputs t) (fun _ w' => w'.outputs = o) w :=
  hp.wp (I := fun (w : Estate) => w.outputs = o) (fun _ _ hc hw =>
    ⟨trivial, fun _ _ hr => ((estate_settles hr).eq hc).trans hw⟩) hw

/-- Commands that do not change the objects of a tenant. -/
theorem serving_of_afar (hp : p.Calls (Afar v)) (hw : w.serving v = sv) :
    p.wp (onEstate outputs t) (fun _ w' => w'.serving v = sv) w :=
  hp.wp (fun _ _ hc hw => ⟨trivial, fun _ _ hr => (hc.keeps hr).trans hw⟩) hw

/-- Commands that write no row leave the registry. -/
theorem registry_of_quiet {reg : Registry} (hp : p.Calls Quiet) (hw : w.registry = reg) :
    p.wp (onEstate outputs t) (fun _ w' => w'.registry = reg) w := by
  refine hp.wp (I := fun (w : Estate) => w.registry = reg) (fun c w hc hw =>
    ⟨trivial, fun r w' hr => ?_⟩) hw
  cases c with
  | reg c =>
    obtain ⟨⟨now, hrun⟩, -⟩ := hr
    obtain ⟨-, hreg⟩ := Prod.mk.inj hrun
    cases c with
    | get t | list => exact hreg.symm.trans hw
    | upsert t v f | delete t => exact hc.elim
  | app c => exact hc.elim
  | _ => exact hr.1.trans hw

/-- The outputs read are those that OpenTofu has, before and after the reading. -/
theorem tofuOutputs_returns : tofuOutputs.wp (onEstate outputs t)
    (returns fun o w' => o = w.outputs ∧ w'.outputs = w.outputs) w := by
  refine ⟨trivial, fun r w' hr => ?_⟩
  cases r with
  | error e => trivial
  | ok o => exact ⟨hr.2.2.2.1 o rfl, hr.2.2.2.2⟩

/-- The row of the tenant is written. -/
theorem upsert_returns {f : Fields} (hf : f.Valid) {reg : Registry} (hw : w.registry = reg) :
    (TenantStore.upsert t f).wp (onEstate outputs t)
      (returns fun _ w' => ∃ now, w'.registry = reg.insert t (reg.written now t f)) w := by
  subst hw
  refine ⟨trivial, fun r w' hr => ?_⟩
  obtain ⟨⟨now, hrun⟩, -⟩ := hr
  rw [RegCmd.run, Registry.upsert_valid hf] at hrun
  obtain ⟨rfl, hreg⟩ := Prod.mk.inj hrun
  exact ⟨now, hreg.symm⟩

theorem list_returns {reg : Registry} (hw : w.registry = reg) :
    TenantStore.list.wp (onEstate outputs t) (returns fun rows _ => rows = reg.list) w := by
  subst hw
  refine ⟨trivial, fun r w' hr => ?_⟩
  obtain ⟨⟨now, hrun⟩, -⟩ := hr
  exact (Prod.mk.inj hrun).1.symm

/-- An identity created is owned by the control plane. -/
theorem ensureTenantIdentity_returns (o : Outputs) :
    (ensureTenantIdentity o u).wp (onEstate outputs t)
      (returns fun i _ => i.ownedBy = some "control_plane") w := by
  rw [ensureTenantIdentity]
  refine withRetry_wp (fun w => ?_) 5 w
  refine exceptClientError_wp ?_ fun _ _ _ _ => trivial
  refine (wp_ite _ _ _).2 ⟨fun _ => trivial, fun _ => ?_⟩
  refine (wp_ite _ _ _).2 ⟨fun _ => trivial, fun _ => ?_⟩
  refine returns_seq fun _ w => returns_seq fun _ w => returns_seq fun _ w => ?_
  exact returns_seq fun _ w => returns_seq fun _ w => rfl

/-- The outputs read, of which those after an apply may be others than those before it. -/
theorem tofuOutputs_current : tofuOutputs.wp (onEstate outputs t)
    (returns fun o w' => w'.outputs = o) w :=
  tofuOutputs_returns.imp fun x w' h => by
    cases x with
    | error e => trivial
    | ok o => exact h.2.trans h.1.symm

/-- The outputs are read last, after the apply if there is one. -/
theorem ensureInfra_returns (myIp : Option String) : (ensureInfra u myIp).wp (onEstate outputs t)
    (returns fun o w' => w'.outputs = o) w := by
  refine returns_seq fun tfvars w => (wp_ite _ _ _).2 ⟨fun _ => trivial, fun _ => ?_⟩
  refine returns_seq fun changed w => returns_bind tofuOutputs_current fun o w ho => ?_
  refine (wp_ite _ _ _).2 ⟨fun _ => returns_seq fun _ w => tofuOutputs_current, fun _ => ho⟩

/-- The outputs that OpenTofu has then, the identity ensured, and who owns it. -/
theorem ensureIdentity_returns (args : ProvisionArgs) :
    (ensureIdentity u args).wp (onEstate outputs t) (returns fun a w' => w'.outputs = a.1 ∧
      (a.2.ownedBy = some "control_plane" ↔ args.owns = true)) w := by
  refine (wp_ite _ _ _).2 ⟨fun hinfra => ?_, fun hinfra => ?_⟩
  · refine returns_bind (ensureInfra_returns _) fun o w ho => ⟨ho, ?_⟩
    simp [tofuIdentity, ProvisionArgs.owns, hinfra]
  · refine returns_bind tofuOutputs_current fun o w ho => ?_
    refine (wp_ite _ _ _).2 ⟨fun hid => ?_, fun hid => ?_⟩
    · have hunapplied : (ensureTenantIdentity o u).Calls Unapplied :=
        ensureTenantIdentity_creating.imp fun c hc ip h => by subst h; exact hc
      have hid' : (ensureTenantIdentity o u).wp (onEstate outputs t)
          (returns fun i w' => w'.outputs = o ∧ i.ownedBy = some "control_plane") w := by
        refine ((outputs_of_unapplied hunapplied ho).and (ensureTenantIdentity_returns o)).imp ?_
        rintro (e | i) w' h
        · trivial
        · exact h
      refine returns_bind hid' fun i w' h => ⟨h.1, ?_⟩
      simp [h.2, ProvisionArgs.owns, hinfra, hid]
    · refine (wp_ite _ _ _).2 ⟨fun _ => trivial, fun _ => ?_⟩
      refine (wp_ite _ _ _).2 ⟨fun _ => trivial, fun _ => ?_⟩
      refine (wp_ite _ _ _).2 ⟨fun _ => trivial, fun _ => ⟨ho, ?_⟩⟩
      simp [tofuIdentity, ProvisionArgs.owns, hid]

/-- The outputs of OpenTofu, with the names of `outputs`, and of which the rest of a program leaves a
    tenant as it is. -/
theorem stays_of_outputs {f : Outputs → CP β} (hu : t ≠ u) (hw : Stays outputs u s sv w)
    (hf : ∀ o w', o.prefix_ = outputs.prefix_ → Stays outputs u s sv w' →
      (f o).wp (onEstate outputs t) (fun _ => Stays outputs u s sv) w') :
    (tofuOutputs >>= f).wp (onEstate outputs t) (fun _ => Stays outputs u s sv) w := by
  refine ((stays_of_on hu hu tofuOutputs_acts hw).and tofuOutputs_returns).bind ?_ fun e w' h => h.1
  rintro o w' ⟨hw', rfl, -⟩
  exact hf _ w' hw.names hw'

/-- OpenTofu is applied for another tenant. -/
theorem ensureInfra_minds (myIp : Option String) :
    (ensureInfra t myIp).Calls (Minds outputs u s) := by
  have hhost (c : HostCmd) : Minds outputs u s (.host c) := ⟨trivial, fun _ h => nomatch h⟩
  have houtputs : tofuOutputs.Calls (Minds outputs u s) := ⟨hhost _, fun r => calls_result r⟩
  refine .bind ⟨hhost _, fun _ => trivial⟩ fun tfvars => .ite (fun _ => trivial) fun _ => ?_
  dsimp only
  refine .bind ⟨hhost _, fun r => calls_result r⟩ fun changed => .bind houtputs fun _ => ?_
  refine .ite (fun _ => .bind (.bind ?_ fun _ => ?_) fun _ => houtputs) fun _ => trivial
  · exact .ite (fun _ => trivial) fun _ => ⟨hhost _, fun r => calls_result r⟩
  · exact ⟨hhost _, fun r => calls_result r⟩

/-- The identity of a tenant is ensured without changing another one. -/
theorem ensureIdentity_keeps (hu : t ≠ u) (args : ProvisionArgs) (hw : Stays outputs u s sv w) :
    (ensureIdentity t args).wp (onEstate outputs t) (fun _ => Stays outputs u s sv) w := by
  refine (wp_ite _ _ _).2 ⟨fun _ => ?_, fun _ => ?_⟩
  · exact stays_of_minds hu (.bind (ensureInfra_minds _) fun _ => trivial) hw
  · refine stays_of_outputs hu hw fun o w ho hw =>
      stays_of_minds hu (.ite (fun _ => ?_) fun _ => ?_) hw
    · exact .bind (ensureTenantIdentity_creating.imp fun _ => Creating.minds hu ho) fun _ => trivial
    · refine .ite (fun _ => trivial) fun _ => .ite (fun _ => trivial) fun _ => ?_
      exact .ite (fun _ => trivial) fun _ => trivial

/-- The edge of a release is an Ingress if there is a controller for it. -/
theorem edgeSets_returns (o : Outputs) (ip : String) (ids : List TenantId) :
    (edgeSets v o ip ids).wp (onEstate outputs t)
      (returns fun edge _ => ∀ values : HelmValues, values.edge = edge →
        values.ingressEnabled = o.albController) w := by
  refine (wp_ite _ _ _).2 ⟨fun halb => ?_, fun halb => ?_⟩
  · refine returns_seq fun _ w => (wp_ite _ _ _).2 ⟨fun _ => trivial, fun _ => ?_⟩
    refine returns_seq fun myIp w values h => ?_
    rw [HelmValues.ingressEnabled, h, halb]
  · refine (wp_ite _ _ _).2 ⟨fun _ => trivial, fun _ => ?_⟩
    cases o.tenantNodePorts[v]? with
    | none => trivial
    | some port =>
      intro values h
      rw [HelmValues.ingressEnabled, h]
      simpa using halb

/-- Onboarding leaves the tenant served by a release. -/
theorem onboard_serves (o : Outputs) (ip : String) (ids : List TenantId)
    (irsa secrets : TidMap String) : (onboard v o ip ids irsa secrets).wp (onEstate outputs t)
      (returns fun _ w' => w'.serving v = ⟨some 1, o.albController⟩) w := by
  unfold onboard
  split
  · refine returns_seq fun region w => returns_seq fun host w => ?_
    refine returns_bind (edgeSets_returns o ip _) fun edge w hedge => ?_
    refine returns_seq fun _ w => returns_seq fun _ w => returns_seq fun _ w => ?_
    refine returns_seq fun migrate w => ?_
    refine returns_bind (V := fun _ w => w.serving v = ⟨some 1, o.albController⟩) ?_
      fun _ w hw => ?_
    · refine ⟨trivial, fun r w' hr => ?_⟩
      cases r with
      | exited code =>
        refine (wp_ite _ _ _).2 ⟨fun h₀ => ?_, fun _ => trivial⟩
        have hrel : Released _ (w'.objects v) := hr.2.2.2.1 (by rw [h₀]) v rfl
        exact Serving.ext hrel.replicas (hrel.ingress.trans (hedge _ rfl))
      | _ => trivial
    · -- Waiting for the migrate Job changes no object of the tenant.
      refine returns_of_always (serving_of_afar (.ite (fun _ => ?_) fun _ => trivial) hw)
      refine ⟨?_, fun r => ?_⟩
      · rintro _ ⟨⟩
        exact nofun
      · cases r with
        | exited code => exact .ite (fun _ => trivial) fun _ => trivial
        | _ => trivial
  · trivial

end

/-! ## The operations -/

section

variable {outputs : Outputs} {t u : TenantId} {w : Estate} {s : Standing} {sv : Serving}

theorem Registry.insert_insert_self (reg : Registry) (t : TenantId) (row row' : Row) :
    Std.ExtTreeMap.insert (Std.ExtTreeMap.insert reg t row) t row' = reg.insert t row' := by
  refine Registry.ext fun v => ?_
  rcases eq_or_ne t v with rfl | hv
  · rw [Registry.get_insert_self, Registry.get_insert_self]
  · rw [Registry.get_insert_ne hv, Registry.get_insert_ne hv, Registry.get_insert_ne hv]

/-- A tenant is served by a release once it is onboarded, as the platform tenant. -/
theorem onboardPlatform_returns (hu : t ≠ u) (o : Outputs) (platform : TenantId) (ip : String)
    (maps : IdentityMaps) (hw : Stays outputs u s sv w) :
    (onboardPlatform t platform o ip maps).wp (onEstate outputs t)
      (returns fun _ => Stays outputs u s
        (if platform = u then ⟨some 1, o.albController⟩ else sv)) w := by
  refine (wp_ite _ _ _).2 ⟨fun _ => ?_, fun hself => ?_⟩
  · by_cases hp : platform = u
    · subst hp
      rw [if_pos rfl]
      have hon : (onboard platform o ip maps.ids maps.irsa maps.secrets).Calls (On platform) :=
        onboard_on ..
      have hstanding := standing_of_on hu hon hw.standing
      refine ((hstanding.and (prefix_of_any _ hw.names)).and (onboard_serves ..)).imp
        fun x w' h => ?_
      cases x with
      | error e => trivial
      | ok a => exact ⟨h.1.1, h.2, h.1.2⟩
    · rw [if_neg hp]
      exact returns_of_always (stays_of_on hu hp (onboard_on ..) hw)
  · -- The tenant is the platform tenant itself.
    rw [if_neg fun h => hu ((not_not.1 hself).trans h)]
    exact hw

/-- The serving of a tenant after another one was provisioned. -/
def servingAfter (outputs : Outputs) (args : ProvisionArgs) (reg : Registry) (t u : TenantId)
    (sv : Serving) : Serving :=
  if provisionPlatform outputs args reg t = u then ⟨some 1, outputs.albController⟩ else sv

/-- Once the identity is ensured, OpenTofu is applied no more. -/
theorem provisionRest_unapplied (args : ProvisionArgs) (o : Outputs) (i : Identity) :
    (do
      let _ ← TenantStore.upsert t (withIdentity (provisioning args.tier) i)
      let rows ← TenantStore.list
      let maps := mergeIdentityMaps o (extraIdentities rows t i)
      let ip ← nodeIp
      onboardAll t o ip maps
      let alb ← edgeUrl o t 600
      let _ ← TenantStore.upsert t (provisioned t args.tier alb i) : CP Unit).Calls Unapplied := by
  have hacts {α : Type} {p : CP α} (hp : p.Calls (Acts fun _ => True)) : p.Calls Unapplied :=
    hp.imp fun _ => Acts.unapplied
  have hupsert (f : Fields) : (TenantStore.upsert t f).Calls Unapplied :=
    ⟨nofun, fun r => calls_result r⟩
  have honboard (v : TenantId) (ip : String) (ids : List TenantId) (irsa secrets : TidMap String) :
      (onboard v o ip ids irsa secrets).Calls Unapplied :=
    hacts (onboard_acts (fun _ _ => trivial) (fun _ _ => trivial) ip ids irsa secrets)
  refine .bind (hupsert _) fun _ => .bind (hacts list_acts) fun rows => ?_
  refine .bind (hacts nodeIp_acts) fun ip => .bind (.bind ?_ fun _ => honboard ..) fun _ => ?_
  · exact .ite (fun _ => honboard ..) fun _ => trivial
  · exact .bind (hacts (edgeUrl_acts t 600)) fun alb => .bind (hupsert _) fun _ => trivial

/-- The steps leave the other tenant served as the platform tenant of the outputs that OpenTofu has
    at the end. -/
theorem provisionSteps_returns (hu : t ≠ u) (args : ProvisionArgs) {reg : Registry} {row : Row}
    (hreg : w.registry = reg.insert t row) (hw : Stays outputs u s sv w) :
    (provisionSteps t args).wp (onEstate outputs t) (returns fun _ w' =>
      Stays outputs u s (servingAfter w'.outputs args reg t u sv) w') w := by
  refine ((ensureIdentity_keeps hu args hw).and ((registry_of_quiet (ensureIdentity_quiet args)
    hreg).and (ensureIdentity_returns args))).bind ?_ fun _ _ _ => trivial
  rintro ⟨o, i⟩ w ⟨hw, hreg, ho, howns⟩
  -- The outputs stay those of the last reading, so it is enough to serve by these.
  refine wp.imp (Q := fun x w' => w'.outputs = o ∧ returns (fun _ =>
    Stays outputs u s (servingAfter o args reg t u sv)) x w')
    ((outputs_of_unapplied (provisionRest_unapplied args o i) ho).and ?_) fun x w' h => ?_
  rotate_left
  · obtain ⟨hout, h⟩ := h
    cases x with
    | error e => trivial
    | ok a =>
      subst hout
      exact h
  refine ((stays_of_minds hu (upsert_minds hu _) hw).and (upsert_returns
    (by simp [withIdentity, provisioning]) hreg)).bind ?_ fun _ _ _ => trivial
  rintro _ w ⟨hw, now, hreg⟩
  -- The row recorded is the last one written.
  obtain ⟨row', hrow', hreg⟩ :
      ∃ row' : Row, row'.identity = i ∧ w.registry = reg.insert t row' := by
    refine ⟨_, ?_, hreg.trans (Registry.insert_insert_self ..)⟩
    rw [Registry.written_identity]
    rfl
  refine ((stays_of_on hu hu list_acts hw).and (list_returns hreg)).bind ?_ fun _ _ _ => trivial
  rintro rows w ⟨hw, rfl⟩
  have hplatform : platformTenant o (mergeIdentityMaps o
      (extraIdentities (Registry.list (reg.insert t row')) t i)).ids =
        provisionPlatform o args reg t :=
    congrArg (platformTenant o) (extraIdentities_ids hrow' howns)
  refine returns_bind (returns_of_always (stays_of_on hu hu nodeIp_acts hw)) fun ip w hw => ?_
  refine returns_bind (V := fun _ => Stays outputs u s (servingAfter o args reg t u sv)) ?_
    fun _ w hw => ?_
  · refine returns_bind (onboardPlatform_returns hu o _ ip _ hw) fun _ w hw => ?_
    rw [hplatform] at hw
    exact returns_of_always (stays_of_on hu hu (onboard_on ..) hw)
  refine returns_bind (returns_of_always (stays_of_on hu hu (edgeUrl_acts t 600) hw))
    fun alb w hw => ?_
  exact returns_bind (returns_of_always (stays_of_minds hu (upsert_minds hu _) hw)) fun _ w hw => hw

theorem provision_returns (hu : t ≠ u) (args : ProvisionArgs) (hw : Stays outputs u s sv w) :
    (provision t args).wp (onEstate outputs t) (returns fun _ w' =>
      Stays outputs u s (servingAfter w'.outputs args w.registry t u sv) w') w := by
  refine ((stays_of_minds hu (upsert_minds hu _) hw).and (upsert_returns
    (by simp [provisioning]) rfl)).bind ?_ fun _ _ _ => trivial
  rintro _ w' ⟨hw', now, hreg⟩
  refine (wp_tryCatch _ _).2 ((provisionSteps_returns hu args hreg hw').imp fun x w'' h => ?_)
  cases x with
  | ok a => exact h
  | error e => exact returns_seq fun _ w => trivial

end

section

variable {outputs : Outputs} {t u : TenantId} {w w' : Estate} {s : Standing} {sv : Serving}
  {item : Identity}

/-- What the identity recorded for a tenant claims of another one is not there. -/
def Spared (outputs : Outputs) (t u : TenantId) (item : Identity) (s : Standing) : Prop :=
  item.ownedBy = some "control_plane" →
    (rowSecret outputs t item.secretName = secretName outputs u → s.secret = none) ∧
      (arnRole item.irsaRoleArn (roleName outputs t) = roleName outputs u → s.role = none)

theorem recordStep_minds (hu : t ≠ u) (step : String) :
    (recordStep t step).Calls (Minds outputs u s) := .bind (upsert_minds hu _) fun _ => trivial

theorem deleteIdentity_minds (hu : t ≠ u) (hs : Spared outputs t u item s) :
    (deleteIdentity outputs t item).Calls (Minds outputs u s) := by
  refine .ite (fun ho => ?_) fun _ => trivial
  obtain ⟨hsecret, hrole⟩ := hs ho
  have hpolicy : Apart outputs u s (.aws (.deleteRolePolicy (arnRole item.irsaRoleArn
      (roleName outputs t)) (rolePolicyName outputs t))) := hrole
  have hdelete : Apart outputs u s (.aws (.deleteRole (arnRole item.irsaRoleArn
      (roleName outputs t)))) := hrole
  have hdays (days : ℕ) : Apart outputs u s (.aws (.deleteSecret (rowSecret outputs t
      item.secretName) days)) := hsecret
  have hwindow : secretRecoveryWindowDays.Calls (On t) := ⟨trivial, fun r => by cases r <;> trivial⟩
  refine .bind (.bind (unlessGone_calls (aws_minds hpolicy) _) fun _ =>
    unlessGone_calls (aws_minds hdelete) _) fun _ => ?_
  refine .bind (recordStep_minds hu _) fun _ => .bind (unlessGone_calls ?_ _) fun _ =>
    recordStep_minds hu _
  exact .bind (minds_of_on hu hwindow) fun days => aws_minds (hdays days)

/-- The names in a deletion depend on the prefix only. -/
theorem deleteIdentity_names {o : Outputs} (ho : o.prefix_ = outputs.prefix_) (item : Identity) :
    deleteIdentity o t item = deleteIdentity outputs t item := by
  obtain ⟨hsecret, hrole, hpolicy⟩ := names_of_prefix ho t
  unfold deleteIdentity deleteTenantIrsa deleteTenantSecret rowSecret
  rw [hsecret, hrole, hpolicy]

theorem teardown_keeps (hu : t ≠ u) (hs : Spared outputs t u item s)
    (hw : Stays outputs u s sv w) :
    (teardown t item).wp (onEstate outputs t) (fun _ => Stays outputs u s sv) w := by
  have haccess : (disableApplicationAccess t).Calls (On t) :=
    disableApplicationAccess_acts fun _ hc _ => touches_place hc
  refine (stays_of_on hu hu haccess hw).bind (fun _ w hw => ?_) fun _ _ hw => hw
  refine (stays_of_minds hu (recordStep_minds hu _) hw).bind (fun _ w hw => ?_) fun _ _ hw => hw
  refine stays_of_outputs hu hw fun o w ho hw => stays_of_minds hu ?_ hw
  rw [deleteIdentity_names ho]
  refine .bind (minds_of_on hu (revokeAttempts_on t _ 3)) fun _ => ?_
  refine .bind (recordStep_minds hu _) fun _ => ?_
  refine .bind (minds_of_on hu (deleteKubernetes_acts fun _ hc _ => touches_place hc)) fun _ => ?_
  refine .bind (recordStep_minds hu _) fun _ => .bind (deleteIdentity_minds hu hs) fun _ => ?_
  exact .bind ⟨⟨hu, fun _ h => (nomatch h)⟩, fun _ => trivial⟩ fun _ => trivial

/-- The identity a row records. -/
def recordedIdentity (reg : Registry) (t : TenantId) : Identity :=
  (reg.get t).elim ⟨none, none, none⟩ Row.identity

/-- A deletion that spares another tenant leaves it as it is. -/
theorem deleteTenant_keeps (hu : t ≠ u) (hs : Spared outputs t u (recordedIdentity w.registry t) s)
    (hw : Stays outputs u s sv w) :
    (deleteTenant t).wp (onEstate outputs t) (fun _ => Stays outputs u s sv) w := by
  rw [deleteTenant_eq]
  refine ⟨trivial, fun row w' hr => ?_⟩
  have hw' := (stays_of_on hu hu (get_acts t) hw).2 row w' hr
  obtain ⟨⟨now, hrun⟩, -⟩ := hr
  obtain ⟨rfl, -⟩ := Prod.mk.inj hrun
  refine (stays_of_minds hu (upsert_minds hu _) hw').bind (fun _ w hw => ?_) fun _ _ hw => hw
  refine (wp_tryCatch _ _).2 ((teardown_keeps hu hs hw).imp fun x w hw => ?_)
  cases x with
  | ok a => exact hw
  | error e => exact stays_of_minds hu (.bind (upsert_minds hu _) fun _ => trivial) hw

/-- The secret and the role of a tenant are gone, as far as they are told to be. -/
def Taken (outputs : Outputs) (u : TenantId) (N : Finset Resource) (w : Estate) : Prop :=
  (.secret (secretName outputs u) ∈ N → w.aws.live (secretName outputs u) = none) ∧
    (.iamRole (roleName outputs u) ∈ N → w.aws.roles (roleName outputs u) = none)

/-- What a call of AWS tells to be gone is. -/
theorem AwsCall.Removes.told {c : AwsCall} {r : c.Resp} {aws : Aws} (h : c.Removes r aws)
    (probe : Bool) :
    (∀ name, .secret name ∈ told probe (.aws c) r → aws.live name = none) ∧
      ∀ name, .iamRole name ∈ told probe (.aws c) r → aws.roles name = none := by
  cases c with
  | deleteSecret name days =>
    by_cases hg : goneBy ["ResourceNotFoundException", "InvalidRequestException"] r <;>
      simp_all [NtierLab.told, Removes]
  | deleteRole name => by_cases hg : goneBy ["NoSuchEntity"] r <;> simp_all [NtierLab.told, Removes]
  | _ => simp [NtierLab.told]

/-- Other commands tell of no secret and of no role. -/
theorem told_of_other {c : Cmd} {r : cpSig.Resp c} {probe : Bool} (hc : ∀ a, c ≠ .aws a)
    (name : String) : .secret name ∉ told probe c r ∧ .iamRole name ∉ told probe c r := by
  unfold told
  split <;> first | (exfalso; exact hc _ rfl) | split_ifs <;> simp | simp

/-- A command that leaves the identity of a tenant leaves it taken. -/
theorem Taken.of_standing {N : Finset Resource} (h : Taken outputs u N w)
    (hs : w'.standing outputs u = w.standing outputs u) : Taken outputs u N w' :=
  ⟨fun hx => (congrArg Standing.secret hs).trans (h.1 hx),
    fun hx => (congrArg Standing.role hs).trans (h.2 hx)⟩

/-- A command of a deletion leaves the outputs. -/
theorem Tearing.unapplied {c : Cmd} (hc : Tearing outputs t item c) : Unapplied c := by
  rintro ip rfl
  exact hc

/-- What a deletion told to be erased stays so, and the outputs stay as they were. -/
theorem erasing_estate (hu : t ≠ u) : Erasing outputs t item false (onEstate outputs t)
    fun N w => w.outputs = outputs ∧ Taken outputs u N w where
  call {c N w} hc h := by
    refine ⟨trivial, fun r w' hr => ⟨(estate_settles hr).eq hc.unapplied |>.trans h.1, ?_⟩⟩
    replace h := h.2
    have hother (hc : ∀ a, c ≠ .aws a) (hw : Taken outputs u N w') :
        Taken outputs u (told false c r ∪ N) w' :=
      ⟨fun hx => hw.1 ((Finset.mem_union.1 hx).resolve_left (told_of_other hc _).1),
        fun hx => hw.2 ((Finset.mem_union.1 hx).resolve_left (told_of_other hc _).2)⟩
    cases c with
    | aws c =>
      obtain ⟨-, -, hl, -⟩ := hr
      have htold := hl.removes.told false
      -- A command of a deletion creates neither a secret nor a role.
      have hcreate : ∀ x, x ∉ Cmd.effect (.aws c) ∅ := fun x hx =>
        Finset.notMem_empty _ ((hc.erased (fun _ h => by cases h) ∅).subset hx)
      refine ⟨fun hx => ?_, fun hx => ?_⟩
      · rcases Finset.mem_union.1 hx with hx | hx
        · exact htold.1 _ hx
        · refine hl.noSecret _ ?_ (h.1 hx)
          rintro payload rfl
          exact hcreate _ (Finset.mem_insert_self _ _)
      · rcases Finset.mem_union.1 hx with hx | hx
        · exact htold.2 _ hx
        · refine hl.noRole _ ?_ (h.2 hx)
          rintro trust rfl
          exact hcreate _ (Finset.mem_insert_self _ _)
    | reg c =>
      obtain ⟨-, -, haws, -⟩ := hr
      refine hother nofun ⟨fun hx => ?_, fun hx => ?_⟩
      · rw [haws]
        exact h.1 hx
      · rw [haws]
        exact h.2 hx
    | _ => exact hother nofun (h.of_standing (standing_of_others hu hr.1 hr.2.1))
  anti hN h := ⟨h.1, fun hx => h.2.1 (hN hx), fun hx => h.2.2 (hN hx)⟩
  outputs h hr := fun o ho => (hr.2.2.2.1 o ho).trans h.1

/-- A deletion that returns has deleted what its row claimed. -/
theorem deleteTenant_takes (hu : t ≠ u) (hw : w.outputs = outputs) :
    (deleteTenant t).wp (onEstate outputs t) (returns fun _ => Taken outputs u
      (ownedResources outputs t (recordedIdentity w.registry t))) w := by
  have hT : Erasing outputs t (recordedIdentity w.registry t) false (onEstate outputs t)
    fun N w => w.outputs = outputs ∧ Taken outputs u N w := erasing_estate hu
  have hnone (w : Estate) : Taken outputs u ∅ w :=
    ⟨fun hx => absurd hx (Finset.notMem_empty _), fun hx => absurd hx (Finset.notMem_empty _)⟩
  rw [deleteTenant_eq]
  refine ⟨trivial, fun row w' hr => ?_⟩
  obtain ⟨⟨now, hrun⟩, -, -, hout⟩ := hr
  obtain ⟨rfl, -⟩ := Prod.mk.inj hrun
  refine wp.imp (hT.deleteFrom_tears (X := ∅) (Q := Taken outputs u (ownedResources outputs t
    (recordedIdentity w.registry t))) (fun N => ?_) (fun w hw => ⟨trivial, ?_⟩) ⟨hout.trans hw, hnone w'⟩) ?_
  · rw [Finset.empty_union]
    exact hT.tears deleteKubernetes_tearing N
  · rintro r w' ⟨-, -, haws, -⟩
    refine ⟨fun hx => ?_, fun hx => ?_⟩
    · rw [haws]
      exact hw.2.1 (Finset.mem_union_left _ hx)
    · rw [haws]
      exact hw.2.2 (Finset.mem_union_left _ hx)
  · rintro (e | a) w hw
    · trivial
    · exact hw

end

/-- An operation on a tenant. -/
inductive TenantOperation
  | provision (args : ProvisionArgs)
  | suspend
  | resume
  | delete

namespace TenantOperation

def prog (t : TenantId) : TenantOperation → CP Unit
  | provision args => NtierLab.provision t args
  | suspend => do
    let _ ← suspendTenant t
  | resume => do
    let _ ← resumeTenant t
  | delete => deleteTenant t

/-- The operation finds the other tenant as it leaves it: the platform tenant, by the outputs at the
    end, served by a release, if it is onboarded again, and nothing of it to delete. -/
def Spares (outputs : Outputs) (t u : TenantId) (w : Estate) : TenantOperation → Prop
  | provision args => provisionPlatform outputs args w.registry t = u →
      w.serving u = ⟨some 1, outputs.albController⟩
  | suspend | resume => True
  | delete => Spared w.outputs t u (recordedIdentity w.registry t) (w.standing w.outputs u)

variable {t u : TenantId} {w w' : Estate} {tr : Trace cpSig}

/-- An operation that returns leaves the row, the replicas, the Ingress and the identity of
    another tenant, exactly if it finds them as it leaves them. -/
theorem local_iff (hu : t ≠ u) {op : TenantOperation}
    (hx : Exec (estate w.outputs t) (op.prog t) w tr (.ok ()) w') :
    w'.standing w.outputs u = w.standing w.outputs u ∧ w'.serving u = w.serving u ↔
      op.Spares w'.outputs t u w := by
  have hstays : Stays w.outputs u (w.standing w.outputs u) (w.serving u) w := ⟨rfl, rfl, rfl⟩
  cases op with
  | provision args =>
    have h := hx.keeps (provision_returns hu args hstays)
    rw [Spares, h.standing, h.serving, servingAfter, and_iff_right rfl]
    split_ifs with hp
    · rw [forall_prop_of_true hp, eq_comm]
    · exact iff_of_true rfl fun h => absurd h hp
  | suspend =>
    have h := hx.keeps (stays_of_minds hu (.bind (suspendTenant_minds hu) fun _ => trivial) hstays)
    exact iff_of_true ⟨h.standing, h.serving⟩ trivial
  | resume =>
    have h := hx.keeps (stays_of_minds hu (.bind (resumeTenant_minds hu) fun _ => trivial) hstays)
    exact iff_of_true ⟨h.standing, h.serving⟩ trivial
  | delete =>
    constructor
    · -- What the row claims has been deleted: if nothing changed, it was not there.
      rintro ⟨h, -⟩ ho
      have htaken := hx.keeps (deleteTenant_takes hu rfl)
      have hres : ownedResources w.outputs t (recordedIdentity w.registry t) = _ := if_pos ho
      rw [hres] at htaken
      refine ⟨fun hs => ?_, fun hr => ?_⟩
      · exact (congrArg Standing.secret h).symm.trans (htaken.1 (by simp [hs]))
      · exact (congrArg Standing.role h).symm.trans (htaken.2 (by simp [hr]))
    · intro hs
      have h := hx.keeps (deleteTenant_keeps hu hs hstays)
      exact ⟨h.standing, h.serving⟩

end TenantOperation

/-- The outputs after an apply for `b`. -/
def appliedFor (o : Outputs) : Outputs :=
  { o with
    tenantIds := o.tenantIds ++ [.b]
    tenantIrsaRoleArns := o.tenantIrsaRoleArns.insert .b
      "arn:aws:iam::123456789012:role/ntier-dev-tenant-b"
    tenantSecretNames := o.tenantSecretNames.insert .b "ntier-dev/rds/tenant-b" }

/-- An estate in which all succeeds but scaling. -/
def working : (c : Cmd) → Estate → cpSig.Resp c × Estate
  | .host .tofuOutputs, w => (.ok w.outputs, w)
  | .host (.tofuApply _), w => (.ok (), { w with outputs := appliedFor w.outputs })
  | .reg c, w => ((c.run "now" w.registry).1, { w with registry := (c.run "now" w.registry).2 })
  | .shell (.scale _ _), w => (.exited 1, w)
  | .shell (.helmUpgrade v), w =>
    let release : Objects := fun k => if k = .ingress ∧ ¬v.ingressEnabled then none
      else some { specReplicas := 1, readyReplicas := 1, roleArn := v.irsa }
    (.exited 0, { w with objects := fun t => if t = v.tenant then release else w.objects t })
  | .aws (.deleteSecret name _), w =>
    (.ok (), { w with aws := { w.aws with secrets := Function.update w.aws.secrets name none } })
  | .aws (.deleteRole name), w =>
    (.ok (), { w with aws := { w.aws with roles := Function.update w.aws.roles name none } })
  | c, w => (succeeding c, w)

theorem working_step (o : Outputs) (t : TenantId) (c : Cmd) (w : Estate) :
    estate o t c w (working c w).1 (working c w).2 := by
  have hothers : w.aws.Others o t w.aws := ⟨fun _ _ => rfl, fun _ _ => rfl⟩
  have hdrift (u : TenantId) : (w.objects u).Drifts (w.objects u) := fun _ => rfl
  cases c with
  | reg c => exact ⟨⟨"now", rfl⟩, rfl, rfl, rfl⟩
  | app c => exact ⟨rfl, hothers, hdrift, trivial, rfl⟩
  | host c =>
    cases c with
    | tofuOutputs => exact ⟨rfl, hothers, hdrift, fun o h => (Except.ok.inj h).symm, rfl⟩
    | _ => exact ⟨rfl, hothers, hdrift, trivial, rfl⟩
  | kube c =>
    cases c with
    | dropJobConditions p d =>
      exact ⟨rfl, hothers, hdrift, fun _ _ _ => Finset.notMem_empty _, rfl⟩
    | _ => exact ⟨rfl, hothers, hdrift, trivial, rfl⟩
  | shell c =>
    cases c with
    | scale v n => exact ⟨rfl, hothers, fun u _ => hdrift u, nofun, rfl⟩
    | helmUpgrade v =>
      refine ⟨rfl, hothers, fun u hv => ?_, fun _ u hv => ?_, rfl⟩
      · have hne : u ≠ v.tenant := fun h => hv (congrArg some h.symm)
        simpa [working, hne] using hdrift u
      · obtain rfl := Option.some.inj hv
        exact {
          there := fun k hk => by simp [working, hk]
          ingress := by cases h : v.ingressEnabled <;> simp [working, h]
          replicas := by simp [working]
          role := by simp [working] }
    | _ => exact ⟨rfl, hothers, fun u _ => hdrift u, fun _ _ _ => trivial, rfl⟩
  | aws c =>
    have hreg : (working (.aws c) w).2.registry = w.registry := by cases c <;> rfl
    have hobjects : (working (.aws c) w).2.objects = w.objects := by cases c <;> rfl
    have hout : (working (.aws c) w).2.outputs = w.outputs := by cases c <;> rfl
    refine ⟨hreg, fun u => hobjects ▸ hdrift u, ?_, hout⟩
    cases c with
    | deleteSecret name days =>
      have hgone (name' : String) : name' ≠ name →
          (working (.aws (.deleteSecret name days)) w).2.aws.live name' = w.aws.live name' := by
        intro hne
        simp [working, Aws.live, Function.update_of_ne hne]
      have hnone : (working (.aws (.deleteSecret name days)) w).2.aws.live name = none := by
        simp [working, Aws.live]
      exact {
        secrets := fun name' hn => hgone name' fun h => hn (congrArg some h.symm)
        roles := fun _ _ => rfl
        noSecret := fun name' _ h => by
          rcases eq_or_ne name' name with rfl | hne
          · exact hnone
          · exact (hgone name' hne).trans h
        noRole := fun _ _ h => h
        removes := fun _ => hnone }
    | deleteRole name =>
      have hgone (name' : String) : name' ≠ name →
          (working (.aws (.deleteRole name)) w).2.aws.roles name' = w.aws.roles name' :=
        fun hne => Function.update_of_ne hne _ _
      have hnone : (working (.aws (.deleteRole name)) w).2.aws.roles name = none :=
        Function.update_self ..
      exact {
        secrets := fun _ _ => rfl
        roles := fun name' hn => hgone name' fun h => hn (congrArg some h.symm)
        noSecret := fun _ _ h => h
        noRole := fun name' _ h => by
          rcases eq_or_ne name' name with rfl | hne
          · exact hnone
          · exact (hgone name' hne).trans h
        removes := fun _ => hnone }
    | _ => exact ⟨fun _ _ => rfl, fun _ _ => rfl, fun _ _ h => h, fun _ _ h => h, trivial⟩

/-- A platform tenant, whose workload has some replicas and an Ingress or not. -/
def platformAt (st : Status) (replicas : ℤ) (ingress : Bool) : Estate where
  registry := (Registry.upsert ∅ "now" .a none (withIdentity
    { status := some st } ⟨some "control_plane", some "ntier-dev/rds/tenant-a",
      some "arn:aws:iam::123456789012:role/ntier-dev-tenant-a"⟩)).2
  objects t k :=
    if t = .a ∧ (k = .ingress → ingress) then some { specReplicas := replicas } else none
  aws := ⟨fun _ => none, fun _ => none⟩
  outputs := labOutputs

/-- Another tenant is provisioned, and OpenTofu is applied for it. -/
def newcomer (w : Estate) : Trace cpSig × Except Exn Unit × Estate :=
  (provision .b { ensureInfraFlag := true }).eval (fun _ : Unit => working) (fun _ => ()) 0 w

theorem newcomer_exec (w : Estate) : Exec (estate w.outputs .b)
    (TenantOperation.prog .b (.provision { ensureInfraFlag := true })) w (newcomer w).1
    (newcomer w).2.1 (newcomer w).2.2 :=
  exec_eval (fun _ => working_step w.outputs .b) (fun _ => ()) _ 0 w

theorem newcomer_ok (st : Bool) : (newcomer (platformAt (if st then .active else .suspended)
    (if st then 1 else 0) st)).2.1 = .ok () := by
  cases st <;> decide +kernel

/-- The controller of the Ingress is there, after the apply too. -/
theorem newcomer_alb :
    (newcomer (platformAt .active 1 true)).2.2.outputs.albController = true := by
  decide +kernel

/-- The platform tenant is up, and stays as it is. -/
theorem local_iff_up : (newcomer (platformAt .active 1 true)).2.2.standing labOutputs .a =
      (platformAt .active 1 true).standing labOutputs .a ∧
    (newcomer (platformAt .active 1 true)).2.2.serving .a =
      (platformAt .active 1 true).serving .a := by
  have hx := newcomer_exec (platformAt .active 1 true)
  rw [show (newcomer (platformAt .active 1 true)).2.1 = .ok () from newcomer_ok true] at hx
  refine (TenantOperation.local_iff (by decide) hx).2 fun _ => ?_
  rw [newcomer_alb]
  rfl

/-- The platform tenant is suspended, and gets its replica and its Ingress back. -/
theorem revived : ¬∀ (t u : TenantId) (op : TenantOperation) (w w' : Estate) (tr : Trace cpSig),
    t ≠ u → Exec (estate w.outputs t) (op.prog t) w tr (.ok ()) w' →
    w'.standing w.outputs u = w.standing w.outputs u ∧ w'.serving u = w.serving u := by
  intro h
  have hx := newcomer_exec (platformAt .suspended 0 false)
  rw [show (newcomer (platformAt .suspended 0 false)).2.1 = .ok () from newcomer_ok false] at hx
  have hs := congrArg Serving.replicas (h .b .a _ _ _ _ (by decide) hx).2
  have hafter : ((newcomer (platformAt .suspended 0 false)).2.2.serving .a).replicas = some 1 := by
    decide +kernel
  rw [hafter] at hs
  cases hs

end NtierLab
