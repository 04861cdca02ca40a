import NtierLab.ControlPlane.Tearing

/-!
# Deleting again

A deletion that failed or crashed is run again, in a prompt cloud. The first attempts
only ever erase what an uninterrupted deletion erases (`deleteTenant_attempt`), so that
the last one ends in the same world, if it gets there: the Job that drops the role
runs in the namespace of the platform tenant, which is gone once the platform tenant
itself was torn down so far (`deleteTenant_retry_iff`).
-/

namespace NtierLab

open Prog

/-! ## The first attempts -/

section

variable (outputs : Outputs) (t : TenantId) (item : Identity) (A N : Finset Resource)

/-- A deletion under way, from the resources `A`: those in `N` are gone. -/
structure Torn (w : Cloud) : Prop where
  identity : w.identity t = item
  erased : Erased A (torn outputs t item) w.resources
  gone : Disjoint w.resources N

/-- A deletion under way, or past the removal of the row. -/
structure Attempted (w : Cloud) : Prop where
  erased : Erased A (torn outputs t item) w.resources
  identity : w.identity t = item ∨
    w.identity t = ⟨none, none, none⟩ ∧ Disjoint w.resources (ownedResources outputs t item)

/-- A deletion that returned: the row is gone, with the database role and the identity. -/
structure Ended (w : Cloud) : Prop where
  row : w.registry.get t = none
  erased : Erased A (torn outputs t item) w.resources
  gone : Disjoint w.resources (ownedResources outputs t item ∪ {.dbRole t.role})

/-- A deletion, whose every command leaves it attempted. -/
abbrev attempting : Contract cpSig Cloud :=
  keeping (lossy outputs) (Attempted outputs t item A)

end

variable {outputs : Outputs} {t : TenantId} {item : Identity} {A N : Finset Resource}
  {w w' : Cloud} {c : Cmd} {r : cpSig.Resp c}

/-- What is torn down is attempted. -/
theorem Torn.attempted (h : Torn outputs t item A N w) : Attempted outputs t item A w :=
  ⟨h.erased, .inl h.identity⟩

/-- What has ended was attempted. -/
theorem Ended.attempted (h : Ended outputs t item A w) : Attempted outputs t item A w where
  erased := h.erased
  identity := .inr ⟨by rw [Cloud.identity, h.row]; rfl,
    h.gone.mono_right Finset.subset_union_left⟩

/-- A command of a deletion keeps a deletion under way. -/
theorem Torn.step (hc : Tearing outputs t item c) (hr : lossy outputs c w r w')
    (h : Torn outputs t item A N w) : Torn outputs t item A N w' := by
  have hres (hreg : w'.registry = w.registry)
      (he : Erased w.resources (torn outputs t item) w'.resources) : Torn outputs t item A N w' := by
    refine ⟨?_, h.erased.trans he, h.gone.mono_left he.subset⟩
    rw [Cloud.identity, hreg]
    exact h.identity
  cases c with
  | reg c =>
    obtain ⟨⟨now, hrun⟩, hres⟩ := hr
    refine ⟨?_, hres ▸ h.erased, hres ▸ h.gone⟩
    rw [← h.identity, Cloud.identity, Cloud.identity]
    cases c with
    | get u =>
      obtain ⟨-, hreg⟩ := Prod.mk.inj hrun
      rw [← hreg]
    | upsert u v f =>
      obtain ⟨rfl, rfl, hf, ho, hs, hi⟩ := hc
      rw [RegCmd.run, Registry.upsert_valid hf] at hrun
      obtain ⟨-, hreg⟩ := Prod.mk.inj hrun
      rw [← hreg, Registry.get_insert_self, Option.elim_some, Registry.written_identity, ho, hs, hi]
      cases w.registry.get u <;> rfl
    | list => exact hc.elim
    | delete u => exact hc.elim
  | _ =>
    obtain ⟨hreg, hres' | hres', -⟩ := hr
    · exact hres hreg (hres' ▸ .refl)
    · exact hres hreg (hres' ▸ hc.erased (fun _ h => by cases h) _)

/-- An attempt erases what is torn down, and fails at any command. -/
theorem erasing_attempting :
    Erasing outputs t item false (attempting outputs t item A) (Torn outputs t item A) where
  call hc h := by
    refine ⟨h.attempted, fun r w' hr => ?_⟩
    have hw := h.step hc hr
    refine ⟨hw.identity, hw.erased, Finset.disjoint_union_right.2 ⟨?_, hw.gone⟩⟩
    rename_i c _ _
    cases c with
    | reg c => exact Finset.disjoint_empty_right _
    | _ => exact Tells.disjoint hr.2.2
  anti hN h := ⟨h.identity, h.erased, h.gone.mono_right hN⟩
  outputs _ hr := hr.2.2

/-- A deletion ends finished, or failed with everything else still under way. -/
theorem deleteTenant_attempt (w : Cloud) :
    (deleteTenant t).wp (attempting outputs t (w.identity t) w.resources)
      (outcome (fun _ => Ended outputs t (w.identity t) w.resources)
        fun _ => Torn outputs t (w.identity t) w.resources ∅) w := by
  have h : Torn outputs t (w.identity t) w.resources ∅ w :=
    ⟨rfl, .refl, Finset.disjoint_empty_right _⟩
  rw [deleteTenant_eq]
  refine ⟨h.attempted, ?_⟩
  rintro item w' ⟨⟨now, hrun⟩, hres⟩
  obtain ⟨rfl, hreg⟩ := Prod.mk.inj hrun
  obtain rfl : w' = w := Cloud.ext hreg.symm hres
  refine erasing_attempting.deleteFrom_tears (X := ∅) (fun N => ?_) (fun w hw => ?_) h
  · rw [Finset.empty_union]
    exact erasing_attempting.tears deleteKubernetes_tearing N
  · refine ⟨hw.attempted, ?_⟩
    rintro r w' ⟨⟨now, hrun⟩, hres⟩
    obtain ⟨-, hreg⟩ := Prod.mk.inj hrun
    rw [Finset.empty_union] at hw
    exact ⟨hreg ▸ Registry.delete_get_self, hres ▸ hw.erased, hres ▸ hw.gone⟩

/-- A world left by an attempt at a deletion. -/
theorem Attempted.of_reaches (h : Reaches (lossy outputs) (deleteTenant t) w w') :
    Attempted outputs t (w.identity t) w.resources w' :=
  h.keeps ((deleteTenant_attempt w).imp fun x _ hx => match x with
    | .error _ => hx.attempted
    | .ok _ => hx.attempted)

/-- Attempts one after the other. -/
theorem Attempted.trans {w₀ : Cloud} (h : Attempted outputs t item w₀.resources w)
    (h' : Attempted outputs t (w.identity t) w.resources w') :
    Attempted outputs t item w₀.resources w' := by
  rcases h.identity with hid | ⟨hid, hgone⟩
  · rw [hid] at h'
    exact ⟨h.erased.trans h'.erased, h'.identity⟩
  · -- The row was removed: what is left to erase is the workload and the database role.
    rw [hid] at h'
    have htorn : torn outputs t ⟨none, none, none⟩ ⊆ torn outputs t item :=
      Finset.union_subset_union le_rfl (by simp [ownedResources])
    refine ⟨h.erased.trans (h'.erased.mono htorn), .inr ⟨?_, hgone.mono_left h'.erased.subset⟩⟩
    exact h'.identity.elim id And.left

/-! ## The last attempt -/

/-- The platform tenant. -/
def Outputs.platform (outputs : Outputs) : TenantId := outputs.platformTenantId.getD .a

/-- The platform's namespace is there, and the outputs of the migrator are set. -/
structure Ready (outputs : Outputs) (w : Cloud) : Prop where
  platform : .ns outputs.platform ∈ w.resources
  migrator : outputs.migratorIrsaRoleArn ≠ ""
  master : outputs.rdsSecretName ≠ ""

section

variable {α : Type} {p : CP α} {R : Finset Resource → Prop}

/-- A program in a prompt cloud. -/
abbrev prompting (outputs : Outputs) : Contract cpSig Cloud :=
  keeping (prompt outputs) fun _ => True

/-- The program returns, with resources in `R`. -/
def Returns (outputs : Outputs) (p : CP α) (R : Finset Resource → Prop) (w : Cloud) : Prop :=
  p.wp (prompting outputs) (outcome (fun _ w' => R w'.resources) fun _ _ => False) w

/-- What returns goes on with what returns. -/
theorem Returns.bind {β : Type} {f : α → CP β} {R' : Finset Resource → Prop}
    (R : Finset Resource → Prop) (hp : Returns outputs p R w)
    (hf : ∀ a w', R w'.resources → Returns outputs (f a) R' w') :
    Returns outputs (p >>= f) R' w :=
  wp.bind hp hf fun _ _ h => h

/-- A process whose result is dropped returns. -/
theorem runOk_returns {c : Shell} (hc : ∀ rs, Cmd.prompted (.shell c) rs = rs)
    (hw : R w.resources) : Returns outputs (runOk c) R w := by
  refine ⟨trivial, ?_⟩
  rintro r w' ⟨-, hres, hans, -⟩
  rw [hc] at hres
  have hcode : ∃ code, r = .exited code := by
    cases c <;> exact hans.imp fun _ h => h.1
  obtain ⟨code, rfl⟩ := hcode
  show R w'.resources
  rwa [hres]

/-- A process that creates an object in a namespace that is there. -/
theorem run_returns {c : Shell} {q : TenantId} (hc : c.createsIn = some q)
    (hq : .ns q ∈ w.resources) (hw : R (Cmd.effect (.shell c) w.resources)) :
    Returns outputs (run c) R w := by
  refine ⟨trivial, ?_⟩
  rintro r w' ⟨-, hres, hans, -⟩
  rw [Cmd.prompted, hc, Option.all_some, decide_eq_true hq, if_pos rfl] at hres
  have hcode : r = .exited 0 := by
    cases c <;> simp_all [Shell.createsIn, Prompts]
  subst hcode
  show R w'.resources
  rwa [hres]

/-- A step is recorded. -/
theorem recordStep_returns (step : String) (hw : R w.resources) :
    Returns outputs (recordStep t step) R w := by
  refine ⟨trivial, ?_⟩
  rintro r w' ⟨⟨now, hrun⟩, hres⟩
  rw [RegCmd.run, Registry.upsert_valid (by simp)] at hrun
  obtain ⟨rfl, -⟩ := Prod.mk.inj hrun
  show R w'.resources
  rwa [hres]

/-- The polling sees the Job complete. -/
theorem pollDropJob_returns (q : TenantId) (d : DropName) {n : ℕ} (hn : 0 < n) :
    Returns outputs (pollDropJob q d n) (fun _ => True) w := by
  obtain ⟨n, rfl⟩ := Nat.exists_eq_succ_of_ne_zero hn.ne'
  refine ⟨trivial, ?_⟩
  rintro r w' ⟨-, -, ⟨conds, rfl, hc⟩, -⟩
  refine (wp_ite _ _ _).2 ⟨fun _ => ?_, fun h => absurd hc h⟩
  change Returns outputs (runOk (.dropJobLogs q d) >>= fun _ => _) (fun _ => True) w'
  exact Returns.bind (fun _ => True) (runOk_returns (fun _ => rfl) trivial) fun _ _ _ => trivial

/-- The objects of the Job are deleted. -/
theorem deleteDropObjects_returns (q : TenantId) (d : DropName) (hw : R w.resources) :
    Returns outputs (deleteDropObjects q d) R w := by
  refine Returns.bind R (runOk_returns (fun _ => rfl) hw) fun _ w hw => ?_
  exact Returns.bind R (runOk_returns (fun _ => rfl) hw) fun _ w hw => hw

/-- The role is dropped, if the platform tenant has its namespace. -/
theorem dropPostgresRole_returns (h : Ready outputs w) :
    Returns outputs (dropPostgresRole outputs t) (fun _ => True) w := by
  have hsa : Returns outputs (ensureMigratorSa outputs outputs.platform)
      (.ns outputs.platform ∈ ·) w := by
    refine (wp_ite _ _ _).2 ⟨fun hm => absurd hm h.migrator, fun _ => ?_⟩
    exact run_returns (c := .applyMigratorSa outputs.platform outputs.migratorIrsaRoleArn)
      (R := (.ns outputs.platform ∈ ·)) rfl h.platform h.platform
  refine Returns.bind _ hsa fun _ w hw => (wp_ite _ _ _).2 ⟨fun hm => absurd hm h.master, fun _ => ?_⟩
  refine ⟨trivial, ?_⟩
  rintro suffix w' ⟨-, hres, -⟩
  have hw' : .ns outputs.platform ∈ w'.resources := hres ▸ hw
  change Returns outputs (run _ >>= fun _ => _) (fun _ => True) w'
  refine Returns.bind (.ns outputs.platform ∈ ·)
    (run_returns (c := .createDropConfigMap outputs.platform ⟨t, suffix⟩) rfl hw' hw')
    fun _ w hw => ?_
  change Returns outputs (run _ >>= fun _ => _) (fun _ => True) w
  refine Returns.bind (fun _ => True) (run_returns rfl hw trivial) fun _ w _ => ⟨trivial, ?_⟩
  rintro n w' ⟨-, -, hn, -⟩
  refine (wp_ensuring _ _).2 ((pollDropJob_returns _ _ hn).imp ?_)
  rintro (e | a) w hw
  · exact hw.elim
  · change Returns outputs (deleteDropObjects _ _) (fun _ => True) w
    exact deleteDropObjects_returns _ _ trivial

/-- The first attempt is enough. -/
theorem revokePostgresRole_returns (h : Ready outputs w) :
    Returns outputs (revokePostgresRole outputs t) (fun _ => True) w :=
  (wp_tryCatch _ _).2 ((dropPostgresRole_returns h).imp fun x _ hx => match x with
    | .ok _ => hx
    | .error _ => hx.elim)

/-- The namespace is deleted. -/
theorem deleteKubernetes_returns : Returns outputs (deleteKubernetes t) (.ns t ∉ ·) w := by
  refine Returns.bind (fun _ => True) (runOk_returns (fun _ => rfl) trivial) fun _ w _ => ?_
  refine ⟨trivial, ?_⟩
  rintro r w' ⟨-, hres, ⟨code, rfl, hcode⟩, -⟩
  have hns : .ns t ∈ w'.resources ↔ code = 0 := by rw [hres]; exact hcode.symm
  refine (wp_ite _ _ _).2 ⟨fun hc => ⟨trivial, ?_⟩, fun hc => ?_⟩
  · rintro r w'' ⟨-, hres', ⟨code', rfl, hcode'⟩, -⟩
    obtain rfl : code' = 0 := hcode'.2 (hns.2 (by simpa using hc))
    show .ns t ∉ w''.resources
    rw [hres']
    exact Finset.notMem_erase _ _
  · exact fun h => hc (by simpa using hns.1 h)

/-- A call on what is gone is forgiven. -/
theorem unlessGone_returns {c : AwsCall} {k : cpSig.Resp (.aws c) → CP Unit} {gone : List String}
    (hk : ∀ r, Prompts outputs w.resources (.aws c) r → ∃ x, k r = result x ∧ goneBy gone x = true)
    (hw : R (Cmd.effect (.aws c) w.resources)) :
    Returns outputs (unlessGone (.call (.aws c) k) gone) R w := by
  refine (wp_unlessGone _ _).2 ⟨trivial, ?_⟩
  rintro r w' ⟨-, hres, hans, -⟩
  obtain ⟨x, hx, hg⟩ := hk r hans
  rw [hx, wp_result, if_pos hg]
  show R w'.resources
  rwa [hres]

/-- The identity is deleted. -/
theorem deleteIdentity_returns (hw : .ns t ∉ w.resources) :
    Returns outputs (deleteIdentity outputs t item) (.ns t ∉ ·) w := by
  rw [deleteIdentity]
  have herase (x : Resource) {rs : Finset Resource} (h : .ns t ∉ rs) : .ns t ∉ rs.erase x :=
    fun h' => h (Finset.mem_of_mem_erase h')
  refine (wp_ite _ _ _).2 ⟨fun _ => ?_, fun _ => hw⟩
  have hirsa : Returns outputs (deleteTenantIrsa outputs t item.irsaRoleArn) (.ns t ∉ ·) w := by
    refine Returns.bind (.ns t ∉ ·) ?_ fun _ w hw => ?_
    · exact unlessGone_returns (c := .deleteRolePolicy _ _) (fun r hr => ⟨r, rfl, hr⟩) hw
    · exact unlessGone_returns (c := .deleteRole _) (fun r hr => ⟨r, rfl, hr⟩) (herase _ hw)
  change Returns outputs _ (.ns t ∉ ·) w
  refine Returns.bind _ hirsa fun _ w hw => ?_
  refine Returns.bind (.ns t ∉ ·) (recordStep_returns _ hw) fun _ w hw => ?_
  have hsecret : Returns outputs (deleteTenantSecret outputs t item.secretName) (.ns t ∉ ·) w := by
    refine (wp_unlessGone _ _).2 ⟨trivial, ?_⟩
    rintro r w' ⟨-, hres, ⟨days, rfl⟩, -⟩
    refine ⟨trivial, ?_⟩
    rintro r w'' ⟨-, hres', hr, -⟩
    refine (wp_result _).2 ((if_pos hr).mpr ?_)
    show .ns t ∉ w''.resources
    rw [hres']
    exact herase _ (hres ▸ hw)
  exact Returns.bind _ hsecret fun _ w hw => recordStep_returns _ hw

/-- Access is disabled, without a Deployment too. -/
theorem disableApplicationAccess_returns (hw : R w.resources) :
    Returns outputs (disableApplicationAccess t) R w := by
  refine Returns.bind R (runOk_returns (fun _ => rfl) hw) fun _ w hw => ?_
  exact Returns.bind R (runOk_returns (fun _ => rfl) hw) fun _ w hw => hw

/-- A teardown that is ready returns, with the namespace gone. -/
theorem teardown_returns (h : Ready outputs w) :
    Returns outputs (teardown t item) (.ns t ∉ ·) w := by
  refine Returns.bind (.ns outputs.platform ∈ ·) (disableApplicationAccess_returns h.platform)
    fun _ w hw => ?_
  refine Returns.bind (.ns outputs.platform ∈ ·) (recordStep_returns _ hw) fun _ w hw => ⟨trivial, ?_⟩
  rintro r w' ⟨-, hres, rfl, -⟩
  have hready : Ready outputs w' := ⟨hres ▸ hw, h.migrator, h.master⟩
  change Returns outputs (revokePostgresRole outputs t >>= fun _ => _) (.ns t ∉ ·) w'
  refine Returns.bind _ (revokePostgresRole_returns hready) fun _ w _ => ?_
  refine Returns.bind (fun _ => True) (recordStep_returns _ trivial) fun _ w _ => ?_
  refine Returns.bind _ deleteKubernetes_returns fun _ w hw => ?_
  refine Returns.bind (.ns t ∉ ·) (recordStep_returns _ hw) fun _ w hw => ?_
  refine Returns.bind _ (deleteIdentity_returns hw) fun _ w hw => ⟨trivial, ?_⟩
  rintro r w' ⟨-, hres⟩
  show .ns t ∉ w'.resources
  rwa [hres]

/-- So does a deletion. -/
theorem deleteTenant_returns (h : Ready outputs w) :
    Returns outputs (deleteTenant t) (.ns t ∉ ·) w := by
  refine ⟨trivial, ?_⟩
  rintro item w' ⟨-, hres⟩
  refine ⟨trivial, ?_⟩
  rintro r w'' ⟨⟨now, hrun⟩, hres'⟩
  rw [RegCmd.run, Registry.upsert_valid (by simp)] at hrun
  obtain ⟨rfl, -⟩ := Prod.mk.inj hrun
  have hready : Ready outputs w'' := ⟨hres' ▸ hres ▸ h.platform, h.migrator, h.master⟩
  refine (wp_tryCatch _ _).2 ((teardown_returns hready).imp fun x _ hx => ?_)
  cases x with
  | ok _ => exact hx
  | error _ => exact hx.elim

end

section

variable {R : Finset Resource → Prop}

/-- Being ready is a matter of the resources. -/
theorem Ready.of_resources (hres : w'.resources = w.resources) (h : Ready outputs w') :
    Ready outputs w :=
  ⟨hres ▸ h.platform, h.migrator, h.master⟩

/-- The program raises, leaving the platform as unready as it is. -/
def Raises (outputs : Outputs) {α : Type} (p : CP α) (w : Cloud) : Prop :=
  p.wp (prompting outputs) (outcome (fun _ _ => False) fun _ w' => ¬Ready outputs w') w

/-- Without the namespace of the platform tenant the dropping of the role raises. -/
theorem dropPostgresRole_raises (h : ¬Ready outputs w) :
    Raises outputs (dropPostgresRole outputs t) w := by
  refine (wp_bind _ _).2 ((wp_ite _ _ _).2 ⟨fun _ => h, fun hm => ⟨trivial, ?_⟩⟩)
  rintro r w' ⟨-, hres, ⟨code, rfl, hcode⟩, -⟩
  have hcode := hcode outputs.platform rfl
  have hres : w'.resources = w.resources := hres.trans (ite_self _)
  have hw' : ¬Ready outputs w' := fun hr => h (hr.of_resources hres)
  by_cases hp : .ns outputs.platform ∈ w.resources
  · obtain rfl := hcode.2 hp
    refine (wp_ite _ _ _).2 ⟨fun _ => (wp_ite _ _ _).2 ⟨fun _ => hw', fun hs => ?_⟩, nofun⟩
    exact absurd ⟨hp, hm, hs⟩ h
  · simpa [hcode, hp] using hw'

/-- So do all attempts. -/
theorem revokeAttempts_raises (last : String) (n : ℕ) (h : ¬Ready outputs w) :
    Raises outputs (revokeAttempts outputs t last n) w := by
  induction n generalizing last w with
  | zero => exact h
  | succ n ih =>
    rw [revokeAttempts, Raises, wp_tryCatch]
    refine (dropPostgresRole_raises h).imp ?_
    rintro (e | a) w' hw
    · exact ih e.text hw
    · exact hw.elim

/-- So does the teardown. -/
theorem teardown_raises (h : ¬Ready outputs w) : Raises outputs (teardown t item) w := by
  have hquiet {p : CP Unit} {f : Unit → CP Unit} {v : Cloud}
      (hp : Returns outputs p (· = w.resources) v)
      (hf : ∀ a (w' : Cloud), w'.resources = w.resources → Raises outputs (f a) w') :
      Raises outputs (p >>= f) v :=
    wp.bind hp (fun a w' h => hf a w' h) fun _ _ h => h.elim
  refine hquiet (disableApplicationAccess_returns rfl) fun _ w₁ h₁ => ?_
  refine hquiet (recordStep_returns _ h₁) fun _ w₂ h₂ => ⟨trivial, ?_⟩
  rintro r w' ⟨-, hres, rfl, -⟩
  have hw' : ¬Ready outputs w' := fun hr => h (hr.of_resources (hres.trans h₂))
  change Raises outputs (revokePostgresRole outputs t >>= fun _ => _) w'
  exact wp.bind (revokeAttempts_raises "None" 3 hw') (fun _ _ h => h.elim) fun _ _ h => h

/-- Without the platform's namespace a deletion fails. -/
theorem deleteTenant_raises (h : ¬Ready outputs w) :
    (deleteTenant t).wp (prompting outputs) (fun x _ => x ≠ .ok ()) w := by
  refine ⟨trivial, ?_⟩
  rintro item w' ⟨-, hres⟩
  refine ⟨trivial, ?_⟩
  rintro (e | row) w'' ⟨-, hres'⟩
  · exact nofun
  · have hw : ¬Ready outputs w'' := fun hr => h (hr.of_resources (hres'.trans hres))
    refine (wp_tryCatch _ _).2 ((teardown_raises hw).imp ?_)
    rintro (e | a) w hw
    · refine ⟨trivial, ?_⟩
      rintro (e' | row') w' -
      · exact nofun
      · exact nofun
    · exact hw.elim

end

/-! ## The whole deletion -/

/-- A deletion run again from `w₁`, in a prompt cloud, removes the row and ends with the resources
    an uninterrupted one from `w₀` ends with. -/
def RetrySafe (outputs : Outputs) (t : TenantId) (w₀ w₁ : Cloud) : Prop :=
  ∀ tr x w₂, Exec (prompt outputs) (deleteTenant t) w₁ tr x w₂ →
    x = .ok () ∧ w₂.registry.get t = none ∧
      ∀ tr' x' w', Exec (prompt outputs) (deleteTenant t) w₀ tr' x' w' →
        w₂.resources = w'.resources

/-- The worlds left by any number of attempts at a deletion. -/
abbrev Attempts (outputs : Outputs) (t : TenantId) : Cloud → Cloud → Prop :=
  Relation.ReflTransGen (Reaches (lossy outputs) (deleteTenant t))

/-- What any number of attempts leaves, one attempt may. -/
theorem Attempted.of_attempts {w₀ : Cloud} (h : Attempts outputs t w₀ w) :
    Attempted outputs t (w₀.identity t) w₀.resources w := by
  induction h with
  | refl => exact ⟨.refl, .inl rfl⟩
  | tail _ hw ih => exact ih.trans (.of_reaches hw)

/-- What a deletion leaves in a prompt cloud: everything but the resources of the tenant. -/
theorem exec_deleteTenant {tr : Trace cpSig} {x : Except Exn Unit} (h : Ready outputs w)
    (hx : Exec (prompt outputs) (deleteTenant t) w tr x w') :
    x = .ok () ∧ w'.registry.get t = none ∧
      w'.resources = w.resources \ torn outputs t (w.identity t) := by
  have hret := hx.keeps (deleteTenant_returns h)
  have hfin := (hx.mono fun _ _ _ _ => lossy_of_prompt).keeps (deleteTenant_attempt w)
  cases x with
  | error e => exact hret.elim
  | ok a =>
    refine ⟨rfl, hfin.row, hfin.erased.eq_sdiff ?_⟩
    have hns : Disjoint w'.resources {.ns t} := Finset.disjoint_singleton_right.2 hret
    have hgone := Finset.disjoint_union_right.1 hfin.gone
    rw [torn, Finset.insert_eq]
    exact Finset.disjoint_union_right.2 ⟨Finset.disjoint_union_right.2 ⟨hns, hgone.2⟩, hgone.1⟩

/-- What the attempts left to erase. -/
theorem Attempted.sdiff (h : Attempted outputs t item A w) :
    w.resources \ torn outputs t (w.identity t) = A \ torn outputs t item := by
  rcases h.identity with hid | ⟨hid, hgone⟩
  · rw [hid, h.erased.sdiff]
  · rw [hid, ← h.erased.sdiff, torn, torn, ownedResources, if_neg (by simp), Finset.union_empty,
      Finset.sdiff_union_distrib, Finset.sdiff_eq_self_of_disjoint hgone]
    exact (Finset.inter_eq_left.2 Finset.sdiff_subset).symm

/-- Without the platform's namespace a deletion is not safe to retry. -/
theorem not_retrySafe {w₀ w₁ : Cloud} (h : ¬Ready outputs w₁) : ¬RetrySafe outputs t w₀ w₁ := by
  intro hsafe
  have hx := exec_eval (f := fun _ => promptly "now" outputs) (h := prompt outputs)
    (fun _ => promptly_step "now" outputs) (fun _ => ()) (deleteTenant t) 0 w₁
  exact hx.keeps (deleteTenant_raises h) (hsafe _ _ _ hx).1

/-- A deletion that is ready is safe to run again. -/
theorem Ready.retrySafe {w₀ w₁ : Cloud} (h : Attempts outputs t w₀ w₁) (hready : Ready outputs w₁) :
    RetrySafe outputs t w₀ w₁ := by
  intro tr x w₂ hx
  have hatt := Attempted.of_attempts h
  obtain ⟨rfl, hrow, hres⟩ := exec_deleteTenant hready hx
  refine ⟨rfl, hrow, fun tr' x' w' hx' => ?_⟩
  have hready₀ : Ready outputs w₀ :=
    ⟨hatt.erased.subset hready.platform, hready.migrator, hready.master⟩
  rw [hres, (exec_deleteTenant hready₀ hx').2.2]
  exact hatt.sdiff

/-- After any number of attempts that failed or crashed, each command of which had its effect or
    not, a deletion in which every command whose namespace or object exists succeeds ends as
    an uninterrupted one, exactly if the namespace of the platform tenant, in which the database
    role is dropped, is still there (and the outputs name the migrator and the master secret). -/
theorem deleteTenant_retry_iff {w₀ w₁ : Cloud} (h : Attempts outputs t w₀ w₁) :
    RetrySafe outputs t w₀ w₁ ↔ Ready outputs w₁ :=
  ⟨fun hsafe => by_contra fun hready => not_retrySafe hready hsafe, Ready.retrySafe h⟩

/-- The platform tenant, its identity owned by the control plane. -/
def platformUp : Cloud where
  registry := (Registry.upsert ∅ "now" .a none
    { status := some .active, ownedBy := some (some "control_plane"),
      secretName := some (some "ntier-dev/rds/tenant-a"),
      irsaRoleArn := some (some "arn:aws:iam::123456789012:role/ntier-dev-tenant-a") }).2
  resources := {.ns .a, .dbRole "tenant_a", .iamRole "ntier-dev-tenant-a",
    .secret "ntier-dev/rds/tenant-a"}

/-- Its deletion crashes after a number of commands. -/
def platformCrash (n : ℕ) : Cloud :=
  crashAt (promptly "now" labOutputs) n (deleteTenant .a) platformUp

theorem platformCrash_attempts (n : ℕ) : Attempts labOutputs .a platformUp (platformCrash n) :=
  .single (reaches_crashAt (fun c w => lossy_of_prompt (promptly_step _ _ c w)) n _ _)

/-- Its database role was dropped, its workload is still there. -/
theorem deleteTenant_retry_iff_revoked : RetrySafe labOutputs .a platformUp (platformCrash 16) :=
  (deleteTenant_retry_iff (platformCrash_attempts 16)).2 ⟨by decide, by simp [labOutputs], by simp [labOutputs]⟩

/-- Its namespace was deleted, its role was not: an uninterrupted deletion succeeds, another
    attempt does not. -/
theorem platform_stuck : RetrySafe labOutputs .a platformUp platformUp ∧
    Attempts labOutputs .a platformUp (platformCrash 19) ∧
    .iamRole "ntier-dev-tenant-a" ∈ (platformCrash 19).resources ∧
    ¬RetrySafe labOutputs .a platformUp (platformCrash 19) := by
  refine ⟨Ready.retrySafe .refl ⟨by decide, by simp [labOutputs], by simp [labOutputs]⟩,
    platformCrash_attempts 19, by decide, not_retrySafe fun h => ?_⟩
  exact absurd h.platform (by decide)

end NtierLab
