import NtierLab.ControlPlane.Cloud

/-!
# What a deletion erases

The commands of a deletion keep the identity its row records, and erase what the
deletion erases (`Tearing`). Along any contract that keeps to what they say is erased
(`Erasing`), the stages of a deletion tell more and more to be gone (`Tears`), up to
the removal of the row (`deleteFrom_tears`).
-/

namespace NtierLab

open Prog

/-- `B` is what is left of `A`, some of `D` erased. -/
structure Erased (A D B : Finset Resource) : Prop where
  subset : B ⊆ A
  kept : A \ D ⊆ B

namespace Erased

variable {A B C D : Finset Resource} {x : Resource}

/-- Nothing erased. -/
theorem refl : Erased A D A := ⟨Finset.Subset.refl A, Finset.sdiff_subset⟩

/-- One resource erased. -/
theorem erase (hx : x ∈ D) : Erased A D (A.erase x) where
  subset := Finset.erase_subset x A
  kept _ hy :=
    have ⟨hA, hD⟩ := Finset.mem_sdiff.1 hy
    Finset.mem_erase.2 ⟨fun h => hD (h ▸ hx), hA⟩

/-- What is erased twice is erased. -/
theorem trans (h : Erased A D B) (h' : Erased B D C) : Erased A D C where
  subset := h'.subset.trans h.subset
  kept _ hy :=
    h'.kept (Finset.mem_sdiff.2 ⟨h.kept hy, (Finset.mem_sdiff.1 hy).2⟩)

/-- What may be erased may be more. -/
theorem mono {D' : Finset Resource} (hD : D ⊆ D') (h : Erased A D B) : Erased A D' B :=
  ⟨h.subset, (Finset.sdiff_subset_sdiff le_rfl hD).trans h.kept⟩

/-- All of `D` is erased once none of it is left. -/
theorem eq_sdiff (h : Erased A D B) (hB : Disjoint B D) : B = A \ D :=
  Finset.Subset.antisymm
    (fun _ hx => Finset.mem_sdiff.2 ⟨h.subset hx, Finset.disjoint_left.1 hB hx⟩) h.kept

/-- The rest is left. -/
theorem sdiff (h : Erased A D B) : B \ D = A \ D :=
  Finset.Subset.antisymm (Finset.sdiff_subset_sdiff h.subset le_rfl) fun _ hx =>
    Finset.mem_sdiff.2 ⟨h.kept hx, (Finset.mem_sdiff.1 hx).2⟩

end Erased

section

variable (outputs : Outputs) (t : TenantId) (item : Identity)

/-- The role and the secret erased with an identity. -/
def ownedResources : Finset Resource :=
  if item.ownedBy = some "control_plane" then
    {.iamRole (arnRole item.irsaRoleArn (roleName outputs t)),
      .secret (rowSecret outputs t item.secretName)}
  else ∅

/-- The resources a deletion erases. -/
def torn : Finset Resource := {.ns t, .dbRole t.role} ∪ ownedResources outputs t item

/-- The commands of a deletion, but for the removal of the row: they keep the identity
    recorded, and erase what the deletion erases. -/
def Tearing : Cmd → Prop
  | .reg (.get _) => True
  | .reg (.upsert u v f) => u = t ∧ v = none ∧ f.Valid ∧ f.ownedBy = none ∧ f.secretName = none ∧
      f.irsaRoleArn = none
  | .reg _ | .host (.tofuApply _) => False
  | c => ∀ rs, Erased rs (torn outputs t item) (c.effect rs)

variable {outputs t item} in
/-- A command that is none of the registry erases resources of the deletion at most. -/
theorem Tearing.erased {c : Cmd} (hc : Tearing outputs t item c) (hreg : ∀ d, c ≠ .reg d)
    (rs : Finset Resource) : Erased rs (torn outputs t item) (c.effect rs) := by
  unfold Tearing at hc
  split at hc <;> first | exact absurd rfl (hreg _) | exact hc.elim | exact hc rs

end

/-- The resources a response tells to be erased; that a namespace was not found is told only by
    a probe that is relied on. -/
def told (probe : Bool) : (c : Cmd) → cpSig.Resp c → Finset Resource
  | .shell (.getNs t), .exited code => if probe ∧ code ≠ 0 then {.ns t} else ∅
  | .shell (.deleteNs t), .exited code => if code = 0 then {.ns t} else ∅
  | .kube (.dropJobConditions _ d), .ok conds =>
    if condition conds "Complete" = some "True" then {.dbRole d.tenant.role} else ∅
  | .aws (.deleteRole name), r => if goneBy ["NoSuchEntity"] r then {.iamRole name} else ∅
  | .aws (.deleteSecret name _), r =>
    if goneBy ["ResourceNotFoundException", "InvalidRequestException"] r then {.secret name} else ∅
  | _, _ => ∅

/-- What is told to be erased is. -/
theorem Tells.disjoint {outputs : Outputs} {c : Cmd} {r : cpSig.Resp c} {rs : Finset Resource}
    (h : Tells outputs c r rs) : Disjoint rs (told false c r) := by
  unfold told
  split
  · simp
  · split_ifs with hcode
    · exact Finset.disjoint_singleton_right.2 (h (by rw [hcode]))
    · exact Finset.disjoint_empty_right _
  · split_ifs with hc
    · exact Finset.disjoint_singleton_right.2 (h _ rfl hc)
    · exact Finset.disjoint_empty_right _
  · split_ifs with hg
    · exact Finset.disjoint_singleton_right.2 (h hg)
    · exact Finset.disjoint_empty_right _
  · split_ifs with hg
    · exact Finset.disjoint_singleton_right.2 (h hg)
    · exact Finset.disjoint_empty_right _
  · exact Finset.disjoint_empty_right _

/-- A contract along which what the commands of a deletion told to be erased stays so: `T N` holds
    of the worlds in which `N` was told. -/
structure Erasing (outputs : Outputs) (t : TenantId) (item : Identity) (probe : Bool) {W : Type}
    (K : Contract cpSig W) (T : Finset Resource → W → Prop) : Prop where
  call : ∀ {c N w}, Tearing outputs t item c → T N w →
    K.pre c w ∧ ∀ r w', K.post c w r w' → T (told probe c r ∪ N) w'
  anti : ∀ {N N' w}, N ⊆ N' → T N' w → T N w
  outputs : ∀ {N w r w'}, T N w → K.post (.host .tofuOutputs) w r w' → ∀ o, r = .ok o → o = outputs

@[simp] theorem ns_mem_torn {outputs : Outputs} {t : TenantId} {item : Identity} :
    .ns t ∈ torn outputs t item := by simp [torn]

@[simp] theorem dbRole_mem_torn {outputs : Outputs} {t : TenantId} {item : Identity} :
    .dbRole t.role ∈ torn outputs t item := by simp [torn]

/-- What a row owns is torn down. -/
theorem ownedResources_subset {outputs : Outputs} {t : TenantId} {item : Identity} :
    ownedResources outputs t item ⊆ torn outputs t item :=
  Finset.subset_union_right

/-- The identity a deletion reads of the registry. -/
def Cloud.identity (w : Cloud) (t : TenantId) : Identity :=
  (w.registry.get t).elim ⟨none, none, none⟩ Row.identity

/-- A deletion, once it has read the identity of the row. -/
def deleteFrom (t : TenantId) (item : Identity) : CP Unit := do
  let _ ← TenantStore.upsert t
    { desiredStatus := Fields.desire .gone, status := some .deleting, error := some none,
      deleteStep := some (some "started") }
  tryCatch (teardown t item) fun exc => do
    let _ ← TenantStore.upsert t (deleteFailed exc.text)
    throw exc

/-- A deletion reads the row, and goes on with its identity. -/
theorem deleteTenant_eq (t : TenantId) : deleteTenant t =
    .call (.reg (.get t)) fun row => deleteFrom t (row.elim ⟨none, none, none⟩ Row.identity) := rfl

/-! ## The commands of the stages -/

section

variable {outputs : Outputs} {t : TenantId} {item : Identity}

theorem runOk_tearing {c : Shell} (hc : ∀ rs, Cmd.effect (.shell c) rs = rs) :
    (runOk c).Calls (Tearing outputs t item) :=
  calls_iff.2 (by simp [runOk, Tearing, hc, Erased.refl])

/-- A process that erases what is torn down only. -/
theorem run_tearing {c : Shell} (hc : ∀ rs, Erased rs (torn outputs t item) (Cmd.effect (.shell c) rs)) :
    (run c).Calls (Tearing outputs t item) :=
  calls_iff.2 (by simp [run, Tearing, hc])

/-- A step recorded erases nothing. -/
theorem recordStep_tearing (step : String) :
    (recordStep t step).Calls (Tearing outputs t item) :=
  calls_iff.2 (by simp [recordStep, TenantStore.upsert, Tearing])

/-- Nor does disabling access. -/
theorem disableApplicationAccess_tearing :
    (disableApplicationAccess t).Calls (Tearing outputs t item) :=
  .bind (runOk_tearing fun _ => rfl) fun _ => .bind (runOk_tearing fun _ => rfl) fun _ => trivial

theorem deleteDropObjects_tearing (p : TenantId) (d : DropName) :
    (deleteDropObjects p d).Calls (Tearing outputs t item) :=
  .bind (runOk_tearing fun _ => rfl) fun _ => .bind (runOk_tearing fun _ => rfl) fun _ => trivial

/-- The drop-role Job erases the role of the tenant at most. -/
theorem dropJobConditions_tearing (p : TenantId) {d : DropName} (hd : d.tenant = t) :
    (dropJobConditions p d).Calls (Tearing outputs t item) := by
  refine ⟨fun rs => ?_, fun r => calls_result r⟩
  exact .erase (by simp [hd])

/-- Deleting the release and the namespace erases the namespace. -/
theorem deleteKubernetes_tearing : (deleteKubernetes t).Calls (Tearing outputs t item) := by
  refine .bind (runOk_tearing fun _ => rfl) fun _ => .bind (runOk_tearing fun _ => rfl) fun _ => ?_
  refine .ite (fun _ => ?_) fun _ => trivial
  exact calls_iff.2 (by simp [lifecycleRun, Tearing, Cmd.effect, Erased.erase])

end

/-! ## The stages -/

section

variable {outputs : Outputs} {t : TenantId} {item : Identity} {probe : Bool} {α W : Type}
  {K : Contract cpSig W} {T : Finset Resource → W → Prop} {N N' N'' : Finset Resource} {w : W}
  {p : CP α}

/-- A program of a deletion, from a world in which `N` was told to be erased to one in which `N'`
    was, or that fails. -/
def Tears (K : Contract cpSig W) (T : Finset Resource → W → Prop) (p : CP α)
    (N N' : Finset Resource) : Prop :=
  ∀ w, T N w → p.wp K (outcome (fun _ => T N') fun _ => T N) w

namespace Erasing

/-- A program of commands of the deletion keeps to what was told. -/
theorem keep (hT : Erasing outputs t item probe K T) (hp : p.Calls (Tearing outputs t item))
    (h : T N w) : p.wp K (fun _ => T N) w :=
  hp.wp (fun _ _ hc hw => ⟨(hT.call hc hw).1, fun r w' hr =>
    hT.anti Finset.subset_union_right ((hT.call hc hw).2 r w' hr)⟩) h

/-- A command of the deletion, then a program. -/
theorem perform (hT : Erasing outputs t item probe K T) {c : Cmd} {k : cpSig.Resp c → CP α}
    {Q : Except Exn α → W → Prop} (hc : Tearing outputs t item c) (h : T N w)
    (hk : ∀ r w', T (told probe c r ∪ N) w' → (k r).wp K Q w') :
    (Prog.call c k : CP α).wp K Q w :=
  ⟨(hT.call hc h).1, fun r w' hr => hk r w' ((hT.call hc h).2 r w' hr)⟩

/-- A program of commands of the deletion leaves erased what was told to be. -/
theorem tears (hT : Erasing outputs t item probe K T) (hp : p.Calls (Tearing outputs t item))
    (N : Finset Resource) : Tears K T p N N := fun _ h => (hT.keep hp h).imp fun x _ hx => by
  cases x <;> exact hx

end Erasing

/-- A program that erases more, then one that erases more still. -/
theorem Tears.bind {β : Type} {f : α → CP β} (hT : Erasing outputs t item probe K T) (hN : N ⊆ N')
    (hp : Tears K T p N N') (hf : ∀ a, Tears K T (f a) N' N'') : Tears K T (p >>= f) N N'' :=
  fun w h => wp.bind (hp w h) (fun a w' hw => (hf a w' hw).imp fun x w'' hx => by
    cases x with
    | error e => exact hT.anti hN hx
    | ok b => exact hx) fun _ _ hw => hw

/-- A program that erases more, then the rest of a deletion. -/
theorem Tears.seq {β : Type} {f : α → CP β} {Q : β → W → Prop}
    (hT : Erasing outputs t item probe K T) (hp : Tears K T p N N') (h : T N w)
    (hf : ∀ a w', T N' w' → (f a).wp K (outcome Q fun _ => T ∅) w') :
    (p >>= f).wp K (outcome Q fun _ => T ∅) w :=
  wp.bind (hp w h) hf fun _ _ hw => hT.anti (Finset.empty_subset _) hw

/-- A program with a cleanup of commands of the deletion. -/
theorem Tears.ensuring {q : CP Unit} (hT : Erasing outputs t item probe K T) (hN : N ⊆ N')
    (hp : Tears K T p N N') (hq : q.Calls (Tearing outputs t item)) :
    Tears K T (p.ensuring q) N N' := by
  intro w h
  rw [wp_ensuring]
  refine (hp w h).imp ?_
  rintro (e | a) w' hw
  · refine (hT.keep hq hw).imp ?_
    rintro (e' | _) w'' hw <;> exact hw
  · refine (hT.keep hq hw).imp ?_
    rintro (e' | _) w'' hw
    · exact hT.anti hN hw
    · exact hw

namespace Erasing

variable (hT : Erasing outputs t item probe K T)

include hT

/-- Polling that returns has the role dropped. -/
theorem pollDropJob_tears (p : TenantId) {d : DropName} (hd : d.tenant = t) (n : ℕ)
    (N : Finset Resource) : Tears K T (pollDropJob p d n) N (insert (.dbRole t.role) N) := by
  have hN := Finset.subset_insert (Resource.dbRole t.role) N
  have hlogs {f : Bool → CP Unit} {w : W} (hw : T N w) (hf : ∀ b, ∃ e, f b = .fail e) :
      (runOk (.dropJobLogs p d) >>= f).wp K (outcome (fun _ => T (insert (.dbRole t.role) N))
        fun _ => T N) w :=
    wp.bind (hT.keep (runOk_tearing fun _ => rfl) hw) (fun b w' hw => by
      obtain ⟨e, he⟩ := hf b
      rwa [he]) fun _ _ hw => hw
  intro w h
  induction n generalizing w with
  | zero => exact hlogs h fun _ => ⟨_, rfl⟩
  | succ n ih =>
    refine hT.perform (dropJobConditions_tearing p hd).1 h fun conds w' hw => ?_
    cases conds with
    | error e => exact hT.anti Finset.subset_union_right hw
    | ok conds =>
      refine (wp_ite _ _ _).2 ⟨fun hc => ?_, fun _ => (wp_ite _ _ _).2 ⟨fun _ => ?_, fun _ => ?_⟩⟩
      · -- The Job is seen complete: the role is gone.
        have hgone : T (insert (.dbRole t.role) N) w' := by
          rw [← hd, Finset.insert_eq]
          rwa [told, if_pos hc] at hw
        exact (hT.keep (runOk_tearing fun _ => rfl) hgone).bind (fun _ _ hw => hw) fun _ _ hw =>
          hT.anti hN hw
      · exact hlogs (hT.anti Finset.subset_union_right hw) fun _ => ⟨_, rfl⟩
      · exact ih _ (hT.anti Finset.subset_union_right hw)

/-- So has the dropping of the role. -/
theorem dropPostgresRole_tears (N : Finset Resource) :
    Tears K T (dropPostgresRole outputs t) N (insert (.dbRole t.role) N) := by
  have hN := Finset.subset_insert (Resource.dbRole t.role) N
  have hsa : (ensureMigratorSa outputs (outputs.platformTenantId.getD .a)).Calls
      (Tearing outputs t item) := .ite (fun _ => trivial) fun _ => run_tearing fun _ => .refl
  refine Tears.bind hT le_rfl (hT.tears hsa N) fun _ w h => ?_
  refine (wp_ite _ _ _).2 ⟨fun _ => h, fun _ => ?_⟩
  dsimp only
  have hjob (suffix : ℕ) : Tears K T (do
      run (.createDropConfigMap (outputs.platformTenantId.getD .a) ⟨t, suffix⟩)
      run (.applyDropJob ⟨outputs.platformTenantId.getD .a, ⟨t, suffix⟩, outputs.region,
        outputs.rdsSecretName, t.role, t.policy⟩)
      let n ← rounds 300
      (pollDropJob (outputs.platformTenantId.getD .a) ⟨t, suffix⟩ n).ensuring
        (deleteDropObjects (outputs.platformTenantId.getD .a) ⟨t, suffix⟩)) N
      (insert (.dbRole t.role) N) := by
    refine Tears.bind hT le_rfl (hT.tears (run_tearing fun _ => .refl) N) fun _ => ?_
    refine Tears.bind hT le_rfl (hT.tears (run_tearing fun _ => .erase dbRole_mem_torn) N) fun _ => ?_
    refine Tears.bind hT le_rfl (hT.tears (p := rounds 300) ⟨fun _ => .refl, fun _ => trivial⟩ N)
      fun n => ?_
    exact Tears.ensuring hT hN (hT.pollDropJob_tears _ rfl n N) (deleteDropObjects_tearing _ _)
  exact hT.perform (fun _ => .refl) h fun suffix w hw =>
    hjob suffix w (hT.anti Finset.subset_union_right hw)

/-- So have some attempts. -/
theorem revokeAttempts_tears (N : Finset Resource) (last : String) (n : ℕ) :
    Tears K T (revokeAttempts outputs t last n) N (insert (.dbRole t.role) N) := by
  induction n generalizing last with
  | zero => exact fun w h => h
  | succ n ih =>
    intro w h
    rw [revokeAttempts, wp_tryCatch]
    refine (hT.dropPostgresRole_tears N w h).imp ?_
    rintro (e | a) w' hw
    · exact ih e.text w' hw
    · exact hw

/-- A probe that is relied on: the namespace is told to be gone. -/
theorem deleteKubernetes_tears (hprobe : probe = true) (N : Finset Resource) :
    Tears K T (deleteKubernetes t) N ({.ns t} ∪ N) := by
  refine Tears.bind hT le_rfl (hT.tears (runOk_tearing fun _ => rfl) N) fun _ w h => ?_
  refine hT.perform (fun _ => .refl) h fun r w hw => ?_
  cases r with
  | exited code =>
    refine (wp_ite _ _ _).2 ⟨fun hc => ?_, fun hc => ?_⟩
    · replace hw : T N w := hT.anti Finset.subset_union_right hw
      refine hT.perform (fun _ => .erase ns_mem_torn) hw fun r w hw => ?_
      cases r with
      | exited code =>
        refine (wp_ite _ _ _).2 ⟨fun hc => ?_, fun _ => hT.anti Finset.subset_union_right hw⟩
        rwa [told, if_pos hc] at hw
      | timeoutExpired text => exact hT.anti Finset.subset_union_right hw
      | raised text => exact hT.anti Finset.subset_union_right hw
    · rwa [told, if_pos ⟨hprobe, by simpa using hc⟩] at hw
  | timeoutExpired text => exact hT.anti Finset.subset_union_right hw
  | raised text => exact hT.anti Finset.subset_union_right hw

/-- Deleting the role of the application that returns has it deleted. -/
theorem deleteTenantIrsa_tears {arn : Option String}
    (hmem : .iamRole (arnRole arn (roleName outputs t)) ∈ torn outputs t item) (N : Finset Resource) :
    Tears K T (deleteTenantIrsa outputs t arn) N
      (insert (.iamRole (arnRole arn (roleName outputs t))) N) := by
  intro w h
  rw [deleteTenantIrsa, wp_bind, wp_unlessGone]
  refine hT.perform (fun _ => .refl) h fun r w hw => ?_
  replace hw : T N w := hT.anti Finset.subset_union_right hw
  rw [wp_result]
  split_ifs
  · rw [outcome_ok, wp_unlessGone]
    refine hT.perform (fun _ => .erase hmem) hw fun r w hw => ?_
    rw [wp_result]
    split_ifs with hr
    · rw [Finset.insert_eq]
      rwa [told, if_pos hr] at hw
    · exact fun _ _ => hT.anti Finset.subset_union_right hw
  · exact fun _ _ => hw

/-- Deleting the secret that returns has it deleted. -/
theorem deleteTenantSecret_tears {name : Option String}
    (hmem : .secret (rowSecret outputs t name) ∈ torn outputs t item) (N : Finset Resource) :
    Tears K T (deleteTenantSecret outputs t name) N
      (insert (.secret (rowSecret outputs t name)) N) := by
  intro w h
  rw [deleteTenantSecret, wp_unlessGone]
  refine hT.perform (fun _ => .refl) h fun days w hw => ?_
  replace hw : T N w := hT.anti Finset.subset_union_right hw
  cases days with
  | error e => exact fun _ _ => hw
  | ok days =>
    refine hT.perform (fun _ => .erase hmem) hw fun r w hw => ?_
    rw [wp_result]
    split_ifs with hr
    · rw [Finset.insert_eq]
      rwa [told, if_pos hr] at hw
    · exact fun _ _ => hT.anti Finset.subset_union_right hw

/-- The identity is deleted if the row owns it. -/
theorem deleteIdentity_tears (N : Finset Resource) :
    Tears K T (deleteIdentity outputs t item) N (ownedResources outputs t item ∪ N) := by
  rw [deleteIdentity]
  by_cases ho : item.ownedBy = some "control_plane"
  · have hres : ownedResources outputs t item =
        {.iamRole (arnRole item.irsaRoleArn (roleName outputs t)),
          .secret (rowSecret outputs t item.secretName)} := if_pos ho
    have hmem : ∀ x ∈ ownedResources outputs t item, x ∈ torn outputs t item :=
      fun _ => (ownedResources_subset ·)
    have hN : ownedResources outputs t item ∪ N =
        insert (.secret (rowSecret outputs t item.secretName))
          (insert (.iamRole (arnRole item.irsaRoleArn (roleName outputs t))) N) := by
      rw [hres, Finset.insert_union, Finset.singleton_union, Finset.insert_comm]
    rw [if_pos ho, hN]
    refine Tears.bind hT (Finset.subset_insert _ _)
      (hT.deleteTenantIrsa_tears (hmem _ (by simp [hres])) N) fun _ => ?_
    refine Tears.bind hT le_rfl (hT.tears (recordStep_tearing _) _) fun _ => ?_
    refine Tears.bind hT (Finset.subset_insert _ _)
      (hT.deleteTenantSecret_tears (hmem _ (by simp [hres])) _) fun _ => ?_
    exact hT.tears (recordStep_tearing _) _
  · have hres : ownedResources outputs t item = ∅ := if_neg ho
    rw [if_neg ho, hres, Finset.empty_union]
    exact fun _ h => h

/-- The teardown, up to the removal of the row, `X` being told by the removal of the workload. -/
theorem teardown_tears {X : Finset Resource} {Q : W → Prop}
    (hns : ∀ N, Tears K T (deleteKubernetes t) N (X ∪ N))
    (hQ : ∀ w, T (ownedResources outputs t item ∪ (X ∪ {.dbRole t.role})) w →
      K.pre (.reg (.delete t)) w ∧ ∀ r w', K.post (.reg (.delete t)) w r w' → Q w') (h : T ∅ w) :
    (teardown t item).wp K (outcome (fun _ => Q) fun _ => T ∅) w := by
  refine (hT.tears disableApplicationAccess_tearing ∅).seq hT h fun _ w hw => ?_
  refine (hT.tears (recordStep_tearing _) ∅).seq hT hw fun _ w hw => ?_
  refine ⟨(hT.call (c := .host .tofuOutputs) (fun _ => .refl) hw).1, fun outs w' hr => ?_⟩
  have hw' := hT.anti (Finset.empty_subset _)
    ((hT.call (c := .host .tofuOutputs) (fun _ => .refl) hw).2 outs w' hr)
  cases outs with
  | error e => exact hw'
  | ok outs =>
    obtain rfl := hT.outputs hw hr outs rfl
    change (revokePostgresRole outs t >>= fun _ => _).wp _ _ _
    refine (hT.revokeAttempts_tears ∅ _ 3).seq hT hw' fun _ w hw => ?_
    refine (hT.tears (recordStep_tearing _) _).seq hT hw fun _ w hw => ?_
    refine (hns _).seq hT hw fun _ w hw => ?_
    refine (hT.tears (recordStep_tearing _) _).seq hT hw fun _ w hw => ?_
    exact (hT.deleteIdentity_tears _).seq hT hw fun _ w hw => hQ w hw

/-- A deletion, once it has read the identity of the row. -/
theorem deleteFrom_tears {X : Finset Resource} {Q : W → Prop}
    (hns : ∀ N, Tears K T (deleteKubernetes t) N (X ∪ N))
    (hQ : ∀ w, T (ownedResources outputs t item ∪ (X ∪ {.dbRole t.role})) w →
      K.pre (.reg (.delete t)) w ∧ ∀ r w', K.post (.reg (.delete t)) w r w' → Q w') (h : T ∅ w) :
    (deleteFrom t item).wp K (outcome (fun _ => Q) fun _ => T ∅) w := by
  refine hT.perform (by simp [Tearing]) h fun r w hw => ?_
  replace hw := hT.anti (Finset.empty_subset _) hw
  cases r with
  | error e => exact hw
  | ok row =>
    refine (wp_tryCatch _ _).2 ((hT.teardown_tears hns hQ hw).imp ?_)
    rintro (e | a) w hw
    · refine hT.perform (by simp [Tearing, deleteFailed]) hw fun r w hw => ?_
      replace hw := hT.anti (Finset.empty_subset _) hw
      cases r <;> exact hw
    · exact hw

end Erasing

end

end NtierLab
