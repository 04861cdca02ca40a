import NtierLab.ControlPlane.Neighbour

/-!
# The migrate Job of a provisioning

A provisioning onboards the platform tenant with the merged maps of identities, then the
tenant itself; each onboarding finds the platform tenant on its own.

* `mergeIdentityMaps_secrets`: the secret of a tenant in the merged maps;
* `platformTenant_extend`: the platform tenant is the same in every onboarding;
* `provision_migrates`: a provisioning that gets through its onboardings creates exactly one
  migrate Job, in the namespace of the platform tenant, with the merged map of secrets, and
  waits for it before it releases the tenant.
-/

namespace NtierLab

open Prog

/-! ## The merged secrets -/

section

variable {outputs : Outputs} {extra : TidMap Identity} {m : TidMap String} {t u : TenantId}
  {value : Option String} {i : Identity}

/-- A value is truthy if it is a text that is not empty. -/
theorem truthy_iff : truthy value ↔ ∃ v, value = some v ∧ v ≠ "" := by
  cases value <;> simp [truthy]

/-- A truthy value is put. -/
theorem IdentityMaps.put_self (h : truthy value) : (put m t value)[t]? = value := by
  obtain ⟨v, rfl, -⟩ := truthy_iff.1 h
  rw [put, if_pos h, Std.ExtTreeMap.getElem?_insert_self]
  rfl

/-- Any other entry is left. -/
theorem IdentityMaps.put_of_ne (h : t ≠ u ∨ ¬truthy value) : (put m t value)[u]? = m[u]? := by
  unfold put
  split
  · next hv =>
    have hne : compare t u ≠ .eq := fun hc => h.resolve_right (by simpa using hv)
      (Std.LawfulEqCmp.eq_of_compare hc)
    rw [Std.ExtTreeMap.getElem?_insert, if_neg hne]
  · rfl

/-- The secret of a tenant is kept by the entries of others, and by those without a secret. -/
theorem foldl_add_secrets {l : List (TenantId × Identity)} {m : IdentityMaps}
    (h : ∀ p ∈ l, p.1 ≠ u ∨ ¬truthy p.2.secretName) :
    (l.foldl .add m).secrets[u]? = m.secrets[u]? := by
  induction l generalizing m with
  | nil => rfl
  | cons p l ih =>
    rw [List.foldl_cons, ih fun q hq => h q (List.mem_cons_of_mem _ hq)]
    exact IdentityMaps.put_of_ne (h p List.mem_cons_self)

/-- The identity recorded wins over the one of OpenTofu. -/
theorem mergeIdentityMaps_secrets (hi : extra[u]? = some i) (hv : truthy i.secretName) :
    (mergeIdentityMaps outputs extra).secrets[u]? = i.secretName := by
  obtain ⟨l₁, l₂, hl⟩ := List.append_of_mem (Std.ExtTreeMap.mem_toList_iff_getElem?_eq_some.2 hi)
  have hkeys := Std.ExtTreeMap.distinct_keys_toList (t := extra)
  rw [hl, List.pairwise_append, List.pairwise_cons] at hkeys
  -- No later entry is of the same tenant.
  have hne : ∀ p ∈ l₂, p.1 ≠ u := fun p hp h =>
    hkeys.2.1.1 p hp (by rw [h]; exact Std.ReflCmp.compare_self)
  rw [mergeIdentityMaps, hl, List.foldl_append, List.foldl_cons,
    foldl_add_secrets fun p hp => .inl (hne p hp)]
  exact IdentityMaps.put_self hv

/-- Without an identity recorded, the secret is the one of OpenTofu. -/
theorem mergeIdentityMaps_secrets_tofu (h : ∀ i, extra[u]? = some i → ¬truthy i.secretName) :
    (mergeIdentityMaps outputs extra).secrets[u]? = outputs.tenantSecretNames[u]? := by
  refine foldl_add_secrets fun ⟨v, i⟩ hp => ?_
  rcases eq_or_ne v u with rfl | hne
  · exact .inr (h i (Std.ExtTreeMap.mem_toList_iff_getElem?_eq_some.1 hp))
  · exact .inl hne

/-- The tenants of OpenTofu keep a secret. -/
theorem mem_mergeIdentityMaps_secrets (hu : u ∈ outputs.tenantSecretNames) :
    u ∈ (mergeIdentityMaps outputs extra).secrets := by
  rw [Std.ExtTreeMap.mem_iff_isSome_getElem?]
  by_cases h : ∃ i, extra[u]? = some i ∧ truthy i.secretName
  · obtain ⟨i, hi, hv⟩ := h
    obtain ⟨v, hsome, -⟩ := truthy_iff.1 hv
    rw [mergeIdentityMaps_secrets hi hv, hsome]
    rfl
  · rw [mergeIdentityMaps_secrets_tofu fun i hi hv => h ⟨i, hi, hv⟩]
    exact Std.ExtTreeMap.mem_iff_isSome_getElem?.1 hu

end

/-! ## The events of a provisioning -/

/-- The commands a provisioning is judged by: the outputs read, the rows listed, the releases
    and the waits for their migrate Jobs. -/
def Cmd.shown : Cmd → Bool
  | .host .tofuOutputs | .reg .list | .shell (.helmUpgrade _) | .shell (.waitMigrateJob _) => true
  | _ => false

/-- The commands around these, which change no row. -/
def Aside : Cmd → Prop
  | .reg _ | .app _ | .host .tofuOutputs | .shell (.helmUpgrade _) | .shell (.waitMigrateJob _) =>
    False
  | _ => True

/-- The monitor that keeps the events of these commands. -/
def showing : Monitor cpSig (Trace cpSig) where
  allow _ _ := True
  next s e := if e.cmd.shown then s ++ [e] else s

/-- An event shown is appended. -/
theorem showing_shown {s : Trace cpSig} {e : Event cpSig} (h : Cmd.shown e.cmd = true) :
    showing.next s e = s ++ [e] := if_pos h

/-- One not shown is not. -/
theorem showing_unshown {s : Trace cpSig} {e : Event cpSig} (h : ¬Cmd.shown e.cmd = true) :
    showing.next s e = s := if_neg h

/-- What is shown of an execution is filtered out of it. -/
theorem after_showing (s tr : Trace cpSig) :
    showing.after s tr = s ++ tr.filter fun e => e.cmd.shown := by
  induction tr generalizing s with
  | nil => simp
  | cons e tr ih =>
    change showing.after (showing.next s e) tr = _
    rw [ih, List.filter_cons]
    by_cases h : Cmd.shown e.cmd = true
    · simp [showing_shown h, h]
    · simp [showing_unshown h, h]

/-- The outputs read by an event. -/
def outputsRead : Event cpSig → Option Outputs
  | ⟨.host .tofuOutputs, .ok o⟩ => some o
  | _ => none

/-- The outputs read last. -/
def lastOutputs (tr : Trace cpSig) : Option Outputs := (tr.filterMap outputsRead).getLast?

/-- The tenant a command releases, or whose migrate Job it waits for. -/
def Cmd.onboards : Cmd → Option TenantId
  | .shell (.helmUpgrade v) => some v.tenant
  | .shell (.waitMigrateJob t) => some t
  | _ => none

/-- The release of a tenant, installed. -/
abbrev installed (v : HelmValues) : Event cpSig := ⟨.shell (.helmUpgrade v), .exited 0⟩

/-- The migrate Job of a tenant, completed. -/
abbrev migrated (t : TenantId) : Event cpSig := ⟨.shell (.waitMigrateJob t), .exited 0⟩

/-- The onboarding of the tenant got through: its release was installed, and its migrate Job,
    if there is one, was completed. -/
def Onboarded (t : TenantId) (tr : Trace cpSig) : Prop :=
  ∃ v, v.tenant = t ∧ installed v ∈ tr ∧ (v.migrate ≠ none → migrated t ∈ tr)

section

variable {t u : TenantId} {l l' : Trace cpSig}

/-- The onboarding of a tenant is not that of the others. -/
theorem onboarded_append (hl : ∀ e ∈ l, e.cmd.onboards ≠ some t) :
    Onboarded t (l ++ l') ↔ Onboarded t l' := by
  have hright {e : Event cpSig} (he : e.cmd.onboards = some t) : e ∈ l ++ l' ↔ e ∈ l' :=
    ⟨fun h => (List.mem_append.1 h).resolve_left fun h => hl e h he, List.mem_append_right l⟩
  refine exists_congr fun v => and_congr_right fun hv => ?_
  rw [hright (e := installed v) (congrArg some hv), hright (e := migrated t) rfl]

/-- A tenant no event is about is not onboarded. -/
theorem not_onboarded (hl : ∀ e ∈ l, e.cmd.onboards ≠ some t) : ¬Onboarded t l := fun h => by
  rw [← List.append_nil l, onboarded_append hl] at h
  obtain ⟨v, -, hv, -⟩ := h
  exact List.not_mem_nil hv

end

/-! ## One onboarding -/

section

variable {t u first p : TenantId} {outputs : Outputs} {secrets : TidMap String} {s : Registry}
  {evs : Trace cpSig} {α β : Type}

theorem Aside.unshown {c : Cmd} (h : Aside c) : ¬c.shown = true := by
  unfold Cmd.shown
  split <;> first | exact h.elim | exact Bool.false_ne_true

theorem Aside.quiet {c : Cmd} (h : Aside c) : Quiet c := by
  unfold Quiet
  split <;> first | exact h.elim | trivial

/-- A part of the program without such commands. -/
theorem unshown_wp {p : CP α} (hp : p.Calls fun c => ¬Cmd.shown c = true) (s : Registry) :
    p.wp (showing.on openWorld) (fun _ v => v.2 = evs) (s, evs) :=
  hp.wp (I := fun (v : Registry × Trace cpSig) => v.2 = evs) (fun _ _ hc hv =>
    ⟨trivial, fun _ _ h => h.2.trans ((showing_unshown hc).trans hv)⟩) rfl

/-- A program aside shows nothing. -/
theorem aside_wp {p : CP α} (hp : p.Calls Aside) :
    p.wp (showing.on openWorld) (fun _ v => v = (s, evs)) (s, evs) := by
  refine hp.wp (I := fun v => v = (s, evs)) ?_ rfl
  rintro c _ hc rfl
  refine ⟨trivial, fun r ⟨s', evs'⟩ h => Prod.ext ?_ (h.2.trans (showing_unshown hc.unshown))⟩
  cases c with
  | reg c => exact hc.elim
  | _ => exact h.1

/-- A part around the rest of a program. -/
theorem aside_bind {p : CP α} {f : α → CP β} {Q : Except Exn β → Registry × Trace cpSig → Prop}
    (hp : p.Calls Aside) (hf : ∀ a, (f a).wp (showing.on openWorld) Q (s, evs))
    (he : ∀ e, Q (.error e) (s, evs)) : (p >>= f).wp (showing.on openWorld) Q (s, evs) :=
  (aside_wp hp).bind (fun a v hv => by rw [hv]; exact hf a) fun e v hv => by rw [hv]; exact he e

/-- A process shown succeeds, or raises. -/
theorem run_shown {c : Shell} (hc : (Cmd.shell c).shown = true)
    {Q : Except Exn Unit → Registry × Trace cpSig → Prop}
    (hok : Q (.ok ()) (s, evs ++ [⟨.shell c, .exited 0⟩]))
    (herror : ∀ e r, r ≠ .exited 0 → Q (.error e) (s, evs ++ [⟨.shell c, r⟩])) :
    (run c).wp (showing.on openWorld) Q (s, evs) := by
  refine ⟨trivial, fun r ⟨s', evs'⟩ ⟨hs, hevs⟩ => ?_⟩
  obtain rfl : s' = s := hs
  obtain rfl : evs' = evs ++ [⟨.shell c, r⟩] := hevs.trans (showing_shown hc)
  match r with
  | .exited code =>
    by_cases h : code = 0
    · subst h
      exact hok
    · simpa [h] using herror _ (.exited code) (by simpa using h)
  | .timeoutExpired text => exact herror _ _ nofun
  | .raised text => exact herror _ _ nofun

/-- The events of an onboarding that got through. The release of the platform tenant carries
    the migrate Job, which is waited for. -/
structure GotThrough (u first : TenantId) (secrets : TidMap String) (v : HelmValues)
    (l : Trace cpSig) : Prop where
  tenant : v.tenant = u
  secret : secrets[u]? = some v.secret
  platform : u = first → (∃ m, v.migrate = some m ∧ m.tenantSecrets = secrets) ∧
    l = [installed v, migrated u]
  other : u ≠ first → v.migrate = none ∧ l = [installed v]

/-- The events of an onboarding that did not. -/
structure GotStuck (u : TenantId) (l : Trace cpSig) : Prop where
  own : ∀ e ∈ l, e.cmd.onboards = some u
  stuck : ¬Onboarded u l

/-- An onboarding that got through shows events of its tenant only. -/
theorem GotThrough.own {v : HelmValues} {l : Trace cpSig} (h : GotThrough u first secrets v l) :
    ∀ e ∈ l, e.cmd.onboards = some u := by
  intro e he
  by_cases hu : u = first
  · rw [(h.platform hu).2] at he
    rcases List.mem_pair.1 he with rfl | rfl
    · exact congrArg some h.tenant
    · rfl
  · rw [(h.other hu).2] at he
    rw [List.mem_singleton.1 he]
    exact congrArg some h.tenant

theorem stuck_nil : GotStuck u [] where
  own _ he := (nomatch he)
  stuck := not_onboarded fun _ he => (nomatch he)

/-- An onboarding may be stuck at its release. -/
theorem stuck_release {v : HelmValues} {r : ProcOutcome} (hv : v.tenant = u) (hr : r ≠ .exited 0) :
    GotStuck u [⟨.shell (.helmUpgrade v), r⟩] where
  own e he := by rw [List.mem_singleton.1 he]; exact congrArg some hv
  stuck := by
    rintro ⟨v', -, hmem, -⟩
    cases List.mem_singleton.1 hmem
    exact hr rfl

/-- It may be stuck at the migrate Job. -/
theorem stuck_wait {v : HelmValues} {r : ProcOutcome} (hv : v.tenant = u)
    (hmigrate : v.migrate ≠ none) (hr : r ≠ .exited 0) :
    GotStuck u [installed v, ⟨.shell (.waitMigrateJob u), r⟩] where
  own e he := by
    rcases List.mem_pair.1 he with rfl | rfl
    · exact congrArg some hv
    · rfl
  stuck := by
    rintro ⟨v', -, hmem, hwait⟩
    have hv' : v' = v := by
      rcases List.mem_pair.1 hmem with h | h
      · cases h; rfl
      · cases h
    rcases List.mem_pair.1 (hwait (hv' ▸ hmigrate)) with h | h
    · cases h
    · cases h; exact hr rfl

/-- The outcome of an onboarding, after the events `evs`. -/
def onboardEnd (u first : TenantId) (secrets : TidMap String) (s : Registry) (evs : Trace cpSig) :
    Except Exn Unit → Registry × Trace cpSig → Prop :=
  outcome (fun _ w => w.1 = s ∧ ∃ v l, GotThrough u first secrets v l ∧ w.2 = evs ++ l)
    fun _ w => w.1 = s ∧ ∃ l, GotStuck u l ∧ w.2 = evs ++ l

/-- The helm upgrade of an onboarding, and the wait for its migrate Job. -/
theorem release_wp {v : HelmValues} (hv : v.tenant = u) (hsecret : secrets[u]? = some v.secret)
    (hfirst : u = first → ∃ m, v.migrate = some m ∧ m.tenantSecrets = secrets)
    (hother : u ≠ first → v.migrate = none) :
    (do run (.helmUpgrade v); awaitMigrate u first : CP Unit).wp (showing.on openWorld)
      (onboardEnd u first secrets s evs) (s, evs) := by
  refine (wp_bind _ _).2 (run_shown rfl ?_ fun e r hr => ⟨rfl, _, stuck_release hv hr, rfl⟩)
  unfold awaitMigrate
  split
  · next hu =>
    obtain ⟨m, hm, hsecrets⟩ := hfirst hu
    refine run_shown rfl ⟨rfl, v, _, ⟨hv, hsecret, fun _ => ⟨⟨m, hm, hsecrets⟩, rfl⟩,
      fun h => (h hu).elim⟩, List.append_assoc ..⟩ fun e r hr => ?_
    exact ⟨rfl, _, stuck_wait hv (by simp [hm]) hr, List.append_assoc ..⟩
  · next hu =>
    exact ⟨rfl, v, _, ⟨hv, hsecret, fun h => (hu h).elim, fun _ => ⟨hother hu, rfl⟩⟩, rfl⟩

theorem require_aside (key value : String) : (require key value).Calls Aside :=
  .ite (fun _ => trivial) fun _ => trivial

/-- The values of the edge are gathered aside. -/
theorem edgeSets_aside (ip : String) (ids : List TenantId) :
    (edgeSets t outputs ip ids).Calls Aside := by
  refine .ite (fun _ => ?_) fun _ => .ite (fun _ => trivial) fun _ => ?_
  · exact calls_iff.2 (by simp [run, getenv, Aside])
  · cases outputs.tenantNodePorts[t]? <;> trivial

/-- So is the URL of the edge. -/
theorem edgeUrl_aside (t : TenantId) (timeout : ℕ) : (edgeUrl outputs t timeout).Calls Aside := by
  have hpoll (n : ℕ) : (pollIngressHostname t n).Calls Aside := by
    induction n with
    | zero => trivial
    | succ n ih =>
      refine .bind ⟨trivial, fun r => calls_result r⟩ fun host => ?_
      exact .ite (fun _ => trivial) fun _ => ih
  refine .ite (fun _ => ?_) fun _ => trivial
  refine .bind (.bind ⟨trivial, fun _ => trivial⟩ fun n => hpoll n) fun host => ?_
  exact ⟨trivial, fun r => calls_result r⟩

/-- An onboarding gets through, or is stuck, and shows that. -/
theorem onboard_wp (ip : String) (ids : List TenantId) (irsaRoles : TidMap String) :
    (onboard u outputs ip ids irsaRoles secrets).wp (showing.on openWorld)
      (onboardEnd u (platformTenant outputs (if u ∈ ids then ids else ids ++ [u])) secrets s evs)
      (s, evs) := by
  have hstuck : ∀ e, onboardEnd u (platformTenant outputs (if u ∈ ids then ids else ids ++ [u]))
      secrets s evs (.error e) (s, evs) := fun _ => ⟨rfl, [], stuck_nil, (List.append_nil _).symm⟩
  unfold onboard
  split
  · next irsa secret _ hsecret =>
    dsimp only
    generalize platformTenant outputs (if u ∈ ids then ids else ids ++ [u]) = first at hstuck ⊢
    refine aside_bind (.ite (fun _ => trivial) fun _ => ⟨trivial, fun _ => trivial⟩)
      (fun region => ?_) hstuck
    refine aside_bind (require_aside _ _) (fun host => ?_) hstuck
    refine aside_bind (edgeSets_aside _ _) (fun edge => ?_) hstuck
    refine aside_bind ⟨trivial, fun r => calls_result r⟩ (fun _ => ?_) hstuck
    refine aside_bind (calls_iff.2 (by simp [run, Aside])) (fun _ => ?_) hstuck
    refine aside_bind (calls_iff.2 (by simp [run, Aside])) (fun _ => ?_) hstuck
    unfold releaseMigrate
    split
    · next hu =>
      -- The release of the platform tenant: the Job of the last one is deleted first.
      refine (wp_bind _ _).2 ((wp_map _ _).2 ?_)
      refine aside_bind (calls_iff.2 (by simp [run, Aside])) (fun _ => ?_) hstuck
      refine aside_bind (require_aside _ _) (fun migrator => ?_) hstuck
      refine aside_bind (require_aside _ _) (fun master => ?_) hstuck
      exact release_wp rfl hsecret (fun _ => ⟨_, rfl, rfl⟩) fun h => (h hu).elim
    · next hu => exact release_wp rfl hsecret (fun h => (hu h).elim) fun _ => rfl
  · exact hstuck _

/-! ## The onboardings of a provisioning -/

/-- The platform tenant the onboarding of a tenant finds, the tenant being added to the ids. -/
def onboardPlatformOf (outputs : Outputs) (ids : List TenantId) (u : TenantId) : TenantId :=
  platformTenant outputs (if u ∈ ids then ids else ids ++ [u])

/-- The platform tenant is the same in every onboarding, unless there is no id at all. -/
theorem platformTenant_extend {ids : List TenantId} (hids : ids ≠ []) (u : TenantId) :
    onboardPlatformOf outputs ids u = platformTenant outputs ids := by
  unfold onboardPlatformOf
  split
  · rfl
  · obtain ⟨v, ids, rfl⟩ := List.exists_cons_of_ne_nil hids
    rfl

/-- The events of the onboardings that got through: of the platform tenant, unless it is the
    tenant itself, then of the tenant. -/
def Onboardings (t : TenantId) (outputs : Outputs) (maps : IdentityMaps) (l : Trace cpSig) : Prop :=
  ∃ v l₂, GotThrough t (onboardPlatformOf outputs maps.ids t) maps.secrets v l₂ ∧
    let p := platformTenant outputs maps.ids
    (t = p → l = l₂) ∧ (t ≠ p → ∃ v' l₁,
      GotThrough p (onboardPlatformOf outputs maps.ids p) maps.secrets v' l₁ ∧ l = l₁ ++ l₂)

/-- The platform tenant is onboarded again before another tenant is. -/
theorem onboardAll_wp (ip : String) (maps : IdentityMaps) :
    (onboardAll t outputs ip maps).wp (showing.on openWorld)
      (outcome (fun _ w => w.1 = s ∧ ∃ l, Onboardings t outputs maps l ∧ w.2 = evs ++ l)
        fun _ w => ∃ l, ¬Onboarded t l ∧ w.2 = evs ++ l) (s, evs) := by
  have hself (evs : Trace cpSig) :
      (onboard t outputs ip maps.ids maps.irsa maps.secrets).wp (showing.on openWorld)
        (onboardEnd t (onboardPlatformOf outputs maps.ids t) maps.secrets s evs) (s, evs) :=
    onboard_wp ip maps.ids maps.irsa
  unfold onboardAll onboardPlatform
  split
  · next hne =>
    have hown {l : Trace cpSig}
        (hl : ∀ e ∈ l, e.cmd.onboards = some (platformTenant outputs maps.ids)) :
        ∀ e ∈ l, e.cmd.onboards ≠ some t := fun e he h =>
      hne (Option.some.inj (h.symm.trans (hl e he)))
    refine (onboard_wp ip maps.ids maps.irsa).bind ?_ ?_
    · rintro _ ⟨_, _⟩ ⟨rfl, v', l₁, h₁, rfl⟩
      refine (hself _).imp ?_
      rintro (e | _) ⟨_, _⟩
      · rintro ⟨rfl, l₂, h₂, rfl⟩
        exact ⟨l₁ ++ l₂, fun h => h₂.stuck ((onboarded_append (hown h₁.own)).1 h),
          List.append_assoc ..⟩
      · rintro ⟨rfl, v, l₂, h₂, rfl⟩
        exact ⟨rfl, l₁ ++ l₂, ⟨v, l₂, h₂, fun h => (hne h).elim, fun _ => ⟨v', l₁, h₁, rfl⟩⟩,
          List.append_assoc ..⟩
    · rintro e ⟨_, _⟩ ⟨rfl, l, h, rfl⟩
      exact ⟨l, not_onboarded (hown h.own), rfl⟩
  · next heq =>
    refine (hself _).imp ?_
    rintro (e | _) ⟨_, _⟩
    · rintro ⟨rfl, l, h, rfl⟩
      exact ⟨l, h.stuck, rfl⟩
    · rintro ⟨rfl, v, l, h, rfl⟩
      exact ⟨rfl, l, ⟨v, l, h, fun _ => rfl, fun hne => (heq hne).elim⟩, rfl⟩

/-! ## The outputs read -/

/-- The events only read the outputs. -/
def ReadsOutputs (l : Trace cpSig) : Prop := ∀ e ∈ l, e.cmd = .host .tofuOutputs

/-- The outcome of a program that returns the outputs it read last. -/
def readEnd (out : α → Outputs) (s : Registry) (evs : Trace cpSig) :
    Except Exn α → Registry × Trace cpSig → Prop :=
  outcome (fun a w => w.1 = s ∧ ∃ l, ReadsOutputs l ∧ lastOutputs l = some (out a) ∧ w.2 = evs ++ l)
    fun _ w => ∃ l, ReadsOutputs l ∧ w.2 = evs ++ l

/-- The reading of the outputs shows what was read. -/
theorem tofuOutputs_wp : tofuOutputs.wp (showing.on openWorld) (readEnd id s evs) (s, evs) := by
  refine ⟨trivial, fun r ⟨s', evs'⟩ ⟨hs, hevs⟩ => ?_⟩
  obtain rfl : s' = s := hs
  obtain rfl : evs' = evs ++ [⟨.host .tofuOutputs, r⟩] := hevs
  have hreads : ReadsOutputs [⟨.host .tofuOutputs, r⟩] := fun e he => by
    rw [List.mem_singleton.1 he]
  cases r with
  | error e => exact ⟨_, hreads, rfl⟩
  | ok o => exact ⟨rfl, _, hreads, rfl, rfl⟩

/-- The outputs read, then read again. -/
theorem readEnd_append {l : Trace cpSig} {out : α → Outputs} (hl : ReadsOutputs l)
    {x : Except Exn α} {w : Registry × Trace cpSig} (h : readEnd out s (evs ++ l) x w) :
    readEnd out s evs x w := by
  have hreads {l' : Trace cpSig} (hl' : ReadsOutputs l') : ReadsOutputs (l ++ l') := fun e he =>
    (List.mem_append.1 he).elim (hl e) (hl' e)
  cases x with
  | error e =>
    obtain ⟨l', hl', hw⟩ := h
    exact ⟨l ++ l', hreads hl', hw.trans (List.append_assoc ..)⟩
  | ok a =>
    obtain ⟨hs, l', hl', ho, hw⟩ := h
    refine ⟨hs, l ++ l', hreads hl', ?_, hw.trans (List.append_assoc ..)⟩
    rw [lastOutputs, List.filterMap_append, List.getLast?_append]
    exact Option.or_eq_some_iff.2 (.inl ho)

/-- The infrastructure is ensured with the outputs read last. -/
theorem ensureInfra_wp (myIp : Option String) :
    (ensureInfra t myIp).wp (showing.on openWorld) (readEnd id s evs) (s, evs) := by
  have herror : ∀ e, readEnd (id : Outputs → Outputs) s evs (.error e) (s, evs) := fun _ =>
    ⟨[], fun _ h => (nomatch h), (List.append_nil _).symm⟩
  unfold ensureInfra
  refine aside_bind ⟨trivial, fun _ => trivial⟩ (fun tfvars => ?_) herror
  refine (wp_ite _ _ _).2 ⟨fun _ => herror _, fun _ => ?_⟩
  dsimp only
  refine aside_bind ⟨trivial, fun r => calls_result r⟩ (fun changed => ?_) herror
  refine tofuOutputs_wp.bind ?_ fun e w h => h
  rintro outputs ⟨_, _⟩ ⟨rfl, l, hl, ho, rfl⟩
  refine (wp_ite _ _ _).2 ⟨fun _ => ?_, fun _ => ⟨rfl, l, hl, ho, rfl⟩⟩
  refine aside_bind (.bind ?_ fun _ => ⟨trivial, fun r => calls_result r⟩) (fun _ => ?_)
    fun _ => ⟨l, hl, rfl⟩
  · exact .ite (fun _ => trivial) fun _ => ⟨trivial, fun r => calls_result r⟩
  · exact tofuOutputs_wp.imp fun x w h => readEnd_append hl h

/-- So is the identity. -/
theorem ensureIdentity_wp (args : ProvisionArgs) :
    (ensureIdentity t args).wp (showing.on openWorld) (readEnd Prod.fst s evs) (s, evs) := by
  unfold ensureIdentity
  refine (wp_ite _ _ _).2 ⟨fun _ => ?_, fun _ => ?_⟩
  · exact (ensureInfra_wp args.myIp).bind (fun o w h => h) fun e w h => h
  · refine tofuOutputs_wp.bind ?_ fun e w h => h
    rintro outputs ⟨s', _⟩ ⟨rfl, l, hl, ho, rfl⟩
    have herror : ∀ e, readEnd (Prod.fst : Outputs × Identity → Outputs) s' evs (.error e)
        (s', evs ++ l) := fun _ => ⟨l, hl, rfl⟩
    have hok : ∀ i : Identity, readEnd Prod.fst s' evs (.ok (outputs, i)) (s', evs ++ l) :=
      fun _ => ⟨rfl, l, hl, ho, rfl⟩
    refine (wp_ite _ _ _).2 ⟨fun _ => ?_, fun _ => ?_⟩
    · exact aside_bind (ensureTenantIdentity_creating.imp fun c hc => by
        unfold Aside; split <;> first | exact hc.elim | trivial) (fun i => hok i) herror
    · refine (wp_ite _ _ _).2 ⟨fun _ => herror _, fun _ => ?_⟩
      refine (wp_ite _ _ _).2 ⟨fun _ => herror _, fun _ => ?_⟩
      exact (wp_ite _ _ _).2 ⟨fun _ => herror _, fun _ => hok _⟩

theorem ReadsOutputs.onboards (hevs : ReadsOutputs evs) : ∀ e ∈ evs, e.cmd.onboards ≠ some t :=
  fun e he => by rw [hevs e he]; exact (Option.some_ne_none t).symm

/-! ## The provisioning -/

/-- The events of a provisioning that got through its onboardings: the outputs are read, then
    the registry, in which the row of the tenant was written. -/
structure GotOnboarded (t : TenantId) (s : Registry) (outputs : Outputs) (s₁ : Registry) (row : Row)
    (evs : Trace cpSig) : Prop where
  events : ∃ reads l, evs = reads ++ ⟨.reg .list, s₁.list⟩ :: l ∧ ReadsOutputs reads ∧
    lastOutputs reads = some outputs ∧
    Onboardings t outputs (mergeIdentityMaps outputs (extraIdentities s₁.list t row.identity)) l
  row : s₁.get t = some row
  others : ∀ u ≠ t, s₁.get u = s.get u

/-- A provisioning that got the tenant onboarded did so from the outputs, the rows and the row it
    read last. -/
theorem provisionSteps_wp (args : ProvisionArgs) {s' : Registry}
    (hs : ∀ u ≠ t, s'.get u = s.get u) :
    (provisionSteps t args).wp (showing.on openWorld) (fun _ w => Onboarded t w.2 →
      ∃ outputs s₁ row, GotOnboarded t s outputs s₁ row w.2) (s', []) := by
  unfold provisionSteps
  refine (ensureIdentity_wp args).bind ?_ ?_
  · rintro ⟨outputs, i⟩ ⟨s', reads⟩ ⟨rfl, _, hreads, ho, rfl⟩
    dsimp only at hreads ho hs ⊢
    rw [wp_bind, wp_upsert (by simp [withIdentity, provisioning])]
    refine ⟨trivial, fun now => ?_⟩
    rw [showing_unshown (by simp [Cmd.shown]), outcome_ok, wp_bind, wp_list]
    refine ⟨trivial, ?_⟩
    rw [showing_shown rfl, outcome_ok]
    -- The row listed is the one just written.
    obtain ⟨row, hrow⟩ : ∃ row, row = s'.written now t (withIdentity (provisioning args.tier) i) :=
      ⟨_, rfl⟩
    rw [← hrow]
    obtain rfl : row.identity = i := hrow ▸ Registry.written_identity ..
    clear hrow
    have hown : ∀ e ∈ reads ++ [⟨.reg .list, Registry.list (s'.insert t row)⟩],
        e.cmd.onboards ≠ some t := by
      intro e he
      rcases List.mem_append.1 he with he | he
      · exact hreads.onboards e he
      · rw [List.mem_singleton.1 he]
        exact (Option.some_ne_none t).symm
    refine aside_bind (calls_iff.2 (by simp [nodeIp, getenv, nodeAddress, Aside])) (fun ip => ?_)
      fun _ h => (not_onboarded hown h).elim
    refine (onboardAll_wp ip _).bind ?_ ?_
    · rintro _ ⟨s'', _⟩ ⟨rfl, l, hl, rfl⟩
      refine (unshown_wp ?_ _).imp ?_
      · refine .bind ((edgeUrl_aside t 600).imp fun _ => Aside.unshown) fun alb => ?_
        exact .bind ⟨by simp [Cmd.shown], fun r => calls_result r⟩ fun _ => trivial
      · rintro _ ⟨_, _⟩ rfl -
        refine ⟨outputs, _, row, ⟨reads, l, ?_, hreads, ho, hl⟩, Registry.get_insert_self,
          fun u hu => ?_⟩
        · rw [List.append_assoc]; rfl
        · exact (Registry.get_insert_ne hu.symm).trans (hs u hu)
    · rintro e ⟨_, _⟩ ⟨l, hl, rfl⟩ h
      exact (hl ((onboarded_append hown).1 h)).elim
  · rintro e ⟨_, _⟩ ⟨l, hl, rfl⟩ h
    exact (not_onboarded (fun e he => hl.onboards e he) h).elim

/-- So did one whose failures are recorded. -/
theorem provision_wp (args : ProvisionArgs) :
    (provision t args).wp (showing.on openWorld) (fun _ w => Onboarded t w.2 →
      ∃ outputs s₁ row, GotOnboarded t s outputs s₁ row w.2) (s, []) := by
  unfold provision
  rw [wp_bind, wp_upsert (by simp [provisioning])]
  refine ⟨trivial, fun now => ?_⟩
  rw [showing_unshown (by simp [Cmd.shown]), outcome_ok, wp_tryCatch]
  refine (provisionSteps_wp args fun u hu => Registry.get_insert_ne hu.symm).imp ?_
  rintro (exc | _) ⟨s', evs⟩ h
  · -- The record of the failure.
    refine (unshown_wp ?_ s').imp fun _ _ hw => hw ▸ h
    exact .bind ⟨by simp [Cmd.shown], fun r => calls_result r⟩ fun _ => trivial
  · exact h

/-- The executions of a provisioning that got the tenant onboarded. -/
theorem provision_gotOnboarded {args : ProvisionArgs} {s' : Registry} {tr : Trace cpSig}
    {x : Except Exn Unit} (hx : Exec openWorld (provision t args) s tr x s')
    (hthrough : Onboarded t tr) : ∃ outputs s₁ row,
      GotOnboarded t s outputs s₁ row (tr.filter fun e => e.cmd.shown) := by
  have h := hx.on_outcome (provision_wp args)
  rw [after_showing, List.nil_append] at h
  obtain ⟨v, hv, hmem, hwait⟩ := hthrough
  exact h ⟨v, hv, List.mem_filter.2 ⟨hmem, rfl⟩, fun hm => List.mem_filter.2 ⟨hwait hm, rfl⟩⟩

/-! ## The migrate Job -/

/-- The event installs a release with a migrate Job. -/
def migrates (e : Event cpSig) : Bool :=
  match e.cmd with
  | .shell (.helmUpgrade v) => v.migrate.isSome
  | _ => false

/-- The maps a provisioning onboards with, from the outputs and the rows it read. -/
def provisionMaps (outputs : Outputs) (rows : List (TenantId × Row)) (t : TenantId) (row : Row) :
    IdentityMaps :=
  mergeIdentityMaps outputs (extraIdentities rows t row.identity)

/-- Exactly one migrate Job is created, in the right place, with the right map: by the release
    `v`, when the registry was `s` and the rows `rows` were read. -/
structure MigratesOnce (t : TenantId) (s : Registry) (outputs : Outputs)
    (rows : List (TenantId × Row)) (maps : IdentityMaps) (tr : Trace cpSig) (v : HelmValues) :
    Prop where
  /-- Every onboarding finds the same platform tenant. -/
  agree : ∀ u, onboardPlatformOf outputs maps.ids u = platformTenant outputs maps.ids
  once : tr.filter migrates = [installed v]
  tenant : v.tenant = platformTenant outputs maps.ids
  secrets : ∃ m, v.migrate = some m ∧ m.tenantSecrets = maps.secrets
  /-- The map of secrets has the tenant, those of OpenTofu and those of the registry, which
      wins. -/
  self : t ∈ maps.secrets
  tofu : ∀ u ∈ outputs.tenantSecretNames, u ∈ maps.secrets
  registry : ∀ u row, (u, row) ∈ rows → row.ownsIdentity → maps.secrets[u]? = row.secretName
  unowned : ∀ u ≠ t, (∀ row, (u, row) ∈ rows → ¬row.ownsIdentity) →
    maps.secrets[u]? = outputs.tenantSecretNames[u]?
  /-- The rows read are those of the registry. -/
  rows : ∀ u ≠ t, ∀ row, (u, row) ∈ rows ↔ s.get u = some row
  /-- The Job is completed before the tenant is released. -/
  awaited : t ≠ platformTenant outputs maps.ids → ∀ tr₁ v' r tr₂,
    tr = tr₁ ++ ⟨.shell (.helmUpgrade v'), r⟩ :: tr₂ → v'.tenant = t →
      [installed v, migrated (platformTenant outputs maps.ids)].Sublist tr₁

end

section

variable {t u : TenantId} {outputs : Outputs} {s : Registry} {row : Row} {l tr : Trace cpSig}

/-- The identity of a row recorded is among those recorded. -/
theorem cpIdentities_get (hrow : s.get u = some row) (howns : row.ownsIdentity) :
    (cpIdentities s.list)[u]? = some row.identity := by
  refine Std.ExtTreeMap.getElem?_ofList_of_mem Std.ReflCmp.compare_self ?_
    (List.mem_filterMap.2 ⟨(u, row), Registry.mem_list.2 hrow, if_pos howns⟩)
  have hnodup := List.pairwise_map.1 (Registry.list_nodup (s := s))
  refine List.pairwise_filterMap.2 (hnodup.imp fun {p q} hne a ha b hb h => ?_)
  obtain ⟨-, ha⟩ := Option.ite_none_right_eq_some.1 ha
  obtain ⟨-, hb⟩ := Option.ite_none_right_eq_some.1 hb
  obtain rfl := Option.some.inj ha
  obtain rfl := Option.some.inj hb
  exact hne (Std.LawfulEqCmp.eq_of_compare h)

/-- The identity of a row recorded is given to the onboarding, whether just ensured or not. -/
theorem extraIdentities_get {row' : Row} (ht : s.get t = some row) (hrow : s.get u = some row')
    (howns : row'.ownsIdentity) :
    (extraIdentities s.list t row.identity)[u]? = some row'.identity := by
  unfold extraIdentities
  split
  · rcases eq_or_ne t u with rfl | hne
    · rw [Std.ExtTreeMap.getElem?_insert_self, Option.some.inj (ht.symm.trans hrow)]
    · rw [Std.ExtTreeMap.getElem?_insert, if_neg fun h => hne (Std.LawfulEqCmp.eq_of_compare h)]
      exact cpIdentities_get hrow howns
  · exact cpIdentities_get hrow howns

/-- The map has the secret of every row that owns its identity. -/
theorem provisionMaps_registry {row' : Row} (ht : s.get t = some row) (hrow : s.get u = some row')
    (howns : row'.ownsIdentity) :
    (provisionMaps outputs s.list t row).secrets[u]? = row'.secretName := by
  refine mergeIdentityMaps_secrets (extraIdentities_get ht hrow howns) ?_
  have h := howns
  unfold Row.ownsIdentity at h
  simp only [Bool.and_eq_true] at h
  exact h.1.2

/-- It has that of the outputs for any other tenant. -/
theorem provisionMaps_unowned (hu : u ≠ t)
    (hrow : ∀ row', s.get u = some row' → ¬row'.ownsIdentity) :
    (provisionMaps outputs s.list t row).secrets[u]? = outputs.tenantSecretNames[u]? := by
  have hcp : u ∉ cpIdentities s.list := fun h => by
    obtain ⟨row', hrow', howns⟩ := mem_cpIdentities.1 h
    exact hrow row' hrow' howns
  refine mergeIdentityMaps_secrets_tofu fun i hi => ?_
  refine (hcp ?_).elim
  rw [Std.ExtTreeMap.mem_iff_isSome_getElem?]
  unfold extraIdentities at hi
  split at hi
  · rw [Std.ExtTreeMap.getElem?_insert,
      if_neg fun h => hu (Std.LawfulEqCmp.eq_of_compare h).symm] at hi
    rw [hi]
    rfl
  · rw [hi]
    rfl

/-- The events of the onboardings are those of releases. -/
theorem Onboardings.own {maps : IdentityMaps} (h : Onboardings t outputs maps l) :
    ∀ e ∈ l, ∃ u, e.cmd.onboards = some u := by
  obtain ⟨v, l₂, h₂, hself, hother⟩ := h
  intro e he
  by_cases ht : t = platformTenant outputs maps.ids
  · rw [hself ht] at he
    exact ⟨_, h₂.own e he⟩
  · obtain ⟨v', l₁, h₁, rfl⟩ := hother ht
    rcases List.mem_append.1 he with he | he
    · exact ⟨_, h₁.own e he⟩
    · exact ⟨_, h₂.own e he⟩

/-- The migrate Job of the onboardings: the only one, and completed before the release of the
    tenant. -/
theorem Onboardings.once {maps : IdentityMaps} (h : Onboardings t outputs maps l)
    (hids : maps.ids ≠ []) :
    ∃ v m, v.tenant = platformTenant outputs maps.ids ∧ v.migrate = some m ∧
      m.tenantSecrets = maps.secrets ∧ l.filter migrates = [installed v] ∧
      (t ≠ platformTenant outputs maps.ids → ∃ v', v'.tenant = t ∧
        l = [installed v, migrated (platformTenant outputs maps.ids)] ++ [installed v']) := by
  obtain ⟨v, l₂, h₂, hself, hother⟩ := h
  rw [platformTenant_extend hids] at h₂ hother
  by_cases ht : t = platformTenant outputs maps.ids
  · obtain ⟨⟨m, hm, hsecrets⟩, hl⟩ := h₂.platform ht
    refine ⟨v, m, h₂.tenant.trans ht, hm, hsecrets, ?_, fun hne => (hne ht).elim⟩
    rw [hself ht, hl]
    simp [migrates, hm]
  · obtain ⟨v', l₁, h₁, rfl⟩ := hother ht
    obtain ⟨⟨m, hm, hsecrets⟩, hl₁⟩ := h₁.platform rfl
    obtain ⟨hnone, hl₂⟩ := h₂.other ht
    refine ⟨v', m, h₁.tenant, hm, hsecrets, ?_, fun _ => ⟨v, h₂.tenant, by rw [hl₁, hl₂]⟩⟩
    rw [hl₁, hl₂]
    simp [migrates, hm, hnone]

/-- An event of an onboarding reads no outputs. -/
theorem outputsRead_of_onboards {e : Event cpSig} {u : TenantId} (h : e.cmd.onboards = some u) :
    outputsRead e = none := by
  unfold outputsRead
  split
  · exact (nomatch h)
  · rfl

theorem migrates_shown {e : Event cpSig} (h : migrates e) : Cmd.shown e.cmd = true := by
  unfold migrates at h
  split at h
  · next he => rw [he]; rfl
  · exact (Bool.false_ne_true h).elim

/-- The outputs read last are those of the events shown. -/
theorem lastOutputs_filter : lastOutputs (tr.filter fun e => e.cmd.shown) = lastOutputs tr := by
  rw [lastOutputs, List.filterMap_filter, lastOutputs]
  congr 2
  funext e
  split
  · rfl
  · next h =>
    unfold outputsRead
    split
    · exact (h rfl).elim
    · rfl

/-- The migrations of an execution are among the events shown. -/
theorem filter_migrates : tr.filter migrates =
    (tr.filter fun e => e.cmd.shown).filter migrates := by
  rw [List.filter_filter]
  refine List.filter_congr fun e _ => ?_
  cases h : migrates e with
  | false => rfl
  | true => rw [migrates_shown h]; rfl

/-- What a trace shows last, it shows after what it shows before. -/
theorem eq_of_append_singleton {α : Type} {a b c : List α} {x y : α} (h : a ++ x :: b = c ++ [y])
    (hx : x ∉ c) : a = c := by
  rcases List.append_eq_append_iff.1 h with ⟨d, rfl, hd⟩ | ⟨d, rfl, hd⟩
  · cases d with
    | nil => simp
    | cons z d => exact (hx (by simp [(List.cons.inj hd).1])).elim
  · cases d with
    | nil => simp
    | cons z d => simpa using congrArg List.length hd

theorem provision_migrates {args : ProvisionArgs} {s' : Registry} {x : Except Exn Unit}
    {rows : List (TenantId × Row)} (hx : Exec openWorld (provision t args) s tr x s')
    (hthrough : Onboarded t tr) (houtputs : lastOutputs tr = some outputs)
    (hrows : ⟨.reg .list, rows⟩ ∈ tr) (hrow : (t, row) ∈ rows)
    (hids : (provisionMaps outputs rows t row).ids ≠ []) :
    ∃ v, MigratesOnce t s outputs rows (provisionMaps outputs rows t row) tr v := by
  obtain ⟨o, s₁, row₁, ⟨reads, l, hevs, hreads, ho, hl⟩, hrow₁, hothers⟩ :=
    provision_gotOnboarded hx hthrough
  -- The outputs, the rows and the row are those of the run.
  obtain rfl : outputs = o := by
    have hnone : l.filterMap outputsRead = [] := List.filterMap_eq_nil_iff.2 fun e he =>
      let ⟨u, hu⟩ := hl.own e he
      outputsRead_of_onboards hu
    rw [← lastOutputs_filter, hevs, lastOutputs, List.filterMap_append,
      List.filterMap_cons_none rfl, hnone, List.append_nil] at houtputs
    exact Option.some.inj (houtputs.symm.trans ho)
  obtain rfl : rows = s₁.list := by
    have hmem : (⟨.reg .list, rows⟩ : Event cpSig) ∈ reads ++ ⟨.reg .list, s₁.list⟩ :: l :=
      hevs ▸ List.mem_filter.2 ⟨hrows, rfl⟩
    rcases List.mem_append.1 hmem with h | h
    · exact (nomatch hreads _ h)
    rcases List.mem_cons.1 h with h | h
    · cases h
      rfl
    · obtain ⟨u, hu⟩ := hl.own _ h
      exact (nomatch hu)
  obtain rfl : row₁ = row := Option.some.inj (hrow₁.symm.trans (Registry.mem_list.1 hrow))
  obtain ⟨v, m, htenant, hm, hsecrets, honce, hawaited⟩ := hl.once hids
  refine ⟨v, platformTenant_extend hids, ?_, htenant, ⟨m, hm, hsecrets⟩, ?_,
    fun u hu => mem_mergeIdentityMaps_secrets hu,
    fun u row' hu howns => provisionMaps_registry hrow₁ (Registry.mem_list.1 hu) howns,
    fun u hu hnot => provisionMaps_unowned hu fun row' hrow' =>
      hnot row' (Registry.mem_list.2 hrow'),
    fun u hu row' => by rw [Registry.mem_list, hothers u hu], ?_⟩
  · have hnone : reads.filter migrates = [] := List.filter_eq_nil_iff.2 fun e he => by
      rw [migrates, hreads e he]
      exact Bool.false_ne_true
    rw [filter_migrates, hevs, List.filter_append, hnone, ← honce]
    rfl
  · obtain ⟨v', l₂, h₂, -⟩ := hl
    rw [Std.ExtTreeMap.mem_iff_isSome_getElem?]
    exact Option.isSome_iff_exists.2 ⟨_, h₂.secret⟩
  · intro ht tr₁ v₁ r tr₂ htr hv₁
    obtain ⟨v', hv', rfl⟩ := hawaited ht
    rw [htr, List.filter_append, List.filter_cons_of_pos rfl, ← List.cons_append,
      ← List.append_assoc] at hevs
    -- The release of the tenant is the last event shown.
    have hlast := eq_of_append_singleton hevs fun h => by
      rcases List.mem_append.1 h with h | h
      · exact (nomatch hreads _ h)
      · rcases List.mem_cons.1 h with h | h
        · cases h
        · rcases List.mem_pair.1 h with h | h
          · cases h
            exact ht (hv₁.symm.trans htenant)
          · cases h
    refine List.Sublist.trans ?_ (List.filter_sublist (p := fun e => e.cmd.shown))
    rw [hlast]
    exact (List.sublist_cons_self _ _).trans (List.sublist_append_right _ _)

/-- A tenant is provisioned after the platform tenant. -/
def newTenant : Trace cpSig × Except Exn Unit × Registry :=
  (provision .b {}).eval (openAnswer "now") (fun _ => succeeding) 0
    (platformAt .active 1 true).registry

theorem provision_migrates_b : ∃ rows row v, MigratesOnce .b (platformAt .active 1 true).registry
    labOutputs rows (provisionMaps labOutputs rows .b row) newTenant.1 v := by
  obtain ⟨rows, hrows, row, hrow, hids⟩ : ∃ rows, (⟨.reg .list, rows⟩ : Event cpSig) ∈ newTenant.1 ∧
      ∃ row, (TenantId.b, row) ∈ rows ∧ (provisionMaps labOutputs rows .b row).ids = [.a, .b] :=
    ⟨_, List.mem_of_getElem? (i := 9) rfl, _, List.mem_of_getElem? (i := 1) rfl, rfl⟩
  have hthrough : Onboarded .b newTenant.1 :=
    ⟨_, rfl, List.mem_of_getElem? (i := 24) rfl, fun h => (h rfl).elim⟩
  exact ⟨rows, row, provision_migrates
    (exec_eval (openAnswer_step "now") (fun _ => succeeding) (provision .b {}) 0 _) hthrough rfl
    hrows hrow (by simp [hids])⟩

end

end NtierLab
