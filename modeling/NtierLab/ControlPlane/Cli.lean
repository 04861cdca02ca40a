import NtierLab.Prog.Crash
import NtierLab.ControlPlane.Console

/-!
# The command line

The command line (`cli.py`): a command on a registry, an exit code, and what is printed. An
exception that is not caught ends the process with code 1, as does `SystemExit` with a text.

* `cliMain`: the commands;
* `Verb.Done`: what a command on a tenant is for, on the registry;
* `exit_iff`: whatever the external commands do, a command on a tenant exits with 0 exactly
  if the registry then has the tenant as the command is to leave it.
-/

namespace NtierLab

open Prog

/-- What is printed. -/
inductive Printed
  | tenants (rows : List (TenantId × Row))
  | discovered (rows : List (TenantId × Row)) (unmanaged : List String)
  | reconciled (t : TenantId) (result : Reconciled)
  | swept (results : List Result) (unmanaged : List String)
  | adopted (rows : List Row)
  | row (t : TenantId) (item : Option Row)
  | notFound (t : TenantId)
  | error (text : String)
  | gone (t : TenantId)
  | deleteFailed (t : TenantId) (text : String)
  | usage (text : String)

/-- The commands on a tenant. -/
inductive Verb
  | get
  | create (tier : String) (ensureInfra : Bool)
  | suspend
  | resume
  | delete

/-- The commands, with the ids as they are given. -/
inductive CliCommand
  | discover
  | reconcile (tenant : Option String)
  | adopt (tenants : List String)
  | list
  | tenant (verb : Verb) (raw : String)

/-- `discover_active`: the registry, and the namespaces that are not in it. -/
def discoverActive : CP (List (TenantId × Row) × List String) := do
  let unmanaged ← listUnmanagedNamespaces
  let rows ← TenantStore.list
  return (rows, unmanaged)

/-- An id validated, or the end of the process. -/
def withId (raw : String) (f : TenantId → CP (ℕ × Printed)) : CP (ℕ × Printed) :=
  match validateTenantId (some raw) with
  | .error exc => pure (1, .usage exc.text)
  | .ok t => f t

/-- `get`: prints the row. -/
def cliGet (t : TenantId) : CP (ℕ × Printed) := do
  match ← TenantStore.get t with
  | none => return (1, .notFound t)
  | some item => return (0, .row t (some item))

/-- An error of the hierarchy is printed with the row; others end the process. -/
def orFailed (p : CP Unit) (onError : ControlPlaneError → CP Printed) (after : CP Printed) :
    CP (ℕ × Printed) := do
  let failed ← exceptControlPlane (do p; return none) fun exc => some <$> onError exc
  match failed with
  | some printed => return (1, printed)
  | none =>
    let printed ← after
    return (0, printed)

/-- `create`: provisions the tenant. -/
def cliCreate (t : TenantId) (tier : String) (ensureInfra : Bool) : CP (ℕ × Printed) :=
  orFailed
    (do
      let myIp ← getenv "MY_IP"
      provision t ⟨tier, ensureInfra, !ensureInfra, some myIp⟩)
    (fun exc => do
      let item ← TenantStore.get t
      return if item.isSome then .row t item else .error exc.message)
    (Printed.row t <$> TenantStore.get t)

/-- `suspend`: prints the row written. -/
def cliSuspend (t : TenantId) : CP (ℕ × Printed) := do
  let item ← suspendTenant t
  return (0, .row t (some item))

/-- `resume`: prints the row read afterwards. -/
def cliResume (t : TenantId) : CP (ℕ × Printed) := do
  let _ ← resumeTenant t
  let item ← TenantStore.get t
  return (0, .row t item)

/-- `delete`: prints that the tenant is deleted. -/
def cliDelete (t : TenantId) : CP (ℕ × Printed) :=
  orFailed (deleteTenant t)
    (fun exc => do
      let item ← TenantStore.get t
      return if item.isSome then .row t item else .deleteFailed t exc.message)
    (pure (.gone t))

/-- A command on a tenant. -/
def Verb.run (t : TenantId) : Verb → CP (ℕ × Printed)
  | get => cliGet t
  | create tier ensureInfra => cliCreate t tier ensureInfra
  | suspend => cliSuspend t
  | resume => cliResume t
  | delete => cliDelete t

/-- `main`. -/
def cliMain : CliCommand → CP (ℕ × Printed)
  | .discover => do
    let found ← discoverActive
    return (0, .discovered found.1 found.2)
  | .reconcile (some raw) =>
    -- Python takes an empty id for no id.
    if raw = "" then do
      let (results, unmanaged) ← reconcileAll kubectlObserver actuators
      return (0, .swept results unmanaged)
    else withId raw fun t => do
      let result ← reconcileOne kubectlObserver actuators t
      return (0, .reconciled t result)
  | .reconcile none => do
    let (results, unmanaged) ← reconcileAll kubectlObserver actuators
    return (0, .swept results unmanaged)
  | .adopt tenants => do
    let rows ← adoptTenants tenants
    return (0, .adopted rows)
  | .list => do
    let rows ← TenantStore.list
    return (0, .tenants rows)
  | .tenant verb raw => withId raw fun t => verb.run t

/-- The exit code of the process. -/
def exitCode : Except Exn (ℕ × Printed) → ℕ
  | .ok (code, _) => code
  | .error _ => 1

/-- The status of a tenant. -/
def Registry.statusOf (s : Registry) (t : TenantId) : Option Status := (s.get t).map (·.status)

/-- The registry has the tenant as the command is to leave it. -/
def Verb.Done (t : TenantId) : Verb → Registry → Prop
  | get, s => s.statusOf t ≠ none
  | create _ _, s | resume, s => s.statusOf t = some .active
  | suspend, s => s.statusOf t = some .suspended
  | delete, s => s.statusOf t = none

/-! ## The functions of the lifecycle -/

section

variable {α β : Type} {p : CP α} {f : α → CP β} {s : Registry} {t : TenantId}
  {Q : Except Exn β → Registry → Prop}

/-- The registry is exact, and any command may be issued. -/
abbrev onRegistry : Contract cpSig Registry := ⟨fun _ _ => True, openWorld⟩

/-- A program that may do anything, then another. -/
theorem after_any (hf : ∀ a s', (f a).wp onRegistry Q s')
    (hR : ∀ e s', Q (.error e) s') : (p >>= f).wp onRegistry Q s :=
  (wp_bind p f).2 (wp_of_forall (fun _ _ => trivial) (fun x s' => by
    cases x with
    | ok a => exact hf a s'
    | error e => exact hR e s') p)

/-- A program that leaves the registry, then another. -/
theorem after_quiet (hp : p.Calls Quiet) (hf : ∀ a, (f a).wp onRegistry Q s)
    (hR : ∀ e, Q (.error e) s) : (p >>= f).wp onRegistry Q s := by
  have hsame : p.wp onRegistry (fun _ s' => s' = s) s :=
    hp.wp (I := (· = s)) (fun c s' hc hs => ⟨trivial, fun r s₁ h => by
      rw [openWorld_quiet hc h, hs]⟩) rfl
  refine (wp_bind p f).2 (wp.imp hsame fun x s' h => ?_)
  obtain rfl := h
  cases x with
  | ok a => exact hf a
  | error e => exact hR e

/-- A reading, then what follows it. -/
theorem after_get {g : Option Row → CP β} (hg : (g (s.get t)).wp onRegistry Q s) :
    (TenantStore.get t >>= g).wp onRegistry Q s := by
  refine (wp_bind _ g).2 ⟨trivial, fun item s' h => ?_⟩
  obtain ⟨rfl, rfl⟩ := openWorld_get.1 h
  exact hg

/-- A write, which succeeds, then what follows it. -/
theorem after_upsert {fs : Fields} (hfs : fs.Valid) {g : Row → CP β}
    (hg : ∀ now, (g (s.written now t fs)).wp onRegistry Q (s.insert t (s.written now t fs))) :
    (TenantStore.upsert t fs >>= g).wp onRegistry Q s := by
  refine (wp_bind _ g).2 ⟨trivial, fun r s' h => ?_⟩
  obtain ⟨now, rfl, rfl⟩ := (openWorld_upsert hfs).1 h
  exact hg now

/-- A write leaves the tenant with its status. -/
theorem statusOf_written {fs : Fields} {st : Status} (now : String) (h : fs.status = some st)
    (hst : st ≠ .other "") :
    Registry.statusOf (s.insert t (s.written now t fs)) t = some st := by
  rw [Registry.statusOf, Registry.get_insert_self, Option.map_some, Registry.written_status h hst]

/-- How a function of the lifecycle ends: it returns with the tenant in a status, or raises with
    the tenant not in it. -/
def Attains (t : TenantId) (st : Option Status) : Except Exn β → Registry → Prop :=
  outcome (fun _ s => s.statusOf t = st) fun _ s => s.statusOf t ≠ st

theorem upsert_attains {fs : Fields} {st : Status} (hfs : fs.Valid) (h : fs.status = some st)
    (hst : st ≠ .other "") : (TenantStore.upsert t fs).wp onRegistry (Attains t (some st)) s := by
  refine ⟨trivial, fun r s' hr => ?_⟩
  obtain ⟨now, rfl, rfl⟩ := (openWorld_upsert hfs).1 hr
  exact statusOf_written now h hst

theorem suspendTenant_attains :
    (suspendTenant t).wp onRegistry (Attains t (some .suspended)) s := by
  refine after_get ?_
  cases hrow : s.get t with
  | none => simp [Attains, Registry.statusOf, hrow]
  | some item =>
    have hstatus : s.statusOf t = some item.status := by simp [Registry.statusOf, hrow]
    refine (wp_ite _ _ _).2 ⟨fun h => by simp [Attains, hstatus, h], fun hnot => ?_⟩
    have hsame (e : Exn) : Attains (β := Row) t (some .suspended) (.error e) s := by
      simpa [Attains, hstatus] using hnot
    refine (wp_ite _ _ _).2 ⟨fun _ => hsame _, fun _ => ?_⟩
    refine after_quiet (lifecycleRun_quiet _) (fun _ => ?_) hsame
    refine after_quiet (runOk_quiet _) (fun _ => ?_) hsame
    exact upsert_attains (by simp [Fields.desire]) rfl (by simp)

theorem resumeTenant_attains : (resumeTenant t).wp onRegistry (Attains t (some .active)) s := by
  refine after_get ?_
  cases hrow : s.get t with
  | none => simp [Attains, Registry.statusOf, hrow]
  | some item =>
    have hstatus : s.statusOf t = some item.status := by simp [Registry.statusOf, hrow]
    refine (wp_ite _ _ _).2 ⟨fun h => by simp [Attains, hstatus, h], fun hnot => ?_⟩
    have hsame (e : Exn) : Attains (β := Row) t (some .active) (.error e) s := by
      simpa [Attains, hstatus] using hnot
    refine (wp_ite _ _ _).2 ⟨fun _ => hsame _, fun _ => ?_⟩
    refine after_quiet tofuOutputs_quiet (fun outputs => ?_) hsame
    refine after_quiet list_quiet (fun rows => ?_) hsame
    refine (wp_ite _ _ _).2 ⟨fun _ => hsame _, fun _ => ?_⟩
    refine after_quiet nodeIp_quiet (fun ip => ?_) hsame
    refine after_quiet (onboard_quiet _ _ _ _) (fun _ => ?_) hsame
    refine after_quiet (lifecycleRun_quiet _) (fun _ => ?_) hsame
    refine after_quiet (lifecycleRun_quiet _) (fun _ => ?_) hsame
    refine after_quiet (edgeUrl_quiet t 300) (fun alb => ?_) hsame
    exact upsert_attains (by simp [Fields.desire]) rfl (by simp)

/-- A failed provisioning is recorded, by a status that is not ACTIVE. -/
theorem provision_attains (args : ProvisionArgs) :
    (provision t args).wp onRegistry (Attains t (some .active)) s := by
  refine after_upsert (by simp [provisioning]) fun now => (wp_tryCatch _ _).2 ?_
  have hsteps (s : Registry) : (provisionSteps t args).wp onRegistry
      (outcome (fun _ s' => s'.statusOf t = some .active) fun _ _ => True) s := by
    refine after_any (fun oi s => ?_) fun _ _ => trivial
    refine after_any (fun _ s => ?_) fun _ _ => trivial
    refine after_any (fun rows s => ?_) fun _ _ => trivial
    refine after_any (fun ip s => ?_) fun _ _ => trivial
    refine after_any (fun _ s => ?_) fun _ _ => trivial
    refine after_any (fun alb s => after_upsert (by simp [provisioned, withIdentity]) ?_)
      fun _ _ => trivial
    exact fun now => statusOf_written now rfl (by simp)
  refine wp.imp (hsteps _) fun x s' hx => ?_
  cases x with
  | ok u => exact hx
  | error exc =>
    refine after_upsert (by simp [provisionFailed, Fields.desire]) fun now => ?_
    have hfailed := statusOf_written (s := s') (t := t) now
      (rfl : (provisionFailed args.tier exc.text).status = some .failed) (by simp)
    simp [Attains, hfailed]

/-- A failed deletion keeps the row. -/
theorem deleteTenant_attains : (deleteTenant t).wp onRegistry (Attains t none) s := by
  refine after_get (after_upsert (by simp [Fields.desire]) fun now => (wp_tryCatch _ _).2 ?_)
  have hteardown (item : Identity) (s : Registry) : (teardown t item).wp onRegistry
      (outcome (fun _ s' => s'.statusOf t = none) fun _ _ => True) s := by
    refine after_any (fun _ s => ?_) fun _ _ => trivial
    refine after_any (fun _ s => ?_) fun _ _ => trivial
    refine after_any (fun outputs s => ?_) fun _ _ => trivial
    refine after_any (fun _ s => ?_) fun _ _ => trivial
    refine after_any (fun _ s => ?_) fun _ _ => trivial
    refine after_any (fun _ s => ?_) fun _ _ => trivial
    refine after_any (fun _ s => ?_) fun _ _ => trivial
    refine after_any (fun _ s => ?_) fun _ _ => trivial
    refine (wp_bind _ _).2 ⟨trivial, fun r s' h => ?_⟩
    obtain ⟨rfl, rfl⟩ := openWorld_delete.1 h
    simp [Registry.statusOf, Registry.delete_get_self]
  refine wp.imp (hteardown _ _) fun x s' hx => ?_
  cases x with
  | ok u => exact hx
  | error exc =>
    refine after_upsert (by simp [deleteFailed, Fields.desire]) fun now => ?_
    have hfailed := statusOf_written (s := s') (t := t) now
      (rfl : (deleteFailed exc.text).status = some .deleteFailed) (by simp)
    simp [Attains, hfailed]

/-! ## The commands -/

/-- How a command ends: its exit code tells whether the tenant is in the status. -/
def TellsStatus (t : TenantId) (st : Option Status) (x : Except Exn (ℕ × Printed)) (s : Registry) :
    Prop :=
  exitCode x = 0 ↔ s.statusOf t = st

/-- A program that returns, and leaves the registry. -/
def Peaceful (p : CP α) : Prop :=
  ∀ s, p.wp onRegistry (outcome (fun _ s' => s' = s) fun _ _ => False) s

theorem peaceful_pure (a : α) : Peaceful (pure a : CP α) := fun _ => rfl

theorem peaceful_get (g : Option Row → α) : Peaceful (g <$> TenantStore.get t) := fun _ =>
  (wp_map _ _).2 ⟨trivial, fun _ _ h => (openWorld_get.1 h).2⟩

/-- What is printed after a function of the lifecycle changes nothing. -/
theorem tells_orFailed {q : CP Unit} {st : Option Status} {onError : ControlPlaneError → CP Printed}
    {after : CP Printed} (hq : q.wp onRegistry (Attains t st) s)
    (herror : ∀ exc, Peaceful (onError exc)) (hafter : Peaceful after) :
    (orFailed q onError after).wp onRegistry (TellsStatus t st) s := by
  refine (wp_bind _ _).2 ((wp_tryCatch _ _).2 ((wp_bind _ _).2 (wp.imp hq fun x s' hx => ?_)))
  cases x with
  | ok u =>
    have hdone : s'.statusOf t = st := hx
    refine wp.bind (hafter s') (fun printed s₁ hs => ?_) fun e s₁ h => h.elim
    obtain rfl := hs
    simp [TellsStatus, exitCode, hdone]
  | error e =>
    have hnot : s'.statusOf t ≠ st := hx
    cases e with
    | controlPlane exc =>
      refine (wp_map _ _).2 (wp.imp (herror exc s') fun y s₁ hs => ?_)
      cases y with
      | ok printed =>
        obtain rfl : s₁ = s' := hs
        simp [TellsStatus, exitCode, hnot]
      | error e => exact hs.elim
    | _ => simp [TellsStatus, exitCode, hnot]

/-- A command on a tenant tells by its exit code whether it is done. -/
theorem Verb.tells (verb : Verb) : (verb.run t).wp onRegistry
    (fun x s' => exitCode x = 0 ↔ verb.Done t s') s := by
  cases verb with
  | get =>
    refine after_get ?_
    cases hrow : s.get t with
    | none => simp [exitCode, Verb.Done, Registry.statusOf, hrow]
    | some item => simp [exitCode, Verb.Done, Registry.statusOf, hrow]
  | create tier ensureInfra =>
    refine tells_orFailed ?_ (fun exc => peaceful_get _) (peaceful_get _)
    refine (wp_bind _ _).2 ⟨trivial, fun myIp s' h => ?_⟩
    obtain rfl : s' = s := h
    exact provision_attains _
  | suspend =>
    refine wp.bind suspendTenant_attains (fun item s' h => ?_) fun e s' h => ?_
    · simpa [exitCode, Verb.Done, Attains] using h
    · simpa [exitCode, Verb.Done, Attains] using h
  | resume =>
    refine wp.bind resumeTenant_attains (fun item s' h => after_get ?_) fun e s' h => ?_
    · simpa [exitCode, Verb.Done, Attains] using h
    · simpa [exitCode, Verb.Done, Attains] using h
  | delete =>
    exact tells_orFailed deleteTenant_attains (fun exc => peaceful_get _) (peaceful_pure _)

end

/-- Whatever the external commands do, a command on a tenant exits with 0 exactly if its id is
    valid and the registry then has the tenant as the command is to leave it. -/
theorem exit_iff {verb : Verb} {raw : String} {s s' : Registry} {tr : Trace cpSig}
    {x : Except Exn (ℕ × Printed)} (hx : Exec openWorld (cliMain (.tenant verb raw)) s tr x s') :
    exitCode x = 0 ↔ ∃ t, validateTenantId (some raw) = .ok t ∧ verb.Done t s' := by
  cases ht : validateTenantId (some raw) with
  | error e =>
    have hrun : cliMain (.tenant verb raw) = pure (1, .usage e.text) := by
      simp only [cliMain, withId, ht]
    rw [hrun] at hx
    cases hx
    simp [exitCode]
  | ok t =>
    have hrun : cliMain (.tenant verb raw) = verb.run t := by simp only [cliMain, withId, ht]
    rw [hrun] at hx
    have h := hx.meets verb.tells
    rw [h]
    constructor
    · exact fun hdone => ⟨t, rfl, hdone⟩
    · rintro ⟨u, hu, hdone⟩
      cases hu
      exact hdone

/-- The platform tenant is created, every command succeeding. -/
def creationA : Trace cpSig × Except Exn (ℕ × Printed) × Registry :=
  (cliMain (.tenant (.create "standard" false) "a")).eval (openAnswer "now")
    (fun _ => succeeding) 0 ∅

theorem creationA_exit : exitCode creationA.2.1 = 0 := by decide +kernel

/-- So it is ACTIVE. -/
theorem exit_iff_create : creationA.2.2.statusOf .a = some .active := by
  obtain ⟨t, ht, hdone⟩ := (exit_iff (exec_eval (openAnswer_step "now") (fun _ => succeeding) _ 0
    ∅)).1 creationA_exit
  obtain rfl : t = .a := TenantId.ext (TenantId.validate_ok ht)
  exact hdone

end NtierLab
