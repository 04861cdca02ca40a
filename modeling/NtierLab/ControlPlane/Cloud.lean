import NtierLab.Prog.Crash
import NtierLab.ControlPlane.OpenWorld

/-!
# The cloud

The registry and the resources of the tenants outside of it (`Cloud`): namespaces,
database roles, IAM roles and secrets. A command has its effect on them (`Cmd.effect`),
and what a response tells of them is true (`Tells`).

* `lossy`: any command may fail, having had its effect or not;
* `prompt`: every command whose namespace or object exists succeeds, and no command
  creates an object in a namespace that is gone. `promptly` is one such cloud, computable.

The order in which the resources of a tenant are erased does not matter
(`erasing_subset`, `erasing_sandwich`): what is left is what was there without them.
-/

namespace NtierLab

open Prog

/-- A resource outside the registry. A secret is one until it is deleted, or scheduled to be. -/
inductive Resource
  | ns (t : TenantId)
  | dbRole (name : String)
  | iamRole (name : String)
  | secret (name : String)
  deriving DecidableEq

/-- The registry, and the resources that exist. -/
@[ext] structure Cloud where
  registry : Registry
  resources : Finset Resource

/-- The database roles of tenants. -/
def dbRoles (ts : Finset TenantId) : Finset Resource := ts.image fun t => .dbRole t.role

/-- The tenants whose roles a migrate Job creates. -/
def Migrate.tenants (m : Migrate) : Finset TenantId :=
  (m.tenantSecrets.toList.map Prod.fst).toFinset

/-- The resources after a command had its effect. A Job has its effect from the time it is
    applied until it was seen complete. -/
def Cmd.effect : Cmd → Finset Resource → Finset Resource
  | .shell (.applyNs t), rs => insert (.ns t) rs
  | .shell (.deleteNs t), rs => rs.erase (.ns t)
  | .shell (.applyDropJob m), rs => rs.erase (.dbRole m.dropRole)
  | .kube (.dropJobConditions _ d), rs => rs.erase (.dbRole d.tenant.role)
  | .shell (.helmUpgrade v), rs => v.migrate.elim rs fun m => rs ∪ dbRoles m.tenants
  | .aws (.createRole name _), rs => insert (.iamRole name) rs
  | .aws (.deleteRole name), rs => rs.erase (.iamRole name)
  | .aws (.createSecret name _), rs => insert (.secret name) rs
  | .aws (.deleteSecret name _), rs => rs.erase (.secret name)
  | _, rs => rs

/-- What a response tells of the resources after it is true. -/
def Tells (outputs : Outputs) : (c : Cmd) → cpSig.Resp c → Finset Resource → Prop
  | .host .tofuOutputs, r, _ => ∀ o, r = .ok o → o = outputs
  | .shell (.deleteNs t), r, rs => r = .exited 0 → .ns t ∉ rs
  | .kube (.dropJobConditions _ d), r, rs =>
    ∀ conds, r = .ok conds → condition conds "Complete" = some "True" → .dbRole d.tenant.role ∉ rs
  | .aws (.getRole name), r, _ | .aws (.createRole name _), r, _ =>
    ∀ arn, r = .ok arn → afterLastSlash arn = name
  | .aws (.deleteRole name), r, rs => goneBy ["NoSuchEntity"] r → .iamRole name ∉ rs
  | .aws (.deleteSecret name _), r, rs =>
    goneBy ["ResourceNotFoundException", "InvalidRequestException"] r → .secret name ∉ rs
  | _, _, _ => True

/-- The store is exact; any other command may fail, having had its effect or not. -/
def lossy (outputs : Outputs) : Handler cpSig Cloud
  | .reg c, w, r, w' => (∃ now, c.run now w.registry = (r, w'.registry)) ∧
      w'.resources = w.resources
  | c, w, r, w' => w'.registry = w.registry ∧
      (w'.resources = w.resources ∨ w'.resources = c.effect w.resources) ∧
      Tells outputs c r w'.resources

/-- The command creates an object in the namespace of a tenant. -/
def Shell.createsIn : Shell → Option TenantId
  | .applyMigratorSa p _ | .createDropConfigMap p _ => some p
  | .applyDropJob m => some m.platform
  | _ => none

/-- The responses when every command whose namespace or object exists succeeds. Of a process
    that may ask for an object missing in its namespace, the code is open. -/
def Prompts (outputs : Outputs) (rs : Finset Resource) : (c : Cmd) → cpSig.Resp c → Prop
  | .host .tofuOutputs, r => r = .ok outputs
  | .host (.rounds _), r => (0 : ℕ) < r
  | .host .secretRecoveryWindowDays, r => ∃ days, r = .ok days
  | .shell (.getNs t), r | .shell (.deleteNs t), r =>
    ∃ code, r = .exited code ∧ (code = 0 ↔ .ns t ∈ rs)
  | .shell c, r => ∃ code, r = .exited code ∧ ∀ p, c.createsIn = some p → (code = 0 ↔ .ns p ∈ rs)
  | .kube (.dropJobConditions _ _), r =>
    ∃ conds, r = .ok conds ∧ condition conds "Complete" = some "True"
  | .aws (.deleteRolePolicy _ _), r | .aws (.deleteRole _), r => goneBy ["NoSuchEntity"] r
  | .aws (.deleteSecret _ _), r =>
    goneBy ["ResourceNotFoundException", "InvalidRequestException"] r
  | _, _ => True

/-- A process that creates an object has no effect where its namespace is gone. -/
def Cmd.prompted (c : Cmd) (rs : Finset Resource) : Finset Resource :=
  match c with
  | .shell s => if (s.createsIn.all fun p => decide (.ns p ∈ rs)) then c.effect rs else rs
  | c => c.effect rs

/-- Every command whose namespace or object exists succeeds. -/
def prompt (outputs : Outputs) : Handler cpSig Cloud
  | .reg c, w, r, w' => (∃ now, c.run now w.registry = (r, w'.registry)) ∧
      w'.resources = w.resources
  | c, w, r, w' => w'.registry = w.registry ∧ w'.resources = c.prompted w.resources ∧
      Prompts outputs w.resources c r ∧ Tells outputs c r w'.resources

section

variable {outputs : Outputs} {c : Cmd} {w w' : Cloud} {r : cpSig.Resp c}

theorem Cmd.prompted_or (c : Cmd) (rs : Finset Resource) :
    c.prompted rs = rs ∨ c.prompted rs = c.effect rs := by
  unfold prompted
  split
  · split_ifs
    · exact .inr rfl
    · exact .inl rfl
  · exact .inr rfl

/-- A prompt cloud is a lossy one that loses nothing. -/
theorem lossy_of_prompt (h : prompt outputs c w r w') : lossy outputs c w r w' := by
  cases c with
  | reg c => exact h
  | _ =>
    obtain ⟨hreg, hres, -, ht⟩ := h
    exact ⟨hreg, hres ▸ Cmd.prompted_or _ _, ht⟩

end

/-- A prompt cloud, at the time `now`, resolved. -/
def promptly (now : String) (outputs : Outputs) : (c : Cmd) → Cloud → cpSig.Resp c × Cloud
  | .reg c, w => ((c.run now w.registry).1, { w with registry := (c.run now w.registry).2 })
  | .host .tofuOutputs, w => (.ok outputs, w)
  | .shell (.getNs t), w => (.exited (if .ns t ∈ w.resources then 0 else 1), w)
  | .shell (.deleteNs t), w =>
    (.exited (if .ns t ∈ w.resources then 0 else 1),
      { w with resources := w.resources.erase (.ns t) })
  | .shell c, w =>
    (.exited (if c.createsIn.all fun p => decide (.ns p ∈ w.resources) then 0 else 1),
      { w with resources := Cmd.prompted (.shell c) w.resources })
  | .aws (.describeSecret name), w =>
    (if .secret name ∈ w.resources then succeeding (.aws (.describeSecret name))
      else .error (.clientError "ResourceNotFoundException" name name), w)
  | .aws (.getRole name), w =>
    (if .iamRole name ∈ w.resources ∧ '/' ∉ name.toList then succeeding (.aws (.getRole name))
      else .error (.clientError "NoSuchEntity" name name), w)
  | .aws (.createRole name trust), w =>
    (if '/' ∈ name.toList then .error (.clientError "ValidationError" "name" "name")
      else succeeding (.aws (.createRole name trust)),
      { w with resources := Cmd.effect (.aws (.createRole name trust)) w.resources })
  | c, w => (succeeding c, { w with resources := c.effect w.resources })

theorem afterLastSlash_append {a b : String} (ha : a.toList.reverse.head? = some '/')
    (hb : '/' ∉ b.toList) : afterLastSlash (a ++ b) = b := by
  have hb' : ∀ c ∈ b.toList.reverse, decide (c ≠ '/') = true := fun c hc =>
    decide_eq_true fun h => hb (h ▸ List.mem_reverse.1 hc)
  obtain ⟨l, hl⟩ := List.head?_eq_some_iff.1 ha
  rw [afterLastSlash, String.toList_append, List.reverse_append,
    List.takeWhile_append_of_pos hb', hl]
  simp

theorem promptly_step (now : String) (outputs : Outputs) (c : Cmd) (w : Cloud) :
    prompt outputs c w (promptly now outputs c w).1 (promptly now outputs c w).2 := by
  cases c with
  | reg c => exact ⟨⟨now, rfl⟩, rfl⟩
  | app c => exact ⟨rfl, rfl, trivial, trivial⟩
  | host c =>
    cases c with
    | tofuOutputs => exact ⟨rfl, rfl, rfl, fun o h => by cases h; rfl⟩
    | rounds n => exact ⟨rfl, rfl, Nat.one_pos, trivial⟩
    | secretRecoveryWindowDays => exact ⟨rfl, rfl, ⟨0, rfl⟩, trivial⟩
    | _ => exact ⟨rfl, rfl, trivial, trivial⟩
  | shell c =>
    cases c with
    | getNs t => exact ⟨rfl, rfl, ⟨_, rfl, by simp⟩, trivial⟩
    | deleteNs t => exact ⟨rfl, rfl, ⟨_, rfl, by simp⟩, by simp [Tells, promptly]⟩
    | _ => exact ⟨rfl, rfl, ⟨_, rfl, by simp [Shell.createsIn]⟩, trivial⟩
  | kube c =>
    cases c with
    | dropJobConditions p d =>
      refine ⟨rfl, rfl, ⟨_, rfl, rfl⟩, fun _ _ _ => ?_⟩
      simp [promptly, Cmd.effect]
    | _ => exact ⟨rfl, rfl, trivial, trivial⟩
  | aws c =>
    cases c with
    | deleteRolePolicy role policy => exact ⟨rfl, rfl, rfl, trivial⟩
    | deleteRole name => exact ⟨rfl, rfl, rfl, fun _ => by simp [promptly, Cmd.effect]⟩
    | deleteSecret name days => exact ⟨rfl, rfl, rfl, fun _ => by simp [promptly, Cmd.effect]⟩
    | describeSecret name => exact ⟨rfl, rfl, trivial, trivial⟩
    | getRole name =>
      refine ⟨rfl, rfl, trivial, fun arn h => ?_⟩
      by_cases hs : .iamRole name ∈ w.resources ∧ '/' ∉ name.toList
      · simp only [promptly, if_pos hs, succeeding, Except.ok.injEq] at h
        rw [← h]
        exact afterLastSlash_append rfl hs.2
      · simp [promptly, hs] at h
    | createRole name trust =>
      refine ⟨rfl, rfl, trivial, fun arn h => ?_⟩
      by_cases hs : '/' ∈ name.toList
      · simp [promptly, hs] at h
      · simp only [promptly, hs, if_false, succeeding, Except.ok.injEq] at h
        rw [← h]
        exact afterLastSlash_append rfl hs
    | _ => exact ⟨rfl, rfl, trivial, trivial⟩

end NtierLab
