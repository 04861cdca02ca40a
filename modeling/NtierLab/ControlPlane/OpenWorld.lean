import NtierLab.Prog.Monitor
import NtierLab.ControlPlane.Reconcile

/-!
# The open world

The registry alone, with everything else answering as it pleases (`openWorld`): the
store's transactions are exact, and any response may follow any other command. What
holds of the programs in it holds of them whatever the cluster, AWS and the clock do.
-/

namespace NtierLab

open Prog

/-- A transaction of the store, at the time `now`. -/
def RegCmd.run (now : String) : (c : RegCmd) → Registry → c.Resp × Registry
  | .get t, s => (s.get t, s)
  | .list, s => (s.list, s)
  | .upsert t v f, s => s.upsert now t v f
  | .delete t, s => s.delete t

/-- The registry is exact, and everything else is open. -/
def openWorld : Handler cpSig Registry
  | .reg c, s, r, s' => ∃ now, c.run now s = (r, s')
  | _, s, _, s' => s' = s

section

variable {s s' : Registry} {t : TenantId} {f : Fields}

@[simp] theorem openWorld_get {r : Option Row} :
    openWorld (.reg (.get t)) s r s' ↔ r = s.get t ∧ s' = s := by
  simp [openWorld, RegCmd.run, eq_comm]

@[simp] theorem openWorld_list {r : List (TenantId × Row)} :
    openWorld (.reg .list) s r s' ↔ r = s.list ∧ s' = s := by
  simp [openWorld, RegCmd.run, eq_comm]

theorem openWorld_upsert (hf : f.Valid) {r : Except Exn Row} :
    openWorld (.reg (.upsert t none f)) s r s' ↔ ∃ now, r = .ok (s.written now t f) ∧
      s' = s.insert t (s.written now t f) := by
  simp [openWorld, RegCmd.run, Registry.upsert_valid hf, eq_comm]

@[simp] theorem openWorld_delete {r : Bool} :
    openWorld (.reg (.delete t)) s r s' ↔ r = (s.get t).isSome ∧ s' = (s.delete t).2 := by
  simp [openWorld, RegCmd.run, Registry.delete, eq_comm]

@[simp] theorem openWorld_app {c : AppCmd} {r : c.Resp} :
    openWorld (.app c) s r s' ↔ s' = s := Iff.rfl

@[simp] theorem openWorld_host {c : HostCmd} {r : c.Resp} :
    openWorld (.host c) s r s' ↔ s' = s := Iff.rfl

@[simp] theorem openWorld_shell {c : Shell} {r : ProcOutcome} :
    openWorld (.shell c) s r s' ↔ s' = s := Iff.rfl

@[simp] theorem openWorld_kube {c : KubeQuery} {r : c.Resp} :
    openWorld (.kube c) s r s' ↔ s' = s := Iff.rfl

@[simp] theorem openWorld_aws {c : AwsCall} {r : c.Resp} :
    openWorld (.aws c) s r s' ↔ s' = s := Iff.rfl

end

section

variable {σ : Type} {m : Monitor cpSig σ} {s : Registry} {st : σ} {t : TenantId}

@[simp] theorem wp_get {Q : Except Exn (Option Row) → Registry × σ → Prop} :
    (TenantStore.get t).wp (m.on openWorld) Q (s, st) ↔
      m.allow st (.reg (.get t)) ∧
        Q (.ok (s.get t)) (s, m.next st ⟨.reg (.get t), s.get t⟩) :=
  wp_call_on fun _ _ => openWorld_get

@[simp] theorem wp_list {Q : Except Exn (List (TenantId × Row)) → Registry × σ → Prop} :
    TenantStore.list.wp (m.on openWorld) Q (s, st) ↔
      m.allow st (.reg .list) ∧ Q (.ok s.list) (s, m.next st ⟨.reg .list, s.list⟩) :=
  wp_call_on fun _ _ => openWorld_list

@[simp] theorem wp_delete {Q : Except Exn Bool → Registry × σ → Prop} :
    (TenantStore.delete t).wp (m.on openWorld) Q (s, st) ↔
      m.allow st (.reg (.delete t)) ∧ Q (.ok (s.get t).isSome)
        ((s.delete t).2, m.next st ⟨.reg (.delete t), (s.get t).isSome⟩) :=
  wp_call_on fun _ _ => openWorld_delete

variable {f : Fields} {Q : Except Exn Row → Registry × σ → Prop}

/-- A valid `upsert` returns the row it writes. -/
@[simp] theorem wp_upsert (hf : f.Valid) :
    (TenantStore.upsert t f).wp (m.on openWorld) Q (s, st) ↔
      m.allow st (.reg (.upsert t none f)) ∧ ∀ now, Q (.ok (s.written now t f))
        (s.insert t (s.written now t f),
          m.next st ⟨.reg (.upsert t none f), .ok (s.written now t f)⟩) := by
  simp only [TenantStore.upsert, wp_call, Monitor.on_pre, Prod.forall, Monitor.on_post,
    openWorld_upsert hf, wp_result]
  refine and_congr_right' ⟨fun h now => h _ _ _ ⟨⟨now, rfl, rfl⟩, rfl⟩, ?_⟩
  rintro h _ _ _ ⟨⟨now, rfl, rfl⟩, rfl⟩
  exact h now

end

/-- A valid `upsert` writes its row. -/
theorem exec_upsert {s s' : Registry} {t : TenantId} {f : Fields} {tr : Trace cpSig}
    {y : Except Exn Row} (hf : f.Valid)
    (hx : Exec openWorld (TenantStore.upsert t f) s tr y s') :
    ∃ now, y = .ok (s.written now t f) ∧ s' = s.insert t (s.written now t f) := by
  cases hx with
  | call hr h =>
    obtain ⟨now, rfl, rfl⟩ := (openWorld_upsert hf).1 hr
    cases h
    exact ⟨now, rfl, rfl⟩

/-- What follows a valid `upsert` starts with its row written. -/
theorem exec_upsert_bind {α : Type} {s s' : Registry} {t : TenantId} {f : Fields}
    {tr : Trace cpSig} {k : Row → CP α} {x : Except Exn α} (hf : f.Valid)
    (hx : Exec openWorld (TenantStore.upsert t f >>= k) s tr x s') :
    ∃ now tr', Exec openWorld (k (s.written now t f)) (s.insert t (s.written now t f)) tr' x s' := by
  rcases Exec.of_bind hx with ⟨e, -, h⟩ | ⟨row, tr₁, tr₂, s₁, rfl, h, h'⟩
  · obtain ⟨now, h, -⟩ := exec_upsert hf h
    cases h
  · obtain ⟨now, hrow, rfl⟩ := exec_upsert hf h
    obtain rfl := Except.ok.inj hrow
    exact ⟨now, tr₂, h'⟩

/-! ## Open worlds resolved -/

/-- The open world that answers `a` to all but the store, at the time `now`. -/
def openAnswer (now : String) (a : (c : Cmd) → cpSig.Resp c) : (c : Cmd) → Registry →
    cpSig.Resp c × Registry
  | .reg c, s => c.run now s
  | .app c, s => (a (.app c), s)
  | .host c, s => (a (.host c), s)
  | .shell c, s => (a (.shell c), s)
  | .kube c, s => (a (.kube c), s)
  | .aws c, s => (a (.aws c), s)

theorem openAnswer_step (now : String) (a : (c : Cmd) → cpSig.Resp c) (c : Cmd) (s : Registry) :
    openWorld c s (openAnswer now a c s).1 (openAnswer now a c s).2 := by
  cases c with
  | reg c => exact ⟨now, rfl⟩
  | _ => rfl

/-- The outputs of a workload stack without tenants of its own. -/
def labOutputs : Outputs where
  awsRegion := "us-east-1"
  namePrefix := "ntier-dev"
  rdsHost := "rds.internal"
  rdsSecretName := "ntier-dev/rds/master"
  oidcProviderArn := "arn:aws:iam::123456789012:oidc-provider/oidc"
  oidcProviderUrl := "oidc"
  migratorIrsaRoleArn := "arn:aws:iam::123456789012:role/ntier-dev-migrator"
  platformTenantId := some .a
  tenantIds := []
  tenantIrsaRoleArns := ∅
  tenantSecretNames := ∅
  tenantNodePorts := ∅
  ingressMode := "alb_controller"
  albIngressGroup := "ntier-dev"
  albLogsBucket := ""
  albUrl := "http://alb"
  publicSubnetCidrs := ["10.0.1.0/24"]
  privateSubnetCidrs := ["10.0.2.0/24"]
  myIpCidr := ""

/-- An answer to every command, each succeeding. -/
def succeeding : (c : Cmd) → cpSig.Resp c
  | .reg (.get _) => none
  | .reg .list => []
  | .reg (.upsert t _ _) => .error (notFound t)
  | .reg (.delete _) => false
  | .app (.inFlight _) => false
  | .app (.enter _ _) => true
  | .app (.discard _) | .app (.respond _ _) => ()
  | .host (.getenv _) => "10.0.0.1"
  | .host .tofuOutputs => .ok labOutputs
  | .host .tfvars => ("terraform.tfvars", true)
  | .host (.ensureTenantInTfvars _) => .ok true
  | .host .publicIpCidr => .ok "10.0.0.1/32"
  | .host (.tofuApply _) => .ok ()
  | .host (.writeAlbUrl host) => .ok ("http://" ++ host)
  | .host .albUrlFile => ""
  | .host .secretRecoveryWindowDays => .ok 0
  | .host (.rounds _) => (1 : ℕ)
  | .host .suffix => (0 : ℕ)
  | .host .password => "password"
  | .shell _ => .exited 0
  | .kube .nodeAddress => .ok "10.0.0.2"
  | .kube (.nsYaml _) => .ok ()
  | .kube (.ingressHostname _) => .ok "alb.internal"
  | .kube (.dropJobConditions _ _) => .ok [("Complete", "True")]
  | .kube (.get _ _) => .ok (.json { specReplicas := 1, readyReplicas := 1, roleArn := "arn" })
  | .kube .nsNames => []
  | .kube (.observe _) => .ok {}
  | .aws .callerIdentity => .ok "123456789012"
  | .aws (.describeSecret name) => .ok ⟨"arn:aws:secretsmanager:" ++ name, false⟩
  | .aws (.deleteSecret _ _) => .ok ()
  | .aws (.createSecret name _) => .ok ("arn:aws:secretsmanager:" ++ name)
  | .aws (.getRole name) => .ok ("arn:aws:iam::123456789012:role/" ++ name)
  | .aws (.updateAssumeRolePolicy _ _) => .ok ()
  | .aws (.createRole name _) => .ok ("arn:aws:iam::123456789012:role/" ++ name)
  | .aws (.putRolePolicy _ _ _) => .ok ()
  | .aws .listSecrets => .ok []
  | .aws (.tagSecret _ _) | .aws (.tagRole _ _) => .ok ()
  | .aws (.deleteRolePolicy _ _) => .ok ()
  | .aws (.deleteRole _) => .ok ()

end NtierLab
