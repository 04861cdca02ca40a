import NtierLab.Prog.Granted
import NtierLab.ControlPlane.Trust
import NtierLab.ControlPlane.Leftovers

/-!
# Connections between pods

The NetworkPolicy of the chart (`helm/test-app/templates/networkpolicy.yaml`), as the
policies of a namespace (`chartNetworkPolicy`), and what the policies of its namespaces
permit (`Net.permits`): a pod that a policy selects, for a direction, only has the
connections in that direction that a rule of such a policy allows; any other pod has all
of them. A connection is permitted if both of its ends allow it.

What enforces the policies is the network of the cluster, which is open here: of the
connections it delivers, `Enforces` says what Kubernetes documents. It leaves out those
that no policy is about (`Connection.exempt`): of a pod with itself, with the node it runs
on, and of a pod on the network of its node.

* `Policed`: the namespace of a tenant has the policies of a release of it;
* `delivers_iff_same`: the connections between the pods of tenants;
* `onboard_connects`: those of the pods of a tenant with what is outside of the cluster.
-/

namespace NtierLab

open Prog

/-! ## Blocks of addresses -/

/-- An IPv4 address. -/
abbrev Addr := BitVec 32

/-- A block: the addresses that share the first `len` bits of `base`. -/
structure Cidr where
  base : Addr
  len : ℕ
  deriving DecidableEq

namespace Cidr

/-- A decimal number up to `bound`, without leading zeros. -/
def number (bound : ℕ) (l : List Char) : Option ℕ :=
  if l = [] ∨ ¬l.all Char.isDigit ∨ (1 < l.length ∧ l.head? = some '0') then none
  else
    let n := l.foldl (fun n c => 10 * n + (c.toNat - '0'.toNat)) 0
    if n ≤ bound then some n else none

/-- The address of its four bytes. -/
def address (a b c d : ℕ) : Addr := BitVec.ofNat 32 (((a * 256 + b) * 256 + c) * 256 + d)

/-- `a.b.c.d/len`. -/
def ofChars (s : List Char) : Option Cidr :=
  match s.splitOn '/' with
  | [base, len] =>
    match base.splitOn '.' with
    | [a, b, c, d] => do
      let a ← number 255 a
      let b ← number 255 b
      let c ← number 255 c
      let d ← number 255 d
      let len ← number 32 len
      return ⟨address a b c d, len⟩
    | _ => none
  | _ => none

def contains (block : Cidr) (a : Addr) : Bool := (a ^^^ block.base) >>> (32 - block.len) = 0

end Cidr

/-- The address is in the block of a text. -/
def inCidr (text : String) (a : Addr) : Bool := (Cidr.ofChars text.toList).any (·.contains a)

theorem Cidr.contains_zero (b : Addr) (a : Addr) : Cidr.contains ⟨b, 0⟩ a = true := by
  simp [Cidr.contains, BitVec.ushiftRight_eq_zero]

theorem ofChars_internet : Cidr.ofChars "0.0.0.0/0".toList = some ⟨0, 0⟩ := by decide +kernel

/-- Every address is on the internet. -/
@[simp] theorem inCidr_internet (a : Addr) : inCidr "0.0.0.0/0" a = true := by
  rw [inCidr, ofChars_internet]
  exact Cidr.contains_zero 0 a

/-! ## Policies -/

inductive Transport
  | tcp
  | udp
  deriving DecidableEq

/-- The labels a selector asks for. -/
abbrev Labels := List (String × String)

structure NetPort where
  protocol : Transport
  port : ℤ
  deriving DecidableEq

/-- Whom a rule is about: pods of the namespace of the policy, pods of other namespaces, or a
    block of addresses. -/
inductive Peer
  | podSelector (labels : Labels)
  | namespaceSelector (labels podLabels : Labels)
  | ipBlock (cidr : String)

/-- A rule: any of its peers, on any of its ports; all of them where it lists none. -/
structure NetRule where
  peers : List Peer
  ports : List NetPort

/-- A NetworkPolicy: the pods it is about, and its rules for each direction of its
    `policyTypes`. -/
structure NetworkPolicy where
  podSelector : Labels
  ingress : Option (List NetRule)
  egress : Option (List NetRule)

/-- A pod: its namespace, with the labels given to it, its name and labels, and the name of the
    node it runs on. -/
structure NetPod where
  ns : String
  nsLabels : Labels := []
  name : String
  labels : Labels := []
  node : String
  deriving DecidableEq

/-- An end of a connection: its address, as the policies see it, and the pod and the node that have
    the address, if any do. -/
structure NetEnd where
  addr : Addr
  pod : Option NetPod := none
  node : Option String := none

structure Connection where
  src : NetEnd
  dst : NetEnd
  protocol : Transport
  port : ℤ

/-- A selector matches the labels it asks for, among others. -/
def selects (selector labels : Labels) : Bool :=
  selector.all fun p => labels.lookup p.1 = some p.2

/-- The labels of a namespace: its name, which the cluster sets, and those given to it. -/
def NetPod.namespaceLabels (p : NetPod) : Labels :=
  ("kubernetes.io/metadata.name", p.ns) :: p.nsLabels

def Peer.isAt (ns : String) (e : NetEnd) : Peer → Bool
  | podSelector labels => e.pod.any fun p => p.ns = ns && selects labels p.labels
  | namespaceSelector labels podLabels =>
    e.pod.any fun p => selects labels p.namespaceLabels && selects podLabels p.labels
  | ipBlock cidr => inCidr cidr e.addr

/-- A rule of a policy of a namespace allows a connection with another end. -/
def NetRule.allows (ns : String) (other : NetEnd) (c : Connection) (r : NetRule) : Bool :=
  (r.peers.isEmpty || r.peers.any (·.isAt ns other)) &&
    (r.ports.isEmpty || r.ports.any fun p => p.protocol = c.protocol && p.port = c.port)

/-- The policies of the namespaces of a cluster. -/
structure Net where
  policies : String → List NetworkPolicy

namespace Net

variable (net : Net)

/-- The rules of a direction that a pod is held to, one list for each policy that selects it. -/
def rulesOn (direction : NetworkPolicy → Option (List NetRule)) (p : NetPod) :
    List (List NetRule) :=
  ((net.policies p.ns).filter fun q => selects q.podSelector p.labels).filterMap direction

/-- An end allows a connection with the other end in a direction. -/
def allows (direction : NetworkPolicy → Option (List NetRule)) (own other : NetEnd)
    (c : Connection) : Bool :=
  match own.pod with
  | none => true
  | some p =>
    let rules := net.rulesOn direction p
    rules.isEmpty || rules.any (·.any (·.allows p.ns other c))

/-- Both ends allow the connection. -/
def permits (c : Connection) : Bool :=
  net.allows NetworkPolicy.egress c.src c.dst c && net.allows NetworkPolicy.ingress c.dst c.src c

end Net

/-! ## What enforces the policies -/

/-- The other end is the node that the pod of the end runs on. -/
def NetEnd.meetsNode (own other : NetEnd) : Bool := own.pod.any fun p => other.node = some p.node

/-- The end is a pod on the network of its node: what policies do about it is not defined. -/
def NetEnd.onHost (e : NetEnd) : Bool := e.pod.isSome && e.node.isSome

/-- No policy decides about the connection: it is of a pod with itself or with the node it runs on,
    which is always allowed, or of a pod on the network of its node. -/
def Connection.exempt (c : Connection) : Bool :=
  c.src.pod.any (fun p => c.dst.pod = some p) || c.src.meetsNode c.dst || c.dst.meetsNode c.src ||
    c.src.onHost || c.dst.onHost

/-- The network of a cluster enforces its policies: of the connections they decide about, it
    delivers those that both ends allow. -/
def Enforces (net : Net) (delivers : Connection → Prop) : Prop :=
  ∀ c, c.exempt = false → (delivers c ↔ net.permits c = true)

/-! ## The chart -/

/-- The values `networkPolicy`, and `service.port`. -/
structure NetworkPolicyValues where
  enabled : Bool := false
  ingressCidrs : List String := []
  egressEnabled : Bool := true
  postgresPort : ℤ := 5432
  postgresCidrs : List String := []
  allowInternetHttps : Bool := true
  servicePort : ℤ := 8080

/-- The values of a release: those of its arguments, the others as in `values.yaml`. -/
def HelmValues.networkPolicy (v : HelmValues) : NetworkPolicyValues :=
  match v.edge with
  | .ingress _ _ _ np pg _ =>
    { enabled := true, ingressCidrs := np, egressEnabled := true, postgresCidrs := pg }
  | .nodePort _ nodeCidr => { enabled := true, ingressCidrs := [nodeCidr] }

def tcp (port : ℤ) : List NetPort := [⟨.tcp, port⟩]

/-- The rules of a release for the connections of its pods from elsewhere. -/
def ingressRules (v : NetworkPolicyValues) : List NetRule :=
  ⟨[.podSelector []], tcp v.servicePort⟩ ::
    v.ingressCidrs.map fun cidr => ⟨[.ipBlock cidr], tcp v.servicePort⟩

/-- The pods of CoreDNS. -/
def kubeDns : Peer :=
  .namespaceSelector [("kubernetes.io/metadata.name", "kube-system")] [("k8s-app", "kube-dns")]

/-- The rules of a release for the connections of its pods to elsewhere. -/
def egressRules (v : NetworkPolicyValues) : List NetRule :=
  ⟨[.podSelector []], tcp v.servicePort⟩ :: ⟨[kubeDns], [⟨.udp, 53⟩, ⟨.tcp, 53⟩]⟩ ::
    (v.postgresCidrs.map fun cidr => ⟨[.ipBlock cidr], tcp v.postgresPort⟩) ++
    if v.allowInternetHttps then [⟨[.ipBlock "0.0.0.0/0"], tcp 443⟩] else []

/-- `networkpolicy.yaml`. -/
def chartNetworkPolicy (v : NetworkPolicyValues) : List NetworkPolicy :=
  if v.enabled then
    [{  podSelector := []
        ingress := some (ingressRules v)
        egress := if v.egressEnabled then some (egressRules v) else none }]
  else []

/-- The namespace of a tenant has the policies of a release. -/
def Policed (net : Net) (v : HelmValues) : Prop :=
  net.policies v.tenant.ns = chartNetworkPolicy v.networkPolicy

/-- The end is a pod of the namespace of a tenant. -/
def NetEnd.In (e : NetEnd) (t : TenantId) : Prop := ∃ p, e.pod = some p ∧ p.ns = t.ns

/-- The end is no pod of the cluster. -/
def NetEnd.Outside (e : NetEnd) : Prop := e.pod = none

/-! ## What the policies of a release allow -/

/-- The blocks a release lets in. -/
def HelmValues.sources (v : HelmValues) : List String := v.networkPolicy.ingressCidrs

/-- The blocks of the database, of a release. -/
def HelmValues.databases (v : HelmValues) : List String := v.networkPolicy.postgresCidrs

/-- The values a release does not set. -/
theorem networkPolicy_eq (v : HelmValues) :
    v.networkPolicy =
      { enabled := true, ingressCidrs := v.sources, postgresCidrs := v.databases } := by
  unfold HelmValues.sources HelmValues.databases HelmValues.networkPolicy
  cases v.edge <;> rfl

section

variable {net : Net} {delivers : Connection → Prop} {v w : HelmValues} {c : Connection} {e : NetEnd}
  {ns : String}

@[simp] theorem selects_nil (labels : Labels) : selects [] labels = true := rfl

@[simp] theorem isAt_podSelector : Peer.isAt ns e (.podSelector []) = true ↔
    ∃ p, e.pod = some p ∧ p.ns = ns := by
  cases h : e.pod with
  | none => simp [Peer.isAt, h]
  | some p => simp [Peer.isAt, h]

@[simp] theorem isAt_ipBlock {cidr : String} :
    Peer.isAt ns e (.ipBlock cidr) = inCidr cidr e.addr := rfl

@[simp] theorem allows_tcp {peer : Peer} {port : ℤ} :
    NetRule.allows ns e c ⟨[peer], tcp port⟩ = true ↔
      peer.isAt ns e = true ∧ c.protocol = .tcp ∧ c.port = port := by
  simp [NetRule.allows, tcp, eq_comm (a := c.protocol), eq_comm (a := c.port)]

/-- The namespace of a release isolates each of its pods, in both directions. -/
theorem rulesOn_release (hv : Policed net v) (direction : NetworkPolicy → Option (List NetRule))
    {p : NetPod} (hp : p.ns = v.tenant.ns) :
    net.rulesOn direction p = (chartNetworkPolicy v.networkPolicy).filterMap direction := by
  rw [Net.rulesOn, hp, hv, List.filter_eq_self.2]
  intro q hq
  simp only [networkPolicy_eq, chartNetworkPolicy, if_true, List.mem_singleton] at hq
  rw [hq]
  rfl

/-- A pod is let a connection in that comes from its namespace or from a block of the release,
    on the port of the service. -/
theorem allows_ingress (hv : Policed net v) (hc : c.dst.In v.tenant) :
    net.allows NetworkPolicy.ingress c.dst c.src c = true ↔
      (c.src.In v.tenant ∨ ∃ cidr ∈ v.sources, inCidr cidr c.src.addr = true) ∧
        c.protocol = .tcp ∧ c.port = 8080 := by
  obtain ⟨p, hp, hns⟩ := hc
  have hrules : net.rulesOn NetworkPolicy.ingress p = [ingressRules v.networkPolicy] := by
    simp [rulesOn_release hv _ hns, networkPolicy_eq, chartNetworkPolicy]
  simp only [Net.allows, hp, hrules, hns, networkPolicy_eq, ingressRules, List.isEmpty_cons,
    Bool.false_or, List.any_cons, List.any_nil, Bool.or_false, List.any_map, Bool.or_eq_true,
    allows_tcp, isAt_podSelector, List.any_eq_true, Function.comp_apply, isAt_ipBlock]
  rw [or_and_right, NetEnd.In]
  refine or_congr_right ⟨fun ⟨cidr, hm, h, hp⟩ => ⟨⟨cidr, hm, h⟩, hp⟩,
    fun ⟨⟨cidr, hm, h⟩, hp⟩ => ⟨cidr, hm, h, hp⟩⟩

/-- A pod is let out to its namespace on the port of the service, to the databases of the
    release, to any address on port 443, and to the name servers of the cluster. -/
theorem allows_egress (hv : Policed net v) (hc : c.src.In v.tenant) :
    net.allows NetworkPolicy.egress c.src c.dst c = true ↔
      (c.dst.In v.tenant ∧ c.protocol = .tcp ∧ c.port = 8080) ∨
      (kubeDns.isAt v.tenant.ns c.dst = true ∧ c.port = 53) ∨
      ((∃ cidr ∈ v.databases, inCidr cidr c.dst.addr = true) ∧ c.protocol = .tcp ∧
        c.port = 5432) ∨
      (c.protocol = .tcp ∧ c.port = 443) := by
  obtain ⟨p, hp, hns⟩ := hc
  have hrules : net.rulesOn NetworkPolicy.egress p = [egressRules v.networkPolicy] := by
    simp [rulesOn_release hv _ hns, networkPolicy_eq, chartNetworkPolicy]
  have hdns : NetRule.allows v.tenant.ns c.dst c ⟨[kubeDns], [⟨.udp, 53⟩, ⟨.tcp, 53⟩]⟩ = true ↔
      kubeDns.isAt v.tenant.ns c.dst = true ∧ c.port = 53 := by
    cases hpr : c.protocol <;> simp [NetRule.allows, hpr, eq_comm (a := c.port)]
  simp only [Net.allows, hp, hrules, hns, networkPolicy_eq, egressRules, List.isEmpty_cons,
    Bool.false_or, List.any_cons, List.any_nil, Bool.or_false, List.any_map, Bool.or_eq_true,
    allows_tcp, isAt_podSelector, List.any_eq_true, Function.comp_apply, isAt_ipBlock, hdns,
    List.any_append, if_true, inCidr_internet, true_and, List.cons_append]
  rw [NetEnd.In]
  refine or_congr_right (or_congr_right (or_congr_left ?_))
  exact ⟨fun ⟨cidr, hm, h, hp⟩ => ⟨⟨cidr, hm, h⟩, hp⟩,
    fun ⟨⟨cidr, hm, h⟩, hp⟩ => ⟨cidr, hm, h, hp⟩⟩

/-- The namespaces of the tenants are theirs alone. -/
theorem NetEnd.In.tenant_eq {t u : TenantId} (ht : e.In t) (hu : e.In u) : t = u := by
  obtain ⟨p, hp, hns⟩ := ht
  obtain ⟨q, hq, hns'⟩ := hu
  obtain rfl : p = q := Option.some.inj (hp.symm.trans hq)
  exact TenantId.ns_injective (hns.symm.trans hns')

/-- A pod of a tenant reaches another pod of a tenant exactly if it is the same tenant, on the port
    of the service: whatever their addresses, and the edges of their releases. -/
theorem delivers_iff_same (hnet : Enforces net delivers) (hv : Policed net v) (hw : Policed net w)
    (hsrc : c.src.In v.tenant) (hdst : c.dst.In w.tenant) (hc : c.exempt = false) :
    delivers c ↔ v.tenant = w.tenant ∧ c.protocol = .tcp ∧ c.port = 8080 := by
  rw [hnet c hc, Net.permits, Bool.and_eq_true, allows_egress hv hsrc, allows_ingress hw hdst]
  constructor
  · -- What a pod is let out to on another port is not let in.
    rintro ⟨hout, hin, hprot, hport⟩
    refine ⟨?_, hprot, hport⟩
    rcases hout with ⟨h, -, -⟩ | ⟨-, h⟩ | ⟨-, -, h⟩ | ⟨-, h⟩
    · exact h.tenant_eq hdst
    all_goals omega
  · rintro ⟨h, hprot, hport⟩
    exact ⟨.inl ⟨h ▸ hdst, hprot, hport⟩, .inl (h ▸ hsrc), hprot, hport⟩

/-- A release of a tenant behind the shared Ingress, which lets in the addresses of the pods. -/
def wideRelease (t : TenantId) : HelmValues where
  tenant := t
  irsa := "arn"
  host := "rds.internal"
  secret := "secret"
  region := "us-east-1"
  edge := .ingress "ntier-dev" "10" [] ["10.0.0.0/16"] ["10.0.0.0/16"] ""
  migrate := none

/-- Two tenants with such releases. -/
def wideNet : Net where
  policies ns := if ns = TenantId.a.ns ∨ ns = TenantId.b.ns then
    chartNetworkPolicy (wideRelease .a).networkPolicy else []

theorem policed_wide (t : TenantId) (ht : t = .a ∨ t = .b) :
    Policed wideNet (wideRelease t) :=
  if_pos (ht.imp (congrArg TenantId.ns) (congrArg TenantId.ns))

/-- A network that enforces the policies, and delivers all that they do not decide about. -/
def Net.carries (net : Net) (c : Connection) : Bool := c.exempt || net.permits c

theorem enforces_carries (net : Net) : Enforces net (net.carries · = true) :=
  fun c hc => by simp only [Net.carries, hc, Bool.false_or]

/-- A pod of a tenant, on the first node. -/
def podOf (t : TenantId) (name : String) : NetEnd :=
  { addr := Cidr.address 10 0 2 7, pod := some { ns := t.ns, name := name, node := "node-1" } }

theorem podOf_in (t : TenantId) (name : String) : (podOf t name).In t := ⟨_, rfl, rfl⟩

/-- Two pods of other names are not one. -/
theorem podOf_exempt {t u : TenantId} {m n : String} (h : m ≠ n) (protocol : Transport) (port : ℤ) :
    Connection.exempt ⟨podOf t m, podOf u n, protocol, port⟩ = false := by
  simp [Connection.exempt, NetEnd.meetsNode, NetEnd.onHost, podOf, h.symm]

/-- The pods of `b` reach each other, and the pod of `a` reaches none of them. -/
theorem delivers_iff_same_ab :
    ¬wideNet.carries ⟨podOf .a "app-1", podOf .b "app-2", .tcp, 8080⟩ = true ∧
    wideNet.carries ⟨podOf .b "app-1", podOf .b "app-2", .tcp, 8080⟩ = true := by
  have hexempt (t u : TenantId) :
      Connection.exempt ⟨podOf t "app-1", podOf u "app-2", .tcp, 8080⟩ = false :=
    podOf_exempt (by decide) _ _
  constructor
  · intro h
    have hsame := (delivers_iff_same (enforces_carries _) (policed_wide .a (.inl rfl))
      (policed_wide .b (.inr rfl)) (podOf_in .a _) (podOf_in .b _) (hexempt _ _)).1 h
    exact absurd (congrArg TenantId.val hsame.1) (by decide)
  · exact (delivers_iff_same (enforces_carries _) (policed_wide .b (.inr rfl))
      (policed_wide .b (.inr rfl)) (podOf_in .b _) (podOf_in .b _) (hexempt _ _)).2 ⟨rfl, rfl, rfl⟩

theorem NetEnd.Outside.not_in (he : e.Outside) (t : TenantId) : ¬e.In t := by
  rintro ⟨p, hp, -⟩
  rw [NetEnd.Outside] at he
  simp [he] at hp

/-- What a pod reaches outside of the cluster: the databases of the release, and HTTPS. -/
theorem delivers_outside (hnet : Enforces net delivers) (hv : Policed net v)
    (hsrc : c.src.In v.tenant) (hdst : c.dst.Outside) (hc : c.exempt = false) :
    delivers c ↔ c.protocol = .tcp ∧ (c.port = 443 ∨
      c.port = 5432 ∧ ∃ cidr ∈ v.databases, inCidr cidr c.dst.addr = true) := by
  -- No policy selects an end outside, so the egress of the pod decides.
  have hin : net.allows NetworkPolicy.ingress c.dst c.src c = true := by
    rw [Net.allows, show c.dst.pod = none from hdst]
  have hdns : kubeDns.isAt v.tenant.ns c.dst = false := by
    simp [kubeDns, Peer.isAt, show c.dst.pod = none from hdst]
  rw [hnet c hc, Net.permits, hin, Bool.and_true, allows_egress hv hsrc, hdns]
  simp only [hdst.not_in v.tenant, Bool.false_eq_true, false_and, false_or]
  constructor
  · rintro (⟨h, hprot, hport⟩ | ⟨hprot, hport⟩)
    · exact ⟨hprot, .inr ⟨hport, h⟩⟩
    · exact ⟨hprot, .inl hport⟩
  · rintro ⟨hprot, hport | ⟨hport, h⟩⟩
    · exact .inr ⟨hprot, hport⟩
    · exact .inl ⟨h, hprot, hport⟩

/-- What reaches a pod from outside of the cluster: the blocks of the release, on the port of
    the service. -/
theorem delivers_from_outside (hnet : Enforces net delivers) (hv : Policed net v)
    (hsrc : c.src.Outside) (hdst : c.dst.In v.tenant) (hc : c.exempt = false) :
    delivers c ↔ c.protocol = .tcp ∧ c.port = 8080 ∧
      ∃ cidr ∈ v.sources, inCidr cidr c.src.addr = true := by
  have hout : net.allows NetworkPolicy.egress c.src c.dst c = true := by
    rw [Net.allows, show c.src.pod = none from hsrc]
  rw [hnet c hc, Net.permits, hout, Bool.true_and, allows_ingress hv hdst]
  simp only [hsrc.not_in v.tenant, false_or]
  exact and_rotate

end

/-! ## The releases of the control plane -/

section

variable {W : Type} {h : Handler cpSig W} {outputs : Outputs} {ip : String} {t : TenantId}

/-- The edge gives the blocks of the subnets, or the node alone. -/
def Edge.Placed (outputs : Outputs) (ip : String) : Edge → Prop
  | .ingress _ _ _ np pg _ => outputs.albController = true ∧ np = outputs.publicSubnetCidrs ∧
      pg = outputs.privateSubnetCidrs
  | .nodePort _ nodeCidr => outputs.albController = false ∧ nodeCidr = s!"{ip}/32"

/-- The command installs a release with such an edge only, of the tenant. -/
def Places (outputs : Outputs) (ip : String) (t : TenantId) : Cmd → Prop
  | .shell (.helmUpgrade v) => v.tenant = t ∧ v.edge.Placed outputs ip
  | _ => True

section

variable {P : Cmd → Prop}

theorem run_calls {c : Shell} (hc : P (.shell c)) : (run c).Calls P :=
  calls_iff.2 (by simp [run, hc])

end

theorem edgeSets_placed (ids : List TenantId) :
    Within (Places outputs ip t) (fun _ => True) (edgeSets t outputs ip ids)
      (·.Placed outputs ip) := by
  unfold edgeSets
  split
  · next halb =>
    refine .seq (run_calls trivial) fun _ => .ite (fun _ => trivial) fun _ => ?_
    exact .seq ⟨trivial, fun _ => trivial⟩ fun myIp => ⟨halb, rfl, rfl⟩
  · next halb =>
    refine .ite (fun _ => trivial) fun _ => ?_
    cases outputs.tenantNodePorts[t]? with
    | none => trivial
    | some port => exact ⟨by simpa using halb, rfl⟩

/-- The releases `onboard` installs. -/
theorem onboard_places (ids : List TenantId) (irsa secrets : TidMap String) :
    (onboard t outputs ip ids irsa secrets).Calls (Places outputs ip t) := by
  unfold onboard
  split
  · apply Within.calls (U := fun _ => True)
    refine .seq (.ite (fun _ => trivial) fun _ => ⟨trivial, fun _ => trivial⟩) fun region => ?_
    refine .seq (.ite (fun _ => trivial) fun _ => trivial) fun host => ?_
    refine (edgeSets_placed _).bind fun edge hedge => ?_
    refine .seq ⟨trivial, fun r => calls_result r⟩ fun _ => ?_
    refine .seq (run_calls trivial) fun _ => .seq (run_calls trivial) fun _ => ?_
    refine .seq (.ite (fun _ => .map _ ?_) fun _ => trivial) fun migrate => ?_
    · exact .bind (run_calls trivial) fun _ => .bind (.ite (fun _ => trivial) fun _ => trivial)
        fun _ => .bind (.ite (fun _ => trivial) fun _ => trivial) fun _ => trivial
    · refine .seq (run_calls ⟨rfl, hedge⟩) fun _ => within_of_calls ?_
      exact .ite (fun _ => run_calls trivial) fun _ => trivial
  · trivial

variable {net : Net} {delivers : Connection → Prop} {v : HelmValues}

theorem Edge.Placed.sources (hv : v.edge.Placed outputs ip) :
    v.sources = if outputs.albController then outputs.publicSubnetCidrs else [s!"{ip}/32"] := by
  unfold HelmValues.sources HelmValues.networkPolicy
  cases hedge : v.edge with
  | ingress =>
    obtain ⟨halb, rfl, -⟩ := hedge ▸ hv
    rw [if_pos halb]
  | nodePort =>
    obtain ⟨halb, rfl⟩ := hedge ▸ hv
    simp [halb]

theorem Edge.Placed.databases (hv : v.edge.Placed outputs ip) :
    v.databases = if outputs.albController then outputs.privateSubnetCidrs else [] := by
  unfold HelmValues.databases HelmValues.networkPolicy
  cases hedge : v.edge with
  | ingress =>
    obtain ⟨halb, -, rfl⟩ := hedge ▸ hv
    rw [if_pos halb]
  | nodePort =>
    obtain ⟨halb, rfl⟩ := hedge ▸ hv
    simp [halb]

/-- The connections of the pods of a tenant with what is outside of the cluster, the node of the pod
    aside, under any release its onboarding installs. They reach its databases only behind the
    shared Ingress: with a node port, no database at all. -/
theorem onboard_connects {W : Type} {h : Handler cpSig W} {w w' : W} {tr : Trace cpSig}
    {x : Except Exn Unit} {ids : List TenantId} {irsa secrets : TidMap String} {r : ProcOutcome}
    (hx : Exec h (onboard t outputs ip ids irsa secrets) w tr x w')
    (hv : ⟨.shell (.helmUpgrade v), r⟩ ∈ tr) (hnet : Enforces net delivers)
    (hpoliced : Policed net v) (c : Connection) (hc : c.exempt = false) :
    (c.src.In t → c.dst.Outside → (delivers c ↔ c.protocol = .tcp ∧ (c.port = 443 ∨
      c.port = 5432 ∧ outputs.albController = true ∧
        ∃ cidr ∈ outputs.privateSubnetCidrs, inCidr cidr c.dst.addr = true))) ∧
    (c.src.Outside → c.dst.In t → (delivers c ↔ c.protocol = .tcp ∧ c.port = 8080 ∧
      ∃ cidr ∈ if outputs.albController then outputs.publicSubnetCidrs else [s!"{ip}/32"],
        inCidr cidr c.src.addr = true)) := by
  obtain ⟨rfl, hedge⟩ := hx.mem_calls (onboard_places ids irsa secrets) _ hv
  refine ⟨fun hsrc hdst => ?_, fun hsrc hdst => ?_⟩
  · rw [delivers_outside hnet hpoliced hsrc hdst hc, hedge.databases]
    split
    · next halb => simp [halb]
    · next halb => simp [halb]
  · rw [delivers_from_outside hnet hpoliced hsrc hdst hc, hedge.sources]

/-- The identities of the platform tenant. -/
def mapsA : TidMap String := (∅ : TidMap String).insert .a "arn"

/-- The release of the platform tenant. -/
def releaseA : HelmValues where
  tenant := .a
  irsa := "arn"
  host := "rds.internal"
  secret := "arn"
  region := "us-east-1"
  edge := .ingress "ntier-dev" "10" ["10.0.0.1"] ["10.0.1.0/24"] ["10.0.2.0/24"] ""
  migrate := some ⟨labOutputs.migratorIrsaRoleArn, "ntier-dev/rds/master", mapsA⟩

/-- The platform tenant is onboarded. -/
def onboardingA : Trace cpSig × Except Exn Unit × Registry :=
  (onboard .a labOutputs "10.0.0.1" [] mapsA mapsA).eval (openAnswer "now") (fun _ => succeeding)
    0 ∅

theorem onboardingA_release :
    onboardingA.1[6]? = some ⟨.shell (.helmUpgrade releaseA), .exited 0⟩ :=
  rfl

/-- A cluster with that release. -/
def netA : Net := ⟨fun _ => chartNetworkPolicy releaseA.networkPolicy⟩

theorem policed_netA : Policed netA releaseA := rfl

/-- The pod of the platform tenant connects to its database. -/
def databaseA : Connection :=
  ⟨podOf .a "app-1", { addr := Cidr.address 10 0 2 9 }, .tcp, 5432⟩

/-- A node connects to the pod of the platform tenant, from another network. -/
def elsewhereA : Connection :=
  ⟨{ addr := Cidr.address 10 0 9 4, node := some "node-2" }, podOf .a "app-1", .tcp, 8080⟩

/-- The pod of the platform tenant reaches its database, and a node that it does not run on, outside
    of the public subnets, does not reach it. -/
theorem onboard_connects_a : netA.carries databaseA = true ∧ ¬netA.carries elsewhereA = true := by
  have hconnects (c : Connection) (hc : c.exempt = false) :=
    onboard_connects (exec_eval (openAnswer_step "now") (fun _ => succeeding) _ 0 _)
      (List.mem_of_getElem? onboardingA_release) (enforces_carries netA) policed_netA c hc
  constructor
  · refine ((hconnects databaseA (by decide)).1 (podOf_in .a _) rfl).2 ⟨rfl, .inr ⟨rfl, rfl, ?_⟩⟩
    exact ⟨"10.0.2.0/24", by simp [labOutputs], by decide +kernel⟩
  · rw [(hconnects elsewhereA (by decide)).2 rfl (podOf_in .a _)]
    decide +kernel

end

end NtierLab
