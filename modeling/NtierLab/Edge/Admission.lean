import NtierLab.Edge.Cel
import NtierLab.ControlPlane.Trust

/-!
# Admission of Ingresses

The policy of the shared load balancer (`helm/platform-guardrails`), as admission reviews
an Ingress under it, and what an Ingress routes: a path of type `Prefix` matches whole
path elements, one of type `Exact` the path itself, one left to the ingress class what
the class says; what no path matches goes to the default backend.

* `Admitted`: the Ingresses in the namespace of a tenant that the policy admits;
* `LiteralStart`: what is asked of the matching of the class: it takes a pattern as it
  is up to the first wildcard. `albMatches_literalStart`: the load balancer's does;
* `confined_iff`: those admitted route the requests of the paths of their tenant, and no
  request of another's, exactly if none of them has a default backend.
-/

namespace NtierLab

open Cel

/-! ## Ingresses -/

/-- A service and its port. -/
structure Backend where
  service : String
  port : ℕ
  deriving DecidableEq

/-- How a path is matched. -/
inductive PathType
  | prefixPath
  | exactPath
  | implementationSpecific
  deriving DecidableEq

/-- A path of a rule. Only one left to the ingress class may have no `path`. -/
structure IngressPath where
  path : Option String
  pathType : PathType
  backend : Backend

/-- A rule: a host, or any, and its paths. -/
structure IngressRule where
  host : Option String := none
  /-- The paths of `http`. -/
  http : Option (List IngressPath)

/-- The fields of an Ingress that admission looks at or that route; each may be missing. -/
structure Ingress where
  ns : Option String
  annotations : Option (List (String × String))
  ingressClassName : Option String
  defaultBackend : Option Backend := none
  rules : Option (List IngressRule)

/-! ## The policy -/

/-- An operation admission is asked about. -/
inductive Operation
  | create
  | update
  | delete
  | connect
  deriving DecidableEq

/-- An expression that must hold, and the message of a denial. -/
structure Validation where
  expression : Ingress → Cond
  message : String

/-- A `ValidatingAdmissionPolicy` of Ingresses. -/
structure AdmissionPolicy where
  operations : List Operation
  matchCondition : Ingress → Cond
  validations : List Validation

/-- The review of an Ingress, as `failurePolicy: Fail` has it: an error is a denial. -/
def AdmissionPolicy.review (policy : AdmissionPolicy) (op : Operation) (i : Ingress) :
    Except String Unit :=
  if op ∉ policy.operations then .ok ()
  else
    match policy.matchCondition i with
    | none => .error "expression resulted in error"
    | some false => .ok ()
    | some true =>
      match policy.validations.find? fun v => v.expression i ≠ some true with
      | some v => .error v.message
      | none => .ok ()

/-- `has(e)`. -/
def has {α : Type} (e : Option α) : Cond := some e.isSome

/-- `a.startsWith(b)`. -/
def startsWith (a b : String) : Bool := b.toList.isPrefixOf a.toList

/-- The values of `platform-guardrails`. -/
structure GuardrailValues where
  ingressClass : String := "alb"
  groupName : String := "ntier-dev"

/-- The annotation with the group of the load balancer. -/
def groupNameKey : String := "alb.ingress.kubernetes.io/group.name"

section

variable (values : GuardrailValues)

/-- `tenant-namespace`. -/
def tenantNamespace (i : Ingress) : Cond :=
  conj (has i.ns) (i.ns.map (startsWith · "tenant-"))

/-- The class of the Ingress is the shared load balancer's. -/
def classExpression (i : Ingress) : Cond :=
  conj (has i.ingressClassName) (i.ingressClassName.map (· == values.ingressClass))

/-- It joins the group of the shared load balancer. -/
def groupExpression (i : Ingress) : Cond :=
  conj (conj (has i.annotations) (i.annotations.map fun a => (a.lookup groupNameKey).isSome))
    ((i.annotations.bind (·.lookup groupNameKey)).map (· == values.groupName))

/-- The condition on a path, in a namespace. -/
def pathExpression (ns : Option String) (p : IngressPath) : Cond :=
  disj (p.path.bind fun path => ns.map fun ns => path == "/" ++ ns)
    (p.path.bind fun path => ns.map fun ns => startsWith path ("/" ++ ns ++ "/"))

/-- Every path of a rule is one of the namespace. -/
def ruleExpression (ns : Option String) (r : IngressRule) : Cond :=
  conj (has r.http) (r.http.bind (all (pathExpression ns)))

/-- So is every path of the Ingress. -/
def rulesExpression (i : Ingress) : Cond :=
  conj (has i.rules) (i.rules.bind (all (ruleExpression i.ns)))

/-- `tenant-shared-alb-ingress`. -/
def tenantSharedAlbIngress : AdmissionPolicy where
  operations := [.create, .update]
  matchCondition := tenantNamespace
  validations :=
    [⟨classExpression values, "tenant Ingress must use ingressClassName " ++ values.ingressClass⟩,
      ⟨groupExpression values, "tenant Ingress must join group.name=" ++ values.groupName ++
        " (shared ALB trust boundary)"⟩,
      ⟨rulesExpression, "tenant Ingress paths must be scoped to /{namespace} (this tenant only)"⟩]

end

/-! ## Routing -/

/-- A request at the edge. -/
structure EdgeRequest where
  host : String
  path : String

/-- The elements of a path, a slash at its end left out. -/
def elements (path : String) : List (List Char) :=
  let parts := path.toList.splitOn '/'
  if parts.getLast? = some [] then parts.dropLast else parts

/-- The patterns of the load balancer: `*` matches any characters, `?` any one. -/
def glob : List Char → List Char → Bool
  | [], q => q.isEmpty
  | '*' :: p, q => q.tails.any (glob p)
  | '?' :: p, q => !q.isEmpty && glob p q.tail
  | c :: p, q => q.head? == some c && glob p q.tail

/-- How the class of the load balancer matches a path left to it. -/
def albMatches (pattern path : String) : Bool := glob pattern.toList path.toList

/-- A wildcard of a pattern. -/
def Wildcard (c : Char) : Prop := c = '*' ∨ c = '?'

/-- The matching of an ingress class takes what stands before the first wildcard of a pattern
    as it is: a path that matches begins with it, and, where there is no wildcard at all, with the
    elements of the pattern. -/
structure LiteralStart (classMatches : String → String → Bool) : Prop where
  elements : ∀ pattern path, (∀ c ∈ pattern.toList, ¬Wildcard c) →
    classMatches pattern path = true → elements pattern <+: elements path
  start : ∀ (l : List Char) (pattern path : String), (∀ c ∈ l, ¬Wildcard c) →
    l <+: pattern.toList → classMatches pattern path = true → l <+: path.toList

section

variable (classMatches : String → String → Bool)

/-- A path matches a request path; none matches every one. -/
def IngressPath.matches (p : IngressPath) (path : String) : Bool :=
  match p.path with
  | none => true
  | some pattern =>
    match p.pathType with
    | .prefixPath => (elements pattern).isPrefixOf (elements path)
    | .exactPath => pattern == path
    | .implementationSpecific => classMatches pattern path

end

/-- A host matches, a wildcard its first label. -/
def hostMatches (pattern host : String) : Bool :=
  match pattern.toList with
  | '*' :: domain => host.toList.head? != some '.' && host.toList.dropWhile (· != '.') == domain
  | _ => pattern == host

/-- A rule without a host, or with an empty one, matches any. -/
def IngressRule.matchesHost (r : IngressRule) (host : String) : Bool :=
  r.host.all fun pattern => pattern == "" || hostMatches pattern host

namespace Ingress

variable (classMatches : String → String → Bool) (i : Ingress) (q : EdgeRequest)

/-- The paths that match a request. -/
def matching : List IngressPath :=
  ((i.rules.getD []).filter (·.matchesHost q.host)).flatMap fun r =>
    (r.http.getD []).filter (·.matches classMatches q.path)

/-- The backends a request may go to: those of the paths that match it, or the default one. -/
def backends : List Backend :=
  match i.matching classMatches q with
  | [] => i.defaultBackend.toList
  | ps => ps.map (·.backend)

/-- The Ingress routes a request. -/
def Routes : Prop := i.backends classMatches q ≠ []

end Ingress

/-! ## The paths of a tenant -/

/-- A path of a tenant. -/
def OwnPath (t : TenantId) (path : String) : Prop :=
  path = "/" ++ t.ns ∨ startsWith path ("/" ++ t.ns ++ "/") = true

section

variable {t u : TenantId} {path : String} {i : Ingress} {q : EdgeRequest} {values : GuardrailValues}
variable {classMatches : String → String → Bool}

theorem startsWith_iff {a b : String} : startsWith a b = true ↔ b.toList <+: a.toList := by
  simp [startsWith]

/-- The characters of a namespace are none of a path, or of a pattern. -/
theorem TenantId.notMem_ns (t : TenantId) {c : Char} (hc : c ∉ "tenant-".toList)
    (hl : c.isLower = false) (hd : c.isDigit = false) : c ∉ t.ns.toList := by
  intro h
  rw [ns, String.toList_append, List.mem_append] at h
  rcases h with h | h
  · exact hc h
  · rcases t.isAlphanum c h with h | h
    · exact Bool.false_ne_true (hl.symm.trans h)
    · exact Bool.false_ne_true (hd.symm.trans h)

theorem TenantId.slash_notMem (t : TenantId) : '/' ∉ t.ns.toList :=
  t.notMem_ns (by decide +kernel) rfl rfl

theorem TenantId.ns_toList_ne (t : TenantId) : t.ns.toList ≠ [] := by
  simp [ns]

/-- The paths of a tenant, by characters. -/
theorem ownPath_iff : OwnPath t path ↔
    path.toList = '/' :: t.ns.toList ∨ '/' :: t.ns.toList ++ ['/'] <+: path.toList := by
  rw [OwnPath, startsWith_iff, ← String.toList_inj]
  simp

/-- The paths of a tenant are those whose first element is its namespace. -/
theorem ownPath_iff_elements : OwnPath t path ↔ [[], t.ns.toList] <+: elements path := by
  have hns := t.slash_notMem
  have hsplit (l : List Char) (hl : '/' ∉ l) (x : List Char) :
      (l ++ '/' :: x).splitOn '/' = l :: x.splitOn '/' :=
    List.splitOn_append_cons_self_of_not_mem hl x
  rw [ownPath_iff]
  constructor
  · rintro (h | ⟨x, h⟩)
    · have hparts : path.toList.splitOn '/' = [[], t.ns.toList] := by
        rw [h, ← List.nil_append ('/' :: _), hsplit [] List.not_mem_nil,
          List.splitOn_eq_singleton hns]
      simp [elements, hparts, t.ns_toList_ne]
    · have hparts : path.toList.splitOn '/' = [] :: t.ns.toList :: x.splitOn '/' := by
        rw [← h, List.append_assoc, ← List.nil_append ('/' :: _ ++ _), List.cons_append,
          hsplit [] List.not_mem_nil, List.cons_append, List.nil_append, hsplit _ hns]
      obtain ⟨y, ys, hy⟩ := List.exists_cons_of_ne_nil (List.splitOn_ne_nil '/' x)
      rw [elements, hparts, hy]
      split
      · rw [List.dropLast_cons_of_ne_nil (by simp), List.dropLast_cons_of_ne_nil (by simp)]
        exact ⟨_, rfl⟩
      · exact ⟨_, rfl⟩
  · -- The path is put together again from its parts, of which the elements are the first.
    intro h
    have hparts : elements path <+: path.toList.splitOn '/' := by
      unfold elements
      dsimp only
      split
      · exact List.dropLast_prefix _
      · exact List.prefix_rfl
    obtain ⟨rest, hrest⟩ := h.trans hparts
    have hpath : ['/'].intercalate (path.toList.splitOn '/') = path.toList :=
      List.intercalate_splitOn '/'
    rw [← hrest] at hpath
    cases rest with
    | nil => exact .inl (by simpa using hpath.symm)
    | cons y ys => exact .inr ⟨_, by simpa using hpath⟩

/-! ## What is admitted -/

/-- What the policy asks of a path. -/
@[simp] theorem pathExpression_true {p : IngressPath} :
    pathExpression (some t.ns) p = some true ↔ ∃ path, p.path = some path ∧ OwnPath t path := by
  rcases hp : p.path with _ | path <;> simp [pathExpression, hp, OwnPath]

@[simp] theorem has_true {α : Type} {e : Option α} : has e = some true ↔ e.isSome := by
  simp [has]

/-- What the policy asks of an Ingress in the namespace of a tenant. -/
structure Scoped (values : GuardrailValues) (t : TenantId) (i : Ingress) : Prop where
  ingressClassName : i.ingressClassName = some values.ingressClass
  groupName : i.annotations.bind (·.lookup groupNameKey) = some values.groupName
  rules : ∃ rules, i.rules = some rules ∧ ∀ r ∈ rules, ∃ paths, r.http = some paths ∧
    ∀ p ∈ paths, ∃ path, p.path = some path ∧ OwnPath t path

theorem classExpression_true :
    classExpression values i = some true ↔ i.ingressClassName = some values.ingressClass := by
  rcases hc : i.ingressClassName with _ | c <;> simp [classExpression, hc]

theorem groupExpression_true : groupExpression values i = some true ↔
    i.annotations.bind (·.lookup groupNameKey) = some values.groupName := by
  rcases ha : i.annotations with _ | a
  · simp [groupExpression, ha]
  · rcases hg : a.lookup groupNameKey with _ | g <;> simp [groupExpression, ha, hg]

theorem ruleExpression_true {r : IngressRule} : ruleExpression (some t.ns) r = some true ↔
    ∃ paths, r.http = some paths ∧ ∀ p ∈ paths, ∃ path, p.path = some path ∧ OwnPath t path := by
  rcases hr : r.http with _ | paths <;> simp [ruleExpression, hr]

theorem rulesExpression_true (hns : i.ns = some t.ns) : rulesExpression i = some true ↔
    ∃ rules, i.rules = some rules ∧ ∀ r ∈ rules, ∃ paths, r.http = some paths ∧
      ∀ p ∈ paths, ∃ path, p.path = some path ∧ OwnPath t path := by
  rcases hr : i.rules with _ | rules <;>
    simp [rulesExpression, hr, hns, ruleExpression_true]

theorem tenantNamespace_true (hns : i.ns = some t.ns) : tenantNamespace i = some true := by
  simp [tenantNamespace, hns, startsWith_iff, TenantId.ns]

/-- The Ingresses in the namespace of a tenant that the policy admits. -/
def Admitted (values : GuardrailValues) (t : TenantId) : Set Ingress :=
  {i | i.ns = some t.ns ∧
    ∃ op, (op = .create ∨ op = .update) ∧ (tenantSharedAlbIngress values).review op i = .ok ()}

/-- The policy admits what is scoped to the tenant. -/
theorem mem_admitted : i ∈ Admitted values t ↔ i.ns = some t.ns ∧ Scoped values t i := by
  refine and_congr_right fun hns => ?_
  have hreview (op : Operation) (hop : op = .create ∨ op = .update) :
      (tenantSharedAlbIngress values).review op i = .ok () ↔ Scoped values t i := by
    have hmem : ¬op ∉ (tenantSharedAlbIngress values).operations := by
      rcases hop with rfl | rfl <;> simp [tenantSharedAlbIngress]
    have hmatch : (tenantSharedAlbIngress values).matchCondition i = some true :=
      tenantNamespace_true hns
    rw [AdmissionPolicy.review, if_neg hmem, hmatch]
    dsimp only
    have hall : ((tenantSharedAlbIngress values).validations.find?
        fun v => v.expression i ≠ some true) = none ↔ Scoped values t i := by
      simp only [tenantSharedAlbIngress, List.find?_eq_none, List.forall_mem_cons, decide_eq_true_eq,
        not_not, List.not_mem_nil, false_implies, implies_true, and_true, classExpression_true,
        groupExpression_true, rulesExpression_true hns]
      exact ⟨fun ⟨h, h', h''⟩ => ⟨h, h', h''⟩, fun h => ⟨h.1, h.2, h.3⟩⟩
    rw [← hall]
    cases (tenantSharedAlbIngress values).validations.find? fun v => v.expression i ≠ some true <;>
      simp
  constructor
  · rintro ⟨op, hop, h⟩
    exact (hreview op hop).1 h
  · exact fun h => ⟨.create, .inl rfl, (hreview _ (.inl rfl)).2 h⟩

/-! ## What is routed -/

/-- A pattern without wildcards at its beginning. -/
theorem glob_literal {l p s : List Char} (hl : ∀ c ∈ l, ¬Wildcard c)
    (h : glob (l ++ p) s = true) : ∃ s', s = l ++ s' ∧ glob p s' = true := by
  induction l generalizing s with
  | nil => exact ⟨s, rfl, h⟩
  | cons c l ih =>
    obtain ⟨hc, hl⟩ := List.forall_mem_cons.1 hl
    have hglob : glob (c :: (l ++ p)) s = (s.head? == some c && glob (l ++ p) s.tail) := by
      rw [glob]
      · exact fun h => hc (.inl h)
      · exact fun h => hc (.inr h)
    rw [List.cons_append, hglob, Bool.and_eq_true, beq_iff_eq] at h
    obtain ⟨hhead, htail⟩ := h
    cases s with
    | nil => cases hhead
    | cons d s =>
      cases hhead
      obtain ⟨s', rfl, hs'⟩ := ih hl htail
      exact ⟨s', rfl, hs'⟩

/-- The load balancer takes a pattern as it is up to the first wildcard. -/
theorem albMatches_literalStart : LiteralStart albMatches where
  elements pattern path hpattern h := by
    obtain ⟨s, hs, hnil⟩ := glob_literal (p := []) hpattern (by rwa [List.append_nil])
    rw [glob, List.isEmpty_iff] at hnil
    have hpath : path = pattern := String.toList_injective (by rw [hs, hnil, List.append_nil])
    exact hpath ▸ List.prefix_rfl
  start l pattern path hl hpattern h := by
    obtain ⟨rest, hrest⟩ := hpattern
    have h : glob pattern.toList path.toList = true := h
    rw [← hrest] at h
    obtain ⟨s, hs, -⟩ := glob_literal hl h
    exact ⟨s, hs.symm⟩

/-- There is no wildcard in the path of a tenant, by its namespace. -/
theorem TenantId.not_wildcard (t : TenantId) : ∀ c ∈ '/' :: t.ns.toList, ¬Wildcard c := by
  refine List.forall_mem_cons.2 ⟨by simp [Wildcard], fun c hc => ?_⟩
  rintro (rfl | rfl)
  · exact t.notMem_ns (by decide +kernel) rfl rfl hc
  · exact t.notMem_ns (by decide +kernel) rfl rfl hc

/-- A path of a tenant matches paths of the tenant only, whatever its type. -/
theorem IngressPath.matches_own (hclass : LiteralStart classMatches) {p : IngressPath}
    {pattern : String} (hp : p.path = some pattern) (hown : OwnPath t pattern)
    (h : p.matches classMatches path = true) : OwnPath t path := by
  rw [IngressPath.matches, hp] at h
  dsimp only at h
  split at h
  · have helements := List.isPrefixOf_iff_prefix.1 h
    exact ownPath_iff_elements.2 ((ownPath_iff_elements.1 hown).trans helements)
  · rwa [← beq_iff_eq.1 h]
  · rcases ownPath_iff.1 hown with hpattern | hpattern
    · -- The path of the tenant itself has no wildcard.
      have helements := hclass.elements pattern path (hpattern ▸ t.not_wildcard) h
      exact ownPath_iff_elements.2 ((ownPath_iff_elements.1 hown).trans helements)
    · have hslash : ∀ c ∈ '/' :: t.ns.toList ++ ['/'], ¬Wildcard c := by
        intro c hc
        rcases List.mem_append.1 hc with hc | hc
        · exact t.not_wildcard c hc
        · rw [List.mem_singleton.1 hc]
          simp [Wildcard]
      exact ownPath_iff.2 (.inr (hclass.start _ pattern path hslash hpattern h))

theorem Ingress.mem_matching {p : IngressPath} : p ∈ i.matching classMatches q ↔
    ∃ rules, i.rules = some rules ∧ ∃ r ∈ rules, r.matchesHost q.host = true ∧
      ∃ paths, r.http = some paths ∧ p ∈ paths ∧ p.matches classMatches q.path = true := by
  simp only [matching, List.mem_flatMap, List.mem_filter]
  constructor
  · rintro ⟨r, ⟨hr, hhost⟩, hp, hpath⟩
    cases hrules : i.rules with
    | none => simp [hrules] at hr
    | some rules =>
      cases hhttp : r.http with
      | none => simp [hhttp] at hp
      | some paths =>
        rw [hrules] at hr
        rw [hhttp] at hp
        exact ⟨rules, rfl, r, hr, hhost, paths, hhttp, hp, hpath⟩
  · rintro ⟨rules, hrules, r, hr, hhost, paths, hhttp, hp, hpath⟩
    exact ⟨r, ⟨by simpa [hrules] using hr, hhost⟩, by simpa [hhttp] using hp, hpath⟩

/-- What a path of an admitted Ingress matches is a path of the tenant. -/
theorem Scoped.matching_own (hclass : LiteralStart classMatches) (h : Scoped values t i)
    (hq : i.matching classMatches q ≠ []) : OwnPath t q.path := by
  obtain ⟨p, hp⟩ := List.exists_mem_of_ne_nil _ hq
  obtain ⟨rules, hrules, r, hr, -, paths, hhttp, hp, hpath⟩ := Ingress.mem_matching.1 hp
  obtain ⟨rules', hrules', hscoped⟩ := h.rules
  obtain rfl := Option.some.inj (hrules.symm.trans hrules')
  obtain ⟨paths', hhttp', hscoped⟩ := hscoped r hr
  obtain rfl := Option.some.inj (hhttp.symm.trans hhttp')
  obtain ⟨pattern, hpattern, hown⟩ := hscoped p hp
  exact IngressPath.matches_own hclass hpattern hown hpath

/-- An Ingress routes what its paths match, and everything if it has a default backend. -/
theorem Ingress.routes_iff :
    i.Routes classMatches q ↔ i.matching classMatches q ≠ [] ∨ i.defaultBackend.isSome := by
  rw [Routes, backends]
  split
  · next h => rw [h]; cases i.defaultBackend <;> simp
  · next hne =>
    have hne : i.matching classMatches q ≠ [] := hne
    simp [hne]

/-- A path is one tenant's. -/
theorem OwnPath.eq (ht : OwnPath t path) (hu : OwnPath u path) : t = u := by
  obtain ⟨x, hx⟩ := ownPath_iff_elements.1 ht
  obtain ⟨y, hy⟩ := ownPath_iff_elements.1 hu
  have h : t.ns.toList = u.ns.toList := by
    have h := hx.trans hy.symm
    simp only [List.cons_append, List.nil_append, List.cons.injEq, true_and] at h
    exact h.1
  exact TenantId.ns_injective (String.toList_injective h)

/-- The root is no tenant's path. -/
theorem not_ownPath_root : ¬OwnPath t "/" := by
  rw [ownPath_iff_elements]
  exact (by decide +kernel : ¬2 ≤ (elements "/").length) ∘ List.IsPrefix.length_le

/-- An admitted Ingress routes requests of the paths of its tenant only, exactly if it has no
    default backend. -/
theorem routes_own_iff (hclass : LiteralStart classMatches) (hi : i ∈ Admitted values t) :
    (∀ q, i.Routes classMatches q → OwnPath t q.path) ↔ i.defaultBackend = none := by
  obtain ⟨-, hscoped⟩ := mem_admitted.1 hi
  constructor
  · intro h
    by_contra hdefault
    -- The root is routed to the default backend.
    exact not_ownPath_root (h ⟨"", "/"⟩ (Ingress.routes_iff.2
      (.inr (Option.isSome_iff_ne_none.2 hdefault))))
  · intro hdefault q hq
    rcases Ingress.routes_iff.1 hq with h | h
    · exact hscoped.matching_own hclass h
    · rw [hdefault] at h
      cases h

/-- The Ingresses of the tenants route requests of their own paths only, and none that those of
    another tenant route. -/
structure Confined (classMatches : String → String → Bool) (ingresses : TenantId → Set Ingress) :
    Prop where
  own : ∀ t, ∀ i ∈ ingresses t, ∀ q, i.Routes classMatches q → OwnPath t q.path
  disjoint : ∀ t u, t ≠ u → ∀ i ∈ ingresses t, ∀ j ∈ ingresses u, ∀ q,
    ¬(i.Routes classMatches q ∧ j.Routes classMatches q)

/-- The Ingresses admitted for the tenants are confined, exactly if none of them has a default
    backend. -/
theorem confined_iff (hclass : LiteralStart classMatches) {ingresses : TenantId → Set Ingress}
    (h : ∀ t, ingresses t ⊆ Admitted values t) :
    Confined classMatches ingresses ↔ ∀ t, ∀ i ∈ ingresses t, i.defaultBackend = none := by
  constructor
  · exact fun hc t i hi => (routes_own_iff hclass (h t hi)).1 (hc.own t i hi)
  · intro hnone
    have hown : ∀ t, ∀ i ∈ ingresses t, ∀ q, i.Routes classMatches q → OwnPath t q.path :=
      fun t i hi => (routes_own_iff hclass (h t hi)).2 (hnone t i hi)
    refine ⟨hown, fun t u htu i hi j hj q hq => htu ?_⟩
    exact (hown t i hi q hq.1).eq (hown u j hj q hq.2)

/-! ## The Ingress of the chart -/

/-- The Ingress of a tenant, in `helm/test-app`. -/
def chartIngress (values : GuardrailValues) (t : TenantId) (pathPrefix : String)
    (backend : Backend) : Ingress where
  ns := some t.ns
  annotations := some [(groupNameKey, values.groupName)]
  ingressClassName := some values.ingressClass
  rules := some [{
    http := some [⟨some (if pathPrefix = "" then "/tenant-" ++ t.val else pathPrefix), .prefixPath,
      backend⟩] }]

theorem chart_path (t : TenantId) : OwnPath t ("/tenant-" ++ t.val) := by
  refine .inl (String.toList_injective ?_)
  simp [TenantId.ns]

/-- The Ingress of the chart is admitted, with the path of its tenant or without one. -/
theorem chartIngress_admitted {pathPrefix : String} {backend : Backend}
    (h : pathPrefix = "" ∨ OwnPath t pathPrefix) :
    chartIngress values t pathPrefix backend ∈ Admitted values t := by
  refine mem_admitted.2 ⟨rfl, rfl, by simp [chartIngress], _, rfl, ?_⟩
  refine List.forall_mem_singleton.2 ⟨_, rfl, List.forall_mem_singleton.2 ⟨_, rfl, ?_⟩⟩
  split
  · exact chart_path t
  · next hne => exact h.resolve_left hne

/-- The chart's Ingresses of all tenants are confined. -/
theorem confined_iff_chart :
    Confined albMatches fun t => {chartIngress {} t "" ⟨"test-app", 8080⟩} := by
  have hadmitted (t : TenantId) :
      {chartIngress {} t "" ⟨"test-app", 8080⟩} ⊆ Admitted {} t :=
    Set.singleton_subset_iff.2 (chartIngress_admitted (.inl rfl))
  refine (confined_iff albMatches_literalStart hadmitted).2 fun t i hi => ?_
  rw [Set.mem_singleton_iff.1 hi]
  rfl

/-- An Ingress with the path of its tenant and a default backend routes the requests of the
    others. -/
theorem default_not_confined :
    ¬∀ (values : GuardrailValues) t, ∀ i ∈ Admitted values t, ∀ q, i.Routes albMatches q →
      OwnPath t q.path := by
  intro h
  have hi : { chartIngress {} .a "" ⟨"test-app", 8080⟩ with
      defaultBackend := some ⟨"test-app", 8080⟩ } ∈ Admitted {} .a := by
    obtain ⟨hns, hclass, hgroup, hrules⟩ :=
      mem_admitted.1 (@chartIngress_admitted .a {} "" ⟨"test-app", 8080⟩ (.inl rfl))
    exact mem_admitted.2 ⟨hns, hclass, hgroup, hrules⟩
  have hown := h {} .a _ hi ⟨"", "/tenant-b"⟩ (Ingress.routes_iff.2 (.inr rfl))
  rw [ownPath_iff_elements] at hown
  revert hown
  decide +kernel

end

end NtierLab
