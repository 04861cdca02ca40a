import NtierLab.Edge.Admission
import NtierLab.Text.Infix

/-!
# Routing by path

The edge in nodeport mode (`env/dev/workload/tenants.tf`, `modules/alb`): a
listener rule for each tenant, tried by priority, and the middleware of the pod
that takes the prefix off the path (`helm/test-app`, `PrefixMiddleware`).

* `rulePath_matches`: the pattern of a tenant matches the paths that begin with
  its prefix, those of a longer id too.
* `select_eq`: the rule of a request is that of the first listed id whose prefix
  the path begins with.
* `delivered_iff`: each path goes to its own tenant, and is presented to it
  without the prefix, exactly if no id before it in the list is a prefix of its
  id; a path of no tenant is not found exactly if it begins with no prefix.
-/

namespace NtierLab

/-- A target group: the node port of the pod of a tenant. -/
structure TargetGroup where
  tenant : TenantId
  targetPort : ℕ
  deriving DecidableEq

/-- A rule of the listener (`aws_lb_listener_rule.path`). -/
structure ListenerRule where
  priority : ℕ
  pathPattern : String
  target : TargetGroup

/-- What the listener does with a request: forwards it, or answers it itself. -/
inductive EdgeAction
  | forward (target : TargetGroup)
  | fixedResponse (statusCode : ℕ) (messageBody : String)

/-- `edge_tenant_ids`: the listed tenants, or the platform tenant alone. -/
def edgeTenantIds (tenantIds : List TenantId) (platform : TenantId) : List TenantId :=
  if 0 < tenantIds.length then tenantIds else [platform]

/-- `node_port_base`. -/
def nodePortBase : ℕ := 30080

/-- The prefix of the paths of a tenant. -/
def TenantId.pathPrefix (t : TenantId) : String := "/tenant-" ++ t.val

/-- `tenant_path_target_groups`, as the rules made of them. -/
def tenantPathTargetGroups (edgeIds : List TenantId) : List ListenerRule :=
  edgeIds.zipIdx.map fun (tid, i) =>
    { priority := (i + 1) * 10, pathPattern := tid.pathPrefix ++ "*",
      target := { tenant := tid, targetPort := nodePortBase + i } }

/-- `alb_404_body`. -/
def alb404Body (edgeIds : List TenantId) : String :=
  "use " ++ " or ".intercalate (edgeIds.map fun tid => "/tenant-" ++ tid.val ++ "/")

/-- The rule the load balancer selects: the first that matches, by priority. -/
def select (rules : List ListenerRule) (path : String) : Option ListenerRule :=
  (rules.mergeSort fun a b => a.priority ≤ b.priority).find? fun r =>
    glob r.pathPattern.toList path.toList

/-- The HTTP listener; its default action is a fixed response where there are path rules. -/
def listen (edgeIds : List TenantId) (path : String) : EdgeAction :=
  match select (tenantPathTargetGroups edgeIds) path with
  | some r => .forward r.target
  | none => .fixedResponse 404 (alb404Body edgeIds)

/-! ## In the pod -/

/-- The part of the environment of a request the middleware reads and writes. -/
structure Environ where
  pathInfo : String
  scriptName : String := ""
  deriving DecidableEq

/-- `PrefixMiddleware`. -/
def prefixMiddleware (pathPrefix : String) (environ : Environ) : Environ :=
  let pre := rstripSlash pathPrefix
  if pre ≠ "" ∧ startsWith environ.pathInfo pre = true then
    { pathInfo := orElse (String.ofList (environ.pathInfo.toList.drop pre.length)) "/",
      scriptName := environ.scriptName ++ pre }
  else environ

/-- What the application of the pod of a tenant is presented: there is a middleware where
    `PATH_PREFIX` is set. -/
def present (t : TenantId) (path : String) : Environ :=
  let pathPrefix := pyStrip t.pathPrefix
  if pathPrefix ≠ "" then prefixMiddleware pathPrefix { pathInfo := path } else { pathInfo := path }

/-! ## The rule selected -/

section

variable {t u : TenantId} {path : String} {ids : List TenantId}

theorem pathPrefix_toList (t : TenantId) : t.pathPrefix.toList = '/' :: t.ns.toList := by
  simp [TenantId.pathPrefix, TenantId.ns]

theorem glob_of_literal {l p s : List Char} (hl : ∀ c ∈ l, ¬Wildcard c)
    (h : glob p s = true) : glob (l ++ p) (l ++ s) = true := by
  induction l with
  | nil => exact h
  | cons c l ih =>
    obtain ⟨hc, hl⟩ := List.forall_mem_cons.1 hl
    rw [List.cons_append, List.cons_append, glob]
    · simpa using ih hl
    · exact fun h => hc (.inl h)
    · exact fun h => hc (.inr h)

/-- The pattern of a tenant matches what begins with its prefix. -/
theorem rulePath_matches :
    glob (t.pathPrefix ++ "*").toList path.toList = true ↔ t.pathPrefix.toList <+: path.toList := by
  have hl : ∀ c ∈ t.pathPrefix.toList, ¬Wildcard c := pathPrefix_toList t ▸ t.not_wildcard
  have hstar (s : List Char) : glob ['*'] s = true := by
    rw [glob, List.any_eq_true]
    exact ⟨[], by simp, rfl⟩
  rw [String.toList_append]
  constructor
  · intro h
    obtain ⟨s', hs', -⟩ := glob_literal hl h
    exact ⟨s', hs'.symm⟩
  · rintro ⟨s', hs'⟩
    rw [← hs']
    exact glob_of_literal hl (hstar s')

/-- The rules are listed by priority. -/
theorem rules_sorted (ids : List TenantId) :
    (tenantPathTargetGroups ids).mergeSort (fun a b => a.priority ≤ b.priority) =
      tenantPathTargetGroups ids := by
  refine List.mergeSort_of_pairwise ?_
  rw [tenantPathTargetGroups, List.pairwise_map, List.pairwise_iff_getElem]
  intro i j hi hj hij
  simp only [List.getElem_zipIdx, decide_eq_true_eq]
  omega

/-- A search that reads no position does not depend on them. -/
theorem find?_zipIdx {α : Type*} (p : α → Bool) (l : List α) (k : ℕ) :
    ((l.zipIdx k).find? fun x => p x.1).map Prod.fst = l.find? p := by
  induction l generalizing k with
  | nil => rfl
  | cons a l ih =>
    rw [List.zipIdx_cons, List.find?_cons, List.find?_cons]
    cases h : p a with
    | true => rfl
    | false => exact ih (k + 1)

/-- The first listed tenant whose prefix a path begins with. -/
def firstPrefix (ids : List TenantId) (path : String) : Option TenantId :=
  ids.find? fun t => startsWith path t.pathPrefix

theorem firstPrefix_eq_none :
    firstPrefix ids path = none ↔ ∀ s ∈ ids, ¬startsWith path s.pathPrefix = true :=
  List.find?_eq_none

/-- The rule of a request is that of this tenant. -/
theorem select_eq (ids : List TenantId) (path : String) :
    (select (tenantPathTargetGroups ids) path).map (·.target.tenant) = firstPrefix ids path := by
  have hp (t : TenantId) : glob (t.pathPrefix ++ "*").toList path.toList =
      startsWith path t.pathPrefix := by
    rw [Bool.eq_iff_iff, rulePath_matches, startsWith_iff]
  rw [select, rules_sorted, tenantPathTargetGroups, List.find?_map, Option.map_map,
    firstPrefix, ← find?_zipIdx _ ids 0]
  simp only [Function.comp_def, hp]

/-- What the listener forwards to is a target group of the edge. -/
theorem listen_forward (h : firstPrefix ids path = some t) :
    ∃ g ∈ (tenantPathTargetGroups ids).map (·.target), g.tenant = t ∧
      listen ids path = .forward g := by
  rw [← select_eq] at h
  obtain ⟨r, hr, rfl⟩ := Option.map_eq_some_iff.1 h
  have hmem : r ∈ tenantPathTargetGroups ids := by
    rw [select, rules_sorted] at hr
    exact List.mem_of_find?_eq_some hr
  exact ⟨r.target, List.mem_map_of_mem hmem, rfl, by rw [listen, hr]⟩

theorem listen_fixed (h : firstPrefix ids path = none) :
    listen ids path = .fixedResponse 404 (alb404Body ids) := by
  rw [← select_eq, Option.map_eq_none_iff] at h
  rw [listen, h]

/-! ## The prefix of another -/

/-- The path of a tenant begins with the prefix of another where its id begins with the
    other's. -/
theorem OwnPath.prefix_iff (h : OwnPath t path) :
    startsWith path u.pathPrefix = true ↔ u.val.toList <+: t.val.toList := by
  have hns : u.ns.toList <+: t.ns.toList ↔ u.val.toList <+: t.val.toList := by
    rw [TenantId.ns, TenantId.ns, String.toList_append, String.toList_append,
      List.prefix_append_right_inj]
  rw [startsWith_iff, pathPrefix_toList, ← hns]
  rcases ownPath_iff.1 h with h | ⟨rest, h⟩
  · rw [h, List.cons_prefix_cons]
    exact and_iff_right rfl
  · rw [← h, List.append_assoc, List.cons_append, List.cons_prefix_cons]
    refine ⟨fun h => prefix_sep u.slash_notMem h.2, fun h => ⟨rfl, h.trans (List.prefix_append _ _)⟩⟩

/-! ## What is presented -/

theorem pyStrip_pathPrefix (t : TenantId) : pyStrip t.pathPrefix = t.pathPrefix := by
  refine pyStrip_eq fun c hc => ?_
  rw [TenantId.pathPrefix, String.toList_append, List.mem_append] at hc
  rcases hc with hc | hc
  · have hall : ∀ d ∈ "/tenant-".toList, pyIsSpace d = false := by simp [pyIsSpace]
    exact hall c hc
  · have := t.char_toNat hc
    simp only [pyIsSpace, Bool.or_eq_false_iff, Bool.and_eq_false_iff, decide_eq_false_iff_not,
      List.mem_cons, List.not_mem_nil, or_false]
    omega

theorem rstripSlash_pathPrefix (t : TenantId) : rstripSlash t.pathPrefix = t.pathPrefix := by
  have hlast : t.pathPrefix.toList.rdropWhile (· = '/') = t.pathPrefix.toList := by
    rw [List.rdropWhile_eq_self_iff, pathPrefix_toList]
    intro hne hslash
    rw [List.getLast_cons t.ns_toList_ne, decide_eq_true_eq] at hslash
    exact t.slash_notMem (hslash ▸ List.getLast_mem t.ns_toList_ne)
  have heq : rstripSlash t.pathPrefix =
      String.ofList (t.pathPrefix.toList.rdropWhile (· = '/')) := rfl
  rw [heq, hlast, String.ofList_toList]

theorem pathPrefix_ne (t : TenantId) : t.pathPrefix ≠ "" := by
  intro h
  have := congrArg String.toList h
  rw [pathPrefix_toList] at this
  exact absurd this (by simp)

/-- The application is presented what follows the prefix, or the root. -/
theorem present_append (t : TenantId) (rest : String) :
    present t (t.pathPrefix ++ rest) =
      { pathInfo := orElse rest "/", scriptName := t.pathPrefix } := by
  have hstarts : startsWith (t.pathPrefix ++ rest) t.pathPrefix = true := by
    rw [startsWith_iff, String.toList_append]
    exact List.prefix_append _ _
  have hdrop : (t.pathPrefix ++ rest).toList.drop t.pathPrefix.length = rest.toList := by
    rw [String.toList_append]
    exact List.drop_left' rfl
  rw [present, pyStrip_pathPrefix, if_pos (pathPrefix_ne t), prefixMiddleware,
    rstripSlash_pathPrefix, if_pos ⟨pathPrefix_ne t, hstarts⟩, hdrop, String.ofList_toList,
    String.empty_append]

/-- The path of a tenant is its prefix and the empty text, or a text that begins with a slash. -/
theorem OwnPath.eq_append (h : OwnPath t path) :
    ∃ rest, path = t.pathPrefix ++ rest ∧ (rest = "" ∨ rest.toList.head? = some '/') := by
  rcases ownPath_iff.1 h with h | ⟨rest, h⟩
  · exact ⟨"", by rw [String.append_empty, ← String.toList_inj, h, pathPrefix_toList], .inl rfl⟩
  · refine ⟨String.ofList ('/' :: rest), ?_, .inr (by simp)⟩
    rw [← String.toList_inj, ← h, String.toList_append, pathPrefix_toList, String.toList_ofList,
      List.append_assoc]
    rfl

/-! ## Delivery -/

/-- A request is delivered as it should be: a path of a listed tenant goes to its target group,
    and is presented without the prefix, from the slash on; a path of none is not found. -/
structure Delivered (ids : List TenantId) (path : String) : Prop where
  own : ∀ t ∈ ids, OwnPath t path →
    (∃ g ∈ (tenantPathTargetGroups ids).map (·.target), g.tenant = t ∧ listen ids path = .forward g) ∧
      ∃ rest, path = t.pathPrefix ++ rest ∧
        (present t path).pathInfo = (if rest = "" then "/" else rest) ∧
        (present t path).pathInfo.toList.head? = some '/'
  none : (∀ t ∈ ids, ¬OwnPath t path) → listen ids path = .fixedResponse 404 (alb404Body ids)

/-- The first rule that matches a path of a tenant is its own, unless an id before its own is a
    prefix of it. -/
theorem firstPrefix_own {before after : List TenantId} (hids : (before ++ t :: after).Nodup)
    (h : OwnPath t path) :
    firstPrefix (before ++ t :: after) path = some t ↔
      ∀ s ∈ before, ¬s.val.toList <+: t.val.toList := by
  have hself : startsWith path t.pathPrefix = true := h.prefix_iff.2 List.prefix_rfl
  have htail : firstPrefix (t :: after) path = some t := by
    rw [firstPrefix, List.find?_cons, hself]
  have happend : firstPrefix (before ++ t :: after) path =
      (firstPrefix before path).or (firstPrefix (t :: after) path) := List.find?_append
  rw [happend, htail]
  constructor
  · intro hfind s hs hpre
    cases hbefore : firstPrefix before path with
    | none => exact firstPrefix_eq_none.1 hbefore s hs (h.prefix_iff.2 hpre)
    | some u =>
      -- What is found before the tenant is not the tenant: the ids are distinct.
      rw [hbefore, Option.some_or, Option.some_inj] at hfind
      have hu : t ∈ before := hfind ▸ List.mem_of_find?_eq_some hbefore
      exact (List.nodup_middle.1 hids).notMem (List.mem_append_left _ hu)
  · intro hbefore
    have hnone : firstPrefix before path = none :=
      firstPrefix_eq_none.2 fun s hs hstarts => hbefore s hs (h.prefix_iff.1 hstarts)
    rw [hnone, Option.none_or]

/-- Every request of the edge is delivered where no id listed before that of its path's tenant is
    a prefix of it, and a path of no listed tenant begins with no listed prefix. -/
theorem delivered_iff {tenantIds : List TenantId} (hdistinct : tenantIds.Nodup)
    (platform : TenantId) (path : String) :
    Delivered (edgeTenantIds tenantIds platform) path ↔
      (∀ before t after, edgeTenantIds tenantIds platform = before ++ t :: after →
        OwnPath t path → ∀ s ∈ before, ¬s.val.toList <+: t.val.toList) ∧
      ((∀ t ∈ edgeTenantIds tenantIds platform, ¬OwnPath t path) →
        ∀ s ∈ edgeTenantIds tenantIds platform, ¬s.pathPrefix.toList <+: path.toList) := by
  have hnodup : (edgeTenantIds tenantIds platform).Nodup := by
    unfold edgeTenantIds
    split_ifs
    · exact hdistinct
    · exact List.nodup_singleton _
  generalize edgeTenantIds tenantIds platform = ids at hnodup
  constructor
  · intro h
    refine ⟨fun before t after hids hown => ?_, fun hnone s hs hpre => ?_⟩
    · subst hids
      obtain ⟨⟨g, -, rfl, hlisten⟩, -⟩ := h.own t (by simp) hown
      refine (firstPrefix_own hnodup hown).1 ?_
      cases hfind : firstPrefix (before ++ g.tenant :: after) path with
      | none =>
        rw [listen_fixed hfind] at hlisten
        cases hlisten
      | some u =>
        obtain ⟨g', -, rfl, hlisten'⟩ := listen_forward hfind
        rw [hlisten'] at hlisten
        cases hlisten
        rfl
    · cases hfind : firstPrefix ids path with
      | none => exact firstPrefix_eq_none.1 hfind s hs (startsWith_iff.2 hpre)
      | some u =>
        obtain ⟨g, -, -, hlisten⟩ := listen_forward hfind
        rw [h.none hnone] at hlisten
        cases hlisten
  · rintro ⟨hown, hnone⟩
    refine ⟨fun t ht h => ⟨?_, ?_⟩, fun h => listen_fixed (firstPrefix_eq_none.2 fun s hs hstarts =>
      hnone h s hs (startsWith_iff.1 hstarts))⟩
    · obtain ⟨before, after, rfl⟩ := List.append_of_mem ht
      exact listen_forward ((firstPrefix_own hnodup h).2 (hown before t after rfl h))
    · obtain ⟨rest, hpath, hrest⟩ := h.eq_append
      refine ⟨rest, hpath, by rw [hpath, present_append, orElse], ?_⟩
      rw [hpath, present_append, orElse]
      rcases hrest with rfl | hrest
      · simp
      · rw [if_neg (by rintro rfl; simp at hrest)]
        exact hrest

/-- A tenant whose id begins with that of another. -/
def TenantId.ab : TenantId := ⟨"ab", rfl⟩

/-- With the longer id first, both get their paths. -/
theorem delivered_ab_a : Delivered (edgeTenantIds [.ab, .a] .a) "/tenant-a/items" := by
  refine (delivered_iff (by decide +kernel) .a "/tenant-a/items").2 ⟨?_, fun hnone => ?_⟩
  · rintro (_ | ⟨s, _ | ⟨s', before⟩⟩) t after hids _ u hu
    · exact absurd hu List.not_mem_nil
    · obtain ⟨rfl, rfl, -⟩ : TenantId.ab = s ∧ TenantId.a = t ∧ [] = after := by
        simpa [edgeTenantIds] using hids
      rw [List.mem_singleton.1 hu]
      decide +kernel
    · simp [edgeTenantIds] at hids
  · exact absurd (.inr (by decide +kernel)) (hnone .a (by decide +kernel))

/-- With the shorter id first, the paths of the longer one go to its pod. -/
theorem not_delivered_a_ab :
    [TenantId.a, .ab].Nodup ∧ ¬Delivered (edgeTenantIds [.a, .ab] .a) "/tenant-ab/items" := by
  refine ⟨by decide +kernel, fun h => ?_⟩
  obtain ⟨⟨g, -, hg, hlisten⟩, -⟩ := h.own .ab (by decide +kernel) (.inr (by decide +kernel))
  have hfirst : firstPrefix (edgeTenantIds [.a, .ab] .a) "/tenant-ab/items" = some .a := by
    decide +kernel
  obtain ⟨g', -, hg', hlisten'⟩ := listen_forward hfirst
  rw [hlisten'] at hlisten
  cases hlisten
  exact absurd (hg.symm.trans hg') (by decide +kernel)

end

end NtierLab
