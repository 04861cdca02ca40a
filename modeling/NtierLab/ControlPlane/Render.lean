import NtierLab.ControlPlane.Neighbour
import NtierLab.Postgres.Scripts
import NtierLab.Text.Python

/-!
# The release of a tenant, rendered

What Helm makes of the arguments of `onboard`: it reads the `--set` arguments,
giving their values types, merges them into the values of the chart, and renders
the Deployment (`helm/test-app/templates/deployment.yaml`). A comma in a `--set`
argument begins another assignment: no id has one, and of the values that come from
the outputs of OpenTofu it is asked (`HelmValues.Plain`).

* `typedVal_id`: an id is a text to Helm, unless it is one of three words.
* `survives_iff`: the pod, the policy and the dropped role have the id of the
  tenant, exactly if it is not `null`, which deletes the value.
-/

namespace NtierLab

open Prog

/-! ## Helm -/

/-- A value of a release. -/
inductive HelmValue
  | bool (b : Bool)
  | int (n : ℤ)
  | str (s : String)
  deriving DecidableEq

/-- Go's `strconv.ParseInt`, of 64 bits in base ten. -/
def parseInt (s : String) : Option ℤ :=
  let number (ds : List Char) : Option ℤ :=
    if ds ≠ [] ∧ ds.all Char.isDigit then some (Nat.ofDigitChars 10 ds 0 : ℕ) else none
  let n := match s.toList with
    | '-' :: ds => (number ds).map (-·)
    | '+' :: ds => number ds
    | ds => number ds
  n.filter fun n => -2 ^ 63 ≤ n ∧ n < 2 ^ 63

/-- The value of a `--set` argument; `null` is none, and deletes the key. -/
def typedVal (s : String) : Option HelmValue :=
  if s.toLower = "true" then some (.bool true)
  else if s.toLower = "false" then some (.bool false)
  else if s.toLower = "null" then none
  else if s = "0" then some (.int 0)
  else if s.toList.head? = some '0' then some (.str s)
  else match parseInt s with
    | some n => some (.int n)
    | none => some (.str s)

/-- The key of an argument, up to the first `=`. -/
def argKey (s : String) : String := String.ofList (s.toList.takeWhile (· ≠ '='))

/-- The value of an argument, after the first `=`. -/
def argText (s : String) : String := String.ofList ((s.toList.dropWhile (· ≠ '=')).drop 1)

/-- An assignment of an argument. -/
def assignment (s : List Char) : String × Option HelmValue :=
  (argKey (String.ofList s), typedVal (argText (String.ofList s)))

/-- The assignments of the `--set` arguments, in order; a comma begins another one. -/
def helmSets : List String → List (String × Option HelmValue)
  | [] => []
  | flag :: rest =>
    if flag = "--set" then
      match rest with
      | [] => []
      | s :: rest => (s.toList.splitOn ',').map assignment ++ helmSets rest
    else helmSets rest

/-- The values of the chart (`values.yaml`) the Deployment reads. -/
def chartDefault (key : String) : Option HelmValue :=
  if key = "database.enabled" then some (.bool false)
  else if key = "tenant.id" ∨ key = "pathPrefix" then some (.str "")
  else none

/-- The value of a key in a release: the last one assigned, or the chart's. -/
def helmValue (argv : List String) (key : String) : Option HelmValue :=
  match (helmSets argv).reverse.lookup key with
  | some v => v
  | none => chartDefault key

/-- The text of a value (`toString`). -/
def HelmValue.text : HelmValue → String
  | bool b => if b then "true" else "false"
  | int n => toString n
  | str s => s

/-- The truth of a value in a template. -/
def templateTruth : Option HelmValue → Bool
  | none => false
  | some (.bool b) => b
  | some (.int n) => n ≠ 0
  | some (.str s) => s ≠ ""

/-- The template function `toString`. -/
def goToString : Option HelmValue → String
  | none => "<nil>"
  | some v => v.text

/-- The template function `quote`: nothing of a missing value. -/
def quote : Option HelmValue → String
  | none => ""
  | some v => "\"" ++ v.text ++ "\""

/-- The value of an environment variable of a container, from its YAML: what is between the quotes,
    and the empty text where there is nothing. -/
def yamlEnv (s : String) : String := String.ofList ((s.toList.drop 1).dropLast)

/-- The Deployment, by what it takes from the tenant. -/
structure Deployment where
  tenantLabel : String
  tenantId : String
  pathPrefix : String
  deriving DecidableEq

/-- `deployment.yaml`. -/
def renderDeployment (values : String → Option HelmValue) : Except String Deployment :=
  if templateTruth (values "database.enabled") ∧ goToString (values "tenant.id") = "" then
    .error "tenant.id must be set when database.enabled is true (Helm value, not a client header)"
  else
    .ok
      { tenantLabel := yamlEnv (quote (values "tenant.id"))
        tenantId := yamlEnv (quote (values "tenant.id"))
        pathPrefix := yamlEnv (quote (values "pathPrefix")) }

/-! ## The arguments -/

/-- An assignment is read apart at its first `=`. -/
theorem takeWhile_argKey {k v : List Char} (hk : '=' ∉ k) :
    (k ++ '=' :: v).takeWhile (· ≠ '=') = k ∧ ((k ++ '=' :: v).dropWhile (· ≠ '=')).drop 1 = v := by
  induction k with
  | nil => simp
  | cons c k ih =>
    have hc : c ≠ '=' := fun h => hk (h ▸ List.mem_cons_self)
    obtain ⟨h₁, h₂⟩ := ih fun h => hk (List.mem_cons_of_mem _ h)
    rw [List.cons_append, List.takeWhile_cons_of_pos (by simpa using hc),
      List.dropWhile_cons_of_pos (by simpa using hc)]
    exact ⟨by rw [h₁], h₂⟩

/-- A value Helm takes as it stands: a comma would begin another assignment, a backslash escape
    what follows, a brace begin a list. -/
def PlainText (s : String) : Prop := ',' ∉ s.toList ∧ '\\' ∉ s.toList ∧ '\x7b' ∉ s.toList

instance (s : String) : Decidable (PlainText s) := inferInstanceAs (Decidable (_ ∧ _ ∧ _))

/-- The values of a release that come from the outputs of OpenTofu are taken as they stand. -/
structure HelmValues.Plain (v : HelmValues) : Prop where
  host : PlainText v.host
  secret : PlainText v.secret
  region : PlainText v.region
  edge : ∀ group order inbound np pg logs, v.edge = .ingress group order inbound np pg logs →
    PlainText group ∧ PlainText order ∧ PlainText logs
  masterSecret : ∀ m, v.migrate = some m → PlainText m.masterSecret

/-- An id is taken as it stands. -/
theorem TenantId.plain (t : TenantId) : PlainText t.val := by
  refine ⟨fun h => ?_, fun h => ?_, fun h => ?_⟩ <;> exact absurd (t.isAlphanum _ h) (by decide)

/-- So is a number. -/
theorem plainText_toString (n : ℤ) : PlainText (toString n) := by
  refine ⟨fun h => ?_, fun h => ?_, fun h => ?_⟩ <;> exact absurd (toString_chars h) (by decide)

theorem PlainText.append {s s' : String} (h : PlainText s) (h' : PlainText s') :
    PlainText (s ++ s') := by
  obtain ⟨h₁, h₂, h₃⟩ := h
  obtain ⟨h₁', h₂', h₃'⟩ := h'
  simp only [PlainText, String.toList_append, List.mem_append, not_or]
  exact ⟨⟨h₁, h₁'⟩, ⟨h₂, h₂'⟩, h₃, h₃'⟩

/-- The arguments make the assignments `l`, whatever follows them. -/
def Assigns (argv : List String) (l : List (String × Option HelmValue)) : Prop :=
  ∀ rest, helmSets (argv ++ rest) = l ++ helmSets rest

/-- The assignments of one list come before those of the next. -/
theorem Assigns.append {a b : List String} {l m : List (String × Option HelmValue)}
    (ha : Assigns a l) (hb : Assigns b m) : Assigns (a ++ b) (l ++ m) := by
  intro rest
  rw [List.append_assoc, ha, hb, List.append_assoc]

/-- The key of an assignment: no character of it ends it, or the assignment. -/
def IsKey (k : String) : Prop := '=' ∉ k.toList ∧ ',' ∉ k.toList

instance (k : String) : Decidable (IsKey k) := inferInstanceAs (Decidable (_ ∧ _))

/-- An argument is one assignment, of a value taken as it stands. -/
theorem assigns_set {s k v : String} (hk : IsKey k) (hv : PlainText v)
    (hs : s.toList = k.toList ++ '=' :: v.toList) :
    Assigns (HelmValues.set s) [(k, typedVal v)] := by
  intro rest
  obtain ⟨h₁, h₂⟩ := takeWhile_argKey (v := v.toList) hk.1
  have hcomma : ',' ∉ s.toList := by
    simp [hs, hk.2, hv.1]
  have hkey : argKey s = k := by rw [argKey, hs, h₁, String.ofList_toList]
  have htext : argText s = v := by rw [argText, hs, h₂, String.ofList_toList]
  simp [HelmValues.set, helmSets, assignment, List.splitOn_eq_singleton hcomma, hkey, htext]

/-- A word that is no flag is skipped. -/
theorem assigns_word {s : String} (hs : s ≠ "--set") : Assigns [s] [] := by
  intro rest
  cases rest <;> simp [helmSets, hs]

/-- A `--set-json` argument is no assignment of a `--set`. -/
theorem assigns_setJson {s : String} (hs : s ≠ "--set") : Assigns (HelmValues.setJson s) [] := by
  have hflag : ("--set-json" : String) ≠ "--set" := by decide +kernel
  exact (assigns_word hflag).append (assigns_word hs)

/-- The keys the Deployment reads. -/
def deploymentKeys : List String := ["tenant.id", "pathPrefix", "database.enabled"]

/-- The arguments leave the values of the Deployment. -/
def LeavesValues (argv : List String) : Prop :=
  ∃ l, Assigns argv l ∧ ∀ a ∈ l, a.1 ∉ deploymentKeys

/-- Arguments that leave the values do so together. -/
theorem LeavesValues.append {a b : List String} (ha : LeavesValues a) (hb : LeavesValues b) :
    LeavesValues (a ++ b) := by
  obtain ⟨l, hl, hkeys⟩ := ha
  obtain ⟨m, hm, hkeys'⟩ := hb
  exact ⟨l ++ m, hl.append hm, fun a h => (List.mem_append.1 h).elim (hkeys a) (hkeys' a)⟩

theorem leaves_nil : LeavesValues [] := ⟨[], fun _ => rfl, by simp⟩

/-- A key of another value. -/
def OtherKey (k : String) : Prop := IsKey k ∧ k ∉ deploymentKeys

instance (k : String) : Decidable (OtherKey k) := inferInstanceAs (Decidable (_ ∧ _))

/-- An assignment of another key leaves them. -/
theorem leaves_set {s k v : String} (hk : OtherKey k) (hv : PlainText v)
    (hs : s.toList = k.toList ++ '=' :: v.toList) : LeavesValues (HelmValues.set s) :=
  ⟨_, assigns_set hk.1 hv hs, by simpa using hk.2⟩

theorem leaves_setJson {s : String} (hs : s.toList.head? ≠ some '-') :
    LeavesValues (HelmValues.setJson s) :=
  ⟨[], assigns_setJson (by rintro rfl; exact hs (by decide +kernel)), by simp⟩

/-- The arguments of the edge leave them. -/
theorem edgeArgv_leaves {v : HelmValues} (hv : v.Plain) :
    LeavesValues (HelmValues.edgeArgv v.edge) := by
  cases he : v.edge with
  | ingress group order inbound np pg logs =>
    obtain ⟨hgroup, horder, hlogs⟩ := hv.edge _ _ _ _ _ _ he
    refine .append (.append (.append (.append (.append (.append (.append (.append
      (leaves_set (k := "service.type") (v := "ClusterIP") (by decide +kernel) (by decide +kernel)
        (by simp))
      (leaves_set (k := "ingress.enabled") (v := "true") (by decide +kernel) (by decide +kernel)
        (by simp)))
      (leaves_set (k := "ingress.groupName") (by decide +kernel) hgroup (by simp)))
      (leaves_set (k := "ingress.groupOrder") (by decide +kernel) horder (by simp)))
      (leaves_setJson (by simp))) (leaves_setJson (by simp)))
      (leaves_set (k := "networkPolicy.egress.enabled") (v := "true") (by decide +kernel)
        (by decide +kernel) (by simp)))
      (leaves_setJson (by simp))) ?_
    split
    · exact leaves_nil
    · exact leaves_set (k := "ingress.accessLogsBucket") (by decide +kernel) hlogs (by simp)
  | nodePort port cidr =>
    exact .append (.append (.append
      (leaves_set (k := "service.type") (v := "NodePort") (by decide +kernel) (by decide +kernel)
        (by simp))
      (leaves_set (k := "service.nodePort") (by decide +kernel) (plainText_toString port) (by simp)))
      (leaves_set (k := "ingress.enabled") (v := "false") (by decide +kernel) (by decide +kernel)
        (by simp)))
      (leaves_setJson (by simp))

/-- So do those of the migrate Job. -/
theorem migrateArgv_leaves {v : HelmValues} (hv : v.Plain) :
    LeavesValues (HelmValues.migrateArgv v.migrate) := by
  cases hm : v.migrate with
  | none =>
    exact leaves_set (k := "database.migrate") (v := "false") (by decide +kernel)
      (by decide +kernel) (by simp)
  | some m =>
    exact .append (.append (.append
      (leaves_set (k := "database.migrate") (v := "true") (by decide +kernel) (by decide +kernel)
        (by simp))
      (leaves_setJson (by simp)))
      (leaves_set (k := "database.masterSecret") (by decide +kernel) (hv.masterSecret m hm)
        (by simp)))
      (leaves_setJson (by simp))

/-- The arguments give the values of the Deployment what `f` says, the last of each key. -/
def Gives (argv : List String) (f : String → Option (Option HelmValue)) : Prop :=
  ∃ l, Assigns argv l ∧ ∀ k ∈ deploymentKeys, l.reverse.lookup k = f k

/-- What leaves the values may follow. -/
theorem Gives.leaves {a b : List String} {f : String → Option (Option HelmValue)} (h : Gives a f)
    (hb : LeavesValues b) : Gives (a ++ b) f := by
  obtain ⟨l, hl, hf⟩ := h
  obtain ⟨m, hm, hkeys⟩ := hb
  refine ⟨l ++ m, hl.append hm, fun k hk => ?_⟩
  have hnone : m.reverse.lookup k = none := by
    rw [List.lookup_eq_none_iff]
    intro a ha
    rw [bne_iff_ne]
    rintro rfl
    exact hkeys a (List.mem_reverse.1 ha) hk
  rw [List.reverse_append, List.lookup_append, hnone, Option.none_or, hf k hk]

/-- An assignment sets its key. -/
theorem Gives.set {a : List String} {f : String → Option (Option HelmValue)} {s k v : String}
    (h : Gives a f) (hk : IsKey k) (hv : PlainText v)
    (hs : s.toList = k.toList ++ '=' :: v.toList) :
    Gives (a ++ HelmValues.set s) (Function.update f k (some (typedVal v))) := by
  obtain ⟨l, hl, hf⟩ := h
  refine ⟨l ++ [(k, typedVal v)], hl.append (assigns_set hk hv hs), fun k' hk' => ?_⟩
  rw [List.reverse_append, List.reverse_singleton, List.singleton_append, List.lookup_cons]
  by_cases heq : k' = k
  · rw [heq, beq_self_eq_true, Function.update_self]
  · rw [beq_false_of_ne heq, Function.update_of_ne heq, hf k' hk']

/-- The values the Deployment reads, in the release of a tenant. -/
theorem argv_gives {v : HelmValues} (hv : v.Plain) : Gives v.argv
    (Function.update (Function.update (Function.update (fun _ => none) "tenant.id"
      (some (typedVal v.tenant.val))) "pathPrefix" (some (typedVal ("/tenant-" ++ v.tenant.val))))
      "database.enabled" (some (typedVal "true"))) := by
  have hns : v.tenant.ns ≠ "--set" := by
    intro h
    have := congrArg (·.toList.head?) h
    simp [TenantId.ns] at this
  have hhead : Gives ["helm", "upgrade", "--install", "test-app", "CHART_DIR", "-n", v.tenant.ns]
      (fun _ => none) := by
    refine ⟨[], ?_, fun k _ => rfl⟩
    intro rest
    simpa [helmSets] using assigns_word hns rest
  refine .leaves (.leaves ?_ (edgeArgv_leaves hv)) (migrateArgv_leaves hv)
  refine .leaves (.leaves (.leaves ?_
    (leaves_set (k := "database.host") (by decide +kernel) hv.host (by simp)))
    (leaves_set (k := "database.secretName") (by decide +kernel) hv.secret (by simp)))
    (leaves_set (k := "region") (by decide +kernel) hv.region (by simp))
  refine .set (v := "true") ?_ (by decide +kernel) (by decide +kernel) (by simp)
  refine .leaves (.leaves (.leaves ?_
    (leaves_set (k := "quota.enabled") (v := "true") (by decide +kernel) (by decide +kernel)
      (by simp)))
    (leaves_set (k := "networkPolicy.enabled") (v := "true") (by decide +kernel) (by decide +kernel)
      (by simp)))
    (leaves_setJson (by simp))
  have hpath : PlainText ("/tenant-" ++ v.tenant.val) := .append (by decide +kernel) v.tenant.plain
  refine .set (.set ?_ (by decide +kernel) v.tenant.plain (by simp)) (by decide +kernel) hpath
    (by simp [String.toList_append])
  exact .leaves (.leaves hhead
    (leaves_set (k := "fullnameOverride") (v := "test-app") (by decide +kernel) (by decide +kernel)
      (by simp)))
    (leaves_set (k := "serviceAccount.name") (v := "test-app") (by decide +kernel)
      (by decide +kernel) (by simp))

/-- The values the Deployment reads of a release. -/
theorem helmValue_argv {v : HelmValues} (hv : v.Plain) :
    helmValue v.argv "tenant.id" = typedVal v.tenant.val ∧
      helmValue v.argv "pathPrefix" = typedVal ("/tenant-" ++ v.tenant.val) ∧
      helmValue v.argv "database.enabled" = some (.bool true) := by
  obtain ⟨l, hl, hf⟩ := argv_gives hv
  have hsets : helmSets v.argv = l := by simpa [helmSets] using hl []
  have htrue : typedVal "true" = some (.bool true) := by decide +kernel
  simp only [helmValue, hsets]
  refine ⟨?_, ?_, ?_⟩
  · rw [hf "tenant.id" (by decide +kernel)]
    simp [Function.update]
  · rw [hf "pathPrefix" (by decide +kernel)]
    simp [Function.update]
  · rw [hf "database.enabled" (by decide +kernel)]
    simp [Function.update, htrue]

/-! ## The types of the values -/

/-- A text that begins with neither a digit nor a sign is no number. -/
theorem parseInt_eq_none {s : String} {c : Char} {cs : List Char} (hs : s.toList = c :: cs)
    (hdigit : c.isDigit = false) (hminus : c ≠ '-') (hplus : c ≠ '+') : parseInt s = none := by
  unfold parseInt
  rw [hs]
  have hall : ¬(c :: cs ≠ [] ∧ (c :: cs).all Char.isDigit) := by simp [hdigit]
  split
  · next h => exact absurd (List.cons.inj h).1 hminus
  · next h => exact absurd (List.cons.inj h).1 hplus
  · simp only [if_neg hall]
    rfl

/-- An id is a text, unless it is one of three words. -/
theorem typedVal_id (t : TenantId) : typedVal t.val =
    if t.val = "true" then some (.bool true)
    else if t.val = "false" then some (.bool false)
    else if t.val = "null" then none
    else some (.str t.val) := by
  obtain ⟨c, cs, hcs, hlower⟩ := t.head_isLower
  have htoLower : t.val.toLower = t.val := by
    rw [String.toLower, ← String.toList_inj, String.toList_map]
    exact (List.map_congr_left fun c hc => t.toLower hc).trans (List.map_id _)
  have hrange : 97 ≤ c.toNat := by
    simp only [Char.isLower, Bool.and_eq_true, decide_eq_true_eq] at hlower
    exact UInt32.le_iff_toNat_le.1 hlower.1
  have hne {d : Char} (hd : d.toNat < 97) : c ≠ d := by
    rintro rfl
    omega
  have hdigit : c.isDigit = false := by
    rw [Bool.eq_false_iff]
    intro h
    simp only [Char.isDigit, Bool.and_eq_true, decide_eq_true_eq] at h
    have hle : c.toNat ≤ 57 := UInt32.le_iff_toNat_le.1 h.2
    omega
  have hzero : t.val ≠ "0" := by
    rintro h
    rw [h] at hcs
    exact hne (by decide) (List.cons.inj hcs).1.symm
  have hhead : ¬t.val.toList.head? = some '0' := by
    rw [hcs, List.head?_cons, Option.some_inj]
    exact hne (by decide)
  rw [typedVal, htoLower, if_neg hzero, if_neg hhead,
    parseInt_eq_none hcs hdigit (hne (by decide)) (hne (by decide))]

/-- The prefix of a tenant is a text. -/
theorem typedVal_pathPrefix (t : TenantId) :
    typedVal ("/tenant-" ++ t.val) = some (.str ("/tenant-" ++ t.val)) := by
  have hs : ("/tenant-" ++ t.val).toList = '/' :: ("tenant-" ++ t.val).toList := by simp
  have hlower : ("/tenant-" ++ t.val).toLower.toList.head? = some '/' := by
    rw [String.toLower, String.toList_map, hs]
    rfl
  have hne (w : String) (hw : w.toList.head? ≠ some '/') : ("/tenant-" ++ t.val).toLower ≠ w := by
    rintro rfl
    exact hw hlower
  have hzero : "/tenant-" ++ t.val ≠ "0" := by
    intro h
    have := congrArg (·.toList.head?) h
    simp at this
  have hhead : ¬("/tenant-" ++ t.val).toList.head? = some '0' := by simp
  rw [typedVal, if_neg (hne _ (by decide +kernel)), if_neg (hne _ (by decide +kernel)),
    if_neg (hne _ (by decide +kernel)), if_neg hzero, if_neg hhead,
    parseInt_eq_none hs rfl (by decide) (by decide)]

/-- A text between quotes is read back. -/
theorem yamlEnv_quote (v : HelmValue) : yamlEnv (quote (some v)) = v.text := by
  rw [yamlEnv, quote, String.toList_append, String.toList_append]
  simp

/-- What the Deployment of a tenant has: its id, unless that is `null`, and its prefix. -/
theorem renderDeployment_argv {v : HelmValues} (hv : v.Plain) :
    renderDeployment (helmValue v.argv) = .ok
    { tenantLabel := if v.tenant.val = "null" then "" else v.tenant.val
      tenantId := if v.tenant.val = "null" then "" else v.tenant.val
      pathPrefix := "/tenant-" ++ v.tenant.val } := by
  obtain ⟨hid, hpath, -⟩ := helmValue_argv hv
  have htext : goToString (typedVal v.tenant.val) ≠ "" ∧ yamlEnv (quote (typedVal v.tenant.val)) =
      if v.tenant.val = "null" then "" else v.tenant.val := by
    rw [typedVal_id]
    by_cases htrue : v.tenant.val = "true"
    · rw [htrue]
      decide +kernel
    by_cases hfalse : v.tenant.val = "false"
    · rw [hfalse]
      decide +kernel
    rw [if_neg htrue, if_neg hfalse]
    by_cases hnull : v.tenant.val = "null"
    · rw [hnull]
      decide +kernel
    · rw [if_neg hnull, if_neg hnull, yamlEnv_quote]
      exact ⟨v.tenant.val_ne_empty, rfl⟩
  rw [renderDeployment, hid, hpath, if_neg fun h => htext.1 h.2, htext.2, typedVal_pathPrefix,
    yamlEnv_quote]
  rfl

/-! ## The data boundary -/

/-- A policy is created for the rows of `tenant`. -/
def Literal (tenant : String) : SqlCmd → Prop
  | .exec (.createPolicy _ _ literal) => literal = tenant
  | _ => True

/-- A role and a policy are dropped whose names end in `tenant`, the policy's before a word. -/
def DropsNamed (tenant : String) : Cmd → Prop
  | .shell (.applyDropJob m) => m.dropRole = "tenant_" ++ tenant ∧
      m.dropPolicy = "tenant_" ++ tenant ++ "_isolation"
  | _ => True

/-- The id of a tenant is the same at the edge and in the data: in the pod of its Deployment, in
    the map the migration reads, in the policy it creates for that key, and in the role and the
    policy that are dropped with the tenant. -/
structure Survives (t : TenantId) (v : HelmValues) (d : Deployment) : Prop where
  tenantId : d.tenantId = t.val
  pathPrefix : d.pathPrefix = "/tenant-" ++ t.val
  key : ∀ m, v.migrate = some m → ∀ secret, m.tenantSecrets[t]? = some secret →
    ∃ entries, readMap (jsonMap (m.tenantSecrets.toList.map fun p => (p.1.val, p.2))) =
      some entries ∧ (d.tenantId, secret) ∈ entries
  literal : ∀ secret, (migrateTenant (t, secret)).Calls (Literal d.tenantId)
  dropped : ∀ outputs, (dropPostgresRole outputs t).Calls (DropsNamed d.tenantId)

section

variable {t : TenantId} {outputs : Outputs}

/-- The policy created has the id for its literal. -/
theorem migrateTenant_literal (secret : String) :
    (migrateTenant (t, secret)).Calls (Literal t.val) := by
  have hexec {s : Statement} (hs : Literal t.val (.exec s)) :
      (Script.exec s).Calls (Literal t.val) := ⟨hs, fun r => calls_result r⟩
  refine .bind ⟨trivial, fun r => calls_result r⟩ fun creds =>
    .bind ⟨trivial, fun r => calls_result r⟩ fun present => ?_
  have hgrant (p : Privilege) : (Script.exec (.grant p creds.username)).Calls (Literal t.val) :=
    hexec (s := .grant ..) trivial
  refine .ite (fun _ => .bind (hexec (s := .alterPassword ..) trivial) fun _ => ?_)
    fun _ => .bind (hexec (s := .createRole ..) trivial) fun _ => ?_
  all_goals
    refine .bind (hgrant _) fun _ => .bind (hgrant _) fun _ => .bind (hgrant _) fun _ =>
      .bind (hgrant _) fun _ => ?_
    exact .bind (hexec (s := .dropPolicy _) trivial) fun _ => hexec (s := .createPolicy ..) rfl

/-- The names dropped end in the id. -/
theorem dropPostgresRole_names : (dropPostgresRole outputs t).Calls (DropsNamed t.val) := by
  have hrun {c : Shell} (hc : DropsNamed t.val (.shell c)) : (run c).Calls (DropsNamed t.val) :=
    calls_iff.2 (by simp only [run, wp_call]; exact ⟨hc, by simp⟩)
  have hrunOk {c : Shell} (hc : DropsNamed t.val (.shell c)) :
      (runOk c).Calls (DropsNamed t.val) :=
    calls_iff.2 (by simp only [runOk, wp_call]; exact ⟨hc, by simp⟩)
  have hpoll (platform : TenantId) (d : DropName) (n : ℕ) :
      (pollDropJob platform d n).Calls (DropsNamed t.val) := by
    induction n with
    | zero => exact .bind (hrunOk trivial) fun _ => trivial
    | succ n ih =>
      refine .bind ⟨trivial, fun r => calls_result r⟩ fun conds => .ite (fun _ => ?_) fun _ =>
        .ite (fun _ => ?_) fun _ => ih
      all_goals exact .bind (hrunOk trivial) fun _ => trivial
  refine .bind (.ite (fun _ => trivial) fun _ => hrun trivial) fun _ =>
    .ite (fun _ => trivial) fun _ => ?_
  dsimp only
  refine .bind ⟨trivial, fun _ => trivial⟩ fun suffix => .bind (hrun trivial) fun _ => ?_
  refine .bind (hrun ⟨rfl, rfl⟩) fun _ => .bind ⟨trivial, fun _ => trivial⟩ fun n => ?_
  exact (hpoll _ _ _).ensuring (.bind (hrunOk trivial) fun _ =>
    .bind (hrunOk trivial) fun _ => trivial)

/-- The release is of the tenant. -/
def ReleaseOf (t : TenantId) : Cmd → Prop
  | .shell (.helmUpgrade v) => v.tenant = t
  | _ => True

/-- An onboarding installs a release of its tenant. -/
theorem onboard_releases (ip : String) (ids : List TenantId) (irsaRoles secrets : TidMap String) :
    (onboard t outputs ip ids irsaRoles secrets).Calls (ReleaseOf t) := by
  refine (onboard_on ip ids irsaRoles secrets).imp fun c hc => ?_
  unfold ReleaseOf
  split
  · exact hc _ rfl
  · trivial

/-- The map the migration reads has the key of every tenant in it. -/
theorem readMap_key {m : TidMap String} {secret : String} (h : m[t]? = some secret) :
    ∃ entries, readMap (jsonMap (m.toList.map fun p => (p.1.val, p.2))) = some entries ∧
      (t.val, secret) ∈ entries := by
  refine ⟨_, readMap_jsonMap _, List.mem_map.2 ⟨(t, secret), ?_, rfl⟩⟩
  exact Std.ExtTreeMap.mem_toList_iff_getElem?_eq_some.2 h

end

/-- The id of a tenant survives every encoding on the way from its release to the data, exactly if
    it is not the word Helm deletes a value by. -/
theorem survives_iff (t : TenantId) :
    (∀ outputs ip ids irsaRoles secrets,
      (onboard t outputs ip ids irsaRoles secrets).Calls (ReleaseOf t)) ∧
    ∀ v : HelmValues, v.tenant = t → v.Plain →
      ((∃ d, renderDeployment (helmValue v.argv) = .ok d ∧ Survives t v d) ↔ t.val ≠ "null") := by
  refine ⟨fun _ ip ids irsaRoles secrets => onboard_releases ip ids irsaRoles secrets, ?_⟩
  rintro v rfl hv
  constructor
  · rintro ⟨d, hd, hs⟩ hnull
    rw [renderDeployment_argv hv, if_pos hnull] at hd
    cases hd
    exact absurd hs.tenantId.symm v.tenant.val_ne_empty
  · intro hnull
    refine ⟨_, renderDeployment_argv hv, ?_⟩
    rw [if_neg hnull]
    exact ⟨rfl, rfl, fun m _ secret hsecret => readMap_key hsecret,
      fun secret => migrateTenant_literal secret, fun _ => dropPostgresRole_names⟩

/-- A release of the platform tenant, behind the shared Ingress, with two secrets to migrate. -/
def platformRelease : HelmValues where
  tenant := .a
  irsa := "arn:aws:iam::1:role/lab-tenant-a"
  host := "db.lab.rds.amazonaws.com"
  secret := "lab/rds/tenant-a"
  region := "us-east-1"
  edge := .ingress "lab" "10" ["0.0.0.0/0"] ["10.0.0.0/24"] ["10.0.1.0/24"] "lab-logs"
  migrate := some
    { migrator := "arn:aws:iam::1:role/lab-migrator"
      masterSecret := "lab/rds"
      tenantSecrets := Std.ExtTreeMap.ofList
        [(TenantId.a, "lab/rds/tenant-a"), (TenantId.b, "lab/rds/tenant-b")] _ }

/-- Its id survives. -/
theorem survives_iff_platform : ∃ d, renderDeployment (helmValue platformRelease.argv) = .ok d ∧
    Survives .a platformRelease d := by
  have hplain : platformRelease.Plain := by
    refine ⟨by decide +kernel, by decide +kernel, by decide +kernel, ?_, ?_⟩
    · rintro group order inbound np pg logs ⟨⟩
      decide +kernel
    · rintro m ⟨⟩
      decide +kernel
  exact ((survives_iff .a).2 platformRelease rfl hplain).2 (by decide)

/-- The tenant `null`. -/
def TenantId.null : TenantId := ⟨"null", rfl⟩

/-- Its release, behind a node port. -/
def nullRelease : HelmValues :=
  ⟨.null, "arn", "db", "lab/rds/tenant-null", "us-east-1", .nodePort 30080 "10.0.0.1/32", none⟩

/-- Its pod has no id. -/
theorem nullRelease_tenantId :
    renderDeployment (helmValue nullRelease.argv) = .ok ⟨"", "", "/tenant-null"⟩ ∧
      ¬∃ d, renderDeployment (helmValue nullRelease.argv) = .ok d ∧
        Survives .null nullRelease d := by
  have hd : renderDeployment (helmValue nullRelease.argv) = .ok ⟨"", "", "/tenant-null"⟩ := by
    have hplain : nullRelease.Plain :=
      ⟨by decide +kernel, by decide +kernel, by decide +kernel, nofun, nofun⟩
    rw [renderDeployment_argv hplain]
    rfl
  refine ⟨hd, ?_⟩
  rintro ⟨d, hd', hs⟩
  rw [hd] at hd'
  cases hd'
  exact absurd hs.tenantId (by decide +kernel)

end NtierLab
