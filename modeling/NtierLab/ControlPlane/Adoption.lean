import NtierLab.ControlPlane.Adopt
import NtierLab.ControlPlane.Sweep

/-!
# What is adopted

A run of `adopt_tenants` over all secrets, on any state of AWS that answers every call:

* `Listing`: the secrets listed page by page, and the loop that reads them (`discover`);
* `adoptables`: the tenants to adopt, by their names;
* `adoptTenants_adopts`: these are adopted, each once, in order, and nothing else is touched;
* `Adopts.again`: adopting again changes no content.
-/

namespace NtierLab

open Prog

/-! ## Pages of secrets -/

/-- A page of the secrets listed, with the token of the next one. -/
structure Page where
  names : List String
  nextToken : Option String

/-- `sec.get("Name")`, of the secrets of a page: the ids of those named after a tenant. -/
def scanPage (outputs : Outputs) (ids : List String) (names : List String) : List String :=
  let marker := (outputs.prefix_ ++ "/rds/tenant-").toList
  names.foldl (fun ids name =>
    let tid := String.ofList (name.toList.drop marker.length)
    if marker <+: name.toList ∧ tid ≠ "" ∧ tid ∉ ids then ids ++ [tid] else ids) ids

/-- The loop over the pages, for as many rounds as there is fuel. -/
def scanPages (outputs : Outputs) (fetch : Option String → Page) :
    ℕ → Option String → List String → Option (List String)
  | 0, _, _ => none
  | fuel + 1, token, ids =>
    let resp := fetch token
    let ids := scanPage outputs ids resp.names
    match resp.nextToken with
    | some token => if token = "" then some ids else scanPages outputs fetch fuel (some token) ids
    | none => some ids

/-- The ids found in all pages, sorted. -/
def discover (outputs : Outputs) (fetch : Option String → Page) (fuel : ℕ) : Option (List String) :=
  (scanPages outputs fetch fuel none []).map fun ids => ids.mergeSort fun a b => (compare a b).isLE

/-- The pages served from a token on. -/
inductive Paged (fetch : Option String → Page) : Option String → List (List String) → Prop
  | last {token : Option String} : (fetch token).nextToken.getD "" = "" →
      Paged fetch token [(fetch token).names]
  | more {token : Option String} {next : String} {pages : List (List String)} :
      (fetch token).nextToken = some next → next ≠ "" → Paged fetch (some next) pages →
      Paged fetch token ((fetch token).names :: pages)

/-- A listing of secrets, split into pages in any way. -/
structure Listing (secrets : Finset String) where
  fetch : Option String → Page
  pages : List (List String)
  paged : Paged fetch none pages
  lists : ∀ name, name ∈ pages.flatten ↔ name ∈ secrets

theorem scanPages_paged {outputs : Outputs} {fetch : Option String → Page} {token : Option String}
    {pages : List (List String)} (h : Paged fetch token pages) (fuel : ℕ) (hfuel : pages.length ≤ fuel)
    (ids : List String) :
    scanPages outputs fetch fuel token ids = some (scanPage outputs ids pages.flatten) := by
  induction h generalizing fuel ids with
  | @last token hlast =>
    cases fuel with
    | zero => simp at hfuel
    | succ fuel =>
      rw [scanPages]
      cases hnext : (fetch token).nextToken with
      | none => simp
      | some next =>
        rw [hnext] at hlast
        simp [show next = "" from hlast]
  | @more token next pages hnext hne _ ih =>
    cases fuel with
    | zero => simp at hfuel
    | succ fuel =>
      rw [scanPages]
      simp only [hnext, if_neg hne]
      rw [ih fuel (by simpa using hfuel)]
      simp [scanPage, List.foldl_append]

/-- The loop finds the ids of the secrets of all pages, however these are split. -/
theorem discover_listing {secrets : Finset String} (L : Listing secrets) (outputs : Outputs) {fuel : ℕ}
    (hfuel : L.pages.length ≤ fuel) :
    discover outputs L.fetch fuel = some (secretTenants outputs L.pages.flatten) := by
  rw [discover, scanPages_paged L.paged fuel hfuel]
  rfl

/-! ## The ids of the secrets -/

section

variable {outputs : Outputs} {names ids : List String} {tid : String}

/-- A name after a marker is the marker, then the rest. -/
theorem eq_append_iff (marker name tid : String) : name = marker ++ tid ↔
    marker.toList <+: name.toList ∧ String.ofList (name.toList.drop marker.toList.length) = tid := by
  constructor
  · rintro rfl
    simp
  · rintro ⟨⟨rest, hrest⟩, rfl⟩
    rw [← hrest, List.drop_left, ← String.toList_inj, String.toList_append, String.toList_ofList, hrest]

theorem scanPage_nodup (h : ids.Nodup) : (scanPage outputs ids names).Nodup := by
  induction names generalizing ids with
  | nil => exact h
  | cons name names ih =>
    refine ih ?_
    dsimp only
    split
    · next hnew => exact List.concat_eq_append ▸ h.concat hnew.2.2
    · exact h

theorem mem_scanPage : tid ∈ scanPage outputs ids names ↔
    tid ∈ ids ∨ tid ≠ "" ∧ outputs.prefix_ ++ "/rds/tenant-" ++ tid ∈ names := by
  induction names generalizing ids with
  | nil => simp [scanPage]
  | cons name names ih =>
    have hname := eq_append_iff (outputs.prefix_ ++ "/rds/tenant-") name
    refine ih.trans ?_
    dsimp only
    rw [List.mem_cons, eq_comm (b := name), hname]
    split
    · next hnew =>
      rw [List.mem_append, List.mem_singleton]
      constructor
      · rintro ((h | rfl) | h)
        · exact .inl h
        · exact .inr ⟨hnew.2.1, .inl ⟨hnew.1, rfl⟩⟩
        · exact .inr ⟨h.1, .inr h.2⟩
      · rintro (h | ⟨hne, ⟨-, rfl⟩ | h⟩)
        · exact .inl (.inl h)
        · exact .inl (.inr rfl)
        · exact .inr ⟨hne, h⟩
    · next hold =>
      -- The id is empty, or found already.
      constructor
      · rintro (h | h)
        · exact .inl h
        · exact .inr ⟨h.1, .inr h.2⟩
      · rintro (h | ⟨hne, ⟨hpre, rfl⟩ | h⟩)
        · exact .inl h
        · exact .inl (by_contra fun hmem => hold ⟨hpre, hne, hmem⟩)
        · exact .inr ⟨hne, h⟩

theorem secretTenants_perm : (secretTenants outputs names).Perm (scanPage outputs [] names) :=
  List.mergeSort_perm _ _

theorem mem_secretTenants : tid ∈ secretTenants outputs names ↔
    tid ≠ "" ∧ outputs.prefix_ ++ "/rds/tenant-" ++ tid ∈ names := by
  rw [secretTenants_perm.mem_iff, mem_scanPage]
  simp

/-- The ids are in order, each once. -/
theorem secretTenants_sorted :
    (secretTenants outputs names).Pairwise fun a b => compare a b = .lt := by
  have hnodup : (secretTenants outputs names).Nodup :=
    secretTenants_perm.nodup_iff.2 (scanPage_nodup List.nodup_nil)
  have htotal (a b : String) : ((compare a b).isLE || (compare b a).isLE) = true := by
    rw [show compare a b = (compare b a).swap from Std.OrientedCmp.eq_swap]
    cases compare b a <;> rfl
  have hsorted : (secretTenants outputs names).Pairwise fun a b => (compare a b).isLE = true :=
    List.pairwise_mergeSort (fun a b c => Std.TransCmp.isLE_trans) htotal _
  · refine (hsorted.and hnodup).imp fun {a b} hab => ?_
    obtain ⟨hle, hne⟩ := hab
    cases hcmp : compare a b with
    | lt => rfl
    | eq => exact absurd (Std.LawfulEqCmp.eq_of_compare hcmp) hne
    | gt => rw [hcmp] at hle; cases hle

end

/-! ## The state of AWS -/

/-- What an adoption reads: the outputs, the address of the edge, the secrets, and the roles with
    their ARNs. -/
structure Holdings where
  outputs : Outputs
  albUrlFile : String
  secrets : Finset String
  roles : String → Option String

namespace Holdings

variable (E : Holdings)

/-- The edge adopted tenants are given. -/
def url : String :=
  if rstripSlash E.outputs.albUrl ≠ "" then rstripSlash E.outputs.albUrl else E.albUrlFile

/-- The tenant has its secret and its role. -/
def Adoptable (t : TenantId) : Prop :=
  secretName E.outputs t ∈ E.secrets ∧ (E.roles (roleName E.outputs t)).isSome

instance (t : TenantId) : Decidable (E.Adoptable t) := inferInstanceAs (Decidable (_ ∧ _))

/-- AWS answers every call, and the store every transaction. The secrets are listed in pages of
    any kind; setting a tag may be refused. -/
def world : Handler cpSig Registry
  | .host .tofuOutputs, s, r, s' => r = .ok E.outputs ∧ s' = s
  | .host .albUrlFile, s, r, s' => r = E.albUrlFile ∧ s' = s
  | .aws .listSecrets, s, r, s' => (∃ L : Listing E.secrets, r = .ok L.pages) ∧ s' = s
  | .aws (.describeSecret name), s, r, s' =>
    (if name ∈ E.secrets then ∃ d, r = .ok d
      else ∃ message text, r = .error (.clientError "ResourceNotFoundException" message text)) ∧ s' = s
  | .aws (.getRole name), s, r, s' =>
    (match E.roles name with
      | some arn => r = .ok arn
      | none => ∃ message text, r = .error (.clientError "NoSuchEntity" message text)) ∧ s' = s
  | .aws (.tagSecret _ _), s, r, s' | .aws (.tagRole _ _), s, r, s' =>
    (r = .ok () ∨ ∃ code message text, r = .error (.clientError code message text)) ∧ s' = s
  | c, s, r, s' => openWorld c s r s'

end Holdings

/-- The tenant whose row an event writes. -/
def writes (e : Event cpSig) : Option TenantId :=
  match e.cmd with
  | .reg (.upsert t _ _) => some t
  | _ => none

/-- The tenants adopted by a run, in order. -/
def adoptedBy (tr : Trace cpSig) : List TenantId := tr.filterMap writes

/-- The row of a tenant after its adoption. -/
def Registry.adopts (E : Holdings) (s : Registry) (t : TenantId) (o : Option Row) : Prop :=
  ∃ now arn, E.roles (roleName E.outputs t) = some arn ∧
    o = some (s.written now t (adopted E.outputs t E.url arn (s.get t)))

/-- An adoption, with the tenants adopted so far. -/
def adopting (E : Holdings) : Contract cpSig (List TenantId × Registry) where
  pre _ _ := True
  post c v r v' := v'.1 = v.1 ++ (writes ⟨c, r⟩).toList ∧ E.world c v.2 r v'.2

section

variable {E : Holdings} {t : TenantId} {l : List TenantId} {s s' : Registry}

theorem adopted_valid (alb arn : String) (existing : Option Row) :
    (adopted E.outputs t alb arn existing).Valid := by
  simp [adopted]

theorem wp_exceptClientError {V α : Type} {K : Contract cpSig V} {p : CP α}
    {h : String → Exn → CP α} {Q : Except Exn α → V → Prop} {v : V}
    (hp : p.wp K (fun x v' => match x with
      | .error (.clientError code message text) =>
        (h code (.clientError code message text)).wp K Q v'
      | x => Q x v') v) : (exceptClientError p h).wp K Q v := by
  refine (wp_tryCatch _ _).2 (hp.imp fun x v' hx => ?_)
  cases x with
  | ok a => exact hx
  | error e => cases e <;> exact hx

/-- Tags are set, or not. -/
theorem tagIdentity_adopting : (tagIdentity E.outputs t).wp (adopting E)
    (fun x v' => x = .ok () ∧ v' = (l, s)) (l, s) := by
  refine wp_exceptClientError ((wp_bind _ _).2 ⟨trivial, fun r v₁ hr => ?_⟩)
  obtain ⟨l₁, s₁⟩ := v₁
  obtain ⟨hl₁, hr, rfl⟩ := hr
  obtain rfl : l₁ = l := hl₁.trans (List.append_nil l)
  rcases hr with rfl | ⟨code, message, text, rfl⟩
  · refine ⟨trivial, fun r v₂ hr₂ => ?_⟩
    obtain ⟨l₂, s₂⟩ := v₂
    obtain ⟨hl₂, hr₂, rfl⟩ := hr₂
    obtain rfl : l₂ = l₁ := hl₂.trans (List.append_nil l₁)
    rcases hr₂ with rfl | ⟨code, message, text, rfl⟩ <;> exact ⟨rfl, rfl⟩
  · exact ⟨rfl, rfl⟩

/-- A secret or a role is there, or is missing. -/
theorem orMissing_adopting {α : Type} {c : Cmd} {f : cpSig.Resp c → Except Exn α} {missing : String}
    {P : Prop} {A : α → Prop} (hw : ∀ r, writes ⟨c, r⟩ = none)
    (hr : ∀ r s', E.world c s r s' → s' = s ∧ ((P ∧ ∃ a, A a ∧ f r = .ok a) ∨
      (¬P ∧ ∃ message text, f r = .error (.clientError missing message text)))) :
    (orMissing (.call c fun r => result (f r)) missing).wp (adopting E)
      (fun x v' => v' = (l, s) ∧ ((P ∧ ∃ a, A a ∧ x = .ok (some a)) ∨ (¬P ∧ x = .ok none))) (l, s) := by
  refine wp_exceptClientError ((wp_map _ _).2 ⟨trivial, fun r v₁ hpost => (wp_result _).2 ?_⟩)
  obtain ⟨l₁, s₁⟩ := v₁
  obtain ⟨hl₁, hworld⟩ := hpost
  obtain rfl : l₁ = l := by simpa [hw r] using hl₁
  obtain ⟨rfl, ⟨hP, a, ha, hf⟩ | ⟨hP, message, text, hf⟩⟩ := hr r s₁ hworld
  · rw [hf]
    exact ⟨rfl, .inl ⟨hP, a, ha, rfl⟩⟩
  · rw [hf]
    simp only [outcome_error, if_pos]
    exact ⟨rfl, .inr ⟨hP, rfl⟩⟩

/-- A tenant with its secret and its role is adopted, another is left alone. -/
theorem adoptTenant_adopting : (adoptTenant E.outputs E.url t).wp (adopting E)
    (fun x v' => (∃ item, x = .ok item) ∧ if E.Adoptable t then
      v'.1 = l ++ [t] ∧ (∃ row, v'.2 = Std.ExtTreeMap.insert s t row ∧
        s.adopts E t (some row)) else v' = (l, s)) (l, s) := by
  refine wp.bind (orMissing_adopting (P := secretName E.outputs t ∈ E.secrets) (A := fun _ => True)
    (c := .aws (.describeSecret _)) (f := id) (fun _ => rfl) ?_) (fun secret v₁ h₁ => ?_)
    fun e v₁ h₁ => ?_
  · rintro r s' ⟨hr, rfl⟩
    refine ⟨rfl, ?_⟩
    split at hr
    · next hP => exact .inl ⟨hP, hr.choose, trivial, hr.choose_spec⟩
    · next hP => exact .inr ⟨hP, hr⟩
  · obtain ⟨rfl, ⟨hsecret, d, -, hd⟩ | ⟨hsecret, hd⟩⟩ := h₁
    · obtain rfl : secret = some d := Except.ok.inj hd
      rw [if_neg (by simp)]
      refine wp.bind (orMissing_adopting (P := (E.roles (roleName E.outputs t)).isSome)
        (A := fun arn => E.roles (roleName E.outputs t) = some arn) (c := .aws (.getRole _)) (f := id)
        (fun _ => rfl) ?_) (fun role v₂ h₂ => ?_) fun e v₂ h₂ => ?_
      · rintro r s' ⟨hr, rfl⟩
        refine ⟨rfl, ?_⟩
        split at hr
        · next arn harn => exact .inl ⟨by simp [harn], arn, harn, hr⟩
        · next hnone => exact .inr ⟨by simp [hnone], hr⟩
      · obtain ⟨rfl, ⟨hrole, arn, harn, ha⟩ | ⟨hrole, ha⟩⟩ := h₂
        · obtain rfl : role = some arn := Except.ok.inj ha
          refine wp.bind tagIdentity_adopting (fun _ v₃ h₃ => ?_) fun e v₃ h₃ => nomatch h₃.1
          obtain ⟨-, rfl⟩ := h₃
          refine (wp_bind _ _).2 ⟨trivial, fun existing v₄ h₄ => ?_⟩
          obtain ⟨l₄, s₄⟩ := v₄
          obtain ⟨hl₄, hget⟩ := h₄
          obtain ⟨rfl, rfl⟩ := openWorld_get.1 hget
          obtain rfl : l₄ = l := hl₄.trans (List.append_nil l)
          refine (wp_map _ _).2 ⟨trivial, fun r v₅ h₅ => ?_⟩
          obtain ⟨l₅, s₅⟩ := v₅
          obtain ⟨hl₅, hupsert⟩ := h₅
          obtain ⟨now, rfl, rfl⟩ := (openWorld_upsert (adopted_valid _ _ _)).1 hupsert
          refine ⟨⟨_, rfl⟩, ?_⟩
          rw [if_pos ⟨hsecret, hrole⟩]
          exact ⟨hl₅, _, rfl, now, arn, harn, rfl⟩
        · obtain rfl : role = none := Except.ok.inj ha
          exact ⟨⟨_, rfl⟩, by rw [if_neg fun h => hrole h.2]⟩
      · obtain ⟨-, ⟨-, a, -, h⟩ | ⟨-, h⟩⟩ := h₂ <;> cases h
    · obtain rfl : secret = none := Except.ok.inj hd
      exact ⟨⟨_, rfl⟩, by rw [if_neg fun h => hsecret h.1]⟩
  · obtain ⟨-, ⟨-, a, -, h⟩ | ⟨-, h⟩⟩ := h₁ <;> cases h

/-! ## All the tenants -/

/-- The tenants to adopt, of the ids found. -/
def adoptables (E : Holdings) (tids : List String) : List TenantId :=
  (tids.filterMap fun tid => (validateTenantId (some tid)).toOption).filter fun t => E.Adoptable t

/-- The tenants of a list are adopted, and no other row is touched. -/
def Took (E : Holdings) (s s' : Registry) (ts : List TenantId) : Prop :=
  ∀ t, (t ∈ ts → s.adopts E t (s'.get t)) ∧ (t ∉ ts → s'.get t = s.get t)

theorem adopts_congr {o : Option Row} (h : s.get t = s'.get t) (ha : s.adopts E t o) :
    s'.adopts E t o := by
  obtain ⟨now, arn, harn, ho⟩ := ha
  refine ⟨now, arn, harn, ?_⟩
  simp only [Registry.written, ← h]
  exact ho

theorem adoptEach_adopting (tids : List String) (hnodup : (adoptables E tids).Nodup) :
    (adoptEach E.outputs E.url tids).wp (adopting E)
      (fun _ v' => v'.1 = l ++ adoptables E tids ∧ Took E s v'.2 (adoptables E tids)) (l, s) := by
  induction tids generalizing l s with
  | nil => exact ⟨(List.append_nil l).symm, fun t => ⟨fun h => (nomatch h), fun _ => rfl⟩⟩
  | cons tid tids ih =>
    rw [adoptEach]
    cases hvalid : validateTenantId (some tid) with
    | error e =>
      have hskip : adoptables E (tid :: tids) = adoptables E tids := by
        simp [adoptables, hvalid, Except.toOption]
      rw [hskip] at hnodup ⊢
      exact ih hnodup
    | ok t =>
      have hcons : adoptables E (tid :: tids) =
          (if E.Adoptable t then [t] else []) ++ adoptables E tids := by
        have hsome : (validateTenantId (some tid)).toOption = some t := by rw [hvalid]; rfl
        unfold adoptables
        rw [List.filterMap_cons, hsome, List.filter_cons]
        by_cases ht : E.Adoptable t <;> simp [ht]
      rw [hcons] at hnodup ⊢
      refine wp.bind adoptTenant_adopting (fun item v₁ h₁ => ?_) fun e v₁ h₁ => ?_
      · obtain ⟨l₁, s₁⟩ := v₁
        obtain ⟨-, h₁⟩ := h₁
        have hrest := (List.nodup_append.1 hnodup).2.1
        refine wp.bind (ih (l := l₁) (s := s₁) hrest) (fun items v₂ h₂ => ?_) fun e v₂ h₂ => ?_
        all_goals
          obtain ⟨hl, htook⟩ := h₂
          split at h₁
          · next ht =>
            obtain ⟨rfl, row, rfl, hrow⟩ := h₁
            rw [if_pos ht] at hnodup ⊢
            have hnew : t ∉ adoptables E tids := (List.nodup_cons.1 hnodup).1
            refine ⟨by rw [hl]; simp, fun u => ?_⟩
            by_cases hu : t = u
            · subst hu
              have hget := (htook t).2 hnew
              rw [Registry.get_insert_self] at hget
              exact ⟨fun _ => hget ▸ hrow, fun h => absurd List.mem_cons_self h⟩
            · obtain ⟨hin, hout⟩ := htook u
              have hsame : Registry.get (Std.ExtTreeMap.insert s t row) u = s.get u :=
                Registry.get_insert_ne hu
              refine ⟨fun h => adopts_congr hsame (hin ?_), fun h => (hout ?_).trans hsame⟩
              · exact (List.mem_cons.1 h).resolve_left (Ne.symm hu)
              · exact fun h' => h (List.mem_cons_of_mem _ h')
          · next ht =>
            cases h₁
            rw [if_neg ht]
            exact ⟨hl, htook⟩
      · obtain ⟨⟨item, h⟩, -⟩ := h₁
        cases h

/-- The tenants to adopt are those with a secret and a role. -/
theorem mem_adoptables (L : Listing E.secrets) :
    t ∈ adoptables E (secretTenants E.outputs L.pages.flatten) ↔ E.Adoptable t := by
  have hid (tid : String) : (validateTenantId (some tid)).toOption = some t ↔ tid = t.val := by
    constructor
    · intro h
      cases hv : validateTenantId (some tid) with
      | error e => rw [hv] at h; cases h
      | ok u =>
        rw [hv] at h
        obtain rfl : u = t := Option.some.inj h
        exact (TenantId.validate_ok hv).symm
    · rintro rfl
      rw [TenantId.validate_val]
      rfl
  simp only [adoptables, List.mem_filter, List.mem_filterMap, hid, exists_eq_right,
    decide_eq_true_eq, mem_secretTenants, L.lists]
  exact ⟨fun h => h.2, fun h => ⟨⟨t.val_ne_empty, h.1⟩, h⟩⟩

/-- They are adopted in the order of their ids, each once. -/
theorem adoptables_sorted (names : List String) :
    (adoptables E (secretTenants E.outputs names)).Pairwise fun t u => compare t u = .lt := by
  refine List.Pairwise.filter _ (List.pairwise_filterMap.2 (secretTenants_sorted.imp ?_))
  intro a b hab t ht u hu
  have hval {tid : String} {t : TenantId} (h : (validateTenantId (some tid)).toOption = some t) :
      t.val = tid := by
    cases hv : validateTenantId (some tid) with
    | error e => rw [hv] at h; cases h
    | ok v =>
      rw [hv] at h
      obtain rfl : v = t := Option.some.inj h
      exact TenantId.validate_ok hv
  rw [← hval ht, ← hval hu] at hab
  exact hab

theorem adoptables_nodup (names : List String) :
    (adoptables E (secretTenants E.outputs names)).Nodup :=
  (adoptables_sorted names).imp fun {t u} h htu => by
    subst htu
    have heq : compare t t = .eq := Std.ReflCmp.compare_self
    cases h.symm.trans heq

theorem adoptTenants_adopting : (adoptTenants []).wp (adopting E)
    (fun _ v' => ∃ L : Listing E.secrets,
      v'.1 = adoptables E (secretTenants E.outputs L.pages.flatten) ∧ Took E s v'.2 v'.1) ([], s) := by
  refine (wp_bind _ _).2 ⟨trivial, fun r v₁ h₁ => (wp_result _).2 ?_⟩
  obtain ⟨l₁, s₁⟩ := v₁
  obtain ⟨hl₁, rfl, rfl⟩ := h₁
  obtain rfl : l₁ = [] := hl₁
  have hurl : (adoptUrl E.outputs).wp (adopting E)
      (fun x v' => x = .ok E.url ∧ v' = ([], s₁)) ([], s₁) := by
    unfold adoptUrl Holdings.url
    dsimp only
    split
    · exact ⟨rfl, rfl⟩
    · refine ⟨trivial, fun r v₂ h₂ => ?_⟩
      obtain ⟨l₂, s₂⟩ := v₂
      obtain ⟨hl₂, rfl, rfl⟩ := h₂
      exact ⟨rfl, Prod.ext hl₂ rfl⟩
  refine wp.bind hurl (fun url v₂ h₂ => ?_) fun e v₂ h₂ => absurd h₂.1 (by simp)
  obtain ⟨hu, rfl⟩ := h₂
  obtain rfl := Except.ok.inj hu
  refine (wp_bind _ _).2 ((wp_bind _ _).2 ⟨trivial, fun r v₃ h₃ => (wp_result _).2 ?_⟩)
  obtain ⟨l₃, s₃⟩ := v₃
  obtain ⟨hl₃, ⟨L, rfl⟩, rfl⟩ := h₃
  obtain rfl : l₃ = [] := hl₃
  simp only [outcome_ok, wp_pure]
  refine (wp_ite _ _ _).2 ⟨fun hnone => ⟨L, ?_⟩, fun _ => ?_⟩
  · rw [hnone]
    exact ⟨rfl, fun t => ⟨fun h => absurd h List.not_mem_nil, fun _ => rfl⟩⟩
  · exact (adoptEach_adopting _ (adoptables_nodup _)).imp fun x v' h => ⟨L, h.1, h.1 ▸ h.2⟩

end

/-! ## The rows of the tenants -/

/-- A run adopts the tenants with a secret and a role, each once and in order: each is owned by
    the control plane, with its secret and its role, and keeps its desired status, and its status
    and its tier unless they are empty. Every other row stays as it is. -/
structure Adopts (E : Holdings) (s : Registry) (tr : Trace cpSig) (s' : Registry) : Prop where
  sorted : (adoptedBy tr).Pairwise fun t u => compare t u = .lt
  exactly : ∀ t, t ∈ adoptedBy tr ↔ E.Adoptable t
  others : ∀ t, ¬E.Adoptable t → s'.get t = s.get t
  owned : ∀ t, E.Adoptable t → ∃ row, s'.get t = some row ∧
    row.ownedBy = some "control_plane" ∧ row.secretName = some (secretName E.outputs t) ∧
    row.irsaRoleArn = E.roles (roleName E.outputs t) ∧
    ∀ old, s.get t = some old → row.desiredStatus = old.desiredStatus ∧
      row.status = (if old.status.text = "" then .active else old.status) ∧
      row.tier = if truthy old.tier then old.tier else some "standard"

section

variable {E : Holdings} {t : TenantId} {s s' : Registry} {row : Row} {tr : Trace cpSig}

/-- What an adoption leaves in a row that it would not change again. -/
structure AdoptedRow (E : Holdings) (t : TenantId) (row : Row) : Prop where
  status : row.status.text ≠ ""
  tier : truthy row.tier
  ownedBy : row.ownedBy = some "control_plane"
  secretName : row.secretName = some (secretName E.outputs t)
  irsaRoleArn : row.irsaRoleArn = E.roles (roleName E.outputs t)
  endpoint : E.url ≠ "" → row.endpoint = some (E.url ++ "/tenant-" ++ t.val)
  pathPrefix : row.pathPrefix = pathPrefixOf t
  error : row.error = none

theorem orElse_standard (tier : Option String) :
    some (orElse (tier.getD "") "standard") = if truthy tier then tier else some "standard" := by
  unfold orElse truthy
  cases tier with
  | none => rfl
  | some x => by_cases hx : x = "" <;> simp [hx]

theorem adoptedStatus_text (existing : Option Row) : (adoptedStatus existing).text ≠ "" := by
  unfold adoptedStatus
  split
  · simp [Status.text]
  · split
    · simp [Status.text]
    · assumption

theorem adopts_row (h : s.adopts E t (some row)) : AdoptedRow E t row := by
  obtain ⟨now, arn, harn, hrow⟩ := h
  obtain rfl := Option.some.inj hrow
  have htier (tier : Option String) : truthy (some (orElse (tier.getD "") "standard")) = true := by
    rw [orElse_standard]
    split
    · assumption
    · rfl
  unfold Registry.written
  cases hget : s.get t with
  | none =>
    exact ⟨by simp [Row.insert, Row.insertStatus, adopted, adoptedStatus, Status.text], by rfl, rfl, rfl,
      harn.symm, fun hurl => by simp [Row.insert, adopted, endpointOf, hurl], rfl, rfl⟩
  | some old =>
    exact ⟨adoptedStatus_text (some old), htier old.tier, rfl, rfl, harn.symm, fun hurl => by
      simp [Row.update, adopted, endpointOf, hurl], rfl, rfl⟩

/-- An adopted row keeps its desired status, its status and its tier. -/
theorem adopts_kept {old : Row} (h : s.adopts E t (some row)) (hold : s.get t = some old) :
    row.desiredStatus = old.desiredStatus ∧
      row.status = (if old.status.text = "" then .active else old.status) ∧
      row.tier = if truthy old.tier then old.tier else some "standard" := by
  obtain ⟨now, arn, -, hrow⟩ := h
  obtain rfl := Option.some.inj hrow
  rw [Registry.written_update hold, hold]
  exact ⟨by simp [Row.update, adopted, Fields.desired], rfl, orElse_standard old.tier⟩

/-- A row that was adopted is not changed by adopting it again. -/
theorem adopts_again {old : Row} (hold : s.get t = some old) (hadopted : AdoptedRow E t old)
    (h : s.adopts E t (some row)) : row.unstamped = old.unstamped := by
  obtain ⟨now, arn, harn, hrow⟩ := h
  obtain rfl := Option.some.inj hrow
  rw [Registry.written_update hold, hold]
  have htier := orElse_standard old.tier
  rw [if_pos hadopted.tier] at htier
  have hstatus : adoptedStatus (some old) = old.status := if_neg hadopted.status
  have hendpoint : endpointOf E.url t old.endpoint = old.endpoint := by
    unfold endpointOf
    split
    · rfl
    · next hurl => exact (hadopted.endpoint hurl).symm
  have hdesired : (adopted E.outputs t E.url arn (some old)).desired.getD old.desiredStatus =
      old.desiredStatus := by simp [adopted, Fields.desired]
  rw [hdesired]
  simp only [Row.unstamped, Row.update, adopted, Option.bind_some, Option.getD_some, htier, hstatus,
    hendpoint]
  rw [← hadopted.ownedBy, ← hadopted.secretName, ← harn, ← hadopted.irsaRoleArn, ← hadopted.pathPrefix,
    ← hadopted.error]
  rfl

/-- The run, with the tenants it adopts. -/
theorem took_of_exec {x : Except Exn (List Row)} (hx : Exec E.world (adoptTenants []) s tr x s') :
    ∃ L : Listing E.secrets, adoptedBy tr = adoptables E (secretTenants E.outputs L.pages.flatten) ∧
      Took E s s' (adoptedBy tr) := by
  have hfollows : Follows E.world (adopting E) fun tr w v => v = (adoptedBy tr, w) := by
    rintro t w v c r w' rfl - hr
    refine ⟨(adoptedBy t ++ (writes ⟨c, r⟩).toList, w'), ⟨rfl, hr⟩, ?_⟩
    have hlast : adoptedBy (t ++ [⟨c, r⟩]) = adoptedBy t ++ (writes ⟨c, r⟩).toList := by
      unfold adoptedBy
      rw [List.filterMap_append]
      cases hw : writes ⟨c, r⟩ <;> simp [hw]
    exact Prod.ext hlast.symm rfl
  have hstart : (([], s) : List TenantId × Registry) = (adoptedBy [], s) := rfl
  obtain ⟨v, ⟨L, hl, htook⟩, rfl⟩ := hx.simulate hfollows hstart adoptTenants_adopting
  exact ⟨L, hl, htook⟩

theorem adopts_of_exec {x : Except Exn (List Row)}
    (hx : Exec E.world (adoptTenants []) s tr x s') : Adopts E s tr s' := by
  obtain ⟨L, hl, htook⟩ := took_of_exec hx
  have hmem (t : TenantId) : t ∈ adoptedBy tr ↔ E.Adoptable t := by rw [hl, mem_adoptables L]
  refine ⟨hl ▸ adoptables_sorted _, hmem, fun t ht => (htook t).2 (mt (hmem t).1 ht), fun t ht => ?_⟩
  have hadopts := (htook t).1 ((hmem t).2 ht)
  obtain ⟨now, arn, harn, hrow⟩ := id hadopts
  rw [hrow] at hadopts
  have hr := adopts_row hadopts
  exact ⟨_, hrow, hr.ownedBy, hr.secretName, hr.irsaRoleArn, fun old hold => adopts_kept hadopts hold⟩

theorem content_of_exec {tr₁ tr₂ : Trace cpSig} {s₁ s₂ : Registry} {x₁ x₂ : Except Exn (List Row)}
    (h₁ : Exec E.world (adoptTenants []) s tr₁ x₁ s₁)
    (h₂ : Exec E.world (adoptTenants []) s₁ tr₂ x₂ s₂) (t : TenantId) :
    (s₂.get t).map Row.unstamped = (s₁.get t).map Row.unstamped := by
  obtain ⟨L₁, hl₁, htook₁⟩ := took_of_exec h₁
  obtain ⟨L₂, hl₂, htook₂⟩ := took_of_exec h₂
  by_cases ht : E.Adoptable t
  · have hfirst := (htook₁ t).1 (by rw [hl₁, mem_adoptables L₁]; exact ht)
    have hagain := (htook₂ t).1 (by rw [hl₂, mem_adoptables L₂]; exact ht)
    obtain ⟨now₁, arn₁, -, hrow₁⟩ := id hfirst
    obtain ⟨now₂, arn₂, -, hrow₂⟩ := id hagain
    rw [hrow₁] at hfirst
    rw [hrow₂] at hagain
    rw [hrow₁, hrow₂]
    exact congrArg some (adopts_again hrow₁ (adopts_row hfirst) hagain)
  · rw [(htook₂ t).2 (by rw [hl₂, mem_adoptables L₂]; exact ht)]

end

/-- Adopting all tenants adopts those with a secret and a role, whatever the pages their secrets
    are listed in, and adopting them again changes nothing but versions and times. -/
theorem adoptTenants_adopts {E : Holdings} {s s' : Registry} {tr : Trace cpSig}
    {x : Except Exn (List Row)} (hx : Exec E.world (adoptTenants []) s tr x s') :
    Adopts E s tr s' ∧
      (∀ L : Listing E.secrets, ∀ fuel ≥ L.pages.length, discover E.outputs L.fetch fuel =
        some (secretTenants E.outputs L.pages.flatten)) ∧
      ∀ tr' x' s'', Exec E.world (adoptTenants []) s' tr' x' s'' → ∀ t,
        (s''.get t).map Row.unstamped = (s'.get t).map Row.unstamped :=
  ⟨adopts_of_exec hx, fun L _ hfuel => discover_listing L E.outputs hfuel,
    fun _ _ _ hx' t => content_of_exec hx hx' t⟩

/-! ## A tenant being deleted -/

/-- The tenants `a` and `b` have their secrets and their roles, `c` only its secret. -/
def holdingsABC : Holdings where
  outputs := labOutputs
  albUrlFile := ""
  secrets := {"ntier-dev/rds/master", secretName labOutputs .a, secretName labOutputs .b,
    secretName labOutputs .c}
  roles name := if name ∈ [roleName labOutputs .a, roleName labOutputs .b] then
    some ("arn:aws:iam::1:role/" ++ name) else none

/-- The secrets, on two pages. -/
def listingABC : Listing holdingsABC.secrets where
  fetch token := if token = some "next" then
      ⟨[secretName labOutputs .a, secretName labOutputs .c], none⟩
    else ⟨[secretName labOutputs .b, "ntier-dev/rds/master"], some "next"⟩
  pages := [[secretName labOutputs .b, "ntier-dev/rds/master"],
    [secretName labOutputs .a, secretName labOutputs .c]]
  paged := .more rfl (by decide) (.last rfl)
  lists name := by simp [holdingsABC]; tauto

/-- How AWS and the store answer, at one time. -/
def holdingsAnswer (c : Cmd) (s : Registry) : cpSig.Resp c × Registry :=
  match c with
  | .host .tofuOutputs => (.ok labOutputs, s)
  | .host .albUrlFile => ("", s)
  | .aws .listSecrets => (.ok listingABC.pages, s)
  | .aws (.describeSecret name) =>
    (if name ∈ holdingsABC.secrets then .ok ⟨"arn", false⟩
      else .error (.clientError "ResourceNotFoundException" "" ""), s)
  | .aws (.getRole name) =>
    (match holdingsABC.roles name with
      | some arn => .ok arn
      | none => .error (.clientError "NoSuchEntity" "" ""), s)
  | .aws (.tagSecret _ _) | .aws (.tagRole _ _) => (.ok (), s)
  | .reg c => c.run "now" s
  | c => (succeeding c, s)

theorem holdingsAnswer_step (c : Cmd) (s : Registry) :
    holdingsABC.world c s (holdingsAnswer c s).1 (holdingsAnswer c s).2 := by
  cases c with
  | aws c =>
    cases c with
    | listSecrets => exact ⟨⟨listingABC, rfl⟩, rfl⟩
    | describeSecret name =>
      refine ⟨?_, rfl⟩
      unfold holdingsAnswer
      dsimp only
      split
      · exact ⟨_, rfl⟩
      · exact ⟨_, _, rfl⟩
    | getRole name =>
      refine ⟨?_, rfl⟩
      unfold holdingsAnswer
      dsimp only
      split
      · rfl
      · exact ⟨_, _, rfl⟩
    | tagSecret name t => exact ⟨.inl rfl, rfl⟩
    | tagRole name t => exact ⟨.inl rfl, rfl⟩
    | _ => rfl
  | host c =>
    cases c with
    | tofuOutputs => exact ⟨rfl, rfl⟩
    | albUrlFile => exact ⟨rfl, rfl⟩
    | _ => rfl
  | reg c => exact ⟨"now", rfl⟩
  | _ => rfl

/-- The adoption, where the tenant `a` has a row. -/
theorem holdingsABC_exec (row : Row) : ∃ tr x s',
    Exec holdingsABC.world (adoptTenants []) (Std.ExtTreeMap.insert (∅ : Registry) .a row) tr x s' :=
  ⟨_, _, _, exec_eval (fun _ : Unit => holdingsAnswer_step) (fun _ => ()) (adoptTenants []) 0 _⟩

/-- A row of the tenant `a`, being deleted. -/
def deletingA (tier : Option String) : Row where
  desiredStatus := .gone
  status := .deleting
  tier
  endpoint := none
  pathPrefix := none
  ownedBy := none
  secretName := none
  irsaRoleArn := none
  error := none
  deleteStep := none
  observedJson := none
  version := 3
  createdAt := "then"
  updatedAt := "then"

theorem adoptable_a : holdingsABC.Adoptable .a := by
  simp [Holdings.Adoptable, holdingsABC]

theorem adoptable_b : holdingsABC.Adoptable .b := by
  simp [Holdings.Adoptable, holdingsABC]

theorem not_adoptable_c : ¬holdingsABC.Adoptable .c := by
  simp [Holdings.Adoptable, holdingsABC]
  decide +kernel

/-- A tenant being deleted is adopted as one being deleted, one without a row is adopted too, and
    one without a role is not; the secrets are listed on two pages. -/
theorem adoptTenants_adopts_deleting : ∃ (tr : Trace cpSig) (s' : Registry) (row row' : Row),
    .a ∈ adoptedBy tr ∧ .b ∈ adoptedBy tr ∧ .c ∉ adoptedBy tr ∧
    s'.get .a = some row ∧ row.desiredStatus = .gone ∧ row.status = .deleting ∧
    row.tier = some "premium" ∧ row.ownedBy = some "control_plane" ∧
    s'.get .b = some row' ∧ row'.ownedBy = some "control_plane" ∧
    s'.get .c = none ∧
    discover labOutputs listingABC.fetch 2 =
      some (secretTenants labOutputs listingABC.pages.flatten) := by
  obtain ⟨tr, x, s', hx⟩ := holdingsABC_exec (deletingA (some "premium"))
  obtain ⟨hadopts, hlisted, -⟩ := adoptTenants_adopts hx
  obtain ⟨row, hrow, howned, -, -, hkept⟩ := hadopts.owned .a adoptable_a
  obtain ⟨hdesired, hstatus, htier⟩ := hkept (deletingA (some "premium")) (by simp)
  obtain ⟨row', hrow', howned', -⟩ := hadopts.owned .b adoptable_b
  refine ⟨tr, s', row, row', (hadopts.exactly _).2 adoptable_a, (hadopts.exactly _).2 adoptable_b,
    fun h => not_adoptable_c ((hadopts.exactly _).1 h), hrow, hdesired, hstatus, htier, howned,
    hrow', howned', ?_, ?_⟩
  · rw [hadopts.others _ not_adoptable_c]
    simp [Registry.get, Std.ExtTreeMap.getElem?_insert]
    decide +kernel
  · exact hlisted listingABC 2 (by decide)

/-- A tier that is null is not kept. -/
theorem adopted_null_tier : ¬∀ (E : Holdings) (s s' : Registry) tr x,
    Exec E.world (adoptTenants []) s tr x s' → ∀ t, E.Adoptable t → ∀ old, s.get t = some old →
      ∃ row, s'.get t = some row ∧ row.desiredStatus = old.desiredStatus ∧
        row.status = old.status ∧ row.tier = old.tier := by
  intro h
  obtain ⟨tr, x, s', hx⟩ := holdingsABC_exec (deletingA none)
  have hold : Registry.get (Std.ExtTreeMap.insert ∅ .a (deletingA none)) .a = some (deletingA none) := by
    simp
  obtain ⟨row, hrow, -, -, htier⟩ := h _ _ _ _ _ hx .a adoptable_a _ hold
  obtain ⟨row', hrow', -, -, -, hkept⟩ := (adopts_of_exec hx).owned .a adoptable_a
  obtain rfl := Option.some.inj (hrow.symm.trans hrow')
  have hstandard : row.tier = some "standard" := (hkept _ hold).2.2
  cases htier.symm.trans hstandard

end NtierLab
