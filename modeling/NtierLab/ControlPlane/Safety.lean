import NtierLab.Text.Python

/-!
# Bind and bearer safety

The two checks of the API (`control-plane/safety.py`): at the start, that a
host that is not loopback has a token, and at a request, that it presents it.

* `start` refuses a host that is not loopback without a token (`start_token`).
* `bearerToken` reads what a header presents (`Presents`): the text after a
  `bearer ` in any case, stripped.
* A comparison of texts that are not ASCII raises. So a request is allowed, or
  rejected with 401, as it should, exactly where what it presents and the token
  are ASCII, or it presents nothing (`requireCpAuth_safe_iff`).
-/

namespace NtierLab

/-- What the API reads of its environment: `CP_HOST` and `CP_API_TOKEN`. -/
structure CpEnv where
  host : Option String := none
  apiToken : Option String := none

/-- `BindUnsafeError`, of the host. -/
structure BindUnsafeError where
  host : String
  deriving DecidableEq

/-- Python's `TypeError`, of a comparison of texts that are not ASCII. -/
structure TypeError where
  deriving DecidableEq

/-- A rejection: a status and the fields of the body. -/
structure Rejection where
  status : ℕ
  body : List (String × String)
  deriving DecidableEq

/-- `LOOPBACK_HOSTS`. -/
def loopbackHosts : List String := ["127.0.0.1", "::1", "localhost"]

/-- `is_loopback_host`. -/
def isLoopbackHost (host : String) : Bool := pyLower (pyStrip host) ∈ loopbackHosts

/-- `configured_token`. -/
def configuredToken (env : CpEnv) : String := pyStrip (env.apiToken.getD "")

/-- `assert_bind_safety`. -/
def assertBindSafety (env : CpEnv) (host : String) (token : Option String) :
    Except BindUnsafeError Unit :=
  let presented := match token with
    | none => configuredToken env
    | some token => pyStrip token
  if isLoopbackHost host then .ok ()
  else if presented ≠ "" then .ok ()
  else .error ⟨host⟩

/-- `main`, up to the host the server listens on. -/
def start (env : CpEnv) : Except BindUnsafeError String := do
  let host := env.host.getD "127.0.0.1"
  assertBindSafety env host none
  return host

/-- The `prefix` of `bearer_token`. -/
def bearerPrefix : String := "bearer "

/-- `bearer_token`. -/
def bearerToken (authorization : Option String) : String :=
  let raw := pyStrip (authorization.getD "")
  if bearerPrefix.toList <+: (pyLower raw).toList then
    pyStrip (String.ofList (raw.toList.drop bearerPrefix.length))
  else ""

/-- A text in ASCII. -/
def Ascii (s : String) : Prop := ∀ c ∈ s.toList, c.toNat < 128

instance (s : String) : Decidable (Ascii s) := List.decidableBAll _ _

/-- `hmac.compare_digest`, of two texts. -/
def compareDigest (a b : String) : Except TypeError Bool :=
  if Ascii a ∧ Ascii b then .ok (a = b) else .error ⟨⟩

def unauthorized : Rejection :=
  ⟨401, [("error", "unauthorized"), ("message", "Authorization: Bearer token required")]⟩

/-- `authorize_http`. -/
def authorizeHttp (path : String) (authorization : Option String) (token : String) :
    Except TypeError (Option Rejection) :=
  if path = "/health" then .ok none
  else
    let secret := pyStrip token
    if secret = "" then .ok none
    else
      let presented := bearerToken authorization
      if presented = "" then .ok (some unauthorized)
      else do
        if ← compareDigest presented secret then return none else return some unauthorized

/-- `require_cp_auth`: what a request meets before its handler. -/
def requireCpAuth (env : CpEnv) (path : String) (authorization : Option String) :
    Except TypeError (Option Rejection) :=
  authorizeHttp path authorization (configuredToken env)

/-! ## What a header presents -/

/-- The header is a `bearer `, in any case, followed by `presented` up to whitespace. -/
def Presents (authorization : Option String) (presented : String) : Prop :=
  ∃ scheme rest, pyStrip (authorization.getD "") = scheme ++ rest ∧ pyLower scheme = "bearer " ∧
    pyStrip rest = presented

/-- A header presents something where it begins with the scheme: the rest. -/
theorem presents_iff {authorization : Option String} {presented : String} :
    Presents authorization presented ↔
      bearerPrefix.toList <+: (pyLower (pyStrip (authorization.getD ""))).toList ∧
        pyStrip (String.ofList ((pyStrip (authorization.getD "")).toList.drop
          bearerPrefix.length)) = presented := by
  have hi : 'i' ∉ bearerPrefix.toList := by decide +kernel
  unfold Presents
  generalize pyStrip (authorization.getD "") = raw
  constructor
  · rintro ⟨scheme, rest, rfl, hscheme, rfl⟩
    have hlower : scheme.toList.flatMap pyLowerChar = bearerPrefix.toList := by
      rw [bearerPrefix, ← hscheme, pyLower, String.toList_ofList]
    -- As many characters are the scheme's as it has when lowered.
    have hlen : scheme.toList.length = bearerPrefix.length := length_of_lower hi hlower
    refine ⟨?_, ?_⟩
    · rw [pyLower, String.toList_ofList, String.toList_append, List.flatMap_append, hlower]
      exact List.prefix_append _ _
    · rw [String.toList_append, List.drop_left' hlen, String.ofList_toList]
  · rintro ⟨hbearer, rfl⟩
    rw [pyLower, String.toList_ofList] at hbearer
    obtain ⟨scheme, rest, hraw, hlen, hscheme⟩ := (prefix_lower_iff hi).1 hbearer
    refine ⟨String.ofList scheme, String.ofList rest, ?_, ?_, ?_⟩
    · rw [← String.ofList_append, ← hraw, String.ofList_toList]
    · rw [pyLower, String.toList_ofList, hscheme, String.ofList_toList, bearerPrefix]
    · rw [hraw, List.drop_left' (i := bearerPrefix.length) hlen]

/-- What is presented is read. -/
theorem Presents.eq_bearerToken {authorization : Option String} {presented : String}
    (h : Presents authorization presented) : bearerToken authorization = presented := by
  rw [presents_iff] at h
  rw [bearerToken, if_pos h.1, h.2]

/-- A token other than the empty one is read only where it is presented. -/
theorem presents_bearerToken {authorization : Option String} (h : bearerToken authorization ≠ "") :
    Presents authorization (bearerToken authorization) := by
  rw [presents_iff]
  by_cases hscheme : bearerPrefix.toList <+: (pyLower (pyStrip (authorization.getD ""))).toList
  · exact ⟨hscheme, by rw [bearerToken, if_pos hscheme]⟩
  · exact absurd (by rw [bearerToken, if_neg hscheme]) h

/-! ## The two checks together -/

/-- A server on a host that is not loopback has a token. -/
theorem start_token {env : CpEnv} {host : String} (h : start env = .ok host)
    (hloop : isLoopbackHost host = false) : configuredToken env ≠ "" := by
  intro htoken
  have hhost : env.host.getD "127.0.0.1" = host := by
    revert h
    cases h : assertBindSafety env (env.host.getD "127.0.0.1") none with
    | error e => simp [start, h, bind, Except.bind]
    | ok u => simp [start, h, bind, Except.bind, pure, Except.pure]
  simp [start, assertBindSafety, hhost, hloop, htoken, bind, Except.bind] at h

/-- Without a token to compare there is no exception. -/
theorem authorizeHttp_nothing {path token : String} {authorization : Option String}
    (hpath : path ≠ "/health") (htoken : pyStrip token ≠ "") (h : bearerToken authorization = "") :
    authorizeHttp path authorization token = .ok (some unauthorized) := by
  simp [authorizeHttp, hpath, htoken, h]

/-- In ASCII a request is allowed with the token only. -/
theorem authorizeHttp_ascii {path token : String} {authorization : Option String}
    (hpath : path ≠ "/health") (htoken : pyStrip token ≠ "") (h : bearerToken authorization ≠ "")
    (hp : Ascii (bearerToken authorization)) (ht : Ascii (pyStrip token)) :
    authorizeHttp path authorization token =
      .ok (if bearerToken authorization = pyStrip token then none else some unauthorized) := by
  simp only [authorizeHttp, compareDigest, hpath, htoken, h, hp, ht, if_false, and_self, if_true]
  by_cases he : bearerToken authorization = pyStrip token <;>
    simp [he, bind, Except.bind, pure, Except.pure]

/-- A token or a header that is not ASCII is not compared: the check raises. -/
theorem authorizeHttp_raises {path token : String} {authorization : Option String}
    (hpath : path ≠ "/health") (htoken : pyStrip token ≠ "") (h : bearerToken authorization ≠ "")
    (ha : ¬(Ascii (bearerToken authorization) ∧ Ascii (pyStrip token))) :
    authorizeHttp path authorization token = .error ⟨⟩ := by
  simp only [authorizeHttp, compareDigest, hpath, htoken, h, ha, if_false]
  rfl

/-- A request reaches its handler only with the token, and is answered 401 otherwise. -/
structure BearerSafe (env : CpEnv) (path : String) (authorization : Option String) : Prop where
  presents : requireCpAuth env path authorization = .ok none →
    Presents authorization (configuredToken env)
  rejected : requireCpAuth env path authorization ≠ .ok none →
    requireCpAuth env path authorization = .ok (some unauthorized)

/-- On a host that is not loopback the checks are safe for a request where the
    header presents nothing, or it and the token are ASCII. -/
theorem requireCpAuth_safe_iff {env : CpEnv} {host path : String} {authorization : Option String}
    (hstart : start env = .ok host) (hloop : isLoopbackHost host = false)
    (hpath : path ≠ "/health") :
    BearerSafe env path authorization ↔
      ∀ presented, Presents authorization presented → presented ≠ "" →
        Ascii presented ∧ Ascii (configuredToken env) := by
  have hstrip : pyStrip (configuredToken env) = configuredToken env := pyStrip_pyStrip _
  have htoken : pyStrip (configuredToken env) ≠ "" := by
    rw [hstrip]
    exact start_token hstart hloop
  constructor
  · intro hsafe presented hpres hne
    have hread := hpres.eq_bearerToken
    subst hread
    by_contra ha
    rw [← hstrip] at ha
    have hraise := authorizeHttp_raises hpath htoken hne ha
    have := hsafe.rejected (by rw [requireCpAuth, hraise]; exact nofun)
    rw [requireCpAuth, hraise] at this
    exact nomatch this
  · intro hascii
    by_cases hne : bearerToken authorization = ""
    · have hreject := authorizeHttp_nothing hpath htoken hne
      refine ⟨fun h => ?_, fun _ => hreject⟩
      rw [requireCpAuth, hreject] at h
      exact absurd h (by simp)
    · have hpres := presents_bearerToken hne
      obtain ⟨hp, ht⟩ := hascii _ hpres hne
      have hcompare := authorizeHttp_ascii hpath htoken hne hp (by rwa [hstrip])
      rw [hstrip] at hcompare
      refine ⟨fun h => ?_, fun h => ?_⟩
      · rw [requireCpAuth, hcompare] at h
        split_ifs at h with heq
        · exact heq ▸ hpres
        · exact absurd h (by simp)
      · rw [requireCpAuth, hcompare] at h ⊢
        split_ifs at h ⊢ with heq
        · exact absurd rfl h
        · rfl

/-- A server that listens on every interface, with a token. -/
def openToAll : CpEnv := ⟨some "0.0.0.0", some "s3cret"⟩

theorem requireCpAuth_safe_token :
    BearerSafe openToAll "/tenants" (some "Bearer s3cret") := by
  have hstart : start openToAll = .ok "0.0.0.0" := by decide +kernel
  refine (requireCpAuth_safe_iff hstart (by decide +kernel) (by decide +kernel)).2
    fun presented h _ => ?_
  have : bearerToken (some "Bearer s3cret") = "s3cret" := by decide +kernel
  rw [← h.eq_bearerToken, this]
  exact ⟨by decide +kernel, by decide +kernel⟩

/-- A header that is not ASCII is not answered: the check raises. -/
theorem requireCpAuth_nonAscii :
    start openToAll = .ok "0.0.0.0" ∧ isLoopbackHost "0.0.0.0" = false ∧
      ¬BearerSafe openToAll "/tenants" (some "Bearer é") := by
  have hraise : requireCpAuth openToAll "/tenants" (some "Bearer é") = .error ⟨⟩ := by decide +kernel
  refine ⟨by decide +kernel, by decide +kernel, fun h => ?_⟩
  have := h.rejected (by rw [hraise]; exact nofun)
  rw [hraise] at this
  exact nomatch this

end NtierLab
