import NtierLab.ControlPlane.Adopt
import NtierLab.ControlPlane.Reconcile
import NtierLab.Text.Python

/-!
# The HTTP API

The handlers of the API (`control-plane/app.py`): they answer from the registry,
and leave the work to a background job, of which a tenant has one in flight at a
time.

* `startJob`: starts the job of a tenant, unless one is in flight, and answers;
* `createTenant`, `suspend`, `resume`, `remove`: the handlers;
* `Op`: the operations of the control plane, requests, jobs and the functions the
  command line calls, each with its program (`Op.prog`);
* `Request`: those that start jobs, and the jobs.
-/

namespace NtierLab

open Prog

/-- `_public`, of a row. -/
def Row.public (t : TenantId) (row : Row) : Public where
  id := t.val
  desiredStatus := some row.desiredStatus.text
  status := some row.status.text
  tier := row.tier
  endpoint := row.endpoint
  pathPrefix := row.pathPrefix
  ownedBy := row.ownedBy
  secretName := row.secretName
  error := row.error
  deleteStep := row.deleteStep
  version := some row.version
  createdAt := some row.createdAt
  updatedAt := some row.updatedAt

/-- Answers a request. -/
def respond (code : ℕ) (body : Body) : CP Unit := .call (.app (.respond code body)) .ret

/-- Answers with an error. -/
def respondError (code : ℕ) (error message : String) : CP Unit :=
  respond code (.error error (some message) none)

/-- Answers that there is no such tenant. -/
def respondNotFound (t : TenantId) : CP Unit :=
  respond 404 (.error "not_found" none (some t.val))

/-- Answers with a row. -/
def respondRow (code : ℕ) (t : TenantId) (row : Row) : CP Unit :=
  respond code (.tenant (row.public t))

/-- Whether a job of the tenant is in flight. -/
def inFlight (t : TenantId) : CP Bool := .call (.app (.inFlight t)) .ret

/-- The name of the class of an error. -/
def ControlPlaneKind.name : ControlPlaneKind → String
  | validationError => "ValidationError"
  | conflictError => "ConflictError"
  | dependencyError => "DependencyError"
  | awsRetryableError => "AWSRetryableError"
  | kubernetesRetryableError => "KubernetesRetryableError"
  | permanentProvisioningError => "PermanentProvisioningError"

/-- `_cp_error`: the errors of the control plane's own hierarchy are answered. -/
def handled (p : CP Unit) : CP Unit :=
  exceptControlPlane p fun exc => respondError exc.kind.httpStatus exc.kind.name exc.message

/-! ## Jobs -/

/-- The functions the handlers leave to a job (`_fn`). -/
def jobFn (t : TenantId) : JobFn → CP Unit
  | .create tier ensureInfra ensureIdentity => do
    let myIp ← getenv "MY_IP"
    provision t ⟨tier, ensureInfra, ensureIdentity && !ensureInfra, some myIp⟩
  | .resume =>
    exceptControlPlane (do let _ ← resumeTenant t) fun exc => do
      let _ ← TenantStore.upsert t
        { status := some .failed, desiredStatus := Fields.desire .active,
          error := some (some exc.message) }
  | .delete =>
    tryCatch (deleteTenant t) fun exc => do
      let item ← TenantStore.get t
      if item.isSome then
        let _ ← TenantStore.upsert t (deleteFailed exc.text)

/-- `_run`: the tenant is no longer in flight, however the function ends. -/
def runJob (t : TenantId) (fn : JobFn) : CP Unit :=
  (jobFn t fn).ensuring (.call (.app (.discard t)) .ret)

/-- Starts a job unless one of the tenant is in flight; answers 202 in either case. -/
def startJob (t : TenantId) (status : String) (fn : JobFn) : CP Unit := do
  let _started : Bool ← .call (.app (.enter t fn)) .ret
  let item ← TenantStore.get t
  respond 202 (.tenant (item.elim { id := t.val, status := some status } (Row.public t)))

/-! ## Handlers -/

/-- A value of a JSON body: missing, a text, or another value with its truth. -/
inductive FlagValue
  | missing
  | text (s : String)
  | value (truth : Bool)
  deriving DecidableEq

/-- `_flag`. -/
def flag (v : FlagValue) (default : Bool) : Bool :=
  match v with
  | .missing => default
  | .text s => s.toLower ∈ ["1", "true", "yes"]
  | .value truth => truth

@[simp] theorem TenantId.pyStrip_val (t : TenantId) : pyStrip t.val = t.val := by
  refine pyStrip_eq fun c hc => ?_
  have := t.char_toNat hc
  simp only [pyIsSpace, Bool.or_eq_false_iff, Bool.and_eq_false_iff, decide_eq_false_iff_not,
    List.mem_cons, List.not_mem_nil, or_false]
  omega

@[simp] theorem TenantId.pyLower_val (t : TenantId) : pyLower t.val = t.val := by
  have hchar : ∀ c ∈ t.val.toList, pyLowerChar c = [c] := by
    intro c hc
    have := t.char_toNat hc
    rw [pyLowerChar_ascii (by omega), t.toLower hc]
  have hflat (l : List Char) (hl : ∀ c ∈ l, pyLowerChar c = [c]) : l.flatMap pyLowerChar = l := by
    induction l with
    | nil => rfl
    | cons c l ih =>
      rw [List.flatMap_cons, hl c List.mem_cons_self, ih fun d hd => hl d (List.mem_cons_of_mem _ hd)]
      rfl
  rw [pyLower, hflat _ hchar, String.ofList_toList]

/-- The body of a request to create a tenant; its id is `str` of the value given. -/
structure CreateBody where
  id : String
  tier : Option String := none
  ensureIdentity : FlagValue := .missing
  ensureInfra : FlagValue := .missing
  deriving DecidableEq

/-- The id a body asks for. -/
def CreateBody.tenantId (body : CreateBody) : Except Exn TenantId :=
  validateTenantId (some (pyStrip body.id))

/-- The tier a body asks for. -/
def CreateBody.tierName (body : CreateBody) : String :=
  orElse (pyStrip (orElse (body.tier.getD "") "standard")) "standard"

/-- The job a body asks for. -/
def CreateBody.job (body : CreateBody) : JobFn :=
  .create body.tierName (flag body.ensureInfra false) (flag body.ensureIdentity true)

/-- Records the request, and leaves the provisioning to a job. -/
def acceptCreate (t : TenantId) (body : CreateBody) : CP Unit := do
  let _ ← TenantStore.upsert t (provisioning body.tierName)
  startJob t "PROVISIONING" body.job

/-- A request to create a tenant with a row: answered at once, by its status, or accepted. -/
def createExisting (t : TenantId) (body : CreateBody) (existing : Row) : CP Unit :=
  match existing.status with
  | .active => respondRow 200 t existing
  | .provisioning | .deleting => respondRow 202 t existing
  | .deleteFailed =>
    respond 409 (.error "delete_failed"
      (some "retry DELETE /tenants/\x7bid\x7d until GONE; do not recreate yet") (some t.val))
  | .suspended => respondError 409 "suspended" "POST /tenants/\x7bid\x7d/resume"
  | _ => acceptCreate t body

/-- A request to create a tenant, its id validated. -/
def createChecked (t : TenantId) (body : CreateBody) : CP Unit := do
  match ← TenantStore.get t with
  | none => acceptCreate t body
  | some existing => createExisting t body existing

def createTenant (body : CreateBody) : CP Unit :=
  match body.tenantId with
  | .error exc => respondError 400 "invalid_id" exc.text
  | .ok t => handled (createChecked t body)

theorem createTenant_ok {body : CreateBody} {t : TenantId} (h : body.tenantId = .ok t) :
    createTenant body = handled (createChecked t body) := by
  rw [createTenant, h]

theorem createTenant_error {body : CreateBody} {e : Exn} (h : body.tenantId = .error e) :
    createTenant body = respondError 400 "invalid_id" e.text := by
  rw [createTenant, h]

def suspend (t : TenantId) : CP Unit :=
  handled (tryCatch
    (do
      let item ← suspendTenant t
      respondRow 200 t item)
    fun
      | .onboardError message => respondError 400 "suspend_failed" message
      | exc => throw exc)

def resume (t : TenantId) : CP Unit :=
  handled do
    match ← TenantStore.get t with
    | none => respondNotFound t
    | some item =>
      match item.status with
      | .active => respondRow 200 t item
      | .suspended => startJob t "SUSPENDED" .resume
      | status => respondError 409 "invalid_state" ("status=" ++ status.text)

/-- The row of a tenant being deleted. -/
def deleting : Fields :=
  { desiredStatus := Fields.desire .gone, status := some .deleting, error := some none }

/-- Records the request, and leaves the deletion to a job. -/
def acceptRemove (t : TenantId) : CP Unit := do
  let _ ← TenantStore.upsert t deleting
  startJob t "DELETING" .delete

/-- A tenant without a row is deleted all the same, for its namespace. -/
def remove (t : TenantId) : CP Unit :=
  handled do
    match ← TenantStore.get t with
    | none =>
      let _ ← TenantStore.upsert t deleting
      acceptRemove t
    | some item =>
      if item.status = .deleting then
        let running ← inFlight t
        if running then respondRow 202 t item else acceptRemove t
      else acceptRemove t

/-! ## Operations -/

/-- The operations of the control plane: the requests of the API, its jobs, and the functions
    called directly. -/
inductive Op
  | createTenant (body : CreateBody)
  | suspend (t : TenantId)
  | resume (t : TenantId)
  | remove (t : TenantId)
  | job (t : TenantId) (fn : JobFn)
  | provision (t : TenantId) (args : ProvisionArgs)
  | suspendTenant (t : TenantId)
  | resumeTenant (t : TenantId)
  | deleteTenant (t : TenantId)
  | reconcileOne (t : TenantId)
  | reconcileAll
  | adoptTenants (tids : List String)
  deriving DecidableEq

/-- The program of an operation. -/
def Op.prog : Op → CP Unit
  | .createTenant body => NtierLab.createTenant body
  | .suspend t => NtierLab.suspend t
  | .resume t => NtierLab.resume t
  | .remove t => NtierLab.remove t
  | .job t fn => runJob t fn
  | .provision t args => NtierLab.provision t args
  | .suspendTenant t => do let _ ← NtierLab.suspendTenant t
  | .resumeTenant t => do let _ ← NtierLab.resumeTenant t
  | .deleteTenant t => NtierLab.deleteTenant t
  | .reconcileOne t => do let _ ← NtierLab.reconcileOne kubectlObserver actuators t
  | .reconcileAll => do let _ ← NtierLab.reconcileAll kubectlObserver actuators
  | .adoptTenants tids => do let _ ← NtierLab.adoptTenants tids

/-- The requests that leave their work to a job, and the jobs. -/
inductive Request
  | createTenant (body : CreateBody)
  | resume (t : TenantId)
  | remove (t : TenantId)
  | job (t : TenantId) (fn : JobFn)
  deriving DecidableEq

/-- The program of a request. -/
def Request.prog : Request → CP Unit
  | .createTenant body => NtierLab.createTenant body
  | .resume t => NtierLab.resume t
  | .remove t => NtierLab.remove t
  | .job t fn => runJob t fn

/-- The job a command starts: the one it puts in flight. -/
def jobStarted (e : Event cpSig) : Option (TenantId × JobFn) :=
  match e with
  | ⟨.app (.enter t fn), true⟩ => some (t, fn)
  | _ => none

theorem jobStarted_eq {e : Event cpSig} {t : TenantId} {fn : JobFn}
    (h : jobStarted e = some (t, fn)) : e = ⟨.app (.enter t fn), true⟩ := by
  unfold jobStarted at h
  split at h
  · cases h; rfl
  · cases h

end NtierLab
