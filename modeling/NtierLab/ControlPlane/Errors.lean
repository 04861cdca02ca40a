import Mathlib
import NtierLab.Prog.Logic

/-!
# Errors

The exceptions of the control plane: its own hierarchy (`ControlPlaneError`), the
unrelated `OnboardError` of the onboarding library, the `ClientError` of the AWS
SDK, the failure of a checked process, and any other exception. A handler is
chosen by the class of the exception; a registry row keeps its text (`Exn.text`,
the source's `str(exc)`).
-/

namespace NtierLab

/-- The classes of `ControlPlaneError`. -/
inductive ControlPlaneKind
  | validationError
  | conflictError
  | dependencyError
  | awsRetryableError
  | kubernetesRetryableError
  | permanentProvisioningError
  deriving DecidableEq

namespace ControlPlaneKind

/-- Transient AWS and Kubernetes failures are retryable; validation and conflicts are not. -/
def retryable : ControlPlaneKind → Bool
  | awsRetryableError | kubernetesRetryableError => true
  | _ => false

/-- The HTTP status of a class of errors. -/
def httpStatus : ControlPlaneKind → ℕ
  | validationError => 400
  | conflictError => 409
  | dependencyError => 424
  | awsRetryableError | kubernetesRetryableError => 503
  | permanentProvisioningError => 500

end ControlPlaneKind

/-- An exception of the control plane's own hierarchy. -/
structure ControlPlaneError where
  kind : ControlPlaneKind
  message : String
  deriving DecidableEq

/-- The names of the signals `1` to `31`, as `signal.Signals` prints them. -/
def signals : List String :=
  ["SIGHUP", "SIGINT", "SIGQUIT", "SIGILL", "SIGTRAP", "SIGABRT", "SIGBUS", "SIGFPE", "SIGKILL",
    "SIGUSR1", "SIGSEGV", "SIGUSR2", "SIGPIPE", "SIGALRM", "SIGTERM", "SIGSTKFLT", "SIGCHLD",
    "SIGCONT", "SIGSTOP", "SIGTSTP", "SIGTTIN", "SIGTTOU", "SIGURG", "SIGXCPU", "SIGXFSZ",
    "SIGVTALRM", "SIGPROF", "SIGWINCH", "SIGIO", "SIGPWR", "SIGSYS"]

/-- Python's `repr` of a string without quotes, backslashes and control characters. -/
def pyRepr (s : String) : String := "'" ++ s ++ "'"

/-- Python's `repr` of a list of such strings. -/
def pyReprList (l : List String) : String := "[" ++ ", ".intercalate (l.map pyRepr) ++ "]"

/-- Any `Exception` the control plane can end with. -/
inductive Exn
  | controlPlane (e : ControlPlaneError)
  | onboardError (message : String)
  /-- An error answered by AWS: its code, its message and the text of the exception. -/
  | clientError (code message text : String)
  /-- A checked process that ended with a nonzero code. -/
  | calledProcessError (argv : List String) (code : ℤ)
  | other (text : String)
  deriving DecidableEq

namespace Exn

/-- The text of an exception, `str(exc)`. -/
def text : Exn → String
  | controlPlane e => e.message
  | onboardError m => m
  | clientError _ _ t => t
  | calledProcessError argv code =>
    if code < 0 then
      match signals[code.natAbs - 1]? with
      | some s => s!"Command '{pyReprList argv}' died with <Signals.{s}: {code.natAbs}>."
      | none => s!"Command '{pyReprList argv}' died with unknown signal {code.natAbs}."
    else s!"Command '{pyReprList argv}' returned non-zero exit status {code}."
  | other t => t

/-- The exceptions `with_retry` retries on. -/
def retryOn : Exn → Bool
  | controlPlane ⟨.awsRetryableError, _⟩ | controlPlane ⟨.kubernetesRetryableError, _⟩ => true
  | _ => false

/-- An input that is not valid. -/
def validationError (m : String) : Exn := controlPlane ⟨.validationError, m⟩
def conflictError (m : String) : Exn := controlPlane ⟨.conflictError, m⟩
def awsRetryableError (m : String) : Exn := controlPlane ⟨.awsRetryableError, m⟩
def kubernetesRetryableError (m : String) : Exn := controlPlane ⟨.kubernetesRetryableError, m⟩
def permanentProvisioningError (m : String) : Exn := controlPlane ⟨.permanentProvisioningError, m⟩

end Exn

/-- The AWS error codes taken for transient. -/
def awsRetryableCodes : List String :=
  ["Throttling", "ThrottlingException", "RequestLimitExceeded", "TooManyRequestsException",
    "ServiceUnavailable", "InternalError", "InternalFailure", "RequestTimeout",
    "TransactionInProgressException", "SlowDown"]

/-- The control plane's exception for an AWS error. -/
def classifyAwsError (code message : String) : Exn :=
  if code ∈ awsRetryableCodes then .awsRetryableError s!"{code}: {message}"
  else .permanentProvisioningError s!"{code}: {message}"

variable {S : Sig} {α : Type}

/-- Up to `attempts` attempts, retried on transient failures. -/
def withRetry (fn : Prog S Exn α) : (attempts : ℕ) → Prog S Exn α
  | 0 => throw (.other "")
  | 1 => fn
  | n + 2 => tryCatch fn fun exc => if exc.retryOn then withRetry fn (n + 1) else throw exc

end NtierLab
