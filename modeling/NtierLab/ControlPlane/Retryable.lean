import NtierLab.ControlPlane.Reconcile
import NtierLab.Text.Infix
import NtierLab.Text.Python

/-!
# Failures worth a retry

A process of the lifecycle that fails raises a `KubernetesRetryableError` or a
`PermanentProvisioningError` (`control-plane/lifecycle.py`, `_run`), and a
reconcile records DRIFT or FAILED by the class. The class is looked for in the
message, which holds the arguments of the process, while its standard error is
not captured and never in it.

* `runFailure`: the exception, of any arguments and any failure; that of the
  processes of the control plane is the one `lifecycleRun` raises
  (`classifyFailure_eq`).
* `mentions_runMessage`: the message speaks of a timeout where an argument does.
* `runFailure_decided_iff`: two processes that fail alike are both classified by
  the failure where its code decides, or their arguments speak of a timeout
  exactly if the standard error reports one.
-/

namespace NtierLab

/-- The text `_run` looks for. -/
def timeoutText : List Char := "timeout".toList

/-- The text speaks of a timeout: `"timeout" in text.lower()`. -/
def MentionsTimeout (s : String) : Prop := timeoutText <:+: s.toLower.toList

instance (s : String) : Decidable (MentionsTimeout s) :=
  inferInstanceAs (Decidable (timeoutText <:+: s.toLower.toList))

/-- An argument of the process speaks of one. -/
def NamesTimeout (cmd : List String) : Prop := ∃ arg ∈ cmd, MentionsTimeout arg

/-- How a process fails: it exits with a code, having written to its standard error, or runs
    out of time. -/
inductive Failure
  | exited (code : ℤ) (stderr : String) (nonzero : code ≠ 0)
  | timeoutExpired (text : String)

namespace Failure

/-- What the caller of a process that captures nothing is told. -/
def outcome : Failure → ProcOutcome
  | exited code _ _ => .exited code
  | timeoutExpired text => .timeoutExpired text

/-- The failure is a timeout by its code, or as the call ran out of time. -/
def TimedOut : Failure → Prop
  | exited code _ _ => code = 124 ∨ code = 137
  | timeoutExpired _ => True

/-- The standard error reports a timeout, by whatever is one. -/
def Reports (timeout : String → Prop) : Failure → Prop
  | exited _ stderr _ => timeout stderr
  | timeoutExpired _ => False

end Failure

/-- The `err` of `_run`: `check_call` captures nothing. -/
def capturedStderr : String := ""

/-- The message of `_run`. -/
def runMessage (cmd : List String) (code : ℤ) : String :=
  pyStrip (" ".intercalate cmd ++ " exited " ++ toString code ++ " " ++ capturedStderr)

/-- The exception `_run` raises at a failure. -/
def runFailure (cmd : List String) : Failure → ControlPlaneError
  | .timeoutExpired text => ⟨.kubernetesRetryableError, text⟩
  | .exited code _ _ =>
    let msg := runMessage cmd code
    if MentionsTimeout msg ∨ code = 124 ∨ code = 137 then ⟨.kubernetesRetryableError, msg⟩
    else ⟨.permanentProvisioningError, msg⟩

/-! ## What the message mentions -/

/-- Only a letter is lowered to one of the pattern. -/
theorem letter_of_toLower {c : Char} (h : c.toLower ∈ timeoutText) :
    65 ≤ c.toNat ∧ c.toNat ≤ 122 := by
  unfold Char.toLower at h
  split at h
  · next hupper =>
    have hge : 65 ≤ c.toNat := UInt32.le_iff_toNat_le.1 hupper.1
    have hle : c.toNat ≤ 90 := UInt32.le_iff_toNat_le.1 hupper.2
    omega
  · have hc : c ∈ ['t', 'i', 'm', 'e', 'o', 'u', 't'] := h
    simp only [List.mem_cons, List.not_mem_nil, or_false] at hc
    rcases hc with rfl | rfl | rfl | rfl | rfl | rfl | rfl <;> decide

theorem toLower_of_isDigit {c : Char} (h : c.isDigit ∨ c = '-') :
    c.toLower ∉ timeoutText := by
  intro hm
  have hletter := letter_of_toLower hm
  rcases h with h | rfl
  · simp only [Char.isDigit, Bool.and_eq_true, decide_eq_true_eq] at h
    have hle : c.toNat ≤ 57 := UInt32.le_iff_toNat_le.1 h.2
    omega
  · exact absurd hletter.1 (by decide)

/-- Whitespace in lower case is no letter. -/
theorem toLower_of_isSpace {c : Char} (h : pyIsSpace c) : c.toLower ∉ timeoutText := by
  intro hm
  have hletter := letter_of_toLower hm
  simp only [pyIsSpace, Bool.or_eq_true, Bool.and_eq_true, decide_eq_true_eq, List.mem_cons,
    List.not_mem_nil, or_false] at h
  omega

theorem mentions_iff {s : String} :
    MentionsTimeout s ↔ timeoutText <:+: s.toList.map Char.toLower := by
  rw [MentionsTimeout, String.toLower, String.toList_map]

theorem timeout_ne_nil : timeoutText ≠ [] := by decide +kernel

/-- A text speaks of what it does when stripped. -/
theorem mentions_pyStrip {s : String} : MentionsTimeout (pyStrip s) ↔ MentionsTimeout s := by
  have hspace : ∀ c, pyIsSpace c → c.toLower ∉ timeoutText := fun _ => toLower_of_isSpace
  have hrev : timeoutText.reverse ≠ [] := by simpa using timeout_ne_nil
  simp only [mentions_iff, pyStrip, String.toList_ofList]
  rw [← List.reverse_infix, List.map_reverse, List.reverse_reverse,
    infix_map_dropWhile hrev fun c hc => by simpa using hspace c hc,
    List.map_reverse, List.reverse_infix, infix_map_dropWhile timeout_ne_nil hspace]

/-- The message speaks of a timeout where an argument does. -/
theorem mentions_runMessage {cmd : List String} {code : ℤ} :
    MentionsTimeout (runMessage cmd code) ↔ NamesTimeout cmd := by
  have hsep : ' ' ∉ timeoutText := by decide +kernel
  have hexited : ¬timeoutText <:+: "exited".toList := by decide +kernel
  have hdigits : ¬timeoutText <:+: (toString code).toList.map Char.toLower := by
    intro h
    have ht : 't' ∈ (toString code).toList.map Char.toLower := h.subset (by decide +kernel)
    obtain ⟨c, hc, ht⟩ := List.mem_map.1 ht
    exact toLower_of_isDigit (toString_chars hc) (ht ▸ by decide +kernel)
  -- The arguments, the word and the code stand between blanks.
  have hparts : (" ".intercalate cmd ++ " exited " ++ toString code ++ " " ++
        capturedStderr).toList.map Char.toLower =
      List.intercalate [' '] (cmd.map fun arg => arg.toList.map Char.toLower) ++
        ' ' :: ("exited".toList ++ ' ' :: ((toString code).toList.map Char.toLower ++ [' '])) := by
    rw [capturedStderr, String.append_empty]
    simp only [String.toList_append, List.map_append, String.toList_intercalate, map_intercalate,
      List.map_map, List.append_assoc]
    rfl
  rw [runMessage, mentions_pyStrip, mentions_iff, hparts, infix_sep hsep, infix_sep hsep,
    infix_sep hsep, infix_intercalate timeout_ne_nil hsep]
  constructor
  · rintro (⟨part, hpart, h⟩ | h | h | h)
    · obtain ⟨arg, harg, rfl⟩ := List.mem_map.1 hpart
      exact ⟨arg, harg, mentions_iff.2 h⟩
    · exact absurd h hexited
    · exact absurd h hdigits
    · exact absurd (List.infix_nil.1 h) timeout_ne_nil
  · rintro ⟨arg, harg, h⟩
    exact .inl ⟨_, List.mem_map_of_mem harg, mentions_iff.1 h⟩

/-! ## The processes of the control plane -/

/-- Every process is one of two programs. -/
theorem Shell.argv_head (c : Shell) : ∃ rest, c.argv = "kubectl" :: rest ∨ c.argv = "helm" :: rest := by
  cases c with
  | helmUninstall t => exact ⟨_, .inr rfl⟩
  | guardrails group => exact ⟨_, .inr rfl⟩
  | helmUpgrade v => exact ⟨_, .inr rfl⟩
  | _ => exact ⟨_, .inl rfl⟩

/-- The message of a process of the control plane begins with a letter and ends with its code. -/
theorem failedMessage_toList (c : Shell) (code : ℤ) :
    ∃ letter mid, ¬pyIsSpace letter ∧
      (failedMessage c code).toList = letter :: (mid ++ (toString code).toList) := by
  have hargs (prog : List Char) (rest : List (List Char)) :
      ∃ tail, List.intercalate [' '] (prog :: rest) = prog ++ tail := by
    cases rest with
    | nil => exact ⟨[], by simp⟩
    | cons a rest => exact ⟨_, by rw [List.intercalate_cons_cons, List.append_assoc]⟩
  have htext : (failedMessage c code).toList =
      List.intercalate [' '] (c.argv.map String.toList) ++
        (" exited ".toList ++ (toString code).toList) := by
    rw [failedMessage, String.toList_append, String.toList_intercalate, ← String.toList_append]
    rfl
  obtain ⟨rest, h | h⟩ := c.argv_head
  all_goals
    rw [htext, h, List.map_cons]
    obtain ⟨tail, htail⟩ := hargs _ (rest.map String.toList)
    rw [htail]
  · exact ⟨'k', "ubectl".toList ++ (tail ++ " exited ".toList), by decide, by simp⟩
  · exact ⟨'h', "elm".toList ++ (tail ++ " exited ".toList), by decide, by simp⟩

/-- The blank before the standard error is all there is to strip of it. -/
theorem runMessage_argv (c : Shell) (code : ℤ) : runMessage c.argv code = failedMessage c code := by
  obtain ⟨letter, mid, hletter, htext⟩ := failedMessage_toList c code
  have hback : (failedMessage c code).toList.rdropWhile pyIsSpace =
      (failedMessage c code).toList := by
    rw [List.rdropWhile_eq_self_iff, htext, ← List.cons_append]
    intro hne
    rw [List.getLast_append_right (toString_ne_nil code)]
    exact not_isSpace_of_digit (toString_chars (List.getLast_mem _))
  have hfront : (failedMessage c code).toList.dropWhile pyIsSpace =
      (failedMessage c code).toList := by
    rw [htext, List.dropWhile_cons_of_neg hletter]
  have hmsg : " ".intercalate c.argv ++ " exited " ++ toString code ++ " " ++ capturedStderr =
      String.ofList ([] ++ ((failedMessage c code).toList ++ [' '])) := by
    rw [List.nil_append, String.ofList_append, String.ofList_toList, failedMessage, capturedStderr,
      String.append_empty]
    have hmid : " ".intercalate c.argv ++ " exited " ++ toString code =
        " ".intercalate c.argv ++ (" exited " ++ toString code) := String.append_assoc
    rw [hmid]
    rfl
  rw [runMessage, hmsg, pyStrip_append (by simp) (by simp [pyIsSpace]) hfront hback, String.ofList_toList]

/-- `classifyFailure` raises what `_run` does: there is no standard error in its message. -/
theorem classifyFailure_eq (c : Shell) {code : ℤ} (stderr : String) (h : code ≠ 0) :
    classifyFailure c code = .controlPlane (runFailure c.argv (.exited code stderr h)) := by
  change classifyFailure c code = .controlPlane
    (if MentionsTimeout (runMessage c.argv code) ∨ code = 124 ∨ code = 137 then
      ⟨.kubernetesRetryableError, runMessage c.argv code⟩
    else ⟨.permanentProvisioningError, runMessage c.argv code⟩)
  rw [runMessage_argv]
  by_cases hm : MentionsTimeout (failedMessage c code) ∨ code = 124 ∨ code = 137
  · rw [if_pos hm]
    exact if_pos hm
  · rw [if_neg hm]
    exact if_neg hm

/-- A process of the lifecycle that fails raises what `_run` does. -/
theorem lifecycleRun_raises (c : Shell) (f : Failure) :
    ∃ k, lifecycleRun c = .call (.shell c) k ∧
      k f.outcome = throw (.controlPlane (runFailure c.argv f)) := by
  refine ⟨_, rfl, ?_⟩
  cases f with
  | exited code stderr h => simp [Failure.outcome, h, classifyFailure_eq c stderr h]
  | timeoutExpired text => rfl

/-! ## By the failure -/

/-- The failure decides, not the command: the class, and so the status a reconcile records. -/
structure ByFailure (timeout : String → Prop) (cmd : List String) (f : Failure) : Prop where
  retryable : (runFailure cmd f).kind = .kubernetesRetryableError ↔ f.TimedOut ∨ f.Reports timeout
  permanent : (runFailure cmd f).kind = .permanentProvisioningError ↔ ¬(f.TimedOut ∨ f.Reports timeout)
  drift : ∀ desired, desired ≠ .gone →
    (failedStatus desired (runFailure cmd f) = .drift ↔ f.TimedOut ∨ f.Reports timeout)
  failed : ∀ desired, desired ≠ .gone →
    (failedStatus desired (runFailure cmd f) = .failed ↔ ¬(f.TimedOut ∨ f.Reports timeout))

/-- The class by the code, or by an argument. -/
theorem runFailure_kind (cmd : List String) (f : Failure) :
    ((f.TimedOut ∨ NamesTimeout cmd) ∧
        (runFailure cmd f).kind = .kubernetesRetryableError) ∨
      (¬(f.TimedOut ∨ NamesTimeout cmd) ∧
        (runFailure cmd f).kind = .permanentProvisioningError) := by
  cases f with
  | timeoutExpired text => exact .inl ⟨.inl trivial, rfl⟩
  | exited code stderr h =>
    have hmsg : MentionsTimeout (runMessage cmd code) ↔ NamesTimeout cmd := mentions_runMessage
    simp only [runFailure, Failure.TimedOut]
    split_ifs with hm
    · exact .inl ⟨(hm.imp_left hmsg.1).symm, rfl⟩
    · exact .inr ⟨fun h => hm (h.symm.imp_left hmsg.2), rfl⟩

/-- The failure of a command decides where it is a timeout by its code, or else the arguments
    speak of a timeout exactly if the standard error reports one. -/
theorem byFailure_iff {timeout : String → Prop} {cmd : List String} {f : Failure} :
    ByFailure timeout cmd f ↔ f.TimedOut ∨ (NamesTimeout cmd ↔ f.Reports timeout) := by
  have hstatus (desired : Desired) (hd : desired ≠ .gone) :
      failedStatus desired (runFailure cmd f) =
        if (runFailure cmd f).kind.retryable then .drift else .failed := if_neg hd
  constructor
  · intro h
    have hr := h.retryable
    rcases runFailure_kind cmd f with ⟨hm, hk⟩ | ⟨hm, hk⟩ <;> grind
  · intro h
    rcases runFailure_kind cmd f with ⟨hm, hk⟩ | ⟨hm, hk⟩
    · have hspec : f.TimedOut ∨ f.Reports timeout := by grind
      exact ⟨by simp [hk, hspec], by simp [hk, hspec],
        fun d hd => by simp [hstatus d hd, hk, hspec, ControlPlaneKind.retryable],
        fun d hd => by simp [hstatus d hd, hk, hspec, ControlPlaneKind.retryable]⟩
    · have hspec : ¬(f.TimedOut ∨ f.Reports timeout) := by grind
      exact ⟨by simp [hk, hspec], by simp [hk, hspec],
        fun d hd => by simp [hstatus d hd, hk, hspec, ControlPlaneKind.retryable],
        fun d hd => by simp [hstatus d hd, hk, hspec, ControlPlaneKind.retryable]⟩

/-- Two commands that fail alike are classified alike, and by their failure, where it is a timeout
    by its code, or the arguments of both speak of a timeout exactly if the standard error reports
    one. -/
theorem runFailure_decided_iff (timeout : String → Prop) (cmd cmd' : List String) (f : Failure) :
    ((runFailure cmd f).kind = (runFailure cmd' f).kind ∧ ByFailure timeout cmd f ∧
        ByFailure timeout cmd' f) ↔
      f.TimedOut ∨ ((NamesTimeout cmd ↔ f.Reports timeout) ∧
        (NamesTimeout cmd' ↔ f.Reports timeout)) := by
  rw [byFailure_iff, byFailure_iff]
  constructor
  · rintro ⟨-, h, h'⟩
    grind
  · intro h
    refine ⟨?_, by grind, by grind⟩
    rcases runFailure_kind cmd f with ⟨hm, hk⟩ | ⟨hm, hk⟩ <;>
      rcases runFailure_kind cmd' f with ⟨hm', hk'⟩ | ⟨hm', hk'⟩ <;> grind

/-- A refused deletion of a namespace and a refused scaling, with the same code and the same
    standard error, are of two classes: the deletion names its own limit of time. -/
theorem runFailure_names_limit :
    ¬∃ timeout, ∀ cmd cmd' f, (runFailure cmd f).kind = (runFailure cmd' f).kind ∧
      ByFailure timeout cmd f ∧ ByFailure timeout cmd' f := by
  rintro ⟨timeout, h⟩
  have := (h ["kubectl", "delete", "ns", "tenant-a", "--wait=true", "--timeout=180s"]
    ["kubectl", "-n", "tenant-a", "scale", "deploy/test-app", "--replicas=1"]
    (.exited 1 "Error from server (Forbidden)" (by decide))).1
  revert this
  decide +kernel

end NtierLab
