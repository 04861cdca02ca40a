import NtierLab.Prog.Logic

/-!
# Monitors

A *monitor* reads the events of a program, and says in each state which commands it
allows: the protocol a program keeps to.

* `Prog.Obeys`: the program keeps to the monitor, whatever is answered to it, among
  the events granted;
* `Monitor.on`: the monitor along a handler, as a contract on both their states. An
  execution meets the postconditions of its program (`Exec.on_outcome`) and is
  allowed at each of its events (`Exec.on_allow`).
-/

namespace NtierLab

open Prog

variable {S : Sig} {ε α W σ : Type}

/-- A monitor of the commands of a thread: the commands it allows in each state, and the
    state it takes after an event. -/
structure Monitor (S : Sig) (σ : Type) where
  allow : σ → S.Cmd → Prop
  next : σ → Event S → σ

namespace Monitor

variable (m : Monitor S σ)

/-- The state after a trace. -/
def after (s : σ) (t : Trace S) : σ := t.foldl m.next s

@[simp] theorem after_nil (s : σ) : m.after s [] = s := rfl

@[simp] theorem after_concat (s : σ) (t : Trace S) (e : Event S) :
    m.after s (t ++ [e]) = m.next (m.after s t) e := by
  simp [after]

/-- A monitor as a contract, granting the responses in `ok`. -/
def contract (ok : Event S → Prop) : Contract S σ where
  pre c s := m.allow s c
  post c s r s' := ok ⟨c, r⟩ ∧ s' = m.next s ⟨c, r⟩

@[simp] theorem contract_pre (ok : Event S → Prop) (c : S.Cmd) (s : σ) :
    (m.contract ok).pre c s ↔ m.allow s c := Iff.rfl

@[simp] theorem contract_post (ok : Event S → Prop) (c : S.Cmd) (r : S.Resp c) (s s' : σ) :
    (m.contract ok).post c s r s' ↔ ok ⟨c, r⟩ ∧ s' = m.next s ⟨c, r⟩ := Iff.rfl

/-- A monitor along a handler, as a contract. -/
def on (h : Handler S W) : Contract S (W × σ) where
  pre c v := m.allow v.2 c
  post c v r v' := h c v.1 r v'.1 ∧ v'.2 = m.next v.2 ⟨c, r⟩

@[simp] theorem on_pre (h : Handler S W) (c : S.Cmd) (w : W) (s : σ) :
    (m.on h).pre c (w, s) ↔ m.allow s c := Iff.rfl

@[simp] theorem on_post (h : Handler S W) (c : S.Cmd) (r : S.Resp c) (w w' : W) (s s' : σ) :
    (m.on h).post c (w, s) r (w', s') ↔ h c w r w' ∧ s' = m.next s ⟨c, r⟩ := Iff.rfl

end Monitor

namespace Prog

variable {m : Monitor S σ} {ok : Event S → Prop} {h : Handler S W}

/-- The program, from the state `s`, only issues commands the monitor allows, as long as
    the responses are in `ok`. -/
def Obeys (m : Monitor S σ) (ok : Event S → Prop) (p : Prog S ε α) (s : σ) : Prop :=
  p.wp (m.contract ok) (fun _ _ => True) s

theorem obeys_call {c : S.Cmd} {k : S.Resp c → Prog S ε α} {s : σ} :
    (call c k).Obeys m ok s ↔
      m.allow s c ∧ ∀ r, ok ⟨c, r⟩ → (k r).Obeys m ok (m.next s ⟨c, r⟩) :=
  and_congr_right' ⟨fun h r hr => h r _ ⟨hr, rfl⟩, fun h r _ ⟨hr, hs⟩ => hs ▸ h r hr⟩

/-- A command the handler answers in one way. -/
theorem wp_call_on {c : S.Cmd} {k : S.Resp c → Prog S ε α} {w w₀ : W} {r₀ : S.Resp c} {s : σ}
    {Q : Except ε α → W × σ → Prop} (hc : ∀ r w', h c w r w' ↔ r = r₀ ∧ w' = w₀) :
    (call c k).wp (m.on h) Q (w, s) ↔
      m.allow s c ∧ (k r₀).wp (m.on h) Q (w₀, m.next s ⟨c, r₀⟩) := by
  refine and_congr_right' ⟨fun hk => hk r₀ (w₀, _) ⟨(hc _ _).2 ⟨rfl, rfl⟩, rfl⟩, ?_⟩
  rintro hk r ⟨w', s'⟩ ⟨hr, rfl⟩
  obtain ⟨rfl, rfl⟩ := (hc r w').1 hr
  exact hk

/-- The world and the state of the monitor after a trace. -/
private def along (m : Monitor S σ) (s : σ) (t : Trace S) (w : W) (v : W × σ) : Prop :=
  v = (w, m.after s t)

private theorem along_nil (s : σ) (w : W) : along m s [] w (w, s) := rfl

private theorem follows_on (s : σ) : Follows h (m.on h) (along m s) := by
  rintro t w _ c r w' rfl - hr
  exact ⟨(w', m.next (m.after s t) ⟨c, r⟩), ⟨hr, rfl⟩, by simp [along]⟩

variable {p : Prog S ε α} {w w' : W} {s : σ} {t t₁ t₂ : Trace S} {x : Except ε α} {e : Event S}
  {Q : Except ε α → W × σ → Prop}

/-- The outcome of an execution meets the postcondition of its program. -/
theorem Exec.on_outcome (hx : Exec h p w t x w') (hp : p.wp (m.on h) Q (w, s)) :
    Q x (w', m.after s t) := by
  obtain ⟨v, hv, rfl⟩ := hx.simulate (follows_on s) (along_nil s w) hp
  exact hv

/-- Every command of an execution is allowed after the events before it. -/
theorem Exec.on_allow (hx : Exec h p w t x w') (hp : p.wp (m.on h) Q (w, s))
    (ht : t = t₁ ++ e :: t₂) : m.allow (m.after s t₁) e.cmd := by
  obtain ⟨w₁, v, rfl, hv⟩ := hx.allowed (follows_on s) (along_nil s w) hp ht
  exact hv

end Prog

end NtierLab
