import NtierLab.Prog.Basic

/-!
# Weakest preconditions

A *contract* on a signature says, on worlds of its own, on which worlds a command
may be issued and what its response ensures. The weakest precondition of a
program under a contract (`Prog.wp`) asks for the first of every command and
grants the second, on every path; it is computed by the combinators (`wp_bind`,
`wp_rescue`, `wp_ensuring`).

* `Exec.simulate`: an execution under a handler is followed by the contract,
  along a relation of the two worlds and the trace, so that its outcome meets the
  postcondition;
* `Exec.allowed`: every command of the trace was issued on a world its contract
  allows;
* `Calls`: the commands a program may issue at all, the frame of most programs.
-/

namespace NtierLab

/-- A statement on every outcome, as one on errors and one on values. -/
@[simp] theorem except_forall {ε α : Type} {P : Except ε α → Prop} :
    (∀ r, P r) ↔ (∀ e, P (.error e)) ∧ ∀ a, P (.ok a) :=
  ⟨fun h => ⟨fun _ => h _, fun _ => h _⟩, fun h r => match r with
    | .error e => h.1 e
    | .ok a => h.2 a⟩

/-- What a command asks of the world it is issued on, and what its response ensures. -/
structure Contract (S : Sig) (V : Type) where
  /-- The worlds on which the command may be issued. -/
  pre : S.Cmd → V → Prop
  /-- What may be answered, and the world after it. -/
  post : Handler S V

namespace Prog

variable {S : Sig} {ε α β V W : Type} {K : Contract S V}

/-- The postcondition of an outcome: `Q` on returned values, `R` on errors. -/
def outcome (Q : α → V → Prop) (R : ε → V → Prop) : Except ε α → V → Prop
  | .ok a => Q a
  | .error e => R e

@[simp] theorem outcome_ok (Q : α → V → Prop) (R : ε → V → Prop) (a : α) :
    outcome Q R (.ok a) = Q a := rfl

@[simp] theorem outcome_error (Q : α → V → Prop) (R : ε → V → Prop) (e : ε) :
    outcome Q R (.error e) = R e := rfl

/-- The weakest precondition of a program for the postcondition `Q`. -/
def wp (K : Contract S V) : Prog S ε α → (Except ε α → V → Prop) → V → Prop
  | ret a, Q, v => Q (.ok a) v
  | fail e, Q, v => Q (.error e) v
  | call c k, Q, v => K.pre c v ∧ ∀ r v', K.post c v r v' → (k r).wp K Q v'

variable {Q Q' : Except ε α → V → Prop} {v : V}

@[simp] theorem wp_ret (a : α) : (ret a : Prog S ε α).wp K Q v ↔ Q (.ok a) v := Iff.rfl

@[simp] theorem wp_fail (e : ε) : (fail e : Prog S ε α).wp K Q v ↔ Q (.error e) v := Iff.rfl

@[simp] theorem wp_call (c : S.Cmd) (k : S.Resp c → Prog S ε α) :
    (call c k).wp K Q v ↔ K.pre c v ∧ ∀ r v', K.post c v r v' → (k r).wp K Q v' := Iff.rfl

@[simp] theorem wp_pure (a : α) : (pure a : Prog S ε α).wp K Q v ↔ Q (.ok a) v := Iff.rfl

@[simp] theorem wp_throw (e : ε) : (throw e : Prog S ε α).wp K Q v ↔ Q (.error e) v := Iff.rfl

@[simp] theorem wp_perform (c : S.Cmd) {Q : Except ε (S.Resp c) → V → Prop} :
    (perform c : Prog S ε (S.Resp c)).wp K Q v ↔
      K.pre c v ∧ ∀ r v', K.post c v r v' → Q (.ok r) v' := Iff.rfl

@[simp] theorem wp_result (x : Except ε α) :
    (result x : Prog S ε α).wp K Q v ↔ Q x v := by
  cases x <;> rfl

theorem wp_bind' (p : Prog S ε α) (f : α → Prog S ε β) {Q : Except ε β → V → Prop} {v : V} :
    (p.bind f).wp K Q v ↔
      p.wp K (outcome (fun a => (f a).wp K Q) fun e => Q (.error e)) v := by
  induction p generalizing v with
  | ret a => rfl
  | fail e => rfl
  | call c k ih => exact and_congr_right' (forall₃_congr fun r v' _ => ih r)

@[simp] theorem wp_bind (p : Prog S ε α) (f : α → Prog S ε β) {Q : Except ε β → V → Prop} {v : V} :
    (p >>= f).wp K Q v ↔
      p.wp K (outcome (fun a => (f a).wp K Q) fun e => Q (.error e)) v :=
  wp_bind' p f

@[simp] theorem wp_rescue (p : Prog S ε α) (h : ε → Prog S ε α) :
    (p.rescue h).wp K Q v ↔
      p.wp K (outcome (fun a => Q (.ok a)) fun e => (h e).wp K Q) v := by
  induction p generalizing v with
  | ret a => rfl
  | fail e => rfl
  | call c k ih => exact and_congr_right' (forall₃_congr fun r v' _ => ih r)

@[simp] theorem wp_tryCatch (p : Prog S ε α) (h : ε → Prog S ε α) :
    (tryCatch p h).wp K Q v ↔
      p.wp K (outcome (fun a => Q (.ok a)) fun e => (h e).wp K Q) v :=
  wp_rescue p h

@[simp] theorem wp_ensuring (p : Prog S ε α) (q : Prog S ε Unit) :
    (p.ensuring q).wp K Q v ↔
      p.wp K (fun x => q.wp K (outcome (fun _ => Q x) fun e => Q (.error e))) v := by
  induction p generalizing v with
  | ret a => exact wp_bind' q fun _ => ret a
  | fail e => exact wp_bind' q fun _ => fail e
  | call c k ih => exact and_congr_right' (forall₃_congr fun r v' _ => ih r)

@[simp] theorem wp_map (f : α → β) (p : Prog S ε α) {Q : Except ε β → V → Prop} :
    (f <$> p).wp K Q v ↔ p.wp K (outcome (fun a => Q (.ok (f a))) fun e => Q (.error e)) v :=
  wp_bind' p fun a => ret (f a)

@[simp] theorem wp_ite (c : Prop) [Decidable c] (p q : Prog S ε α) :
    (if c then p else q).wp K Q v ↔ (c → p.wp K Q v) ∧ (¬c → q.wp K Q v) := by
  split <;> simp_all

/-- A weakest precondition for a stronger postcondition. -/
theorem wp.imp {p : Prog S ε α} (hp : p.wp K Q v) (h : ∀ x v', Q x v' → Q' x v') :
    p.wp K Q' v := by
  induction p generalizing v with
  | ret a => exact h _ _ hp
  | fail e => exact h _ _ hp
  | call c k ih => exact ⟨hp.1, fun r v' hr => ih r (hp.2 r v' hr)⟩

/-- A contract that allows every command grants every postcondition that always holds. -/
theorem wp_of_forall (hK : ∀ c v, K.pre c v) (hQ : ∀ x v, Q x v) (p : Prog S ε α) :
    p.wp K Q v := by
  induction p generalizing v with
  | ret a => exact hQ _ _
  | fail e => exact hQ _ _
  | call c k ih => exact ⟨hK c v, fun r v' _ => ih r⟩

/-- Two postconditions at once. -/
theorem wp.and {p : Prog S ε α} (hp : p.wp K Q v) (hp' : p.wp K Q' v) :
    p.wp K (fun x v' => Q x v' ∧ Q' x v') v := by
  induction p generalizing v with
  | ret a => exact ⟨hp, hp'⟩
  | fail e => exact ⟨hp, hp'⟩
  | call c k ih => exact ⟨hp.1, fun r v' hr => ih r (hp.2 r v' hr) (hp'.2 r v' hr)⟩

/-- Sequencing, by a postcondition of the first program. -/
theorem wp.bind {p : Prog S ε α} {f : α → Prog S ε β} {Q' : Except ε β → V → Prop}
    (hp : p.wp K Q v) (hf : ∀ a v', Q (.ok a) v' → (f a).wp K Q' v')
    (he : ∀ e v', Q (.error e) v' → Q' (.error e) v') : (p >>= f).wp K Q' v :=
  (wp_bind p f).2 (hp.imp fun x v' hx => match x with
    | .ok a => hf a v' hx
    | .error e => he e v' hx)

/-! ## Executions -/

variable {h : Handler S W} {R : Trace S → W → V → Prop}

/-- The contract follows the handler along `R`: what is answered on `w` is granted on `v`. -/
def Follows (h : Handler S W) (K : Contract S V) (R : Trace S → W → V → Prop) : Prop :=
  ∀ t w v c r w', R t w v → K.pre c v → h c w r w' →
    ∃ v', K.post c v r v' ∧ R (t ++ [⟨c, r⟩]) w' v'

/-- An execution followed by a contract meets the postcondition. -/
theorem Exec.simulate {p : Prog S ε α} {w w' : W} {t t₀ : Trace S} {x : Except ε α}
    (hf : Follows h K R) (hx : Exec h p w t x w') (hR : R t₀ w v) (hp : p.wp K Q v) :
    ∃ v', Q x v' ∧ R (t₀ ++ t) w' v' := by
  induction hx generalizing v t₀ with
  | ret => exact ⟨v, hp, by simpa using hR⟩
  | fail => exact ⟨v, hp, by simpa using hR⟩
  | call hr _ ih =>
    obtain ⟨v', hv', hR'⟩ := hf _ _ _ _ _ _ hR hp.1 hr
    simpa using ih hR' (hp.2 _ _ hv')

/-- Every command of an execution followed by a contract is one the contract allows. -/
theorem Exec.allowed {p : Prog S ε α} {w w' : W} {t t₀ t₁ t₂ : Trace S} {x : Except ε α}
    {e : Event S} (hf : Follows h K R) (hx : Exec h p w t x w') (hR : R t₀ w v)
    (hp : p.wp K Q v) (ht : t = t₁ ++ e :: t₂) :
    ∃ w₁ v₁, R (t₀ ++ t₁) w₁ v₁ ∧ K.pre e.cmd v₁ := by
  induction hx generalizing v t₀ t₁ with
  | ret => simp at ht
  | fail => simp at ht
  | @call c k w w₁ w₂ r t x hr _ ih =>
    cases t₁ with
    | nil =>
      obtain ⟨rfl, -⟩ := List.cons.inj ht
      exact ⟨w, v, by simpa using hR, hp.1⟩
    | cons e₁ t₁ =>
      obtain ⟨rfl, rfl⟩ := List.cons.inj ht
      obtain ⟨v', hv', hR'⟩ := hf _ _ _ _ _ _ hR hp.1 hr
      simpa using ih hR' (hp.2 _ _ hv') rfl

/-! ## The commands a program may issue -/

/-- Every command the program may issue, on any path, satisfies `P`. -/
def Calls (P : S.Cmd → Prop) : Prog S ε α → Prop
  | ret _ => True
  | fail _ => True
  | call c k => P c ∧ ∀ r, (k r).Calls P

variable {P P' : S.Cmd → Prop}

@[simp] theorem calls_ret (a : α) : (ret a : Prog S ε α).Calls P := trivial

@[simp] theorem calls_fail (e : ε) : (fail e : Prog S ε α).Calls P := trivial

@[simp] theorem calls_pure (a : α) : (pure a : Prog S ε α).Calls P := trivial

@[simp] theorem calls_throw (e : ε) : (throw e : Prog S ε α).Calls P := trivial

@[simp] theorem calls_perform (c : S.Cmd) :
    (perform c : Prog S ε (S.Resp c)).Calls P ↔ P c :=
  ⟨fun h => h.1, fun h => ⟨h, fun _ => trivial⟩⟩

@[simp] theorem calls_result (x : Except ε α) : (result x : Prog S ε α).Calls P := by
  cases x <;> trivial

theorem Calls.bind' {p : Prog S ε α} {f : α → Prog S ε β} (hp : p.Calls P)
    (hf : ∀ a, (f a).Calls P) : (p.bind f).Calls P := by
  induction p with
  | ret a => exact hf a
  | fail e => trivial
  | call c k ih => exact ⟨hp.1, fun r => ih r (hp.2 r)⟩

theorem Calls.bind {p : Prog S ε α} {f : α → Prog S ε β} (hp : p.Calls P)
    (hf : ∀ a, (f a).Calls P) : (p >>= f).Calls P := hp.bind' hf

theorem Calls.map (f : α → β) {p : Prog S ε α} (hp : p.Calls P) : (f <$> p).Calls P :=
  hp.bind' fun _ => trivial

theorem Calls.rescue {p : Prog S ε α} {h : ε → Prog S ε α} (hp : p.Calls P)
    (hh : ∀ e, (h e).Calls P) : (p.rescue h).Calls P := by
  induction p with
  | ret a => trivial
  | fail e => exact hh e
  | call c k ih => exact ⟨hp.1, fun r => ih r (hp.2 r)⟩

theorem Calls.tryCatch {p : Prog S ε α} {h : ε → Prog S ε α} (hp : p.Calls P)
    (hh : ∀ e, (h e).Calls P) : (MonadExcept.tryCatch p h).Calls P := hp.rescue hh

theorem Calls.ensuring {p : Prog S ε α} {q : Prog S ε Unit} (hp : p.Calls P) (hq : q.Calls P) :
    (p.ensuring q).Calls P := by
  induction p with
  | ret a => exact hq.bind' fun _ => trivial
  | fail e => exact hq.bind' fun _ => trivial
  | call c k ih => exact ⟨hp.1, fun r => ih r (hp.2 r)⟩

theorem Calls.ite {c : Prop} [Decidable c] {p q : Prog S ε α} (hp : c → p.Calls P)
    (hq : ¬c → q.Calls P) : (if c then p else q).Calls P := by
  split
  · exact hp ‹_›
  · exact hq ‹_›

theorem Calls.imp {p : Prog S ε α} (hp : p.Calls P) (h : ∀ c, P c → P' c) : p.Calls P' := by
  induction p with
  | ret a => trivial
  | fail e => trivial
  | call c k ih => exact ⟨h c hp.1, fun r => ih r (hp.2 r)⟩

/-- The commands a program may issue, by its weakest precondition. -/
theorem calls_iff {p : Prog S ε α} :
    p.Calls P ↔ p.wp ⟨fun c _ => P c, fun _ _ _ _ => True⟩ (fun _ _ => True) () := by
  induction p with
  | ret a => exact Iff.rfl
  | fail e => exact Iff.rfl
  | call c k ih =>
    exact and_congr_right' ⟨fun h r _ _ => (ih r).1 (h r), fun h r => (ih r).2 (h r () trivial)⟩

/-- An invariant kept by the commands of a program is kept by the program. -/
theorem Calls.wp {p : Prog S ε α} {I : V → Prop} (hp : p.Calls P)
    (hI : ∀ c v, P c → I v → K.pre c v ∧ ∀ r v', K.post c v r v' → I v') (hv : I v) :
    p.wp K (fun _ => I) v := by
  induction p generalizing v with
  | ret a => exact hv
  | fail e => exact hv
  | call c k ih =>
    obtain ⟨h₁, h₂⟩ := hI c v hp.1 hv
    exact ⟨h₁, fun r v' hr => ih r (hp.2 r) (h₂ r v' hr)⟩

/-- The commands of an execution are among those of its program. -/
theorem Exec.mem_calls {p : Prog S ε α} {w w' : W} {t : Trace S} {x : Except ε α}
    (hx : Exec h p w t x w') (hp : p.Calls P) : ∀ e ∈ t, P e.cmd := by
  induction hx with
  | ret => simp
  | fail => simp
  | call _ _ ih =>
    intro e he
    rcases List.mem_cons.1 he with rfl | he
    · exact hp.1
    · exact ih (hp.2 _) e he

end Prog

end NtierLab
