import NtierLab.Prog.System
import NtierLab.ControlPlane.App
import NtierLab.ControlPlane.OpenWorld

/-!
# The control plane as a system

The operations of the control plane, any number at a time, on one registry and one
set of tenants in flight (`controlPlane`); the store's transactions and the
lock-protected sections of the API are exact, and everything else is open.
-/

namespace NtierLab

open Prog

/-- The registry, and the tenants in flight. -/
structure Server where
  registry : Registry
  inflight : Finset TenantId

/-- The registry and the tenants in flight are exact, and everything else is open. -/
def serverWorld : Handler cpSig Server
  | .reg c, s, r, s' => openWorld (.reg c) s.registry r s'.registry ∧ s'.inflight = s.inflight
  | .app (.inFlight t), s, r, s' => r = decide (t ∈ s.inflight) ∧ s' = s
  | .app (.enter t _), s, r, s' =>
    r = decide (t ∉ s.inflight) ∧ s' = { s with inflight := insert t s.inflight }
  | .app (.discard t), s, _, s' => s' = { s with inflight := s.inflight.erase t }
  | _, s, _, s' => s' = s

/-- The control plane. -/
def controlPlane : System cpSig Exn Op Empty Server where
  prog := Op.prog
  step := serverWorld
  env _ _ _ := False
  fork e := ((jobStarted e).map fun q => .job q.1 q.2).toList

/-- The API alone: requests and their jobs. -/
def api : System cpSig Exn Request Empty Server where
  prog := Request.prog
  step := serverWorld
  env _ _ _ := False
  fork e := ((jobStarted e).map fun q => .job q.1 q.2).toList

theorem api_fork {e : Event cpSig} {i : Request} :
    i ∈ api.fork e ↔ ∃ t fn, e = ⟨.app (.enter t fn), true⟩ ∧ i = .job t fn := by
  simp only [api, Option.mem_toList, Option.map_eq_some_iff, Prod.exists]
  constructor
  · rintro ⟨t, fn, h, rfl⟩
    exact ⟨t, fn, jobStarted_eq h, rfl⟩
  · rintro ⟨t, fn, rfl, rfl⟩
    exact ⟨t, fn, rfl, rfl⟩

/-- The answers of the server, given those to all but the store and the API, at the time `now`. -/
def serverAnswer (now : String) (a : (c : Cmd) → cpSig.Resp c) (c : Cmd) (s : Server) :
    cpSig.Resp c × Server :=
  match c with
  | .reg c => ((c.run now s.registry).1, { s with registry := (c.run now s.registry).2 })
  | .app (.inFlight t) => (decide (t ∈ s.inflight), s)
  | .app (.enter t _) => (decide (t ∉ s.inflight), { s with inflight := insert t s.inflight })
  | .app (.discard t) => ((), { s with inflight := s.inflight.erase t })
  | c => (a c, s)

theorem serverAnswer_step (now : String) (a : (c : Cmd) → cpSig.Resp c) (c : Cmd) (s : Server) :
    serverWorld c s (serverAnswer now a c s).1 (serverAnswer now a c s).2 := by
  cases c with
  | reg c => exact ⟨⟨now, rfl⟩, rfl⟩
  | app c => cases c <;> first | exact ⟨rfl, rfl⟩ | rfl
  | _ => rfl

end NtierLab
