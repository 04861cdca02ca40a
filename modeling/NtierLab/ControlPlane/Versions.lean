import NtierLab.ControlPlane.Onboard

/-!
# Versions

The optimistic concurrency of the store. A client reads a row at a version, other
clients write (`Write`), and the client's `upsert` expects the version it read.

* `version_after`: as long as no write sets the version of the row back, every write of
  it counts the version up;
* `upsert_detects_iff`: an `upsert` that succeeds has missed no write exactly when none
  set the version back meanwhile, or the row is there at another version.
-/

namespace NtierLab

/-- A transaction that may change the registry. -/
inductive Write
  | upsert (now : String) (t : TenantId) (expectedVersion : Option ℤ) (f : Fields)
  | delete (t : TenantId)

namespace Write

/-- The registry after a transaction. -/
def run : Write → Registry → Registry
  | upsert now t v f, s => (s.upsert now t v f).2
  | delete t, s => (s.delete t).2

/-- The registry after a history of transactions. -/
def after (ws : List Write) (s : Registry) : Registry := ws.foldl (fun s w => w.run s) s

@[simp] theorem after_nil (s : Registry) : after [] s = s := rfl

@[simp] theorem after_cons (w : Write) (ws : List Write) (s : Registry) :
    after (w :: ws) s = after ws (w.run s) := rfl

/-- The transaction commits a change of the row of the tenant. -/
def Commits (t : TenantId) (s : Registry) : Write → Prop
  | upsert now u v f => u = t ∧ ∃ row, (s.upsert now u v f).1 = .ok row
  | delete u => u = t ∧ (s.get t).isSome

/-- The transaction commits a change of the row of the tenant that sets its version back: it
    deletes the row, or names a version below the row's own. -/
def Rewinds (t : TenantId) (s : Registry) (w : Write) : Prop :=
  w.Commits t s ∧
    match w with
    | upsert _ _ _ f => ∃ row n, s.get t = some row ∧ f.version = some (some n) ∧ n < row.version
    | delete _ => True

/-- The version of the row of the tenant is set back in a history. -/
def Rewound (t : TenantId) : List Write → Registry → Prop
  | [], _ => False
  | w :: ws, s => w.Rewinds t s ∨ Rewound t ws (w.run s)

/-- A change of the row of the tenant is committed in a history. -/
def Committed (t : TenantId) : List Write → Registry → Prop
  | [], _ => False
  | w :: ws, s => w.Commits t s ∨ Committed t ws (w.run s)

variable {t u : TenantId} {s : Registry} {row : Row} {w : Write} {ws : List Write}

theorem Rewound.committed (h : Rewound t ws s) : Committed t ws s := by
  induction ws generalizing s with
  | nil => exact h
  | cons w ws ih => exact h.imp And.left ih

/-- A transaction that does not set the version of the row back keeps the row, and counts its
    version up if it commits. -/
theorem run_version (hrow : s.get t = some row) (hback : ¬w.Rewinds t s) :
    ∃ row', (w.run s).get t = some row' ∧ row.version ≤ row'.version ∧
      (w.Commits t s → row.version < row'.version) := by
  cases w with
  | delete u =>
    -- A deletion of another row.
    have hu : u ≠ t := fun h => hback ⟨⟨h, by simp [hrow]⟩, trivial⟩
    exact ⟨row, by rw [run, Registry.delete_get_ne hu, hrow], le_rfl, fun h => absurd h.1 hu⟩
  | upsert now u v f =>
    by_cases hu : u = t
    · subst hu
      cases hup : (s.upsert now u v f).1 with
      | error e =>
        refine ⟨row, by rw [run, Registry.upsert_error hup, hrow], le_rfl, ?_⟩
        rintro ⟨-, row', hrow'⟩
        cases hup.symm.trans hrow'
      | ok row' =>
        obtain ⟨hwritten, hget⟩ := Registry.upsert_ok hup
        obtain ⟨n, hn, hversion⟩ := Registry.upsertRow_version hrow hwritten
        -- A version named is not below the row's.
        have hle : row.version ≤ n := by
          by_contra hlt
          refine hback ⟨⟨rfl, row', hup⟩, row, n, hrow, ?_, not_le.1 hlt⟩
          unfold Row.updateVersion at hn
          split at hn
          · cases hn
            exact absurd le_rfl hlt
          · next hf =>
            cases hn
            exact hf
          · cases hn
        exact ⟨row', hget, by omega, fun _ => by omega⟩
    · exact ⟨row, by rw [run, Registry.upsert_get_ne hu, hrow], le_rfl, fun h => absurd h.1 hu⟩

/-- A history that does not set the version of the row back keeps the row, and counts its
    version up if it commits a change of it. -/
theorem version_after (hrow : s.get t = some row) (hback : ¬Rewound t ws s) :
    ∃ row', (after ws s).get t = some row' ∧ row.version ≤ row'.version ∧
      (Committed t ws s → row.version < row'.version) := by
  induction ws generalizing s row with
  | nil => exact ⟨row, hrow, le_rfl, False.elim⟩
  | cons w ws ih =>
    obtain ⟨row₁, hrow₁, hle₁, hlt₁⟩ := run_version hrow fun h => hback (.inl h)
    obtain ⟨row₂, hrow₂, hle₂, hlt₂⟩ := ih hrow₁ fun h => hback (.inr h)
    refine ⟨row₂, hrow₂, hle₁.trans hle₂, fun h => ?_⟩
    rcases h with h | h
    · exact (hlt₁ h).trans_le hle₂
    · exact hle₁.trans_lt (hlt₂ h)

end Write

namespace Registry

variable {s : Registry} {t : TenantId} {f : Fields} {now : String}

/-- The desired status or the version named by an `upsert` is refused. -/
def Refuses (s : Registry) (t : TenantId) (f : Fields) : Prop :=
  match s.get t with
  | some row => (∃ e, row.updateDesired f = .error e) ∨ ∃ e, row.updateVersion f = .error e
  | none => ∃ e, Row.insertDesired f = .error e

/-- An `upsert` that expects a version succeeds, unless what it names is refused, or the row is
    there at another version. -/
theorem upsert_expected {v : ℤ} : (∃ row, (s.upsert now t (some v) f).1 = .ok row) ↔
    ¬s.Refuses t f ∧ ∀ row, s.get t = some row → row.version = v := by
  have hok : (∃ row, (s.upsert now t (some v) f).1 = .ok row) ↔
      ∃ row, s.upsertRow now t (some v) f = .ok row := by
    unfold upsert
    cases s.upsertRow now t (some v) f <;> simp
  rw [hok]
  unfold upsertRow Refuses
  cases s.get t with
  | none => cases Row.insertDesired f <;> simp [Except.map]
  | some row =>
    by_cases hv : v = row.version
    · cases hn : row.updateVersion f <;> cases hd : row.updateDesired f <;>
        simp [hv, hn, hd, Except.map, Except.bind]
    · simp [hv, eq_comm]

end Registry

open Write in
/-- A client that read the row at a version misses no write of it before its `upsert`, if that
    succeeds, exactly when the version was not set back meanwhile, or the row is there at another
    version, or what the `upsert` names is refused. -/
theorem upsert_detects_iff {t : TenantId} {s : Registry} {row : Row} (ws : List Write)
    (now : String) (f : Fields) (hrow : s.get t = some row) :
    ((∃ row', ((after ws s).upsert now t (some row.version) f).1 = .ok row') →
        ¬Committed t ws s) ↔
      (¬Rewound t ws s ∨
        (∃ row', (after ws s).get t = some row' ∧ row'.version ≠ row.version) ∨
        (after ws s).Refuses t f) := by
  rw [Registry.upsert_expected]
  constructor
  · intro h
    by_contra hnot
    obtain ⟨hback, hversion, hrefuses⟩ : Rewound t ws s ∧
        (∀ row', (after ws s).get t = some row' → row'.version = row.version) ∧
        ¬(after ws s).Refuses t f := by
      simpa only [not_or, not_not, not_exists, not_and] using hnot
    exact h ⟨hrefuses, hversion⟩ hback.committed
  · rintro (hback | ⟨row', hrow', hne⟩ | hrefuses) ⟨hok, hversion⟩ hcom
    · -- As it was never set back, the version would have been counted up.
      obtain ⟨row', hrow', -, hlt⟩ := version_after hrow hback
      exact absurd (hversion row' hrow') (hlt hcom).ne'
    · exact hne (hversion row' hrow')
    · exact hok hrefuses

/-- A registry with the tenant `a`, at its first version. -/
def firstVersion : Registry := (Registry.upsert ∅ "now" .a none {}).2

theorem firstVersion_get : firstVersion.get .a = some (Row.insert {} .active "now") :=
  Registry.get_insert_self

/-- Another client suspends the tenant, in two writes. -/
def suspends : List Write :=
  [.upsert "later" .a none { desiredStatus := Fields.desire .suspended },
    .upsert "later" .a (some 2) { status := some .suspended }]

/-- Another client suspends it too, and sets the version to the first one again. -/
def suspendsBack : List Write :=
  suspends ++ [.upsert "later" .a (some 3) { version := some (some 0) }]

/-- The client that read the first version notices the one, not the other. -/
theorem upsert_detects_first :
    (¬∃ row', ((Write.after suspends firstVersion).upsert "now" .a (some 1) {}).1 = .ok row') ∧
      ¬((∃ row', ((Write.after suspendsBack firstVersion).upsert "now" .a (some 1) {}).1 =
          .ok row') → ¬Write.Committed .a suspendsBack firstVersion) := by
  have hdetects := upsert_detects_iff suspends "now" {} firstVersion_get
  have hmisses := upsert_detects_iff suspendsBack "now" {} firstVersion_get
  have hrow : ((Write.after suspendsBack firstVersion).get .a).map Row.version = some 1 := rfl
  obtain ⟨row, hget, hversion⟩ := Option.map_eq_some_iff.1 hrow
  refine ⟨fun hok => ?_, fun h => ?_⟩
  · exact hdetects.2 (.inr (.inl ⟨_, rfl, by decide⟩)) hok (.inl ⟨rfl, _, rfl⟩)
  · rcases hmisses.1 h with hback | ⟨row', hget', hne⟩ | hrefuses
    · exact hback (.inr (.inr (.inl ⟨⟨rfl, _, rfl⟩, _, 0, rfl, rfl, by decide⟩)))
    · obtain rfl := Option.some.inj (hget.symm.trans hget')
      exact hne hversion
    · rw [Registry.Refuses, hget] at hrefuses
      rcases hrefuses with ⟨e, he⟩ | ⟨e, he⟩ <;> cases he

/-- A client does not notice that the row it read was deleted: its `upsert`, expecting the
    version it read, inserts the row again. -/
theorem deletion_undetected :
    ¬∀ (t : TenantId) (s : Registry) (row : Row) (ws : List Write) (now : String) (f : Fields),
      s.get t = some row →
      (∃ row', ((Write.after ws s).upsert now t (some row.version) f).1 = .ok row') →
      ¬Write.Committed t ws s := by
  intro h
  refine h .a firstVersion _ [.delete .a] "now" {} firstVersion_get ?_ (.inl ⟨rfl, rfl⟩)
  rw [Registry.upsert_expected]
  have hget : (Write.after [.delete .a] firstVersion).get .a = none := Registry.delete_get_self
  refine ⟨?_, fun row hrow => ?_⟩
  · unfold Registry.Refuses
    rw [hget]
    rintro ⟨e, he⟩
    cases he
  · cases hget.symm.trans hrow

end NtierLab
