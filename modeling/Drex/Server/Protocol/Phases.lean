import Drex.Server.Sessions

/-
  The phases of a submission as its guard sees them, and the
  precondition of every operation in a phase.

  Key definitions include:
    * `SessionView.Unheld`
    * `SessionView.Held`
    * `SessionView.Sound`
    * `SessionView.Permits`
    * `sessionPre`

  Key theorems include:
    * `SessionView.Held.permits_file`
    * `SessionView.Held.permits_open`
-/

------------------------------------------------------------
-- Phases Of A Submission
------------------------------------------------------------

namespace Drex

namespace SessionView

/- The guard holds no key and has no targets. -/
structure Unheld (g : SessionView) : Prop where
  guard : g.guard = .init
  running : g.running = false
  removed : g.removed = []
  released : g.released = false

/- The guard holds a key and has not begun to clean up. -/
structure Held
    (root : WorkspaceRoot)
    (g : SessionView)
    (key output : Str) : Prop where
  guard : g.guard = ⟨key, key, output, true, true⟩
  removed : g.removed = []
  refused : g.refused = false
  released : g.released = false
  nonempty : key ≠ []
  keyBelow : (subdirPath root key).Below root
  outputBelow : (subdirPath root output).Below root

/- What holds of a view at every operation. -/
structure Sound (g : SessionView) : Prop where
  refused :
    g.refused = true →
      g.guard.locked = false ∧ g.removed = [] ∧
        g.released = false
  running :
    g.running = true →
      g.guard.locked = true ∧ g.removed = []

/- A guard without a key has nothing to answer for. -/
theorem Unheld.sound
    {g : SessionView}
    (h : g.Unheld) :
    g.Sound where
  refused := fun _ =>
    ⟨by rw [h.guard]; rfl, h.removed, h.released⟩
  running := fun hRunning =>
    absurd hRunning (by simp [h.running])

/- Who holds a key holds the lock. -/
theorem Held.locked
    {root : WorkspaceRoot}
    {g : SessionView}
    {key output : Str}
    (h : g.Held root key output) :
    g.guard.locked = true := by
  rw [h.guard]

/- A holder was not refused and has removed nothing. -/
theorem Held.sound
    {root : WorkspaceRoot}
    {g : SessionView}
    {key output : Str}
    (h : g.Held root key output) :
    g.Sound where
  refused := fun hRefused =>
    absurd hRefused (by simp [h.refused])
  running := fun _ => ⟨h.locked, h.removed⟩

/- A submission begins without a key. -/
theorem init_unheld : SessionView.init.Unheld :=
  ⟨rfl, rfl, rfl, rfl⟩

/- A refused key leaves the guard as it was. -/
theorem after_refused
    {g : SessionView}
    {subdirKey : Str}
    {status : Status}
    (h : status.isOk = false) :
    g.after (.acquire subdirKey) status =
      { g with refused := true } := by
  simp [after, h]

/- An acquired key is the guard's, and locked. -/
theorem after_acquired
    {g : SessionView}
    {subdirKey : Str}
    {status : Status}
    (h : status.isOk = true) :
    g.after (.acquire subdirKey) status =
      { g with
        guard :=
          { g.guard with
            key := subdirKey
            locked := true } } := by
  simp [after, h]

end SessionView

end Drex

------------------------------------------------------------
-- Preconditions
------------------------------------------------------------

namespace Drex

/-
  The condition of one operation of a submission.  `R` says
  that a chunk may be aimed at the workspace root itself, and
  `U` where files may be opened.
-/
def SessionView.Permits
    (root : WorkspaceRoot)
    (R : Prop)
    (U : Path → Prop)
    (g : SessionView) :
    ServerOp → Prop
| .createDirectories p =>
    g.guard.locked = true ∧ g.removed = [] ∧
      Loc.Overlaps p.loc (subdirLoc root g.guard.key) ∧
        (Contained root p ∨
          (R ∧ p = root.path.parentPath))
| .openTrunc p =>
    g.guard.locked = true ∧ g.removed = [] ∧
      subdirLoc root g.guard.key <+: p.loc ∧
        Contained root p ∧ U p
| .write p _ _ =>
    g.guard.locked = true ∧ g.removed = [] ∧
      subdirLoc root g.guard.key <+: p.loc
| .close p =>
    g.guard.locked = true ∧ g.removed = [] ∧
      subdirLoc root g.guard.key <+: p.loc
| .removeAll p =>
    g.guard.locked = true ∧
      g.guard.cleanupRegistered = true ∧
        g.running = false ∧ Contained root p ∧
          (p = subdirPath root g.guard.key ∨
            p = subdirPath root g.guard.outputSubdir)
| .acquire subdirKey =>
    g.Unheld ∧ g.refused = false ∧
      (subdirPath root subdirKey).Below root
| .registerCleanupTargets workspaceSubdir _ =>
    g.guard.locked = true ∧ workspaceSubdir = g.guard.key
| .clearCleanup => g.running = false
| .release =>
    g.running = false ∧
      (g.guard.locked = true →
        subdirPath root g.guard.key ∈ g.removed)
| .forkpty => g.guard.locked = true ∧ g.removed = []
| .fork => g.guard.locked = true ∧ g.removed = []
| _ => True

/- The precondition of an operation of a submission. -/
def sessionPre
    (root : WorkspaceRoot)
    (R : Prop)
    (U : Path → Prop)
    (g : SessionView)
    (op : ServerOp) : Prop :=
  g.Sound ∧ g.Permits root R U op

namespace SessionView

variable {root : WorkspaceRoot} {R : Prop}
variable {U : Path → Prop}
variable {g : SessionView} {key output : Str}

/- The holder of a key may write in the key's tree. -/
theorem Held.permits_file
    (h : g.Held root key output)
    {p : Path}
    (hLoc : subdirLoc root key <+: p.loc) :
    g.guard.locked = true ∧ g.removed = [] ∧
      subdirLoc root g.guard.key <+: p.loc := by
  rw [h.guard]
  exact ⟨rfl, h.removed, hLoc⟩

/- The holder may open a file in the key's tree. -/
theorem Held.permits_open
    (h : g.Held root key output)
    {p : Path}
    (hBelow : p.Below root)
    (hLoc : subdirLoc root key <+: p.loc)
    (hOpens : U p) :
    g.Permits root R U (.openTrunc p) := by
  rcases h.permits_file hLoc with
    ⟨hLocked, hRemoved, hPrefix⟩
  exact
    ⟨hLocked, hRemoved, hPrefix, hBelow.contained, hOpens⟩

end SessionView

end Drex
