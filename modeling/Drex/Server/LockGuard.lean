import Drex.Proto.Messages
import Mathlib.Data.Finset.Insert
import Mathlib.Data.Finset.Erase

/-
  `WorkspaceLockGuard` and the table of locked subdirectories.

  The functions below are the critical sections of the
  guard: each reads and writes the table and the guard's own
  fields under one lock.

  Key definitions include:
    * `WorkspaceLockGuard`
    * `WorkspaceLockGuard.acquire`
    * `WorkspaceLockGuard.registerCleanupTargets`
    * `WorkspaceLockGuard.release`

  Key theorems include:
    * `WorkspaceLockGuard.acquire_cases`
    * `WorkspaceLockGuard.release_cases`
-/

------------------------------------------------------------
-- The Guard
------------------------------------------------------------

namespace Drex

/- The private fields, less the workspace root. -/
structure WorkspaceLockGuard where
  key : Str
  workspaceSubdir : Str
  outputSubdir : Str
  locked : Bool
  cleanupRegistered : Bool
deriving DecidableEq

namespace WorkspaceLockGuard

/- A newly constructed guard. -/
def init : WorkspaceLockGuard :=
  { key := []
    workspaceSubdir := []
    outputSubdir := []
    locked := false
    cleanupRegistered := false }

/- `Acquire(subdir_key)` against `g_locked_subdirs`. -/
def acquire
    (g : WorkspaceLockGuard)
    (lockedSubdirs : Finset Str)
    (subdirKey : Str) :
    Status × Finset Str × WorkspaceLockGuard :=
  if g.locked then
    if subdirKey = g.key then
      (Status.success, lockedSubdirs, g)
    else
      (Status.failedPrecondition
          "Workspace lock already acquired.",
        lockedSubdirs, g)
  else if subdirKey = [] then
    (Status.invalidArgument
        "workspace_subdir must not be empty.",
      lockedSubdirs, g)
  else if subdirKey ∈ lockedSubdirs then
    (Status.resourceExhausted
        ("workspace_subdir is currently occupied, " ++
          "choose a unique subdirectory."),
      lockedSubdirs, g)
  else
    (Status.success, insert subdirKey lockedSubdirs,
      { g with key := subdirKey, locked := true })

/- `RegisterCleanupTargets(workspace_subdir, output_subdir)`. -/
def registerCleanupTargets
    (g : WorkspaceLockGuard)
    (workspaceSubdir outputSubdir : Str) :
    WorkspaceLockGuard :=
  { g with
    workspaceSubdir := workspaceSubdir
    outputSubdir := outputSubdir
    cleanupRegistered := true }

/- `cleanup_registered_ = false` at the end of `Cleanup`. -/
def clearCleanup
    (g : WorkspaceLockGuard) :
    WorkspaceLockGuard :=
  { g with cleanupRegistered := false }

/- `Release()`, with the key it erased from the table. -/
def release
    (g : WorkspaceLockGuard)
    (lockedSubdirs : Finset Str) :
    Option Str × Finset Str × WorkspaceLockGuard :=
  if g.locked then
    (some g.key, lockedSubdirs.erase g.key,
      { g with key := [], locked := false })
  else
    (none, lockedSubdirs, g)

end WorkspaceLockGuard

end Drex

------------------------------------------------------------
-- What Acquire And Release Can Do
------------------------------------------------------------

namespace Drex

namespace WorkspaceLockGuard

/-
  `Acquire` succeeds on the key already held or on a free
  key, which it then holds; otherwise nothing changes.
-/
theorem acquire_cases
    (g : WorkspaceLockGuard)
    (lockedSubdirs : Finset Str)
    (subdirKey : Str) :
    ((g.acquire lockedSubdirs subdirKey).1.isOk = true ∧
        g.locked = true ∧ subdirKey = g.key ∧
        (g.acquire lockedSubdirs subdirKey).2 =
          (lockedSubdirs, g)) ∨
      ((g.acquire lockedSubdirs subdirKey).1.isOk = true ∧
        g.locked = false ∧ subdirKey ≠ [] ∧
        subdirKey ∉ lockedSubdirs ∧
        (g.acquire lockedSubdirs subdirKey).2 =
          (insert subdirKey lockedSubdirs,
            { g with key := subdirKey, locked := true })) ∨
      ((g.acquire lockedSubdirs subdirKey).1.isOk = false ∧
        (g.acquire lockedSubdirs subdirKey).2 =
          (lockedSubdirs, g)) := by
  unfold acquire
  by_cases hLocked : g.locked = true
  · by_cases hKey : subdirKey = g.key
    · exact Or.inl (by simp [hLocked, hKey, Status.isOk,
        Status.success])
    · exact Or.inr (Or.inr (by simp [hLocked, hKey,
        Status.isOk, Status.failedPrecondition]))
  · by_cases hEmpty : subdirKey = []
    · exact Or.inr (Or.inr (by simp [hLocked, hEmpty,
        Status.isOk, Status.invalidArgument]))
    · by_cases hMem : subdirKey ∈ lockedSubdirs
      · exact Or.inr (Or.inr (by simp [hLocked, hEmpty,
          hMem, Status.isOk, Status.resourceExhausted]))
      · exact Or.inr (Or.inl (by simp [hLocked, hEmpty,
          hMem, Status.isOk, Status.success]))

/- `Release` erases the key it holds, if any. -/
theorem release_cases
    (g : WorkspaceLockGuard)
    (lockedSubdirs : Finset Str) :
    (g.locked = true ∧
        g.release lockedSubdirs =
          (some g.key, lockedSubdirs.erase g.key,
            { g with key := [], locked := false })) ∨
      (g.locked = false ∧
        g.release lockedSubdirs =
          (none, lockedSubdirs, g)) := by
  unfold release
  cases hLocked : g.locked with
  | true => exact Or.inl ⟨rfl, by simp⟩
  | false => exact Or.inr ⟨rfl, by simp⟩

end WorkspaceLockGuard

end Drex
