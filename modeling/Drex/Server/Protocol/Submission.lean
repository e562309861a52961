import Drex.Server.Protocol.Starting
import Drex.Server.Protocol.Upload

/-
  A whole submission and an update meet their preconditions.

  Key definitions include:
    * `SessionView.Closed`
    * `GuardSettled`
    * `updatePre`

  Key theorems include:
    * `TaskExecutor.wp_execute`
    * `wp_destroyGuard`
    * `wp_finishSubmission`
    * `wp_taskSubmission`
    * `wp_updateUtilization`
-/

------------------------------------------------------------
-- Execution
------------------------------------------------------------

namespace Drex

variable {root : WorkspaceRoot} {R : Prop}
variable {U : Path → Prop}
variable {g : SessionView} {key output : Str}

/- The utilization file is a file of its directory. -/
theorem runtimeUtilizationPath_names
    (p : Path) :
    (runtimeUtilizationPath p).absolute = p.absolute ∧
      (runtimeUtilizationPath p).names =
        p.names ++ [utilizationName] ∧
      (runtimeUtilizationPath p).slash = false := by
  unfold runtimeUtilizationPath
  rw [Path.append_of_names rfl (by simp [Path.ofName])]
  exact ⟨rfl, rfl, rfl⟩

/- It lies below the root, as its directory does. -/
theorem runtimeUtilizationPath_below
    {p : Path}
    (h : p.Below root) :
    (runtimeUtilizationPath p).Below root := by
  rcases runtimeUtilizationPath_names p with
    ⟨hAbsolute, hNames, _⟩
  refine ⟨hAbsolute.trans h.absolute, ?_, ?_⟩
  · intro n hn
    rw [hNames, List.mem_append, List.mem_singleton] at hn
    rcases hn with hn | rfl
    · exact h.ordinary n hn
    · decide
  · rw [hNames]
    exact h.names.trans (List.prefix_append _ _)

/- The utilization file of a key lies in its tree. -/
theorem runtimeUtilizationPath_loc
    (hBelow : (subdirPath root key).Below root) :
    subdirLoc root key <+:
      (runtimeUtilizationPath (subdirPath root key)).loc := by
  rw [subdirLoc_eq, Path.loc_of_ordinary
    (runtimeUtilizationPath_below hBelow).ordinary,
    (runtimeUtilizationPath_names _).2.1]
  exact List.prefix_append _ _

namespace TaskExecutor

/- The executor's file lies in the tree of the held key. -/
theorem wp_writeRuntimeUtilizationFile
    (h : g.Held root key output)
    (hOpens : ∀ p, U p)
    (utilization : Int) :
    Core.Prog.wp sessionAnswers (sessionPre root R U)
      (writeRuntimeUtilizationFile
        (subdirPath root key) utilization)
      (fun _ g' => g' = g)
      g := by
  have hBelow := runtimeUtilizationPath_below h.keyBelow
  have hLoc := runtimeUtilizationPath_loc h.keyBelow
  unfold writeRuntimeUtilizationFile
  by_cases hRange : utilization < 0 ∨ 100 < utilization
  · rw [if_pos hRange]
    exact rfl
  · rw [if_neg hRange, Core.Prog.wp_bind, wp_call]
    refine
      ⟨⟨h.sound, h.permits_open hBelow hLoc (hOpens _)⟩, ?_⟩
    intro isOpen _
    cases isOpen with
    | false => exact rfl
    | true =>
        simp only [if_true]
        rw [Core.Prog.wp_bind, wp_call]
        refine
          ⟨⟨h.sound, h.permits_file hLoc⟩, fun _ _ => ?_⟩
        rw [Core.Prog.wp_bind, wp_call]
        exact
          ⟨⟨h.sound, h.permits_file hLoc⟩, fun _ _ => rfl⟩

/- It is written or not, and the key stays held. -/
theorem wp_configureDrexRuntimeEnvironment
    (h : g.Held root key output)
    (hOpens : ∀ p, U p)
    (config : TaskConfig) :
    Core.Prog.wp sessionAnswers (sessionPre root R U)
      (configureDrexRuntimeEnvironment config
        (subdirPath root key))
      (fun _ g' => g' = g)
      g := by
  unfold configureDrexRuntimeEnvironment
  rw [Core.Prog.wp_bind, wp_call]
  refine ⟨⟨h.sound, trivial⟩, fun _ _ => ?_⟩
  by_cases hEnabled :
      config.xschedEnabled ∧ 0 ≤ config.xschedUtilization
  · rw [if_pos hEnabled]
    exact wp_writeRuntimeUtilizationFile h hOpens _
  · rw [if_neg hEnabled]
    exact rfl

/- Starting and ending a task leaves the key held. -/
theorem held_running
    (h : g.Held root key output)
    (b : Bool) :
    ({ g with running := b } : SessionView).Held
      root key output :=
  { guard := h.guard
    removed := h.removed
    refused := h.refused
    released := h.released
    nonempty := h.nonempty
    keyBelow := h.keyBelow
    outputBelow := h.outputBelow }

/- A task that was not started is not running. -/
def StartsHeld
    (root : WorkspaceRoot)
    (key output : Str)
    (result : Except Status ChildProcess)
    (g : SessionView) : Prop :=
  g.Held root key output ∧
    ∀ status, result = .error status → g.running = false

/- The key stays held while a child is started. -/
def sessionPhases
    (root : WorkspaceRoot)
    (key output : Str) :
    StartPhases SessionView :=
  { idle := fun g =>
      g.Held root key output ∧ g.running = false
    forked := fun _ g => g.Held root key output
    ready := fun _ g => g.Held root key output
    killed := fun g => g.Held root key output
    reaped := fun g =>
      g.Held root key output ∧ g.running = false }

/- Every phase of starting a child permits its calls. -/
theorem sessionPhases_sound :
    (sessionPhases root key output).Sound sessionAnswers
      (sessionPre root R U) where
  surrounds := by
    rintro op hOp g ⟨h, hIdle⟩
    constructor
    · refine ⟨h.sound, ?_⟩
      cases op <;> first | exact trivial | exact hOp.elim
    · rintro r g' ⟨_, rfl⟩
      cases op <;> first | exact ⟨h, hIdle⟩ | exact hOp.elim
  forkpty := by
    rintro g ⟨h, hIdle⟩
    refine ⟨⟨h.sound, h.locked, h.removed⟩, ?_⟩
    rintro pid g' ⟨_, rfl⟩
    have hAfter := held_running h (g.running || pid.isSome)
    cases pid with
    | none => exact ⟨hAfter, by simp [SessionView.after, hIdle]⟩
    | some pid => exact hAfter
  fork := by
    rintro g ⟨h, hIdle⟩
    refine ⟨⟨h.sound, h.locked, h.removed⟩, ?_⟩
    rintro pid g' ⟨_, rfl⟩
    have hAfter := held_running h (g.running || pid.isSome)
    cases pid with
    | none => exact ⟨hAfter, by simp [SessionView.after, hIdle]⟩
    | some pid => exact hAfter
  closeFd := by
    intro pid g h
    refine ⟨⟨h.sound, trivial⟩, ?_⟩
    rintro r g' ⟨_, rfl⟩
    exact h
  setNonBlocking := by
    intro pid g h
    refine ⟨⟨h.sound, trivial⟩, ?_⟩
    rintro done g' ⟨_, rfl⟩
    cases done with
    | true => exact h
    | false => exact h
  kill := by
    intro pid g h
    refine ⟨⟨h.sound, trivial⟩, ?_⟩
    rintro r g' ⟨_, rfl⟩
    exact h
  waitpid := by
    intro pid g h
    refine ⟨⟨h.sound, trivial⟩, ?_⟩
    rintro r g' ⟨_, rfl⟩
    exact ⟨held_running h false, rfl⟩
  strerror := by
    rintro g ⟨h, hIdle⟩
    refine ⟨⟨h.sound, trivial⟩, ?_⟩
    rintro r g' ⟨_, rfl⟩
    exact ⟨h, hIdle⟩

/- A child that was not started is no running task. -/
theorem wp_startChildProcess
    (h : g.Held root key output)
    (hIdle : g.running = false)
    (config : TaskConfig) :
    Core.Prog.wp sessionAnswers (sessionPre root R U)
      (startChildProcess config)
      (StartsHeld root key output)
      g := by
  refine
    Core.Prog.wp_mono ?_
      (wp_startChildProcess_of sessionPhases_sound
        ⟨h, hIdle⟩ config)
  intro result g' hStarted
  cases result with
  | ok child => exact ⟨hStarted, fun _ h => nomatch h⟩
  | error status =>
      rcases hStarted.2 with hEnd | hEnd
      · exact ⟨hEnd.1, fun _ _ => hEnd.2⟩
      · exact ⟨hEnd.1, fun _ _ => hEnd.2⟩

/- The monitor returns when the task is not running. -/
theorem wp_monitorChildProcess
    (h : g.Held root key output)
    (child : ChildProcess) :
    Core.Prog.wp sessionAnswers (sessionPre root R U)
      (monitorChildProcess child)
      (fun _ g' => g' = { g with running := false })
      g := by
  unfold monitorChildProcess
  rw [Core.Prog.wp_bind, wp_call]
  refine ⟨⟨h.sound, trivial⟩, fun _ _ => ?_⟩
  rw [wp_call]
  exact ⟨⟨h.sound, trivial⟩, fun _ _ => rfl⟩

/- Running the command ends with the key held and no task. -/
theorem wp_runCommand
    (h : g.Held root key output)
    (hIdle : g.running = false)
    (config : TaskConfig) :
    Core.Prog.wp sessionAnswers (sessionPre root R U)
      (runCommand config)
      (fun _ g' =>
        g'.Held root key output ∧ g'.running = false)
      g := by
  unfold runCommand
  rw [Core.Prog.wp_bind]
  refine Core.Prog.wp_mono ?_
    (wp_startChildProcess h hIdle config)
  rintro started g' ⟨hHeld, hFailed⟩
  rcases started with status | child
  · exact ⟨hHeld, hFailed status rfl⟩
  · have hDone := held_running hHeld false
    simp only []
    rw [Core.Prog.wp_bind, wp_call]
    refine ⟨⟨hHeld.sound, trivial⟩, fun _ _ => ?_⟩
    rw [Core.Prog.wp_bind, wp_call]
    refine ⟨⟨hHeld.sound, trivial⟩, fun _ _ => ?_⟩
    rw [Core.Prog.wp_bind]
    refine Core.Prog.wp_mono ?_
      (wp_monitorChildProcess hHeld child)
    rintro monitored _ rfl
    cases monitored with
    | none => exact ⟨hDone, rfl⟩
    | some outcome =>
        simp only []
        rw [Core.Prog.wp_bind, wp_call]
        exact
          ⟨⟨hDone.sound, trivial⟩, fun _ _ => ⟨hDone, rfl⟩⟩

/- `Execute` works in the directory of the held key. -/
theorem wp_execute
    {config : TaskConfig}
    (h : g.Held root config.workspaceSubdir output)
    (hIdle : g.running = false)
    (hOpens : ∀ p, U p) :
    Core.Prog.wp sessionAnswers (sessionPre root R U)
      (execute root config)
      (fun _ g' =>
        g'.Held root config.workspaceSubdir output ∧
          g'.running = false)
      g := by
  unfold execute
  by_cases hCommand : config.command = []
  · simp only [hCommand, if_true]
    exact ⟨h, hIdle⟩
  · simp only [hCommand, if_false]
    rw [Core.Prog.wp_bind, wp_call]
    refine ⟨⟨h.sound, ?_⟩, ?_⟩
    · refine ⟨h.locked, h.removed, ?_,
        Or.inl h.keyBelow.contained⟩
      rw [h.guard]
      exact Or.inl List.prefix_rfl
    · intro dirError _
      split
      · exact ⟨h, hIdle⟩
      · rw [Core.Prog.wp_bind]
        refine Core.Prog.wp_mono ?_
          (wp_configureDrexRuntimeEnvironment h hOpens config)
        rintro _ _ rfl
        rw [Core.Prog.wp_bind, wp_call]
        refine ⟨⟨h.sound, trivial⟩, fun logged _ => ?_⟩
        cases logged with
        | false => exact ⟨h, hIdle⟩
        | true =>
            simp only [if_true]
            rw [Core.Prog.wp_bind]
            refine Core.Prog.wp_mono ?_
              (wp_runCommand h hIdle config)
            rintro ended g' ⟨hHeld, hRan⟩
            split
            · unfold emitLogChunk
              rw [if_pos (by decide), Core.Prog.wp_bind,
                wp_call]
              exact
                ⟨⟨hHeld.sound, trivial⟩,
                  fun _ _ => ⟨hHeld, hRan⟩⟩
            · exact ⟨hHeld, hRan⟩

end TaskExecutor

end Drex

------------------------------------------------------------
-- The Destructor Of The Guard
------------------------------------------------------------

namespace Drex

variable {root : WorkspaceRoot} {R : Prop}
variable {U : Path → Prop}
variable {g : SessionView} {key output : Str}

/- The handler has returned or is about to. -/
structure SessionView.Closed (g : SessionView) : Prop where
  sound : g.Sound
  unlocked : g.guard.locked = false
  idle : g.running = false

/- The holder of a key during its clean-up. -/
structure SessionView.Removing
    (root : WorkspaceRoot)
    (g : SessionView)
    (key output : Str) : Prop where
  guard : g.guard = ⟨key, key, output, true, true⟩
  idle : g.running = false
  refused : g.refused = false
  released : g.released = false
  keyBelow : (subdirPath root key).Below root
  outputBelow : (subdirPath root output).Below root

/- During the clean-up no task is running. -/
theorem SessionView.Removing.sound
    (h : g.Removing root key output) :
    g.Sound where
  refused := fun hRefused =>
    absurd hRefused (by simp [h.refused])
  running := fun hRunning =>
    absurd hRunning (by simp [h.idle])

/- The clean-up begins with the key held and no task. -/
theorem SessionView.Held.removing
    (h : g.Held root key output)
    (hIdle : g.running = false) :
    g.Removing root key output :=
  { guard := h.guard
    idle := hIdle
    refused := h.refused
    released := h.released
    keyBelow := h.keyBelow
    outputBelow := h.outputBelow }

/- A target that is removed is one of the holder's two. -/
theorem wp_removePath
    (h : g.Removing root key output)
    {relative : Str}
    (hRelative : relative = key ∨ relative = output) :
    Core.Prog.wp sessionAnswers (sessionPre root R U)
      (removePath root relative)
      (fun _ g' =>
        g'.Removing root key output ∧
          (g.removed ⊆ g'.removed ∧
            (relative ≠ [] →
              subdirPath root relative ∈ g'.removed)))
      g := by
  unfold removePath
  by_cases hEmpty : relative = []
  · rw [if_neg (not_not_intro hEmpty)]
    exact ⟨h, List.Subset.refl _, fun hNe =>
      absurd hEmpty hNe⟩
  · rw [if_pos hEmpty, Core.Prog.wp_bind, wp_call]
    have hBelow : (subdirPath root relative).Below root := by
      rcases hRelative with rfl | rfl
      · exact h.keyBelow
      · exact h.outputBelow
    refine ⟨⟨h.sound, ?_⟩, fun _ _ => ⟨?_, ?_, ?_⟩⟩
    · refine ⟨by rw [h.guard], by rw [h.guard], h.idle,
        hBelow.contained, ?_⟩
      rw [h.guard]
      rcases hRelative with rfl | rfl
      · exact Or.inl rfl
      · exact Or.inr rfl
    · exact
        { guard := h.guard
          idle := h.idle
          refused := h.refused
          released := h.released
          keyBelow := h.keyBelow
          outputBelow := h.outputBelow }
    · exact List.subset_append_left _ _
    · intro _
      simp [SessionView.after]

/- `Cleanup` removes the key's tree and keeps the lock. -/
theorem wp_cleanup
    (h : g.Removing root key output)
    (hKey : key ≠ []) :
    Core.Prog.wp sessionAnswers (sessionPre root R U)
      (cleanup root)
      (fun _ g' =>
        g'.guard = ⟨key, key, output, true, false⟩ ∧
          g'.running = false ∧ g'.refused = false ∧
            subdirPath root key ∈ g'.removed)
      g := by
  unfold cleanup
  rw [Core.Prog.wp_bind, wp_call]
  refine ⟨⟨h.sound, trivial⟩, ?_⟩
  intro guard hGuard
  have hAnswer : guard = ⟨key, key, output, true, true⟩ :=
    (show guard = g.guard from hGuard).trans h.guard
  subst hAnswer
  simp only [if_true]
  rw [Core.Prog.wp_bind]
  refine Core.Prog.wp_mono ?_ (wp_removePath h (Or.inl rfl))
  rintro _ g' ⟨hRemoving, _, hGone⟩
  have hClear :
      ∀ g'' : SessionView, g''.Removing root key output →
        subdirPath root key ∈ g''.removed →
          Core.Prog.wp sessionAnswers (sessionPre root R U)
            (perform .clearCleanup)
            (fun _ g' =>
              g'.guard = ⟨key, key, output, true, false⟩ ∧
                g'.running = false ∧ g'.refused = false ∧
                  subdirPath root key ∈ g'.removed)
            g'' := by
    intro g'' hLast hMem
    rw [wp_call]
    refine ⟨⟨hLast.sound, hLast.idle⟩, fun _ _ => ?_⟩
    refine ⟨?_, hLast.idle, hLast.refused, hMem⟩
    simp [SessionView.after,
      WorkspaceLockGuard.clearCleanup, hLast.guard]
  by_cases hSame : output = key
  · rw [if_neg (not_not_intro hSame)]
    exact hClear g' hRemoving (hGone hKey)
  · rw [if_pos hSame, Core.Prog.wp_bind]
    refine Core.Prog.wp_mono ?_
      (wp_removePath hRemoving (Or.inr rfl))
    rintro _ g'' ⟨hLast, hSubset, _⟩
    exact hClear g'' hLast (hSubset (hGone hKey))

/- The guard of a settled submission gives its key back. -/
theorem wp_destroyGuard
    (h :
      (g.Held root key output ∧ g.running = false) ∨
        g.Unheld) :
    Core.Prog.wp sessionAnswers (sessionPre root R U)
      (destroyGuard root)
      (fun _ g' => g'.Closed)
      g := by
  unfold destroyGuard
  rw [Core.Prog.wp_bind]
  rcases h with ⟨hHeld, hIdle⟩ | hUnheld
  · refine Core.Prog.wp_mono ?_
      (wp_cleanup (hHeld.removing hIdle) hHeld.nonempty)
    rintro _ g' ⟨hGuard, hRunning, hRefused, hGone⟩
    have hSound : g'.Sound :=
      { refused := fun h => by simp [hRefused] at h
        running := fun h => by simp [hRunning] at h }
    rw [Core.Prog.wp_bind, wp_call]
    refine ⟨⟨hSound, hRunning, ?_⟩, ?_⟩
    · intro _
      rw [hGuard]
      exact hGone
    · intro erased hErased
      have hSome : erased = some key := by
        simpa [SessionView.Allows, hGuard] using hErased
      subst hSome
      exact
        { sound :=
            { refused := fun h => by
                simp [SessionView.after, hRefused] at h
              running := fun h => by
                simp [SessionView.after, hRunning] at h }
          unlocked := by simp [SessionView.after]
          idle := hRunning }
  · have hSkip :
        Core.Prog.wp sessionAnswers (sessionPre root R U)
          (cleanup root) (fun _ g' => g' = g) g := by
      unfold cleanup
      rw [Core.Prog.wp_bind, wp_call]
      refine ⟨⟨hUnheld.sound, trivial⟩, ?_⟩
      intro guard hGuard
      have hAnswer : guard = .init :=
        (show guard = g.guard from hGuard).trans
          hUnheld.guard
      subst hAnswer
      exact rfl
    refine Core.Prog.wp_mono ?_ hSkip
    rintro _ _ rfl
    rw [Core.Prog.wp_bind, wp_call]
    refine ⟨⟨hUnheld.sound, hUnheld.running, ?_⟩, ?_⟩
    · intro hLocked
      rw [hUnheld.guard] at hLocked
      cases hLocked
    · intro erased hErased
      have hNone : erased = none := by
        simpa [SessionView.Allows, hUnheld.guard,
          WorkspaceLockGuard.init] using hErased
      subst hNone
      exact
        { sound := hUnheld.sound
          unlocked := by
            simp [SessionView.after, hUnheld.guard,
              WorkspaceLockGuard.init]
          idle := hUnheld.running }

end Drex

------------------------------------------------------------
-- Handlers
------------------------------------------------------------

namespace Drex

variable {root : WorkspaceRoot} {R : Prop}
variable {U : Path → Prop}
variable {g : SessionView} {key output : Str}

/- Reporting a failure leaves the guard as it is. -/
theorem wp_failSubmission
    (h : g.Sound)
    (ending : Ending) :
    Core.Prog.wp sessionAnswers (sessionPre root R U)
      (failSubmission ending)
      (fun _ g' => g' = g)
      g := by
  unfold failSubmission
  cases ending with
  | thrown => exact rfl
  | status status =>
      simp only []
      split
      · exact rfl
      · unfold sendFailure
        rw [Core.Prog.wp_bind, wp_call]
        exact ⟨⟨h, trivial⟩, fun _ _ => rfl⟩

/- The guard holds a key and no task, or no key. -/
def GuardSettled
    (root : WorkspaceRoot)
    (g : SessionView) : Prop :=
  (∃ key output, g.Held root key output ∧
      g.running = false) ∨
    g.Unheld

/- Whatever was downloaded, the guard is left settled. -/
theorem wp_finishSubmission
    {config : TaskConfig}
    {ending : Ending}
    (h : Downloaded root config ending g)
    (hOpens : ∀ p, U p) :
    Core.Prog.wp sessionAnswers (sessionPre root R U)
      (finishSubmission root config ending)
      (fun _ g' => GuardSettled root g')
      g := by
  unfold finishSubmission
  rcases h with ⟨hHeld, hIdle⟩ | ⟨hView, hOk⟩
  · split
    · rw [Core.Prog.wp_bind]
      refine Core.Prog.wp_mono ?_
        (TaskExecutor.wp_execute hHeld hIdle hOpens)
      rintro executed g'' ⟨hAfter, hDone⟩
      rcases executed with failed | result
      · refine Core.Prog.wp_mono ?_
          (wp_failSubmission hAfter.sound failed)
        rintro _ _ rfl
        exact Or.inl ⟨_, _, hAfter, hDone⟩
      · simp only []
        rw [Core.Prog.wp_bind, wp_call]
        exact
          ⟨⟨hAfter.sound, trivial⟩, fun _ _ =>
            Or.inl ⟨_, _, hAfter, hDone⟩⟩
    · refine Core.Prog.wp_mono ?_
        (wp_failSubmission hHeld.sound ending)
      rintro _ _ rfl
      exact Or.inl ⟨_, _, hHeld, hIdle⟩
  · have hFalse : ¬ ending.isOk = true := by
      rw [hOk]
      exact Bool.false_ne_true
    rw [if_neg hFalse]
    refine Core.Prog.wp_mono ?_
      (wp_failSubmission hView.sound ending)
    rintro _ _ rfl
    exact Or.inr hView

/- The body of the handler leaves a settled guard. -/
theorem wp_submissionBody
    (hUnheld : g.Unheld)
    (hRefused : g.refused = false)
    (messages : List TaskRequest)
    (hRoot : R)
    (hOpens : ∀ p, U p) :
    Core.Prog.wp sessionAnswers (sessionPre root R U)
      (submissionBody root messages)
      (fun _ g' => GuardSettled root g')
      g := by
  unfold submissionBody
  rw [Core.Prog.wp_bind]
  refine Core.Prog.wp_mono ?_
    (wp_downloadWorkspace hUnheld hRefused messages hRoot
      (fun _ _ p _ _ => hOpens p))
  intro result g' hDownloaded
  exact wp_finishSubmission hDownloaded hOpens

/- The destructor of a settled guard leaves it closed. -/
theorem wp_destroyGuard_settled
    (h : GuardSettled root g) :
    Core.Prog.wp sessionAnswers (sessionPre root R U)
      (destroyGuard root)
      (fun _ g' => g'.Closed)
      g := by
  rcases h with ⟨key, output, hHeld⟩ | hUnheld
  · exact wp_destroyGuard (Or.inl hHeld)
  · exact
      @wp_destroyGuard root R U g [] [] (Or.inr hUnheld)

/- `TaskSubmission` meets every precondition. -/
theorem wp_taskSubmission
    (messages : List TaskRequest)
    (hRoot : R)
    (hOpens : ∀ p, U p) :
    Core.Prog.wp sessionAnswers (sessionPre root R U)
      (taskSubmission root messages)
      (fun _ g' => g'.Closed)
      .init := by
  have hInit := SessionView.init_unheld
  unfold taskSubmission
  rw [Core.Prog.wp_bind, wp_call]
  refine ⟨⟨hInit.sound, trivial⟩, ?_⟩
  intro rootError _
  split
  · unfold sendFailure
    rw [Core.Prog.wp_bind, wp_call]
    exact
      ⟨⟨hInit.sound, trivial⟩, fun _ _ =>
        { sound := hInit.sound
          unlocked := rfl
          idle := rfl }⟩
  · rw [Core.Prog.wp_bind]
    refine Core.Prog.wp_mono ?_
      (wp_submissionBody hInit rfl messages hRoot hOpens)
    rintro status g' hSettled
    rw [Core.Prog.wp_bind]
    refine Core.Prog.wp_mono ?_
      (wp_destroyGuard_settled hSettled)
    intro _ g'' hClosed
    exact hClosed

end Drex

------------------------------------------------------------
-- Updates
------------------------------------------------------------

namespace Drex

/- The precondition of an operation of an update. -/
def updatePre
    (root : WorkspaceRoot)
    (g : SessionView)
    (op : ServerOp) : Prop :=
  g = .init ∧
    match op with
    | .createDirectories p => Contained root p
    | .openTrunc p => Contained root p
    | .write _ _ _ => True
    | .close _ => True
    | .getenv _ => True
    | .exists _ => True
    | .strerror => True
    | .weaklyCanonicalRoot => True
    | .findTaskProcessGroup _ => True
    | .findPidsInProcessGroup _ => True
    | .xcliHint _ _ _ => True
    | _ => False

variable {root : WorkspaceRoot}

/- Looking for `xcli` needs no lock. -/
theorem wp_getXcliPath :
    Core.Prog.wp sessionAnswers (updatePre root)
      getXcliPath (fun _ g' => g' = .init) .init := by
  unfold getXcliPath
  rw [Core.Prog.wp_bind, wp_call]
  refine ⟨⟨rfl, trivial⟩, ?_⟩
  intro value _
  rcases value with _ | value
  · exact rfl
  · simp only []
    split <;> exact rfl

/- Nor does a hint. -/
theorem wp_runXcliHint
    (pid : Pid)
    (utilization : Int) :
    Core.Prog.wp sessionAnswers (updatePre root)
      (runXcliHint pid utilization)
      (fun _ g' => g' = .init) .init := by
  unfold runXcliHint
  rw [Core.Prog.wp_bind]
  refine Core.Prog.wp_mono ?_ wp_getXcliPath
  rintro xcli _ rfl
  rw [Core.Prog.wp_bind, wp_call]
  refine ⟨⟨rfl, trivial⟩, ?_⟩
  intro xcliFound _
  cases xcliFound with
  | error => exact rfl
  | missing => exact rfl
  | found =>
      simp only []
      rw [Core.Prog.wp_bind, wp_call]
      refine ⟨⟨rfl, trivial⟩, ?_⟩
      intro result _
      cases result with
      | forkFailed =>
          simp only []
          rw [Core.Prog.wp_bind, wp_call]
          exact ⟨⟨rfl, trivial⟩, fun _ _ => rfl⟩
      | waitFailed =>
          simp only []
          rw [Core.Prog.wp_bind, wp_call]
          exact ⟨⟨rfl, trivial⟩, fun _ _ => rfl⟩
      | finished status =>
          simp only []
          split <;> exact rfl

/- Nor do all of them, whatever they answer. -/
theorem wp_hintAll
    (utilization : Int)
    (pids updated : List Pid)
    (lastError : Str) :
    Core.Prog.wp sessionAnswers (updatePre root)
      (hintAll utilization pids updated lastError)
      (fun _ g' => g' = .init) .init := by
  induction pids generalizing updated lastError with
  | nil => exact rfl
  | cons pid pids ih =>
      unfold hintAll
      rw [Core.Prog.wp_bind]
      refine Core.Prog.wp_mono ?_
        (wp_runXcliHint pid utilization)
      rintro hinted _ rfl
      rcases hinted with _ | _ | error
      · exact rfl
      · exact ih _ _
      · exact ih _ _

/- A task is found by its group, not by the lock. -/
theorem wp_updateTaskProcessUtilization
    (workspaceSubdir : Str)
    (utilization : Int) :
    Core.Prog.wp sessionAnswers (updatePre root)
      (updateTaskProcessUtilization
        workspaceSubdir utilization)
      (fun _ g' => g' = .init) .init := by
  unfold updateTaskProcessUtilization
  split
  · exact rfl
  · split
    · exact rfl
    · rw [Core.Prog.wp_bind, wp_call]
      refine ⟨⟨rfl, trivial⟩, ?_⟩
      intro group _
      rcases group with _ | pgid
      · exact rfl
      · simp only []
        rw [Core.Prog.wp_bind, wp_call]
        refine ⟨⟨rfl, trivial⟩, ?_⟩
        intro listed _
        rcases listed with _ | _ | ⟨pid, pids⟩
        · exact rfl
        · exact rfl
        · simp only []
          rw [Core.Prog.wp_bind]
          refine Core.Prog.wp_mono ?_
            (wp_hintAll utilization _ _ _)
          rintro hinted _ rfl
          rcases hinted with _ | ⟨updated, lastError⟩
          · exact rfl
          · simp only []
            split <;> exact rfl

/- The request's path is checked before its file is made. -/
theorem wp_writeRuntimeUtilizationFile
    (workspaceSubdir : Str)
    (utilization : Int) :
    Core.Prog.wp sessionAnswers (updatePre root)
      (writeRuntimeUtilizationFile root
        workspaceSubdir utilization)
      (fun _ g' => g' = .init) .init := by
  unfold writeRuntimeUtilizationFile
  simp only []
  split
  · exact rfl
  · split
    · exact rfl
    · rw [Core.Prog.wp_bind, wp_call]
      refine ⟨⟨rfl, trivial⟩, ?_⟩
      intro rootError _
      rcases rootError with _ | message
      · cases hSub :
            isSubPath root.path
              (subdirPath root workspaceSubdir) with
        | false =>
            simp only [if_true]
            exact rfl
        | true =>
            have hBelow :
                (subdirPath root workspaceSubdir).Below root :=
              below_of_isSubPath rfl hSub
            have hFile := runtimeUtilizationPath_below hBelow
            simp only [Bool.true_eq_false, if_false]
            rw [Core.Prog.wp_bind, wp_call]
            refine ⟨⟨rfl, hBelow.contained⟩, ?_⟩
            intro dirError _
            rcases dirError with _ | message
            · simp only []
              rw [Core.Prog.wp_bind, wp_call]
              refine ⟨⟨rfl, hFile.contained⟩, ?_⟩
              intro isOpen _
              split
              · rw [Core.Prog.wp_bind, wp_call]
                refine ⟨⟨rfl, trivial⟩, fun good _ => ?_⟩
                rw [Core.Prog.wp_bind, wp_call]
                refine ⟨⟨rfl, trivial⟩, fun _ _ => ?_⟩
                split <;> exact rfl
              · exact rfl
            · exact rfl
      · exact rfl

/- `UpdateUtilization` meets every precondition. -/
theorem wp_updateUtilization
    (request : UpdateUtilizationRequest) :
    Core.Prog.wp sessionAnswers (updatePre root)
      (updateUtilization root request)
      (fun _ g' => g' = .init) .init := by
  unfold updateUtilization
  rw [Core.Prog.wp_bind]
  refine Core.Prog.wp_mono ?_
    (wp_updateTaskProcessUtilization _ _)
  rintro updated _ rfl
  rcases updated with _ | result
  · exact rfl
  · simp only []
    rw [Core.Prog.wp_bind]
    refine Core.Prog.wp_mono ?_
      (wp_writeRuntimeUtilizationFile _ _)
    rintro fileError _ rfl
    exact rfl

end Drex

------------------------------------------------------------
-- Reachable Servers
------------------------------------------------------------

namespace Drex

/- The precondition of an operation of a handler. -/
def jobPre
    (root : WorkspaceRoot)
    (job : Job)
    (g : SessionView)
    (op : ServerOp) : Prop :=
  match job with
  | .submission _ => sessionPre root True (fun _ => True) g op
  | .update _ => updatePre root g op

/- Every handler meets its preconditions and ends closed. -/
theorem wp_handler
    (root : WorkspaceRoot)
    (job : Job) :
    Core.Prog.wp sessionAnswers (jobPre root job)
      (job.handler root) (fun _ g' => g'.Closed) .init := by
  cases job with
  | submission messages =>
      exact
        wp_taskSubmission messages trivial
          (fun _ => trivial)
  | update request =>
      unfold Job.handler
      rw [Core.Prog.wp_bind]
      refine Core.Prog.wp_mono ?_
        (wp_updateUtilization request)
      rintro reply _ rfl
      exact
        { sound := SessionView.init_unheld.sound
          unlocked := rfl
          idle := rfl }

/-
  In every reachable state the rest of a handler meets its
  preconditions, from what the handler sees.
-/
theorem reach_handler
    {root : WorkspaceRoot}
    {jobs : Nat → Job}
    {store : Store}
    {commands : ServerState → Store → Prop}
    {admits : ServerPool → Nat → Env → Prop}
    {p : ServerPool}
    (h :
      Core.Reach (server commands) admits
        (serverStart root jobs store) p)
    (i : Nat) :
    Core.Prog.wp sessionAnswers (jobPre root (jobs i))
      (p.progs i) (fun _ g' => g'.Closed) (viewOf p i) :=
  h.wp (sessionView commands)
    (fun j => wp_handler root (jobs j)) i

/- In every run, each call meets its precondition. -/
theorem reach_calls
    {root : WorkspaceRoot}
    {jobs : Nat → Job}
    {store : Store}
    {commands : ServerState → Store → Prop}
    {admits : ServerPool → Nat → Env → Prop}
    {p : ServerPool}
    (h :
      Core.Reach (server commands) admits
        (serverStart root jobs store) p)
    {i : Nat}
    {op : ServerOp}
    (hCalls : p.Calls i op) :
    jobPre root (jobs i) (viewOf p i) op :=
  h.pre_of_calls (sessionView commands)
    (fun j => wp_handler root (jobs j)) hCalls

end Drex
