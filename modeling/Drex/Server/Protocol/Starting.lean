import Drex.Server.TaskExecutor

/-
  The start of a child, phase by phase.

  Whatever is judged of the start (the session, the registry,
  the process group or the responses) only depends on what
  it makes of a few operations.  `StartPhases.Sound` names
  them, and the rule below follows the code once for all.

  Key definitions include:
    * `StartPhases`
    * `StartPhases.Sound`
    * `StartPhases.Started`

  Key theorems include:
    * `TaskExecutor.wp_startChildProcess_of`
-/

------------------------------------------------------------
-- Phases
------------------------------------------------------------

namespace Drex

open Drex.Core.Prog

/-
  What is known before a child was forked, once it was, once
  its output can be read, and once it was killed and reaped.
-/
structure StartPhases (G : Type) where
  idle : G → Prop
  forked : Pid → G → Prop
  ready : Pid → G → Prop
  killed : G → Prop
  reaped : G → Prop

/- The operations around a fork. -/
def ServerOp.SurroundsFork : ServerOp → Prop
| .getenv _ => True
| .findCommandInPath _ => True
| .pipe => True
| .closeFd => True
| .strerror => True
| _ => False

namespace StartPhases

variable {G : Type}

/- What is known after a fork. -/
def Forked
    (φ : StartPhases G)
    (pid : Option Pid)
    (g : G) : Prop :=
  match pid with
  | none => φ.idle g
  | some pid => φ.forked pid g

/- What is known once `StartChildProcess` has returned. -/
def Started
    (φ : StartPhases G)
    (result : Except Status ChildProcess)
    (g : G) : Prop :=
  match result with
  | .error status =>
      status.isOk = false ∧ (φ.idle g ∨ φ.reaped g)
  | .ok child => φ.ready child.pid g

/- Every operation leads from its phase to the next one. -/
structure Sound
    (φ : StartPhases G)
    (A : Answers ServerOp Resp G)
    (pre : G → ServerOp → Prop) : Prop where
  surrounds :
    ∀ op : ServerOp, op.SurroundsFork →
      OpSpec A pre φ.idle op (fun _ => φ.idle)
  forkpty : OpSpec A pre φ.idle .forkpty φ.Forked
  fork : OpSpec A pre φ.idle .fork φ.Forked
  closeFd :
    ∀ pid, OpSpec A pre (φ.forked pid) .closeFd
      (fun _ => φ.forked pid)
  setNonBlocking :
    ∀ pid, OpSpec A pre (φ.forked pid) .setNonBlocking
      (fun done g =>
        if done then φ.ready pid g else φ.forked pid g)
  kill :
    ∀ pid, OpSpec A pre (φ.forked pid) (.kill pid)
      (fun _ => φ.killed)
  waitpid :
    ∀ pid, OpSpec A pre φ.killed (.waitpid pid)
      (fun _ => φ.reaped)
  strerror :
    OpSpec A pre φ.reaped .strerror (fun _ => φ.reaped)

end StartPhases

end Drex

------------------------------------------------------------
-- The Start
------------------------------------------------------------

namespace Drex

open Drex.Core.Prog

namespace TaskExecutor

variable {G : Type} {φ : StartPhases G}
variable {A : Answers ServerOp Resp G}
variable {pre : G → ServerOp → Prop}
variable {g : G}

/- A child whose output cannot be read is reaped. -/
theorem wp_configureReadFd_of
    (hSound : φ.Sound A pre)
    {pid : Pid}
    (hForked : φ.forked pid g)
    (usePty : Bool)
    (failure : String) :
    wp A pre (configureReadFd pid usePty failure)
      φ.Started g := by
  unfold configureReadFd
  apply wp_spec (hSound.setNonBlocking pid) hForked
  intro nonBlocking g' hNext
  cases nonBlocking with
  | true => exact hNext
  | false =>
      apply wp_spec (hSound.closeFd pid) hNext
      intro _ g₁ hClosed
      apply wp_spec (hSound.kill pid) hClosed
      intro _ g₂ hKilled
      apply wp_spec (hSound.waitpid pid) hKilled
      intro _ g₃ hReaped
      apply wp_spec hSound.strerror hReaped
      intro errno g₄ hReaped
      exact ⟨rfl, Or.inr hReaped⟩

/- Failing before a child was forked. -/
theorem wp_systemError_of
    (hSound : φ.Sound A pre)
    (hIdle : φ.idle g)
    (what : String) :
    wp A pre
      (do
        let errno ← perform .strerror
        return .error (Status.systemError what errno))
      φ.Started g := by
  apply wp_spec (hSound.surrounds .strerror trivial) hIdle
  intro errno g' hIdle'
  exact ⟨rfl, Or.inl hIdle'⟩

theorem wp_startWithPty_of
    (hSound : φ.Sound A pre)
    (hIdle : φ.idle g) :
    wp A pre startWithPty φ.Started g := by
  unfold startWithPty
  apply wp_spec hSound.forkpty hIdle
  intro pid g' hNext
  cases pid with
  | none => exact wp_systemError_of hSound hNext _
  | some pid => exact wp_configureReadFd_of hSound hNext _ _

theorem wp_startWithPipe_of
    (hSound : φ.Sound A pre)
    (hIdle : φ.idle g) :
    wp A pre startWithPipe φ.Started g := by
  unfold startWithPipe
  apply wp_spec (hSound.surrounds .pipe trivial) hIdle
  intro hasPipe g' hIdle'
  apply wp_ite
  · intro _
    apply wp_spec hSound.fork hIdle'
    intro pid g₁ hNext
    cases pid with
    | none =>
        have hCloses := hSound.surrounds .closeFd trivial
        apply wp_spec hCloses hNext
        intro _ g₂ hFirst
        apply wp_spec hCloses hFirst
        intro _ g₃ hSecond
        exact wp_systemError_of hSound hSecond _
    | some pid =>
        apply wp_spec (hSound.closeFd pid) hNext
        intro _ g₂ hForked
        exact wp_configureReadFd_of hSound hForked _ _
  · exact fun _ => wp_systemError_of hSound hIdle' _

/- `StartChildProcess` leads through the phases in order. -/
theorem wp_startChildProcess_of
    (hSound : φ.Sound A pre)
    (hIdle : φ.idle g)
    (config : TaskConfig) :
    wp A pre (startChildProcess config) φ.Started g := by
  unfold startChildProcess
  apply wp_spec (hSound.surrounds (.getenv _) trivial) hIdle
  intro disablePty g' hIdle'
  have hBuild :
      wp A pre
        (buildCommandForExecution config.command
          (config.enablePty && disablePty.isNone))
        (fun _ => φ.idle) g' := by
    unfold buildCommandForExecution
    apply wp_ite
    · exact fun _ => hIdle'
    · intro _
      apply
        wp_spec
          (hSound.surrounds (.findCommandInPath _) trivial)
          hIdle'
      intro path g₁ hFound
      apply wp_ite
      · exact fun _ => hFound
      · exact fun _ => hFound
  apply wp_seq hBuild
  intro _ g₁ hBuilt
  apply wp_ite
  · exact fun _ => wp_startWithPty_of hSound hBuilt
  · exact fun _ => wp_startWithPipe_of hSound hBuilt

end TaskExecutor

end Drex
