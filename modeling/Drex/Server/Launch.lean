import Drex.Server.Discovery
import Drex.Server.Handing
import Drex.Server.StoresAgree

/-
  The launch of a task: the parent writes the utilization
  file before it forks, and the child writes it again and
  sets its variable before it becomes the command.

  In a workspace without the file, both say the same once the
  command is there, provided that the hint of the config fits
  where it is stored.

  Key definitions include:
    * `LaunchView`
    * `UpdatedTask.launching`
    * `LaunchSound`
    * `UpdatedTask.HandsSound`

  Key theorems include:
    * `launches_handing`
    * `UpdatedTask.launched_reach`
    * `UpdatedTask.launch_agrees`
    * `UpdatedTask.handed_of_above`
    * `UpdatedTask.hands_sound_iff`
-/

------------------------------------------------------------
-- What A Launch Has Done
------------------------------------------------------------

namespace Drex

/-
  Whether the parent or the child has the file open to be
  written, has written all of it, has failed to, or has
  forked, and what its variable is.
-/
structure LaunchView where
  opened : Bool
  written : Bool
  failed : Bool
  forked : Bool
  inEnvironment : Option Str
deriving DecidableEq

namespace LaunchView

/- The view before the first operation. -/
def init : LaunchView :=
  { opened := false
    written := false
    failed := false
    forked := false
    inEnvironment := none }

/- The view after an answered operation. -/
def after
    (file : Loc)
    (g : LaunchView)
    (op : ServerOp)
    (r : Resp op) :
    LaunchView :=
  match op, r with
  | .openTrunc p, isOpen =>
      if p.loc = file then
        { g with
          opened := isOpen, failed := g.failed || !isOpen }
      else
        g
  | .write p _ _, good =>
      if p.loc = file then
        { g with
          opened := false
          written := good
          failed := g.failed || !good }
      else
        g
  | .fork, pid => { g with forked := g.forked || pid.isSome }
  | .forkpty, pid =>
      { g with forked := g.forked || pid.isSome }
  | .setenv name value _, _ =>
      if name = utilizationVariable then
        { g with inEnvironment := some value }
      else
        g
  | .unsetenv name, _ =>
      if name = utilizationVariable then
        { g with inEnvironment := none }
      else
        g
  | _, _ => g

end LaunchView

namespace UpdatedTask

variable (t : UpdatedTask)

def launchViews :
    Core.View t.system Bool
      (fun _ : Actor =>
        Core.tracked (LaunchView.after t.file)) :=
  Core.trackView t.system Bool (LaunchView.after t.file)
    .init

/- What an actor of the launch has done in a pool. -/
def launchOf (p : TaskPool) (a : Actor) : LaunchView :=
  t.launchViews.of p a

/- The config asks for a utilization that can be stored. -/
def Active : Prop :=
  t.config.xschedEnabled = true ∧
    InPercent t.config.xschedUtilization

/-
  An update stays away from the file, and what the launch
  does to the file succeeds.
-/
def launching (p : TaskPool) (a : Actor) (env : Env) : Prop :=
  ∀ op, p.next? a = some op →
    match a with
    | .update _ => ¬ op.Affects t.file
    | _ =>
        ServerEvent.succeeds t.file
          ⟨op, (exec a.handler op env p.shared).1⟩ = true

/-
  The file is opened only where it is written, by the parent
  before it forks.
-/
def launchPre
    (a : Actor)
    (g : LaunchView)
    (op : ServerOp) :
    Prop :=
  match a, op with
  | .update _, _ => True
  | _, .createDirectories p => ¬ t.file <+: p.loc
  | _, .removeAll _ => False
  | a, .openTrunc p =>
      p.loc = t.file →
        t.Active ∧ (a = .parent → g.forked = false)
  | _, .write p offset data =>
      p.loc = t.file →
        g.opened = true ∧ offset = 0 ∧
          data = utilizationText t.config.xschedUtilization
  | a, .fork => a = .parent ∧ g.opened = false
  | a, .forkpty => a = .parent ∧ g.opened = false
  | _, _ => True

/- The actor keeps to these conditions. -/
abbrev Launches
    (t : UpdatedTask)
    (a : Actor)
    {α : Type}
    (p : ServerProg α)
    (Q : α → LaunchView → Prop)
    (g : LaunchView) :
    Prop :=
  Core.Prog.wp (Core.tracked (LaunchView.after t.file))
    (t.launchPre a) p Q g

end UpdatedTask

end Drex

------------------------------------------------------------
-- What The Launch Keeps To
------------------------------------------------------------

namespace Drex

open Drex.Core.Prog

/- The operations that a launch does not have to watch. -/
def ServerOp.LaunchIdle : ServerOp → Prop
| .createDirectories _ => False
| .openTrunc _ => False
| .write _ _ _ => False
| .removeAll _ => False
| .fork => False
| .forkpty => False
| .setenv name _ _ => name ≠ utilizationVariable
| .unsetenv name => name ≠ utilizationVariable
| _ => True

variable {t : UpdatedTask} {a : Actor} {g : LaunchView}

theorem after_launchIdle
    {op : ServerOp}
    (r : Resp op)
    (hOp : op.LaunchIdle) :
    LaunchView.after t.file g op r = g := by
  cases op with
  | setenv name value overwrite => exact if_neg hOp
  | unsetenv name => exact if_neg hOp
  | _ => first | rfl | exact hOp.elim

theorem launchPre_of_idle
    {op : ServerOp}
    (hOp : op.LaunchIdle) :
    t.launchPre a g op := by
  cases a <;>
    cases op <;> first | exact trivial | exact hOp.elim

/- A part that the launch does not have to watch. -/
theorem launches_idle
    {α : Type}
    {p : ServerProg α}
    (hOnly : OnlyCalls ServerOp.LaunchIdle p) :
    t.Launches a p (fun _ g' => g' = g) g := by
  apply wp_of_onlyCalls _ _ hOnly
  · rintro op r g' hOp rfl
    exact after_launchIdle r hOp
  · exact fun op hOp => launchPre_of_idle hOp

/- One such operation, and what follows it. -/
theorem launches_idle_call
    {α : Type}
    {op : ServerOp}
    {f : Resp op → ServerProg α}
    {Q : α → LaunchView → Prop}
    (hOp : op.LaunchIdle)
    (hNext : ∀ r, t.Launches a (f r) Q g) :
    t.Launches a (perform op >>= f) Q g := by
  refine Core.wp_tracked_call (launchPre_of_idle hOp) ?_
  intro r
  rw [after_launchIdle r hOp]
  exact hNext r

namespace TaskExecutor

/- What a part of the launch leaves as it was. -/
def Leaves (g g' : LaunchView) : Prop :=
  g'.opened = false ∧ g'.forked = g.forked ∧
    g'.inEnvironment = g.inEnvironment

/-
  The file is closed again, and was written whole where the
  config has a utilization for it and nothing failed.
-/
theorem launches_configure
    {workspaceDir : Path}
    (hActor : a = .parent ∨ a = .child)
    (hFile :
      (runtimeUtilizationPath workspaceDir).loc = t.file)
    (hForked : a = .parent → g.forked = false)
    (hClosed : g.opened = false) :
    t.Launches a
      (configureDrexRuntimeEnvironment t.config workspaceDir)
      (fun _ g' =>
        Leaves g g' ∧
          (t.Active → g'.failed = false →
            g'.written = true)) g := by
  have hName : "DREX_UTILIZATION_FILE" ≠ utilizationVariable :=
    by decide
  unfold configureDrexRuntimeEnvironment
  refine launches_idle_call hName ?_
  intro _
  apply wp_ite
  · rintro ⟨hEnabled, hPositive⟩
    unfold writeRuntimeUtilizationFile
    apply wp_ite
    · intro hOut
      refine ⟨⟨hClosed, rfl, rfl⟩, ?_⟩
      intro hActive
      have hRange := hActive.2
      unfold InPercent at hRange
      omega
    · intro hIn
      have hActive : t.Active :=
        ⟨hEnabled, ⟨by omega, by omega⟩⟩
      have hOpenPre :
          t.launchPre a g
            (.openTrunc
              (runtimeUtilizationPath workspaceDir)) := by
        rcases hActor with rfl | rfl
        · exact fun _ => ⟨hActive, hForked⟩
        · exact fun _ => ⟨hActive, hForked⟩
      refine Core.wp_tracked_call hOpenPre ?_
      intro isOpen
      simp only [LaunchView.after, hFile, if_true]
      cases isOpen with
      | false =>
          refine ⟨⟨rfl, rfl, rfl⟩, ?_⟩
          intro _ hSuccess
          simp at hSuccess
      | true =>
          have hWritePre :
              ∀ g' : LaunchView, g'.opened = true →
                t.launchPre a g'
                  (.write
                    (runtimeUtilizationPath workspaceDir) 0
                    (utilizationText
                      t.config.xschedUtilization)) := by
            intro g' hOpened
            rcases hActor with rfl | rfl
            · exact fun _ => ⟨hOpened, rfl, rfl⟩
            · exact fun _ => ⟨hOpened, rfl, rfl⟩
          simp only [if_true]
          refine Core.wp_tracked_call (hWritePre _ rfl) ?_
          intro good
          simp only [LaunchView.after, hFile, if_true]
          refine launches_idle_call trivial ?_
          intro _
          refine ⟨⟨rfl, rfl, rfl⟩, ?_⟩
          intro _ hSuccess
          cases good with
          | true => rfl
          | false => simp at hSuccess
  · intro hNot
    refine ⟨⟨hClosed, rfl, rfl⟩, ?_⟩
    intro hActive
    exact absurd ⟨hActive.1, hActive.2.1⟩ hNot

/- The parent runs its command with the file closed. -/
theorem launches_runCommand
    (hClosed : g.opened = false) :
    t.Launches .parent (runCommand t.config)
      (fun _ g' => g'.opened = false) g := by
  refine wp_invariant ?_ ?_ (onlyCalls_runCommand _) hClosed
  · rintro g' op r _ hOp hI rfl
    cases op <;> first | exact hI | exact hOp.elim
  · intro g' op hOp hI
    cases op <;>
      first
        | exact trivial
        | exact ⟨rfl, hI⟩
        | exact hOp.elim

theorem launches_execute
    (hForked : g.forked = false)
    (hClosed : g.opened = false) :
    t.Launches .parent (execute t.root t.config)
      (fun _ _ => True) g := by
  unfold execute
  apply wp_ite
  · exact fun _ => trivial
  · intro _
    refine Core.wp_tracked_call t.file_not_prefix ?_
    intro dirError
    apply wp_ite
    · exact fun _ => trivial
    · intro _
      refine
        wp_seq
          (launches_configure (Or.inl rfl) t.file_eq
            (fun _ => hForked) hClosed) ?_
      rintro _ g' ⟨⟨hClosed', _, _⟩, _⟩
      refine launches_idle_call trivial ?_
      intro logged
      apply wp_ite
      · intro _
        refine wp_seq (launches_runCommand hClosed') ?_
        intro runStatus g'' _
        apply wp_ite
        · intro _
          have hChunk :
              OnlyCalls ServerOp.LaunchIdle
                (emitLogChunk
                  "Command finished.\n".toList) := by
            unfold emitLogChunk
            apply onlyCalls_ite
            · exact fun _ => onlyCalls_perform trivial
            · exact fun _ => onlyCalls_pure _
          refine wp_seq (launches_idle hChunk) ?_
          exact fun _ _ _ => trivial
        · exact fun _ => trivial
      · exact fun _ => trivial

/- What the child's variable is in the end. -/
def variableOf (config : TaskConfig) : Option Str :=
  if config.xschedEnabled ∧ 0 ≤ config.xschedUtilization then
    some (decimal config.xschedUtilization)
  else
    none

theorem launches_xsched
    (hNone : g.inEnvironment = none) :
    t.Launches .child (configureXSchedEnvironment t.config)
      (fun _ g' =>
        g' =
          { g with
            inEnvironment := variableOf t.config }) g := by
  have hSame :
      { g with inEnvironment := none } = g := by
    rw [← hNone]
  unfold configureXSchedEnvironment variableOf
  apply wp_ite
  · intro hEnabled
    have hScheduler :
        "XSCHED_SCHEDULER" ≠ utilizationVariable := by
      decide
    have hAuto :
        "XSCHED_AUTO_XQUEUE" ≠ utilizationVariable := by
      decide
    have hPolicy :
        "XSCHED_POLICY" ≠ utilizationVariable := by
      decide
    refine launches_idle_call hScheduler ?_
    intro _
    refine launches_idle_call hAuto ?_
    intro _
    refine launches_idle_call hPolicy ?_
    intro _
    apply wp_ite
    · intro hPositive
      refine ⟨trivial, ?_⟩
      rintro r g' rfl
      rw [if_pos ⟨hEnabled, hPositive⟩]
      rfl
    · intro hNegative
      rw [if_neg (fun h => hNegative h.2)]
      exact hSame.symm
  · intro hDisabled
    rw [if_neg (fun h => hDisabled h.1)]
    exact hSame.symm

/- How the child leaves the file and its variable. -/
def LaunchEnds (t : UpdatedTask) (g : LaunchView) : Prop :=
  g.opened = false ∧
    (t.Active → g.failed = false → g.written = true) ∧
      g.inEnvironment = variableOf t.config

theorem launches_childProcess
    (hNone : g.inEnvironment = none)
    (hClosed : g.opened = false) :
    t.Launches .child
      (childProcess t.root t.config t.wantPty t.execCommand)
      (fun _ g' => LaunchEnds t g') g := by
  have hChild :
      OnlyCalls ServerOp.LaunchIdle
        (configureChildEnvironment t.wantPty) := by
    have hPython :
        "PYTHONUNBUFFERED" ≠ utilizationVariable := by
      decide
    have hTerm : "TERM" ≠ utilizationVariable := by
      decide
    unfold configureChildEnvironment
    refine onlyCalls_call hPython ?_
    intro _
    apply onlyCalls_ite
    · exact fun _ => onlyCalls_perform hTerm
    · exact fun _ => onlyCalls_pure _
  unfold childProcess
  simp only []
  refine launches_idle_call trivial ?_
  intro _
  refine wp_seq (launches_idle hChild) ?_
  rintro _ _ rfl
  refine
    wp_seq
      (launches_configure (Or.inr rfl) t.childFile_eq
        (fun h => Actor.noConfusion h) hClosed) ?_
  rintro _ g' ⟨⟨hClosed', _, hEnv⟩, hWritten⟩
  refine wp_seq (launches_xsched (hEnv.trans hNone)) ?_
  rintro _ _ rfl
  refine
    wp_mono ?_
      (launches_idle
        (onlyCalls_entering _ _ _ trivial trivial trivial
          trivial))
  rintro _ _ rfl
  exact ⟨hClosed', hWritten, rfl⟩

end TaskExecutor

/- Every actor keeps to the conditions in every run. -/
theorem launches_handing
    (t : UpdatedTask)
    (requests : List UpdateUtilizationRequest)
    (a : Actor) :
    t.Launches a (t.handing requests a)
      (fun _ g =>
        a = .child → TaskExecutor.LaunchEnds t g) .init := by
  cases a with
  | parent =>
      refine wp_seq (TaskExecutor.launches_execute rfl rfl) ?_
      intro _ _ _ hEq
      cases hEq
  | child =>
      refine
        wp_seq (TaskExecutor.launches_childProcess rfl rfl) ?_
      exact fun _ _ hLaunched _ => hLaunched
  | update j =>
      have hAny :
          OnlyCalls (fun _ => True)
            (t.handing requests (.update j)) :=
        onlyCalls_mono (fun _ _ => trivial)
          (UpdatedTask.onlyCalls_update_inRange requests j)
      have hTrue :
          t.Launches (.update j)
            (t.handing requests (.update j))
            (fun _ _ => True) .init := by
        refine wp_invariant ?_ ?_ hAny trivial
        · exact fun _ _ _ _ _ _ _ => trivial
        · exact fun _ _ _ _ => trivial
      refine wp_mono ?_ hTrue
      intro _ _ _ hEq
      cases hEq

end Drex

------------------------------------------------------------
-- The File Of A Launch
------------------------------------------------------------

namespace Drex

/- The parent or the child. -/
def Actor.Launches : Actor → Prop
| .update _ => False
| _ => True

/-
  What the views of the launch and the node at the place of
  the file have to do with each other.
-/
structure LaunchSound
    (t : UpdatedTask)
    (views : Actor → LaunchView)
    (running : Bool)
    (node : Option Node) : Prop where
  forked : running = true → (views .parent).forked = true
  closed :
    (views .parent).forked = true →
      (views .parent).opened = false
  child :
    (views .child).opened = true ∨
        (views .child).written = true →
      (views .parent).forked = true
  opened :
    ∀ a, a.Launches → (views a).opened = true →
      ∃ data, node = some (.file data)
  stored :
    ∀ a, a.Launches → (views a).written = true →
      (∃ b, b.Launches ∧ (views b).opened = true) ∨
        ∃ data, node = some (.file data) ∧
          utilizationText t.config.xschedUtilization <+: data
  failed : ∀ a, a.Launches → (views a).failed = false
  absent : ¬ t.Active → node = none

namespace LaunchSound

variable {t : UpdatedTask} {views : Actor → LaunchView}
variable {running : Bool} {node : Option Node}

/- Only the fields of the file and the fork matter. -/
theorem of_same
    {views' : Actor → LaunchView}
    (h : LaunchSound t views running node)
    (hSame :
      ∀ a, a.Launches →
        (views' a).opened = (views a).opened ∧
          (views' a).written = (views a).written ∧
          (views' a).failed = (views a).failed ∧
          (views' a).forked = (views a).forked) :
    LaunchSound t views' running node := by
  have hParent := hSame .parent trivial
  have hChild := hSame .child trivial
  refine ⟨?_, ?_, ?_, ?_, ?_, ?_, h.absent⟩
  · rw [hParent.2.2.2]
    exact h.forked
  · rw [hParent.2.2.2, hParent.1]
    exact h.closed
  · rw [hChild.1, hChild.2.1, hParent.2.2.2]
    exact h.child
  · intro a hA
    rw [(hSame a hA).1]
    exact h.opened a hA
  · intro a hA
    rw [(hSame a hA).2.1]
    intro hWritten
    rcases h.stored a hA hWritten with
      ⟨b, hB, hOpened⟩ | hText
    · left
      refine ⟨b, hB, ?_⟩
      rw [(hSame b hB).1]
      exact hOpened
    · exact Or.inr hText
  · intro a hA
    rw [(hSame a hA).2.2.1]
    exact h.failed a hA

/- The task ends, and its place may be taken. -/
theorem of_stopped
    (h : LaunchSound t views running node) :
    LaunchSound t views false node :=
  { h with forked := fun hRunning => Bool.noConfusion hRunning }

/- A field that a new view keeps is the same for all. -/
theorem kept_field
    {a : Actor}
    {g : LaunchView}
    (field : LaunchView → Bool)
    (hKept : field g = field (views a))
    (b : Actor) :
    field (Function.update views a g b) =
      field (views b) := by
  by_cases hEq : b = a
  · rw [hEq, Function.update_self]
    exact hKept
  · rw [Function.update_of_ne hEq]

/- The parent forks with the file closed. -/
theorem fork
    (h : LaunchSound t views running node)
    (pid : Bool)
    (hClosed : (views .parent).opened = false) :
    LaunchSound t
      (Function.update views .parent
        { views .parent with
          forked := (views .parent).forked || pid })
      (running || pid) node where
  forked := by
    intro hRunning
    rw [Function.update_self]
    rcases Bool.or_eq_true_iff.mp hRunning with hOld | hNew
    · simp [h.forked hOld]
    · simp [hNew]
  closed := by
    intro _
    rw [Function.update_self]
    exact hClosed
  child := by
    intro hChild
    rw [Function.update_of_ne (by decide)] at hChild
    rw [Function.update_self]
    simp [h.child hChild]
  opened := by
    intro a hA
    rw [kept_field LaunchView.opened]
    · exact h.opened a hA
    · rfl
  stored := by
    intro a hA
    rw [kept_field LaunchView.written]
    · intro hWritten
      rcases h.stored a hA hWritten with
        ⟨b, hB, hOpened⟩ | hText
      · left
        refine ⟨b, hB, ?_⟩
        rw [kept_field LaunchView.opened]
        · exact hOpened
        · rfl
      · exact Or.inr hText
    · rfl
  failed := by
    intro a hA
    rw [kept_field LaunchView.failed]
    · exact h.failed a hA
    · rfl
  absent := h.absent

/- The file is opened, by the parent before it forks. -/
theorem openFile
    (h : LaunchSound t views running node)
    {a : Actor}
    (hA : a.Launches)
    (hActive : t.Active)
    (hParent : a = .parent → (views .parent).forked = false)
    (hChild : a = .child → (views .parent).forked = true) :
    LaunchSound t
      (Function.update views a
        { views a with opened := true, failed := false })
      running (some (.file [])) where
  forked := by
    intro hRunning
    rw [kept_field LaunchView.forked]
    · exact h.forked hRunning
    · rfl
  closed := by
    rw [kept_field LaunchView.forked]
    · intro hForked
      have hNe : Actor.parent ≠ a := by
        intro hEq
        rw [hParent hEq.symm] at hForked
        cases hForked
      rw [Function.update_of_ne hNe]
      exact h.closed hForked
    · rfl
  child := by
    rw [kept_field LaunchView.forked]
    · intro hOpened
      by_cases hEq : Actor.child = a
      · exact hChild hEq.symm
      · rw [Function.update_of_ne hEq] at hOpened
        exact h.child hOpened
    · rfl
  opened := fun _ _ _ => ⟨[], rfl⟩
  stored := by
    intro b hB _
    left
    refine ⟨a, hA, ?_⟩
    rw [Function.update_self]
  failed := by
    intro b hB
    by_cases hEq : b = a
    · rw [hEq, Function.update_self]
    · rw [Function.update_of_ne hEq]
      exact h.failed b hB
  absent := fun hNot => absurd hActive hNot

/- The open file is written with the utilization. -/
theorem writeFile
    (h : LaunchSound t views running node)
    {a : Actor}
    (hA : a.Launches)
    (hOpened : (views a).opened = true)
    {data : Bytes}
    (hText :
      utilizationText t.config.xschedUtilization <+: data) :
    LaunchSound t
      (Function.update views a
        { views a with
          opened := false, written := true, failed := false })
      running (some (.file data)) where
  forked := by
    intro hRunning
    rw [kept_field LaunchView.forked]
    · exact h.forked hRunning
    · rfl
  closed := by
    rw [kept_field LaunchView.forked]
    · intro hForked
      by_cases hEq : Actor.parent = a
      · rw [← hEq, Function.update_self]
      · rw [Function.update_of_ne hEq]
        exact h.closed hForked
    · rfl
  child := by
    rw [kept_field LaunchView.forked]
    · intro hEither
      by_cases hEq : Actor.child = a
      · rw [← hEq] at hOpened
        exact h.child (Or.inl hOpened)
      · rw [Function.update_of_ne hEq] at hEither
        exact h.child hEither
    · rfl
  opened := fun _ _ _ => ⟨data, rfl⟩
  stored := fun _ _ _ => Or.inr ⟨data, rfl, hText⟩
  failed := by
    intro b hB
    by_cases hEq : b = a
    · rw [hEq, Function.update_self]
    · rw [Function.update_of_ne hEq]
      exact h.failed b hB
  absent := by
    intro hNot
    rcases h.opened a hA hOpened with ⟨content, hContent⟩
    rw [h.absent hNot] at hContent
    cases hContent

end LaunchSound

end Drex

------------------------------------------------------------
-- One Step Of A Launch
------------------------------------------------------------

namespace Drex

namespace UpdatedTask

variable (t : UpdatedTask) (p : TaskPool) (a : Actor)

/- A step changes the view of its own actor. -/
theorem launchOf_advance
    (op : ServerOp)
    (next : Resp op → ServerProg Bool)
    (env : Env) :
    t.launchOf (p.advance t.system a op next env) =
      Function.update (t.launchOf p) a
        ((t.launchOf p a).after t.file op
          (exec a.handler op env p.shared).1) := by
  funext b
  by_cases hEq : b = a
  · rw [hEq, Function.update_self]
    exact t.launchViews.own p a op next env
  · rw [Function.update_of_ne hEq]
    exact t.launchViews.other p a b op next env hEq

/- The invariant of a pool. -/
def LaunchedSoundly : Prop :=
  LaunchSound t (t.launchOf p)
    (p.shared.running Actor.parent.handler)
    (p.shared.store.node t.file)

variable {t p a}
variable {op : ServerOp} {next : Resp op → ServerProg Bool}
variable {env : Env}

/- The invariant after a step, from the step's effects. -/
theorem launched_advance
    {g : LaunchView}
    {running : Bool}
    {node : Option Node}
    (h :
      LaunchSound t (Function.update (t.launchOf p) a g)
        running node)
    (hView :
      (t.launchOf p a).after t.file op
        (exec a.handler op env p.shared).1 = g)
    (hRunning :
      (exec a.handler op env p.shared).2.running
          Actor.parent.handler =
        running)
    (hNode :
      (exec a.handler op env p.shared).2.store.node t.file =
        node) :
    t.LaunchedSoundly (p.advance t.system a op next env) := by
  unfold LaunchedSoundly
  rw [t.launchOf_advance, hView]
  have hShared :
      (p.advance t.system a op next env).shared =
        (exec a.handler op env p.shared).2 :=
    rfl
  rw [hShared, hRunning, hNode]
  exact h

/- A step that leaves the file and the fork alone. -/
theorem launched_advance_of_same
    (h : t.LaunchedSoundly p)
    (hView :
      a.Launches →
        ((t.launchOf p a).after t.file op
          (exec a.handler op env p.shared).1).opened =
            (t.launchOf p a).opened ∧
        ((t.launchOf p a).after t.file op
          (exec a.handler op env p.shared).1).written =
            (t.launchOf p a).written ∧
        ((t.launchOf p a).after t.file op
          (exec a.handler op env p.shared).1).failed =
            (t.launchOf p a).failed ∧
        ((t.launchOf p a).after t.file op
          (exec a.handler op env p.shared).1).forked =
            (t.launchOf p a).forked)
    (hRunning :
      (exec a.handler op env p.shared).2.running
            Actor.parent.handler =
          p.shared.running Actor.parent.handler ∨
        (exec a.handler op env p.shared).2.running
            Actor.parent.handler =
          false)
    (hNode :
      (exec a.handler op env p.shared).2.store.node t.file =
        p.shared.store.node t.file) :
    t.LaunchedSoundly (p.advance t.system a op next env) := by
  have hViews :
      LaunchSound t
        (Function.update (t.launchOf p) a
          ((t.launchOf p a).after t.file op
            (exec a.handler op env p.shared).1))
        (p.shared.running Actor.parent.handler)
        (p.shared.store.node t.file) := by
    apply LaunchSound.of_same h
    intro b hB
    by_cases hEq : b = a
    · rw [hEq, Function.update_self]
      rw [hEq] at hB
      exact hView hB
    · rw [Function.update_of_ne hEq]
      exact ⟨rfl, rfl, rfl, rfl⟩
  rcases hRunning with hSame | hStopped
  · exact launched_advance hViews rfl hSame hNode
  · exact
      launched_advance hViews.of_stopped rfl hStopped hNode

/- An update's step leaves the file and the fork alone. -/
theorem launched_update
    {j : Nat}
    (hAway : ¬ op.Affects t.file)
    (h : t.LaunchedSoundly p) :
    t.LaunchedSoundly
      (p.advance t.system (.update j) op next env) := by
  have hNe : Actor.update j ≠ .parent :=
    fun hEq => Actor.noConfusion hEq
  refine
    launched_advance_of_same h (fun hA => hA.elim)
      (Or.inl ?_) (exec_node _ _ _ hAway)
  exact running_of_other hNe op env p.shared

/- A task that is reaped runs no longer. -/
theorem running_of_reaped
    {s : ServerState}
    (i : Nat)
    (hOp :
      (∃ pid, op = .waitpid pid) ∨
        ∃ child config, op = .monitor child config) :
    (exec i op env s).2.running Actor.parent.handler =
        s.running Actor.parent.handler ∨
      (exec i op env s).2.running Actor.parent.handler =
        false := by
  have hState :
      (exec i op env s).2.running =
        Function.update s.running i false := by
    rcases hOp with ⟨pid, rfl⟩ | ⟨child, config, rfl⟩
    · rfl
    · rfl
  rw [hState]
  by_cases hEq : Actor.parent.handler = i
  · right
    rw [hEq, Function.update_self]
  · left
    exact Function.update_of_ne hEq _ _

/- The parent forks. -/
theorem launched_fork
    (hFork : op = .fork ∨ op = .forkpty)
    (hClosed : (t.launchOf p .parent).opened = false)
    (h : t.LaunchedSoundly p) :
    t.LaunchedSoundly
      (p.advance t.system .parent op next env) := by
  rcases hFork with rfl | rfl
  · refine
      launched_advance
        (h.fork (env.answer .fork).isSome hClosed) rfl ?_ rfl
    simp [exec, ServerState.setRunning]
  · refine
      launched_advance
        (h.fork (env.answer .forkpty).isSome hClosed) rfl
        ?_ rfl
    simp [exec, ServerState.setRunning]

/- The file of the launch is opened. -/
theorem launched_openTrunc
    {q : Path}
    {next : Resp (.openTrunc q) → ServerProg Bool}
    (hA : a.Launches)
    (hFile : q.loc = t.file)
    (hActive : t.Active)
    (hParent :
      a = .parent → (t.launchOf p .parent).forked = false)
    (hChild :
      a = .child → (t.launchOf p .parent).forked = true)
    (hSucceeds :
      ServerEvent.succeeds t.file
        ⟨.openTrunc q,
          (exec a.handler (.openTrunc q) env p.shared).1⟩ =
        true)
    (h : t.LaunchedSoundly p) :
    t.LaunchedSoundly
      (p.advance t.system a (.openTrunc q) next env) := by
  have hDone :
      (exec a.handler (.openTrunc q) env p.shared).1 =
        true := by
    simpa [ServerEvent.succeeds, hFile] using hSucceeds
  have hFailed := h.failed a hA
  rcases p.shared.store.tryOpen_cases q
      (env.answer (.openTrunc q)) with
    ⟨hClosed, _⟩ | ⟨_, hEmpty⟩
  · exact absurd (hClosed.symm.trans hDone) (by decide)
  · rw [hFile] at hEmpty
    refine
      launched_advance
        (h.openFile hA hActive hParent hChild) ?_ rfl hEmpty
    rw [hDone]
    simp [LaunchView.after, hFile, hFailed]

/- The open file of the launch is written. -/
theorem launched_write
    {q : Path}
    {offset : Nat}
    {data : Bytes}
    {next : Resp (.write q offset data) → ServerProg Bool}
    (hA : a.Launches)
    (hFile : q.loc = t.file)
    (hPre :
      (t.launchOf p a).opened = true ∧ offset = 0 ∧
        data = utilizationText t.config.xschedUtilization)
    (hSucceeds :
      ServerEvent.succeeds t.file
        ⟨.write q offset data,
          (exec a.handler (.write q offset data) env
            p.shared).1⟩ = true)
    (h : t.LaunchedSoundly p) :
    t.LaunchedSoundly
      (p.advance t.system a (.write q offset data) next
        env) := by
  rcases hPre with ⟨hOpened, hStart, hValue⟩
  have hDone :
      (exec a.handler (.write q offset data) env
        p.shared).1 = true := by
    simpa [ServerEvent.succeeds, hFile] using hSucceeds
  have hFailed := h.failed a hA
  rcases h.opened a hA hOpened with ⟨content, hContent⟩
  rw [← hFile] at hContent
  rcases Store.hasFile_tryWrite data
      (env.answer (.write q offset data)) env.amount
      hContent with
    ⟨data', hNode, hText⟩
  rw [← hStart, hFile] at hNode
  rw [← hStart] at hText
  have hWritten := hText hDone
  rw [hValue] at hWritten
  refine
    launched_advance (h.writeFile hA hOpened hWritten)
      ?_ rfl hNode
  rw [hDone]
  simp [LaunchView.after, hFile, hFailed]

/- A step of the parent or the child. -/
theorem launched_own
    (hA : a.Launches)
    (hReady : ready a op p.shared = true)
    (hPre : t.launchPre a (t.launchOf p a) op)
    (hSucceeds :
      ServerEvent.succeeds t.file
        ⟨op, (exec a.handler op env p.shared).1⟩ = true)
    (h : t.LaunchedSoundly p) :
    t.LaunchedSoundly
      (p.advance t.system a op next env) := by
  have hChild :
      a = .child →
        (t.launchOf p .parent).forked = true := by
    rintro rfl
    exact h.forked hReady
  cases op with
  | createDirectories q =>
      have hAway : ¬ t.file <+: q.loc := by
        cases a with
        | update j => exact hA.elim
        | parent => exact hPre
        | child => exact hPre
      exact
        launched_advance_of_same h
          (fun _ => ⟨rfl, rfl, rfl, rfl⟩) (Or.inl rfl)
          (exec_node _ _ _ hAway)
  | removeAll q =>
      cases a with
      | update j => exact hA.elim
      | parent => exact hPre.elim
      | child => exact hPre.elim
  | openTrunc q =>
      by_cases hFile : q.loc = t.file
      · have hOpen :
            t.Active ∧
              (a = .parent →
                (t.launchOf p a).forked = false) := by
          cases a with
          | update j => exact hA.elim
          | parent => exact hPre hFile
          | child => exact hPre hFile
        refine
          launched_openTrunc hA hFile hOpen.1 ?_ hChild
            hSucceeds h
        rintro rfl
        exact hOpen.2 rfl
      · refine
          launched_advance_of_same h ?_ (Or.inl rfl)
            (exec_node _ _ _ (Ne.symm hFile))
        intro _
        simp [LaunchView.after, hFile]
  | write q offset data =>
      by_cases hFile : q.loc = t.file
      · have hWrite :
            (t.launchOf p a).opened = true ∧ offset = 0 ∧
              data =
                utilizationText
                  t.config.xschedUtilization := by
          cases a with
          | update j => exact hA.elim
          | parent => exact hPre hFile
          | child => exact hPre hFile
        exact launched_write hA hFile hWrite hSucceeds h
      · refine
          launched_advance_of_same h ?_ (Or.inl rfl)
            (exec_node _ _ _ (Ne.symm hFile))
        intro _
        simp [LaunchView.after, hFile]
  | close q =>
      refine
        launched_advance_of_same h
          (fun _ => ⟨rfl, rfl, rfl, rfl⟩) (Or.inl rfl) ?_
      by_cases hFile : q.loc = t.file
      · have hGood :
            (exec a.handler (.close q) env p.shared).1 =
              true := by
          simpa [ServerEvent.succeeds, hFile] using hSucceeds
        exact
          congrArg (fun s => s.node t.file)
            ((p.shared.store.tryClose_cases q
              (env.answer (.close q)) env.amount).1 hGood)
      · exact exec_node _ _ _ (Ne.symm hFile)
  | fork =>
      cases a with
      | update j => exact hA.elim
      | parent => exact launched_fork (Or.inl rfl) hPre.2 h
      | child => cases hPre.1
  | forkpty =>
      cases a with
      | update j => exact hA.elim
      | parent => exact launched_fork (Or.inr rfl) hPre.2 h
      | child => cases hPre.1
  | setenv name value overwrite =>
      refine
        launched_advance_of_same h ?_ (Or.inl rfl) rfl
      intro _
      simp only [LaunchView.after]
      split <;> exact ⟨rfl, rfl, rfl, rfl⟩
  | unsetenv name =>
      refine
        launched_advance_of_same h ?_ (Or.inl rfl) rfl
      intro _
      simp only [LaunchView.after]
      split <;> exact ⟨rfl, rfl, rfl, rfl⟩
  | waitpid pid =>
      refine
        launched_advance_of_same h
          (fun _ => ⟨rfl, rfl, rfl, rfl⟩) ?_ rfl
      exact running_of_reaped _ (.inl ⟨pid, rfl⟩)
  | monitor child config =>
      refine
        launched_advance_of_same h
          (fun _ => ⟨rfl, rfl, rfl, rfl⟩) ?_ rfl
      exact running_of_reaped _ (.inr ⟨child, config, rfl⟩)
  | _ =>
      exact
        launched_advance_of_same h
          (fun _ => ⟨rfl, rfl, rfl, rfl⟩) (Or.inl rfl) rfl

end UpdatedTask

end Drex

------------------------------------------------------------
-- The Variable And The File
------------------------------------------------------------

namespace Drex

/- Two numbers are spelled the same only if they are. -/
theorem decimal_injective : Function.Injective decimal := by
  intro m n hSame
  have hBlanks : ∀ c ∈ ([] : Str), isSpace c = true :=
    fun _ hMem => absurd hMem List.not_mem_nil
  have hEnd : ∀ c ∈ ([] : Str).head?, c.isDigit = false :=
    fun c hMem => absurd hMem (Option.not_mem_none c)
  have hFirst := strtol_decimal m hBlanks hEnd
  have hSecond := strtol_decimal n hBlanks hEnd
  rw [hSame, hSecond] at hFirst
  exact (congrArg Prod.fst (Option.some.inj hFirst)).symm

namespace UpdatedTask

variable {t : UpdatedTask}
variable {requests : List UpdateUtilizationRequest}
variable {store : Store} {p : TaskPool}

/- The invariant holds in every run of a launch. -/
theorem launched_reach
    (hFresh : store.node t.file = none)
    (h :
      Core.Reach t.system t.launching
        (t.handingStart requests store) p) :
    t.LaunchedSoundly p := by
  induction h with
  | start =>
      exact
        { forked := fun hRunning => by cases hRunning
          closed := fun _ => rfl
          child := by
            rintro (hOpened | hWritten)
            · cases hOpened
            · cases hWritten
          opened := fun _ _ hOpened => by cases hOpened
          stored := fun _ _ hWritten => by cases hWritten
          failed := fun _ _ => rfl
          absent := fun _ => hFresh }
  | @step p a op next env hReach hOp hReady hAdmits ih =>
      have hPre :=
        hReach.pre_of_calls t.launchViews
          (launches_handing t requests) ⟨_, hOp⟩
      have hNext : p.next? a = some op := by
        simp [Core.Pool.next?, hOp]
      have hStep := hAdmits op hNext
      cases a with
      | parent =>
          exact launched_own trivial hReady hPre hStep ih
      | child =>
          exact launched_own trivial hReady hPre hStep ih
      | update j => exact launched_update hStep ih
  | @ambient p shared hReach hAmbient ih =>
      unfold LaunchedSoundly
      change
        LaunchSound t (t.launchOf p)
          (shared.running Actor.parent.handler)
          (shared.store.node t.file)
      rw [hAmbient.1, hAmbient.2.1]
      exact ih

/- How a child that has returned has left its variable. -/
theorem launchEnds_of_returned
    {admits : TaskPool → Actor → Env → Prop}
    {ok : Bool}
    (h :
      Core.Reach t.system admits
        (t.handingStart requests store) p)
    (hReturned : returned? p .child = some ok) :
    TaskExecutor.LaunchEnds t (t.launchOf p .child) := by
  have hKeeps :=
    h.wp t.launchViews (launches_handing t requests) .child
  unfold returned? at hReturned
  cases hProg : p.progs .child with
  | ret ok' =>
      rw [hProg] at hKeeps
      exact hKeeps rfl
  | call op next =>
      rw [hProg] at hReturned
      cases hReturned

/- The variable of a task that was started. -/
def variableIn (t : UpdatedTask) (p : TaskPool) :
    Option Str :=
  (t.launchOf p .child).inEnvironment

/-
  Once the child has become the command, its variable is set
  to what the file contains.
-/
theorem launch_agrees
    (hFits : t.HintFits)
    (hFresh : store.node t.file = none)
    (h :
      Core.Reach t.system t.launching
        (t.handingStart requests store) p)
    (hStarted : returned? p .child = some true)
    (u : Int) :
    t.variableIn p = some (decimal u) ↔
      t.inFile p.shared = some u := by
  have hSound := launched_reach hFresh h
  rcases launchEnds_of_returned h hStarted with
    ⟨hClosed, hWritten, hVariable⟩
  have hCommand : t.config.command ≠ [] := by
    intro hEmpty
    have hChild := (not_started_of_empty hEmpty h).1
    unfold returned? at hStarted
    rw [hChild] at hStarted
    cases hStarted
  unfold variableIn
  rw [hVariable]
  by_cases hAsked :
      t.config.xschedEnabled = true ∧
        0 ≤ t.config.xschedUtilization
  · have hActive : t.Active :=
      ⟨hAsked.1, hAsked.2, hFits hCommand hAsked.1⟩
    have hChildWritten :=
      hWritten hActive (hSound.failed .child trivial)
    have hFile :
        t.inFile p.shared =
          some t.config.xschedUtilization := by
      rcases hSound.stored .child trivial hChildWritten with
        ⟨b, hB, hOpened⟩ | ⟨data, hNode, hText⟩
      · cases b with
        | update j => exact hB.elim
        | child =>
            rw [hClosed] at hOpened
            cases hOpened
        | parent =>
            have hForked := hSound.child (Or.inr hChildWritten)
            rw [hSound.closed hForked] at hOpened
            cases hOpened
      · unfold inFile
        rw [hNode]
        exact storedUtilization_of_prefix hAsked.2 hText
    rw [TaskExecutor.variableOf, if_pos hAsked, hFile]
    constructor
    · intro hSame
      rw [decimal_injective (Option.some.inj hSame)]
    · intro hSame
      rw [Option.some.inj hSame]
  · have hInactive : ¬ t.Active :=
      fun hActive => hAsked ⟨hActive.1, hActive.2.1⟩
    have hFile : t.inFile p.shared = none := by
      unfold inFile
      rw [hSound.absent hInactive]
    rw [TaskExecutor.variableOf, if_neg hAsked, hFile]
    exact iff_of_false (Option.some_ne_none _ ·.symm)
      (Option.some_ne_none _ ·.symm)

end UpdatedTask

end Drex

------------------------------------------------------------
-- Where The Hint Does Not Fit
------------------------------------------------------------

namespace Drex

open Drex.Core.Prog

/- On a disk without files every directory can be made. -/
theorem smallStore_createDirectories
    (p : Path)
    (amount : Nat) :
    (smallStore.tryCreateDirectories p none amount).1 =
      none := by
  have hPassable : smallStore.passable p.loc = true := by
    rw [Store.passable_iff]
    intro q _ data hNode
    unfold smallStore at hNode
    simp only at hNode
    split at hNode
    · cases hNode
    · cases hNode
  unfold Store.tryCreateDirectories
  simp [hPassable]

namespace UpdatedTask

variable {t : UpdatedTask}
variable {requests : List UpdateUtilizationRequest}

/- A utilization above the range is not written. -/
theorem configure_of_above
    {config : TaskConfig}
    (hAbove : 100 < config.xschedUtilization)
    (workspaceDir : Path) :
    TaskExecutor.configureDrexRuntimeEnvironment config
        workspaceDir =
      (do
        perform
          (.setenv "DREX_UTILIZATION_FILE"
            (runtimeUtilizationPath workspaceDir).toString
            true)
        return ()) := by
  unfold TaskExecutor.configureDrexRuntimeEnvironment
    TaskExecutor.writeRuntimeUtilizationFile
  rw [if_pos (Or.inr hAbove)]
  congr 1
  funext _
  split <;> rfl

/- The parent comes to fork. -/
theorem performs_parent
    (requests : List UpdateUtilizationRequest)
    (hCommand : t.config.command ≠ [])
    (hAbove : 100 < t.config.xschedUtilization) :
    ∃ op, (op = .fork ∨ op = .forkpty) ∧
      Performs (Core.answering t.system .parent) op
        (ServerState.init smallStore)
        (t.handing requests .parent) := by
  have hRun :
      ∃ op, (op = .fork ∨ op = .forkpty) ∧
        ∀ s, Performs (Core.answering t.system .parent) op s
          (TaskExecutor.runCommand t.config) := by
    cases hPty : t.config.enablePty with
    | true =>
        refine ⟨.forkpty, Or.inr rfl, ?_⟩
        intro s
        apply performs_bind_left
        unfold TaskExecutor.startChildProcess
        refine performs_call ⟨rfl, Env.granting, rfl⟩ ?_
        rw [hPty]
        exact .here
    | false =>
        refine ⟨.fork, Or.inl rfl, ?_⟩
        intro s
        apply performs_bind_left
        unfold TaskExecutor.startChildProcess
        refine performs_call ⟨rfl, Env.granting, rfl⟩ ?_
        rw [hPty]
        refine performs_call ⟨rfl, Env.granting, rfl⟩ ?_
        refine performs_call ⟨rfl, Env.granting, rfl⟩ ?_
        exact .here
  rcases hRun with ⟨op, hFork, hRun⟩
  refine ⟨op, hFork, ?_⟩
  apply performs_bind_left
  unfold TaskExecutor.execute
  rw [if_neg hCommand]
  refine
    performs_call
      ⟨rfl, Env.granting,
        Prod.ext (smallStore_createDirectories _ _) rfl⟩ ?_
  rw [configure_of_above hAbove]
  refine performs_call ⟨rfl, Env.granting, rfl⟩ ?_
  refine performs_call ⟨rfl, Env.granting, rfl⟩ ?_
  exact performs_bind_left (hRun _)

/- The child comes to set its variable. -/
theorem performs_child
    (requests : List UpdateUtilizationRequest)
    (hEnabled : t.config.xschedEnabled = true)
    (hAbove : 100 < t.config.xschedUtilization)
    {s : ServerState}
    (hRunning :
      s.running Actor.parent.handler = true) :
    Performs (Core.answering t.system .child)
      (.setenv utilizationVariable
        (decimal t.config.xschedUtilization) true) s
      (t.handing requests .child) := by
  have hPositive : 0 ≤ t.config.xschedUtilization := by
    omega
  apply performs_bind_left
  unfold TaskExecutor.childProcess
  refine performs_call ⟨hRunning, Env.granting, rfl⟩ ?_
  have hVariables :
      ∀ s : ServerState,
        s.running Actor.parent.handler = true →
          ∃ trace,
            Runs (Core.answering t.system .child) s
              (TaskExecutor.configureChildEnvironment
                t.wantPty) trace () s := by
    intro s hRunning
    unfold TaskExecutor.configureChildEnvironment
    cases t.wantPty with
    | true =>
        exact
          ⟨_, .call ⟨hRunning, Env.granting, rfl⟩
            (.call ⟨hRunning, Env.granting, rfl⟩
              (.ret _ _))⟩
    | false =>
        exact
          ⟨_, .call ⟨hRunning, Env.granting, rfl⟩
            (.ret _ _)⟩
  rcases hVariables s hRunning with ⟨trace, hRuns⟩
  refine performs_bind_of_runs hRuns ?_
  rw [configure_of_above hAbove]
  refine performs_call ⟨hRunning, Env.granting, rfl⟩ ?_
  apply performs_bind_left
  unfold TaskExecutor.configureXSchedEnvironment
  rw [if_pos hEnabled]
  refine performs_call ⟨hRunning, Env.granting, rfl⟩ ?_
  refine performs_call ⟨hRunning, Env.granting, rfl⟩ ?_
  refine performs_call ⟨hRunning, Env.granting, rfl⟩ ?_
  rw [if_pos hPositive]
  exact .here

/- A command is started with a variable out of range. -/
theorem handed_of_above
    (requests : List UpdateUtilizationRequest)
    (hCommand : t.config.command ≠ [])
    (hEnabled : t.config.xschedEnabled = true)
    (hAbove : 100 < t.config.xschedUtilization) :
    ∃ p, Core.Reach t.system (fun _ _ _ => True)
        (t.handingStart requests smallStore) p ∧
      (Actor.child,
        (⟨.setenv utilizationVariable
            (decimal t.config.xschedUtilization) true,
          ()⟩ : ServerEvent)) ∈ p.log := by
  rcases performs_parent requests hCommand hAbove with
    ⟨op, hFork, hPerforms⟩
  have hInit :
      Core.Reach t.system (fun _ _ _ => True)
        (t.handingStart requests smallStore)
        (t.handingStart requests smallStore) :=
    .start
  rcases hInit.performs (fun _ _ _ _ _ _ => trivial) trivial
      hPerforms with
    ⟨q, hQ, ⟨next, hCalls⟩, _, hOthers⟩
  -- The fork succeeds, so that the child may run.
  have hForked :
      Core.Reach t.system (fun _ _ _ => True)
        (t.handingStart requests smallStore)
        (q.advance t.system .parent op next Env.granting) :=
    .step hQ hCalls (by rcases hFork with rfl | rfl <;> rfl)
      trivial
  have hRunning :
      (q.advance t.system .parent op next
          Env.granting).shared.running Actor.parent.handler =
        true := by
    rw [Core.Pool.advance_shared]
    rcases hFork with rfl | rfl
    · simp [system, exec, ServerState.setRunning,
        Env.granting]
    · simp [system, exec, ServerState.setRunning,
        Env.granting]
  have hChild :
      (q.advance t.system .parent op next
          Env.granting).progs .child =
        t.handing requests .child := by
    rw [Core.Pool.advance_progs_other _ _ _ _ _ (by decide),
      hOthers .child (by decide)]
    rfl
  have hSets :
      Performs (Core.answering t.system .child)
        (.setenv utilizationVariable
          (decimal t.config.xschedUtilization) true)
        (q.advance t.system .parent op next
          Env.granting).shared
        ((q.advance t.system .parent op next
          Env.granting).progs .child) := by
    rw [hChild]
    exact
      performs_child requests hEnabled hAbove hRunning
  have hKeeps :
      ∀ s op r s',
        s.running Actor.parent.handler = true →
          Core.answering t.system .child s op r s' →
            s'.running Actor.parent.handler = true := by
    rintro s op r s' hRunning ⟨_, env, hExec⟩
    have hSame :=
      running_of_other
        (fun hEq => Actor.noConfusion hEq :
          Actor.child ≠ .parent) op env s
    have hState :
        (exec Actor.child.handler op env s).2 = s' :=
      congrArg Prod.snd hExec
    rw [← hState, hSame]
    exact hRunning
  rcases hForked.performs hKeeps hRunning hSets with
    ⟨q', hQ', ⟨next', hCalls'⟩, hStill, _⟩
  refine
    ⟨q'.advance t.system .child _ next' Env.granting,
      .step hQ' hCalls' hStill trivial, ?_⟩
  exact List.mem_append_right _ List.mem_cons_self

/- What is handed to a task is bounded and consistent. -/
structure HandsSound
    (t : UpdatedTask)
    (requests : List UpdateUtilizationRequest) :
    Prop where
  bounded :
    ∀ store p,
      Core.Reach t.system (fun _ _ _ => True)
          (t.handingStart requests store) p →
        ∀ e ∈ p.log, e.2.1.HandsInRange
  agrees :
    ∀ store p, store.node t.file = none →
      Core.Reach t.system t.launching
          (t.handingStart requests store) p →
        returned? p .child = some true →
          ∀ u, t.variableIn p = some (decimal u) ↔
            t.inFile p.shared = some u

/-
  This is so for the configs without a command, without a
  hint, or with a hint of at most 100, and for no others.
-/
theorem hands_sound_iff
    (t : UpdatedTask)
    (requests : List UpdateUtilizationRequest) :
    t.HandsSound requests ↔ t.HintFits := by
  constructor
  · intro h hCommand hEnabled
    by_contra hAbove
    rcases handed_of_above requests hCommand hEnabled
        (by omega) with
      ⟨p, hReach, hMem⟩
    rcases h.bounded smallStore p hReach _ hMem rfl with
      ⟨u, hRange, hSame⟩
    have hValue := decimal_injective hSame
    unfold InPercent at hRange
    omega
  · intro hFits
    exact
      { bounded := fun _ _ hReach =>
          inRange_of_reach hFits hReach
        agrees := fun _ _ hFresh hReach hStarted =>
          launch_agrees hFits hFresh hReach hStarted }

/- A task whose client asks for a utilization of 150. -/
def overfull : UpdatedTask :=
  { root := smallRoot
    submitted :=
      { smallConfig "a" with
        xschedEnabled := true
        xschedUtilization := 150 }
    isThere := false
    wantPty := false
    execCommand := "true".toList
    updates := []
    stays := by decide +kernel }

/- The variable of its command is set to 150. -/
theorem overfull_not_sound :
    ¬ overfull.HandsSound [] := by
  intro h
  rcases handed_of_above [] (t := overfull)
      (by decide +kernel) (by decide +kernel)
      (by decide +kernel) with
    ⟨p, hReach, hMem⟩
  rcases h.bounded smallStore p hReach _ hMem rfl with
    ⟨u, hRange, hSame⟩
  have hValue := decimal_injective hSame
  have hIs : overfull.config.xschedUtilization = 150 := rfl
  unfold InPercent at hRange
  omega

end UpdatedTask

end Drex
