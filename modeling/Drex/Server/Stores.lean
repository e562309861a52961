import Drex.Server.Containment
import Drex.Server.Updating

/-
  The two places the utilization of a running task is kept:
  the hints its processes were given and the utilization
  file of its workspace.

  The parent, the child and any number of updates interleave
  while the task starts and runs.  Each of them is judged
  from what it has hinted, opened and written itself.

  Key definitions include:
    * `UpdatedTask`
    * `Actor`
    * `UpdatedTask.system`
    * `HintView`
    * `lastHint`
    * `UpdatedTask.StoresAgree`
    * `UpdatedTask.inOrder`

  Key theorems include:
    * `storedUtilization_of_prefix`
    * `keeps_updateUtilization`
    * `keeps_program`
-/

------------------------------------------------------------
-- A Task And Its Updates
------------------------------------------------------------

namespace Drex

/-
  A task whose config was accepted, the choices its child
  was started with, and the utilizations of the updates that
  name the task.
-/
structure UpdatedTask where
  root : WorkspaceRoot
  submitted : TaskConfig
  isThere : Bool
  wantPty : Bool
  execCommand : Str
  updates : List Int
  stays : staysInRoot root submitted = true

/- Who reaches the processes or the file of the task. -/
inductive Actor
| parent
| child
| update (j : Nat)
deriving DecidableEq

/- The handler whose operations an actor calls. -/
def Actor.handler : Actor → Nat
| .parent => 0
| .child => 1
| .update j => j + 2

namespace UpdatedTask

variable (t : UpdatedTask)

/- The config the executor has. -/
def config : TaskConfig :=
  acceptedConfig t.root t.submitted t.isThere

/- The place of the utilization file of the task. -/
def file : Loc :=
  (runtimeUtilizationPath
    (resolvedWorkspacePath t.root t.submitted)).loc

/- The utilization an actor writes. -/
def value : Actor → Int
| .parent => t.config.xschedUtilization
| .child => t.config.xschedUtilization
| .update j => t.updates.getD j 0

/- What each actor runs, and whether it succeeded. -/
def program : Actor → ServerProg Bool
| .parent => do
    let result ← TaskExecutor.execute t.root t.config
    return result.isOk
| .child => do
    TaskExecutor.childProcess t.root t.config t.wantPty
      t.execCommand
    return true
| .update j =>
    match t.updates[j]? with
    | none => return true
    | some utilization => do
        let reply ←
          updateUtilization t.root
            ⟨t.config.workspaceSubdir, utilization⟩
        return reply.1.isOk

/-
  The child runs once the fork has succeeded, and watching
  the command never comes to an end.
-/
def ready
    (a : Actor)
    (op : ServerOp)
    (s : ServerState) :
    Bool :=
  match a, op with
  | .parent, .monitor _ _ => false
  | .child, _ => s.running Actor.parent.handler
  | _, _ => true

/-
  The rest of the server and the command leave the file, the
  task and its entry alone.
-/
def system :
    Core.System Actor ServerOp Resp Env ServerState where
  ready := fun a op s => ready a op s = true
  exec := fun a => exec a.handler
  ambient := fun s s' =>
    s'.store.node t.file = s.store.node t.file ∧
      s'.running Actor.parent.handler =
          s.running Actor.parent.handler ∧
        s'.workspaceToPgid t.config.workspaceSubdir =
          s.workspaceToPgid t.config.workspaceSubdir

end UpdatedTask

/- The actors and what they share. -/
abbrev TaskPool :=
  Core.Pool Actor ServerOp Resp Bool ServerState

/- Every actor before its first operation. -/
def UpdatedTask.start
    (t : UpdatedTask)
    (store : Store) :
    TaskPool :=
  Core.Pool.start t.program (ServerState.init store)

end Drex

------------------------------------------------------------
-- The Two Stores
------------------------------------------------------------

namespace Drex

/- Who hinted last, and the utilization that was hinted. -/
def lastHint
    (log : List (Actor × ServerEvent)) :
    Option (Actor × Int) :=
  (log.filterMap
    (fun e => e.2.hint?.map (fun h => (e.1, h.2)))).getLast?

/- The last event is a hint, or the last hint is older. -/
theorem lastHint_snoc
    (log : List (Actor × ServerEvent))
    (a : Actor)
    (e : ServerEvent) :
    lastHint (log ++ [(a, e)]) =
      (e.hint?.map (fun h => (a, h.2))).or
        (lastHint log) := by
  unfold lastHint
  rw [List.filterMap_append]
  cases hHint : e.hint? with
  | none => simp [hHint]
  | some hint => simp [hHint]

/- `file >> value`: the number at the start of the bytes. -/
def storedUtilization (data : Bytes) : Option Int :=
  (strtol (data.map (fun b => Char.ofNat b.toNat))).map
    Prod.fst

theorem toNat_of_isDigit
    {c : Char}
    (h : c.isDigit = true) :
    48 ≤ c.toNat ∧ c.toNat ≤ 57 := by
  simpa [Char.isDigit, UInt32.le_iff_toNat_le] using h

theorem isSpace_of_isDigit
    {c : Char}
    (h : c.isDigit = true) :
    isSpace c = false := by
  have hRange := toNat_of_isDigit h
  have hBlank : c ≠ ' ' := by
    rintro rfl
    simp at hRange
  simp only [isSpace, hBlank, decide_false, Bool.false_or,
    Bool.and_eq_false_iff, decide_eq_false_iff_not]
  omega

theorem isDigit_of_mem_toDigits
    {n : Nat}
    {c : Char}
    (h : c ∈ Nat.toDigits 10 n) :
    c.isDigit = true :=
  Nat.isDigit_of_mem_toDigits (by omega) (by omega) h

/- The digits before anything else are all that is taken. -/
theorem takeWhile_digits
    {digits rest : Str}
    (hDigits : ∀ d ∈ digits, d.isDigit = true)
    (hRest : ∀ c ∈ rest.head?, c.isDigit = false) :
    (digits ++ rest).takeWhile Char.isDigit = digits ∧
      (digits ++ rest).dropWhile Char.isDigit = rest := by
  rw [List.takeWhile_append_of_pos hDigits,
    List.dropWhile_append_of_pos hDigits]
  cases rest with
  | nil => simp
  | cons c rest =>
      have hEnd : c.isDigit = false := hRest c rfl
      simp [hEnd]

/- Digits are read as their number, up to anything else. -/
theorem strtol_digits
    {blanks digits rest : Str}
    (hBlanks : ∀ c ∈ blanks, isSpace c = true)
    (hDigits : ∀ d ∈ digits, d.isDigit = true)
    (hNil : digits ≠ [])
    (hRest : ∀ c ∈ rest.head?, c.isDigit = false) :
    strtol (blanks ++ (digits ++ rest)) =
      some ((Nat.ofDigitChars 10 digits 0 : Int), rest) := by
  rcases takeWhile_digits hDigits hRest with ⟨hTake, hDrop⟩
  rcases List.exists_cons_of_ne_nil hNil with ⟨d, ds, rfl⟩
  have hFirst : d.isDigit = true :=
    hDigits d List.mem_cons_self
  -- The first digit is neither a blank nor a sign.
  have hText :
      (blanks ++ ((d :: ds) ++ rest)).dropWhile isSpace =
        (d :: ds) ++ rest := by
    rw [List.dropWhile_append_of_pos hBlanks]
    simp [isSpace_of_isDigit hFirst]
  have hRange := toNat_of_isDigit hFirst
  have hMinus : d ≠ '-' := by
    rintro rfl
    simp at hRange
  have hPlus : d ≠ '+' := by
    rintro rfl
    simp at hRange
  have hHead : ((d :: ds) ++ rest).head? = some d := rfl
  unfold strtol
  simp only [hText, hHead, Option.some.injEq, hMinus, hPlus,
    or_self, if_false, hTake, hDrop]
  simp

/- A character below 256 is written and read back. -/
theorem ofNat_toUInt8
    {c : Char}
    (h : c.toNat < 256) :
    Char.ofNat c.toNat.toUInt8.toNat = c := by
  have hByte : c.toNat.toUInt8.toNat = c.toNat := by
    rw [Nat.toUInt8_eq, UInt8.toNat_ofNat']
    exact Nat.mod_eq_of_lt h
  rw [hByte, Char.ofNat_toNat]

/- What `utilizationText` wrote is read back. -/
theorem storedUtilization_of_prefix
    {utilization : Int}
    {data : Bytes}
    (hRange : 0 ≤ utilization)
    (hText : utilizationText utilization <+: data) :
    storedUtilization data = some utilization := by
  rcases hText with ⟨rest, rfl⟩
  rcases Int.eq_ofNat_of_zero_le hRange with ⟨n, rfl⟩
  have hDigits :
      ∀ c ∈ Nat.toDigits 10 n, c.isDigit = true :=
    fun _ hMem => isDigit_of_mem_toDigits hMem
  have hEnd :
      ∀ c ∈ ('\n' :: rest.map
          (fun b => Char.ofNat b.toNat)).head?,
        c.isDigit = false := by
    intro c hMem
    cases hMem
    decide
  have hNumber :=
    strtol_digits (List.forall_mem_nil _) hDigits
      Nat.toDigits_ne_nil hEnd
  rw [List.nil_append] at hNumber
  have hRead :
      (utilizationText n).map
          (fun b => Char.ofNat b.toNat) =
        Nat.toDigits 10 n ++ ['\n'] := by
    have hSame :
        ∀ c ∈ Nat.toDigits 10 n ++ ['\n'],
          Char.ofNat c.toNat.toUInt8.toNat = id c := by
      intro c hMem
      apply ofNat_toUInt8
      rcases List.mem_append.mp hMem with hMem | hMem
      · have hDigit := toNat_of_isDigit (hDigits c hMem)
        omega
      · rw [List.mem_singleton.mp hMem]
        decide
    unfold utilizationText
    rw [List.map_map]
    exact
      (List.map_congr_left hSame).trans (List.map_id _)
  unfold storedUtilization
  rw [List.map_append, hRead, List.append_assoc,
    List.singleton_append, hNumber,
    Nat.ofDigitChars_ten_toDigits]
  rfl

end Drex

------------------------------------------------------------
-- What An Actor Has Done
------------------------------------------------------------

namespace Drex

/-
  Whether an actor has hinted a process, has the utilization
  file open to be written, and has written it.
-/
structure HintView where
  hinted : Bool
  opened : Bool
  written : Bool
deriving DecidableEq

namespace HintView

/- The view before the first operation. -/
def init : HintView :=
  { hinted := false, opened := false, written := false }

/- The view after an answered operation. -/
def after
    (file : Loc)
    (g : HintView)
    (op : ServerOp)
    (r : Resp op) :
    HintView :=
  match op, r with
  | .xcliHint _ _ _, .finished status =>
      if exitedCleanly status then
        { g with hinted := true }
      else
        g
  | .openTrunc p, isOpen =>
      if p.loc = file ∧ isOpen then
        { g with opened := true }
      else
        g
  | .write p _ _, good =>
      if p.loc = file then
        { g with
          opened := false, written := g.written || good }
      else
        g
  | _, _ => g

/- The file was not reached yet. -/
structure Idle (g : HintView) : Prop where
  opened : g.opened = false
  written : g.written = false

end HintView

namespace UpdatedTask

variable (t : UpdatedTask)

/- The views of the actors. -/
def views :
    Core.View t.system Bool
      (fun _ : Actor => Core.tracked (HintView.after t.file)) :=
  Core.trackView t.system Bool (HintView.after t.file) .init

/- What an actor has done in a pool. -/
def viewOf (p : TaskPool) (a : Actor) : HintView :=
  t.views.of p a

end UpdatedTask

end Drex

------------------------------------------------------------
-- What Both Stores Hold
------------------------------------------------------------

namespace Drex

namespace UpdatedTask

variable (t : UpdatedTask)

/- The actor has returned, and whether it succeeded. -/
def returned? (p : TaskPool) (a : Actor) : Option Bool :=
  match p.progs a with
  | .ret ok => some ok
  | .call _ _ => none

/- The next operation of the parent is to watch. -/
def watches (p : TaskPool) : Bool :=
  match p.next? .parent with
  | some (.monitor _ _) => true
  | _ => false

/-
  The task is registered and watched, the child has become
  the command, and every update was a success.
-/
def finished (p : TaskPool) : Bool :=
  watches p && decide (returned? p .child = some true) &&
    (List.range t.updates.length).all
      (fun j => decide (returned? p (.update j) = some true))

/- The number in the utilization file. -/
def inFile (s : ServerState) : Option Int :=
  match s.store.node t.file with
  | some (.file data) => storedUtilization data
  | _ => none

/-
  Once all have finished and there was an update, the file
  has the utilization that was hinted last.
-/
def StoresAgree (p : TaskPool) : Prop :=
  t.finished p = true → t.updates ≠ [] →
    ∃ a utilization,
      lastHint p.log = some (a, utilization) ∧
        t.inFile p.shared = some utilization

end UpdatedTask

end Drex

------------------------------------------------------------
-- Conditions On Steps
------------------------------------------------------------

namespace Drex

namespace ServerEvent

/- A hint or an operation on the file succeeded. -/
def succeeds (file : Loc) : ServerEvent → Bool
| ⟨.xcliHint _ _ _, .finished status⟩ => exitedCleanly status
| ⟨.xcliHint _ _ _, _⟩ => false
| ⟨.openTrunc p, isOpen⟩ => decide (p.loc ≠ file) || isOpen
| ⟨.write p _ _, good⟩ => decide (p.loc ≠ file) || good
| ⟨.close p, good⟩ => decide (p.loc ≠ file) || good
| _ => true

/-
  The file is neither emptied nor written by an actor with
  another value, and nothing that was written is lost.
-/
def keeps
    (file : Loc)
    (sameValue : Bool) :
    ServerEvent → Bool
| ⟨.openTrunc p, isOpen⟩ =>
    decide (p.loc ≠ file) || !isOpen || sameValue
| ⟨.write p _ _, good⟩ =>
    decide (p.loc ≠ file) || (good && sameValue)
| ⟨.close p, good⟩ => decide (p.loc ≠ file) || good
| _ => true

end ServerEvent

namespace UpdatedTask

variable (t : UpdatedTask)

/- What the next step of an actor adds to the log. -/
def nextEvent?
    (p : TaskPool)
    (a : Actor)
    (env : Env) :
    Option ServerEvent :=
  (p.next? a).map
    (fun op => ⟨op, (exec a.handler op env p.shared).1⟩)

/- The hints and file operations of updates succeed. -/
def updatesSucceed
    (p : TaskPool)
    (a : Actor)
    (env : Env) :
    Bool :=
  match a with
  | .update _ =>
      (nextEvent? p a env).all (ServerEvent.succeeds t.file)
  | _ => true

/-
  Once the update that hinted last has written the file, it
  is left to actors with the same value.
-/
def inOrder
    (p : TaskPool)
    (a : Actor)
    (env : Env) :
    Bool :=
  match lastHint p.log with
  | none => true
  | some (hinter, utilization) =>
      !(t.viewOf p hinter).written ||
        (nextEvent? p a env).all
          (ServerEvent.keeps t.file
            (decide (t.value a = utilization)))

end UpdatedTask

end Drex

------------------------------------------------------------
-- One File For All Actors
------------------------------------------------------------

namespace Drex

/- The utilization file lies in its directory. -/
theorem runtimeUtilizationPath_loc_eq
    (p : Path) :
    (runtimeUtilizationPath p).loc =
      p.loc ++ [utilizationName] := by
  have hName : utilizationName ≠ .dot := by decide
  unfold Path.loc
  rw [(runtimeUtilizationPath_names p).2.1,
    List.filter_append]
  simp [hName]

/- The child's directory is the one that was resolved. -/
theorem childDirectory_loc
    {root : WorkspaceRoot}
    {p : Path}
    (isThere : Bool)
    (h : p.Below root) :
    (root.path /
      Path.ofString
        (relativeSubdir root isThere p)).loc = p.loc := by
  rcases ofString_relativeSubdir isThere h with
    ⟨tail, slash, hTail, hSpelled⟩
  unfold Path.loc
  rw [hSpelled]
  by_cases hNil : tail = []
  · rw [dif_pos hNil,
      Path.append_of_names rfl (by simp [Path.ofName]),
      ← hTail, hNil, List.filter_append, List.filter_append]
    rfl
  · rw [dif_neg hNil, Path.append_of_names rfl hNil]
    exact congrArg (List.filter (· ≠ .dot)) hTail

namespace UpdatedTask

variable (t : UpdatedTask)

theorem resolved_below :
    (resolvedWorkspacePath t.root t.submitted).Below
      t.root := by
  have hBoth := t.stays
  unfold staysInRoot at hBoth
  rw [Bool.and_eq_true] at hBoth
  exact below_of_isSubPath rfl hBoth.1

/- The parent and the updates name the resolved place. -/
theorem subdirPath_loc :
    (subdirPath t.root t.config.workspaceSubdir).loc =
      (resolvedWorkspacePath t.root t.submitted).loc := by
  have hNames :=
    (subdirPath_relativeSubdir t.isThere t.resolved_below).1
  unfold Path.loc
  exact congrArg (List.filter (· ≠ .dot)) hNames

theorem file_eq :
    (runtimeUtilizationPath
      (subdirPath t.root t.config.workspaceSubdir)).loc =
        t.file := by
  unfold file
  rw [runtimeUtilizationPath_loc_eq,
    runtimeUtilizationPath_loc_eq, t.subdirPath_loc]

theorem childFile_eq :
    (runtimeUtilizationPath
      (t.root.path /
        Path.ofString t.config.workspaceSubdir)).loc =
        t.file := by
  unfold file
  rw [runtimeUtilizationPath_loc_eq,
    runtimeUtilizationPath_loc_eq]
  congr 1
  exact childDirectory_loc t.isThere t.resolved_below

/- The file is no directory above itself. -/
theorem file_not_prefix :
    ¬ t.file <+:
      (subdirPath t.root t.config.workspaceSubdir).loc := by
  intro hPrefix
  have hLength := hPrefix.length_le
  rw [← t.file_eq, runtimeUtilizationPath_loc_eq,
    List.length_append, List.length_singleton] at hLength
  omega

end UpdatedTask

end Drex

------------------------------------------------------------
-- What Each Actor Keeps To
------------------------------------------------------------

namespace Drex

open Drex.Core.Prog

/-
  Only updates hint, and they hint before they write.  The
  file is written whole, by the one who has it open, and the
  startup is over only when the file is closed.
-/
def UpdatedTask.pre
    (t : UpdatedTask)
    (a : Actor)
    (g : HintView) :
    ServerOp → Prop
| .xcliHint _ _ utilization =>
    (∃ j, a = .update j ∧ j < t.updates.length) ∧
      utilization = t.value a ∧ 0 ≤ utilization ∧ g.Idle
| .createDirectories p => ¬ t.file <+: p.loc
| .write p offset data =>
    p.loc = t.file →
      g.opened = true ∧ offset = 0 ∧
        data = utilizationText (t.value a)
| .removeAll _ => False
| .monitor _ _ => g.opened = false
| _ => True

/- The operations that leave the file and the hints alone. -/
def ServerOp.Quiet : ServerOp → Prop
| .xcliHint _ _ _ => False
| .createDirectories _ => False
| .openTrunc _ => False
| .write _ _ _ => False
| .close _ => False
| .removeAll _ => False
| .monitor _ _ => False
| _ => True

/- The actor keeps to the conditions and ends as wanted. -/
abbrev UpdatedTask.Keeps
    (t : UpdatedTask)
    (a : Actor)
    {α : Type}
    (p : ServerProg α)
    (Q : α → HintView → Prop)
    (g : HintView) : Prop :=
  wp (Core.tracked (HintView.after t.file)) (t.pre a) p Q g

variable {t : UpdatedTask} {a : Actor} {g : HintView}

/- A part that leaves the file and the hints alone. -/
theorem keeps_quiet
    {α : Type}
    {p : ServerProg α}
    (hOnly : OnlyCalls ServerOp.Quiet p) :
    t.Keeps a p (fun _ g' => g' = g) g := by
  apply wp_of_onlyCalls _ _ hOnly
  · rintro op r g' hOp rfl
    cases op <;> first | rfl | exact hOp.elim
  · intro op hOp
    cases op <;> first | exact trivial | exact hOp.elim

theorem setsVariables_quiet
    (op : ServerOp)
    (hOp : op.SetsVariables) :
    op.Quiet := by
  cases op <;> first | exact trivial | exact hOp.elim

namespace TaskExecutor

/- The file is closed again, whatever was written. -/
theorem keeps_writeRuntimeUtilizationFile
    {workspaceDir : Path}
    (hFile :
      (runtimeUtilizationPath workspaceDir).loc = t.file)
    (hClosed : g.opened = false) :
    t.Keeps a
      (writeRuntimeUtilizationFile workspaceDir (t.value a))
      (fun _ g' => g'.opened = false) g := by
  unfold writeRuntimeUtilizationFile
  apply wp_ite
  · exact fun _ => hClosed
  · intro _
    apply Core.wp_tracked_call trivial
    intro isOpen
    cases isOpen with
    | false =>
        simpa [HintView.after] using hClosed
    | true =>
        have hOpened :
            HintView.after t.file g
                (.openTrunc
                  (runtimeUtilizationPath workspaceDir))
                true =
              { g with opened := true } := by
          simp [HintView.after, hFile]
        simp only [if_true]
        rw [hOpened]
        refine
          Core.wp_tracked_call (fun _ => ⟨rfl, rfl, rfl⟩) ?_
        intro good
        refine Core.wp_tracked_call trivial ?_
        intro _
        simp [HintView.after, hFile]

theorem keeps_configure
    {workspaceDir : Path}
    (hFile :
      (runtimeUtilizationPath workspaceDir).loc = t.file)
    (hValue : t.value a = t.config.xschedUtilization)
    (hClosed : g.opened = false) :
    t.Keeps a
      (configureDrexRuntimeEnvironment t.config workspaceDir)
      (fun _ g' => g'.opened = false) g := by
  unfold configureDrexRuntimeEnvironment
  refine Core.wp_tracked_call trivial ?_
  intro _
  apply wp_ite
  · intro _
    rw [← hValue]
    exact keeps_writeRuntimeUtilizationFile hFile hClosed
  · exact fun _ => hClosed

/- Nothing of the command's run reaches the file. -/
theorem keeps_runCommand
    (hClosed : g.opened = false) :
    t.Keeps a (runCommand t.config)
      (fun _ g' => g'.opened = false) g := by
  refine wp_invariant ?_ ?_ (onlyCalls_runCommand _) hClosed
  · rintro g' op r _ hOp hI rfl
    cases op <;> first | exact hI | exact hOp.elim
  · intro g' op hOp hI
    cases op <;>
      first | exact trivial | exact hI | exact hOp.elim

/- The parent, from its first operation on. -/
theorem keeps_execute
    (hClosed : g.opened = false) :
    t.Keeps .parent (execute t.root t.config)
      (fun _ g' => g'.opened = false) g := by
  unfold execute
  apply wp_ite
  · exact fun _ => hClosed
  · intro _
    refine Core.wp_tracked_call t.file_not_prefix ?_
    intro dirError
    apply wp_ite
    · exact fun _ => hClosed
    · intro _
      refine
        wp_seq (keeps_configure t.file_eq rfl hClosed) ?_
      intro _ g' hClosed
      refine Core.wp_tracked_call trivial ?_
      intro logged
      apply wp_ite
      · intro _
        refine wp_seq (keeps_runCommand hClosed) ?_
        intro runStatus g' hClosed
        apply wp_ite
        · intro _
          have hChunk :
              OnlyCalls ServerOp.Quiet
                (emitLogChunk "Command finished.\n".toList) := by
            unfold emitLogChunk
            apply onlyCalls_ite
            · exact fun _ => onlyCalls_perform trivial
            · exact fun _ => onlyCalls_pure _
          refine wp_seq (keeps_quiet hChunk) ?_
          rintro _ g'' rfl
          exact hClosed
        · exact fun _ => hClosed
      · exact fun _ => hClosed

/- The child, up to the shell. -/
theorem keeps_childProcess
    (hClosed : g.opened = false) :
    t.Keeps .child
      (childProcess t.root t.config t.wantPty t.execCommand)
      (fun _ g' => g'.opened = false) g := by
  unfold childProcess
  simp only []
  refine Core.wp_tracked_call trivial ?_
  intro _
  refine
    wp_seq
      (keeps_quiet
        (onlyCalls_mono setsVariables_quiet
          (onlyCalls_configureChildEnvironment _))) ?_
  rintro _ g' rfl
  refine
    wp_seq (keeps_configure t.childFile_eq rfl hClosed) ?_
  intro _ g' hClosed
  refine
    wp_seq
      (keeps_quiet
        (onlyCalls_mono setsVariables_quiet
          (onlyCalls_configureXSchedEnvironment _))) ?_
  rintro _ _ rfl
  refine
    wp_mono ?_
      (keeps_quiet
        (onlyCalls_entering _ _ _ trivial trivial trivial
          trivial))
  rintro _ g'' rfl
  exact hClosed

end TaskExecutor

end Drex

------------------------------------------------------------
-- What An Update Keeps To
------------------------------------------------------------

namespace Drex

open Drex.Core.Prog

variable {t : UpdatedTask} {j : Nat} {g : HintView}

/- A hint without an error has reached its process. -/
theorem keeps_runXcliHint
    (hJob : j < t.updates.length)
    (hRange : 0 ≤ t.value (.update j))
    (hIdle : g.Idle)
    (pid : Pid) :
    t.Keeps (.update j)
      (runXcliHint pid (t.value (.update j)))
      (fun hinted g' =>
        g'.Idle ∧
          (g.hinted = true ∨ hinted = some none →
            g'.hinted = true)) g := by
  have hPath : OnlyCalls ServerOp.Quiet getXcliPath := by
    unfold getXcliPath
    apply onlyCalls_call trivial
    intro env
    cases env with
    | none => exact onlyCalls_pure _
    | some value =>
        apply onlyCalls_ite
        · exact fun _ => onlyCalls_pure _
        · exact fun _ => onlyCalls_pure _
  unfold runXcliHint
  refine wp_seq (keeps_quiet hPath) ?_
  rintro xcli g' rfl
  refine Core.wp_tracked_call trivial ?_
  intro xcliFound
  cases xcliFound with
  | error =>
      refine ⟨hIdle, ?_⟩
      rintro (hOld | hNone)
      · exact hOld
      · cases hNone
  | missing =>
      refine ⟨hIdle, ?_⟩
      rintro (hOld | hNone)
      · exact hOld
      · cases hNone
  | found =>
      refine
        Core.wp_tracked_call
          ⟨⟨j, rfl, hJob⟩, rfl, hRange, hIdle⟩ ?_
      intro result
      cases result with
      | forkFailed =>
          refine Core.wp_tracked_call trivial ?_
          intro errno
          refine ⟨hIdle, ?_⟩
          rintro (hOld | hNone)
          · exact hOld
          · cases hNone
      | waitFailed =>
          refine Core.wp_tracked_call trivial ?_
          intro errno
          refine ⟨hIdle, ?_⟩
          rintro (hOld | hNone)
          · exact hOld
          · cases hNone
      | finished status =>
          simp only [HintView.after]
          by_cases hClean : exitedCleanly status = true
          · rw [if_pos hClean, if_pos hClean]
            exact
              ⟨⟨hIdle.opened, hIdle.written⟩, fun _ => rfl⟩
          · rw [if_neg hClean, if_neg hClean]
            refine ⟨hIdle, ?_⟩
            rintro (hOld | hNone)
            · exact hOld
            · cases hNone

/- A process in the list of the hinted ones was hinted. -/
theorem keeps_hintAll
    (hJob : j < t.updates.length)
    (hRange : 0 ≤ t.value (.update j))
    (pids updated : List Pid)
    (lastError : Str)
    (hIdle : g.Idle)
    (hListed : updated ≠ [] → g.hinted = true) :
    t.Keeps (.update j)
      (hintAll (t.value (.update j)) pids updated lastError)
      (fun hinted g' =>
        g'.Idle ∧
          ∀ listed error, hinted = some (listed, error) →
            listed ≠ [] → g'.hinted = true) g := by
  induction pids generalizing updated lastError g with
  | nil =>
      refine ⟨hIdle, ?_⟩
      rintro listed error hEq hNonempty
      cases hEq
      exact hListed hNonempty
  | cons pid pids ih =>
      unfold hintAll
      refine
        wp_seq (keeps_runXcliHint hJob hRange hIdle pid) ?_
      rintro hinted g' ⟨hIdle', hHinted⟩
      rcases hinted with _ | _ | error
      · refine ⟨hIdle', ?_⟩
        rintro listed error hEq
        cases hEq
      · exact ih _ _ hIdle' (fun _ => hHinted (Or.inr rfl))
      · refine ih _ _ hIdle' ?_
        intro hNonempty
        exact hHinted (Or.inl (hListed hNonempty))

/- The hints of an update that reports their success. -/
theorem keeps_updateTaskProcessUtilization
    (hJob : j < t.updates.length)
    (hIdle : g.Idle)
    (workspaceSubdir : Str) :
    t.Keeps (.update j)
      (updateTaskProcessUtilization
        workspaceSubdir (t.value (.update j)))
      (fun updated g' =>
        g'.Idle ∧
          ∀ result, updated = some result →
            result.success = true → g'.hinted = true) g := by
  have hFailure :
      ∀ (g' : HintView) message, g'.Idle →
        g'.Idle ∧
          ∀ result,
            some (UtilizationUpdateResult.failure message) =
                some result →
              result.success = true → g'.hinted = true := by
    intro g' message hIdle'
    refine ⟨hIdle', ?_⟩
    rintro result hEq hSuccess
    rw [← Option.some.inj hEq] at hSuccess
    cases hSuccess
  unfold updateTaskProcessUtilization
  apply wp_ite
  · exact fun _ => hFailure g _ hIdle
  · intro _
    apply wp_ite
    · exact fun _ => hFailure g _ hIdle
    · intro hValid
      have hRange : 0 ≤ t.value (.update j) := by omega
      refine Core.wp_tracked_call trivial ?_
      intro group
      cases group with
      | none => exact hFailure g _ hIdle
      | some pgid =>
          refine Core.wp_tracked_call trivial ?_
          intro listed
          rcases listed with _ | _ | ⟨pid, pids⟩
          · refine ⟨hIdle, ?_⟩
            rintro result hEq
            cases hEq
          · exact hFailure g _ hIdle
          · refine
              wp_seq
                (keeps_hintAll hJob hRange (pid :: pids)
                  [] [] hIdle
                  (fun hNe => absurd rfl hNe)) ?_
            rintro hinted g' ⟨hIdle', hListed⟩
            rcases hinted with _ | ⟨updated, lastError⟩
            · refine ⟨hIdle', ?_⟩
              rintro result hEq
              cases hEq
            · apply wp_ite
              · exact fun _ => hFailure g' _ hIdle'
              · intro hNonempty
                refine ⟨hIdle', ?_⟩
                rintro result hEq _
                exact hListed updated lastError rfl hNonempty

/- The file of an update that reports no error is written. -/
theorem keeps_writeRuntimeUtilizationFile
    (hClosed : g.opened = false) :
    t.Keeps (.update j)
      (writeRuntimeUtilizationFile t.root
        t.config.workspaceSubdir (t.value (.update j)))
      (fun error g' =>
        g'.opened = false ∧ g'.hinted = g.hinted ∧
          (error = none → g'.written = true)) g := by
  have hFailure :
      ∀ text : Str,
        g.opened = false ∧ g.hinted = g.hinted ∧
          (some text = none → g.written = true) :=
    fun _ =>
      ⟨hClosed, rfl, fun h => absurd h (Option.some_ne_none _)⟩
  unfold writeRuntimeUtilizationFile
  simp only []
  apply wp_ite
  · exact fun _ => hFailure _
  · intro _
    apply wp_ite
    · exact fun _ => hFailure _
    · intro _
      refine Core.wp_tracked_call trivial ?_
      intro rootError
      cases rootError with
      | some message => exact hFailure _
      | none =>
          apply wp_ite
          · exact fun _ => hFailure _
          · intro _
            refine Core.wp_tracked_call t.file_not_prefix ?_
            intro dirError
            cases dirError with
            | some message => exact hFailure _
            | none =>
                refine Core.wp_tracked_call trivial ?_
                intro isOpen
                simp only [HintView.after, t.file_eq,
                  true_and]
                cases isOpen with
                | false => exact hFailure _
                | true =>
                    simp only [if_true]
                    refine
                      Core.wp_tracked_call
                        (fun _ => ⟨rfl, rfl, rfl⟩) ?_
                    intro good
                    refine Core.wp_tracked_call trivial ?_
                    intro _
                    simp only [HintView.after, t.file_eq,
                      if_true]
                    cases good with
                    | true =>
                        exact
                          ⟨rfl, rfl, fun _ =>
                            Bool.or_true _⟩
                    | false =>
                        refine ⟨rfl, rfl, ?_⟩
                        intro hNone
                        cases hNone

/- A successful update has hinted and written the file. -/
theorem keeps_updateUtilization
    (hJob : j < t.updates.length)
    (hIdle : g.Idle) :
    t.Keeps (.update j)
      (updateUtilization t.root
        ⟨t.config.workspaceSubdir, t.value (.update j)⟩)
      (fun reply g' =>
        g'.opened = false ∧
          (reply.1.isOk = true →
            g'.hinted = true ∧ g'.written = true)) g := by
  unfold updateUtilization
  refine
    wp_seq
      (keeps_updateTaskProcessUtilization hJob hIdle
        t.config.workspaceSubdir) ?_
  rintro updated g' ⟨hIdle', hHinted⟩
  cases updated with
  | none =>
      refine ⟨hIdle'.opened, ?_⟩
      intro hOk
      cases hOk
  | some result =>
      refine
        wp_seq
          (keeps_writeRuntimeUtilizationFile
            hIdle'.opened) ?_
      rintro fileError g'' ⟨hClosed, hSame, hWritten⟩
      refine ⟨hClosed, ?_⟩
      intro hOk
      unfold updateReply at hOk
      by_cases hFailed : result.success = false
      · rw [if_pos hFailed] at hOk
        cases hOk
      · rw [if_neg hFailed] at hOk
        have hSuccess : result.success = true :=
          Bool.eq_true_of_not_eq_false hFailed
        cases fileError with
        | some message => cases hOk
        | none =>
            exact
              ⟨hSame.trans (hHinted result rfl hSuccess),
                hWritten rfl⟩

end Drex

------------------------------------------------------------
-- What Every Actor Keeps To
------------------------------------------------------------

namespace Drex

open Drex.Core.Prog

namespace UpdatedTask

variable (t : UpdatedTask)

/- How an actor leaves the two stores. -/
def Done (a : Actor) (ok : Bool) (g : HintView) : Prop :=
  g.opened = false ∧
    ∀ j, a = .update j → j < t.updates.length →
      ok = true → g.hinted = true ∧ g.written = true

end UpdatedTask

/- Every actor keeps to the conditions in every run. -/
theorem keeps_program
    (t : UpdatedTask)
    (a : Actor) :
    t.Keeps a (t.program a) (t.Done a) .init := by
  cases a with
  | parent =>
      refine wp_seq (TaskExecutor.keeps_execute rfl) ?_
      intro result g hClosed
      refine ⟨hClosed, ?_⟩
      intro j hEq
      cases hEq
  | child =>
      refine wp_seq (TaskExecutor.keeps_childProcess rfl) ?_
      intro _ g hClosed
      refine ⟨hClosed, ?_⟩
      intro j hEq
      cases hEq
  | update j =>
      simp only [UpdatedTask.program]
      cases hFound : t.updates[j]? with
      | none =>
          refine ⟨rfl, ?_⟩
          rintro j' hEq hJob
          cases hEq
          have hEnd := List.getElem?_eq_none_iff.mp hFound
          omega
      | some utilization =>
          have hJob : j < t.updates.length :=
            (List.getElem?_eq_some_iff.mp hFound).1
          have hValue :
              utilization = t.value (.update j) := by
            simp [UpdatedTask.value, List.getD, hFound]
          simp only [hValue]
          refine
            wp_seq
              (keeps_updateUtilization hJob ⟨rfl, rfl⟩) ?_
          rintro reply g ⟨hClosed, hBoth⟩
          exact ⟨hClosed, fun _ _ _ hOk => hBoth hOk⟩

end Drex
