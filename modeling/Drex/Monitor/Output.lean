import Drex.Monitor.Supervision

/-
  What a task wrote arrives in order and is not lost.

  The log chunks after the start notice are the bytes read,
  and they are the combined output.  The loop leaves an
  exited child only after a `poll` that came after the exit
  found nothing to read, or at the end of the stream.

  Key definitions include:
    * `TaskVerdict`
    * `Monitor.Reported`
    * `Supervised.Drained`
    * `Supervised.Conveyed`

  Key theorems include:
    * `Supervised.conveyed_step`
    * `Supervised.conveyed_reaches`
    * `Supervised.output_complete`
-/

------------------------------------------------------------
-- Statuses Of A Task
------------------------------------------------------------

namespace Drex

/- The task succeeded, or failed by its code or a signal. -/
def TaskVerdict (status : Status) : Prop :=
  status = Status.success ∨
    (∃ code output,
      status =
        ⟨.internal, Monitor.exitCodeMessage code output⟩) ∨
      ∃ signal,
        status =
          ⟨.internal,
            "Task terminated by signal: ".toList ++
              decimal signal⟩

/- The texts of these failures start alike. -/
theorem TaskVerdict.code_or_head
    {status : Status}
    (h : TaskVerdict status) :
    status.code = .ok ∨
      (status.code = .internal ∧
        status.message.head? = some 'T') := by
  have hCode :
      "Task failed with exit code: ".toList.head? =
        some 'T' := by
    decide
  have hSignal :
      "Task terminated by signal: ".toList.head? =
        some 'T' := by
    decide
  rcases h with rfl | ⟨code, output, rfl⟩ | ⟨signal, rfl⟩
  · exact Or.inl rfl
  · refine Or.inr ⟨rfl, ?_⟩
    unfold Monitor.exitCodeMessage
    rw [List.append_assoc, List.head?_append, hCode,
      Option.some_or]
  · refine Or.inr ⟨rfl, ?_⟩
    rw [List.head?_append, hSignal, Option.some_or]

/- An error of a system call is none of them. -/
theorem not_taskVerdict_systemError
    {what : String}
    {errno : Str}
    (hWhat :
      what.toList.head? = some 'p' ∨
        what.toList.head? = some 'F') :
    ¬ TaskVerdict (Status.systemError what errno) := by
  intro hTask
  have hHead :
      (Status.systemError what errno).message.head? =
        what.toList.head? := by
    unfold Status.systemError
    rcases hWhat with h | h <;> cases hText : what.toList <;>
      simp_all
  rcases hTask.code_or_head with hCode | ⟨_, hMessage⟩
  · cases hCode
  · rw [hHead] at hMessage
    rcases hWhat with h | h <;> simp [h] at hMessage

namespace Monitor

/-
  A task's own status comes from a reaped child, after the
  loop has ended.
-/
def Reported (m : Monitor) : Prop :=
  match m.pc with
  | .failClose status => ¬ TaskVerdict status
  | .failStop status => ¬ TaskVerdict status
  | .failJoin status => ¬ TaskVerdict status
  | .returned status =>
      TaskVerdict status →
        m.exit = some .loopEnded ∧ m.reaps ≠ []
  | _ => True

variable {cfg : MonitorConfig} {m m' : Monitor}

/- The main thread's steps. -/
theorem reported_main
    {e : MainEvent}
    (h : m.Reported)
    (hPhase : m.Phase)
    (hStep : m.main cfg e = some m') :
    m'.Reported := by
  unfold Reported at h
  unfold Phase at hPhase
  cases main_move hStep with
  | pollError errno hPc =>
      exact not_taskVerdict_systemError (Or.inl (by simp))
  | readError errno eio now hPc hEnds =>
      exact not_taskVerdict_systemError (Or.inr (by simp))
  | failClose status hPc =>
      rw [hPc] at h
      exact h
  | failStop status hPc =>
      rw [hPc] at h
      exact h
  | failJoin status hPc hJoinable =>
      rw [hPc] at h
      exact fun hTask => absurd hTask h
  | idleReaped status now hPc =>
      intro hTask
      rcases hTask.code_or_head with hCode | ⟨hCode, _⟩
      · cases hCode
      · cases hCode
  | idleUnreaped now hPc =>
      intro hTask
      rcases hTask.code_or_head with hCode | ⟨hCode, _⟩
      · cases hCode
      · cases hCode
  | joinExited hPc hJoinable hExited =>
      rw [hPc] at hPhase
      rcases hPhase with ⟨hExit, hReaped⟩
      unfold Reaped at hReaped
      rw [if_pos hExited] at hReaped
      exact fun _ => ⟨hExit, by simp [hReaped]⟩
  | reaped status now hPc =>
      rw [hPc] at hPhase
      exact fun _ => ⟨hPhase.1, by simp⟩
  | unreaped now hPc =>
      intro hTask
      rcases hTask.code_or_head with hCode | ⟨_, hHead⟩
      · cases hCode
      · simp [Status.internal] at hHead
  | data first rest now hPc =>
      unfold Reported
      simp only [hPc]
  | readAgain now hPc => exact h
  | _ => trivial

theorem reported_watch
    {isCancelled : Bool}
    (h : m.Reported)
    (hStep : m.watch isCancelled = some m') :
    m'.Reported := by
  rcases watch_fields hStep with
    ⟨watcher, cancelled, signals, rfl⟩
  exact h

end Monitor

end Drex

------------------------------------------------------------
-- Bytes On Their Way
------------------------------------------------------------

namespace Drex

namespace Supervised

variable {cfg : MonitorConfig} {s s' : Supervised}

/- All that was written before the child exited was read. -/
def Drained (s : Supervised) : Prop :=
  ∃ before, s.atExit = some before ∧ before <+: s.taken

/- Where the bytes are that the task wrote. -/
structure Conveyed (s : Supervised) : Prop where
  written : s.written = s.taken ++ s.pipe
  combined : s.monitor.combinedOutput = s.taken
  unstarted :
    s.monitor.pc = .start →
      s.monitor.chunks = [] ∧ s.taken = []
  chunks :
    s.monitor.pc ≠ .start →
      ∃ outs,
        s.monitor.chunks = Monitor.startNotice :: outs ∧
          (s.monitor.exit ≠ some .idleTimeout →
            outs.flatten = s.taken)
  before : ∀ b, s.atExit = some b → b <+: s.written
  quiet :
    s.monitor.pc = .quiet →
      s.monitor.childExited = true → s.Drained
  ended :
    s.monitor.exit = some .loopEnded →
      s.closed = true ∨ s.Drained

theorem conveyed_init : init.Conveyed where
  written := rfl
  combined := rfl
  unstarted := fun _ => ⟨rfl, rfl⟩
  chunks := fun hPc => absurd rfl hPc
  before := fun b hExit => by cases hExit
  quiet := fun hPc => by cases hPc
  ended := fun hExit => by cases hExit

/- After the exit an empty pipe has been drained. -/
theorem Conveyed.drained
    (h : s.Conveyed)
    (hSteady : s.Steady)
    (hLife : s.life ≠ .running)
    (hPipe : s.pipe = []) :
    s.Drained := by
  cases hExit : s.atExit with
  | none => exact absurd (hSteady.running.mpr hExit) hLife
  | some before =>
      refine ⟨before, hExit, ?_⟩
      have hWritten := h.written
      rw [hPipe, List.append_nil] at hWritten
      rw [← hWritten]
      exact h.before before hExit

/- A drained child does not run. -/
theorem Drained.not_running
    (h : s.Drained)
    (hSteady : s.Steady) :
    s.life ≠ .running := by
  intro hRuns
  rcases h with ⟨before, hExit, _⟩
  rw [hSteady.running.mp hRuns] at hExit
  cases hExit

/- A read moves the front of the pipe. -/
theorem conveyed_data
    {first : Char}
    {rest : Str}
    {now : Nat}
    {strays : Nat}
    (h : s.Conveyed)
    (hSteady : s.Steady)
    (hPc : s.monitor.pc = .reading)
    (hFront : (first :: rest).isPrefixOf s.pipe = true) :
    Conveyed
      { s.settle
          (.main (.readDone (.data first rest) now)) with
        monitor :=
          { s.monitor with
            chunks := s.monitor.chunks ++ [first :: rest]
            combinedOutput :=
              s.monitor.combinedOutput ++ first :: rest
            lastOutputTime := now }
        strays := strays } := by
  have hPhase := hSteady.phase
  unfold Monitor.Phase at hPhase
  rw [hPc] at hPhase
  rcases List.isPrefixOf_iff_prefix.mp hFront with
    ⟨left, hPipe⟩
  have hStarted : s.monitor.pc ≠ .start := by
    rw [hPc]
    decide
  rcases h.chunks hStarted with ⟨outs, hChunks, hFlatten⟩
  refine
    { written := ?_
      combined := ?_
      unstarted := fun hStart => absurd hStart hStarted
      chunks := fun _ => ⟨outs ++ [first :: rest], ?_, ?_⟩
      before := h.before
      quiet := fun hQuiet => ?_
      ended := fun hExit => ?_ }
  · change
      s.written =
        (s.taken ++ first :: rest) ++
          s.pipe.drop (first :: rest).length
    rw [h.written, ← hPipe, List.drop_left, List.append_assoc]
  · change
      s.monitor.combinedOutput ++ first :: rest =
        s.taken ++ first :: rest
    rw [h.combined]
  · change
      s.monitor.chunks ++ [first :: rest] =
        Monitor.startNotice :: (outs ++ [first :: rest])
    rw [hChunks, List.cons_append]
  · intro hExit
    change
      (outs ++ [first :: rest]).flatten =
        s.taken ++ first :: rest
    rw [List.flatten_append, hFlatten hExit,
      List.flatten_singleton]
  · change s.monitor.pc = .quiet at hQuiet
    rw [hPc] at hQuiet
    cases hQuiet
  · change s.monitor.exit = some .loopEnded at hExit
    rw [hPhase.1] at hExit
    cases hExit

/- Any other result leaves the output as it is. -/
theorem settle_of_not_data
    {e : MainEvent}
    (hData :
      ∀ first rest now, e ≠ .readDone (.data first rest) now) :
    ∃ life, s.settle (.main e) = { s with life := life } := by
  unfold settle
  split
  · exact ⟨_, rfl⟩
  · rename_i first rest now hEvent
    cases hEvent
    exact absurd rfl (hData first rest now)
  · exact ⟨s.life, rfl⟩

/-
  A step that reads nothing keeps the bytes where they are:
  it must account for its chunks and for its way out.
-/
theorem Conveyed.still
    {life : ChildLife}
    {m : Monitor}
    {strays : Nat}
    (h : s.Conveyed)
    (hCombined :
      m.combinedOutput = s.monitor.combinedOutput)
    (hStarted : m.pc ≠ .start)
    (hChunks :
      ∃ outs,
        m.chunks = Monitor.startNotice :: outs ∧
          (m.exit ≠ some .idleTimeout →
            outs.flatten = s.taken))
    (hQuiet :
      m.pc = .quiet → m.childExited = true → s.Drained)
    (hEnded :
      m.exit = some .loopEnded →
        s.closed = true ∨ s.Drained) :
    Conveyed
      { s with life := life, monitor := m, strays := strays } where
  written := h.written
  combined := hCombined.trans h.combined
  unstarted := fun hPc => absurd hPc hStarted
  chunks := fun _ => hChunks
  before := h.before
  quiet := hQuiet
  ended := hEnded

/- In the loop the chunks after the notice were read. -/
theorem Conveyed.outs
    (h : s.Conveyed)
    (hStarted : s.monitor.pc ≠ .start)
    (hExit : s.monitor.exit = none) :
    ∃ outs,
      s.monitor.chunks = Monitor.startNotice :: outs ∧
        outs.flatten = s.taken := by
  rcases h.chunks hStarted with ⟨outs, hChunks, hFlatten⟩
  refine ⟨outs, hChunks, hFlatten ?_⟩
  rw [hExit]
  decide

/- A step that only leaves the loop accounts for its end. -/
theorem Conveyed.leave
    {life : ChildLife}
    {m : Monitor}
    {strays : Nat}
    (h : s.Conveyed)
    (hStarted : s.monitor.pc ≠ .start)
    (hExit : s.monitor.exit = none)
    (hCombined :
      m.combinedOutput = s.monitor.combinedOutput)
    (hSame : m.chunks = s.monitor.chunks)
    (hPc : m.pc ≠ .start ∧ m.pc ≠ .quiet)
    (hEnded :
      m.exit = some .loopEnded →
        s.closed = true ∨ s.Drained) :
    Conveyed
      { s with
        life := life, monitor := m, strays := strays } := by
  rcases h.outs hStarted hExit with ⟨outs, hChunks, hFlatten⟩
  refine h.still hCombined hPc.1 ⟨outs, ?_, ?_⟩ ?_ hEnded
  · exact hSame.trans hChunks
  · exact fun _ => hFlatten
  · exact fun hQuiet => absurd hQuiet hPc.2

/- A poll that timed out after the exit has drained it. -/
theorem drained_of_timeout
    (h : s.Conveyed)
    (hSteady : s.Steady)
    (hPc : s.monitor.pc = .polling)
    (hEmpty : s.empty = true)
    (hExited : s.monitor.childExited = true) :
    s.Drained := by
  have hPhase := hSteady.phase
  unfold Monitor.Phase at hPhase
  rw [hPc] at hPhase
  have hReaped :=
    hSteady.reaped_of_childExited hPhase.2 hExited
  have hPipe : s.pipe = [] := by
    simp only [empty, Bool.and_eq_true,
      decide_eq_true_eq] at hEmpty
    exact hEmpty.2
  refine h.drained hSteady ?_ hPipe
  intro hRuns
  rw [hRuns] at hReaped
  cases hReaped

/- The main thread's steps other than reading. -/
theorem conveyed_main
    {e : MainEvent}
    {m : Monitor}
    {strays : Nat}
    (h : s.Conveyed)
    (hSteady : s.Steady)
    (hAnswers : s.answers cfg (.main e) = true)
    (hStep : s.monitor.main cfg e = some m) :
    Conveyed
      { s.settle (.main e) with
        monitor := m
        strays := strays } := by
  have hPhase := hSteady.phase
  unfold Monitor.Phase at hPhase
  have hMove := Monitor.main_move hStep
  by_cases hData :
      ∃ first rest now, e = .readDone (.data first rest) now
  · rcases hData with ⟨first, rest, now, rfl⟩
    cases hMove with
    | data first rest now hPc =>
        exact conveyed_data h hSteady hPc hAnswers
  · simp only [not_exists] at hData
    rcases settle_of_not_data (s := s) hData with
      ⟨life, hSettle⟩
    rw [hSettle]
    cases hMove with
    | start now hPc =>
        rcases h.unstarted hPc with ⟨hChunks, hTaken⟩
        rw [hPc] at hPhase
        refine h.still rfl (by simp) ⟨[], ?_, ?_⟩ ?_ ?_
        · simp [hChunks]
        · simp [hTaken]
        · intro hQuiet
          cases hQuiet
        · intro hExit
          simp [hPhase.1] at hExit
    | pollTimeout hPc =>
        have hChunks := h.chunks (by simp [hPc])
        refine h.still rfl (by simp) hChunks ?_ h.ended
        exact fun _ =>
          drained_of_timeout h hSteady hPc hAnswers
    | pollError errno hPc =>
        rw [hPc] at hPhase
        exact
          h.leave (by simp [hPc]) hPhase.1 rfl rfl (by simp)
            (by simp)
    | readError errno eio now hPc hEnds =>
        rw [hPc] at hPhase
        exact
          h.leave (by simp [hPc]) hPhase.1 rfl rfl (by simp)
            (by simp)
    | drain now hPc hDrained =>
        rw [hPc] at hPhase
        simp only [Monitor.drained, Bool.and_eq_true]
          at hDrained
        exact
          h.leave (by simp [hPc]) hPhase.1 rfl rfl (by simp)
            (fun _ => Or.inr (h.quiet hPc hDrained.1))
    | idle now hPc hIdle =>
        rcases h.chunks (by simp [hPc]) with ⟨outs, hChunks, _⟩
        let notice :=
          Monitor.idleNotice
            (Monitor.elapsedInt now s.monitor.lastOutputTime)
        refine
          h.still rfl (by simp) ⟨outs ++ [notice], ?_, ?_⟩
            (by simp) (by simp)
        · simp only [hChunks, List.cons_append, notice]
        · exact fun hExit => absurd rfl hExit
    | endOfStream now hPc =>
        rw [hPc] at hPhase
        exact
          h.leave (by simp [hPc]) hPhase.1 rfl rfl (by simp)
            (fun _ => Or.inl hAnswers)
    | hangup errno eio now hPc hEnds =>
        rw [hPc] at hPhase
        simp only [answers, hEnds, Bool.not_true,
          Bool.false_or] at hAnswers
        exact
          h.leave (by simp [hPc]) hPhase.1 rfl rfl (by simp)
            (fun _ => Or.inl hAnswers)
    | readAgain now hPc =>
        have hStarted : s.monitor.pc ≠ .start := by
          simp [hPc]
        exact
          h.still rfl hStarted (h.chunks hStarted) h.quiet
            h.ended
    | data first rest now hPc =>
        exact absurd rfl (hData first rest now)
    | _ =>
        have hStarted : s.monitor.pc ≠ .start := by
          simp [‹s.monitor.pc = _›]
        exact
          h.still rfl (by simp) (h.chunks hStarted) (by simp)
            h.ended

/- The watcher reads and writes nothing. -/
theorem conveyed_watch
    {isCancelled : Bool}
    {m : Monitor}
    {strays : Nat}
    (h : s.Conveyed)
    (hSteady : s.Steady)
    (hStep : s.monitor.watch isCancelled = some m) :
    Conveyed { s with monitor := m, strays := strays } := by
  have hStarted : s.monitor.pc ≠ .start := by
    intro hPc
    simp [Monitor.watch, hSteady.unstarted hPc] at hStep
  rcases Monitor.watch_fields hStep with
    ⟨watcher, cancelled, signals, rfl⟩
  exact
    h.still rfl hStarted (h.chunks hStarted) h.quiet h.ended

/- What the task does to its bytes. -/
theorem conveyed_task
    {event : TaskEvent}
    (h : s.Conveyed)
    (hSteady : s.Steady)
    (hTask : ∀ e, event ≠ .monitor e)
    (hStep : step cfg s event = some s') :
    s'.Conveyed := by
  cases task_move hTask hStep with
  | write first rest hOpen =>
      refine
        { h with
          written := ?_
          before := fun b hExit => ?_
          ended := fun hExit => ?_ }
      · change
          s.written ++ first :: rest =
            s.taken ++ (s.pipe ++ first :: rest)
        rw [h.written, List.append_assoc]
      · exact (h.before b hExit).trans (List.prefix_append _ _)
      · rcases h.ended hExit with hClosed | hDrained
        · simp [closed, hOpen] at hClosed
        · exact Or.inr hDrained
  | closeOutput hOpen =>
      refine { h with ended := fun hExit => ?_ }
      rcases h.ended hExit with hClosed | hDrained
      · simp [closed, hOpen] at hClosed
      · exact Or.inr hDrained
  | exit status hRuns =>
      have hUndrained : ¬ s.Drained :=
        fun hDrained => hDrained.not_running hSteady hRuns
      refine
        { h with
          before := fun b hExit => ?_
          quiet := fun hQuiet hExited =>
            absurd (h.quiet hQuiet hExited) hUndrained
          ended := fun hExit => ?_ }
      · cases hExit
        exact List.prefix_refl _
      · exact Or.inl ((h.ended hExit).resolve_right hUndrained)
  | join hSomeone => exact { h with }
  | leave hOthers => exact { h with }

theorem conveyed_step
    {event : TaskEvent}
    (h :
      s.Conveyed ∧ s.monitor.Reported ∧ s.Steady)
    (hStep : step cfg s event = some s') :
    s'.Conveyed ∧ s'.monitor.Reported ∧ s'.Steady := by
  rcases h with ⟨hConveyed, hReported, hSteady⟩
  have hNext := steady_step hSteady hStep
  cases event with
  | monitor e =>
      rcases step_monitor hStep with
        ⟨hAnswers, m, hMonitor, rfl⟩
      cases e with
      | main e =>
          exact
            ⟨conveyed_main hConveyed hSteady hAnswers hMonitor,
              Monitor.reported_main hReported hSteady.phase
                hMonitor,
              hNext⟩
      | watcher isCancelled =>
          exact
            ⟨conveyed_watch hConveyed hSteady hMonitor,
              Monitor.reported_watch hReported hMonitor,
              hNext⟩
  | _ =>
      refine
        ⟨conveyed_task hConveyed hSteady (by simp) hStep, ?_,
          hNext⟩
      rw [step_task (by simp) hStep]
      exact hReported

theorem conveyed_reaches
    (h : Core.Reaches (step cfg) init s) :
    s.Conveyed ∧ s.monitor.Reported ∧ s.Steady :=
  h.invariant
    (I := fun s =>
      s.Conveyed ∧ s.monitor.Reported ∧ s.Steady)
    ⟨conveyed_init, trivial, steady_init⟩
    (fun _ _ _ => conveyed_step)

/-
  When the call returns the task's own status, the chunks
  after the notice and the combined output are the bytes that
  were read, with all that was written before the exit.
-/
theorem output_complete
    {status : Status}
    (hReach : Core.Reaches (step cfg) init s)
    (hPc : s.monitor.pc = .returned status)
    (hStatus : TaskVerdict status) :
    ∃ outs before,
      s.monitor.chunks = Monitor.startNotice :: outs ∧
        outs.flatten = s.taken ∧
          s.monitor.combinedOutput = s.taken ∧
            s.atExit = some before ∧ before <+: s.taken := by
  rcases conveyed_reaches hReach with
    ⟨hConveyed, hReported, hSteady⟩
  unfold Monitor.Reported at hReported
  rw [hPc] at hReported
  rcases hReported hStatus with ⟨hExit, hReaps⟩
  have hStarted : s.monitor.pc ≠ .start := by
    simp [hPc]
  rcases hConveyed.chunks hStarted with
    ⟨outs, hChunks, hFlatten⟩
  have hDrained : s.Drained := by
    rcases hConveyed.ended hExit with hClosed | hDrained
    · simp only [closed, Bool.and_eq_true,
        decide_eq_true_eq] at hClosed
      refine hConveyed.drained hSteady ?_ hClosed.2
      intro hRuns
      apply hReaps
      rw [hSteady.reaped, hRuns]
      rfl
    · exact hDrained
  rcases hDrained with ⟨before, hBefore, hPrefix⟩
  refine
    ⟨outs, before, hChunks, hFlatten ?_, hConveyed.combined,
      hBefore, hPrefix⟩
  rw [hExit]
  decide

/-
  A task writes twice, the second time just before it exits;
  the first write is read in two pieces, and the pipe stays
  open.
-/
def shortReads : List TaskEvent :=
  [.monitor (.main (.clock 0)), .write 'h' ['i'],
    .monitor (.main (.waited .pending 0)),
    .monitor (.main (.polled (.ready true))),
    .monitor (.main (.readDone (.data 'h' []) 1)),
    .monitor (.main (.readDone .interrupted 1)),
    .monitor (.main (.readDone (.data 'i' []) 2)),
    .monitor (.main (.readDone .wouldBlock 2)),
    .write '!' [], .exit 0,
    .monitor (.main (.waited (.reaped 0) 3)),
    .monitor (.main (.polled (.ready true))),
    .monitor (.main (.readDone (.data '!' []) 4)),
    .monitor (.main (.readDone .wouldBlock 4)),
    .monitor (.main .advance),
    .monitor (.main (.polled .timeout)),
    .monitor (.main (.clock 204)),
    .monitor (.main .advance), .monitor (.main .advance),
    .monitor (.watcher false), .monitor (.main .advance)]

theorem output_complete_shortReads :
    ∃ s outs before,
      Core.Reaches (step .pipe) init s ∧
        s.monitor.chunks = Monitor.startNotice :: outs ∧
          outs.flatten = "hi!".toList ∧
            s.atExit = some before ∧
              before <+: "hi!".toList := by
  have hRun :
      (Core.runLabels (step .pipe) shortReads init).any
        (fun s =>
          decide
            (s.monitor.pc = .returned Status.success ∧
              s.taken = "hi!".toList)) = true := by
    decide +kernel
  rcases Core.reaches_of_any hRun with ⟨s, hReach, hCheck⟩
  rcases of_decide_eq_true hCheck with ⟨hPc, hTaken⟩
  rcases output_complete hReach hPc (Or.inl rfl) with
    ⟨outs, before, hChunks, hFlatten, _, hExit, hPrefix⟩
  rw [hTaken] at hFlatten hPrefix
  exact
    ⟨s, outs, before, hReach, hChunks, hFlatten, hExit,
      hPrefix⟩

end Supervised

end Drex
