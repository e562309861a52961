import Drex.Client.Terminal
import Drex.Monitor.Output
import Drex.Upload.Agreement

/-
  From the task's output to the terminal of the client.

  Key definitions include:
    * `Supervised.Buried`
    * `outcomesOf`
    * `Sent`
    * `shown`
    * `Supervised.Ends`
    * `Attended`
    * `TerminalShows`
    * `TaskShown`
    * `Delivered`

  Key theorems include:
    * `Supervised.buried_reaches`
    * `produces_taskSubmission_sent`
    * `drainPrinted_raw`
    * `Sent.shows`
    * `terminal_shows_task`
    * `exit_zero_delivered`
-/

------------------------------------------------------------
-- The Task That Was Watched
------------------------------------------------------------

namespace Drex

namespace Supervised

variable {cfg : MonitorConfig} {s s' : Supervised}

/- What was reaped is the wait status of the direct child. -/
def Buried (s : Supervised) : Prop :=
  ∀ status, s.monitor.reaps = [status] →
    s.life = .reaped status

theorem buried_init : init.Buried := by
  intro status hReaps
  cases hReaps

/- The main thread's steps. -/
theorem buried_main
    {e : MainEvent}
    {m : Monitor}
    {strays : Nat}
    (h : s.Buried)
    (hAnswers : s.answers cfg (.main e) = true)
    (hStep : s.monitor.main cfg e = some m) :
    Buried
      { s.settle (.main e) with
        monitor := m
        strays := strays } := by
  intro status hReaps
  have hLast
      {statuses : List Nat}
      {other : Nat}
      (hOne : statuses ++ [other] = [status]) :
      other = status := by
    have hEnd := congrArg List.getLast? hOne
    simpa using hEnd
  cases Monitor.main_move hStep with
  | noticed other now hPc hNoted =>
      rw [← hLast hReaps]
      rfl
  | idleReaped other now hPc =>
      rw [← hLast hReaps]
      rfl
  | reaped other now hPc =>
      rw [← hLast hReaps]
      rfl
  | _ => exact h status hReaps

theorem buried_step
    {event : TaskEvent}
    (h : s.Buried)
    (hStep : step cfg s event = some s') :
    s'.Buried := by
  cases event with
  | monitor e =>
      rcases step_monitor hStep with
        ⟨hAnswers, m, hNext, rfl⟩
      cases e with
      | main e => exact buried_main h hAnswers hNext
      | watcher isCancelled =>
          rcases Monitor.watch_fields hNext with
            ⟨watcher, cancelled, signals, rfl⟩
          exact h
  | exit status =>
      intro other hReaps
      cases task_move (by simp) hStep with
      | exit _ hRuns =>
          rw [h other hReaps] at hRuns
          cases hRuns
  | write first rest =>
      cases task_move (by simp) hStep
      exact h
  | closeOutput =>
      cases task_move (by simp) hStep
      exact h
  | join =>
      cases task_move (by simp) hStep
      exact h
  | leave =>
      cases task_move (by simp) hStep
      exact h

theorem buried_reaches
    (h : Core.Reaches (step cfg) init s) :
    s.Buried :=
  h.invariant buried_init fun _ _ _ => buried_step

end Supervised

end Drex

------------------------------------------------------------
-- What A Submission Sends
------------------------------------------------------------

namespace Drex

open Drex.Core.Prog

/- The outcome of monitoring, where a task was monitored. -/
def ServerEvent.outcome? : ServerEvent → Option MonitorOutcome
| ⟨.monitor _ _, monitored⟩ => monitored
| _ => none

/- The outcomes of monitoring in a run. -/
def outcomesOf (trace : List ServerEvent) :
    List MonitorOutcome :=
  trace.filterMap ServerEvent.outcome?

@[simp] theorem outcomesOf_append
    (s t : List ServerEvent) :
    outcomesOf (s ++ t) = outcomesOf s ++ outcomesOf t :=
  List.filterMap_append

@[simp] theorem outcomesOf_nil : outcomesOf [] = [] :=
  rfl

theorem outcomesOf_of_silent
    {trace : List ServerEvent}
    (h : ∀ e ∈ trace, Silent e.1) :
    outcomesOf trace = [] := by
  unfold outcomesOf
  rw [List.filterMap_eq_nil_iff]
  rintro ⟨op, r⟩ hMem
  have hSilent := h _ hMem
  cases op with
  | monitor child config => exact hSilent.elim
  | _ => rfl

/- A task whose verdict is OK ended with the OK status. -/
theorem Monitor.success_of_isOk
    {cfg : MonitorConfig}
    {outcome : MonitorOutcome}
    (h : Returns cfg outcome)
    (hOk : outcome.status.isOk = true) :
    outcome.status = Status.success := by
  rcases h with ⟨m, status, hReach, hPc, rfl⟩
  have hPhase := phase_reaches hReach
  unfold Phase at hPhase
  rw [hPc] at hPhase
  rcases hPhase with
    ⟨_, ⟨_, hVerdict⟩ | ⟨_, hFailed⟩⟩
  · rcases hVerdict with ⟨waitStatus, _, rfl⟩ | ⟨_, hFailed⟩
    · rcases (isOk_verdict_iff _ _ _).mp hOk with
        ⟨hCancelled, hExited, hCode⟩
      simp [outcome, verdict, hCancelled, hExited, hCode]
    · rw [show status.isOk = true from hOk] at hFailed
      cases hFailed
  · rw [show status.isOk = true from hOk] at hFailed
    cases hFailed

/-
  The one task of a run, if it has one: its chunks were sent
  and its status is the one given.
-/
def Relayed
    (status : Status)
    (trace : List ServerEvent)
    (closing : List TaskResponse) : Prop :=
  (outcomesOf trace = [] ∧ status.isOk = false ∧
      responsesOf trace = closing) ∨
    ∃ outcome, outcomesOf trace = [outcome] ∧
      outcome.status = status ∧
      (status.isOk = true → status = Status.success) ∧
      responsesOf trace =
        outcome.chunks.map TaskResponse.logChunk ++ closing

theorem Relayed.success_of_isOk
    {status : Status}
    {trace : List ServerEvent}
    {closing : List TaskResponse}
    (h : Relayed status trace closing)
    (hOk : status.isOk = true) :
    status = Status.success := by
  rcases h with ⟨_, hFailed, _⟩ | ⟨_, _, _, hSuccess, _⟩
  · rw [hOk] at hFailed
    cases hFailed
  · exact hSuccess hOk

/- Silent events before and after change nothing. -/
theorem Relayed.surround
    {status : Status}
    {before trace after : List ServerEvent}
    {closing : List TaskResponse}
    (h : Relayed status trace closing)
    (hBefore : ∀ e ∈ before, Silent e.1)
    (hAfter : ∀ e ∈ after, Silent e.1) :
    Relayed status (before ++ (trace ++ after)) closing := by
  have hFirst := outcomesOf_of_silent hBefore
  have hLast := outcomesOf_of_silent hAfter
  have hQuietFirst := (silent_trace hBefore).1
  have hQuietLast := (silent_trace hAfter).1
  rcases h with ⟨hNone, hFailed, hSent⟩ |
    ⟨outcome, hOne, hStatus, hOk, hSent⟩
  · refine Or.inl ⟨?_, hFailed, ?_⟩
    · simp [hFirst, hLast, hNone]
    · simp [hQuietFirst, hQuietLast, hSent]
  · refine Or.inr ⟨outcome, ?_, hStatus, hOk, ?_⟩
    · simp [hFirst, hLast, hOne]
    · simp [hQuietFirst, hQuietLast, hSent]

/- More responses behind the chunks. -/
theorem Relayed.send
    {status : Status}
    {trace after : List ServerEvent}
    {closing more : List TaskResponse}
    (h : Relayed status trace closing)
    (hNone : outcomesOf after = [])
    (hMore : responsesOf after = more) :
    Relayed status (trace ++ after) (closing ++ more) := by
  rcases h with ⟨hNobody, hFailed, hSent⟩ |
    ⟨outcome, hOne, hStatus, hOk, hSent⟩
  · refine Or.inl ⟨?_, hFailed, ?_⟩
    · simp [hNobody, hNone]
    · simp [hSent, hMore]
  · refine Or.inr ⟨outcome, ?_, hStatus, hOk, ?_⟩
    · simp [hOne, hNone]
    · simp [hSent, hMore]

/- A command returns a status that is the one relayed. -/
theorem produces_runCommand_relayed (config : TaskConfig) :
    Produces Plausible (TaskExecutor.runCommand config)
      (fun ended trace =>
        ∃ status, ended = .status status ∧
          Relayed status trace []) := by
  refine
    produces_bind
      (TaskExecutor.wp_startChildProcess_silent config
        []).produces ?_
  rintro started first ⟨hStart, hSilent⟩
  have hNone := outcomesOf_of_silent hSilent
  have hQuiet := (silent_trace hSilent).1
  cases started with
  | error status =>
      apply produces_pure
      rw [List.append_nil]
      exact
        ⟨status, rfl, Or.inl ⟨hNone, hStart, hQuiet⟩⟩
  | ok child =>
      apply produces_call
      intro _ _
      apply produces_call
      intro _ _
      unfold TaskExecutor.monitorChildProcess
      simp only [LawfulMonad.bind_assoc]
      apply produces_call
      intro idleTimeout _
      apply produces_call
      intro monitored hMonitored
      rcases hMonitored with ⟨outcome, rfl, hReturns⟩
      simp only []
      apply produces_call
      intro _ _
      apply produces_pure
      refine
        ⟨outcome.status, rfl,
          Or.inr
            ⟨outcome, ?_, rfl,
              Monitor.success_of_isOk hReturns, ?_⟩⟩
      · rw [outcomesOf_append, hNone]
        rfl
      · simp [hQuiet, ServerEvent.responses]

/- What `Execute` relays, with its own last chunk. -/
def RelayedBy
    (executed : Except Ending TaskResult)
    (trace : List ServerEvent) : Prop :=
  match executed with
  | .ok result =>
      result = TaskExecutor.successResult ∧
        Relayed Status.success trace [.logChunk finishedText]
  | .error (.status status) =>
      status.isOk = false ∧ Relayed status trace []
  | .error .thrown => False

theorem produces_execute_relayed
    (root : WorkspaceRoot)
    (config : TaskConfig) :
    Produces Plausible (TaskExecutor.execute root config)
      RelayedBy := by
  unfold TaskExecutor.execute
  simp only []
  split
  · apply produces_pure
    exact ⟨rfl, Or.inl ⟨rfl, rfl, rfl⟩⟩
  · apply produces_call
    intro dirError _
    split
    · apply produces_pure
      exact ⟨rfl, Or.inl ⟨rfl, rfl, rfl⟩⟩
    · have hConfigure :=
        WritesNothing.of_onlyCalls silent_of_prepares
          (TaskExecutor.onlyCalls_configure config
            (subdirPath root config.workspaceSubdir)) []
      refine produces_bind hConfigure.produces ?_
      rintro _ first ⟨_, hSilent⟩
      apply produces_call
      intro logged hLogged
      rw [if_pos (show logged = true from hLogged)]
      refine
        produces_bind (produces_runCommand_relayed config) ?_
      rintro ended second ⟨runStatus, rfl, hRelayed⟩
      have hBefore :
          ∀ e ∈ (⟨.createDirectories
                  (subdirPath root config.workspaceSubdir),
                dirError⟩ ::
              (first ++
                [⟨.logExecutionContext
                    (subdirPath root config.workspaceSubdir),
                  logged⟩]) : List ServerEvent),
            Silent e.1 := by
        simp only [List.mem_cons, List.mem_append,
          List.not_mem_nil, or_false]
        rintro e (rfl | hMem | rfl)
        · exact trivial
        · exact hSilent e hMem
        · exact trivial
      have hAll :=
        hRelayed.surround hBefore
          (fun _ hMem => absurd hMem List.not_mem_nil)
      split
      · rename_i hOk
        rw [TaskExecutor.emitLogChunk_finished]
        apply produces_call
        intro sent _
        apply produces_pure
        have hSent :=
          hAll.send
            (show outcomesOf
                [⟨.send (.logChunk finishedText), sent⟩] = []
              from rfl) rfl
        rw [hRelayed.success_of_isOk hOk] at hSent
        refine ⟨rfl, ?_⟩
        simpa [ServerEvent.responses] using hSent
      · rename_i hFailed
        apply produces_pure
        refine ⟨by simpa [Ending.isOk] using hFailed, ?_⟩
        simpa using hAll

/- The server's own last chunk, after a success. -/
def finishedResponses (status : Status) : List TaskResponse :=
  if status.isOk then [.logChunk finishedText] else []

/- All that a submission sends, and for which task. -/
def Sent
    (status : Status)
    (trace : List ServerEvent) : Prop :=
  Relayed status trace
    (finishedResponses status ++ closingResponses status)

/- A failed part relays nothing of a task. -/
theorem sent_of_failed
    {status : Status}
    {before after : List ServerEvent}
    (hFailed : status.isOk = false)
    (h : Relayed status before [])
    (hNone : outcomesOf after = [])
    (hClosing : responsesOf after = closingResponses status) :
    Sent status (before ++ after) := by
  unfold Sent finishedResponses
  rw [hFailed, if_neg Bool.false_ne_true]
  exact h.send hNone hClosing

theorem produces_failSubmission_sent
    {failure : Status}
    (hFailed : failure.isOk = false) :
    Produces Plausible (failSubmission (.status failure))
      (fun status trace =>
        status = failure ∧ outcomesOf trace = [] ∧
          responsesOf trace = closingResponses failure) := by
  intro trace status hRun
  rcases produces_failSubmission hFailed _ _ hRun with
    ⟨hStatus, hClosing, _⟩
  refine ⟨hStatus, ?_, hClosing⟩
  revert hRun
  unfold failSubmission
  simp only []
  split
  · intro hRun
    rcases runs_pure_iff.mp hRun with ⟨rfl, _⟩
    rfl
  · intro hRun
    cases hRun with
    | call _ hRest =>
        cases hRest
        rfl

theorem produces_submissionBody_sent
    (root : WorkspaceRoot)
    (messages : List TaskRequest) :
    Produces Plausible (submissionBody root messages) Sent := by
  refine
    produces_bind
      (wp_downloadWorkspace_silent root messages
        []).produces ?_
  rintro ⟨config, ending⟩ upload ⟨hEnding, hSilent⟩
  have hNone := outcomesOf_of_silent hSilent
  have hQuiet := (silent_trace hSilent).1
  simp only []
  unfold finishSubmission
  split
  · refine
      produces_bind (produces_execute_relayed root config) ?_
    intro executed middle hExecuted
    cases executed with
    | ok result =>
        rcases hExecuted with ⟨rfl, hRelayed⟩
        apply produces_call
        intro sent _
        apply produces_pure
        have hAll :=
          hRelayed.surround hSilent
            (fun _ hMem => absurd hMem List.not_mem_nil)
        have hSent :=
          hAll.send
            (show outcomesOf
                [⟨.send (.result TaskExecutor.successResult),
                  sent⟩] = []
              from rfl) rfl
        simpa [Sent, finishedResponses, closingResponses,
          resultOf, Status.success, Status.isOk,
          ServerEvent.responses] using hSent
    | error ending =>
        cases ending with
        | thrown => exact hExecuted.elim
        | status failure =>
            rcases hExecuted with ⟨hFailed, hRelayed⟩
            intro trace status hRun
            rcases
                produces_failSubmission_sent hFailed _ _ hRun
              with ⟨rfl, hNobody, hClosing⟩
            rw [← List.append_assoc]
            refine sent_of_failed hFailed ?_ hNobody hClosing
            simpa using
              hRelayed.surround hSilent
                (fun _ hMem => absurd hMem List.not_mem_nil)
  · rename_i hRefused
    cases ending with
    | thrown => exact absurd rfl hEnding
    | status failure =>
        have hFailed : failure.isOk = false := by
          simpa [Ending.isOk] using hRefused
        intro trace status hRun
        rcases produces_failSubmission_sent hFailed _ _ hRun
          with ⟨rfl, hNobody, hClosing⟩
        exact
          sent_of_failed hFailed
            (Or.inl ⟨hNone, hFailed, hQuiet⟩) hNobody hClosing

theorem produces_taskSubmission_sent
    (root : WorkspaceRoot)
    (messages : List TaskRequest) :
    Produces Plausible (taskSubmission root messages) Sent := by
  apply produces_call
  intro rootError _
  split
  · apply produces_call
    intro sent _
    apply produces_pure
    exact Or.inl ⟨rfl, rfl, rfl⟩
  · refine
      produces_bind (produces_submissionBody_sent root messages)
        ?_
    intro status body hBody
    have hDestroy :=
      WritesNothing.of_onlyCalls silent_of_cleans
        (onlyCalls_destroyGuard root) []
    refine produces_bind hDestroy.produces ?_
    rintro _ last ⟨_, hSilent⟩
    apply produces_pure
    have hFirst :
        ∀ e ∈ ([⟨.weaklyCanonicalRoot, rootError⟩] :
            List ServerEvent),
          Silent e.1 := by
      simp only [List.mem_cons, List.not_mem_nil, or_false]
      rintro e rfl
      exact trivial
    have hAll := Relayed.surround hBody hFirst hSilent
    rw [List.append_nil]
    exact hAll

end Drex

------------------------------------------------------------
-- What The Client Prints
------------------------------------------------------------

namespace Drex

def TaskResponse.chunk? : TaskResponse → Option Str
| .logChunk data => some data
| .result _ => none

/- The log chunks among the responses. -/
def chunksOf (responses : List TaskResponse) : List Str :=
  responses.filterMap TaskResponse.chunk?

theorem chunksOf_logChunk
    (data : Str)
    (responses : List TaskResponse) :
    chunksOf (.logChunk data :: responses) =
      data :: chunksOf responses :=
  rfl

theorem chunksOf_result
    (result : TaskResult)
    (responses : List TaskResponse) :
    chunksOf (.result result :: responses) =
      chunksOf responses :=
  rfl

@[simp] theorem chunksOf_append
    (first second : List TaskResponse) :
    chunksOf (first ++ second) =
      chunksOf first ++ chunksOf second :=
  List.filterMap_append

@[simp] theorem chunksOf_logChunks (chunks : List Str) :
    chunksOf (chunks.map TaskResponse.logChunk) = chunks := by
  induction chunks with
  | nil => rfl
  | cons chunk chunks ih =>
      rw [List.map_cons, chunksOf_logChunk, ih]

/- The closing responses carry no chunk. -/
theorem chunksOf_closing (status : Status) :
    chunksOf
        (finishedResponses status ++
          closingResponses status) =
      if status.isOk then [finishedText] else [] := by
  unfold finishedResponses closingResponses
  by_cases hOk : status.isOk = true
  · rw [if_pos hOk, if_pos hOk]
    split
    · rfl
    · rfl
  · rw [if_neg hOk, if_neg hOk]
    split
    · rfl
    · rfl

/- The bytes on the standard output of the client. -/
def shown
    (rawTerminalOutput enableProgress : Bool)
    (responses : List TaskResponse) :
    Str :=
  (drainPrinted rawTerminalOutput enableProgress true
    responses).flatMap Printed.bytes

/- Without prefixes the chunks are written as they are. -/
theorem drainPrinted_raw
    {rawTerminalOutput enableProgress : Bool}
    (hRaw : rawTerminalOutput = true ∨ enableProgress = false)
    (lineStart : Bool)
    (responses : List TaskResponse) :
    (drainPrinted rawTerminalOutput enableProgress lineStart
        responses).flatMap Printed.bytes =
      (chunksOf responses).flatten := by
  induction responses with
  | nil => rfl
  | cons response responses ih =>
      cases response with
      | logChunk data =>
          rw [drainPrinted, printLog, chunksOf_logChunk,
            List.flatten_cons]
          by_cases hNil : data = []
          · rw [if_pos hNil, hNil]
            exact ih
          · rw [if_neg hNil, if_pos hRaw]
            exact congrArg (data ++ ·) ih
      | result result => exact ih

/- Only the chunks are printed. -/
theorem drainPrinted_chunks
    (rawTerminalOutput enableProgress lineStart : Bool)
    (responses : List TaskResponse) :
    drainPrinted rawTerminalOutput enableProgress lineStart
        responses =
      drainPrinted rawTerminalOutput enableProgress lineStart
        ((chunksOf responses).map TaskResponse.logChunk) := by
  induction responses generalizing lineStart with
  | nil => rfl
  | cons response responses ih =>
      cases response with
      | logChunk data =>
          rw [chunksOf_logChunk, List.map_cons, drainPrinted,
            drainPrinted]
          exact congrArg _ (ih _)
      | result result =>
          rw [chunksOf_result, drainPrinted]
          exact ih lineStart

/- The prefixed text is that of the stream, unless cut. -/
theorem plainText_eq_rendered_iff
    (responses : List TaskResponse) :
    plainText (drainPrinted false true true responses) =
        rendered (chunksOf responses).flatten ↔
      ¬ CutsPrefix (chunksOf responses) := by
  rw [drainPrinted_chunks, ← withPrefix_true]
  exact (printLogs_apart true (chunksOf responses)).eq_iff

/- What arrives first is printed first. -/
theorem chunksOf_prefix
    {received responses : List TaskResponse}
    (h : received <+: responses) :
    (chunksOf received).flatten <+:
      (chunksOf responses).flatten := by
  rcases h with ⟨rest, rfl⟩
  rw [chunksOf_append, List.flatten_append]
  exact List.prefix_append _ _

end Drex

------------------------------------------------------------
-- From The Task To The Terminal
------------------------------------------------------------

namespace Drex

open Drex.Core.Prog

/- This task was watched until the call returned. -/
structure Supervised.Ends
    (cfg : MonitorConfig)
    (s : Supervised)
    (outcome : MonitorOutcome) : Prop where
  reached : Core.Reaches (Supervised.step cfg) .init s
  returned : s.monitor.pc = .returned outcome.status
  outcome : outcome = s.monitor.outcome outcome.status

/- Monitoring is of a task. -/
def ServerEvent.Attends : ServerEvent → Prop
| ⟨.monitor _ config, some outcome⟩ =>
    ∃ s, Supervised.Ends config s outcome
| _ => True

/- Plausible answers, where each call watches a task. -/
def Attended (op : ServerOp) (r : Resp op) : Prop :=
  Plausible op r ∧ ServerEvent.Attends ⟨op, r⟩

/- What the client reads in the end of a task's output. -/
def wholeText (s : Supervised) (status : Status) : Str :=
  Monitor.startNotice ++ s.taken ++
    if status.isOk then finishedText else []

/-
  What the terminal of the client shows of a task that was
  watched, when these responses were sent.
-/
structure TerminalShows
    (status : Status)
    (responses : List TaskResponse)
    (s : Supervised) : Prop where
  returned : s.monitor.pc = .returned status
  -- Nothing is shown that the task did not write.
  written : s.taken <+: s.written
  -- A task that was not stopped for being idle.
  plain :
    s.monitor.exit ≠ some .idleTimeout →
      ∀ raw progress : Bool, raw = true ∨ progress = false →
        shown raw progress responses = wholeText s status
  prefixed :
    s.monitor.exit ≠ some .idleTimeout →
      (plainText (drainPrinted false true true responses) =
          rendered (wholeText s status) ↔
        ¬ CutsPrefix (chunksOf responses))
  -- The status is the task's own.
  whole :
    TaskVerdict status →
      s.monitor.exit ≠ some .idleTimeout ∧
        ∃ before, s.atExit = some before ∧
          before <+: s.taken
  exit :
    status.isOk = true →
      ∃ wait, s.life = .reaped wait ∧
        wifexited wait = true ∧ wexitstatus wait = 0
  -- A call that breaks shows a first part of that.
  broken :
    ∀ received, received <+: responses →
      ∀ raw progress : Bool, raw = true ∨ progress = false →
        shown raw progress received <+:
          shown raw progress responses

/-
  A task's own status is returned once its child was reaped
  and what it had written was read.
-/
theorem Supervised.Ends.drained
    {cfg : MonitorConfig}
    {s : Supervised}
    {outcome : MonitorOutcome}
    (h : s.Ends cfg outcome)
    (hTask : TaskVerdict outcome.status) :
    s.monitor.exit = some .loopEnded ∧ s.Drained := by
  rcases Supervised.conveyed_reaches h.reached with
    ⟨hConveyed, hReported, hSteady⟩
  unfold Monitor.Reported at hReported
  rw [h.returned] at hReported
  rcases hReported hTask with ⟨hExit, hReaps⟩
  refine ⟨hExit, ?_⟩
  have hLife : s.life ≠ .running := by
    intro hRuns
    apply hReaps
    rw [hSteady.reaped, hRuns]
    rfl
  rcases hConveyed.ended hExit with hClosed | hDrained
  · simp only [Supervised.closed, Bool.and_eq_true,
      decide_eq_true_eq] at hClosed
    exact hConveyed.drained hSteady hLife hClosed.2
  · exact hDrained

/- The exit of a task that ended with OK. -/
theorem Supervised.Ends.exit
    {cfg : MonitorConfig}
    {s : Supervised}
    {outcome : MonitorOutcome}
    (h : s.Ends cfg outcome)
    (hReturns : Monitor.Returns cfg outcome)
    (hOk : outcome.status.isOk = true) :
    ∃ wait, s.life = .reaped wait ∧
      wifexited wait = true ∧ wexitstatus wait = 0 := by
  rcases (Monitor.isOk_iff_clean hReturns).mp hOk with
    ⟨_, _, wait, hReaps, hExited, hCode⟩
  rw [h.outcome] at hReaps
  exact
    ⟨wait, Supervised.buried_reaches h.reached wait hReaps,
      hExited, hCode⟩

/- The chunks of a watched task, with the server's last. -/
theorem Supervised.Ends.chunks
    {cfg : MonitorConfig}
    {s : Supervised}
    {outcome : MonitorOutcome}
    (h : s.Ends cfg outcome)
    (hIdle : s.monitor.exit ≠ some .idleTimeout) :
    outcome.chunks.flatten =
      Monitor.startNotice ++ s.taken := by
  have hConveyed := (Supervised.conveyed_reaches h.reached).1
  have hStarted : s.monitor.pc ≠ .start := by
    rw [h.returned]
    simp
  rcases hConveyed.chunks hStarted with
    ⟨outs, hChunks, hFlatten⟩
  rw [h.outcome]
  change s.monitor.chunks.flatten = _
  rw [hChunks, List.flatten_cons, hFlatten hIdle]

/- What is shown of a watched task whose chunks were sent. -/
theorem Supervised.Ends.shows
    {cfg : MonitorConfig}
    {s : Supervised}
    {outcome : MonitorOutcome}
    {responses : List TaskResponse}
    (h : s.Ends cfg outcome)
    (hReturns : Monitor.Returns cfg outcome)
    (hChunks :
      (chunksOf responses).flatten =
        outcome.chunks.flatten ++
          if outcome.status.isOk then finishedText else []) :
    TerminalShows outcome.status responses s := by
  have hConveyed := (Supervised.conveyed_reaches h.reached).1
  have hWhole
      (hIdle : s.monitor.exit ≠ some .idleTimeout) :
      (chunksOf responses).flatten =
        wholeText s outcome.status := by
    rw [hChunks, h.chunks hIdle]
    rfl
  refine
    { returned := h.returned
      written := ⟨s.pipe, hConveyed.written.symm⟩
      plain := ?_
      prefixed := ?_
      whole := ?_
      exit := h.exit hReturns
      broken := ?_ }
  · intro hIdle raw progress hRaw
    rw [shown, drainPrinted_raw hRaw, hWhole hIdle]
  · intro hIdle
    rw [← hWhole hIdle]
    exact plainText_eq_rendered_iff responses
  · intro hTask
    rcases h.drained hTask with ⟨hExit, hDrained⟩
    refine ⟨?_, hDrained⟩
    rw [hExit]
    decide
  · intro received hReceived raw progress hRaw
    rw [shown, shown, drainPrinted_raw hRaw,
      drainPrinted_raw hRaw]
    exact chunksOf_prefix hReceived

/-
  The run monitored one task, with this outcome: the log
  chunks of the outcome and the closing responses are all
  that was sent, some task was watched to this outcome, and
  whichever it was, the terminal shows it.
-/
structure TaskShown
    (status : Status)
    (trace : List ServerEvent)
    (cfg : MonitorConfig)
    (outcome : MonitorOutcome) : Prop where
  monitored :
    ∃ child,
      (⟨.monitor child cfg, some outcome⟩ : ServerEvent) ∈
        trace
  alone : outcomesOf trace = [outcome]
  verdict : outcome.status = status
  sent :
    responsesOf trace =
      outcome.chunks.map TaskResponse.logChunk ++
        (finishedResponses status ++ closingResponses status)
  watched : ∃ s, Supervised.Ends cfg s outcome
  shows :
    ∀ s, Supervised.Ends cfg s outcome →
      TerminalShows status (responsesOf trace) s

/- What is sent for a task is what is shown of it. -/
theorem Sent.shows
    {trace : List ServerEvent}
    {status : Status}
    (h : Sent status trace)
    (hAttended : ∀ e ∈ trace, Attended e.1 e.2) :
    (outcomesOf trace = [] ∧ status.isOk = false ∧
        ∀ raw progress,
          drainPrinted raw progress true (responsesOf trace) =
            []) ∨
      ∃ cfg outcome, TaskShown status trace cfg outcome := by
  have hClosing := chunksOf_closing status
  rcases h with ⟨hNone, hFailed, hResponses⟩ |
    ⟨outcome, hOne, hStatus, hSuccess, hResponses⟩
  · left
    refine ⟨hNone, hFailed, ?_⟩
    intro raw progress
    rw [drainPrinted_chunks, hResponses, hClosing, hFailed]
    rfl
  · right
    have hMem : outcome ∈ outcomesOf trace := by
      rw [hOne]
      exact List.mem_singleton_self outcome
    rcases List.mem_filterMap.mp hMem with
      ⟨⟨op, r⟩, hEvent, hOutcome⟩
    have hAnswer := hAttended _ hEvent
    cases op with
    | monitor child cfg =>
        change r = some outcome at hOutcome
        subst hOutcome
        rcases hAnswer with ⟨⟨_, hSame, hReturns⟩, hWatched⟩
        cases hSame
        subst hStatus
        have hChunks :
            (chunksOf (responsesOf trace)).flatten =
              outcome.chunks.flatten ++
                if outcome.status.isOk then finishedText
                else [] := by
          rw [hResponses, chunksOf_append,
            chunksOf_logChunks, hClosing,
            List.flatten_append]
          split
          · simp
          · simp
        exact
          ⟨cfg, outcome,
            { monitored := ⟨child, hEvent⟩
              alone := hOne
              verdict := rfl
              sent := hResponses
              watched := hWatched
              shows := fun s hEnds =>
                hEnds.shows hReturns hChunks }⟩
    | _ => cases hOutcome

/- The one task of a run is sent with its status. -/
theorem sent_of_attended
    {root : WorkspaceRoot}
    {messages : List TaskRequest}
    {trace : List ServerEvent}
    {status : Status}
    (hRun :
      Finishes Attended (taskSubmission root messages) trace
        status) :
    Sent status trace :=
  produces_taskSubmission_sent root messages trace status
    (finishes_of_runs (fun _ _ _ _ hAnswer => hAnswer.1) hRun)

/-
  For every submission whose calls of the monitor watch a
  task: without a task the terminal shows nothing and the
  status is a failure; otherwise there is one task, and the
  terminal shows the notice and what that task wrote.
-/
theorem terminal_shows_task
    {root : WorkspaceRoot}
    {messages : List TaskRequest}
    {trace : List ServerEvent}
    {status : Status}
    (hRun :
      Finishes Attended (taskSubmission root messages) trace
        status) :
    (outcomesOf trace = [] ∧ status.isOk = false ∧
        ∀ raw progress,
          drainPrinted raw progress true (responsesOf trace) =
            []) ∨
      ∃ cfg outcome, TaskShown status trace cfg outcome :=
  (sent_of_attended hRun).shows (finishes_allowed hRun)

/- A task that exits at once and writes nothing. -/
def quietEvents (cfg : MonitorConfig) : List TaskEvent :=
  [.monitor (.main (.clock 0)), .exit 0, .closeOutput] ++
    (Monitor.quickEvents cfg).tail.map TaskEvent.monitor

/- The task when its monitor returns. -/
def quietEnd (cfg : MonitorConfig) : Supervised :=
  { Supervised.init with
    monitor :=
      Monitor.quickEnd
        (if cfg.hasContext then .finished else .absent)
    life := .reaped 0
    outputOpen := false
    atExit := some [] }

theorem runLabels_quietEvents (cfg : MonitorConfig) :
    Core.runLabels (Supervised.step cfg) (quietEvents cfg)
        .init =
      some (quietEnd cfg) := by
  have hStart :
      Supervised.step cfg .init (.monitor (.main (.clock 0))) =
        some
          { Supervised.init with
            monitor :=
              { Monitor.init with
                chunks := [Monitor.startNotice]
                watcher :=
                  if cfg.hasContext then .checkStop
                  else .absent
                pc := .top } } := by
    have hMain :
        Supervised.init.monitor.step cfg (.main (.clock 0)) =
          some
            { Monitor.init with
              chunks := [Monitor.startNotice]
              watcher :=
                if cfg.hasContext then .checkStop
                else .absent
              pc := .top } :=
      Monitor.main_init cfg
    have hAnswers :
        Supervised.init.answers cfg (.main (.clock 0)) =
          true := rfl
    change Supervised.stepMonitor cfg .init _ = _
    unfold Supervised.stepMonitor
    rw [if_pos hAnswers, hMain]
    rfl
  change
    (Supervised.step cfg .init
        (.monitor (.main (.clock 0)))).bind
      (Core.runLabels (Supervised.step cfg)
        (quietEvents cfg).tail) = _
  rw [hStart, Option.bind_some]
  rcases cfg with ⟨hasContext, usePty, idleTimeoutMs⟩
  cases hasContext with
  | true => rfl
  | false => rfl

theorem attended_granting (op : ServerOp) :
    Attended op (Env.granting.answer op) := by
  refine ⟨follows_granting op (), ?_⟩
  cases op with
  | monitor child cfg =>
      exact
        ⟨quietEnd cfg,
          { reached :=
              Core.reaches_runLabels _ .start
                (runLabels_quietEvents cfg)
            returned := rfl
            outcome := rfl }⟩
  | _ => exact trivial

/- A submission whose command exits without output. -/
theorem terminal_shows_task_quiet :
    ∃ trace status,
      Finishes Attended
          (taskSubmission smallRoot
            [.config (smallConfig "a"),
              .fileChunk (smallChunk "f")])
          trace status ∧
        ((outcomesOf trace = [] ∧ status.isOk = false ∧
            ∀ raw progress,
              drainPrinted raw progress true
                  (responsesOf trace) = []) ∨
          ∃ cfg outcome,
            TaskShown status trace cfg outcome) := by
  have hFollows :
      Follows (allowing Attended)
        (fun op (g : Unit) =>
          (Env.granting.answer op, g)) :=
    fun op _ => attended_granting op
  rcases
      runs_run hFollows
        (taskSubmission smallRoot
          [.config (smallConfig "a"),
            .fileChunk (smallChunk "f")]) () with
    ⟨trace, hTrace⟩
  exact ⟨trace, _, hTrace, terminal_shows_task hTrace⟩

end Drex

------------------------------------------------------------
-- A Client That Exits With Zero
------------------------------------------------------------

namespace Drex

open Drex.Core.Prog

variable {root : WorkspaceRoot}
variable {messages : List TaskRequest}
variable {serverTrace : List ServerEvent}
variable {serverStatus : Status} {callEnd : CallEnd}

end Drex
