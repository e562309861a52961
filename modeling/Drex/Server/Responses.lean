import Drex.Monitor.Verdict
import Drex.Server.Protocol.Parts

/-
  What a submission writes to its stream, and what the
  status it returns says about the run.

  Key definitions include:
    * `Plausible`
    * `responsesOf`
    * `UploadAccepted`
    * `Started`
    * `EndedCleanly`
    * `closingResponses`

  Key theorems include:
    * `wp_downloadWorkspace_silent`
    * `produces_execute`
    * `taskSubmission_responses`
-/

------------------------------------------------------------
-- What The Environment Answers
------------------------------------------------------------

namespace Drex

/-
  Any answer, where no filesystem call and no constructor of
  a thread throws and monitoring ends as some run of its two
  threads does.
-/
def Plausible : (op : ServerOp) → Resp op → Prop
| .status _, answer => answer ≠ .error
| .logExecutionContext _, listed => listed = true
| .monitor _ config, monitored =>
    ∃ outcome,
      monitored = some outcome ∧
        Monitor.Returns config outcome
| _, _ => True

/- Operations that write no response. -/
def Silent : ServerOp → Prop
| .send _ => False
| .monitor _ _ => False
| _ => True

/- The responses written by one operation. -/
def ServerEvent.responses : ServerEvent → List TaskResponse
| ⟨.send response, _⟩ => [response]
| ⟨.monitor _ _, some outcome⟩ =>
    outcome.chunks.map TaskResponse.logChunk
| ⟨.monitor _ _, none⟩ => [.logChunk Monitor.startNotice]
| _ => []

/- The responses on the stream, in order. -/
def responsesOf (trace : List ServerEvent) :
    List TaskResponse :=
  trace.flatMap ServerEvent.responses

/- A successful `fork` or `forkpty`. -/
def ServerEvent.Forks : ServerEvent → Prop
| ⟨.forkpty, pid⟩ => pid.isSome = true
| ⟨.fork, pid⟩ => pid.isSome = true
| _ => False

/- The output of the child was made non-blocking. -/
def ServerEvent.MakesReady : ServerEvent → Prop
| ⟨.setNonBlocking, ok⟩ => ok = true
| _ => False

/- Monitoring that saw a clean exit of the task. -/
def ServerEvent.EndsCleanly : ServerEvent → Prop
| ⟨.monitor _ _, some outcome⟩ => outcome.Clean
| _ => False

/- The task was forked and its output can be polled. -/
def Started (trace : List ServerEvent) : Prop :=
  (∃ e ∈ trace, e.Forks) ∧ ∃ e ∈ trace, e.MakesReady

/- Monitoring ended with a clean exit of the task. -/
def EndedCleanly (trace : List ServerEvent) : Prop :=
  ∃ e ∈ trace, e.EndsCleanly

/- What `Execute` sends last. -/
def finishedText : Str :=
  "Command finished.\n".toList

/- The server's own last chunk. -/
def finishedChunk : ServerEvent :=
  ⟨.send (.logChunk finishedText), ()⟩

/- Only log chunks were written. -/
def OnlyChunks (trace : List ServerEvent) : Prop :=
  ∃ chunks : List Str,
    responsesOf trace = chunks.map TaskResponse.logChunk

/- The result a status other than CANCELLED is sent with. -/
def resultOf (status : Status) : TaskResult :=
  if status.isOk then
    TaskExecutor.successResult
  else
    { status := .kFailed
      message := status.message
      outputArchive := []
      archiveSize := 0 }

/- What follows the log chunks. -/
def closingResponses (status : Status) :
    List TaskResponse :=
  if status.code = .cancelled then
    []
  else
    [.result (resultOf status)]

end Drex

------------------------------------------------------------
-- Traces
------------------------------------------------------------

namespace Drex

variable {s t : List ServerEvent}

@[simp] theorem responsesOf_append :
    responsesOf (s ++ t) = responsesOf s ++ responsesOf t := by
  simp [responsesOf]

@[simp] theorem responsesOf_nil : responsesOf [] = [] :=
  rfl

@[simp] theorem responsesOf_cons
    (e : ServerEvent) :
    responsesOf (e :: t) = e.responses ++ responsesOf t :=
  List.flatMap_cons

@[simp] theorem endedCleanly_nil : ¬ EndedCleanly [] := by
  simp [EndedCleanly]

@[simp] theorem endedCleanly_cons
    (e : ServerEvent) :
    EndedCleanly (e :: t) ↔
      e.EndsCleanly ∨ EndedCleanly t := by
  simp [EndedCleanly]

/- A clean end is in one of the two parts. -/
@[simp] theorem endedCleanly_append :
    EndedCleanly (s ++ t) ↔
      EndedCleanly s ∨ EndedCleanly t := by
  unfold EndedCleanly
  simp only [List.mem_append, or_and_right, exists_or]

/- A longer trace still has the start of the task. -/
theorem Started.mono
    (h : Started s)
    (hSub : s ⊆ t) :
    Started t := by
  rcases h with
    ⟨⟨fork, hFork, hForks⟩, ⟨ready, hReady, hMakes⟩⟩
  exact
    ⟨⟨fork, hSub hFork, hForks⟩,
      ⟨ready, hSub hReady, hMakes⟩⟩

/- Silent operations write nothing and monitor nothing. -/
theorem silent_trace
    (h : ∀ e ∈ t, Silent e.1) :
    responsesOf t = [] ∧ ¬ EndedCleanly t ∧
      finishedChunk ∉ t := by
  constructor
  · unfold responsesOf
    rw [List.flatMap_eq_nil_iff]
    rintro ⟨op, r⟩ hMem
    have hSilent := h _ hMem
    cases op <;> first | rfl | cases hSilent
  · constructor
    · rintro ⟨⟨op, r⟩, hMem, hClean⟩
      have hSilent := h _ hMem
      cases op <;> first | exact hClean | exact hSilent
    · intro hMem
      exact h _ hMem

end Drex

------------------------------------------------------------
-- The Upload Writes Nothing
------------------------------------------------------------

namespace Drex

/- Every history of plausible answers. -/
abbrev history :
    Core.Prog.Answers ServerOp Resp (List ServerEvent) :=
  Core.Prog.recorded Plausible

/- A part of a handler that writes no response. -/
abbrev WritesNothing
    {α : Type}
    (p : ServerProg α)
    (Q : α → List ServerEvent → Prop)
    (g : List ServerEvent) : Prop :=
  Core.Prog.wp history (fun _ op => Silent op) p Q g

/- Two silent parts in sequence are silent. -/
theorem WritesNothing.bind
    {α β : Type}
    {p : ServerProg α}
    {f : α → ServerProg β}
    {Q : α → List ServerEvent → Prop}
    {Q' : β → List ServerEvent → Prop}
    {g : List ServerEvent}
    (hFirst : WritesNothing p Q g)
    (hNext : ∀ a g', Q a g' → WritesNothing (f a) Q' g') :
    WritesNothing (p >>= f) Q' g := by
  unfold WritesNothing
  rw [Core.Prog.wp_bind]
  exact Core.Prog.wp_mono hNext hFirst

/- So is a silent operation and what follows it. -/
theorem WritesNothing.call
    {β : Type}
    {op : ServerOp}
    {f : Resp op → ServerProg β}
    {Q : β → List ServerEvent → Prop}
    {g : List ServerEvent}
    (hSilent : Silent op)
    (hNext :
      ∀ r, Plausible op r →
        WritesNothing (f r) Q (g ++ [⟨op, r⟩])) :
    WritesNothing (perform op >>= f) Q g := by
  unfold WritesNothing
  rw [Core.Prog.wp_bind, Core.Prog.wp_recorded_call]
  exact ⟨hSilent, hNext⟩

/- A part is silent when the operations it calls are. -/
theorem WritesNothing.of_onlyCalls
    {α : Type}
    {p : ServerProg α}
    {P : ServerOp → Prop}
    (hSilent : ∀ op, P op → Silent op)
    (hOnly : Core.Prog.OnlyCalls P p)
    (g : List ServerEvent) :
    WritesNothing p (fun _ _ => True) g := by
  refine Core.Prog.wp_invariant ?_ ?_ hOnly trivial
  · exact fun _ _ _ _ _ _ _ => trivial
  · exact fun _ op hOp _ => hSilent op hOp

/- An upload writes no response. -/
theorem silent_of_transfers
    (op : ServerOp)
    (hOp : op.Transfers) :
    Silent op := by
  cases op <;> first | exact trivial | exact hOp.elim

/- Nor does what comes before the command. -/
theorem silent_of_prepares
    (op : ServerOp)
    (hOp : op.Prepares) :
    Silent op := by
  cases op <;> first | exact trivial | exact hOp.elim

/- Nor does the clean-up. -/
theorem silent_of_cleans
    (op : ServerOp)
    (hOp : op.Cleans) :
    Silent op := by
  cases op <;> first | exact trivial | exact hOp.elim

/- A path whose status is known has a relative path. -/
theorem wp_fsRelative_silent
    (root : WorkspaceRoot)
    (p : Path)
    (g : List ServerEvent) :
    WritesNothing (fsRelative root p)
      (fun r _ => r ≠ none) g := by
  refine .call trivial fun pathFound hPath => ?_
  refine .call trivial fun rootFound hRoot => ?_
  have hNoError :
      ¬ (pathFound = .error ∨ rootFound = .error) := by
    rintro (rfl | rfl)
    · exact hPath rfl
    · exact hRoot rfl
  rw [if_neg hNoError]
  simp

/- Resolving the paths does not throw then. -/
theorem wp_resolveTaskPaths_silent
    (root : WorkspaceRoot)
    (config : TaskConfig)
    (g : List ServerEvent) :
    WritesNothing (resolveTaskPaths root config)
      (fun r _ => r ≠ .error .thrown) g := by
  unfold resolveTaskPaths
  split
  · refine .bind (wp_fsRelative_silent root _ g) ?_
    intro workspaceSubdir g' hWorkspace
    refine .bind (wp_fsRelative_silent root _ g') ?_
    intro outputSubdir g'' hOutput
    cases workspaceSubdir with
    | none => exact absurd rfl hWorkspace
    | some workspaceSubdir =>
        cases outputSubdir with
        | none => exact absurd rfl hOutput
        | some outputSubdir => simp
  · simp

namespace DownloadSession

/- A config is answered by a status only. -/
theorem wp_handleConfig_silent
    (root : WorkspaceRoot)
    (s : DownloadSession)
    (config : TaskConfig)
    (g : List ServerEvent) :
    WritesNothing (s.handleConfig root config)
      (fun r _ => r.2 ≠ .thrown) g := by
  unfold handleConfig
  split
  · simp
  · refine .bind (wp_resolveTaskPaths_silent root config g) ?_
    intro resolved g' hResolved
    cases resolved with
    | error ending =>
        intro hThrown
        exact hResolved (congrArg Except.error hThrown)
    | ok paths =>
        refine .call trivial fun lockStatus _ => ?_
        split
        · refine .call trivial fun _ _ => ?_
          simp [Ending.success]
        · simp

/- So is every message. -/
theorem wp_handleMessage_silent
    (root : WorkspaceRoot)
    (s : DownloadSession)
    (message : TaskRequest)
    (g : List ServerEvent) :
    WritesNothing (s.handleMessage root message)
      (fun r _ => r.2 ≠ .thrown) g := by
  cases message with
  | config config =>
      exact s.wp_handleConfig_silent root config g
  | fileChunk chunk =>
      refine
        .bind
          (.of_onlyCalls silent_of_transfers
            (Core.Prog.onlyCalls_mono transfers_of_stores
              (s.onlyCalls_handleFileChunk chunk)) g) ?_
      rintro ⟨s', status⟩ g' _
      simp
  | missing => simp [handleMessage]

/- So is the end of the stream. -/
theorem wp_finish_silent
    (s : DownloadSession)
    (g : List ServerEvent) :
    WritesNothing s.finish (fun r _ => r.2 ≠ .thrown) g := by
  refine .call trivial fun isCancelled _ => ?_
  split
  · simp
  · split
    · simp
    · refine
        .bind
          (.of_onlyCalls silent_of_transfers
            (Core.Prog.onlyCalls_mono transfers_of_writesFile
              s.onlyCalls_closeCurrentFile) _) ?_
      intro s' g' _
      simp [Ending.success]

/- The messages are handled one after the other. -/
theorem wp_run_silent
    (root : WorkspaceRoot)
    (messages : List TaskRequest)
    (s : DownloadSession)
    (g : List ServerEvent) :
    WritesNothing (run root s messages)
      (fun r _ => r.2 ≠ .thrown) g := by
  induction messages generalizing s g with
  | nil =>
      refine .call trivial fun _ _ => ?_
      exact s.wp_finish_silent _
  | cons message messages ih =>
      refine .call trivial fun _ _ => ?_
      refine .call trivial fun isCancelled _ => ?_
      split
      · simp
      · refine .bind (s.wp_handleMessage_silent root message _) ?_
        rintro ⟨s', ending⟩ g' hEnding
        simp only []
        split
        · exact ih s' g'
        · exact hEnding

end DownloadSession

/- The upload ends with a status and writes nothing. -/
theorem wp_downloadWorkspace_silent
    (root : WorkspaceRoot)
    (messages : List TaskRequest)
    (g : List ServerEvent) :
    WritesNothing (downloadWorkspace root messages)
      (fun r _ => r.2 ≠ .thrown) g := by
  refine
    .bind (DownloadSession.wp_run_silent root messages _ g) ?_
  rintro ⟨s, ending⟩ g' hEnding
  refine
    .bind
      (.of_onlyCalls silent_of_transfers
        (Core.Prog.onlyCalls_mono transfers_of_writesFile
          s.onlyCalls_closeCurrentFile) g') ?_
  intro s' g'' _
  exact hEnding

end Drex

------------------------------------------------------------
-- Starting The Task Writes Nothing
------------------------------------------------------------

namespace Drex

namespace TaskExecutor

/- What is known once `StartChildProcess` returned. -/
def StartResult
    (started : Except Status ChildProcess)
    (g : List ServerEvent) : Prop :=
  match started with
  | .ok _ => Started g
  | .error status => status.isOk = false

/- A forked process is started once its output is ready. -/
def historyPhases : StartPhases (List ServerEvent) :=
  { idle := fun _ => True
    forked := fun _ g => ∃ e ∈ g, ServerEvent.Forks e
    ready := fun _ g => Started g
    killed := fun _ => True
    reaped := fun _ => True }

/- The phases of a start are read off the trace. -/
theorem historyPhases_sound :
    historyPhases.Sound history
      (fun _ op => Silent op) where
  surrounds := by
    intro op hOp g _
    refine ⟨?_, fun _ _ _ => trivial⟩
    cases op <;> first | exact trivial | exact hOp.elim
  forkpty := by
    intro g _
    refine ⟨trivial, ?_⟩
    rintro pid _ ⟨_, rfl⟩
    cases pid with
    | none => exact trivial
    | some pid =>
        exact
          ⟨_, List.mem_append_right _ List.mem_cons_self,
            rfl⟩
  fork := by
    intro g _
    refine ⟨trivial, ?_⟩
    rintro pid _ ⟨_, rfl⟩
    cases pid with
    | none => exact trivial
    | some pid =>
        exact
          ⟨_, List.mem_append_right _ List.mem_cons_self,
            rfl⟩
  closeFd := by
    rintro pid g ⟨fork, hFork, hForks⟩
    refine ⟨trivial, ?_⟩
    rintro r _ ⟨_, rfl⟩
    exact ⟨fork, List.mem_append_left _ hFork, hForks⟩
  setNonBlocking := by
    rintro pid g ⟨fork, hFork, hForks⟩
    refine ⟨trivial, ?_⟩
    rintro done _ ⟨_, rfl⟩
    have hStill := List.mem_append_left
      [(⟨.setNonBlocking, done⟩ : ServerEvent)] hFork
    cases done with
    | true =>
        exact
          ⟨⟨fork, hStill, hForks⟩,
            ⟨_, List.mem_append_right g List.mem_cons_self,
              rfl⟩⟩
    | false => exact ⟨fork, hStill, hForks⟩
  kill := fun _ _ _ => ⟨trivial, fun _ _ _ => trivial⟩
  waitpid := fun _ _ _ => ⟨trivial, fun _ _ _ => trivial⟩
  strerror := fun _ _ => ⟨trivial, fun _ _ _ => trivial⟩

/- A child is started, or its error is not OK. -/
theorem wp_startChildProcess_silent
    (config : TaskConfig)
    (g : List ServerEvent) :
    WritesNothing (startChildProcess config)
      StartResult g := by
  refine
    Core.Prog.wp_mono ?_
      (wp_startChildProcess_of historyPhases_sound trivial
        config)
  intro result g' hStarted
  cases result with
  | ok child => exact hStarted
  | error status => exact hStarted.1

end TaskExecutor

end Drex

------------------------------------------------------------
-- The Task And Its Verdict
------------------------------------------------------------

namespace Drex

open Drex.Core.Prog

/- A part that writes nothing, with its silent trace. -/
theorem WritesNothing.produces
    {α : Type}
    {p : ServerProg α}
    {Q : α → List ServerEvent → Prop}
    (h : WritesNothing p Q []) :
    Produces Plausible p
      (fun a t => Q a t ∧ ∀ e ∈ t, Silent e.1) := by
  intro trace a hRun
  rcases
      Core.Prog.wp_finishes
        (Core.Prog.wp_recorded_history h) hRun with
    ⟨hQ, trace', rfl, hSilent⟩
  exact ⟨hQ, hSilent⟩

namespace TaskExecutor

/-
  How a command ends: no exception, only chunks were written
  and the status is OK exactly after a clean exit.
-/
def CommandSpec
    (ended : Ending)
    (trace : List ServerEvent) : Prop :=
  ended ≠ .thrown ∧
    (ended.isOk = true → Started trace) ∧
      (ended.isOk = true ↔ EndedCleanly trace) ∧
        finishedChunk ∉ trace ∧ OnlyChunks trace

/- The verdict is OK exactly after a clean end. -/
theorem produces_runCommand
    (config : TaskConfig) :
    Produces Plausible (runCommand config) CommandSpec := by
  refine
    produces_bind
      (wp_startChildProcess_silent config []).produces ?_
  rintro started first ⟨hStart, hSilent⟩
  rcases silent_trace hSilent with
    ⟨hResponses, hNotClean, hNoChunk⟩
  cases started with
  | error status =>
      refine produces_pure ?_
      have hFailed : (Ending.status status).isOk = false :=
        hStart
      rw [List.append_nil]
      exact
        ⟨Ending.noConfusion, by simp [hFailed],
          by simp [hFailed, hNotClean], hNoChunk, [],
          hResponses⟩
  | ok child =>
      have hStarted : Started first := hStart
      refine produces_call fun _ _ => ?_
      refine produces_call fun _ _ => ?_
      unfold monitorChildProcess
      simp only [LawfulMonad.bind_assoc]
      refine produces_call fun idleTimeout _ => ?_
      refine produces_call fun monitored hMonitored => ?_
      rcases hMonitored with ⟨outcome, rfl, hReturns⟩
      simp only []
      refine produces_call fun _ _ => ?_
      refine produces_pure ?_
      have hClean := Monitor.isOk_iff_clean hReturns
      refine
        ⟨Ending.noConfusion,
          fun _ => hStarted.mono (by simp), ?_, ?_, ?_⟩
      · rw [show
          Ending.isOk (.status outcome.status) =
            outcome.status.isOk from rfl, hClean]
        simp [hNotClean, ServerEvent.EndsCleanly]
      · simpa [finishedChunk] using hNoChunk
      · refine ⟨outcome.chunks, ?_⟩
        simp [hResponses, ServerEvent.responses]

/- The last chunk is not empty, so it is sent. -/
theorem emitLogChunk_finished :
    emitLogChunk "Command finished.\n".toList =
      perform (.send (.logChunk finishedText)) :=
  if_pos (by simp)

/- What `Execute` returns and writes. -/
def ExecuteSpec
    (config : TaskConfig)
    (executed : Except Ending TaskResult)
    (trace : List ServerEvent) : Prop :=
  OnlyChunks trace ∧
    match executed with
    | .ok result =>
        result = successResult ∧ config.command ≠ [] ∧
          Started trace ∧ EndedCleanly trace ∧
            finishedChunk ∈ trace
    | .error (.status status) =>
        status.isOk = false ∧ ¬ EndedCleanly trace ∧
          finishedChunk ∉ trace
    | .error .thrown => False

/- A success of `Execute` sends the last chunk. -/
theorem produces_execute
    (root : WorkspaceRoot)
    (config : TaskConfig) :
    Produces Plausible (execute root config) (ExecuteSpec config) := by
  unfold execute
  simp only []
  split
  · refine produces_pure ⟨⟨[], rfl⟩, rfl, ?_, ?_⟩
    · simp [EndedCleanly]
    · simp
  · rename_i hCommand
    refine produces_call fun dirError _ => ?_
    split
    · refine produces_pure ⟨⟨[], rfl⟩, rfl, ?_, ?_⟩
      · simp [EndedCleanly, ServerEvent.EndsCleanly]
      · simp [finishedChunk]
    · have hConfigure :=
        WritesNothing.of_onlyCalls silent_of_prepares
          (onlyCalls_configure config
            (subdirPath root config.workspaceSubdir)) []
      refine produces_bind hConfigure.produces ?_
      rintro _ first ⟨_, hSilent⟩
      rcases silent_trace hSilent with
        ⟨hResponses, hNotClean, hNoChunk⟩
      refine produces_call fun logged hLogged => ?_
      have hListed : logged = true := hLogged
      rw [if_pos hListed]
      refine produces_bind (produces_runCommand config) ?_
      rintro ended second
        ⟨hReturned, hStarted, hClean, hNoSecond, chunks,
          hChunks⟩
      split
      · rename_i hOk
        rw [emitLogChunk_finished]
        refine produces_call fun _ _ => ?_
        refine produces_pure ⟨⟨chunks ++ [finishedText], ?_⟩, ?_⟩
        · simp [hResponses, hChunks, ServerEvent.responses]
        · refine ⟨rfl, hCommand, ?_, ?_, ?_⟩
          · refine (hStarted hOk).mono ?_
            intro e hMem
            simp [hMem]
          · simp [hClean.mp hOk]
          · simp [finishedChunk]
      · rename_i hFailed
        have hNotSecond : ¬ EndedCleanly second := by
          intro hSecond
          exact hFailed (hClean.mpr hSecond)
        cases ended with
        | thrown => exact absurd rfl hReturned
        | status runStatus =>
            have hNotOk : runStatus.isOk = false := by
              simpa [Ending.isOk] using hFailed
            refine
              produces_pure ⟨⟨chunks, ?_⟩, hNotOk, ?_, ?_⟩
            · simp [hResponses, hChunks,
                ServerEvent.responses]
            · simp [hNotClean, hNotSecond,
                ServerEvent.EndsCleanly]
            · simp only [finishedChunk] at hNoChunk hNoSecond
              simp [finishedChunk, hNoChunk, hNoSecond]

end TaskExecutor

end Drex

------------------------------------------------------------
-- Submissions
------------------------------------------------------------

namespace Drex

open Drex.Core.Prog

/- A failed part sends one result, unless it is cancelled. -/
theorem produces_failSubmission
    {failure : Status}
    (hFailed : failure.isOk = false) :
    Produces Plausible (failSubmission (.status failure))
      (fun status trace =>
        status = failure ∧
          responsesOf trace = closingResponses failure ∧
            ¬ EndedCleanly trace ∧
              finishedChunk ∉ trace) := by
  unfold failSubmission
  simp only []
  split
  · rename_i hCancelled
    refine produces_pure ⟨rfl, ?_, endedCleanly_nil, by simp⟩
    simp [closingResponses, hCancelled]
  · rename_i hOther
    refine
      produces_call fun _ _ =>
        produces_pure ⟨rfl, ?_, ?_, ?_⟩
    · simp [closingResponses, hOther, resultOf, hFailed,
        ServerEvent.responses]
    · simp [ServerEvent.EndsCleanly]
    · simp [finishedChunk]

/- The upload of the run returned OK with this config. -/
def UploadAccepted
    (root : WorkspaceRoot)
    (messages : List TaskRequest)
    (trace : List ServerEvent)
    (config : TaskConfig) : Prop :=
  ∃ before upload after ending,
    trace = before ++ (upload ++ after) ∧
      Core.Prog.Finishes Plausible
          (downloadWorkspace root messages)
          upload (config, ending) ∧
        ending.isOk = true

/-
  What a submission returns and writes; a task that ended
  cleanly is never reported as failed.
-/
def SubmissionSpec
    (root : WorkspaceRoot)
    (messages : List TaskRequest)
    (status : Status)
    (trace : List ServerEvent) : Prop :=
  (∃ chunks : List Str,
      responsesOf trace =
        chunks.map TaskResponse.logChunk ++
          closingResponses status) ∧
    (status.isOk = true →
      ∃ config,
        UploadAccepted root messages trace config ∧
          config.command ≠ [] ∧
            Started trace ∧ EndedCleanly trace) ∧
      (EndedCleanly trace → status.isOk = true) ∧
        (finishedChunk ∈ trace ↔ status.isOk = true)

/- A failed part of a submission that monitored nothing. -/
theorem SubmissionSpec.of_failed
    {root : WorkspaceRoot}
    {messages : List TaskRequest}
    {status : Status}
    {trace : List ServerEvent}
    (hFailed : status.isOk = false)
    (hResponses :
      ∃ chunks : List Str,
        responsesOf trace =
          chunks.map TaskResponse.logChunk ++
            closingResponses status)
    (hNotClean : ¬ EndedCleanly trace)
    (hNoChunk : finishedChunk ∉ trace) :
    SubmissionSpec root messages status trace := by
  refine ⟨hResponses, ?_, ?_, ?_⟩
  · simp [hFailed]
  · simp [hNotClean]
  · simp [hFailed, hNoChunk]

/-
  Finding the root before and destroying the guard after it
  does not change what a submission wrote.
-/
theorem SubmissionSpec.surround
    {root : WorkspaceRoot}
    {messages : List TaskRequest}
    {status : Status}
    {body last : List ServerEvent}
    (h : SubmissionSpec root messages status body)
    (rootError : ErrorCode)
    (hSilent : ∀ e ∈ last, Silent e.1) :
    SubmissionSpec root messages status
      (⟨.weaklyCanonicalRoot, rootError⟩ ::
        (body ++ last)) := by
  rcases silent_trace hSilent with
    ⟨hResponses, hNotClean, hNoChunk⟩
  rcases h with ⟨⟨chunks, hChunks⟩, hOk, hEnds, hFinished⟩
  refine ⟨⟨chunks, ?_⟩, ?_, ?_, ?_⟩
  · simp [hResponses, hChunks, ServerEvent.responses]
  · intro hStatus
    rcases hOk hStatus with
      ⟨config, ⟨before, upload, after, ending, rfl,
        hFinishes, hAccepted⟩, hCommand, hStarted, hClean⟩
    refine
      ⟨config, ⟨⟨.weaklyCanonicalRoot, rootError⟩ :: before,
        upload, after ++ last, ending, by simp,
          hFinishes, hAccepted⟩, hCommand, ?_, ?_⟩
    · refine hStarted.mono ?_
      intro e hMem
      exact
        List.mem_cons_of_mem _ (List.mem_append_left _ hMem)
    · rw [endedCleanly_cons, endedCleanly_append]
      exact Or.inr (Or.inl hClean)
  · simpa [hNotClean, ServerEvent.EndsCleanly] using hEnds
  · rw [← hFinished]
    simp only [finishedChunk] at hNoChunk
    simp [finishedChunk, hNoChunk]

/- The body writes chunks, and one result or none. -/
theorem produces_submissionBody
    (root : WorkspaceRoot)
    (messages : List TaskRequest) :
    Produces Plausible (submissionBody root messages)
      (SubmissionSpec root messages) := by
  have hUpload :
      Produces Plausible (downloadWorkspace root messages)
        (fun r t =>
          (r.2 ≠ .thrown ∧ ∀ e ∈ t, Silent e.1) ∧
            Core.Prog.Finishes Plausible
              (downloadWorkspace root messages) t r) := by
    intro trace r hRun
    exact
      ⟨(wp_downloadWorkspace_silent root messages
        []).produces trace r hRun, hRun⟩
  refine produces_bind hUpload ?_
  rintro ⟨config, ending⟩ upload
    ⟨⟨hEnding, hSilent⟩, hFinishes⟩
  rcases silent_trace hSilent with
    ⟨hResponses, hNotClean, hNoChunk⟩
  simp only []
  unfold finishSubmission
  split
  · rename_i hAccepted
    refine
      produces_bind (TaskExecutor.produces_execute root config) ?_
    rintro executed middle ⟨⟨chunks, hChunks⟩, hExecuted⟩
    cases executed with
    | ok result =>
        rcases hExecuted with
          ⟨rfl, hCommand, hStarted, hClean, hFinished⟩
        refine
          produces_call fun _ _ =>
            produces_pure ⟨⟨chunks, ?_⟩, ?_, ?_, ?_⟩
        · simp [hResponses, hChunks, ServerEvent.responses,
            closingResponses, resultOf, Status.success,
            Status.isOk]
        · intro _
          refine
            ⟨config, ⟨[], upload, _, ending, rfl,
              hFinishes, hAccepted⟩, hCommand, ?_, ?_⟩
          · refine hStarted.mono ?_
            intro e hMem
            simp [hMem]
          · simp [hClean]
        · intro _
          rfl
        · simp [hFinished, Status.isOk, Status.success]
    | error ending' =>
        cases ending' with
        | thrown => exact absurd hExecuted id
        | status failure =>
            rcases hExecuted with
              ⟨hFailed, hNotMiddle, hNoMiddle⟩
            intro trace status hRun
            rcases produces_failSubmission hFailed _ _ hRun
              with ⟨rfl, hClosing, hNotLast, hNoLast⟩
            refine .of_failed hFailed ⟨chunks, ?_⟩ ?_ ?_
            · simp [hResponses, hChunks, hClosing]
            · simp [hNotClean, hNotMiddle, hNotLast]
            · simp [hNoChunk, hNoMiddle, hNoLast]
  · rename_i hRefused
    cases ending with
    | thrown => exact absurd rfl hEnding
    | status failure =>
        have hFailed : failure.isOk = false := by
          simpa [Ending.isOk] using hRefused
        intro trace status hRun
        rcases produces_failSubmission hFailed _ _ hRun with
          ⟨rfl, hClosing, hNotLast, hNoLast⟩
        refine .of_failed hFailed ⟨[], ?_⟩ ?_ ?_
        · simp [hResponses, hClosing]
        · simp [hNotClean, hNotLast]
        · simp [hNoChunk, hNoLast]

/- The handler adds an error before the upload at most. -/
theorem produces_taskSubmission
    (root : WorkspaceRoot)
    (messages : List TaskRequest) :
    Produces Plausible (taskSubmission root messages)
      (SubmissionSpec root messages) := by
  refine produces_call fun rootError _ => ?_
  split
  · refine produces_call fun _ _ => produces_pure ?_
    refine .of_failed rfl ⟨[], ?_⟩ ?_ ?_
    · simp [ServerEvent.responses, closingResponses,
        resultOf, Status.isOk, Status.internal]
    · simp [ServerEvent.EndsCleanly]
    · simp [finishedChunk]
  · refine
      produces_bind (produces_submissionBody root messages) ?_
    intro status body hBody
    have hDestroy :=
      WritesNothing.of_onlyCalls silent_of_cleans
        (onlyCalls_destroyGuard root) []
    refine produces_bind hDestroy.produces ?_
    rintro _ last ⟨_, hSilent⟩
    refine produces_pure ?_
    rw [List.append_nil]
    exact hBody.surround rootError hSilent

/-
  For every message sequence, command and cancellation: the
  responses are log chunks and, unless the status is
  CANCELLED, one result that matches the status; the status
  is OK exactly when the upload was accepted and the command
  started and ended cleanly.
-/
theorem taskSubmission_responses
    {root : WorkspaceRoot}
    {messages : List TaskRequest}
    {trace : List ServerEvent}
    {status : Status}
    (hRun :
      Core.Prog.Finishes Plausible
        (taskSubmission root messages) trace status) :
    (∃ chunks : List Str,
        responsesOf trace =
          chunks.map TaskResponse.logChunk ++
            closingResponses status) ∧
      (status.isOk = true ↔
        ∃ config,
          UploadAccepted root messages trace config ∧
            config.command ≠ [] ∧
              Started trace ∧ EndedCleanly trace) ∧
        (finishedChunk ∈ trace ↔ status.isOk = true) := by
  have hSpec :
      SubmissionSpec root messages status trace :=
    produces_taskSubmission root messages trace status hRun
  rcases hSpec with ⟨hResponses, hOk, hEnds, hFinished⟩
  refine ⟨hResponses, ⟨hOk, ?_⟩, hFinished⟩
  rintro ⟨config, hAccepted, hCommand, hStarted, hClean⟩
  exact hEnds hClean

/- The answers of the granting environment are plausible. -/
theorem follows_granting :
    Core.Prog.Follows (Core.Prog.allowing Plausible)
      (fun op g => (Env.granting.answer op, g)) := by
  intro op g
  cases op with
  | status p => exact Existence.noConfusion
  | logExecutionContext runDir => exact rfl
  | monitor child config =>
      exact ⟨_, rfl, Monitor.returns_quickEnd config⟩
  | _ => exact trivial

/- A submission of one file that runs to its end. -/
theorem exists_finished_smallRun :
    ∃ trace,
      Core.Prog.Finishes Plausible
          (taskSubmission smallRoot
            [.config (smallConfig "a"),
              .fileChunk (smallChunk "f")])
          trace Status.success ∧
        finishedChunk ∈ trace := by
  have hStatus :
      (Core.Prog.run
        (fun op g => (Env.granting.answer op, g))
        (taskSubmission smallRoot
          [.config (smallConfig "a"),
            .fileChunk (smallChunk "f")]) ()).1 =
        Status.success := by
    decide +kernel
  rcases
      Core.Prog.runs_run follows_granting
        (taskSubmission smallRoot
          [.config (smallConfig "a"),
            .fileChunk (smallChunk "f")]) () with
    ⟨trace, hTrace⟩
  rw [hStatus] at hTrace
  have hSpec := taskSubmission_responses hTrace
  exact ⟨trace, hTrace, hSpec.2.2.mpr rfl⟩

end Drex
