import Drex.Server.Registry

/-
  What an `UpdateUtilization` does, whatever it is answered:
  which processes it hints, which files it touches, and what
  it replies.

  The utilization of the processes is a state of its own
  that only hints change.  A hint whose process could not be
  waited for may or may not have taken effect.

  Key definitions include:
    * `hintsOf`
    * `World`
    * `HintEffect`
    * `worldAnswers`
    * `Seen`
    * `ListsTask`

  Key theorems include:
    * `produces_updateTaskProcessUtilization`
    * `produces_updateUtilization`
    * `utilization_of_runs`
    * `rejected_update`
    * `updateUtilization_processes`
-/

------------------------------------------------------------
-- The Hints Of A Run
------------------------------------------------------------

namespace Drex

open Drex.Core.Prog

namespace ServerEvent

/- The process and the value of a hint that succeeded. -/
def hint? : ServerEvent → Option (Pid × Int)
| ⟨.xcliHint _ pid utilization, .finished status⟩ =>
    if exitedCleanly status then
      some (pid, utilization)
    else
      none
| _ => none

/- A hint that could not be waited for. -/
def isUnseen : ServerEvent → Bool
| ⟨.xcliHint _ _ _, .waitFailed⟩ => true
| _ => false

end ServerEvent

/- The hints that succeeded, in order. -/
def hintsOf (trace : List ServerEvent) : List (Pid × Int) :=
  trace.filterMap ServerEvent.hint?

@[simp] theorem hintsOf_nil : hintsOf [] = [] :=
  rfl

@[simp] theorem hintsOf_append
    (first second : List ServerEvent) :
    hintsOf (first ++ second) =
      hintsOf first ++ hintsOf second :=
  List.filterMap_append

theorem hintsOf_cons_of_none
    {e : ServerEvent}
    (trace : List ServerEvent)
    (h : e.hint? = none) :
    hintsOf (e :: trace) = hintsOf trace :=
  List.filterMap_cons_none h

theorem hintsOf_cons_of_some
    {e : ServerEvent}
    {hint : Pid × Int}
    (trace : List ServerEvent)
    (h : e.hint? = some hint) :
    hintsOf (e :: trace) = hint :: hintsOf trace :=
  List.filterMap_cons_some h

theorem hintsOf_eq_head
    (e : ServerEvent)
    (trace : List ServerEvent) :
    hintsOf (e :: trace) = e.hint?.toList ++ hintsOf trace := by
  unfold hintsOf
  rw [List.filterMap_cons]
  cases e.hint? with
  | none => rfl
  | some hint => rfl

/- A hint that succeeded was called. -/
theorem exists_hint_of_mem
    {trace : List ServerEvent}
    {pid : Pid}
    {value : Int}
    (h : (pid, value) ∈ hintsOf trace) :
    ∃ e ∈ trace, ∃ xcli, e.1 = .xcliHint xcli pid value := by
  rcases List.mem_filterMap.mp h with ⟨⟨op, r⟩, hMem, hHint⟩
  refine ⟨⟨op, r⟩, hMem, ?_⟩
  cases op with
  | xcliHint xcli q v =>
      cases r with
      | finished status =>
          simp only [ServerEvent.hint?,
            Option.ite_none_right_eq_some,
            Option.some.injEq, Prod.mk.injEq] at hHint
          rw [hHint.2.1, hHint.2.2]
          exact ⟨xcli, rfl⟩
      | _ => cases hHint
  | _ => cases hHint

/- The operations that hint nothing. -/
def ServerOp.LeavesProcesses : ServerOp → Prop
| .xcliHint _ _ _ => False
| _ => True

theorem ServerEvent.hint?_of_leaves
    {e : ServerEvent}
    (h : e.1.LeavesProcesses) :
    e.hint? = none := by
  rcases e with ⟨op, r⟩
  cases op with
  | xcliHint xcli pid utilization => exact h.elim
  | _ => rfl

theorem hintsOf_of_leaves
    {trace : List ServerEvent}
    (h : ∀ e ∈ trace, e.1.LeavesProcesses) :
    hintsOf trace = [] := by
  unfold hintsOf
  rw [List.filterMap_eq_nil_iff]
  intro e hMem
  exact ServerEvent.hint?_of_leaves (h e hMem)

theorem ServerEvent.hint?_of_clean
    (xcli : Str)
    (pid : Pid)
    (utilization : Int)
    {status : Nat}
    (h : exitedCleanly status = true) :
    ServerEvent.hint?
        ⟨.xcliHint xcli pid utilization, .finished status⟩ =
      some (pid, utilization) :=
  if_pos h

theorem ServerEvent.hint?_of_unclean
    (xcli : Str)
    (pid : Pid)
    (utilization : Int)
    {status : Nat}
    (h : ¬ exitedCleanly status = true) :
    ServerEvent.hint?
        ⟨.xcliHint xcli pid utilization, .finished status⟩ =
      none :=
  if_neg h

variable {allowed : (op : ServerOp) → Resp op → Prop}

theorem produces_getXcliPath :
    Produces allowed getXcliPath
      (fun _ trace => hintsOf trace = []) := by
  unfold getXcliPath
  apply produces_call
  intro env _
  cases env with
  | none => exact produces_pure rfl
  | some value =>
      simp only []
      split
      · exact produces_pure rfl
      · exact produces_pure rfl

/- One hint succeeds exactly when no error is reported. -/
theorem produces_runXcliHint
    (pid : Pid)
    (utilization : Int) :
    Produces allowed (runXcliHint pid utilization)
      (fun hinted trace =>
        hintsOf trace =
          if hinted = some none then
            [(pid, utilization)]
          else
            []) := by
  unfold runXcliHint
  refine produces_bind produces_getXcliPath ?_
  intro xcli first hFirst
  apply produces_call
  intro xcliFound _
  cases xcliFound with
  | error =>
      apply produces_pure
      rw [hintsOf_append, hFirst]
      rfl
  | missing =>
      apply produces_pure
      rw [hintsOf_append, hFirst]
      rfl
  | found =>
      apply produces_call
      intro result _
      cases result with
      | forkFailed =>
          apply produces_call
          intro errno _
          apply produces_pure
          rw [hintsOf_append, hFirst]
          rfl
      | waitFailed =>
          apply produces_call
          intro errno _
          apply produces_pure
          rw [hintsOf_append, hFirst]
          rfl
      | finished status =>
          simp only []
          by_cases hClean : exitedCleanly status = true
          · rw [if_pos hClean]
            apply produces_pure
            rw [hintsOf_append, hFirst, List.nil_append,
              hintsOf_cons_of_none _ rfl,
              hintsOf_cons_of_some _
                (ServerEvent.hint?_of_clean _ _ _ hClean)]
            rfl
          · rw [if_neg hClean]
            apply produces_pure
            rw [hintsOf_append, hFirst, List.nil_append,
              hintsOf_cons_of_none _ rfl,
              hintsOf_cons_of_none _
                (ServerEvent.hint?_of_unclean _ _ _ hClean)]
            rfl

/- The processes that were hinted are listed, in order. -/
theorem produces_hintAll
    (utilization : Int)
    (pids updated : List Pid)
    (lastError : Str) :
    Produces allowed
      (hintAll utilization pids updated lastError)
      (fun hinted trace =>
        ∃ done, hintsOf trace =
            done.map (fun pid => (pid, utilization)) ∧
          ∀ listed error, hinted = some (listed, error) →
            listed = updated ++ done) := by
  induction pids generalizing updated lastError with
  | nil =>
      apply produces_pure
      refine ⟨[], rfl, ?_⟩
      intro listed error hListed
      cases hListed
      exact (List.append_nil _).symm
  | cons pid pids ih =>
      unfold hintAll
      refine
        produces_bind
          (produces_runXcliHint pid utilization) ?_
      intro hinted first hFirst
      rcases hinted with _ | _ | error
      · apply produces_pure
        refine ⟨[], ?_, ?_⟩
        · rw [List.append_nil, hFirst]
          rfl
        · intro listed error hListed
          cases hListed
      · refine produces_mono ?_ (ih (updated ++ [pid]) _)
        rintro hinted second ⟨done, hHints, hListed⟩
        refine ⟨pid :: done, ?_, ?_⟩
        · rw [hintsOf_append, hFirst, hHints]
          rfl
        · intro listed error hEq
          rw [hListed listed error hEq,
            List.append_assoc, List.singleton_append]
      · refine produces_mono ?_ (ih updated error)
        rintro hinted second ⟨done, hHints, hListed⟩
        refine ⟨done, ?_, hListed⟩
        rw [hintsOf_append, hFirst, hHints]
        rfl

/-
  The result of the hints lists what was hinted, and is a
  success if that is any process.
-/
def Lists
    (utilization : Int)
    (result : UtilizationUpdateResult)
    (trace : List ServerEvent) : Prop :=
  hintsOf trace =
      result.pids.map (fun pid => (pid, utilization)) ∧
    (result.success = true ↔ result.pids ≠ [])

theorem lists_failure
    {utilization : Int}
    {trace : List ServerEvent}
    (message : Str)
    (hNone : hintsOf trace = []) :
    Lists utilization (.failure message) trace := by
  constructor
  · exact hNone
  · constructor
    · intro hSuccess
      cases hSuccess
    · intro hPids
      exact absurd rfl hPids

theorem produces_updateTaskProcessUtilization
    (workspaceSubdir : Str)
    (utilization : Int) :
    Produces allowed
      (updateTaskProcessUtilization
        workspaceSubdir utilization)
      (fun updated trace =>
        ∀ result, updated = some result →
          Lists utilization result trace) := by
  have hFailure :
      ∀ (message : Str) (trace : List ServerEvent),
        hintsOf trace = [] →
          ∀ result,
            some (UtilizationUpdateResult.failure message) =
                some result →
              Lists utilization result trace := by
    intro message trace hNone result hResult
    cases hResult
    exact lists_failure message hNone
  unfold updateTaskProcessUtilization
  split
  · exact produces_pure (hFailure _ _ rfl)
  · split
    · exact produces_pure (hFailure _ _ rfl)
    · apply produces_call
      intro group _
      cases group with
      | none => exact produces_pure (hFailure _ _ rfl)
      | some pgid =>
          apply produces_call
          intro listed _
          rcases listed with _ | _ | ⟨pid, pids⟩
          · apply produces_pure
            intro result hResult
            cases hResult
          · exact produces_pure (hFailure _ _ rfl)
          · refine
              produces_bind
                (produces_hintAll utilization _ _ _) ?_
            rintro hinted first ⟨done, hHints, hListed⟩
            rcases hinted with _ | ⟨updated, lastError⟩
            · apply produces_pure
              intro result hResult
              cases hResult
            · have hDone : updated = done :=
                hListed updated lastError rfl
              have hTrace :
                  hintsOf
                      (⟨.findTaskProcessGroup
                          workspaceSubdir, some pgid⟩ ::
                        ⟨.findPidsInProcessGroup pgid,
                          some (pid :: pids)⟩ ::
                        (first ++ [])) =
                    updated.map
                      (fun pid => (pid, utilization)) := by
                rw [List.append_nil,
                  hintsOf_cons_of_none _ rfl,
                  hintsOf_cons_of_none _ rfl, hHints, hDone]
              simp only []
              by_cases hEmpty : updated = []
              · rw [if_pos hEmpty]
                apply produces_pure
                apply hFailure
                rw [hTrace, hEmpty]
                rfl
              · rw [if_neg hEmpty]
                apply produces_pure
                intro result hResult
                cases hResult
                exact
                  ⟨hTrace, fun _ => hEmpty, fun _ => rfl⟩

end Drex

------------------------------------------------------------
-- The Reply And The File
------------------------------------------------------------

namespace Drex

open Drex.Core.Prog

variable {allowed : (op : ServerOp) → Resp op → Prop}

/- An update that `UpdateUtilization` rejects unseen. -/
def UpdateUtilizationRequest.Invalid
    (request : UpdateUtilizationRequest) : Prop :=
  request.workspaceSubdir = [] ∨
    request.utilization < 0 ∨ 100 < request.utilization

/- An invalid request is answered without any operation. -/
theorem updateUtilization_invalid
    (root : WorkspaceRoot)
    {request : UpdateUtilizationRequest}
    (h : request.Invalid) :
    ∃ reply,
      updateUtilization root request = pure reply := by
  unfold updateUtilization updateTaskProcessUtilization
    writeRuntimeUtilizationFile
  by_cases hEmpty : request.workspaceSubdir = []
  · simp only [hEmpty, if_true]
    exact ⟨_, rfl⟩
  · have hRange := Or.resolve_left h hEmpty
    simp only [hEmpty, if_false, hRange, if_true]
    exact ⟨_, rfl⟩

/- No operation of the program changes what the server keeps. -/
def Asked (trace : List ServerEvent) : Prop :=
  ∀ e ∈ trace, e.1.Hints ∨ e.1 = .weaklyCanonicalRoot

/-
  The reply lists exactly what was hinted.  An exception, or
  a subdirectory that escapes, leaves the disk alone.
-/
structure UpdateAnswered
    (root : WorkspaceRoot)
    (request : UpdateUtilizationRequest)
    (reply : Status × Option UpdateUtilizationResponse)
    (trace : List ServerEvent) : Prop where
  hints :
    ∀ response, reply.2 = some response →
      hintsOf trace =
        response.pids.map
          (fun pid => (pid, request.utilization))
  outcome :
    (reply.1 = Status.exception ∧ Asked trace) ∨
      ∃ response, reply.2 = some response ∧
        ((reply.1.code = .failedPrecondition ∧
            response.pids = []) ∨
          (reply.1.code = .internal ∧
            response.pids ≠ []) ∨
          (reply.1 = Status.success ∧
            response.pids ≠ []))
  escapes :
    isSubPath root.path
        (subdirPath root request.workspaceSubdir) = false →
      Asked trace

theorem hintsOf_of_touches
    {root : WorkspaceRoot}
    {workspaceSubdir : Str}
    {trace : List ServerEvent}
    (h :
      ∀ e ∈ trace,
        e.1.TouchesUtilization root workspaceSubdir) :
    hintsOf trace = [] := by
  apply hintsOf_of_leaves
  intro e hMem
  have hOp := h e hMem
  rcases e with ⟨op, r⟩
  cases op with
  | xcliHint xcli pid utilization => exact hOp.elim
  | _ => trivial

/- An escaping subdirectory stops the step of the file. -/
theorem produces_writeRuntimeUtilizationFile_escapes
    {root : WorkspaceRoot}
    {workspaceSubdir : Str}
    (utilization : Int)
    (hEscapes :
      isSubPath root.path
        (subdirPath root workspaceSubdir) = false) :
    Produces allowed
      (writeRuntimeUtilizationFile root
        workspaceSubdir utilization)
      (fun _ trace => Asked trace) := by
  have hNil : Asked [] := by
    intro e hMem
    cases hMem
  have hRoot :
      ∀ r, Asked [⟨.weaklyCanonicalRoot, r⟩] := by
    intro r e hMem
    right
    rw [List.mem_singleton.mp hMem]
  unfold writeRuntimeUtilizationFile
  simp only []
  split
  · exact produces_pure hNil
  · split
    · exact produces_pure hNil
    · apply produces_call
      intro rootError _
      cases rootError with
      | some message => exact produces_pure (hRoot _)
      | none =>
          exact produces_pure (hRoot _)

theorem asked_of_hints
    {trace : List ServerEvent}
    (h : ∀ e ∈ trace, e.1.Hints) :
    Asked trace :=
  fun e hMem => Or.inl (h e hMem)

/- What the two stores reply together. -/
theorem updateReply_cases
    (result : UtilizationUpdateResult)
    (fileError : ErrorCode) :
    (updateReply result fileError).2.pids = result.pids ∧
      (((updateReply result fileError).1.code =
            .failedPrecondition ∧
          result.success = false) ∨
        ((updateReply result fileError).1.code =
            .internal ∧
          result.success = true) ∨
        ((updateReply result fileError).1 =
            Status.success ∧
          result.success = true)) := by
  unfold updateReply
  by_cases hFailed : result.success = false
  · rw [if_pos hFailed]
    exact ⟨rfl, Or.inl ⟨rfl, hFailed⟩⟩
  · rw [if_neg hFailed]
    have hSuccess : result.success = true :=
      Bool.eq_true_of_not_eq_false hFailed
    cases fileError with
    | some message =>
        exact ⟨rfl, Or.inr (Or.inl ⟨rfl, hSuccess⟩)⟩
    | none => exact ⟨rfl, Or.inr (Or.inr ⟨rfl, hSuccess⟩)⟩

theorem produces_updateUtilization
    (root : WorkspaceRoot)
    (request : UpdateUtilizationRequest) :
    Produces allowed (updateUtilization root request)
      (UpdateAnswered root request) := by
  unfold updateUtilization
  have hHints :=
    produces_and
      (@produces_updateTaskProcessUtilization allowed
        request.workspaceSubdir request.utilization)
      (produces_of_onlyCalls
        (onlyCalls_updateTaskProcessUtilization
          request.workspaceSubdir request.utilization))
  refine produces_bind hHints ?_
  rintro updated first ⟨hUpdated, hFirst⟩
  have hAsked := asked_of_hints hFirst
  cases updated with
  | none =>
      apply produces_pure
      rw [List.append_nil]
      exact
        { hints := fun _ hReply => nomatch hReply
          outcome := Or.inl ⟨rfl, hAsked⟩
          escapes := fun _ => hAsked }
  | some result =>
      rcases hUpdated result rfl with ⟨hListed, hSuccess⟩
      have hFile :=
        produces_and
          (@produces_of_onlyCalls _ _ _ _ allowed _
            (onlyCalls_writeRuntimeUtilizationFile root
              request.workspaceSubdir request.utilization))
          (fun trace error hRun hEscapes =>
            produces_writeRuntimeUtilizationFile_escapes
              request.utilization hEscapes trace error hRun)
      refine produces_bind hFile ?_
      rintro fileError second ⟨hTouches, hEscapes⟩
      apply produces_pure
      rw [List.append_nil]
      have hReply := updateReply_cases result fileError
      exact
        { hints := by
            intro response hResponse
            cases hResponse
            rw [hintsOf_append, hListed,
              hintsOf_of_touches hTouches,
              List.append_nil, hReply.1]
          outcome := by
            right
            refine ⟨_, rfl, ?_⟩
            rw [hReply.1]
            rcases hReply.2 with
              ⟨hCode, hFailed⟩ | ⟨hCode, hTrue⟩ | ⟨hOk, hTrue⟩
            · left
              refine ⟨hCode, ?_⟩
              by_contra hPids
              have hTrue := hSuccess.mpr hPids
              rw [hFailed] at hTrue
              cases hTrue
            · right
              left
              exact ⟨hCode, hSuccess.mp hTrue⟩
            · right
              right
              exact ⟨hOk, hSuccess.mp hTrue⟩
          escapes := by
            intro hOut e hMem
            rcases List.mem_append.mp hMem with hOld | hNew
            · exact hAsked e hOld
            · exact hEscapes hOut e hNew }

end Drex

------------------------------------------------------------
-- Both Stores
------------------------------------------------------------

namespace Drex

open Drex.Core.Prog

/- The server and the utilization of every process. -/
structure World where
  server : ServerState
  utilization : Pid → Int

/-
  What a hint does to the processes.  `xcli` exits with 0
  once it has set the value.
-/
def HintEffect
    (op : ServerOp)
    (r : Resp op)
    (before after : Pid → Int) : Prop :=
  match op, r with
  | .xcliHint _ pid utilization, .finished status =>
      after =
        if exitedCleanly status then
          Function.update before pid utilization
        else
          before
  | .xcliHint _ pid utilization, .waitFailed =>
      after = before ∨
        after = Function.update before pid utilization
  | _, _ => after = before

/- The answers to handler `i` and the world after them. -/
def worldAnswers
    (i : Nat) :
    Answers ServerOp Resp World :=
  fun w op r w' =>
    (∃ env, exec i op env w.server = (r, w'.server)) ∧
      HintEffect op r w.utilization w'.utilization

/- Every hint of the run was waited for. -/
def Seen (trace : List ServerEvent) : Prop :=
  ∀ e ∈ trace, e.isUnseen = false

/- The processes after some hints. -/
def applyHints
    (hints : List (Pid × Int))
    (utilization : Pid → Int) :
    Pid → Int :=
  hints.foldl
    (fun u hint => Function.update u hint.1 hint.2)
    utilization

theorem applyHints_pids
    (pids : List Pid)
    (value : Int)
    (utilization : Pid → Int)
    (pid : Pid) :
    applyHints (pids.map (fun pid => (pid, value)))
        utilization pid =
      if pid ∈ pids then value else utilization pid := by
  induction pids generalizing utilization with
  | nil => rfl
  | cons first rest ih =>
      change
        applyHints (rest.map (fun pid => (pid, value)))
            (Function.update utilization first value) pid =
          _
      rw [ih]
      by_cases hRest : pid ∈ rest
      · rw [if_pos hRest,
          if_pos (List.mem_cons_of_mem first hRest)]
      · rw [if_neg hRest]
        by_cases hFirst : pid = first
        · rw [hFirst, Function.update_self,
            if_pos List.mem_cons_self]
        · have hNot : pid ∉ first :: rest := by
            intro hMem
            rcases List.mem_cons.mp hMem with hEq | hIn
            · exact hFirst hEq
            · exact hRest hIn
          rw [Function.update_of_ne hFirst, if_neg hNot]

/- A hint that was waited for has its effect or none. -/
theorem hintEffect_of_seen
    {op : ServerOp}
    {r : Resp op}
    {before after : Pid → Int}
    (hSeen : ServerEvent.isUnseen ⟨op, r⟩ = false)
    (hEffect : HintEffect op r before after) :
    after =
      applyHints (ServerEvent.hint? ⟨op, r⟩).toList
        before := by
  cases op with
  | xcliHint xcli pid utilization =>
      cases r with
      | forkFailed => exact hEffect
      | waitFailed => cases hSeen
      | finished status =>
          change after = if exitedCleanly status = true then
            Function.update before pid utilization
          else before at hEffect
          by_cases hClean : exitedCleanly status = true
          · rw [if_pos hClean] at hEffect
            rw [ServerEvent.hint?_of_clean _ _ _ hClean]
            exact hEffect
          · rw [if_neg hClean] at hEffect
            rw [ServerEvent.hint?_of_unclean _ _ _ hClean]
            exact hEffect
  | _ => exact hEffect

/- The hints that succeeded are an effect of what was done. -/
theorem hintEffect_applyHints
    (op : ServerOp)
    (r : Resp op)
    (u : Pid → Int) :
    HintEffect op r u
      (applyHints (ServerEvent.hint? ⟨op, r⟩).toList u) := by
  cases op with
  | xcliHint xcli pid utilization =>
      cases r with
      | forkFailed => rfl
      | waitFailed => exact Or.inl rfl
      | finished status =>
          unfold HintEffect
          by_cases hClean : exitedCleanly status = true
          · simp only [hClean, if_true]
            rw [ServerEvent.hint?_of_clean _ _ _ hClean]
            rfl
          · simp only [hClean]
            rw [ServerEvent.hint?_of_unclean _ _ _ hClean]
            rfl
  | _ => rfl

theorem applyHints_append
    (first second : List (Pid × Int))
    (utilization : Pid → Int) :
    applyHints (first ++ second) utilization =
      applyHints second (applyHints first utilization) :=
  List.foldl_append

variable {i : Nat} {w w' : World}
variable {trace : List ServerEvent}

/- The processes after a run are those its hints made. -/
theorem utilization_of_runs
    {α : Type}
    {p : ServerProg α}
    {a : α}
    (hSeen : Seen trace)
    (hRun : Runs (worldAnswers i) w p trace a w') :
    w'.utilization =
      applyHints (hintsOf trace) w.utilization := by
  induction hRun with
  | ret w a => rfl
  | @call w w₁ w₂ op next r trace a hAnswer hNext ih =>
      have hHead :=
        hintEffect_of_seen (hSeen _ List.mem_cons_self)
          hAnswer.2
      have hTail :=
        ih (fun e hMem =>
          hSeen e (List.mem_cons_of_mem _ hMem))
      rw [hTail, hHead, hintsOf_eq_head, applyHints_append]

/- Asking changes nothing that the server keeps. -/
theorem exec_asked
    (i : Nat)
    {op : ServerOp}
    (h : op.Hints ∨ op = .weaklyCanonicalRoot)
    (env : Env)
    (s : ServerState) :
    (exec i op env s).2 = s := by
  rcases h with hHints | rfl
  · cases op <;> first | exact hHints.elim | rfl
  · rfl

theorem server_of_asked
    {α : Type}
    {p : ServerProg α}
    {a : α}
    (hAsked : Asked trace)
    (hRun : Runs (worldAnswers i) w p trace a w') :
    w'.server = w.server := by
  refine runs_frame ?_ hRun
  rintro e hMem u u' ⟨⟨env, hExec⟩, _⟩
  have hSame := exec_asked i (hAsked e hMem) env u.server
  rw [hExec] at hSame
  exact hSame

/-
  At most a missing directory on the way to the workspace
  has been created here.
-/
def Store.Grown
    (workspace q : Loc)
    (s s' : Store) : Prop :=
  s'.node q = s.node q ∨
    (q <+: workspace ∧ s.node q = none ∧
      s'.node q = some .directory)

theorem Store.Grown.trans
    {workspace q : Loc}
    {s s' s'' : Store}
    (hFirst : s.Grown workspace q s')
    (hSecond : s'.Grown workspace q s'') :
    s.Grown workspace q s'' := by
  rcases hFirst with hSame | ⟨hOn, hNone, hMade⟩
  · rcases hSecond with hSame' | ⟨hOn, hNone, hMade⟩
    · exact Or.inl (hSame'.trans hSame)
    · exact Or.inr ⟨hOn, hSame.symm.trans hNone, hMade⟩
  · rcases hSecond with hSame' | ⟨_, hNone', _⟩
    · exact Or.inr ⟨hOn, hNone, hSame'.trans hMade⟩
    · rw [hMade] at hNone'
      cases hNone'

theorem Store.grown_createDirectories
    (s : Store)
    {l workspace : Loc}
    (q : Loc)
    (hOn : l <+: workspace) :
    s.Grown workspace q (s.createDirectories l) := by
  unfold Grown
  by_cases hMade : q <+: l ∧ s.node q = none
  · right
    refine ⟨hMade.1.trans hOn, hMade.2, ?_⟩
    exact if_pos hMade
  · left
    exact if_neg hMade

theorem Store.grown_tryCreateDirectories
    (s : Store)
    (p : Path)
    (q : Loc)
    (error : ErrorCode)
    (amount : Nat) :
    s.Grown p.loc q
      (s.tryCreateDirectories p error amount).2 := by
  unfold tryCreateDirectories
  cases error with
  | some message =>
      simp only []
      split
      · exact
          s.grown_createDirectories q
            (List.take_prefix _ _)
      · exact Or.inl rfl
  | none =>
      simp only []
      split
      · exact s.grown_createDirectories q List.prefix_rfl
      · exact Or.inl rfl

/- Elsewhere than at the file, directories are created. -/
theorem grown_exec
    {root : WorkspaceRoot}
    {workspaceSubdir : Str}
    {op : ServerOp}
    {q : Loc}
    (hOp :
      op.Hints ∨
        op.TouchesUtilization root workspaceSubdir)
    (hElse :
      q ≠
        (runtimeUtilizationPath
          (subdirPath root workspaceSubdir)).loc)
    (env : Env)
    (s : ServerState) :
    s.store.Grown (subdirLoc root workspaceSubdir) q
      (exec i op env s).2.store := by
  rcases hOp with hHints | hTouches
  · rw [exec_asked i (Or.inl hHints)]
    exact Or.inl rfl
  · have hNode :
        ¬ op.Affects q →
          s.store.Grown (subdirLoc root workspaceSubdir) q
            (exec i op env s).2.store :=
      fun hNot => Or.inl (exec_node i env s hNot)
    cases op with
    | weaklyCanonicalRoot => exact Or.inl rfl
    | createDirectories p =>
        have hPath : p = subdirPath root workspaceSubdir :=
          hTouches
        rw [hPath]
        exact s.store.grown_tryCreateDirectories _ q _ _
    | openTrunc p =>
        apply hNode
        rw [show p = _ from hTouches]
        exact hElse
    | write p offset data =>
        apply hNode
        rw [show p = _ from hTouches]
        exact hElse
    | close p =>
        apply hNode
        rw [show p = _ from hTouches]
        exact hElse
    | _ => exact hTouches.elim

end Drex

------------------------------------------------------------
-- Rejected Updates
------------------------------------------------------------

namespace Drex

open Drex.Core.Prog

/- The utilization file of the workspace of a request. -/
def UpdateUtilizationRequest.file
    (root : WorkspaceRoot)
    (request : UpdateUtilizationRequest) :
    Path :=
  runtimeUtilizationPath
    (subdirPath root request.workspaceSubdir)

variable {i : Nat} {w w' : World}
variable {root : WorkspaceRoot}
variable {request : UpdateUtilizationRequest}
variable {trace : List ServerEvent}
variable {reply : Status × Option UpdateUtilizationResponse}

/-
  What a rejected update leaves: both stores as they were
  for an invalid request, the processes as they were when no
  task was updated, exactly the processes listed in the
  response with the new value when only the file failed, and
  the disk as it was for an exception or a subdirectory that
  escapes.  In every case the disk changes at most at the
  utilization file and by directories missing on the way.
-/
theorem rejected_update
    (hRun :
      Runs (worldAnswers i) w
        (updateUtilization root request) trace reply w')
    (hRejected : reply.1.isOk = false) :
    (request.Invalid → w' = w) ∧
    ((reply.1.code = .failedPrecondition ∧
        (Seen trace → w'.utilization = w.utilization)) ∨
      (reply.1.code = .internal ∧
        ∃ response, reply.2 = some response ∧
          response.pids ≠ [] ∧
            (Seen trace →
              ∀ pid, w'.utilization pid =
                if pid ∈ response.pids then
                  request.utilization
                else
                  w.utilization pid)) ∨
      (reply.1 = Status.exception ∧
        w'.server = w.server)) ∧
    (isSubPath root.path
        (subdirPath root request.workspaceSubdir) = false →
      w'.server = w.server) ∧
    (∀ q, q ≠ (request.file root).loc →
      w.server.store.Grown
        (subdirLoc root request.workspaceSubdir) q
        w'.server.store) := by
  have hFinishes :
      Finishes (fun _ _ => True)
        (updateUtilization root request) trace reply :=
    finishes_of_runs (fun _ _ _ _ _ => trivial) hRun
  have hAnswered :=
    produces_updateUtilization root request _ _ hFinishes
  refine ⟨?_, ?_, ?_, ?_⟩
  · intro hInvalid
    rcases updateUtilization_invalid root hInvalid with
      ⟨reply', hPure⟩
    rw [hPure] at hRun
    exact (runs_pure_iff.mp hRun).2.2
  · rcases hAnswered.outcome with
      ⟨hThrown, hAsked⟩ | ⟨response, hResponse, hCases⟩
    · right
      right
      exact ⟨hThrown, server_of_asked hAsked hRun⟩
    · have hHints := hAnswered.hints response hResponse
      rcases hCases with
        ⟨hCode, hNone⟩ | ⟨hCode, hSome⟩ | ⟨hOk, _⟩
      · left
        refine ⟨hCode, ?_⟩
        intro hSeen
        rw [utilization_of_runs hSeen hRun, hHints, hNone]
        rfl
      · right
        left
        refine ⟨hCode, response, hResponse, hSome, ?_⟩
        intro hSeen pid
        rw [utilization_of_runs hSeen hRun, hHints,
          applyHints_pids]
      · rw [hOk] at hRejected
        cases hRejected
  · intro hEscapes
    exact server_of_asked (hAnswered.escapes hEscapes) hRun
  · intro q hElse
    have hParts :=
      onlyCalls_of_mem
        (onlyCalls_update_parts root request) hRun
    refine
      runs_rel
        (R := fun u u' =>
          u.server.store.Grown
            (subdirLoc root request.workspaceSubdir) q
            u'.server.store)
        (fun _ => Or.inl rfl)
        (fun _ _ _ hFirst hSecond => hFirst.trans hSecond)
        ?_ hRun
    rintro e hMem u u' ⟨⟨env, hExec⟩, _⟩
    have hStep :=
      grown_exec (i := i) (hParts e hMem) hElse env u.server
    rw [hExec] at hStep
    exact hStep

/- Answer with the environment; unseen hints have no effect. -/
def worldHandler
    (i : Nat)
    (env : Env) :
    Handler ServerOp Resp World :=
  fun op w =>
    let r := exec i op env w.server
    (r.1,
      { server := r.2
        utilization :=
          applyHints (ServerEvent.hint? ⟨op, r.1⟩).toList
            w.utilization })

theorem worldHandler_follows
    (i : Nat)
    (env : Env) :
    Follows (worldAnswers i) (worldHandler i env) :=
  fun op _ => ⟨⟨env, rfl⟩, hintEffect_applyHints op _ _⟩

end Drex

------------------------------------------------------------
-- The Processes Of A Task
------------------------------------------------------------

namespace Drex

open Drex.Core.Prog

/- A listing of the group lists these processes. -/
def ListsTask (task : List Pid) :
    (op : ServerOp) → Resp op → Prop
| .findPidsInProcessGroup _, listed =>
    ∀ pids, listed = some pids → pids = task
| _, _ => True

/- The utilization of every process, as hints change it. -/
def hintAnswers (task : List Pid) :
    Answers ServerOp Resp (Pid → Int) :=
  fun u op r u' => ListsTask task op r ∧ HintEffect op r u u'

variable {task : List Pid}

/- Only the processes that were listed are hinted. -/
theorem produces_updateTask_among
    (workspaceSubdir : Str)
    (utilization : Int) :
    Produces (ListsTask task)
      (updateTaskProcessUtilization
        workspaceSubdir utilization)
      (fun _ trace =>
        ∀ e ∈ trace, e.1.HintsAmong task utilization) := by
  unfold updateTaskProcessUtilization
  split
  · exact produces_pure nofun
  · split
    · exact produces_pure nofun
    · apply produces_call
      intro group _
      have hGroup :
          ServerOp.HintsAmong task utilization
            (.findTaskProcessGroup workspaceSubdir) :=
        trivial
      cases group with
      | none =>
          apply produces_pure
          simpa using hGroup
      | some pgid =>
          apply produces_call
          intro listed hListed
          have hFind :
              ServerOp.HintsAmong task utilization
                (.findPidsInProcessGroup pgid) :=
            trivial
          rcases listed with _ | _ | ⟨pid, pids⟩
          · apply produces_pure
            simpa using ⟨hGroup, hFind⟩
          · apply produces_pure
            simpa using ⟨hGroup, hFind⟩
          · have hTask : pid :: pids = task := hListed _ rfl
            subst hTask
            refine
              produces_bind
                (produces_of_onlyCalls
                  (onlyCalls_hintAll utilization _ [] []))
                ?_
            intro hinted first hFirst
            have hAll :
                ∀ updated : Option UtilizationUpdateResult,
                  Produces (ListsTask (pid :: pids))
                    (pure updated : ServerProg _)
                    (fun _ (rest : List ServerEvent) =>
                      ∀ e ∈
                        ⟨.findTaskProcessGroup workspaceSubdir,
                            some pgid⟩ ::
                          ⟨.findPidsInProcessGroup pgid,
                              some (pid :: pids)⟩ ::
                            (first ++ rest),
                        e.1.HintsAmong (pid :: pids)
                          utilization) := by
              intro updated
              apply produces_pure
              rw [List.append_nil]
              simp only [List.forall_mem_cons]
              exact ⟨hGroup, hFind, hFirst⟩
            rcases hinted with _ | ⟨updated, lastError⟩
            · exact hAll _
            · simp only []
              split
              · exact hAll _
              · exact hAll _

/- A hint gives its process the value, or changes nothing. -/
theorem hintEffect_value
    {op : ServerOp}
    {r : Resp op}
    {u u' : Pid → Int}
    {value : Int}
    (hHints :
      ∀ xcli pid v, op = .xcliHint xcli pid v → v = value)
    (hEffect : HintEffect op r u u')
    (pid : Pid) :
    (u' pid = u pid ∨ u' pid = value) ∧
      (pid ∈ (ServerEvent.hint? ⟨op, r⟩).toList.map Prod.fst →
        u' pid = value) := by
  have hUpdate :
      ∀ q : Pid,
        Function.update u q value pid = u pid ∨
          Function.update u q value pid = value := by
    intro q
    by_cases hSame : pid = q
    · rw [hSame, Function.update_self]
      exact Or.inr rfl
    · rw [Function.update_of_ne hSame]
      exact Or.inl rfl
  cases op with
  | xcliHint xcli q v =>
      have hValue : v = value := hHints xcli q v rfl
      rw [hValue] at hEffect ⊢
      cases r with
      | forkFailed =>
          have hSame : u' = u := hEffect
          rw [hSame]
          exact ⟨Or.inl rfl, nofun⟩
      | waitFailed =>
          rcases hEffect with rfl | rfl
          · exact ⟨Or.inl rfl, nofun⟩
          · exact ⟨hUpdate q, nofun⟩
      | finished status =>
          by_cases hClean : exitedCleanly status = true
          · have hSet : u' = Function.update u q value := by
              simpa [HintEffect, hClean] using hEffect
            rw [hSet, ServerEvent.hint?_of_clean _ _ _ hClean]
            refine ⟨hUpdate q, ?_⟩
            intro hMem
            rw [List.mem_singleton.mp hMem]
            exact Function.update_self q value u
          · have hSame : u' = u := by
              simpa [HintEffect, hClean] using hEffect
            rw [hSame,
              ServerEvent.hint?_of_unclean _ _ _ hClean]
            exact ⟨Or.inl rfl, nofun⟩
  | _ =>
      have hSame : u' = u := hEffect
      rw [hSame]
      exact ⟨Or.inl rfl, nofun⟩

/- The processes after hints of one value. -/
theorem hinted_of_runs
    {α : Type}
    {p : ServerProg α}
    {a : α}
    {trace : List ServerEvent}
    {u u' : Pid → Int}
    {value : Int}
    (hHints :
      ∀ e ∈ trace, ∀ xcli pid v,
        e.1 = .xcliHint xcli pid v → v = value)
    (hRun : Runs (hintAnswers task) u p trace a u')
    (pid : Pid) :
    (u' pid = u pid ∨ u' pid = value) ∧
      (pid ∈ (hintsOf trace).map Prod.fst →
        u' pid = value) := by
  induction hRun with
  | ret u a => exact ⟨Or.inl rfl, nofun⟩
  | @call u mid u' op next r trace a hAnswer hNext ih =>
      have hFirst :=
        hintEffect_value (hHints _ List.mem_cons_self)
          hAnswer.2 pid
      have hRest :=
        ih (fun e hMem =>
          hHints e (List.mem_cons_of_mem _ hMem))
      have hKeeps : mid pid = value → u' pid = value := by
        intro hValue
        rcases hRest.1 with hSame | hNew
        · exact hSame.trans hValue
        · exact hNew
      constructor
      · rcases hFirst.1 with hSame | hNew
        · rw [← hSame]
          exact hRest.1
        · exact Or.inr (hKeeps hNew)
      · intro hMem
        rw [hintsOf_eq_head, List.map_append,
          List.mem_append] at hMem
        rcases hMem with hMem | hMem
        · exact hKeeps (hFirst.2 hMem)
        · exact hRest.2 hMem

/-
  After an update each process has its old value or the new
  one.  If it is reported done, the processes it lists, one
  at least, are of the task and have the new one.
-/
theorem updateUtilization_processes
    {root : WorkspaceRoot}
    {request : UpdateUtilizationRequest}
    {trace : List ServerEvent}
    {reply : Status × Option UpdateUtilizationResponse}
    {u u' : Pid → Int}
    (hRun :
      Runs (hintAnswers task) u
        (updateUtilization root request) trace reply u') :
    (∀ pid, u' pid = u pid ∨ u' pid = request.utilization) ∧
      (reply.1.isOk = true →
        ∃ response, reply.2 = some response ∧
          response.pids ≠ [] ∧
            ∀ pid ∈ response.pids,
              pid ∈ task ∧ u' pid = request.utilization) := by
  have hFinishes :
      Finishes (ListsTask task)
        (updateUtilization root request) trace reply :=
    finishes_of_runs (fun _ _ _ _ hAnswer => hAnswer.1) hRun
  have hAmong :
      ∀ e ∈ trace,
        e.1.HintsAmong task request.utilization ∨
          e.1.LeavesProcesses := by
    have hAll :
        Produces (ListsTask task)
          (updateUtilization root request)
          (fun _ trace =>
            ∀ e ∈ trace,
              e.1.HintsAmong task request.utilization ∨
                e.1.LeavesProcesses) := by
      unfold updateUtilization
      refine produces_bind (produces_updateTask_among _ _) ?_
      intro updated first hFirst
      cases updated with
      | none =>
          apply produces_pure
          rw [List.append_nil]
          exact fun e hMem => Or.inl (hFirst e hMem)
      | some result =>
          refine
            produces_bind
              (produces_of_onlyCalls
                (onlyCalls_writeRuntimeUtilizationFile root _ _))
              ?_
          intro fileError second hSecond
          apply produces_pure
          rw [List.append_nil]
          intro e hMem
          rcases List.mem_append.mp hMem with hMem | hMem
          · exact Or.inl (hFirst e hMem)
          · right
            have hOp := hSecond e hMem
            rcases e with ⟨op, r⟩
            cases op with
            | xcliHint xcli pid value => exact hOp.elim
            | _ => trivial
    exact hAll _ _ hFinishes
  have hHints :
      ∀ e ∈ trace, ∀ xcli pid v,
        e.1 = .xcliHint xcli pid v →
          v = request.utilization ∧ pid ∈ task := by
    intro e hMem xcli pid v hOp
    rcases hAmong e hMem with hHint | hLeaves
    · rw [hOp] at hHint
      exact ⟨hHint.2, hHint.1⟩
    · rw [hOp] at hLeaves
      exact hLeaves.elim
  have hProcesses :=
    hinted_of_runs
      (fun e hMem xcli pid v hOp =>
        (hHints e hMem xcli pid v hOp).1) hRun
  refine ⟨fun pid => (hProcesses pid).1, ?_⟩
  intro hOk
  have hAnswered :=
    produces_updateUtilization root request _ _ hFinishes
  rcases hAnswered.outcome with
    ⟨hThrown, _⟩ | ⟨response, hResponse, hCases⟩
  · rw [hThrown] at hOk
    cases hOk
  · refine ⟨response, hResponse, ?_, ?_⟩
    · rcases hCases with
        ⟨hCode, _⟩ | ⟨_, hSome⟩ | ⟨_, hSome⟩
      · unfold Status.isOk at hOk
        rw [hCode] at hOk
        cases hOk
      · exact hSome
      · exact hSome
    · intro pid hPid
      have hListed := hAnswered.hints response hResponse
      have hHinted :
          (pid, request.utilization) ∈ hintsOf trace := by
        rw [hListed]
        exact List.mem_map_of_mem hPid
      rcases exists_hint_of_mem hHinted with
        ⟨e, hMem, xcli, hOp⟩
      refine ⟨(hHints e hMem xcli _ _ hOp).2, ?_⟩
      exact
        (hProcesses pid).2 (List.mem_map_of_mem hHinted)

end Drex

------------------------------------------------------------
-- Updates Whose File Fails
------------------------------------------------------------

namespace Drex

open Drex.Core.Prog

/- Every call succeeds but the opening of a file. -/
def Env.closedFiles : Env :=
  { Env.granting with
    answer := fun op =>
      match op with
      | .openTrunc _ => false
      | op => Env.granting.answer op }

/- Every call succeeds but the writes, which write nothing. -/
def Env.fullDisk : Env :=
  { Env.granting with
    answer := fun op =>
      match op with
      | .write _ _ _ => false
      | op => Env.granting.answer op }

/- An update of the running task. -/
def updateTo (utilization : Int) : UpdateUtilizationRequest :=
  { workspaceSubdir := "a".toList, utilization }

/- Its reply and the world after it. -/
def updateRun
    (utilization : Int)
    (env : Env)
    (w : World) :
    (Status × Option UpdateUtilizationResponse) × World :=
  run (worldHandler 1 env)
    (updateUtilization smallRoot (updateTo utilization)) w

theorem runs_updateRun
    (utilization : Int)
    (env : Env)
    (w : World) :
    ∃ trace,
      Runs (worldAnswers 1) w
        (updateUtilization smallRoot (updateTo utilization))
        trace (updateRun utilization env w).1
        (updateRun utilization env w).2 :=
  runs_run (worldHandler_follows 1 env) _ _

/- The server of a running task, with idle processes. -/
def runningWorld : World :=
  { server := runningTask.shared
    utilization := fun _ => 0 }

/- The same after an update to one half. -/
def tunedWorld : World :=
  (updateRun 50 Env.granting runningWorld).2

/- The task has removed its own workspace. -/
def erasedWorld : World :=
  { runningWorld with
    server := { runningTask.shared with store := smallStore } }

/-
  A rejected update has changed the hinted process and has
  emptied the utilization file; another has created the
  directory of the workspace.
-/
theorem rejected_update_changes :
    (∃ trace,
      let run := updateRun 25 Env.fullDisk tunedWorld
      let file := ((updateTo 25).file smallRoot).loc
      Runs (worldAnswers 1) tunedWorld
          (updateUtilization smallRoot (updateTo 25)) trace
          run.1 run.2 ∧
        run.1.1.isOk = false ∧
          (tunedWorld.utilization 100 = 50 ∧
            run.2.utilization 100 = 25) ∧
          (tunedWorld.server.store.node file =
              some (.file (utilizationText 50)) ∧
            run.2.server.store.node file =
              some (.file []))) ∧
      ∃ trace,
        let run := updateRun 25 Env.closedFiles erasedWorld
        let subdir := subdirLoc smallRoot "a".toList
        Runs (worldAnswers 1) erasedWorld
            (updateUtilization smallRoot (updateTo 25)) trace
            run.1 run.2 ∧
          run.1.1.isOk = false ∧
            erasedWorld.server.store.node subdir = none ∧
              run.2.server.store.node subdir =
                some .directory := by
  constructor
  · rcases runs_updateRun 25 Env.fullDisk tunedWorld with
      ⟨trace, hRun⟩
    refine ⟨trace, hRun, ?_, ⟨?_, ?_⟩, ?_, ?_⟩
    all_goals decide +kernel
  · rcases runs_updateRun 25 Env.closedFiles erasedWorld with
      ⟨trace, hRun⟩
    refine ⟨trace, hRun, ?_, ?_, ?_⟩
    all_goals decide +kernel

/-
  An update whose write fails: the processes of the response
  have the new value, and the disk beside the file is as it
  was.
-/
theorem rejected_update_fullDisk :
    ∃ trace,
      let run := updateRun 25 Env.fullDisk tunedWorld
      Runs (worldAnswers 1) tunedWorld
          (updateUtilization smallRoot (updateTo 25)) trace
          run.1 run.2 ∧
        (∃ response, run.1.2 = some response ∧
          response.pids ≠ [] ∧
            (Seen trace →
              ∀ pid, run.2.utilization pid =
                if pid ∈ response.pids then
                  25
                else
                  tunedWorld.utilization pid)) ∧
          ∀ q, q ≠ ((updateTo 25).file smallRoot).loc →
            tunedWorld.server.store.Grown
              (subdirLoc smallRoot "a".toList) q
              run.2.server.store := by
  rcases runs_updateRun 25 Env.fullDisk tunedWorld with
    ⟨trace, hRun⟩
  have hRejected :
      (updateRun 25 Env.fullDisk tunedWorld).1.1.isOk =
        false := by
    decide +kernel
  have hCode :
      (updateRun 25 Env.fullDisk tunedWorld).1.1.code =
        .internal := by
    decide +kernel
  have hLeaves := rejected_update hRun hRejected
  refine ⟨trace, hRun, ?_, hLeaves.2.2.2⟩
  rcases hLeaves.2.1 with
    ⟨hOther, _⟩ | ⟨_, hHinted⟩ | ⟨hOther, _⟩
  · rw [hOther] at hCode
    cases hCode
  · exact hHinted
  · rw [hOther] at hCode
    cases hCode

end Drex
