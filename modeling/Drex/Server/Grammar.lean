import Drex.Server.Reassembly
import Drex.Server.Sessions

/-
  The streams a download session accepts.

  The session is judged by the history of its operations, so
  the answers of the disk, of the lock and of the other
  sessions are arbitrary; only the call is not cancelled.

  Key definitions include:
    * `ServerEvent.Fault`
    * `ContainedIn`
    * `Fits`
    * `Attempt`
    * `StreamRun`
    * `StreamGrammar`
    * `GrammarObeyed`

  Key theorems include:
    * `produces_handleFileChunk`
    * `produces_run`
    * `grammarObeyed_iff`
-/

------------------------------------------------------------
-- Events Of A Session
------------------------------------------------------------

namespace Drex

/- Any answer, where the call is never cancelled. -/
def Uncancelled : (op : ServerOp) → Resp op → Prop
| .isCancelled, answer => answer = false
| _, _ => True

namespace ServerEvent

/- The operation reaches a file or a directory. -/
def Touches : ServerEvent → Prop
| ⟨.createDirectories _, _⟩ => True
| ⟨.openTrunc _, _⟩ => True
| ⟨.write _ _ _, _⟩ => True
| ⟨.close _, _⟩ => True
| _ => False

/- The lock was acquired. -/
def Locks : ServerEvent → Prop
| ⟨.acquire _, status⟩ => status.isOk = true
| _ => False

/- Closing a file failed. -/
def LosesClose : ServerEvent → Prop
| ⟨.close _, closed⟩ => closed = false
| _ => False

/- The decision procedure of `LosesClose`. -/
def losesClose : ServerEvent → Bool
| ⟨.close _, closed⟩ => !closed
| _ => false

/- The disk or the lock refused what it was asked for. -/
def Fault : ServerEvent → Prop
| ⟨.status _, answer⟩ => answer = .error
| ⟨.acquire _, status⟩ => status.isOk = false
| ⟨.createDirectories _, error⟩ => error.isSome = true
| ⟨.openTrunc _, isOpen⟩ => isOpen = false
| ⟨.write _ _ _, good⟩ => good = false
| ⟨.close _, closed⟩ => closed = false
| _ => False

/- The message of a successful `Read`. -/
def message? : ServerEvent → Option TaskRequest
| ⟨.read next, _⟩ => next
| _ => none

theorem losesClose_iff
    (e : ServerEvent) :
    e.losesClose = true ↔ e.LosesClose := by
  rcases e with ⟨op, r⟩
  cases op with
  | close p =>
      change (!r) = true ↔ r = false
      simp
  | _ => simp [losesClose, LosesClose]

theorem LosesClose.fault
    {e : ServerEvent}
    (h : e.LosesClose) :
    e.Fault := by
  rcases e with ⟨op, r⟩
  cases op <;> first | exact h | exact False.elim h

theorem message?_of_touches
    {e : ServerEvent}
    (h : e.Touches) :
    e.message? = none := by
  rcases e with ⟨op, r⟩
  cases op <;> first | rfl | exact False.elim h

end ServerEvent

/- The messages that were read, in order. -/
def messagesRead (trace : List ServerEvent) :
    List TaskRequest :=
  trace.filterMap ServerEvent.message?

@[simp] theorem messagesRead_append
    (s t : List ServerEvent) :
    messagesRead (s ++ t) =
      messagesRead s ++ messagesRead t :=
  List.filterMap_append

/- Operations on the disk read nothing. -/
theorem messagesRead_of_touches
    {t : List ServerEvent}
    (h : ∀ e ∈ t, e.Touches) :
    messagesRead t = [] := by
  unfold messagesRead
  rw [List.filterMap_eq_nil_iff]
  intro e hMem
  exact ServerEvent.message?_of_touches (h e hMem)

end Drex

------------------------------------------------------------
-- One Chunk
------------------------------------------------------------

namespace Drex

/- The chunk names a place in the tree of the workspace. -/
def ContainedIn
    (base : Path)
    (chunk : TaskFileChunk) : Prop :=
  base.place <+:
    (base / Path.ofString chunk.relativePath).place

/- The form of a chunk is in order. -/
def Fits (base : Path) (chunk : TaskFileChunk) : Prop :=
  chunk.relativePath ≠ [] ∧ ContainedIn base chunk

/- The checks `HandleFileChunk` makes of a chunk. -/
def Checked (base : Path) (chunk : TaskFileChunk) : Prop :=
  chunk.relativePath ≠ [] ∧
    isSubPath base (DownloadSession.targetPath base chunk) =
      true

/-
  Work on the disk: it succeeds where no more than a close
  fails, and stops at the first other failure.
-/
structure Attempt
    (ok : Bool)
    (t : List ServerEvent) : Prop where
  touches : ∀ e ∈ t, e.Touches
  succeeds :
    ok = true → ∀ e ∈ t, e.Fault → e.LosesClose
  stops :
    ok = false →
      ∃ before last, t = before ++ [last] ∧ last.Fault ∧
        ¬ last.LosesClose ∧
          ∀ e ∈ before, e.Fault → e.LosesClose

theorem Attempt.nil : Attempt true [] := by
  constructor
  · simp
  · simp
  · intro h
    cases h

/- Work goes on where it has succeeded. -/
theorem Attempt.append
    {ok : Bool}
    {s t : List ServerEvent}
    (hFirst : Attempt true s)
    (hSecond : Attempt ok t) :
    Attempt ok (s ++ t) := by
  have hQuiet := hFirst.succeeds rfl
  constructor
  · intro e hMem
    rcases List.mem_append.mp hMem with hMem | hMem
    · exact hFirst.touches e hMem
    · exact hSecond.touches e hMem
  · intro hOk e hMem hFault
    rcases List.mem_append.mp hMem with hMem | hMem
    · exact hQuiet e hMem hFault
    · exact hSecond.succeeds hOk e hMem hFault
  · intro hFailed
    rcases hSecond.stops hFailed with
      ⟨before, last, rfl, hFault, hNoClose, hBefore⟩
    refine
      ⟨s ++ before, last, by simp, hFault, hNoClose, ?_⟩
    intro e hMem hEFault
    rcases List.mem_append.mp hMem with hMem | hMem
    · exact hQuiet e hMem hEFault
    · exact hBefore e hMem hEFault

/- One operation on the disk that succeeded. -/
theorem Attempt.single
    {e : ServerEvent}
    (hTouches : e.Touches)
    (hFault : e.Fault → e.LosesClose) :
    Attempt true [e] := by
  constructor
  · intro x hMem
    rw [List.mem_singleton.mp hMem]
    exact hTouches
  · intro _ x hMem
    rw [List.mem_singleton.mp hMem]
    exact hFault
  · intro h
    cases h

/- One operation on the disk that failed. -/
theorem Attempt.failed
    {e : ServerEvent}
    (hTouches : e.Touches)
    (hFault : e.Fault)
    (hNoClose : ¬ e.LosesClose) :
    Attempt false [e] := by
  constructor
  · intro x hMem
    rw [List.mem_singleton.mp hMem]
    exact hTouches
  · intro h
    cases h
  · intro _
    exact ⟨[], e, rfl, hFault, hNoClose, by simp⟩

end Drex

------------------------------------------------------------
-- The Functions Of A Session
------------------------------------------------------------

namespace Drex

namespace DownloadSession

open Drex.Core.Prog

variable {base : Path}

/- A part of `HandleFileChunk`, run on the disk. -/
abbrev Attempts
    (base : Path)
    (p : ServerProg (DownloadSession × Status))
    (Q : DownloadSession → Prop) : Prop :=
  Produces Uncancelled p
    (fun r t =>
      r.1.Receiving base ∧ Attempt r.2.isOk t ∧
        (r.2.isOk = true → Q r.1))

theorem produces_closeCurrentFile
    (s : DownloadSession) :
    Produces Uncancelled s.closeCurrentFile
      (fun s' t => s' = s.closed ∧ Attempt true t) := by
  unfold closeCurrentFile
  cases hFile : s.outfile with
  | none =>
      apply produces_pure
      refine ⟨?_, .nil⟩
      rcases s with ⟨config, paths, outfile, current, got⟩
      cases hFile
      rfl
  | some file =>
      apply produces_call
      intro closed _
      apply produces_pure
      exact ⟨rfl, .single trivial (fun hFault => hFault)⟩

theorem Receiving.closed
    {s : DownloadSession}
    (h : s.Receiving base) :
    s.closed.Receiving base :=
  ⟨h.received, h.workspacePath⟩

/- Opening a file closes, makes directories and opens. -/
theorem attempts_openOutputFile
    {s : DownloadSession}
    (h : s.Receiving base)
    (target : Path) :
    Attempts base (s.openOutputFile target)
      (fun s' => s'.outfile.isSome = true) := by
  refine produces_bind s.produces_closeCurrentFile ?_
  rintro s' first ⟨rfl, hFirst⟩
  apply produces_call
  intro dirError _
  cases dirError with
  | some message =>
      apply produces_pure
      refine ⟨h.closed, ?_, ?_⟩
      · exact
          hFirst.append
            (.failed trivial rfl (fun hClose => hClose))
      · intro hOk
        cases hOk
  | none =>
      apply produces_call
      intro isOpen _
      have hMade :
          Attempt true
            [(⟨.createDirectories target.parentPath, none⟩ :
              ServerEvent)] :=
        .single trivial (fun hFault => nomatch hFault)
      cases isOpen with
      | true =>
          apply produces_pure
          refine ⟨⟨h.received, h.workspacePath⟩, ?_, ?_⟩
          · exact
              hFirst.append
                (hMade.append
                  (.single trivial
                    (fun hFault => nomatch hFault)))
          · intro _
            rfl
      | false =>
          apply produces_pure
          refine ⟨h.closed, ?_, ?_⟩
          · exact
              hFirst.append
                (hMade.append
                  (.failed trivial rfl
                    (fun hClose => hClose)))
          · intro hOk
            cases hOk

theorem attempts_ensureOutputFile
    {s : DownloadSession}
    (h : s.Receiving base)
    (target : Path)
    (fileStart : Bool) :
    Attempts base (s.ensureOutputFile target fileStart)
      (fun s' => s'.outfile.isSome = true) := by
  unfold ensureOutputFile
  split
  · exact attempts_openOutputFile h target
  · rename_i hKeep
    apply produces_pure
    refine ⟨h, .nil, fun _ => ?_⟩
    cases hFile : s.outfile with
    | none => simp [needNewFile, hFile] at hKeep
    | some file => exact congrArg Option.isSome hFile

theorem attempts_writeChunkData
    {s : DownloadSession}
    (h : s.Receiving base)
    (hOpen : s.outfile.isSome = true)
    (data : Bytes) :
    Attempts base (s.writeChunkData data)
      (fun _ => True) := by
  unfold writeChunkData writeData
  split
  · apply produces_pure
    exact ⟨h, .nil, fun _ => trivial⟩
  · cases hFile : s.outfile with
    | none =>
        rw [hFile] at hOpen
        cases hOpen
    | some file =>
        apply produces_call
        intro good _
        cases good with
        | true =>
            apply produces_pure
            refine
              ⟨⟨h.received, h.workspacePath⟩, ?_,
                fun _ => trivial⟩
            exact
              .single trivial (fun hFault => nomatch hFault)
        | false =>
            apply produces_pure
            refine ⟨h, ?_, fun _ => trivial⟩
            exact .failed trivial rfl (fun hClose => hClose)

theorem attempts_storeChunk
    {s : DownloadSession}
    (h : s.Receiving base)
    (hOpen : s.outfile.isSome = true)
    (chunk : TaskFileChunk) :
    Attempts base (s.storeChunk chunk) (fun _ => True) := by
  refine produces_bind
    (attempts_writeChunkData h hOpen chunk.data) ?_
  rintro ⟨s', status⟩ first ⟨hReceiving, hFirst, _⟩
  simp only []
  split
  · rename_i hOk
    simp only [hOk] at hFirst
    split
    · refine produces_bind s'.produces_closeCurrentFile ?_
      rintro s'' second ⟨rfl, hSecond⟩
      apply produces_pure
      rw [List.append_nil]
      exact
        ⟨hReceiving.closed, hFirst.append hSecond,
          fun _ => trivial⟩
    · apply produces_pure
      rw [List.append_nil]
      exact ⟨hReceiving, hFirst, fun _ => trivial⟩
  · apply produces_pure
    rw [List.append_nil]
    exact ⟨hReceiving, hFirst, fun _ => trivial⟩

/-
  A chunk that passes the checks is worked on; any other is
  refused before anything is touched.
-/
theorem produces_handleFileChunk
    {s : DownloadSession}
    (h : s.Receiving base)
    (chunk : TaskFileChunk) :
    Produces Uncancelled (s.handleFileChunk chunk)
      (fun r t =>
        r.1.Receiving base ∧
          ((Checked base chunk ∧ Attempt r.2.isOk t) ∨
            (¬ Checked base chunk ∧ r.2.isOk = false ∧
              t = []))) := by
  unfold handleFileChunk Checked
  rw [h.workspacePath]
  simp only [h.received, Bool.true_eq_false, if_false]
  split
  · rename_i hEmpty
    apply produces_pure
    refine ⟨h, Or.inr ⟨?_, rfl, rfl⟩⟩
    exact fun hChecked => hChecked.1 hEmpty
  · rename_i hNonempty
    split
    · rename_i hEscapes
      apply produces_pure
      refine ⟨h, Or.inr ⟨?_, rfl, rfl⟩⟩
      intro hChecked
      rw [hChecked.2] at hEscapes
      cases hEscapes
    · rename_i hSub
      have hChecked :
          chunk.relativePath ≠ [] ∧
            isSubPath base (targetPath base chunk) = true :=
        ⟨hNonempty, by simpa using hSub⟩
      refine produces_bind
        (attempts_ensureOutputFile h
          (targetPath base chunk) chunk.fileStart) ?_
      rintro ⟨s', status⟩ first ⟨hReceiving, hFirst, hOpen⟩
      simp only []
      split
      · rename_i hOk
        simp only [hOk] at hFirst hOpen
        have hStore :=
          attempts_storeChunk hReceiving (hOpen trivial)
            chunk
        refine produces_mono ?_ hStore
        rintro r second ⟨hReceiving', hSecond, _⟩
        exact
          ⟨hReceiving',
            Or.inl ⟨hChecked, hFirst.append hSecond⟩⟩
      · apply produces_pure
        rw [List.append_nil]
        exact ⟨hReceiving, Or.inl ⟨hChecked, hFirst⟩⟩

end DownloadSession

end Drex

------------------------------------------------------------
-- The Config
------------------------------------------------------------

namespace Drex

namespace DownloadSession

open Drex.Core.Prog

/- The history of resolving and locking a workspace. -/
structure Resolving (t : List ServerEvent) : Prop where
  untouched : ∀ e ∈ t, ¬ e.Touches
  unread : messagesRead t = []

theorem Resolving.nil : Resolving [] :=
  ⟨by simp, rfl⟩

theorem Resolving.append
    {s t : List ServerEvent}
    (hFirst : Resolving s)
    (hSecond : Resolving t) :
    Resolving (s ++ t) := by
  constructor
  · intro e hMem
    rcases List.mem_append.mp hMem with hMem | hMem
    · exact hFirst.untouched e hMem
    · exact hSecond.untouched e hMem
  · rw [messagesRead_append, hFirst.unread, hSecond.unread]
    rfl

theorem Resolving.single
    {e : ServerEvent}
    (hUntouched : ¬ e.Touches)
    (hUnread : e.message? = none) :
    Resolving [e] := by
  constructor
  · intro x hMem
    rw [List.mem_singleton.mp hMem]
    exact hUntouched
  · simp [messagesRead, hUnread]

theorem produces_fsRelative
    (root : WorkspaceRoot)
    (p : Path) :
    Produces Uncancelled (fsRelative root p)
      (fun subdir (t : List ServerEvent) =>
        Resolving t ∧
          (subdir = none ↔ ∃ e ∈ t, e.Fault)) := by
  apply produces_call
  intro pathFound _
  apply produces_call
  intro rootFound _
  have hResolving :
      Resolving
        [⟨.status p, pathFound⟩,
          ⟨.status root.path, rootFound⟩] := by
    apply Resolving.append
      (s := [⟨.status p, pathFound⟩])
    · exact .single (fun h => h) rfl
    · exact .single (fun h => h) rfl
  split
  · rename_i hError
    apply produces_pure
    refine ⟨hResolving, ?_⟩
    simpa [ServerEvent.Fault] using hError
  · rename_i hNoError
    apply produces_pure
    refine ⟨hResolving, ?_⟩
    simpa [ServerEvent.Fault, not_or] using hNoError

/-
  A config is accepted where it stays in the root and
  neither the disk nor the lock objects.
-/
structure ConfigHandled
    (root : WorkspaceRoot)
    (config : TaskConfig)
    (s : DownloadSession)
    (ok : Bool)
    (t : List ServerEvent) : Prop where
  resolving : Resolving t
  accepted :
    ok = true →
      staysInRoot root config = true ∧
        s.Receiving (resolvedWorkspacePath root config) ∧
          (∃ e ∈ t, e.Locks) ∧ ∀ e ∈ t, ¬ e.Fault
  rejected :
    ok = false →
      staysInRoot root config = false ∨ ∃ e ∈ t, e.Fault

theorem produces_resolveTaskPaths
    (root : WorkspaceRoot)
    (config : TaskConfig) :
    Produces Uncancelled (resolveTaskPaths root config)
      (fun resolved (t : List ServerEvent) =>
        Resolving t ∧
          match resolved with
          | .ok paths =>
              staysInRoot root config = true ∧
                paths.workspacePath =
                    resolvedWorkspacePath root config ∧
                  ∀ e ∈ t, ¬ e.Fault
          | .error ending =>
              ending.isOk = false ∧
                (staysInRoot root config = false ∨
                  ∃ e ∈ t, e.Fault)) := by
  unfold resolveTaskPaths
  split
  · rename_i hStays
    refine produces_bind (produces_fsRelative root _) ?_
    rintro workspaceSubdir first ⟨hFirst, hWorkspace⟩
    refine produces_bind (produces_fsRelative root _) ?_
    rintro outputSubdir second ⟨hSecond, hOutput⟩
    have hBoth := hFirst.append hSecond
    cases workspaceSubdir with
    | none =>
        rcases hWorkspace.mp rfl with ⟨e, hMem, hFault⟩
        apply produces_pure
        rw [List.append_nil]
        exact
          ⟨hBoth, rfl,
            Or.inr ⟨e, List.mem_append_left _ hMem, hFault⟩⟩
    | some workspaceSubdir =>
        cases outputSubdir with
        | none =>
            rcases hOutput.mp rfl with ⟨e, hMem, hFault⟩
            apply produces_pure
            rw [List.append_nil]
            exact
              ⟨hBoth, rfl,
                Or.inr
                  ⟨e, List.mem_append_right _ hMem,
                    hFault⟩⟩
        | some outputSubdir =>
            apply produces_pure
            rw [List.append_nil]
            refine ⟨hBoth, hStays, rfl, ?_⟩
            intro e hMem hFault
            rcases List.mem_append.mp hMem with hMem | hMem
            · cases hWorkspace.mpr ⟨e, hMem, hFault⟩
            · cases hOutput.mpr ⟨e, hMem, hFault⟩
  · rename_i hEscapes
    apply produces_pure
    exact ⟨.nil, rfl, Or.inl (by simpa using hEscapes)⟩

theorem produces_handleConfig
    (root : WorkspaceRoot)
    (config : TaskConfig) :
    Produces Uncancelled (init.handleConfig root config)
      (fun r t =>
        ConfigHandled root config r.1 r.2.isOk t) := by
  unfold handleConfig
  simp only [init, Bool.false_eq_true, if_false]
  refine
    produces_bind (produces_resolveTaskPaths root config) ?_
  rintro resolved first ⟨hFirst, hResolved⟩
  cases resolved with
  | error ending =>
      rcases hResolved with ⟨hEnding, hWhy⟩
      apply produces_pure
      rw [List.append_nil]
      refine ⟨hFirst, ?_, fun _ => hWhy⟩
      intro hOk
      rw [hEnding] at hOk
      cases hOk
  | ok paths =>
      rcases hResolved with ⟨hStays, hPath, hNoFault⟩
      apply produces_call
      intro lockStatus _
      have hLock :
          Resolving
            [(⟨.acquire paths.workspaceSubdir, lockStatus⟩ :
              ServerEvent)] :=
        .single (fun h => h) rfl
      split
      · rename_i hLocked
        apply produces_call
        intro _ _
        apply produces_pure
        refine ⟨?_, ?_, ?_⟩
        · apply hFirst.append
          apply Resolving.append
            (s := [⟨.acquire paths.workspaceSubdir,
              lockStatus⟩])
          · exact hLock
          · exact .single (fun h => h) rfl
        · intro _
          refine
            ⟨hStays, ⟨rfl, hPath⟩,
              ⟨⟨.acquire paths.workspaceSubdir, lockStatus⟩,
                by simp, hLocked⟩, ?_⟩
          intro e hMem hFault
          rcases List.mem_append.mp hMem with hMem | hMem
          · exact hNoFault e hMem hFault
          · simp only [List.mem_cons, List.not_mem_nil,
              or_false] at hMem
            rcases hMem with rfl | rfl
            · change Status.isOk lockStatus = false at hFault
              rw [hLocked] at hFault
              cases hFault
            · exact hFault
        · intro hFailed
          cases hFailed
      · rename_i hRefused
        have hRefused' : lockStatus.isOk = false := by
          simpa using hRefused
        apply produces_pure
        refine ⟨hFirst.append hLock, ?_, ?_⟩
        · intro hOk
          exact absurd hOk hRefused
        · intro _
          exact
            Or.inr
              ⟨⟨.acquire paths.workspaceSubdir, lockStatus⟩,
                by simp, hRefused'⟩

end DownloadSession

end Drex

------------------------------------------------------------
-- Runs, Message By Message
------------------------------------------------------------

namespace Drex

/- The message is no chunk that passes the checks. -/
def Unchecked (base : Path) (message : TaskRequest) : Prop :=
  ∀ chunk, message = .fileChunk chunk → ¬ Checked base chunk

/-
  The history of a session that has accepted its config, for
  the messages that are left, and whether it succeeds.
-/
inductive ChunkStream (base : Path) :
    List TaskRequest → List ServerEvent → Bool → Prop
| ended
    {t : List ServerEvent}
    (hClosing : Attempt true t) :
    ChunkStream base []
      (endOfStream :: notCancelled :: t) true
| stored
    {chunk : TaskFileChunk}
    {rest : List TaskRequest}
    {t later : List ServerEvent}
    {ok : Bool}
    (hChecked : Checked base chunk)
    (hWork : Attempt true t)
    (hRest : ChunkStream base rest later ok) :
    ChunkStream base (.fileChunk chunk :: rest)
      (readOf (.fileChunk chunk) :: notCancelled ::
        (t ++ later))
      ok
| failed
    {chunk : TaskFileChunk}
    (rest : List TaskRequest)
    {t : List ServerEvent}
    (hChecked : Checked base chunk)
    (hWork : Attempt false t) :
    ChunkStream base (.fileChunk chunk :: rest)
      (readOf (.fileChunk chunk) :: notCancelled :: t)
      false
| refused
    {message : TaskRequest}
    (rest : List TaskRequest)
    (hUnchecked : Unchecked base message) :
    ChunkStream base (message :: rest)
      [readOf message, notCancelled] false

/- The history of a whole session. -/
inductive StreamRun (root : WorkspaceRoot) :
    List TaskRequest → List ServerEvent → Bool → Prop
| empty :
    StreamRun root [] [endOfStream, notCancelled] false
| noConfig
    {message : TaskRequest}
    (rest : List TaskRequest)
    (hNoConfig : ∀ config, message ≠ .config config) :
    StreamRun root (message :: rest)
      [readOf message, notCancelled] false
| rejected
    {config : TaskConfig}
    (rest : List TaskRequest)
    {t : List ServerEvent}
    (hResolving : DownloadSession.Resolving t)
    (hWhy :
      staysInRoot root config = false ∨ ∃ e ∈ t, e.Fault) :
    StreamRun root (.config config :: rest)
      (readOf (.config config) :: notCancelled :: t) false
| accepted
    {config : TaskConfig}
    {rest : List TaskRequest}
    {t later : List ServerEvent}
    {ok : Bool}
    (hStays : staysInRoot root config = true)
    (hResolving : DownloadSession.Resolving t)
    (hLocked : ∃ e ∈ t, e.Locks)
    (hNoFault : ∀ e ∈ t, ¬ e.Fault)
    (hRest :
      ChunkStream (resolvedWorkspacePath root config)
        rest later ok) :
    StreamRun root (.config config :: rest)
      (readOf (.config config) :: notCancelled ::
        (t ++ later))
      ok

namespace DownloadSession

open Drex.Core.Prog

/- A message is read, and the call is not cancelled. -/
theorem produces_run_message
    (root : WorkspaceRoot)
    (s : DownloadSession)
    (message : TaskRequest)
    (messages : List TaskRequest)
    {Q : DownloadSession × Ending → List ServerEvent → Prop}
    (h :
      Produces Uncancelled
        (s.handleMessage root message >>= fun r =>
          if r.2.isOk then run root r.1 messages
          else pure (r.1, r.2))
        (fun r t =>
          Q r (readOf message :: notCancelled :: t))) :
    Produces Uncancelled (run root s (message :: messages))
      Q := by
  unfold run
  apply produces_call
  intro _ _
  apply produces_call
  intro isCancelled hNot
  change isCancelled = false at hNot
  subst hNot
  exact h

theorem produces_run_nil
    (root : WorkspaceRoot)
    (s : DownloadSession) :
    Produces Uncancelled (run root s [])
      (fun r t =>
        r.2.isOk = s.receivedConfig ∧
          ∃ closing,
            t = endOfStream :: notCancelled :: closing ∧
              Attempt true closing ∧
                (s.receivedConfig = false →
                  closing = [])) := by
  unfold run finish
  apply produces_call
  intro _ _
  apply produces_call
  intro isCancelled hNot
  change isCancelled = false at hNot
  subst hNot
  simp only [Bool.false_eq_true, if_false]
  split
  · rename_i hNone
    apply produces_pure
    exact ⟨hNone.symm, [], rfl, .nil, fun _ => rfl⟩
  · rename_i hReceived
    have hReceived' : s.receivedConfig = true := by
      simpa using hReceived
    refine produces_bind s.produces_closeCurrentFile ?_
    rintro s' closing ⟨rfl, hClosing⟩
    apply produces_pure
    refine
      ⟨hReceived'.symm, closing, by simp, hClosing, ?_⟩
    intro hNone
    rw [hReceived'] at hNone
    cases hNone

theorem produces_run_chunks
    (root : WorkspaceRoot)
    {base : Path}
    (messages : List TaskRequest)
    {s : DownloadSession}
    (h : s.Receiving base) :
    Produces Uncancelled (run root s messages)
      (fun r t => ChunkStream base messages t r.2.isOk) := by
  induction messages generalizing s with
  | nil =>
      refine produces_mono ?_ (produces_run_nil root s)
      rintro r t ⟨hOk, closing, rfl, hClosing, _⟩
      rw [hOk, h.received]
      exact .ended hClosing
  | cons message messages ih =>
      apply produces_run_message
      cases message with
      | config config =>
          unfold handleMessage handleConfig
          simp only [h.received, if_true]
          apply produces_pure
          exact .refused messages (fun chunk hEq => nomatch hEq)
      | missing =>
          apply produces_pure
          exact .refused messages (fun chunk hEq => nomatch hEq)
      | fileChunk chunk =>
          unfold handleMessage
          simp only []
          rw [LawfulMonad.bind_assoc]
          refine
            produces_bind (produces_handleFileChunk h chunk)
              ?_
          rintro ⟨s', status⟩ first ⟨hReceiving, hHandled⟩
          rw [pure_bind]
          change
            Produces Uncancelled
              (if status.isOk = true then run root s' messages
              else pure (s', Ending.status status)) _
          rcases hHandled with
            ⟨hChecked, hWork⟩ | ⟨hUnchecked, hFailed, rfl⟩
          · by_cases hOk : status.isOk = true
            · rw [if_pos hOk]
              simp only [hOk] at hWork
              refine produces_mono ?_ (ih hReceiving)
              intro r later hRest
              exact .stored hChecked hWork hRest
            · have hFailed : status.isOk = false := by
                simpa using hOk
              rw [if_neg hOk]
              simp only [hFailed] at hWork
              apply produces_pure
              simp only [Ending.isOk, hFailed]
              rw [List.append_nil]
              exact .failed messages hChecked hWork
          · have hFailed' : status.isOk = false := hFailed
            rw [if_neg (by simp [hFailed'])]
            apply produces_pure
            simp only [Ending.isOk, hFailed']
            apply ChunkStream.refused
            intro chunk' hEq
            cases hEq
            exact hUnchecked

/- Every history of a session is one of these runs. -/
theorem produces_run
    (root : WorkspaceRoot)
    (messages : List TaskRequest) :
    Produces Uncancelled (run root init messages)
      (fun r t => StreamRun root messages t r.2.isOk) := by
  cases messages with
  | nil =>
      refine produces_mono ?_ (produces_run_nil root init)
      rintro r t ⟨hOk, closing, rfl, _, hNone⟩
      rw [hOk, hNone rfl]
      exact .empty
  | cons message messages =>
      apply produces_run_message
      cases message with
      | fileChunk chunk =>
          apply produces_pure
          exact .noConfig messages (fun config hEq => nomatch hEq)
      | missing =>
          apply produces_pure
          exact .noConfig messages (fun config hEq => nomatch hEq)
      | config config =>
          refine
            produces_bind (produces_handleConfig root config)
              ?_
          rintro ⟨s', ending⟩ first hHandled
          simp only []
          cases hOk : ending.isOk with
          | true =>
              rcases hHandled.accepted hOk with
                ⟨hStays, hReceiving, hLocked, hNoFault⟩
              simp only [if_true]
              refine
                produces_mono ?_
                  (produces_run_chunks root messages
                    hReceiving)
              intro r later hRest
              exact
                .accepted hStays hHandled.resolving hLocked
                  hNoFault hRest
          | false =>
              have hWhy := hHandled.rejected hOk
              simp only [Bool.false_eq_true, if_false]
              apply produces_pure
              rw [List.append_nil]
              simp only [hOk]
              exact
                .rejected messages hHandled.resolving hWhy

end DownloadSession

end Drex

------------------------------------------------------------
-- Where A Stream Stops
------------------------------------------------------------

namespace Drex

/- What passes the check is contained in the workspace. -/
theorem fits_of_checked
    {base : Path}
    (hAbsolute : base.absolute = true)
    (hOrdinary : ∀ n ∈ base.names, n.Ordinary)
    {chunk : TaskFileChunk}
    (h : Checked base chunk) :
    Fits base chunk := by
  refine ⟨h.1, ?_⟩
  have hPrefix :=
    (names_prefix_of_isSubPath hAbsolute h.2).2
  have hTarget :
      (DownloadSession.targetPath base chunk).names =
        (base / Path.ofString chunk.relativePath).place :=
    Path.lexicallyNormal_names
      (Path.append_absolute _ hAbsolute)
  have hBase : base.place = base.names := by
    rw [← Path.lexicallyNormal_names hAbsolute,
      Path.lexicallyNormal_of_ordinary hAbsolute hOrdinary]
  unfold ContainedIn
  rw [hBase, ← hTarget]
  exact hPrefix

/-
  A stream of chunks that stops at a message: the chunks
  before it were stored, and it failed the checks or the
  disk failed it.
-/
structure StopsIn
    (base : Path)
    (messages : List TaskRequest)
    (trace : List ServerEvent)
    (chunks : List TaskFileChunk)
    (message : TaskRequest)
    (earlier later : List ServerEvent) : Prop where
  messages :
    ∃ after,
      messages =
        chunks.map TaskRequest.fileChunk ++ message :: after
  trace :
    trace = earlier ++ readOf message :: notCancelled :: later
  read :
    messagesRead earlier = chunks.map TaskRequest.fileChunk
  checked : ∀ chunk ∈ chunks, Checked base chunk
  faults : ∀ e ∈ earlier, e.Fault → e.LosesClose
  why :
    (Unchecked base message ∧ later = []) ∨
      ((∃ chunk, message = .fileChunk chunk ∧
          Checked base chunk) ∧
        Attempt false later)

theorem StopsIn.unread
    {base : Path}
    {messages : List TaskRequest}
    {trace : List ServerEvent}
    {chunks : List TaskFileChunk}
    {message : TaskRequest}
    {earlier later : List ServerEvent}
    (h :
      StopsIn base messages trace chunks message earlier
        later) :
    messagesRead later = [] := by
  rcases h.why with ⟨_, rfl⟩ | ⟨_, hWork⟩
  · rfl
  · exact messagesRead_of_touches hWork.touches

/- A stream that succeeds stores chunks and nothing else. -/
theorem ChunkStream.of_true
    {base : Path}
    {messages : List TaskRequest}
    {trace : List ServerEvent}
    (h : ChunkStream base messages trace true) :
    ∃ chunks : List TaskFileChunk,
      messages = chunks.map TaskRequest.fileChunk ∧
        messagesRead trace = messages ∧
          (∀ chunk ∈ chunks, Checked base chunk) ∧
            ∀ e ∈ trace, e.Fault → e.LosesClose := by
  generalize hOk : true = ok at h
  induction h with
  | ended hClosing =>
      refine ⟨[], rfl, ?_, by simp, ?_⟩
      · have hNone :=
          messagesRead_of_touches hClosing.touches
        exact hNone
      · intro e hMem hFault
        rcases List.mem_cons.mp hMem with rfl | hMem
        · exact False.elim hFault
        · rcases List.mem_cons.mp hMem with rfl | hMem
          · exact False.elim hFault
          · exact hClosing.succeeds rfl e hMem hFault
  | @stored chunk rest t later ok hChecked hWork hRest ih =>
      rcases ih hOk with
        ⟨chunks, rfl, hRead, hAll, hFaults⟩
      refine ⟨chunk :: chunks, rfl, ?_, ?_, ?_⟩
      · have hNone := messagesRead_of_touches hWork.touches
        change
          .fileChunk chunk :: messagesRead (t ++ later) = _
        rw [messagesRead_append, hNone, hRead]
        rfl
      · simp only [List.forall_mem_cons]
        exact ⟨hChecked, hAll⟩
      · intro e hMem hFault
        rcases List.mem_cons.mp hMem with rfl | hMem
        · exact False.elim hFault
        · rcases List.mem_cons.mp hMem with rfl | hMem
          · exact False.elim hFault
          · rcases List.mem_append.mp hMem with hMem | hMem
            · exact hWork.succeeds rfl e hMem hFault
            · exact hFaults e hMem hFault
  | failed rest hChecked hWork => cases hOk
  | refused rest hUnchecked => cases hOk

/- A stream that fails stops at one of its messages. -/
theorem ChunkStream.of_false
    {base : Path}
    {messages : List TaskRequest}
    {trace : List ServerEvent}
    (h : ChunkStream base messages trace false) :
    ∃ chunks message earlier later,
      StopsIn base messages trace chunks message earlier
        later := by
  generalize hOk : false = ok at h
  induction h with
  | ended hClosing => cases hOk
  | @stored chunk rest t later ok hChecked hWork hRest ih =>
      rcases ih hOk with
        ⟨chunks, message, earlier, last, hStops⟩
      rcases hStops.messages with ⟨after, hAfter⟩
      refine
        ⟨chunk :: chunks, message,
          readOf (.fileChunk chunk) :: notCancelled ::
            (t ++ earlier), last, ?_⟩
      constructor
      · exact ⟨after, congrArg (_ :: ·) hAfter⟩
      · rw [hStops.trace]
        simp
      · have hNone := messagesRead_of_touches hWork.touches
        change
          .fileChunk chunk :: messagesRead (t ++ earlier) =
            _
        rw [messagesRead_append, hNone, hStops.read]
        rfl
      · simp only [List.forall_mem_cons]
        exact ⟨hChecked, hStops.checked⟩
      · intro e hMem hFault
        rcases List.mem_cons.mp hMem with rfl | hMem
        · exact False.elim hFault
        · rcases List.mem_cons.mp hMem with rfl | hMem
          · exact False.elim hFault
          · rcases List.mem_append.mp hMem with hMem | hMem
            · exact hWork.succeeds rfl e hMem hFault
            · exact hStops.faults e hMem hFault
      · exact hStops.why
  | @failed chunk rest t hChecked hWork =>
      refine ⟨[], .fileChunk chunk, [], t, ?_⟩
      constructor
      · exact ⟨rest, rfl⟩
      · rfl
      · rfl
      · simp
      · simp
      · exact Or.inr ⟨⟨chunk, rfl, hChecked⟩, hWork⟩
  | @refused message rest hUnchecked =>
      refine ⟨[], message, [], [], ?_⟩
      constructor
      · exact ⟨rest, rfl⟩
      · rfl
      · rfl
      · simp
      · simp
      · exact Or.inl ⟨hUnchecked, rfl⟩

end Drex

------------------------------------------------------------
-- The Grammar
------------------------------------------------------------

namespace Drex

/- One config inside the root, then chunks in order. -/
def GrammarForm
    (root : WorkspaceRoot)
    (messages : List TaskRequest) : Prop :=
  ∃ config, ∃ chunks : List TaskFileChunk,
    messages =
        .config config :: chunks.map TaskRequest.fileChunk ∧
      staysInRoot root config = true ∧
        ∀ chunk ∈ chunks,
          Fits (resolvedWorkspacePath root config) chunk

/- The form is kept, the key is free and nothing fails. -/
def StreamGrammar
    (root : WorkspaceRoot)
    (messages : List TaskRequest)
    (trace : List ServerEvent) : Prop :=
  GrammarForm root messages ∧
    (∃ e ∈ trace, e.Locks) ∧ ∀ e ∈ trace, ¬ e.Fault

/- The form of a message after the ones before it. -/
def Continues
    (root : WorkspaceRoot) :
    List TaskRequest → TaskRequest → Prop
| [], .config config => staysInRoot root config = true
| .config config :: _, .fileChunk chunk =>
    Fits (resolvedWorkspacePath root config) chunk
| _, _ => False

/-
  The session stopped at its first offending message: every
  message before it was in order, it was the last one read,
  and nothing was touched once its form was wrong or the
  disk or the lock had failed it.
-/
structure StoppedAt
    (root : WorkspaceRoot)
    (messages : List TaskRequest)
    (trace : List ServerEvent)
    (before : List TaskRequest)
    (message : TaskRequest)
    (earlier later : List ServerEvent) : Prop where
  messages : ∃ after, messages = before ++ message :: after
  trace : trace = earlier ++ readOf message :: later
  read : messagesRead earlier = before
  unread : messagesRead later = []
  form : before = [] ∨ GrammarForm root before
  noFault : ∀ e ∈ earlier, ¬ e.Fault
  offends :
    (¬ Continues root before message ∧
        ∀ e ∈ later, ¬ e.Touches) ∨
      ∃ quiet fault rest,
        later = quiet ++ fault :: rest ∧
          (∀ e ∈ quiet, ¬ e.Fault) ∧ fault.Fault ∧
            ∀ e ∈ rest, ¬ e.Touches

/- Nothing is touched before the lock is held. -/
def Guarded (trace : List ServerEvent) : Prop :=
  ∀ before e after,
    trace = before ++ e :: after → e.Touches →
      ∃ lock ∈ before, lock.Locks

/-
  The session succeeds exactly on the grammar, stops at the
  first offending message of any other stream, and touches
  nothing before it holds the lock.
-/
structure GrammarObeyed
    (root : WorkspaceRoot)
    (messages : List TaskRequest)
    (trace : List ServerEvent)
    (ok : Bool) : Prop where
  verdict :
    ok = true ↔ StreamGrammar root messages trace
  stops :
    ok = false →
      messages = [] ∨
        ∃ before message earlier later,
          StoppedAt root messages trace before message
            earlier later
  guarded : Guarded trace

/-
  No close fails, and no chunk that is read and contained in
  the workspace fails the checks.
-/
structure Tame
    (root : WorkspaceRoot)
    (messages : List TaskRequest)
    (trace : List ServerEvent) : Prop where
  closes : ∀ e ∈ trace, ¬ e.LosesClose
  checks :
    ∀ config rest, messages = .config config :: rest →
      ∀ chunk, .fileChunk chunk ∈ messagesRead trace →
        Fits (resolvedWorkspacePath root config) chunk →
          Checked (resolvedWorkspacePath root config) chunk

/- A close that fails reaches a file. -/
theorem ServerEvent.LosesClose.touches
    {e : ServerEvent}
    (h : e.LosesClose) :
    e.Touches := by
  rcases e with ⟨op, r⟩
  cases op <;> trivial

/- The first fault of a history. -/
theorem exists_first_fault
    {t : List ServerEvent}
    (h : ∃ e ∈ t, e.Fault) :
    ∃ quiet fault rest,
      t = quiet ++ fault :: rest ∧
        (∀ e ∈ quiet, ¬ e.Fault) ∧ fault.Fault := by
  induction t with
  | nil => simp at h
  | cons e t ih =>
      by_cases hFault : e.Fault
      · exact ⟨[], e, t, rfl, by simp, hFault⟩
      · rcases h with ⟨x, hMem, hX⟩
        rcases List.mem_cons.mp hMem with rfl | hMem
        · exact absurd hX hFault
        · rcases ih ⟨x, hMem, hX⟩ with
            ⟨quiet, fault, rest, rfl, hQuiet, hFirst⟩
          refine ⟨e :: quiet, fault, rest, rfl, ?_, hFirst⟩
          simp only [List.forall_mem_cons]
          exact ⟨hFault, hQuiet⟩

/- The last message that was read has one place. -/
theorem last_read_unique
    {earlier later earlier' later' : List ServerEvent}
    {message message' : TaskRequest}
    (h :
      earlier ++ readOf message :: later =
        earlier' ++ readOf message' :: later')
    (hUnread : messagesRead later = [])
    (hUnread' : messagesRead later' = []) :
    earlier = earlier' ∧ message = message' ∧
      later = later' := by
  rcases List.append_eq_append_iff.mp h with
    ⟨middle, rfl, hRest⟩ | ⟨middle, rfl, hRest⟩
  · cases middle with
    | nil =>
        injection hRest with hHead hTail
        cases hHead
        exact ⟨by simp, rfl, hTail⟩
    | cons x middle =>
        injection hRest with hHead hTail
        have hLater :
            later = middle ++ readOf message' :: later' :=
          hTail
        rw [hLater, messagesRead_append] at hUnread
        have hNone := (List.append_eq_nil_iff.mp hUnread).2
        cases hNone
  · cases middle with
    | nil =>
        injection hRest with hHead hTail
        cases hHead
        exact ⟨by simp, rfl, hTail.symm⟩
    | cons x middle =>
        injection hRest with hHead hTail
        have hLater :
            later' = middle ++ readOf message :: later :=
          hTail
        rw [hLater, messagesRead_append] at hUnread'
        have hNone := (List.append_eq_nil_iff.mp hUnread').2
        cases hNone

/- Touching comes after a part that locks. -/
theorem guarded_append
    {first second : List ServerEvent}
    (hUntouched : ∀ e ∈ first, ¬ e.Touches)
    (hLocked : second = [] ∨ ∃ e ∈ first, e.Locks) :
    Guarded (first ++ second) := by
  intro before e after hTrace hTouches
  rcases List.append_eq_append_iff.mp hTrace with
    ⟨middle, rfl, hRest⟩ | ⟨middle, rfl, hRest⟩
  · rcases hLocked with rfl | ⟨lock, hMem, hLock⟩
    · have hNil := List.append_eq_nil_iff.mp hRest.symm
      cases hNil.2
    · exact
        ⟨lock, List.mem_append_left _ hMem, hLock⟩
  · cases middle with
    | nil =>
        rcases hLocked with rfl | ⟨lock, hMem, hLock⟩
        · cases hRest
        · rw [List.append_nil] at hMem
          exact ⟨lock, hMem, hLock⟩
    | cons x middle =>
        injection hRest with hHead _
        subst hHead
        exact
          absurd hTouches (hUntouched e (by simp))

/- Reading a message and the config touches nothing. -/
theorem untouched_read
    {t : List ServerEvent}
    (message : TaskRequest)
    (h : ∀ e ∈ t, ¬ e.Touches) :
    ∀ e ∈ readOf message :: notCancelled :: t,
      ¬ e.Touches := by
  simp only [List.forall_mem_cons]
  exact ⟨fun hRead => hRead, fun hCall => hCall, h⟩

theorem StreamRun.guarded
    {root : WorkspaceRoot}
    {messages : List TaskRequest}
    {trace : List ServerEvent}
    {ok : Bool}
    (h : StreamRun root messages trace ok) :
    Guarded trace := by
  cases h with
  | empty =>
      have hUntouched :
          ∀ e ∈ [endOfStream, notCancelled],
            ¬ e.Touches := by
        simp only [List.forall_mem_cons]
        exact
          ⟨fun hEnd => hEnd, fun hCall => hCall, by simp⟩
      exact guarded_append hUntouched (Or.inl rfl)
  | @noConfig message rest hNoConfig =>
      have hUntouched :=
        untouched_read message (List.forall_mem_nil _)
      exact guarded_append hUntouched (Or.inl rfl)
  | @rejected config rest t hResolving hWhy =>
      have hUntouched :=
        untouched_read (.config config) hResolving.untouched
      rw [← List.append_nil (_ :: _ :: t)]
      exact guarded_append hUntouched (Or.inl rfl)
  | @accepted config rest t later ok hStays hResolving
      hLocked hNoFault hRest =>
      have hUntouched :=
        untouched_read (.config config) hResolving.untouched
      rcases hLocked with ⟨lock, hMem, hLock⟩
      exact
        guarded_append hUntouched
          (Or.inr ⟨lock, by simp [hMem], hLock⟩)

end Drex

------------------------------------------------------------
-- The Grammar And The Session
------------------------------------------------------------

namespace Drex

variable {root : WorkspaceRoot}

theorem grammarForm_cons
    {config : TaskConfig}
    {rest : List TaskRequest}
    (h : GrammarForm root (.config config :: rest)) :
    ∃ chunks : List TaskFileChunk,
      rest = chunks.map TaskRequest.fileChunk ∧
        staysInRoot root config = true ∧
          ∀ chunk ∈ chunks,
            Fits (resolvedWorkspacePath root config)
              chunk := by
  rcases h with ⟨config', chunks, hEq, hStays, hFits⟩
  cases hEq
  exact ⟨chunks, rfl, hStays, hFits⟩

/- A message is in order only as a config or a chunk. -/
theorem not_continues_of_noConfig
    {message : TaskRequest}
    (h : ∀ config, message ≠ .config config) :
    ¬ Continues root [] message := by
  cases message with
  | config config => exact absurd rfl (h config)
  | fileChunk chunk => exact fun hContinues => hContinues
  | missing => exact fun hContinues => hContinues

theorem not_grammarForm_of_not_continues
    {message : TaskRequest}
    {rest : List TaskRequest}
    (h : ¬ Continues root [] message) :
    ¬ GrammarForm root (message :: rest) := by
  rintro ⟨config, chunks, hEq, hStays, _⟩
  cases hEq
  exact h hStays

/- A first message that is refused offends. -/
theorem grammarObeyed_first
    {message : TaskRequest}
    {rest : List TaskRequest}
    {later : List ServerEvent}
    (hRun :
      StreamRun root (message :: rest)
        (readOf message :: later) false)
    (hUnread : messagesRead later = [])
    (hUntouched : ∀ e ∈ later, ¬ e.Touches)
    (hWhy :
      ¬ Continues root [] message ∨ ∃ e ∈ later, e.Fault) :
    GrammarObeyed root (message :: rest)
      (readOf message :: later) false := by
  constructor
  · constructor
    · intro hOk
      cases hOk
    · rintro ⟨hForm, _, hNoFault⟩
      rcases hWhy with hForm' | ⟨e, hMem, hFault⟩
      · exact
          absurd hForm
            (not_grammarForm_of_not_continues hForm')
      · exact
          absurd hFault
            (hNoFault e (List.mem_cons_of_mem _ hMem))
  · intro _
    right
    refine ⟨[], message, [], later, ?_⟩
    constructor
    · exact ⟨rest, rfl⟩
    · rfl
    · rfl
    · exact hUnread
    · exact Or.inl rfl
    · simp
    · rcases hWhy with hForm | hFault
      · exact Or.inl ⟨hForm, hUntouched⟩
      · rcases exists_first_fault hFault with
          ⟨quiet, fault, rest', rfl, hQuiet, hFirst⟩
        refine
          Or.inr
            ⟨quiet, fault, rest', rfl, hQuiet, hFirst, ?_⟩
        intro e hMem
        exact hUntouched e (by simp [hMem])
  · exact hRun.guarded

/- What the grammar asks of the first config. -/
structure ConfigAccepted
    (root : WorkspaceRoot)
    (config : TaskConfig)
    (first : List ServerEvent) : Prop where
  stays : staysInRoot root config = true
  read : messagesRead first = [.config config]
  locked : ∃ e ∈ first, e.Locks
  noFault : ∀ e ∈ first, ¬ e.Fault

theorem configAccepted_of
    {config : TaskConfig}
    {t : List ServerEvent}
    (hStays : staysInRoot root config = true)
    (hResolving : DownloadSession.Resolving t)
    (hLocked : ∃ e ∈ t, e.Locks)
    (hNoFault : ∀ e ∈ t, ¬ e.Fault) :
    ConfigAccepted root config
      (readOf (.config config) :: notCancelled :: t) := by
  constructor
  · exact hStays
  · exact congrArg (_ :: ·) hResolving.unread
  · rcases hLocked with ⟨lock, hMem, hLock⟩
    exact ⟨lock, by simp [hMem], hLock⟩
  · simp only [List.forall_mem_cons]
    exact ⟨fun h => h, fun h => h, hNoFault⟩

theorem fits_of_checked_config
    {config : TaskConfig}
    (hStays : staysInRoot root config = true)
    {chunk : TaskFileChunk}
    (h :
      Checked (resolvedWorkspacePath root config) chunk) :
    Fits (resolvedWorkspacePath root config) chunk := by
  have hBelow :
      (resolvedWorkspacePath root config).Below root :=
    below_of_isSubPath rfl
      ((staysInRoot_iff root config).mp hStays).1
  exact fits_of_checked hBelow.absolute hBelow.ordinary h

/- A stream that succeeds keeps the grammar, if tame. -/
theorem grammarObeyed_true_iff
    {config : TaskConfig}
    {rest : List TaskRequest}
    {first later : List ServerEvent}
    (hConfig : ConfigAccepted root config first)
    (hGuarded : Guarded (first ++ later))
    (hStream :
      ChunkStream (resolvedWorkspacePath root config)
        rest later true) :
    GrammarObeyed root (.config config :: rest)
        (first ++ later) true ↔
      Tame root (.config config :: rest)
        (first ++ later) := by
  rcases hStream.of_true with
    ⟨chunks, rfl, hRead, hChecked, hFaults⟩
  have hForm :
      GrammarForm root
        (.config config ::
          chunks.map TaskRequest.fileChunk) := by
    refine ⟨config, chunks, rfl, hConfig.stays, ?_⟩
    intro chunk hMem
    exact
      fits_of_checked_config hConfig.stays
        (hChecked chunk hMem)
  constructor
  · intro hObeyed
    have hGrammar := hObeyed.verdict.mp rfl
    constructor
    · intro e hMem hClose
      exact hGrammar.2.2 e hMem hClose.fault
    · intro config' rest' hEq chunk hMem _
      cases hEq
      rw [messagesRead_append, hConfig.read, hRead] at hMem
      have hChunk : chunk ∈ chunks := by
        simpa using hMem
      exact hChecked chunk hChunk
  · intro hTame
    constructor
    · refine ⟨fun _ => ⟨hForm, ?_, ?_⟩, fun _ => rfl⟩
      · rcases hConfig.locked with ⟨lock, hMem, hLock⟩
        exact
          ⟨lock, List.mem_append_left _ hMem, hLock⟩
      · intro e hMem hFault
        rcases List.mem_append.mp hMem with hFirst | hLater
        · exact hConfig.noFault e hFirst hFault
        · exact
            hTame.closes e hMem (hFaults e hLater hFault)
    · intro hFailed
      cases hFailed
    · exact hGuarded

end Drex

------------------------------------------------------------
-- Streams That Fail
------------------------------------------------------------

namespace Drex

variable {root : WorkspaceRoot}

/- Work that fails after a failed close touches more. -/
theorem Attempt.touches_after_close
    {t quiet rest : List ServerEvent}
    {fault : ServerEvent}
    (h : Attempt false t)
    (hSplit : t = quiet ++ fault :: rest)
    (hQuiet : ∀ e ∈ quiet, ¬ e.Fault)
    (hUntouched : ∀ e ∈ rest, ¬ e.Touches) :
    ∀ e ∈ t, ¬ e.LosesClose := by
  intro e hMem hClose
  rcases h.stops rfl with
    ⟨before, last, hLast, hFault, hNoClose, hBefore⟩
  have hRest : rest = [] := by
    cases rest with
    | nil => rfl
    | cons x rest =>
        have hTouches :=
          h.touches x (by rw [hSplit]; simp)
        exact absurd hTouches (hUntouched x (by simp))
  rw [hRest] at hSplit
  have hSame : quiet ++ [fault] = before ++ [last] :=
    hSplit.symm.trans hLast
  rcases List.append_inj' hSame rfl with ⟨hBefore', hEnd⟩
  cases hEnd
  rw [hLast, ← hBefore'] at hMem
  rcases List.mem_append.mp hMem with hMem | hMem
  · exact hQuiet e hMem hClose.fault
  · rw [List.mem_singleton.mp hMem] at hClose
    exact hNoClose hClose

/- Where a stream of chunks with its config stops. -/
theorem StopsIn.stoppedAt
    {config : TaskConfig}
    {rest : List TaskRequest}
    {first trace : List ServerEvent}
    {chunks : List TaskFileChunk}
    {message : TaskRequest}
    {earlier later : List ServerEvent}
    (hConfig : ConfigAccepted root config first)
    (h :
      StopsIn (resolvedWorkspacePath root config) rest
        trace chunks message earlier later)
    (hTame :
      Tame root (.config config :: rest)
        (first ++ trace)) :
    StoppedAt root (.config config :: rest) (first ++ trace)
      (.config config :: chunks.map TaskRequest.fileChunk)
      message (first ++ earlier) (notCancelled :: later) := by
  have hTrace := h.trace
  have hEarlier :
      ∀ e ∈ earlier, e ∈ first ++ trace := by
    intro e hMem
    rw [hTrace]
    simp [hMem]
  constructor
  · rcases h.messages with ⟨after, hAfter⟩
    exact ⟨after, congrArg (_ :: ·) hAfter⟩
  · rw [hTrace, List.append_assoc]
  · rw [messagesRead_append, hConfig.read, h.read]
    rfl
  · exact h.unread
  · right
    refine ⟨config, chunks, rfl, hConfig.stays, ?_⟩
    intro chunk hMem
    exact
      fits_of_checked_config hConfig.stays
        (h.checked chunk hMem)
  · intro e hMem hFault
    rcases List.mem_append.mp hMem with hMem | hMem
    · exact hConfig.noFault e hMem hFault
    · exact
        hTame.closes e (hEarlier e hMem)
          (h.faults e hMem hFault)
  · rcases h.why with ⟨hUnchecked, rfl⟩ | ⟨_, hWork⟩
    · left
      constructor
      · cases message with
        | config config => exact fun hContinues => hContinues
        | missing => exact fun hContinues => hContinues
        | fileChunk chunk =>
            have hRead :
                TaskRequest.fileChunk chunk ∈
                  messagesRead (first ++ trace) := by
              rw [hTrace, messagesRead_append,
                messagesRead_append]
              simp [messagesRead, ServerEvent.message?]
            intro hFits
            exact
              hUnchecked chunk rfl
                (hTame.checks config rest rfl chunk hRead
                  hFits)
      · intro e hMem
        rw [List.mem_singleton.mp hMem]
        exact fun hTouches => hTouches
    · right
      rcases hWork.stops rfl with
        ⟨before, last, rfl, hFault, hNoClose, hBefore⟩
      refine
        ⟨notCancelled :: before, last, [], rfl, ?_, hFault,
          by simp⟩
      simp only [List.forall_mem_cons]
      refine ⟨fun hCall => hCall, ?_⟩
      intro e hMem hEFault
      have hIn : e ∈ first ++ trace := by
        rw [hTrace]
        simp [hMem]
      exact hTame.closes e hIn (hBefore e hMem hEFault)

section
variable {config : TaskConfig}
variable {rest : List TaskRequest}
variable {first trace : List ServerEvent}
variable {chunks : List TaskFileChunk}
variable {message : TaskRequest}
variable {earlier later : List ServerEvent}

/- The place where a stream stops is the only one. -/
theorem StopsIn.stoppedAt_unique
    {before : List TaskRequest}
    {message' : TaskRequest}
    {earlier' later' : List ServerEvent}
    (hConfig : ConfigAccepted root config first)
    (h :
      StopsIn (resolvedWorkspacePath root config) rest
        trace chunks message earlier later)
    (hStopped :
      StoppedAt root (.config config :: rest)
        (first ++ trace) before message' earlier' later') :
    StoppedAt root (.config config :: rest) (first ++ trace)
      (.config config :: chunks.map TaskRequest.fileChunk)
      message (first ++ earlier) (notCancelled :: later) := by
  have hSame :
      (first ++ earlier) ++
          readOf message :: notCancelled :: later =
        earlier' ++ readOf message' :: later' := by
    rw [List.append_assoc, ← h.trace]
    exact hStopped.trace
  rcases
      last_read_unique hSame h.unread hStopped.unread
    with ⟨rfl, rfl, rfl⟩
  have hBefore :
      before =
        .config config ::
          chunks.map TaskRequest.fileChunk := by
    rw [← hStopped.read, messagesRead_append,
      hConfig.read, h.read]
    rfl
  rw [← hBefore]
  exact hStopped

/- A stream that stops at its first offence is tame. -/
theorem StopsIn.tame
    (hConfig : ConfigAccepted root config first)
    (h :
      StopsIn (resolvedWorkspacePath root config) rest
        trace chunks message earlier later)
    (hStopped :
      StoppedAt root (.config config :: rest)
        (first ++ trace)
        (.config config :: chunks.map TaskRequest.fileChunk)
        message (first ++ earlier)
        (notCancelled :: later)) :
    Tame root (.config config :: rest) (first ++ trace) := by
  have hTrace := h.trace
  have hSplit :
      ∀ e ∈ first ++ trace,
        e ∈ first ++ earlier ∨ e = readOf message ∨
          e = notCancelled ∨ e ∈ later := by
    intro e hMem
    rw [hTrace, ← List.append_assoc] at hMem
    simpa [or_assoc] using hMem
  constructor
  · intro e hMem hClose
    rcases hSplit e hMem with hMem | rfl | rfl | hMem
    · exact hStopped.noFault e hMem hClose.fault
    · exact hClose
    · exact hClose
    · rcases hStopped.offends with
        ⟨_, hUntouched⟩ |
        ⟨quiet, fault, rest', hEq, hQuiet, hFirst,
          hUntouched⟩
      · exact
          hUntouched e (List.mem_cons_of_mem _ hMem)
            hClose.touches
      · rcases h.why with ⟨_, rfl⟩ | ⟨_, hWork⟩
        · cases hMem
        · cases quiet with
          | nil =>
              injection hEq with hHead _
              subst hHead
              exact hFirst
          | cons x quiet =>
              injection hEq with _ hLast
              simp only [List.forall_mem_cons] at hQuiet
              exact
                hWork.touches_after_close hLast hQuiet.2
                  hUntouched e hMem hClose
  · intro config' rest' hEq chunk hMem hFits
    cases hEq
    rw [hTrace, messagesRead_append, hConfig.read,
      messagesRead_append, h.read] at hMem
    have hUnread := h.unread
    have hChunk :
        chunk ∈ chunks ∨ message = .fileChunk chunk := by
      simp only [messagesRead, List.filterMap_cons,
        ServerEvent.message?] at hMem hUnread
      rw [hUnread] at hMem
      simpa [eq_comm] using hMem
    rcases hChunk with hChunk | rfl
    · exact h.checked chunk hChunk
    · rcases h.why with ⟨_, rfl⟩ | ⟨hWhy, _⟩
      · rcases hStopped.offends with
          ⟨hNot, _⟩ |
          ⟨quiet, fault, rest', hEq, _, hFirst, _⟩
        · exact absurd hFits hNot
        · have hFault : fault ∈ [notCancelled] := by
            rw [hEq]
            simp
          rw [List.mem_singleton.mp hFault] at hFirst
          exact False.elim hFirst
      · rcases hWhy with ⟨chunk', hSameChunk, hChecked⟩
        cases hSameChunk
        exact hChecked

/- A stream that stops somewhere is not in the grammar. -/
theorem StopsIn.not_grammar
    (h :
      StopsIn (resolvedWorkspacePath root config) rest
        trace chunks message earlier later)
    (hStopped :
      StoppedAt root (.config config :: rest)
        (first ++ trace)
        (.config config :: chunks.map TaskRequest.fileChunk)
        message (first ++ earlier)
        (notCancelled :: later)) :
    ¬ StreamGrammar root (.config config :: rest)
        (first ++ trace) := by
  rintro ⟨hForm, _, hNoFault⟩
  rcases grammarForm_cons hForm with ⟨all, hAll, _, hFits⟩
  rcases hStopped.offends with
    ⟨hNot, _⟩ | ⟨quiet, fault, rest', hEq, _, hFirst, _⟩
  · rcases h.messages with ⟨after, hAfter⟩
    have hMem :
        message ∈ all.map TaskRequest.fileChunk := by
      rw [← hAll, hAfter]
      simp
    rcases List.mem_map.mp hMem with ⟨chunk, hChunk, rfl⟩
    exact hNot (hFits chunk hChunk)
  · have hMem : fault ∈ first ++ trace := by
      rw [hStopped.trace, hEq]
      simp
    exact hNoFault fault hMem hFirst

end

/- A stream that fails stops at its first offence, if tame. -/
theorem grammarObeyed_false_iff
    {config : TaskConfig}
    {rest : List TaskRequest}
    {first later : List ServerEvent}
    (hConfig : ConfigAccepted root config first)
    (hGuarded : Guarded (first ++ later))
    (hStream :
      ChunkStream (resolvedWorkspacePath root config)
        rest later false) :
    GrammarObeyed root (.config config :: rest)
        (first ++ later) false ↔
      Tame root (.config config :: rest)
        (first ++ later) := by
  rcases hStream.of_false with
    ⟨chunks, message, earlier, last, hStops⟩
  constructor
  · intro hObeyed
    rcases hObeyed.stops rfl with hNil |
      ⟨before, message', earlier', later', hStopped⟩
    · cases hNil
    · exact
        hStops.tame hConfig
          (hStops.stoppedAt_unique hConfig hStopped)
  · intro hTame
    have hStopped := hStops.stoppedAt hConfig hTame
    constructor
    · constructor
      · intro hOk
        cases hOk
      · intro hGrammar
        exact absurd hGrammar (hStops.not_grammar hStopped)
    · intro _
      exact Or.inr ⟨_, _, _, _, hStopped⟩
    · exact hGuarded

/- A run that reaches no chunk is tame. -/
theorem tame_of_untouched
    {messages : List TaskRequest}
    {trace : List ServerEvent}
    (hUntouched : ∀ e ∈ trace, ¬ e.Touches)
    (hNoChunk :
      ∀ config rest, messages = .config config :: rest →
        messagesRead trace = [.config config]) :
    Tame root messages trace := by
  constructor
  · intro e hMem hClose
    exact hUntouched e hMem hClose.touches
  · intro config rest hEq chunk hMem _
    rw [hNoChunk config rest hEq] at hMem
    simp at hMem

theorem grammarObeyed_empty (root : WorkspaceRoot) :
    GrammarObeyed root [] [endOfStream, notCancelled]
      false := by
  constructor
  · constructor
    · intro hOk
      cases hOk
    · rintro ⟨⟨config, chunks, hEq, _⟩, _⟩
      cases hEq
  · intro _
    exact Or.inl rfl
  · have hRun :
        StreamRun root [] [endOfStream, notCancelled] false :=
      .empty
    exact hRun.guarded

/-
  Whatever the disk and the lock answer, a session that is
  not cancelled obeys the grammar of streams if and only if
  its run is tame.
-/
theorem grammarObeyed_iff
    (root : WorkspaceRoot)
    (messages : List TaskRequest)
    {trace : List ServerEvent}
    {s : DownloadSession}
    {ending : Ending}
    (h :
      Core.Prog.Finishes Uncancelled
        (DownloadSession.run root DownloadSession.init
          messages)
        trace (s, ending)) :
    GrammarObeyed root messages trace ending.isOk ↔
      Tame root messages trace := by
  have hRun :
      StreamRun root messages trace ending.isOk :=
    DownloadSession.produces_run root messages trace
      (s, ending) h
  have hGuarded := hRun.guarded
  generalize ending.isOk = ok at hRun
  cases hRun with
  | empty =>
      have hTame :
          Tame root [] [endOfStream, notCancelled] := by
        apply tame_of_untouched
        · simp [ServerEvent.Touches]
        · intro config rest hEq
          cases hEq
      exact
        iff_of_true (grammarObeyed_empty root) hTame
  | @noConfig message rest hNoConfig =>
      have hUntouched :=
        untouched_read message (List.forall_mem_nil _)
      have hObeyed :
          GrammarObeyed root (message :: rest)
            [readOf message, notCancelled] false :=
        grammarObeyed_first (.noConfig rest hNoConfig) rfl
          (by simp [ServerEvent.Touches])
          (Or.inl (not_continues_of_noConfig hNoConfig))
      have hTame :
          Tame root (message :: rest)
            [readOf message, notCancelled] := by
        apply tame_of_untouched hUntouched
        intro config rest' hEq
        injection hEq with hHead _
        exact absurd hHead (hNoConfig config)
      exact iff_of_true hObeyed hTame
  | @rejected config rest t hResolving hWhy =>
      have hUntouched :=
        untouched_read (.config config) hResolving.untouched
      have hOffends :
          ¬ Continues root [] (.config config) ∨
            ∃ e ∈ notCancelled :: t, e.Fault := by
        rcases hWhy with hEscapes | ⟨e, hMem, hFault⟩
        · left
          change ¬ staysInRoot root config = true
          simp [hEscapes]
        · exact
            Or.inr ⟨e, List.mem_cons_of_mem _ hMem, hFault⟩
      have hObeyed :=
        grammarObeyed_first
          (.rejected rest hResolving hWhy)
          hResolving.unread
          (fun e hMem =>
            hUntouched e (List.mem_cons_of_mem _ hMem))
          hOffends
      have hTame :
          Tame root (.config config :: rest)
            (readOf (.config config) ::
              notCancelled :: t) := by
        apply tame_of_untouched hUntouched
        intro config' rest' hEq
        cases hEq
        exact congrArg (_ :: ·) hResolving.unread
      exact iff_of_true hObeyed hTame
  | @accepted config rest t later ok hStays hResolving
      hLocked hNoFault hRest =>
      have hConfig :=
        configAccepted_of hStays hResolving hLocked hNoFault
      cases ok with
      | true =>
          exact
            grammarObeyed_true_iff hConfig hGuarded hRest
      | false =>
          exact
            grammarObeyed_false_iff hConfig hGuarded hRest

/- Every call succeeds, except closing a file. -/
def lossyAnswers : (op : ServerOp) → Resp op
| .close _ => false
| op => Env.granting.answer op

/- One config and one chunk. -/
def smallStream : List TaskRequest :=
  [.config (smallConfig "a"), .fileChunk (smallChunk "f")]

/- A session on the small stream against fixed answers. -/
def answeredRun
    (answers : (op : ServerOp) → Resp op) :
    (DownloadSession × Ending) × List ServerEvent :=
  Core.Prog.run
    (fun op trace => (answers op, trace ++ [⟨op, answers op⟩]))
    (DownloadSession.run smallRoot DownloadSession.init
      smallStream)
    []

theorem answeredRun_finishes
    (answers : (op : ServerOp) → Resp op)
    (hAnswers : ∀ op, Uncancelled op (answers op)) :
    Core.Prog.Finishes Uncancelled
      (DownloadSession.run smallRoot DownloadSession.init
        smallStream)
      (answeredRun answers).2
      ((answeredRun answers).1.1,
        (answeredRun answers).1.2) := by
  rcases
      Core.Prog.finishes_answers answers hAnswers
        (DownloadSession.run smallRoot DownloadSession.init
          smallStream)
        []
    with ⟨trace, hState, hRun⟩
  have hTrace : (answeredRun answers).2 = trace := hState
  rw [hTrace]
  exact hRun

theorem granting_uncancelled
    (op : ServerOp) :
    Uncancelled op (Env.granting.answer op) := by
  cases op <;> trivial

theorem lossyAnswers_uncancelled
    (op : ServerOp) :
    Uncancelled op (lossyAnswers op) := by
  cases op <;> trivial

theorem answeredRun_losesClose_iff
    (answers : (op : ServerOp) → Resp op) :
    ((answeredRun answers).2.any ServerEvent.losesClose =
        true) ↔
      ∃ e ∈ (answeredRun answers).2, e.LosesClose := by
  simp only [List.any_eq_true, ServerEvent.losesClose_iff]

/- A small upload without a failure obeys the grammar. -/
theorem grammarObeyed_smallStream :
    GrammarObeyed smallRoot smallStream
      (answeredRun Env.granting.answer).2
      (answeredRun Env.granting.answer).1.2.isOk := by
  apply
    (grammarObeyed_iff smallRoot smallStream
      (answeredRun_finishes _ granting_uncancelled)).mpr
  have hCloses :
      (answeredRun Env.granting.answer).2.any
        ServerEvent.losesClose = false := by
    decide +kernel
  have hRead :
      messagesRead (answeredRun Env.granting.answer).2 =
        smallStream := by
    decide +kernel
  have hChecked :
      Checked
        (resolvedWorkspacePath smallRoot (smallConfig "a"))
        (smallChunk "f") := by
    unfold Checked
    decide +kernel
  constructor
  · intro e hMem hClose
    have hAny :=
      (answeredRun_losesClose_iff _).mpr ⟨e, hMem, hClose⟩
    rw [hCloses] at hAny
    cases hAny
  · intro config rest hEq chunk hMem _
    cases hEq
    rw [hRead] at hMem
    simp only [smallStream, List.mem_cons, reduceCtorEq,
      TaskRequest.fileChunk.injEq, List.not_mem_nil,
      or_false, false_or] at hMem
    rw [hMem]
    exact hChecked

/- An upload whose close fails succeeds all the same. -/
theorem lossyClose_breaks_grammar :
    Core.Prog.Finishes Uncancelled
        (DownloadSession.run smallRoot DownloadSession.init
          smallStream)
        (answeredRun lossyAnswers).2
        ((answeredRun lossyAnswers).1.1,
          (answeredRun lossyAnswers).1.2) ∧
      ¬ GrammarObeyed smallRoot smallStream
        (answeredRun lossyAnswers).2
        (answeredRun lossyAnswers).1.2.isOk := by
  have hOk :
      (answeredRun lossyAnswers).1.2.isOk = true := by
    decide +kernel
  have hClose :
      (answeredRun lossyAnswers).2.any
        ServerEvent.losesClose = true := by
    decide +kernel
  rcases (answeredRun_losesClose_iff _).mp hClose with
    ⟨e, hMem, hLoses⟩
  refine
    ⟨answeredRun_finishes _ lossyAnswers_uncancelled, ?_⟩
  intro hObeyed
  exact
    (hObeyed.verdict.mp hOk).2.2 e hMem hLoses.fault

end Drex
