import Drex.Server.Protocol.Parts

/-
  The paths the server writes to, creates or removes lie
  under the workspace root, unless a chunk it handles is
  aimed at the root itself.

  A submission is judged run by run, since whether a chunk
  is handled depends on the disk and on cancellation.

  Key definitions include:
    * `ServerOp.touched?`
    * `ContainedTrace`
    * `ContainedProg`
    * `Handles`
    * `Aimed`
    * `AimsAtRoot`
    * `DirectoriesMatch`

  Key theorems include:
    * `produces_handleFileChunk_directories`
    * `produces_run_directories`
    * `contained_update`
    * `contained_child`
    * `containment_iff`
-/

------------------------------------------------------------
-- Touched Paths
------------------------------------------------------------

namespace Drex

/-
  The path an operation opens for writing, or passes to
  `create_directories` or `remove_all`.
-/
def ServerOp.touched? : ServerOp → Option Path
| .openTrunc p => some p
| .createDirectories p => some p
| .removeAll p => some p
| _ => none

/- Every path touched in the run is contained. -/
def ContainedTrace
    (root : WorkspaceRoot)
    (trace : List ServerEvent) : Prop :=
  ∀ e ∈ trace, ∀ p, e.1.touched? = some p → Contained root p

/- A program may call an operation from the first view. -/
abbrev MayCall
    {α : Type}
    (op : ServerOp)
    (prog : ServerProg α) : Prop :=
  Core.Prog.Performs sessionAnswers op .init prog

/- Every path a program may touch is contained. -/
def ContainedProg
    {α : Type}
    (root : WorkspaceRoot)
    (prog : ServerProg α) : Prop :=
  ∀ op p, op.touched? = some p → MayCall op prog →
    Contained root p

/- The config the executor sees for an accepted config. -/
def acceptedConfig
    (root : WorkspaceRoot)
    (config : TaskConfig)
    (isThere : Bool) :
    TaskConfig :=
  { config with
    workspaceSubdir :=
      relativeSubdir root isThere
        (resolvedWorkspacePath root config) }

end Drex

------------------------------------------------------------
-- Chunks Aimed At The Root
------------------------------------------------------------

namespace Drex

/-
  The session read the chunk and, as the call was not
  cancelled, handled it.
-/
def Handles
    (trace : List ServerEvent)
    (chunk : TaskFileChunk) : Prop :=
  [readOf (.fileChunk chunk), notCancelled] <:+: trace

/- A chunk that is let through, aimed at the root itself. -/
structure Aimed
    (root : WorkspaceRoot)
    (base : Path)
    (chunk : TaskFileChunk) : Prop where
  nonempty : chunk.relativePath ≠ []
  passes :
    isSubPath base (DownloadSession.targetPath base chunk) =
      true
  target :
    DownloadSession.targetPath base chunk = root.path

/- The run handles a chunk that is aimed at the root. -/
def AimsAtRoot
    (root : WorkspaceRoot)
    (messages : List TaskRequest)
    (trace : List ServerEvent) : Prop :=
  ∃ config rest chunk,
    messages = .config config :: rest ∧
      Handles trace chunk ∧
        Aimed root (resolvedWorkspacePath root config) chunk

namespace ServerOp

/- The operation reads no chunk. -/
def ReadsNoChunk : ServerOp → Prop
| .read (some (.fileChunk _)) => False
| _ => True

/- The operation reads no chunk and makes no directory. -/
def Aside : ServerOp → Prop
| .read (some (.fileChunk _)) => False
| .createDirectories _ => False
| _ => True

end ServerOp

/- The run reads no chunk. -/
abbrev Chunkless (trace : List ServerEvent) : Prop :=
  ∀ e ∈ trace, e.1.ReadsNoChunk

theorem chunkless_nil : Chunkless [] :=
  fun _ hMem => nomatch hMem

/- A chunk is handled at the head of the run or later. -/
theorem handles_cons
    {e : ServerEvent}
    {trace : List ServerEvent}
    {chunk : TaskFileChunk}
    (h : Handles (e :: trace) chunk) :
    (e = readOf (.fileChunk chunk) ∧
        [notCancelled] <+: trace) ∨
      Handles trace chunk := by
  rcases List.infix_cons_iff.mp h with hHead | hTail
  · rw [List.cons_prefix_cons] at hHead
    exact Or.inl ⟨hHead.1.symm, hHead.2⟩
  · exact Or.inr hTail

/- What reads no chunk handles none. -/
theorem handles_of_append
    {s t : List ServerEvent}
    {chunk : TaskFileChunk}
    (hChunkless : Chunkless s)
    (h : Handles (s ++ t) chunk) :
    Handles t chunk := by
  induction s with
  | nil => exact h
  | cons e s ih =>
      rcases handles_cons h with ⟨rfl, _⟩ | hRest
      · exact (hChunkless _ List.mem_cons_self).elim
      · refine ih (fun x hMem => ?_) hRest
        exact hChunkless x (List.mem_cons_of_mem _ hMem)

/- Without a chunk no chunk is handled. -/
theorem not_handles
    {s : List ServerEvent}
    {chunk : TaskFileChunk}
    (hChunkless : Chunkless s) :
    ¬ Handles s chunk := by
  intro h
  rw [← List.append_nil s] at h
  have hNil := handles_of_append hChunkless h
  exact absurd hNil.length_le (by simp)

/- A chunk that was handled in a part was handled. -/
theorem Handles.mono
    {s t : List ServerEvent}
    {chunk : TaskFileChunk}
    (h : Handles s chunk)
    (hInfix : s <:+: t) :
    Handles t chunk :=
  h.trans hInfix

end Drex

------------------------------------------------------------
-- The Directories Of A Chunk
------------------------------------------------------------

namespace Drex

open Drex.Core.Prog

variable {root : WorkspaceRoot} {base : Path}
variable {allowed : (op : ServerOp) → Resp op → Prop}

/- A directory was to be made. -/
def MakesDirectory
    (t : List ServerEvent)
    (p : Path) : Prop :=
  ∃ error, ⟨.createDirectories p, error⟩ ∈ t

/- Other operations make no directory. -/
theorem not_makesDirectory
    {t : List ServerEvent}
    (hAside : ∀ e ∈ t, e.1.Aside)
    (p : Path) :
    ¬ MakesDirectory t p := by
  rintro ⟨error, hMem⟩
  exact hAside _ hMem

/- A directory is made in one of the two parts. -/
theorem makesDirectory_append
    {s t : List ServerEvent}
    {p : Path} :
    MakesDirectory (s ++ t) p ↔
      MakesDirectory s p ∨ MakesDirectory t p := by
  unfold MakesDirectory
  simp only [List.mem_append, exists_or]

/- Writing to a file makes no directory. -/
theorem aside_of_writesFile
    (op : ServerOp)
    (hOp : op.WritesFile) :
    op.Aside := by
  cases op <;> first | exact trivial | exact hOp.elim

/- Nor does a config. -/
theorem aside_of_configures
    (op : ServerOp)
    (hOp : op.Configures) :
    op.Aside := by
  cases op <;> first | exact trivial | exact hOp.elim

/- Such operations read no chunk. -/
theorem ServerOp.Aside.readsNoChunk
    {op : ServerOp}
    (hOp : op.Aside) :
    op.ReadsNoChunk := by
  cases op with
  | read next =>
      rcases next with _ | message
      · trivial
      · cases message with
        | fileChunk chunk => exact hOp.elim
        | _ => trivial
  | _ => trivial

namespace DownloadSession

variable {s : DownloadSession}

/- A session whose last target was not the root. -/
structure Accepting
    (root : WorkspaceRoot)
    (base : Path)
    (s : DownloadSession) : Prop where
  received : s.receivedConfig = true
  base : s.paths.workspacePath = base
  current : s.currentFilePath ≠ root.path

/- The root is not the empty path. -/
theorem empty_ne_root :
    Path.empty ≠ root.path := by
  intro h
  have hAbsolute := congrArg Path.absolute h
  cases hAbsolute

/- The session goes on without a file. -/
theorem Accepting.closed
    (h : s.Accepting root base) :
    Accepting root base
      { s with outfile := none, currentFilePath := .empty } :=
  ⟨h.received, h.base, empty_ne_root⟩

/- Closing a file makes no directory. -/
theorem produces_closeCurrentFile_aside
    (h : s.Accepting root base) :
    Produces allowed s.closeCurrentFile
      (fun s' t =>
        s'.Accepting root base ∧ ∀ e ∈ t, e.1.Aside) := by
  refine
    produces_and ?_
      (produces_of_onlyCalls
        (onlyCalls_mono aside_of_writesFile
          s.onlyCalls_closeCurrentFile))
  unfold closeCurrentFile
  cases hFile : s.outfile with
  | none =>
      apply produces_pure
      exact ⟨h.received, h.base, empty_ne_root⟩
  | some file =>
      apply produces_call
      intro _ _
      exact produces_pure h.closed

/- Nor does storing a chunk in its open file. -/
theorem produces_storeChunk_aside
    (h : s.Accepting root base)
    (chunk : TaskFileChunk) :
    Produces allowed (s.storeChunk chunk)
      (fun r t =>
        r.1.Accepting root base ∧ ∀ e ∈ t, e.1.Aside) := by
  refine
    produces_and ?_
      (produces_of_onlyCalls
        (onlyCalls_mono aside_of_writesFile
          (s.onlyCalls_storeChunk chunk)))
  have hWrites :
      Produces allowed (s.writeChunkData chunk.data)
        (fun r _ => r.1.Accepting root base) := by
    unfold writeChunkData writeData
    split
    · exact produces_pure h
    · cases s.outfile with
      | none => exact produces_pure h
      | some file =>
          apply produces_call
          intro good _
          split
          · exact
              produces_pure ⟨h.received, h.base, h.current⟩
          · exact produces_pure h
  refine produces_bind hWrites ?_
  rintro ⟨s', status⟩ _ hAccepting
  simp only []
  split
  · split
    · refine
        produces_bind
          (produces_closeCurrentFile_aside hAccepting) ?_
      rintro s'' _ ⟨hClosed, _⟩
      exact produces_pure hClosed
    · exact produces_pure hAccepting
  · exact produces_pure hAccepting

/-
  The one directory made for a target is its parent, and the
  session goes on accepting unless the target is the root.
-/
structure Opens
    (root : WorkspaceRoot)
    (base target : Path)
    (s' : DownloadSession)
    (t : List ServerEvent) : Prop where
  chunkless : Chunkless t
  only : ∀ p, MakesDirectory t p → p = target.parentPath
  makes : target = root.path → MakesDirectory t target.parentPath
  accepting : target ≠ root.path → s'.Accepting root base

/- What follows a target makes no further directory. -/
theorem Opens.append
    {target : Path}
    {s' s'' : DownloadSession}
    {t u : List ServerEvent}
    (h : Opens root base target s' t)
    (hAside : ∀ e ∈ u, e.1.Aside)
    (hNext :
      s'.Accepting root base → s''.Accepting root base) :
    Opens root base target s'' (t ++ u) := by
  constructor
  · intro e hMem
    rcases List.mem_append.mp hMem with hMem | hMem
    · exact h.chunkless e hMem
    · exact (hAside e hMem).readsNoChunk
  · intro p hMakes
    rcases makesDirectory_append.mp hMakes with hMakes | hMakes
    · exact h.only p hMakes
    · exact absurd hMakes (not_makesDirectory hAside p)
  · intro hTarget
    exact makesDirectory_append.mpr (Or.inl (h.makes hTarget))
  · exact fun hTarget => hNext (h.accepting hTarget)

/- Opening a file first makes its directory. -/
theorem produces_openOutputFile_opens
    (h : s.Accepting root base)
    (target : Path) :
    Produces allowed (s.openOutputFile target)
      (fun r t => Opens root base target r.1 t) := by
  refine produces_bind (produces_closeCurrentFile_aside h) ?_
  rintro s' first ⟨hClosed, hAside⟩
  apply produces_call
  intro dirError _
  have hMade :
      Opens root base target s'
        (first ++
          [⟨.createDirectories target.parentPath,
            dirError⟩]) := by
    constructor
    · intro e hMem
      rcases List.mem_append.mp hMem with hMem | hMem
      · exact (hAside e hMem).readsNoChunk
      · rw [List.mem_singleton.mp hMem]
        exact trivial
    · intro p hMakes
      rcases makesDirectory_append.mp hMakes
        with hMakes | ⟨error, hMem⟩
      · exact absurd hMakes (not_makesDirectory hAside p)
      · cases List.mem_singleton.mp hMem
        rfl
    · intro _
      exact ⟨dirError, by simp⟩
    · exact fun _ => hClosed
  split
  · exact produces_pure hMade
  · apply produces_call
    intro isOpen _
    have hTried :
        ∀ s'' : DownloadSession,
          (target ≠ root.path → s''.Accepting root base) →
            Opens root base target s''
              (first ++
                [⟨.createDirectories target.parentPath,
                  dirError⟩,
                ⟨.openTrunc target, isOpen⟩]) := by
      intro s'' hNext
      have hBoth :=
        hMade.append
          (u := [⟨.openTrunc target, isOpen⟩])
          (by simp [ServerOp.Aside]) id
      rw [List.append_assoc] at hBoth
      exact
        ⟨hBoth.chunkless, hBoth.only, hBoth.makes, hNext⟩
    split
    · apply produces_pure
      apply hTried
      intro hTarget
      exact ⟨hClosed.received, hClosed.base, hTarget⟩
    · apply produces_pure
      exact hTried _ (fun _ => hClosed)

/- The directories of a chunk that is let through. -/
theorem produces_ensureOutputFile_opens
    (h : s.Accepting root base)
    (target : Path)
    (fileStart : Bool) :
    Produces allowed (s.ensureOutputFile target fileStart)
      (fun r t => Opens root base target r.1 t) := by
  unfold ensureOutputFile
  split
  · exact produces_openOutputFile_opens h target
  · rename_i hKeep
    apply produces_pure
    refine ⟨chunkless_nil, ?_, ?_, fun _ => h⟩
    · rintro p ⟨error, hMem⟩
      exact absurd hMem List.not_mem_nil
    · intro hTarget
      -- the root is never the file that is still open
      unfold needNewFile at hKeep
      rw [hTarget] at hKeep
      simp [Ne.symm h.current] at hKeep

/- What handling a chunk makes, and what it leaves. -/
structure ChunkDirectories
    (root : WorkspaceRoot)
    (base : Path)
    (chunk : TaskFileChunk)
    (s' : DownloadSession)
    (t : List ServerEvent) : Prop where
  chunkless : Chunkless t
  only :
    ∀ p, MakesDirectory t p →
      chunk.relativePath ≠ [] ∧
        isSubPath base (targetPath base chunk) = true ∧
          p = (targetPath base chunk).parentPath
  makes :
    Aimed root base chunk →
      MakesDirectory t root.path.parentPath
  accepting :
    ¬ Aimed root base chunk → s'.Accepting root base

/- A chunk that is refused makes nothing. -/
theorem chunkDirectories_refused
    (h : s.Accepting root base)
    {chunk : TaskFileChunk}
    (hRefused :
      ¬ (chunk.relativePath ≠ [] ∧
        isSubPath base (targetPath base chunk) = true)) :
    ChunkDirectories root base chunk s [] := by
  constructor
  · exact chunkless_nil
  · rintro p ⟨error, hMem⟩
    exact absurd hMem List.not_mem_nil
  · intro hAimed
    exact absurd ⟨hAimed.nonempty, hAimed.passes⟩ hRefused
  · exact fun _ => h

/- Opening the target of a chunk makes its parent. -/
theorem Opens.chunkDirectories
    {chunk : TaskFileChunk}
    {s' : DownloadSession}
    {t : List ServerEvent}
    (h : Opens root base (targetPath base chunk) s' t)
    (hNonempty : chunk.relativePath ≠ [])
    (hSub :
      isSubPath base (targetPath base chunk) = true) :
    ChunkDirectories root base chunk s' t := by
  constructor
  · exact h.chunkless
  · exact fun p hMakes => ⟨hNonempty, hSub, h.only p hMakes⟩
  · intro hAimed
    rw [← hAimed.target]
    exact h.makes hAimed.target
  · intro hNot
    apply h.accepting
    exact fun hTarget => hNot ⟨hNonempty, hSub, hTarget⟩

/- A chunk makes the parent of its target or nothing. -/
theorem produces_handleFileChunk_directories
    (h : s.Accepting root base)
    (chunk : TaskFileChunk) :
    Produces allowed (s.handleFileChunk chunk)
      (fun r t =>
        ChunkDirectories root base chunk r.1 t) := by
  unfold handleFileChunk
  rw [h.base]
  simp only [h.received, Bool.true_eq_false, if_false]
  split
  · rename_i hEmpty
    apply produces_pure
    exact
      chunkDirectories_refused h
        (fun hBoth => hBoth.1 hEmpty)
  · rename_i hNonempty
    split
    · rename_i hEscapes
      apply produces_pure
      refine chunkDirectories_refused h (fun hBoth => ?_)
      rw [hBoth.2] at hEscapes
      cases hEscapes
    · rename_i hPasses
      have hSub :
          isSubPath base (targetPath base chunk) = true := by
        simpa using hPasses
      refine
        produces_bind
          (produces_ensureOutputFile_opens h _ _) ?_
      rintro ⟨s', status⟩ first hOpens
      simp only []
      split
      · intro second r hRun
        have hOnly :=
          onlyCalls_of_mem
            (onlyCalls_mono aside_of_writesFile
              (s'.onlyCalls_storeChunk chunk)) hRun
        have hNext :
            s'.Accepting root base → r.1.Accepting root base :=
          fun hAccepting =>
            (produces_storeChunk_aside hAccepting chunk
              second r hRun).1
        have hBoth := hOpens.append hOnly hNext
        exact hBoth.chunkDirectories hNonempty hSub
      · apply produces_pure
        rw [List.append_nil]
        exact hOpens.chunkDirectories hNonempty hSub

end DownloadSession

end Drex

------------------------------------------------------------
-- The Directories Of A Stream
------------------------------------------------------------

namespace Drex

open Drex.Core.Prog

variable {root : WorkspaceRoot} {base : Path}
variable {allowed : (op : ServerOp) → Resp op → Prop}

/-
  Where the chunks of a run lead: it makes the parent of the
  root if it handles a chunk aimed at the root, and else only
  directories under the root.  What follows the run may be
  any later part that reads no chunk.
-/
structure DirectoriesMatch
    (root : WorkspaceRoot)
    (base : Path)
    (t : List ServerEvent) : Prop where
  made :
    ∀ p, MakesDirectory t p →
      Contained root p ∨
        ∃ chunk, Handles t chunk ∧ Aimed root base chunk
  aimed :
    ∀ chunk later, Chunkless later →
      Handles (t ++ later) chunk → Aimed root base chunk →
        MakesDirectory t root.path.parentPath

namespace DirectoriesMatch

/- A part that stands aside has neither. -/
theorem aside
    {t : List ServerEvent}
    (hAside : ∀ e ∈ t, e.1.Aside) :
    DirectoriesMatch root base t := by
  constructor
  · intro p hMakes
    exact absurd hMakes (not_makesDirectory hAside p)
  · intro chunk later hLater hHandles _
    refine absurd hHandles (not_handles ?_)
    intro e hMem
    rcases List.mem_append.mp hMem with hMem | hMem
    · exact (hAside e hMem).readsNoChunk
    · exact hLater e hMem

/- Operations that make no directory may come before. -/
theorem after
    {s t : List ServerEvent}
    (hAside : ∀ e ∈ s, e.1.Aside)
    (h : DirectoriesMatch root base t) :
    DirectoriesMatch root base (s ++ t) := by
  constructor
  · intro p hMakes
    rcases makesDirectory_append.mp hMakes with hMakes | hMakes
    · exact absurd hMakes (not_makesDirectory hAside p)
    · rcases h.made p hMakes with hIn | ⟨chunk, hHandles, hAimed⟩
      · exact Or.inl hIn
      · exact
          Or.inr
            ⟨chunk,
              hHandles.mono (List.suffix_append s t).isInfix,
              hAimed⟩
  · intro chunk later hLater hHandles hAimed
    rw [List.append_assoc] at hHandles
    have hRest :=
      handles_of_append
        (fun e hMem => (hAside e hMem).readsNoChunk) hHandles
    exact
      makesDirectory_append.mpr
        (Or.inr (h.aimed chunk later hLater hRest hAimed))

/- A chunk that was read when the call was cancelled. -/
theorem cancelled
    (message : TaskRequest) :
    DirectoriesMatch root base
      [readOf message, ⟨.isCancelled, true⟩] := by
  constructor
  · rintro p ⟨error, hMem⟩
    simp at hMem
  · intro chunk later hLater hHandles _
    rcases handles_cons hHandles with ⟨_, hNot⟩ | hRest
    · cases (List.cons_prefix_cons.mp hNot).1
    · refine absurd hRest (not_handles ?_)
      intro e hMem
      rcases List.mem_cons.mp hMem with rfl | hMem
      · exact trivial
      · exact hLater e hMem

/- A chunk that was handled, and the rest of the stream. -/
theorem handled
    {chunk : TaskFileChunk}
    {s' : DownloadSession}
    {t u : List ServerEvent}
    (hBelow : base.Below root)
    (hChunk :
      DownloadSession.ChunkDirectories root base chunk s' t)
    (hRest :
      ¬ Aimed root base chunk → DirectoriesMatch root base u) :
    DirectoriesMatch root base
      ([readOf (.fileChunk chunk), notCancelled] ++
        (t ++ u)) := by
  have hHead :
      ∀ p, ¬ MakesDirectory
        [readOf (.fileChunk chunk), notCancelled] p := by
    rintro p ⟨error, hMem⟩
    simp at hMem
  constructor
  · intro p hMakes
    by_cases hAimed : Aimed root base chunk
    · exact
        Or.inr ⟨chunk, (List.prefix_append _ _).isInfix, hAimed⟩
    · rcases makesDirectory_append.mp hMakes
        with hMakes | hMakes
      · exact absurd hMakes (hHead p)
      · rcases makesDirectory_append.mp hMakes
          with hMakes | hMakes
        · rcases hChunk.only p hMakes with
            ⟨hNonempty, hSub, rfl⟩
          have hTarget :=
            DownloadSession.below_lexicallyNormalized hBelow
              hSub
          rcases DownloadSession.contained_parentPath hTarget with hIn | hRoot
          · exact Or.inl hIn
          · exact absurd ⟨hNonempty, hSub, hRoot⟩ hAimed
        · rcases (hRest hAimed).made p hMakes
            with hIn | ⟨later, hHandles, hLater⟩
          · exact Or.inl hIn
          · refine Or.inr ⟨later, hHandles.mono ?_, hLater⟩
            rw [← List.append_assoc]
            exact (List.suffix_append _ u).isInfix
  · intro chunk' later hLater hHandles hAimed'
    apply makesDirectory_append.mpr
    refine Or.inr (makesDirectory_append.mpr ?_)
    by_cases hAimed : Aimed root base chunk
    · exact Or.inl (hChunk.makes hAimed)
    · refine Or.inr ?_
      rcases handles_cons hHandles with ⟨hEq, _⟩ | hTail
      · have hSame : chunk = chunk' := by
          injection hEq with hOp
          injection hOp with hNext
          injection Option.some.inj hNext
        exact absurd (hSame ▸ hAimed') hAimed
      · have hSkip :
            Handles (([notCancelled] ++ t) ++ (u ++ later))
              chunk' := by
          simpa using hTail
        refine
          (hRest hAimed).aimed chunk' later hLater
            (handles_of_append ?_ hSkip) hAimed'
        intro e hMem
        rcases List.mem_append.mp hMem with hMem | hMem
        · rw [List.mem_singleton.mp hMem]
          exact trivial
        · exact hChunk.chunkless e hMem

end DirectoriesMatch

namespace DownloadSession

variable {s : DownloadSession}

/- Every message is read, and handled unless cancelled. -/
theorem produces_run_cons
    {message : TaskRequest}
    {messages : List TaskRequest}
    {Q : DownloadSession × Ending → List ServerEvent → Prop}
    (hCancelled :
      ∀ r, Q r [readOf message, ⟨.isCancelled, true⟩])
    (hHandled :
      Produces allowed
        (s.handleMessage root message >>= fun r =>
          if r.2.isOk then run root r.1 messages
          else pure (r.1, r.2))
        (fun r t =>
          Q r ([readOf message, notCancelled] ++ t))) :
    Produces allowed (run root s (message :: messages)) Q := by
  unfold run
  apply produces_call
  intro _ _
  apply produces_call
  intro isCancelled _
  cases isCancelled with
  | true => exact produces_pure (hCancelled _)
  | false => exact hHandled

/- The end of the stream makes no directory. -/
theorem produces_run_nil_aside :
    Produces allowed (run root s [])
      (fun _ t => ∀ e ∈ t, e.1.Aside) := by
  unfold run finish
  apply produces_call
  intro _ _
  apply produces_call
  intro isCancelled _
  have hNothing :
      ∀ r : DownloadSession × Ending,
        Produces allowed (pure r : ServerProg _)
          (fun _ t =>
            ∀ e ∈ endOfStream ::
                (⟨.isCancelled, isCancelled⟩ ::
                  t : List ServerEvent),
              e.1.Aside) := by
    intro r
    apply produces_pure
    simp [ServerOp.Aside]
  split
  · exact hNothing _
  · split
    · exact hNothing _
    · refine
        produces_bind
          (produces_of_onlyCalls
            (onlyCalls_mono aside_of_writesFile
              s.onlyCalls_closeCurrentFile)) ?_
      intro s' first hFirst
      apply produces_pure
      rw [List.append_nil]
      simp only [List.forall_mem_cons]
      exact ⟨trivial, trivial, hFirst⟩

/- Once the config is accepted. -/
theorem produces_run_directories
    (messages : List TaskRequest)
    (hBelow : base.Below root)
    (h : s.Accepting root base) :
    Produces allowed (run root s messages)
      (fun _ t => DirectoriesMatch root base t) := by
  induction messages generalizing s with
  | nil =>
      exact
        produces_mono (fun _ _ hAside => .aside hAside)
          produces_run_nil_aside
  | cons message messages ih =>
      refine produces_run_cons (fun _ => .cancelled message) ?_
      have hOther :
          ∀ (status : Status),
            (∀ chunk, message ≠ .fileChunk chunk) →
            Produces allowed
              (pure (s, Ending.status status) : ServerProg _)
              (fun _ t =>
                DirectoriesMatch root base
                  ([readOf message, notCancelled] ++ t)) := by
        intro status hNoChunk
        apply produces_pure
        apply DirectoriesMatch.aside
        have hRead : (readOf message).1.Aside := by
          cases message with
          | fileChunk chunk => exact hNoChunk chunk rfl
          | _ => exact trivial
        intro e hMem
        rcases List.mem_cons.mp hMem with rfl | hMem
        · exact hRead
        · rw [List.mem_singleton.mp hMem]
          exact trivial
      cases message with
      | config config =>
          unfold handleMessage handleConfig
          simp only [h.received, if_true]
          exact hOther _ (fun _ hEq => nomatch hEq)
      | missing => exact hOther _ (fun _ hEq => nomatch hEq)
      | fileChunk chunk =>
          unfold handleMessage
          simp only []
          rw [LawfulMonad.bind_assoc]
          refine
            produces_bind
              (produces_handleFileChunk_directories h chunk) ?_
          rintro ⟨s', status⟩ first hChunk
          rw [pure_bind]
          change
            Produces allowed
              (if status.isOk = true then run root s' messages
              else pure (s', Ending.status status)) _
          split
          · by_cases hAimed : Aimed root base chunk
            · intro t r _
              exact
                .handled hBelow hChunk
                  (fun hNot => absurd hAimed hNot)
            · refine produces_mono ?_ (ih (hChunk.accepting hAimed))
              intro r t hMatch
              exact .handled hBelow hChunk (fun _ => hMatch)
          · apply produces_pure
            exact
              .handled hBelow hChunk
                (fun _ => .aside (by simp))

end DownloadSession

end Drex

------------------------------------------------------------
-- The Directories Of A Submission
------------------------------------------------------------

namespace Drex

open Drex.Core.Prog

variable {root : WorkspaceRoot}
variable {allowed : (op : ServerOp) → Resp op → Prop}

/- The same for a stream from its first message on. -/
structure StreamMatch
    (root : WorkspaceRoot)
    (messages : List TaskRequest)
    (t : List ServerEvent) : Prop where
  made :
    ∀ p, MakesDirectory t p →
      Contained root p ∨ AimsAtRoot root messages t
  aimed :
    ∀ later, Chunkless later →
      AimsAtRoot root messages (t ++ later) →
        MakesDirectory t root.path.parentPath

namespace StreamMatch

variable {messages : List TaskRequest} {t u : List ServerEvent}

/- The first config names the directory of the rest. -/
theorem of_config
    {config : TaskConfig}
    (rest : List TaskRequest)
    (h :
      DirectoriesMatch root
        (resolvedWorkspacePath root config) t) :
    StreamMatch root (.config config :: rest) t := by
  constructor
  · intro p hMakes
    rcases h.made p hMakes with hIn | ⟨chunk, hHandles, hAimed⟩
    · exact Or.inl hIn
    · exact
        Or.inr ⟨config, rest, chunk, rfl, hHandles, hAimed⟩
  · rintro later hLater ⟨_, _, chunk, hEq, hHandles, hAimed⟩
    cases hEq
    exact h.aimed chunk later hLater hHandles hAimed

/- Without a config nothing is made. -/
theorem unconfigured
    {message : TaskRequest}
    {rest : List TaskRequest}
    {e : ServerEvent}
    (hNoConfig : ∀ config, message ≠ .config config)
    (hAside : e.1.Aside) :
    StreamMatch root (message :: rest)
      [readOf message, e] := by
  constructor
  · rintro p ⟨error, hMem⟩
    rcases List.mem_cons.mp hMem with hEq | hMem
    · cases hEq
    · rw [← List.mem_singleton.mp hMem] at hAside
      exact hAside.elim
  · rintro later _ ⟨config, rest, _, hEq, _⟩
    exact absurd (List.cons.inj hEq).1 (hNoConfig config)

/- A stream that makes no directory matches its messages. -/
theorem aside
    (hAside : ∀ e ∈ t, e.1.Aside) :
    StreamMatch root messages t := by
  constructor
  · intro p hMakes
    exact absurd hMakes (not_makesDirectory hAside p)
  · rintro later hLater ⟨_, _, chunk, _, hHandles, _⟩
    refine absurd hHandles (not_handles ?_)
    intro e hMem
    rcases List.mem_append.mp hMem with hMem | hMem
    · exact (hAside e hMem).readsNoChunk
    · exact hLater e hMem

/- Operations that make no directory may come after. -/
theorem append
    (h : StreamMatch root messages t)
    (hAside : ∀ e ∈ u, e.1.Aside) :
    StreamMatch root messages (t ++ u) := by
  constructor
  · intro p hMakes
    rcases makesDirectory_append.mp hMakes with hMakes | hMakes
    · rcases h.made p hMakes with hIn | hAims
      · exact Or.inl hIn
      · rcases hAims with
          ⟨config, rest, chunk, hEq, hHandles, hAimed⟩
        refine Or.inr ⟨config, rest, chunk, hEq, ?_, hAimed⟩
        exact hHandles.mono (List.prefix_append t u).isInfix
    · exact absurd hMakes (not_makesDirectory hAside p)
  · intro later hLater hAims
    rw [List.append_assoc] at hAims
    refine makesDirectory_append.mpr (Or.inl ?_)
    refine h.aimed (u ++ later) ?_ hAims
    intro e hMem
    rcases List.mem_append.mp hMem with hMem | hMem
    · exact (hAside e hMem).readsNoChunk
    · exact hLater e hMem

end StreamMatch

/- Paths are only resolved where they stay in the root. -/
theorem produces_resolveTaskPaths_stays
    (config : TaskConfig) :
    Produces allowed (resolveTaskPaths root config)
      (fun resolved _ =>
        (∀ paths, resolved = .ok paths →
          staysInRoot root config = true ∧
            paths.workspacePath =
              resolvedWorkspacePath root config) ∧
        (∀ ending, resolved = .error ending →
          ending.isOk = false)) := by
  unfold resolveTaskPaths
  split
  · rename_i hStays
    refine produces_bind (Q := fun _ _ => True) ?_ ?_
    · exact fun _ _ _ => trivial
    · intro workspaceSubdir _ _
      refine produces_bind (Q := fun _ _ => True) ?_ ?_
      · exact fun _ _ _ => trivial
      · intro outputSubdir _ _
        rcases workspaceSubdir with _ | workspaceSubdir
        · apply produces_pure
          exact ⟨nofun, fun _ hEq => by cases hEq; rfl⟩
        · rcases outputSubdir with _ | outputSubdir
          · apply produces_pure
            exact ⟨nofun, fun _ hEq => by cases hEq; rfl⟩
          · apply produces_pure
            refine ⟨?_, nofun⟩
            intro paths hEq
            cases hEq
            exact ⟨hStays, rfl⟩
  · apply produces_pure
    exact ⟨nofun, fun _ hEq => by cases hEq; rfl⟩

namespace DownloadSession

/- An accepted config has a workspace under the root. -/
theorem produces_handleConfig_accepting
    (config : TaskConfig) :
    Produces allowed (init.handleConfig root config)
      (fun r t =>
        (r.2.isOk = true →
          (resolvedWorkspacePath root config).Below root ∧
            r.1.Accepting root
              (resolvedWorkspacePath root config)) ∧
        ∀ e ∈ t, e.1.Aside) := by
  refine
    produces_and ?_
      (produces_of_onlyCalls
        (onlyCalls_mono aside_of_configures
          (onlyCalls_handleConfig root init config)))
  unfold handleConfig
  simp only [init, Bool.false_eq_true, if_false]
  refine
    produces_bind (produces_resolveTaskPaths_stays config) ?_
  rintro resolved _ ⟨hPaths, hFails⟩
  cases resolved with
  | error ending =>
      apply produces_pure
      intro hOk
      rw [hFails ending rfl] at hOk
      cases hOk
  | ok paths =>
      rcases hPaths paths rfl with ⟨hStays, hPath⟩
      unfold staysInRoot at hStays
      rw [Bool.and_eq_true] at hStays
      have hAbsolute : root.path.absolute = true := rfl
      have hBelow := below_of_isSubPath hAbsolute hStays.1
      apply produces_call
      intro lockStatus _
      split
      · apply produces_call
        intro _ _
        apply produces_pure
        exact fun _ => ⟨hBelow, rfl, hPath, empty_ne_root⟩
      · rename_i hRefused
        apply produces_pure
        exact fun hOk => absurd hOk hRefused

/- Every run of the session matches its messages. -/
theorem produces_run_match
    (messages : List TaskRequest) :
    Produces allowed (run root init messages)
      (fun _ t => StreamMatch root messages t) := by
  cases messages with
  | nil =>
      exact
        produces_mono (fun _ _ hAside => .aside hAside)
          produces_run_nil_aside
  | cons message rest =>
      cases message with
      | config config =>
          refine
            produces_run_cons
              (fun _ => .of_config rest (.cancelled _)) ?_
          refine
            produces_bind
              (produces_handleConfig_accepting config) ?_
          rintro ⟨s', ending⟩ first ⟨hAccepts, hAside⟩
          have hHead :
              ∀ e ∈ [readOf (.config config), notCancelled] ++
                  first,
                e.1.Aside := by
            intro e hMem
            rcases List.mem_append.mp hMem with hMem | hMem
            · simp only [List.mem_cons, List.not_mem_nil,
                or_false] at hMem
              rcases hMem with rfl | rfl
              · exact trivial
              · exact trivial
            · exact hAside e hMem
          simp only []
          split
          · rename_i hOk
            rcases hAccepts hOk with ⟨hBelow, hAccepting⟩
            refine
              produces_mono ?_
                (produces_run_directories rest hBelow
                  hAccepting)
            intro r later hMatch
            rw [← List.append_assoc]
            exact .of_config rest (.after hHead hMatch)
          · apply produces_pure
            rw [List.append_nil]
            exact .aside hHead
      | fileChunk chunk =>
          exact
            produces_run_cons
              (fun _ => .unconfigured nofun trivial)
              (produces_pure (.unconfigured nofun trivial))
      | missing =>
          exact
            produces_run_cons
              (fun _ => .unconfigured nofun trivial)
              (produces_pure (.unconfigured nofun trivial))

end DownloadSession

/- So does the whole download. -/
theorem produces_downloadWorkspace_match
    (messages : List TaskRequest) :
    Produces allowed (downloadWorkspace root messages)
      (fun _ t => StreamMatch root messages t) := by
  unfold downloadWorkspace
  refine
    produces_bind
      (DownloadSession.produces_run_match messages) ?_
  rintro ⟨s, ending⟩ first hMatch
  refine
    produces_bind
      (produces_of_onlyCalls
        (onlyCalls_mono aside_of_writesFile
          s.onlyCalls_closeCurrentFile)) ?_
  intro s' second hAside
  apply produces_pure
  rw [List.append_nil]
  exact hMatch.append hAside

/- The parts of a run of a submission. -/
structure SubmissionParts
    (root : WorkspaceRoot)
    (messages : List TaskRequest)
    (before stream after : List ServerEvent) : Prop where
  before : ∀ e ∈ before, e.1.Aside
  stream : StreamMatch root messages stream
  chunkless : Chunkless after
  after :
    ∀ e ∈ after, ∃ g : SessionView,
      sessionPre root False (fun _ => True) g e.1

/- After the download no chunk is read any more. -/
theorem runs_submissionBody_parts
    {messages : List TaskRequest}
    {trace : List ServerEvent}
    {status : Status}
    {g g' : SessionView}
    (hUnheld : g.Unheld)
    (hRefused : g.refused = false)
    (h :
      Runs sessionAnswers g (submissionBody root messages)
        trace status g') :
    GuardSettled root g' ∧
      ∃ stream after, trace = stream ++ after ∧
        SubmissionParts root messages [] stream after := by
  unfold submissionBody at h
  rcases runs_bind_iff.mp h with
    ⟨stream, ⟨config, ending⟩, mid, after, rfl, hStream,
      hAfter⟩
  have hDownload :
      wp sessionAnswers (sessionPre root True fun _ => True)
        (downloadWorkspace root messages)
        (fun result g' =>
          Downloaded root result.1 result.2 g')
        g :=
    wp_downloadWorkspace hUnheld hRefused messages trivial
      (fun _ _ _ _ _ => trivial)
  have hDownloaded := wp_runs hDownload hStream
  have hFinish :=
    wp_finishSubmission (R := False) (U := fun _ => True)
      hDownloaded (fun _ => trivial)
  have hSettled := wp_runs hFinish hAfter
  refine ⟨hSettled, stream, after, rfl, ?_⟩
  refine ⟨nofun, ?_, ?_, wp_events hFinish hAfter⟩
  · have hFinishes :
        Finishes (fun _ _ => True)
          (downloadWorkspace root messages) stream
          (config, ending) :=
      finishes_of_runs (fun _ _ _ _ _ => trivial) hStream
    exact
      produces_downloadWorkspace_match messages _ _ hFinishes
  · refine onlyCalls_of_mem ?_ hAfter
    refine
      onlyCalls_finishSubmission ?_ (fun _ => trivial) root
        config ending
    intro op hOp
    cases op <;> first | exact trivial | exact hOp.elim

/- A submission is a beginning, a download and an end. -/
theorem runs_taskSubmission_parts
    {messages : List TaskRequest}
    {trace : List ServerEvent}
    {status : Status}
    {g : SessionView}
    (h :
      Runs sessionAnswers .init (taskSubmission root messages)
        trace status g) :
    ∃ before stream after,
      trace = before ++ (stream ++ after) ∧
        SubmissionParts root messages before stream after := by
  unfold taskSubmission at h
  rcases runs_bind_iff.mp h with
    ⟨before, rootError, mid, rest, rfl, hBefore, hRest⟩
  rcases runs_perform_iff.mp hBefore with ⟨rfl, _, hMid⟩
  have hInit : mid = .init := hMid
  rw [hInit] at hRest
  have hHead :
      ∀ e ∈
        [(⟨.weaklyCanonicalRoot, rootError⟩ : ServerEvent)],
        e.1.Aside := by
    intro e hMem
    rw [List.mem_singleton.mp hMem]
    exact trivial
  split at hRest
  · -- the submission only reports that it has no root
    have hSends :
        OnlyCalls ServerOp.Aside
          (sendFailure workspaceFailure.toList >>= fun _ =>
            (pure (Status.internal workspaceFailure) :
              ServerProg Status)) := by
      unfold sendFailure
      apply onlyCalls_call trivial
      exact fun _ => onlyCalls_pure _
    have hAside := onlyCalls_of_mem hSends hRest
    refine
      ⟨_, rest, [], by rw [List.append_nil], hHead,
        .aside hAside, chunkless_nil, nofun⟩
  · rcases runs_bind_iff.mp hRest with
      ⟨body, _, settled, last, rfl, hBody, hLast⟩
    rcases runs_submissionBody_parts
        SessionView.init_unheld rfl hBody with
      ⟨hSettled, stream, after, rfl, hParts⟩
    rcases runs_bind_iff.mp hLast with
      ⟨destroy, _, closed, done, rfl, hDestroy, hDone⟩
    have hEmpty := (runs_pure_iff.mp hDone).1
    subst hEmpty
    have hCleans :
        OnlyCalls ServerOp.ReadsNoChunk (destroyGuard root) := by
      refine onlyCalls_mono ?_ (onlyCalls_destroyGuard root)
      intro op hOp
      cases op <;> first | exact trivial | exact hOp.elim
    refine
      ⟨_, stream, after ++ destroy, by simp, hHead,
        hParts.stream, ?_, ?_⟩
    · intro e hMem
      rcases List.mem_append.mp hMem with hMem | hMem
      · exact hParts.chunkless e hMem
      · exact onlyCalls_of_mem hCleans hDestroy e hMem
    · intro e hMem
      rcases List.mem_append.mp hMem with hMem | hMem
      · exact hParts.after e hMem
      · exact
          wp_events
            (wp_destroyGuard_settled (R := False)
              (U := fun _ => True) hSettled)
            hDestroy e hMem

/- What a submission permits itself is contained. -/
theorem contained_of_sessionPre
    {R : Prop}
    {g : SessionView}
    {op : ServerOp}
    {p : Path}
    (hTouched : op.touched? = some p)
    (hPre : sessionPre root R (fun _ => True) g op) :
    Contained root p ∨
      (R ∧ op = .createDirectories p ∧
        p = root.path.parentPath) := by
  rcases hPre with ⟨_, hPermits⟩
  cases op with
  | createDirectories q =>
      rcases Option.some.inj hTouched with rfl
      rcases hPermits with ⟨_, _, _, hContained | hRoot⟩
      · exact Or.inl hContained
      · exact Or.inr ⟨hRoot.1, rfl, hRoot.2⟩
  | openTrunc q =>
      rcases Option.some.inj hTouched with rfl
      exact Or.inl hPermits.2.2.2.1
  | removeAll q =>
      rcases Option.some.inj hTouched with rfl
      exact Or.inl hPermits.2.2.2.1
  | _ => cases hTouched

/- The parent of the root does not lie under the root. -/
theorem not_contained_parentPath :
    ¬ Contained root root.path.parentPath := by
  rintro ⟨hSub, _⟩
  have hPrefix := ((isSubPath_root_iff root _).mp hSub).2
  have hLength := hPrefix.length_le
  have hParent :
      root.path.parentPath.names = root.project := by
    simp [WorkspaceRoot.path, Path.parentPath]
  have hNames :
      root.path.names = root.project ++ [workspaceName] :=
    rfl
  rw [hParent, hNames, List.length_append,
    List.length_singleton] at hLength
  omega

/- A run that spares the root touches contained paths. -/
theorem containedTrace_of_not_aims
    {messages : List TaskRequest}
    {trace : List ServerEvent}
    {status : Status}
    {g : SessionView}
    (h :
      Runs sessionAnswers .init (taskSubmission root messages)
        trace status g)
    (hSpares : ¬ AimsAtRoot root messages trace) :
    ContainedTrace root trace := by
  intro e hMem p hTouched
  have hWp :
      wp sessionAnswers (sessionPre root True fun _ => True)
        (taskSubmission root messages)
        (fun _ g' => g'.Closed) .init :=
    wp_taskSubmission messages trivial (fun _ => trivial)
  rcases wp_events hWp h e hMem with ⟨v, hPre⟩
  rcases contained_of_sessionPre hTouched hPre
    with hIn | ⟨_, hMakes, _⟩
  · exact hIn
  · rcases runs_taskSubmission_parts h with
      ⟨before, stream, after, rfl, hParts⟩
    rcases e with ⟨op, answer⟩
    change op = _ at hMakes
    subst hMakes
    rcases List.mem_append.mp hMem with hMem | hMem
    · exact (hParts.before _ hMem).elim
    · rcases List.mem_append.mp hMem with hMem | hMem
      · rcases hParts.stream.made p ⟨answer, hMem⟩
          with hIn | hAims
        · exact hIn
        · rcases hAims with
            ⟨config, rest, chunk, hEq, hHandles, hAimed⟩
          refine absurd ?_ hSpares
          refine ⟨config, rest, chunk, hEq, ?_, hAimed⟩
          exact hHandles.mono ⟨before, after, by simp⟩
      · rcases hParts.after _ hMem with ⟨v', hPre'⟩
        rcases contained_of_sessionPre hTouched hPre'
          with hIn | ⟨hFalse, _⟩
        · exact hIn
        · exact hFalse.elim

/- A run that handles such a chunk leaves the root. -/
theorem not_containedTrace_of_aims
    {messages : List TaskRequest}
    {trace : List ServerEvent}
    {status : Status}
    {g : SessionView}
    (h :
      Runs sessionAnswers .init (taskSubmission root messages)
        trace status g)
    (hAims : AimsAtRoot root messages trace) :
    ¬ ContainedTrace root trace := by
  rcases runs_taskSubmission_parts h with
    ⟨before, stream, after, rfl, hParts⟩
  rcases hAims with ⟨config, rest, chunk, hEq, hHandles, hAimed⟩
  have hHandles' :=
    handles_of_append
      (fun e hMem => (hParts.before e hMem).readsNoChunk)
      hHandles
  rcases hParts.stream.aimed after hParts.chunkless
      ⟨config, rest, chunk, hEq, hHandles', hAimed⟩
    with ⟨error, hMem⟩
  intro hContained
  refine
    not_contained_parentPath
      (hContained ⟨.createDirectories _, error⟩ ?_ _ rfl)
  simp [hMem]

end Drex

------------------------------------------------------------
-- Chunks And Updates
------------------------------------------------------------

namespace Drex

variable {root : WorkspaceRoot}

/- Chunks open files below the resolved workspace path. -/
theorem opens_below_workspacePath
    (messages : List TaskRequest)
    {config : TaskConfig}
    {rest : List TaskRequest}
    {p : Path}
    (hMessages : messages = .config config :: rest)
    (hCalls :
      MayCall (.openTrunc p)
        (downloadWorkspace root messages)) :
    isSubPath (resolvedWorkspacePath root config) p = true := by
  have hWp :=
    wp_downloadWorkspace (R := True)
      (U := fun q =>
        isSubPath (resolvedWorkspacePath root config) q = true)
      SessionView.init_unheld rfl messages trivial
      (by
        intro config' rest' q hEq hSub
        rw [hMessages] at hEq
        cases hEq
        exact hSub)
  rcases Core.Prog.wp_performs hWp hCalls with
    ⟨g, _, hPermits⟩
  exact hPermits.2.2.2.2

/- An update stays in the root, whatever it names. -/
theorem contained_update
    (request : UpdateUtilizationRequest) :
    ContainedProg root (updateUtilization root request) := by
  intro op p hTouched hCalls
  rcases Core.Prog.wp_performs
      (wp_updateUtilization request) hCalls with
    ⟨g, _, hPre⟩
  cases op with
  | createDirectories q =>
      rcases Option.some.inj hTouched with rfl
      exact hPre
  | openTrunc q =>
      rcases Option.some.inj hTouched with rfl
      exact hPre
  | removeAll q => exact absurd hPre id
  | _ => cases hTouched

end Drex

------------------------------------------------------------
-- The Child Process
------------------------------------------------------------

namespace Drex

variable {root : WorkspaceRoot}

/- The child may open one file only. -/
def childPre
    (root : WorkspaceRoot)
    (config : TaskConfig)
    (_ : SessionView) :
    ServerOp → Prop
| .openTrunc p =>
    p =
      runtimeUtilizationPath
        (root.path / Path.ofString config.workspaceSubdir)
| .createDirectories _ => False
| .removeAll _ => False
| _ => True

/- A part of the child that only sets variables. -/
theorem wp_setsVariables
    {p : ServerProg Unit}
    (config : TaskConfig)
    (hOnly :
      Core.Prog.OnlyCalls ServerOp.SetsVariables p)
    (g : SessionView) :
    Core.Prog.wp sessionAnswers (childPre root config) p
      (fun _ _ => True) g := by
  refine Core.Prog.wp_invariant ?_ ?_ hOnly trivial
  · exact fun _ _ _ _ _ _ _ => trivial
  · intro _ op hOp _
    cases op <;> first | exact trivial | exact hOp.elim

/- The child's utilization file lies in its workspace. -/
theorem wp_configureChildUtilization
    (config : TaskConfig)
    (g : SessionView) :
    Core.Prog.wp sessionAnswers (childPre root config)
      (TaskExecutor.configureDrexRuntimeEnvironment config
        (root.path / Path.ofString config.workspaceSubdir))
      (fun _ _ => True) g := by
  unfold TaskExecutor.configureDrexRuntimeEnvironment
  rw [Core.Prog.wp_bind, wp_call]
  refine ⟨trivial, fun _ _ => ?_⟩
  split
  · unfold TaskExecutor.writeRuntimeUtilizationFile
    split
    · exact trivial
    · rw [Core.Prog.wp_bind, wp_call]
      refine ⟨rfl, fun isOpen _ => ?_⟩
      split
      · rw [Core.Prog.wp_bind, wp_call]
        refine ⟨trivial, fun _ _ => ?_⟩
        rw [Core.Prog.wp_bind, wp_call]
        exact ⟨trivial, fun _ _ => trivial⟩
      · exact trivial
  · exact trivial

/- The child enters its own workspace and no other. -/
theorem wp_childProcess
    (config : TaskConfig)
    (wantPty : Bool)
    (execCommand : Str)
    (g : SessionView) :
    Core.Prog.wp sessionAnswers (childPre root config)
      (TaskExecutor.childProcess root config wantPty
        execCommand)
      (fun _ _ => True) g := by
  unfold TaskExecutor.childProcess
  simp only []
  rw [Core.Prog.wp_bind, wp_call]
  refine ⟨trivial, fun _ _ => ?_⟩
  rw [Core.Prog.wp_bind]
  refine Core.Prog.wp_mono ?_
    (wp_setsVariables config
      (TaskExecutor.onlyCalls_configureChildEnvironment _) _)
  intro _ _ _
  rw [Core.Prog.wp_bind]
  refine Core.Prog.wp_mono ?_
    (wp_configureChildUtilization config _)
  intro _ _ _
  rw [Core.Prog.wp_bind]
  refine Core.Prog.wp_mono ?_
    (wp_setsVariables config
      (TaskExecutor.onlyCalls_configureXSchedEnvironment _) _)
  intro _ _ _
  rw [Core.Prog.wp_bind, wp_call]
  refine ⟨trivial, fun entered _ => ?_⟩
  split
  · split
    · rw [wp_call]
      exact ⟨trivial, fun _ _ => trivial⟩
    · rw [Core.Prog.wp_bind, wp_call]
      refine ⟨trivial, fun _ _ => ?_⟩
      rw [Core.Prog.wp_bind, wp_call]
      refine ⟨trivial, fun redirected _ => ?_⟩
      split
      · rw [Core.Prog.wp_bind, wp_call]
        refine ⟨trivial, fun _ _ => ?_⟩
        rw [wp_call]
        exact ⟨trivial, fun _ _ => trivial⟩
      · exact trivial
  · exact trivial

/- The child's directory has no `..` and starts at the root. -/
theorem childDirectory_names
    {p : Path}
    (isThere : Bool)
    (h : p.Below root) :
    (root.path /
          Path.ofString
            (relativeSubdir root isThere p)).absolute = true ∧
      root.path.names <+:
        (root.path /
          Path.ofString
            (relativeSubdir root isThere p)).names ∧
      Name.dotdot ∉
        (root.path /
          Path.ofString
            (relativeSubdir root isThere p)).names := by
  rcases ofString_relativeSubdir isThere h with
    ⟨tail, slash, hTail, hSpelled⟩
  have hRoot : Name.dotdot ∉ root.path.names := by
    intro hMem
    exact (root.path_ordinary _ hMem).2 rfl
  rw [hSpelled]
  by_cases hNil : tail = []
  · rw [dif_pos hNil,
      Path.append_of_names rfl (by simp [Path.ofName])]
    refine ⟨rfl, List.prefix_append _ _, ?_⟩
    intro hMem
    rcases List.mem_append.mp hMem with hMem | hMem
    · exact hRoot hMem
    · exact absurd hMem (by decide)
  · rw [dif_neg hNil, Path.append_of_names rfl hNil]
    refine ⟨rfl, List.prefix_append _ _, ?_⟩
    intro hMem
    rcases List.mem_append.mp hMem with hMem | hMem
    · exact hRoot hMem
    · exact (h.tail_ordinary hTail _ hMem).2 rfl

/- The child of an accepted config opens a contained file. -/
theorem contained_child
    {config : TaskConfig}
    (isThere wantPty : Bool)
    (execCommand : Str)
    (hStays : staysInRoot root config = true) :
    ContainedProg root
      (TaskExecutor.childProcess root
        (acceptedConfig root config isThere)
        wantPty execCommand) := by
  intro op p hTouched hCalls
  have hBoth := hStays
  unfold staysInRoot at hBoth
  rw [Bool.and_eq_true] at hBoth
  have hBelow :
      (resolvedWorkspacePath root config).Below root :=
    below_of_isSubPath rfl hBoth.1
  rcases Core.Prog.wp_performs
      (wp_childProcess _ wantPty execCommand .init) hCalls
    with ⟨g, hPre⟩
  cases op with
  | openTrunc q =>
      rcases Option.some.inj hTouched with rfl
      rcases childDirectory_names isThere hBelow with
        ⟨hAbsolute, hPrefix, hDotdot⟩
      have hFile : q = _ := hPre
      rcases runtimeUtilizationPath_names
          (root.path / Path.ofString
            (acceptedConfig root config
              isThere).workspaceSubdir) with
        ⟨hFileAbsolute, hFileNames, hFileSlash⟩
      rw [← hFile] at hFileAbsolute hFileNames hFileSlash
      refine ⟨?_, ?_⟩
      · rw [isSubPath_root_iff]
        refine ⟨hFileAbsolute.trans hAbsolute, ?_⟩
        rw [hFileNames]
        exact hPrefix.trans (List.prefix_append _ _)
      · intro hMem
        have hName : Name.dotdot ∈ q.names := by
          unfold Path.elements at hMem
          rw [hFileAbsolute.trans hAbsolute, hFileSlash]
            at hMem
          simpa using hMem
        rw [hFileNames] at hName
        rcases List.mem_append.mp hName with hMem | hMem
        · exact hDotdot hMem
        · exact absurd hMem (by decide)
  | createDirectories q => exact absurd hPre id
  | removeAll q => exact absurd hPre id
  | _ => cases hTouched

end Drex

------------------------------------------------------------
-- Containment
------------------------------------------------------------

namespace Drex

open Drex.Core.Prog

/-
  A run of a submission touches contained paths only if and
  only if it handles no chunk that is aimed at the root
  itself.  Its chunks open files below its workspace path;
  an update and the child of an accepted config are always
  contained.
-/
theorem containment_iff
    (root : WorkspaceRoot) :
    (∀ messages trace status g,
      NulFreeStream messages →
        Runs sessionAnswers .init
            (taskSubmission root messages) trace status g →
          (ContainedTrace root trace ↔
            ¬ AimsAtRoot root messages trace)) ∧
    (∀ messages config rest p,
      NulFreeStream messages →
        messages = .config config :: rest →
          MayCall (.openTrunc p)
              (downloadWorkspace root messages) →
            isSubPath (resolvedWorkspacePath root config) p =
              true) ∧
    (∀ request : UpdateUtilizationRequest,
      NulFree request.workspaceSubdir →
        ContainedProg root
          (updateUtilization root request)) ∧
    (∀ config isThere wantPty execCommand,
      config.NulFree →
        staysInRoot root config = true →
          ContainedProg root
            (TaskExecutor.childProcess root
              (acceptedConfig root config isThere)
              wantPty execCommand)) := by
  refine ⟨?_, ?_, ?_, ?_⟩
  · intro messages trace status g _ hRuns
    constructor
    · intro hContained hAims
      exact not_containedTrace_of_aims hRuns hAims hContained
    · exact containedTrace_of_not_aims hRuns
  · intro messages config rest p _ hMessages hCalls
    exact opens_below_workspacePath messages hMessages hCalls
  · exact fun request _ => contained_update request
  · intro config isThere wantPty execCommand _ hStays
    exact contained_child isThere wantPty execCommand hStays

/- The answer of a call that succeeds where it may. -/
def grantedAnswer
    (g : SessionView)
    (op : ServerOp) :
    Resp op :=
  match op with
  | .acquire subdirKey =>
      if g.guard.locked = false ∧ subdirKey ≠ [] then
        Status.success
      else
        Status.invalidArgument "workspace_subdir"
  | .cleanupTargets => g.guard
  | .release =>
      if g.guard.locked then some g.guard.key else none
  | op => Env.granting.answer op

/- The handler that lets every call succeed. -/
def granted : Handler ServerOp Resp SessionView :=
  fun op g =>
    (grantedAnswer g op, g.after op (grantedAnswer g op))

/- A server that grants every call answers plausibly. -/
theorem follows_granted :
    Follows sessionAnswers granted := by
  intro op g
  refine ⟨?_, rfl⟩
  cases op with
  | acquire subdirKey =>
      change
        Status.isOk (grantedAnswer g (.acquire subdirKey)) =
            true → _
      unfold grantedAnswer
      by_cases hFree :
          g.guard.locked = false ∧ subdirKey ≠ []
      · intro _
        exact
          ⟨fun hLocked => by simp [hFree.1] at hLocked,
            fun _ => hFree.2⟩
      · simp only [hFree, if_false]
        intro hOk
        cases hOk
  | cleanupTargets => exact rfl
  | release => exact rfl
  | _ => exact trivial

/- The run of a submission whose every call succeeds. -/
def grantedTrace (messages : List TaskRequest) :
    List ServerEvent :=
  history granted (taskSubmission smallRoot messages) .init

/- A stream with two files, one of them in a directory. -/
def nestedStream : List TaskRequest :=
  [.config (smallConfig "a/./b"),
    .fileChunk (smallChunk "f"),
    .fileChunk (smallChunk "d/g")]

theorem nestedStream_contained :
    ContainedTrace smallRoot (grantedTrace nestedStream) := by
  refine
    ((containment_iff smallRoot).1 nestedStream _ _ _
      (by decide) (runs_history follows_granted _ _)).mpr ?_
  -- no chunk below a/b can name the root
  rintro ⟨config, rest, chunk, hEq, _, hAimed⟩
  cases hEq
  have hPasses := hAimed.passes
  rw [hAimed.target] at hPasses
  exact absurd hPasses (by decide +kernel)

/- A stream whose chunk is the workspace root itself. -/
def rootStream : List TaskRequest :=
  [.config (smallConfig "../workspace"),
    .fileChunk (smallChunk "../workspace")]

theorem rootStream_not_contained :
    Runs sessionAnswers .init
        (taskSubmission smallRoot rootStream)
        (grantedTrace rootStream)
        (run granted (taskSubmission smallRoot rootStream)
          .init).1
        (run granted (taskSubmission smallRoot rootStream)
          .init).2 ∧
      ¬ ContainedTrace smallRoot (grantedTrace rootStream) := by
  refine ⟨runs_history follows_granted _ _, ?_⟩
  have hMakes :
      ∃ e ∈ grantedTrace rootStream,
        e.1.touched? = some smallRoot.path.parentPath := by
    decide +kernel
  rcases hMakes with ⟨e, hMem, hTouched⟩
  intro hContained
  exact
    not_contained_parentPath (hContained e hMem _ hTouched)

end Drex
