import Drex.Server.DownloadSession

/-
  An upload handled without interference on a disk whose
  writes can fail and whose closes can lose what was
  buffered.

  Key definitions include:
    * `WriteFaults`
    * `WriteFaults.Governs`
    * `alone`
    * `DownloadSession.settled`
    * `DownloadSession.Writing`

  Key theorems include:
    * `alone_openOutputFile`
    * `alone_storeChunk`
    * `alone_run_config`
    * `alone_run_cons`
    * `alone_run_nil`
-/

------------------------------------------------------------
-- Faults Of The Server's Disk
------------------------------------------------------------

namespace Drex

/-
  Which writes fail, by file and offset, and how many bytes
  closing a file loses.
-/
structure WriteFaults where
  fails : Loc → Nat → Bool
  lost : Loc → Nat

/- What the environment answers to each operation. -/
abbrev ServerOracle :=
  ServerOp → ServerState → Env

/- Run a handler alone against an oracle. -/
def alone
    (i : Nat)
    (oracle : ServerOracle) :
    Core.Prog.Handler ServerOp Resp ServerState :=
  fun op s => exec i op (oracle op s) s

/-
  Writes and closes meet exactly these faults, no other call
  fails and the call is not cancelled.
-/
structure WriteFaults.Governs
    (F : WriteFaults)
    (oracle : ServerOracle) : Prop where
  isCancelled :
    ∀ s, (oracle .isCancelled s).answer .isCancelled = false
  status :
    ∀ p s,
      (oracle (.status p) s).answer (.status p) ≠ .error
  createDirectories :
    ∀ p s,
      (oracle (.createDirectories p) s).answer
        (.createDirectories p) = none
  openTrunc :
    ∀ p s,
      (oracle (.openTrunc p) s).answer (.openTrunc p) = true
  write :
    ∀ p offset data s,
      (oracle (.write p offset data) s).answer
        (.write p offset data) = !F.fails p.loc offset
  close :
    ∀ p s,
      (oracle (.close p) s).answer (.close p) =
          decide (F.lost p.loc = 0) ∧
        (oracle (.close p) s).amount = F.lost p.loc

/- What is left of a file's bytes once it is closed. -/
def WriteFaults.kept
    (F : WriteFaults)
    (l : Loc)
    (content : Bytes) :
    Bytes :=
  content.take (content.length - F.lost l)

/- Nothing is lost where no byte is dropped. -/
theorem Store.dropTail_zero
    (s : Store)
    (l : Loc) :
    s.dropTail l 0 = s := by
  unfold Store.dropTail Store.mapFile
  split
  · rename_i data hNode
    rcases s with ⟨node⟩
    congr
    funext q
    by_cases hq : q = l
    · subst hq
      simp only [Nat.sub_zero, List.take_length,
        Function.update_self]
      exact hNode.symm
    · rw [Function.update_of_ne hq]
  · rfl

end Drex

------------------------------------------------------------
-- Single Operations
------------------------------------------------------------

namespace Drex

variable {F : WriteFaults} {oracle : ServerOracle} {i : Nat}

/- The call is never cancelled. -/
theorem alone_isCancelled
    (h : F.Governs oracle)
    (s : ServerState) :
    alone i oracle .isCancelled s = (false, s) := by
  have hAnswer := h.isCancelled s
  unfold alone exec
  simp only [hAnswer]

/- Directories are made where no file is in the way. -/
theorem alone_createDirectories
    (h : F.Governs oracle)
    {p : Path}
    {s : ServerState}
    (hPassable : s.store.Passable p.loc) :
    alone i oracle (.createDirectories p) s =
      (none,
        { s with
          store := s.store.createDirectories p.loc }) := by
  have hAnswer := h.createDirectories p s
  have hWay := (s.store.passable_iff p.loc).mpr hPassable
  simp [alone, exec, Store.tryCreateDirectories, hAnswer,
    hWay]

/- Opening a file makes it empty. -/
theorem alone_openTrunc
    (h : F.Governs oracle)
    {p : Path}
    {s : ServerState}
    (hSlash : p.slash = false)
    (hFree : s.store.node p.loc ≠ some .directory)
    (hParent :
      s.store.node p.loc.dropLast = some .directory) :
    alone i oracle (.openTrunc p) s =
      (true,
        { s with
          store :=
            { node :=
                Function.update s.store.node p.loc
                  (some (.file [])) } }) := by
  have hAnswer := h.openTrunc p s
  have hOpen := Store.openTrunc_of_parent hFree hParent
  simp [alone, exec, Store.tryOpen, hAnswer, hSlash, hOpen]

/- A write at the end appends its data. -/
theorem alone_write
    (h : F.Governs oracle)
    {p : Path}
    {content data : Bytes}
    {s : ServerState}
    (hFile : s.store.HasFile p.loc content)
    (hGood : F.fails p.loc content.length = false) :
    alone i oracle (.write p content.length data) s =
      (true,
        { s with
          store :=
            { node :=
                Function.update s.store.node p.loc
                  (some (.file (content ++ data))) } }) := by
  have hAnswer := h.write p content.length data s
  rw [hGood] at hAnswer
  have hWrite :
      s.store.writeAt p.loc content.length data =
        { node :=
            Function.update s.store.node p.loc
              (some (.file (content ++ data))) } := by
    have hNode :=
      Store.node_mapFile_of_file
        (fun old => overwrite old content.length data) hFile
    simp only [overwrite_length] at hNode
    exact congrArg Store.mk hNode
  simp [alone, exec, Store.tryWrite, hAnswer, hWrite]

/- A write that meets a fault answers so. -/
theorem alone_write_fails
    (h : F.Governs oracle)
    {p : Path}
    {offset : Nat}
    (data : Bytes)
    (s : ServerState)
    (hFails : F.fails p.loc offset = true) :
    (alone i oracle (.write p offset data) s).1 = false := by
  have hAnswer := h.write p offset data s
  rw [hFails] at hAnswer
  simp [alone, exec, Store.tryWrite, hAnswer]

/- A close may lose the end of the file. -/
theorem alone_close
    (h : F.Governs oracle)
    (p : Path)
    (s : ServerState) :
    (alone i oracle (.close p) s).2 =
      { s with
        store := s.store.dropTail p.loc (F.lost p.loc) } := by
  rcases h.close p s with ⟨hAnswer, hAmount⟩
  by_cases hLost : F.lost p.loc = 0
  · simp [alone, exec, Store.tryClose, hAnswer, hLost,
      Store.dropTail_zero]
  · simp [alone, exec, Store.tryClose, hAnswer, hAmount,
      hLost]

end Drex

------------------------------------------------------------
-- The Open File
------------------------------------------------------------

namespace Drex

namespace DownloadSession

variable {F : WriteFaults} {oracle : ServerOracle} {i : Nat}

/- The disk once the file that is open has been closed. -/
def settled
    (F : WriteFaults)
    (s : DownloadSession)
    (store : Store) :
    Store :=
  match s.outfile with
  | none => store
  | some file =>
      store.dropTail file.path.loc (F.lost file.path.loc)

/- The session without an open file. -/
def closed (s : DownloadSession) : DownloadSession :=
  { s with outfile := none, currentFilePath := .empty }

/- The session with a file just opened. -/
def opened
    (s : DownloadSession)
    (target : Path) :
    DownloadSession :=
  { s with
    outfile := some ⟨target, 0⟩
    currentFilePath := target }

/- The target is open and has this content so far. -/
structure Writing
    (s : DownloadSession)
    (store : Store)
    (target : Path)
    (content : Bytes) : Prop where
  outfile : s.outfile = some ⟨target, content.length⟩
  current : s.currentFilePath = target
  file : store.HasFile target.loc content

/- Settling keeps what the close does not lose. -/
theorem Writing.settled
    {s : DownloadSession}
    {store : Store}
    {target : Path}
    {content : Bytes}
    (h : s.Writing store target content) :
    (s.settled F store).node =
      Function.update store.node target.loc
        (some (.file (F.kept target.loc content))) := by
  unfold DownloadSession.settled
  rw [h.outfile]
  exact Store.node_mapFile_of_file _ h.file

/- Closing leaves the session without a file. -/
theorem alone_closeCurrentFile
    (h : F.Governs oracle)
    (s : DownloadSession)
    (st : ServerState) :
    Core.Prog.run (alone i oracle) s.closeCurrentFile st =
      (s.closed,
        { st with store := s.settled F st.store }) := by
  unfold closeCurrentFile settled closed
  cases hFile : s.outfile with
  | none =>
      rcases s with ⟨config, paths, outfile, current, got⟩
      cases hFile
      rfl
  | some file =>
      simp only [Core.Prog.run_bind, Core.Prog.run_perform,
        Core.Prog.run_pure, alone_close h]

/- Opening a new file closes the one before it. -/
theorem alone_openOutputFile
    (h : F.Governs oracle)
    {s : DownloadSession}
    {st : ServerState}
    {target : Path}
    (hSlash : target.slash = false)
    (hParentLoc :
      target.parentPath.loc = target.loc.dropLast)
    (hPassable :
      (s.settled F st.store).Passable target.loc.dropLast)
    (hFree :
      (s.settled F st.store).node target.loc ≠
        some .directory)
    (hNonempty : target.loc ≠ []) :
    Core.Prog.run (alone i oracle)
        (s.openOutputFile target) st =
      ((s.opened target, Status.success),
        { st with
          store :=
            { node :=
                Function.update
                  ((s.settled F st.store).createDirectories
                    target.loc.dropLast).node
                  target.loc (some (.file [])) } }) := by
  have hPassable' :
      (s.settled F st.store).Passable
        target.parentPath.loc := by
    rw [hParentLoc]
    exact hPassable
  have hNotAbove : ¬ target.loc <+: target.loc.dropLast := by
    intro hPrefix
    have hLength := hPrefix.length_le
    have hPos := List.length_pos_of_ne_nil hNonempty
    rw [List.length_dropLast] at hLength
    omega
  have hStillFree :
      ((s.settled F st.store).createDirectories
          target.loc.dropLast).node target.loc ≠
        some .directory := by
    rw [Store.node_createDirectories_of_not_prefix _
      hNotAbove]
    exact hFree
  have hParent :=
    Store.node_createDirectories_of_prefix hPassable
      (List.prefix_refl target.loc.dropLast)
  unfold openOutputFile
  rw [Core.Prog.run_bind, alone_closeCurrentFile h,
    Core.Prog.run_bind, Core.Prog.run_perform,
    alone_createDirectories h
      (s := { st with store := s.settled F st.store })
      hPassable', hParentLoc]
  simp only [Option.isSome_none, Bool.false_eq_true,
    if_false]
  rw [Core.Prog.run_bind, Core.Prog.run_perform,
    alone_openTrunc h hSlash hStillFree hParent]
  rfl

end DownloadSession

end Drex

------------------------------------------------------------
-- Chunks
------------------------------------------------------------

namespace Drex

namespace DownloadSession

variable {F : WriteFaults} {oracle : ServerOracle} {i : Nat}

/- The session after more bytes of the target. -/
def advanced
    (s : DownloadSession)
    (target : Path)
    (offset : Nat) :
    DownloadSession :=
  { s with outfile := some ⟨target, offset⟩ }

/- The server state with the target's new content. -/
def withContent
    (st : ServerState)
    (target : Path)
    (content : Bytes) :
    ServerState :=
  { st with
    store :=
      { node :=
          Function.update st.store.node target.loc
            (some (.file content)) } }

/- After a write the file holds the new content. -/
theorem writing_advanced
    {s : DownloadSession}
    {target : Path}
    (hCurrent : s.currentFilePath = target)
    (st : ServerState)
    (content : Bytes) :
    (s.advanced target content.length).Writing
      (withContent st target content).store target
      content := by
  constructor
  · rfl
  · exact hCurrent
  · exact Function.update_self _ _ _

/- The data of a chunk are appended to its file. -/
theorem alone_writeChunkData
    (h : F.Governs oracle)
    {s : DownloadSession}
    {st : ServerState}
    {target : Path}
    {content data : Bytes}
    (hWriting : s.Writing st.store target content)
    (hData : data ≠ [])
    (hGood : F.fails target.loc content.length = false) :
    Core.Prog.run (alone i oracle) (s.writeChunkData data)
        st =
      ((s.advanced target (content ++ data).length,
          Status.success),
        withContent st target (content ++ data)) := by
  unfold writeChunkData writeData
  rw [if_neg hData, hWriting.outfile]
  simp only []
  rw [Core.Prog.run_bind, Core.Prog.run_perform,
    alone_write h hWriting.file hGood]
  simp only [if_true, Core.Prog.run_pure]
  rw [← List.length_append]
  rfl

/- Or the write fails, and so does the chunk. -/
theorem alone_writeChunkData_fails
    (h : F.Governs oracle)
    {s : DownloadSession}
    (st : ServerState)
    {target : Path}
    {content data : Bytes}
    (hOpen : s.outfile = some ⟨target, content.length⟩)
    (hData : data ≠ [])
    (hFails : F.fails target.loc content.length = true) :
    (Core.Prog.run (alone i oracle) (s.writeChunkData data)
      st).1.2.isOk = false := by
  have hWrite :=
    alone_write_fails (i := i) h data st hFails
  unfold writeChunkData writeData
  rw [if_neg hData, hOpen]
  simp only []
  rw [Core.Prog.run_bind, Core.Prog.run_perform, hWrite]
  rfl

/-
  A chunk that is stored: the file goes on, or its end was
  flagged and it is closed.
-/
theorem alone_storeChunk
    (h : F.Governs oracle)
    {s : DownloadSession}
    {st : ServerState}
    {target : Path}
    {content : Bytes}
    {chunk : TaskFileChunk}
    (hWriting : s.Writing st.store target content)
    (hData : chunk.data ≠ [])
    (hGood : F.fails target.loc content.length = false) :
    Core.Prog.run (alone i oracle) (s.storeChunk chunk) st =
      let s' :=
        s.advanced target (content ++ chunk.data).length
      let st' := withContent st target (content ++ chunk.data)
      if chunk.fileEnd then
        ((s'.closed, Status.success),
          { st' with store := s'.settled F st'.store })
      else
        ((s', Status.success), st') := by
  unfold storeChunk
  rw [Core.Prog.run_bind,
    alone_writeChunkData h hWriting hData hGood]
  simp only [Status.success, Status.isOk, decide_true,
    if_true]
  cases hEnd : chunk.fileEnd with
  | true =>
      simp only [if_true]
      rw [Core.Prog.run_bind, alone_closeCurrentFile h]
      rfl
  | false => rfl

/- A chunk whose write fails is not stored. -/
theorem alone_storeChunk_fails
    (h : F.Governs oracle)
    {s : DownloadSession}
    (st : ServerState)
    {target : Path}
    {content : Bytes}
    {chunk : TaskFileChunk}
    (hOpen : s.outfile = some ⟨target, content.length⟩)
    (hData : chunk.data ≠ [])
    (hFails : F.fails target.loc content.length = true) :
    (Core.Prog.run (alone i oracle) (s.storeChunk chunk)
      st).1.2.isOk = false := by
  have hWrite :=
    alone_writeChunkData_fails (i := i) h st hOpen hData
      hFails
  unfold storeChunk
  rw [Core.Prog.run_bind]
  simp only [hWrite, Bool.false_eq_true, if_false]
  exact hWrite

/- The session takes chunks below this workspace path. -/
structure Receiving
    (s : DownloadSession)
    (base : Path) : Prop where
  received : s.receivedConfig = true
  workspacePath : s.paths.workspacePath = base

/- A chunk for the file that is open is stored in it. -/
theorem alone_handleFileChunk_next
    (i : Nat)
    (oracle : ServerOracle)
    (st : ServerState)
    {s : DownloadSession}
    {base target : Path}
    {content : Bytes}
    {chunk : TaskFileChunk}
    (hReceiving : s.Receiving base)
    (hNonempty : chunk.relativePath ≠ [])
    (hTarget : targetPath base chunk = target)
    (hSub : isSubPath base target = true)
    (hOpen : s.outfile = some ⟨target, content.length⟩)
    (hCurrent : s.currentFilePath = target)
    (hStart : chunk.fileStart = false) :
    Core.Prog.run (alone i oracle) (s.handleFileChunk chunk)
        st =
      Core.Prog.run (alone i oracle) (s.storeChunk chunk)
        st := by
  have hKeep : s.needNewFile target false = false := by
    simp [needNewFile, hOpen, hCurrent]
  unfold handleFileChunk ensureOutputFile
  simp only [hReceiving.received, hReceiving.workspacePath,
    hNonempty, hTarget, hSub, hStart, hKeep,
    Bool.true_eq_false, Bool.false_eq_true, if_false]
  rfl

/- The first chunk of a file opens it. -/
theorem alone_handleFileChunk_first
    {s : DownloadSession}
    {st st' : ServerState}
    {base target : Path}
    {chunk : TaskFileChunk}
    (hReceiving : s.Receiving base)
    (hNonempty : chunk.relativePath ≠ [])
    (hTarget : targetPath base chunk = target)
    (hSub : isSubPath base target = true)
    (hStart : chunk.fileStart = true)
    (hOpen :
      Core.Prog.run (alone i oracle)
          (s.openOutputFile target) st =
        ((s.opened target, Status.success), st')) :
    Core.Prog.run (alone i oracle) (s.handleFileChunk chunk)
        st =
      Core.Prog.run (alone i oracle)
        ((s.opened target).storeChunk chunk) st' := by
  have hNew : s.needNewFile target true = true := by
    simp [needNewFile]
  unfold handleFileChunk ensureOutputFile
  simp only [hReceiving.received, hReceiving.workspacePath,
    hNonempty, hTarget, hSub, hStart, hNew,
    Bool.true_eq_false, if_false, if_true]
  rw [Core.Prog.run_bind, hOpen]
  rfl

/- A message is read and handled; nothing is cancelled. -/
theorem alone_run_message
    (h : F.Governs oracle)
    (root : WorkspaceRoot)
    (s : DownloadSession)
    (st : ServerState)
    (message : TaskRequest)
    (rest : List TaskRequest) :
    Core.Prog.run (alone i oracle)
        (run root s (message :: rest)) st =
      Core.Prog.run (alone i oracle)
        (s.handleMessage root message >>= fun r =>
          if r.2.isOk then run root r.1 rest
          else pure (r.1, r.2))
        st := by
  have hRead :
      (alone i oracle (.read (some message)) st).2 = st :=
    rfl
  conv_lhs => unfold run
  rw [Core.Prog.run_bind, Core.Prog.run_perform, hRead,
    Core.Prog.run_bind, Core.Prog.run_perform,
    alone_isCancelled h]
  rfl

/- A message that is handled leaves the rest of the stream. -/
theorem alone_run_cons
    (h : F.Governs oracle)
    (root : WorkspaceRoot)
    {s s' : DownloadSession}
    {st st' : ServerState}
    {chunk : TaskFileChunk}
    (rest : List TaskRequest)
    (hChunk :
      Core.Prog.run (alone i oracle)
          (s.handleFileChunk chunk) st =
        ((s', Status.success), st')) :
    Core.Prog.run (alone i oracle)
        (run root s (.fileChunk chunk :: rest)) st =
      Core.Prog.run (alone i oracle) (run root s' rest)
        st' := by
  rw [alone_run_message h, Core.Prog.run_bind]
  unfold handleMessage
  simp only []
  rw [Core.Prog.run_bind, hChunk]
  rfl

/- A chunk that fails ends the stream with its error. -/
theorem alone_run_cons_fails
    (h : F.Governs oracle)
    (root : WorkspaceRoot)
    {s : DownloadSession}
    {st : ServerState}
    {chunk : TaskFileChunk}
    (rest : List TaskRequest)
    (hChunk :
      (Core.Prog.run (alone i oracle)
          (s.handleFileChunk chunk) st).1.2.isOk = false) :
    (Core.Prog.run (alone i oracle)
        (run root s (.fileChunk chunk :: rest))
        st).1.2.isOk = false := by
  rw [alone_run_message h, Core.Prog.run_bind]
  unfold handleMessage
  simp only []
  rw [Core.Prog.run_bind]
  simp only [Core.Prog.run_pure, Ending.isOk, hChunk,
    Bool.false_eq_true, if_false]

end DownloadSession

end Drex

------------------------------------------------------------
-- The Config And The End Of The Stream
------------------------------------------------------------

namespace Drex

variable {F : WriteFaults} {oracle : ServerOracle} {i : Nat}

/- The status of no path is undetermined. -/
abbrev StatusAnswers (oracle : ServerOracle) : Prop :=
  ∀ p s,
    (oracle (.status p) s).answer (.status p) ≠ .error

/- Something is where the path says. -/
def Store.isThere (s : Store) (p : Path) : Bool :=
  decide (s.tryStatus p .found = .found)

/- A status tells whether the node is there. -/
theorem alone_status
    (h : StatusAnswers oracle)
    (p : Path)
    (st : ServerState) :
    alone i oracle (.status p) st =
      (st.store.tryStatus p .found, st) := by
  have hAnswer := h p st
  simp [alone, exec, Store.tryStatus, hAnswer]

/- A status that finds its path is no error. -/
theorem tryStatus_found_ne_error
    (s : Store)
    (p : Path) :
    s.tryStatus p .found ≠ .error := by
  unfold Store.tryStatus
  split
  · rename_i hError
    cases hError
  · split
    · simp
    · simp
    · split <;> simp

/- `fs::relative` keeps the spelling of what is missing. -/
theorem alone_fsRelative
    (h : StatusAnswers oracle)
    (root : WorkspaceRoot)
    (p : Path)
    (st : ServerState) :
    Core.Prog.run (alone i oracle) (fsRelative root p) st =
      (some (relativeSubdir root (st.store.isThere p) p),
        st) := by
  have hPath := tryStatus_found_ne_error st.store p
  have hRoot := tryStatus_found_ne_error st.store root.path
  unfold fsRelative
  rw [Core.Prog.run_bind, Core.Prog.run_perform,
    alone_status h, Core.Prog.run_bind,
    Core.Prog.run_perform, alone_status h]
  simp only [hPath, hRoot, or_self, if_false]
  rfl

/- The paths a config resolves to on a disk. -/
def resolvedPaths
    (root : WorkspaceRoot)
    (config : TaskConfig)
    (store : Store) :
    ResolvedTaskPaths :=
  let workspacePath := resolvedWorkspacePath root config
  let outputPath := resolvedOutputPath root config
  { workspaceSubdir :=
      relativeSubdir root (store.isThere workspacePath)
        workspacePath
    outputSubdir :=
      relativeSubdir root (store.isThere outputPath)
        outputPath
    workspacePath := workspacePath
    outputPath := outputPath }

/- Both directories of the config stay in the root. -/
theorem staysInRoot_iff
    (root : WorkspaceRoot)
    (config : TaskConfig) :
    staysInRoot root config = true ↔
      isSubPath root.path
          (resolvedWorkspacePath root config) = true ∧
        isSubPath root.path
          (resolvedOutputPath root config) = true := by
  unfold staysInRoot
  exact Bool.and_eq_true _ _ ▸ Iff.rfl

/- The key of an accepted config is never empty. -/
theorem resolvedPaths_subdir_ne_nil
    {root : WorkspaceRoot}
    {config : TaskConfig}
    (hStays : staysInRoot root config = true)
    (store : Store) :
    (resolvedPaths root config store).workspaceSubdir ≠
      [] := by
  have hBoth := (staysInRoot_iff root config).mp hStays
  exact
    (subdirPath_relativeSubdir _
      (below_of_isSubPath rfl hBoth.1)).2

/- `ResolveTaskPaths` accepts what stays in the root. -/
theorem alone_resolveTaskPaths
    (h : StatusAnswers oracle)
    (root : WorkspaceRoot)
    (config : TaskConfig)
    (st : ServerState) :
    Core.Prog.run (alone i oracle)
        (resolveTaskPaths root config) st =
      (if staysInRoot root config then
          .ok (resolvedPaths root config st.store)
        else
          .error (.status (Status.permissionDenied
            ("Workspace or output directory escapes " ++
              "server workspace!"))),
        st) := by
  unfold resolveTaskPaths
  split
  · rw [Core.Prog.run_bind, alone_fsRelative h,
      Core.Prog.run_bind, alone_fsRelative h]
    rfl
  · rfl

namespace DownloadSession

/- The first config of a stream is accepted. -/
theorem alone_handleConfig
    (h : F.Governs oracle)
    {root : WorkspaceRoot}
    {config : TaskConfig}
    (hStays : staysInRoot root config = true)
    (store : Store) :
    ∃ s st,
      Core.Prog.run (alone i oracle)
          (init.handleConfig root config)
          (ServerState.init store) =
        ((s, Ending.success), st) ∧
      s.Receiving (resolvedWorkspacePath root config) ∧
        s.outfile = none ∧ st.store = store := by
  have hResolve :=
    alone_resolveTaskPaths (i := i) h.status root config
      (ServerState.init store)
  have hNonempty := resolvedPaths_subdir_ne_nil hStays store
  rw [if_pos hStays] at hResolve
  have hLock :
      (alone i oracle
        (.acquire
          (resolvedPaths root config store).workspaceSubdir)
        (ServerState.init store)).1 = Status.success := by
    simp [alone, exec, ServerState.init,
      WorkspaceLockGuard.init, WorkspaceLockGuard.acquire,
      hNonempty]
  unfold handleConfig
  simp only [init, Bool.false_eq_true, if_false]
  rw [Core.Prog.run_bind, hResolve]
  simp only []
  rw [Core.Prog.run_bind, Core.Prog.run_perform]
  simp only [ServerState.init] at hLock
  simp only [ServerState.init, hLock, Status.isOk,
    Status.success, decide_true, if_true]
  exact ⟨_, _, rfl, ⟨rfl, rfl⟩, rfl, rfl⟩

/- A stream that begins with its config. -/
theorem alone_run_config
    (h : F.Governs oracle)
    {root : WorkspaceRoot}
    {config : TaskConfig}
    (hStays : staysInRoot root config = true)
    (store : Store)
    (rest : List TaskRequest) :
    ∃ s st,
      Core.Prog.run (alone i oracle)
          (run root init (.config config :: rest))
          (ServerState.init store) =
        Core.Prog.run (alone i oracle) (run root s rest)
          st ∧
      s.Receiving (resolvedWorkspacePath root config) ∧
        s.outfile = none ∧ st.store = store := by
  rcases alone_handleConfig (i := i) h hStays store with
    ⟨s, st, hConfig, hReceiving, hNone, hStore⟩
  refine ⟨s, st, ?_, hReceiving, hNone, hStore⟩
  rw [alone_run_message h, Core.Prog.run_bind]
  unfold handleMessage
  simp only []
  rw [hConfig]
  rfl

/- The end of the stream closes the last file. -/
theorem alone_run_nil
    (h : F.Governs oracle)
    (root : WorkspaceRoot)
    {s : DownloadSession}
    {base : Path}
    (hReceiving : s.Receiving base)
    (st : ServerState) :
    Core.Prog.run (alone i oracle) (run root s []) st =
      ((s.closed, Ending.success),
        { st with store := s.settled F st.store }) := by
  have hRead : (alone i oracle (.read none) st).2 = st :=
    rfl
  unfold run finish
  rw [Core.Prog.run_bind, Core.Prog.run_perform, hRead,
    Core.Prog.run_bind, Core.Prog.run_perform,
    alone_isCancelled h]
  simp only [hReceiving.received, Bool.false_eq_true,
    Bool.true_eq_false, if_false]
  rw [Core.Prog.run_bind, alone_closeCurrentFile h]
  rfl

end DownloadSession

end Drex
