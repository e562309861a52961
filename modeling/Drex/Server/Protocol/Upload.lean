import Drex.Server.Protocol.Phases

/-
  The upload of a submission meets its preconditions: it
  writes in the tree of the key it has locked.

  Key definitions include:
    * `DownloadSession.Ready`
    * `ResolvedTaskPaths.From`
    * `Downloaded`

  Key theorems include:
    * `DownloadSession.wp_handleFileChunk`
    * `DownloadSession.wp_run_received`
    * `DownloadSession.wp_handleConfig`
    * `wp_downloadWorkspace`
-/

------------------------------------------------------------
-- Upload
------------------------------------------------------------

namespace Drex

namespace DownloadSession

/- The session has accepted its config. -/
structure Ready
    (root : WorkspaceRoot)
    (U : Path → Prop)
    (g : SessionView)
    (s : DownloadSession) : Prop where
  received : s.receivedConfig = true
  held :
    g.Held root s.config.workspaceSubdir
      s.config.outputSubdir
  idle : g.running = false
  base : s.paths.workspacePath.Below root
  key :
    (subdirPath root s.config.workspaceSubdir).names =
      s.paths.workspacePath.names
  opens :
    ∀ p, isSubPath s.paths.workspacePath p = true → U p
  outfile :
    ∀ file, s.outfile = some file →
      subdirLoc root s.config.workspaceSubdir <+:
        file.path.loc

/-
  Handling a chunk changes neither the view nor the paths.
-/
structure Kept
    (root : WorkspaceRoot)
    (U : Path → Prop)
    (g : SessionView)
    (s s' : DownloadSession)
    (g' : SessionView) : Prop where
  view : g' = g
  ready : s'.Ready root U g
  paths : s'.paths = s.paths

variable {root : WorkspaceRoot} {R : Prop}
variable {U : Path → Prop}
variable {g : SessionView} {s : DownloadSession}

theorem Kept.of_paths
    {s' t : DownloadSession}
    {g' : SessionView}
    (h : t.Kept root U g s' g')
    (hPaths : t.paths = s.paths) :
    s.Kept root U g s' g' :=
  ⟨h.view, h.ready, h.paths.trans hPaths⟩

/- What is joined below a path below the root is so too. -/
theorem below_lexicallyNormalized
    {base suffix : Path}
    (h : base.Below root)
    (hSub :
      isSubPath base (lexicallyNormalized base suffix) =
        true) :
    (lexicallyNormalized base suffix).Below root := by
  rcases lexicallyNormalized_ordinary suffix h.absolute with
    ⟨hAbsolute, hOrdinary⟩
  have hNames :=
    (names_prefix_of_isSubPath h.absolute hSub).2
  exact ⟨hAbsolute, hOrdinary, h.names.trans hNames⟩

/- A target below the workspace path is in the key's tree. -/
theorem Ready.target
    (h : s.Ready root U g)
    {suffix : Path}
    (hSub :
      isSubPath s.paths.workspacePath
        (lexicallyNormalized s.paths.workspacePath suffix) =
          true) :
    (lexicallyNormalized s.paths.workspacePath
        suffix).Below root ∧
      subdirLoc root s.config.workspaceSubdir <+:
        (lexicallyNormalized s.paths.workspacePath
          suffix).loc := by
  have hBelow := below_lexicallyNormalized h.base hSub
  refine ⟨hBelow, ?_⟩
  rw [subdirLoc_eq, h.key,
    Path.loc_of_ordinary hBelow.ordinary]
  exact
    (names_prefix_of_isSubPath h.base.absolute hSub).2

/- Closing the file leaves the session ready. -/
theorem Ready.closed
    (h : s.Ready root U g) :
    Ready root U g
      { s with outfile := none, currentFilePath := .empty } :=
  { received := h.received
    held := h.held
    idle := h.idle
    base := h.base
    key := h.key
    opens := h.opens
    outfile := by simp }

theorem Ready.opened
    (h : s.Ready root U g)
    {p : Path}
    {offset : Nat}
    (current : Path)
    (hPrefix :
      subdirLoc root s.config.workspaceSubdir <+: p.loc) :
    Ready root U g
      { s with
        outfile := some ⟨p, offset⟩
        currentFilePath := current } :=
  { received := h.received
    held := h.held
    idle := h.idle
    base := h.base
    key := h.key
    opens := h.opens
    outfile := by
      intro file hFile
      rw [← Option.some.inj hFile]
      exact hPrefix }

theorem wp_closeCurrentFile
    (h : s.Ready root U g) :
    Core.Prog.wp sessionAnswers (sessionPre root R U)
      s.closeCurrentFile
      (fun s' g' => g' = g ∧
        s' =
          { s with
            outfile := none
            currentFilePath := .empty })
      g := by
  unfold closeCurrentFile
  cases hFile : s.outfile with
  | none =>
      refine ⟨rfl, ?_⟩
      rw [← hFile]
  | some file =>
      rw [Core.Prog.wp_bind, wp_call]
      refine
        ⟨⟨h.held.sound,
          h.held.permits_file (h.outfile file hFile)⟩, ?_⟩
      intro r _
      exact ⟨rfl, rfl⟩

/- Only the list itself ends where its prefix does. -/
theorem names_eq_of_dropLast
    {base names : List Name}
    (hPrefix : base <+: names)
    (hNot : ¬ base <+: names.dropLast) :
    names = base := by
  rcases hPrefix with ⟨tail, rfl⟩
  cases hTail : tail with
  | nil => simp
  | cons n ns =>
      refine absurd ?_ hNot
      rw [hTail, List.dropLast_append_of_ne_nil (by simp)]
      exact List.prefix_append _ _

/- Only the parent of the root itself is not contained. -/
theorem contained_parentPath
    {target : Path}
    (hBelow : target.Below root) :
    Contained root target.parentPath ∨ target = root.path := by
  have hNames : target.parentPath.names <+: target.names := by
    unfold Path.parentPath
    split
    · exact List.prefix_rfl
    · exact List.dropLast_prefix _
  have hOrdinary :
      ∀ n ∈ target.parentPath.names, n.Ordinary := by
    intro n hn
    exact hBelow.ordinary n (hNames.subset hn)
  have hAbsolute : target.parentPath.absolute = true := by
    unfold Path.parentPath
    split <;> exact hBelow.absolute
  by_cases hPrefix :
      root.path.names <+: target.parentPath.names
  · exact Or.inl
      (contained_of_names hAbsolute hOrdinary hPrefix)
  · refine Or.inr ?_
    cases hSlash : target.slash with
    | true =>
        have hParent :
            target.parentPath.names = target.names := by
          simp [Path.parentPath, hSlash]
        rw [hParent] at hPrefix
        exact absurd hBelow.names hPrefix
    | false =>
        have hParent :
            target.parentPath.names =
              target.names.dropLast := by
          simp [Path.parentPath, hSlash]
        rw [hParent] at hPrefix
        have hEq : target.names = root.path.names :=
          names_eq_of_dropLast hBelow.names hPrefix
        exact Path.ext hBelow.absolute hEq hSlash

/- The parent of a target stays near the key's tree. -/
theorem Ready.permits_parent
    (h : s.Ready root U g)
    {target : Path}
    (hBelow : target.Below root)
    (hLoc :
      subdirLoc root s.config.workspaceSubdir <+: target.loc)
    (hRoot : R) :
    g.Permits root R U
      (.createDirectories target.parentPath) := by
  have hNames : target.parentPath.names <+: target.names := by
    unfold Path.parentPath
    split
    · exact List.prefix_rfl
    · exact List.dropLast_prefix _
  have hOrdinary :
      ∀ n ∈ target.parentPath.names, n.Ordinary := by
    intro n hn
    exact hBelow.ordinary n (hNames.subset hn)
  refine ⟨h.held.locked, h.held.removed, ?_, ?_⟩
  · rw [h.held.guard, Path.loc_of_ordinary hOrdinary]
    rw [Path.loc_of_ordinary hBelow.ordinary] at hLoc
    exact Loc.overlaps_of_prefix hNames hLoc
  · rcases contained_parentPath hBelow with hIn | hTarget
    · exact Or.inl hIn
    · exact Or.inr ⟨hRoot, by rw [hTarget]⟩

theorem wp_openOutputFile
    (h : s.Ready root U g)
    {target : Path}
    (hBelow : target.Below root)
    (hLoc :
      subdirLoc root s.config.workspaceSubdir <+: target.loc)
    (hOpens : U target)
    (hRoot : R) :
    Core.Prog.wp sessionAnswers (sessionPre root R U)
      (s.openOutputFile target)
      (fun result g' => s.Kept root U g result.1 g')
      g := by
  unfold openOutputFile
  rw [Core.Prog.wp_bind]
  refine Core.Prog.wp_mono ?_ (wp_closeCurrentFile h)
  rintro _ _ ⟨rfl, rfl⟩
  have hClosed := h.closed
  rw [Core.Prog.wp_bind, wp_call]
  refine
    ⟨⟨hClosed.held.sound,
      hClosed.permits_parent hBelow hLoc hRoot⟩, ?_⟩
  intro dirError _
  by_cases hError : dirError.isSome
  · rw [if_pos hError]
    exact ⟨rfl, hClosed, rfl⟩
  · rw [if_neg hError, Core.Prog.wp_bind, wp_call]
    refine
      ⟨⟨hClosed.held.sound,
        hClosed.held.permits_open hBelow hLoc hOpens⟩, ?_⟩
    intro isOpen _
    cases isOpen with
    | true => exact ⟨rfl, h.opened target hLoc, rfl⟩
    | false => exact ⟨rfl, hClosed, rfl⟩

theorem wp_ensureOutputFile
    (h : s.Ready root U g)
    {target : Path}
    (fileStart : Bool)
    (hBelow : target.Below root)
    (hLoc :
      subdirLoc root s.config.workspaceSubdir <+: target.loc)
    (hOpens : U target)
    (hRoot : R) :
    Core.Prog.wp sessionAnswers (sessionPre root R U)
      (s.ensureOutputFile target fileStart)
      (fun result g' => s.Kept root U g result.1 g')
      g := by
  unfold ensureOutputFile
  by_cases hNeed : s.needNewFile target fileStart
  · rw [if_pos hNeed]
    exact wp_openOutputFile h hBelow hLoc hOpens hRoot
  · rw [if_neg hNeed]
    exact ⟨rfl, h, rfl⟩

theorem wp_writeData
    (h : s.Ready root U g)
    (data : Bytes) :
    Core.Prog.wp sessionAnswers (sessionPre root R U)
      (s.writeData data)
      (fun result g' => s.Kept root U g result.1 g')
      g := by
  unfold writeData
  cases hFile : s.outfile with
  | none => exact ⟨rfl, h, rfl⟩
  | some file =>
      have hPrefix := h.outfile file hFile
      rw [Core.Prog.wp_bind, wp_call]
      refine
        ⟨⟨h.held.sound, h.held.permits_file hPrefix⟩, ?_⟩
      intro good _
      cases good with
      | true =>
          exact
            ⟨rfl, h.opened s.currentFilePath hPrefix, rfl⟩
      | false => exact ⟨rfl, h, rfl⟩

theorem wp_writeChunkData
    (h : s.Ready root U g)
    (data : Bytes) :
    Core.Prog.wp sessionAnswers (sessionPre root R U)
      (s.writeChunkData data)
      (fun result g' => s.Kept root U g result.1 g')
      g := by
  unfold writeChunkData
  by_cases hData : data = []
  · rw [if_pos hData]
    exact ⟨rfl, h, rfl⟩
  · rw [if_neg hData]
    exact wp_writeData h data

theorem wp_storeChunk
    (h : s.Ready root U g)
    (chunk : TaskFileChunk) :
    Core.Prog.wp sessionAnswers (sessionPre root R U)
      (s.storeChunk chunk)
      (fun result g' => s.Kept root U g result.1 g')
      g := by
  unfold storeChunk
  rw [Core.Prog.wp_bind]
  refine Core.Prog.wp_mono ?_
    (wp_writeChunkData h chunk.data)
  rintro ⟨s', status⟩ _ ⟨rfl, hReady, hPaths⟩
  by_cases hOk : status.isOk
  · by_cases hEnd : chunk.fileEnd
    · simp only [hOk, hEnd, if_true]
      rw [Core.Prog.wp_bind]
      refine Core.Prog.wp_mono ?_ (wp_closeCurrentFile hReady)
      rintro _ _ ⟨rfl, rfl⟩
      exact ⟨rfl, hReady.closed, hPaths⟩
    · simp only [hOk, hEnd, if_true]
      exact ⟨rfl, hReady, hPaths⟩
  · simp only [hOk]
    exact ⟨rfl, hReady, hPaths⟩

/- A chunk keeps the session ready. -/
theorem wp_handleFileChunk
    (h : s.Ready root U g)
    (chunk : TaskFileChunk)
    (hRoot : R) :
    Core.Prog.wp sessionAnswers (sessionPre root R U)
      (s.handleFileChunk chunk)
      (fun result g' => s.Kept root U g result.1 g')
      g := by
  unfold handleFileChunk
  simp only [h.received, Bool.true_eq_false, if_false]
  by_cases hEmpty : chunk.relativePath = []
  · rw [if_pos hEmpty]
    exact ⟨rfl, h, rfl⟩
  · rw [if_neg hEmpty]
    cases hSub :
        isSubPath s.paths.workspacePath
          (targetPath s.paths.workspacePath chunk) with
    | false => exact ⟨rfl, h, rfl⟩
    | true =>
        rcases h.target hSub with ⟨hBelow, hLoc⟩
        simp only [Bool.true_eq_false, if_false]
        rw [Core.Prog.wp_bind]
        refine Core.Prog.wp_mono ?_
          (wp_ensureOutputFile h chunk.fileStart hBelow hLoc
            (h.opens _ hSub) hRoot)
        rintro ⟨s', status⟩ _ ⟨rfl, hReady, hPaths⟩
        by_cases hOk : status.isOk
        · simp only [hOk, if_true]
          refine Core.Prog.wp_mono ?_
            (wp_storeChunk hReady chunk)
          intro result g' hKept
          exact hKept.of_paths hPaths
        · simp only [hOk]
          exact ⟨rfl, hReady, hPaths⟩

/- Any message keeps an accepted config. -/
theorem wp_handleMessage
    (h : s.Ready root U g)
    (message : TaskRequest)
    (hRoot : R) :
    Core.Prog.wp sessionAnswers (sessionPre root R U)
      (s.handleMessage root message)
      (fun result g' => s.Kept root U g result.1 g')
      g := by
  cases message with
  | config config =>
      unfold handleMessage handleConfig
      simp only [h.received, if_true]
      exact ⟨rfl, h, rfl⟩
  | missing => exact ⟨rfl, h, rfl⟩
  | fileChunk chunk =>
      unfold handleMessage
      rw [Core.Prog.wp_bind]
      exact
        Core.Prog.wp_mono (fun _ _ hKept => hKept)
          (wp_handleFileChunk h chunk hRoot)

theorem wp_finish
    (h : s.Ready root U g) :
    Core.Prog.wp sessionAnswers (sessionPre root R U)
      s.finish
      (fun result g' => s.Kept root U g result.1 g')
      g := by
  unfold finish
  rw [Core.Prog.wp_bind, wp_call]
  refine ⟨⟨h.held.sound, trivial⟩, ?_⟩
  intro isCancelled _
  cases isCancelled with
  | true => exact ⟨rfl, h, rfl⟩
  | false =>
      simp only [h.received, Bool.true_eq_false,
        Bool.false_eq_true, if_false]
      rw [Core.Prog.wp_bind]
      refine Core.Prog.wp_mono ?_ (wp_closeCurrentFile h)
      rintro _ _ ⟨rfl, rfl⟩
      exact ⟨rfl, h.closed, rfl⟩

/- Once the config is accepted, the rest keeps it so. -/
theorem wp_run_received
    (messages : List TaskRequest)
    (h : s.Ready root U g)
    (hRoot : R) :
    Core.Prog.wp sessionAnswers (sessionPre root R U)
      (run root s messages)
      (fun result g' => s.Kept root U g result.1 g')
      g := by
  induction messages generalizing s with
  | nil =>
      unfold run
      rw [Core.Prog.wp_bind, wp_call]
      exact
        ⟨⟨h.held.sound, trivial⟩, fun _ _ => wp_finish h⟩
  | cons message messages ih =>
      unfold run
      rw [Core.Prog.wp_bind, wp_call]
      refine ⟨⟨h.held.sound, trivial⟩, ?_⟩
      intro _ _
      rw [Core.Prog.wp_bind, wp_call]
      refine ⟨⟨h.held.sound, trivial⟩, ?_⟩
      intro isCancelled _
      cases isCancelled with
      | true => exact ⟨rfl, h, rfl⟩
      | false =>
          simp only [Bool.false_eq_true, if_false]
          rw [Core.Prog.wp_bind]
          refine Core.Prog.wp_mono ?_
            (wp_handleMessage h message hRoot)
          rintro ⟨s', ending⟩ _ ⟨rfl, hReady, hPaths⟩
          cases hOk : ending.isOk with
          | false =>
              simp only [Bool.false_eq_true, if_false]
              exact ⟨rfl, hReady, hPaths⟩
          | true =>
              simp only [if_true]
              refine Core.Prog.wp_mono ?_ (ih hReady)
              intro result g' hKept
              exact hKept.of_paths hPaths

end DownloadSession

end Drex

------------------------------------------------------------
-- Config And Download
------------------------------------------------------------

namespace Drex

variable {root : WorkspaceRoot} {R : Prop}
variable {U : Path → Prop} {g : SessionView}

/- What `ResolveTaskPaths` says of the paths it accepts. -/
structure ResolvedTaskPaths.From
    (paths : ResolvedTaskPaths)
    (root : WorkspaceRoot)
    (config : TaskConfig) : Prop where
  path :
    paths.workspacePath = resolvedWorkspacePath root config
  base : paths.workspacePath.Below root
  key :
    (subdirPath root paths.workspaceSubdir).names =
      paths.workspacePath.names
  nonempty : paths.workspaceSubdir ≠ []
  keyBelow : (subdirPath root paths.workspaceSubdir).Below root
  outputBelow :
    (subdirPath root paths.outputSubdir).Below root

/- `ResolveTaskPaths` succeeds on a config or fails. -/
def Resolves
    (root : WorkspaceRoot)
    (config : TaskConfig) :
    Except Ending ResolvedTaskPaths → Prop
| .ok paths => paths.From root config
| .error ending => ending.isOk = false

/- A relative name of a path below the root is below it. -/
theorem subdirPath_below
    {p : Path}
    (isThere : Bool)
    (h : p.Below root) :
    (subdirPath root
      (relativeSubdir root isThere p)).Below root := by
  rcases subdirPath_ordinary root
      (relativeSubdir root isThere p) with
    ⟨hAbsolute, hOrdinary⟩
  refine ⟨hAbsolute, hOrdinary, ?_⟩
  rw [(subdirPath_relativeSubdir isThere h).1]
  exact h.names

theorem wp_fsRelative
    (h : g.Sound)
    (p : Path) :
    Core.Prog.wp sessionAnswers (sessionPre root R U)
      (fsRelative root p)
      (fun result g' => g' = g ∧
        ∀ subdir, result = some subdir →
          ∃ isThere, subdir = relativeSubdir root isThere p)
      g := by
  unfold fsRelative
  rw [Core.Prog.wp_bind, wp_call]
  refine ⟨⟨h, trivial⟩, ?_⟩
  intro pathFound _
  rw [Core.Prog.wp_bind, wp_call]
  refine ⟨⟨h, trivial⟩, ?_⟩
  intro rootFound _
  by_cases hError :
      pathFound = Existence.error ∨ rootFound = .error
  · rw [if_pos hError]
    exact ⟨rfl, fun subdir hSubdir => nomatch hSubdir⟩
  · rw [if_neg hError]
    refine ⟨rfl, ?_⟩
    intro subdir hSubdir
    exact ⟨_, (Option.some.inj hSubdir).symm⟩

theorem wp_resolveTaskPaths
    (h : g.Sound)
    (config : TaskConfig) :
    Core.Prog.wp sessionAnswers (sessionPre root R U)
      (resolveTaskPaths root config)
      (fun result g' => g' = g ∧ Resolves root config result)
      g := by
  unfold resolveTaskPaths
  by_cases hStays : staysInRoot root config = true
  · rw [if_pos hStays]
    have hBoth := hStays
    unfold staysInRoot at hBoth
    rw [Bool.and_eq_true] at hBoth
    have hWorkspace :
        (resolvedWorkspacePath root config).Below root :=
      below_of_isSubPath rfl hBoth.1
    have hOutput :
        (resolvedOutputPath root config).Below root :=
      below_of_isSubPath rfl hBoth.2
    rw [Core.Prog.wp_bind]
    refine Core.Prog.wp_mono ?_ (wp_fsRelative h _)
    rintro workspaceSubdir _ ⟨rfl, hKey⟩
    rw [Core.Prog.wp_bind]
    refine Core.Prog.wp_mono ?_ (wp_fsRelative h _)
    rintro outputSubdir _ ⟨rfl, hOut⟩
    rcases workspaceSubdir with _ | workspaceSubdir
    · exact ⟨rfl, rfl⟩
    · rcases outputSubdir with _ | outputSubdir
      · exact ⟨rfl, rfl⟩
      · rcases hKey workspaceSubdir rfl with
          ⟨keyThere, rfl⟩
        rcases hOut outputSubdir rfl with ⟨outThere, rfl⟩
        refine ⟨rfl, ?_⟩
        rcases subdirPath_relativeSubdir keyThere hWorkspace
          with ⟨hNames, hNonempty⟩
        exact
          { path := rfl
            base := hWorkspace
            key := hNames
            nonempty := hNonempty
            keyBelow := subdirPath_below keyThere hWorkspace
            outputBelow := subdirPath_below outThere hOutput }
  · rw [if_neg hStays]
    exact ⟨rfl, rfl⟩

namespace DownloadSession

variable {s : DownloadSession}

/- The first config locks its key or leaves nothing behind. -/
theorem wp_handleConfig
    (hUnheld : g.Unheld)
    (hRefused : g.refused = false)
    (hReceived : s.receivedConfig = false)
    (hFile : s.outfile = none)
    (config : TaskConfig)
    (hOpens :
      ∀ p,
        isSubPath (resolvedWorkspacePath root config) p =
            true →
          U p) :
    Core.Prog.wp sessionAnswers (sessionPre root R U)
      (s.handleConfig root config)
      (fun result g' =>
        (result.2.isOk = true →
          result.1.Ready root U g') ∧
        (result.2.isOk = false →
          g'.Unheld ∧ result.1.outfile = none))
      g := by
  unfold handleConfig
  simp only [hReceived, Bool.false_eq_true, if_false]
  rw [Core.Prog.wp_bind]
  refine Core.Prog.wp_mono ?_
    (wp_resolveTaskPaths hUnheld.sound config)
  rintro resolved _ ⟨rfl, hResolves⟩
  rcases resolved with ending | paths
  · refine ⟨fun hOk => ?_, fun _ => ⟨hUnheld, hFile⟩⟩
    rw [show ending.isOk = false from hResolves] at hOk
    cases hOk
  · have hFrom : paths.From root config := hResolves
    simp only []
    rw [Core.Prog.wp_bind, wp_call]
    refine
      ⟨⟨hUnheld.sound, hUnheld, hRefused,
        hFrom.keyBelow⟩, ?_⟩
    intro lockStatus _
    cases hOk : lockStatus.isOk with
    | false =>
        simp only [Bool.false_eq_true, if_false]
        rw [SessionView.after_refused hOk]
        refine ⟨fun hEnding => ?_, fun _ => ⟨?_, hFile⟩⟩
        · rw [show Ending.isOk (.status lockStatus) = false
            from hOk] at hEnding
          cases hEnding
        · exact
            ⟨hUnheld.guard, hUnheld.running,
              hUnheld.removed, hUnheld.released⟩
    | true =>
        simp only [if_true]
        rw [SessionView.after_acquired hOk, Core.Prog.wp_bind,
          wp_call]
        refine ⟨⟨?_, rfl, rfl⟩, ?_⟩
        · exact
            { refused := fun h => by simp [hRefused] at h
              running := fun _ => ⟨rfl, hUnheld.removed⟩ }
        · intro _ _
          refine ⟨fun _ => ?_, fun hEnding => nomatch hEnding⟩
          exact
            { received := rfl
              held :=
                { guard := by
                    simp [SessionView.after,
                      WorkspaceLockGuard.registerCleanupTargets]
                  removed := hUnheld.removed
                  refused := hRefused
                  released := hUnheld.released
                  nonempty := hFrom.nonempty
                  keyBelow := hFrom.keyBelow
                  outputBelow := hFrom.outputBelow }
              idle := hUnheld.running
              base := hFrom.base
              key := hFrom.key
              opens := by
                intro p hSub
                apply hOpens p
                rw [← hFrom.path]
                exact hSub
              outfile := by
                intro file hSome
                rw [hFile] at hSome
                cases hSome }

/- A session that ended: it holds its key, or has none. -/
def Settled
    (root : WorkspaceRoot)
    (U : Path → Prop)
    (result : DownloadSession × Ending)
    (g : SessionView) : Prop :=
  result.1.Ready root U g ∨
    (g.Unheld ∧ result.1.outfile = none ∧
      result.2.isOk = false)

/- The whole stream, from a new session. -/
theorem wp_run
    (hUnheld : g.Unheld)
    (hRefused : g.refused = false)
    (messages : List TaskRequest)
    (hRoot : R)
    (hOpens :
      ∀ config rest p,
        messages = .config config :: rest →
          isSubPath (resolvedWorkspacePath root config) p =
              true →
            U p) :
    Core.Prog.wp sessionAnswers (sessionPre root R U)
      (run root .init messages)
      (Settled root U)
      g := by
  cases messages with
  | nil =>
      unfold run finish
      rw [Core.Prog.wp_bind, wp_call]
      refine ⟨⟨hUnheld.sound, trivial⟩, fun _ _ => ?_⟩
      rw [Core.Prog.wp_bind, wp_call]
      refine ⟨⟨hUnheld.sound, trivial⟩, ?_⟩
      intro isCancelled _
      cases isCancelled with
      | true => exact Or.inr ⟨hUnheld, rfl, rfl⟩
      | false => exact Or.inr ⟨hUnheld, rfl, rfl⟩
  | cons message rest =>
      unfold run
      rw [Core.Prog.wp_bind, wp_call]
      refine ⟨⟨hUnheld.sound, trivial⟩, fun _ _ => ?_⟩
      rw [Core.Prog.wp_bind, wp_call]
      refine ⟨⟨hUnheld.sound, trivial⟩, ?_⟩
      intro isCancelled _
      cases isCancelled with
      | true => exact Or.inr ⟨hUnheld, rfl, rfl⟩
      | false =>
          simp only [Bool.false_eq_true, if_false]
          rw [Core.Prog.wp_bind]
          cases message with
          | missing => exact Or.inr ⟨hUnheld, rfl, rfl⟩
          | fileChunk chunk =>
              exact Or.inr ⟨hUnheld, rfl, rfl⟩
          | config config =>
              refine Core.Prog.wp_mono ?_
                (wp_handleConfig hUnheld hRefused rfl rfl
                  config
                  (fun p => hOpens config rest p rfl))
              rintro ⟨s', ending⟩ g' ⟨hReady, hFailed⟩
              cases hOk : ending.isOk with
              | false =>
                  simp only [Bool.false_eq_true, if_false]
                  rcases hFailed hOk with ⟨hView, hFile⟩
                  exact Or.inr ⟨hView, hFile, hOk⟩
              | true =>
                  simp only [if_true]
                  refine Core.Prog.wp_mono ?_
                    (wp_run_received rest (hReady hOk) hRoot)
                  rintro result _ ⟨rfl, hKept, _⟩
                  exact Or.inl hKept

end DownloadSession

/- What `DownloadWorkspace` leaves behind. -/
def Downloaded
    (root : WorkspaceRoot)
    (config : TaskConfig)
    (ending : Ending)
    (g : SessionView) : Prop :=
  (g.Held root config.workspaceSubdir config.outputSubdir ∧
      g.running = false) ∨
    (g.Unheld ∧ ending.isOk = false)

/- The download, with the destructor of the session. -/
theorem wp_downloadWorkspace
    (hUnheld : g.Unheld)
    (hRefused : g.refused = false)
    (messages : List TaskRequest)
    (hRoot : R)
    (hOpens :
      ∀ config rest p,
        messages = .config config :: rest →
          isSubPath (resolvedWorkspacePath root config) p =
              true →
            U p) :
    Core.Prog.wp sessionAnswers (sessionPre root R U)
      (downloadWorkspace root messages)
      (fun result g' =>
        Downloaded root result.1 result.2 g')
      g := by
  unfold downloadWorkspace
  rw [Core.Prog.wp_bind]
  refine Core.Prog.wp_mono ?_
    (DownloadSession.wp_run hUnheld hRefused messages
      hRoot hOpens)
  rintro ⟨s, ending⟩ g' (hReady | ⟨hView, hFile, hOk⟩)
  · rw [Core.Prog.wp_bind]
    refine Core.Prog.wp_mono ?_
      (DownloadSession.wp_closeCurrentFile hReady)
    rintro _ _ ⟨rfl, rfl⟩
    exact Or.inl ⟨hReady.held, hReady.idle⟩
  · have hClose :
        s.closeCurrentFile =
          pure { s with currentFilePath := .empty } := by
      unfold DownloadSession.closeCurrentFile
      rw [show s.outfile = none from hFile]
    simp only [hClose]
    exact Or.inr ⟨hView, hOk⟩

end Drex
