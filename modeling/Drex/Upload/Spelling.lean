import Drex.Server.Sessions
import Drex.Upload.Workspace

/-
  The spellings of a workspace subdirectory: the key they
  resolve to, and the chunks that are accepted below them.

  Key definitions include:
    * `placeOf`
    * `CanonicalKeys`
    * `spelledApart`
    * `DownloadSession.Accepted`
    * `ServesPath`

  Key theorems include:
    * `relativeSubdir_eq_iff`
    * `canonicalKeys_iff`
    * `servesPath_iff`
-/

------------------------------------------------------------
-- Places Of Subdirectories
------------------------------------------------------------

namespace Drex

/- The place a string names under the workspace root. -/
def placeOf (root : WorkspaceRoot) (subdir : Str) : Loc :=
  (root.path / Path.ofString subdir).place

/- The place of the root itself. -/
def WorkspaceRoot.place (root : WorkspaceRoot) : Loc :=
  root.path.names

theorem subdirPath_names
    (root : WorkspaceRoot)
    (subdir : Str) :
    (subdirPath root subdir).names = placeOf root subdir :=
  Path.lexicallyNormal_names (Path.append_absolute _ rfl)

theorem resolvedWorkspacePath_names
    (root : WorkspaceRoot)
    (config : TaskConfig) :
    (resolvedWorkspacePath root config).names =
      placeOf root (requestedSubdir config) :=
  subdirPath_names root (requestedSubdir config)

/- An accepted config asks for a place below the root. -/
theorem resolvedWorkspacePath_below
    {root : WorkspaceRoot}
    {config : TaskConfig}
    (hStays : staysInRoot root config = true) :
    (resolvedWorkspacePath root config).Below root :=
  below_of_isSubPath rfl
    ((staysInRoot_iff root config).mp hStays).1

/- A key names the place of the string it comes from. -/
theorem placeOf_relativeSubdir
    {root : WorkspaceRoot}
    {config : TaskConfig}
    (isThere : Bool)
    (hStays : staysInRoot root config = true) :
    placeOf root
        (relativeSubdir root isThere
          (resolvedWorkspacePath root config)) =
      placeOf root (requestedSubdir config) := by
  have hBelow := resolvedWorkspacePath_below hStays
  rw [← subdirPath_names,
    (subdirPath_relativeSubdir isThere hBelow).1]
  exact resolvedWorkspacePath_names root config

end Drex

------------------------------------------------------------
-- Keys
------------------------------------------------------------

namespace Drex

/- The separator at the end of a key survives. -/
def keepsSlash (isThere : Bool) (p : Path) : Bool :=
  p.slash && !isThere

/-
  The key of a path below the root spells the rest of its
  names, with a last separator only where nothing is there.
-/
theorem ofString_relativeSubdir_eq
    {root : WorkspaceRoot}
    {p : Path}
    (isThere : Bool)
    (h : p.Below root)
    {tail : List Name}
    (hTail : root.path.names ++ tail = p.names) :
    Path.ofString (relativeSubdir root isThere p) =
      if hNil : tail = [] then
        Path.ofName .dot
      else
        ⟨false, tail, keepsSlash isThere p,
          fun _ => hNil⟩ := by
  have hForm :
      (if isThere then p.canonical else p) =
        ⟨true, p.names, keepsSlash isThere p,
          fun _ => by
            simp [← hTail, root.path_names_ne_nil]⟩ := by
    cases isThere with
    | true =>
        rw [if_pos rfl,
          canonical_of_ordinary h.absolute h.ordinary]
        apply Path.ext <;> simp [keepsSlash]
    | false =>
        apply Path.ext <;> simp [h.absolute, keepsSlash]
  unfold relativeSubdir
  simp only [Path.ofString_toString]
  rw [hForm]
  exact
    Path.lexicallyRelative_of_prefix
      (p := ⟨true, p.names, _, _⟩) rfl rfl hTail.symm

/- A key is the spelling of the path it is read as. -/
theorem toString_ofString_relativeSubdir
    (root : WorkspaceRoot)
    (isThere : Bool)
    (p : Path) :
    (Path.ofString
      (relativeSubdir root isThere p)).toString =
        relativeSubdir root isThere p := by
  unfold relativeSubdir
  rw [Path.ofString_toString]

/-
  Two paths below the root have one key if and only if they
  have one place and agree on the last separator, which the
  root itself has none of.
-/
theorem relativeSubdir_eq_iff
    {root : WorkspaceRoot}
    {p q : Path}
    (hp : p.Below root)
    (hq : q.Below root)
    (pThere qThere : Bool) :
    relativeSubdir root pThere p =
        relativeSubdir root qThere q ↔
      p.names = q.names ∧
        (p.names = root.place ∨
          keepsSlash pThere p = keepsSlash qThere q) := by
  rcases hp.names with ⟨pTail, hpTail⟩
  rcases hq.names with ⟨qTail, hqTail⟩
  have hpKey := ofString_relativeSubdir_eq pThere hp hpTail
  have hqKey := ofString_relativeSubdir_eq qThere hq hqTail
  have hRootTail : p.names = root.place ↔ pTail = [] := by
    rw [← hpTail]
    simp [WorkspaceRoot.place]
  constructor
  · intro hEq
    have hNames :=
      (subdirPath_relativeSubdir pThere hp).1.symm.trans
        (hEq ▸ (subdirPath_relativeSubdir qThere hq).1)
    have hTails : pTail = qTail := by
      rw [← hpTail, ← hqTail] at hNames
      exact List.append_cancel_left hNames
    refine ⟨hNames, ?_⟩
    rw [hRootTail]
    by_cases hNil : pTail = []
    · exact Or.inl hNil
    · right
      have hPaths := hpKey.symm.trans (hEq ▸ hqKey)
      rw [dif_neg hNil, dif_neg (hTails ▸ hNil)] at hPaths
      exact congrArg Path.slash hPaths
  · rintro ⟨hNames, hLast⟩
    have hTails : pTail = qTail := by
      rw [← hpTail, ← hqTail] at hNames
      exact List.append_cancel_left hNames
    rw [hRootTail] at hLast
    have hPaths :
        Path.ofString (relativeSubdir root pThere p) =
          Path.ofString (relativeSubdir root qThere q) := by
      rw [hpKey, hqKey]
      by_cases hNil : pTail = []
      · rw [dif_pos hNil, dif_pos (hTails ▸ hNil)]
      · rw [dif_neg hNil, dif_neg (hTails ▸ hNil)]
        have hSlash := hLast.resolve_left hNil
        apply Path.ext
        · rfl
        · exact hTails
        · exact hSlash
    rw [← toString_ofString_relativeSubdir root pThere p,
      ← toString_ofString_relativeSubdir root qThere q,
      hPaths]

end Drex

------------------------------------------------------------
-- One Key For One Directory
------------------------------------------------------------

namespace Drex

variable {oracle : ServerOracle}

/- A last separator survives where no directory is. -/
theorem keepsSlash_isThere
    (store : Store)
    {p : Path}
    (hOrdinary : ∀ n ∈ p.names, n.Ordinary) :
    keepsSlash (store.isThere p) p = true ↔
      p.slash = true ∧
        store.node p.names ≠ some .directory := by
  have hLoc := Path.loc_of_ordinary hOrdinary
  unfold keepsSlash Store.isThere Store.tryStatus
  rw [hLoc]
  cases hSlash : p.slash with
  | false => simp
  | true =>
      cases hNode : store.node p.names with
      | none => simp
      | some node =>
          cases node with
          | directory => simp
          | file data => simp

/- What `ResolveTaskPaths` returns, run on a disk. -/
def resolveOn
    (i : Nat)
    (oracle : ServerOracle)
    (root : WorkspaceRoot)
    (config : TaskConfig)
    (st : ServerState) :
    Except Ending ResolvedTaskPaths :=
  (Core.Prog.run (alone i oracle)
    (resolveTaskPaths root config) st).1

/- An accepted config resolves to paths inside the root. -/
theorem resolveOn_ok
    (hStatus : StatusAnswers oracle)
    {i : Nat}
    {root : WorkspaceRoot}
    {config : TaskConfig}
    {st : ServerState}
    {paths : ResolvedTaskPaths}
    (h : resolveOn i oracle root config st = .ok paths) :
    staysInRoot root config = true ∧
      paths = resolvedPaths root config st.store := by
  unfold resolveOn at h
  rw [alone_resolveTaskPaths hStatus] at h
  by_cases hStays : staysInRoot root config = true
  · simp only [hStays, if_true] at h
    exact ⟨hStays, (Except.ok.inj h).symm⟩
  · simp only [hStays] at h
    cases h

/-
  Two configs have one key exactly if their strings name one
  directory, and each key names the directory of its string.
-/
def CanonicalKeys
    (root : WorkspaceRoot)
    (a b : TaskConfig)
    (pathsA pathsB : ResolvedTaskPaths) : Prop :=
  (pathsA.workspaceSubdir = pathsB.workspaceSubdir ↔
      placeOf root (requestedSubdir a) =
        placeOf root (requestedSubdir b)) ∧
    placeOf root pathsA.workspaceSubdir =
        placeOf root (requestedSubdir a) ∧
      placeOf root pathsB.workspaceSubdir =
        placeOf root (requestedSubdir b)

/-
  The normal forms of two strings name one place other than
  the root, where no directory is, and just one of them ends
  in a separator.
-/
def spelledApart
    (root : WorkspaceRoot)
    (store : Store)
    (a b : TaskConfig) : Prop :=
  placeOf root (requestedSubdir a) =
      placeOf root (requestedSubdir b) ∧
    placeOf root (requestedSubdir a) ≠ root.place ∧
      store.node (placeOf root (requestedSubdir a)) ≠
          some .directory ∧
        (resolvedWorkspacePath root a).slash ≠
          (resolvedWorkspacePath root b).slash

instance
    (root : WorkspaceRoot)
    (store : Store)
    (a b : TaskConfig) :
    Decidable (spelledApart root store a b) := by
  unfold spelledApart
  infer_instance

/-
  On every disk, the keys of two accepted configs are
  canonical unless their strings are spelled apart.  The
  strings have no U+0000, where the disk would stop reading.
-/
theorem canonicalKeys_iff
    (hStatus : StatusAnswers oracle)
    {i : Nat}
    {root : WorkspaceRoot}
    {a b : TaskConfig}
    (_hNulA : NulFree a.workspaceSubdir)
    (_hNulB : NulFree b.workspaceSubdir)
    {st : ServerState}
    {pathsA pathsB : ResolvedTaskPaths}
    (hA : resolveOn i oracle root a st = .ok pathsA)
    (hB : resolveOn i oracle root b st = .ok pathsB) :
    CanonicalKeys root a b pathsA pathsB ↔
      ¬ spelledApart root st.store a b := by
  rcases resolveOn_ok hStatus hA with ⟨hStaysA, rfl⟩
  rcases resolveOn_ok hStatus hB with ⟨hStaysB, rfl⟩
  have hBelowA := resolvedWorkspacePath_below hStaysA
  have hBelowB := resolvedWorkspacePath_below hStaysB
  have hKeys :=
    relativeSubdir_eq_iff hBelowA hBelowB
      (st.store.isThere (resolvedWorkspacePath root a))
      (st.store.isThere (resolvedWorkspacePath root b))
  have hKeepA :=
    keepsSlash_isThere st.store hBelowA.ordinary
  have hKeepB :=
    keepsSlash_isThere st.store hBelowB.ordinary
  rw [resolvedWorkspacePath_names] at hKeys hKeepA
  rw [resolvedWorkspacePath_names] at hKeys hKeepB
  have hPlaceA :=
    placeOf_relativeSubdir
      (st.store.isThere (resolvedWorkspacePath root a))
      hStaysA
  have hPlaceB :=
    placeOf_relativeSubdir
      (st.store.isThere (resolvedWorkspacePath root b))
      hStaysB
  unfold CanonicalKeys
  simp only [resolvedPaths, hPlaceA, hPlaceB, and_self,
    and_true]
  rw [hKeys]
  unfold spelledApart
  constructor
  · rintro hIff ⟨hSame, hNotRoot, hNoDirectory, hSlash⟩
    rcases (hIff.mpr hSame).2 with hRoot | hKeep
    · exact hNotRoot hRoot
    · apply hSlash
      rw [Bool.eq_iff_iff, hKeepA, hKeepB, ← hSame] at hKeep
      simp only [hNoDirectory, ne_eq, not_false_eq_true,
        and_true] at hKeep
      exact Bool.eq_iff_iff.mpr hKeep
  · intro hNotApart
    constructor
    · exact And.left
    · intro hSame
      refine ⟨hSame, ?_⟩
      by_cases hRoot :
          placeOf root (requestedSubdir a) = root.place
      · exact Or.inl hRoot
      · right
        rw [Bool.eq_iff_iff, hKeepA, hKeepB, ← hSame]
        by_cases hDirectory :
            st.store.node
                (placeOf root (requestedSubdir a)) =
              some .directory
        · simp [hDirectory]
        · have hSlash :
              (resolvedWorkspacePath root a).slash =
                (resolvedWorkspacePath root b).slash := by
            by_contra hNe
            exact
              hNotApart ⟨hSame, hRoot, hDirectory, hNe⟩
          rw [hSlash]

/- No status is undetermined where every call succeeds. -/
theorem granting_statusAnswers :
    StatusAnswers (fun _ _ => Env.granting) := by
  intro p s hError
  cases hError

/- What a config resolves to on the small server. -/
theorem resolveOn_small
    {config : TaskConfig}
    (hStays : staysInRoot smallRoot config = true) :
    resolveOn 0 (fun _ _ => Env.granting) smallRoot config
        (ServerState.init smallStore) =
      .ok (resolvedPaths smallRoot config smallStore) := by
  unfold resolveOn
  rw [alone_resolveTaskPaths granting_statusAnswers,
    if_pos hStays]
  rfl

/- Two spellings without a last separator have one key. -/
theorem canonicalKeys_small :
    CanonicalKeys smallRoot (smallConfig "x")
      (smallConfig "./x")
      (resolvedPaths smallRoot (smallConfig "x") smallStore)
      (resolvedPaths smallRoot (smallConfig "./x")
        smallStore) := by
  have hStaysA :
      staysInRoot smallRoot (smallConfig "x") = true := by
    decide +kernel
  have hStaysB :
      staysInRoot smallRoot (smallConfig "./x") = true := by
    decide +kernel
  have hA := resolveOn_small hStaysA
  have hB := resolveOn_small hStaysB
  rw [canonicalKeys_iff granting_statusAnswers (by decide)
    (by decide) hA hB]
  decide +kernel

/- With a separator at its end, `x` has a key of its own. -/
theorem slashSpelling_not_canonical :
    StatusAnswers (fun _ _ => Env.granting) ∧
      resolveOn 0 (fun _ _ => Env.granting) smallRoot
          (smallConfig "x") (ServerState.init smallStore) =
        .ok
          (resolvedPaths smallRoot (smallConfig "x")
            smallStore) ∧
      resolveOn 0 (fun _ _ => Env.granting) smallRoot
          (smallConfig "x/") (ServerState.init smallStore) =
        .ok
          (resolvedPaths smallRoot (smallConfig "x/")
            smallStore) ∧
      ¬ CanonicalKeys smallRoot (smallConfig "x")
        (smallConfig "x/")
        (resolvedPaths smallRoot (smallConfig "x")
          smallStore)
        (resolvedPaths smallRoot (smallConfig "x/")
          smallStore) := by
  refine
    ⟨granting_statusAnswers,
      resolveOn_small (by decide +kernel),
      resolveOn_small (by decide +kernel), ?_⟩
  unfold CanonicalKeys
  decide +kernel

end Drex

------------------------------------------------------------
-- The Session After Its Config
------------------------------------------------------------

namespace Drex

/- The environment may answer anything. -/
def anyAnswer : (op : ServerOp) → Resp op → Prop :=
  fun _ _ => True

namespace DownloadSession

/-
  The session has accepted this config: it resolved inside
  the root, and the session goes by what it resolved to.
-/
structure Accepted
    (root : WorkspaceRoot)
    (config : TaskConfig)
    (s : DownloadSession) : Prop where
  stays : staysInRoot root config = true
  receiving :
    s.Receiving (resolvedWorkspacePath root config)
  key :
    ∃ isThere,
      s.config.workspaceSubdir =
        relativeSubdir root isThere
          (resolvedWorkspacePath root config)

/- A relative name is one of the two forms of the path. -/
theorem wp_fsRelative_form
    (root : WorkspaceRoot)
    (p : Path) :
    Core.Prog.wp (Core.Prog.allowing anyAnswer)
      (fun _ _ => True) (fsRelative root p)
      (fun subdir _ => ∀ key, subdir = some key →
        ∃ isThere, key = relativeSubdir root isThere p)
      () := by
  unfold fsRelative
  rw [Core.Prog.wp_call_bind]
  refine ⟨trivial, fun pathFound _ _ => ?_⟩
  rw [Core.Prog.wp_call_bind]
  refine ⟨trivial, fun rootFound _ _ => ?_⟩
  split
  · intro key hKey
    cases hKey
  · intro key hKey
    exact ⟨_, (Option.some.inj hKey).symm⟩

/- `HandleConfig` accepts only what resolves in the root. -/
theorem wp_handleConfig_accepted
    (root : WorkspaceRoot)
    (config : TaskConfig) :
    Core.Prog.wp (Core.Prog.allowing anyAnswer)
      (fun _ _ => True) (init.handleConfig root config)
      (fun r _ => r.2.isOk = true →
        r.1.Accepted root config)
      () := by
  unfold handleConfig resolveTaskPaths
  simp only [init, Bool.false_eq_true, if_false]
  split
  · rename_i hStays
    rw [Core.Prog.wp_bind, Core.Prog.wp_bind]
    refine Core.Prog.wp_mono ?_
      (wp_fsRelative_form root
        (resolvedWorkspacePath root config))
    intro workspaceSubdir _ hWorkspace
    rw [Core.Prog.wp_bind]
    refine Core.Prog.wp_mono ?_
      (wp_fsRelative_form root
        (resolvedOutputPath root config))
    intro outputSubdir _ _
    cases workspaceSubdir with
    | none => simp [Ending.isOk]
    | some key =>
        cases outputSubdir with
        | none => simp [Ending.isOk]
        | some output =>
            rcases hWorkspace key rfl with ⟨isThere, rfl⟩
            rw [Core.Prog.wp_pure, Core.Prog.wp_call_bind]
            refine ⟨trivial, fun lockStatus _ _ => ?_⟩
            split
            · rw [Core.Prog.wp_call_bind]
              refine ⟨trivial, fun _ _ _ _ => ?_⟩
              exact ⟨hStays, ⟨rfl, rfl⟩, isThere, rfl⟩
            · rename_i hRefused
              intro hOk
              exact absurd hOk hRefused
  · simp [Ending.isOk, Status.permissionDenied, Status.isOk]

/- The session after a config that was accepted. -/
theorem accepted_of_finishes
    {root : WorkspaceRoot}
    {config : TaskConfig}
    {trace : List ServerEvent}
    {s : DownloadSession}
    {ending : Ending}
    (hConfig :
      Core.Prog.Finishes anyAnswer
        (init.handleConfig root config) trace (s, ending))
    (hOk : ending.isOk = true) :
    s.Accepted root config :=
  Core.Prog.wp_runs (wp_handleConfig_accepted root config)
    hConfig hOk

end DownloadSession

end Drex

------------------------------------------------------------
-- Chunks Below A Key
------------------------------------------------------------

namespace Drex

namespace DownloadSession

/- The containment check of `HandleFileChunk`. -/
def passesCheck
    (s : DownloadSession)
    (chunk : TaskFileChunk) :
    Bool :=
  isSubPath s.paths.workspacePath
    (targetPath s.paths.workspacePath chunk)

end DownloadSession

/-
  The session has a chunk for this path pass its check, and
  opens that path below the directory its key names.
-/
def ServesPath
    (root : WorkspaceRoot)
    (s : DownloadSession)
    (relativePath : Str) : Prop :=
  ∀ chunk, chunk.relativePath = relativePath →
    s.passesCheck chunk = true ∧
      (DownloadSession.targetPath s.paths.workspacePath
          chunk).loc =
        placeOf root s.config.workspaceSubdir ++
          componentsOf relativePath

/- The target of an ordinary path below any normal base. -/
theorem targetPath_of_ordinary
    {base : Path}
    (hAbsolute : base.absolute = true)
    (hOrdinary : ∀ n ∈ base.names, n.Ordinary)
    {chunk : TaskFileChunk}
    (h : OrdinaryRelative chunk.relativePath) :
    componentsOf chunk.relativePath ≠ [] ∧
      DownloadSession.targetPath base chunk =
        ⟨true,
          base.names ++ componentsOf chunk.relativePath,
          false, by simp⟩ ∧
        ∀ n ∈ base.names ++ componentsOf chunk.relativePath,
          n.Ordinary := by
  rcases h with ⟨names, hNe, hNames, hSpelled⟩
  have hComponents :
      componentsOf chunk.relativePath = names := by
    rw [hSpelled, componentsOf_joinNames]
  rw [hComponents]
  refine ⟨hNe, ?_, ?_⟩
  · unfold DownloadSession.targetPath lexicallyNormalized
    rw [hSpelled, ofString_joinNames]
    exact
      Path.append_relative_normal hAbsolute hOrdinary hNames
        hNe
  · intro n hMem
    rcases List.mem_append.mp hMem with hMem | hMem
    · exact hOrdinary n hMem
    · exact hNames n hMem

/- A base that ends in a separator has no path below it. -/
theorem isSubPath_below_iff
    {base : Path}
    (hAbsolute : base.absolute = true)
    {tail : List Name}
    (hNe : tail ≠ []) :
    isSubPath base
        ⟨true, base.names ++ tail, false, by simp⟩ =
          true ↔
      base.slash = false := by
  cases hSlash : base.slash with
  | false =>
      rw [isSubPath_of_slash_false hAbsolute hSlash]
      simp
  | true =>
      rw [isSubPath_iff]
      cases tail with
      | nil => exact absurd rfl hNe
      | cons n ns =>
          simp [Path.elements, hAbsolute, hSlash]

/-
  After any accepted config, a chunk with a path of ordinary
  components is served if and only if the normal form of the
  workspace path does not end in a separator.  Neither
  string has U+0000.
-/
theorem servesPath_iff
    {root : WorkspaceRoot}
    {config : TaskConfig}
    (_hNul : NulFree config.workspaceSubdir)
    {trace : List ServerEvent}
    {s s' : DownloadSession}
    {ending : Ending}
    (hConfig :
      Core.Prog.Finishes anyAnswer
        (DownloadSession.init.handleConfig root config)
        trace (s, ending))
    (hOk : ending.isOk = true)
    (hPaths : s'.paths = s.paths)
    (hKept : s'.config = s.config)
    {relativePath : Str}
    (_hNulPath : NulFree relativePath)
    (hOrdinary : OrdinaryRelative relativePath) :
    ServesPath root s' relativePath ↔
      (resolvedWorkspacePath root config).slash = false := by
  have hAccepted :=
    DownloadSession.accepted_of_finishes hConfig hOk
  have hBelow := resolvedWorkspacePath_below hAccepted.stays
  have hBase :
      s'.paths.workspacePath =
        resolvedWorkspacePath root config := by
    rw [hPaths]
    exact hAccepted.receiving.workspacePath
  have hPlace :
      placeOf root s'.config.workspaceSubdir =
        (resolvedWorkspacePath root config).names := by
    rcases hAccepted.key with ⟨isThere, hKey⟩
    rw [hKept, hKey,
      placeOf_relativeSubdir isThere hAccepted.stays,
      resolvedWorkspacePath_names]
  have hTarget :
      ∀ chunk : TaskFileChunk,
        chunk.relativePath = relativePath →
          (s'.passesCheck chunk = true ↔
              (resolvedWorkspacePath root config).slash =
                false) ∧
            (DownloadSession.targetPath
                s'.paths.workspacePath chunk).loc =
              placeOf root s'.config.workspaceSubdir ++
                componentsOf relativePath := by
    rintro chunk rfl
    rcases
        targetPath_of_ordinary hBelow.absolute
          hBelow.ordinary hOrdinary
      with ⟨hNe, hPath, hNames⟩
    unfold DownloadSession.passesCheck
    rw [hBase, hPath, hPlace]
    constructor
    · exact isSubPath_below_iff hBelow.absolute hNe
    · exact Path.loc_of_ordinary hNames
  constructor
  · intro hServes
    have hAny :
        (⟨[], relativePath, true, true, 0⟩ :
          TaskFileChunk).relativePath = relativePath :=
      rfl
    exact (hTarget _ hAny).1.mp (hServes _ hAny).1
  · intro hSlash chunk hChunk
    rcases hTarget chunk hChunk with ⟨hCheck, hLoc⟩
    exact ⟨hCheck.mpr hSlash, hLoc⟩

/- `HandleConfig` where every call succeeds. -/
def grantedConfig (config : TaskConfig) :
    DownloadSession × Ending :=
  (Core.Prog.run (fun op _ => (Env.granting.answer op, ()))
    (DownloadSession.init.handleConfig smallRoot config)
    ()).1

theorem grantedConfig_finishes (config : TaskConfig) :
    ∃ trace,
      Core.Prog.Finishes anyAnswer
        (DownloadSession.init.handleConfig smallRoot config)
        trace
        ((grantedConfig config).1,
          (grantedConfig config).2) := by
  have hFollows :
      Core.Prog.Follows (Core.Prog.allowing anyAnswer)
        (fun op _ => (Env.granting.answer op, ())) := by
    intro op _
    trivial
  rcases
      Core.Prog.runs_run hFollows
        (DownloadSession.init.handleConfig smallRoot config)
        ()
    with ⟨trace, hTrace⟩
  exact ⟨trace, hTrace⟩

theorem smallPath_ordinary :
    OrdinaryRelative "f".toList :=
  ⟨[⟨"f".toList, by decide, by decide⟩], by simp,
    by decide, rfl⟩

/- Below the key `x` the path `f` is served. -/
theorem servesPath_small :
    ServesPath smallRoot
      (grantedConfig (smallConfig "x")).1 "f".toList := by
  have hOk :
      (grantedConfig (smallConfig "x")).2.isOk = true := by
    decide +kernel
  rcases grantedConfig_finishes (smallConfig "x") with
    ⟨trace, hConfig⟩
  apply
    (servesPath_iff (by decide) hConfig hOk rfl rfl
      (by decide) smallPath_ordinary).mpr
  decide +kernel

/- With a separator at the end of `x`, `f` is refused. -/
theorem slashSubdir_refuses :
    ∃ trace,
      Core.Prog.Finishes anyAnswer
          (DownloadSession.init.handleConfig smallRoot
            (smallConfig "x/"))
          trace
          ((grantedConfig (smallConfig "x/")).1,
            (grantedConfig (smallConfig "x/")).2) ∧
        (grantedConfig (smallConfig "x/")).2.isOk = true ∧
          OrdinaryRelative "f".toList ∧
            ¬ ServesPath smallRoot
              (grantedConfig (smallConfig "x/")).1
              "f".toList := by
  have hOk :
      (grantedConfig (smallConfig "x/")).2.isOk = true := by
    decide +kernel
  rcases grantedConfig_finishes (smallConfig "x/") with
    ⟨trace, hConfig⟩
  refine ⟨trace, hConfig, hOk, smallPath_ordinary, ?_⟩
  intro hServes
  have hPasses := (hServes (smallChunk "f") rfl).1
  revert hPasses
  decide +kernel

end Drex
